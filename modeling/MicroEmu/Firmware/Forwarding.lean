import MicroEmu.Firmware.Answers
import MicroEmu.Firmware.Traffic

/-!
# What the firmware forwards to the bridge

Every report that the host sets goes to the bridge behind whatever is logged about it, and
every ping is answered.  The log never takes the last places of the queue, so a frame of
another kind is refused only when three such frames wait already.
-/

namespace MicroEmu
namespace Firmware

/-! ## What is offered -/

/-- The report that a request forwards. -/
def SetReport.forwards (request : SetReport) : List (List UInt8) :=
  if request.interface = interfaceVendorHid then
    ((normalizedReport request.reportId (request.buffer.getD [])).map (·.cells)).toList
  else []

/-- The reports that a part of a turn forwards. -/
def LoopStep.forwards : LoopStep → List (List UInt8)
  | .callback (.setReport request) => request.forwards
  | _ => []

/-- The answers to frames of the bridge. -/
def answers (frames : List BridgeFrame) : List (List UInt8) :=
  (frames.filter fun frame => frame.type == bridgeFramePing).map fun _ => textBytes firmwareBuildId

/-- The frames, those of the log apart, that a part of a turn has for the bridge. -/
def Device.offers (device : Device) : LoopStep → List (UInt8 × List UInt8)
  | .callback (.setReport request) =>
      request.forwards.map fun report => (bridgeFrameCodexOutputReport, report)
  | .read bytes =>
      match bridgeParserFeed device.parser bytes with
      | some parser =>
          (answers (parser.callbacksSince device.parser)).map fun text => (bridgeFrameStatus, text)
      | none => []
  | _ => []

/-- The payloads of the frames of a type. -/
def ofType (type : UInt8) (frames : List (UInt8 × List UInt8)) : List (List UInt8) :=
  (frames.filter fun frame => frame.1 == type).map Prod.snd

theorem ofType_append (type : UInt8) (first second : List (UInt8 × List UInt8)) :
    ofType type (first ++ second) = ofType type first ++ ofType type second := by
  rw [ofType, List.filter_append, List.map_append]
  rfl

theorem ofType_map_self (type : UInt8) (payloads : List (List UInt8)) :
    ofType type (payloads.map fun payload => (type, payload)) = payloads := by
  have hall : ∀ frame ∈ payloads.map fun payload => (type, payload), (frame.1 == type) = true := by
    intro frame hframe
    obtain ⟨payload, -, rfl⟩ := List.mem_map.mp hframe
    exact beq_self_eq_true type
  rw [ofType, List.filter_eq_self.mpr hall, List.map_map]
  exact List.map_id _

theorem ofType_map_of_ne {type other : UInt8} (h : other ≠ type) (payloads : List (List UInt8)) :
    ofType type (payloads.map fun payload => (other, payload)) = [] := by
  rw [ofType, List.filter_eq_nil_iff.mpr, List.map_nil]
  intro frame hframe
  obtain ⟨payload, -, rfl⟩ := List.mem_map.mp hframe
  simpa using h

/-- The frames that wait for the bridge. -/
def State.waiting (state : State) : List FrameContent :=
  state.bridgeTx.frameRing.map BridgeFrame.content

/-! ## One frame at most -/

/-- From one state to another frames are offered, each once, behind and before operations
that leave no trace. -/
inductive Offers : State → List (UInt8 × List UInt8) → State → Prop where
  | quiet {before after : State} : Acts before .none after → Offers before [] after
  | push {before middle pushed after : State} {type : UInt8} {payload : List UInt8}
      {taken : Bool} : Acts before .none middle →
      (type = bridgeFrameCodexOutputReport ∨ type = bridgeFrameStatus) →
      payload.length ≤ bridgeMaxPayload →
      bridgeTxPush middle type payload = some (taken, pushed) → Acts pushed .none after →
      Offers before [(type, payload)] after

namespace Offers

variable {before after : State} {frames : List (UInt8 × List UInt8)}

/-- Some of the frames are accepted. -/
theorem exists_acts (h : Offers before frames after) :
    ∃ taken, taken.Sublist frames ∧ Acts before ⟨taken, []⟩ after := by
  cases h with
  | quiet hacts => exact ⟨[], .slnil, hacts⟩
  | @push _ _ _ type payload taken hfirst hknown hshort hpush hlast =>
      refine ⟨if taken then [(type, payload)] else [], ?_,
        ((Acts.bridgeTxPush hknown hpush).behind hfirst).ahead hlast⟩
      cases taken with
      | true => exact .refl _
      | false => exact List.nil_sublist _

/-- Behind something that leaves no trace. -/
theorem behind {middle : State} (h : Offers middle frames after)
    (hfirst : Acts before .none middle) : Offers before frames after := by
  cases h with
  | quiet hacts => exact .quiet (hacts.behind hfirst)
  | push hquiet hknown hshort hpush hlast =>
      exact .push (hquiet.behind hfirst) hknown hshort hpush hlast

end Offers

/-- Nothing that leaves no trace changes the frames that wait, those of the log apart. -/
theorem Ledger.spoken_eq {before after : Queues} {traffic : Traffic}
    (h : Ledger before traffic after) (hbytes : traffic.bytes = []) :
    spoken after.frames.items = spoken before.frames.items ++ traffic.frames := by
  obtain ⟨sent, hgone, hsent⟩ := h.written
  obtain rfl : sent = [] := List.map_eq_nil_iff.mp (hsent.symm.trans hbytes)
  rw [List.append_nil] at hgone
  have hspoken := h.records.spoken
  rw [Library.Fifo.accepted, Library.Fifo.accepted, hgone, spoken_append, spoken_append,
    List.append_assoc] at hspoken
  exact List.append_cancel_left hspoken

/-- A state whose queue the log has not filled. -/
structure State.Spare (state : State) : Prop where
  fits : state.Fits
  spare : (logs state.waiting).length ≤ maxLogs

theorem State.spare_init : State.init.Spare := ⟨State.fits_init, Nat.zero_le _⟩

theorem Acts.spare {before after : State} {traffic : Traffic} (h : Acts before traffic after)
    (hspare : before.Spare) : after.Spare := by
  obtain ⟨last, hdescribes, hfits, hledger⟩ :=
    h.exists_ledger hspare.fits (State.describes_queues hspare.fits)
  refine ⟨hfits, ?_⟩
  have hlogs := hledger.records.spare hspare.spare
  rw [hdescribes.frames] at hlogs
  exact hlogs

theorem Acts.spoken_waiting {before after : State} {traffic : Traffic}
    (h : Acts before traffic after) (hspare : before.Spare) (hbytes : traffic.bytes = []) :
    spoken after.waiting = spoken before.waiting ++ traffic.frames := by
  obtain ⟨last, hdescribes, hfits, hledger⟩ :=
    h.exists_ledger hspare.fits (State.describes_queues hspare.fits)
  have hspoken := hledger.spoken_eq hbytes
  rw [hdescribes.frames] at hspoken
  exact hspoken

/-- What is pushed while fewer than three frames wait, those of the log apart, is accepted. -/
theorem State.Spare.push_taken {before after : State} (h : before.Spare)
    (hroom : (spoken before.waiting).length < 3) {type : UInt8} {payload : List UInt8}
    (hshort : payload.length ≤ bridgeMaxPayload) {taken : Bool}
    (hpush : bridgeTxPush before type payload = some (taken, after)) : taken = true := by
  obtain ⟨pushed, next, hnext, -, -, hcases⟩ :=
    exists_bridgeTxPush_frame h.fits.bridgeTx type payload
  obtain ⟨rfl, -⟩ := Prod.mk.inj (Option.some.inj (hpush.symm.trans hnext))
  rcases hcases with ⟨-, hrefused, -⟩ | ⟨htaken, -⟩
  · have hfull := hrefused.resolve_left (Nat.not_lt.mpr hshort)
    have hlength := length_logs_add_spoken before.waiting
    have hspare := h.spare
    rw [State.waiting, List.length_map, hfull] at hlength
    rw [State.waiting] at hspare hroom
    rw [maxLogs] at hspare
    rw [bridgeTxQueueCapacity] at hspare hlength
    omega
  · exact htaken

theorem Offers.acts {before after : State} {frames : List (UInt8 × List UInt8)}
    (h : Offers before frames after) (hspare : before.Spare)
    (hroom : frames ≠ [] → (spoken before.waiting).length < 3) :
    Acts before ⟨frames, []⟩ after := by
  cases h with
  | quiet hacts => exact hacts
  | @push middle _ _ type payload taken hfirst hknown hshort hpush hlast =>
      have hmiddle : spoken middle.waiting = spoken before.waiting :=
        (hfirst.spoken_waiting hspare rfl).trans (List.append_nil _)
      have htaken : taken = true := (hfirst.spare hspare).push_taken
        (by rw [hmiddle]; exact hroom (List.cons_ne_nil _ _)) hshort hpush
      subst htaken
      exact ((Acts.bridgeTxPush hknown hpush).behind hfirst).ahead hlast

/-! ## Callbacks -/

theorem acts_queueFragments {json : Library.Block UInt8 jsonBytes} {total turns offset
    fragments : Nat} {state : State} {result : Option Nat × State}
    (h : queueFragments json total turns offset fragments state = some result) :
    Acts state .none result.2 := by
  induction turns generalizing offset fragments state with
  | zero => cases h
  | succ turns ih =>
      rw [queueFragments] at h
      split at h
      · obtain ⟨bytes, -, h⟩ := Option.bind_eq_some_iff.mp h
        obtain ⟨report, -, h⟩ := Option.bind_eq_some_iff.mp h
        obtain ⟨⟨pushed, queue⟩, hpush, h⟩ := Option.bind_eq_some_iff.mp h
        have hpushed := Acts.reportQueuePush hpush
        simp only at h
        split at h
        · obtain ⟨next, hlog, rfl⟩ := Option.map_eq_some_iff.mp h
          exact (Acts.bridgeLog hlog).behind hpushed
        · exact (ih h).behind hpushed
      · obtain rfl := Option.some.inj h
        exact .refl state

theorem acts_sendDeviceStatusResponse {before after : State} {id : Nat}
    (h : sendDeviceStatusResponse before id = some after) : Acts before .none after := by
  rw [sendDeviceStatusResponse] at h
  split at h
  · obtain rfl := Option.some.inj h
    exact .refl before
  · obtain ⟨first, -, h⟩ := Option.bind_eq_some_iff.mp h
    obtain ⟨second, -, h⟩ := Option.bind_eq_some_iff.mp h
    obtain ⟨third, -, h⟩ := Option.bind_eq_some_iff.mp h
    obtain ⟨⟨fragments, queued⟩, hqueued, h⟩ := Option.bind_eq_some_iff.mp h
    have hacts := acts_queueFragments hqueued
    cases fragments with
    | none =>
        obtain rfl := Option.some.inj h
        exact hacts
    | some fragments => exact (Acts.bridgeLog h).behind hacts

theorem offers_forward {before after : State} {report : Report}
    (h : (do
      let pushed ← bridgeTxPush before bridgeFrameCodexOutputReport report.cells
      if pushed.1 = false then bridgeLog pushed.2 "codex out queue full"
      else some pushed.2) = some after) :
    Offers before [(bridgeFrameCodexOutputReport, report.cells)] after := by
  obtain ⟨⟨taken, pushed⟩, hpush, h⟩ := Option.bind_eq_some_iff.mp h
  have hlast : Acts pushed .none after := by
    simp only at h
    split at h
    · exact .bridgeLog h
    · obtain rfl := Option.some.inj h
      exact .refl pushed
  exact .push (.refl before) (.inl rfl) (Nat.le_of_eq report.length_cells) hpush hlast

/-- A report is forwarded, behind what is logged and answered. -/
theorem offers_handleReport {before after : State} {request : SetReport} {size : Nat}
    {normalized : Report} (h : handleReport before request size normalized = some after) :
    Offers before [(bridgeFrameCodexOutputReport, normalized.cells)] after := by
  obtain ⟨logged, hlog, h⟩ := Option.bind_eq_some_iff.mp h
  obtain ⟨contains, -, h⟩ := Option.bind_eq_some_iff.mp h
  refine Offers.behind ?_ (.bridgeLog hlog)
  cases contains with
  | false => exact offers_forward h
  | true =>
      obtain ⟨id, -, h⟩ := Option.bind_eq_some_iff.mp h
      obtain ⟨asked, hasked, h⟩ := Option.bind_eq_some_iff.mp h
      obtain ⟨answered, hanswered, h⟩ := Option.bind_eq_some_iff.mp h
      exact (offers_forward h).behind
        ((acts_sendDeviceStatusResponse hanswered).behind (.bridgeLog hasked))

theorem offers_tudHidSetReportCb {before after : State} {request : SetReport}
    (h : tudHidSetReportCb before request = some after) :
    Offers before (request.forwards.map fun report => (bridgeFrameCodexOutputReport, report))
      after := by
  rw [SetReport.forwards]
  by_cases hinterface : request.interface = interfaceVendorHid
  · rw [if_pos hinterface]
    cases hnormalized : normalizedReport request.reportId (request.buffer.getD []) with
    | some normalized =>
        rw [tudHidSetReportCb_of_normalized hinterface hnormalized] at h
        exact offers_handleReport h
    | none =>
        simp only [tudHidSetReportCb, if_neg (not_not_intro hinterface), hnormalized] at h
        split at h
        · obtain rfl := Option.some.inj h
          exact .quiet (.refl before)
        · exact .quiet (.bridgeLog h)
  · rw [if_neg hinterface]
    simp only [tudHidSetReportCb, if_pos hinterface] at h
    exact .quiet (.bridgeLog h)

theorem offers_onCallback {before after : State} {callback : Callback}
    (h : onCallback before callback = some after) (device : Device) :
    Offers before (device.offers (.callback callback)) after := by
  cases callback with
  | setReport request => exact offers_tudHidSetReportCb h
  | getReport interface reportId reportType buffered requestedLength =>
      obtain ⟨⟨filled, next⟩, hnext, rfl⟩ := Option.map_eq_some_iff.mp h
      rw [tudHidGetReportCb] at hnext
      split at hnext
      · obtain ⟨-, rfl⟩ := Prod.mk.inj (Option.some.inj hnext)
        exact .quiet (.refl before)
      · obtain ⟨logged, hlog, hnext⟩ := Option.bind_eq_some_iff.mp hnext
        split at hnext <;>
          (obtain ⟨-, rfl⟩ := Prod.mk.inj (Option.some.inj hnext)
           exact .quiet (.bridgeLog hlog))
  | reportComplete interface length =>
      rw [onCallback] at h
      split at h
      · obtain rfl := Option.some.inj h
        exact .quiet (.refl before)
      · exact .quiet (.bridgeLog h)
  | mount => exact .quiet (.bridgeLog h)
  | unmount => exact .quiet (.bridgeLog h)
  | suspend remoteWakeupEnabled => exact .quiet (.bridgeLog h)
  | resume => exact .quiet (.bridgeLog h)
  | setProtocol interface protocol => exact .quiet (.bridgeLog h)
  | setIdle interface idleRate => exact .quiet (.bridgeLog h)

/-- A frame of the bridge is answered if it is a ping. -/
theorem offers_onBridgeFrame {before after : State} {frame : BridgeFrame}
    (h : onBridgeFrame before frame = some after) :
    Offers before ((answers [frame]).map fun text => (bridgeFrameStatus, text)) after := by
  obtain ⟨first, -, h⟩ := Option.bind_eq_some_iff.mp h
  split at h
  next hinput =>
    have hanswers : answers [frame] = [] := by
      rw [answers, List.filter_cons_of_neg (by rw [hinput.1]; decide)]
      rfl
    rw [hanswers]
    obtain ⟨⟨pushed, queue⟩, hpush, h⟩ := Option.bind_eq_some_iff.mp h
    have hpushed := Acts.reportQueuePush hpush
    simp only at h
    split at h
    · exact .quiet ((Acts.bridgeLog h).behind hpushed)
    · obtain rfl := Option.some.inj h
      exact .quiet hpushed
  · split at h
    next hping =>
      obtain ⟨⟨taken, pushed⟩, hpush, rfl⟩ := Option.map_eq_some_iff.mp h
      have hanswers : answers [frame] = [textBytes firmwareBuildId] := by
        simp [answers, hping]
      rw [hanswers]
      exact .push (.refl before) (.inr rfl) (by decide +kernel) hpush (.refl pushed)
    next hping =>
      have hanswers : answers [frame] = [] := by
        simp [answers, hping]
      rw [hanswers]
      obtain rfl := Option.some.inj h
      exact .quiet (.refl before)

end Firmware
end MicroEmu
