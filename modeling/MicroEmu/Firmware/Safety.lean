import MicroEmu.Firmware.Uplink

/-!
# The loop stays in its arrays

From the start, no turn of the loop leaves an array, whatever is read, whatever is called
back and whatever the stack takes.  One thing is undefined: the `int` that the id of a
request for the status is read into may overflow.
-/

namespace MicroEmu
namespace Firmware

open Library (Cursor)

/-! ## Reports whose id overflows -/

/-- The report is accepted, asks for the status, and states an id that does not fit an
`int`. -/
def SetReport.Overflows (request : SetReport) : Prop :=
  request.interface = interfaceVendorHid ∧
    ∃ normalized text,
      normalizedReport request.reportId (request.buffer.getD []) = some normalized ∧
      Carries normalized text ∧ text.length ≤ 60 ∧ deviceStatus <:+: text ∧
      intMax < statedId text

/-- A callback that is given such a report. -/
def Callback.Overflows : Callback → Prop
  | .setReport request => request.Overflows
  | _ => False

theorem SetReport.Overflows.asks {request : SetReport} (h : request.Overflows) :
    request.asks = true := by
  obtain ⟨hinterface, normalized, text, hnormalized, hcarries, hshort, hwithin, -⟩ := h
  have hcontains := codexPayloadContains_eq hcarries (show deviceStatus ≠ [] by decide)
  rw [decide_eq_true ⟨hshort, hwithin⟩] at hcontains
  rw [SetReport.asks, hnormalized, Option.bind_some, hcontains]
  exact decide_eq_true ⟨hinterface, rfl⟩

/-- A report that the host sets is handled, unless its id overflows. -/
theorem tudHidSetReportCb_cases {state : State} (h : state.Valid) (request : SetReport) :
    (request.Overflows ∧ tudHidSetReportCb state request = none) ∨
      (¬ request.Overflows ∧ ∃ next, tudHidSetReportCb state request = some next ∧
        next.Valid) := by
  cases hasks : request.asks with
  | false =>
      obtain ⟨next, hnext, hquiet⟩ := exists_tudHidSetReportCb_unasked h hasks
      refine .inr ⟨fun hoverflows => ?_, next, hnext, hquiet.valid h⟩
      rw [hoverflows.asks] at hasks
      cases hasks
  | true =>
      have hboth := hasks
      rw [SetReport.asks, decide_eq_true_iff] at hboth
      obtain ⟨hinterface, hbind⟩ := hboth
      obtain ⟨normalized, hnormalized, hcontains⟩ := Option.bind_eq_some_iff.mp hbind
      obtain ⟨contains, hother, hcarries⟩ := exists_codexPayloadContains normalized
      obtain rfl : true = contains := Option.some.inj (hcontains.symm.trans hother)
      obtain ⟨text, htext⟩ := hcarries rfl
      have hscan := codexPayloadContains_eq htext (show deviceStatus ≠ [] by decide)
      obtain ⟨hshort, hwithin⟩ : text.length ≤ 60 ∧ deviceStatus <:+: text :=
        of_decide_eq_true (Option.some.inj (hscan.symm.trans hcontains))
      have hparse := codexPayloadParseId_eq htext
      rw [tudHidSetReportCb_of_normalized hinterface hnormalized]
      by_cases hlarge : statedId text ≤ intMax
      · rw [if_pos hlarge] at hparse
        obtain ⟨next, hnext, hvalid, -⟩ :=
          exists_handleReport_asked h request (request.buffer.getD []).length hcontains hparse
            hlarge
        refine .inr ⟨?_, next, hnext, hvalid⟩
        rintro ⟨-, other, said, hsame, hsaid, -, -, hover⟩
        obtain rfl := Option.some.inj (hnormalized.symm.trans hsame)
        -- both read the same chunk
        have hagain := codexPayloadParseId_eq hsaid
        rw [hparse, if_neg (Nat.not_le.mpr hover)] at hagain
        cases hagain
      · rw [if_neg hlarge] at hparse
        exact .inl ⟨⟨hinterface, normalized, text, hnormalized, htext, hshort, hwithin,
          Nat.lt_of_not_le hlarge⟩, handleReport_undefined h request _ hcontains hparse⟩

theorem onCallback_cases {state : State} (h : state.Valid) (callback : Callback) :
    (callback.Overflows ∧ onCallback state callback = none) ∨
      (¬ callback.Overflows ∧ ∃ next, onCallback state callback = some next ∧ next.Valid) := by
  have hlog (text : String) : ∃ next, bridgeLog state text = some next ∧ next.Valid := by
    obtain ⟨next, hnext, hquiet⟩ := exists_bridgeLog h text
    exact ⟨next, hnext, hquiet.valid h⟩
  cases callback with
  | setReport request => exact tudHidSetReportCb_cases h request
  | getReport interface reportId reportType buffered requestedLength =>
      refine .inr ⟨not_false, ?_⟩
      rw [onCallback, tudHidGetReportCb]
      split
      · exact ⟨state, rfl, h⟩
      · obtain ⟨next, hnext, hvalid⟩ := hlog ("hid get " ++ field "inst" interface.toNat ++
          " " ++ field "id" reportId.toNat ++ " " ++ field "type" reportType.toNat ++ " " ++
          field "len" requestedLength.toNat)
        refine ⟨next, ?_, hvalid⟩
        rw [hnext, Option.bind_eq_bind, Option.bind_some]
        split <;> rfl
  | reportComplete interface length =>
      refine .inr ⟨not_false, ?_⟩
      rw [onCallback]
      split
      · exact ⟨state, rfl, h⟩
      · exact hlog _
  | mount => exact .inr ⟨not_false, hlog _⟩
  | unmount => exact .inr ⟨not_false, hlog _⟩
  | suspend remoteWakeupEnabled => exact .inr ⟨not_false, hlog _⟩
  | resume => exact .inr ⟨not_false, hlog _⟩
  | setProtocol interface protocol => exact .inr ⟨not_false, hlog _⟩
  | setIdle interface idleRate => exact .inr ⟨not_false, hlog _⟩

/-! ## One part of a turn -/

/-- The queues are as they should be, and the parser is where a reader would be. -/
structure Device.Sound (device : Device) : Prop where
  valid : device.state.Valid
  fits : device.state.Fits
  parser : ∃ cursor found, Follows device.parser cursor found ∧
    reader.look cursor.buffer = .wait cursor.buffer

theorem Device.sound_boot : Device.boot.Sound where
  valid := State.valid_init
  fits := State.fits_init
  parser := ⟨.start, [], follows_init, rfl⟩

/-- A part of a turn that is given a report whose id overflows. -/
def LoopStep.Overflows : LoopStep → Prop
  | .callback called => called.Overflows
  | _ => False

theorem exists_onBridgeFrames {state : State} (h : state.Valid) (frames : List BridgeFrame) :
    ∃ next, frames.foldlM onBridgeFrame state = some next ∧ next.Valid := by
  induction frames generalizing state with
  | nil => exact ⟨state, rfl, h⟩
  | cons frame frames ih =>
      obtain ⟨next, hnext, hvalid, -⟩ := exists_onBridgeFrame h frame
      obtain ⟨last, hlast, hends⟩ := ih hvalid
      refine ⟨last, ?_, hends⟩
      rw [List.foldlM_cons, hnext]
      exact hlast

/-- The queue of reports is left alone by a flush of the frames. -/
theorem inputReports_bridgeTxFlush {state next : State} {connected : Bool} {available : Nat}
    {written : Option (List UInt8)}
    (h : bridgeTxFlush state connected available = some (written, next)) :
    next.inputReports = state.inputReports := by
  rw [bridgeTxFlush] at h
  split at h
  · obtain ⟨-, rfl⟩ := Prod.mk.inj (Option.some.inj h)
    rfl
  · obtain ⟨frame, -, h⟩ := Option.bind_eq_some_iff.mp h
    obtain ⟨encoded, -, h⟩ := Option.bind_eq_some_iff.mp h
    split at h
    · obtain ⟨-, rfl⟩ := Prod.mk.inj (Option.some.inj h)
      rfl
    · obtain ⟨bytes, -, h⟩ := Option.bind_eq_some_iff.mp h
      obtain ⟨-, rfl⟩ := Prod.mk.inj (Option.some.inj h)
      rfl

/-- The step lemma: only an overflow is undefined. -/
theorem Device.Sound.step_cases {device : Device} (h : device.Sound) (step : LoopStep) :
    (step.Overflows ∧ device.step step = none) ∨
      (¬ step.Overflows ∧ ∃ output next, device.step step = some (output, next) ∧
        next.Sound) := by
  -- whatever is defined keeps the queues in their arrays
  have hkeeps {output : Output} {next : Device} (hnext : device.step step = some (output, next)) :
      next.state.Fits := by
    obtain ⟨taken, -, hacts⟩ := (serves hnext).exists_acts
    obtain ⟨last, -, hfits, -⟩ := hacts.exists_ledger h.fits (State.describes_queues h.fits)
    exact hfits
  cases step with
  | callback callback =>
      rcases onCallback_cases h.valid callback with ⟨hoverflows, hnone⟩ | ⟨hdefined, next, hnext,
        hvalid⟩
      · exact .inl ⟨hoverflows, by rw [Device.step, hnone]; rfl⟩
      · have hstep : device.step (.callback callback) =
            some (.none, { device with state := next }) := by
          rw [Device.step, hnext]
          rfl
        exact .inr ⟨hdefined, _, _, hstep, hvalid, hkeeps hstep, h.parser⟩
  | read bytes =>
      obtain ⟨cursor, found, hfollows, hsettled⟩ := h.parser
      obtain ⟨parser, hparser, hlast⟩ :=
        hfollows.exists_feedTurns hsettled bytes (Nat.lt_succ_self bytes.length)
      obtain ⟨next, hnext, hvalid⟩ :=
        exists_onBridgeFrames h.valid (parser.callbacksSince device.parser)
      have hstep : device.step (.read bytes) =
          some (.none, { device with parser, state := next }) := by
        rw [Device.step, bridgeParserFeed, hparser, Option.bind_eq_bind, Option.bind_some, hnext]
        rfl
      refine .inr ⟨not_false, _, _, hstep, hvalid, hkeeps hstep, _, _, hlast, ?_⟩
      exact Library.Scanner.look_scan reader_reads.incremental.look_kept _
  | inputFlush ready accepted =>
      obtain ⟨sent, next, hnext, hvalid, -⟩ := exists_hidInputFlush h.valid ready accepted
      have hstep : device.step (.inputFlush ready accepted) =
          some (⟨sent.toList, []⟩, { device with state := next }) := by
        rw [Device.step, hnext]
        rfl
      exact .inr ⟨not_false, _, _, hstep, hvalid, hkeeps hstep, h.parser⟩
  | bootLog connected =>
      by_cases hpending : device.bootLogPending ∧ connected
      · obtain ⟨next, hnext, hquiet⟩ := exists_bridgeLog h.valid
          ("boot " ++ firmwareBuildId ++ " usage-page=FF00")
        have hstep : device.step (.bootLog connected) =
            some (.none, { device with state := next, bootLogPending := false }) := by
          rw [Device.step, if_pos hpending, hnext]
          rfl
        exact .inr ⟨not_false, _, _, hstep, hquiet.valid h.valid, hkeeps hstep, h.parser⟩
      · exact .inr ⟨not_false, _, _, by rw [Device.step, if_neg hpending], h⟩
  | txFlush connected available =>
      obtain ⟨next, hnext, hfits, -⟩ :=
        (State.describes_queues h.fits).exists_bridgeTxFlush h.fits connected available
      have hreports := inputReports_bridgeTxFlush hnext
      have hstep : device.step (.txFlush connected available) = some
          (⟨[], (((device.state.queues h.fits).perform
            (.bridgeTxFlush connected available)).1.bytes).toList⟩,
            { device with state := next }) := by
        rw [Device.step, hnext]
        rfl
      exact .inr ⟨not_false, _, _, hstep,
        ⟨hreports ▸ h.valid.inputReports, hfits.bridgeTx⟩, hfits, h.parser⟩

/-! ## Runs -/

/-- The run lemma. -/
theorem Device.Sound.run_eq_none_iff {device : Device} (h : device.Sound)
    (steps : List LoopStep) :
    (device.run steps = none ↔ ∃ step ∈ steps, step.Overflows) ∧
      ∀ output last, device.run steps = some (output, last) → last.Sound := by
  induction steps generalizing device with
  | nil =>
      refine ⟨⟨fun hnone => ?_, fun hsome => ?_⟩, fun output last hrun => ?_⟩
      · cases hnone
      · obtain ⟨step, hstep, -⟩ := hsome
        cases hstep
      · obtain ⟨-, rfl⟩ := Prod.mk.inj (Option.some.inj hrun)
        exact h
  | cons step steps ih =>
      rcases h.step_cases step with ⟨hoverflows, hnone⟩ | ⟨hdefined, first, next, hnext, hsound⟩
      · rw [run, hnone, Option.bind_eq_bind, Option.bind_none]
        exact ⟨⟨fun _ => ⟨step, List.mem_cons_self .., hoverflows⟩, fun _ => rfl⟩,
          fun output last hrun => absurd hrun (Option.some_ne_none _).symm⟩
      · obtain ⟨hiff, hlast⟩ := ih hsound
        have hrun : device.run (step :: steps) =
            (next.run steps).map fun last => (first.append last.1, last.2) := by
          rw [run, hnext, Option.bind_eq_bind, Option.bind_some]
          cases next.run steps <;> rfl
        rw [hrun]
        constructor
        · rw [Option.map_eq_none_iff, hiff]
          constructor
          · rintro ⟨other, hother, hoverflows⟩
            exact ⟨other, List.mem_cons_of_mem _ hother, hoverflows⟩
          · rintro ⟨other, hother, hoverflows⟩
            rcases List.mem_cons.mp hother with rfl | hother
            · exact absurd hoverflows hdefined
            · exact ⟨other, hother, hoverflows⟩
        · intro output last hmapped
          obtain ⟨⟨later, final⟩, hfinal, heq⟩ := Option.map_eq_some_iff.mp hmapped
          obtain ⟨-, rfl⟩ := Prod.mk.inj heq
          exact hlast _ _ hfinal

theorem Turn.overflows_iff (turn : Turn) :
    (∃ step ∈ turn.steps, step.Overflows) ↔ ∃ callback ∈ turn.callbacks, callback.Overflows := by
  constructor
  · rintro ⟨step, hstep, hoverflows⟩
    rcases List.mem_append.mp hstep with hstep | hstep
    · rcases List.mem_append.mp hstep with hstep | hstep
      · obtain ⟨callback, hcallback, rfl⟩ := List.mem_map.mp hstep
        exact ⟨callback, hcallback, hoverflows⟩
      · obtain ⟨bytes, -, rfl⟩ := List.mem_map.mp hstep
        exact hoverflows.elim
    · -- neither flush is given a report, nor is the line of the boot
      simp only [List.mem_cons, List.not_mem_nil, or_false] at hstep
      rcases hstep with rfl | rfl | rfl <;> exact hoverflows.elim
  · rintro ⟨callback, hcallback, hoverflows⟩
    exact ⟨.callback callback,
      List.mem_append_left _ (List.mem_append_left _ (List.mem_map_of_mem hcallback)), hoverflows⟩

/-- The loop of `main` is defined for whatever turns there are, and stays in its arrays,
exactly if no report that the host sets asks for the status with an id that does not fit an
`int`. -/
theorem mainLoop_eq_none_iff (turns : List Turn) :
    mainLoop turns = none ↔
      ∃ turn ∈ turns, ∃ callback ∈ turn.callbacks, callback.Overflows := by
  rw [mainLoop, (Device.sound_boot.run_eq_none_iff _).1]
  constructor
  · rintro ⟨step, hstep, hoverflows⟩
    obtain ⟨turn, hturn, hstep⟩ := List.mem_flatMap.mp hstep
    exact ⟨turn, hturn, turn.overflows_iff.mp ⟨step, hstep, hoverflows⟩⟩
  · rintro ⟨turn, hturn, hcallback⟩
    obtain ⟨step, hstep, hoverflows⟩ := turn.overflows_iff.mpr hcallback
    exact ⟨step, List.mem_flatMap.mpr ⟨turn, hturn, hstep⟩, hoverflows⟩

end Firmware
end MicroEmu
