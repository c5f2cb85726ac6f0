import MicroEmu.Firmware.Main
import MicroEmu.Library.Chunks

/-!
# The queues of the firmware

The ring of input reports is a queue of at most eight reports, and no callback leaves an
array.  What is put into it is appended as far as there is room.
-/

namespace MicroEmu
namespace Firmware

open Library (Block toChunks_eq toChunks_nil)
open Library.Block (ring_store ring_pred length_ring exists_load)

/-! ## Input reports -/

/-- The reports in the queue, the first one first. -/
def ReportQueue.contents (queue : ReportQueue) : List (List UInt8) :=
  (queue.reports.ring queue.head.toNat queue.count.toNat).map Block.cells

/-- Head and count are within the array. -/
structure ReportQueue.Fits (queue : ReportQueue) : Prop where
  head : queue.head.toNat < reportQueueCapacity
  count : queue.count.toNat ≤ reportQueueCapacity

/-- A queue that the firmware can hold. -/
structure ReportQueue.Valid (queue : ReportQueue) : Prop where
  head : queue.head.toNat < reportQueueCapacity
  count : queue.count.toNat ≤ reportQueueCapacity
  ids : ∀ report ∈ queue.contents, ∃ payload, report = codexReportId :: payload

theorem ReportQueue.Valid.fits {queue : ReportQueue} (h : queue.Valid) : queue.Fits :=
  ⟨h.head, h.count⟩

theorem ReportQueue.length_contents (queue : ReportQueue) :
    queue.contents.length = queue.count.toNat := by
  rw [contents, List.length_map, length_ring _ (by decide)]

theorem toNat_ofNat_mod (index : Nat) {size : Nat} (hpositive : 0 < size) (hsize : size ≤ 256) :
    (UInt8.ofNat (index % size)).toNat = index % size := by
  rw [UInt8.toNat_ofNat']
  exact Nat.mod_eq_of_lt (Nat.lt_of_lt_of_le (Nat.mod_lt index hpositive) hsize)

/-- A report is refused by a full queue, and appended to any other. -/
theorem ReportQueue.Fits.exists_push {queue : ReportQueue} (h : queue.Fits) (report : Report) :
    ∃ pushed next, reportQueuePush queue report = some (pushed, next) ∧ next.Fits ∧
      ((pushed = false ∧ queue.contents.length = reportQueueCapacity ∧ next = queue) ∨
        (pushed = true ∧ queue.contents.length < reportQueueCapacity ∧
          next.contents = queue.contents ++ [report.cells])) := by
  rw [queue.length_contents]
  by_cases hfull : queue.count.toNat = reportQueueCapacity
  · exact ⟨false, queue, if_pos hfull, h, .inl ⟨rfl, hfull, rfl⟩⟩
  · have hroom : queue.count.toNat < reportQueueCapacity := Nat.lt_of_le_of_ne h.count hfull
    have hplace : (queue.head.toNat + queue.count.toNat) % reportQueueCapacity + [report].length ≤
        reportQueueCapacity := Nat.mod_lt _ (by decide)
    -- the counts are bytes, which eight entries do not exceed
    have hnext : (queue.count + 1).toNat = queue.count.toNat + 1 := by
      rw [UInt8.toNat_add]
      exact Nat.mod_eq_of_lt (Nat.lt_of_le_of_lt hroom (by decide))
    obtain ⟨stored, hstored, -⟩ := queue.reports.exists_store hplace
    have hpush : reportQueuePush queue report =
        some (true, ⟨stored, queue.head, queue.count + 1⟩) := by
      have hslot := toNat_ofNat_mod (queue.head.toNat + queue.count.toNat)
        (show 0 < reportQueueCapacity by decide) (by decide)
      simp only [reportQueuePush, if_neg hfull, hslot, hstored, Option.map_some]
    have hcontents : ReportQueue.contents ⟨stored, queue.head, queue.count + 1⟩ =
        queue.contents ++ [report.cells] := by
      show (stored.ring queue.head.toNat (queue.count + 1).toNat).map Block.cells = _
      rw [hnext, ring_store hroom hstored, List.map_append]
      rfl
    exact ⟨true, _, hpush, ⟨h.head, hnext.trans_le hroom⟩, .inr ⟨rfl, hroom, hcontents⟩⟩

/-- A report with the id is appended if there is room. -/
theorem exists_reportQueuePush {queue : ReportQueue} (h : queue.Valid) {report : Report}
    {payload : List UInt8} (hreport : report.cells = codexReportId :: payload) :
    ∃ pushed next, reportQueuePush queue report = some (pushed, next) ∧ next.Valid ∧
      (pushed = true ↔ queue.contents.length < reportQueueCapacity) ∧
      next.contents = (queue.contents ++ [report.cells]).take reportQueueCapacity := by
  obtain ⟨pushed, next, hpush, hfits, ⟨rfl, hfull, rfl⟩ | ⟨rfl, hroom, hcontents⟩⟩ :=
    h.fits.exists_push report
  · refine ⟨false, next, hpush, h, by simp [hfull], ?_⟩
    rw [List.take_append_of_le_length (Nat.le_of_eq hfull.symm),
      List.take_of_length_le (Nat.le_of_eq hfull)]
  · have htake : (queue.contents ++ [report.cells]).take reportQueueCapacity =
        queue.contents ++ [report.cells] := by
      refine List.take_of_length_le ?_
      rw [List.length_append]
      exact hroom
    refine ⟨true, next, hpush, ⟨hfits.head, hfits.count, ?_⟩, ⟨fun _ => hroom, fun _ => rfl⟩,
      hcontents.trans htake.symm⟩
    rw [hcontents]
    intro other hother
    rcases List.mem_append.mp hother with hother | hother
    · exact h.ids other hother
    · exact ⟨payload, (List.mem_singleton.mp hother).trans hreport⟩

/-- The first report leaves, and is the one at the head. -/
theorem ReportQueue.Fits.exists_pop {queue : ReportQueue} (h : queue.Fits)
    (hcount : queue.count ≠ 0) :
    ∃ report, queue.reports.load queue.head.toNat = some report ∧
      queue.contents = report.cells :: (reportQueuePop queue).contents ∧
      (reportQueuePop queue).Fits := by
  have hpositive : 0 < queue.count.toNat :=
    Nat.pos_of_ne_zero fun hzero => hcount (UInt8.toNat_inj.mp hzero)
  have hhead := toNat_ofNat_mod (queue.head.toNat + 1) (show 0 < reportQueueCapacity by decide)
    (by decide)
  have hless : (queue.count - 1).toNat = queue.count.toNat - 1 :=
    UInt8.toNat_sub_of_le _ _ (UInt8.le_iff_toNat_le.mpr hpositive)
  obtain ⟨report, hreport⟩ := queue.reports.exists_load h.head
  refine ⟨report, hreport, ?_, ?_, ?_⟩
  · rw [reportQueuePop, if_neg hcount, ReportQueue.contents,
      queue.reports.ring_pred h.head hpositive hreport]
    show _ = _ :: (queue.reports.ring (UInt8.ofNat _).toNat (queue.count - 1).toNat).map _
    rw [hhead, hless]
    rfl
  · rw [reportQueuePop, if_neg hcount]
    exact hhead.trans_lt (Nat.mod_lt _ (by decide))
  · rw [reportQueuePop, if_neg hcount]
    exact hless.trans_le ((Nat.sub_le _ 1).trans h.count)

theorem ReportQueue.Valid.exists_pop {queue : ReportQueue} (h : queue.Valid)
    (hcount : queue.count ≠ 0) :
    ∃ report, queue.reports.load queue.head.toNat = some report ∧
      queue.contents = report.cells :: (reportQueuePop queue).contents ∧
      (reportQueuePop queue).Valid := by
  obtain ⟨report, hreport, hcontents, hfits⟩ := h.fits.exists_pop hcount
  refine ⟨report, hreport, hcontents, hfits.head, hfits.count, fun other hother => ?_⟩
  refine h.ids other ?_
  rw [hcontents]
  exact List.mem_cons_of_mem _ hother

/-! ## Frames for the bridge -/

/-- A queue of frames that the firmware can hold. -/
structure BridgeTxQueue.Valid (queue : BridgeTxQueue) : Prop where
  head : queue.head.toNat < bridgeTxQueueCapacity
  count : queue.count.toNat ≤ bridgeTxQueueCapacity

/-- A state that the firmware can be in. -/
structure State.Valid (state : State) : Prop where
  inputReports : state.inputReports.Valid
  bridgeTx : state.bridgeTx.Valid

/-- The reports that wait in a state. -/
def State.queued (state : State) : List (List UInt8) := state.inputReports.contents

/-- The other queue, and the sequence number, do not matter to the reports. -/
structure State.Quiet (state next : State) : Prop where
  inputReports : next.inputReports = state.inputReports
  valid : state.Valid → next.Valid

theorem State.Quiet.refl (state : State) : state.Quiet state := ⟨rfl, id⟩

theorem State.Quiet.trans {first second third : State} (h : first.Quiet second)
    (h' : second.Quiet third) : first.Quiet third :=
  ⟨h'.inputReports.trans h.inputReports, fun hvalid => h'.valid (h.valid hvalid)⟩

theorem State.Quiet.queued {state next : State} (h : state.Quiet next) :
    next.queued = state.queued := congrArg ReportQueue.contents h.inputReports

theorem State.valid_init : State.init.Valid where
  inputReports := ⟨by decide, by decide, fun _ h => absurd h List.not_mem_nil⟩
  bridgeTx := ⟨by decide, by decide⟩

/-- The frames in the queue, the first one first. -/
def BridgeTxQueue.frameRing (queue : BridgeTxQueue) : List BridgeFrame :=
  queue.frames.ring queue.head.toNat queue.count.toNat

theorem BridgeTxQueue.length_frameRing (queue : BridgeTxQueue) :
    queue.frameRing.length = queue.count.toNat :=
  length_ring _ (by decide) _ _

/-- A frame is refused by a full queue, or if it is too long; any other is appended, with the
next sequence number. -/
theorem exists_bridgeTxPush_frame {state : State} (h : state.bridgeTx.Valid) (type : UInt8)
    (payload : List UInt8) :
    ∃ pushed next, bridgeTxPush state type payload = some (pushed, next) ∧
      next.inputReports = state.inputReports ∧ next.bridgeTx.Valid ∧
      ((pushed = false ∧ (bridgeMaxPayload < payload.length ∨
          state.bridgeTx.frameRing.length = bridgeTxQueueCapacity) ∧ next = state) ∨
        (pushed = true ∧ payload.length ≤ bridgeMaxPayload ∧
          state.bridgeTx.frameRing.length < bridgeTxQueueCapacity ∧
          next.nextSequence = state.nextSequence + 1 ∧
          ∃ frame : BridgeFrame, frame.length.toNat ≤ bridgeMaxPayload ∧
            frame.content = ⟨type, state.nextSequence, payload⟩ ∧
            next.bridgeTx.frameRing = state.bridgeTx.frameRing ++ [frame])) := by
  rw [BridgeTxQueue.length_frameRing]
  by_cases hfull : payload.length > bridgeMaxPayload ∨
      state.bridgeTx.count.toNat = bridgeTxQueueCapacity
  · exact ⟨false, state, if_pos hfull, rfl, h, .inl ⟨rfl, hfull, rfl⟩⟩
  · obtain ⟨hlong, hcount⟩ := not_or.mp hfull
    have hshort : payload.length ≤ 64 := Nat.not_lt.mp hlong
    have hroom := Nat.lt_of_le_of_ne h.count hcount
    have hslot := toNat_ofNat_mod (state.bridgeTx.head.toNat + state.bridgeTx.count.toNat)
      (show 0 < bridgeTxQueueCapacity by decide) (by decide)
    have hplace : (state.bridgeTx.head.toNat + state.bridgeTx.count.toNat) %
        bridgeTxQueueCapacity < bridgeTxQueueCapacity := Nat.mod_lt _ (by decide)
    have hnext : (state.bridgeTx.count + 1).toNat = state.bridgeTx.count.toNat + 1 := by
      rw [UInt8.toNat_add]
      exact Nat.mod_eq_of_lt (Nat.lt_of_le_of_lt hroom (by decide))
    have hlength : (UInt16.ofNat payload.length).toNat = payload.length := by
      rw [UInt16.toNat_ofNat']
      exact Nat.mod_eq_of_lt (by omega)
    obtain ⟨frame, hframe⟩ := state.bridgeTx.frames.exists_load hplace
    obtain ⟨written, hwritten, hcells⟩ := frame.payload.exists_store
      (show 0 + payload.length ≤ bridgeMaxPayload by omega)
    obtain ⟨frames, hframes, -⟩ := state.bridgeTx.frames.exists_store
      (show _ + [BridgeFrame.mk type state.nextSequence (UInt16.ofNat payload.length)
        written].length ≤ bridgeTxQueueCapacity from hplace)
    refine ⟨true,
      { state with
        bridgeTx := { state.bridgeTx with frames, count := state.bridgeTx.count + 1 }
        nextSequence := state.nextSequence + 1 }, ?_, rfl, ⟨h.head, hnext.trans_le hroom⟩,
      .inr ⟨rfl, hshort, hroom, rfl,
        ⟨type, state.nextSequence, UInt16.ofNat payload.length, written⟩,
        hlength.trans_le hshort, ?_, ?_⟩⟩
    · simp only [bridgeTxPush, if_neg hfull, hslot, hframe, hwritten, hframes,
        Option.bind_eq_bind, Option.bind_some]
    · -- behind the payload the slot holds what was there before
      rw [BridgeFrame.content, hlength, hcells, List.take_zero, List.nil_append,
        List.take_left]
    · show frames.ring state.bridgeTx.head.toNat (state.bridgeTx.count + 1).toNat = _
      rw [hnext, ring_store hroom hframes]
      rfl

theorem exists_bridgeTxPush {state : State} (h : state.Valid) (type : UInt8)
    (payload : List UInt8) :
    ∃ pushed next, bridgeTxPush state type payload = some (pushed, next) ∧ state.Quiet next := by
  obtain ⟨pushed, next, hpush, hreports, hvalid, -⟩ :=
    exists_bridgeTxPush_frame h.bridgeTx type payload
  exact ⟨pushed, next, hpush, hreports, fun h => ⟨hreports ▸ h.inputReports, hvalid⟩⟩

theorem exists_bridgeLog {state : State} (h : state.Valid) (text : String) :
    ∃ next, bridgeLog state text = some next ∧ state.Quiet next := by
  by_cases hfull : state.bridgeTx.count.toNat > bridgeTxQueueCapacity - 4
  · exact ⟨state, if_pos hfull, .refl state⟩
  · by_cases hempty : textBytes text = []
    · exact ⟨state, by simp only [bridgeLog, if_neg hfull, if_pos hempty], .refl state⟩
    · obtain ⟨pushed, next, hpush, hquiet⟩ :=
        exists_bridgeTxPush h bridgeFrameLog ((textBytes text).take (bridgeMaxPayload - 1))
      exact ⟨next, by simp only [bridgeLog, if_neg hfull, if_neg hempty, hpush, Option.map_some],
        hquiet⟩

/-! ## Callbacks of the bridge and of the USB stack -/

/-- The input report that a frame carries, if it is one. -/
def inputReport (frame : BridgeFrame) : List (List UInt8) :=
  if frame.type = bridgeFrameCodexInputReport ∧ frame.length.toNat = codexReportWireBytes ∧
      frame.payload.load 0 = some codexReportId then [frame.payload.cells]
  else []

theorem exists_cons_of_load {size : Nat} {block : Block UInt8 size} {value : UInt8}
    (h : block.load 0 = some value) : ∃ rest, block.cells = value :: rest := by
  rw [Block.load] at h
  cases hcells : block.cells with
  | nil => rw [hcells] at h; cases h
  | cons first rest =>
      rw [hcells] at h
      obtain rfl := Option.some.inj h
      exact ⟨rest, rfl⟩

theorem State.Valid.push {state : State} (h : state.Valid) {queue : ReportQueue}
    (hqueue : queue.Valid) : State.Valid { state with inputReports := queue } :=
  ⟨hqueue, h.bridgeTx⟩

/-- A frame of the bridge appends its report, if there is room. -/
theorem exists_onBridgeFrame {state : State} (h : state.Valid) (frame : BridgeFrame) :
    ∃ next, onBridgeFrame state frame = some next ∧ next.Valid ∧
      next.queued = (state.queued ++ inputReport frame).take reportQueueCapacity := by
  have hfew : state.queued.take reportQueueCapacity = state.queued := by
    refine List.take_of_length_le ?_
    rw [State.queued, ReportQueue.length_contents]
    exact h.inputReports.count
  obtain ⟨first, hfirst⟩ := frame.payload.exists_load (show 0 < bridgeMaxPayload by decide)
  have hload : frame.payload.load 0 = some codexReportId ↔ first = codexReportId := by
    rw [hfirst, Option.some.injEq]
  by_cases hinput : frame.type = bridgeFrameCodexInputReport ∧
      frame.length.toNat = codexReportWireBytes ∧ first = codexReportId
  · obtain ⟨payload, hpayload⟩ := exists_cons_of_load (hload.mpr hinput.2.2)
    obtain ⟨pushed, queue, hpush, hvalid, -, hcontents⟩ :=
      exists_reportQueuePush h.inputReports hpayload
    have hreport : inputReport frame = [frame.payload.cells] :=
      if_pos ⟨hinput.1, hinput.2.1, hload.mpr hinput.2.2⟩
    cases pushed with
    | true =>
        refine ⟨{ state with inputReports := queue }, ?_, h.push hvalid, ?_⟩
        · simp only [onBridgeFrame, hfirst, if_pos hinput, hpush, Option.bind_eq_bind,
            Option.bind_some, Bool.true_eq_false, if_false]
        · rw [hreport]
          exact hcontents
    | false =>
        obtain ⟨next, hlog, hquiet⟩ := exists_bridgeLog (h.push hvalid)
          ("in queue full " ++ field "seq" frame.sequence.toNat)
        refine ⟨next, ?_, hquiet.valid (h.push hvalid), ?_⟩
        · simp only [onBridgeFrame, hfirst, if_pos hinput, hpush, Option.bind_eq_bind,
            Option.bind_some, if_true, hlog]
        · rw [hquiet.queued, hreport]
          exact hcontents
  · have hreport : inputReport frame = [] :=
      if_neg fun hother => hinput ⟨hother.1, hother.2.1, hload.mp hother.2.2⟩
    rw [hreport, List.append_nil, hfew]
    by_cases hping : frame.type = bridgeFramePing
    · obtain ⟨pushed, next, hpush, hquiet⟩ :=
        exists_bridgeTxPush h bridgeFrameStatus (textBytes firmwareBuildId)
      refine ⟨next, ?_, hquiet.valid h, hquiet.queued⟩
      simp only [onBridgeFrame, hfirst, if_neg hinput, if_pos hping, hpush, Option.bind_eq_bind,
        Option.bind_some, Option.map_some]
    · refine ⟨state, ?_, h, rfl⟩
      simp only [onBridgeFrame, hfirst, if_neg hinput, if_neg hping, Option.bind_eq_bind,
        Option.bind_some]

/-- A flush hands over the first report, if any. -/
theorem exists_hidInputFlush {state : State} (h : state.Valid) (ready accepted : Bool) :
    ∃ sent next, hidInputFlush state ready accepted = some (sent, next) ∧ next.Valid ∧
      sent.toList ++ next.queued = state.queued := by
  by_cases hidle : state.inputReports.count = 0 ∨ ready = false
  · exact ⟨none, state, if_pos hidle, h, rfl⟩
  · obtain ⟨hcount, -⟩ := not_or.mp hidle
    obtain ⟨report, hload, hcontents, hvalid⟩ := h.inputReports.exists_pop hcount
    obtain ⟨payload, hpayload⟩ := h.inputReports.ids report.cells
      (by rw [hcontents]; exact List.mem_cons_self ..)
    -- the stack is given the id and the 63 bytes behind it: the report as it was queued
    have hslice : report.slice 1 codexReportPayloadBytes = some payload := by
      have hlength := report.length_cells
      rw [report.slice_eq (by decide), hpayload, List.drop_succ_cons, List.drop_zero]
      rw [hpayload, List.length_cons] at hlength
      exact congrArg some (List.take_of_length_le (Nat.le_of_eq (Nat.succ.inj hlength)))
    cases accepted with
    | false =>
        refine ⟨none, state, ?_, h, rfl⟩
        simp only [hidInputFlush, if_neg hidle, hload, hslice, Option.bind_eq_bind,
          Option.bind_some, if_true]
    | true =>
        obtain ⟨id, hid⟩ := report.exists_load (show 0 < codexReportWireBytes by decide)
        obtain ⟨chan, hchan⟩ := report.exists_load (show 1 < codexReportWireBytes by decide)
        obtain ⟨length, hlength⟩ := report.exists_load (show 2 < codexReportWireBytes by decide)
        obtain ⟨next, hlog, hquiet⟩ := exists_bridgeLog h
          ("hid in accepted " ++ field "id" id.toNat ++ " " ++ field "chan" chan.toNat ++ " " ++
            field "len" length.toNat ++ " " ++
            field "queued" (state.inputReports.count.toNat - 1))
        refine ⟨some (codexReportId :: payload),
          { next with inputReports := reportQueuePop next.inputReports }, ?_, ?_, ?_⟩
        · simp only [hidInputFlush, if_neg hidle, hload, hslice, hid, hchan, hlength, hlog,
            Option.bind_eq_bind, Option.bind_some, Bool.true_eq_false, if_false]
        · rw [hquiet.inputReports]
          exact (hquiet.valid h).push hvalid
        · rw [hquiet.inputReports, State.queued, State.queued, hcontents, hpayload]
          rfl

end Firmware
end MicroEmu
