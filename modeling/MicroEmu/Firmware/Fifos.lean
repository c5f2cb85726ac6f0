import MicroEmu.Firmware.Queues
import MicroEmu.Firmware.RoundTrip
import MicroEmu.Library.Fifo

/-!
# The queues as bounded FIFOs

Head and count of a ring are written one after the other, and a flush looks at the first
item before it decides whether to take it.  Whatever is done to them, the two rings act as
queues of eight reports and of 32 frames.
-/

namespace MicroEmu
namespace Firmware

open Library (Block Fifo)
open Library.Block (ring_pred exists_load)

/-! ## What is done to the queues -/

/-- An operation on the queues, with what the USB stack answers. -/
inductive Op where
  | reportQueuePush (report : Report)
  | reportQueuePop
  | bridgeTxPush (type : UInt8) (payload : List UInt8)
  | bridgeLog (text : String)
  | bridgeTxFlush (connected : Bool) (available : Nat)
  | hidInputFlush (ready accepted : Bool)

/-- What an operation returns, the report that it takes from its queue, and the bytes that
it writes. -/
structure Outcome where
  pushed : Option Bool := none
  report : Option (List UInt8) := none
  bytes : Option (List UInt8) := none
  deriving DecidableEq, Repr

/-- An operation; a report is looked at before it is popped. -/
def State.perform (state : State) : Op → Option (Outcome × State)
  | .reportQueuePush report =>
      (Firmware.reportQueuePush state.inputReports report).map fun pushed =>
        ({ pushed := some pushed.1 }, { state with inputReports := pushed.2 })
  | .reportQueuePop =>
      if state.inputReports.count = 0 then
        some ({}, { state with inputReports := Firmware.reportQueuePop state.inputReports })
      else
        (state.inputReports.reports.load state.inputReports.head.toNat).map fun report =>
          ({ report := some report.cells },
            { state with inputReports := Firmware.reportQueuePop state.inputReports })
  | .bridgeTxPush type payload =>
      (Firmware.bridgeTxPush state type payload).map fun pushed =>
        ({ pushed := some pushed.1 }, pushed.2)
  | .bridgeLog text => (Firmware.bridgeLog state text).map fun state => ({}, state)
  | .bridgeTxFlush connected available =>
      (Firmware.bridgeTxFlush state connected available).map fun flushed =>
        ({ bytes := flushed.1 }, flushed.2)
  | .hidInputFlush ready accepted =>
      (Firmware.hidInputFlush state ready accepted).map fun flushed =>
        ({ report := flushed.1 }, flushed.2)

/-- Operations one after another. -/
def State.performAll (state : State) : List Op → Option (List Outcome × State)
  | [] => some ([], state)
  | op :: ops => do
      let first ← state.perform op
      let last ← first.2.performAll ops
      some (first.1 :: last.1, last.2)

/-! ## The same with FIFOs -/

/-- Two FIFOs, and the number of the next frame. -/
structure Queues where
  reports : Fifo (List UInt8) reportQueueCapacity
  frames : Fifo FrameContent bridgeTxQueueCapacity
  nextSequence : UInt16

namespace Queues

/-- A frame that is not too long is numbered and pushed. -/
def pushFrame (queues : Queues) (type : UInt8) (payload : List UInt8) : Bool × Queues :=
  if bridgeMaxPayload < payload.length then (false, queues)
  else
    let pushed := queues.frames.push ⟨type, queues.nextSequence, payload⟩
    (pushed.1,
      { queues with
        frames := pushed.2
        nextSequence :=
          if pushed.1 then queues.nextSequence + 1 else queues.nextSequence })

/-- A log is a frame that leaves room for others, and is cut to the length of one. -/
def log (queues : Queues) (text : String) : Queues :=
  if bridgeTxQueueCapacity - 4 < queues.frames.items.length ∨ textBytes text = [] then queues
  else
    (queues.pushFrame bridgeFrameLog ((textBytes text).take (bridgeMaxPayload - 1))).2

/-- What is logged about a report that the USB stack has taken. -/
def acceptedText (report : List UInt8) (left : Nat) : String :=
  "hid in accepted " ++ field "id" (report.getD 0 0).toNat ++ " " ++
    field "chan" (report.getD 1 0).toNat ++ " " ++ field "len" (report.getD 2 0).toNat ++ " " ++
    field "queued" left

/-- A report as the USB stack is given it. -/
def withReportId (report : List UInt8) : List UInt8 := codexReportId :: report.drop 1

/-- An operation.  A flush that cannot send changes nothing. -/
def perform (queues : Queues) : Op → Outcome × Queues
  | .reportQueuePush report =>
      let pushed := queues.reports.push report.cells
      ({ pushed := some pushed.1 }, { queues with reports := pushed.2 })
  | .reportQueuePop =>
      ({ report := queues.reports.items.head? }, { queues with reports := queues.reports.pop })
  | .bridgeTxPush type payload =>
      let pushed := queues.pushFrame type payload
      ({ pushed := some pushed.1 }, pushed.2)
  | .bridgeLog text => ({}, queues.log text)
  | .bridgeTxFlush connected available =>
      match queues.frames.items.head? with
      | none => ({}, queues)
      | some frame =>
          if connected = true ∧ frame.encoded.length ≤ available then
            ({ bytes := some frame.encoded }, { queues with frames := queues.frames.pop })
          else ({}, queues)
  | .hidInputFlush ready accepted =>
      match queues.reports.items.head? with
      | none => ({}, queues)
      | some report =>
          if ready = true ∧ accepted = true then
            ({ report := some (withReportId report) },
              { queues.log (acceptedText report (queues.reports.items.length - 1)) with
                reports := queues.reports.pop })
          else ({}, queues)

/-- Operations one after another. -/
def performAll (queues : Queues) : List Op → List Outcome × Queues
  | [] => ([], queues)
  | op :: ops =>
      let first := queues.perform op
      let last := first.2.performAll ops
      (first.1 :: last.1, last.2)

/-- A flush returns bytes only, or a report only. -/
theorem perform_bridgeTxFlush (queues : Queues) (connected : Bool) (available : Nat) :
    (queues.perform (.bridgeTxFlush connected available)).1 =
      { bytes := (queues.perform (.bridgeTxFlush connected available)).1.bytes } := by
  simp only [perform]
  cases queues.frames.items.head? with
  | none => rfl
  | some frame =>
      by_cases hsend : connected = true ∧ frame.encoded.length ≤ available
      · simp only [if_pos hsend]
      · simp only [if_neg hsend]

theorem perform_hidInputFlush (queues : Queues) (ready accepted : Bool) :
    (queues.perform (.hidInputFlush ready accepted)).1 =
      { report := (queues.perform (.hidInputFlush ready accepted)).1.report } := by
  simp only [perform]
  cases queues.reports.items.head? with
  | none => rfl
  | some report =>
      by_cases hsend : ready = true ∧ accepted = true
      · simp only [if_pos hsend]
      · simp only [if_neg hsend]

end Queues

/-! ## Heads and counts -/

/-- Heads and counts are within the arrays, and so are the payloads of the frames. -/
structure State.Fits (state : State) : Prop where
  inputReports : state.inputReports.Fits
  bridgeTx : state.bridgeTx.Valid
  payloads : ∀ frame ∈ state.bridgeTx.frameRing, frame.length.toNat ≤ bridgeMaxPayload

theorem State.Fits.replaceReports {state : State} (h : state.Fits) {queue : ReportQueue}
    (hqueue : queue.Fits) : State.Fits { state with inputReports := queue } :=
  ⟨hqueue, h.bridgeTx, h.payloads⟩

theorem State.fits_init : State.init.Fits where
  inputReports := State.valid_init.inputReports.fits
  bridgeTx := State.valid_init.bridgeTx
  payloads := fun _ h => absurd h List.not_mem_nil

/-- The FIFOs hold what the rings hold. -/
structure Queues.Describes (queues : Queues) (state : State) : Prop where
  reports : queues.reports.items = state.inputReports.contents
  frames : queues.frames.items = state.bridgeTx.frameRing.map BridgeFrame.content
  nextSequence : queues.nextSequence = state.nextSequence

/-- The FIFOs of a state, which nothing has left yet. -/
def State.queues (state : State) (h : state.Fits) : Queues where
  reports := .ofList state.inputReports.contents (by
    rw [ReportQueue.length_contents]
    exact h.inputReports.count)
  frames := .ofList (state.bridgeTx.frameRing.map BridgeFrame.content) (by
    rw [List.length_map, BridgeTxQueue.length_frameRing]
    exact h.bridgeTx.count)
  nextSequence := state.nextSequence

theorem State.describes_queues {state : State} (h : state.Fits) :
    (state.queues h).Describes state := ⟨rfl, rfl, rfl⟩

namespace Queues.Describes

variable {queues : Queues} {state : State}

theorem length_reports (h : queues.Describes state) :
    queues.reports.items.length = state.inputReports.count.toNat := by
  rw [h.reports, ReportQueue.length_contents]

theorem length_frames (h : queues.Describes state) :
    queues.frames.items.length = state.bridgeTx.count.toNat := by
  rw [h.frames, List.length_map, BridgeTxQueue.length_frameRing]

/-- The reports are taken from both sides. -/
theorem replaceReports (h : queues.Describes state) {queue : ReportQueue}
    {reports : Fifo (List UInt8) reportQueueCapacity} (hreports : reports.items = queue.contents) :
    Queues.Describes { queues with reports } { state with inputReports := queue } :=
  ⟨hreports, h.frames, h.nextSequence⟩

/-! ## One operation -/

theorem pushFrame (h : queues.Describes state) (hfits : state.Fits) (type : UInt8)
    (payload : List UInt8) :
    ∃ next, bridgeTxPush state type payload = some ((queues.pushFrame type payload).1, next) ∧
      next.Fits ∧ (queues.pushFrame type payload).2.Describes next ∧
      next.inputReports = state.inputReports := by
  obtain ⟨pushed, next, hpush, hreports, hvalid, hcases⟩ :=
    exists_bridgeTxPush_frame hfits.bridgeTx type payload
  have hlength : queues.frames.items.length = state.bridgeTx.frameRing.length := by
    rw [h.frames, List.length_map]
  rw [Queues.pushFrame]
  rcases hcases with ⟨rfl, hrefused, rfl⟩ |
    ⟨rfl, hshort, hroom, hnext, frame, hframe, hcontent, hring⟩
  · by_cases hlong : bridgeMaxPayload < payload.length
    · rw [if_pos hlong]
      exact ⟨next, hpush, hfits, h, rfl⟩
    · have hfull := hlength.trans (hrefused.resolve_left hlong)
      rw [if_neg hlong, Fifo.push_of_full hfull]
      exact ⟨next, hpush, hfits, h, rfl⟩
  · obtain ⟨htaken, hitems, -⟩ := Fifo.push_of_lt (hlength.trans_lt hroom)
      (⟨type, queues.nextSequence, payload⟩ : FrameContent)
    rw [if_neg (Nat.not_lt.mpr hshort), htaken]
    refine ⟨next, hpush, ⟨hreports ▸ hfits.inputReports, hvalid, ?_⟩, ⟨?_, ?_, ?_⟩, hreports⟩
    · rw [hring]
      intro other hother
      rcases List.mem_append.mp hother with hother | hother
      · exact hfits.payloads other hother
      · rw [List.mem_singleton.mp hother]
        exact hframe
    · rw [hreports]
      exact h.reports
    · show (queues.frames.push _).2.items = _
      rw [hitems, hring, List.map_append, List.map_singleton, hcontent, h.frames, h.nextSequence]
    · show (if (queues.frames.push _).1 = true then _ else _) = _
      rw [htaken, if_pos rfl, hnext, h.nextSequence]

theorem log (h : queues.Describes state) (hfits : state.Fits) (text : String) :
    ∃ next, bridgeLog state text = some next ∧ next.Fits ∧ (queues.log text).Describes next ∧
      next.inputReports = state.inputReports := by
  rw [Queues.log, h.length_frames]
  by_cases hfull : state.bridgeTx.count.toNat > bridgeTxQueueCapacity - 4
  · rw [if_pos (.inl hfull)]
    exact ⟨state, if_pos hfull, hfits, h, rfl⟩
  · by_cases hempty : textBytes text = []
    · rw [if_pos (.inr hempty)]
      exact ⟨state, by simp only [bridgeLog, if_neg hfull, if_pos hempty], hfits, h, rfl⟩
    · obtain ⟨next, hpush, hnext, hdescribes, hreports⟩ :=
        h.pushFrame hfits bridgeFrameLog ((textBytes text).take (bridgeMaxPayload - 1))
      rw [if_neg (not_or.mpr ⟨hfull, hempty⟩)]
      exact ⟨next, by simp only [bridgeLog, if_neg hfull, if_neg hempty, hpush, Option.map_some],
        hnext, hdescribes, hreports⟩

/-- A report leaves its queue. -/
theorem pop (h : queues.Describes state) (hfits : state.Fits)
    (hcount : state.inputReports.count ≠ 0) :
    ∃ report, state.inputReports.reports.load state.inputReports.head.toNat = some report ∧
      queues.reports.items.head? = some report.cells ∧
      queues.reports.pop.items = (reportQueuePop state.inputReports).contents ∧
      (reportQueuePop state.inputReports).Fits := by
  obtain ⟨report, hload, hcontents, hnext⟩ := hfits.inputReports.exists_pop hcount
  have hitems := h.reports
  rw [hcontents] at hitems
  refine ⟨report, hload, ?_, ?_, hnext⟩
  · rw [hitems, List.head?_cons]
  · exact (Fifo.pop_of_cons hitems).1

/-- A frame leaves its queue. -/
theorem exists_bridgeTxFlush (h : queues.Describes state) (hfits : state.Fits)
    (connected : Bool) (available : Nat) :
    ∃ next, bridgeTxFlush state connected available =
        some ((queues.perform (.bridgeTxFlush connected available)).1.bytes, next) ∧
      next.Fits ∧ (queues.perform (.bridgeTxFlush connected available)).2.Describes next := by
  by_cases hcount : state.bridgeTx.count = 0
  · have hnil : queues.frames.items = [] := by
      refine List.eq_nil_of_length_eq_zero ?_
      rw [h.length_frames, hcount]
      rfl
    simp only [Queues.perform, hnil, List.head?_nil]
    exact ⟨state, if_pos (.inl hcount), hfits, h⟩
  · have hpositive : 0 < state.bridgeTx.count.toNat :=
      Nat.pos_of_ne_zero fun hzero => hcount (UInt8.toNat_inj.mp hzero)
    obtain ⟨frame, hframe⟩ := state.bridgeTx.frames.exists_load hfits.bridgeTx.head
    have hring : state.bridgeTx.frameRing = frame :: state.bridgeTx.frames.ring
        ((state.bridgeTx.head.toNat + 1) % bridgeTxQueueCapacity)
        (state.bridgeTx.count.toNat - 1) :=
      state.bridgeTx.frames.ring_pred hfits.bridgeTx.head hpositive hframe
    have hitems := h.frames
    rw [hring, List.map_cons] at hitems
    have hpayload : frame.length.toNat ≤ bridgeMaxPayload :=
      hfits.payloads frame (by rw [hring]; exact List.mem_cons_self ..)
    have hlength := BridgeFrame.length_encoded hpayload
    have hroom : frame.content.encoded.length ≤ bridgeMaxFrameBytes := by
      rw [hlength]
      exact Nat.add_le_add_right hpayload 10
    obtain ⟨written, hencode, hwritten⟩ := BridgeFrame.exists_encode hpayload
      (Block.fill 0 : Block UInt8 bridgeMaxFrameBytes) hroom (Nat.le_refl _)
    simp only [Queues.perform, hitems, List.head?_cons]
    by_cases hsend : connected = true ∧ frame.content.encoded.length ≤ available
    · obtain ⟨rfl, havailable⟩ := hsend
      have hslice : written.slice 0 frame.content.encoded.length =
          some frame.content.encoded := by
        rw [written.slice_eq (by rwa [Nat.zero_add]), List.drop_zero, hwritten]
      have hidle : ¬ (state.bridgeTx.count = 0 ∨ true = false) := by simp [hcount]
      have hfail : ¬ (frame.content.encoded.length = 0 ∨
          available < frame.content.encoded.length) := by omega
      have hhead := toNat_ofNat_mod (state.bridgeTx.head.toNat + 1)
        (show 0 < bridgeTxQueueCapacity by decide) (by decide)
      have hless : (state.bridgeTx.count - 1).toNat = state.bridgeTx.count.toNat - 1 :=
        UInt8.toNat_sub_of_le _ _ (UInt8.le_iff_toNat_le.mpr hpositive)
      rw [if_pos ⟨rfl, havailable⟩]
      refine ⟨{ state with
        bridgeTx := { state.bridgeTx with
          head := UInt8.ofNat ((state.bridgeTx.head.toNat + 1) % bridgeTxQueueCapacity)
          count := state.bridgeTx.count - 1 } }, ?_, ⟨hfits.inputReports, ⟨?_, ?_⟩, ?_⟩,
        ⟨h.reports, ?_, h.nextSequence⟩⟩
      · simp only [bridgeTxFlush, if_neg hidle, hframe, hencode, if_neg hfail, hslice,
          Option.bind_eq_bind, Option.bind_some]
      · exact hhead.trans_lt (Nat.mod_lt _ (by decide))
      · exact hless.trans_le ((Nat.sub_le _ 1).trans hfits.bridgeTx.count)
      · intro other hother
        refine hfits.payloads other ?_
        rw [BridgeTxQueue.frameRing, hhead, hless] at hother
        rw [hring]
        exact List.mem_cons_of_mem _ hother
      · rw [BridgeTxQueue.frameRing, hhead, hless]
        exact (Fifo.pop_of_cons hitems).1
    · rw [if_neg hsend]
      refine ⟨state, ?_, hfits, h⟩
      cases connected with
      | false => exact if_pos (.inr rfl)
      | true =>
          have hidle : ¬ (state.bridgeTx.count = 0 ∨ true = false) := by simp [hcount]
          have hfail : frame.content.encoded.length = 0 ∨
              available < frame.content.encoded.length :=
            .inr (Nat.lt_of_not_le fun hle => hsend ⟨rfl, hle⟩)
          simp only [bridgeTxFlush, if_neg hidle, hframe, hencode, if_pos hfail,
            Option.bind_eq_bind, Option.bind_some]

/-- A report leaves its queue when the USB stack has taken it. -/
theorem exists_hidInputFlush (h : queues.Describes state) (hfits : state.Fits)
    (ready accepted : Bool) :
    ∃ next, hidInputFlush state ready accepted =
        some ((queues.perform (.hidInputFlush ready accepted)).1.report, next) ∧
      next.Fits ∧ (queues.perform (.hidInputFlush ready accepted)).2.Describes next := by
  by_cases hcount : state.inputReports.count = 0
  · have hnil : queues.reports.items = [] := by
      refine List.eq_nil_of_length_eq_zero ?_
      rw [h.length_reports, hcount]
      rfl
    simp only [Queues.perform, hnil, List.head?_nil]
    exact ⟨state, if_pos (.inl hcount), hfits, h⟩
  · obtain ⟨report, hload, hhead, hitems, hnext⟩ := h.pop hfits hcount
    have hslice : report.slice 1 codexReportPayloadBytes = some (report.cells.drop 1) := by
      rw [report.slice_eq (by decide)]
      refine congrArg some (List.take_of_length_le ?_)
      rw [List.length_drop, report.length_cells]
      exact Nat.le_refl _
    simp only [Queues.perform, hhead]
    by_cases hsend : ready = true ∧ accepted = true
    · obtain ⟨rfl, rfl⟩ := hsend
      have hidle : ¬ (state.inputReports.count = 0 ∨ true = false) := by simp [hcount]
      obtain ⟨next, hlog, hlogged, hdescribes, hreports⟩ := h.log hfits
        (Queues.acceptedText report.cells (queues.reports.items.length - 1))
      have hbyte : ∀ index < codexReportWireBytes,
          report.load index = some (report.cells.getD index 0) :=
        fun index hindex => report.load_eq hindex 0
      rw [if_pos ⟨rfl, rfl⟩]
      rw [h.length_reports] at hlog
      unfold Queues.acceptedText at hlog
      refine ⟨{ next with inputReports := reportQueuePop next.inputReports }, ?_,
        hlogged.replaceReports ?_, hdescribes.replaceReports ?_⟩
      · rw [hidInputFlush, if_neg hidle]
        simp only [hload, hslice, hbyte 0 (by decide), hbyte 1 (by decide), hbyte 2 (by decide),
          hlog, Option.bind_eq_bind, Option.bind_some, Bool.true_eq_false, if_false,
          Queues.withReportId]
      · rw [hreports]
        exact hnext
      · rw [hreports]
        exact hitems
    · rw [if_neg hsend]
      refine ⟨state, ?_, hfits, h⟩
      cases ready with
      | false => exact if_pos (.inr rfl)
      | true =>
          have hidle : ¬ (state.inputReports.count = 0 ∨ true = false) := by simp [hcount]
          have hrefused : accepted = false := Bool.eq_false_of_not_eq_true fun h => hsend ⟨rfl, h⟩
          simp only [hidInputFlush, if_neg hidle, hload, hslice, hrefused, Option.bind_eq_bind,
            Option.bind_some, if_true]

theorem exists_perform (h : queues.Describes state) (hfits : state.Fits) (op : Op) :
    ∃ next, state.perform op = some ((queues.perform op).1, next) ∧ next.Fits ∧
      (queues.perform op).2.Describes next := by
  cases op with
  | reportQueuePush report =>
      obtain ⟨pushed, queue, hpush, hqueue, hcases⟩ := hfits.inputReports.exists_push report
      have hlength : queues.reports.items.length = state.inputReports.contents.length := by
        rw [h.reports]
      have hpushed : (queues.reports.push report.cells).1 = pushed ∧
          (queues.reports.push report.cells).2.items = queue.contents := by
        rcases hcases with ⟨rfl, hfull, rfl⟩ | ⟨rfl, hroom, hcontents⟩
        · rw [Fifo.push_of_full (hlength.trans hfull)]
          exact ⟨rfl, h.reports⟩
        · obtain ⟨htaken, hitems, -⟩ :=
            Fifo.push_of_lt (hlength.trans_lt hroom) report.cells
          exact ⟨htaken, by rw [hitems, hcontents, h.reports]⟩
      refine ⟨{ state with inputReports := queue }, ?_, hfits.replaceReports hqueue,
        h.replaceReports hpushed.2⟩
      simp only [State.perform, hpush, Option.map_some, Queues.perform, hpushed.1]
  | reportQueuePop =>
      by_cases hcount : state.inputReports.count = 0
      · have hnil : queues.reports.items = [] := by
          refine List.eq_nil_of_length_eq_zero ?_
          rw [h.length_reports, hcount]
          rfl
        have hpop : reportQueuePop state.inputReports = state.inputReports := if_pos hcount
        refine ⟨state, ?_, hfits, ⟨?_, h.frames, h.nextSequence⟩⟩
        · simp only [State.perform, if_pos hcount, hpop, Queues.perform, hnil, List.head?_nil]
        · rw [← h.reports, hnil]
          show queues.reports.items.tail = []
          rw [hnil, List.tail_nil]
      · obtain ⟨report, hload, hhead, hitems, hnext⟩ := h.pop hfits hcount
        refine ⟨{ state with inputReports := reportQueuePop state.inputReports }, ?_,
          hfits.replaceReports hnext, h.replaceReports hitems⟩
        simp only [State.perform, if_neg hcount, hload, Option.map_some, Queues.perform, hhead]
  | bridgeTxPush type payload =>
      obtain ⟨next, hpush, hnext, hdescribes, -⟩ := h.pushFrame hfits type payload
      refine ⟨next, ?_, hnext, hdescribes⟩
      simp only [State.perform, hpush, Option.map_some, Queues.perform]
  | bridgeLog text =>
      obtain ⟨next, hlog, hnext, hdescribes, -⟩ := h.log hfits text
      refine ⟨next, ?_, hnext, hdescribes⟩
      simp only [State.perform, hlog, Option.map_some, Queues.perform]
  | bridgeTxFlush connected available =>
      obtain ⟨next, hflush, hnext, hdescribes⟩ := h.exists_bridgeTxFlush hfits connected available
      refine ⟨next, ?_, hnext, hdescribes⟩
      rw [State.perform, hflush, Option.map_some, Queues.perform_bridgeTxFlush]
  | hidInputFlush ready accepted =>
      obtain ⟨next, hflush, hnext, hdescribes⟩ := h.exists_hidInputFlush hfits ready accepted
      refine ⟨next, ?_, hnext, hdescribes⟩
      rw [State.perform, hflush, Option.map_some, Queues.perform_hidInputFlush]

/-- The run lemma: whatever is done, the rings answer as the FIFOs do. -/
theorem exists_performAll (h : queues.Describes state) (hfits : state.Fits) (ops : List Op) :
    ∃ last, state.performAll ops = some ((queues.performAll ops).1, last) ∧ last.Fits ∧
      (queues.performAll ops).2.Describes last := by
  induction ops generalizing queues state with
  | nil => exact ⟨state, rfl, hfits, h⟩
  | cons op ops ih =>
      obtain ⟨next, hperform, hnext, hdescribes⟩ := h.exists_perform hfits op
      obtain ⟨last, hrest, hlast, hfinal⟩ := ih hdescribes hnext
      refine ⟨last, ?_, hlast, hfinal⟩
      simp only [State.performAll, hperform, Option.bind_eq_bind, Option.bind_some, hrest,
        Queues.performAll]

end Queues.Describes

/-! ## What has come and what has gone -/

/-- The reports that were accepted, in order. -/
def pushedReports (steps : List (Op × Outcome)) : List (List UInt8) :=
  steps.filterMap fun step =>
    match step.1 with
    | .reportQueuePush report => if step.2.pushed = some true then some report.cells else none
    | _ => none

/-- The frames that were accepted, those of the log apart. -/
def pushedFrames (steps : List (Op × Outcome)) : List (UInt8 × List UInt8) :=
  steps.filterMap fun step =>
    match step.1 with
    | .bridgeTxPush type payload =>
        if step.2.pushed = some true then some (type, payload) else none
    | _ => none

/-- Frames numbered one after another. -/
def number : UInt16 → List (UInt8 × List UInt8) → List FrameContent
  | _, [] => []
  | sequence, frame :: frames => ⟨frame.1, sequence, frame.2⟩ :: number (sequence + 1) frames

theorem number_append (sequence : UInt16) (first second : List (UInt8 × List UInt8)) :
    number sequence (first ++ second) =
      number sequence first ++ number (sequence + UInt16.ofNat first.length) second := by
  induction first generalizing sequence with
  | nil =>
      rw [List.nil_append, List.length_nil, number, List.nil_append]
      congr 1
      exact (UInt16.add_zero sequence).symm
  | cons frame first ih =>
      rw [List.cons_append, number, number, ih, List.cons_append, List.length_cons,
        Nat.add_comm first.length 1, UInt16.ofNat_add, ← UInt16.add_assoc]
      rfl

/-- A report as it was, or as the USB stack is given it. -/
def HandedOver (report handed : List UInt8) : Prop :=
  handed = report ∨ handed = Queues.withReportId report

/-- What some steps have brought into the FIFOs and taken out of them. -/
structure Queues.Advances (steps : List (Op × Outcome)) (before after : Queues) : Prop where
  reports : after.reports.accepted = before.reports.accepted ++ pushedReports steps
  taken : ∃ taken, after.reports.gone = before.reports.gone ++ taken ∧
    List.Forall₂ HandedOver taken (steps.filterMap (·.2.report))
  frames : ∃ numbered, after.frames.accepted =
      before.frames.accepted ++ number before.nextSequence numbered ∧
    after.nextSequence = before.nextSequence + UInt16.ofNat numbered.length ∧
    (pushedFrames steps).Sublist numbered
  written : ∃ sent, after.frames.gone = before.frames.gone ++ sent ∧
    steps.filterMap (·.2.bytes) = sent.map FrameContent.encoded

namespace Queues.Advances

variable {before middle after : Queues} {steps later : List (Op × Outcome)}

theorem refl (queues : Queues) : Queues.Advances [] queues queues where
  reports := (List.append_nil _).symm
  taken := ⟨[], (List.append_nil _).symm, .nil⟩
  frames := ⟨[], (List.append_nil _).symm, (UInt16.add_zero _).symm, .slnil⟩
  written := ⟨[], (List.append_nil _).symm, rfl⟩

theorem trans (h : Queues.Advances steps before middle)
    (h' : Queues.Advances later middle after) :
    Queues.Advances (steps ++ later) before after where
  reports := by
    rw [h'.reports, h.reports, List.append_assoc, pushedReports, pushedReports, pushedReports,
      List.filterMap_append]
  taken := by
    obtain ⟨taken, hgone, hhanded⟩ := h.taken
    obtain ⟨taken', hgone', hhanded'⟩ := h'.taken
    refine ⟨taken ++ taken', by rw [hgone', hgone, List.append_assoc], ?_⟩
    rw [List.filterMap_append]
    exact List.rel_append hhanded hhanded'
  frames := by
    obtain ⟨numbered, haccepted, hnext, hpushed⟩ := h.frames
    obtain ⟨numbered', haccepted', hnext', hpushed'⟩ := h'.frames
    refine ⟨numbered ++ numbered', ?_, ?_, ?_⟩
    · rw [haccepted', haccepted, hnext, number_append, List.append_assoc]
    · rw [hnext', hnext, List.length_append, UInt16.ofNat_add, UInt16.add_assoc]
    · rw [pushedFrames, List.filterMap_append]
      exact hpushed.append hpushed'
  written := by
    obtain ⟨sent, hgone, hbytes⟩ := h.written
    obtain ⟨sent', hgone', hbytes'⟩ := h'.written
    refine ⟨sent ++ sent', by rw [hgone', hgone, List.append_assoc], ?_⟩
    rw [List.filterMap_append, hbytes, hbytes', List.map_append]

/-- A frame is accepted and numbered, or nothing happens. -/
theorem exists_pushFrame (queues : Queues) (type : UInt8) (payload : List UInt8) :
    (queues.pushFrame type payload).2.reports = queues.reports ∧
      (queues.pushFrame type payload).2.frames.gone = queues.frames.gone ∧
      ((queues.pushFrame type payload = (false, queues)) ∨
        ((queues.pushFrame type payload).1 = true ∧
          (queues.pushFrame type payload).2.frames.accepted =
            queues.frames.accepted ++ number queues.nextSequence [(type, payload)] ∧
          (queues.pushFrame type payload).2.nextSequence = queues.nextSequence + 1)) := by
  rw [pushFrame]
  by_cases hlong : bridgeMaxPayload < payload.length
  · rw [if_pos hlong]
    exact ⟨rfl, rfl, .inl rfl⟩
  · rw [if_neg hlong]
    refine ⟨rfl, Fifo.gone_push _ _, ?_⟩
    by_cases htaken : (queues.frames.push ⟨type, queues.nextSequence, payload⟩).1 = true
    · refine .inr ⟨htaken, ?_, ?_⟩
      · show (queues.frames.push _).2.accepted = _
        rw [Fifo.accepted_push, if_pos htaken]
        rfl
      · show (if (queues.frames.push _).1 = true then _ else _) = _
        rw [if_pos htaken]
    · have hfull := Fifo.push_of_full
        (Fifo.push_refused_iff.mp (Bool.eq_false_of_not_eq_true htaken))
        (⟨type, queues.nextSequence, payload⟩ : FrameContent)
      refine .inl ?_
      rw [hfull]
      rfl

theorem exists_log (queues : Queues) (text : String) :
    (queues.log text).reports = queues.reports ∧
      (queues.log text).frames.gone = queues.frames.gone ∧
      ∃ numbered, (queues.log text).frames.accepted =
          queues.frames.accepted ++ number queues.nextSequence numbered ∧
        (queues.log text).nextSequence =
          queues.nextSequence + UInt16.ofNat numbered.length := by
  have hnone : ∃ numbered, queues.frames.accepted =
        queues.frames.accepted ++ number queues.nextSequence numbered ∧
      queues.nextSequence = queues.nextSequence + UInt16.ofNat numbered.length :=
    ⟨[], (List.append_nil _).symm, (UInt16.add_zero _).symm⟩
  rw [Queues.log]
  split
  · exact ⟨rfl, rfl, hnone⟩
  · obtain ⟨hreports, hgone, hrefused | ⟨-, haccepted, hnext⟩⟩ := exists_pushFrame queues
      bridgeFrameLog ((textBytes text).take (bridgeMaxPayload - 1))
    · rw [hrefused]
      exact ⟨rfl, rfl, hnone⟩
    · exact ⟨hreports, hgone, _, haccepted, hnext⟩

/-- An operation that leaves the FIFOs alone and returns nothing from them. -/
theorem of_idle {queues : Queues} {op : Op} (outcome : Outcome)
    (hperform : queues.perform op = (outcome, queues)) (hpushed : outcome.pushed ≠ some true)
    (hreport : outcome.report = none) (hbytes : outcome.bytes = none) :
    Queues.Advances [(op, (queues.perform op).1)] queues (queues.perform op).2 := by
  rw [hperform]
  have hreports : pushedReports [(op, outcome)] = [] := by
    cases op <;> simp [pushedReports, hpushed]
  have hframes : pushedFrames [(op, outcome)] = [] := by
    cases op <;> simp [pushedFrames, hpushed]
  refine ⟨?_, ⟨[], (List.append_nil _).symm, ?_⟩,
    ⟨[], (List.append_nil _).symm, (UInt16.add_zero _).symm, ?_⟩,
    ⟨[], (List.append_nil _).symm, ?_⟩⟩
  · rw [hreports, List.append_nil]
  · simp [hreport]
  · rw [hframes]
  · simp [hbytes]

/-- The step lemma. -/
theorem perform (queues : Queues) (op : Op) :
    Queues.Advances [(op, (queues.perform op).1)] queues (queues.perform op).2 := by
  have hrest := refl queues
  cases op with
  | reportQueuePush report =>
      refine ⟨?_, ⟨[], ?_, .nil⟩, hrest.frames, hrest.written⟩
      · show (queues.reports.push report.cells).2.accepted = _ ++ List.filterMap _ [_]
        rw [Fifo.accepted_push]
        cases htaken : (queues.reports.push report.cells).1 with
        | false => simp [Queues.perform, htaken]
        | true => simp [Queues.perform, htaken]
      · exact (Fifo.gone_push _ _).trans (List.append_nil _).symm
  | reportQueuePop =>
      have hreports := (Fifo.accepted_pop queues.reports).trans (List.append_nil _).symm
      cases hitems : queues.reports.items with
      | nil =>
          have hgone : queues.reports.pop.gone = queues.reports.gone ++ [] := by
            simp [Fifo.pop, hitems]
          refine ⟨hreports, ⟨[], hgone, ?_⟩, hrest.frames, hrest.written⟩
          simp [Queues.perform, hitems]
      | cons report rest =>
          refine ⟨hreports, ⟨[report], (Fifo.pop_of_cons hitems).2, ?_⟩, hrest.frames,
            hrest.written⟩
          simp [Queues.perform, hitems, HandedOver]
  | bridgeTxPush type payload =>
      obtain ⟨hreports, hgone, hrefused | ⟨htaken, haccepted, hnext⟩⟩ :=
        exists_pushFrame queues type payload
      · exact of_idle { pushed := some false } (by simp only [Queues.perform, hrefused]) (by simp)
          rfl rfl
      · have hperform : queues.perform (.bridgeTxPush type payload) =
            ({ pushed := some true }, (queues.pushFrame type payload).2) := by
          simp only [Queues.perform, htaken]
        rw [hperform]
        refine ⟨?_, ⟨[], ?_, .nil⟩, ⟨[(type, payload)], haccepted, hnext, ?_⟩, ⟨[], ?_, rfl⟩⟩
        · rw [hreports]
          exact hrest.reports
        · rw [hreports]
          exact (List.append_nil _).symm
        · simp [pushedFrames]
        · rw [hgone]
          exact (List.append_nil _).symm
  | bridgeLog text =>
      obtain ⟨hreports, hgone, numbered, haccepted, hnext⟩ := exists_log queues text
      refine ⟨?_, ⟨[], ?_, .nil⟩, ⟨numbered, haccepted, hnext, List.nil_sublist _⟩,
        ⟨[], ?_, rfl⟩⟩
      · show (queues.log text).reports.accepted = _
        rw [hreports]
        exact hrest.reports
      · show (queues.log text).reports.gone = _
        rw [hreports]
        exact (List.append_nil _).symm
      · exact hgone.trans (List.append_nil _).symm
  | bridgeTxFlush connected available =>
      cases hitems : queues.frames.items with
      | nil =>
          exact of_idle {} (by simp only [Queues.perform, hitems, List.head?_nil]) (by simp) rfl
            rfl
      | cons frame rest =>
          by_cases hsend : connected = true ∧ frame.encoded.length ≤ available
          · have hperform : queues.perform (.bridgeTxFlush connected available) =
                ({ bytes := some frame.encoded }, { queues with frames := queues.frames.pop }) := by
              simp only [Queues.perform, hitems, List.head?_cons, if_pos hsend]
            rw [hperform]
            refine ⟨hrest.reports, hrest.taken, ⟨[], ?_, (UInt16.add_zero _).symm, .slnil⟩,
              ⟨[frame], (Fifo.pop_of_cons hitems).2, rfl⟩⟩
            exact (Fifo.accepted_pop queues.frames).trans (List.append_nil _).symm
          · exact of_idle {} (by simp only [Queues.perform, hitems, List.head?_cons, if_neg hsend])
              (by simp) rfl rfl
  | hidInputFlush ready accepted =>
      cases hitems : queues.reports.items with
      | nil =>
          exact of_idle {} (by simp only [Queues.perform, hitems, List.head?_nil]) (by simp) rfl
            rfl
      | cons report rest =>
          by_cases hsend : ready = true ∧ accepted = true
          · have hperform : queues.perform (.hidInputFlush ready accepted) =
                ({ report := some (withReportId report) },
                  { queues.log (acceptedText report (rest.length + 1 - 1)) with
                    reports := queues.reports.pop }) := by
              simp only [Queues.perform, hitems, List.head?_cons, if_pos hsend, List.length_cons]
            obtain ⟨-, hgone, numbered, haccepted, hnext⟩ :=
              exists_log queues (acceptedText report (rest.length + 1 - 1))
            rw [hperform]
            refine ⟨?_, ⟨[report], (Fifo.pop_of_cons hitems).2, .cons (.inr rfl) .nil⟩,
              ⟨numbered, haccepted, hnext, List.nil_sublist _⟩,
              ⟨[], hgone.trans (List.append_nil _).symm, rfl⟩⟩
            exact (Fifo.accepted_pop queues.reports).trans (List.append_nil _).symm
          · exact of_idle {} (by simp only [Queues.perform, hitems, List.head?_cons, if_neg hsend])
              (by simp) rfl rfl

theorem performAll (queues : Queues) (ops : List Op) :
    Queues.Advances (ops.zip (queues.performAll ops).1) queues (queues.performAll ops).2 := by
  induction ops generalizing queues with
  | nil => exact refl queues
  | cons op ops ih => exact (perform queues op).trans (ih (queues.perform op).2)

end Queues.Advances

/-! ## Refusals -/

theorem State.Fits.perform_reportQueuePush {state : State} (h : state.Fits) (report : Report) :
    ∃ next, state.perform (.reportQueuePush report) =
      some ({ pushed := some (decide
        (state.inputReports.contents.length < reportQueueCapacity)) }, next) := by
  obtain ⟨pushed, queue, hpush, -, hcases⟩ := h.inputReports.exists_push report
  refine ⟨{ state with inputReports := queue }, ?_⟩
  simp only [State.perform, hpush, Option.map_some]
  rcases hcases with ⟨rfl, hfull, -⟩ | ⟨rfl, hroom, -⟩
  · rw [hfull, decide_eq_false (Nat.lt_irrefl _)]
  · rw [decide_eq_true hroom]

theorem State.Fits.perform_bridgeTxPush {state : State} (h : state.Fits) (type : UInt8)
    (payload : List UInt8) :
    ∃ next, state.perform (.bridgeTxPush type payload) =
      some ({ pushed := some (decide (payload.length ≤ bridgeMaxPayload ∧
        state.bridgeTx.frameRing.length < bridgeTxQueueCapacity)) }, next) := by
  obtain ⟨pushed, next, hpush, -, -, hcases⟩ := exists_bridgeTxPush_frame h.bridgeTx type payload
  refine ⟨next, ?_⟩
  simp only [State.perform, hpush, Option.map_some]
  rcases hcases with ⟨rfl, hrefused, -⟩ | ⟨rfl, hshort, hroom, -⟩
  · have hnone : ¬ (payload.length ≤ bridgeMaxPayload ∧
        state.bridgeTx.frameRing.length < bridgeTxQueueCapacity) := by omega
    rw [decide_eq_false hnone]
  · rw [decide_eq_true ⟨hshort, hroom⟩]

/-- A flush that writes nothing changes nothing. -/
theorem bridgeTxFlush_unsent {state next : State} {connected : Bool} {available : Nat}
    (h : bridgeTxFlush state connected available = some (none, next)) : next = state := by
  rw [bridgeTxFlush] at h
  split at h
  · exact (Prod.ext_iff.mp (Option.some.inj h)).2.symm
  · obtain ⟨frame, -, h⟩ := Option.bind_eq_some_iff.mp h
    obtain ⟨encoded, -, h⟩ := Option.bind_eq_some_iff.mp h
    split at h
    · exact (Prod.ext_iff.mp (Option.some.inj h)).2.symm
    · obtain ⟨bytes, -, h⟩ := Option.bind_eq_some_iff.mp h
      cases (Prod.ext_iff.mp (Option.some.inj h)).1

theorem hidInputFlush_unsent {state next : State} {ready accepted : Bool}
    (h : hidInputFlush state ready accepted = some (none, next)) : next = state := by
  rw [hidInputFlush] at h
  split at h
  · exact (Prod.ext_iff.mp (Option.some.inj h)).2.symm
  · obtain ⟨report, -, h⟩ := Option.bind_eq_some_iff.mp h
    obtain ⟨payload, -, h⟩ := Option.bind_eq_some_iff.mp h
    split at h
    · exact (Prod.ext_iff.mp (Option.some.inj h)).2.symm
    · obtain ⟨id, -, h⟩ := Option.bind_eq_some_iff.mp h
      obtain ⟨chan, -, h⟩ := Option.bind_eq_some_iff.mp h
      obtain ⟨length, -, h⟩ := Option.bind_eq_some_iff.mp h
      obtain ⟨logged, -, h⟩ := Option.bind_eq_some_iff.mp h
      cases (Prod.ext_iff.mp (Option.some.inj h)).1

/-! ## Every run -/

/-- A run of operations is one of the FIFOs of its first state. -/
structure ActsAsFifos {state : State} (h : state.Fits) (ops : List Op)
    (outcomes : List Outcome) (last : State) : Prop where
  /-- Heads and counts stay within the arrays. -/
  fits : last.Fits
  answers : outcomes = ((state.queues h).performAll ops).1
  describes : ((state.queues h).performAll ops).2.Describes last
  /-- The accepted reports leave once, in order and as they were; a report without the id is
  given it when it is handed to the USB stack. -/
  reports : ∃ taken, state.inputReports.contents ++ pushedReports (ops.zip outcomes) =
      taken ++ last.inputReports.contents ∧
    List.Forall₂ HandedOver taken (outcomes.filterMap Outcome.report) ∧
    ((∀ report ∈ state.inputReports.contents ++ pushedReports (ops.zip outcomes),
      report.head? = some codexReportId) → outcomes.filterMap Outcome.report = taken)
  /-- The accepted frames are numbered and written once, in order and as they were. -/
  frames : ∃ numbered sent,
    state.bridgeTx.frameRing.map BridgeFrame.content ++ number state.nextSequence numbered =
      sent ++ last.bridgeTx.frameRing.map BridgeFrame.content ∧
    (pushedFrames (ops.zip outcomes)).Sublist numbered ∧
    outcomes.filterMap Outcome.bytes = sent.map FrameContent.encoded
  /-- What is pushed next is refused exactly when its queue is full, or if it is too long. -/
  refusedReport : ∀ report, ∃ next, last.perform (.reportQueuePush report) =
    some ({ pushed := some (decide
      (last.inputReports.contents.length < reportQueueCapacity)) }, next)
  refusedFrame : ∀ type payload, ∃ next, last.perform (.bridgeTxPush type payload) =
    some ({ pushed := some (decide (payload.length ≤ bridgeMaxPayload ∧
      last.bridgeTx.frameRing.length < bridgeTxQueueCapacity)) }, next)
  /-- A flush that cannot send changes nothing. -/
  unsentFrame : ∀ connected available next,
    bridgeTxFlush last connected available = some (none, next) → next = last
  unsentReport : ∀ ready accepted next,
    hidInputFlush last ready accepted = some (none, next) → next = last

theorem withReportId_of_head? {report : List UInt8} (h : report.head? = some codexReportId) :
    Queues.withReportId report = report := by
  cases report with
  | nil => cases h
  | cons id payload =>
      obtain rfl := Option.some.inj h
      rfl

theorem eq_of_handedOver {taken handed : List (List UInt8)}
    (h : List.Forall₂ HandedOver taken handed)
    (hids : ∀ report ∈ taken, report.head? = some codexReportId) : handed = taken := by
  induction h with
  | nil => rfl
  | @cons report other taken handed hfirst hrest ih =>
      rw [ih fun report hmem => hids report (List.mem_cons_of_mem _ hmem)]
      rcases hfirst with rfl | rfl
      · rfl
      · rw [withReportId_of_head? (hids report (List.mem_cons_self ..))]

theorem Queues.length_performAll (queues : Queues) (ops : List Op) :
    (queues.performAll ops).1.length = ops.length := by
  induction ops generalizing queues with
  | nil => rfl
  | cons op ops ih => exact congrArg (· + 1) (ih _)

/-- From any state in which heads and counts are within the arrays, whatever is pushed,
popped and flushed, the rings act as FIFOs. -/
theorem queues_are_fifos {state : State} (h : state.Fits) (ops : List Op) :
    ∃ outcomes last, state.performAll ops = some (outcomes, last) ∧
      ActsAsFifos h ops outcomes last := by
  obtain ⟨last, hrun, hlast, hdescribes⟩ := (State.describes_queues h).exists_performAll h ops
  have hadvances := Queues.Advances.performAll (state.queues h) ops
  have houtcomes : ∀ f : Outcome → Option (List UInt8),
      (ops.zip ((state.queues h).performAll ops).1).filterMap (fun step => f step.2) =
        ((state.queues h).performAll ops).1.filterMap f := by
    intro f
    have hzip := List.map_snd_zip
      (Nat.le_of_eq (Queues.length_performAll (state.queues h) ops))
    exact List.filterMap_map.symm.trans (congrArg (List.filterMap f) hzip)
  refine ⟨_, last, hrun, hlast, rfl, hdescribes, ?_, ?_, hlast.perform_reportQueuePush,
    hlast.perform_bridgeTxPush, fun _ _ _ => bridgeTxFlush_unsent,
    fun _ _ _ => hidInputFlush_unsent⟩
  · obtain ⟨taken, hgone, hhanded⟩ := hadvances.taken
    have haccepted := hadvances.reports
    rw [houtcomes] at hhanded
    have hledger : state.inputReports.contents ++
        pushedReports (ops.zip ((state.queues h).performAll ops).1) =
        taken ++ last.inputReports.contents := by
      rw [← hdescribes.reports]
      rw [Fifo.accepted, hgone] at haccepted
      exact haccepted.symm
    refine ⟨taken, hledger, hhanded, fun hids => eq_of_handedOver hhanded fun report hmem => ?_⟩
    exact hids report (by rw [hledger]; exact List.mem_append_left _ hmem)
  · obtain ⟨numbered, haccepted, -, hpushed⟩ := hadvances.frames
    obtain ⟨sent, hgone, hbytes⟩ := hadvances.written
    rw [houtcomes] at hbytes
    refine ⟨numbered, sent, ?_, hpushed, hbytes⟩
    rw [← hdescribes.frames]
    rw [Fifo.accepted, hgone] at haccepted
    exact haccepted.symm

/-- A frame that is flushed at the second attempt, and a report that the stack takes at the
second. -/
def flushedTwice : List Op :=
  [.bridgeTxPush bridgeFrameStatus [1, 2], .bridgeTxFlush true 11, .reportQueuePush (.fill 6),
    .hidInputFlush true false, .bridgeTxFlush true 12, .hidInputFlush true true]

theorem queues_are_fifos_flushedTwice :
    ∃ outcomes last, State.init.performAll flushedTwice = some (outcomes, last) ∧
      ActsAsFifos State.fits_init flushedTwice outcomes last :=
  queues_are_fifos State.fits_init flushedTwice

end Firmware
end MicroEmu
