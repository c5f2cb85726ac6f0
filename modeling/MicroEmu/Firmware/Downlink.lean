import MicroEmu.Firmware.Safety
import MicroEmu.Protocol.Interchange

/-!
# From the bridge to the host

Reports that the bridge writes arrive in whatever pieces the stack reads, wait in a queue of
eight, and leave one in a turn.
-/

namespace MicroEmu
namespace Firmware

open Json (Value)
open Library (Block)
open Serial (WriteAnswer Writer inputFrames sendMessages)
open Wire (Frame FrameDecoder)

/-! ## Frames that the parser hands over -/

/-- The length of a frame that is handed over is that of a payload. -/
def ParseEvent.Short : ParseEvent → Prop
  | .frame handed => handed.length.toNat ≤ bridgeMaxPayload
  | _ => True

theorem short_parseCandidate {parser : BridgeParser} {turn : Option ParseEvent × BridgeParser}
    (h : parseCandidate parser = some turn) : ∀ event ∈ turn.1, event.Short := by
  have hdiscarded {parser : BridgeParser} {event : ParseEvent} {count : Nat}
      (h : ((discardPrefix parser count).map fun parser => (some event, parser)) = some turn)
      (hshort : event.Short) :
      ∀ event ∈ turn.1, event.Short := by
    obtain ⟨rest, -, rfl⟩ := Option.map_eq_some_iff.mp h
    intro other hother
    obtain rfl := Option.some.inj hother
    exact hshort
  rw [parseCandidate] at h
  split at h
  · obtain rfl := Option.some.inj h
    exact fun _ hnone => absurd hnone (Option.not_mem_none _)
  · obtain ⟨version, -, h⟩ := Option.bind_eq_some_iff.mp h
    split at h
    · exact hdiscarded h trivial
    · obtain ⟨payloadLength, -, h⟩ := Option.bind_eq_some_iff.mp h
      split at h
      · exact hdiscarded h trivial
      next hfits =>
        simp only at h
        split at h
        · obtain rfl := Option.some.inj h
          exact fun _ hnone => absurd hnone (Option.not_mem_none _)
        · obtain ⟨expected, -, h⟩ := Option.bind_eq_some_iff.mp h
          obtain ⟨actual, -, h⟩ := Option.bind_eq_some_iff.mp h
          split at h
          · exact hdiscarded h trivial
          · obtain ⟨type, -, h⟩ := Option.bind_eq_some_iff.mp h
            obtain ⟨sequence, -, h⟩ := Option.bind_eq_some_iff.mp h
            obtain ⟨bytes, -, h⟩ := Option.bind_eq_some_iff.mp h
            obtain ⟨payload, -, h⟩ := Option.bind_eq_some_iff.mp h
            exact hdiscarded h (Nat.not_lt.mp hfits)

theorem short_parseTurn {parser : BridgeParser} {turn : Option ParseEvent × BridgeParser}
    (h : parseTurn parser = some turn) : ∀ event ∈ turn.1, event.Short := by
  rw [parseTurn] at h
  split at h
  · obtain rfl := Option.some.inj h
    exact fun _ hnone => absurd hnone (Option.not_mem_none _)
  · obtain ⟨magic, -, h⟩ := Option.bind_eq_some_iff.mp h
    split at h
    · obtain ⟨sought, -, h⟩ := Option.bind_eq_some_iff.mp h
      exact short_parseCandidate h
    · exact short_parseCandidate h

theorem short_parseAvailable {turns : Nat} {parser : BridgeParser}
    {parsed : List (ParseEvent × Nat) × BridgeParser}
    (h : parseAvailable turns parser = some parsed) : ∀ event ∈ parsed.1, event.1.Short := by
  induction turns generalizing parser parsed with
  | zero => cases h
  | succ turns ih =>
      obtain ⟨turn, hturn, h⟩ := Option.bind_eq_some_iff.mp h
      have hshort := short_parseTurn hturn
      obtain ⟨event, rest⟩ := turn
      cases event with
      | none =>
          obtain rfl := Option.some.inj h
          exact fun _ hnone => absurd hnone List.not_mem_nil
      | some event =>
          obtain ⟨last, hlast, h⟩ := Option.bind_eq_some_iff.mp h
          obtain rfl := Option.some.inj h
          exact List.forall_mem_cons.mpr ⟨hshort event rfl, ih hlast⟩

/-- All events of a run so far. -/
def ParserRun.Short (run : ParserRun) : Prop := ∀ event ∈ run.events, event.1.Short

theorem ParserRun.Short.feed {turns : Nat} {run next : ParserRun} {bytes : List UInt8}
    (h : run.Short) (hfeed : feedTurns turns run bytes = some next) : next.Short := by
  induction turns generalizing run bytes with
  | zero => cases hfeed
  | succ turns ih =>
      rw [feedTurns] at hfeed
      split at hfeed
      · obtain rfl := Option.some.inj hfeed
        exact h
      · obtain ⟨roomy, hroomy, hfeed⟩ := Option.bind_eq_some_iff.mp hfeed
        obtain ⟨⟨taken, rest⟩, htaken, hfeed⟩ := Option.bind_eq_some_iff.mp hfeed
        refine ih ?_ hfeed
        have hevents := events_makeRoom hroomy
        obtain ⟨room, -, htaken⟩ := Option.bind_eq_some_iff.mp htaken
        obtain ⟨stored, -, htaken⟩ := Option.bind_eq_some_iff.mp htaken
        obtain ⟨parsed, hparsed, htaken⟩ := Option.bind_eq_some_iff.mp htaken
        obtain ⟨rfl, -⟩ := Prod.mk.inj (Option.some.inj htaken)
        intro event hevent
        rcases List.mem_append.mp hevent with hevent | hevent
        · exact h event (hevents ▸ hevent)
        · obtain ⟨parsedEvent, hmember, rfl⟩ := List.mem_map.mp hevent
          exact short_parseAvailable hparsed parsedEvent hmember

/-- A frame of a short event that holds a report is its input report. -/
theorem inputReport_eq {handed : BridgeFrame} (hshort : handed.length.toNat ≤ bridgeMaxPayload)
    {sequence : UInt16} {report : List UInt8}
    (hresult : handed.result = .ok ⟨.codexInputReport, sequence, report⟩)
    (hlength : report.length = codexReportWireBytes) (hid : report.head? = some codexReportId) :
    inputReport handed = [report] := by
  rw [BridgeFrame.result] at hresult
  have htype : handed.type = bridgeFrameCodexInputReport := by
    rw [Wire.FrameType.tryFrom] at hresult
    repeat' split at hresult
    all_goals first | assumption | cases hresult
  rw [htype] at hresult
  have hframe := Except.ok.inj hresult
  have hreport : handed.payload.cells.take handed.length.toNat = report :=
    congrArg Frame.payload hframe
  -- the payload fills its array
  have hcells := handed.payload.length_cells
  have hwhole : handed.length.toNat = codexReportWireBytes := by
    rw [← hreport, List.length_take, hcells] at hlength
    rw [bridgeMaxPayload] at hshort hlength
    rw [codexReportWireBytes] at hlength ⊢
    omega
  rw [hwhole, List.take_of_length_le (show handed.payload.cells.length ≤ codexReportWireBytes
    from Nat.le_of_eq hcells)] at hreport
  have hload : handed.payload.load 0 = some codexReportId := by
    rw [Block.load, hreport, ← List.head?_eq_getElem?]
    exact hid
  rw [inputReport, if_pos ⟨htype, hwhole, hload⟩, hreport]

/-! ## One part of a turn -/

/-- The bytes that a part of a turn reads. -/
def LoopStep.reads : LoopStep → List (List UInt8)
  | .read bytes => [bytes]
  | _ => []

/-- A part of a turn that asks for the status. -/
def LoopStep.asks : LoopStep → Bool
  | .callback (.setReport request) => request.asks
  | _ => false

theorem LoopStep.Overflows.asks {step : LoopStep} (h : step.Overflows) : step.asks = true := by
  cases step with
  | callback called =>
      cases called with
      | setReport request => exact SetReport.Overflows.asks h
      | _ => exact h.elim
  | _ => exact h.elim

/-- The reports for the host that a part of a turn brings. -/
def Device.arrivals (device : Device) : LoopStep → List (List UInt8)
  | .read bytes =>
      match bridgeParserFeed device.parser bytes with
      | some parser => (parser.callbacksSince device.parser).flatMap inputReport
      | none => []
  | _ => []

/-- There is room for what a part of a turn brings. -/
def Device.Admits (device : Device) (step : LoopStep) : Prop :=
  device.state.queued.length + (device.arrivals step).length ≤ reportQueueCapacity

instance (device : Device) (step : LoopStep) : Decidable (device.Admits step) :=
  inferInstanceAs (Decidable (_ ≤ _))

theorem queued_onBridgeFrames {frames : List BridgeFrame} {state last : State}
    (h : state.Valid) (hlast : frames.foldlM onBridgeFrame state = some last)
    (hroom : state.queued.length + (frames.flatMap inputReport).length ≤ reportQueueCapacity) :
    last.queued = state.queued ++ frames.flatMap inputReport := by
  induction frames generalizing state with
  | nil =>
      obtain rfl := Option.some.inj hlast
      exact (List.append_nil _).symm
  | cons frame frames ih =>
      obtain ⟨next, hnext, hvalid, hqueued⟩ := exists_onBridgeFrame h frame
      rw [List.foldlM_cons, hnext] at hlast
      rw [List.flatMap_cons, List.length_append] at hroom
      rw [List.take_of_length_le (by rw [List.length_append]; omega)] at hqueued
      rw [ih hvalid hlast (by rw [hqueued, List.length_append]; omega), hqueued,
        List.append_assoc, List.flatMap_cons]

theorem queued_onCallback {callback : Callback} {state next : State} (h : state.Valid)
    (hasks : (LoopStep.callback callback).asks = false)
    (hnext : onCallback state callback = some next) : next.queued = state.queued := by
  have hlog {text : String} (hnext : bridgeLog state text = some next) :
      next.queued = state.queued := by
    obtain ⟨other, hother, hquiet⟩ := exists_bridgeLog h text
    obtain rfl := Option.some.inj (hother.symm.trans hnext)
    exact hquiet.queued
  cases callback with
  | setReport request =>
      obtain ⟨other, hother, hquiet⟩ := exists_tudHidSetReportCb_unasked h hasks
      obtain rfl := Option.some.inj (hother.symm.trans hnext)
      exact hquiet.queued
  | getReport interface reportId reportType buffered requestedLength =>
      obtain ⟨⟨filled, other⟩, hother, rfl⟩ := Option.map_eq_some_iff.mp hnext
      rw [tudHidGetReportCb] at hother
      split at hother
      · obtain ⟨-, rfl⟩ := Prod.mk.inj (Option.some.inj hother)
        rfl
      · obtain ⟨logged, hlogged, hother⟩ := Option.bind_eq_some_iff.mp hother
        split at hother <;>
          (obtain ⟨-, rfl⟩ := Prod.mk.inj (Option.some.inj hother)
           exact hlog hlogged)
  | reportComplete interface length =>
      rw [onCallback] at hnext
      split at hnext
      · obtain rfl := Option.some.inj hnext
        rfl
      · exact hlog hnext
  | mount => exact hlog hnext
  | unmount => exact hlog hnext
  | suspend remoteWakeupEnabled => exact hlog hnext
  | resume => exact hlog hnext
  | setProtocol interface protocol => exact hlog hnext
  | setIdle interface idleRate => exact hlog hnext

/-- The step lemma: what leaves and what waits is what waited and what has come. -/
theorem Device.Sound.reports_step {device next : Device} {step : LoopStep} {output : Output}
    (h : device.Sound) (hasks : step.asks = false) (hroom : device.Admits step)
    (hnext : device.step step = some (output, next)) :
    output.reports ++ next.state.queued = device.state.queued ++ device.arrivals step ∧
      device.arrivals step = (next.parser.callbacksSince device.parser).flatMap inputReport := by
  have hnone : (device.parser.callbacksSince device.parser).flatMap inputReport = [] := by
    rw [Serves.callbacksSince_self]
    rfl
  cases step with
  | callback callback =>
      obtain ⟨state, hstate, heq⟩ := Option.map_eq_some_iff.mp hnext
      obtain ⟨rfl, rfl⟩ := Prod.mk.inj heq
      exact ⟨(queued_onCallback h.valid hasks hstate).trans (List.append_nil _).symm, hnone.symm⟩
  | read bytes =>
      obtain ⟨parser, hparser, hrest⟩ := Option.bind_eq_some_iff.mp hnext
      obtain ⟨state, hstate, heq⟩ := Option.bind_eq_some_iff.mp hrest
      obtain ⟨rfl, rfl⟩ := Prod.mk.inj (Option.some.inj heq)
      have harrivals : device.arrivals (.read bytes) =
          (parser.callbacksSince device.parser).flatMap inputReport := by
        rw [arrivals, hparser]
      rw [Admits, harrivals] at hroom
      rw [harrivals]
      exact ⟨queued_onBridgeFrames h.valid hstate hroom, rfl⟩
  | inputFlush ready accepted =>
      obtain ⟨flushed, hflushed, heq⟩ := Option.map_eq_some_iff.mp hnext
      obtain ⟨rfl, rfl⟩ := Prod.mk.inj heq
      obtain ⟨sent, state, hstate, -, hqueued⟩ := exists_hidInputFlush h.valid ready accepted
      obtain rfl := Option.some.inj (hstate.symm.trans hflushed)
      exact ⟨hqueued.trans (List.append_nil _).symm, hnone.symm⟩
  | bootLog connected =>
      rw [Device.step] at hnext
      split at hnext
      · obtain ⟨state, hstate, heq⟩ := Option.map_eq_some_iff.mp hnext
        obtain ⟨rfl, rfl⟩ := Prod.mk.inj heq
        obtain ⟨other, hother, hquiet⟩ := exists_bridgeLog h.valid
          ("boot " ++ firmwareBuildId ++ " usage-page=FF00")
        obtain rfl := Option.some.inj (hother.symm.trans hstate)
        exact ⟨hquiet.queued.trans (List.append_nil _).symm, hnone.symm⟩
      · obtain ⟨rfl, rfl⟩ := Prod.mk.inj (Option.some.inj hnext)
        exact ⟨(List.append_nil _).symm, hnone.symm⟩
  | txFlush connected available =>
      obtain ⟨⟨written, state⟩, hflushed, heq⟩ := Option.map_eq_some_iff.mp hnext
      obtain ⟨rfl, rfl⟩ := Prod.mk.inj heq
      have hsame : state.queued = device.state.queued :=
        congrArg ReportQueue.contents (inputReports_bridgeTxFlush hflushed)
      exact ⟨hsame.trans (List.append_nil _).symm, hnone.symm⟩

theorem Device.reads_step {device next : Device} {step : LoopStep} {output : Output}
    (hnext : device.step step = some (output, next)) :
    bridgeParserFeedAll step.reads device.parser = some next.parser ∧
      (device.parser.Short → next.parser.Short) := by
  cases serves hnext with
  | @read bytes parser state hparser hstate =>
      refine ⟨?_, fun hshort => hshort.feed hparser⟩
      rw [LoopStep.reads, bridgeParserFeedAll, List.foldlM_cons, hparser]
      rfl
  | callback hstate => exact ⟨rfl, id⟩
  | other hoffers hforwards hparser hacts =>
      cases step with
      | read bytes =>
          obtain ⟨parser, hfed, hrest⟩ := Option.bind_eq_some_iff.mp hnext
          obtain ⟨state, -, heq⟩ := Option.bind_eq_some_iff.mp hrest
          obtain ⟨-, rfl⟩ := Prod.mk.inj (Option.some.inj heq)
          refine ⟨?_, fun hshort => hshort.feed hfed⟩
          rw [LoopStep.reads, bridgeParserFeedAll, List.foldlM_cons, hfed]
          rfl
      | _ => exact ⟨congrArg some hparser.symm, fun hshort => hparser ▸ hshort⟩

/-! ## Runs -/

/-- No part of a run asks for the status, and each finds room. -/
def Device.Roomy : List LoopStep → Device → Prop
  | [], _ => True
  | step :: steps, device =>
      step.asks = false ∧ device.Admits step ∧
        ∀ next ∈ device.step step, Roomy steps next.2

/-- The run lemma. -/
theorem Device.Sound.reports_run {device last : Device} {steps : List LoopStep} {output : Output}
    (h : device.Sound) (hshort : device.parser.Short) (hroomy : device.Roomy steps)
    (hrun : device.run steps = some (output, last)) :
    output.reports ++ last.state.queued =
        device.state.queued ++ (last.parser.callbacksSince device.parser).flatMap inputReport ∧
      bridgeParserFeedAll (steps.flatMap LoopStep.reads) device.parser = some last.parser ∧
      last.parser.callbacks = device.parser.callbacks ++
        last.parser.callbacksSince device.parser ∧
      last.parser.Short := by
  induction steps generalizing device output with
  | nil =>
      obtain ⟨rfl, rfl⟩ := Prod.mk.inj (Option.some.inj hrun)
      rw [Serves.callbacksSince_self, List.append_nil]
      exact ⟨(List.append_nil _).symm, rfl, rfl, hshort⟩
  | cons step steps ih =>
      obtain ⟨hasks, hroom, hrest⟩ := hroomy
      rw [run] at hrun
      obtain ⟨⟨first, next⟩, hnext, hrun⟩ := Option.bind_eq_some_iff.mp hrun
      obtain ⟨⟨later, final⟩, hlater, hrun⟩ := Option.bind_eq_some_iff.mp hrun
      obtain ⟨rfl, rfl⟩ := Prod.mk.inj (Option.some.inj hrun)
      rcases h.step_cases step with ⟨-, hnone⟩ | ⟨-, other, middle, hother, hsound⟩
      · rw [hnone] at hnext
        cases hnext
      · obtain ⟨-, rfl⟩ := Prod.mk.inj (Option.some.inj (hother.symm.trans hnext))
        obtain ⟨hreports, harrivals⟩ := h.reports_step hasks hroom hnext
        obtain ⟨hfed, hkept⟩ := reads_step hnext
        obtain ⟨hall, hfeds, hcallbacks, hends⟩ := ih hsound (hkept hshort) (hrest _ hnext) hlater
        have hsplit : final.parser.callbacks = device.parser.callbacks ++
            (middle.parser.callbacksSince device.parser ++
              final.parser.callbacksSince middle.parser) := by
          rw [hcallbacks, (serves hnext).callbacks_eq, List.append_assoc]
        have hsince : final.parser.callbacksSince device.parser =
            middle.parser.callbacksSince device.parser ++
              final.parser.callbacksSince middle.parser := by
          rw [ParserRun.callbacksSince, hsplit, List.drop_left]
        refine ⟨?_, ?_, hsince ▸ hsplit, hends⟩
        · show (first.reports ++ later.reports) ++ final.state.queued = _
          rw [List.append_assoc, hall, ← List.append_assoc, hreports, harrivals, hsince,
            List.flatMap_append, List.append_assoc]
        · rw [List.flatMap_cons, bridgeParserFeedAll, List.foldlM_append, ← bridgeParserFeedAll,
            hfed]
          exact hfeds

theorem ParserRun.callbacks_feedAll {chunks : List (List UInt8)} {run last : ParserRun}
    (h : bridgeParserFeedAll chunks run = some last) :
    last.callbacks = run.callbacks ++ last.callbacksSince run := by
  have hprefix : run.callbacks <+: last.callbacks := by
    induction chunks generalizing run with
    | nil =>
        obtain rfl := Option.some.inj h
        exact List.prefix_refl _
    | cons chunk chunks ih =>
        rw [bridgeParserFeedAll, List.foldlM_cons] at h
        obtain ⟨next, hnext, hrest⟩ := Option.bind_eq_some_iff.mp h
        exact (List.prefix_iff_eq_append.mpr
          (ParserRun.callbacks_feed hnext).symm).trans (ih hrest)
  obtain ⟨later, hlater⟩ := hprefix
  rw [callbacksSince, ← hlater, List.drop_left]

/-- There is room for all that comes if the queue could hold it at once. -/
theorem Device.Sound.roomy {device : Device} (h : device.Sound) {steps : List LoopStep}
    (hasks : ∀ step ∈ steps, step.asks = false) {last : ParserRun}
    (hfed : bridgeParserFeedAll (steps.flatMap LoopStep.reads) device.parser = some last)
    (hfew : device.state.queued.length +
      ((last.callbacksSince device.parser).flatMap inputReport).length ≤ reportQueueCapacity) :
    device.Roomy steps := by
  induction steps generalizing device with
  | nil => trivial
  | cons step steps ih =>
      obtain ⟨hask, hasks⟩ := List.forall_mem_cons.mp hasks
      rw [List.flatMap_cons, bridgeParserFeedAll, List.foldlM_append] at hfed
      obtain ⟨middle, hmiddle, hlast⟩ := Option.bind_eq_some_iff.mp hfed
      replace hmiddle : bridgeParserFeedAll step.reads device.parser = some middle := hmiddle
      have hsince : last.callbacksSince device.parser =
          middle.callbacksSince device.parser ++ last.callbacksSince middle := by
        rw [ParserRun.callbacksSince, ParserRun.callbacks_feedAll hlast,
          ParserRun.callbacks_feedAll hmiddle, List.append_assoc, List.drop_left]
      rw [hsince, List.flatMap_append, List.length_append] at hfew
      have harrivals : (device.arrivals step).length ≤
          ((middle.callbacksSince device.parser).flatMap inputReport).length := by
        cases step with
        | read bytes =>
            rw [LoopStep.reads, bridgeParserFeedAll, List.foldlM_cons] at hmiddle
            obtain ⟨parser, hparser, hsame⟩ := Option.bind_eq_some_iff.mp hmiddle
            obtain rfl := Option.some.inj hsame
            rw [arrivals, hparser]
        | _ => exact Nat.zero_le _
      have hadmits : device.Admits step := by
        rw [Admits]
        omega
      refine ⟨hask, hadmits, ?_⟩
      rintro ⟨output, next⟩ hnext
      rcases h.step_cases step with ⟨-, hnone⟩ | ⟨-, other, later, hother, hsound⟩
      · rw [hnone] at hnext
        cases hnext
      · obtain ⟨-, rfl⟩ := Prod.mk.inj (Option.some.inj (hother.symm.trans hnext))
        have hparser : later.parser = middle :=
          Option.some.inj ((reads_step hnext).1.symm.trans hmiddle)
        have hqueued := congrArg List.length (h.reports_step hask hadmits hnext).1
        rw [List.length_append, List.length_append] at hqueued
        refine ih hsound hasks (hparser ▸ hlast) ?_
        show later.state.queued.length + _ ≤ reportQueueCapacity
        rw [hparser]
        omega

theorem Turn.reads_steps (turn : Turn) : turn.steps.flatMap LoopStep.reads = turn.reads := by
  have hcallbacks : (turn.callbacks.map LoopStep.callback).flatMap LoopStep.reads = [] := by
    rw [List.flatMap_map]
    exact List.flatMap_eq_nil_iff.mpr fun _ _ => rfl
  have hreads : (turn.reads.map LoopStep.read).flatMap LoopStep.reads = turn.reads := by
    rw [List.flatMap_map]
    exact List.flatMap_singleton' turn.reads
  rw [Turn.steps, List.flatMap_append, List.flatMap_append, hcallbacks, hreads]
  exact List.append_nil _

/-! ## Reports on the line -/

theorem payload_inputFrames (sequence : UInt16) (reports : List (List UInt8)) :
    (inputFrames sequence reports).map (·.payload) = reports := by
  induction reports generalizing sequence with
  | nil => rfl
  | cons report reports ih => rw [inputFrames, List.map_cons, ih]

theorem mem_inputFrames {sequence : UInt16} {reports : List (List UInt8)} {frame : Frame}
    (h : frame ∈ inputFrames sequence reports) :
    frame.frameType = .codexInputReport ∧ frame.payload ∈ reports := by
  induction reports generalizing sequence with
  | nil => cases h
  | cons report reports ih =>
      rcases List.mem_cons.mp h with rfl | hrest
      · exact ⟨rfl, List.mem_cons_self ..⟩
      · exact (ih hrest).imp_right (List.mem_cons_of_mem _)

/-- The frames that a parser hands over are those that a decoder makes of the same bytes. -/
theorem callbacks_of_decoded {chunks : List (List UInt8)} {run : ParserRun}
    (hrun : bridgeParserFeedAll chunks .init = some run) {frames : List Frame}
    (h : (FrameDecoder.feedAll chunks .start).1.map Prod.fst = frames.map .ok) :
    run.callbacks.map BridgeFrame.result = frames.map .ok := by
  obtain ⟨outcomes, hscan⟩ := Wire.exists_referenceScan 0 chunks.flatten
  obtain ⟨other, hother, hevents, -⟩ := exists_parser_run chunks hscan
  obtain rfl := Option.some.inj (hother.symm.trans hrun)
  have hdecoder : (FrameDecoder.feedAll chunks .start).1 =
      outcomes.map fun found => (found.1.result, found.2) :=
    Wire.decoder_reads.feedAll_eq chunks hscan
  have hresults : (other.events.map fun event => event.1.outcome.result) = frames.map .ok := by
    rw [← h, hdecoder, ← hevents, List.map_map, List.map_map]
    rfl
  rw [callbacks_eq, hresults]
  refine List.filter_eq_self.mpr fun result hresult => ?_
  obtain ⟨frame, -, rfl⟩ := List.mem_map.mp hresult
  rfl

theorem inputReports_of_results {callbacks : List BridgeFrame} {frames : List Frame}
    (h : callbacks.map BridgeFrame.result = frames.map .ok)
    (hshort : ∀ handed ∈ callbacks, handed.length.toNat ≤ bridgeMaxPayload)
    (hframes : ∀ frame ∈ frames, frame.frameType = .codexInputReport ∧
      frame.payload.length = codexReportWireBytes ∧
      frame.payload.head? = some codexReportId) :
    callbacks.flatMap inputReport = frames.map (·.payload) := by
  induction callbacks generalizing frames with
  | nil =>
      obtain rfl := List.map_eq_nil_iff.mp h.symm
      rfl
  | cons handed callbacks ih =>
      cases frames with
      | nil => cases h
      | cons frame frames =>
          obtain ⟨hresult, hrest⟩ := List.cons.inj h
          obtain ⟨⟨htype, hlength, hid⟩, hothers⟩ := List.forall_mem_cons.mp hframes
          obtain ⟨hfirst, hlater⟩ := List.forall_mem_cons.mp hshort
          obtain ⟨frameType, sequence, payload⟩ := frame
          obtain rfl : frameType = .codexInputReport := htype
          rw [List.flatMap_cons, inputReport_eq hfirst hresult hlength hid,
            ih hrest hlater hothers]
          rfl

theorem ParserRun.Short.callbacks {run : ParserRun} (h : run.Short) :
    ∀ handed ∈ run.callbacks, handed.length.toNat ≤ bridgeMaxPayload := by
  intro handed hhanded
  obtain ⟨⟨event, position⟩, hevent, hsome⟩ := List.mem_filterMap.mp hhanded
  cases event with
  | frame other =>
      obtain rfl := Option.some.inj hsome
      exact h _ hevent
  | _ => cases hsome

theorem head_of_validReport {report : List UInt8} (h : Codex.ValidReport report) :
    report.head? = some codexReportId := by
  have hlength := h.length
  have hid := h.id
  cases report with
  | nil => cases hlength
  | cons first rest => exact congrArg some hid

/-! ## Messages at the host -/

/-- A part of reports that are read without an error is read so. -/
theorem exists_feedAll_front {Text : Type} {js : Protocol.Runtime Value Text}
    {reports rest : List (List UInt8)} {messages : List Value}
    {state last : Protocol.FrameDecoder}
    (h : Protocol.FrameDecoder.feedAll js (reports ++ rest) state = (⟨messages, []⟩, last)) :
    ∃ front, (Protocol.FrameDecoder.feedAll js reports state).1 = ⟨front, []⟩ ∧
      front <+: messages := by
  rw [Protocol.FrameDecoder.feedAll_append] at h
  obtain ⟨hmessages, herrors⟩ := Protocol.Result.mk.inj (congrArg Prod.fst h)
  obtain ⟨hnone, -⟩ := List.append_eq_nil_iff.mp herrors
  refine ⟨(Protocol.FrameDecoder.feedAll js reports state).1.messages, ?_,
    ⟨_, hmessages⟩⟩
  rw [← hnone]

theorem reads_turns (turns : List Turn) :
    (turns.flatMap Turn.steps).flatMap LoopStep.reads = turns.flatMap (·.reads) := by
  rw [List.flatMap_assoc]
  exact List.flatMap_congr fun turn _ => turn.reads_steps

/-- As many frames as the queue holds never meet too little room. -/
theorem roomy_of_few {turns : List Turn}
    (hasks : ∀ turn ∈ turns, ∀ step ∈ turn.steps, step.asks = false) {frames : List Frame}
    (hframes : ∀ frame ∈ frames, frame.payload.length ≤ Wire.maxPayload)
    (hreads : (turns.flatMap (·.reads)).flatten <+: encodeAll frames)
    (hfew : frames.length ≤ reportQueueCapacity) :
    Device.boot.Roomy (turns.flatMap Turn.steps) := by
  obtain ⟨decoded, unread, rfl, hdecoded, -⟩ := exists_decoded hframes hreads
  obtain ⟨last, hlast, -⟩ := follows_init.exists_feedAll rfl (turns.flatMap (·.reads))
  have hcallbacks : last.callbacksSince Device.boot.parser = last.callbacks := List.drop_zero
  have hlength := congrArg List.length (callbacks_of_decoded hlast hdecoded)
  rw [List.length_map, List.length_map] at hlength
  rw [List.length_append] at hfew
  -- a frame brings one report at most
  have hone (callbacks : List BridgeFrame) :
      (callbacks.flatMap inputReport).length ≤ callbacks.length := by
    induction callbacks with
    | nil => exact Nat.le_refl 0
    | cons handed callbacks ih =>
        have hhanded : (inputReport handed).length ≤ 1 := by
          rw [inputReport]
          split
          · exact Nat.le_refl 1
          · exact Nat.zero_le 1
        rw [List.flatMap_cons, List.length_append, List.length_cons]
        omega
  refine Device.sound_boot.roomy ?_ ((reads_turns turns).symm ▸ hlast) ?_
  · intro step hstep
    obtain ⟨turn, hturn, hstep⟩ := List.mem_flatMap.mp hstep
    exact hasks turn hturn step hstep
  · have hmost := hone last.callbacks
    rw [hcallbacks]
    show 0 + _ ≤ reportQueueCapacity
    omega

/-- The messages that the bridge sends reach the host in order and unharmed, however the bytes
are cut and whenever the stack takes a report, if no request for the status comes between and
there is always room: what has left and what waits are the first of their reports, and the
decoder of the protocol reads from what has left the first of the messages. -/
theorem messages_reach_host {Text : Type} {js : Protocol.Runtime Value Text}
    {toVec : Value → List UInt8} {messages : List Value} {answers : List WriteAnswer}
    {writer : Writer} {sequence next : UInt16}
    (hsent : sendMessages toVec messages ⟨[], answers⟩ sequence = (.ok (), writer, next))
    (hjs : ∀ message ∈ messages, Protocol.ReadsAs js (toVec message) message)
    (hsize : ∀ message ∈ messages, (toVec message).length + 2 ≤ Protocol.defaultLimit)
    {turns : List Turn} {output : Output} {device : Device}
    (h : mainLoop turns = some (output, device))
    (hreads : (turns.flatMap (·.reads)).flatten <+: writer.written)
    (hroomy : Device.boot.Roomy (turns.flatMap Turn.steps)) :
    ∃ (rest : List (List UInt8)) (received : List Value),
      output.reports ++ device.state.queued ++ rest =
        (messages.map toVec).flatMap Codex.reportsOf ∧
      (Protocol.FrameDecoder.feedAll js output.reports (.new none)).1 = ⟨received, []⟩ ∧
      received <+: messages ∧
      ((turns.flatMap (·.reads)).flatten = writer.written →
        rest = [] ∧ (device.state.queued = [] → received = messages)) := by
  obtain ⟨framed, hframed, hwritten⟩ := Serial.written_sendMessages hsent
  replace hwritten : writer.written = encodeAll (inputFrames sequence framed.flatten) := hwritten
  have hall : framed.flatten = (messages.map toVec).flatMap Codex.reportsOf := by
    rw [Codex.framed_eq hframed, List.flatMap_def]
  have hvalid : ∀ report ∈ framed.flatten, Codex.ValidReport report := by
    rw [hall]
    intro report hreport
    obtain ⟨text, -, hreport⟩ := List.mem_flatMap.mp hreport
    exact Codex.validReport_reportsOf text report hreport
  have hframes : ∀ frame ∈ inputFrames sequence framed.flatten,
      frame.frameType = .codexInputReport ∧ frame.payload.length = codexReportWireBytes ∧
        frame.payload.head? = some codexReportId := by
    intro frame hframe
    obtain ⟨htype, hpayload⟩ := mem_inputFrames hframe
    have hreport := hvalid _ hpayload
    exact ⟨htype, hreport.length, head_of_validReport hreport⟩
  rw [hwritten] at hreads ⊢
  obtain ⟨decoded, unread, hsplit, hdecoded, hcomplete⟩ :=
    exists_decoded (fun frame hframe => Nat.le_of_eq (hframes frame hframe).2.1) hreads
  obtain ⟨hreports, hfed, -, hshort⟩ := Device.sound_boot.reports_run
    (fun _ hnone => absurd hnone List.not_mem_nil) hroomy h
  rw [reads_turns] at hfed
  -- what has come are the reports of the frames that have come as a whole
  have hcome : output.reports ++ device.state.queued = decoded.map (·.payload) := by
    have hcallbacks : device.parser.callbacksSince Device.boot.parser =
        device.parser.callbacks := List.drop_zero
    rw [hreports, hcallbacks]
    exact inputReports_of_results (callbacks_of_decoded hfed hdecoded) hshort.callbacks
      fun frame hframe => hframes frame (hsplit ▸ List.mem_append_left _ hframe)
  have hrest : output.reports ++ device.state.queued ++ unread.map (·.payload) =
      (messages.map toVec).flatMap Codex.reportsOf := by
    rw [hcome, ← List.map_append, ← hsplit, payload_inputFrames, hall]
  have hread : Protocol.FrameDecoder.feedAll js ((messages.map toVec).flatMap Codex.reportsOf)
      (.new none) = (⟨messages, []⟩, .new none) := by
    have hfeed := Protocol.FrameDecoder.feedAll_texts true (Codex.forall₂_map_toVec hjs)
      (List.forall_mem_map.mpr hsize) []
    rw [List.append_nil] at hfeed
    exact hfeed.trans (congrArg (·, Protocol.FrameDecoder.new none)
      (Protocol.Result.append_empty _))
  have hfront := hread
  rw [← hrest, List.append_assoc] at hfront
  obtain ⟨received, hreceived, hprefix⟩ := exists_feedAll_front hfront
  refine ⟨unread.map (·.payload), received, hrest, hreceived, hprefix, fun hwhole => ?_⟩
  obtain rfl := hcomplete hwhole
  refine ⟨rfl, fun hnone => ?_⟩
  rw [hnone, List.map_nil, List.append_nil, List.append_nil] at hrest
  rw [hrest, hread] at hreceived
  exact (Protocol.Result.mk.inj hreceived).1.symm

/-- Bytes in two pieces. -/
def samplePieces (bytes : List UInt8) (cut quiet : Nat) : List Turn :=
  sampleTurn [.mount] [bytes.take cut] :: sampleTurn [] [bytes.drop cut] ::
    List.replicate quiet (sampleTurn [] [])

/-- The port once these messages are sent. -/
def sampleWriter : Writer :=
  (sendMessages Codex.sampleToVec sampleMessages ⟨[], [.taken, .taken]⟩ 65535).2.1

theorem messages_samplePieces :
    ∃ output device received,
      mainLoop (samplePieces sampleWriter.written 30 2) = some (output, device) ∧
      output.reports ++ device.state.queued =
        (sampleMessages.map Codex.sampleToVec).flatMap Codex.reportsOf ∧
      (Protocol.FrameDecoder.feedAll Protocol.objectRuntime output.reports (.new none)).1 =
        ⟨received, []⟩ ∧
      received <+: sampleMessages := by
  have hsent : sendMessages Codex.sampleToVec sampleMessages ⟨[], [.taken, .taken]⟩ 65535 =
      (.ok (), sampleWriter, 2) := by rfl
  have hbytes : ((samplePieces sampleWriter.written 30 2).flatMap (·.reads)).flatten =
      sampleWriter.written := by
    show sampleWriter.written.take 30 ++ (sampleWriter.written.drop 30 ++ []) = _
    rw [List.append_nil, List.take_append_drop]
  have hall {property : Value → Prop} (hfirst : property (Codex.sampleObject 1))
      (hsecond : property (Codex.sampleObject 52)) :
      ∀ message ∈ sampleMessages, property message :=
    List.forall_mem_cons.mpr ⟨hfirst, List.forall_mem_singleton.mpr hsecond⟩
  have hjs : ∀ message ∈ sampleMessages, Protocol.ReadsAs Protocol.objectRuntime
      (Codex.sampleToVec message) message :=
    hall ⟨⟨_, rfl, rfl⟩, rfl, by decide, by decide⟩ ⟨⟨_, rfl, rfl⟩, rfl, by decide, by decide⟩
  have hsize : ∀ message ∈ sampleMessages,
      (Codex.sampleToVec message).length + 2 ≤ Protocol.defaultLimit :=
    hall (by rw [Codex.length_sampleObject]; decide) (by rw [Codex.length_sampleObject]; decide)
  -- three frames are on the line, and no report is set
  obtain ⟨framed, hframed, hwritten⟩ := Serial.written_sendMessages hsent
  obtain rfl := Codex.framed_eq hframed
  have hfew : ∀ frame ∈ inputFrames 65535 ((sampleMessages.map Codex.sampleToVec).map
      Codex.reportsOf).flatten, frame.payload.length ≤ Wire.maxPayload := by
    decide +kernel
  have hasks : ∀ turn ∈ samplePieces sampleWriter.written 30 2, ∀ step ∈ turn.steps,
      step.asks = false := by
    decide +kernel
  have hroomy := roomy_of_few hasks hfew
    (by rw [hbytes, hwritten]; exact List.prefix_refl _) (by decide +kernel)
  obtain ⟨⟨output, device⟩, h⟩ := Option.ne_none_iff_exists'.mp fun hnone => by
    obtain ⟨step, hstep, hoverflows⟩ := (Device.sound_boot.run_eq_none_iff _).1.mp hnone
    obtain ⟨turn, hturn, hstep⟩ := List.mem_flatMap.mp hstep
    exact Bool.false_ne_true ((hasks turn hturn step hstep).symm.trans hoverflows.asks)
  obtain ⟨rest, received, hreports, hreceived, hprefix, hwhole⟩ :=
    messages_reach_host hsent hjs hsize h (by rw [hbytes]) hroomy
  obtain ⟨rfl, -⟩ := hwhole hbytes
  rw [List.append_nil] at hreports
  exact ⟨output, device, received, h, hreports, hreceived, hprefix⟩

end Firmware
end MicroEmu
