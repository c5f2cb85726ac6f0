import MicroEmu.Codex.Messages
import MicroEmu.Firmware.Forwarding
import MicroEmu.Serial

/-!
# From the host to the bridge

What the host sets as reports crosses the queue of the firmware, the serial line and the
reader of the bridge, between the lines of the log and the answers to pings.
-/

namespace MicroEmu
namespace Firmware

open Codex (CodexDecoder)
open Json (Value)
open Serial (ReadResult SerialEvent eventOf received startReader)
open Wire (Frame FrameDecoder FrameType)

/-! ## Frames that the bridge knows -/

/-- What a frame of the bridge says. -/
def contentOf (frame : Frame) : FrameContent :=
  ⟨frame.frameType.toByte, frame.sequence, frame.payload⟩

theorem FrameContent.Known.exists_frame {content : FrameContent} (h : content.Known) :
    ∃ frame : Frame, frame.payload.length ≤ Wire.maxPayload ∧ contentOf frame = content := by
  obtain ⟨type, sequence, payload⟩ := content
  obtain ⟨htype, hshort⟩ := h
  rcases htype with rfl | rfl | rfl
  · exact ⟨⟨.codexOutputReport, sequence, payload⟩, hshort, rfl⟩
  · exact ⟨⟨.status, sequence, payload⟩, hshort, rfl⟩
  · exact ⟨⟨.log, sequence, payload⟩, hshort, rfl⟩

theorem exists_frames {contents : List FrameContent} (h : ∀ content ∈ contents, content.Known) :
    ∃ frames : List Frame, (∀ frame ∈ frames, frame.payload.length ≤ Wire.maxPayload) ∧
      frames.map contentOf = contents := by
  induction contents with
  | nil => exact ⟨[], fun _ h => absurd h List.not_mem_nil, rfl⟩
  | cons content contents ih =>
      obtain ⟨frame, hshort, rfl⟩ := (h content (List.mem_cons_self ..)).exists_frame
      obtain ⟨frames, hframes, rfl⟩ := ih fun other hother =>
        h other (List.mem_cons_of_mem _ hother)
      exact ⟨frame :: frames, List.forall_mem_cons.mpr ⟨hshort, hframes⟩, rfl⟩

/-- The payloads of the frames of a type. -/
def payloads (frameType : FrameType) (frames : List Frame) : List (List UInt8) :=
  (frames.filter fun frame => frame.frameType = frameType).map (·.payload)

theorem ofType_spoken {frameType : FrameType} (h : frameType ≠ .log) (frames : List Frame) :
    ofType frameType.toByte (spoken (frames.map contentOf)) = payloads frameType frames := by
  induction frames with
  | nil => rfl
  | cons frame frames ih =>
      have hhead : ofType frameType.toByte (spoken [contentOf frame]) =
          payloads frameType [frame] := by
        obtain ⟨other, sequence, payload⟩ := frame
        cases frameType <;> cases other <;> first | rfl | exact absurd rfl h
      have hspoken := spoken_append [contentOf frame] (frames.map contentOf)
      rw [List.singleton_append] at hspoken
      rw [List.map_cons, hspoken, ofType_append, hhead, ih, payloads, payloads, payloads,
        ← List.map_append, ← List.filter_append, List.singleton_append]

theorem getElem?_number (frames : List (UInt8 × List UInt8)) (sequence : UInt16) (index : Nat) :
    (number sequence frames)[index]? =
      frames[index]?.map fun frame => ⟨frame.1, sequence + UInt16.ofNat index, frame.2⟩ := by
  induction frames generalizing sequence index with
  | nil => rfl
  | cons frame frames ih =>
      rw [number]
      cases index with
      | zero =>
          rw [List.getElem?_cons_zero, List.getElem?_cons_zero, Option.map_some]
          exact congrArg (fun number => some (FrameContent.mk frame.1 number frame.2))
            (UInt16.add_zero sequence).symm
      | succ index =>
          rw [List.getElem?_cons_succ, List.getElem?_cons_succ, ih, UInt16.add_assoc,
            Nat.add_comm index 1, UInt16.ofNat_add]
          rfl

/-! ## Parts of turns -/

theorem ParserRun.events_takeChunk {run : ParserRun} {bytes : List UInt8}
    {next : ParserRun × List UInt8} (h : takeChunk run bytes = some next) :
    ∃ events, next.1.events = run.events ++ events := by
  obtain ⟨room, -, h⟩ := Option.bind_eq_some_iff.mp h
  obtain ⟨stored, -, h⟩ := Option.bind_eq_some_iff.mp h
  obtain ⟨parsed, -, h⟩ := Option.bind_eq_some_iff.mp h
  obtain rfl := Option.some.inj h
  exact ⟨_, rfl⟩

theorem ParserRun.events_makeRoom {run next : ParserRun} (h : makeRoom run = some next) :
    next.events = run.events := by
  obtain ⟨room, -, h⟩ := Option.bind_eq_some_iff.mp h
  split at h
  · obtain ⟨parser, -, rfl⟩ := Option.map_eq_some_iff.mp h
    rfl
  · obtain rfl := Option.some.inj h
    rfl

/-- What the parser has reported stays reported. -/
theorem ParserRun.events_feed {turns : Nat} {run next : ParserRun} {bytes : List UInt8}
    (h : feedTurns turns run bytes = some next) : ∃ events, next.events = run.events ++ events := by
  induction turns generalizing run bytes with
  | zero => cases h
  | succ turns ih =>
      rw [feedTurns] at h
      split at h
      · obtain rfl := Option.some.inj h
        exact ⟨[], (List.append_nil _).symm⟩
      · obtain ⟨roomy, hroomy, h⟩ := Option.bind_eq_some_iff.mp h
        obtain ⟨taken, htaken, h⟩ := Option.bind_eq_some_iff.mp h
        obtain ⟨first, hfirst⟩ := events_takeChunk htaken
        obtain ⟨later, hlater⟩ := ih h
        refine ⟨first ++ later, ?_⟩
        rw [hlater, hfirst, events_makeRoom hroomy, List.append_assoc]

theorem ParserRun.callbacks_feed {run next : ParserRun} {bytes : List UInt8}
    (h : bridgeParserFeed run bytes = some next) :
    next.callbacks = run.callbacks ++ next.callbacksSince run := by
  obtain ⟨events, hevents⟩ := events_feed h
  have hcallbacks : run.callbacks <+: next.callbacks := by
    rw [callbacks, callbacks, hevents, List.filterMap_append]
    exact List.prefix_append _ _
  obtain ⟨later, hlater⟩ := hcallbacks
  rw [callbacksSince, ← hlater, List.drop_left]

theorem answers_append (first second : List BridgeFrame) :
    answers (first ++ second) = answers first ++ answers second := by
  rw [answers, List.filter_append, List.map_append]
  rfl

/-- Frames one after another: some of the answers are accepted, and all of them if there is
room. -/
theorem exists_acts_frames {frames : List BridgeFrame} {before after : State}
    (h : frames.foldlM onBridgeFrame before = some after) :
    ∃ taken, taken.Sublist ((answers frames).map fun text => (bridgeFrameStatus, text)) ∧
      Acts before ⟨taken, []⟩ after := by
  induction frames generalizing before with
  | nil =>
      obtain rfl := Option.some.inj h
      exact ⟨[], .slnil, .refl before⟩
  | cons frame frames ih =>
      rw [List.foldlM_cons] at h
      obtain ⟨middle, hframe, hframes⟩ := Option.bind_eq_some_iff.mp h
      obtain ⟨first, hfirst, hacts⟩ := (offers_onBridgeFrame hframe).exists_acts
      obtain ⟨later, hlater, hrest⟩ := ih hframes
      refine ⟨first ++ later, ?_, hacts.trans hrest⟩
      rw [← List.singleton_append, answers_append, List.map_append]
      exact hfirst.append hlater

theorem acts_frames {frames : List BridgeFrame} {before after : State}
    (h : frames.foldlM onBridgeFrame before = some after) (hspare : before.Spare)
    (hroom : (spoken before.waiting).length + (answers frames).length ≤ 3) :
    Acts before ⟨(answers frames).map fun text => (bridgeFrameStatus, text), []⟩ after := by
  induction frames generalizing before with
  | nil =>
      obtain rfl := Option.some.inj h
      exact .refl before
  | cons frame frames ih =>
      rw [List.foldlM_cons] at h
      obtain ⟨middle, hframe, hframes⟩ := Option.bind_eq_some_iff.mp h
      rw [← List.singleton_append, answers_append, List.length_append] at hroom
      have hacts := (offers_onBridgeFrame hframe).acts hspare fun hnonempty => by
        have hpositive := List.length_pos_iff.mpr hnonempty
        rw [List.length_map] at hpositive
        omega
      have hmiddle := hacts.spoken_waiting hspare rfl
      have hrest := ih hframes (hacts.spare hspare) (by
        rw [hmiddle, List.length_append, List.length_map]
        omega)
      rw [← List.singleton_append, answers_append, List.map_append]
      exact hacts.trans hrest

theorem Device.offers_read {device : Device} {bytes : List UInt8} {parser : ParserRun}
    (h : bridgeParserFeed device.parser bytes = some parser) :
    device.offers (.read bytes) =
      (answers (parser.callbacksSince device.parser)).map fun text =>
        (bridgeFrameStatus, text) := by
  rw [offers, h]

/-- Where a part of a turn has frames for the bridge, at most three of them wait once these are
in, those of the log apart. -/
def Device.HasRoom (device : Device) (step : LoopStep) : Prop :=
  device.offers step ≠ [] →
    (spoken device.state.waiting).length + (device.offers step).length ≤ 3

instance (device : Device) (step : LoopStep) : Decidable (device.HasRoom step) :=
  inferInstanceAs (Decidable (_ → _))

/-- What a part of a turn does for the bridge: it hands the frames of a read over, or calls
back, or has nothing to forward; only a read touches the parser. -/
inductive Device.Serves (device : Device) : LoopStep → Output → Device → Prop where
  | read {bytes : List UInt8} {parser : ParserRun} {state : State} :
      bridgeParserFeed device.parser bytes = some parser →
      (parser.callbacksSince device.parser).foldlM onBridgeFrame device.state = some state →
      Device.Serves device (.read bytes) .none { device with parser, state }
  | callback {callback : Callback} {state : State} :
      onCallback device.state callback = some state →
      Device.Serves device (.callback callback) .none { device with state }
  | other {step : LoopStep} {output : Output} {next : Device} :
      device.offers step = [] → step.forwards = [] → next.parser = device.parser →
      Acts device.state ⟨[], output.bytes⟩ next.state → Device.Serves device step output next

/-- The inversion lemma. -/
theorem Device.serves {device next : Device} {step : LoopStep} {output : Output}
    (h : device.step step = some (output, next)) : device.Serves step output next := by
  cases step with
  | callback callback =>
      obtain ⟨state, hstate, hnext⟩ := Option.map_eq_some_iff.mp h
      obtain ⟨rfl, rfl⟩ := Prod.mk.inj hnext
      exact .callback hstate
  | read bytes =>
      obtain ⟨parser, hparser, h⟩ := Option.bind_eq_some_iff.mp h
      obtain ⟨state, hstate, h⟩ := Option.bind_eq_some_iff.mp h
      obtain ⟨rfl, rfl⟩ := Prod.mk.inj (Option.some.inj h)
      exact .read hparser hstate
  | inputFlush ready accepted =>
      obtain ⟨flushed, hflushed, hnext⟩ := Option.map_eq_some_iff.mp h
      obtain ⟨rfl, rfl⟩ := Prod.mk.inj hnext
      exact .other rfl rfl rfl (.hidInputFlush hflushed)
  | bootLog connected =>
      rw [Device.step] at h
      split at h
      · obtain ⟨state, hstate, hnext⟩ := Option.map_eq_some_iff.mp h
        obtain ⟨rfl, rfl⟩ := Prod.mk.inj hnext
        exact .other rfl rfl rfl (.bridgeLog hstate)
      · obtain ⟨rfl, rfl⟩ := Prod.mk.inj (Option.some.inj h)
        exact .other rfl rfl rfl (.refl _)
  | txFlush connected available =>
      obtain ⟨flushed, hflushed, hnext⟩ := Option.map_eq_some_iff.mp h
      obtain ⟨rfl, rfl⟩ := Prod.mk.inj hnext
      exact .other rfl rfl rfl (.bridgeTxFlush hflushed)

namespace Device.Serves

variable {device next : Device} {step : LoopStep} {output : Output}

/-- Some of what a part of a turn has for the bridge is accepted. -/
theorem exists_acts (h : device.Serves step output next) :
    ∃ taken, taken.Sublist (device.offers step) ∧
      Acts device.state ⟨taken, output.bytes⟩ next.state := by
  cases h with
  | read hparser hstate =>
      rw [offers_read hparser]
      exact exists_acts_frames hstate
  | callback hstate => exact (offers_onCallback hstate device).exists_acts
  | other hoffers hforwards hparser hacts => exact ⟨[], List.nil_sublist _, hacts⟩

/-- All of it is accepted if there is room. -/
theorem acts (h : device.Serves step output next) (hspare : device.state.Spare)
    (hroom : device.HasRoom step) :
    Acts device.state ⟨device.offers step, output.bytes⟩ next.state := by
  cases h with
  | @read bytes parser state hparser hstate =>
      rw [HasRoom, offers_read hparser, List.length_map] at hroom
      rw [offers_read hparser]
      by_cases hnone : answers (parser.callbacksSince device.parser) = []
      · obtain ⟨taken, htaken, hacts⟩ := exists_acts_frames hstate
        rw [hnone, List.map_nil] at htaken ⊢
        obtain rfl := List.sublist_nil.mp htaken
        exact hacts
      · exact acts_frames hstate hspare (hroom (by simpa using hnone))
  | callback hstate =>
      refine (offers_onCallback hstate device).acts hspare fun hnonempty => ?_
      have hpositive := List.length_pos_iff.mpr hnonempty
      have hfew := hroom hnonempty
      omega
  | other hoffers hforwards hparser hacts =>
      rw [hoffers]
      exact hacts

/-- What is offered as reports is what is forwarded. -/
theorem ofType_output (h : device.Serves step output next) :
    ofType bridgeFrameCodexOutputReport (device.offers step) = step.forwards := by
  cases h with
  | read hparser hstate =>
      rw [offers_read hparser]
      exact ofType_map_of_ne (by decide) _
  | @callback callback state hstate =>
      cases callback with
      | setReport request => exact ofType_map_self _ _
      | _ => rfl
  | other hoffers hforwards hparser hacts =>
      rw [hoffers, hforwards]
      rfl

theorem callbacksSince_self (run : ParserRun) : run.callbacksSince run = [] := by
  rw [ParserRun.callbacksSince, List.drop_length]

/-- What is offered as a status answers the pings that have come. -/
theorem ofType_status (h : device.Serves step output next) :
    ofType bridgeFrameStatus (device.offers step) =
      answers (next.parser.callbacksSince device.parser) := by
  cases h with
  | read hparser hstate =>
      rw [offers_read hparser]
      exact ofType_map_self _ _
  | @callback callback state hstate =>
      rw [callbacksSince_self]
      cases callback with
      | setReport request => exact ofType_map_of_ne (by decide) _
      | _ => rfl
  | other hoffers hforwards hparser hacts =>
      rw [hoffers, hparser, callbacksSince_self]
      rfl

theorem callbacks_eq (h : device.Serves step output next) :
    next.parser.callbacks =
      device.parser.callbacks ++ next.parser.callbacksSince device.parser := by
  cases h with
  | read hparser hstate => exact ParserRun.callbacks_feed hparser
  | callback hstate => rw [callbacksSince_self, List.append_nil]
  | other hoffers hforwards hparser hacts => rw [hparser, callbacksSince_self, List.append_nil]

end Device.Serves

/-! ## Runs -/

/-- Every part of a run meets enough room. -/
def Device.Spacious : List LoopStep → Device → Prop
  | [], _ => True
  | step :: steps, device =>
      device.HasRoom step ∧ ∀ next ∈ device.step step, Spacious steps next.2

instance decidableSpacious : (steps : List LoopStep) → (device : Device) →
    Decidable (device.Spacious steps)
  | [], _ => .isTrue trivial
  | _ :: steps, _ =>
      have : DecidablePred fun next : Output × Device => next.2.Spacious steps :=
        fun next => decidableSpacious steps next.2
      inferInstanceAs (Decidable (_ ∧ _))

/-- The frames that a run has for the bridge: those that were accepted are among them, and are
all of them if there is room. -/
theorem Device.exists_acts_run {steps : List LoopStep} {device last : Device} {output : Output}
    (h : device.run steps = some (output, last)) (hspare : device.state.Spare) :
    ∃ taken, Acts device.state ⟨taken, output.bytes⟩ last.state ∧
      last.parser.callbacks = device.parser.callbacks ++
        last.parser.callbacksSince device.parser ∧
      (ofType bridgeFrameCodexOutputReport taken).Sublist (steps.flatMap LoopStep.forwards) ∧
      (ofType bridgeFrameStatus taken).Sublist
        (answers (last.parser.callbacksSince device.parser)) ∧
      (device.Spacious steps →
        ofType bridgeFrameCodexOutputReport taken = steps.flatMap LoopStep.forwards ∧
        ofType bridgeFrameStatus taken =
          answers (last.parser.callbacksSince device.parser)) := by
  induction steps generalizing device output with
  | nil =>
      obtain ⟨rfl, rfl⟩ := Prod.mk.inj (Option.some.inj h)
      rw [Serves.callbacksSince_self, List.append_nil]
      exact ⟨[], .refl device.state, rfl, .slnil, .slnil, fun _ => ⟨rfl, rfl⟩⟩
  | cons step steps ih =>
      rw [run] at h
      obtain ⟨⟨first, next⟩, hstep, h⟩ := Option.bind_eq_some_iff.mp h
      obtain ⟨⟨later, final⟩, hrest, h⟩ := Option.bind_eq_some_iff.mp h
      obtain ⟨rfl, rfl⟩ := Prod.mk.inj (Option.some.inj h)
      have hserves := serves hstep
      obtain ⟨some, hsome, hacts⟩ := hserves.exists_acts
      obtain ⟨more, hmore, hcallbacks, hreports, hstatuses, hall⟩ :=
        ih hrest (hacts.spare hspare)
      -- what has come since the start has come in the first part or since
      have hsplit : final.parser.callbacks = device.parser.callbacks ++
          (next.parser.callbacksSince device.parser ++
            final.parser.callbacksSince next.parser) := by
        rw [hcallbacks, hserves.callbacks_eq, List.append_assoc]
      have hsince : final.parser.callbacksSince device.parser =
          next.parser.callbacksSince device.parser ++
            final.parser.callbacksSince next.parser := by
        rw [ParserRun.callbacksSince, hsplit, List.drop_left]
      rw [hsince, List.flatMap_cons, answers_append]
      by_cases hroom : device.HasRoom step
      · refine ⟨device.offers step ++ more, (hserves.acts hspare hroom).trans hmore, hsplit,
          ?_, ?_, ?_⟩
        · rw [ofType_append, hserves.ofType_output]
          exact (List.Sublist.refl _).append hreports
        · rw [ofType_append, hserves.ofType_status]
          exact (List.Sublist.refl _).append hstatuses
        · rintro ⟨-, hspacious⟩
          obtain ⟨hforwards, hanswers⟩ := hall (hspacious _ hstep)
          rw [ofType_append, ofType_append, hserves.ofType_output, hserves.ofType_status,
            hforwards, hanswers]
          exact ⟨rfl, rfl⟩
      · refine ⟨some ++ more, hacts.trans hmore, hsplit, ?_, ?_, fun hspacious =>
          absurd hspacious.1 hroom⟩
        · rw [ofType_append, ← hserves.ofType_output]
          exact ((hsome.filter _).map _).append hreports
        · rw [ofType_append, ← hserves.ofType_status]
          exact ((hsome.filter _).map _).append hstatuses

/-! ## Frames at the bridge -/

/-- The reports that a turn forwards. -/
def Turn.forwards (turn : Turn) : List (List UInt8) := turn.steps.flatMap LoopStep.forwards

/-- Frames of which a part has come are decoded as far as they are there. -/
theorem exists_decoded {frames : List Frame}
    (hframes : ∀ frame ∈ frames, frame.payload.length ≤ Wire.maxPayload)
    {chunks : List (List UInt8)} (hchunks : chunks.flatten <+: encodeAll frames) :
    ∃ decoded rest, frames = decoded ++ rest ∧
      (FrameDecoder.feedAll chunks .start).1.map Prod.fst = decoded.map .ok ∧
      (chunks.flatten = encodeAll frames → rest = []) := by
  have hwhole (pieces : List (List UInt8)) (hpieces : pieces.flatten = encodeAll frames) :
      (FrameDecoder.feedAll pieces .start).1.map Prod.fst = frames.map .ok := by
    have hfeed : FrameDecoder.feedAll pieces .start =
        Wire.decoder.scan ⟨0, [] ++ encodeAll frames⟩ := by
      rw [List.nil_append, ← hpieces]
      exact Wire.decoder_reads.incremental.feedAll_eq rfl pieces
    rw [hfeed]
    exact (scan_encodeAll hframes Wire.Noise.nil 0).1
  obtain ⟨later, hlater⟩ := hchunks
  have hall := hwhole (chunks ++ [later]) (by
    rw [List.flatten_append, List.flatten_singleton, hlater])
  have happend : (FrameDecoder.feedAll (chunks ++ [later]) .start).1 =
      (FrameDecoder.feedAll chunks .start).1 ++
        (FrameDecoder.feedAll [later] (FrameDecoder.feedAll chunks .start).2).1 := by
    exact congrArg Prod.fst (Library.Scanner.feedAll_append _ _ _ _)
  rw [happend, List.map_append] at hall
  obtain ⟨decoded, rest, rfl, hdecoded, hrest⟩ := List.append_eq_map_iff.mp hall
  refine ⟨decoded, rest, rfl, hdecoded.symm, fun hcomplete => ?_⟩
  have hlength := congrArg List.length ((hwhole chunks hcomplete).symm.trans hdecoded.symm)
  rw [List.length_map, List.length_map, List.length_append] at hlength
  exact List.eq_nil_of_length_eq_zero (by omega)

theorem startReader_of_decoded {results : List ReadResult} {frames : List Frame}
    (h : (FrameDecoder.feedAll (received results) .start).1.map Prod.fst = frames.map .ok) :
    startReader results = frames.map .frame ++ Serial.failure results := by
  have hevents := congrArg (List.map eventOf) h
  rw [List.map_map, List.map_map] at hevents
  exact (Serial.startReader_eq results).trans (congrArg (· ++ Serial.failure results) hevents)

/-- What a run from the start has written, and what waits then, are frames that are numbered
from one on. -/
theorem exists_frames_run {turns : List Turn} {output : Output} {device : Device}
    (h : mainLoop turns = some (output, device)) :
    ∃ sent waiting : List Frame,
      (∀ frame ∈ sent, frame.payload.length ≤ Wire.maxPayload) ∧
      output.bytes = sent.map Frame.encode ∧ device.state.waiting = waiting.map contentOf ∧
      (∀ index frame, (sent ++ waiting)[index]? = some frame →
        frame.sequence = UInt16.ofNat (index + 1)) ∧
      (payloads .codexOutputReport (sent ++ waiting)).Sublist (turns.flatMap Turn.forwards) ∧
      (payloads .status (sent ++ waiting)).Sublist (answers device.parser.callbacks) ∧
      (Device.boot.Spacious (turns.flatMap Turn.steps) →
        payloads .codexOutputReport (sent ++ waiting) = turns.flatMap Turn.forwards ∧
        payloads .status (sent ++ waiting) = answers device.parser.callbacks) := by
  obtain ⟨taken, hacts, hcallbacks, hreports, hstatuses, hall⟩ :=
    Device.exists_acts_run h State.spare_init
  obtain ⟨last, hdescribes, -, hledger⟩ :=
    hacts.exists_ledger State.fits_init (State.describes_queues State.fits_init)
  obtain ⟨numbered, haccepted, -⟩ := hledger.numbered
  obtain ⟨contents, hgone, hbytes⟩ := hledger.written
  -- what has been accepted is what has left and what waits
  have hwhole : contents ++ device.state.waiting = number 1 numbered := by
    rw [Library.Fifo.accepted, hgone, hdescribes.frames] at haccepted
    exact haccepted
  have hknown : ∀ content ∈ contents ++ device.state.waiting, content.Known := by
    have hrecords := hledger.records.known fun content hcontent =>
      absurd hcontent List.not_mem_nil
    rw [haccepted] at hrecords
    rw [hwhole]
    exact hrecords
  have hspoken : spoken (contents ++ device.state.waiting) = taken := by
    have hrecords := hledger.records.spoken
    rw [haccepted] at hrecords
    rw [hwhole]
    exact hrecords
  obtain ⟨sent, hshort, hsent⟩ := exists_frames fun content hcontent =>
    hknown content (List.mem_append_left _ hcontent)
  obtain ⟨waiting, -, hwaiting⟩ := exists_frames fun content hcontent =>
    hknown content (List.mem_append_right _ hcontent)
  have hboth : (sent ++ waiting).map contentOf = contents ++ device.state.waiting := by
    rw [List.map_append, hsent, hwaiting]
  have hpayloads (frameType : FrameType) (htype : frameType ≠ .log) :
      payloads frameType (sent ++ waiting) = ofType frameType.toByte taken := by
    rw [← ofType_spoken htype, hboth, hspoken]
  have hforwards : turns.flatMap Turn.forwards =
      (turns.flatMap Turn.steps).flatMap LoopStep.forwards := List.flatMap_assoc.symm
  have hanswers : device.parser.callbacksSince Device.boot.parser = device.parser.callbacks :=
    List.drop_zero
  rw [hanswers] at hstatuses hall
  refine ⟨sent, waiting, hshort, ?_, hwaiting.symm, ?_, ?_, ?_, ?_⟩
  · rw [← hsent, List.map_map] at hbytes
    exact hbytes
  · intro index frame hframe
    have hcontent : (number 1 numbered)[index]? = some (contentOf frame) := by
      rw [← hwhole, ← hboth, List.getElem?_map, hframe, Option.map_some]
    rw [getElem?_number] at hcontent
    obtain ⟨other, -, hother⟩ := Option.map_eq_some_iff.mp hcontent
    have hsequence : 1 + UInt16.ofNat index = frame.sequence := congrArg (·.sequence) hother
    rw [← hsequence, Nat.add_comm index 1, UInt16.ofNat_add]
    rfl
  · rw [hpayloads .codexOutputReport (by decide), hforwards]
    exact hreports
  · rw [hpayloads .status (by decide)]
    exact hstatuses
  · rw [hpayloads .codexOutputReport (by decide), hpayloads .status (by decide), hforwards]
    exact hall

/-- The bridge reads, in order and unharmed, what the firmware has written: the frames that were
accepted, numbered one after another.  The reports among them are some of those that the host
has set, and all of them if there is always room. -/
theorem forwarded_to_bridge {turns : List Turn} {output : Output} {device : Device}
    (h : mainLoop turns = some (output, device)) {results : List ReadResult}
    (hreceived : (received results).flatten <+: output.bytes.flatten) :
    ∃ frames unread waiting : List Frame,
      startReader results = frames.map .frame ++ Serial.failure results ∧
      output.bytes = (frames ++ unread).map Frame.encode ∧
      ((received results).flatten = output.bytes.flatten → unread = []) ∧
      device.state.waiting = waiting.map contentOf ∧
      (∀ index frame, (frames ++ unread ++ waiting)[index]? = some frame →
        frame.sequence = UInt16.ofNat (index + 1)) ∧
      (payloads .codexOutputReport (frames ++ unread ++ waiting)).Sublist
        (turns.flatMap Turn.forwards) ∧
      (payloads .status (frames ++ unread ++ waiting)).Sublist
        (answers device.parser.callbacks) ∧
      (Device.boot.Spacious (turns.flatMap Turn.steps) →
        payloads .codexOutputReport (frames ++ unread ++ waiting) =
            turns.flatMap Turn.forwards ∧
          payloads .status (frames ++ unread ++ waiting) =
            answers device.parser.callbacks) := by
  obtain ⟨sent, waiting, hshort, hbytes, hwaiting, hrest⟩ := exists_frames_run h
  rw [hbytes, ← encodeAll] at hreceived ⊢
  obtain ⟨frames, unread, rfl, hdecoded, hcomplete⟩ := exists_decoded hshort hreceived
  exact ⟨frames, unread, waiting, startReader_of_decoded hdecoded, rfl, hcomplete, hwaiting,
    hrest⟩

/-- A turn of a host that is served at once. -/
def sampleTurn (callbacks : List Callback) (reads : List (List UInt8)) : Turn :=
  ⟨callbacks, reads, true, true, true, true, 256⟩

/-- The bridge pings while the host mounts; then the host sets one report in each turn, and
then nothing comes for so many turns. -/
def sampleTurns (reports : List (List UInt8)) (quiet : Nat) : List Turn :=
  sampleTurn [.mount] [(⟨.ping, 9, []⟩ : Frame).encode] ::
    (reports.map fun report => sampleTurn [.setReport ⟨0, 0, .output, some report⟩] []) ++
      List.replicate quiet (sampleTurn [] [])

theorem forwarded_sampleTurns :
    ∃ output device, mainLoop (sampleTurns [Codex.report [0x7b, 0x7d, 13, 10]] 3) =
        some (output, device) ∧
      ∃ frames waiting : List Frame,
        startReader [.read output.bytes.flatten] = frames.map .frame ∧
        output.bytes = frames.map Frame.encode ∧
        device.state.waiting = waiting.map contentOf ∧
        payloads .codexOutputReport (frames ++ waiting) =
          [Codex.report [0x7b, 0x7d, 13, 10]] := by
  obtain ⟨⟨output, device⟩, h⟩ := Option.isSome_iff_exists.mp (show
    (mainLoop (sampleTurns [Codex.report [0x7b, 0x7d, 13, 10]] 3)).isSome by decide +kernel)
  have hread : (received [.read output.bytes.flatten]).flatten = output.bytes.flatten :=
    List.append_nil _
  obtain ⟨frames, unread, waiting, hevents, hbytes, hunread, hwaiting, -, -, -, hall⟩ :=
    forwarded_to_bridge h (by rw [hread])
  obtain rfl := hunread hread
  rw [List.append_nil] at hbytes hall
  refine ⟨output, device, h, frames, waiting, ?_, hbytes, hwaiting, ?_⟩
  · rw [hevents]
    exact List.append_nil _
  · rw [(hall (by decide +kernel)).1]
    decide +kernel

/-! ## Messages at the bridge -/

/-- The reports that the daemon feeds to its decoder. -/
def outputReports (events : List SerialEvent) : List (List UInt8) :=
  events.filterMap fun event =>
    match event with
    | .frame frame => if frame.frameType = .codexOutputReport then some frame.payload else none
    | _ => none

theorem outputReports_frames (frames : List Frame) (results : List ReadResult) :
    outputReports (frames.map .frame ++ Serial.failure results) =
      payloads .codexOutputReport frames := by
  have hfailure : outputReports (Serial.failure results) = [] := by
    induction results with
    | nil => rfl
    | cons result results ih =>
        cases result with
        | read bytes => exact ih
        | failed error => rfl
  have hframes : outputReports (frames.map .frame) = payloads .codexOutputReport frames := by
    induction frames with
    | nil => rfl
    | cons frame frames ih =>
        rw [outputReports, List.map_cons, List.filterMap_cons, ← outputReports, ih, payloads,
          payloads]
        by_cases htype : frame.frameType = .codexOutputReport
        · rw [List.filter_cons_of_pos (by simpa using htype)]
          simp only [if_pos htype, List.map_cons]
        · rw [List.filter_cons_of_neg (by simpa using htype)]
          simp only [if_neg htype]
  rw [outputReports, List.filterMap_append, ← outputReports, ← outputReports, hframes, hfailure,
    List.append_nil]

/-- Of some of their reports, those messages are delivered that are complete. -/
theorem exists_feedAll_part {next : Codex.Parser} {reports rest : List (List UInt8)}
    {batches : List (List Value)} {last : CodexDecoder}
    (h : CodexDecoder.feedAll next (reports ++ rest) .default = (batches.map .ok, last)) :
    ∃ front : List (List Value),
      (CodexDecoder.feedAll next reports .default).1 = front.map .ok ∧
      front.flatten <+: batches.flatten := by
  rw [CodexDecoder.feedAll_append] at h
  obtain ⟨front, back, rfl, hfront, -⟩ := List.append_eq_map_iff.mp (congrArg Prod.fst h)
  refine ⟨front, hfront.symm, ?_⟩
  rw [List.flatten_append]
  exact List.prefix_append _ _

/-- The messages of the host reach the daemon in order, none twice and none harmed, however
the callbacks, the reads and the writes fall, if there is always room; and all of them once
all bytes are read and no report waits. -/
theorem messages_reach_bridge {turns : List Turn} {output : Output} {device : Device}
    (h : mainLoop turns = some (output, device))
    (hroom : Device.boot.Spacious (turns.flatMap Turn.steps)) {next : Codex.Parser}
    {toVec : Value → List UInt8} {messages : List Value} {framed : List (List (List UInt8))}
    (hserialised : ∀ message ∈ messages, Codex.Serialised next (toVec message) message)
    (hframed : List.Forall₂ (fun message reports => Codex.frameJson toVec message = .ok reports)
      messages framed)
    (hsize : ∀ message ∈ messages, (toVec message).length + 2 ≤ Codex.maxBufferBytes)
    (hforwards : turns.flatMap Turn.forwards = framed.flatten) {results : List ReadResult}
    (hreceived : (received results).flatten <+: output.bytes.flatten) :
    ∃ batches : List (List Value),
      (CodexDecoder.feedAll next (outputReports (startReader results)) .default).1 =
        batches.map .ok ∧
      batches.flatten <+: messages ∧
      ((received results).flatten = output.bytes.flatten →
        (∀ content ∈ device.state.waiting, content.type ≠ bridgeFrameCodexOutputReport) →
        batches.flatten = messages ∧
          (CodexDecoder.feedAll next (outputReports (startReader results)) .default).2 =
            .default) := by
  obtain ⟨sent, waiting, hshort, hbytes, hwaiting, -, -, -, hall⟩ := exists_frames_run h
  obtain ⟨hpayloads, -⟩ := hall hroom
  rw [hbytes, ← encodeAll] at hreceived ⊢
  obtain ⟨frames, unread, rfl, hdecoded, hcomplete⟩ := exists_decoded hshort hreceived
  obtain ⟨batches, hflatten, hfeed⟩ := Codex.exists_feedAll_texts
    (Codex.forall₂_map_toVec hserialised) (List.forall_mem_map.mpr hsize)
  rw [← Codex.framed_eq hframed] at hfeed
  have hwhole : CodexDecoder.feedAll next (payloads .codexOutputReport
      (frames ++ unread ++ waiting)) .default = (batches.map .ok, .default) := by
    have hall := hfeed []
    rw [List.append_nil] at hall
    rw [hpayloads, hforwards, hall]
    exact congrArg (·, CodexDecoder.default) (List.append_nil _)
  -- what is still to be read, or still waits, comes behind
  have hsplit : payloads .codexOutputReport (frames ++ unread ++ waiting) =
      payloads .codexOutputReport frames ++ payloads .codexOutputReport (unread ++ waiting) := by
    rw [List.append_assoc, payloads, List.filter_append, List.map_append]
    rfl
  rw [startReader_of_decoded hdecoded, outputReports_frames]
  rw [hsplit] at hwhole
  obtain ⟨front, hfront, hprefix⟩ := exists_feedAll_part hwhole
  refine ⟨front, hfront, hflatten ▸ hprefix, fun hread hnone => ?_⟩
  obtain rfl := hcomplete hread
  have hrest : payloads .codexOutputReport waiting = [] := by
    rw [payloads, List.filter_eq_nil_iff.mpr, List.map_nil]
    intro frame hframe htype
    refine hnone (contentOf frame) (hwaiting ▸ List.mem_map_of_mem hframe) ?_
    rw [contentOf, of_decide_eq_true htype]
    rfl
  rw [List.nil_append, hrest, List.append_nil] at hwhole
  rw [hwhole] at hfront ⊢
  obtain rfl := List.map_injective_iff.mpr (fun _ _ => Except.ok.inj) hfront
  exact ⟨hflatten, rfl⟩

/-- Two objects, the second in two reports. -/
def sampleMessages : List Value := [Codex.sampleObject 1, Codex.sampleObject 52]

theorem messages_sampleTurns :
    ∃ output device, mainLoop (sampleTurns
        (sampleMessages.flatMap fun message => Codex.reportsOf (Codex.sampleToVec message)) 8) =
        some (output, device) ∧
      ∃ batches : List (List Value),
        CodexDecoder.feedAll Codex.sampleNext
            (outputReports (startReader [.read output.bytes.flatten])) .default =
          (batches.map .ok, .default) ∧
        batches.flatten = sampleMessages := by
  obtain ⟨⟨output, device⟩, h⟩ := Option.isSome_iff_exists.mp (show
    (mainLoop (sampleTurns (sampleMessages.flatMap fun message =>
      Codex.reportsOf (Codex.sampleToVec message)) 8)).isSome by decide +kernel)
  have hidle : (mainLoop (sampleTurns (sampleMessages.flatMap fun message =>
      Codex.reportsOf (Codex.sampleToVec message)) 8)).all (fun run =>
        run.2.state.waiting.all (·.type != bridgeFrameCodexOutputReport)) = true := by
    decide +kernel
  rw [h, Option.all_some, List.all_eq_true] at hidle
  have hread : (received [.read output.bytes.flatten]).flatten = output.bytes.flatten :=
    List.append_nil _
  have hserialised : ∀ message ∈ sampleMessages,
      Codex.Serialised Codex.sampleNext (Codex.sampleToVec message) message := by
    intro message hmessage
    rcases List.mem_pair.mp hmessage with rfl | rfl
    · exact Codex.sampleObject_serialised 1
    · exact Codex.sampleObject_serialised 52
  obtain ⟨batches, hfeed, -, hall⟩ := messages_reach_bridge h (by decide +kernel) hserialised
    (.cons rfl (.cons rfl .nil))
    (by
      intro message hmessage
      rcases List.mem_pair.mp hmessage with rfl | rfl <;>
        (rw [Codex.length_sampleObject]; decide))
    (by decide +kernel) (by rw [hread])
  obtain ⟨hflatten, hleft⟩ :=
    hall hread fun content hcontent => bne_iff_ne.mp (hidle content hcontent)
  exact ⟨output, device, h, batches, Prod.ext hfeed hleft, hflatten⟩

end Firmware
end MicroEmu
