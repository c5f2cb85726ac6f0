import MicroEmu.Codex.Messages
import MicroEmu.Firmware.Answers

/-!
# The stream of input reports

Fragments of the bridge's messages and the firmware's own responses go through one queue,
in the order in which they come.  They leave as whole messages if no response comes between
the fragments of a message that are queued, and the room in the queue does not run out, or
come back, in the middle of a message.
-/

namespace MicroEmu
namespace Firmware

open Json (Value)
open Library (Block)

/-! ## Runs -/

/-- What the firmware is called with. -/
inductive Event where
  | bridgeFrame (frame : BridgeFrame)
  | setReport (request : SetReport)
  | inputFlush (ready accepted : Bool)
  deriving DecidableEq, Repr

/-- One event, with the reports that leave. -/
def step (state : State) : Event → Option (List (List UInt8) × State)
  | .bridgeFrame frame => (onBridgeFrame state frame).map fun next => ([], next)
  | .setReport request => (tudHidSetReportCb state request).map fun next => ([], next)
  | .inputFlush ready accepted =>
      (hidInputFlush state ready accepted).map fun flushed => (flushed.1.toList, flushed.2)

/-- Events in order, with all reports that leave. -/
def run : List Event → State → Option (List (List UInt8) × State)
  | [], state => some ([], state)
  | event :: events, state => do
      let first ← step state event
      let last ← run events first.2
      some (first.1 ++ last.1, last.2)

/-- The fragments that an event brings from the bridge. -/
def Event.fragments : Event → List (List UInt8)
  | .bridgeFrame frame => inputReport frame
  | _ => []

/-! ## Whole messages -/

/-- The reports of a message. -/
abbrev Message : Type := List (List UInt8)

/-- What the queue may be given while messages come: each of them as a whole or not at all,
and responses between them. -/
inductive Whole : List Message → List Message → Prop where
  | nil : Whole [] []
  | queued {messages blocks : List Message} (message : Message) :
      Whole messages blocks → Whole (messages ++ [message]) (blocks ++ [message])
  | dropped {messages blocks : List Message} (message : Message) :
      Whole messages blocks → Whole (messages ++ [message]) blocks
  | response {messages blocks : List Message} {id : Nat} :
      id ≤ intMax → Whole messages blocks → Whole messages (blocks ++ [statusReports id])

/-- The messages of which these fragments have come are whole in the stream, as far as they
are there; of one that is not complete, all that has come may stand at the end. -/
def WholeMessages (messages : List Message) (fragments stream : List (List UInt8)) : Prop :=
  ∃ done blocks, Whole done blocks ∧
    ((done <+: messages ∧ fragments = done.flatten ∧ stream = blocks.flatten) ∨
      ∃ arrived rest, rest ≠ [] ∧ done ++ [arrived ++ rest] <+: messages ∧
        fragments = done.flatten ++ arrived ∧
        (stream = blocks.flatten ∨ stream = blocks.flatten ++ arrived))

/-! ## The condition -/

/-- How far the messages of the bridge have come: the fragments that are still to come of
the one that has begun, whether those that have come are in the queue, and the messages
behind it. -/
structure Progress where
  rest : Message
  kept : Bool
  ahead : List Message
  deriving DecidableEq, Repr

/-- Before the first message. -/
def Progress.start (messages : List Message) : Progress := ⟨[], false, messages⟩

/-- Whether there is room in the queue. -/
def State.hasRoom (state : State) : Bool := state.queued.length < reportQueueCapacity

/-- The progress behind an event. -/
def Progress.next (progress : Progress) (state : State) (event : Event) : Progress :=
  if event.fragments = [] then progress
  else
    match progress.rest, progress.ahead with
    | _ :: rest, _ => { progress with rest }
    | [], message :: ahead => ⟨message.tail, state.hasRoom, ahead⟩
    | [], [] => progress

/-- A fragment behind the first of its message finds room exactly if those before it did,
and a response comes when both of its reports find room, or none, and no part of a message
is queued that is not complete. -/
def Orderly (progress : Progress) (state : State) : Event → Prop
  | .bridgeFrame frame =>
      inputReport frame ≠ [] → progress.rest ≠ [] → progress.kept = state.hasRoom
  | .setReport request =>
      request.asks = true → state.hasRoom = true →
        state.queued.length + 2 ≤ reportQueueCapacity ∧
          (progress.rest = [] ∨ progress.kept = false)
  | .inputFlush _ _ => True

instance (progress : Progress) (state : State) (event : Event) :
    Decidable (Orderly progress state event) :=
  match event with
  | .bridgeFrame _ => inferInstanceAs (Decidable (_ → _ → _))
  | .setReport _ => inferInstanceAs (Decidable (_ → _ → _))
  | .inputFlush _ _ => inferInstanceAs (Decidable True)

/-- Every step of a run meets the condition. -/
def OrderlyRun : List Event → Progress → State → Prop
  | [], _, _ => True
  | event :: events, progress, state =>
      Orderly progress state event ∧
        ∀ next ∈ step state event, OrderlyRun events (progress.next state event) next.2

instance decidableOrderlyRun : (events : List Event) → (progress : Progress) → (state : State) →
    Decidable (OrderlyRun events progress state)
  | [], _, _ => .isTrue trivial
  | event :: events, progress, state =>
      have : DecidablePred fun next : List (List UInt8) × State =>
          OrderlyRun events (progress.next state event) next.2 :=
        fun next => decidableOrderlyRun events _ next.2
      inferInstanceAs (Decidable (_ ∧ _))

/-! ## Steps -/

/-- The stream is as far as the progress of the messages says. -/
inductive Tracks (messages : List Message) :
    Progress → List (List UInt8) → List (List UInt8) → Prop where
  | between {done blocks ahead : List Message} (kept : Bool) : Whole done blocks →
      messages = done ++ ahead → Tracks messages ⟨[], kept, ahead⟩ done.flatten blocks.flatten
  | within {done blocks ahead : List Message} {arrived rest : Message} (kept : Bool) :
      Whole done blocks → rest ≠ [] → messages = done ++ (arrived ++ rest) :: ahead →
      Tracks messages ⟨rest, kept, ahead⟩ (done.flatten ++ arrived)
        (blocks.flatten ++ if kept then arrived else [])

theorem Tracks.whole {messages : List Message} {progress : Progress}
    {fragments stream : List (List UInt8)} (h : Tracks messages progress fragments stream) :
    WholeMessages messages fragments stream := by
  cases h with
  | @between done blocks ahead kept hwhole hmessages =>
      exact ⟨done, blocks, hwhole, .inl ⟨⟨ahead, hmessages.symm⟩, rfl, rfl⟩⟩
  | @within done blocks ahead arrived rest kept hwhole hrest hmessages =>
      refine ⟨done, blocks, hwhole, .inr ⟨arrived, rest, hrest, ⟨ahead, ?_⟩, rfl, ?_⟩⟩
      · rw [hmessages, List.append_assoc]
        rfl
      · cases kept with
        | true => exact .inr rfl
        | false => exact .inl (List.append_nil _)

/-- The next fragment of a message. -/
theorem tracks_fragment {messages done blocks ahead : List Message} {arrived rest : Message}
    {fragment : List UInt8} (kept : Bool) (hwhole : Whole done blocks)
    (hmessages : messages = done ++ (arrived ++ fragment :: rest) :: ahead) :
    Tracks messages ⟨rest, kept, ahead⟩ (done.flatten ++ arrived ++ [fragment])
      ((blocks.flatten ++ if kept then arrived else []) ++ if kept then [fragment] else []) := by
  have hstream : (blocks.flatten ++ if kept then arrived else []) ++
      (if kept then [fragment] else []) =
      blocks.flatten ++ if kept then arrived ++ [fragment] else [] := by
    cases kept with
    | true => exact List.append_assoc ..
    | false => exact List.append_nil _
  rw [hstream, List.append_assoc]
  -- with its last fragment the message is queued as a whole, or dropped as a whole
  by_cases hrest : rest = []
  · subst hrest
    have hmessage : messages = done ++ [arrived ++ [fragment]] ++ ahead := by
      rw [hmessages, List.append_assoc]
      rfl
    have hdone : done.flatten ++ (arrived ++ [fragment]) =
        (done ++ [arrived ++ [fragment]]).flatten := by
      rw [List.flatten_append, List.flatten_singleton]
    rw [hdone]
    cases kept with
    | true =>
        have hblocks : blocks.flatten ++ (if true then arrived ++ [fragment] else []) =
            (blocks ++ [arrived ++ [fragment]]).flatten := by
          rw [List.flatten_append, List.flatten_singleton]
          rfl
        rw [hblocks]
        exact .between true (hwhole.queued _) hmessage
    | false =>
        rw [show (blocks.flatten ++ if false = true then _ else []) = blocks.flatten from
          List.append_nil _]
        exact .between false (hwhole.dropped _) hmessage
  · refine .within kept hwhole hrest ?_
    rw [hmessages, List.append_assoc]
    rfl

theorem take_append_of_room {state : State} {reports : List (List UInt8)}
    (h : state.queued.length + reports.length ≤ reportQueueCapacity) :
    (state.queued ++ reports).take reportQueueCapacity = state.queued ++ reports :=
  List.take_of_length_le (by rwa [List.length_append])

theorem take_append_of_full {state : State} (hvalid : state.Valid)
    (h : state.hasRoom = false) (reports : List (List UInt8)) :
    (state.queued ++ reports).take reportQueueCapacity = state.queued := by
  rw [State.hasRoom, decide_eq_false_iff_not, Nat.not_lt] at h
  rw [List.take_append_of_le_length h, List.take_of_length_le hvalid.length_queued]

/-- A fragment is queued if there is room. -/
theorem take_append_fragment {state : State} (hvalid : state.Valid) (fragment : List UInt8) :
    (state.queued ++ [fragment]).take reportQueueCapacity =
      state.queued ++ if state.hasRoom then [fragment] else [] := by
  cases hroom : state.hasRoom with
  | true => exact take_append_of_room (of_decide_eq_true hroom)
  | false =>
      rw [take_append_of_full hvalid hroom]
      exact (List.append_nil _).symm

theorem inputReport_cases (frame : BridgeFrame) :
    inputReport frame = [] ∨ ∃ fragment, inputReport frame = [fragment] := by
  rw [inputReport]
  split
  · exact .inr ⟨_, rfl⟩
  · exact .inl rfl

/-- A fragment from the bridge is the next one of its message. -/
theorem Tracks.fragment {messages : List Message} (hmessages : ∀ message ∈ messages, message ≠ [])
    {progress : Progress} {past stream : List (List UInt8)}
    (h : Tracks messages progress past stream) {state : State} {frame : BridgeFrame}
    {fragment : List UInt8} (hframe : inputReport frame = [fragment])
    (hcoming : past ++ [fragment] <+: messages.flatten)
    (horderly : Orderly progress state (.bridgeFrame frame)) :
    Tracks messages (progress.next state (.bridgeFrame frame)) (past ++ [fragment])
      (stream ++ if state.hasRoom then [fragment] else []) := by
  have hfragments : Event.fragments (.bridgeFrame frame) ≠ [] := by
    show inputReport frame ≠ []
    rw [hframe]
    exact List.cons_ne_nil _ _
  rw [Progress.next, if_neg hfragments]
  cases h with
  | @between done blocks ahead kept hwhole hall =>
      subst hall
      rw [List.flatten_append, List.prefix_append_right_inj] at hcoming
      -- the fragment is the first of the next message, which decides whether it is kept
      obtain ⟨message, later, rfl⟩ : ∃ message later, ahead = message :: later := by
        cases ahead with
        | nil => exact absurd (List.prefix_nil.mp hcoming) (List.cons_ne_nil _ _)
        | cons message later => exact ⟨message, later, rfl⟩
      obtain ⟨first, rest, rfl⟩ := List.exists_cons_of_ne_nil
        (hmessages message (List.mem_append_right done (List.mem_cons_self ..)))
      obtain ⟨more, hmore⟩ := hcoming
      obtain ⟨rfl, -⟩ := List.cons.inj hmore
      have hstream : Tracks (done ++ ([] ++ fragment :: rest) :: later)
          ⟨rest, state.hasRoom, later⟩ (done.flatten ++ [] ++ [fragment]) _ :=
        tracks_fragment state.hasRoom hwhole rfl
      simpa only [List.append_nil, List.nil_append, List.tail_cons, ite_self] using hstream
  | @within done blocks ahead arrived rest kept hwhole hrest hall =>
      subst hall
      rw [List.flatten_append, List.append_assoc, List.prefix_append_right_inj, List.flatten_cons,
        List.append_assoc, List.prefix_append_right_inj] at hcoming
      obtain ⟨first, rest, rfl⟩ := List.exists_cons_of_ne_nil hrest
      obtain ⟨more, hmore⟩ := hcoming
      obtain ⟨rfl, -⟩ := List.cons.inj hmore
      -- it fares as those before it did
      have hkept : kept = state.hasRoom :=
        horderly (by rw [hframe]; exact List.cons_ne_nil _ _) (List.cons_ne_nil _ _)
      subst hkept
      exact tracks_fragment state.hasRoom hwhole rfl

/-- A response stands between messages. -/
theorem Tracks.response {messages : List Message} {progress : Progress}
    {past stream : List (List UInt8)} (h : Tracks messages progress past stream)
    (hbetween : progress.rest = [] ∨ progress.kept = false) {id : Nat} (hid : id ≤ intMax) :
    Tracks messages progress past (stream ++ statusReports id) := by
  cases h with
  | @between done blocks ahead kept hwhole hall =>
      have hblocks : blocks.flatten ++ statusReports id =
          (blocks ++ [statusReports id]).flatten := by
        rw [List.flatten_append, List.flatten_singleton]
      rw [hblocks]
      exact .between kept (hwhole.response hid) hall
  | @within done blocks ahead arrived rest kept hwhole hrest hall =>
      -- nothing of the message that has begun is in the stream
      obtain rfl : kept = false := hbetween.resolve_left hrest
      have hblocks : (blocks.flatten ++ if false = true then arrived else []) ++
          statusReports id = (blocks ++ [statusReports id]).flatten ++
            if false = true then arrived else [] := by
        rw [List.flatten_append, List.flatten_singleton]
        exact (congrArg (· ++ statusReports id) (List.append_nil _)).trans
          (List.append_nil _).symm
      rw [hblocks]
      exact .within false (hwhole.response hid) hrest hall

/-- What one step keeps. -/
theorem Tracks.step {messages : List Message} (hmessages : ∀ message ∈ messages, message ≠ [])
    {progress : Progress} {past sent : List (List UInt8)} {state : State} (hvalid : state.Valid)
    (h : Tracks messages progress past (sent ++ state.queued)) {event : Event}
    (hcoming : past ++ event.fragments <+: messages.flatten)
    (horderly : Orderly progress state event) {result : List (List UInt8) × State}
    (hstep : Firmware.step state event = some result) :
    result.2.Valid ∧
      Tracks messages (progress.next state event) (past ++ event.fragments)
        (sent ++ result.1 ++ result.2.queued) := by
  cases event with
  | bridgeFrame frame =>
      obtain ⟨next, hnext, hnextValid, hqueued⟩ := exists_onBridgeFrame hvalid frame
      rw [Firmware.step, hnext] at hstep
      obtain rfl := Option.some.inj hstep
      refine ⟨hnextValid, ?_⟩
      show Tracks messages _ (past ++ inputReport frame) (sent ++ [] ++ next.queued)
      replace hcoming : past ++ inputReport frame <+: messages.flatten := hcoming
      rw [List.append_nil, hqueued]
      rcases inputReport_cases frame with hnone | ⟨fragment, hframe⟩
      · have hfragments : Event.fragments (.bridgeFrame frame) = [] := hnone
        rw [hnone, List.append_nil, List.append_nil,
          List.take_of_length_le hvalid.length_queued, Progress.next, if_pos hfragments]
        exact h
      · rw [hframe] at hcoming ⊢
        rw [take_append_fragment hvalid, ← List.append_assoc]
        exact h.fragment hmessages hframe hcoming horderly
  | setReport request =>
      have hsame : progress.next state (.setReport request) = progress := if_pos rfl
      rw [Firmware.step] at hstep
      obtain ⟨next, hnext, rfl⟩ := Option.map_eq_some_iff.mp hstep
      rw [hsame, show Event.fragments (.setReport request) = [] from rfl, List.append_nil,
        List.append_nil]
      cases hasks : request.asks with
      | false =>
          obtain ⟨other, hother, hquiet⟩ := exists_tudHidSetReportCb_unasked hvalid hasks
          obtain rfl := Option.some.inj (hnext.symm.trans hother)
          rw [hquiet.queued]
          exact ⟨hquiet.valid hvalid, h⟩
      | true =>
          obtain ⟨hnextValid, id, hid, hqueued⟩ := tudHidSetReportCb_asked hvalid hasks hnext
          refine ⟨hnextValid, ?_⟩
          rw [hqueued]
          cases hroom : state.hasRoom with
          | false =>
              rw [take_append_of_full hvalid hroom]
              exact h
          | true =>
              obtain ⟨hfits, hbetween⟩ := horderly hasks hroom
              obtain ⟨last, hreports⟩ := exists_statusReports hid
              rw [take_append_of_room (by rw [hreports]; exact hfits), ← List.append_assoc]
              exact h.response hbetween hid
  | inputFlush ready accepted =>
      have hsame : progress.next state (.inputFlush ready accepted) = progress := if_pos rfl
      obtain ⟨flushed, next, hflush, hnextValid, hqueued⟩ :=
        exists_hidInputFlush hvalid ready accepted
      rw [Firmware.step, hflush] at hstep
      obtain rfl := Option.some.inj hstep
      refine ⟨hnextValid, ?_⟩
      rw [hsame, show Event.fragments (.inputFlush ready accepted) = [] from rfl,
        List.append_nil, List.append_assoc, hqueued]
      exact h

/-! ## Whole runs -/

/-- What a whole run keeps. -/
theorem Tracks.run {messages : List Message} (hmessages : ∀ message ∈ messages, message ≠ [])
    {events : List Event} {progress : Progress} {past sent : List (List UInt8)} {state : State}
    (hvalid : state.Valid) (h : Tracks messages progress past (sent ++ state.queued))
    (hcoming : past ++ events.flatMap Event.fragments <+: messages.flatten)
    (horderly : OrderlyRun events progress state) {result : List (List UInt8) × State}
    (hrun : Firmware.run events state = some result) :
    ∃ last, Tracks messages last (past ++ events.flatMap Event.fragments)
      (sent ++ result.1 ++ result.2.queued) := by
  induction events generalizing progress past sent state result with
  | nil =>
      obtain rfl := Option.some.inj hrun
      refine ⟨progress, ?_⟩
      rw [List.flatMap_nil, List.append_nil, List.append_nil]
      exact h
  | cons event events ih =>
      rw [Firmware.run] at hrun
      obtain ⟨first, hfirst, hrest⟩ := Option.bind_eq_some_iff.mp hrun
      obtain ⟨last, hlast, hresult⟩ := Option.bind_eq_some_iff.mp hrest
      obtain rfl := Option.some.inj hresult
      rw [List.flatMap_cons, ← List.append_assoc] at hcoming ⊢
      obtain ⟨hnextValid, hnext⟩ := h.step hmessages hvalid
        ((List.prefix_append _ _).trans hcoming) horderly.1 hfirst
      obtain ⟨final, hfinal⟩ := ih hnextValid hnext hcoming (horderly.2 first hfirst) hlast
      refine ⟨final, ?_⟩
      rw [List.append_assoc sent] at hfinal
      exact hfinal

theorem ne_nil_of_frameJson {toVec : Value → List UInt8} {message : Value} {reports : Message}
    (h : Codex.frameJson toVec message = .ok reports) : reports ≠ [] := by
  rw [Codex.frameJson_eq_ok h, Codex.reportsOf, Library.toChunks_eq (by decide)
    (List.append_ne_nil_of_right_ne_nil _ (List.cons_ne_nil 13 [10]))]
  exact List.cons_ne_nil _ _

/-- The reports that leave are whole messages and responses, in every run whose steps meet
the condition. -/
theorem whole_messages {toVec : Value → List UInt8} {values : List Value}
    {messages : List Message} (hmessages : List.Forall₂ (fun value message =>
      Codex.frameJson toVec value = .ok message) values messages)
    {events : List Event} (hcoming : events.flatMap Event.fragments <+: messages.flatten)
    (horderly : OrderlyRun events (.start messages) .init) {sent : List (List UInt8)}
    {state : State} (hrun : run events .init = some (sent, state)) :
    WholeMessages messages (events.flatMap Event.fragments) (sent ++ state.queued) := by
  have hnonempty : ∀ message ∈ messages, message ≠ [] := by
    clear hcoming horderly
    induction hmessages with
    | nil => exact fun message hmember => absurd hmember List.not_mem_nil
    | @cons value message values messages hframe hrest ih =>
        intro other hother
        rcases List.mem_cons.mp hother with rfl | hother
        · exact ne_nil_of_frameJson hframe
        · exact ih other hother
  have hstart : Tracks messages (.start messages) [] ([] ++ State.init.queued) :=
    .between false .nil rfl
  obtain ⟨last, hlast⟩ := hstart.run hnonempty State.valid_init hcoming horderly hrun
  exact hlast.whole

/-- The frame that carries a report. -/
def sampleFrame (report : List UInt8) : BridgeFrame :=
  ⟨bridgeFrameCodexInputReport, 0, 64, ((Block.fill 0).store 0 report).getD (.fill 0)⟩

/-- An object in two fragments. -/
def sampleObject : Value := Codex.plainObject (List.replicate 60 0x78)

def sampleMessage : Message := Codex.reportsOf (Codex.sampleToVec sampleObject)

/-- The message, a request, and flushes, where the request comes at a place. -/
def sampleEvents (place : Nat) : List Event :=
  let frames := sampleMessage.map fun report => Event.bridgeFrame (sampleFrame report)
  frames.take place ++ .setReport (sampleReport sampleTexts.1) :: frames.drop place ++
    List.replicate 4 (.inputFlush true true)

theorem whole_messages_apart :
    ∃ sent state, run (sampleEvents 2) .init = some (sent, state) ∧
      WholeMessages [sampleMessage] ((sampleEvents 2).flatMap Event.fragments)
        (sent ++ state.queued) := by
  cases hrun : run (sampleEvents 2) .init with
  | none =>
      have hsome : (run (sampleEvents 2) .init).isSome = true := by decide +kernel
      rw [hrun] at hsome
      cases hsome
  | some result =>
      refine ⟨result.1, result.2, rfl, ?_⟩
      have hmessages : List.Forall₂ (fun value message =>
          Codex.frameJson Codex.sampleToVec value = .ok message) [sampleObject]
          [sampleMessage] := .cons rfl .nil
      exact whole_messages hmessages (by decide +kernel) (by decide +kernel) hrun

theorem Whole.mem {messages blocks : List Message} (h : Whole messages blocks) :
    ∀ block ∈ blocks, block ∈ messages ∨ ∃ id ≤ intMax, block = statusReports id := by
  induction h with
  | nil => exact fun block hblock => absurd hblock List.not_mem_nil
  | queued message hwhole ih =>
      intro block hblock
      rcases List.mem_append.mp hblock with hblock | hblock
      · exact (ih block hblock).imp_left (List.mem_append_left _)
      · exact .inl (List.mem_append_right _ hblock)
  | dropped message hwhole ih =>
      exact fun block hblock => (ih block hblock).imp_left (List.mem_append_left _)
  | response hid hwhole ih =>
      intro block hblock
      rcases List.mem_append.mp hblock with hblock | hblock
      · exact ih block hblock
      · exact .inr ⟨_, hid, List.mem_singleton.mp hblock⟩

/-- A response can stand between the two fragments of a message. -/
theorem response_within_message :
    ¬ ∀ (toVec : Value → List UInt8) (values : List Value) (messages : List Message)
        (events : List Event) (sent : List (List UInt8)) (state : State),
      List.Forall₂ (fun value message => Codex.frameJson toVec value = .ok message) values
        messages →
      events.flatMap Event.fragments <+: messages.flatten →
      run events .init = some (sent, state) →
      WholeMessages messages (events.flatMap Event.fragments) (sent ++ state.queued) := by
  intro h
  obtain ⟨first, second, hmessage, hsecond, hfirst⟩ : ∃ first second,
      sampleMessage = [first, second] ∧ second ≠ statusReport ∧ first ≠ statusReport :=
    ⟨_, _, rfl, by decide +kernel, by decide +kernel⟩
  have hfragments : (sampleEvents 1).flatMap Event.fragments = sampleMessage := by
    decide +kernel
  have hstream : (run (sampleEvents 1) .init).map (fun result => result.1 ++ result.2.queued) =
      some (sampleMessage.take 1 ++ statusReports 7 ++ sampleMessage.drop 1) := by
    decide +kernel
  obtain ⟨⟨sent, state⟩, hrun, hsent⟩ := Option.map_eq_some_iff.mp hstream
  obtain ⟨done, blocks, hwhole, hcases⟩ := h Codex.sampleToVec [sampleObject] [sampleMessage]
    (sampleEvents 1) sent state (.cons rfl .nil)
    (by rw [hfragments, List.flatten_singleton]) hrun
  replace hsent : sent ++ state.queued = _ := hsent
  rw [hfragments, hsent, hmessage] at hcases
  rcases hcases with ⟨hdone, -, hblocks⟩ | ⟨arrived, rest, hrest, hdone, harrived, -⟩
  · obtain ⟨last, hreports⟩ := exists_statusReports (show 7 ≤ intMax by decide)
    rw [hreports] at hblocks
    replace hblocks : [first, statusReport, last, second] = blocks.flatten := hblocks
    -- the first block starts the stream
    cases blocks with
    | nil => cases hblocks
    | cons block later =>
        rcases hwhole.mem block (List.mem_cons_self ..) with hblock | ⟨id, hid, rfl⟩
        · obtain rfl := List.mem_singleton.mp (hdone.subset hblock)
          exact hsecond (List.cons.inj (List.cons.inj hblocks).2).1.symm
        · obtain ⟨other, hother⟩ := exists_statusReports hid
          rw [hother] at hblocks
          exact hfirst (List.cons.inj hblocks).1
  · obtain ⟨rfl, hwholeMessage⟩ : done = [] ∧ arrived ++ rest = [first, second] := by
      obtain ⟨more, hmore⟩ := hdone
      cases done with
      | nil => exact ⟨rfl, (List.cons.inj hmore).1⟩
      | cons message done =>
          have hlength := congrArg List.length hmore
          simp only [List.length_append, List.length_cons, List.length_nil] at hlength
          omega
    rw [List.flatten_nil, List.nil_append] at harrived
    rw [harrived, List.append_right_eq_self] at hwholeMessage
    exact hrest hwholeMessage

end Firmware
end MicroEmu
