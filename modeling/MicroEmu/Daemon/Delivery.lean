import MicroEmu.Daemon.Responses
import MicroEmu.Library.Ledger

/-!
# Every event reaches one poll

The buffer of each session and the routing queue of each agent is a source of
events.  Whatever the daemon does, it moves the sources in one of five ways:
nothing changes, an event is pushed, a message without events is sent, a poll is
answered with all that two sources hold, or a session leaves with its buffer.
Each source therefore has a ledger, whose answers are the messages sent.
-/

namespace MicroEmu
namespace Daemon

open Json (Value)
open Routing (AgentId BufferedEvent EventQueue EventRouting)
open Bridge (BridgeRuntime Outside)
open Tasks (WalkOrder)
open Library (Fate Ledger deliveredIn)

/-- Most events a full source holds. -/
def Source.capacity : Source → Nat
  | .session _ => DaemonState.sessionEventCapacity
  | .agent _ => Routing.eventQueueCapacity

theorem Source.capacity_pos (source : Source) : 0 < source.capacity := by
  cases source with
  | session id => exact (by decide : 0 < DaemonState.sessionEventCapacity)
  | agent agent => exact (by decide : 0 < Routing.eventQueueCapacity)

/-- The message removes the session. -/
def SessionMessage.Ends (message : SessionMessage) (session : Nat) : Prop :=
  message = .disconnected session ∨ message = .error session

namespace DaemonState

variable {World : Type} (out : Outside World) (order : WalkOrder)

-- the sessions whose connection is closed
variable {closed : Nat → Prop}

/-- The events pushed to a source so far. -/
def postedTo (state : DaemonState World) (source : Source) : List Value :=
  (state.posted.filter fun push => push.1 = source).map (·.2)

/-- What message `n`, sent to `session`, delivers: nothing, or all that a poll of the
session takes from its own buffer and from the queue of its agent. -/
def Carries (state : DaemonState World) (gone : Source → List (Value × Fate)) (n : Nat)
    (session : Nat) (message : Value) : Prop :=
  (eventsOf message = [] ∧ ∀ source, deliveredIn n (gone source) = []) ∨
    ∃ agent, (session, agent) ∈ state.registered ∧
      eventsOf message = deliveredIn n (gone (.session session)) ++
        deliveredIn n (gone (.agent agent)) ∧
      ∀ source, source ≠ .session session → source ≠ .agent agent →
        deliveredIn n (gone source) = []

/-- What became of the events that left their source. -/
structure Explained (closed : Nat → Prop) (state : DaemonState World)
    (gone : Source → List (Value × Fate)) : Prop where
  ledger : ∀ source, Ledger source.capacity (state.postedTo source) (gone source)
    (state.queued source)
  /-- The events delivered are those the messages report. -/
  carried : ∀ n session message, state.sent[n]? = some (session, message) →
    state.Carries gone n session message
  sent : ∀ source item n, (item, Fate.delivered n) ∈ gone source → n < state.sent.length
  /-- Only a session whose connection is closed abandons its events. -/
  abandoned : ∀ source item, (item, Fate.abandoned) ∈ gone source →
    ∃ session, source = .session session ∧ closed session ∧ ¬state.Knows session

/-- Connections stay closed. -/
theorem Explained.mono {later : Nat → Prop} {state : DaemonState World}
    {gone : Source → List (Value × Fate)} (h : state.Explained closed gone)
    (hlater : ∀ session, closed session → later session) : state.Explained later gone where
  ledger := h.ledger
  carried := h.carried
  sent := h.sent
  abandoned source item hitem := by
    obtain ⟨session, hsource, hclosed, hgone⟩ := h.abandoned source item hitem
    exact ⟨session, hsource, hlater session hclosed, hgone⟩

/-! ## Writes to the sources -/

/-- A write to the events of a session. -/
theorem queued_of_modify {a b : DaemonState World} {session : Nat}
    {change : List Value → List Value}
    (hsessions : b.sessions = modifySession session (.mapEvents change) a.sessions)
    (hrouting : b.bridge.routing = a.bridge.routing)
    (hchange : a.Knows session ∨ change [] = []) :
    b.queued =
      Function.update a.queued (.session session) (change (a.queued (.session session))) := by
  funext source
  cases source with
  | agent agent =>
      rw [Function.update_of_ne (by simp), queued, hrouting]
      rfl
  | session id =>
      by_cases hid : id = session
      · subst hid
        rw [Function.update_self]
        simp only [queued, session?, hsessions]
        rw [findSession_modifySession_self (fun handle => handle.mapEvents_id change)]
        cases hfound : findSession a.sessions id with
        | none =>
            rcases hchange with hknown | hnil
            · simp [Knows, session?, hfound] at hknown
            · simp [hnil]
        | some handle => rfl
      · rw [Function.update_of_ne (by simpa using hid)]
        simp only [queued, session?, hsessions]
        rw [findSession_modifySession_of_ne (fun handle => handle.mapEvents_id change) _ hid]

/-- A write to the queue of an agent. -/
theorem queued_of_setQueue {a b : DaemonState World} {agent : AgentId} {queue : EventQueue}
    (hsessions : b.sessions = a.sessions)
    (hrouting : b.bridge.routing = a.bridge.routing.setQueue agent queue) :
    b.queued =
      Function.update a.queued (.agent agent) (queue.events.map BufferedEvent.toJson) := by
  funext source
  cases source with
  | session id =>
      rw [Function.update_of_ne (by simp)]
      simp only [queued, session?, hsessions]
  | agent other =>
      by_cases hagent : other = agent
      · rw [hagent, Function.update_self, queued, hrouting, EventRouting.queue_setQueue_self]
      · rw [Function.update_of_ne (by simpa using hagent), queued, hrouting,
          EventRouting.queue_setQueue_of_ne _ _ hagent]
        rfl

theorem queued_of_same {a b : DaemonState World} (hsessions : b.sessions = a.sessions)
    (hrouting : b.bridge.routing = a.bridge.routing) : b.queued = a.queued := by
  funext source
  cases source with
  | session id => simp only [queued, session?, hsessions]
  | agent agent => simp only [queued, hrouting]

/-! ## Moves -/

/-- One move of the sources.  No move registers a session. -/
inductive Move (closed : Nat → Prop) (a b : DaemonState World) : Prop
  /-- The sources and the messages are the same. -/
  | still (hqueued : b.queued = a.queued) (hposted : b.posted = a.posted)
      (hsent : b.sent = a.sent) (hregistered : a.registered ⊆ b.registered)
      (hknows : ∀ session, b.Knows session → a.Knows session)
  /-- An event is pushed; the oldest may make room in a full source. -/
  | push (source : Source) (event : Value) (kept : List Value)
      (hkept : kept = a.queued source ∨
        source.capacity ≤ (a.queued source).length ∧ kept = (a.queued source).tail)
      (hqueued : b.queued = Function.update a.queued source (kept ++ [event]))
      (hposted : b.posted = a.posted ++ [(source, event)])
      (hsent : b.sent = a.sent) (hregistered : a.registered ⊆ b.registered)
      (hknows : ∀ session, b.Knows session → a.Knows session)
      (hknown : ∀ session, source = .session session → a.Knows session)
  /-- A message without events is sent. -/
  | say (session : Nat) (message : Value) (hevents : eventsOf message = [])
      (hqueued : b.queued = a.queued) (hposted : b.posted = a.posted)
      (hsent : b.sent = a.sent ++ [(session, message)])
      (hregistered : a.registered ⊆ b.registered)
      (hknows : ∀ session, b.Knows session → a.Knows session)
  /-- A poll is answered with all that its two sources hold. -/
  | answer (session : Nat) (agent : AgentId) (message : Value)
      (hagent : (session, agent) ∈ a.registered)
      (hevents : eventsOf message =
        a.queued (.session session) ++ a.queued (.agent agent))
      (hqueued : b.queued =
        Function.update (Function.update a.queued (.session session) []) (.agent agent) [])
      (hposted : b.posted = a.posted) (hsent : b.sent = a.sent ++ [(session, message)])
      (hregistered : a.registered ⊆ b.registered)
      (hknows : ∀ session, b.Knows session → a.Knows session)
  /-- A session leaves with its buffer: its connection is closed, or it held nothing. -/
  | leave (session : Nat) (hclosed : closed session ∨ a.queued (.session session) = [])
      (hqueued : b.queued = Function.update a.queued (.session session) [])
      (hposted : b.posted = a.posted) (hsent : b.sent = a.sent)
      (hregistered : a.registered ⊆ b.registered)
      (hknows : ∀ other, b.Knows other → a.Knows other) (hleft : ¬b.Knows session)

/-- A number of moves. -/
abbrev Moves (closed : Nat → Prop) : DaemonState World → DaemonState World → Prop :=
  Relation.ReflTransGen (Move closed)

/-! ## Moves keep the ledgers -/

theorem Carries.of_same {a b : DaemonState World} {gone gone' : Source → List (Value × Fate)}
    {n session : Nat} {message : Value} (h : a.Carries gone n session message)
    (hregistered : a.registered ⊆ b.registered)
    (hsame : ∀ source, deliveredIn n (gone' source) = deliveredIn n (gone source)) :
    b.Carries gone' n session message := by
  rcases h with ⟨hevents, hnone⟩ | ⟨agent, hagent, hevents, hnone⟩
  · exact .inl ⟨hevents, fun source => (hsame source).trans (hnone source)⟩
  · refine .inr ⟨agent, hregistered hagent, ?_, fun source hsession hqueue =>
      (hsame source).trans (hnone source hsession hqueue)⟩
    rw [hsame, hsame]
    exact hevents

/-- The ledgers go on with what left the sources since: it was delivered in the new
message, if there is one. -/
theorem Explained.extend {a b : DaemonState World} {gone : Source → List (Value × Fate)}
    (h : a.Explained closed gone) (extra : Source → List (Value × Fate))
    (new : Option (Nat × Value)) (hsent : b.sent = a.sent ++ new.toList)
    (hregistered : a.registered ⊆ b.registered)
    (hknows : ∀ session, b.Knows session → a.Knows session)
    (hledger : ∀ source, Ledger source.capacity (b.postedTo source)
      (gone source ++ extra source) (b.queued source))
    (hnumber : ∀ source item n, (item, Fate.delivered n) ∈ extra source →
      n = a.sent.length ∧ new.isSome = true)
    (hnew : ∀ session message, new = some (session, message) →
      b.Carries extra a.sent.length session message)
    (habandoned : ∀ source item, (item, Fate.abandoned) ∈ extra source →
      ∃ session, source = .session session ∧ closed session ∧ ¬b.Knows session) :
    b.Explained closed fun source => gone source ++ extra source := by
  -- the ledgers so far speak of earlier messages, the rest of the new one
  have hold (source : Source) : deliveredIn a.sent.length (gone source) = [] :=
    Library.deliveredIn_eq_nil fun item hitem =>
      Nat.lt_irrefl _ (h.sent source item _ hitem)
  have hrest {n : Nat} (hn : n < a.sent.length) (source : Source) :
      deliveredIn n (extra source) = [] :=
    Library.deliveredIn_eq_nil fun item hitem =>
      Nat.ne_of_lt hn (hnumber source item n hitem).1
  refine ⟨hledger, ?_, ?_, ?_⟩
  · intro n session message hmessage
    rw [hsent] at hmessage
    rcases Nat.lt_or_ge n a.sent.length with hn | hn
    · rw [List.getElem?_append_left hn] at hmessage
      refine (h.carried n session message hmessage).of_same hregistered fun source => ?_
      rw [Library.deliveredIn_append, hrest hn, List.append_nil]
    · rw [List.getElem?_append_right hn] at hmessage
      cases new with
      | none => cases hmessage
      | some entry =>
          have hfirst : n = a.sent.length := by
            by_contra hne
            rw [List.getElem?_eq_none (by simp; omega)] at hmessage
            cases hmessage
          subst hfirst
          rw [Nat.sub_self] at hmessage
          refine (hnew session message hmessage).of_same (fun _ hmem => hmem) fun source => ?_
          rw [Library.deliveredIn_append, hold, List.nil_append]
  · intro source item n hitem
    rw [hsent, List.length_append]
    rcases List.mem_append.mp hitem with hmem | hmem
    · exact Nat.lt_add_right _ (h.sent source item n hmem)
    · obtain ⟨rfl, hsome⟩ := hnumber source item n hmem
      obtain ⟨entry, rfl⟩ := Option.isSome_iff_exists.mp hsome
      exact Nat.lt_succ_self _
  · intro source item hitem
    rcases List.mem_append.mp hitem with hmem | hmem
    · obtain ⟨session, hsource, hclosed, hgone⟩ := h.abandoned source item hmem
      exact ⟨session, hsource, hclosed, fun hknown => hgone (hknows session hknown)⟩
    · exact habandoned source item hmem

/-- What a source loses when an event is pushed. -/
theorem Ledger.exists_push {source : Source} {posted queued kept : List Value}
    {gone : List (Value × Fate)} (h : Ledger source.capacity posted gone queued)
    (event : Value)
    (hkept : kept = queued ∨ source.capacity ≤ queued.length ∧ kept = queued.tail) :
    ∃ dropped : List Value,
      Ledger source.capacity (posted ++ [event])
        (gone ++ dropped.map fun item => (item, Fate.overflowed)) (kept ++ [event]) := by
  rcases hkept with rfl | ⟨hfull, rfl⟩
  · exact ⟨[], by simpa using h.push event⟩
  · cases queued with
    | nil =>
        have hpositive := source.capacity_pos
        simp only [List.length_nil] at hfull
        omega
    | cons oldest queued => exact ⟨[oldest], (h.overflow hfull).push event⟩

theorem postedTo_push {a b : DaemonState World} {source : Source} {event : Value}
    (hposted : b.posted = a.posted ++ [(source, event)]) (other : Source) :
    b.postedTo other =
      if other = source then a.postedTo other ++ [event] else a.postedTo other := by
  rw [postedTo, hposted, List.filter_append, List.map_append]
  split
  next hsource => simp [postedTo, hsource]
  next hsource => simp [postedTo, Ne.symm hsource]

/-- What leaves some of the sources leaves them to one fate. -/
theorem fate_of_mem {taken : Prop} [Decidable taken] {items : List Value} {fate found : Fate}
    {item : Value}
    (h : (item, found) ∈ if taken then items.map fun item => (item, fate) else []) :
    taken ∧ item ∈ items ∧ found = fate := by
  split at h
  next htaken =>
    obtain ⟨_, hitem, heq⟩ := List.mem_map.mp h
    obtain ⟨rfl, rfl⟩ := Prod.mk.inj heq
    exact ⟨htaken, hitem, rfl⟩
  · cases h

/-- A move keeps the ledgers, which only grow. -/
theorem Explained.move {a b : DaemonState World} {gone : Source → List (Value × Fate)}
    (h : a.Explained closed gone) (hmove : Move closed a b) :
    ∃ gone', b.Explained closed gone' := by
  cases hmove with
  | still hqueued hposted hsent hregistered hknows =>
      refine ⟨_, h.extend (fun _ => []) none (by simpa using hsent) hregistered hknows ?_
        nofun nofun nofun⟩
      intro source
      rw [postedTo, hposted, hqueued, List.append_nil]
      exact h.ledger source
  | push source event kept hkept hqueued hposted hsent hregistered hknows hknown =>
      obtain ⟨dropped, hledger⟩ := Ledger.exists_push (h.ledger source) event hkept
      refine ⟨_, h.extend (fun other => if other = source
        then dropped.map fun item => (item, .overflowed) else []) none (by simpa using hsent)
        hregistered hknows ?_ ?_ nofun ?_⟩
      · intro other
        rw [postedTo_push hposted, hqueued]
        by_cases hother : other = source
        · subst hother
          simpa using hledger
        · simpa [hother] using h.ledger other
      · exact fun other item n hitem => nomatch (fate_of_mem hitem).2.2
      · exact fun other item hitem => nomatch (fate_of_mem hitem).2.2
  | say session message hevents hqueued hposted hsent hregistered hknows =>
      refine ⟨_, h.extend (fun _ => []) (some (session, message)) hsent hregistered hknows ?_
        nofun ?_ nofun⟩
      · intro source
        rw [postedTo, hposted, hqueued, List.append_nil]
        exact h.ledger source
      · intro _ _ hnew
        cases hnew
        exact .inl ⟨hevents, fun _ => rfl⟩
  | answer session agent message hagent hevents hqueued hposted hsent hregistered hknows =>
      refine ⟨_, h.extend (fun source =>
        if source = .session session ∨ source = .agent agent then
          (a.queued source).map fun item => (item, .delivered a.sent.length) else [])
        (some (session, message)) hsent hregistered hknows ?_ ?_ ?_ ?_⟩
      · intro source
        rw [postedTo, hposted, hqueued]
        by_cases htaken : source = .session session ∨ source = .agent agent
        · have hempty : Function.update (Function.update a.queued (.session session) [])
              (.agent agent) [] source = [] := by
            rcases htaken with rfl | rfl
            · rw [Function.update_of_ne (by simp), Function.update_self]
            · rw [Function.update_self]
          rw [if_pos htaken, hempty]
          exact (h.ledger source).deliver _ fun item n hitem => h.sent source item n hitem
        · rw [if_neg htaken, List.append_nil]
          rw [not_or] at htaken
          rw [Function.update_of_ne htaken.2, Function.update_of_ne htaken.1]
          exact h.ledger source
      · intro source item n hitem
        obtain ⟨-, -, hfate⟩ := fate_of_mem hitem
        exact ⟨Fate.delivered.inj hfate, rfl⟩
      · intro _ _ hnew
        cases hnew
        refine .inr ⟨agent, hregistered hagent, ?_, fun source hsession hqueue => ?_⟩
        · simp only [true_or, or_true, if_true, Library.deliveredIn_delivered]
          exact hevents
        · simp [hsession, hqueue]
      · exact fun source item hitem => nomatch (fate_of_mem hitem).2.2
  | leave session hclosed hqueued hposted hsent hregistered hknows hleft =>
      refine ⟨_, h.extend (fun source => if source = .session session
        then (a.queued source).map fun item => (item, .abandoned) else []) none
        (by simpa using hsent) hregistered hknows ?_ ?_ nofun ?_⟩
      · intro source
        rw [postedTo, hposted, hqueued]
        by_cases hsource : source = .session session
        · subst hsource
          rw [if_pos rfl, Function.update_self]
          exact (h.ledger _).abandon
        · rw [if_neg hsource, Function.update_of_ne hsource, List.append_nil]
          exact h.ledger source
      · exact fun source item n hitem => nomatch (fate_of_mem hitem).2.2
      · intro source item hitem
        obtain ⟨rfl, hheld, -⟩ := fate_of_mem hitem
        -- an open connection would have left nothing behind
        refine ⟨session, rfl, hclosed.resolve_right fun hnone => ?_, hleft⟩
        rw [hnone] at hheld
        cases hheld

theorem Explained.moves {a b : DaemonState World} {gone : Source → List (Value × Fate)}
    (h : a.Explained closed gone) (hmoves : Moves closed a b) :
    ∃ gone', b.Explained closed gone' := by
  induction hmoves with
  | refl => exact ⟨gone, h⟩
  | tail _ hmove ih =>
      obtain ⟨gone', h'⟩ := ih
      exact h'.move hmove

/-- The session is not registered, and nothing has been pushed to it. -/
def Quiet (state : DaemonState World) (session : Nat) : Prop :=
  ¬state.Knows session ∧ state.postedTo (.session session) = []

theorem Quiet.move {a b : DaemonState World} {session : Nat} (h : a.Quiet session)
    (hmove : Move closed a b) : b.Quiet session := by
  have hsame (hposted : b.posted = a.posted) : b.postedTo (.session session) = [] := by
    rw [postedTo, hposted]
    exact h.2
  cases hmove with
  | still _ hposted _ _ hknows => exact ⟨mt (hknows session) h.1, hsame hposted⟩
  | say _ _ _ _ hposted _ _ hknows => exact ⟨mt (hknows session) h.1, hsame hposted⟩
  | answer _ _ _ _ _ _ hposted _ _ hknows => exact ⟨mt (hknows session) h.1, hsame hposted⟩
  | leave _ _ _ hposted _ _ hknows => exact ⟨mt (hknows session) h.1, hsame hposted⟩
  | push source event kept _ _ hposted _ _ hknows hknown =>
      refine ⟨mt (hknows session) h.1, ?_⟩
      rw [postedTo_push hposted, if_neg fun hsource => h.1 (hknown session hsource.symm)]
      exact h.2

theorem Quiet.moves {a b : DaemonState World} {session : Nat} (h : a.Quiet session)
    (hmoves : Moves closed a b) : b.Quiet session := by
  induction hmoves with
  | refl => exact h
  | tail _ hmove ih => exact ih.move hmove

/-! ## Operations are moves -/

theorem SameBook.knows_of {a b : DaemonState World} (h : SameBook a b) (session : Nat) :
    b.Knows session → a.Knows session := (h.knows_iff session).mp

theorem move_withBridge (state : DaemonState World) (bridge : BridgeRuntime World)
    (hframe : bridge.frame = state.bridge.frame) : Move closed state (state.withBridge bridge) :=
  .still (queued_of_same rfl (BridgeRuntime.routing_of_frame hframe)) rfl rfl
    (fun _ hmem => hmem) fun _ hknown => hknown

theorem pushBack_of_known {state : DaemonState World} {id : Nat} (h : state.Knows id)
    (event : Value) :
    state.pushBack id event =
      { state with
        sessions := modifySession id (.mapEvents (· ++ [event])) state.sessions
        posted := state.posted ++ [(.session id, event)] } := if_pos h

theorem pushBack_of_unknown {state : DaemonState World} {id : Nat} (h : ¬state.Knows id)
    (event : Value) : state.pushBack id event = state := if_neg h

theorem queued_pushBack {state : DaemonState World} {id : Nat} (h : state.Knows id)
    (event : Value) :
    (state.pushBack id event).queued =
      Function.update state.queued (.session id) (state.queued (.session id) ++ [event]) := by
  rw [pushBack_of_known h]
  exact queued_of_modify (a := state) (b := { state with sessions := _, posted := _ }) rfl rfl
    (.inl h)

theorem moves_pushBack (state : DaemonState World) (id : Nat) (event : Value) :
    Moves closed state (state.pushBack id event) := by
  by_cases hknown : state.Knows id
  · refine .single (.push (.session id) event _ (.inl rfl) (queued_pushBack hknown event)
      ?_ ?_ ?_ (sameRoster_pushBack state id event).knows_of ?_)
    · rw [pushBack_of_known hknown]
    · rw [pushBack_of_known hknown]
    · rw [pushBack_of_known hknown]
      exact fun _ hmem => hmem
    · intro session hsource
      rw [← Source.session.inj hsource]
      exact hknown
  · rw [pushBack_of_unknown hknown]

theorem queued_popFull (state : DaemonState World) (id : Nat) :
    (state.popFull id).queued = Function.update state.queued (.session id)
      (if (state.queued (.session id)).length ≥ sessionEventCapacity then
        (state.queued (.session id)).tail else state.queued (.session id)) :=
  (queued_of_modify (a := state) (b := state.popFull id) rfl rfl (.inr rfl)).trans rfl

theorem queued_of_unknown {state : DaemonState World} {id : Nat} (h : ¬state.Knows id) :
    state.queued (.session id) = [] := by
  cases hsession : state.session? id with
  | none => simp [queued, hsession]
  | some handle => simp [Knows, hsession] at h

theorem moves_pushSessionEvent (state : DaemonState World) (id : Nat) (event : Value) :
    Moves closed state (state.pushSessionEvent id event) := by
  have hfull := (sameRoster_popFull state id).toSameBook
  by_cases hknown : state.Knows id
  · have hpopped := (hfull.knows_iff id).mpr hknown
    refine .single (.push (.session id) event ((state.popFull id).queued (.session id)) ?_ ?_
      ?_ ?_ ?_ (sameRoster_pushSessionEvent state id event).knows_of ?_)
    · rw [queued_popFull, Function.update_self]
      split
      next hlength => exact .inr ⟨hlength, rfl⟩
      next => exact .inl rfl
    · rw [pushSessionEvent, queued_pushBack hpopped, queued_popFull, Function.update_idem,
        Function.update_self]
    · rw [pushSessionEvent, pushBack_of_known hpopped]
      rfl
    · rw [pushSessionEvent, pushBack_of_known hpopped]
      rfl
    · rw [pushSessionEvent, pushBack_of_known hpopped]
      exact fun _ hmem => hmem
    · intro session hsource
      rw [← Source.session.inj hsource]
      exact hknown
  · have hunknown : ¬(state.popFull id).Knows id := mt (hfull.knows_iff id).mp hknown
    have hnothing : (if (state.queued (.session id)).length ≥ sessionEventCapacity then
        (state.queued (.session id)).tail else state.queued (.session id)) =
          state.queued (.session id) := by
      rw [queued_of_unknown hknown]
      split <;> rfl
    rw [pushSessionEvent, pushBack_of_unknown hunknown]
    refine .single (.still ?_ rfl rfl (fun _ hmem => hmem) hfull.knows_of)
    rw [queued_popFull, hnothing, Function.update_eq_self]

theorem queued_drainEvents (state : DaemonState World) (session : Nat) (agent : AgentId) :
    (state.drainEvents session agent).2.queued =
      Function.update (Function.update state.queued (.session session) [])
        (.agent agent) [] := by
  have hsession := queued_of_modify (a := state) (b := { state with
      sessions := modifySession session (.mapEvents fun _ => []) state.sessions })
    rfl rfl (.inr rfl)
  rw [← hsession]
  exact queued_of_setQueue (a := { state with
      sessions := modifySession session (.mapEvents fun _ => []) state.sessions })
    (b := (state.drainEvents session agent).2) rfl rfl

theorem send_of_known {state : DaemonState World} {id : Nat} (h : state.Knows id)
    (message : Value) :
    state.send id message = { state with sent := state.sent ++ [(id, message)] } := if_pos h

theorem moves_say (state : DaemonState World) (session : Nat) {message : Value}
    (hevents : eventsOf message = []) : Moves closed state (state.send session message) := by
  by_cases hknown : state.Knows session
  · rw [send_of_known hknown]
    exact .single (.say session message hevents rfl rfl rfl (fun _ hmem => hmem)
      fun _ hother => hother)
  · rw [send_of_unknown hknown]

/-- A poll that drains its sources and is answered. -/
theorem move_answer {state : DaemonState World} {session : Nat} {agent : AgentId}
    (hknown : state.Knows session) (hagent : (session, agent) ∈ state.registered)
    (pretty : Value → String) (id : Value) :
    Move closed state ((state.drainEvents session agent).2.send session
      (Mcp.response id (pollResult pretty (state.drainEvents session agent).1))) := by
  have hbook := (sameRoster_drainEvents state session agent).toSameBook
  rw [send_of_known ((hbook.knows_iff session).mpr hknown)]
  exact .answer session agent _ hagent rfl (queued_drainEvents state session agent) rfl rfl
    (fun _ hmem => hmem) hbook.knows_of

/-- A poll that finds nothing leaves its sources as they are. -/
theorem queued_deferPoll {state : DaemonState World} {session : Nat} {agent : AgentId}
    (hempty : (state.drainEvents session agent).1 = []) (id : Value) (timeoutMs : Nat) :
    ((state.drainEvents session agent).2.deferPoll out session agent id timeoutMs).queued =
      state.queued := by
  obtain ⟨hsession, hagent⟩ := List.append_eq_nil_iff.mp hempty
  have hleft : Function.update state.queued (.session session) [] = state.queued :=
    Function.update_eq_self_iff.mpr hsession.symm
  have hsame : (state.drainEvents session agent).2.queued = state.queued := by
    rw [queued_drainEvents, hleft]
    exact Function.update_eq_self_iff.mpr hagent.symm
  exact hsame

theorem move_deferPoll {state : DaemonState World} {session : Nat} {agent : AgentId}
    (hempty : (state.drainEvents session agent).1 = []) (id : Value) (timeoutMs : Nat) :
    Move closed state
      ((state.drainEvents session agent).2.deferPoll out session agent id timeoutMs) := by
  have hbook := (sameRoster_drainEvents state session agent).toSameBook
  exact .still (queued_deferPoll out hempty id timeoutMs) rfl rfl (fun _ hmem => hmem)
    hbook.knows_of

/-! ## The roster -/

/-- Agents and pending polls are on record. -/
structure Rostered (state : DaemonState World) : Prop where
  known : state.PollsKnown
  agents : ∀ session agent, state.sessionAgent session = some agent →
    (session, agent) ∈ state.registered
  polls : ∀ poll ∈ state.pendingPolls, (poll.sessionId, poll.agent) ∈ state.registered

theorem Rostered.of_sameRoster {a b : DaemonState World} (h : a.Rostered)
    (hroster : SameRoster a b) : b.Rostered where
  known := h.known.of_sameBook hroster.toSameBook
  agents session agent hagent := by
    rw [hroster.sessionAgent] at hagent
    rw [hroster.registered]
    exact h.agents session agent hagent
  polls poll hpoll := by
    rw [hroster.pendingPolls] at hpoll
    rw [hroster.registered]
    exact h.polls poll hpoll

theorem Rostered.send {state : DaemonState World} (h : state.Rostered) (id : Nat)
    (message : Value) : (state.send id message).Rostered := by
  refine ⟨h.known.send id message, ?_, ?_⟩
  · unfold DaemonState.send
    split
    · exact h.agents
    · exact h.agents
  · unfold DaemonState.send
    split
    · exact h.polls
    · exact h.polls

theorem Rostered.handleRequest {state : DaemonState World} (h : state.Rostered)
    (sender : Nat) (request : Value) :
    (state.handleRequest out order sender request).Rostered := by
  have hknown := h.known.handleRequest out order sender request
  have heffect := requestEffect_handleRequest out order state sender request
  generalize state.handleRequest out order sender request = after at heffect hknown ⊢
  cases heffect with
  | ignored => exact h
  | refused => exact h.send _ _
  | answered hagent hawaits hresult heffect =>
      exact (h.of_sameRoster (sameRoster_of_toolEffect out heffect hresult)).send _ _
  | @deferred agent id method timeoutMs hagent hawaits hmethod hwait hempty =>
      have hdrained := h.of_sameRoster (sameRoster_drainEvents state sender agent)
      refine ⟨hknown, hdrained.agents, fun poll hpoll => ?_⟩
      rcases List.mem_append.mp hpoll with hkept | hnew
      · exact hdrained.polls poll (List.mem_of_mem_filter hkept)
      · rw [List.mem_singleton.mp hnew]
        exact h.agents sender agent hagent

theorem Rostered.handleHello {state : DaemonState World} (h : state.Rostered)
    (session : Nat) (info : HelloInfo) : (state.handleHello session info).Rostered := by
  unfold DaemonState.handleHello
  split
  next hknown =>
    refine ⟨?_, ?_, fun poll hpoll => List.mem_append_left _ (h.polls poll hpoll)⟩
    · exact h.known.of_sameBook (sameBook_of_modify rfl (fun _ => rfl) rfl rfl)
    · intro other agent hagent
      simp only [sessionAgent, session?] at hagent
      by_cases hother : other = session
      · subst hother
        rw [findSession_modifySession_self fun handle => handle.greeted_id info] at hagent
        obtain ⟨handle, hhandle, hsame⟩ := Option.bind_eq_some_iff.mp hagent
        obtain ⟨old, -, rfl⟩ := Option.map_eq_some_iff.mp hhandle
        obtain rfl := Option.some.inj hsame
        exact List.mem_append_right _ List.mem_cons_self
      · rw [findSession_modifySession_of_ne (fun handle => handle.greeted_id info) _ hother]
          at hagent
        exact List.mem_append_left _ (h.agents other agent hagent)
  · exact h

theorem Rostered.hello {state : DaemonState World} (h : state.Rostered) (session : Nat)
    (info : HelloInfo) : (state.hello out order session info).Rostered := by
  have hgreeted := h.handleHello session info
  unfold DaemonState.hello
  simp only
  split
  · exact hgreeted.of_sameRoster (sameRoster_withBridge _ _)
  · exact hgreeted.of_sameRoster (sameRoster_withBridge _ _)
  · exact hgreeted

theorem Rostered.endSession {state : DaemonState World} (h : state.Rostered)
    (session : Nat) : (state.endSession out order session).Rostered := by
  refine ⟨h.known.endSession out order session, fun other agent hagent => ?_,
    fun poll hpoll => h.polls poll (List.mem_of_mem_filter hpoll)⟩
  by_cases hother : other = session
  · have hnone : (state.endSession out order session).session? session = none :=
      findSession_filter_self state.sessions session
    rw [hother, sessionAgent, hnone] at hagent
    cases hagent
  · have hsame : (state.endSession out order session).session? other = state.session? other :=
      findSession_filter_of_ne state.sessions hother
    rw [sessionAgent, hsame] at hagent
    exact h.agents other agent hagent

theorem Rostered.connect {state : DaemonState World} (h : state.Rostered) (session : Nat) :
    (state.connect session).Rostered := by
  refine ⟨h.known.connect session, fun other agent hagent => h.agents other agent ?_, h.polls⟩
  simp only [sessionAgent, session?, DaemonState.connect, findSession_append] at hagent ⊢
  cases hfound : findSession state.sessions other with
  | some handle => simpa [hfound] using hagent
  | none =>
      -- the new handle has no agent yet
      rw [hfound, Option.none_or, findSession_singleton] at hagent
      split at hagent
      · cases hagent
      · cases hagent

theorem Rostered.handleMessage {state : DaemonState World} (h : state.Rostered)
    (message : SessionMessage) : (state.handleMessage out order message).Rostered := by
  cases message with
  | connected session => exact h.connect session
  | hello session info => exact h.hello out order session info
  | request session request => exact h.handleRequest out order session request
  | disconnected session => exact h.endSession out order session
  | error session => exact h.endSession out order session

/-! ## Messages and ticks are moves -/

theorem queued_handleHello (state : DaemonState World) (session : Nat) (info : HelloInfo) :
    (state.handleHello session info).queued = state.queued := by
  unfold handleHello
  split
  · funext source
    cases source with
    | agent agent => rfl
    | session id =>
        simp only [queued, session?]
        by_cases hid : id = session
        · rw [hid, findSession_modifySession_self fun handle => handle.greeted_id info,
            Option.map_map]
          rfl
        · rw [findSession_modifySession_of_ne (fun handle => handle.greeted_id info) _ hid]
  · rfl

theorem move_handleHello (state : DaemonState World) (session : Nat) (info : HelloInfo) :
    Move closed state (state.handleHello session info) := by
  have hbook := sameBook_handleHello state session info
  refine .still (queued_handleHello state session info) ?_ hbook.sent ?_ hbook.knows_of
  · unfold handleHello
    split <;> rfl
  · unfold handleHello
    split
    · exact List.subset_append_left _ _
    · exact fun _ hmem => hmem

theorem moves_hello (state : DaemonState World) (session : Nat) (info : HelloInfo) :
    Moves closed state (state.hello out order session info) := by
  have hgreeted : Moves closed state (state.handleHello session info) :=
    .single (move_handleHello state session info)
  unfold hello
  simp only
  split
  · exact hgreeted.tail (move_withBridge _ _ (by simp))
  · exact hgreeted.tail (move_withBridge _ _ (by simp))
  · exact hgreeted

theorem moves_of_toolEffect {state after : DaemonState World} {session : Nat}
    {agent : AgentId} {id result : Value} {wait : Option Nat} (h : state.Rostered)
    (hagent : state.sessionAgent session = some agent) (hresult : isNull result = false)
    (heffect : ToolEffect out state session agent id wait result after) :
    Moves closed state (after.send session (Mcp.response id result)) := by
  cases heffect with
  | plain hplain hframe =>
      exact .head (move_withBridge state _ hframe) (moves_say _ session hplain.events)
  | notified hplain hframe =>
      exact .head (move_withBridge state _ hframe)
        ((moves_pushSessionEvent _ session _).trans (moves_say _ session hplain.events))
  | polled pretty =>
      exact .single (move_answer (knows_of_sessionAgent hagent)
        (h.agents session agent hagent) pretty id)
  | deferred => cases hresult

theorem moves_handleRequest {state : DaemonState World} (h : state.Rostered)
    (sender : Nat) (request : Value) :
    Moves closed state (state.handleRequest out order sender request) := by
  have heffect := requestEffect_handleRequest out order state sender request
  generalize state.handleRequest out order sender request = after at heffect ⊢
  cases heffect with
  | ignored => exact .refl
  | refused hevents => exact moves_say state sender hevents
  | answered hagent hawaits hresult heffect =>
      exact moves_of_toolEffect out h hagent hresult heffect
  | deferred hagent hawaits hmethod hwait hempty =>
      exact .single (move_deferPoll out hempty _ _)

theorem session?_removeSession_self (state : DaemonState World) (session : Nat) :
    (state.removeSession session).session? session = none :=
  findSession_filter_self state.sessions session

theorem session?_removeSession_of_ne (state : DaemonState World) {session other : Nat}
    (h : other ≠ session) :
    (state.removeSession session).session? other = state.session? other :=
  findSession_filter_of_ne state.sessions h

theorem move_removeSession (state : DaemonState World) (session : Nat)
    (hclosed : closed session ∨ state.queued (.session session) = []) :
    Move closed state (state.removeSession session) := by
  refine .leave session hclosed ?_ rfl rfl (fun _ hmem => hmem) ?_ ?_
  · funext source
    cases source with
    | agent agent =>
        rw [Function.update_of_ne (by simp)]
        rfl
    | session id =>
        by_cases hid : id = session
        · rw [hid, Function.update_self, queued, session?_removeSession_self]
          rfl
        · rw [Function.update_of_ne (by simpa using hid), queued,
            session?_removeSession_of_ne state hid]
          rfl
  · intro other hother
    by_cases hid : other = session
    · rw [Knows, hid, session?_removeSession_self] at hother
      cases hother
    · rwa [Knows, session?_removeSession_of_ne state hid] at hother
  · rw [Knows, session?_removeSession_self]
    exact Bool.false_ne_true

theorem moves_endSession (state : DaemonState World) (session : Nat)
    (hclosed : closed session ∨ state.queued (.session session) = []) :
    Moves closed state (state.endSession out order session) := by
  unfold endSession
  simp only
  have hframe : (({ (state.bridge.call out.systemTime).2 with
      taskBoard := (state.bridge.call out.systemTime).2.taskBoard.disconnectSession session
        (state.bridge.call out.systemTime).1 } :
          BridgeRuntime World).refresh out order).frame = state.bridge.frame :=
    (BridgeRuntime.frame_refresh out order _).trans rfl
  exact .head (move_withBridge state _ hframe) (.single (move_removeSession _ session hclosed))

theorem moves_routeTaskEvent (state : DaemonState World) (event : Nat × Value) :
    Moves closed state (state.routeTaskEvent event) := by
  unfold routeTaskEvent
  split
  · split
    · exact .refl
    · exact moves_pushSessionEvent state _ _
  · split
    · generalize state.sessionsOf _ = ids
      induction ids generalizing state with
      | nil => exact .refl
      | cons id ids ih => exact (moves_pushBack state id event.2).trans (ih _)
    · exact moves_pushBack state _ _

theorem moves_routeTaskEvents (state : DaemonState World) :
    Moves closed state state.routeTaskEvents := by
  unfold routeTaskEvents
  generalize state.bridge.pendingTaskEvents = events
  refine .head (move_withBridge state { state.bridge with pendingTaskEvents := [] } rfl) ?_
  generalize state.withBridge { state.bridge with pendingTaskEvents := [] } = start
  induction events generalizing start with
  | nil => exact .refl
  | cons event events ih => exact (moves_routeTaskEvent start event).trans (ih _)

theorem resolvePolls_moves (pretty : Value → String) (now : Nat) (polls : List PendingPoll)
    (state : DaemonState World) (hknown : ∀ poll ∈ polls, state.Knows poll.sessionId)
    (hpolls : ∀ poll ∈ polls, (poll.sessionId, poll.agent) ∈ state.registered) :
    Moves closed state (resolvePolls pretty now polls state).2 ∧
      (resolvePolls pretty now polls state).2.registered = state.registered ∧
      ∀ session, (resolvePolls pretty now polls state).2.sessionAgent session =
        state.sessionAgent session := by
  induction polls generalizing state with
  | nil => exact ⟨.refl, rfl, fun _ => rfl⟩
  | cons poll polls ih =>
      have hrest (other : PendingPoll) (hother : other ∈ polls) :=
        List.mem_cons_of_mem poll hother
      simp only [resolvePolls]
      split
      · have hpoll := hknown poll List.mem_cons_self
        have hdrained := sameRoster_drainEvents state poll.sessionId poll.agent
        have hanswered := send_of_known ((hdrained.knows_iff poll.sessionId).mpr hpoll)
          (Mcp.response poll.requestId (pollResult pretty
            (state.drainEvents poll.sessionId poll.agent).1))
        have hmove : Move closed state (state.answerPoll pretty poll) :=
          move_answer hpoll (hpolls poll List.mem_cons_self) pretty poll.requestId
        have hregistered : (state.answerPoll pretty poll).registered = state.registered := by
          rw [answerPoll, hanswered]
          exact hdrained.registered
        have hagents (session : Nat) :
            (state.answerPoll pretty poll).sessionAgent session =
              state.sessionAgent session := by
          rw [answerPoll, hanswered]
          exact hdrained.sessionAgent session
        obtain ⟨hmoves, hregistered', hagents'⟩ := ih (state.answerPoll pretty poll)
          (fun other hother => (knows_send _ _ _ _).mpr
            ((hdrained.knows_iff _).mpr (hknown other (hrest other hother))))
          fun other hother => hregistered ▸ hpolls other (hrest other hother)
        exact ⟨.head hmove hmoves, hregistered'.trans hregistered,
          fun session => (hagents' session).trans (hagents session)⟩
      · exact ih state (fun other hother => hknown other (hrest other hother))
          fun other hother => hpolls other (hrest other hother)

theorem moves_resolvePendingPolls {state : DaemonState World} (h : state.Rostered)
    (pretty : Value → String) (now : Nat) :
    Moves closed state (state.resolvePendingPolls pretty now) := by
  obtain ⟨hmoves, -, -⟩ := resolvePolls_moves pretty now state.pendingPolls state h.known h.polls
  exact hmoves.tail (.still rfl rfl rfl (fun _ hmem => hmem) fun _ hknown => hknown)

theorem Rostered.resolvePendingPolls {state : DaemonState World} (h : state.Rostered)
    (pretty : Value → String) (now : Nat) :
    (state.resolvePendingPolls pretty now).Rostered := by
  obtain ⟨-, hregistered, hagents⟩ :=
    @resolvePolls_moves _ (fun _ => False) pretty now state.pendingPolls state h.known h.polls
  obtain ⟨-, hsublist, -⟩ := resolvePolls_spec pretty now state.pendingPolls state h.known
  refine ⟨h.known.resolvePendingPolls pretty now, fun session agent hagent => ?_,
    fun poll hpoll => ?_⟩
  · have hbefore : state.sessionAgent session = some agent := (hagents session) ▸ hagent
    exact hregistered ▸ h.agents session agent hbefore
  · exact hregistered ▸ h.polls poll (hsublist.subset hpoll)

/-! ## The other work -/

theorem work_cons (state : DaemonState World) (bridge : BridgeRuntime World)
    (push : AgentId × BufferedEvent) (pushed : List (AgentId × BufferedEvent)) :
    state.work bridge (push :: pushed) = (state.work bridge [push]).work bridge pushed := by
  simp [work, BridgeRuntime.pushAll]

theorem move_work_nil (state : DaemonState World) (bridge : BridgeRuntime World) :
    Move closed state (state.work bridge []) :=
  .still (queued_of_same rfl rfl) (List.append_nil _) rfl (fun _ hmem => hmem)
    fun _ hknown => hknown

theorem events_push (queue : EventQueue) (event : BufferedEvent) :
    (queue.push event).events =
      (if queue.events.length ≥ Routing.eventQueueCapacity then queue.events.tail
        else queue.events) ++ [event] := rfl

/-- The push of one event to the queue of an agent. -/
theorem move_work_push (state : DaemonState World) (bridge : BridgeRuntime World)
    (agent : AgentId) (event : BufferedEvent) :
    Move closed state (state.work bridge [(agent, event)]) := by
  have hqueued : (state.work bridge [(agent, event)]).queued =
      Function.update state.queued (.agent agent)
        (((state.bridge.routing.queue agent).push event).events.map BufferedEvent.toJson) :=
    queued_of_setQueue (a := state) (b := state.work bridge [(agent, event)]) rfl rfl
  by_cases hfull : (state.bridge.routing.queue agent).events.length ≥
      Routing.eventQueueCapacity
  · refine .push (.agent agent) event.toJson (state.queued (.agent agent)).tail
      (.inr ⟨?_, rfl⟩) ?_ rfl rfl (fun _ hmem => hmem) (fun _ hknown => hknown) nofun
    · exact hfull.trans_eq (List.length_map ..).symm
    · rw [hqueued, events_push, if_pos hfull, List.map_append, List.map_tail]
      rfl
  · refine .push (.agent agent) event.toJson (state.queued (.agent agent)) (.inl rfl) ?_ rfl
      rfl (fun _ hmem => hmem) (fun _ hknown => hknown) nofun
    rw [hqueued, events_push, if_neg hfull, List.map_append]
    rfl

theorem moves_work (state : DaemonState World) (bridge : BridgeRuntime World)
    (pushed : List (AgentId × BufferedEvent)) : Moves closed state (state.work bridge pushed) := by
  induction pushed generalizing state with
  | nil => exact .single (move_work_nil state bridge)
  | cons push pushed ih =>
      rw [work_cons]
      exact .head (move_work_push state bridge push.1 push.2) (ih _)

theorem sameRoster_work (state : DaemonState World) (bridge : BridgeRuntime World)
    (pushed : List (AgentId × BufferedEvent)) : SameRoster state (state.work bridge pushed) :=
  ⟨⟨rfl, rfl, fun _ => rfl⟩, rfl, fun _ => rfl⟩

/-! ## Connecting -/

theorem session?_connect (state : DaemonState World) (session other : Nat) :
    (state.connect session).session? other =
      (state.session? other).or (if session = other then some (.connected session) else none) :=
  (findSession_append _ _ _).trans
    (congrArg _ (findSession_singleton (.connected session) other))

theorem queued_connect {state : DaemonState World} {session : Nat} :
    (state.connect session).queued = state.queued := by
  funext source
  cases source with
  | agent agent => rfl
  | session other =>
      simp only [queued, session?_connect]
      cases hfound : state.session? other with
      | some handle => rfl
      | none =>
          rw [Option.none_or]
          split <;> rfl

/-- A new session starts with an empty buffer and an empty ledger. -/
theorem Explained.connect {state : DaemonState World} {gone : Source → List (Value × Fate)}
    (h : state.Explained closed gone) {session : Nat} (hquiet : state.Quiet session) :
    (state.connect session).Explained closed gone where
  ledger source := by
    rw [queued_connect]
    exact h.ledger source
  carried := h.carried
  sent := h.sent
  abandoned source item hitem := by
    obtain ⟨other, rfl, hclosed, hunknown⟩ := h.abandoned source item hitem
    have hledger := h.ledger (.session other)
    refine ⟨other, rfl, hclosed, ?_⟩
    have hne : session ≠ other := by
      rintro rfl
      rw [hquiet.2] at hledger
      rw [hledger.gone_eq_nil] at hitem
      cases hitem
    rwa [Knows, session?_connect, if_neg hne, Option.or_none]

theorem Quiet.connect {state : DaemonState World} {session other : Nat}
    (h : state.Quiet session) (hne : other ≠ session) : (state.connect other).Quiet session := by
  refine ⟨?_, h.2⟩
  rw [Knows, session?_connect, if_neg hne, Option.or_none]
  exact h.1

/-- A message that registers no session moves the sources, as long as only a session of
a closed connection or one without events is removed. -/
theorem moves_handleMessage {state : DaemonState World} (h : state.Rostered)
    {message : SessionMessage} (hconnects : message.connects = none)
    (hends : ∀ session, message.Ends session →
      closed session ∨ state.queued (.session session) = []) :
    Moves closed state (state.handleMessage out order message) := by
  cases message with
  | connected session => cases hconnects
  | hello session info => exact moves_hello out order state session info
  | request session request => exact moves_handleRequest out order h session request
  | disconnected session =>
      exact moves_endSession out order state session (hends session (.inl rfl))
  | error session => exact moves_endSession out order state session (hends session (.inr rfl))

/-! ## A poll leaves nothing behind -/

/-- The buffer of the session and the queue of the agent hold no event. -/
def Drained (state : DaemonState World) (session : Nat) (agent : AgentId) : Prop :=
  state.queued (.session session) = [] ∧ state.queued (.agent agent) = []

theorem queued_send (state : DaemonState World) (id : Nat) (message : Value) :
    (state.send id message).queued = state.queued := by
  unfold DaemonState.send
  split <;> rfl

theorem queued_drainEvents_eq_nil {state : DaemonState World} {source : Source}
    (h : state.queued source = []) (session : Nat) (agent : AgentId) :
    (state.drainEvents session agent).2.queued source = [] := by
  rw [queued_drainEvents]
  unfold Function.update
  split
  next hagent => subst hagent; rfl
  · split
    next hsession => subst hsession; rfl
    · exact h

theorem drained_drainEvents (state : DaemonState World) (session : Nat) (agent : AgentId) :
    (state.drainEvents session agent).2.Drained session agent := by
  rw [Drained, queued_drainEvents]
  exact ⟨by rw [Function.update_of_ne (by simp), Function.update_self],
    Function.update_self ..⟩

/-- A poll that is handled takes all there is. -/
theorem drained_handleRequest {state : DaemonState World} {session : Nat} {agent : AgentId}
    {request id : Value} (hagent : state.sessionAgent session = some agent)
    (hpolls : Polls request id) :
    (state.handleRequest out order session request).Drained session agent := by
  have hdrained := drained_drainEvents state session agent
  have hcalled : (state.callPollEvents out session agent id
      (requestArguments request)).2.queued = (state.drainEvents session agent).2.queued := by
    unfold callPollEvents
    simp only
    split
    · rfl
    · split <;> rfl
  rw [handleRequest_of_polls out order hagent hpolls]
  split
  · rwa [Drained, hcalled]
  · rwa [Drained, queued_send, hcalled]

theorem queued_answerPoll (state : DaemonState World) (pretty : Value → String)
    (poll : PendingPoll) :
    (state.answerPoll pretty poll).queued =
      (state.drainEvents poll.sessionId poll.agent).2.queued := queued_send _ _ _

theorem drained_of_not_due {state : DaemonState World} {now : Nat} {poll : PendingPoll}
    (h : state.due now poll = false) : state.Drained poll.sessionId poll.agent := by
  simp only [due, EventQueue.isEmpty, Bool.or_eq_false_iff, Bool.not_eq_false',
    List.isEmpty_iff] at h
  exact ⟨h.1.1, by rw [queued, h.1.2]; rfl⟩

theorem resolvePolls_drains (pretty : Value → String) (now : Nat) (polls : List PendingPoll)
    (state : DaemonState World) :
    (∀ source, state.queued source = [] →
      (resolvePolls pretty now polls state).2.queued source = []) ∧
    ∀ poll ∈ polls, (resolvePolls pretty now polls state).2.Drained poll.sessionId
      poll.agent := by
  induction polls generalizing state with
  | nil => exact ⟨fun _ h => h, nofun⟩
  | cons poll polls ih =>
      simp only [resolvePolls]
      split
      · obtain ⟨hempty, hdrained⟩ := ih (state.answerPoll pretty poll)
        have hpoll : (state.answerPoll pretty poll).Drained poll.sessionId poll.agent := by
          rw [Drained, queued_answerPoll]
          exact drained_drainEvents state poll.sessionId poll.agent
        refine ⟨fun source hsource => hempty source ?_, fun other hother => ?_⟩
        · rw [queued_answerPoll]
          exact queued_drainEvents_eq_nil hsource _ _
        · rcases List.mem_cons.mp hother with rfl | hrest
          · exact ⟨hempty _ hpoll.1, hempty _ hpoll.2⟩
          · exact hdrained other hrest
      next hdue =>
        obtain ⟨hempty, hdrained⟩ := ih state
        have hpoll := drained_of_not_due (Bool.eq_false_iff.mpr hdue)
        refine ⟨hempty, fun other hother => ?_⟩
        rcases List.mem_cons.mp hother with rfl | hrest
        · exact ⟨hempty _ hpoll.1, hempty _ hpoll.2⟩
        · exact hdrained other hrest

/-- After a resolution no poll that was pending has an event to report. -/
theorem drained_resolvePendingPolls (state : DaemonState World) (pretty : Value → String)
    (now : Nat) {poll : PendingPoll} (h : poll ∈ state.pendingPolls) :
    (state.resolvePendingPolls pretty now).Drained poll.sessionId poll.agent :=
  (resolvePolls_drains pretty now state.pendingPolls state).2 poll h

/-! ## Where an event was delivered -/

/-- The message that delivered an event reports it, to the session of the buffer or
to a session of the agent of the queue. -/
theorem Explained.delivered {state : DaemonState World} {gone : Source → List (Value × Fate)}
    (h : state.Explained closed gone) {source : Source} {event : Value} {n : Nat}
    (hgone : (event, Fate.delivered n) ∈ gone source) :
    ∃ session message, state.sent[n]? = some (session, message) ∧ event ∈ eventsOf message ∧
      (source = .session session ∨
        ∃ agent, source = .agent agent ∧ (session, agent) ∈ state.registered) := by
  have hin : event ∈ deliveredIn n (gone source) :=
    (Library.mem_deliveredIn n (gone source)).mpr hgone
  obtain ⟨⟨session, message⟩, hentry⟩ : ∃ entry, state.sent[n]? = some entry :=
    ⟨_, List.getElem?_eq_getElem (h.sent source event n hgone)⟩
  refine ⟨session, message, hentry, ?_⟩
  rcases h.carried n session message hentry with
    ⟨-, hnone⟩ | ⟨agent, hagent, hevents, hnone⟩
  · rw [hnone source] at hin
    cases hin
  · rw [hevents]
    by_cases hsession : source = .session session
    · rw [hsession] at hin
      exact ⟨List.mem_append_left _ hin, .inl hsession⟩
    · by_cases hqueue : source = .agent agent
      · rw [hqueue] at hin
        exact ⟨List.mem_append_right _ hin, .inr ⟨agent, hqueue, hagent⟩⟩
      · rw [hnone source hsession hqueue] at hin
        cases hin

end DaemonState

namespace System

variable {World : Type} (out : Outside World)

/-! ## Arrivals -/

/-- The sessions whose registration is in the channel. -/
def connecting (system : System World) : List Nat :=
  system.mail.filterMap SessionMessage.connects

/-- The connection of the session is closed. -/
def Closed (system : System World) (session : Nat) : Prop :=
  (system.readers session).isClosed = true

/-- Every session is registered once, and nothing is pushed to it before.  Only the end of
its connection is reported as a disconnect. -/
structure Arrivals (system : System World) : Prop where
  orderly : system.Orderly
  announced : ∀ session ∈ system.connecting, (system.readers session).isUnannounced = false
  once : system.connecting.Nodup
  quiet : ∀ session,
    (system.readers session).isUnannounced = true ∨ session ∈ system.connecting →
      system.daemon.Quiet session
  parted : ∀ session, .disconnected session ∈ system.mail → system.Closed session

/-- The arrivals are in order, and the events that left their source are explained. -/
structure Delivering (system : System World) : Prop where
  arrivals : system.Arrivals
  rostered : system.daemon.Rostered
  explained : ∃ gone, system.daemon.Explained system.Closed gone

theorem delivering_started (bridge : BridgeRuntime World) : (started bridge).Delivering where
  arrivals := ⟨orderly_started bridge, nofun, .nil, fun _ _ => ⟨nofun, rfl⟩, nofun⟩
  rostered := ⟨nofun, nofun, nofun⟩
  explained := by
    refine ⟨fun _ => [], ⟨fun source => ?_, nofun, nofun, nofun⟩⟩
    have hempty : (started bridge).daemon.queued source = [] := by
      cases source <;> rfl
    rw [hempty]
    exact .empty

theorem connecting_post (system : System World) (session : Nat) (next : Reader)
    (messages : List SessionMessage) :
    (system.post session next messages).connecting =
      system.connecting ++ messages.filterMap SessionMessage.connects := List.filterMap_append

/-- A closed connection stays closed. -/
theorem Closed.post {system : System World} {session other : Nat} {next : Reader}
    {messages : List SessionMessage} (h : system.Closed session)
    (hposts : system.Posts other next messages) :
    (system.post other next messages).Closed session := by
  have hne : session ≠ other := by
    rintro rfl
    rw [Closed, hposts.isOpen] at h
    cases h
  exact (congrArg Reader.isClosed (Function.update_of_ne hne ..)).trans h

theorem Closed.accept {system : System World} {session : Nat} (h : system.Closed session)
    (horderly : system.Orderly) : (system.step out .accept).Closed session := by
  have hne : session ≠ system.nextId := by
    rintro rfl
    rw [Closed, horderly.fresh _ (Nat.le_refl _)] at h
    cases h
  exact (congrArg Reader.isClosed (Function.update_of_ne hne ..)).trans h

theorem Arrivals.post {system : System World} (h : system.Arrivals) {session : Nat}
    {next : Reader} {messages : List SessionMessage}
    (hposts : system.Posts session next messages) :
    (system.post session next messages).Arrivals := by
  -- the reader of the session has announced it now
  have hannounced (other : Nat) (hbefore : (system.readers other).isUnannounced = false) :
      (Function.update system.readers session next other).isUnannounced = false := by
    by_cases hother : other = session
    · rw [hother, Function.update_self]
      exact hposts.announced
    · rwa [Function.update_of_ne hother]
  have hold (other : Nat)
      (hafter : (Function.update system.readers session next other).isUnannounced = true) :
      (system.readers other).isUnannounced = true := by
    by_contra hbefore
    rw [hannounced other (Bool.eq_false_iff.mpr hbefore)] at hafter
    cases hafter
  have horderly := h.orderly.post hposts.present next messages
  have hparted (other : Nat) (hother : .disconnected other ∈ system.mail ++ messages) :
      (system.post session next messages).Closed other := by
    rcases List.mem_append.mp hother with hmem | hnew
    · exact (h.parted other hmem).post hposts
    · obtain ⟨rfl, hclosed⟩ := hposts.parts other hnew
      exact (congrArg Reader.isClosed (Function.update_self ..)).trans hclosed
  rcases hposts.connects with hnone | ⟨haccepted, hone⟩
  · have hsame : (system.post session next messages).connecting = system.connecting := by
      rw [connecting_post, hnone, List.append_nil]
    refine ⟨horderly, fun other hother => ?_, ?_, fun other hother => ?_, hparted⟩
    · rw [hsame] at hother
      exact hannounced other (h.announced other hother)
    · rw [hsame]
      exact h.once
    · rw [hsame] at hother
      exact h.quiet other (hother.imp_left (hold other))
  · have hunannounced : (system.readers session).isUnannounced = true := by
      rw [haccepted]
      rfl
    have hadded : (system.post session next messages).connecting =
        system.connecting ++ [session] := by
      rw [connecting_post, hone]
    refine ⟨horderly, fun other hother => ?_, ?_, fun other hother => ?_, hparted⟩
    · rw [hadded] at hother
      rcases List.mem_append.mp hother with hmem | hnew
      · exact hannounced other (h.announced other hmem)
      · rw [List.mem_singleton.mp hnew]
        exact (congrArg Reader.isUnannounced (Function.update_self ..)).trans hposts.announced
    · rw [hadded]
      refine List.nodup_append.mpr ⟨h.once, List.nodup_singleton session, ?_⟩
      rintro other hmem _ hnew rfl
      have hbefore := h.announced other hmem
      rw [List.mem_singleton.mp hnew, hunannounced] at hbefore
      cases hbefore
    · rw [hadded] at hother
      rcases hother with hbefore | hmem
      · exact h.quiet other (.inl (hold other hbefore))
      · rcases List.mem_append.mp hmem with hmem | hnew
        · exact h.quiet other (.inr hmem)
        · rw [List.mem_singleton.mp hnew]
          exact h.quiet session (.inl hunannounced)

theorem Arrivals.accept {system : System World} (h : system.Arrivals) :
    (system.step out .accept).Arrivals := by
  have habsent := h.orderly.fresh system.nextId (Nat.le_refl _)
  have hunannounced : (system.readers system.nextId).isUnannounced = true := by
    rw [habsent]
    rfl
  refine ⟨h.orderly.step out .accept, fun session hsession => ?_, h.once, fun session => ?_,
    fun session hsession => (h.parted session hsession).accept out h.orderly⟩
  · have hbefore := h.announced session hsession
    have hne : session ≠ system.nextId := by
      rintro rfl
      rw [hunannounced] at hbefore
      cases hbefore
    exact (congrArg Reader.isUnannounced (Function.update_of_ne hne ..)).trans hbefore
  · rintro (hafter | hmem)
    · by_cases hne : session = system.nextId
      · exact h.quiet session (.inl (hne ▸ hunannounced))
      · refine h.quiet session (.inl ?_)
        exact (congrArg Reader.isUnannounced (Function.update_of_ne hne ..)).symm.trans hafter
    · exact h.quiet session (.inr hmem)

/-- Work of the loop that moves the sources keeps all this. -/
theorem Delivering.of_moves {system : System World} (h : system.Delivering)
    {daemon : DaemonState World} (hmoves : DaemonState.Moves system.Closed system.daemon daemon)
    (hrostered : daemon.Rostered) : { system with daemon := daemon }.Delivering where
  arrivals := {
    orderly := ⟨h.arrivals.orderly.fresh, hrostered.known⟩
    announced := h.arrivals.announced
    once := h.arrivals.once
    quiet := fun session hsession => (h.arrivals.quiet session hsession).moves hmoves
    parted := h.arrivals.parted }
  rostered := hrostered
  explained := by
    obtain ⟨gone, hgone⟩ := h.explained
    exact hgone.moves hmoves

/-- Taking a message from the channel. -/
theorem Delivering.rest {system : System World} (h : system.Delivering)
    {message : SessionMessage} {rest : List SessionMessage}
    (hmail : system.mail = message :: rest) (hconnects : message.connects = none) :
    { system with mail := rest }.Delivering where
  arrivals := by
    have hsame : System.connecting { system with mail := rest } = system.connecting := by
      rw [connecting, connecting, hmail, List.filterMap_cons_none hconnects]
    refine ⟨⟨h.arrivals.orderly.fresh, h.rostered.known⟩, ?_, ?_, ?_, fun session hmem =>
      h.arrivals.parted session (hmail ▸ List.mem_cons_of_mem _ hmem)⟩
    · rw [hsame]
      exact h.arrivals.announced
    · rw [hsame]
      exact h.arrivals.once
    · rw [hsame]
      exact h.arrivals.quiet
  rostered := h.rostered
  explained := h.explained

/-- A session is registered. -/
theorem Delivering.connected {system : System World} (h : system.Delivering)
    {session : Nat} {rest : List SessionMessage}
    (hmail : system.mail = .connected session :: rest) :
    { system with daemon := system.daemon.connect session, mail := rest }.Delivering := by
  have hconnecting : system.connecting = session :: rest.filterMap SessionMessage.connects := by
    rw [connecting, hmail]
    rfl
  obtain ⟨horderly, hannounced, honce, hquiet, hparted⟩ := h.arrivals
  rw [hconnecting] at hannounced honce hquiet
  have hrostered := h.rostered.connect session
  obtain ⟨hfresh, honce⟩ := List.nodup_cons.mp honce
  refine ⟨⟨⟨horderly.fresh, hrostered.known⟩, fun other hother =>
    hannounced other (List.mem_cons_of_mem _ hother), honce, fun other hother => ?_,
    fun other hother => hparted other (hmail ▸ List.mem_cons_of_mem _ hother)⟩,
    hrostered, ?_⟩
  · refine (hquiet other (hother.imp_right (List.mem_cons_of_mem _))).connect ?_
    rintro rfl
    rcases hother with hunannounced | hmem
    · rw [hannounced session List.mem_cons_self] at hunannounced
      cases hunannounced
    · exact hfresh hmem
  · obtain ⟨gone, hgone⟩ := h.explained
    exact ⟨gone, hgone.connect (hquiet session (.inr List.mem_cons_self))⟩

instance (system : System World) (session : Nat) : Decidable (system.Closed session) :=
  inferInstanceAs (Decidable (_ = true))

/-- The message of an invalid line of an open connection finds no event in the buffer of
the session. -/
def Spares (system : System World) : SessionMessage → Prop
  | .error session => system.Closed session ∨ system.daemon.queued (.session session) = []
  | _ => True

instance (system : System World) : (message : SessionMessage) → Decidable (system.Spares message)
  | .error _ => inferInstanceAs (Decidable (_ ∨ _))
  | .connected _ | .request _ _ | .hello _ _ | .disconnected _ => .isTrue trivial

/-- The message the step takes spares the events. -/
def SparesEvents (system : System World) : Step World → Prop
  | .handle _ => ∀ message ∈ system.mail.head?, system.Spares message
  | _ => True

instance (system : System World) : (input : Step World) → Decidable (system.SparesEvents input)
  | .handle _ => inferInstanceAs (Decidable (∀ message ∈ system.mail.head?, _))
  | .accept | .read _ _ | .greet _ | .close _ | .fail _ | .routeTaskEvents | .resolvePolls _
  | .work _ _ => .isTrue trivial

/-- The message the step takes removes only a session of a closed connection, or one
without events. -/
theorem SparesEvents.ends {system : System World} {order : WalkOrder}
    (h : system.SparesEvents (.handle order)) (harrivals : system.Arrivals)
    {message : SessionMessage} {rest : List SessionMessage}
    (hmail : system.mail = message :: rest) (session : Nat) (hends : message.Ends session) :
    system.Closed session ∨ system.daemon.queued (.session session) = [] := by
  rcases hends with rfl | rfl
  · exact .inl (harrivals.parted session (hmail ▸ List.mem_cons_self))
  · exact h (.error session) (by rw [hmail]; rfl)

/-- Every step of a reader or of the loop that spares the events keeps all this. -/
theorem Delivering.step {system : System World} (h : system.Delivering)
    {input : Step World} (hspares : system.SparesEvents input) :
    (system.step out input).Delivering := by
  obtain ⟨gone, hgone⟩ := h.explained
  cases hreader : reader? input with
  | some session =>
      rcases step_reader_cases out system hreader with hsame | ⟨next, messages, hpost, hposts⟩
      · rwa [hsame]
      · rw [hpost]
        exact ⟨h.arrivals.post hposts, h.rostered,
          gone, hgone.mono fun other hclosed => Closed.post hclosed hposts⟩
  | none =>
      cases input with
      | read | greet | close | fail => cases hreader
      | accept =>
          exact ⟨h.arrivals.accept out, h.rostered,
            gone, hgone.mono fun session hclosed => Closed.accept out hclosed h.arrivals.orderly⟩
      | handle order =>
          simp only [System.step]
          split
          · exact h
          next message rest hmail =>
            cases hconnects : message.connects with
            | some session =>
                cases message with
                | hello | request | disconnected | error => cases hconnects
                | connected session => exact h.connected hmail
            | none =>
                exact (h.rest hmail hconnects).of_moves
                  (DaemonState.moves_handleMessage out order h.rostered hconnects
                    (hspares.ends h.arrivals hmail))
                  (h.rostered.handleMessage out order message)
      | routeTaskEvents =>
          exact h.of_moves (DaemonState.moves_routeTaskEvents system.daemon)
            (h.rostered.of_sameRoster (DaemonState.sameRoster_routeTaskEvents system.daemon))
      | resolvePolls now =>
          exact h.of_moves (DaemonState.moves_resolvePendingPolls h.rostered _ now)
            (h.rostered.resolvePendingPolls _ now)
      | work bridge pushed =>
          exact h.of_moves (DaemonState.moves_work system.daemon bridge pushed)
            (h.rostered.of_sameRoster (DaemonState.sameRoster_work system.daemon bridge pushed))

theorem delivering_run (bridge : BridgeRuntime World) {steps : List (Step World)}
    (h : Library.Along (step out) SparesEvents steps (started bridge)) :
    (run out steps (started bridge)).Delivering :=
  h.invariant Delivering (fun hdelivering hspares => hdelivering.step out hspares)
    (delivering_started bridge)

/-- What becomes of the events pushed to the sources. -/
structure DeliversEvents (system : System World) : Prop where
  /-- What was pushed to a source is what left it and what it holds, in order.  Each
  event that left was delivered in one message, to the session of the buffer or to a
  session of the agent of the queue; or it was the oldest of a full source; or the
  connection of its session was closed. -/
  accounted : ∃ gone, system.daemon.Explained system.Closed gone ∧
    (∀ source, system.daemon.postedTo source =
      (gone source).map Prod.fst ++ system.daemon.queued source) ∧
    (∀ source, (Library.answersOf (gone source)).Pairwise (· ≤ ·)) ∧
    ∀ source event n, (event, Fate.delivered n) ∈ gone source →
      ∃ session message, system.daemon.sent[n]? = some (session, message) ∧
        event ∈ eventsOf message ∧
        (source = .session session ∨
          ∃ agent, source = .agent agent ∧ (session, agent) ∈ system.daemon.registered)
  /-- A poll that is handled takes all that its sources hold. -/
  handled : ∀ order session agent request id rest,
    system.mail = .request session request :: rest →
    system.daemon.sessionAgent session = some agent → DaemonState.Polls request id →
      (system.step out (.handle order)).daemon.Drained session agent
  /-- So does a resolution, for every poll that is pending. -/
  resolved : ∀ now, ∀ poll ∈ system.daemon.pendingPolls,
    (system.step out (.resolvePolls now)).daemon.Drained poll.sessionId poll.agent

/-- In every run in which no invalid line removes a session that has events, every event
pushed is delivered once and in order, or it waits for the next poll, or it made room in a
full source or left with its connection. -/
theorem event_delivery (bridge : BridgeRuntime World) (steps : List (Step World))
    (h : Library.Along (step out) SparesEvents steps (started bridge)) :
    ∀ before, before <+: steps → (run out before (started bridge)).DeliversEvents out := by
  rintro before ⟨later, rfl⟩
  have hdelivering := delivering_run out bridge (Library.along_append.mp h).1
  generalize run out before (started bridge) = system at hdelivering
  refine ⟨?_, ?_, ?_⟩
  · obtain ⟨gone, hgone⟩ := hdelivering.explained
    exact ⟨gone, hgone, fun source => (hgone.ledger source).posted_eq,
      fun source => (hgone.ledger source).answers_sorted,
      fun source event n hevent => hgone.delivered hevent⟩
  · intro order session agent request id rest hmail hagent hpolls
    simp only [System.step, hmail]
    exact DaemonState.drained_handleRequest out order hagent hpolls
  · intro now poll hpoll
    exact DaemonState.drained_resolvePendingPolls system.daemon _ now hpoll

/-- A press of a card of the session. -/
def pressOfCard : Value :=
  .object [("type", .string "task_selected"), ("task_id", .string "build")]

/-- The presses of a card of the session that the loop distributes. -/
def pressesCard (session : Nat) : List (Step Unit) :=
  [.work ((BridgeRuntime.opened () 0).pushTaskEvent session pressOfCard) [], .routeTaskEvents]

/-- A Hermes session without events sends a line that is no JSON; a second one polls a
press and leaves with another. -/
def deliversPress : List (Step Unit) :=
  greets ++ [.read 1 .invalid, .handle .ascending, .accept,
    .read 2 (.json (.object [("bridge", .string "hello"), ("agent", .string "hermes")])),
    .greet 2, .handle .ascending, .handle .ascending] ++ pressesCard 2 ++
    [.read 2 (pollLine 1), .handle .ascending] ++ pressesCard 2 ++
    [.close 2, .handle .ascending]

theorem event_delivery_press :
    (run Outside.idle deliversPress (started (.opened () 0))).DeliversEvents Outside.idle :=
  event_delivery Outside.idle (.opened () 0) deliversPress (by decide) deliversPress
    (List.prefix_refl _)

/-- A card of a Hermes session is pressed, and the session sends a line that is no JSON
before it polls. -/
def losesPress : List (Step Unit) :=
  greets ++ pressesCard 1 ++ [.read 1 .invalid, .handle .ascending]

/-- The press has left the buffer, but no message delivers it, the buffer was never full
and the connection is open. -/
theorem not_deliversEvents_losesPress :
    ¬∀ before, before <+: losesPress →
      (run Outside.idle before (started (.opened () 0))).DeliversEvents Outside.idle := by
  intro h
  obtain ⟨gone, hgone, hparts, -⟩ := (h losesPress (List.prefix_refl _)).accounted
  generalize hlast : run Outside.idle losesPress (started (.opened () 0)) = last at *
  have hposted : (last.daemon.postedTo (.session 1)).length = 1 := by
    rw [← hlast]
    decide
  have hsent : last.daemon.sent.length = 0 := by
    rw [← hlast]
    decide
  have hempty : (last.daemon.queued (.session 1)).length = 0 := by
    rw [← hlast]
    decide
  have hopen : ¬last.Closed 1 := by
    rw [← hlast, Closed]
    decide
  have hledger := hgone.ledger (.session 1)
  have hleft := congrArg List.length (hparts (.session 1))
  rw [hposted, List.length_append, List.length_map, hempty] at hleft
  obtain ⟨⟨event, fate⟩, hentry⟩ : ∃ entry, entry ∈ gone (.session 1) :=
    List.length_pos_iff_exists_mem.mp (by omega)
  cases fate with
  | delivered n =>
      have hearlier := hgone.sent _ event n hentry
      omega
  | overflowed =>
      have hfull := hledger.capacity_le hentry
      rw [hposted] at hfull
      exact absurd hfull (by decide)
  | abandoned =>
      obtain ⟨session, hsession, hclosed, -⟩ := hgone.abandoned _ event hentry
      cases hsession
      exact hopen hclosed

end System
end Daemon
end MicroEmu
