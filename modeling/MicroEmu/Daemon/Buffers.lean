import MicroEmu.Daemon.Delivery
import MicroEmu.Library.BoundedBuffer

/-!
# The bound of the session buffers

`push_session_event` drops the oldest event of a full buffer.  Layout notices and catalog
actions are pushed with it.  The events of an automatic feed and those of an owning session
are pushed to the bare buffer, whatever it holds.  So the buffers stay within their capacity
exactly as long as every bare push finds room.
-/

namespace MicroEmu
namespace Daemon

open Json (Value)
open Routing (AgentId BufferedEvent)
open Bridge (BridgeRuntime Outside)
open Tasks (WalkOrder)
open Library (Along pushBounded runFrom)

namespace DaemonState

variable {World : Type} (out : Outside World) (order : WalkOrder)
variable {state after : DaemonState World} {id : Nat}

/-- The buffer of a session. -/
def buffer (state : DaemonState World) (id : Nat) : List Value := state.queued (.session id)

/-- No buffer holds more than its capacity. -/
def BuffersWithin (state : DaemonState World) : Prop :=
  ∀ id, (state.buffer id).length ≤ sessionEventCapacity

/-- Nothing happened to the buffer of a session but that events were pushed to it, where each
push to a full buffer drops the oldest event. -/
def Pushed (before after : DaemonState World) (id : Nat) : Prop :=
  ∃ events, after.postedTo (.session id) = before.postedTo (.session id) ++ events ∧
    after.buffer id = events.foldl (pushBounded sessionEventCapacity) (before.buffer id)

/-- A poll of the session has been answered with all that its buffer held. -/
def Answered (before after : DaemonState World) (id : Nat) : Prop :=
  ∃ messages message, after.sent = before.sent ++ messages ∧ (id, message) ∈ messages ∧
    before.buffer id <+: eventsOf message ∧ after.buffer id = []

/-- A full buffer has dropped its oldest event only, and no buffer has lost anything else,
but to a poll of its session or with a session that has ended. -/
def DropsOldest (ended : Nat → Prop) (before after : DaemonState World) : Prop :=
  ∀ id, Pushed before after id ∨ Answered before after id ∨ ended id ∧ after.buffer id = []

/-- The buffer a bare push goes to has room. -/
def HasRoom (state : DaemonState World) (id : Nat) : Prop :=
  (state.buffer id).length < sessionEventCapacity

/-- Every bare push that the distribution of a task event makes finds room. -/
def RoutesWithRoom (state : DaemonState World) (event : Nat × Value) : Prop :=
  match Bridge.catalogActionAgent event.1 with
  | some _ => True
  | none =>
      match feedAgent event.1 with
      | some agent => Along (fun state id => state.pushBack id event.2) HasRoom
          (state.sessionsOf agent) state
      | none => state.HasRoom event.1

/-! ## Pushes -/

theorem Pushed.refl (state : DaemonState World) (id : Nat) : Pushed state state id :=
  ⟨[], (List.append_nil _).symm, rfl⟩

theorem Pushed.trans {last : DaemonState World} (h : Pushed state after id)
    (hlast : Pushed after last id) : Pushed state last id := by
  obtain ⟨events, hposted, hbuffer⟩ := h
  obtain ⟨later, hposted', hbuffer'⟩ := hlast
  refine ⟨events ++ later, ?_, ?_⟩
  · rw [hposted', hposted, List.append_assoc]
  · rw [hbuffer', hbuffer, List.foldl_append]

/-- Nothing is pushed, and the buffers are the same. -/
theorem pushed_of_queued (hqueued : after.queued = state.queued)
    (hposted : after.posted = state.posted) (id : Nat) : Pushed state after id := by
  refine ⟨[], ?_, ?_⟩
  · rw [postedTo, postedTo, hposted, List.append_nil]
  · rw [buffer, buffer, hqueued]
    rfl

/-- The buffers are in the handles of the sessions. -/
theorem pushed_of_sessions (hsessions : after.sessions = state.sessions)
    (hposted : after.posted = state.posted) (id : Nat) : Pushed state after id := by
  refine ⟨[], ?_, ?_⟩
  · rw [postedTo, postedTo, hposted, List.append_nil]
  · simp only [buffer, queued, session?, hsessions]
    rfl

theorem Answered.empty (h : Answered state after id) : after.buffer id = [] := by
  obtain ⟨_, _, -, -, -, hempty⟩ := h
  exact hempty

theorem DropsOldest.within {ended : Nat → Prop} (h : DropsOldest ended state after)
    (hwithin : state.BuffersWithin) : after.BuffersWithin := by
  intro id
  rcases h id with ⟨events, -, hbuffer⟩ | hanswered | ⟨-, hbuffer⟩
  · rw [hbuffer]
    exact Library.length_foldl_pushBounded_le (by decide) (hwithin id) events
  · rw [hanswered.empty]
    exact Nat.zero_le _
  · rw [hbuffer]
    exact Nat.zero_le _

/-- What a bare push does to the buffers. -/
theorem buffer_pushBack (state : DaemonState World) (id : Nat) (event : Value) (other : Nat) :
    (state.pushBack id event).buffer other =
      if other = id ∧ (state.session? id).isSome then state.buffer other ++ [event]
      else state.buffer other := by
  by_cases hknown : state.Knows id
  · rw [buffer, queued_pushBack hknown]
    by_cases hother : other = id
    · subst hother
      rw [Function.update_self, if_pos ⟨rfl, hknown⟩]
      rfl
    · rw [Function.update_of_ne (by simpa using hother), if_neg fun h => hother h.1]
      rfl
  · rw [pushBack_of_unknown hknown, if_neg fun h => hknown h.2]

/-- What a push that makes room does to the buffers. -/
theorem buffer_pushSessionEvent (state : DaemonState World) (id : Nat) (event : Value)
    (other : Nat) :
    (state.pushSessionEvent id event).buffer other =
      if other = id ∧ (state.session? id).isSome then
        pushBounded sessionEventCapacity (state.buffer other) event
      else state.buffer other := by
  have hpopped : (state.popFull id).buffer other =
      if other = id ∧ (state.buffer id).length ≥ sessionEventCapacity then
        (state.buffer other).tail else state.buffer other := by
    rw [buffer, queued_popFull]
    by_cases hother : other = id
    · subst hother
      rw [Function.update_self]
      simp [buffer]
    · rw [Function.update_of_ne (by simpa using hother), if_neg fun h => hother h.1]
      rfl
  have hknows : ((state.popFull id).session? id).isSome = (state.session? id).isSome :=
    Bool.eq_iff_iff.mpr ((sameRoster_popFull state id).toSameBook.knows_iff id)
  rw [pushSessionEvent, buffer_pushBack, hpopped, hknows]
  by_cases hother : other = id
  · subst hother
    by_cases hknown : state.Knows other
    · simp [show (state.session? other).isSome = true from hknown, pushBounded]
    · have hnil : state.buffer other = [] := queued_of_unknown hknown
      simp [hnil, pushBounded, show ¬sessionEventCapacity = 0 by decide]
  · simp [hother]

/-- What a bare push adds to what was pushed. -/
theorem postedTo_pushBack (state : DaemonState World) (id : Nat) (event : Value) (other : Nat) :
    (state.pushBack id event).postedTo (.session other) = state.postedTo (.session other) ++
      if other = id ∧ (state.session? id).isSome then [event] else [] := by
  by_cases hknown : state.Knows id
  · have hposted : (state.pushBack id event).posted =
        state.posted ++ [(.session id, event)] := by
      rw [pushBack_of_known hknown]
    rw [postedTo_push hposted]
    by_cases hother : other = id
    · subst hother
      rw [if_pos rfl, if_pos ⟨rfl, hknown⟩]
    · rw [if_neg (by simpa using hother), if_neg fun h => hother h.1, List.append_nil]
  · rw [pushBack_of_unknown hknown, if_neg fun h => hknown h.2, List.append_nil]

theorem postedTo_pushSessionEvent (state : DaemonState World) (id : Nat) (event : Value)
    (other : Nat) : (state.pushSessionEvent id event).postedTo (.session other) =
      state.postedTo (.session other) ++
        if other = id ∧ (state.session? id).isSome then [event] else [] := by
  have hknows : ((state.popFull id).session? id).isSome = (state.session? id).isSome :=
    Bool.eq_iff_iff.mpr ((sameRoster_popFull state id).toSameBook.knows_iff id)
  rw [pushSessionEvent, postedTo_pushBack, hknows]
  rfl

theorem pushed_pushSessionEvent (state : DaemonState World) (id : Nat) (event : Value)
    (other : Nat) : Pushed state (state.pushSessionEvent id event) other := by
  refine ⟨_, postedTo_pushSessionEvent state id event other, ?_⟩
  rw [buffer_pushSessionEvent]
  split <;> rfl

/-- A bare push with room is a push of a bounded buffer. -/
theorem pushed_pushBack (h : state.HasRoom id) (event : Value) (other : Nat) :
    Pushed state (state.pushBack id event) other := by
  refine ⟨_, postedTo_pushBack state id event other, ?_⟩
  rw [buffer_pushBack]
  split
  next hother =>
      rw [hother.1, ← Library.pushBounded_of_lt h event]
      rfl
  · rfl

theorem pushed_pushBacks {ids : List Nat} {event : Value}
    (h : Along (fun state id => state.pushBack id event) HasRoom ids state) (other : Nat) :
    Pushed state (ids.foldl (fun state id => state.pushBack id event) state) other := by
  induction ids generalizing state with
  | nil => exact .refl state other
  | cons id ids ih => exact (pushed_pushBack h.1 event other).trans (ih h.2)

theorem pushed_routeTaskEvent {event : Nat × Value} (h : state.RoutesWithRoom event)
    (other : Nat) : Pushed state (state.routeTaskEvent event) other := by
  unfold RoutesWithRoom at h
  unfold routeTaskEvent
  cases hcatalog : Bridge.catalogActionAgent event.1 with
  | some agent =>
      simp only
      split
      · exact .refl state other
      · exact pushed_pushSessionEvent state _ event.2 other
  | none =>
      simp only [hcatalog] at h
      cases hfeed : feedAgent event.1 with
      | some agent =>
          simp only [hfeed] at h
          exact pushed_pushBacks h other
      | none =>
          simp only [hfeed] at h
          exact pushed_pushBack h event.2 other

/-- The distribution of several task events. -/
theorem pushed_foldl {events : List (Nat × Value)}
    (h : Along routeTaskEvent RoutesWithRoom events state) (other : Nat) :
    Pushed state (events.foldl routeTaskEvent state) other := by
  induction events generalizing state with
  | nil => exact .refl state other
  | cons event events ih => exact (pushed_routeTaskEvent h.1 other).trans (ih h.2)

/-! ## Overflows -/

/-- Some buffer holds more than its capacity. -/
def Overflows (state : DaemonState World) : Prop :=
  ∃ id, sessionEventCapacity < (state.buffer id).length

theorem overflows_iff : state.Overflows ↔ ¬state.BuffersWithin := by
  simp [Overflows, BuffersWithin]

/-- A push does not repair a buffer that holds too much. -/
theorem Overflows.pushBack (h : state.Overflows) (id : Nat) (event : Value) :
    (state.pushBack id event).Overflows := by
  obtain ⟨fullId, hover⟩ := h
  refine ⟨fullId, ?_⟩
  rw [buffer_pushBack]
  split
  · rw [List.length_append]
    omega
  · exact hover

theorem Overflows.pushSessionEvent (h : state.Overflows) (id : Nat) (event : Value) :
    (state.pushSessionEvent id event).Overflows := by
  obtain ⟨fullId, hover⟩ := h
  refine ⟨fullId, ?_⟩
  rw [buffer_pushSessionEvent]
  split
  · rw [pushBounded, if_pos (Nat.le_of_lt hover), List.length_append, List.length_tail,
      List.length_singleton]
    omega
  · exact hover

theorem Overflows.pushBacks (h : state.Overflows) (ids : List Nat) (event : Value) :
    (ids.foldl (fun state id => state.pushBack id event) state).Overflows := by
  induction ids generalizing state with
  | nil => exact h
  | cons id ids ih => exact ih (h.pushBack id event)

theorem Overflows.routeTaskEvent (h : state.Overflows) (event : Nat × Value) :
    (state.routeTaskEvent event).Overflows := by
  unfold DaemonState.routeTaskEvent
  split
  · split
    · exact h
    · exact h.pushSessionEvent _ event.2
  · split
    · exact h.pushBacks _ event.2
    · exact h.pushBack _ event.2

/-- A bare push to a full buffer overflows it. -/
theorem overflows_pushBack (h : ¬state.HasRoom id) (event : Value) :
    (state.pushBack id event).Overflows := by
  have hfull : sessionEventCapacity ≤ (state.buffer id).length := Nat.not_lt.mp h
  have hknown : state.Knows id := by
    by_contra hunknown
    rw [buffer, queued_of_unknown hunknown] at hfull
    exact absurd hfull (by decide)
  refine ⟨id, ?_⟩
  rw [buffer_pushBack, if_pos ⟨rfl, hknown⟩, List.length_append, List.length_singleton]
  omega

theorem overflows_pushBacks {ids : List Nat} {event : Value}
    (h : ¬Along (fun state id => state.pushBack id event) HasRoom ids state) :
    (ids.foldl (fun state id => state.pushBack id event) state).Overflows := by
  induction ids generalizing state with
  | nil => exact absurd trivial h
  | cons id ids ih =>
      by_cases hroom : state.HasRoom id
      · exact ih fun hrest => h ⟨hroom, hrest⟩
      · exact (overflows_pushBack hroom event).pushBacks ids event

theorem overflows_routeTaskEvent {event : Nat × Value} (h : ¬state.RoutesWithRoom event) :
    (state.routeTaskEvent event).Overflows := by
  unfold RoutesWithRoom at h
  unfold routeTaskEvent
  cases hcatalog : Bridge.catalogActionAgent event.1 with
  | some agent => simp [hcatalog] at h
  | none =>
      simp only [hcatalog] at h
      cases hfeed : feedAgent event.1 with
      | some agent =>
          simp only [hfeed] at h
          exact overflows_pushBacks h
      | none =>
          simp only [hfeed] at h
          exact overflows_pushBack h event.2

theorem Overflows.foldl (h : state.Overflows) (events : List (Nat × Value)) :
    (events.foldl DaemonState.routeTaskEvent state).Overflows := by
  induction events generalizing state with
  | nil => exact h
  | cons event events ih => exact ih (h.routeTaskEvent event)

theorem overflows_foldl {events : List (Nat × Value)}
    (h : ¬Along routeTaskEvent RoutesWithRoom events state) :
    (events.foldl routeTaskEvent state).Overflows := by
  induction events generalizing state with
  | nil => exact absurd trivial h
  | cons event events ih =>
      by_cases hroom : state.RoutesWithRoom event
      · exact ih fun hrest => h ⟨hroom, hrest⟩
      · exact (overflows_routeTaskEvent hroom).foldl events

/-! ## Polls and sessions that end -/

/-- No session ends. -/
abbrev KeepsEvents (before after : DaemonState World) : Prop :=
  DropsOldest (fun _ => False) before after

theorem DropsOldest.of_pushed {ended : Nat → Prop} (h : ∀ id, Pushed state after id) :
    DropsOldest ended state after := fun id => .inl (h id)

theorem DropsOldest.mono {ended later : Nat → Prop} (h : DropsOldest ended state after)
    (hlater : ∀ id, ended id → later id) : DropsOldest later state after :=
  fun id => (h id).imp_right (.imp_right (.imp_left (hlater id)))

theorem pushed_send (state : DaemonState World) (id : Nat) (message : Value) (other : Nat) :
    Pushed state (state.send id message) other := by
  refine pushed_of_queued (queued_send state id message) ?_ other
  unfold DaemonState.send
  split <;> rfl

theorem posted_answered (state : DaemonState World) (session : Nat) (agent : AgentId)
    (message : Value) :
    ((state.drainEvents session agent).2.send session message).posted = state.posted := by
  unfold DaemonState.send
  split <;> rfl

/-- The other buffers are left alone when a poll is answered. -/
theorem buffer_answered_of_ne (state : DaemonState World) {session other : Nat}
    (h : other ≠ session) (agent : AgentId) (message : Value) :
    ((state.drainEvents session agent).2.send session message).buffer other =
      state.buffer other := by
  rw [buffer, queued_send, queued_drainEvents, Function.update_of_ne (by simp),
    Function.update_of_ne (by simpa using h)]
  rfl

/-- A poll is answered with all that the buffer of its session held. -/
theorem answered_of_polled (pretty : Value → String) (hknown : state.Knows id) (agent : AgentId)
    (requestId : Value) : Answered state ((state.drainEvents id agent).2.send id
      (Mcp.response requestId (pollResult pretty (state.drainEvents id agent).1))) id := by
  have hbook := (sameRoster_drainEvents state id agent).toSameBook
  generalize hmessage : Mcp.response requestId
    (pollResult pretty (state.drainEvents id agent).1) = message
  have hevents : eventsOf message = state.buffer id ++ state.queued (.agent agent) := by
    rw [← hmessage]
    rfl
  refine ⟨[(id, message)], message, ?_, List.mem_singleton_self _, ?_, ?_⟩
  · rw [send_of_known ((hbook.knows_iff id).mpr hknown)]
    rfl
  · rw [hevents]
    exact List.prefix_append _ _
  · rw [buffer, queued_send]
    exact (drained_drainEvents state id agent).1

theorem keepsEvents_polled (pretty : Value → String) (hknown : state.Knows id)
    (agent : AgentId) (requestId : Value) :
    KeepsEvents state ((state.drainEvents id agent).2.send id
      (Mcp.response requestId (pollResult pretty (state.drainEvents id agent).1))) := by
  intro other
  by_cases hother : other = id
  · subst hother
    exact .inr (.inl (answered_of_polled pretty hknown agent requestId))
  · refine .inl ⟨[], ?_, buffer_answered_of_ne state hother agent _⟩
    rw [postedTo, posted_answered, List.append_nil]
    rfl

theorem keepsEvents_handleRequest (state : DaemonState World) (session : Nat)
    (request : Value) : KeepsEvents state (state.handleRequest out order session request) := by
  have heffect := requestEffect_handleRequest out order state session request
  generalize state.handleRequest out order session request = after at heffect ⊢
  cases heffect with
  | ignored => exact .of_pushed (.refl state)
  | refused => exact .of_pushed (pushed_send state session _)
  | deferred hagent hawaits hmethod hwait hempty =>
      exact .of_pushed (pushed_of_queued (queued_deferPoll out hempty _ _) rfl)
  | answered hagent hawaits hresult htool =>
      cases htool with
      | plain =>
          refine .of_pushed fun other => ?_
          exact (pushed_of_sessions rfl rfl other).trans (pushed_send _ session _ other)
      | @notified _ _ bridge =>
          refine .of_pushed fun other => ?_
          have hbridge : Pushed state (state.withBridge bridge) other :=
            pushed_of_sessions rfl rfl other
          exact hbridge.trans ((pushed_pushSessionEvent _ session _ other).trans
            (pushed_send _ session _ other))
      | polled => exact keepsEvents_polled _ (knows_of_sessionAgent hagent) _ _
      | deferred => cases hresult

theorem pushed_hello (state : DaemonState World) (session : Nat) (info : HelloInfo)
    (other : Nat) : Pushed state (state.hello out order session info) other := by
  have hgreeted : Pushed state (state.handleHello session info) other := by
    refine pushed_of_queued (queued_handleHello state session info) ?_ other
    unfold handleHello
    split <;> rfl
  unfold hello
  simp only
  split
  · exact hgreeted.trans (pushed_of_sessions rfl rfl other)
  · exact hgreeted.trans (pushed_of_sessions rfl rfl other)
  · exact hgreeted

theorem dropsOldest_removeSession (state : DaemonState World) (session : Nat) :
    DropsOldest (· = session) state (state.removeSession session) := by
  intro other
  by_cases hother : other = session
  · subst hother
    have hunknown : ¬(state.removeSession other).Knows other := by
      rw [Knows, session?_removeSession_self]
      exact Bool.false_ne_true
    exact .inr (.inr ⟨rfl, queued_of_unknown hunknown⟩)
  · refine .inl ⟨[], (List.append_nil _).symm, ?_⟩
    rw [buffer, buffer, queued, queued, session?_removeSession_of_ne state hother]
    rfl

theorem dropsOldest_endSession (state : DaemonState World) (session : Nat) :
    DropsOldest (· = session) state (state.endSession out order session) :=
  dropsOldest_removeSession (state.withBridge _) session

theorem dropsOldest_handleMessage (state : DaemonState World) (message : SessionMessage) :
    DropsOldest message.Ends state (state.handleMessage out order message) := by
  cases message with
  | connected session =>
      exact .of_pushed fun id => pushed_of_queued queued_connect rfl id
  | request session request =>
      exact (keepsEvents_handleRequest out order state session request).mono fun _ => False.elim
  | hello session info => exact .of_pushed (pushed_hello out order state session info)
  | disconnected session =>
      exact (dropsOldest_endSession out order state session).mono fun id hid => .inl (hid ▸ rfl)
  | error session =>
      exact (dropsOldest_endSession out order state session).mono fun id hid => .inr (hid ▸ rfl)

theorem Answered.later {middle : DaemonState World} {messages : List (Nat × Value)}
    (h : Answered state middle id) (hsent : after.sent = middle.sent ++ messages)
    (hbuffer : after.buffer id = []) : Answered state after id := by
  obtain ⟨earlier, message, hearlier, hmem, hevents, -⟩ := h
  refine ⟨earlier ++ messages, message, ?_, List.mem_append_left _ hmem, hevents, hbuffer⟩
  rw [hsent, hearlier, List.append_assoc]

theorem Answered.earlier {middle : DaemonState World} {messages : List (Nat × Value)}
    (h : Answered middle after id) (hsent : middle.sent = state.sent ++ messages)
    (hbuffer : middle.buffer id = state.buffer id) : Answered state after id := by
  obtain ⟨later, message, hlater, hmem, hevents, hempty⟩ := h
  refine ⟨messages ++ later, message, ?_, List.mem_append_right _ hmem, hbuffer ▸ hevents, hempty⟩
  rw [hlater, hsent, List.append_assoc]

/-- A poll that is answered leaves each buffer as it is, or takes all it holds. -/
theorem buffer_answerPoll (state : DaemonState World) (pretty : Value → String)
    (poll : PendingPoll) (id : Nat) :
    (state.answerPoll pretty poll).buffer id = state.buffer id ∨
      Answered state (state.answerPoll pretty poll) id := by
  by_cases hid : id = poll.sessionId
  · subst hid
    by_cases hknown : state.Knows poll.sessionId
    · exact .inr (answered_of_polled pretty hknown poll.agent poll.requestId)
    · left
      have hempty : state.buffer poll.sessionId = [] := queued_of_unknown hknown
      rw [hempty, buffer, queued_answerPoll]
      exact (drained_drainEvents state poll.sessionId poll.agent).1
  · exact .inl (buffer_answered_of_ne state hid poll.agent _)

theorem exists_sent_send (state : DaemonState World) (id : Nat) (message : Value) :
    ∃ messages, (state.send id message).sent = state.sent ++ messages := by
  unfold DaemonState.send
  split
  · exact ⟨_, rfl⟩
  · exact ⟨[], (List.append_nil _).symm⟩

/-- A resolution pushes nothing, and takes all of a buffer or nothing. -/
theorem resolvePolls_buffers (pretty : Value → String) (now : Nat) (polls : List PendingPoll)
    (state : DaemonState World) :
    (resolvePolls pretty now polls state).2.posted = state.posted ∧
      (∃ messages, (resolvePolls pretty now polls state).2.sent = state.sent ++ messages) ∧
      ∀ id, (resolvePolls pretty now polls state).2.buffer id = state.buffer id ∨
        Answered state (resolvePolls pretty now polls state).2 id := by
  induction polls generalizing state with
  | nil => exact ⟨rfl, ⟨[], (List.append_nil _).symm⟩, fun _ => .inl rfl⟩
  | cons poll polls ih =>
      simp only [resolvePolls]
      split
      · obtain ⟨hposted, ⟨later, hlater⟩, hbuffers⟩ := ih (state.answerPoll pretty poll)
        obtain ⟨messages, hmessages⟩ : ∃ messages,
            (state.answerPoll pretty poll).sent = state.sent ++ messages :=
          exists_sent_send _ _ _
        refine ⟨hposted.trans (posted_answered state _ _ _), ⟨messages ++ later, ?_⟩,
          fun id => ?_⟩
        · rw [hlater, hmessages, List.append_assoc]
        · rcases buffer_answerPoll state pretty poll id with hsame | hanswered
          · rcases hbuffers id with hrest | hrest
            · exact .inl (hrest.trans hsame)
            · exact .inr (hrest.earlier hmessages hsame)
          · have hempty := hanswered.empty
            rcases hbuffers id with hrest | hrest
            · exact .inr (hanswered.later hlater (hrest.trans hempty))
            · exact .inr (hanswered.later hlater hrest.empty)
      · exact ih state

theorem keepsEvents_resolvePendingPolls (state : DaemonState World) (pretty : Value → String)
    (now : Nat) : KeepsEvents state (state.resolvePendingPolls pretty now) := by
  obtain ⟨hposted, -, hbuffers⟩ := resolvePolls_buffers pretty now state.pendingPolls state
  intro id
  rcases hbuffers id with hsame | hanswered
  · refine .inl ⟨[], ?_, hsame⟩
    rw [List.append_nil, postedTo, postedTo, ← hposted]
    rfl
  · exact .inr (.inl hanswered)

end DaemonState

/-! ## Runs -/

namespace System

variable {World : Type} (out : Outside World)

/-- Every bare push of the step finds room. -/
def StepHasRoom (system : System World) : Step World → Prop
  | .routeTaskEvents => Along DaemonState.routeTaskEvent DaemonState.RoutesWithRoom
      system.daemon.bridge.pendingTaskEvents
      (system.daemon.withBridge { system.daemon.bridge with pendingTaskEvents := [] })
  | _ => True

/-- The step handles the end of the session. -/
def Ends (system : System World) : Step World → Nat → Prop
  | .handle _, session => ∃ message ∈ system.mail.head?, message.Ends session
  | _, _ => False

/-- Every state of the run is within the bound, and every step drops oldest events only. -/
def BuffersBounded (steps : List (Step World)) (system : System World) : Prop :=
  (∀ before later, steps = before ++ later → (run out before system).daemon.BuffersWithin) ∧
    Along (step out) (fun system input => DaemonState.DropsOldest (system.Ends input)
      system.daemon (system.step out input).daemon) steps system

theorem postedTo_work (state : DaemonState World) (bridge : BridgeRuntime World)
    (pushed : List (AgentId × BufferedEvent)) (id : Nat) :
    (state.work bridge pushed).postedTo (.session id) = state.postedTo (.session id) := by
  simp [DaemonState.postedTo, DaemonState.work, List.filter_map, Function.comp_def]

theorem dropsOldest_step {system : System World} {input : Step World}
    (h : system.StepHasRoom input) : DaemonState.DropsOldest (system.Ends input)
      system.daemon (system.step out input).daemon := by
  cases hreader : reader? input with
  | some session =>
      rcases step_reader_cases out system hreader with hsame | ⟨next, messages, hpost, -⟩
      · rw [hsame]
        exact .of_pushed (.refl _)
      · rw [hpost]
        exact .of_pushed (.refl _)
  | none =>
      cases input with
      | read | greet | close | fail => cases hreader
      | accept => exact .of_pushed (.refl _)
      | handle order =>
          simp only [System.step]
          split
          · exact .of_pushed (.refl _)
          next message rest hmail =>
            refine (DaemonState.dropsOldest_handleMessage out order system.daemon
              message).mono fun id hends => ⟨message, ?_, hends⟩
            rw [hmail]
            rfl
      | routeTaskEvents =>
          refine .of_pushed fun id => ?_
          have hbridge : DaemonState.Pushed system.daemon (system.daemon.withBridge
              { system.daemon.bridge with pendingTaskEvents := [] }) id :=
            DaemonState.pushed_of_sessions rfl rfl id
          exact hbridge.trans (DaemonState.pushed_foldl h id)
      | resolvePolls now =>
          exact (DaemonState.keepsEvents_resolvePendingPolls system.daemon _ now).mono
            fun _ => False.elim
      | work bridge pushed =>
          refine .of_pushed fun id => ⟨[], ?_, rfl⟩
          rw [List.append_nil]
          exact postedTo_work system.daemon bridge pushed id

/-- A step that pushes to a full buffer leaves one that holds too much. -/
theorem overflows_step {system : System World} {input : Step World}
    (h : ¬system.StepHasRoom input) : (system.step out input).daemon.Overflows := by
  cases input with
  | routeTaskEvents => exact DaemonState.overflows_foldl h
  | _ => exact absurd trivial h

theorem buffersWithin_started (bridge : BridgeRuntime World) :
    (started bridge).daemon.BuffersWithin := by
  intro id
  have hempty : (started bridge).daemon.buffer id = [] := rfl
  rw [hempty]
  exact Nat.zero_le _

theorem buffersBounded_of_room {steps : List (Step World)} {system : System World}
    (hwithin : system.daemon.BuffersWithin) (h : Along (step out) StepHasRoom steps system) :
    BuffersBounded out steps system := by
  refine ⟨fun before later hsteps => ?_, h.mono (dropsOldest_step out)⟩
  subst hsteps
  exact (Library.along_append.mp h).1.invariant (fun system => system.daemon.BuffersWithin)
    (fun hwithin hroom => (dropsOldest_step out hroom).within hwithin) hwithin

theorem room_of_buffersBounded {steps : List (Step World)} {system : System World}
    (h : BuffersBounded out steps system) : Along (step out) StepHasRoom steps system := by
  by_contra hroom
  obtain ⟨before, input, later, rfl, hstep⟩ := Library.exists_step_of_not_along hroom
  have hover := overflows_step out hstep
  have hwithin := h.1 (before ++ [input]) later (by simp)
  rw [run, Library.runFrom_append] at hwithin
  exact DaemonState.overflows_iff.mp hover hwithin

/-- In every run the buffers of the sessions stay within their capacity, and lose their
oldest events only, if and only if every bare push of a task event finds room. -/
theorem buffersBounded_iff (bridge : BridgeRuntime World) (steps : List (Step World)) :
    BuffersBounded out steps (started bridge) ↔
      Along (step out) StepHasRoom steps (started bridge) :=
  ⟨room_of_buffersBounded out, buffersBounded_of_room out (buffersWithin_started bridge)⟩

/-- The bridge after a press of a card of the automatic ZCode feed. -/
def pressedFeedCard : BridgeRuntime Unit :=
  (BridgeRuntime.opened () 0).pushTaskEvent Bridge.zcodePollSession
    (.object [("type", .string "task_selected"), ("task_id", .string "build")])

/-- A ZCode session connects and never polls; a card of its feed is pressed 257 times. -/
def unpolledPresses : List (Step Unit) :=
  [.accept, .read 1 (.json (.object [("bridge", .string "hello"), ("agent", .string "zcode")])),
    .greet 1, .handle .ascending, .handle .ascending] ++
  (List.replicate 257 [.work pressedFeedCard [], .routeTaskEvents]).flatten

theorem not_buffersBounded_unpolledPresses :
    ¬BuffersBounded Outside.idle unpolledPresses (started (.opened () 0)) := by
  intro h
  have hlength : ((run Outside.idle unpolledPresses (started (.opened () 0))).daemon.buffer
      1).length = 257 := by decide +kernel
  have hwithin := h.1 unpolledPresses [] (List.append_nil _).symm 1
  rw [hlength] at hwithin
  exact absurd hwithin (by decide)

end System
end Daemon
end MicroEmu
