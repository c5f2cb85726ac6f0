import MicroEmu.Daemon.Effects

/-!
# One response for each request

A request that calls for a response waits in the channel, then it is answered or
it becomes a pending poll, and a pending poll is answered later.  A run keeps
this account for every connection that is open as long as each message is served
when the loop takes it: the session is still registered, and a pending poll is
neither superseded nor dropped.
-/

namespace MicroEmu
namespace Daemon

open Json (Value)
open Routing (AgentId BufferedEvent)
open Bridge (BridgeRuntime Outside)
open Tasks (WalkOrder)

/-! ## Ids by session -/

/-- The ids of a session among those of all sessions. -/
def idsOf (session : Nat) (entries : List (Nat × Value)) : List Value :=
  (entries.filter fun entry => entry.1 == session).map (·.2)

@[simp] theorem idsOf_nil (session : Nat) : idsOf session [] = [] := rfl

@[simp] theorem idsOf_append (session : Nat) (entries later : List (Nat × Value)) :
    idsOf session (entries ++ later) = idsOf session entries ++ idsOf session later := by
  simp [idsOf]

@[simp] theorem idsOf_self (session : Nat) (id : Value) : idsOf session [(session, id)] = [id] := by
  simp [idsOf]

theorem idsOf_of_ne {session other : Nat} (id : Value) (h : other ≠ session) :
    idsOf session [(other, id)] = [] := by
  simp [idsOf, h]

/-- The requests that wait for an event. -/
def waiting (polls : List PendingPoll) : List (Nat × Value) :=
  polls.map fun poll => (poll.sessionId, poll.requestId)

@[simp] theorem waiting_append (polls later : List PendingPoll) :
    waiting (polls ++ later) = waiting polls ++ waiting later := List.map_append

theorem idsOf_waiting_filter_of_ne {session other : Nat} (h : session ≠ other)
    (polls : List PendingPoll) :
    idsOf session (waiting (polls.filter fun poll => poll.sessionId != other)) =
      idsOf session (waiting polls) := by
  simp only [idsOf, waiting, List.filter_map, List.filter_filter]
  congr 2
  apply List.filter_congr
  intro poll _
  by_cases hpoll : poll.sessionId = session
  · simp [hpoll, h]
  · simp [hpoll]

theorem idsOf_waiting_eq_nil_iff {session : Nat} {polls : List PendingPoll} :
    idsOf session (waiting polls) = [] ↔ ∀ poll ∈ polls, poll.sessionId ≠ session := by
  simp [idsOf, waiting, List.filter_eq_nil_iff]

namespace DaemonState

variable {World : Type} (out : Outside World) (order : WalkOrder)

/-- The requests answered so far. -/
def answers (state : DaemonState World) : List (Nat × Value) :=
  state.sent.filterMap fun message => (answeredId message.2).map fun id => (message.1, id)

/-- The session is registered. -/
def Knows (state : DaemonState World) (session : Nat) : Prop :=
  (state.session? session).isSome = true

/-! ## What leaves the account alone -/

/-- Nothing is answered, nothing waits or stops to wait, and the same sessions are
registered. -/
structure SameBook (a b : DaemonState World) : Prop where
  pendingPolls : b.pendingPolls = a.pendingPolls
  sent : b.sent = a.sent
  knows : ∀ session, (b.session? session).isSome = (a.session? session).isSome

theorem SameBook.refl (state : DaemonState World) : SameBook state state :=
  ⟨rfl, rfl, fun _ => rfl⟩

theorem SameBook.trans {a b c : DaemonState World} (hab : SameBook a b) (hbc : SameBook b c) :
    SameBook a c :=
  ⟨hbc.pendingPolls.trans hab.pendingPolls, hbc.sent.trans hab.sent,
    fun session => (hbc.knows session).trans (hab.knows session)⟩

theorem SameBook.answers {a b : DaemonState World} (h : SameBook a b) :
    b.answers = a.answers := by
  simp only [DaemonState.answers, h.sent]

theorem SameBook.knows_iff {a b : DaemonState World} (h : SameBook a b) (session : Nat) :
    b.Knows session ↔ a.Knows session := by
  simp only [Knows, h.knows]

/-- A write to one handle leaves the account alone. -/
theorem sameBook_of_modify {a b : DaemonState World} {id : Nat}
    {change : SessionHandle → SessionHandle}
    (hsessions : b.sessions = modifySession id change a.sessions)
    (hid : ∀ session, (change session).id = session.id)
    (hpolls : b.pendingPolls = a.pendingPolls) (hsent : b.sent = a.sent) : SameBook a b := by
  refine ⟨hpolls, hsent, fun session => ?_⟩
  rw [session?, hsessions, isSome_findSession_modifySession hid]
  rfl

/-- The registered agents are the same, too. -/
structure SameRoster (a b : DaemonState World) : Prop extends SameBook a b where
  registered : b.registered = a.registered
  sessionAgent : ∀ session, b.sessionAgent session = a.sessionAgent session

theorem SameRoster.refl (state : DaemonState World) : SameRoster state state :=
  ⟨.refl state, rfl, fun _ => rfl⟩

theorem SameRoster.trans {a b c : DaemonState World} (hab : SameRoster a b)
    (hbc : SameRoster b c) : SameRoster a c :=
  ⟨hab.toSameBook.trans hbc.toSameBook, hbc.registered.trans hab.registered,
    fun session => (hbc.sessionAgent session).trans (hab.sessionAgent session)⟩

/-- A write to the events of one handle leaves the roster alone. -/
theorem sameRoster_of_modify {a b : DaemonState World} {id : Nat}
    {change : SessionHandle → SessionHandle}
    (hsessions : b.sessions = modifySession id change a.sessions)
    (hid : ∀ session, (change session).id = session.id)
    (hagent : ∀ session, (change session).agent = session.agent)
    (hpolls : b.pendingPolls = a.pendingPolls) (hsent : b.sent = a.sent)
    (hregistered : b.registered = a.registered) : SameRoster a b := by
  refine ⟨sameBook_of_modify hsessions hid hpolls hsent, hregistered, fun session => ?_⟩
  rw [DaemonState.sessionAgent, session?, hsessions,
    agent_findSession_modifySession hid hagent]
  rfl

theorem sameRoster_withBridge (state : DaemonState World) (bridge : BridgeRuntime World) :
    SameRoster state (state.withBridge bridge) :=
  ⟨⟨rfl, rfl, fun _ => rfl⟩, rfl, fun _ => rfl⟩

theorem sameRoster_pushBack (state : DaemonState World) (id : Nat) (event : Value) :
    SameRoster state (state.pushBack id event) := by
  unfold pushBack
  split
  · exact sameRoster_of_modify rfl (fun _ => rfl) (fun _ => rfl) rfl rfl rfl
  · exact .refl state

theorem sameRoster_popFull (state : DaemonState World) (id : Nat) :
    SameRoster state (state.popFull id) :=
  sameRoster_of_modify rfl (fun _ => rfl) (fun _ => rfl) rfl rfl rfl

theorem sameRoster_pushSessionEvent (state : DaemonState World) (id : Nat) (event : Value) :
    SameRoster state (state.pushSessionEvent id event) :=
  (sameRoster_popFull state id).trans (sameRoster_pushBack (state.popFull id) id event)

theorem sameRoster_drainEvents (state : DaemonState World) (id : Nat) (agent : AgentId) :
    SameRoster state (state.drainEvents id agent).2 :=
  sameRoster_of_modify rfl (fun _ => rfl) (fun _ => rfl) rfl rfl rfl

theorem sameBook_handleHello (state : DaemonState World) (session : Nat) (info : HelloInfo) :
    SameBook state (state.handleHello session info) := by
  unfold handleHello
  split
  · exact sameBook_of_modify rfl (fun _ => rfl) rfl rfl
  · exact .refl state

theorem sameBook_hello (state : DaemonState World) (session : Nat) (info : HelloInfo) :
    SameBook state (state.hello out order session info) := by
  have hgreeted := sameBook_handleHello state session info
  unfold hello
  simp only
  split
  · exact hgreeted.trans (sameRoster_withBridge _ _).toSameBook
  · exact hgreeted.trans (sameRoster_withBridge _ _).toSameBook
  · exact hgreeted

theorem sameRoster_routeTaskEvent (state : DaemonState World) (event : Nat × Value) :
    SameRoster state (state.routeTaskEvent event) := by
  unfold routeTaskEvent
  split
  · split
    · exact .refl state
    · exact sameRoster_pushSessionEvent state _ _
  · split
    · generalize state.sessionsOf _ = ids
      induction ids generalizing state with
      | nil => exact .refl state
      | cons id ids ih => exact (sameRoster_pushBack state id event.2).trans (ih _)
    · exact sameRoster_pushBack state _ _

theorem sameRoster_routeTaskEvents (state : DaemonState World) :
    SameRoster state state.routeTaskEvents := by
  unfold routeTaskEvents
  generalize state.bridge.pendingTaskEvents = events
  refine (sameRoster_withBridge state
    { state.bridge with pendingTaskEvents := [] }).trans ?_
  generalize state.withBridge { state.bridge with pendingTaskEvents := [] } = start
  induction events generalizing start with
  | nil => exact .refl start
  | cons event events ih => exact (sameRoster_routeTaskEvent start event).trans (ih _)

theorem sameRoster_of_toolEffect {state after : DaemonState World} {session : Nat}
    {agent : AgentId} {id result : Value} {wait : Option Nat}
    (h : ToolEffect out state session agent id wait result after)
    (hresult : isNull result = false) : SameRoster state after := by
  cases h with
  | plain => exact sameRoster_withBridge state _
  | notified =>
      exact (sameRoster_withBridge state _).trans (sameRoster_pushSessionEvent _ session _)
  | polled => exact sameRoster_drainEvents state session agent
  | deferred => cases hresult

/-! ## Sending -/

theorem pendingPolls_send (state : DaemonState World) (id : Nat) (message : Value) :
    (state.send id message).pendingPolls = state.pendingPolls := by
  unfold send
  split <;> rfl

theorem knows_send (state : DaemonState World) (id : Nat) (message : Value) (session : Nat) :
    (state.send id message).Knows session ↔ state.Knows session := by
  unfold send
  split <;> rfl

theorem answers_send {state : DaemonState World} {id : Nat} (h : state.Knows id)
    (message : Value) :
    (state.send id message).answers =
      state.answers ++ ((answeredId message).map fun answered => (id, answered)).toList := by
  have hsome : (state.session? id).isSome = true := h
  rw [send, if_pos hsome, answers, List.filterMap_append]
  cases hanswered : answeredId message with
  | none => simp [answers, hanswered]
  | some answered => simp [answers, hanswered]

theorem send_of_unknown {state : DaemonState World} {id : Nat} (h : ¬state.Knows id)
    (message : Value) : state.send id message = state := if_neg h

/-- A session whose agent is known is registered. -/
theorem knows_of_sessionAgent {state : DaemonState World} {session : Nat} {agent : AgentId}
    (h : state.sessionAgent session = some agent) : state.Knows session := by
  unfold sessionAgent at h
  cases hsession : state.session? session with
  | none => simp [hsession] at h
  | some handle => simp [Knows, hsession]

/-! ## Long polls -/

/-- The polls a resolution looks at are answered or stay, and none is lost. -/
theorem resolvePolls_spec (pretty : Value → String) (now : Nat) (polls : List PendingPoll)
    (state : DaemonState World) (hknown : ∀ poll ∈ polls, state.Knows poll.sessionId) :
    ((resolvePolls pretty now polls state).2.answers ++
        waiting (resolvePolls pretty now polls state).1).Perm
      (state.answers ++ waiting polls) ∧
    (resolvePolls pretty now polls state).1.Sublist polls ∧
    ∀ session, (resolvePolls pretty now polls state).2.Knows session ↔
      state.Knows session := by
  induction polls generalizing state with
  | nil => exact ⟨.refl _, .refl _, fun _ => Iff.rfl⟩
  | cons poll polls ih =>
      have hpoll : state.Knows poll.sessionId := hknown poll List.mem_cons_self
      simp only [resolvePolls]
      split
      · have hdrained := sameRoster_drainEvents state poll.sessionId poll.agent
        have hknows (session : Nat) :
            (state.answerPoll pretty poll).Knows session ↔ state.Knows session :=
          (knows_send _ _ _ _).trans (hdrained.knows_iff session)
        have hanswers : (state.answerPoll pretty poll).answers =
            state.answers ++ [(poll.sessionId, poll.requestId)] := by
          rw [answerPoll, answers_send ((hdrained.knows_iff _).mpr hpoll), hdrained.answers]
          rfl
        obtain ⟨hperm, hsublist, hrest⟩ := ih (state.answerPoll pretty poll) fun other hother =>
          (hknows _).mpr (hknown other (List.mem_cons_of_mem _ hother))
        refine ⟨hperm.trans ?_, hsublist.cons _, fun session =>
          (hrest session).trans (hknows session)⟩
        rw [hanswers, List.append_assoc]
        exact .refl _
      · obtain ⟨hperm, hsublist, hrest⟩ := ih state fun other hother =>
          hknown other (List.mem_cons_of_mem _ hother)
        refine ⟨?_, hsublist.cons_cons poll, hrest⟩
        -- the poll that stays moves past the answers given after it
        have hfront := hperm.cons (poll.sessionId, poll.requestId)
        exact (List.perm_middle.trans hfront).trans List.perm_middle.symm

/-! ## Serving a message -/

/-- A poll of the session would have to wait. -/
def Defers (state : DaemonState World) (session : Nat) (request : Value) : Prop :=
  ∃ agent method, state.sessionAgent session = some agent ∧
    requestMethod request = some method ∧ (requestWait method request).isSome = true ∧
    state.queued (.session session) = [] ∧ state.queued (.agent agent) = []

/-- No poll of the session is pending. -/
def NonePending (state : DaemonState World) (session : Nat) : Prop :=
  ∀ poll ∈ state.pendingPolls, poll.sessionId ≠ session

/-- The message is served: a request that calls for a response comes from a
registered session, and neither it nor the end of the session drops a pending
poll. -/
def Serves (state : DaemonState World) : SessionMessage → Prop
  | .connected _ => True
  | .hello _ _ => True
  | .request session request => (awaitedId request).isSome = true →
      state.Knows session ∧ (state.Defers session request → state.NonePending session)
  | .disconnected session => state.NonePending session
  | .error session => state.NonePending session

/-- The responses given and the polls that wait, of one session. -/
def settled (state : DaemonState World) (session : Nat) : List Value :=
  idsOf session state.answers ++ idsOf session (waiting state.pendingPolls)

theorem SameBook.settled {a b : DaemonState World} (h : SameBook a b) (session : Nat) :
    b.settled session = a.settled session := by
  rw [DaemonState.settled, h.answers, h.pendingPolls]
  rfl

/-- What a message asks for, of one session. -/
def requested (message : SessionMessage) (session : Nat) : List Value :=
  idsOf session message.awaits.toList

theorem requested_request (session : Nat) (request : Value) (other : Nat) :
    requested (.request session request) other =
      idsOf other ((awaitedId request).map fun id => (session, id)).toList := rfl

theorem settled_send {state : DaemonState World} {id : Nat} (h : state.Knows id)
    (message : Value) (session : Nat) :
    ((state.send id message).settled session).Perm (state.settled session ++
      idsOf session ((answeredId message).map fun answered => (id, answered)).toList) := by
  rw [settled, settled, answers_send h, pendingPolls_send, idsOf_append, List.append_assoc,
    List.append_assoc]
  exact List.perm_append_comm.append_left _

/-- The poll that starts to wait is the only one of its session. -/
theorem settled_deferPoll (state : DaemonState World) (session : Nat) (agent : AgentId)
    (id : Value) (timeoutMs other : Nat) :
    (state.deferPoll out session agent id timeoutMs).settled other =
      idsOf other state.answers ++
        (idsOf other (waiting (state.pendingPolls.filter fun poll =>
          poll.sessionId != session)) ++ idsOf other [(session, id)]) := by
  rw [settled, deferPoll, waiting_append, idsOf_append]
  rfl

theorem idsOf_waiting_filter_self (session : Nat) (polls : List PendingPoll) :
    idsOf session (waiting (polls.filter fun poll => poll.sessionId != session)) = [] := by
  rw [idsOf_waiting_eq_nil_iff]
  intro poll hpoll
  simpa using (List.mem_filter.mp hpoll).2

/-- A request is answered or starts to wait. -/
theorem settled_handleRequest {state : DaemonState World} {sender session : Nat}
    {request : Value} (hserves : sender = session → state.Serves (.request sender request)) :
    ((state.handleRequest out order sender request).settled session).Perm
      (state.settled session ++ requested (.request sender request) session) := by
  have heffect := requestEffect_handleRequest out order state sender request
  rw [requested_request]
  generalize state.handleRequest out order sender request = after at heffect ⊢
  cases heffect with
  | ignored hawaits => simp [hawaits]
  | refused hevents hanswers =>
      rw [← hanswers]
      by_cases hknown : state.Knows sender
      · exact settled_send hknown _ session
      · rw [send_of_unknown hknown, hanswers]
        cases hawaits : awaitedId request with
        | none => simp
        | some id =>
            have hother : sender ≠ session := fun hsender =>
              hknown (hserves hsender (by rw [hawaits]; rfl)).1
            simp [idsOf_of_ne id hother]
  | @answered agent id result wait after hagent hawaits hresult heffect =>
      have hbook := sameRoster_of_toolEffect out heffect hresult
      have hknown := (hbook.knows_iff sender).mpr (knows_of_sessionAgent hagent)
      have hsent := settled_send hknown (Mcp.response id result) session
      rw [hbook.settled, answeredId_response] at hsent
      rw [hawaits]
      exact hsent
  | @deferred agent id method timeoutMs hagent hawaits hmethod hwait hempty =>
      have hbook := sameRoster_drainEvents state sender agent
      have hqueued := List.append_eq_nil_iff.mp hempty
      rw [settled_deferPoll, hbook.answers, hbook.pendingPolls, hawaits, settled]
      by_cases hsession : session = sender
      · -- no poll of the session is superseded
        have hnone : state.NonePending sender :=
          (hserves hsession.symm (by rw [hawaits]; rfl)).2
            ⟨agent, method, hagent, hmethod, by rw [hwait]; rfl, hqueued⟩
        rw [hsession, idsOf_waiting_filter_self, idsOf_waiting_eq_nil_iff.mpr hnone]
        simp
      · rw [idsOf_waiting_filter_of_ne hsession, List.append_assoc]
        rfl

theorem endSession_pendingPolls (state : DaemonState World) (session : Nat) :
    (state.endSession out order session).pendingPolls =
      state.pendingPolls.filter fun poll => poll.sessionId != session := rfl

theorem settled_endSession {state : DaemonState World} {sender session : Nat}
    (hnone : sender = session → state.NonePending sender) :
    (state.endSession out order sender).settled session = state.settled session := by
  rw [settled, endSession_pendingPolls, settled]
  by_cases hsession : session = sender
  · rw [hsession, idsOf_waiting_filter_self,
      idsOf_waiting_eq_nil_iff.mpr (hnone hsession.symm)]
    rfl
  · rw [idsOf_waiting_filter_of_ne hsession]
    rfl

/-- A message that is served settles what it asks for. -/
theorem settled_handleMessage {state : DaemonState World} {message : SessionMessage}
    {session : Nat} (hserves : message.session = session → state.Serves message) :
    ((state.handleMessage out order message).settled session).Perm
      (state.settled session ++ requested message session) := by
  cases message with
  | connected sender => exact .of_eq (List.append_nil _).symm
  | hello sender info =>
      exact .of_eq (((sameBook_hello out order state sender info).settled session).trans
        (List.append_nil _).symm)
  | request sender request => exact settled_handleRequest out order hserves
  | disconnected sender =>
      exact .of_eq ((settled_endSession out order hserves).trans (List.append_nil _).symm)
  | error sender =>
      exact .of_eq ((settled_endSession out order hserves).trans (List.append_nil _).symm)

/-! ## Pending polls have a session -/

/-- The session of every pending poll is registered. -/
def PollsKnown (state : DaemonState World) : Prop :=
  ∀ poll ∈ state.pendingPolls, state.Knows poll.sessionId

theorem PollsKnown.of_sameBook {a b : DaemonState World} (h : a.PollsKnown)
    (hbook : SameBook a b) : b.PollsKnown := by
  intro poll hpoll
  rw [hbook.pendingPolls] at hpoll
  exact (hbook.knows_iff _).mpr (h poll hpoll)

theorem PollsKnown.send {state : DaemonState World} (h : state.PollsKnown) (id : Nat)
    (message : Value) : (state.send id message).PollsKnown := by
  intro poll hpoll
  rw [pendingPolls_send] at hpoll
  exact (knows_send _ _ _ _).mpr (h poll hpoll)

theorem PollsKnown.handleRequest {state : DaemonState World} (h : state.PollsKnown)
    (sender : Nat) (request : Value) :
    (state.handleRequest out order sender request).PollsKnown := by
  have heffect := requestEffect_handleRequest out order state sender request
  generalize state.handleRequest out order sender request = after at heffect ⊢
  cases heffect with
  | ignored => exact h
  | refused => exact h.send _ _
  | answered hagent hawaits hresult heffect =>
      exact (h.of_sameBook (sameRoster_of_toolEffect out heffect hresult).toSameBook).send _ _
  | @deferred agent id method timeoutMs hagent hawaits hmethod hwait hempty =>
      have hbook := sameRoster_drainEvents state sender agent
      intro poll hpoll
      rcases List.mem_append.mp hpoll with hkept | hnew
      · exact h.of_sameBook hbook.toSameBook poll (List.mem_of_mem_filter hkept)
      · rw [List.mem_singleton.mp hnew]
        exact (hbook.knows_iff sender).mpr (knows_of_sessionAgent hagent)

theorem PollsKnown.endSession {state : DaemonState World} (h : state.PollsKnown)
    (session : Nat) : (state.endSession out order session).PollsKnown := by
  intro poll hpoll
  rw [endSession_pendingPolls, List.mem_filter] at hpoll
  have hother : poll.sessionId ≠ session := by simpa using hpoll.2
  have hknown := h poll hpoll.1
  rw [Knows, session?] at hknown ⊢
  exact (congrArg Option.isSome (findSession_filter_of_ne state.sessions hother)).trans hknown

theorem PollsKnown.connect {state : DaemonState World} (h : state.PollsKnown)
    (session : Nat) : (state.connect session).PollsKnown := by
  intro poll hpoll
  have hknown := h poll hpoll
  rw [Knows, session?] at hknown ⊢
  simp only [DaemonState.connect, findSession_append, Option.isSome_or, hknown, Bool.true_or]

theorem PollsKnown.handleMessage {state : DaemonState World} (h : state.PollsKnown)
    (message : SessionMessage) : (state.handleMessage out order message).PollsKnown := by
  cases message with
  | connected session => exact h.connect session
  | hello session info => exact h.of_sameBook (sameBook_hello out order state session info)
  | request session request => exact h.handleRequest out order session request
  | disconnected session => exact h.endSession out order session
  | error session => exact h.endSession out order session

theorem PollsKnown.resolvePendingPolls {state : DaemonState World} (h : state.PollsKnown)
    (pretty : Value → String) (now : Nat) :
    (state.resolvePendingPolls pretty now).PollsKnown := by
  obtain ⟨-, hsublist, hknows⟩ := resolvePolls_spec pretty now state.pendingPolls state h
  intro poll hpoll
  exact (hknows _).mpr (h poll (hsublist.subset hpoll))

/-- A resolution settles nothing but what it found pending. -/
theorem settled_resolvePendingPolls {state : DaemonState World} (h : state.PollsKnown)
    (pretty : Value → String) (now session : Nat) :
    ((state.resolvePendingPolls pretty now).settled session).Perm
      (state.settled session) := by
  obtain ⟨hperm, -, -⟩ := resolvePolls_spec pretty now state.pendingPolls state h
  rw [settled, settled, ← idsOf_append, ← idsOf_append]
  exact (hperm.filter _).map _

/-! ## A message that is not served -/

/-- Only a poll with a timeout waits. -/
theorem requestWait_eq_some {method : String} {request : Value} {timeoutMs : Nat}
    (h : requestWait method request = some timeoutMs) :
    method = "tools/call" ∧
      (((request.get? "params").getD .null).get? "name").bind Value.asStr =
        some "poll_events" ∧
      timeoutMs = pollTimeout ((((request.get? "params").getD .null).get?
        "arguments").getD .null) ∧ 0 < timeoutMs := by
  unfold requestWait at h
  split at h
  next hmethod =>
    unfold toolWait at h
    obtain ⟨name, hname, hwait⟩ := Option.bind_eq_some_iff.mp h
    unfold callWait at hwait
    split at hwait
    next hpoll =>
      obtain rfl := Option.some.inj hwait
      exact ⟨hmethod, hpoll.1 ▸ hname, rfl, hpoll.2⟩
    · cases hwait
  · cases h

/-- The request calls for the tool `poll_events`, with an id. -/
structure Polls (request id : Value) : Prop where
  method : requestMethod request = some "tools/call"
  tool : (((request.get? "params").getD .null).get? "name").bind Value.asStr =
    some "poll_events"
  id : request.get? "id" = some id

/-- The arguments of a call. -/
def requestArguments (request : Value) : Value :=
  (((request.get? "params").getD .null).get? "arguments").getD .null

theorem handleRequest_of_polls {state : DaemonState World} {session : Nat} {agent : AgentId}
    {request id : Value} (hagent : state.sessionAgent session = some agent)
    (hpolls : Polls request id) :
    state.handleRequest out order session request =
      if isNull (state.callPollEvents out session agent id (requestArguments request)).1 then
        (state.callPollEvents out session agent id (requestArguments request)).2
      else
        (state.callPollEvents out session agent id (requestArguments request)).2.send session
          (Mcp.response id
            (state.callPollEvents out session agent id (requestArguments request)).1) := by
  have hnotification : isNotification "tools/call" = false := by decide
  have havailable : Mcp.toolAvailable "poll_events" (some agent) = true := by
    cases agent <;> rfl
  have hcall : state.callToolFor out order session agent id request =
      state.callPollEvents out session agent id (requestArguments request) := by
    simp only [callToolFor, hpolls.tool, havailable, Bool.not_true, Bool.false_eq_true,
      if_false]
    rfl
  simp only [handleRequest, hpolls.method, hpolls.id, hnotification, hagent,
    Bool.false_eq_true, if_false, answerRequest, callMethod, hcall]

/-- A poll that would have to wait becomes the pending poll of its session. -/
theorem handleRequest_of_defers {state : DaemonState World} {session : Nat}
    {request id : Value} (hawaits : awaitedId request = some id)
    (h : state.Defers session request) :
    ∃ agent timeoutMs, state.handleRequest out order session request =
      (state.drainEvents session agent).2.deferPoll out session agent id timeoutMs := by
  obtain ⟨agent, method, hagent, hmethod, hwait, hsession, hqueue⟩ := h
  obtain ⟨timeoutMs, hwait⟩ := Option.isSome_iff_exists.mp hwait
  obtain ⟨rfl, hname, rfl, hpositive⟩ := requestWait_eq_some hwait
  have hid : request.get? "id" = some id := by
    have hnotification : isNotification "tools/call" = false := by decide
    simpa [awaitedId, hmethod, hnotification] using hawaits
  have hempty : (state.drainEvents session agent).1 = [] :=
    List.append_eq_nil_iff.mpr ⟨hsession, hqueue⟩
  have hwaits : state.callPollEvents out session agent id (requestArguments request) =
      (.null, (state.drainEvents session agent).2.deferPoll out session agent id
        (pollTimeout (requestArguments request))) := by
    simp only [callPollEvents, hempty, List.isEmpty_nil, Bool.not_true, Bool.false_eq_true,
      if_false]
    exact if_pos hpositive
  have hpolls : Polls request id := ⟨hmethod, hname, hid⟩
  refine ⟨agent, pollTimeout (requestArguments request), ?_⟩
  rw [handleRequest_of_polls out order hagent hpolls, hwaits]
  rfl

/-- A message that is not served leaves less than it found. -/
theorem settled_handleMessage_lt {state : DaemonState World} {message : SessionMessage}
    (h : ¬state.Serves message) :
    ((state.handleMessage out order message).settled message.session).length <
      (state.settled message.session ++ requested message message.session).length := by
  have hended {session : Nat} (hpending : ¬state.NonePending session) :
      ((state.endSession out order session).settled session).length <
        (state.settled session).length := by
    have hlost : idsOf session (waiting state.pendingPolls) ≠ [] :=
      mt idsOf_waiting_eq_nil_iff.mp hpending
    rw [settled, endSession_pendingPolls, idsOf_waiting_filter_self, settled,
      List.length_append, List.length_append]
    have hpositive := List.length_pos_iff.mpr hlost
    exact Nat.add_lt_add_left hpositive _
  cases message with
  | connected session => exact absurd trivial h
  | hello session info => exact absurd trivial h
  | disconnected session => rw [List.length_append]; exact hended h
  | error session => rw [List.length_append]; exact hended h
  | request session request =>
      simp only [Serves, Classical.not_imp, not_and_or] at h
      obtain ⟨hawaits, hdropped⟩ := h
      obtain ⟨id, hawaits⟩ := Option.isSome_iff_exists.mp hawaits
      have hrequested : requested (.request session request) session = [id] := by
        rw [requested_request, hawaits]
        exact idsOf_self session id
      rw [List.length_append, SessionMessage.session, hrequested]
      rcases hdropped with hunknown | hsuperseded
      · -- the answer has nobody to go to
        have heffect := requestEffect_handleRequest out order state session request
        have hsame : state.handleRequest out order session request = state := by
          generalize state.handleRequest out order session request = after at heffect ⊢
          cases heffect with
          | ignored => rfl
          | refused => exact send_of_unknown hunknown _
          | answered hagent => exact absurd (knows_of_sessionAgent hagent) hunknown
          | deferred hagent => exact absurd (knows_of_sessionAgent hagent) hunknown
        rw [handleMessage, hsame]
        exact Nat.lt_succ_self _
      · -- the new poll takes the place of an older one
        obtain ⟨hdefers, hpending⟩ := hsuperseded
        obtain ⟨agent, timeoutMs, hafter⟩ := handleRequest_of_defers out order hawaits hdefers
        have hlost := List.length_pos_iff.mpr (mt idsOf_waiting_eq_nil_iff.mp hpending)
        have hbook := sameRoster_drainEvents state session agent
        rw [handleMessage, hafter, settled_deferPoll, idsOf_waiting_filter_self, hbook.answers,
          settled, idsOf_self, List.length_append, List.length_append]
        simp only [List.length_append, List.length_nil, List.length_singleton]
        omega

end DaemonState

/-! ## Announcing a session -/

/-- The session a message registers. -/
def SessionMessage.connects : SessionMessage → Option Nat
  | .connected session => some session
  | _ => none

/-- The session of the connection is not announced yet. -/
def Reader.isUnannounced : Reader → Bool
  | .absent => true
  | .accepted => true
  | _ => false

namespace System

variable {World : Type} (out : Outside World)

/-! ## The account of a run -/

/-- Of every connection that is not closed, each request that calls for a response
is in the channel, or pending, or answered, and each just once. -/
def Accounted (system : System World) : Prop :=
  ∀ session, (system.readers session).isClosed = false →
    (idsOf session system.daemon.answers ++ idsOf session (waiting system.daemon.pendingPolls) ++
      idsOf session (system.mail.filterMap SessionMessage.awaits)).Perm
        (idsOf session system.asked)

/-- The message the step takes, if its connection is not closed, is served. -/
def Served (system : System World) : Step World → Prop
  | .handle _ => ∀ message ∈ system.mail.head?,
      (system.readers message.session).isClosed = false → system.daemon.Serves message
  | _ => True

/-- Ids are fresh, and pending polls belong to registered sessions. -/
structure Orderly (system : System World) : Prop where
  fresh : ∀ session, system.nextId ≤ session → system.readers session = .absent
  pollsKnown : system.daemon.PollsKnown

theorem orderly_started (bridge : BridgeRuntime World) : (started bridge).Orderly where
  fresh _ _ := rfl
  pollsKnown _ hpoll := by cases hpoll

theorem accounted_started (bridge : BridgeRuntime World) : (started bridge).Accounted :=
  fun _ _ => .refl _

/-! ## Steps of the readers -/

/-- The connection whose reader takes the step. -/
def reader? : Step World → Option Nat
  | .read session _ => some session
  | .greet session => some session
  | .close session => some session
  | .fail session => some session
  | _ => none

/-- What the reader of an open connection may post: its session is announced, once
and with the first line. -/
structure Posts (system : System World) (session : Nat) (next : Reader)
    (messages : List SessionMessage) : Prop where
  present : system.readers session ≠ .absent
  isOpen : (system.readers session).isClosed = false
  announced : next.isUnannounced = false
  connects : messages.filterMap SessionMessage.connects = [] ∨
    system.readers session = .accepted ∧
      messages.filterMap SessionMessage.connects = [session]
  /-- Only the end of the connection is reported as a disconnect. -/
  parts : ∀ other, .disconnected other ∈ messages → other = session ∧ next.isClosed = true

theorem connects_forwardLine (session : Nat) (line : Line) :
    (forwardLine session line).filterMap SessionMessage.connects = [] := by
  cases line <;> rfl

theorem connects_forwardFirst (session : Nat) (line : Line) :
    (forwardFirst session line).filterMap SessionMessage.connects = [] := by
  cases line with
  | blank | invalid => rfl
  | json value =>
      simp only [forwardFirst]
      split
      · rfl
      · exact connects_forwardLine session _

theorem disconnected_notMem_forwardLine (session other : Nat) (line : Line) :
    .disconnected other ∉ forwardLine session line := by
  cases line <;> simp [forwardLine]

theorem disconnected_notMem_forwardFirst (session other : Nat) (line : Line) :
    .disconnected other ∉ forwardFirst session line := by
  cases line with
  | blank | invalid => simp [forwardFirst, forwardLine]
  | json value =>
      simp only [forwardFirst]
      split
      · simp
      · exact disconnected_notMem_forwardLine session other _

theorem stop_cases (system : System World) (session : Nat) {message : SessionMessage}
    (hconnects : message.connects = none) (hsession : message.session = session) :
    system.stop session message = system ∨
      ∃ next messages, system.stop session message = system.post session next messages ∧
        system.Posts session next messages := by
  have hmessages : [message].filterMap SessionMessage.connects = [] := by simp [hconnects]
  have hparts (other : Nat) (hother : .disconnected other ∈ [message]) :
      other = session ∧ Reader.closed.isClosed = true := by
    rw [← hsession, ← List.mem_singleton.mp hother]
    exact ⟨rfl, rfl⟩
  unfold stop
  cases hreader : system.readers session with
  | accepted =>
      exact .inr ⟨.closed, [message], rfl, hreader ▸ nofun, hreader ▸ rfl, rfl,
        .inl hmessages, hparts⟩
  | reading =>
      exact .inr ⟨.closed, [message], rfl, hreader ▸ nofun, hreader ▸ rfl, rfl,
        .inl hmessages, hparts⟩
  | absent | greeting | plugin | closed => exact .inl rfl

/-- A reader does nothing, or posts what its open connection gives. -/
theorem step_reader_cases (system : System World) {input : Step World} {session : Nat}
    (hreader : reader? input = some session) :
    system.step out input = system ∨
      ∃ next messages, system.step out input = system.post session next messages ∧
        system.Posts session next messages := by
  cases input with
  | accept | handle | routeTaskEvents | resolvePolls | work => cases hreader
  | close reader =>
      obtain rfl := Option.some.inj hreader
      exact stop_cases system reader rfl rfl
  | fail reader =>
      obtain rfl := Option.some.inj hreader
      exact stop_cases system reader rfl rfl
  | greet reader =>
      obtain rfl := Option.some.inj hreader
      simp only [System.step]
      cases hstate : system.readers reader with
      | greeting first =>
          exact .inr ⟨_, _, rfl, hstate ▸ nofun, hstate ▸ rfl, rfl,
            .inl (connects_forwardFirst reader first),
            fun other h => absurd h (disconnected_notMem_forwardFirst reader other first)⟩
      | absent | accepted | reading | plugin | closed => exact .inl rfl
  | read reader line =>
      obtain rfl := Option.some.inj hreader
      simp only [System.step]
      cases hstate : system.readers reader with
      | accepted =>
          simp only
          split
          · exact .inr ⟨_, _, rfl, hstate ▸ nofun, hstate ▸ rfl, rfl, .inl rfl, nofun⟩
          · exact .inr ⟨_, _, rfl, hstate ▸ nofun, hstate ▸ rfl, rfl, .inr ⟨hstate, rfl⟩,
              fun other h => by simp at h⟩
      | reading =>
          exact .inr ⟨_, _, rfl, hstate ▸ nofun, hstate ▸ rfl, rfl,
            .inl (connects_forwardLine reader line),
            fun other h => absurd h (disconnected_notMem_forwardLine reader other line)⟩
      | absent | greeting | plugin | closed => exact .inl rfl

theorem Orderly.post {system : System World} (h : system.Orderly) {session : Nat}
    (hreader : system.readers session ≠ .absent) (next : Reader)
    (messages : List SessionMessage) : (system.post session next messages).Orderly where
  fresh := by
    intro other hother
    have hne : other ≠ session := fun heq => hreader (heq ▸ h.fresh other hother)
    exact (Function.update_of_ne hne _ _).trans (h.fresh other hother)
  pollsKnown := h.pollsKnown

theorem Accounted.post {system : System World} (h : system.Accounted) {session : Nat}
    (hreader : (system.readers session).isClosed = false) (next : Reader)
    (messages : List SessionMessage) : (system.post session next messages).Accounted := by
  intro other hother
  have hbefore : (system.readers other).isClosed = false := by
    by_cases hne : other = session
    · rw [hne]
      exact hreader
    · have hupdated : (Function.update system.readers session next other).isClosed = false :=
        hother
      rwa [Function.update_of_ne hne] at hupdated
  simp only [System.post, List.filterMap_append, idsOf_append]
  rw [← List.append_assoc]
  exact (h other hbefore).append_right _

/-! ## Steps of the loop -/

theorem Orderly.step {system : System World} (h : system.Orderly) (input : Step World) :
    (system.step out input).Orderly := by
  cases hreader : reader? input with
  | some session =>
      rcases step_reader_cases out system hreader with hsame | ⟨next, messages, hpost, hposts⟩
      · rwa [hsame]
      · rw [hpost]
        exact h.post hposts.present next messages
  | none =>
      cases input with
      | read | greet | close | fail => cases hreader
      | accept =>
          refine ⟨fun session hsession => ?_, h.pollsKnown⟩
          have hne : session ≠ system.nextId := Nat.ne_of_gt hsession
          exact (Function.update_of_ne hne _ _).trans (h.fresh session (Nat.le_of_succ_le hsession))
      | handle order =>
          simp only [System.step]
          split
          · exact h
          · exact ⟨h.fresh, h.pollsKnown.handleMessage out order _⟩
      | routeTaskEvents =>
          exact ⟨h.fresh, h.pollsKnown.of_sameBook
            (DaemonState.sameRoster_routeTaskEvents _).toSameBook⟩
      | resolvePolls now => exact ⟨h.fresh, h.pollsKnown.resolvePendingPolls _ now⟩
      | work bridge pushed => exact ⟨h.fresh, h.pollsKnown⟩

/-- What the loop does between the messages settles nothing new. -/
theorem Accounted.of_settled {a b : System World} (h : a.Accounted)
    (hreaders : b.readers = a.readers) (hmail : b.mail = a.mail) (hasked : b.asked = a.asked)
    (hsettled : ∀ session, (b.daemon.settled session).Perm (a.daemon.settled session)) :
    b.Accounted := by
  intro session hopen
  rw [hreaders] at hopen
  rw [hmail, hasked]
  exact ((hsettled session).append_right _).trans (h session hopen)

theorem filterMap_awaits_cons (message : SessionMessage) (rest : List SessionMessage) :
    (message :: rest).filterMap SessionMessage.awaits =
      message.awaits.toList ++ rest.filterMap SessionMessage.awaits := by
  cases hawaits : message.awaits with
  | none => simp [hawaits]
  | some entry => simp [hawaits]

/-- The account of one connection before a message is taken. -/
theorem account_cons (system : System World) {message : SessionMessage}
    {rest : List SessionMessage} (hmail : system.mail = message :: rest) (session : Nat) :
    idsOf session system.daemon.answers ++ idsOf session (waiting system.daemon.pendingPolls) ++
        idsOf session (system.mail.filterMap SessionMessage.awaits) =
      (system.daemon.settled session ++ DaemonState.requested message session) ++
        idsOf session (rest.filterMap SessionMessage.awaits) := by
  rw [hmail, filterMap_awaits_cons, idsOf_append, ← List.append_assoc]
  rfl

/-- A step whose message is served keeps the account. -/
theorem Accounted.step {system : System World} (h : system.Accounted)
    (horderly : system.Orderly) {input : Step World} (hserved : system.Served input) :
    (system.step out input).Accounted := by
  cases hreader : reader? input with
  | some session =>
      rcases step_reader_cases out system hreader with hsame | ⟨next, messages, hpost, hposts⟩
      · rwa [hsame]
      · rw [hpost]
        exact h.post hposts.isOpen next messages
  | none =>
      cases input with
      | read | greet | close | fail => cases hreader
      | accept =>
          intro session hopen
          refine h session ?_
          by_cases hne : session = system.nextId
          · rw [hne, horderly.fresh _ (Nat.le_refl _)]
            rfl
          · have hupdated :
                (Function.update system.readers system.nextId .accepted session).isClosed =
                  false := hopen
            rwa [Function.update_of_ne hne] at hupdated
      | handle order =>
          simp only [System.step]
          split
          · exact h
          next message rest hmail =>
            intro session hopen
            have hbefore := h session hopen
            rw [account_cons system hmail] at hbefore
            refine List.Perm.trans (List.Perm.append_right _ ?_) hbefore
            refine DaemonState.settled_handleMessage out order fun hsender => ?_
            exact hserved message (by rw [hmail]; rfl) (hsender ▸ hopen)
      | routeTaskEvents =>
          exact h.of_settled rfl rfl rfl fun session =>
            .of_eq ((DaemonState.sameRoster_routeTaskEvents system.daemon).settled session)
      | resolvePolls now =>
          exact h.of_settled rfl rfl rfl fun session =>
            DaemonState.settled_resolvePendingPolls horderly.pollsKnown _ now session
      | work bridge pushed => exact h.of_settled rfl rfl rfl fun session => .refl _

/-- A step whose message is not served breaks the account. -/
theorem served_of_accounted {system : System World} {input : Step World}
    (h : system.Accounted) (hafter : (system.step out input).Accounted) :
    system.Served input := by
  cases input with
  | accept | read | greet | close | fail | routeTaskEvents | resolvePolls | work => trivial
  | handle order =>
      intro message hmessage hopen
      by_contra hunserved
      obtain ⟨rest, hmail⟩ : ∃ rest, system.mail = message :: rest := by
        cases hmail : system.mail with
        | nil => simp [hmail] at hmessage
        | cons first rest =>
            rw [hmail] at hmessage
            exact ⟨rest, by rw [Option.some.inj hmessage]⟩
      have hlost := DaemonState.settled_handleMessage_lt out order hunserved
      have hbefore := (h message.session hopen).length_eq
      rw [account_cons system hmail, List.length_append] at hbefore
      have hrest := hafter message.session
      simp only [System.step, hmail] at hrest
      have hlength := (hrest hopen).length_eq
      rw [List.length_append] at hlength
      have hsettled : (idsOf message.session
            (system.daemon.handleMessage out order message).answers ++
          idsOf message.session (waiting
            (system.daemon.handleMessage out order message).pendingPolls)).length =
          ((system.daemon.handleMessage out order message).settled message.session).length := rfl
      omega

/-- In every run, each request of an open connection is in the channel, pending or
answered, and each just once, as long as every message is served; a message that
is not served breaks this at once. -/
theorem exactly_once_responses (bridge : BridgeRuntime World) (steps : List (Step World)) :
    (∀ before, before <+: steps → (run out before (started bridge)).Accounted) ↔
      Library.Along (System.step out) Served steps (started bridge) := by
  constructor
  · intro haccounted
    by_contra hunserved
    obtain ⟨before, input, later, rfl, hstep⟩ :=
      Library.exists_step_of_not_along hunserved
    apply hstep
    refine served_of_accounted out (haccounted before (List.prefix_append _ _)) ?_
    have hafter := haccounted (before ++ [input]) ⟨later, by simp⟩
    rw [run, Library.runFrom_append] at hafter
    exact hafter
  · rintro hserved before ⟨later, rfl⟩
    have hbefore := (Library.along_append.mp hserved).1
    have hinv := hbefore.invariant (fun system => system.Accounted ∧ system.Orderly)
      (fun hinv hserves => ⟨hinv.1.step out hinv.2 hserves, hinv.2.step out _⟩)
      ⟨accounted_started bridge, orderly_started bridge⟩
    exact hinv.1

/-! ## Requests that stay unanswered -/

/-- A line of a Hermes session that polls with a timeout. -/
def pollLine (id : Nat) : Line :=
  .json (.object [("jsonrpc", .string "2.0"), ("id", .ofNat id),
    ("method", .string "tools/call"),
    ("params", .object [("name", .string "poll_events"),
      ("arguments", .object [("timeout_ms", .ofNat 1000)])])])

/-- A session says hello. -/
def greets : List (Step Unit) :=
  [.accept, .read 1 (.json (.object [("bridge", .string "hello"), ("agent", .string "hermes")])),
    .greet 1, .handle .ascending, .handle .ascending]

/-- A session that polls twice. -/
def pollsTwice : List (Step Unit) :=
  greets ++ [.read 1 (pollLine 1), .handle .ascending, .read 1 (pollLine 2),
    .handle .ascending]

/-- A session that polls, sends a line that is no JSON, and polls again. -/
def sendsInvalidLine : List (Step Unit) :=
  greets ++ [.read 1 (pollLine 1), .handle .ascending, .read 1 .invalid, .handle .ascending,
    .read 1 (pollLine 2), .handle .ascending]

/-- The second poll drops the first; an invalid line drops the poll that is pending,
and the requests after it are not served.  Both connections stay open. -/
theorem unanswered_requests :
    ¬(run Outside.idle pollsTwice (started (BridgeRuntime.opened () 0))).Accounted ∧
      ¬(run Outside.idle sendsInvalidLine (started (BridgeRuntime.opened () 0))).Accounted := by
  constructor
  · intro haccounted
    have hlength := (haccounted 1 (by decide +kernel)).length_eq
    revert hlength
    decide +kernel
  · intro haccounted
    have hlength := (haccounted 1 (by decide +kernel)).length_eq
    revert hlength
    decide +kernel

end System
end Daemon
end MicroEmu
