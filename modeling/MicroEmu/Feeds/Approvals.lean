import MicroEmu.Feeds.CodexState
import MicroEmu.Library.Results
import MicroEmu.Library.Runs
import Mathlib.Data.Set.Insert

/-!
# Open approvals and the turns of a thread

A card shows `waiting` while an escalated call of its thread has no result.  The calls are
kept apart from the turns, so the card tells of the current turn only if no turn starts or
ends while a call is open, and no call is issued outside a turn.

An observer of the rollout, which keeps the id of the running turn and the calls issued in
it, says what the card should show; the lifecycle is compared with it event by event.
-/

namespace MicroEmu
namespace Feeds

open Std
open Json (Value)
open Tasks (TaskState WalkOrder)
open Library (Along bind_eq_ok pure_eq_ok)

/-! ## The kinds of events -/

/-- What a rollout event tells about the turn and its calls. -/
inductive EventKind where
  | started (payload : Value)
  | ended (state : TaskState) (payload : Value)
  | asked (callId prompt : String)
  | answered (callId : String)
  | other

/-- The kind of a `response_item`. -/
def responseItemKind (payload : Value) : EventKind :=
  match strField payload "type" with
  | some "custom_tool_call" =>
      match strField payload "input", strField payload "call_id" with
      | some input, some callId =>
          if escalates input then .asked callId (approvalPrompt input) else .other
      | _, _ => .other
  | some "custom_tool_call_output" =>
      match strField payload "call_id" with
      | some callId => .answered callId
      | none => .other
  | _ => .other

/-- The kind of an `event_msg`. -/
def eventMsgKind (payload : Value) : EventKind :=
  match strField payload "type" with
  | some "task_started" => .started payload
  | some "task_complete" => .ended .completed payload
  | some "turn_aborted" => .ended .paused payload
  | _ => .other

/-- The kind of a rollout event. -/
def eventKind (value : Value) : EventKind :=
  match (value.get? "payload").filter fun payload => payload.asObject.isSome with
  | none => .other
  | some payload =>
      match strField value "type" with
      | some "response_item" => responseItemKind payload
      | some "event_msg" => eventMsgKind payload
      | _ => .other

namespace Lifecycle

variable (lifecycle : Lifecycle)

/-- All an event can do to a lifecycle. -/
def applyKind : EventKind → Lifecycle
  | .started payload => lifecycle.start payload
  -- neither a start nor an end touches the open calls
  | .ended state payload => lifecycle.finish state payload
  | .asked callId prompt =>
      { lifecycle with
        pendingApprovalCalls := lifecycle.pendingApprovalCalls.insert callId prompt }
  | .answered callId =>
      { lifecycle with pendingApprovalCalls := lifecycle.pendingApprovalCalls.erase callId }
  | .other => lifecycle

theorem applyResponseItem_eq (payload : Value) :
    lifecycle.applyResponseItem payload = lifecycle.applyKind (responseItemKind payload) := by
  by_cases hcall : strField payload "type" = some "custom_tool_call"
  · simp only [applyResponseItem, responseItemKind, hcall]
    cases strField payload "input" with
    | none => rfl
    | some input =>
        cases strField payload "call_id" with
        | none => simp only [ite_self, applyKind]
        | some callId =>
            by_cases hescalates : escalates input = true
            · simp only [hescalates, if_true, applyKind]
            · simp only [hescalates, if_false, applyKind, Bool.false_eq_true]
  by_cases houtput : strField payload "type" = some "custom_tool_call_output"
  · simp only [applyResponseItem, responseItemKind, houtput]
    cases strField payload "call_id" <;> rfl
  simp only [applyResponseItem, responseItemKind, applyKind]

theorem applyEventMsg_eq (payload : Value) :
    lifecycle.applyEventMsg payload = lifecycle.applyKind (eventMsgKind payload) := by
  by_cases hstarted : strField payload "type" = some "task_started"
  · simp only [applyEventMsg, eventMsgKind, hstarted, applyKind]
  by_cases hcomplete : strField payload "type" = some "task_complete"
  · simp only [applyEventMsg, eventMsgKind, hcomplete, applyKind]
  by_cases haborted : strField payload "type" = some "turn_aborted"
  · simp only [applyEventMsg, eventMsgKind, haborted, applyKind]
  simp only [applyEventMsg, eventMsgKind, applyKind]

/-- An event does what its kind says. -/
theorem applyLifecycleEvent_eq (value : Value) :
    lifecycle.applyLifecycleEvent value = lifecycle.applyKind (eventKind value) := by
  cases hpayload : (value.get? "payload").filter fun payload => payload.asObject.isSome with
  | none => simp only [applyLifecycleEvent, eventKind, hpayload, applyKind]
  | some payload =>
      by_cases hitem : strField value "type" = some "response_item"
      · simp only [applyLifecycleEvent, eventKind, hpayload, hitem]
        exact applyResponseItem_eq lifecycle payload
      by_cases hmsg : strField value "type" = some "event_msg"
      · simp only [applyLifecycleEvent, eventKind, hpayload, hmsg]
        exact applyEventMsg_eq lifecycle payload
      simp only [applyLifecycleEvent, eventKind, hpayload, applyKind]

end Lifecycle

/-! ## The observer -/

/-- A turn that is running, with its id if its start names one. -/
structure RunningTurn where
  id : Option String

/-- A terminal event ends the turn, unless it names another one. -/
def RunningTurn.endedBy (running : RunningTurn) (payload : Value) : Bool :=
  !differ running.id (payloadTurnId payload)

/-- What an observer of the thread knows: the turn that is running, and the escalated calls
issued in it that have no answer. -/
structure Turn where
  current : Option RunningTurn
  unanswered : Set String

namespace Turn

/-- Before the first turn. -/
def initial : Turn := ⟨none, ∅⟩

/-- A turn is running, and the terminal event ends it. -/
def endedBy (turn : Turn) (payload : Value) : Bool := turn.current.any (·.endedBy payload)

/-- What an event changes. -/
def observe (turn : Turn) : EventKind → Turn
  | .started payload => ⟨some ⟨payloadTurnId payload⟩, ∅⟩
  | .ended _ payload => bif turn.endedBy payload then ⟨none, ∅⟩ else turn
  | .asked callId _ => ⟨turn.current,
      {id | id ∈ turn.unanswered ∨ id = callId ∧ turn.current.isSome = true}⟩
  | .answered callId => ⟨turn.current, turn.unanswered \ {callId}⟩
  | .other => turn

end Turn

/-- A lifecycle and the observer beside it. -/
structure Thread where
  lifecycle : Lifecycle
  turn : Turn

namespace Thread

/-- A thread without events. -/
def initial : Thread := ⟨{}, .initial⟩

/-- The next event of the rollout. -/
def next (thread : Thread) (value : Value) : Thread where
  lifecycle := thread.lifecycle.applyLifecycleEvent value
  turn := thread.turn.observe (eventKind value)

/-- The card shows `waiting` only while a turn is running and a call issued in it is
unanswered. -/
def ShowsTurn (thread : Thread) : Prop :=
  thread.lifecycle.derivedState = .waiting →
    thread.turn.current.isSome = true ∧ thread.turn.unanswered.Nonempty

/-- The next event neither starts a turn nor ends the running one while a call is open, and
issues no call outside a turn. -/
def Settled (thread : Thread) (value : Value) : Prop :=
  match eventKind value with
  | .started _ => thread.lifecycle.pendingApprovalCalls.isEmpty = true
  | .ended _ payload => thread.turn.endedBy payload = true →
      thread.lifecycle.pendingApprovalCalls.isEmpty = true
  | .asked _ _ => thread.turn.current.isSome = true
  | .answered _ | .other => True

end Thread

/-! ## Events one by one -/

namespace Lifecycle

variable {lifecycle : Lifecycle}

/-- A terminal event leaves the state, or one of its own. -/
theorem state_finish (state : TaskState) (payload : Value) :
    (lifecycle.finish state payload).state = lifecycle.state ∨
      (lifecycle.finish state payload).state = some state := by
  unfold finish
  simp only []
  split
  · exact .inl rfl
  · exact .inr rfl

theorem pendingApprovalCalls_finish (state : TaskState) (payload : Value) :
    (lifecycle.finish state payload).pendingApprovalCalls = lifecycle.pendingApprovalCalls := by
  unfold finish
  simp only []
  split <;> rfl

theorem pending_isEmpty_iff :
    lifecycle.pendingApprovalCalls.isEmpty = true ↔
      ∀ id : String, id ∉ lifecycle.pendingApprovalCalls :=
  ExtTreeMap.isEmpty_iff.trans ExtTreeMap.eq_empty_iff_forall_not_mem

/-- A card waits exactly while a call is open, as long as no turn leaves it waiting. -/
theorem derivedState_eq_waiting_iff (h : lifecycle.state ≠ some .waiting) :
    lifecycle.derivedState = .waiting ↔ ∃ id : String, id ∈ lifecycle.pendingApprovalCalls := by
  rw [derivedState]
  split
  · rename_i hempty
    have hnone := pending_isEmpty_iff.mp hempty
    constructor
    · intro hwaiting
      cases hstate : lifecycle.state with
      | none =>
          rw [hstate] at hwaiting
          cases hwaiting
      | some state =>
          rw [hstate] at h hwaiting
          exact absurd (congrArg some hwaiting) h
    · rintro ⟨id, hid⟩
      exact absurd hid (hnone id)
  · rename_i hopen
    have hsome : ∃ id : String, id ∈ lifecycle.pendingApprovalCalls := by
      by_contra hnone
      exact hopen (pending_isEmpty_iff.mpr fun id hid => hnone ⟨id, hid⟩)
    exact ⟨fun _ => hsome, fun _ => rfl⟩

end Lifecycle

namespace Thread

variable {thread : Thread}

/-- A step is the step of the event's kind. -/
theorem next_eq (value : Value) :
    thread.next value = ⟨thread.lifecycle.applyKind (eventKind value),
      thread.turn.observe (eventKind value)⟩ := by
  rw [next, Lifecycle.applyLifecycleEvent_eq]

/-- No turn leaves the card waiting. -/
def NeverWaits (thread : Thread) : Prop := thread.lifecycle.state ≠ some .waiting

/-- Every open call was issued in the running turn. -/
structure Current (thread : Thread) : Prop where
  neverWaits : thread.NeverWaits
  calls : ∀ id : String, id ∈ thread.lifecycle.pendingApprovalCalls ↔
    id ∈ thread.turn.unanswered
  turn : ∀ id : String, id ∈ thread.turn.unanswered → thread.turn.current.isSome = true

theorem initial_current : initial.Current where
  neverWaits h := by cases h
  calls id := iff_of_false ExtTreeMap.not_mem_empty (Set.notMem_empty id)
  turn id h := absurd h (Set.notMem_empty id)

/-- The kinds of a terminal event leave states of their own. -/
theorem eventKind_ended {value payload : Value} {state : TaskState}
    (h : eventKind value = .ended state payload) : state = .completed ∨ state = .paused := by
  unfold eventKind at h
  split at h
  · cases h
  · split at h
    · unfold responseItemKind at h
      split at h
      · split at h
        · split at h <;> cases h
        · cases h
      · split at h <;> cases h
      · cases h
    · unfold eventMsgKind at h
      split at h
      · cases h
      · cases h
        exact .inl rfl
      · cases h
        exact .inr rfl
      · cases h
    · cases h

theorem NeverWaits.next (h : thread.NeverWaits) (value : Value) :
    (thread.next value).NeverWaits := by
  rw [next_eq, NeverWaits]
  cases hkind : eventKind value with
  | started payload => exact fun hstate => by cases hstate
  | ended state payload =>
      rcases thread.lifecycle.state_finish state payload with hsame | hended
      · exact hsame ▸ h
      · simp only [Lifecycle.applyKind, hended]
        rcases eventKind_ended hkind with rfl | rfl <;> simp
  | asked callId prompt => exact h
  | answered callId => exact h
  | other => exact h

/-- While every open call belongs to the running turn, the card tells of that turn. -/
theorem Current.showsTurn (h : thread.Current) : thread.ShowsTurn := by
  intro hwaiting
  obtain ⟨id, hid⟩ := (Lifecycle.derivedState_eq_waiting_iff h.neverWaits).mp hwaiting
  have hcall := (h.calls id).mp hid
  exact ⟨h.turn id hcall, id, hcall⟩

/-- A settled event keeps every open call in the running turn. -/
theorem Current.next (h : thread.Current) {value : Value} (hsettled : thread.Settled value) :
    (thread.next value).Current := by
  refine ⟨h.neverWaits.next value, ?_, ?_⟩
  all_goals rw [next_eq]
  all_goals simp only [Settled] at hsettled
  · intro id
    cases hkind : eventKind value with
    | started payload =>
        rw [hkind] at hsettled
        exact iff_of_false (Lifecycle.pending_isEmpty_iff.mp hsettled id) (Set.notMem_empty id)
    | ended state payload =>
        rw [hkind] at hsettled
        simp only [Lifecycle.applyKind, Lifecycle.pendingApprovalCalls_finish, Turn.observe]
        cases hended : thread.turn.endedBy payload with
        | false => exact h.calls id
        | true =>
            have hempty := Lifecycle.pending_isEmpty_iff.mp (hsettled hended)
            exact iff_of_false (hempty id) (Set.notMem_empty id)
    | asked callId prompt =>
        rw [hkind] at hsettled
        simp only [Lifecycle.applyKind, Turn.observe, ExtTreeMap.mem_insert,
          Std.compare_eq_iff_eq, h.calls id]
        show callId = id ∨ _ ↔
          id ∈ thread.turn.unanswered ∨ id = callId ∧ thread.turn.current.isSome = true
        rw [or_comm, eq_comm, and_iff_left hsettled]
    | answered callId =>
        simp only [Lifecycle.applyKind, Turn.observe, ExtTreeMap.mem_erase, ne_eq,
          Std.compare_eq_iff_eq, h.calls id]
        show ¬callId = id ∧ _ ↔ id ∈ thread.turn.unanswered ∧ ¬id = callId
        rw [and_comm, eq_comm]
    | other => exact h.calls id
  · intro id
    cases hkind : eventKind value with
    | started payload => exact fun hid => absurd hid (Set.notMem_empty id)
    | ended state payload =>
        simp only [Turn.observe]
        cases thread.turn.endedBy payload with
        | false => exact h.turn id
        | true => exact fun hid => absurd hid (Set.notMem_empty id)
    | asked callId prompt =>
        rintro (hid | ⟨-, hrunning⟩)
        · exact h.turn id hid
        · exact hrunning
    | answered callId => exact fun hid => h.turn id hid.1
    | other => exact h.turn id

/-- An event after which the card tells of the turn was settled. -/
theorem NeverWaits.settled (h : thread.NeverWaits) {value : Value}
    (hshows : (thread.next value).ShowsTurn) : thread.Settled value := by
  have hwaiting := Lifecycle.derivedState_eq_waiting_iff (h.next value)
  rw [ShowsTurn, hwaiting, next_eq] at hshows
  unfold Settled
  cases hkind : eventKind value with
  | started payload =>
      rw [hkind] at hshows
      refine Lifecycle.pending_isEmpty_iff.mpr fun id hid => ?_
      exact Set.not_nonempty_empty (hshows ⟨id, hid⟩).2
  | ended state payload =>
      intro hended
      rw [hkind] at hshows
      simp only [Lifecycle.applyKind, Lifecycle.pendingApprovalCalls_finish, Turn.observe,
        hended, cond_true] at hshows
      refine Lifecycle.pending_isEmpty_iff.mpr fun id hid => ?_
      exact Set.not_nonempty_empty (hshows ⟨id, hid⟩).2
  | asked callId prompt =>
      rw [hkind] at hshows
      exact (hshows ⟨callId, ExtTreeMap.mem_insert_self⟩).1
  | answered callId => trivial
  | other => trivial

end Thread

/-! ## The cards -/

/-- The card of a snapshot carries the derived state of the thread's lifecycle. -/
theorem codexTask_state {order : WalkOrder} {world : CodexWorld} {row : ThreadRow}
    {sourceSlot : Nat} {lifecycle : Lifecycle} {task : Value}
    (h : codexTask order world row sourceSlot lifecycle = .ok task) :
    strField task "state" = some lifecycle.derivedState.asStr := by
  have hopen : (order.values lifecycle.pendingApprovalCalls).head?.isSome =
      !lifecycle.pendingApprovalCalls.isEmpty := by
    cases hhead : order.values lifecycle.pendingApprovalCalls with
    | nil =>
        have hempty : lifecycle.pendingApprovalCalls.isEmpty = true := by
          refine Lifecycle.pending_isEmpty_iff.mpr fun id hid => ?_
          obtain ⟨prompt, hprompt⟩ := ExtTreeMap.mem_iff_isSome_getElem?.mp hid |>
            Option.isSome_iff_exists.mp
          have hmem := order.mem_values.mpr ⟨id, hprompt⟩
          rw [hhead] at hmem
          cases hmem
        rw [hempty]
        rfl
    | cons prompt prompts =>
        have hmem : prompt ∈ order.values lifecycle.pendingApprovalCalls := by
          rw [hhead]
          exact List.mem_cons_self
        obtain ⟨id, hid⟩ := order.mem_values.mp hmem
        have hsome : id ∈ lifecycle.pendingApprovalCalls :=
          ExtTreeMap.mem_iff_isSome_getElem?.mpr (by rw [hid]; rfl)
        have hopen : lifecycle.pendingApprovalCalls.isEmpty = false := by
          rw [← Bool.not_eq_true]
          exact fun hempty => Lifecycle.pending_isEmpty_iff.mp hempty id hsome
        rw [hopen]
        rfl
  unfold codexTask at h
  simp only [hopen] at h
  obtain ⟨startedAt, -, h⟩ := bind_eq_ok.mp h
  obtain ⟨finishedAt, -, h⟩ := bind_eq_ok.mp h
  obtain rfl := pure_eq_ok.mp h
  show some _ = some _
  rw [Lifecycle.derivedState]
  cases lifecycle.pendingApprovalCalls.isEmpty <;> rfl

/-- The lifecycles of the rows of a snapshot, as their rollouts are read one after another. -/
def rowLifecycles (fromStr : String → Option Value) (world : CodexWorld) :
    List ThreadRow → CodexStateCache → List Lifecycle
  | [], _ => []
  | row :: rows, cache =>
      let (lifecycle, cache) := refreshRollout fromStr cache row.threadId row.rolloutPath
        (world.files row.rolloutPath)
      lifecycle :: rowLifecycles fromStr world rows cache

/-- The cards are those of the rows, and show the states derived from their lifecycles. -/
def ShowsStates (tasks : List Value) (rows : List ThreadRow) (lifecycles : List Lifecycle) :
    Prop :=
  tasks.map (strField · "task_id") = rows.map (fun row => some row.threadId) ∧
    tasks.map (strField · "state") =
      lifecycles.map fun lifecycle => some lifecycle.derivedState.asStr

theorem codexTask_taskId {order : WalkOrder} {world : CodexWorld} {row : ThreadRow}
    {sourceSlot : Nat} {lifecycle : Lifecycle} {task : Value}
    (h : codexTask order world row sourceSlot lifecycle = .ok task) :
    strField task "task_id" = some row.threadId := by
  unfold codexTask at h
  obtain ⟨startedAt, -, h⟩ := bind_eq_ok.mp h
  obtain ⟨finishedAt, -, h⟩ := bind_eq_ok.mp h
  obtain rfl := pure_eq_ok.mp h
  rfl

theorem codexTasks_showsStates (order : WalkOrder) (fromStr : String → Option Value)
    (world : CodexWorld) {rows : List (Option ThreadRow)} {sourceSlot : Nat}
    {cache after : CodexStateCache} {tasks : List Value}
    (h : codexTasks order fromStr world rows sourceSlot cache = (.ok (some tasks), after)) :
    ∃ found, rows = found.map some ∧
      ShowsStates tasks found (rowLifecycles fromStr world found cache) := by
  induction rows generalizing sourceSlot cache after tasks with
  | nil =>
      obtain rfl : tasks = [] := by
        simp only [codexTasks, Prod.mk.injEq, Except.ok.injEq, Option.some.injEq] at h
        exact h.1.symm
      exact ⟨[], rfl, rfl, rfl⟩
  | cons row rows ih =>
      cases row with
      | none =>
          simp only [codexTasks, Prod.mk.injEq, Except.ok.injEq] at h
          cases h.1
      | some row =>
          simp only [codexTasks] at h
          split at h
          · simp only [Prod.mk.injEq] at h
            cases h.1
          · rename_i task htask
            split at h
            · rename_i later last hlater
              obtain ⟨found, rfl, hids, hstates⟩ := ih hlater
              simp only [Prod.mk.injEq, Except.ok.injEq, Option.some.injEq] at h
              obtain ⟨rfl, -⟩ := h
              refine ⟨row :: found, rfl, ?_, ?_⟩
              · rw [List.map_cons, List.map_cons, codexTask_taskId htask, hids]
              · rw [rowLifecycles, List.map_cons, List.map_cons, codexTask_state htask, hstates]
            · rename_i hfailed
              exact absurd h (hfailed tasks after)

/-- The cards of a snapshot show the states derived from the lifecycles of its rows. -/
theorem readCodexSnapshot_showsStates (order : WalkOrder) (fromStr : String → Option Value)
    (world : CodexWorld) {cache after : CodexStateCache} {snapshot : Value}
    (h : readCodexSnapshot order fromStr world cache = (.ok (some snapshot), after)) :
    ∃ tasks found, snapshot.get? "tasks" = some (.array tasks) ∧ world.rows = found.map some ∧
      ShowsStates tasks found (rowLifecycles fromStr world found cache) := by
  simp only [readCodexSnapshot] at h
  split at h
  · simp only [Prod.mk.injEq] at h
    cases h.1
  · simp only [Prod.mk.injEq, Except.ok.injEq] at h
    cases h.1
  · rename_i tasks last htasks
    obtain ⟨found, hrows, hshown⟩ := codexTasks_showsStates order fromStr world htasks
    simp only [Prod.mk.injEq, Except.ok.injEq, Option.some.injEq] at h
    obtain ⟨rfl, -⟩ := h
    exact ⟨tasks, found, rfl, hrows, hshown⟩

/-! ## Runs -/

/-- The thread after the events of its rollout. -/
def observeAll (events : List Value) : Thread :=
  Library.runFrom Thread.next events .initial

theorem neverWaits_observeAll (events : List Value) : (observeAll events).NeverWaits :=
  Library.runFrom_invariant Thread.NeverWaits (fun value h => h.next value)
    Thread.initial_current.neverWaits

/-- The card of a thread shows `waiting` only while the current turn is running and a call
issued in it is unanswered, after every event of a rollout, exactly if no turn starts or ends
while a call is open and no call is issued outside a turn.  The cards of a snapshot show the
states derived from the lifecycles of their rollouts. -/
theorem showsTurn_iff_settled (events : List Value) :
    ((∀ seen, seen <+: events → (observeAll seen).ShowsTurn) ↔
      Along Thread.next Thread.Settled events .initial) ∧
    ∀ order fromStr world cache snapshot after,
      readCodexSnapshot order fromStr world cache = (.ok (some snapshot), after) →
      ∃ tasks found, snapshot.get? "tasks" = some (.array tasks) ∧
        world.rows = found.map some ∧
        ShowsStates tasks found (rowLifecycles fromStr world found cache) := by
  refine ⟨⟨?_, ?_⟩, fun order fromStr world _ _ _ =>
    readCodexSnapshot_showsStates order fromStr world⟩
  · intro hshows
    by_contra hunsettled
    obtain ⟨before, value, later, rfl, hfound⟩ :=
      Library.exists_step_of_not_along hunsettled
    -- the first unsettled event leaves a card that does not tell of the turn
    have hnext : (observeAll (before ++ [value])).ShowsTurn :=
      hshows _ ⟨later, by rw [List.append_assoc, List.singleton_append]⟩
    rw [observeAll, Library.runFrom_append] at hnext
    exact hfound ((neverWaits_observeAll before).settled hnext)
  · rintro hsettled seen ⟨later, rfl⟩
    have hseen := (Library.along_append.mp hsettled).1
    exact (hseen.invariant Thread.Current (fun h hstep => h.next hstep)
      Thread.initial_current).showsTurn

/-- A turn, an escalated call of it, and the end of the turn, which gives its start, before
the call has a result. -/
def abortedApproval (startedAt : Nat) : List Value :=
  [.object [("type", .string "event_msg"),
      ("payload", .object [("type", .string "task_started"), ("turn_id", .string "turn-1"),
        ("started_at", .ofNat 100)])],
    .object [("type", .string "response_item"),
      ("payload", .object [("type", .string "custom_tool_call"), ("call_id", .string "approval-1"),
        ("input", .string "sandbox_permissions: require_escalated")])],
    .object [("type", .string "event_msg"),
      ("payload", .object [("type", .string "turn_aborted"), ("turn_id", .string "turn-1"),
        ("started_at", .ofNat startedAt), ("completed_at", .ofNat 145)])]]

/-- The card waits behind the end of the turn, whether the end gives the start of the turn or
another one, for which the lifecycle takes it for stale. -/
theorem not_showsTurn_abortedApproval :
    (¬∀ seen, seen <+: abortedApproval 100 → (observeAll seen).ShowsTurn) ∧
      ¬∀ seen, seen <+: abortedApproval 101 → (observeAll seen).ShowsTurn := by
  have hleft : ((observeAll (abortedApproval 100)).lifecycle.derivedState = .waiting ∧
      (observeAll (abortedApproval 100)).turn.current.isSome = false) ∧
      (observeAll (abortedApproval 101)).lifecycle.derivedState = .waiting ∧
      (observeAll (abortedApproval 101)).turn.current.isSome = false := by
    decide +kernel
  obtain ⟨⟨hwaiting, hended⟩, hwaiting', hended'⟩ := hleft
  constructor
  · intro h
    have hrunning := (h _ (List.prefix_refl _) hwaiting).1
    rw [hended] at hrunning
    cases hrunning
  · intro h
    have hrunning := (h _ (List.prefix_refl _) hwaiting').1
    rw [hended'] at hrunning
    cases hrunning

end Feeds
end MicroEmu
