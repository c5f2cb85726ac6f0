import MicroEmu.Feeds.Approvals

/-!
# Turns that end late

The terminal event of an old turn may come after a newer turn has started.  As long as the events
carry the id of their turn, and the events of one turn the same start, the lifecycle is always
that of the turn that has started last: only its own terminal events end it.
-/

namespace MicroEmu
namespace Feeds

open Json (Value)
open Tasks (TaskState)
open Library (runFrom runFrom_append)

/-! ## Events of turns -/

/-- What an event that starts or ends a turn says about it. -/
def EventKind.turnPayload : EventKind → Option Value
  | .started payload => some payload
  | .ended _ payload => some payload
  | _ => none

/-- The event carries the id of its turn, and the start that goes with the id. -/
def Labelled (startedAt : String → Option Nat) (value : Value) : Prop :=
  ∀ payload, (eventKind value).turnPayload = some payload →
    ∃ id, payloadTurnId payload = some id ∧ payloadMillis payload "started_at" = startedAt id

/-- The event starts a turn. -/
def IsStart (value : Value) : Prop := ∃ payload, eventKind value = .started payload

/-- The event starts the turn. -/
def Starts (id : String) (value : Value) : Prop :=
  ∃ payload, eventKind value = .started payload ∧ payloadTurnId payload = some id

/-- The event ends the turn, in the state. -/
def Ends (id : String) (state : TaskState) (finishedAt : Option Nat) (value : Value) : Prop :=
  ∃ payload, eventKind value = .ended state payload ∧ payloadTurnId payload = some id ∧
    payloadMillis payload "completed_at" = finishedAt

/-- The state and the finish that a terminal event of the turn gives it. -/
def endOf (id : String) (value : Value) : Option (TaskState × Option Nat) :=
  match eventKind value with
  | .ended state payload =>
      if payloadTurnId payload = some id then
        some (state, payloadMillis payload "completed_at")
      else none
  | _ => none

theorem endOf_eq_some_iff {id : String} {value : Value} {state : TaskState}
    {finishedAt : Option Nat} :
    endOf id value = some (state, finishedAt) ↔ Ends id state finishedAt value := by
  unfold endOf Ends
  cases hkind : eventKind value with
  | ended ended payload =>
      by_cases hid : payloadTurnId payload = some id
      · simp [hid]
      · simp [hid]
  | started | asked | answered | other => simp

/-! ## The turn that has started last -/

/-- The lifecycle is that of a turn with these ends, oldest first. -/
structure OfTurn (startedAt : String → Option Nat) (id : String)
    (ends : List (TaskState × Option Nat)) (lifecycle : Lifecycle) : Prop where
  turn : lifecycle.activeTurnId = some id
  started : lifecycle.startedAtMs = startedAt id
  state : lifecycle.state = some ((ends.getLast?.map Prod.fst).getD .running)
  finished : lifecycle.finishedAtMs = ends.getLast?.bind Prod.snd

theorem differ_self {α : Type} [DecidableEq α] (value : Option α) : differ value value = false := by
  cases value with
  | none => rfl
  | some value => simp [differ]

namespace OfTurn

variable {startedAt : String → Option Nat} {id : String} {ends : List (TaskState × Option Nat)}
  {lifecycle : Lifecycle} {value : Value}

/-- The start of a turn forgets the turns before. -/
theorem of_starts (lifecycle : Lifecycle) (hstarts : Starts id value)
    (hlabelled : Labelled startedAt value) :
    OfTurn startedAt id [] (lifecycle.applyLifecycleEvent value) := by
  obtain ⟨payload, hkind, hid⟩ := hstarts
  obtain ⟨own, hown, hstarted⟩ := hlabelled payload (by rw [hkind]; rfl)
  obtain rfl : own = id := Option.some.inj (hown.symm.trans hid)
  rw [lifecycle.applyLifecycleEvent_eq, hkind]
  exact ⟨hid, hstarted, rfl, rfl⟩

/-- A terminal event of the turn is not stale. -/
theorem not_stale (h : OfTurn startedAt id ends lifecycle) {payload : Value}
    (hid : payloadTurnId payload = some id)
    (hstarted : payloadMillis payload "started_at" = startedAt id) :
    terminalEventIsStale lifecycle (payloadTurnId payload)
      (payloadMillis payload "started_at") = false := by
  unfold terminalEventIsStale
  rw [h.turn, h.started, hid, hstarted, differ_self, differ_self]
  rfl

/-- A terminal event of another turn is. -/
theorem stale (h : OfTurn startedAt id ends lifecycle) {payload : Value} {other : String}
    (hid : payloadTurnId payload = some other) (hne : other ≠ id) :
    terminalEventIsStale lifecycle (payloadTurnId payload)
      (payloadMillis payload "started_at") = true := by
  unfold terminalEventIsStale
  rw [h.turn, hid]
  simp [differ, Ne.symm hne]

/-- A terminal event of another turn changes nothing. -/
theorem ended_other (h : OfTurn startedAt id ends lifecycle) {other : String}
    {state : TaskState} {finishedAt : Option Nat} (hends : Ends other state finishedAt value)
    (hne : other ≠ id) : lifecycle.applyLifecycleEvent value = lifecycle := by
  obtain ⟨payload, hkind, hid, -⟩ := hends
  rw [lifecycle.applyLifecycleEvent_eq, hkind]
  exact if_pos (h.stale hid hne)

/-- An event that starts no turn adds at most an end of this one. -/
theorem next (h : OfTurn startedAt id ends lifecycle) (hlabelled : Labelled startedAt value)
    (hnone : ¬IsStart value) : OfTurn startedAt id (ends ++ (endOf id value).toList)
      (lifecycle.applyLifecycleEvent value) := by
  have hquiet (hend : endOf id value = none)
      (hsame : ∃ calls, lifecycle.applyLifecycleEvent value =
        { lifecycle with pendingApprovalCalls := calls }) :
      OfTurn startedAt id (ends ++ (endOf id value).toList)
        (lifecycle.applyLifecycleEvent value) := by
    obtain ⟨calls, hcalls⟩ := hsame
    rw [hend, hcalls, Option.toList_none, List.append_nil]
    exact ⟨h.turn, h.started, h.state, h.finished⟩
  have happly := lifecycle.applyLifecycleEvent_eq value
  cases hkind : eventKind value with
  | started payload => exact absurd ⟨payload, hkind⟩ hnone
  | ended state payload =>
      obtain ⟨own, hown, hstarted⟩ := hlabelled payload (by rw [hkind]; rfl)
      by_cases hid : own = id
      · subst hid
        have hend : endOf own value = some (state, payloadMillis payload "completed_at") :=
          endOf_eq_some_iff.mpr ⟨payload, hkind, hown, rfl⟩
        have hstale := h.not_stale hown hstarted
        rw [happly, hkind, hend]
        simp only [Lifecycle.applyKind, Lifecycle.finish, hstale, Bool.false_eq_true, if_false]
        refine ⟨?_, ?_, ?_, ?_⟩
        · simp [hown]
        · simp [hstarted, h.started]
        · simp
        · simp
      · refine hquiet ?_ ⟨lifecycle.pendingApprovalCalls, ?_⟩
        · simp [endOf, hkind, hown, hid]
        · exact h.ended_other ⟨payload, hkind, hown, rfl⟩ hid
  | asked callId prompt =>
      exact hquiet (by simp [endOf, hkind]) ⟨_, happly.trans (by rw [hkind]; rfl)⟩
  | answered callId =>
      exact hquiet (by simp [endOf, hkind]) ⟨_, happly.trans (by rw [hkind]; rfl)⟩
  | other => exact hquiet (by simp [endOf, hkind]) ⟨_, happly.trans (by rw [hkind]; rfl)⟩

/-- The events after the start of a turn, none of which starts another. -/
theorem run (h : OfTurn startedAt id ends lifecycle) {events : List Value}
    (hlabelled : ∀ value ∈ events, Labelled startedAt value)
    (hnone : ∀ value ∈ events, ¬IsStart value) :
    OfTurn startedAt id (ends ++ events.filterMap (endOf id))
      (runFrom Lifecycle.applyLifecycleEvent events lifecycle) := by
  induction events generalizing ends lifecycle with
  | nil =>
      rw [List.filterMap_nil, List.append_nil]
      exact h
  | cons value events ih =>
      have hnext := h.next (hlabelled value List.mem_cons_self) (hnone value List.mem_cons_self)
      have hrest := ih hnext (fun later hlater => hlabelled later (List.mem_cons_of_mem _ hlater))
        fun later hlater => hnone later (List.mem_cons_of_mem _ hlater)
      have hends : (value :: events).filterMap (endOf id) =
          (endOf id value).toList ++ events.filterMap (endOf id) := by
        cases hend : endOf id value <;> simp [hend]
      rw [hends, ← List.append_assoc]
      exact hrest

/-- The turn has ended exactly if it has an end. -/
theorem ended_iff (h : OfTurn startedAt id ends lifecycle)
    (hends : ∀ entry ∈ ends, entry.1 = .completed ∨ entry.1 = .paused) :
    (lifecycle.state = some .completed ∨ lifecycle.state = some .paused) ↔ ends ≠ [] := by
  rw [h.state]
  cases hlast : ends.getLast? with
  | none =>
      rw [List.getLast?_eq_none_iff] at hlast
      simp [hlast]
  | some entry =>
      have hmem := List.mem_of_getLast? hlast
      have hne : ends ≠ [] := List.ne_nil_of_mem hmem
      rcases hends entry hmem with hstate | hstate
      · simp [hstate, hne]
      · simp [hstate, hne]

end OfTurn

/-! ## Histories -/

/-- A history in which a turn starts has a last start. -/
theorem exists_last_start {events : List Value} (h : ∃ value ∈ events, IsStart value) :
    ∃ before start after, events = before ++ start :: after ∧ IsStart start ∧
      ∀ value ∈ after, ¬IsStart value := by
  induction events using List.reverseRecOn with
  | nil =>
      obtain ⟨value, hmem, -⟩ := h
      cases hmem
  | append_singleton events last ih =>
      by_cases hlast : IsStart last
      · exact ⟨events, last, [], rfl, hlast, fun _ hmem => nomatch hmem⟩
      · obtain ⟨value, hmem, hstart⟩ := h
        rcases List.mem_append.mp hmem with hbefore | hself
        · obtain ⟨before, start, after, rfl, hfound, hnone⟩ := ih ⟨value, hbefore, hstart⟩
          refine ⟨before, start, after ++ [last], by simp, hfound, ?_⟩
          intro later hlater
          rcases List.mem_append.mp hlater with hold | hnew
          · exact hnone later hold
          · rw [List.mem_singleton.mp hnew]
            exact hlast
        · rw [List.mem_singleton.mp hself] at hstart
          exact absurd hstart hlast

/-- After every prefix with a start, the lifecycle is that of the turn that has started last, with
its start and the last of its own ends; it has ended exactly if one of its own terminal events
has come since, and a terminal event of another turn changes nothing. -/
theorem lifecycle_of_last_turn (startedAt : String → Option Nat) (lifecycle : Lifecycle)
    {events : List Value} (hlabelled : ∀ value ∈ events, Labelled startedAt value)
    {history : List Value} (hfront : history <+: events)
    (hstarted : ∃ value ∈ history, IsStart value) :
    let reached := runFrom Lifecycle.applyLifecycleEvent history lifecycle
    ∃ before start after id, history = before ++ start :: after ∧ Starts id start ∧
      (∀ value ∈ after, ¬IsStart value) ∧
      OfTurn startedAt id (after.filterMap (endOf id)) reached ∧
      ((reached.state = some .completed ∨ reached.state = some .paused) ↔
        ∃ value ∈ after, ∃ state finishedAt, Ends id state finishedAt value) ∧
      ∀ value other state finishedAt, other ≠ id → Ends other state finishedAt value →
        reached.applyLifecycleEvent value = reached := by
  obtain ⟨before, start, after, rfl, ⟨payload, hkind⟩, hnone⟩ := exists_last_start hstarted
  have hall : ∀ value ∈ before ++ start :: after, Labelled startedAt value := fun value hmem =>
    hlabelled value (hfront.subset hmem)
  have hstartLabel := hall start (by simp)
  obtain ⟨id, hid, -⟩ := hstartLabel payload (by rw [hkind]; rfl)
  have hturn : OfTurn startedAt id (after.filterMap (endOf id))
      (runFrom Lifecycle.applyLifecycleEvent (before ++ start :: after) lifecycle) := by
    have hbegun := OfTurn.of_starts (runFrom Lifecycle.applyLifecycleEvent before lifecycle)
      ⟨payload, hkind, hid⟩ hstartLabel
    have hafter : ∀ value ∈ after, Labelled startedAt value := fun value hmem =>
      hall value (by simp [hmem])
    have hrun := hbegun.run hafter hnone
    rw [List.nil_append] at hrun
    rw [runFrom_append]
    exact hrun
  have hends : ∀ entry ∈ after.filterMap (endOf id),
      entry.1 = .completed ∨ entry.1 = .paused := by
    intro entry hentry
    obtain ⟨value, -, hend⟩ := List.mem_filterMap.mp hentry
    obtain ⟨endPayload, hended, -⟩ := endOf_eq_some_iff.mp hend
    exact Thread.eventKind_ended hended
  refine ⟨before, start, after, id, rfl, ⟨payload, hkind, hid⟩, hnone, hturn, ?_, ?_⟩
  · rw [hturn.ended_iff hends]
    constructor
    · intro hne
      obtain ⟨entry, hentry⟩ := List.exists_mem_of_ne_nil _ hne
      obtain ⟨value, hmem, hend⟩ := List.mem_filterMap.mp hentry
      exact ⟨value, hmem, entry.1, entry.2, endOf_eq_some_iff.mp hend⟩
    · rintro ⟨value, hmem, state, finishedAt, hend⟩
      exact List.ne_nil_of_mem (List.mem_filterMap.mpr ⟨value, hmem, endOf_eq_some_iff.mpr hend⟩)
  · intro value other state finishedAt hne hend
    exact hturn.ended_other hend hne

/-- An event of a turn as a rollout has it. -/
def turnEvent (type id : String) (startedAt : Nat) : Value :=
  .object [("type", .string "event_msg"), ("payload", .object [("type", .string type),
    ("turn_id", .string id), ("started_at", .ofNat startedAt), ("completed_at", .ofNat 250)])]

/-- The end of the old turn comes after the start of the new one. -/
def lateEnd : List Value :=
  [turnEvent "task_started" "turn-old" 100, turnEvent "task_started" "turn-new" 200,
    turnEvent "task_complete" "turn-old" 100]

theorem lifecycle_of_last_turn_lateEnd :
    let reached := runFrom Lifecycle.applyLifecycleEvent lateEnd {}
    ∃ before start after id, lateEnd = before ++ start :: after ∧ Starts id start ∧
      (∀ value ∈ after, ¬IsStart value) ∧
      OfTurn (fun id => if id = "turn-old" then some 100000 else some 200000) id
        (after.filterMap (endOf id)) reached ∧
      ((reached.state = some .completed ∨ reached.state = some .paused) ↔
        ∃ value ∈ after, ∃ state finishedAt, Ends id state finishedAt value) ∧
      ∀ value other state finishedAt, other ≠ id → Ends other state finishedAt value →
        reached.applyLifecycleEvent value = reached := by
  refine @lifecycle_of_last_turn _ {} lateEnd ?_ _ (List.prefix_refl _)
    ⟨_, List.mem_cons_self, _, rfl⟩
  intro value hmem payload hpayload
  simp only [lateEnd, List.mem_cons, List.not_mem_nil, or_false] at hmem
  rcases hmem with rfl | rfl | rfl
  · obtain rfl := Option.some.inj hpayload
    exact ⟨"turn-old", rfl, rfl⟩
  · obtain rfl := Option.some.inj hpayload
    exact ⟨"turn-new", rfl, rfl⟩
  · obtain rfl := Option.some.inj hpayload
    exact ⟨"turn-old", rfl, rfl⟩

end Feeds
end MicroEmu
