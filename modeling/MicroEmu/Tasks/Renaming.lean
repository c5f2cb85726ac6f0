import MicroEmu.Tasks.IterationOrder

/-!
# What a reallocation reads of a card

A reallocation reads the id, the state, the priority, the last update, the agent
and the source position of a card, and whether it holds a lease.  Of its session
it reads only which other cards share it: two candidates never compare equal in
task order, so the session number breaks no tie.  Renaming the sessions one to one,
and changing whatever else a reallocation does not read, changes no slot.

The comparison holds the walk fixed: the boards hand out their cards in one order of
the keys (`WalkOrder.ByKeys`).
-/

namespace MicroEmu
namespace Tasks

open Std (ExtTreeMap)
open Routing (AgentId)
open Library

/-- The walk looks at the keys of a map and not at what they are bound to. -/
def WalkOrder.ByKeys (order : WalkOrder) : Prop :=
  ∀ {β γ : Type} (f : β → γ) (entries : List (String × β)),
    order.walk (entries.map fun entry => (entry.1, f entry.2)) =
      (order.walk entries).map fun entry => (entry.1, f entry.2)

theorem WalkOrder.ByKeys.values_map {order : WalkOrder} (hkeys : order.ByKeys) {β γ : Type}
    (f : β → γ) (map : ExtTreeMap String β) :
    order.values (map.map fun _ => f) = (order.values map).map f := by
  unfold WalkOrder.values WalkOrder.entries
  rw [ExtTreeMap.toList_map, hkeys f, List.map_map, List.map_map]
  rfl

namespace TaskBoard

variable {order : WalkOrder} {board : TaskBoard} {rename : TaskCard → TaskCard}

/-- A change of the cards that a reallocation does not notice. -/
structure Renames (board : TaskBoard) (rename : TaskCard → TaskCard) : Prop where
  taskId : ∀ task, (rename task).taskId = task.taskId
  state : ∀ task, (rename task).state = task.state
  priority : ∀ task, (rename task).priority = task.priority
  updatedAtMs : ∀ task, (rename task).updatedAtMs = task.updatedAtMs
  ownerAgent : ∀ task, (rename task).ownerAgent = task.ownerAgent
  sourceSlot : ∀ task, (rename task).sourceSlot = task.sourceSlot
  reconnectUntilMs : ∀ task, (rename task).reconnectUntilMs = task.reconnectUntilMs
  /-- Cards share a session as they did. -/
  ownerSession : ∀ {id other : String} {a b : TaskCard}, board.tasks[id]? = some a →
    board.tasks[other]? = some b →
      ((rename a).ownerSession = (rename b).ownerSession ↔ a.ownerSession = b.ownerSession)

/-- The board with its cards changed. -/
def renamed (rename : TaskCard → TaskCard) (board : TaskBoard) : TaskBoard :=
  { board with tasks := board.tasks.map fun _ => rename }

theorem renamed_getElem? (rename : TaskCard → TaskCard) (board : TaskBoard) (id : String) :
    (board.renamed rename).tasks[id]? = (board.tasks[id]?).map rename :=
  ExtTreeMap.getElem?_map ..

/-- The cards of a board decide whether a change of them is noticed. -/
theorem Renames.congr {other : TaskBoard} (h : board.Renames rename)
    (htasks : other.tasks = board.tasks) : other.Renames rename := by
  refine ⟨h.taskId, h.state, h.priority, h.updatedAtMs, h.ownerAgent, h.sourceSlot,
    h.reconnectUntilMs, ?_⟩
  rw [htasks]
  exact h.ownerSession

namespace Renames

variable (h : board.Renames rename)

include h

theorem taskOrder_eq (a b : TaskCard) : taskOrder (rename a) (rename b) = taskOrder a b := by
  unfold taskOrder
  rw [h.state, h.state, h.priority, h.priority, h.updatedAtMs, h.updatedAtMs, h.taskId, h.taskId]

/-! ## The passes before the fill -/

theorem retainPass : (board.renamed rename).retainPass = board.retainPass.renamed rename := by
  have hretains : (board.renamed rename).retains = board.retains := by
    funext id assignment
    unfold retains
    rw [renamed_getElem?, Option.any_map]
    congr 1
    funext task
    simp only [h.state, h.reconnectUntilMs, h.ownerAgent]
    rfl
  unfold TaskBoard.retainPass
  rw [hretains]
  rfl

theorem unplaced (task : TaskCard) :
    (board.renamed rename).unplaced (rename task) = board.unplaced task := by
  unfold TaskBoard.unplaced
  rw [h.state, h.taskId]
  rfl

theorem stickyPass (hkeys : order.ByKeys) :
    (board.renamed rename).stickyPass order = (board.stickyPass order).renamed rename := by
  have htarget : ∀ task, (board.renamed rename).stickyTarget (rename task) =
      board.stickyTarget task := by
    intro task
    unfold stickyTarget
    rw [h.taskId, h.ownerAgent]
    rfl
  have hrequests : (board.renamed rename).stickyRequests order = board.stickyRequests order := by
    unfold stickyRequests
    rw [renamed, hkeys.values_map, List.filter_map, List.filterMap_map]
    congr 1
    · funext task
      show Option.map _ ((board.renamed rename).stickyTarget (rename task)) = _
      rw [htarget, h.taskId]
    · refine List.filter_congr fun task _ => ?_
      exact h.unplaced task
  unfold TaskBoard.stickyPass
  rw [hrequests]
  rfl

theorem pinPass (hkeys : order.ByKeys) :
    (board.renamed rename).pinCodexHidPrimarySlots order =
      (board.pinCodexHidPrimarySlots order).renamed rename := by
  have hslot : ∀ task, (board.renamed rename).pinSlot (rename task) = board.pinSlot task := by
    intro task
    unfold pinSlot pinTarget
    simp only [h.taskId, h.ownerAgent, h.sourceSlot]
    rfl
  have hrequests : (board.renamed rename).pinRequests order = board.pinRequests order := by
    rw [pinRequests_eq, pinRequests_eq, renamed, hkeys.values_map, List.filterMap_map]
    congr 2
    funext task
    show Option.map _ ((board.renamed rename).pinSlot (rename task)) = _
    rw [hslot, h.taskId]
  unfold pinCodexHidPrimarySlots
  rw [hrequests]
  rfl

theorem pinnedBoard (hkeys : order.ByKeys) :
    (board.renamed rename).pinnedBoard order = (board.pinnedBoard order).renamed rename := by
  have hretained : board.retainPass.Renames rename := h.congr rfl
  have hsticky : (board.stickyBoard order).Renames rename := h.congr rfl
  unfold TaskBoard.pinnedBoard stickyBoard
  rw [h.retainPass, hretained.stickyPass hkeys]
  exact hsticky.pinPass hkeys

/-! ## The fill -/

theorem candidates (hkeys : order.ByKeys) :
    (board.renamed rename).candidates order = (board.candidates order).map rename := by
  unfold TaskBoard.candidates
  rw [List.map_insertionSort (notAbove taskOrder) (notAbove taskOrder) rename
    ((order.values board.tasks).filter board.unplaced)
    fun a _ b _ => by rw [notAbove, notAbove, h.taskOrder_eq]]
  rw [renamed, hkeys.values_map, List.filter_map]
  congr 2
  exact List.filter_congr fun task _ => h.unplaced task

end Renames

/-- Two states of the fill that serve the same cards under their two names. -/
structure FillsAlike (board : TaskBoard) (rename : TaskCard → TaskCard)
    (state state' : FillState) : Prop where
  assignments : state'.assignments = state.assignments
  byAgent : state'.visible.byAgent = state.visible.byAgent
  bySession : ∀ {id : String} {task : TaskCard}, board.tasks[id]? = some task →
    state'.visible.bySession (rename task).ownerSession =
      state.visible.bySession task.ownerSession
  waiting : ∀ {id : String} {task : TaskCard}, board.tasks[id]? = some task →
    state'.waiting (rename task).ownerSession = (state.waiting task.ownerSession).map rename
  queued : ∀ {session : Nat} {task : TaskCard}, task ∈ state.waiting session →
    board.tasks[task.taskId]? = some task ∧ task.ownerSession = session
  queued' : ∀ {session : Nat} {card : TaskCard}, card ∈ state'.waiting session →
    ∃ task, board.tasks[task.taskId]? = some task ∧ card = rename task ∧
      (rename task).ownerSession = session

/-- What one assigned card adds to the visible cards. -/
def countVisible (board : TaskBoard) (visible : Visible) (taskId : String) : Visible :=
  match board.tasks[taskId]? with
  | some task => visible.add task.ownerSession task.ownerAgent
  | none => visible

/-- Two counts agree on a card under its two names. -/
def SameCount (board : TaskBoard) (rename : TaskCard → TaskCard)
    (visible visible' : Visible) : Prop :=
  visible'.byAgent = visible.byAgent ∧
    ∀ {id : String} {task : TaskCard}, board.tasks[id]? = some task →
      visible'.bySession (rename task).ownerSession = visible.bySession task.ownerSession

theorem Renames.countVisible (h : board.Renames rename) {visible visible' : Visible}
    (hcount : SameCount board rename visible visible') (taskId : String) :
    SameCount board rename (board.countVisible visible taskId)
      ((board.renamed rename).countVisible visible' taskId) := by
  obtain ⟨hagent, hsession⟩ := hcount
  unfold TaskBoard.countVisible
  rw [renamed_getElem?]
  cases hshown : board.tasks[taskId]? with
  | none => exact ⟨hagent, hsession⟩
  | some shown =>
      simp only [Option.map_some, h.ownerAgent]
      refine ⟨?_, fun {id task} htask => ?_⟩
      · simp only [Visible.add, hagent]
      · simp only [Visible.add, Function.update_apply, h.ownerSession htask hshown,
          hsession hshown, hsession htask]

/-- Counting the visible cards under their two names. -/
theorem Renames.visibleBefore (h : board.Renames rename) (order : WalkOrder) :
    SameCount board rename (board.visibleBefore order)
      ((board.renamed rename).visibleBefore order) := by
  have hfold (ids : List String) {visible visible' : Visible}
      (hcount : SameCount board rename visible visible') :
      SameCount board rename (ids.foldl (TaskBoard.countVisible board) visible)
        (ids.foldl (TaskBoard.countVisible (board.renamed rename)) visible') := by
    induction ids generalizing visible visible' with
    | nil => exact hcount
    | cons first ids ih => exact ih (h.countVisible hcount first)
  exact hfold (order.keys board.assignments) ⟨rfl, fun _ => rfl⟩

theorem Renames.fillStart (h : board.Renames rename) (hkeys : order.ByKeys)
    (hwf : board.WellFormed) :
    FillsAlike board rename (board.fillStart order) ((board.renamed rename).fillStart order) := by
  have hqueue : ∀ session, queueOf order (board.renamed rename) session =
      ((board.candidates order).filter fun task =>
        (rename task).ownerSession == session).map rename := by
    intro session
    rw [queueOf, h.candidates hkeys, List.filter_map]
    rfl
  refine ⟨rfl, (h.visibleBefore order).1, (h.visibleBefore order).2, fun {id task} htask => ?_,
    fun {session task} htask => ?_, fun {session card} hcard => ?_⟩
  · rw [fillStart_waiting, fillStart_waiting, hqueue, queueOf]
    congr 1
    refine List.filter_congr fun other hother => ?_
    have hsame := h.ownerSession ((mem_candidates hwf).mp hother).1 htask
    rw [Bool.eq_iff_iff, beq_iff_eq, beq_iff_eq, hsame]
  · rw [fillStart_waiting] at htask
    exact ⟨((mem_queueOf hwf).mp htask).1.1, ((mem_queueOf hwf).mp htask).2⟩
  · rw [fillStart_waiting, hqueue] at hcard
    obtain ⟨task, htask, rfl⟩ := List.mem_map.mp hcard
    obtain ⟨hcandidate, hsession⟩ := List.mem_filter.mp htask
    exact ⟨task, ((mem_candidates hwf).mp hcandidate).1, rfl, beq_iff_eq.mp hsession⟩

/-- A ready session under its other name. -/
def ReadySession.renamed (rename : TaskCard → TaskCard) (ready : ReadySession) : ReadySession :=
  ⟨(rename ready.head).ownerSession, rename ready.head, ready.rest.map rename⟩

/-- The sessions that are ready for a slot are ready under their other name. -/
theorem FillsAlike.ready {state state' : FillState} (halike : FillsAlike board rename state state')
    (h : board.Renames rename) {slot : DeviceSlot} {ready : ReadySession}
    (hready : board.Ready state slot ready) :
    (board.renamed rename).Ready state' slot (ready.renamed rename) := by
  obtain ⟨hhead, hadmits⟩ := hready
  have hmem : ready.head ∈ state.waiting ready.session := by
    rw [hhead]
    exact List.mem_cons_self
  obtain ⟨htask, hsession⟩ := halike.queued hmem
  refine ⟨?_, ?_⟩
  · show state'.waiting (rename ready.head).ownerSession = rename ready.head :: _
    rw [halike.waiting htask, hsession, hhead]
    rfl
  · show (board.slotOwner slot).admits (rename ready.head).ownerAgent = true
    rw [h.ownerAgent]
    exact hadmits

/-- Every session ready under the other name is such a session. -/
theorem FillsAlike.ready' {state state' : FillState}
    (halike : FillsAlike board rename state state') (h : board.Renames rename) {slot : DeviceSlot}
    {ready' : ReadySession} (hready : (board.renamed rename).Ready state' slot ready') :
    ∃ ready, board.Ready state slot ready ∧ ready' = ready.renamed rename := by
  obtain ⟨hhead, hadmits⟩ := hready
  have hmem : ready'.head ∈ state'.waiting ready'.session := by
    rw [hhead]
    exact List.mem_cons_self
  obtain ⟨task, htask, hcard, hsession⟩ := halike.queued' hmem
  have hqueue := halike.waiting htask
  rw [hsession, hhead] at hqueue
  cases hwaiting : state.waiting task.ownerSession with
  | nil =>
      rw [hwaiting] at hqueue
      cases hqueue
  | cons head rest =>
      rw [hwaiting, List.map_cons] at hqueue
      obtain ⟨hhead', hrest⟩ := List.cons.inj hqueue
      have hown : head.ownerSession = task.ownerSession := by
        refine (halike.queued ?_).2
        rw [hwaiting]
        exact List.mem_cons_self
      refine ⟨⟨task.ownerSession, head, rest⟩, ⟨hwaiting, ?_⟩, ?_⟩
      · rw [hhead', h.ownerAgent] at hadmits
        exact hadmits
      · obtain ⟨session', head', rest'⟩ := ready'
        simp only at hhead' hrest hsession hcard
        subst hhead'
        rw [ReadySession.renamed, ← hsession, ← hcard, ← hrest]

/-- The comparison of two ready sessions does not depend on their names, except in
its last component. -/
theorem FillsAlike.notAbove {state state' : FillState}
    (halike : FillsAlike board rename state state') (h : board.Renames rename) {slot : DeviceSlot}
    {a b : ReadySession} (ha : board.Ready state slot a) (hb : board.Ready state slot b)
    (hle : Library.notAbove (sessionOrder state'.visible) (a.renamed rename) (b.renamed rename))
    (hge : Library.notAbove (sessionOrder state.visible) b a) : a.head.taskId = b.head.taskId := by
  have hboard : ∀ {r : ReadySession}, board.Ready state slot r →
      board.tasks[r.head.taskId]? = some r.head ∧ r.head.ownerSession = r.session := by
    intro r hr
    refine halike.queued ?_
    rw [hr.1]
    exact List.mem_cons_self
  obtain ⟨htaskA, hsessionA⟩ := hboard ha
  obtain ⟨htaskB, hsessionB⟩ := hboard hb
  unfold Library.notAbove sessionOrder at hle hge
  simp only [ReadySession.renamed, halike.byAgent, halike.bySession htaskA,
    halike.bySession htaskB, h.ownerAgent, h.taskOrder_eq, hsessionA, hsessionB] at hle
  -- both comparisons start with the same three components
  have hagent : compare (state.visible.byAgent b.head.ownerAgent)
      (state.visible.byAgent a.head.ownerAgent) =
        (compare (state.visible.byAgent a.head.ownerAgent)
          (state.visible.byAgent b.head.ownerAgent)).swap := Std.OrientedCmp.eq_swap
  have hsession : compare (state.visible.bySession b.session) (state.visible.bySession a.session) =
      (compare (state.visible.bySession a.session)
        (state.visible.bySession b.session)).swap := Std.OrientedCmp.eq_swap
  have htask : taskOrder b.head a.head = (taskOrder a.head b.head).swap :=
    Std.OrientedCmp.eq_swap
  rw [hagent, hsession, htask] at hge
  refine taskId_eq_of_taskOrder_eq ?_
  revert hle hge
  cases compare (state.visible.byAgent a.head.ownerAgent)
      (state.visible.byAgent b.head.ownerAgent) with
  | lt => exact fun hge _ => absurd rfl hge
  | gt => exact fun _ hle => absurd rfl hle
  | eq =>
      cases compare (state.visible.bySession a.session) (state.visible.bySession b.session) with
      | lt => exact fun hge _ => absurd rfl hge
      | gt => exact fun _ hle => absurd rfl hle
      | eq =>
          cases taskOrder a.head b.head with
          | lt => exact fun hge _ => absurd rfl hge
          | gt => exact fun _ hle => absurd rfl hle
          | eq => exact fun _ _ => rfl

/-- One round of the fill serves the same card under its two names. -/
theorem FillsAlike.step {state state' : FillState} (halike : FillsAlike board rename state state')
    (h : board.Renames rename) (slot : DeviceSlot) :
    FillsAlike board rename (board.fillSlot state slot)
      ((board.renamed rename).fillSlot state' slot) := by
  rcases board.fillSlot_cases state slot with ⟨hkept, hnone⟩ | ⟨ready, hready, hleast, hserved⟩
  · rcases (board.renamed rename).fillSlot_cases state' slot with
      ⟨hkept', -⟩ | ⟨ready', hready', -, -⟩
    · rw [hkept, hkept']
      exact halike
    · obtain ⟨ready, hready, -⟩ := halike.ready' h hready'
      exact absurd hready (hnone ready)
  · rcases (board.renamed rename).fillSlot_cases state' slot with
      ⟨-, hnone'⟩ | ⟨ready', hready', hleast', hserved'⟩
    · exact absurd (halike.ready h hready) (hnone' _)
    · obtain ⟨other, hother, rfl⟩ := halike.ready' h hready'
      -- the two best sessions are not above each other, so their heads are one card
      have hid := halike.notAbove h hother hready (hleast' _ (halike.ready h hready))
        (hleast _ hother)
      have hmem : ∀ {r : ReadySession}, board.Ready state slot r →
          r.head ∈ state.waiting r.session := by
        intro r hr
        rw [hr.1]
        exact List.mem_cons_self
      obtain ⟨htask, hsession⟩ := halike.queued (hmem hready)
      obtain ⟨htask', hsession'⟩ := halike.queued (hmem hother)
      have hhead : other.head = ready.head := by
        rw [hid, htask] at htask'
        exact (Option.some.inj htask').symm
      have hsame : other.session = ready.session := by rw [← hsession', hhead, hsession]
      have hrest : other.rest = ready.rest := by
        have hqueue := hother.1
        rw [hsame, hready.1] at hqueue
        exact (List.cons.inj hqueue).2.symm
      rw [hserved, hserved']
      refine ⟨?_, ?_, fun {id task} hother => ?_, fun {id task} hother => ?_,
        fun {session task} hwaits => ?_, fun {session card} hwaits => ?_⟩
      · simp only [granted, ReadySession.renamed, halike.assignments, hhead, h.taskId]
      · simp only [granted, ReadySession.renamed, Visible.add, halike.byAgent, hhead, h.ownerAgent]
      · simp only [granted, ReadySession.renamed, Visible.add, Function.update_apply, hhead,
          halike.bySession hother, halike.bySession htask, h.ownerSession hother htask, hsession]
      · rw [granted_waiting, granted_waiting]
        simp only [ReadySession.renamed, hhead, hrest]
        by_cases hshare : ready.session = task.ownerSession
        · rw [if_pos hshare, if_pos ((h.ownerSession htask hother).mpr (hsession.trans hshare))]
        · rw [if_neg hshare, if_neg fun hshare' => hshare
            (hsession.symm.trans ((h.ownerSession htask hother).mp hshare'))]
          exact halike.waiting hother
      · rw [granted_waiting] at hwaits
        split at hwaits
        · rename_i hshare
          rw [← hshare]
          exact halike.queued (hready.1 ▸ List.mem_cons_of_mem _ hwaits)
        · exact halike.queued hwaits
      · rw [granted_waiting] at hwaits
        split at hwaits
        · rename_i hshare
          rw [← hshare]
          exact halike.queued' ((halike.ready h hother).1 ▸ List.mem_cons_of_mem _ hwaits)
        · exact halike.queued' hwaits

theorem Renames.fillResult (h : board.Renames rename) (hkeys : order.ByKeys)
    (hwf : board.WellFormed) :
    ((board.renamed rename).fillResult order).assignments =
      (board.fillResult order).assignments := by
  have hfold : ∀ (slots : List DeviceSlot) (state state' : FillState),
      FillsAlike board rename state state' →
        FillsAlike board rename (slots.foldl board.fillSlot state)
          (slots.foldl (board.renamed rename).fillSlot state') := by
    intro slots
    induction slots with
    | nil => exact fun _ _ halike => halike
    | cons slot slots ih => exact fun _ _ halike => ih _ _ (halike.step h slot)
  exact (hfold board.freeSlots _ _ (h.fillStart hkeys hwf)).assignments

/-- A change of the cards that a reallocation does not notice moves nobody. -/
theorem Renames.reallocate_assignments (h : board.Renames rename) (hkeys : order.ByKeys)
    (hwf : board.WellFormed) :
    ((board.renamed rename).reallocate order).assignments =
      (board.reallocate order).assignments := by
  have hpinned : (board.pinnedBoard order).Renames rename := h.congr rfl
  rw [TaskBoard.reallocate_assignments, TaskBoard.reallocate_assignments, h.pinnedBoard hkeys]
  exact hpinned.fillResult hkeys (pinnedBoard_wellFormed order hwf)

end TaskBoard
end Tasks
end MicroEmu
