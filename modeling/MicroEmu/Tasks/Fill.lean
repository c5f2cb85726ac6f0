import MicroEmu.Tasks.Passes

/-!
# The fair fill

The fill loop visits the free slots in order.  Each round either finds no
session whose best task may use the slot and changes nothing, or it takes the
best task of the least served session and puts it on the slot
(`fillSlot_cases`).  From this single statement follow the loop invariant
`FillInv` and what the whole loop does: placed tasks stay, every other placement
is a candidate on a slot that was free and admits it, and the tasks taken from a
session are a prefix of its queue.
-/

namespace MicroEmu
namespace Tasks

open Std (ExtTreeMap LawfulEqCmp TransCmp OrientedCmp)
open Library

namespace TaskBoard

variable {order : WalkOrder} {board : TaskBoard}

instance : TransCmp fun a b : ReadySession => taskOrder a.head b.head where
  eq_swap {a b} := @OrientedCmp.eq_swap _ taskOrder _ a.head b.head
  isLE_trans {a b c} := @TransCmp.isLE_trans _ taskOrder _ a.head b.head c.head

instance (visible : Visible) : TransCmp (sessionOrder visible) :=
  inferInstanceAs (TransCmp (compareLex
    (compareOn fun r : ReadySession => visible.byAgent r.head.ownerAgent)
    (compareLex (compareOn fun r : ReadySession => visible.bySession r.session)
      (compareLex (fun a b => taskOrder a.head b.head) (compareOn ReadySession.session)))))

/-! ## Queues -/

/-- The tasks of a session still waiting for a slot. -/
def FillState.waiting (state : FillState) (session : Nat) : List TaskCard :=
  (state.queues[session]?).getD []

/-- The tasks of a session waiting before the fill. -/
def queueOf (order : WalkOrder) (board : TaskBoard) (session : Nat) : List TaskCard :=
  (board.candidates order).filter (·.ownerSession == session)

theorem foldl_enqueue (cards : List TaskCard) (queues : Queues) (session : Nat) :
    ((cards.foldl enqueue queues)[session]?).getD [] =
      (queues[session]?).getD [] ++ cards.filter (·.ownerSession == session) := by
  induction cards generalizing queues with
  | nil => simp
  | cons card cards ih =>
      rw [List.foldl_cons, ih, enqueue, getElem?_insert_eq_ite,
        ExtTreeMap.getD_eq_getD_getElem?]
      by_cases hsession : card.ownerSession = session
      · simp [hsession]
      · simp [hsession]

theorem fillStart_waiting (session : Nat) :
    (board.fillStart order).waiting session = queueOf order board session := by
  have h := foldl_enqueue (board.candidates order) ∅ session
  simpa [FillState.waiting, fillStart, queueOf] using h

theorem waiting_insert (state : FillState) (session other : Nat) (rest : List TaskCard)
    (visible : Visible) (assignments : Assignments) :
    (FillState.mk (state.queues.insert session rest) visible assignments).waiting other =
      if session = other then rest else state.waiting other := by
  simp only [FillState.waiting, getElem?_insert_eq_ite]
  split <;> simp

theorem mem_readySessions {required : SlotConstraint} {state : FillState}
    {ready : ReadySession} :
    ready ∈ readySessions required state.queues ↔
      state.waiting ready.session = ready.head :: ready.rest ∧
        required.admits ready.head.ownerAgent = true := by
  simp only [readySessions, List.mem_filterMap, Prod.exists,
    ExtTreeMap.mem_toList_iff_getElem?_eq_some, FillState.waiting]
  constructor
  · rintro ⟨session, tasks, hqueue, hready⟩
    cases tasks with
    | nil => simp at hready
    | cons head rest =>
        by_cases hadmits : required.admits head.ownerAgent = true
        · simp only [hadmits, if_true, Option.some.injEq] at hready
          subst hready
          simp [hqueue, hadmits]
        · simp [hadmits] at hready
  · rintro ⟨hqueue, hadmits⟩
    obtain ⟨session, head, rest⟩ := ready
    refine ⟨session, head :: rest, ?_, by simp [hadmits]⟩
    cases hget : state.queues[session]? with
    | none => simp [hget] at hqueue
    | some tasks => simpa [hget] using hqueue

/-! ## One round -/

/-- The best task of the session is first in its queue and may use the slot. -/
def Ready (board : TaskBoard) (state : FillState) (slot : DeviceSlot)
    (ready : ReadySession) : Prop :=
  state.waiting ready.session = ready.head :: ready.rest ∧
    (board.slotOwner slot).admits ready.head.ownerAgent = true

/-- The state after the slot went to the best task of a session. -/
def granted (state : FillState) (slot : DeviceSlot) (ready : ReadySession) : FillState where
  queues := state.queues.insert ready.session ready.rest
  visible := state.visible.add ready.session ready.head.ownerAgent
  assignments := state.assignments.insert ready.head.taskId ⟨slot⟩

/-- A round leaves the state alone when no session is ready for the slot, and
otherwise serves a session that no ready session comes before. -/
theorem fillSlot_cases (state : FillState) (slot : DeviceSlot) :
    (board.fillSlot state slot = state ∧ ∀ ready, ¬board.Ready state slot ready) ∨
      ∃ ready, board.Ready state slot ready ∧
        (∀ other, board.Ready state slot other →
          notAbove (sessionOrder state.visible) ready other) ∧
        board.fillSlot state slot = granted state slot ready := by
  unfold fillSlot
  cases hmin : minBy? (sessionOrder state.visible)
      (readySessions (board.slotOwner slot) state.queues) with
  | none =>
      -- no minimum means no session is ready
      refine Or.inl ⟨rfl, fun ready hready => ?_⟩
      have hnil := minBy?_eq_none_iff.mp hmin
      have hmem := mem_readySessions.mpr hready
      rw [hnil] at hmem
      exact absurd hmem (by simp)
  | some ready =>
      refine Or.inr ⟨ready, mem_readySessions.mp (minBy?_mem hmin), fun other hother => ?_, rfl⟩
      exact minBy?_notAbove hmin other (mem_readySessions.mpr hother)

@[simp] theorem granted_waiting (state : FillState) (slot : DeviceSlot)
    (ready : ReadySession) (session : Nat) :
    (granted state slot ready).waiting session =
      if ready.session = session then ready.rest else state.waiting session :=
  waiting_insert ..

theorem granted_getElem? (state : FillState) (slot : DeviceSlot) (ready : ReadySession)
    (id : String) :
    (granted state slot ready).assignments[id]? =
      if ready.head.taskId = id then some ⟨slot⟩ else state.assignments[id]? :=
  getElem?_insert_eq_ite ..

/-! ## Candidates and free slots -/

theorem mem_candidates (hwf : board.WellFormed) {task : TaskCard} :
    task ∈ board.candidates order ↔
      board.tasks[task.taskId]? = some task ∧ task.state.eligible = true ∧
        board.assignments[task.taskId]? = none := by
  rw [candidates, List.mem_insertionSort, List.mem_filter, order.mem_values_iff hwf,
    unplaced_iff]

theorem candidates_sorted :
    (board.candidates order).Pairwise (notAbove taskOrder) :=
  List.pairwise_insertionSort _ _

/-- The values of a map in one walk order are those in another, permuted. -/
theorem values_perm (order order' : WalkOrder) {β : Type} (map : ExtTreeMap String β) :
    (order.values map).Perm (order'.values map) :=
  ((order.perm map.toList).trans (order'.perm map.toList).symm).map Prod.snd

/-- Sorting some of the cards in task order forgets the walk order. -/
theorem sorted_cards_eq (order order' : WalkOrder) (hwf : board.WellFormed)
    (test : TaskCard → Bool) :
    ((order.values board.tasks).filter test).insertionSort (notAbove taskOrder) =
      ((order'.values board.tasks).filter test).insertionSort (notAbove taskOrder) := by
  refine insertionSort_eq_of_perm ((values_perm order order' board.tasks).filter test) ?_
  intro a ha b hb heq
  have hid := taskId_eq_of_taskOrder_eq heq
  have htaskA := (order.mem_values_iff hwf).mp (List.mem_filter.mp ha).1
  have htaskB := (order.mem_values_iff hwf).mp (List.mem_filter.mp hb).1
  rw [hid, htaskB] at htaskA
  exact (Option.some.inj htaskA).symm

theorem candidates_nodup (order : WalkOrder) (hwf : board.WellFormed) :
    ((board.candidates order).map TaskCard.taskId).Nodup := by
  have hperm := (List.perm_insertionSort (notAbove taskOrder)
    ((order.values board.tasks).filter board.unplaced)).map TaskCard.taskId
  refine hperm.nodup_iff.mpr (List.Nodup.sublist (List.filter_sublist.map _) ?_)
  rw [order.map_taskId_values hwf]
  exact order.nodup_keys board.tasks

theorem mem_queueOf (hwf : board.WellFormed) {session : Nat} {task : TaskCard} :
    task ∈ queueOf order board session ↔
      (board.tasks[task.taskId]? = some task ∧ task.state.eligible = true ∧
        board.assignments[task.taskId]? = none) ∧ task.ownerSession = session := by
  rw [queueOf, List.mem_filter, mem_candidates hwf, beq_iff_eq]

theorem queueOf_nodup (order : WalkOrder) (hwf : board.WellFormed) (session : Nat) :
    ((queueOf order board session).map TaskCard.taskId).Nodup :=
  (candidates_nodup order hwf).sublist (List.filter_sublist.map _)

theorem mem_freeSlots {slot : DeviceSlot} :
    slot ∈ board.freeSlots ↔
      slot ∈ board.available ∧ slotTaken board.assignments slot = false := by
  rw [freeSlots, List.mem_insertionSort, List.mem_filter, Bool.not_eq_true']

theorem freeSlots_nodup (hwf : board.WellFormed) : board.freeSlots.Nodup :=
  (List.perm_insertionSort _ _).nodup_iff.mpr ((available_nodup hwf).filter _)

/-! ## The loop invariant -/

/-- After the slots in `done` have been visited. -/
structure FillInv (order : WalkOrder) (board : TaskBoard) (done : List DeviceSlot)
    (state : FillState) : Prop where
  /-- Each queue has lost a prefix, whose tasks are placed on visited slots. -/
  queued : ∀ session, ∃ taken,
    queueOf order board session = taken ++ state.waiting session ∧
      (∀ task ∈ taken, ∃ slot ∈ done, state.assignments[task.taskId]? = some ⟨slot⟩ ∧
        (board.slotOwner slot).admits task.ownerAgent = true) ∧
      ∀ task ∈ state.waiting session, state.assignments[task.taskId]? = none
  /-- Placed tasks stay. -/
  old : ∀ {id : String} {assignment : TaskAssignment},
    board.assignments[id]? = some assignment → state.assignments[id]? = some assignment
  /-- Nobody is placed but a candidate, on a visited slot that admits it. -/
  only : ∀ {id : String} {slot : DeviceSlot}, state.assignments[id]? = some ⟨slot⟩ →
    board.assignments[id]? = some ⟨slot⟩ ∨
      (slot ∈ done ∧ ∃ task ∈ board.candidates order, task.taskId = id ∧
        (board.slotOwner slot).admits task.ownerAgent = true)
  injective : SlotInjective state.assignments

theorem fillInv_start (order : WalkOrder) (hwf : board.WellFormed)
    (hinj : SlotInjective board.assignments) :
    FillInv order board [] (board.fillStart order) where
  queued := by
    intro session
    refine ⟨[], by rw [fillStart_waiting]; rfl, by simp, ?_⟩
    intro task htask
    rw [fillStart_waiting] at htask
    exact ((mem_queueOf hwf).mp htask).1.2.2
  old := fun h => h
  only := fun h => Or.inl h
  injective := hinj

/-- Two waiting tasks with one id are the same task of the same session. -/
theorem waiting_session_unique (hwf : board.WellFormed) {s t : Nat} {a b : TaskCard}
    (ha : a ∈ queueOf order board s) (hb : b ∈ queueOf order board t)
    (hid : a.taskId = b.taskId) : a = b ∧ s = t := by
  obtain ⟨⟨htaskA, -⟩, rfl⟩ := (mem_queueOf hwf).mp ha
  obtain ⟨⟨htaskB, -⟩, rfl⟩ := (mem_queueOf hwf).mp hb
  rw [hid, htaskB] at htaskA
  obtain rfl := Option.some.inj htaskA
  exact ⟨rfl, rfl⟩

theorem FillInv.waiting_sub {done : List DeviceSlot} {state : FillState}
    (hinv : FillInv order board done state) {session : Nat} {task : TaskCard}
    (h : task ∈ state.waiting session) : task ∈ queueOf order board session := by
  obtain ⟨taken, hqueue, -⟩ := hinv.queued session
  rw [hqueue]
  exact List.mem_append_right taken h

/-- An eligible task that is not placed yet still waits in its session. -/
theorem FillInv.waiting_of_hidden {done : List DeviceSlot} {state : FillState}
    (hwf : board.WellFormed) (hinv : FillInv order board done state) {task : TaskCard}
    (htask : board.tasks[task.taskId]? = some task) (heligible : task.state.eligible = true)
    (hhidden : state.assignments[task.taskId]? = none) :
    task ∈ state.waiting task.ownerSession := by
  have hwaits : board.assignments[task.taskId]? = none := by
    cases hold : board.assignments[task.taskId]? with
    | none => rfl
    | some assignment =>
        rw [hinv.old hold] at hhidden
        cases hhidden
  have hqueued : task ∈ queueOf order board task.ownerSession :=
    (mem_queueOf hwf).mpr ⟨⟨htask, heligible, hwaits⟩, rfl⟩
  obtain ⟨taken, hqueue, htaken, -⟩ := hinv.queued task.ownerSession
  rw [hqueue] at hqueued
  rcases List.mem_append.mp hqueued with hserved | hwaiting
  · obtain ⟨place, -, hplaced, -⟩ := htaken task hserved
    rw [hhidden] at hplaced
    cases hplaced
  · exact hwaiting

/-- The tasks behind the head of a queue have other ids than the head. -/
theorem FillInv.head_fresh {done : List DeviceSlot} {state : FillState}
    (hwf : board.WellFormed) (hinv : FillInv order board done state) {session : Nat}
    {head : TaskCard} {rest : List TaskCard} (h : state.waiting session = head :: rest)
    {task : TaskCard} (htask : task ∈ rest) : head.taskId ≠ task.taskId := by
  obtain ⟨taken, hqueue, -⟩ := hinv.queued session
  have hnodup := queueOf_nodup order hwf session
  rw [hqueue, h, List.map_append, List.nodup_append] at hnodup
  have hcons := hnodup.2.1
  rw [List.map_cons, List.nodup_cons] at hcons
  intro heq
  exact hcons.1 (heq ▸ List.mem_map.mpr ⟨task, htask, rfl⟩)

/-- Visiting one more free slot keeps the invariant. -/
theorem FillInv.step {done : List DeviceSlot} {state : FillState} {slot : DeviceSlot}
    (hwf : board.WellFormed) (hinv : FillInv order board done state)
    (hfree : slot ∈ board.freeSlots) (hnew : slot ∉ done) :
    FillInv order board (done ++ [slot]) (board.fillSlot state slot) := by
  have hlift : ∀ {s}, s ∈ done → s ∈ done ++ [slot] := fun h => List.mem_append_left _ h
  rcases board.fillSlot_cases state slot with ⟨hsame, -⟩ | ⟨ready, hready, -, hgrant⟩
  -- the slot stays free, and only the list of visited slots grows
  · rw [hsame]
    refine ⟨fun session => ?_, hinv.old, fun h => ?_, hinv.injective⟩
    · obtain ⟨taken, hqueue, htaken, hwaiting⟩ := hinv.queued session
      refine ⟨taken, hqueue, fun task htask => ?_, hwaiting⟩
      obtain ⟨s, hs, hat, hadmits⟩ := htaken task htask
      exact ⟨s, hlift hs, hat, hadmits⟩
    · rcases hinv.only h with hold | ⟨hdone, hcandidate⟩
      · exact Or.inl hold
      · exact Or.inr ⟨hlift hdone, hcandidate⟩
  · rw [hgrant]
    obtain ⟨hhead, hadmits⟩ := hready
    have hmem : ready.head ∈ queueOf order board ready.session :=
      hinv.waiting_sub (hhead ▸ List.mem_cons_self)
    have hcandidate := ((mem_queueOf hwf).mp hmem).1
    have hunplaced : state.assignments[ready.head.taskId]? = none := by
      obtain ⟨_, _, _, hwaiting⟩ := hinv.queued ready.session
      exact hwaiting _ (hhead ▸ List.mem_cons_self)
    -- nobody is on the slot yet: it was free, and it is visited for the first time
    have hempty : ∀ id : String, state.assignments[id]? ≠ some ⟨slot⟩ := by
      intro id hat
      rcases hinv.only hat with hold | ⟨hdone, -⟩
      · have htaken := slotTaken_iff.mpr ⟨id, hold⟩
        rw [(mem_freeSlots.mp hfree).2] at htaken
        exact absurd htaken (by simp)
      · exact hnew hdone
    have hkeep : ∀ {id : String} {assignment : TaskAssignment},
        state.assignments[id]? = some assignment →
          (granted state slot ready).assignments[id]? = some assignment := by
      intro id assignment hat
      rw [granted_getElem?, if_neg]
      · exact hat
      · rintro rfl
        rw [hunplaced] at hat
        exact absurd hat (by simp)
    refine ⟨fun session => ?_, fun h => hkeep (hinv.old h), fun {id s} h => ?_, ?_⟩
    · obtain ⟨taken, hqueue, htaken, hwaiting⟩ := hinv.queued session
      have hkept : ∀ task ∈ taken, ∃ s ∈ done ++ [slot],
          (granted state slot ready).assignments[task.taskId]? = some ⟨s⟩ ∧
            (board.slotOwner s).admits task.ownerAgent = true := by
        intro task htask
        obtain ⟨s, hs, hat, hok⟩ := htaken task htask
        exact ⟨s, hlift hs, hkeep hat, hok⟩
      -- the served session loses its head, the others keep their queues
      by_cases hsession : ready.session = session
      · subst hsession
        refine ⟨taken ++ [ready.head], ?_, ?_, ?_⟩
        · rw [hqueue, hhead, granted_waiting, if_pos rfl, List.append_assoc]
          rfl
        · intro task htask
          rcases List.mem_append.mp htask with htask | htask
          · exact hkept task htask
          · obtain rfl := List.mem_singleton.mp htask
            exact ⟨slot, by simp, by rw [granted_getElem?, if_pos rfl], hadmits⟩
        · intro task htask
          rw [granted_waiting, if_pos rfl] at htask
          rw [granted_getElem?, if_neg (hinv.head_fresh hwf hhead htask)]
          exact hwaiting task (hhead ▸ List.mem_cons_of_mem _ htask)
      · refine ⟨taken, ?_, hkept, ?_⟩
        · rw [hqueue, granted_waiting, if_neg hsession]
        · intro task htask
          rw [granted_waiting, if_neg hsession] at htask
          rw [granted_getElem?, if_neg]
          · exact hwaiting task htask
          · intro hid
            exact hsession
              (waiting_session_unique hwf hmem (hinv.waiting_sub htask) hid).2
    · rw [granted_getElem?] at h
      split at h
      · rename_i hid
        obtain rfl : slot = s := by simpa using h
        exact Or.inr ⟨by simp, ready.head, (mem_candidates hwf).mpr hcandidate, hid, hadmits⟩
      · rcases hinv.only h with hold | ⟨hdone, hother⟩
        · exact Or.inl hold
        · exact Or.inr ⟨hlift hdone, hother⟩
    · intro a b assignment ha hb
      rw [granted_getElem?] at ha hb
      split at ha <;> split at hb
      · rename_i hida hidb
        exact hida.symm.trans hidb
      · exact absurd (ha ▸ hb) (hempty b)
      · exact absurd (hb ▸ ha) (hempty a)
      · exact hinv.injective ha hb

/-- The induction rule of the fill loop: a property of the visited slots and the
state holds at the end if it holds at the start and every round keeps it. -/
theorem fill_induction (hwf : board.WellFormed) (hinj : SlotInjective board.assignments)
    {P : List DeviceSlot → FillState → Prop} (hstart : P [] (board.fillStart order))
    (hstep : ∀ {done : List DeviceSlot} {state : FillState} {slot : DeviceSlot},
      FillInv order board done state → P done state → slot ∈ board.freeSlots → slot ∉ done →
        P (done ++ [slot]) (board.fillSlot state slot)) :
    P board.freeSlots (board.fillResult order) := by
  have hrun : ∀ (slots done : List DeviceSlot) (state : FillState),
      FillInv order board done state → P done state →
        (∀ slot ∈ slots, slot ∈ board.freeSlots) → (done ++ slots).Nodup →
          P (done ++ slots) (slots.foldl board.fillSlot state) := by
    intro slots
    induction slots with
    | nil =>
        intro done state _ hP _ _
        rw [List.append_nil]
        exact hP
    | cons slot slots ih =>
        intro done state hinv hP hfree hnodup
        have hnew : slot ∉ done := by
          intro hmem
          exact (List.nodup_append.mp hnodup).2.2 slot hmem slot List.mem_cons_self rfl
        have happend : done ++ slot :: slots = (done ++ [slot]) ++ slots := by simp
        have hslot := hfree slot List.mem_cons_self
        rw [happend] at hnodup ⊢
        exact ih _ _ (hinv.step hwf hslot hnew) (hstep hinv hP hslot hnew)
          (fun s hs => hfree s (List.mem_cons_of_mem _ hs)) hnodup
  have h := hrun board.freeSlots [] (board.fillStart order) (fillInv_start order hwf hinj) hstart
    (fun _ hslot => hslot) (by simpa using freeSlots_nodup hwf)
  simpa [fillResult] using h

/-- What the whole fill does. -/
theorem fillResult_inv (hwf : board.WellFormed) (hinj : SlotInjective board.assignments) :
    FillInv order board board.freeSlots (board.fillResult order) :=
  fill_induction hwf hinj (fillInv_start order hwf hinj)
    fun hinv _ hfree hnew => hinv.step hwf hfree hnew

/-- If no free slot has a ready session at the start, the fill changes nothing. -/
theorem fillResult_eq_start
    (hblocked : ∀ slot ∈ board.freeSlots, ∀ ready,
      ¬board.Ready (board.fillStart order) slot ready) :
    board.fillResult order = board.fillStart order := by
  have hfold : ∀ slots : List DeviceSlot, (∀ slot ∈ slots, slot ∈ board.freeSlots) →
      slots.foldl board.fillSlot (board.fillStart order) = board.fillStart order := by
    intro slots
    induction slots with
    | nil => intro _; rfl
    | cons slot slots ih =>
        intro hfree
        rcases board.fillSlot_cases (board.fillStart order) slot with
          ⟨hsame, -⟩ | ⟨ready, hready, -⟩
        · rw [List.foldl_cons, hsame]
          exact ih fun s hs => hfree s (List.mem_cons_of_mem _ hs)
        · exact absurd hready (hblocked slot (hfree slot List.mem_cons_self) ready)
  exact hfold board.freeSlots fun _ h => h

end TaskBoard
end Tasks
end MicroEmu
