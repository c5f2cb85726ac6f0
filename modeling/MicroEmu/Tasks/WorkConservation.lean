import MicroEmu.Tasks.Layout

/-!
# Work conservation

The fill gives every slot to the best task of some session whose best task may
use it.  A task behind a session's best task is not considered, so in general a
slot may stay free although some task could use it.  When every session works for
one agent this cannot happen: the tasks of a session all may use a slot or none
of them may.  Then, after the fill, no waiting task may use a slot that is still
free (`Exhausted`), because a slot is passed over only when no session is ready
for it, and from then on the queues only shrink.
-/

namespace MicroEmu
namespace Tasks

open Std (ExtTreeMap LawfulEqCmp)
open Routing (AgentId)
open Library

namespace TaskBoard

variable {order : WalkOrder} {board : TaskBoard} {agentOf : Nat → AgentId}

/-- Every session's cards are of one agent. -/
def Uniform (agentOf : Nat → AgentId) (board : TaskBoard) : Prop :=
  ∀ (id : String) (task : TaskCard), board.tasks[id]? = some task →
    task.ownerAgent = agentOf task.ownerSession

/-- Every visited slot is taken, or no waiting task may use it. -/
def Exhausted (board : TaskBoard) (done : List DeviceSlot) (state : FillState) : Prop :=
  ∀ slot ∈ done, (∃ id : String, state.assignments[id]? = some ⟨slot⟩) ∨
    ∀ session, ∀ task ∈ state.waiting session,
      (board.slotOwner slot).admits task.ownerAgent = false

/-! ## One round -/

/-- Every task of a session that waits is of the session's agent. -/
theorem FillInv.waiting_agent {done : List DeviceSlot} {state : FillState}
    (hwf : board.WellFormed) (huniform : board.Uniform agentOf)
    (hinv : FillInv order board done state) {session : Nat} {task : TaskCard}
    (h : task ∈ state.waiting session) : task.ownerAgent = agentOf session := by
  obtain ⟨⟨htask, -⟩, rfl⟩ := (mem_queueOf hwf).mp (hinv.waiting_sub h)
  exact huniform _ _ htask

/-- If no session is ready for a slot, no waiting task may use it. -/
theorem admits_eq_false_of_not_ready {done : List DeviceSlot} {state : FillState}
    {slot : DeviceSlot} (hwf : board.WellFormed) (huniform : board.Uniform agentOf)
    (hinv : FillInv order board done state)
    (hnone : ∀ ready, ¬board.Ready state slot ready) {session : Nat} {task : TaskCard}
    (h : task ∈ state.waiting session) :
    (board.slotOwner slot).admits task.ownerAgent = false := by
  cases hqueue : state.waiting session with
  | nil =>
      rw [hqueue] at h
      cases h
  | cons head rest =>
      -- the queue is of one agent, so its head speaks for all of it
      have hhead : head ∈ state.waiting session := hqueue ▸ List.mem_cons_self
      have hnot : ¬(board.slotOwner slot).admits head.ownerAgent = true := fun hadmits =>
        hnone ⟨session, head, rest⟩ ⟨hqueue, hadmits⟩
      rw [hinv.waiting_agent hwf huniform h, ← hinv.waiting_agent hwf huniform hhead]
      exact Bool.eq_false_iff.mpr hnot

/-- Granting a slot to a waiting task keeps everybody else where they are. -/
theorem FillInv.granted_keeps {done : List DeviceSlot} {state : FillState} {slot : DeviceSlot}
    {ready : ReadySession} (hinv : FillInv order board done state)
    (hready : board.Ready state slot ready) {id : String} {assignment : TaskAssignment}
    (h : state.assignments[id]? = some assignment) :
    (granted state slot ready).assignments[id]? = some assignment := by
  obtain ⟨_, _, _, hwaiting⟩ := hinv.queued ready.session
  have hhead : state.assignments[ready.head.taskId]? = none :=
    hwaiting ready.head (hready.1 ▸ List.mem_cons_self)
  rw [granted_getElem?, if_neg]
  · exact h
  · intro hid
    rw [hid, h] at hhead
    cases hhead

/-- Granting a slot only takes a task out of a queue. -/
theorem granted_waiting_sub {state : FillState} {slot : DeviceSlot} {ready : ReadySession}
    (hready : board.Ready state slot ready) {session : Nat} {task : TaskCard}
    (h : task ∈ (granted state slot ready).waiting session) : task ∈ state.waiting session := by
  rw [granted_waiting] at h
  split at h
  · rename_i hsession
    rw [← hsession, hready.1]
    exact List.mem_cons_of_mem _ h
  · exact h

theorem Exhausted.step {done : List DeviceSlot} {state : FillState} {slot : DeviceSlot}
    (hwf : board.WellFormed) (huniform : board.Uniform agentOf)
    (hinv : FillInv order board done state) (hexhausted : board.Exhausted done state) :
    board.Exhausted (done ++ [slot]) (board.fillSlot state slot) := by
  intro visited hvisited
  rcases board.fillSlot_cases state slot with ⟨hsame, hnone⟩ | ⟨ready, hready, -, hgrant⟩
  · rw [hsame]
    rcases List.mem_append.mp hvisited with hdone | hnew
    · exact hexhausted visited hdone
    · rw [List.mem_singleton.mp hnew]
      exact Or.inr fun session task htask =>
        admits_eq_false_of_not_ready hwf huniform hinv hnone htask
  · rw [hgrant]
    rcases List.mem_append.mp hvisited with hdone | hnew
    · rcases hexhausted visited hdone with ⟨id, hid⟩ | hblocked
      · exact Or.inl ⟨id, hinv.granted_keeps hready hid⟩
      · exact Or.inr fun session task htask =>
          hblocked session task (granted_waiting_sub hready htask)
    · rw [List.mem_singleton.mp hnew]
      exact Or.inl ⟨ready.head.taskId, by rw [granted_getElem?, if_pos rfl]⟩

/-! ## One reallocation -/

/-- No eligible card is hidden while a slot it may use is free. -/
def Conserved (board : TaskBoard) : Prop :=
  ∀ (task : TaskCard) (slot : DeviceSlot), board.tasks[task.taskId]? = some task →
    task.state.eligible = true → board.assignments[task.taskId]? = none →
      slot ∈ board.available → slotTaken board.assignments slot = false →
        (board.slotOwner slot).admits task.ownerAgent = false

/-- The fill of a uniform board leaves no usable slot free. -/
theorem fairFill_conserved (order : WalkOrder) (hwf : board.WellFormed)
    (hinj : SlotInjective board.assignments) (huniform : board.Uniform agentOf) :
    (board.fairFill order).Conserved := by
  have hexhausted : board.Exhausted board.freeSlots (board.fillResult order) :=
    fill_induction hwf hinj (fun slot hslot => absurd hslot (List.not_mem_nil))
      fun hinv h _ _ => h.step hwf huniform hinv
  have hinv : FillInv order board board.freeSlots (board.fillResult order) :=
    fillResult_inv hwf hinj
  intro task slot htask heligible hhidden havailable hfree
  have hempty : ∀ id : String, (board.fillResult order).assignments[id]? ≠ some ⟨slot⟩ := by
    intro id hid
    have htaken : slotTaken (board.fairFill order).assignments slot = true :=
      slotTaken_iff.mpr ⟨id, hid⟩
    rw [hfree] at htaken
    cases htaken
  have hbefore : slotTaken board.assignments slot = false := by
    rw [← Bool.not_eq_true]
    intro htaken
    obtain ⟨id, hid⟩ := slotTaken_iff.mp htaken
    exact hempty id (hinv.old hid)
  -- a hidden card waits to the end, so the visited slot must have refused it
  have hwaiting := hinv.waiting_of_hidden hwf htask heligible hhidden
  rcases hexhausted slot (mem_freeSlots.mpr ⟨havailable, hbefore⟩) with ⟨id, hid⟩ | hblocked
  · exact absurd hid (hempty id)
  · exact hblocked task.ownerSession task hwaiting

theorem reallocate_conserved (order : WalkOrder) (hwf : board.WellFormed)
    (hinj : SlotInjective board.assignments) (huniform : board.Uniform agentOf) :
    (board.reallocate order).Conserved := by
  obtain ⟨_, _, assignments, _, _, hframe⟩ := reallocate_frame order board
  have hassignments : assignments = ((board.pinnedBoard order).fairFill order).assignments := by
    have h : (board.reallocate order).assignments = _ := reallocate_assignments
    rw [hframe] at h
    exact h
  have hpinned : (board.pinnedBoard order).Uniform agentOf := huniform
  have hconserved := fairFill_conserved order (pinnedBoard_wellFormed order hwf)
    (pinnedBoard_injective order hinj) hpinned
  rw [hframe]
  intro task slot htask heligible hhidden havailable hfree
  rw [hassignments] at hhidden hfree
  exact hconserved task slot htask heligible hhidden havailable hfree

/-! ## Runs with one agent per session -/

/-- Every publication of the run is for the agent of its session. -/
def Consistent (agentOf : Nat → AgentId) (steps : List (WalkOrder × Op)) : Prop :=
  ∀ step ∈ steps, ∀ session agent, step.2.publisher = some (session, agent) →
    agentOf session = agent

theorem Handed.uniform {op : Op} {m : TaskBoard} (h : Handed order board op m)
    (huniform : board.Uniform agentOf)
    (hop : ∀ session agent, op.publisher = some (session, agent) → agentOf session = agent) :
    m.Uniform agentOf := by
  intro id task htask
  rcases h.card htask with hold | hpublished
  · exact huniform _ _ hold
  · exact (hop _ _ hpublished).symm

theorem Quiet.uniform {after : TaskBoard} (h : Quiet board after)
    (huniform : board.Uniform agentOf) : after.Uniform agentOf := by
  intro id task htask
  obtain ⟨old, hold, howned⟩ := h.symm.card htask
  obtain ⟨-, hrest⟩ := Prod.mk.inj howned
  obtain ⟨hsession, hrest⟩ := Prod.mk.inj hrest
  obtain ⟨hagent, -⟩ := Prod.mk.inj hrest
  rw [← hsession, ← hagent]
  exact huniform _ _ hold

theorem Uniform.reallocate (order : WalkOrder) (huniform : board.Uniform agentOf) :
    (board.reallocate order).Uniform agentOf := by
  intro id task htask
  rw [reallocate_tasks] at htask
  exact huniform _ _ htask

/-- An operation for the agent of its session keeps the board uniform. -/
theorem Uniform.apply (huniform : board.Uniform agentOf) (order : WalkOrder) (op : Op)
    (hop : ∀ session agent, op.publisher = some (session, agent) → agentOf session = agent) :
    (board.apply order op).Uniform agentOf := by
  rcases apply_cases order board op with ⟨m, -, hhanded, hfocus⟩ | hquiet | ⟨-, hclear⟩
  · have hm : m.Uniform agentOf := hhanded.uniform huniform hop
    exact hfocus.quiet.uniform (hm.reallocate order)
  · exact hquiet.uniform huniform
  · rw [hclear]
    exact huniform

theorem Uniform.run (huniform : board.Uniform agentOf) {steps : List (WalkOrder × Op)}
    (hsteps : Consistent agentOf steps) : (run steps board).Uniform agentOf := by
  induction steps generalizing board with
  | nil => exact huniform
  | cons step steps ih =>
      have hfirst : (board.apply step.1 step.2).Uniform agentOf :=
        huniform.apply step.1 step.2 (hsteps step List.mem_cons_self)
      exact ih hfirst fun later hlater => hsteps later (List.mem_cons_of_mem _ hlater)

theorem uniform_default : Uniform agentOf default := by
  intro id task htask
  simp [default] at htask

theorem Refocused.conserved {after : TaskBoard} (h : Refocused board after)
    (hconserved : board.Conserved) : after.Conserved := by
  obtain ⟨_, _, rfl⟩ := h
  exact hconserved

/-- In a run that uses every session for one agent, no operation that reallocates
leaves a card hidden while a slot it may use is free. -/
theorem work_conservation (agentOf : Nat → AgentId) (steps : List (WalkOrder × Op))
    (order : WalkOrder) (op : Op) {m : TaskBoard}
    (hconsistent : Consistent agentOf (steps ++ [(order, op)]))
    (hm : handover order (run steps default) op = some m) :
    Conserved ((run steps default).apply order op) := by
  have hplaced := placed_run steps
  have huniform : (run steps default).Uniform agentOf :=
    uniform_default.run fun step hstep => hconsistent step (List.mem_append_left _ hstep)
  have hhanded := handed_of_handover hm
  have hinj : SlotInjective m.assignments := hhanded.injective hplaced.injective
  have hm' : m.Uniform agentOf :=
    hhanded.uniform huniform (hconsistent (order, op) (by simp))
  exact (apply_of_handover hm).conserved
    (reallocate_conserved order (hhanded.wellFormed hplaced.wellFormed) hinj hm')

/-- Two cards of one session wait for a controller. -/
def twoWaiting : List (WalkOrder × Op) :=
  [(.ascending, .publishTasks 1 .zCode (.object [("tasks", .array
    [.object [("task_id", .string "a")], .object [("task_id", .string "b")]])]) 10)]

/-- A controller of one slot shows one of the two cards and leaves no slot free. -/
theorem work_conservation_one_slot :
    Conserved ((run twoWaiting default).apply .ascending (.setDevice "deck" 1 true)) := by
  refine work_conservation (fun _ => .zCode) twoWaiting .ascending (.setDevice "deck" 1 true)
    ?_ rfl
  intro step hstep session agent hpublisher
  rcases List.mem_pair.mp hstep with rfl | rfl
  · exact congrArg Prod.snd (Option.some.inj hpublisher)
  · cases hpublisher

end TaskBoard
end Tasks
end MicroEmu
