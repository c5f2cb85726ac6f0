import MicroEmu.Tasks.Fill

/-!
# The stages of a reallocation

A reallocation runs the retain, sticky, pin and fill passes in turn.  This
module names the boards between the passes and says what the earlier stages
leave for the later ones: which tasks ask for the slot they remember
(`Requests`), which slots and tasks the sticky pass serves, and where a task is
at the end (`reallocate_entry`).
-/

namespace MicroEmu
namespace Tasks

open Std (ExtTreeMap LawfulEqCmp)
open Routing (AgentId)
open Library

namespace TaskBoard

variable {order : WalkOrder} {board : TaskBoard}

/-! ## The stages of a reallocation -/

/-- The board between the sticky pass and the pin pass. -/
def stickyBoard (order : WalkOrder) (board : TaskBoard) : TaskBoard :=
  board.retainPass.stickyPass order

/-- The board between the pin pass and the fill. -/
def pinnedBoard (order : WalkOrder) (board : TaskBoard) : TaskBoard :=
  (board.stickyBoard order).pinCodexHidPrimarySlots order

theorem repairSelection_frame (board : TaskBoard) :
    ∃ selected pendingSelection,
      board.repairSelection = { board with selected, pendingSelection } := by
  unfold repairSelection
  split
  · exact ⟨_, _, rfl⟩
  · exact ⟨_, _, rfl⟩

/-- A reallocation changes the layout, the memory and a stale selection. -/
theorem reallocate_frame (order : WalkOrder) (board : TaskBoard) :
    ∃ selected pendingSelection assignments lastSlots primaryPreferences,
      board.reallocate order =
        { board with
          selected, pendingSelection, assignments, lastSlots, primaryPreferences } := by
  obtain ⟨selected, pending, hrepair⟩ := repairSelection_frame board
  unfold reallocate
  rw [hrepair]
  exact ⟨_, _, _, _, _, rfl⟩

@[simp] theorem reallocate_tasks : (board.reallocate order).tasks = board.tasks := by
  obtain ⟨_, _, _, _, _, h⟩ := reallocate_frame order board
  rw [h]

@[simp] theorem reallocate_devices : (board.reallocate order).devices = board.devices := by
  obtain ⟨_, _, _, _, _, h⟩ := reallocate_frame order board
  rw [h]

@[simp] theorem reallocate_slotOwners :
    (board.reallocate order).slotOwners = board.slotOwners := by
  obtain ⟨_, _, _, _, _, h⟩ := reallocate_frame order board
  rw [h]

@[simp] theorem reallocate_partitionedDeviceId :
    (board.reallocate order).partitionedDeviceId = board.partitionedDeviceId := by
  obtain ⟨_, _, _, _, _, h⟩ := reallocate_frame order board
  rw [h]

/-- The layout a reallocation ends with is that of the fill. -/
theorem reallocate_assignments :
    (board.reallocate order).assignments =
      ((board.pinnedBoard order).fillResult order).assignments := by
  obtain ⟨selected, pending, hrepair⟩ := repairSelection_frame board
  unfold reallocate
  rw [hrepair]
  rfl

/-- A reallocation ends with the record of its layout. -/
theorem reallocate_remembers (order : WalkOrder) (board : TaskBoard) :
    ∃ base : TaskBoard, board.reallocate order = base.rememberSlots order ∧
      base.assignments = (board.reallocate order).assignments ∧
        base.lastSlots = board.lastSlots ∧
          base.primaryPreferences = board.primaryPreferences ∧
            base.partitionedDeviceId = board.partitionedDeviceId ∧
              base.tasks = board.tasks := by
  obtain ⟨selected, pending, hrepair⟩ := repairSelection_frame board
  unfold TaskBoard.reallocate
  rw [hrepair]
  exact ⟨_, rfl, rfl, rfl, rfl, rfl, rfl⟩

/-- Whether a board is well formed depends on its cards and devices only. -/
theorem WellFormed.congr {other : TaskBoard} (hwf : board.WellFormed)
    (htasks : other.tasks = board.tasks) (hdevices : other.devices = board.devices) :
    other.WellFormed where
  keyed := by
    intro id task h
    rw [htasks] at h
    exact hwf.keyed h
  devices := by
    intro id slots h
    rw [hdevices] at h
    exact hwf.devices h

theorem retainPass_wellFormed (hwf : board.WellFormed) : board.retainPass.WellFormed :=
  hwf.congr rfl rfl

theorem stickyBoard_wellFormed (order : WalkOrder) (hwf : board.WellFormed) :
    (board.stickyBoard order).WellFormed := hwf.congr rfl rfl

theorem pinnedBoard_wellFormed (order : WalkOrder) (hwf : board.WellFormed) :
    (board.pinnedBoard order).WellFormed := hwf.congr rfl rfl

theorem reallocate_wellFormed (order : WalkOrder) (hwf : board.WellFormed) :
    (board.reallocate order).WellFormed := hwf.congr reallocate_tasks reallocate_devices

theorem retainPass_injective (hinj : SlotInjective board.assignments) :
    SlotInjective board.retainPass.assignments := by
  intro a b ⟨slot⟩ ha hb
  exact hinj (retained_iff.mp ha).1 (retained_iff.mp hb).1

theorem stickyBoard_injective (order : WalkOrder) (hinj : SlotInjective board.assignments) :
    SlotInjective (board.stickyBoard order).assignments :=
  stickyPass_injective (retainPass_injective hinj)

theorem pinnedBoard_injective (order : WalkOrder) (hinj : SlotInjective board.assignments) :
    SlotInjective (board.pinnedBoard order).assignments :=
  pinPass_injective (stickyBoard_injective order hinj)

/-- Once the retain pass has run, the task asks for the slot it remembers. -/
def Requests (board : TaskBoard) (id : String) (slot : DeviceSlot) : Prop :=
  ∃ task, board.tasks[id]? = some task ∧ board.retainPass.unplaced task = true ∧
    board.retainPass.stickyTarget task = some slot

theorem mem_requests (order : WalkOrder) (hwf : board.WellFormed) {id : String}
    {slot : DeviceSlot} :
    (id, slot) ∈ board.retainPass.stickyRequests order ↔ board.Requests id slot :=
  mem_stickyRequests (retainPass_wellFormed hwf)

/-- The sticky pass moves nobody the retain pass keeps. -/
theorem stickyBoard_keeps (order : WalkOrder) (hwf : board.WellFormed)
    (hinj : SlotInjective board.assignments) {id : String} {assignment : TaskAssignment}
    (h : board.retainPass.assignments[id]? = some assignment) :
    (board.stickyBoard order).assignments[id]? = some assignment :=
  stickyPass_extends (retainPass_wellFormed hwf) (retainPass_injective hinj) h

/-- Before the pins a task is on a slot it kept or asked for. -/
theorem of_stickyBoard (hwf : board.WellFormed) (hinj : SlotInjective board.assignments)
    {id : String} {slot : DeviceSlot}
    (h : (board.stickyBoard order).assignments[id]? = some ⟨slot⟩) :
    board.retainPass.assignments[id]? = some ⟨slot⟩ ∨ board.Requests id slot := by
  rcases of_stickyPass (retainPass_wellFormed hwf) (retainPass_injective hinj) h with hkept | hmem
  · exact Or.inl hkept
  · exact Or.inr ((mem_requests order hwf).mp hmem)

/-- Every slot that is asked for is taken before the pins. -/
theorem stickyBoard_taken (order : WalkOrder) (hwf : board.WellFormed)
    (hinj : SlotInjective board.assignments) {id : String} {slot : DeviceSlot}
    (h : board.Requests id slot) :
    ∃ holder : String, (board.stickyBoard order).assignments[holder]? = some ⟨slot⟩ := by
  have hp := represents_placementOf (retainPass_injective hinj)
  have hfresh := stickyRequests_fresh order (retainPass_wellFormed hwf) hp
  obtain ⟨holder, hholder⟩ := Placement.settleAll_taken hfresh ((mem_requests order hwf).mpr h)
  exact ⟨holder, (stickyPass_represents hp).at_iff.mpr hholder⟩

/-- A task that asks for a slot is on it before the pins, unless another one asks
for the same slot. -/
theorem stickyBoard_of_sole (order : WalkOrder) (hwf : board.WellFormed)
    (hinj : SlotInjective board.assignments) {id : String} {slot : DeviceSlot}
    (h : board.Requests id slot) (hsole : ∀ other, board.Requests other slot → other = id) :
    (board.stickyBoard order).assignments[id]? = some ⟨slot⟩ := by
  obtain ⟨holder, hholder⟩ := stickyBoard_taken order hwf hinj h
  rcases of_stickyBoard hwf hinj hholder with hkept | hasked
  · obtain ⟨_, -, -, htarget⟩ := h
    have hfree := (stickyTarget_eq_some_iff.mp htarget).2.2.1
    rw [slotTaken_iff.mpr ⟨holder, hkept⟩] at hfree
    cases hfree
  · rwa [hsole holder hasked] at hholder

/-- The task that a walk meets first is on the slot it asks for before the pins. -/
theorem stickyBoard_leading (hwf : board.WellFormed) (hinj : SlotInjective board.assignments)
    {id : String} {slot : DeviceSlot} (h : board.Requests id slot) :
    (board.stickyBoard (.leading id)).assignments[id]? = some ⟨slot⟩ := by
  obtain ⟨task, htask, hunplaced, htarget⟩ := h
  obtain rfl := hwf.keyed htask
  obtain ⟨rest, hwalk⟩ := WalkOrder.leading_values htask
  obtain ⟨later, hrequests⟩ : ∃ later,
      board.retainPass.stickyRequests (.leading task.taskId) = (task.taskId, slot) :: later := by
    show ∃ later, List.filterMap _ (List.filter _ ((WalkOrder.leading task.taskId).values
      board.tasks)) = _ :: later
    rw [hwalk, List.filter_cons_of_pos hunplaced, List.filterMap_cons, htarget]
    exact ⟨_, rfl⟩
  have hp := represents_placementOf (retainPass_injective hinj)
  have hfresh := stickyRequests_fresh (.leading task.taskId) (retainPass_wellFormed hwf) hp
  refine (stickyPass_represents hp).at_iff.mpr ?_
  rw [hrequests] at hfresh ⊢
  refine Placement.settleAll_first hfresh fun htaken => ?_
  have hfree := (stickyTarget_eq_some_iff.mp htarget).2.2.1
  rw [hp.taken_iff.mpr htaken] at hfree
  cases hfree

/-- Without requests the sticky pass does nothing. -/
theorem stickyBoard_of_still (order : WalkOrder) (hwf : board.WellFormed)
    (hstill : ∀ id slot, ¬board.Requests id slot) :
    board.stickyBoard order = board.retainPass := by
  have hnil : board.retainPass.stickyRequests order = [] := by
    rw [List.eq_nil_iff_forall_not_mem]
    rintro ⟨id, slot⟩ hmem
    exact hstill id slot ((mem_requests order hwf).mp hmem)
  unfold stickyBoard stickyPass
  rw [hnil]
  rfl

/-- The fill of a reallocation. -/
theorem reallocate_fillInv (order : WalkOrder) (hwf : board.WellFormed)
    (hinj : SlotInjective board.assignments) :
    FillInv order (board.pinnedBoard order) (board.pinnedBoard order).freeSlots
      ((board.pinnedBoard order).fillResult order) :=
  fillResult_inv (pinnedBoard_wellFormed order hwf) (pinnedBoard_injective order hinj)

/-- A reallocation lays tasks out injectively. -/
theorem reallocate_injective (order : WalkOrder) (hwf : board.WellFormed)
    (hinj : SlotInjective board.assignments) :
    SlotInjective (board.reallocate order).assignments := by
  rw [reallocate_assignments]
  exact (reallocate_fillInv order hwf hinj).injective

/-! ## Where a reallocation puts a task -/

/-- The agent may stay on the slot, or the card is the Codex card of that very
position. -/
structure Complies (board : TaskBoard) (task : TaskCard) (slot : DeviceSlot) : Prop where
  available : slot ∈ board.available
  owner : board.retainsOwner task.ownerAgent slot = true ∨
    (board.partitionedDeviceId = some slot.deviceId ∧ task.ownerAgent = .codex ∧
      task.sourceSlot = some slot.slot ∧ board.ownedByCodex slot.slot = true)

/-- A slot that admits an agent retains it. -/
theorem retainsOwner_of_admits {slot : DeviceSlot} {agent : AgentId}
    (h : (board.slotOwner slot).admits agent = true) :
    board.retainsOwner agent slot = true := by
  unfold slotOwner at h
  unfold retainsOwner
  by_cases hprimary : board.partitionedDeviceId = some slot.deviceId
  · cases howner : board.slotOwners[slot.slot]? with
    | none => simp
    | some owner =>
        have hne : board.slotOwners.isEmpty = false := by
          cases howners : board.slotOwners with
          | nil => simp [howners] at howner
          | cons _ _ => rfl
        simp only [hprimary, ne_eq, not_true_eq_false, hne, Bool.false_eq_true, or_self,
          if_false, howner] at h
        cases owner with
        | none =>
            -- an unowned position admits nobody unless it lies beyond the six
            by_cases hbeyond : slot.slot ≥ Routing.lcdSlots
            · simp [hbeyond]
            · simp [hbeyond, SlotConstraint.admits] at h
        | some owner =>
            simp only [SlotConstraint.admits, Option.all_some] at h
            simp [h]
  · simp [hprimary]

/-- Every task a reallocation leaves on a slot complies with it. -/
theorem reallocate_entry (hwf : board.WellFormed) (hinj : SlotInjective board.assignments)
    {id : String} {slot : DeviceSlot}
    (h : (board.reallocate order).assignments[id]? = some ⟨slot⟩) :
    ∃ task, board.tasks[id]? = some task ∧ board.Complies task slot := by
  rw [reallocate_assignments] at h
  rcases (reallocate_fillInv order hwf hinj).only h with hpinned | ⟨hfree, task, hmem, rfl, hadmits⟩
  · rcases (pinPass_iff (stickyBoard_wellFormed order hwf)
        (stickyBoard_injective order hinj)).mp hpinned with
      ⟨⟨task, htask, hpin⟩, -⟩ | ⟨-, -, hsticky⟩
    · obtain ⟨hprimary, havail, hagent, hsource, howned, -⟩ :=
        (pinSlot_eq_some_iff (stickyBoard_wellFormed order hwf)).mp hpin
      exact ⟨task, htask, havail, Or.inr ⟨hprimary, hagent, hsource, howned⟩⟩
    · rcases of_stickyBoard hwf hinj hsticky with
        hretained | hrequest
      · obtain ⟨task, htask, -, havail, howner⟩ := retains_iff.mp (retained_iff.mp hretained).2
        exact ⟨task, htask, havail, Or.inl howner⟩
      · obtain ⟨task, htask, -, htarget⟩ := hrequest
        obtain ⟨-, havail, -, hadmits⟩ := stickyTarget_eq_some_iff.mp htarget
        exact ⟨task, htask, havail, Or.inl (retainsOwner_of_admits hadmits)⟩
  · have hcandidate := (mem_candidates (pinnedBoard_wellFormed order hwf)).mp hmem
    have havail := (mem_freeSlots.mp hfree).1
    exact ⟨task, hcandidate.1, havail, Or.inl (retainsOwner_of_admits hadmits)⟩

end TaskBoard
end Tasks
end MicroEmu
