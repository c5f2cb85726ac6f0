import MicroEmu.Tasks.Steps
import Mathlib.Data.Finset.Card

/-!
# The layout invariant

After any sequence of operations the assignment map is a placement of existing
cards on slots of registered devices, and every placed card complies with the
partition of the primary controller.  `Placed` is the invariant.  A reallocation
establishes its last part from the first two (`Placed.of_reallocate`), a quiet
operation keeps it (`Placed.of_quiet`), and a run starts from the empty layout.

What the controllers paint follows from the invariant: the registered devices
together show no card twice and at most one card as selected.
-/

namespace MicroEmu
namespace Tasks

open Std (ExtTreeMap LawfulEqCmp)
open Json (Value)
open Routing (AgentId)
open Library

namespace TaskBoard

variable {order : WalkOrder} {board : TaskBoard}

/-- Cards and devices are well formed, no two tasks share a slot, and every
assignment belongs to a card that complies with its slot. -/
structure Placed (board : TaskBoard) : Prop where
  wellFormed : board.WellFormed
  injective : SlotInjective board.assignments
  complies : ∀ {id : String} {slot : DeviceSlot}, board.assignments[id]? = some ⟨slot⟩ →
    ∃ task, board.tasks[id]? = some task ∧ board.Complies task slot

/-! ## One step -/

/-- Compliance depends on devices and owners, and on agent and source slot. -/
theorem Complies.congr {other : TaskBoard} {task task' : TaskCard} {slot : DeviceSlot}
    (h : board.Complies task slot) (hdevices : other.devices = board.devices)
    (howners : other.slotOwners = board.slotOwners)
    (hprimary : other.partitionedDeviceId = board.partitionedDeviceId)
    (hagent : task'.ownerAgent = task.ownerAgent)
    (hsource : task'.sourceSlot = task.sourceSlot) : other.Complies task' slot where
  available := by
    unfold TaskBoard.available
    rw [hdevices]
    exact h.available
  owner := by
    unfold retainsOwner ownedByCodex
    rw [howners, hprimary, hagent, hsource]
    exact h.owner

theorem Placed.of_reallocate (order : WalkOrder) {m : TaskBoard} (hwf : m.WellFormed)
    (hinj : SlotInjective m.assignments) : Placed (m.reallocate order) where
  wellFormed := reallocate_wellFormed order hwf
  injective := reallocate_injective order hwf hinj
  complies := by
    intro id slot h
    obtain ⟨task, htask, hcomplies⟩ := reallocate_entry hwf hinj h
    refine ⟨task, by rw [reallocate_tasks]; exact htask, ?_⟩
    exact hcomplies.congr reallocate_devices reallocate_slotOwners
      reallocate_partitionedDeviceId rfl rfl

/-- Where a quiet operation got a card from. -/
theorem Quiet.card {before after : TaskBoard} (h : Quiet before after) {id : String}
    {task : TaskCard} (ht : before.tasks[id]? = some task) :
    ∃ task', after.tasks[id]? = some task' ∧ task'.owned = task.owned := by
  have hcards := h.cards id
  rw [ht, Option.map_some] at hcards
  obtain ⟨task', htask', howned⟩ := Option.map_eq_some_iff.mp hcards
  exact ⟨task', htask', howned⟩

theorem Quiet.none_iff {before after : TaskBoard} (h : Quiet before after) {id : String} :
    after.tasks[id]? = none ↔ before.tasks[id]? = none := by
  have hcards := h.cards id
  constructor
  · intro hnone
    rw [hnone, Option.map_none] at hcards
    exact Option.map_eq_none_iff.mp hcards.symm
  · intro hnone
    rw [hnone, Option.map_none] at hcards
    exact Option.map_eq_none_iff.mp hcards

theorem Quiet.symm {before after : TaskBoard} (h : Quiet before after) : Quiet after before :=
  ⟨h.assignments.symm, h.devices.symm, h.slotOwners.symm, h.partitionedDeviceId.symm,
    fun id => (h.cards id).symm, fun id hnone => (h.acknowledged id (h.none_iff.mp hnone)).symm⟩

theorem Quiet.wellFormed {before after : TaskBoard} (h : Quiet before after)
    (hwf : before.WellFormed) : after.WellFormed where
  keyed := by
    intro id task ht
    obtain ⟨old, hold, howned⟩ := h.symm.card ht
    exact (congrArg Prod.fst howned).symm.trans (hwf.keyed hold)
  devices := by
    intro id slots hd
    rw [h.devices] at hd
    exact hwf.devices hd

theorem Placed.of_quiet {after : TaskBoard} (hplaced : Placed board)
    (h : Quiet board after) : Placed after where
  wellFormed := h.wellFormed hplaced.wellFormed
  injective := by
    unfold SlotInjective
    rw [h.assignments]
    exact hplaced.injective
  complies := by
    intro id slot hassigned
    rw [h.assignments] at hassigned
    obtain ⟨task, htask, hcomplies⟩ := hplaced.complies hassigned
    obtain ⟨task', htask', howned⟩ := h.card htask
    obtain ⟨-, hrest⟩ := Prod.mk.inj howned
    obtain ⟨-, hrest⟩ := Prod.mk.inj hrest
    obtain ⟨hagent, hsource⟩ := Prod.mk.inj hrest
    exact ⟨task', htask',
      hcomplies.congr h.devices h.slotOwners h.partitionedDeviceId hagent hsource⟩

theorem placed_clearDevices (hplaced : Placed board) : Placed board.clearDevices where
  wellFormed := by
    refine ⟨fun ht => hplaced.wellFormed.keyed ht, fun {id slots} hd => ?_⟩
    simp [clearDevices] at hd
  injective := by
    intro a b assignment ha
    simp [clearDevices] at ha
  complies := by
    intro id slot ha
    simp [clearDevices] at ha

/-- Every operation keeps the invariant. -/
theorem Placed.apply (hplaced : Placed board) (order : WalkOrder) (op : Op) :
    Placed (board.apply order op) := by
  rcases apply_cases order board op with ⟨m, -, hhanded, hfocus⟩ | hquiet | ⟨-, hclear⟩
  · have hm := Placed.of_reallocate order (hhanded.wellFormed hplaced.wellFormed)
      (hhanded.injective hplaced.injective)
    exact hm.of_quiet hfocus.quiet
  · exact hplaced.of_quiet hquiet
  · rw [hclear]
    exact placed_clearDevices hplaced

theorem placed_default : Placed default where
  wellFormed := by
    refine ⟨fun {id task} ht => ?_, fun {id slots} hd => ?_⟩
    · simp [default] at ht
    · simp [default] at hd
  injective := by
    intro a b assignment ha
    simp [default] at ha
  complies := by
    intro id slot ha
    simp [default] at ha

/-- A run keeps the invariant. -/
theorem Placed.run (hplaced : Placed board) (steps : List (WalkOrder × Op)) :
    Placed (run steps board) := by
  induction steps generalizing board with
  | nil => exact hplaced
  | cons step steps ih => exact ih (hplaced.apply step.1 step.2)

theorem placed_run (steps : List (WalkOrder × Op)) : Placed (run steps default) :=
  placed_default.run steps

/-! ## What the registered devices show -/

theorem occupant_eq_some_iff (hinj : SlotInjective board.assignments) {deviceId : String}
    {slot : Nat} {id : String} :
    board.occupant order deviceId slot = some id ↔
      board.assignments[id]? = some ⟨⟨deviceId, slot⟩⟩ := by
  have hentry : ∀ entry : String × TaskAssignment,
      (entry.2.slot.deviceId == deviceId && entry.2.slot.slot == slot) = true ↔
        entry.2 = ⟨⟨deviceId, slot⟩⟩ := by
    rintro ⟨_, ⟨⟨d, s⟩⟩⟩
    simp
  unfold occupant
  constructor
  · intro h
    obtain ⟨⟨found, assignment⟩, hfind, rfl⟩ := Option.map_eq_some_iff.mp h
    have htest := List.find?_some hfind
    have hslot := (hentry _).mp htest
    have hmem := order.mem_entries.mp (List.mem_of_find?_eq_some hfind)
    exact hslot ▸ hmem
  · intro h
    cases hfind : (order.entries board.assignments).find? fun entry =>
        entry.2.slot.deviceId == deviceId && entry.2.slot.slot == slot with
    | none =>
        have hnot := List.find?_eq_none.mp hfind _ (order.mem_entries.mpr h)
        exact absurd ((hentry _).mpr rfl) hnot
    | some entry =>
        have htest := List.find?_some hfind
        have hslot := (hentry _).mp htest
        have hmem := order.mem_entries.mp (List.mem_of_find?_eq_some hfind)
        rw [hslot] at hmem
        rw [Option.map_some, hinj hmem h]

/-- The card on a slot is the card of the task assigned to it. -/
theorem taskAt_eq_some_iff (hplaced : Placed board) {deviceId : String} {slot : Nat}
    {task : TaskCard} :
    board.taskAt order deviceId slot = some task ↔
      board.assignments[task.taskId]? = some ⟨⟨deviceId, slot⟩⟩ ∧
        board.tasks[task.taskId]? = some task := by
  unfold taskAt
  rw [Option.bind_eq_some_iff]
  constructor
  · rintro ⟨id, hocc, htask⟩
    obtain rfl := hplaced.wellFormed.keyed htask
    exact ⟨(occupant_eq_some_iff hplaced.injective).mp hocc, htask⟩
  · rintro ⟨hassigned, htask⟩
    exact ⟨_, (occupant_eq_some_iff hplaced.injective).mpr hassigned, htask⟩

/-- The task a painted slot names. -/
def shownTask (painted : Value) : Option String := (painted.get? "task_id").bind Value.asStr

/-- A painted slot marks its task as selected. -/
def paintedSelected (painted : Value) : Bool :=
  match painted.get? "selected" with
  | some (.bool selected) => selected
  | _ => false

/-- What all registered devices paint, each over its own slots. -/
def screens (order : WalkOrder) (board : TaskBoard) : List Value :=
  board.devices.toList.flatMap fun device => board.renderedSlots order device.1 device.2.length

theorem shownTask_renderedSlot {deviceId : String} {slot : Nat} :
    shownTask (board.renderedSlot order deviceId slot) =
      (board.taskAt order deviceId slot).map TaskCard.taskId := by
  unfold renderedSlot
  cases board.taskAt order deviceId slot with
  | none => rfl
  | some task => rfl

theorem paintedSelected_renderedSlot {deviceId : String} {slot : Nat} :
    paintedSelected (board.renderedSlot order deviceId slot) =
      (board.taskAt order deviceId slot).any fun task =>
        board.selectedOn deviceId == some task.taskId := by
  unfold renderedSlot
  cases board.taskAt order deviceId slot with
  | none => rfl
  | some task => rfl

/-- The screens are the painted slots of the registered devices. -/
theorem screens_eq (hwf : board.WellFormed) :
    screens order board =
      board.available.map fun slot => board.renderedSlot order slot.deviceId slot.slot := by
  unfold screens available
  rw [List.map_flatten, List.map_map, ← List.flatMap_def]
  refine List.flatMap_congr fun device hmem => ?_
  obtain ⟨n, hn⟩ := hwf.devices (ExtTreeMap.mem_toList_iff_getElem?_eq_some.mp hmem)
  simp [hn, renderedSlots, deviceSlots]

/-- No card is shown twice. -/
theorem shown_nodup (hplaced : Placed board) :
    ((screens order board).filterMap shownTask).Nodup := by
  rw [screens_eq hplaced.wellFormed, List.filterMap_map]
  refine List.Nodup.filterMap ?_ (available_nodup hplaced.wellFormed)
  intro a b id ha hb
  simp only [Function.comp_apply, shownTask_renderedSlot, Option.mem_def,
    Option.map_eq_some_iff] at ha hb
  obtain ⟨task, htask, rfl⟩ := ha
  obtain ⟨task', htask', hid⟩ := hb
  -- two slots that show one id are both the slot of that task
  have hslotA := ((taskAt_eq_some_iff hplaced).mp htask).1
  have hslotB := ((taskAt_eq_some_iff hplaced).mp htask').1
  rw [hid, hslotA] at hslotB
  exact congrArg TaskAssignment.slot (Option.some.inj hslotB)

/-- A slot is painted as selected exactly when the selected task is on it. -/
theorem selected_slot_iff (hplaced : Placed board) {slot : DeviceSlot} :
    paintedSelected (board.renderedSlot order slot.deviceId slot.slot) = true ↔
      ∃ id, board.selected = some id ∧ board.assignments[id]? = some ⟨slot⟩ := by
  rw [paintedSelected_renderedSlot]
  simp only [Option.any_eq_true, beq_iff_eq, selectedOn, Option.filter_eq_some_iff]
  constructor
  · rintro ⟨task, htask, hselected, -⟩
    exact ⟨task.taskId, hselected, ((taskAt_eq_some_iff hplaced).mp htask).1⟩
  · rintro ⟨id, hselected, hassigned⟩
    obtain ⟨task, htask, -⟩ := hplaced.complies hassigned
    obtain rfl := hplaced.wellFormed.keyed htask
    refine ⟨task, (taskAt_eq_some_iff hplaced).mpr ⟨hassigned, htask⟩, hselected, ?_⟩
    simp [assignedOn, hassigned]

theorem selected_length (hplaced : Placed board) :
    ((screens order board).filter paintedSelected).length =
      (board.available.filter fun slot =>
        paintedSelected (board.renderedSlot order slot.deviceId slot.slot)).length := by
  rw [screens_eq hplaced.wellFormed, List.filter_map, List.length_map]
  rfl

theorem selected_length_le_one (order : WalkOrder) (hplaced : Placed board) :
    ((screens order board).filter paintedSelected).length ≤ 1 := by
  have hnodup := (available_nodup hplaced.wellFormed).filter fun slot =>
    paintedSelected (board.renderedSlot order slot.deviceId slot.slot)
  rw [selected_length hplaced, ← List.toFinset_card_of_nodup hnodup, Finset.card_le_one]
  intro a ha b hb
  rw [List.mem_toFinset, List.mem_filter, selected_slot_iff hplaced] at ha hb
  obtain ⟨-, id, hid, hat⟩ := ha
  obtain ⟨-, id', hid', hat'⟩ := hb
  rw [hid] at hid'
  obtain rfl := Option.some.inj hid'
  rw [hat] at hat'
  exact congrArg TaskAssignment.slot (Option.some.inj hat')

theorem selected_length_eq_one (hplaced : Placed board) {id : String}
    {assignment : TaskAssignment} (hselected : board.selected = some id)
    (hassigned : board.assignments[id]? = some assignment) :
    ((screens order board).filter paintedSelected).length = 1 := by
  obtain ⟨slot⟩ := assignment
  have hle := selected_length_le_one order hplaced
  have hpos : 0 < ((screens order board).filter paintedSelected).length := by
    rw [selected_length hplaced]
    obtain ⟨task, -, hcomplies⟩ := hplaced.complies hassigned
    apply List.length_pos_of_mem
    exact List.mem_filter.mpr
      ⟨hcomplies.available, (selected_slot_iff hplaced).mpr ⟨id, hselected, hassigned⟩⟩
  omega

/-! ## Placement -/

/-- The assignment map is a placement and the screens show it as one. -/
structure IsPlacement (board : TaskBoard) : Prop where
  /-- Every assigned id names an existing task. -/
  tasks : ∀ {id : String} {assignment : TaskAssignment},
    board.assignments[id]? = some assignment → board.tasks.contains id = true
  /-- Every assigned slot exists on a registered device. -/
  slots : ∀ {id : String} {assignment : TaskAssignment},
    board.assignments[id]? = some assignment →
      ∃ slots, board.devices[assignment.slot.deviceId]? = some slots ∧
        assignment.slot.slot < slots.length
  /-- No two tasks are on the same slot. -/
  injective : ∀ {a b : String} {assignment : TaskAssignment},
    board.assignments[a]? = some assignment → board.assignments[b]? = some assignment → a = b
  /-- The registered devices together show no task twice. -/
  shownOnce : ∀ order, ((screens order board).filterMap shownTask).Nodup
  /-- They never paint two cards as selected. -/
  selectedOnce : ∀ order, ((screens order board).filter paintedSelected).length ≤ 1
  /-- They paint one as selected if the selected task is assigned. -/
  selectedShown : ∀ order {id : String} {assignment : TaskAssignment},
    board.selected = some id → board.assignments[id]? = some assignment →
      ((screens order board).filter paintedSelected).length = 1

theorem Placed.isPlacement (hplaced : Placed board) : IsPlacement board where
  tasks := by
    intro id ⟨slot⟩ h
    obtain ⟨task, htask, -⟩ := hplaced.complies h
    exact contains_iff_exists.mpr ⟨task, htask⟩
  slots := by
    intro id ⟨slot⟩ h
    obtain ⟨task, -, hcomplies⟩ := hplaced.complies h
    obtain ⟨n, hdevice, hlt⟩ := (mem_available_iff hplaced.wellFormed).mp hcomplies.available
    exact ⟨_, hdevice, by simpa [deviceSlots] using hlt⟩
  injective := hplaced.injective
  shownOnce := fun _ => shown_nodup hplaced
  selectedOnce := fun order => selected_length_le_one order hplaced
  selectedShown := fun _ {_ _} hselected hassigned =>
    selected_length_eq_one hplaced hselected hassigned

/-- After every sequence of operations the layout is a placement. -/
theorem run_isPlacement (steps : List (WalkOrder × Op)) : IsPlacement (run steps default) :=
  (placed_run steps).isPlacement

/-! ## Partition compliance -/

/-- An entry of the owner list lets a card be on its slot: it names the card's
agent, or it is empty and the slot lies beyond the six positions or is the
position of that very Codex card. -/
def OwnerAdmits (owner : Option AgentId) (task : TaskCard) (slot : Nat) : Prop :=
  match owner with
  | some agent => task.ownerAgent = agent
  | none =>
      slot ≥ Routing.lcdSlots ∨ (task.ownerAgent = .codex ∧ task.sourceSlot = some slot)

theorem Complies.ownerAdmits {task : TaskCard} {slot : DeviceSlot} {owner : Option AgentId}
    (h : board.Complies task slot) (hprimary : board.partitionedDeviceId = some slot.deviceId)
    (howner : board.slotOwners[slot.slot]? = some owner) :
    OwnerAdmits owner task slot.slot := by
  rcases h.owner with hretains | ⟨-, hagent, hsource, howned⟩
  · unfold retainsOwner at hretains
    simp only [hprimary, bne_self_eq_false, Bool.false_or, howner, Option.all_some,
      Bool.or_eq_true, beq_iff_eq, Bool.and_eq_true, decide_eq_true_eq] at hretains
    cases owner with
    | some agent =>
        show task.ownerAgent = agent
        rcases hretains with hsame | ⟨hnone, -⟩
        · exact (Option.some.inj hsame).symm
        · cases hnone
    | none =>
        rcases hretains with hsame | ⟨-, hbeyond⟩
        · cases hsame
        · exact Or.inl hbeyond
  · cases owner with
    | some agent =>
        show task.ownerAgent = agent
        unfold ownedByCodex at howned
        rw [howner, Option.join_some, Option.all_some, Bool.or_eq_true] at howned
        rcases howned with hempty | hcodex
        · rw [List.isEmpty_iff] at hempty
          rw [hempty] at howner
          cases howner
        · exact hagent.trans (beq_iff_eq.mp hcodex).symm
    | none => exact Or.inr ⟨hagent, hsource⟩

/-- No card is assigned to or shown on a slot of the partitioned device whose
owner entry does not admit it. -/
structure RespectsPartition (board : TaskBoard) : Prop where
  assigned : ∀ {id : String} {slot : DeviceSlot} {task : TaskCard} {owner : Option AgentId},
    board.assignments[id]? = some ⟨slot⟩ → board.tasks[id]? = some task →
      board.partitionedDeviceId = some slot.deviceId →
        board.slotOwners[slot.slot]? = some owner → OwnerAdmits owner task slot.slot
  shown : ∀ order {deviceId : String} {slot : Nat} {task : TaskCard} {owner : Option AgentId},
    board.taskAt order deviceId slot = some task →
      board.partitionedDeviceId = some deviceId →
        board.slotOwners[slot]? = some owner → OwnerAdmits owner task slot

theorem Placed.respectsPartition (hplaced : Placed board) : RespectsPartition board := by
  have hassigned : ∀ {id : String} {slot : DeviceSlot} {task : TaskCard}
      {owner : Option AgentId}, board.assignments[id]? = some ⟨slot⟩ →
        board.tasks[id]? = some task → board.partitionedDeviceId = some slot.deviceId →
          board.slotOwners[slot.slot]? = some owner → OwnerAdmits owner task slot.slot := by
    intro id slot task owner hat htask hprimary howner
    obtain ⟨task', htask', hcomplies⟩ := hplaced.complies hat
    rw [htask] at htask'
    obtain rfl := Option.some.inj htask'
    exact hcomplies.ownerAdmits hprimary howner
  refine ⟨hassigned, fun order {deviceId slot task owner} hshown hprimary howner => ?_⟩
  obtain ⟨hat, htask⟩ := (taskAt_eq_some_iff hplaced).mp hshown
  exact hassigned hat htask hprimary howner

/-- After every sequence of operations the layout respects the partition. -/
theorem run_respectsPartition (steps : List (WalkOrder × Op)) :
    RespectsPartition (run steps default) :=
  (placed_run steps).respectsPartition

end TaskBoard
end Tasks
end MicroEmu
