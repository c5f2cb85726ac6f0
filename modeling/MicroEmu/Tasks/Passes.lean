import MicroEmu.Library.Placement
import MicroEmu.Tasks.Reallocate

/-!
# What each pass of the reallocation does

An assignment map that never puts two tasks on one slot represents a
`Placement`.  The retain pass is a `keep`, the sticky pass a batch of
settlements and the pin pass a batch of claims, so the general facts about
placements give each pass one specification in terms of lookups
(`retained_iff`, `sticky_*`, `pinned_iff`).  Later modules cite these and never
unfold a pass.

The facts hold of every well-formed board: cards are filed under their own ids,
and a device is registered with the slots `0 .. n` of its own.
-/

namespace MicroEmu
namespace Tasks

open Std (ExtTreeMap LawfulEqCmp)
open Library

/-- Cards and devices are filed under their own ids. -/
structure TaskBoard.WellFormed (board : TaskBoard) : Prop where
  keyed : ∀ {id : String} {task : TaskCard}, board.tasks[id]? = some task → task.taskId = id
  devices : ∀ {id : String} {slots : List DeviceSlot},
    board.devices[id]? = some slots → ∃ n, slots = deviceSlots id n

/-- No two tasks share a slot. -/
def SlotInjective (assignments : Assignments) : Prop :=
  ∀ {a b : String} {assignment : TaskAssignment},
    assignments[a]? = some assignment → assignments[b]? = some assignment → a = b

/-! ## Slots of registered devices -/

theorem mem_deviceSlots {deviceId : String} {n : Nat} {slot : DeviceSlot} :
    slot ∈ deviceSlots deviceId n ↔ slot.deviceId = deviceId ∧ slot.slot < n := by
  simp only [deviceSlots, List.mem_map, List.mem_range]
  constructor
  · rintro ⟨i, hi, rfl⟩
    exact ⟨rfl, hi⟩
  · rintro ⟨rfl, hlt⟩
    exact ⟨slot.slot, hlt, rfl⟩

theorem getElem?_deviceSlots {deviceId : String} {n i : Nat} {slot : DeviceSlot}
    (h : (deviceSlots deviceId n)[i]? = some slot) : slot = ⟨deviceId, i⟩ ∧ i < n := by
  simp only [deviceSlots, List.getElem?_map, Option.map_eq_some_iff,
    List.getElem?_eq_some_iff, List.length_range, List.getElem_range] at h
  obtain ⟨j, ⟨hi, rfl⟩, rfl⟩ := h
  exact ⟨rfl, hi⟩

theorem deviceSlots_getElem? {deviceId : String} {n i : Nat} (h : i < n) :
    (deviceSlots deviceId n)[i]? = some ⟨deviceId, i⟩ := by
  simp [deviceSlots, h]

namespace TaskBoard

variable {board : TaskBoard}

theorem mem_available_iff (hwf : board.WellFormed) {slot : DeviceSlot} :
    slot ∈ board.available ↔
      ∃ n, board.devices[slot.deviceId]? = some (deviceSlots slot.deviceId n) ∧
        slot.slot < n := by
  simp only [available, List.mem_flatten, List.mem_map, Prod.exists, exists_eq_right,
    ExtTreeMap.mem_toList_iff_getElem?_eq_some]
  constructor
  · rintro ⟨slots, ⟨deviceId, hdevice⟩, hmem⟩
    obtain ⟨n, rfl⟩ := hwf.devices hdevice
    obtain ⟨rfl, hlt⟩ := mem_deviceSlots.mp hmem
    exact ⟨n, hdevice, hlt⟩
  · rintro ⟨n, hdevice, hlt⟩
    exact ⟨_, ⟨_, hdevice⟩, mem_deviceSlots.mpr ⟨rfl, hlt⟩⟩

/-- No slot is listed twice. -/
theorem available_nodup (hwf : board.WellFormed) : board.available.Nodup := by
  have hentry : ∀ entry ∈ board.devices.toList, ∃ n, entry.2 = deviceSlots entry.1 n :=
    fun entry hmem =>
      hwf.devices (ExtTreeMap.mem_toList_iff_getElem?_eq_some.mp hmem)
  rw [available, List.nodup_flatten]
  constructor
  · intro slots hslots
    obtain ⟨entry, hmem, rfl⟩ := List.mem_map.mp hslots
    obtain ⟨n, hn⟩ := hentry entry hmem
    rw [hn]
    refine List.Nodup.map ?_ List.nodup_range
    intro i j hij
    exact congrArg DeviceSlot.slot hij
  · rw [List.pairwise_map]
    refine ExtTreeMap.distinct_keys_toList.imp_of_mem ?_
    intro a b ha hb hne slot hslotA hslotB
    obtain ⟨n, hn⟩ := hentry a ha
    obtain ⟨m, hm⟩ := hentry b hb
    rw [hn] at hslotA
    rw [hm] at hslotB
    have hab : a.1 = b.1 :=
      (mem_deviceSlots.mp hslotA).1.symm.trans (mem_deviceSlots.mp hslotB).1
    exact hne (LawfulEqCmp.compare_eq_iff_eq.mpr hab)

end TaskBoard

/-! ## Assignment maps as placements -/

/-- The map and the placement put the same tasks on the same slots. -/
def Represents (assignments : Assignments) (p : Placement String DeviceSlot) : Prop :=
  ∀ id : String, assignments[id]? = (p.at? id).map TaskAssignment.mk

namespace Represents

variable {assignments : Assignments} {p : Placement String DeviceSlot}

theorem at_iff (h : Represents assignments p) {id : String} {slot : DeviceSlot} :
    assignments[id]? = some ⟨slot⟩ ↔ p.at? id = some slot := by
  rw [h id]
  cases p.at? id <;> simp

theorem at_none_iff (h : Represents assignments p) {id : String} :
    assignments[id]? = none ↔ p.at? id = none := by
  rw [h id, Option.map_eq_none_iff]

theorem taken_iff (h : Represents assignments p) {slot : DeviceSlot} :
    slotTaken assignments slot = true ↔ p.Taken slot := by
  simp only [slotTaken_iff, Placement.Taken, h.at_iff]

theorem injective (h : Represents assignments p) : SlotInjective assignments := by
  intro a b ⟨slot⟩ ha hb
  exact p.injective (h.at_iff.mp ha) (h.at_iff.mp hb)

theorem assignIfFree (h : Represents assignments p) (request : String × DeviceSlot) :
    Represents (TaskBoard.assignIfFree assignments request) (p.settle request) := by
  intro id
  simp only [TaskBoard.assignIfFree, Placement.settle]
  by_cases htaken : slotTaken assignments request.2 = true
  · simp only [htaken, if_true, h.taken_iff.mp htaken, not_true_eq_false, and_false, if_false]
    exact h id
  · have hfree : ¬p.Taken request.2 := fun ht => htaken (h.taken_iff.mpr ht)
    simp only [htaken, Bool.false_eq_true, if_false, hfree, not_false_eq_true, and_true,
      getElem?_insert_eq_ite]
    by_cases hid : id = request.1
    · simp [hid]
    · simp only [hid, Ne.symm hid, if_false]
      exact h id

theorem assignPin (h : Represents assignments p) (request : String × DeviceSlot) :
    Represents (TaskBoard.assignPin assignments request) (p.claim request) := by
  intro id
  simp only [TaskBoard.assignPin, Placement.claim, getElem?_insert_eq_ite,
    ExtTreeMap.getElem?_filter']
  by_cases hid : id = request.1
  · simp [hid]
  · simp only [Ne.symm hid, hid, if_false, h id]
    cases hat : p.at? id with
    | none => simp
    | some slot =>
        by_cases hslot : slot = request.2 <;> simp [hslot, hid]

theorem foldl_assignIfFree (h : Represents assignments p)
    (requests : List (String × DeviceSlot)) :
    Represents (requests.foldl TaskBoard.assignIfFree assignments) (p.settleAll requests) := by
  induction requests generalizing assignments p with
  | nil => exact h
  | cons request rest ih => exact ih (h.assignIfFree request)

theorem foldl_assignPin (h : Represents assignments p)
    (requests : List (String × DeviceSlot)) :
    Represents (requests.foldl TaskBoard.assignPin assignments) (p.claimAll requests) := by
  induction requests generalizing assignments p with
  | nil => exact h
  | cons request rest ih => exact ih (h.assignPin request)

end Represents

/-- The placement an injective assignment map represents. -/
def placementOf (assignments : Assignments) (hinj : SlotInjective assignments) :
    Placement String DeviceSlot where
  at? id := (assignments[id]?).map TaskAssignment.slot
  injective := by
    intro a b slot ha hb
    obtain ⟨⟨s⟩, hs, rfl⟩ := Option.map_eq_some_iff.mp ha
    obtain ⟨⟨t⟩, ht, htEq⟩ := Option.map_eq_some_iff.mp hb
    simp only at htEq
    subst htEq
    exact hinj hs ht

theorem represents_placementOf {assignments : Assignments}
    (hinj : SlotInjective assignments) :
    Represents assignments (placementOf assignments hinj) := by
  intro id
  simp only [placementOf, Option.map_map]
  cases assignments[id]? <;> rfl

/-! ## Walks over the cards -/

/-- A walk over the cards lists their ids like a walk over the keys. -/
theorem WalkOrder.map_taskId_values (order : WalkOrder) {board : TaskBoard}
    (hwf : board.WellFormed) :
    (order.values board.tasks).map TaskCard.taskId = order.keys board.tasks := by
  simp only [WalkOrder.values, WalkOrder.keys, List.map_map]
  refine List.map_congr_left fun entry hmem => ?_
  exact hwf.keyed ((order.mem_entries).mp hmem)

theorem WalkOrder.mem_values_iff (order : WalkOrder) {board : TaskBoard}
    (hwf : board.WellFormed) {task : TaskCard} :
    task ∈ order.values board.tasks ↔ board.tasks[task.taskId]? = some task := by
  rw [order.mem_values]
  constructor
  · rintro ⟨id, hid⟩
    rwa [hwf.keyed hid]
  · intro h
    exact ⟨_, h⟩

/-- Requests collected on a walk over the cards: one per card at most. -/
theorem nodup_requests (order : WalkOrder) {board : TaskBoard} (hwf : board.WellFormed)
    (test : TaskCard → Bool) (target : TaskCard → Option DeviceSlot) :
    ((((order.values board.tasks).filter test).filterMap fun task =>
      (target task).map fun slot => (task.taskId, slot)).map Prod.fst).Nodup := by
  have hids : ((order.values board.tasks).map TaskCard.taskId).Nodup := by
    rw [order.map_taskId_values hwf]
    exact order.nodup_keys board.tasks
  have hsub : ∀ cards : List TaskCard,
      ((cards.filterMap fun task =>
        (target task).map fun slot => (task.taskId, slot)).map Prod.fst).Sublist
          (cards.map TaskCard.taskId) := by
    intro cards
    induction cards with
    | nil => simp
    | cons card cards ih =>
        cases hslot : target card with
        | none => simpa [List.filterMap_cons, hslot] using ih.cons card.taskId
        | some slot => simpa [List.filterMap_cons, hslot] using ih.cons_cons card.taskId
  exact ((hsub _).trans (List.filter_sublist.map _)).nodup hids

namespace TaskBoard

variable {order : WalkOrder} {board : TaskBoard}

/-! ## Retain pass -/

theorem retains_iff {id : String} {slot : DeviceSlot} :
    board.retains id ⟨slot⟩ = true ↔
      ∃ task, board.tasks[id]? = some task ∧
        (task.state.eligible = true ∨ task.reconnectUntilMs.isSome = true) ∧
          slot ∈ board.available ∧ board.retainsOwner task.ownerAgent slot = true := by
  simp only [retains, Option.any_eq_true, Bool.and_eq_true, Bool.or_eq_true,
    List.contains_iff_mem]

theorem retained_iff {id : String} {slot : DeviceSlot} :
    board.retainPass.assignments[id]? = some ⟨slot⟩ ↔
      board.assignments[id]? = some ⟨slot⟩ ∧ board.retains id ⟨slot⟩ = true := by
  rw [retainPass, ExtTreeMap.getElem?_filter', Option.filter_eq_some_iff]

/-! ## Sticky pass -/

theorem unplaced_iff {task : TaskCard} :
    board.unplaced task = true ↔
      task.state.eligible = true ∧ board.assignments[task.taskId]? = none := by
  simp only [unplaced, Bool.and_eq_true, Bool.not_eq_true', contains_eq_false_iff]

theorem stickyTarget_eq_some_iff {task : TaskCard} {slot : DeviceSlot} :
    board.stickyTarget task = some slot ↔
      board.rememberedSlot task.taskId = some slot ∧ slot ∈ board.available ∧
        slotTaken board.assignments slot = false ∧
          (board.slotOwner slot).admits task.ownerAgent = true := by
  simp only [stickyTarget, Option.filter_eq_some_iff, Bool.and_eq_true, Bool.not_eq_true',
    List.contains_iff_mem, and_assoc]

theorem mem_stickyRequests (hwf : board.WellFormed) {id : String} {slot : DeviceSlot} :
    (id, slot) ∈ board.stickyRequests order ↔
      ∃ task, board.tasks[id]? = some task ∧ board.unplaced task = true ∧
        board.stickyTarget task = some slot := by
  simp only [stickyRequests, List.mem_filterMap, List.mem_filter, Option.map_eq_some_iff,
    Prod.mk.injEq, order.mem_values_iff hwf]
  constructor
  · rintro ⟨task, ⟨hmem, hun⟩, _, hslot, rfl, rfl⟩
    exact ⟨task, hmem, hun, hslot⟩
  · rintro ⟨task, htask, hun, hslot⟩
    obtain rfl := hwf.keyed htask
    exact ⟨task, ⟨htask, hun⟩, slot, hslot, rfl, rfl⟩

theorem stickyRequests_fresh (order : WalkOrder) (hwf : board.WellFormed)
    {p : Placement String DeviceSlot} (hp : Represents board.assignments p) :
    p.Fresh (board.stickyRequests order) where
  unplaced := by
    rintro ⟨id, slot⟩ hmem
    obtain ⟨task, htask, hun, -⟩ := (mem_stickyRequests hwf).mp hmem
    have hnone := (unplaced_iff.mp hun).2
    rw [hwf.keyed htask] at hnone
    exact hp.at_none_iff.mp hnone
  nodup := nodup_requests order hwf board.unplaced board.stickyTarget

theorem stickyPass_represents {p : Placement String DeviceSlot}
    (hp : Represents board.assignments p) :
    Represents (board.stickyPass order).assignments
      (p.settleAll (board.stickyRequests order)) :=
  hp.foldl_assignIfFree _

theorem stickyPass_injective (hinj : SlotInjective board.assignments) :
    SlotInjective (board.stickyPass order).assignments :=
  (stickyPass_represents (represents_placementOf hinj)).injective

/-- The sticky pass moves nobody. -/
theorem stickyPass_extends (hwf : board.WellFormed) (hinj : SlotInjective board.assignments)
    {id : String} {assignment : TaskAssignment} (h : board.assignments[id]? = some assignment) :
    (board.stickyPass order).assignments[id]? = some assignment := by
  obtain ⟨slot⟩ := assignment
  have hp := represents_placementOf hinj
  exact (stickyPass_represents hp).at_iff.mpr
    (Placement.settleAll_extends (stickyRequests_fresh order hwf hp) (hp.at_iff.mp h))

/-- The sticky pass places nobody but by request. -/
theorem of_stickyPass (hwf : board.WellFormed) (hinj : SlotInjective board.assignments)
    {id : String} {slot : DeviceSlot}
    (h : (board.stickyPass order).assignments[id]? = some ⟨slot⟩) :
    board.assignments[id]? = some ⟨slot⟩ ∨ (id, slot) ∈ board.stickyRequests order := by
  have hp := represents_placementOf hinj
  rcases Placement.of_settleAll_at (stickyRequests_fresh order hwf hp)
      ((stickyPass_represents hp).at_iff.mp h) with hold | hmem
  · exact Or.inl (hp.at_iff.mpr hold)
  · exact Or.inr hmem

/-! ## Pin pass -/

/-- The position the pin pass puts a card on, if any. -/
def pinSlot (board : TaskBoard) (task : TaskCard) : Option DeviceSlot :=
  board.partitionedDeviceId.bind fun primary =>
    (board.devices[primary]?).bind fun slots => board.pinTarget primary slots task

/-- The task asks for a pin on the slot. -/
def PinnedTo (board : TaskBoard) (id : String) (slot : DeviceSlot) : Prop :=
  ∃ task, board.tasks[id]? = some task ∧ board.pinSlot task = some slot

/-- The pin requests, read off card by card. -/
theorem pinRequests_eq :
    board.pinRequests order =
      ((order.values board.tasks).filterMap fun task =>
        (board.pinSlot task).map fun slot => (task.taskId, slot)).insertionSort
          fun left right => left.1 ≤ right.1 := by
  unfold pinRequests pinSlot
  cases hprimary : board.partitionedDeviceId with
  | none => simp
  | some primary =>
      cases hslots : board.devices[primary]? with
      | none => simp [hslots]
      | some slots => simp [hslots]

theorem mem_pinRequests (hwf : board.WellFormed) {id : String} {slot : DeviceSlot} :
    (id, slot) ∈ board.pinRequests order ↔ board.PinnedTo id slot := by
  simp only [pinRequests_eq, List.mem_insertionSort, List.mem_filterMap,
    Option.map_eq_some_iff, Prod.mk.injEq, order.mem_values_iff hwf, PinnedTo]
  constructor
  · rintro ⟨task, hmem, _, hslot, rfl, rfl⟩
    exact ⟨task, hmem, hslot⟩
  · rintro ⟨task, htask, hslot⟩
    obtain rfl := hwf.keyed htask
    exact ⟨task, htask, slot, hslot, rfl, rfl⟩

theorem pinRequests_nodup (order : WalkOrder) (hwf : board.WellFormed) :
    ((board.pinRequests order).map Prod.fst).Nodup := by
  rw [pinRequests_eq]
  refine ((List.perm_insertionSort _ _).map Prod.fst).nodup_iff.mpr ?_
  simpa using nodup_requests order hwf (fun _ => true) board.pinSlot

/-- The pins come in strictly increasing id order. -/
theorem pinRequests_sorted (hwf : board.WellFormed) :
    (board.pinRequests order).Pairwise fun r q => r.1 < q.1 := by
  have hle : (board.pinRequests order).Pairwise fun r q => r.1 ≤ q.1 := by
    have : Std.Total fun r q : String × DeviceSlot => r.1 ≤ q.1 :=
      ⟨fun r q => le_total r.1 q.1⟩
    have : IsTrans (String × DeviceSlot) fun r q => r.1 ≤ q.1 :=
      ⟨fun _ _ _ => le_trans⟩
    rw [pinRequests_eq]
    exact List.pairwise_insertionSort _ _
  have hne := List.pairwise_map.mp (pinRequests_nodup order hwf)
  exact hle.imp₂ (fun _ _ hle hne => lt_of_le_of_ne hle hne) hne

theorem pinPass_represents {p : Placement String DeviceSlot}
    (hp : Represents board.assignments p) :
    Represents (board.pinCodexHidPrimarySlots order).assignments
      (p.claimAll (board.pinRequests order)) :=
  hp.foldl_assignPin _

theorem pinPass_injective (hinj : SlotInjective board.assignments) :
    SlotInjective (board.pinCodexHidPrimarySlots order).assignments :=
  (pinPass_represents (represents_placementOf hinj)).injective

/-- On a slot somebody is pinned to, the greatest id wins; elsewhere everybody
who asks for no pin stays. -/
theorem pinPass_iff (hwf : board.WellFormed) (hinj : SlotInjective board.assignments)
    {id : String} {slot : DeviceSlot} :
    (board.pinCodexHidPrimarySlots order).assignments[id]? = some ⟨slot⟩ ↔
      (board.PinnedTo id slot ∧ ∀ other, board.PinnedTo other slot → other ≤ id) ∨
        ((∀ slot', ¬board.PinnedTo id slot') ∧ (∀ other, ¬board.PinnedTo other slot) ∧
          board.assignments[id]? = some ⟨slot⟩) := by
  have hp := represents_placementOf hinj
  rw [(pinPass_represents hp).at_iff, Placement.claimAll_at_iff (pinRequests_sorted hwf),
    hp.at_iff]
  refine or_congr ?_ ?_
  · rw [mem_pinRequests hwf]
    refine and_congr_right fun _ => ?_
    constructor
    · intro h other hother
      exact h (other, slot) ((mem_pinRequests hwf).mpr hother) rfl
    · rintro h ⟨other, slot'⟩ hmem rfl
      exact h other ((mem_pinRequests hwf).mp hmem)
  · rw [← and_assoc]
    refine and_congr_left fun _ => ?_
    constructor
    · intro h
      exact ⟨fun slot' hpin => (h _ ((mem_pinRequests hwf).mpr hpin)).1 rfl,
        fun other hpin => (h _ ((mem_pinRequests hwf).mpr hpin)).2 rfl⟩
    · rintro ⟨hid, hslot⟩ ⟨other, slot'⟩ hmem
      have hpin := (mem_pinRequests hwf).mp hmem
      refine ⟨?_, ?_⟩
      · rintro rfl
        exact hid slot' hpin
      · rintro rfl
        exact hslot other hpin

/-- The tests behind one pin target. -/
theorem pinTarget_eq_some_iff {primary : String} {slots : List DeviceSlot}
    {task : TaskCard} {slot : DeviceSlot} :
    board.pinTarget primary slots task = some slot ↔ ∃ source,
      (isCodexHid task.taskId = true ∨
        (board.assignments[task.taskId]? = none ∧
          slotTaken board.assignments ⟨primary, source⟩ = false)) ∧
        task.ownerAgent = .codex ∧ task.sourceSlot = some source ∧
          board.ownedByCodex source = true ∧ slots[source]? = some slot := by
  unfold pinTarget
  cases hsource : task.sourceSlot with
  | none => simp
  | some source =>
      simp only [Option.any_some, Option.bind_some, ← contains_eq_false_iff]
      cases hhid : isCodexHid task.taskId <;>
        cases hplaced : board.assignments.contains task.taskId <;>
          cases htaken : slotTaken board.assignments ⟨primary, source⟩ <;>
            by_cases hagent : task.ownerAgent = .codex <;>
              simp [htaken, hagent]

/-- What a pin request says about its card. -/
theorem pinSlot_eq_some_iff (hwf : board.WellFormed) {task : TaskCard} {slot : DeviceSlot} :
    board.pinSlot task = some slot ↔
      board.partitionedDeviceId = some slot.deviceId ∧ slot ∈ board.available ∧
        task.ownerAgent = .codex ∧ task.sourceSlot = some slot.slot ∧
          board.ownedByCodex slot.slot = true ∧
            (isCodexHid task.taskId = true ∨
              (board.assignments[task.taskId]? = none ∧
                slotTaken board.assignments slot = false)) := by
  have havailable : slot ∈ board.available ↔ ∃ n, board.devices[slot.deviceId]? =
      some (deviceSlots slot.deviceId n) ∧ slot.slot < n := mem_available_iff hwf
  rw [havailable]
  simp only [pinSlot, Option.bind_eq_some_iff]
  constructor
  · rintro ⟨primary, hprimary, slots, hslots, htarget⟩
    obtain ⟨n, rfl⟩ := hwf.devices hslots
    obtain ⟨source, hfree, hagent, hsource, howned, hpin⟩ := pinTarget_eq_some_iff.mp htarget
    obtain ⟨rfl, hlt⟩ := getElem?_deviceSlots hpin
    exact ⟨hprimary, ⟨n, hslots, hlt⟩, hagent, hsource, howned, hfree⟩
  · rintro ⟨hprimary, ⟨n, hslots, hlt⟩, hagent, hsource, howned, hfree⟩
    exact ⟨slot.deviceId, hprimary, _, hslots,
      pinTarget_eq_some_iff.mpr
        ⟨slot.slot, hfree, hagent, hsource, howned, deviceSlots_getElem? hlt⟩⟩

end TaskBoard

end Tasks
end MicroEmu
