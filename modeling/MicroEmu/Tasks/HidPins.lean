import MicroEmu.Tasks.Layout
import Mathlib.Data.Finset.Max

/-!
# Codex HID pins

A HID frame publishes the logical positions AG00 to AG05 as the cards
`codex-hid:0` to `codex-hid:5`, and the pin pass is there to keep each on the
physical slot of the same index.  It collects all pins against the layout of the
sticky pass and applies them in id order, each evicting the previous holder.  So
a card with a greater id that asks for the same slot takes it away: a catalog
card that is unplaced while the slot is empty, or another card with a HID id
(`Rival`).  Without a rival the card ends on its slot.
-/

namespace MicroEmu
namespace Tasks

open Std (ExtTreeMap LawfulEqCmp)
open Json (Value)
open Routing (AgentId)
open Library

/-- A Codex card on the logical position `i`. -/
def TaskCard.LogicalAt (task : TaskCard) (i : Nat) : Prop :=
  task.ownerAgent = .codex ∧ task.sourceSlot = some i

namespace TaskBoard

variable {order : WalkOrder} {board : TaskBoard}

theorem isCodexHid_hidTaskId (i : Nat) : isCodexHid (hidTaskId i) = true := by
  unfold isCodexHid hidTaskId Json.startsWith
  rw [String.toList_append, List.isPrefixOf_iff_prefix]
  exact List.prefix_append _ _

/-! ## What a HID frame publishes -/

/-- The key label of a position names the position. -/
theorem cardSourceSlot_keyLabel {item : Value} {i : Nat} (hplain : item.get? "source_slot" = none)
    (hi : i < codexHidSlots) : cardSourceSlot item (some (keyLabel i)) = some i := by
  unfold cardSourceSlot
  rw [hplain]
  have hlabels : ∀ i < codexHidSlots,
      ((some (keyLabel i)).bind (Json.stripPrefix · "AG0")).bind
        (Json.parseUnsigned 10 (2 ^ 64 - 1)) = some i := by decide
  exact hlabels i hi

/-- An entry without an explicit position publishes the card of its index. -/
theorem HidRead.logicalAt {nowMs : Nat} {entry : Value} {position : Nat} {update : HidUpdate}
    (h : board.HidRead nowMs entry position update)
    (hplain : entry.get? "source_slot" = none) :
    update.card.LogicalAt (hidIndex entry position) := by
  have hlabel : update.card.legacyKey = some (keyLabel (hidIndex entry position)) := by
    have hne : ∀ i < codexHidSlots, keyLabel i ≠ "" := by decide
    exact h.parsed.legacyKey_eq (hne _ h.index_lt)
  refine ⟨h.parsed.ownerAgent, ?_⟩
  rw [h.parsed.sourceSlot, hlabel]
  exact cardSourceSlot_keyLabel hplain h.index_lt

/-- Every card an accepted frame without explicit positions writes is the card of
some position. -/
theorem handover_hid_card {value : Value} {nowMs : Nat} {m : TaskBoard} {entries : List Value}
    (h : handover order board (.publishCodexHidStatus value nowMs) = some m)
    (hentries : value.asArray = some entries)
    (hplain : ∀ entry ∈ entries, entry.get? "source_slot" = none)
    {id : String} {task : TaskCard} (ht : m.tasks[id]? = some task) :
    board.tasks[id]? = some task ∨ ∃ i < codexHidSlots, id = hidTaskId i ∧ task.LogicalAt i := by
  rw [handover, hentries, Option.bind_some, Option.map_eq_some_iff] at h
  obtain ⟨updates, hupdates, rfl⟩ := h
  have hread := hidUpdates_ok (toOption_eq_some_iff.mp hupdates)
  obtain ⟨base, echoing, hboard, hfocus⟩ :=
    hidBoard_eq order (board.dropExpiredGuards nowMs) updates nowMs
  rw [hboard] at ht
  by_cases hid : id ∈ (updates.map (HidUpdate.settled echoing)).map TaskCard.taskId
  · obtain ⟨card, hcard, hcardId, merged, hget, hsame⟩ := mergedBoard_of_mem base nowMs hid
    rw [hget] at ht
    obtain rfl := Option.some.inj ht
    obtain ⟨update, hupdate, rfl⟩ := List.mem_map.mp hcard
    obtain ⟨entry, position, hentry, -, hok⟩ := hread update hupdate
    obtain ⟨hsettledId, -, hagent, hsource⟩ := settled_owned echoing update
    obtain ⟨hcodex, hslot⟩ := hok.logicalAt (hplain entry (List.mem_of_getElem? hentry))
    refine Or.inr ⟨hidIndex entry position, hok.index_lt, ?_, ?_⟩
    · rw [← hcardId, hsettledId, hok.parsed.taskId_eq]
    · exact ⟨hsame.ownerAgent.trans (hagent.trans hcodex),
        hsame.sourceSlot.trans (hsource.trans hslot)⟩
  -- not named by the frame, which at most moves the selection
  · rw [mergedBoard_of_not_mem hid, hfocus.sameCards.tasks] at ht
    exact Or.inl ht

/-! ## Who takes a pinned slot -/

/-- A card that may take the slot away from `id`: a Codex card of the same source
slot and a greater id, which is pinned there.  A HID card always is.  A catalog
card is pinned unless it is placed or the slot is taken by the time of the pin
pass, by retention or by the sticky pass. -/
structure Rival (board : TaskBoard) (id : String) (slot : DeviceSlot) (other : String) :
    Prop where
  later : id < other
  logical : ∃ task, board.tasks[other]? = some task ∧ task.LogicalAt slot.slot
  pinned : isCodexHid other = true ∨
    (board.retainPass.assignments[other]? = none ∧
      slotTaken board.retainPass.assignments slot = false ∧
      (∀ asker, ¬board.Requests asker slot) ∧
      ∀ slot', board.Requests other slot' → ∃ asker, asker ≠ other ∧ board.Requests asker slot')

/-- A catalog card is pinned only if the sticky pass leaves it and its position
alone: nobody asks for the position, and the card asks for no slot or loses it to
another one. -/
theorem of_pinnedTo (order : WalkOrder) (hwf : board.WellFormed)
    (hinj : SlotInjective board.assignments) {id : String} {slot : DeviceSlot}
    (hpin : (board.stickyBoard order).PinnedTo id slot) :
    isCodexHid id = true ∨
      (board.retainPass.assignments[id]? = none ∧
        slotTaken board.retainPass.assignments slot = false ∧
        (∀ asker, ¬board.Requests asker slot) ∧
        ∀ slot', board.Requests id slot' → ∃ asker, asker ≠ id ∧ board.Requests asker slot') := by
  obtain ⟨task, htask, hslot⟩ := hpin
  obtain ⟨-, -, -, -, -, hfree⟩ :=
    (pinSlot_eq_some_iff (stickyBoard_wellFormed order hwf)).mp hslot
  obtain rfl := hwf.keyed htask
  rcases hfree with hhid | ⟨hunplaced, hempty⟩
  · exact Or.inl hhid
  · have hnot : ∀ holder : String,
        (board.stickyBoard order).assignments[holder]? ≠ some ⟨slot⟩ := by
      intro holder hholder
      rw [slotTaken_iff.mpr ⟨holder, hholder⟩] at hempty
      cases hempty
    refine Or.inr ⟨?_, ?_, fun asker hasks => ?_, fun slot' hasks => ?_⟩
    · cases hkept : board.retainPass.assignments[task.taskId]? with
      | none => rfl
      | some assignment =>
          rw [stickyBoard_keeps order hwf hinj hkept] at hunplaced
          cases hunplaced
    · cases htaken : slotTaken board.retainPass.assignments slot with
      | false => rfl
      | true =>
          obtain ⟨holder, hholder⟩ := slotTaken_iff.mp htaken
          exact absurd (stickyBoard_keeps order hwf hinj hholder) (hnot holder)
    · obtain ⟨holder, hholder⟩ := stickyBoard_taken order hwf hinj hasks
      exact hnot holder hholder
    · -- a sole asker would have been placed by the sticky pass
      by_contra hsole
      push Not at hsole
      have hplaced := stickyBoard_of_sole order hwf hinj hasks fun asker h => by
        by_contra hne
        exact hsole asker hne h
      rw [hplaced] at hunplaced
      cases hunplaced

/-- A later pin request for the slot comes from a rival. -/
theorem rival_of_pin (order : WalkOrder) (hwf : board.WellFormed)
    (hinj : SlotInjective board.assignments) {id other : String} {slot : DeviceSlot}
    (hlater : id < other) (hpin : (board.stickyBoard order).PinnedTo other slot) :
    board.Rival id slot other := by
  obtain ⟨task, htask, hslot⟩ := hpin
  obtain ⟨-, -, hagent, hsource, -⟩ :=
    (pinSlot_eq_some_iff (stickyBoard_wellFormed order hwf)).mp hslot
  exact ⟨hlater, ⟨task, htask, hagent, hsource⟩,
    of_pinnedTo order hwf hinj ⟨task, htask, hslot⟩⟩

/-- Among the cards that ask for a slot there is a last one. -/
theorem exists_last_pin (order : WalkOrder) (hwf : board.WellFormed) {id : String}
    {slot : DeviceSlot} (hpin : (board.stickyBoard order).PinnedTo id slot) :
    ∃ last, (board.stickyBoard order).PinnedTo last slot ∧
      ∀ other, (board.stickyBoard order).PinnedTo other slot → other ≤ last := by
  let requests := (((board.stickyBoard order).pinRequests order).filter (·.2 = slot)).toFinset
  have hmem : ∀ other, (board.stickyBoard order).PinnedTo other slot ↔
      (other, slot) ∈ requests := by
    intro other
    simp [requests, mem_pinRequests (stickyBoard_wellFormed order hwf)]
  obtain ⟨⟨last, slot'⟩, hlast, hmax⟩ :=
    requests.exists_max_image Prod.fst ⟨(id, slot), (hmem id).mp hpin⟩
  obtain rfl : slot' = slot := by
    simpa using (List.mem_filter.mp (List.mem_toFinset.mp hlast)).2
  exact ⟨last, (hmem last).mpr hlast, fun other hother => hmax _ ((hmem other).mp hother)⟩

/-- Whoever holds the last pin on a slot is there after the reallocation. -/
theorem reallocate_of_last_pin (hwf : board.WellFormed) (hinj : SlotInjective board.assignments)
    {id : String} {slot : DeviceSlot} (hpin : (board.stickyBoard order).PinnedTo id slot)
    (hlast : ∀ other, (board.stickyBoard order).PinnedTo other slot → other ≤ id) :
    (board.reallocate order).assignments[id]? = some ⟨slot⟩ := by
  have hpinned : (board.pinnedBoard order).assignments[id]? = some ⟨slot⟩ :=
    (pinPass_iff (stickyBoard_wellFormed order hwf) (stickyBoard_injective order hinj)).mpr
      (Or.inl ⟨hpin, hlast⟩)
  rw [reallocate_assignments]
  exact (reallocate_fillInv order hwf hinj).old hpinned

/-- Codex may use the position unless its owner entry names another agent. -/
theorem ownedByCodex_of_forall {slot : Nat}
    (h : ∀ agent, board.slotOwners[slot]? = some (some agent) → agent = AgentId.codex) :
    board.ownedByCodex slot = true := by
  unfold ownedByCodex
  rw [Bool.or_eq_true]
  right
  cases howner : board.slotOwners[slot]? with
  | none => rfl
  | some owner =>
      cases owner with
      | none => rfl
      | some agent =>
          obtain rfl := h agent howner
          rfl

/-- A reallocation puts a card with a HID id on its logical position, unless a
rival takes it. -/
theorem reallocate_hid (order : WalkOrder) (hwf : board.WellFormed)
    (hinj : SlotInjective board.assignments) {id : String} {task : TaskCard}
    {slot : DeviceSlot} (htask : board.tasks[id]? = some task) (hhid : isCodexHid id = true)
    (hlogical : task.LogicalAt slot.slot)
    (hprimary : board.partitionedDeviceId = some slot.deviceId)
    (havailable : slot ∈ board.available) (howned : board.ownedByCodex slot.slot = true)
    (hrival : ∀ other, ¬board.Rival id slot other) :
    (board.reallocate order).assignments[id]? = some ⟨slot⟩ := by
  have hpin : (board.stickyBoard order).PinnedTo id slot := by
    refine ⟨task, htask, ?_⟩
    rw [← hwf.keyed htask] at hhid
    exact (pinSlot_eq_some_iff (stickyBoard_wellFormed order hwf)).mpr
      ⟨hprimary, havailable, hlogical.1, hlogical.2, howned, Or.inl hhid⟩
  refine reallocate_of_last_pin hwf hinj hpin fun other hother => ?_
  by_contra hlater
  exact hrival other (rival_of_pin order hwf hinj (not_le.mp hlater) hother)

/-! ## The pin law -/

/-- The card of position `i`, where it exists and Codex may use the slot `i` of
the partitioned device, is on that slot. -/
def HidPinned (board : TaskBoard) (i : Nat) : Prop :=
  ∀ device slots task, board.tasks[hidTaskId i]? = some task → task.LogicalAt i →
    board.partitionedDeviceId = some device → board.devices[device]? = some slots →
      i < slots.length →
        (∀ agent, board.slotOwners[i]? = some (some agent) → agent = AgentId.codex) →
          board.assignments[hidTaskId i]? = some ⟨⟨device, i⟩⟩

/-- A HID frame publishes logical cards, and after every operation that reallocates
a reachable board each logical card is on its slot, unless a rival takes it. -/
theorem hid_pin_law (steps : List (WalkOrder × Op)) (order : WalkOrder) (op : Op)
    (m : TaskBoard) (hm : handover order (run steps default) op = some m) :
    (∀ value nowMs entries, op = .publishCodexHidStatus value nowMs →
      value.asArray = some entries → (∀ entry ∈ entries, entry.get? "source_slot" = none) →
        ∀ id task, m.tasks[id]? = some task → (run steps default).tasks[id]? = some task ∨
          ∃ i < codexHidSlots, id = hidTaskId i ∧ task.LogicalAt i) ∧
      ∀ i, (∀ device, m.partitionedDeviceId = some device →
          ∀ other, ¬m.Rival (hidTaskId i) ⟨device, i⟩ other) →
        HidPinned ((run steps default).apply order op) i := by
  constructor
  · intro value nowMs entries hop hentries hplain id task ht
    rw [hop] at hm
    exact handover_hid_card hm hentries hplain ht
  · intro i hrival device slots task htask hlogical hprimary hdevice hi howner
    have hplaced := placed_run steps
    have hhanded := handed_of_handover hm
    have hwf := hhanded.wellFormed hplaced.wellFormed
    obtain ⟨_, _, hafter⟩ := apply_of_handover hm
    rw [hafter] at htask hprimary hdevice howner ⊢
    simp only [reallocate_tasks, reallocate_partitionedDeviceId, reallocate_devices,
      reallocate_slotOwners] at htask hprimary hdevice howner
    obtain ⟨n, rfl⟩ := hwf.devices hdevice
    have hlt : i < n := by simpa [deviceSlots] using hi
    exact reallocate_hid order hwf (hhanded.injective hplaced.injective) htask
      (isCodexHid_hidTaskId i) hlogical hprimary
      ((mem_available_iff hwf).mpr ⟨n, hdevice, hlt⟩) (ownedByCodex_of_forall howner)
      (hrival device hprimary)

/-- A HID frame that lights one position. -/
def litFrame (i : Nat) : Value := .array [.object [("id", .ofNat i), ("e", .ofNat 2)]]

/-- A desktop snapshot of the given threads, each with its source position. -/
def snapshotOf (threads : List (String × Nat)) : Value :=
  .object [("tasks", .array (threads.map fun thread =>
    .object [("task_id", .string thread.1), ("source_slot", .ofNat thread.2)]))]

/-- Six positions of one controller, all of Codex. -/
def codexOwners : List (Option AgentId) := List.replicate 6 (some .codex)

/-- A catalog card holds position 0 when the HID card of that position arrives. -/
def pinnedOverCatalog : List (WalkOrder × Op) :=
  [(.ascending, .setDevice "primary" 6 true),
    (.ascending, .setSlotOwners "primary" codexOwners),
    (.ascending, .publishCodexSnapshot (snapshotOf [("thread", 0)]) 10),
    (.ascending, .publishCodexHidStatus (litFrame 0) 20)]

/-- The frame publishes a logical card, and registering the controller again
leaves that card on its slot beside the catalog card. -/
theorem hid_pin_law_pinned :
    (∃ m task, handover .ascending default (.publishCodexHidStatus (litFrame 0) 20) = some m ∧
        m.tasks[hidTaskId 0]? = some task ∧ task.LogicalAt 0) ∧
      HidPinned ((run pinnedOverCatalog default).apply .ascending
        (.setDevice "primary" 6 true)) 0 := by
  constructor
  · have hcard : ((handover .ascending default (.publishCodexHidStatus (litFrame 0) 20)).bind
        (·.tasks[hidTaskId 0]?)).isSome = true := by decide +kernel
    obtain ⟨task, htask⟩ := Option.isSome_iff_exists.mp hcard
    obtain ⟨m, hm, htask⟩ := Option.bind_eq_some_iff.mp htask
    have hplain : ∀ entry ∈ [Value.object [("id", .ofNat 0), ("e", .ofNat 2)]],
        entry.get? "source_slot" = none := by
      intro entry hentry
      rw [List.mem_singleton.mp hentry]
      rfl
    refine ⟨m, task, hm, htask, ?_⟩
    rcases (hid_pin_law [] .ascending _ m hm).1 (litFrame 0) 20 _ rfl rfl hplain _ task htask with
      hold | ⟨i, hi, hid, hlogical⟩
    · simp [run, default] at hold
    · have hzero : ∀ i < codexHidSlots, hidTaskId 0 = hidTaskId i → i = 0 := by decide
      rw [hzero i hi hid] at hlogical
      exact hlogical
  · refine (hid_pin_law pinnedOverCatalog .ascending (.setDevice "primary" 6 true) _ rfl).2 0 ?_
    intro device _ other hrival
    obtain ⟨task, htask, -⟩ := hrival.logical
    have hkeys : (run pinnedOverCatalog default).tasks.keys = ["codex-hid:0", "thread"] := by
      decide +kernel
    have hmem : other ∈ (run pinnedOverCatalog default).tasks.keys :=
      ExtTreeMap.mem_keys.mpr (ExtTreeMap.mem_iff_isSome_getElem?.mpr (htask ▸ rfl))
    rw [hkeys] at hmem
    rcases List.mem_pair.mp hmem with rfl | rfl
    · exact absurd hrival.later (lt_irrefl _)
    · rcases hrival.pinned with hhid | ⟨hunplaced, -⟩
      · revert hhid
        decide
      · revert hunplaced
        decide +kernel

/-- A catalog card and a HID card of position 0 wait for the controller. -/
def waitingForDevice : List (WalkOrder × Op) :=
  [(.ascending, .setSlotOwners "primary" codexOwners),
    (.ascending, .publishCodexSnapshot (snapshotOf [("thread", 0)]) 10),
    (.ascending, .publishCodexHidStatus (litFrame 0) 20)]

/-- When the controller registers, the catalog card takes the slot of the HID
card: `thread` comes after `codex-hid:0`. -/
theorem hid_pin_evicted :
    ¬HidPinned ((run waitingForDevice default).apply .ascending (.setDevice "primary" 6 true))
      0 := by
  intro h
  have hcard : (((run waitingForDevice default).apply .ascending
      (.setDevice "primary" 6 true)).tasks[hidTaskId 0]?).map
        (fun task => (task.ownerAgent, task.sourceSlot)) = some (.codex, some 0) := by
    decide +kernel
  obtain ⟨task, htask, hdata⟩ := Option.map_eq_some_iff.mp hcard
  obtain ⟨hagent, hsource⟩ := Prod.mk.inj hdata
  have howner : ∀ agent, codexOwners[0]? = some (some agent) → agent = AgentId.codex := by
    intro agent hagent
    exact (Option.some.inj (Option.some.inj hagent)).symm
  have hslot := h "primary" (deviceSlots "primary" 6) task htask ⟨hagent, hsource⟩
    (by decide +kernel) (by decide +kernel) (by decide) (fun agent hagent => howner agent
      (by rw [← hagent]; decide +kernel))
  revert hslot
  decide +kernel

end TaskBoard
end Tasks
end MicroEmu
