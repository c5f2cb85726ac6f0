import Mathlib.Data.Finset.Sort
import MicroEmu.Bridge.Route
import MicroEmu.Library.Cyclic
import MicroEmu.Tasks.Selection

/-!
# Navigation visits every card

The catalog actions for the next and the previous task move the selection along the
occupied slots of a device, around the ends.  Selecting a card may acknowledge its
task, but it moves no card.  So the slots a navigation walks on stay what they are,
and going on from one card comes by every other one before it comes back.
-/

namespace MicroEmu
namespace Tasks
namespace TaskBoard

open Library

variable {board : TaskBoard} {deviceId : String}

/-- The occupied slots of a device. -/
def occupied (board : TaskBoard) (deviceId : String) : Finset Nat :=
  ((board.assignments.toList.filter fun entry => entry.2.slot.deviceId == deviceId).map
    fun entry => entry.2.slot.slot).toFinset

theorem mem_occupied_iff {slot : Nat} :
    slot ∈ board.occupied deviceId ↔
      ∃ id : String, board.assignments[id]? = some ⟨⟨deviceId, slot⟩⟩ := by
  rw [occupied, List.mem_toFinset, List.mem_map]
  constructor
  · rintro ⟨⟨id, ⟨⟨device, place⟩⟩⟩, hentry, rfl⟩
    obtain ⟨hassigned, hdevice⟩ := List.mem_filter.mp hentry
    have hhere : device = deviceId := eq_of_beq hdevice
    rw [hhere] at hassigned
    exact ⟨id, Std.ExtTreeMap.mem_toList_iff_getElem?_eq_some.mp hassigned⟩
  · rintro ⟨id, hassigned⟩
    refine ⟨(id, ⟨⟨deviceId, slot⟩⟩), List.mem_filter.mpr ⟨?_, beq_self_eq_true _⟩, rfl⟩
    exact Std.ExtTreeMap.mem_toList_iff_getElem?_eq_some.mpr hassigned

/-- The selected task is shown in the slot. -/
def SelectedIn (board : TaskBoard) (deviceId : String) (slot : Nat) : Prop :=
  ∃ id, board.selected = some id ∧ board.assignments[id]? = some ⟨⟨deviceId, slot⟩⟩

theorem selectedSlot_eq_some_iff {slot : Nat} :
    board.selectedSlot deviceId = some slot ↔ board.SelectedIn deviceId slot := by
  unfold selectedSlot selectedOn SelectedIn
  rw [Option.bind_eq_some_iff]
  constructor
  · rintro ⟨id, hselected, hslot⟩
    obtain ⟨hid, hshown⟩ := Option.filter_eq_some_iff.mp hselected
    obtain ⟨⟨⟨device, place⟩⟩, hassigned, rfl⟩ := Option.map_eq_some_iff.mp hslot
    rw [assignedOn, hassigned, Option.any_some] at hshown
    have hdevice : device = deviceId := eq_of_beq hshown
    rw [hdevice] at hassigned
    exact ⟨id, hid, hassigned⟩
  · rintro ⟨id, hselected, hassigned⟩
    refine ⟨id, Option.filter_eq_some_iff.mpr ⟨hselected, ?_⟩, ?_⟩
    · rw [assignedOn, hassigned, Option.any_some, beq_self_eq_true]
    · rw [hassigned, Option.map_some]

theorem SelectedIn.mem_occupied {slot : Nat} (h : board.SelectedIn deviceId slot) :
    slot ∈ board.occupied deviceId := by
  obtain ⟨id, -, hassigned⟩ := h
  exact mem_occupied_iff.mpr ⟨id, hassigned⟩

/-- Selecting a task moves no card. -/
theorem selectTask_assignments (board : TaskBoard) (taskId : String) (nowMs : Nat) :
    (board.selectTask taskId nowMs).2.assignments = board.assignments := by
  unfold selectTask
  simp only
  split <;> rfl

theorem select_assignments (order : WalkOrder) (board : TaskBoard) (deviceId : String)
    (slot nowMs : Nat) :
    (board.select order deviceId slot nowMs).2.assignments = board.assignments := by
  unfold select
  split
  · rfl
  · exact selectTask_assignments board _ nowMs

/-- Selecting an occupied slot selects the card in it. -/
theorem select_selectedIn (hplaced : Placed board) (order : WalkOrder) {slot : Nat}
    (hslot : slot ∈ board.occupied deviceId) (nowMs : Nat) :
    (board.select order deviceId slot nowMs).2.SelectedIn deviceId slot := by
  obtain ⟨id, hassigned⟩ := mem_occupied_iff.mp hslot
  obtain ⟨task, htask, -⟩ := hplaced.complies hassigned
  have hoccupant : board.occupant order deviceId slot = some id :=
    (occupant_eq_some_iff hplaced.injective).mpr hassigned
  refine ⟨id, ?_, by rw [select_assignments, hassigned]⟩
  unfold select selectTask
  simp only [hoccupant, hassigned, htask]

end TaskBoard
end Tasks

namespace Bridge

open Codex (CatalogAction)
open Library
open Tasks (TaskBoard WalkOrder Op)
open Tasks.TaskBoard (Placed run placed_run mem_occupied_iff)

namespace BridgeRuntime

variable {World : Type} {out : Outside World} {bridge : BridgeRuntime World}
variable {deviceId : String}

/-! ## The slots a navigation walks on -/

/-- The occupied slots, in ascending order. -/
def places (bridge : BridgeRuntime World) (deviceId : String) : List Nat :=
  (bridge.taskBoard.occupied deviceId).sort

theorem pairwise_places (bridge : BridgeRuntime World) (deviceId : String) :
    (bridge.places deviceId).Pairwise (· < ·) :=
  (Finset.sortedLT_sort _).pairwise

theorem mem_occupiedSlots_iff (hplaced : Placed bridge.taskBoard) {order : WalkOrder}
    {slot : Nat} :
    slot ∈ bridge.occupiedSlots order deviceId ↔ slot ∈ bridge.taskBoard.occupied deviceId := by
  rw [mem_occupied_iff, occupiedSlots, List.mem_dedup, List.mem_insertionSort, List.mem_map]
  constructor
  · rintro ⟨⟨⟨device, place⟩⟩, hassignment, rfl⟩
    obtain ⟨hlisted, hdevice⟩ := List.mem_filter.mp hassignment
    obtain ⟨task, -, hassigned⟩ := List.mem_filterMap.mp hlisted
    have hhere : device = deviceId := eq_of_beq hdevice
    rw [hhere] at hassigned
    exact ⟨task.taskId, hassigned⟩
  · rintro ⟨id, hassigned⟩
    obtain ⟨task, htask, -⟩ := hplaced.complies hassigned
    have hid : task.taskId = id := hplaced.wellFormed.keyed htask
    refine ⟨⟨⟨deviceId, slot⟩⟩, List.mem_filter.mpr ⟨?_, beq_self_eq_true _⟩, rfl⟩
    refine List.mem_filterMap.mpr ⟨task, (order.mem_values_iff hplaced.wellFormed).mpr ?_, ?_⟩
    · rw [hid]
      exact htask
    · rw [hid]
      exact hassigned

/-- The list the code builds is that of the occupied slots. -/
theorem occupiedSlots_eq (hplaced : Placed bridge.taskBoard) (order : WalkOrder) :
    bridge.occupiedSlots order deviceId = bridge.places deviceId := by
  have hnodup : (bridge.occupiedSlots order deviceId).Nodup := List.nodup_dedup _
  have hsorted : (bridge.occupiedSlots order deviceId).Pairwise (· ≤ ·) :=
    (List.pairwise_insertionSort (· ≤ ·) _).sublist (List.dedup_sublist _)
  have hsame : (bridge.occupiedSlots order deviceId).toFinset =
      bridge.taskBoard.occupied deviceId := by
    ext slot
    rw [List.mem_toFinset, mem_occupiedSlots_iff hplaced]
  rw [places, ← hsame]
  exact ((List.toFinset_sort (· ≤ ·) hnodup).mpr hsorted).symm

/-! ## One move -/

/-- The selected card stands in the slot of the device. -/
structure Stands (bridge : BridgeRuntime World) (deviceId : String) (slot : Nat) : Prop where
  placed : Placed bridge.taskBoard
  selected : bridge.taskBoard.SelectedIn deviceId slot

theorem Stands.mem_places {slot : Nat} (h : bridge.Stands deviceId slot) :
    slot ∈ bridge.places deviceId :=
  (Finset.mem_sort _).mpr h.selected.mem_occupied

/-- The boards show the same cards in the same slots. -/
def SameLayout (bridge moved : BridgeRuntime World) : Prop :=
  moved.taskBoard.assignments = bridge.taskBoard.assignments

theorem SameLayout.places {moved : BridgeRuntime World} (h : SameLayout bridge moved)
    (deviceId : String) : moved.places deviceId = bridge.places deviceId := by
  unfold BridgeRuntime.places TaskBoard.occupied
  rw [h]

/-- A navigation moves no card. -/
theorem sameLayout_navigation (bridge : BridgeRuntime World) (order : WalkOrder)
    (deviceId : String) {action : CatalogAction} (haction : isNavigation action = true)
    (nowMs : Nat) :
    SameLayout bridge (bridge.routeCatalogAction out order deviceId action nowMs) := by
  unfold routeCatalogAction routeCatalogTaskNavigation SameLayout
  rw [if_pos haction]
  split
  · rfl
  · split
    · rfl
    · simp only
      split <;> exact TaskBoard.select_assignments ..

/-- A navigation selects the card in the slot it goes to. -/
theorem Stands.navigation {slot target : Nat} (h : bridge.Stands deviceId slot)
    (order : WalkOrder) {action : CatalogAction} (haction : isNavigation action = true)
    (htarget : navigationTarget (bridge.places deviceId) (some slot) action = some target)
    (hthere : target ∈ bridge.places deviceId) (nowMs : Nat) :
    (bridge.routeCatalogAction out order deviceId action nowMs).Stands deviceId target := by
  have hoccupied := (Finset.mem_sort (· ≤ ·)).mp hthere
  obtain ⟨id, hassigned⟩ := mem_occupied_iff.mp hoccupied
  obtain ⟨task, htask, -⟩ := h.placed.complies hassigned
  have hcard : bridge.taskBoard.taskAt order deviceId target = some task := by
    rw [TaskBoard.taskAt_eq_some_iff h.placed, h.placed.wellFormed.keyed htask]
    exact ⟨hassigned, htask⟩
  have hcurrent := TaskBoard.selectedSlot_eq_some_iff.mpr h.selected
  have hboard : (bridge.routeCatalogAction out order deviceId action nowMs).taskBoard =
      (bridge.taskBoard.select order deviceId target nowMs).2 := by
    unfold routeCatalogAction routeCatalogTaskNavigation
    rw [if_pos haction, occupiedSlots_eq h.placed, hcurrent, htarget]
    simp only [hcard]
    split <;> rfl
  constructor
  · rw [hboard]
    exact h.placed.apply order (.select deviceId target nowMs)
  · rw [hboard]
    exact TaskBoard.select_selectedIn h.placed order hoccupied nowMs

/-! ## A whole tour -/

/-- The bridges after each of some equal moves. -/
def trail (out : Outside World) (bridge : BridgeRuntime World) (deviceId : String)
    (action : CatalogAction) : List (WalkOrder × Nat) → List (BridgeRuntime World)
  | [] => []
  | (order, nowMs) :: calls =>
      let moved := bridge.routeCatalogAction out order deviceId action nowMs
      moved :: moved.trail out deviceId action calls

/-- The selected card of each bridge of a trail is the one in the slot the tour of the
occupied slots is in. -/
theorem Stands.trail {slot : Nat} (h : bridge.Stands deviceId slot) (out : Outside World)
    (calls : List (WalkOrder × Nat)) :
    List.Forall₂ (fun moved place => moved.Stands deviceId place ∧ SameLayout bridge moved)
      (bridge.trail out deviceId .taskNext calls)
      (tour (bridge.places deviceId) calls.length slot) := by
  induction calls generalizing bridge slot with
  | nil => exact .nil
  | cons call calls ih =>
      obtain ⟨order, nowMs⟩ := call
      obtain ⟨target, hthere, htarget⟩ :=
        after?_isSome (pairwise_places bridge deviceId) h.mem_places
      have hnext : navigationTarget (bridge.places deviceId) (some slot) .taskNext =
          some target := htarget
      have hstands : (bridge.routeCatalogAction out order deviceId .taskNext nowMs).Stands
          deviceId target := h.navigation order rfl hnext hthere nowMs
      have hlayout : SameLayout bridge
          (bridge.routeCatalogAction out order deviceId .taskNext nowMs) :=
        sameLayout_navigation bridge order deviceId rfl nowMs
      have hrest := ih hstands
      rw [hlayout.places] at hrest
      rw [List.length_cons, tour, htarget]
      refine .cons ⟨hstands, hlayout⟩ (hrest.imp fun moved place hmoved => ?_)
      exact ⟨hmoved.1, hmoved.2.trans hlayout⟩

/-- As many moves to the next task as there are occupied slots select every card of the
device once, the one they started from at last. -/
def VisitsEvery (out : Outside World) (bridge : BridgeRuntime World) (deviceId : String) : Prop :=
  ∀ calls : List (WalkOrder × Nat),
    calls.length = (bridge.taskBoard.occupied deviceId).card →
      ∃ ids : List String,
        (bridge.trail out deviceId .taskNext calls).map (·.taskBoard.selected) = ids.map some ∧
        ids.Nodup ∧
        (∀ id, id ∈ ids ↔ ∃ slot, bridge.taskBoard.assignments[id]? = some ⟨⟨deviceId, slot⟩⟩) ∧
        ids.getLast? = bridge.taskBoard.selected

/-- A move and the move back select the card they started from. -/
def Returns (out : Outside World) (bridge : BridgeRuntime World) (deviceId : String) : Prop :=
  ∀ there back, (there = .taskNext ∧ back = .taskPrevious ∨
      there = .taskPrevious ∧ back = .taskNext) →
    ∀ order nowMs order' nowMs',
      ((bridge.routeCatalogAction out order deviceId there nowMs).routeCatalogAction out order'
        deviceId back nowMs').taskBoard.selected = bridge.taskBoard.selected

/-- No run of navigations moves a card. -/
def KeepsLayout (out : Outside World) (bridge : BridgeRuntime World) (deviceId : String) : Prop :=
  ∀ moves : List (WalkOrder × CatalogAction × Nat),
    (∀ move ∈ moves, isNavigation move.2.1 = true) →
      SameLayout bridge (moves.foldl
        (fun bridge move => bridge.routeCatalogAction out move.1 deviceId move.2.1 move.2.2) bridge)

/-- The task in a slot. -/
def holder (bridge : BridgeRuntime World) (deviceId : String) (slot : Nat) : String :=
  (bridge.taskBoard.occupant .ascending deviceId slot).getD ""

theorem holder_eq (hplaced : Placed bridge.taskBoard) {id : String} {slot : Nat}
    (hassigned : bridge.taskBoard.assignments[id]? = some ⟨⟨deviceId, slot⟩⟩) :
    bridge.holder deviceId slot = id := by
  rw [holder, (TaskBoard.occupant_eq_some_iff hplaced.injective).mpr hassigned, Option.getD_some]

/-- What is selected is the card in the slot the selection stands in. -/
theorem Stands.selected_eq {moved : BridgeRuntime World} {place : Nat}
    (hplaced : Placed bridge.taskBoard) (h : moved.Stands deviceId place)
    (hlayout : SameLayout bridge moved) :
    moved.taskBoard.selected = some (bridge.holder deviceId place) := by
  obtain ⟨id, hselected, hassigned⟩ := h.selected
  rw [hlayout] at hassigned
  rw [hselected, holder_eq hplaced hassigned]

theorem Stands.visitsEvery {slot : Nat} (h : bridge.Stands deviceId slot) :
    bridge.VisitsEvery out deviceId := by
  intro calls hcalls
  have hsorted := pairwise_places bridge deviceId
  have hlength : calls.length = (bridge.places deviceId).length :=
    hcalls.trans (Finset.length_sort _).symm
  have hholds : ∀ {place}, place ∈ bridge.places deviceId →
      bridge.taskBoard.assignments[bridge.holder deviceId place]? = some ⟨⟨deviceId, place⟩⟩ := by
    intro place hplace
    obtain ⟨id, hassigned⟩ := mem_occupied_iff.mp ((Finset.mem_sort _).mp hplace)
    rw [holder_eq h.placed hassigned, hassigned]
  have htrail := h.trail out calls
  rw [hlength] at htrail
  refine ⟨(tour (bridge.places deviceId) (bridge.places deviceId).length slot).map
    (bridge.holder deviceId), ?_, ?_, ?_, ?_⟩
  · rw [List.map_map, ← List.forall₂_eq_eq_eq, List.forall₂_map_left_iff,
      List.forall₂_map_right_iff]
    exact htrail.imp fun moved place hmoved => hmoved.1.selected_eq h.placed hmoved.2
  · refine (nodup_tour hsorted h.mem_places).map_on ?_
    intro place hplace other hother heq
    have hhere := hholds ((mem_tour_iff hsorted h.mem_places).mp hplace)
    rw [heq, hholds ((mem_tour_iff hsorted h.mem_places).mp hother)] at hhere
    cases hhere
    rfl
  · intro id
    rw [List.mem_map]
    constructor
    · rintro ⟨place, hplace, rfl⟩
      exact ⟨place, hholds ((mem_tour_iff hsorted h.mem_places).mp hplace)⟩
    · rintro ⟨place, hassigned⟩
      refine ⟨place, (mem_tour_iff hsorted h.mem_places).mpr ?_, holder_eq h.placed hassigned⟩
      exact (Finset.mem_sort _).mpr (mem_occupied_iff.mpr ⟨id, hassigned⟩)
  · rw [List.getLast?_map, getLast?_tour hsorted h.mem_places, Option.map_some]
    exact (h.selected_eq h.placed rfl).symm

theorem Stands.returns {slot : Nat} (h : bridge.Stands deviceId slot) :
    bridge.Returns out deviceId := by
  have hsorted := pairwise_places bridge deviceId
  -- a move to another slot and a move that undoes it, whichever way
  have hback : ∀ {there back : CatalogAction} {target : Nat},
      isNavigation there = true → isNavigation back = true → target ∈ bridge.places deviceId →
      navigationTarget (bridge.places deviceId) (some slot) there = some target →
      navigationTarget (bridge.places deviceId) (some target) back = some slot →
      ∀ order nowMs order' nowMs',
        ((bridge.routeCatalogAction out order deviceId there nowMs).routeCatalogAction out order'
          deviceId back nowMs').taskBoard.selected = bridge.taskBoard.selected := by
    intro there back target hthere hback htarget hout hin order nowMs order' nowMs'
    have hmoved : (bridge.routeCatalogAction out order deviceId there nowMs).Stands deviceId
        target := h.navigation order hthere hout htarget nowMs
    have hlayout : SameLayout bridge
        (bridge.routeCatalogAction out order deviceId there nowMs) :=
      sameLayout_navigation bridge order deviceId hthere nowMs
    rw [← hlayout.places deviceId] at hin
    have hslot := h.mem_places
    rw [← hlayout.places deviceId] at hslot
    have hfinal : ((bridge.routeCatalogAction out order deviceId there nowMs).routeCatalogAction
        out order' deviceId back nowMs').Stands deviceId slot :=
      hmoved.navigation order' hback hin hslot nowMs'
    rw [hfinal.selected_eq h.placed ((sameLayout_navigation _ order' deviceId hback nowMs').trans
      hlayout), h.selected_eq h.placed rfl]
  rintro there back (⟨rfl, rfl⟩ | ⟨rfl, rfl⟩)
  · obtain ⟨target, htarget, hnext⟩ := after?_isSome hsorted h.mem_places
    exact hback rfl rfl htarget hnext (before?_after? hsorted h.mem_places hnext)
  · obtain ⟨target, htarget, hprevious⟩ := before?_isSome hsorted h.mem_places
    exact hback rfl rfl htarget hprevious (after?_before? hsorted h.mem_places hprevious)

theorem keepsLayout (bridge : BridgeRuntime World) (deviceId : String) :
    bridge.KeepsLayout out deviceId := by
  intro moves hmoves
  induction moves generalizing bridge with
  | nil => rfl
  | cons move moves ih =>
      obtain ⟨hmove, hmoves⟩ := List.forall_mem_cons.mp hmoves
      exact (ih _ hmoves).trans (sameLayout_navigation bridge move.1 deviceId hmove move.2.2)

/-- On every reachable board with a selection on the device, going to the next task
visits every card and returns, a move and the move back restore the selection, and no
navigation moves a card. -/
theorem navigation_visits_every (out : Outside World) (bridge : BridgeRuntime World)
    (steps : List (WalkOrder × Op)) (hreached : bridge.taskBoard = run steps default)
    (deviceId : String) (slot : Nat)
    (hselected : bridge.taskBoard.selectedSlot deviceId = some slot) :
    bridge.VisitsEvery out deviceId ∧ bridge.Returns out deviceId ∧
      bridge.KeepsLayout out deviceId := by
  have hstands : bridge.Stands deviceId slot := by
    refine ⟨?_, TaskBoard.selectedSlot_eq_some_iff.mp hselected⟩
    rw [hreached]
    exact placed_run steps
  exact ⟨hstands.visitsEvery, hstands.returns, keepsLayout bridge deviceId⟩

/-- Two cards on a deck of eight slots, the first one selected. -/
def twoCards : List (WalkOrder × Op) :=
  [(.ascending, .setDevice "deck" 8 true),
    (.ascending, .publishLegacyStatus 9 .hermes (.array [
      .object [("i", .ofNat 0), ("e", .ofNat 1), ("t", .string "One")],
      .object [("i", .ofNat 1), ("e", .ofNat 1), ("t", .string "Two")]]) 1),
    (.ascending, .select "deck" 0 2)]

theorem navigation_visits_twoCards :
    let bridge : BridgeRuntime Unit := { opened () 0 with taskBoard := run twoCards default }
    bridge.taskBoard.occupied "deck" = {0, 1} ∧ bridge.VisitsEvery Outside.idle "deck" ∧
      bridge.Returns Outside.idle "deck" ∧ bridge.KeepsLayout Outside.idle "deck" := by
  intro bridge
  exact ⟨by decide +kernel, navigation_visits_every Outside.idle bridge twoCards rfl "deck" 0
    (by decide +kernel)⟩

end BridgeRuntime
end Bridge
end MicroEmu
