import Mathlib.Data.List.Basic

/-!
# Arrays with checked access

An array has a fixed number of cells.  Reading or writing outside them gives no result,
so a program that has one stayed inside.
-/

namespace MicroEmu
namespace Library

universe u

/-- An array of so many cells. -/
structure Block (α : Type u) (size : Nat) where
  cells : List α
  length_cells : cells.length = size
  deriving DecidableEq, Repr

namespace Block

variable {α : Type u} {size : Nat}

/-- An array filled with one value. -/
def fill (value : α) : Block α size := ⟨List.replicate size value, List.length_replicate⟩

/-- One cell. -/
def load (block : Block α size) (index : Nat) : Option α := block.cells[index]?

/-- So many cells from an index on. -/
def slice (block : Block α size) (index count : Nat) : Option (List α) :=
  if index + count ≤ size then some ((block.cells.drop index).take count) else none

/-- Write cells from an index on. -/
def store (block : Block α size) (index : Nat) (values : List α) : Option (Block α size) :=
  if h : index + values.length ≤ size then
    some ⟨block.cells.take index ++ (values ++ block.cells.drop (index + values.length)), by
      have hcells := block.length_cells
      simp only [List.length_append, List.length_take, List.length_drop]
      omega⟩
  else none

/-- Copy cells of an array inside it, as if through a temporary. -/
def move (block : Block α size) (destination source count : Nat) : Option (Block α size) :=
  (block.slice source count).bind (block.store destination)

theorem load_eq (block : Block α size) {index : Nat} (h : index < size) (default : α) :
    block.load index = some (block.cells.getD index default) := by
  have hcells : index < block.cells.length := by rwa [block.length_cells]
  rw [load, List.getD_eq_getElem?_getD, List.getElem?_eq_getElem hcells, Option.getD_some]

theorem slice_eq (block : Block α size) {index count : Nat} (h : index + count ≤ size) :
    block.slice index count = some ((block.cells.drop index).take count) := if_pos h

/-- A write puts its values between what was before and behind them. -/
theorem exists_store (block : Block α size) {index : Nat} {values : List α}
    (h : index + values.length ≤ size) :
    ∃ stored, block.store index values = some stored ∧
      stored.cells =
        block.cells.take index ++ (values ++ block.cells.drop (index + values.length)) :=
  ⟨_, dif_pos h, rfl⟩

/-- Cells appended to the used part of an array. -/
theorem exists_store_append (block : Block α size) {used : Nat} {values : List α}
    (h : used + values.length ≤ size) :
    ∃ stored, block.store used values = some stored ∧
      stored.cells.take (used + values.length) = block.cells.take used ++ values := by
  obtain ⟨stored, hstore, hcells⟩ := block.exists_store h
  have hused : (block.cells.take used).length = used := by
    rw [List.length_take, block.length_cells]
    omega
  refine ⟨stored, hstore, ?_⟩
  rw [hcells, ← List.append_assoc, List.take_left']
  rw [List.length_append, hused]

/-- Writing behind a part that is there already. -/
theorem exists_store_behind (block : Block α size) {front : List α}
    (hfront : block.cells.take front.length = front) (index : Nat)
    (hindex : index = front.length) (values : List α) (h : (front ++ values).length ≤ size) :
    ∃ stored, block.store index values = some stored ∧
      stored.cells.take (front ++ values).length = front ++ values := by
  subst hindex
  rw [List.length_append] at h ⊢
  obtain ⟨stored, hstored, hcells⟩ := block.exists_store_append h
  rw [hfront] at hcells
  exact ⟨stored, hstored, hcells⟩

/-- The used part moved to the front without its first cells. -/
theorem exists_move_front (block : Block α size) {used count : Nat} (hcount : count ≤ used)
    (h : used ≤ size) :
    ∃ moved, block.move 0 count (used - count) = some moved ∧
      moved.cells.take (used - count) = (block.cells.take used).drop count := by
  -- what is read stays in the array, and so does what is written
  have hfits : count + (used - count) ≤ size := by omega
  have hlength : ((block.cells.drop count).take (used - count)).length = used - count := by
    rw [List.length_take, List.length_drop, block.length_cells]
    omega
  have hstore : 0 + ((block.cells.drop count).take (used - count)).length ≤ size := by omega
  obtain ⟨stored, hstored, hcells⟩ := block.exists_store hstore
  refine ⟨stored, ?_, ?_⟩
  · rw [move, block.slice_eq hfits]
    exact hstored
  · rw [hcells, List.take_zero, List.nil_append, List.take_left' hlength, List.drop_take]

end Block
end Library
end MicroEmu
