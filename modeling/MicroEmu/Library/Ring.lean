import MicroEmu.Library.Memory
import Mathlib.Data.Nat.ModEq

/-!
# Rings in an array

A queue kept in an array: its first value stands at an index, the others behind it, and
behind the end of the array they go on at its front.
-/

namespace MicroEmu
namespace Library
namespace Block

universe u

variable {α : Type u} {size : Nat}

/-- So many values from an index on, around the end. -/
def ring (block : Block α size) (head : Nat) : Nat → List α
  | 0 => []
  | count + 1 => block.ring head count ++ (block.load ((head + count) % size)).toList

theorem exists_load (block : Block α size) {index : Nat} (h : index < size) :
    ∃ value, block.load index = some value := by
  rw [← block.length_cells] at h
  exact ⟨_, List.getElem?_eq_getElem h⟩

theorem length_ring (block : Block α size) (hsize : 0 < size) (head count : Nat) :
    (block.ring head count).length = count := by
  induction count with
  | zero => rfl
  | succ count ih =>
      obtain ⟨value, hvalue⟩ := block.exists_load (Nat.mod_lt (head + count) hsize)
      rw [ring, List.length_append, ih, hvalue]
      rfl

/-- One cell is written, and no other. -/
theorem load_store {block stored : Block α size} {index : Nat} {value : α}
    (h : block.store index [value] = some stored) :
    stored.load index = some value ∧
      ∀ other, other ≠ index → stored.load other = block.load other := by
  have hindex : index + [value].length ≤ size := by
    by_contra hout
    rw [store, dif_neg hout] at h
    cases h
  have hlength : (block.cells.take index).length = index := by
    rw [List.length_take, block.length_cells]
    exact Nat.min_eq_left (Nat.le_of_add_right_le hindex)
  obtain ⟨written, hwritten, hcells⟩ := block.exists_store hindex
  obtain rfl := Option.some.inj (hwritten.symm.trans h)
  rw [List.singleton_append, List.length_singleton] at hcells
  refine ⟨?_, fun other hother => ?_⟩
  · rw [load, hcells, List.getElem?_append_right (Nat.le_of_eq hlength), hlength, Nat.sub_self]
    rfl
  · rw [load, load, hcells]
    rcases Nat.lt_or_gt_of_ne hother with hless | hgreater
    · rw [List.getElem?_append_left (by rwa [hlength]), List.getElem?_take_of_lt hless]
    · obtain ⟨rest, rfl⟩ := Nat.exists_eq_add_of_lt hgreater
      rw [List.getElem?_append_right (by omega), hlength,
        show index + rest + 1 - index = rest + 1 by omega, List.getElem?_cons_succ,
        List.getElem?_drop, Nat.add_right_comm]

/-- The places of a ring are different. -/
theorem ring_place_ne {head first second : Nat} (hless : first < second) (hsecond : second < size) :
    (head + first) % size ≠ (head + second) % size := by
  intro hequal
  have hmod : first % size = second % size := Nat.ModEq.add_left_cancel' head hequal
  rw [Nat.mod_eq_of_lt hsecond, Nat.mod_eq_of_lt (Nat.lt_trans hless hsecond)] at hmod
  exact absurd hmod (Nat.ne_of_lt hless)

/-- A value written behind the last one. -/
theorem ring_store {block stored : Block α size} {head count : Nat} {value : α}
    (hcount : count < size) (h : block.store ((head + count) % size) [value] = some stored) :
    stored.ring head (count + 1) = block.ring head count ++ [value] := by
  obtain ⟨hplace, hothers⟩ := load_store h
  -- the place that is written is none of those in front of it
  have hfront : ∀ before, before ≤ count → stored.ring head before = block.ring head before := by
    intro before
    induction before with
    | zero => exact fun _ => rfl
    | succ before ih =>
        intro hbefore
        rw [ring, ring, ih (Nat.le_of_succ_le hbefore),
          hothers _ (ring_place_ne hbefore hcount)]
  rw [ring, hplace, hfront count (Nat.le_refl count)]
  rfl

/-- The first value, and the ring behind it. -/
theorem ring_succ (block : Block α size) (head count : Nat) :
    block.ring head (count + 1) =
      (block.load (head % size)).toList ++ block.ring ((head + 1) % size) count := by
  induction count with
  | zero => rw [ring, ring, ring, List.nil_append, List.append_nil, Nat.add_zero]
  | succ count ih =>
      have hplace : ((head + 1) % size + count) % size = (head + (count + 1)) % size := by
        rw [Nat.mod_add_mod, Nat.add_right_comm, Nat.add_assoc]
      rw [ring, ih, List.append_assoc, ring, hplace]

/-- A ring that is not empty starts with the value at its head. -/
theorem ring_pred (block : Block α size) {head count : Nat} {value : α} (hhead : head < size)
    (hcount : 0 < count) (hvalue : block.load head = some value) :
    block.ring head count = value :: block.ring ((head + 1) % size) (count - 1) := by
  have hsucc := block.ring_succ head (count - 1)
  rw [Nat.sub_add_cancel hcount, Nat.mod_eq_of_lt hhead, hvalue] at hsucc
  exact hsucc

end Block
end Library
end MicroEmu
