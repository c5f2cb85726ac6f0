import Mathlib.Algebra.Ring.Nat
import Mathlib.Data.Fin.Basic
import Mathlib.Data.List.Basic

/-!
# Sweeps around a circle

A sweep looks for the next place in need of work, around a circle, and goes on behind the
place it has found.  Each place it finds brings it nearer to every other place in need, so
a place that stays in need is found before the sweep has found as many places as there are.
-/

namespace MicroEmu
namespace Library

variable {size : Nat}

/-- How far ahead of the start a place is. -/
def ahead (start place : Fin size) : Nat :=
  if start.val ≤ place.val then place.val - start.val else size + place.val - start.val

/-- Either the place is not before the start, or the way leads around. -/
theorem ahead_spec (start place : Fin size) :
    (start.val ≤ place.val ∧ start.val + ahead start place = place.val) ∨
      (place.val < start.val ∧ start.val + ahead start place = size + place.val) := by
  have hstart := start.isLt
  rw [ahead]
  split <;> omega

theorem ahead_lt (start place : Fin size) : ahead start place < size := by
  have hplace := place.isLt
  have hspec := ahead_spec start place
  omega

variable [NeZero size]

/-- The first place from the start on, around the circle. -/
def nextFrom (start : Fin size) (need : Fin size → Bool) : Option (Fin size) :=
  ((List.range size).map fun offset => Fin.ofNat size (start.val + offset)).find? need

theorem val_ofNat {place : Nat} (h : place < 2 * size) :
    (place < size ∧ (Fin.ofNat size place).val = place) ∨
      (size ≤ place ∧ (Fin.ofNat size place).val + size = place) := by
  have hval : (Fin.ofNat size place).val = place % size := rfl
  by_cases hfront : place < size
  · exact .inl ⟨hfront, hval.trans (Nat.mod_eq_of_lt hfront)⟩
  · refine .inr ⟨Nat.not_lt.mp hfront, ?_⟩
    rw [hval, Nat.mod_eq_sub_mod (Nat.not_lt.mp hfront), Nat.mod_eq_of_lt (by omega)]
    omega

theorem ofNat_ahead (start place : Fin size) :
    Fin.ofNat size (start.val + ahead start place) = place := by
  have hplace := place.isLt
  have hspec := ahead_spec start place
  have hval := val_ofNat (show start.val + ahead start place < 2 * size by omega)
  refine Fin.ext ?_
  omega

theorem ahead_ofNat (start : Fin size) {offset : Nat} (h : offset < size) :
    ahead start (Fin.ofNat size (start.val + offset)) = offset := by
  have hstart := start.isLt
  have hval := val_ofNat (show start.val + offset < 2 * size by omega)
  have hspec := ahead_spec start (Fin.ofNat size (start.val + offset))
  omega

/-- A sweep that finds nothing has seen every place. -/
theorem nextFrom_eq_none_iff {start : Fin size} {need : Fin size → Bool} :
    nextFrom start need = none ↔ ∀ place, need place = false := by
  rw [nextFrom, List.find?_eq_none]
  constructor
  · intro h place
    refine Bool.eq_false_of_not_eq_true (h place ?_)
    rw [← ofNat_ahead start place]
    exact List.mem_map.mpr ⟨_, List.mem_range.mpr (ahead_lt start place), by rw [ofNat_ahead]⟩
  · intro h place _
    rw [h place]
    exact Bool.false_ne_true

/-- What a sweep finds is in need, and no place in need is nearer. -/
theorem nextFrom_eq_some {start found : Fin size} {need : Fin size → Bool}
    (h : nextFrom start need = some found) :
    need found = true ∧ ∀ place, need place = true → ahead start found ≤ ahead start place := by
  rw [nextFrom, List.find?_eq_some_iff_getElem] at h
  obtain ⟨hneed, offset, hoffset, hfound, hbefore⟩ := h
  rw [List.length_map, List.length_range] at hoffset
  rw [List.getElem_map, List.getElem_range] at hfound
  refine ⟨hneed, fun place hplace => ?_⟩
  rw [← hfound, ahead_ofNat start hoffset]
  by_contra hnearer
  have hskipped := hbefore (ahead start place) (Nat.lt_of_not_le hnearer)
  rw [List.getElem_map, List.getElem_range, ofNat_ahead, hplace] at hskipped
  cases hskipped

/-- Behind the place that was found, every place that was farther is nearer. -/
theorem ahead_next_lt {start found place : Fin size} (hne : place ≠ found)
    (h : ahead start found ≤ ahead start place) :
    ahead (Fin.ofNat size (found + 1)) place < ahead start place := by
  have hfound := found.isLt
  have hplace := place.isLt
  have hval : place.val ≠ found.val := fun heq => hne (Fin.ext heq)
  have hnext := val_ofNat (show found.val + 1 < 2 * size by omega)
  have hspec := ahead_spec start found
  have hspec' := ahead_spec start place
  have hspec'' := ahead_spec (Fin.ofNat size (found + 1)) place
  omega

end Library
end MicroEmu
