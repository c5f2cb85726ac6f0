import Mathlib.Data.List.Basic

/-!
# What stands at a position

What `modify`, `set` and an append leave at a position of a list, in the form in which a value
that is found there is traced back.
-/

namespace MicroEmu
namespace Library

universe u

theorem getElem?_modify_eq_some {α : Type u} {values : List α} {position other : Nat}
    {change : α → α} {value : α} : (values.modify position change)[other]? = some value ↔
      ∃ old, values[other]? = some old ∧ value = if position = other then change old else old := by
  rw [List.getElem?_modify]
  constructor
  · intro h
    obtain ⟨old, hold, rfl⟩ := Option.map_eq_some_iff.mp h
    exact ⟨old, hold, rfl⟩
  · rintro ⟨old, hold, rfl⟩
    rw [hold]
    rfl

theorem getElem?_concat_eq_some {α : Type u} {values : List α} {last value : α} {position : Nat} :
    (values ++ [last])[position]? = some value ↔
      values[position]? = some value ∨ position = values.length ∧ value = last := by
  rcases Nat.lt_trichotomy position values.length with hlt | rfl | hgt
  · rw [List.getElem?_append_left hlt]
    exact ⟨.inl, fun h => h.elim (fun hold => hold) fun ⟨heq, _⟩ => absurd heq (Nat.ne_of_lt hlt)⟩
  · rw [List.getElem?_concat_length, List.getElem?_eq_none (Nat.le_refl _)]
    simp [eq_comm]
  · have hlength : (values ++ [last]).length ≤ position := by
      rw [List.length_append]
      exact hgt
    rw [List.getElem?_eq_none hlength, List.getElem?_eq_none (Nat.le_of_lt hgt)]
    simp [Nat.ne_of_gt hgt]

theorem getElem?_set_eq_some {α : Type u} {values : List α} {position other : Nat}
    {old new value : α} (hold : values[position]? = some old) :
    (values.set position new)[other]? = some value ↔
      position = other ∧ value = new ∨ position ≠ other ∧ values[other]? = some value := by
  obtain ⟨hlt, -⟩ := List.getElem?_eq_some_iff.mp hold
  rw [List.getElem?_set]
  split
  next heq =>
    subst heq
    simp [hlt, eq_comm]
  next hne => simp [hne]

end Library
end MicroEmu
