import Mathlib.Data.List.Infix

/-!
# The first place of a pair

Where two given values first stand next to each other in a list.
-/

namespace MicroEmu
namespace Library

universe u

variable {α : Type u} [DecidableEq α] {left right : α}

/-- The first index at which the pair stands. -/
def findPair (left right : α) : List α → Option Nat
  | first :: second :: rest =>
      if first = left ∧ second = right then some 0
      else (findPair left right (second :: rest)).map (· + 1)
  | _ => none

theorem findPair_cons {first second : α} {rest : List α}
    (h : ¬ (first = left ∧ second = right)) :
    findPair left right (first :: second :: rest) =
      (findPair left right (second :: rest)).map (· + 1) := by
  rw [findPair, if_neg h]

theorem findPair_eq_none_iff {values : List α} :
    findPair left right values = none ↔ ¬ [left, right] <:+: values := by
  induction values with
  | nil => simp [findPair]
  | cons first rest ih =>
      cases rest with
      | nil => simp [findPair, List.infix_cons_iff]
      | cons second rest =>
          by_cases hpair : first = left ∧ second = right
          · obtain ⟨rfl, rfl⟩ := hpair
            rw [findPair, if_pos ⟨rfl, rfl⟩]
            refine ⟨fun h => absurd h (Option.some_ne_none 0), fun h => absurd ?_ h⟩
            exact List.IsPrefix.isInfix ⟨rest, rfl⟩
          · rw [findPair_cons hpair, Option.map_eq_none_iff, ih]
            refine ⟨fun h hwithin => ?_, fun h hrest => h (List.infix_cons hrest)⟩
            rcases List.infix_cons_iff.mp hwithin with ⟨tail, htail⟩ | hrest
            · obtain ⟨rfl, hsecond⟩ := List.cons.inj htail
              obtain ⟨rfl, -⟩ := List.cons.inj hsecond
              exact hpair ⟨rfl, rfl⟩
            · exact h hrest

/-- The first pair behind values without one. -/
theorem findPair_append (hpair : left ≠ right) {front : List α}
    (h : findPair left right front = none) (rest : List α) :
    findPair left right (front ++ left :: right :: rest) = some front.length := by
  induction front with
  | nil => rw [List.nil_append, findPair, if_pos ⟨rfl, rfl⟩]; rfl
  | cons first front ih =>
      cases front with
      | nil =>
          have hfirst : ¬ (first = left ∧ left = right) := fun h => hpair h.2
          exact (findPair_cons hfirst).trans (congrArg (Option.map (· + 1)) (ih rfl))
      | cons second front =>
          by_cases hfirst : first = left ∧ second = right
          · rw [findPair, if_pos hfirst] at h
            cases h
          · rw [findPair_cons hfirst, Option.map_eq_none_iff] at h
            exact (findPair_cons hfirst).trans (congrArg (Option.map (· + 1)) (ih h))

/-- What is found in a part is found in the whole. -/
theorem findPair_of_append {front : List α} {position : Nat}
    (h : findPair left right front = some position) (back : List α) :
    findPair left right (front ++ back) = some position ∧ position + 2 ≤ front.length := by
  induction front generalizing position with
  | nil => cases h
  | cons first front ih =>
      cases front with
      | nil => cases h
      | cons second front =>
          by_cases hfirst : first = left ∧ second = right
          · rw [findPair, if_pos hfirst] at h
            obtain rfl := Option.some.inj h
            refine ⟨?_, Nat.le_add_left 2 front.length⟩
            rw [List.cons_append, List.cons_append, findPair, if_pos hfirst]
          · rw [findPair_cons hfirst] at h
            obtain ⟨inner, hinner, rfl⟩ := Option.map_eq_some_iff.mp h
            obtain ⟨hfound, hlength⟩ := ih hinner
            refine ⟨?_, Nat.succ_le_succ hlength⟩
            rw [List.cons_append, List.cons_append, findPair_cons hfirst]
            exact congrArg (Option.map (· + 1)) hfound

theorem findPair_front {front back : List α} (h : findPair left right (front ++ back) = none) :
    findPair left right front = none := by
  cases hfront : findPair left right front with
  | none => rfl
  | some position =>
      rw [(findPair_of_append hfront back).1] at h
      cases h

/-- No pair stands where its first value stands at the end only. -/
theorem findPair_concat {front : List α} (h : left ∉ front) (last : α) :
    findPair left right (front ++ [last]) = none := by
  induction front with
  | nil => rfl
  | cons first front ih =>
      have hfirst : ∀ second, ¬ (first = left ∧ second = right) := by
        rintro second ⟨rfl, -⟩
        exact h (List.mem_cons_self ..)
      have hlater := ih fun hmember => h (List.mem_cons_of_mem _ hmember)
      cases front with
      | nil => exact findPair_cons (hfirst last)
      | cons second front =>
          exact (findPair_cons (hfirst second)).trans (congrArg (Option.map (· + 1)) hlater)

end Library
end MicroEmu
