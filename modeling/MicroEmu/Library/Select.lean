import Mathlib.Data.List.Sort
import Mathlib.Order.Basic
import Std.Data.ExtTreeMap

/-!
# Selecting and sorting by a comparison

`Iterator::min_by` returns the first least element of a list, and `sort_by`
sorts stably.  Both take a comparison returning `Ordering`.  The laws a
comparison needs are those of `Std.TransCmp`.  A sorted list is often cut to its first
elements and mapped by a partial function, and the order of these two matters.
-/

namespace MicroEmu
namespace Library

open Std

variable {α β : Type}

/-- `Iterator::min_by`: the first of the least elements. -/
def minBy? (cmp : α → α → Ordering) : List α → Option α
  | [] => none
  | x :: xs => some (xs.foldl (fun best y => if cmp best y = .gt then y else best) x)

/-- `Iterator::max_by`: the last of the greatest elements. -/
def maxBy? (cmp : α → α → Ordering) : List α → Option α
  | [] => none
  | x :: xs => some (xs.foldl (fun best y => if cmp best y = .gt then best else y) x)

/-- Not above, as a Boolean relation for the sorting functions. -/
abbrev notAbove (cmp : α → α → Ordering) (a b : α) : Prop := cmp a b ≠ .gt

theorem minBy?_eq_none_iff {cmp : α → α → Ordering} {xs : List α} :
    minBy? cmp xs = none ↔ xs = [] := by
  cases xs <;> simp [minBy?]

section

variable {cmp : α → α → Ordering} [TransCmp cmp]

theorem notAbove_refl (a : α) : notAbove cmp a a := by
  simp [notAbove, ReflCmp.compare_self]

theorem notAbove_trans {a b c : α} (hab : notAbove cmp a b) (hbc : notAbove cmp b c) :
    notAbove cmp a c := by
  simp only [notAbove, ← Ordering.isLE_iff_ne_gt] at *
  exact TransCmp.isLE_trans hab hbc

theorem notAbove_of_gt {a b : α} (hab : cmp a b = .gt) : notAbove cmp b a := by
  have hlt : cmp b a = .lt := OrientedCmp.lt_of_gt hab
  simp [notAbove, hlt]

theorem notAbove_total (a b : α) : notAbove cmp a b ∨ notAbove cmp b a := by
  by_cases hab : cmp a b = .gt
  · exact Or.inr (notAbove_of_gt hab)
  · exact Or.inl hab

/-- The running minimum is an element seen so far and is not above any. -/
private theorem foldl_min_spec (xs : List α) (x : α) :
    let best := xs.foldl (fun best y => if cmp best y = .gt then y else best) x
    best ∈ x :: xs ∧ ∀ y ∈ x :: xs, notAbove cmp best y := by
  induction xs generalizing x with
  | nil => simp [notAbove_refl]
  | cons y xs ih =>
      simp only [List.foldl_cons]
      obtain ⟨hmem, hle⟩ := ih (if cmp x y = .gt then y else x)
      -- the new running minimum is not above either of the two compared
      have hstart : notAbove cmp (if cmp x y = .gt then y else x) x ∧
          notAbove cmp (if cmp x y = .gt then y else x) y := by
        split
        · exact ⟨notAbove_of_gt ‹_›, notAbove_refl y⟩
        · exact ⟨notAbove_refl x, ‹_›⟩
      have hbest := hle _ List.mem_cons_self
      refine ⟨?_, ?_⟩
      · rcases List.mem_cons.mp hmem with h | h
        · rw [h]
          split <;> simp
        · exact List.mem_cons_of_mem _ (List.mem_cons_of_mem _ h)
      · intro z hz
        rcases List.mem_cons.mp hz with rfl | hz
        · exact notAbove_trans hbest hstart.1
        · rcases List.mem_cons.mp hz with rfl | hz
          · exact notAbove_trans hbest hstart.2
          · exact hle z (List.mem_cons_of_mem _ hz)

theorem minBy?_mem {xs : List α} {best : α} (h : minBy? cmp xs = some best) :
    best ∈ xs := by
  cases xs with
  | nil => simp [minBy?] at h
  | cons x xs =>
      obtain rfl := Option.some.inj h
      exact (foldl_min_spec xs x).1

theorem minBy?_notAbove {xs : List α} {best : α} (h : minBy? cmp xs = some best) :
    ∀ y ∈ xs, notAbove cmp best y := by
  cases xs with
  | nil => simp [minBy?] at h
  | cons x xs =>
      obtain rfl := Option.some.inj h
      exact (foldl_min_spec xs x).2

/-- The running maximum is an element seen so far and no other is above it. -/
private theorem foldl_max_spec (xs : List α) (x : α) :
    let best := xs.foldl (fun best y => if cmp best y = .gt then best else y) x
    best ∈ x :: xs ∧ ∀ y ∈ x :: xs, notAbove cmp y best := by
  induction xs generalizing x with
  | nil => simp [notAbove_refl]
  | cons y xs ih =>
      simp only [List.foldl_cons]
      obtain ⟨hmem, hge⟩ := ih (if cmp x y = .gt then x else y)
      have hstart : notAbove cmp x (if cmp x y = .gt then x else y) ∧
          notAbove cmp y (if cmp x y = .gt then x else y) := by
        split
        · exact ⟨notAbove_refl x, notAbove_of_gt ‹_›⟩
        · exact ⟨‹_›, notAbove_refl y⟩
      have hbest := hge _ List.mem_cons_self
      refine ⟨?_, ?_⟩
      · rcases List.mem_cons.mp hmem with h | h
        · rw [h]
          split <;> simp
        · exact List.mem_cons_of_mem _ (List.mem_cons_of_mem _ h)
      · intro z hz
        rcases List.mem_cons.mp hz with rfl | hz
        · exact notAbove_trans hstart.1 hbest
        · rcases List.mem_cons.mp hz with rfl | hz
          · exact notAbove_trans hstart.2 hbest
          · exact hge z (List.mem_cons_of_mem _ hz)

theorem maxBy?_spec {xs : List α} {best : α} (h : maxBy? cmp xs = some best) :
    best ∈ xs ∧ ∀ y ∈ xs, notAbove cmp y best := by
  cases xs with
  | nil => cases h
  | cons x xs =>
      obtain rfl := Option.some.inj h
      exact foldl_max_spec xs x

/-- Elements neither of which is above the other compare equal. -/
theorem eq_of_notAbove {a b : α} (hab : notAbove cmp a b) (hba : notAbove cmp b a) :
    cmp a b = .eq := by
  cases h : cmp a b with
  | eq => rfl
  | gt => exact absurd h hab
  | lt => exact absurd (OrientedCmp.gt_of_lt h) hba

/-- The greatest element does not depend on the order of the list, as long as no
two different elements compare equal. -/
theorem maxBy?_eq_of_perm {xs ys : List α} (hperm : xs.Perm ys)
    (hdistinct : ∀ a ∈ xs, ∀ b ∈ xs, cmp a b = .eq → a = b) :
    maxBy? cmp xs = maxBy? cmp ys := by
  cases hxs : maxBy? cmp xs with
  | none =>
      have hnil : xs = [] := by
        cases xs with
        | nil => rfl
        | cons _ _ => cases hxs
      rw [hnil] at hperm
      rw [List.nil_perm.mp hperm]
      rfl
  | some a =>
      obtain ⟨hmemA, hmaxA⟩ := maxBy?_spec hxs
      cases hys : maxBy? cmp ys with
      | none =>
          have hnil : ys = [] := by
            cases ys with
            | nil => rfl
            | cons _ _ => cases hys
          rw [hnil] at hperm
          rw [List.perm_nil.mp hperm] at hmemA
          cases hmemA
      | some b =>
          obtain ⟨hmemB, hmaxB⟩ := maxBy?_spec hys
          have hmemB' := hperm.mem_iff.mpr hmemB
          have hab := hmaxB a (hperm.mem_iff.mp hmemA)
          rw [hdistinct a hmemA b hmemB' (eq_of_notAbove hab (hmaxA b hmemB'))]

instance : Std.Total (notAbove cmp) := ⟨notAbove_total⟩

instance : IsTrans α (notAbove cmp) := ⟨fun _ _ _ => notAbove_trans⟩

/-- Sorting by a comparison forgets the order its input came in, as long as no
two different elements of the input compare equal. -/
theorem insertionSort_eq_of_perm {xs ys : List α} (hperm : xs.Perm ys)
    (hdistinct : ∀ a ∈ xs, ∀ b ∈ xs, cmp a b = .eq → a = b) :
    xs.insertionSort (notAbove cmp) = ys.insertionSort (notAbove cmp) := by
  have hsorted : ∀ l : List α, (l.insertionSort (notAbove cmp)).Pairwise (notAbove cmp) :=
    fun l => List.pairwise_insertionSort _ l
  refine List.Perm.eq_of_pairwise ?_ (hsorted xs) (hsorted ys)
    (((List.perm_insertionSort _ xs).trans hperm).trans (List.perm_insertionSort _ ys).symm)
  intro a b ha hb hab hba
  have hmem : ∀ {c}, c ∈ ys.insertionSort (notAbove cmp) → c ∈ xs := fun hc =>
    hperm.mem_iff.mpr ((List.mem_insertionSort _).mp hc)
  exact hdistinct a ((List.mem_insertionSort _).mp ha) b (hmem hb) (eq_of_notAbove hab hba)

end

/-! ## Cutting and mapping by a partial function -/

theorem filterMap_eq_filterMap_append (f : α → Option β) (count : Nat) (xs : List α) :
    xs.filterMap f = (xs.take count).filterMap f ++ (xs.drop count).filterMap f := by
  rw [← List.filterMap_append, List.take_append_drop]

/-- The first elements have as many images as there are elements only if each has one. -/
theorem length_filterMap_eq_iff {f : α → Option β} {xs : List α} :
    (xs.filterMap f).length = xs.length ↔ ∀ x ∈ xs, (f x).isSome = true := by
  induction xs with
  | nil => simp
  | cons x xs ih =>
      have hle := List.length_filterMap_le f xs
      cases hx : f x with
      | none =>
          rw [List.filterMap_cons_none hx, List.forall_mem_cons, hx, List.length_cons]
          refine iff_of_false (by omega) (fun h => ?_)
          cases h.1
      | some y =>
          rw [List.filterMap_cons_some hx, List.forall_mem_cons, hx, List.length_cons,
            List.length_cons, Nat.add_right_cancel_iff, ih]
          simp

/-- Cutting first and mapping then misses an image exactly if an element without one is
among the first elements while one with an image is behind them. -/
theorem filterMap_take_eq_iff (f : α → Option β) (count : Nat) (xs : List α) :
    (xs.take count).filterMap f = (xs.filterMap f).take count ↔
      (∀ x ∈ xs.take count, (f x).isSome = true) ∨ ∀ x ∈ xs.drop count, f x = none := by
  have hfront : ((xs.take count).filterMap f).length ≤ (xs.take count).length :=
    List.length_filterMap_le f _
  have hcount : (xs.take count).length ≤ count := List.length_take_le _ _
  have hsplit : (xs.filterMap f).take count = (xs.take count).filterMap f ++
      ((xs.drop count).filterMap f).take (count - ((xs.take count).filterMap f).length) := by
    rw [filterMap_eq_filterMap_append f count xs, List.take_append,
      List.take_of_length_le (hfront.trans hcount)]
  rw [hsplit, List.self_eq_append_right, List.take_eq_nil_iff, List.filterMap_eq_nil_iff,
    ← length_filterMap_eq_iff]
  constructor
  · rintro (hfull | hnone)
    · exact Or.inl (by omega)
    · exact Or.inr hnone
  · rintro (hfull | hnone)
    · by_cases hlong : count ≤ xs.length
      · rw [List.length_take_of_le hlong] at hfull
        exact Or.inl (by omega)
      · rw [List.drop_eq_nil_of_le (by omega)]
        exact Or.inr (by simp)
    · exact Or.inr hnone

end Library
end MicroEmu
