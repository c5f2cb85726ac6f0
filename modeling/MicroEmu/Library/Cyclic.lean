import Mathlib.Data.List.Rotate
import Mathlib.Order.Lattice

/-!
# Going around a sorted list

A cursor on a strictly increasing list moves to the first element above it, or to
the head when there is none; the other way it moves to the last element below it, or
to the last one.  By position that is one place to the right and one to the left,
around the end.  So the two moves undo each other, and as many moves as there are
elements visit each element once and return.
-/

namespace MicroEmu
namespace Library

/-- In a list sorted by an asymmetric relation, the first element that an element
relates to is the next one. -/
theorem find?_next {α : Type} {r : α → α → Prop} [DecidableRel r]
    (hasymm : ∀ a b, r a b → ¬ r b a) {xs : List α} (hsorted : xs.Pairwise r) {i : Nat}
    (hi : i < xs.length) : (xs.find? fun y => decide (r xs[i] y)) = xs[i + 1]? := by
  induction xs generalizing i with
  | nil => cases hi
  | cons x xs ih =>
      obtain ⟨hhead, htail⟩ := List.pairwise_cons.mp hsorted
      cases i with
      | zero =>
          have hself : ¬ r x x := fun h => hasymm x x h h
          rw [List.getElem_cons_zero, List.find?_cons_of_neg (by simpa using hself)]
          cases xs with
          | nil => rfl
          | cons y ys =>
              rw [List.find?_cons_of_pos (by simpa using hhead y List.mem_cons_self)]
              rfl
      | succ i =>
          have hi' : i < xs.length := Nat.lt_of_succ_lt_succ hi
          have hbelow : ¬ r xs[i] x := hasymm _ _ (hhead _ (List.getElem_mem hi'))
          rw [List.getElem_cons_succ, List.find?_cons_of_neg (by simpa using hbelow), ih htail hi']
          rfl

section

variable {α : Type} [LinearOrder α] {xs : List α}

/-- The first element above, around the end. -/
def after? (xs : List α) (x : α) : Option α :=
  (xs.find? fun y => decide (y > x)).or xs.head?

/-- The last element below, around the front. -/
def before? (xs : List α) (x : α) : Option α :=
  (xs.reverse.find? fun y => decide (y < x)).or xs.getLast?

/-- A move up is one place to the right, around the end. -/
theorem after?_getElem (hsorted : xs.Pairwise (· < ·)) {i : Nat} (hi : i < xs.length) :
    after? xs xs[i] = xs[(i + 1) % xs.length]? := by
  have hfind := find?_next (r := (· < ·)) (fun _ _ => lt_asymm) hsorted hi
  show (xs.find? fun y => decide (xs[i] < y)).or xs.head? = _
  rw [hfind]
  by_cases hnext : i + 1 < xs.length
  · rw [Nat.mod_eq_of_lt hnext, List.getElem?_eq_getElem hnext, Option.some_or]
  · have hend : i + 1 = xs.length := by omega
    rw [hend, Nat.mod_self, List.getElem?_eq_none le_rfl, Option.none_or, List.head?_eq_getElem?]

/-- A move down undoes a move up: it is one place to the left, around the front. -/
theorem before?_getElem (hsorted : xs.Pairwise (· < ·)) {i : Nat} (hi : i < xs.length) :
    before? xs xs[i] = xs[(i + (xs.length - 1)) % xs.length]? := by
  have hback : xs.length - 1 - i < xs.reverse.length := by
    rw [List.length_reverse]
    omega
  have hfind := find?_next (r := (· > ·)) (fun _ _ => lt_asymm)
    (List.pairwise_reverse.mpr hsorted) hback
  have hhere : xs.reverse[xs.length - 1 - i] = xs[i] := by
    rw [List.getElem_reverse]
    congr 1
    omega
  rw [hhere] at hfind
  show (xs.reverse.find? fun y => decide (xs[i] > y)).or xs.getLast? = _
  rw [hfind]
  cases i with
  | zero =>
      rw [List.getElem?_eq_none (by rw [List.length_reverse]; omega), Option.none_or, Nat.zero_add,
        Nat.mod_eq_of_lt (by omega), List.getLast?_eq_getElem?]
  | succ i =>
      have hleft : (i + 1 + (xs.length - 1)) % xs.length = i := by
        rw [show i + 1 + (xs.length - 1) = i + xs.length by omega, Nat.add_mod_right,
          Nat.mod_eq_of_lt (by omega)]
      rw [List.getElem?_reverse (by omega), hleft]
      have hplace : xs.length - 1 - (xs.length - 1 - (i + 1) + 1) = i := by omega
      rw [hplace, List.getElem?_eq_getElem (by omega), Option.some_or]

theorem before?_after? (hsorted : xs.Pairwise (· < ·)) {x y : α} (hx : x ∈ xs)
    (hy : after? xs x = some y) : before? xs y = some x := by
  obtain ⟨i, hi, rfl⟩ := List.getElem_of_mem hx
  rw [after?_getElem hsorted hi] at hy
  obtain ⟨hj, rfl⟩ := List.getElem?_eq_some_iff.mp hy
  rw [before?_getElem hsorted hj, Nat.mod_add_mod,
    show i + 1 + (xs.length - 1) = i + xs.length by omega, Nat.add_mod_right,
    Nat.mod_eq_of_lt hi, List.getElem?_eq_getElem hi]

theorem after?_before? (hsorted : xs.Pairwise (· < ·)) {x y : α} (hx : x ∈ xs)
    (hy : before? xs x = some y) : after? xs y = some x := by
  obtain ⟨i, hi, rfl⟩ := List.getElem_of_mem hx
  rw [before?_getElem hsorted hi] at hy
  obtain ⟨hj, rfl⟩ := List.getElem?_eq_some_iff.mp hy
  rw [after?_getElem hsorted hj, Nat.mod_add_mod,
    show i + (xs.length - 1) + 1 = i + xs.length by omega, Nat.add_mod_right,
    Nat.mod_eq_of_lt hi, List.getElem?_eq_getElem hi]

/-- Where the moves go, an element of the list stands. -/
theorem after?_isSome (hsorted : xs.Pairwise (· < ·)) {x : α} (hx : x ∈ xs) :
    ∃ y ∈ xs, after? xs x = some y := by
  obtain ⟨i, hi, rfl⟩ := List.getElem_of_mem hx
  have hj : (i + 1) % xs.length < xs.length := Nat.mod_lt _ (by omega)
  refine ⟨_, List.getElem_mem hj, ?_⟩
  rw [after?_getElem hsorted hi, List.getElem?_eq_getElem hj]

theorem before?_isSome (hsorted : xs.Pairwise (· < ·)) {x : α} (hx : x ∈ xs) :
    ∃ y ∈ xs, before? xs x = some y := by
  obtain ⟨i, hi, rfl⟩ := List.getElem_of_mem hx
  have hj : (i + (xs.length - 1)) % xs.length < xs.length := Nat.mod_lt _ (by omega)
  refine ⟨_, List.getElem_mem hj, ?_⟩
  rw [before?_getElem hsorted hi, List.getElem?_eq_getElem hj]

/-- The elements a cursor is on after each of some moves up. -/
def tour (xs : List α) : Nat → α → List α
  | 0, _ => []
  | count + 1, x =>
      match after? xs x with
      | none => []
      | some y => y :: tour xs count y

/-- The tour reads the list on from the cursor, around the end. -/
theorem tour_eq (hsorted : xs.Pairwise (· < ·)) {i : Nat} (hi : i < xs.length) (count : Nat) :
    (tour xs count xs[i]).map some =
      (List.range count).map fun moved => xs[(i + 1 + moved) % xs.length]? := by
  induction count generalizing i with
  | zero => rfl
  | succ count ih =>
      have hj : (i + 1) % xs.length < xs.length := Nat.mod_lt _ (by omega)
      rw [tour, after?_getElem hsorted hi, List.getElem?_eq_getElem hj, List.map_cons, ih hj,
        List.range_succ_eq_map, List.map_cons, List.map_map, ← List.getElem?_eq_getElem hj]
      congr 1
      refine List.map_congr_left fun moved _ => ?_
      rw [Function.comp_apply, show (i + 1) % xs.length + 1 + moved =
          (i + 1) % xs.length + (1 + moved) by omega, Nat.mod_add_mod]
      congr 2
      omega

/-- As many moves as there are elements visit a rotation of the list, which ends where
it started. -/
theorem tour_length (hsorted : xs.Pairwise (· < ·)) {i : Nat} (hi : i < xs.length) :
    tour xs xs.length xs[i] = xs.rotate (i + 1) := by
  refine List.map_injective_iff.mpr (fun _ _ => Option.some.inj) ?_
  rw [tour_eq hsorted hi]
  refine List.ext_getElem? fun moved => ?_
  rw [List.getElem?_map, List.getElem?_map]
  by_cases hmoved : moved < xs.length
  · have hplace : (moved + (i + 1)) % xs.length < xs.length := Nat.mod_lt _ (by omega)
    rw [List.getElem?_range hmoved, List.getElem?_rotate hmoved, Option.map_some,
      Nat.add_comm (i + 1) moved, List.getElem?_eq_getElem hplace, Option.map_some]
  · rw [List.getElem?_eq_none (by simpa using hmoved),
      List.getElem?_eq_none (by simpa using hmoved)]
    rfl

/-- A full tour visits every element once. -/
theorem nodup_tour (hsorted : xs.Pairwise (· < ·)) {x : α} (hx : x ∈ xs) :
    (tour xs xs.length x).Nodup := by
  obtain ⟨i, hi, rfl⟩ := List.getElem_of_mem hx
  rw [tour_length hsorted hi, List.nodup_rotate]
  exact hsorted.imp fun h => h.ne

theorem mem_tour_iff (hsorted : xs.Pairwise (· < ·)) {x y : α} (hx : x ∈ xs) :
    y ∈ tour xs xs.length x ↔ y ∈ xs := by
  obtain ⟨i, hi, rfl⟩ := List.getElem_of_mem hx
  rw [tour_length hsorted hi, List.mem_rotate]

/-- A full tour returns. -/
theorem getLast?_tour (hsorted : xs.Pairwise (· < ·)) {x : α} (hx : x ∈ xs) :
    (tour xs xs.length x).getLast? = some x := by
  obtain ⟨i, hi, rfl⟩ := List.getElem_of_mem hx
  rw [tour_length hsorted hi, List.getLast?_eq_getElem?, List.length_rotate,
    List.getElem?_rotate (by omega), show xs.length - 1 + (i + 1) = i + xs.length by omega,
    Nat.add_mod_right, Nat.mod_eq_of_lt hi, List.getElem?_eq_getElem hi]

end

end Library
end MicroEmu
