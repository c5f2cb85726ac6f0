import Mathlib.Data.List.Basic
import Mathlib.Data.List.Pairwise

/-!
# What becomes of the items of a queue

Items are pushed to the back of a queue and leave it from the front: the oldest
one to make room in a full queue, or all of them at once, to an answer or because
the queue is abandoned.  A ledger keeps what was pushed and what became of the
items that left; the two determine the rest of the queue.
-/

namespace MicroEmu
namespace Library

universe u

/-- Why an item left its queue. -/
inductive Fate where
  /-- It was delivered in an answer, known by its number. -/
  | delivered (answer : Nat)
  /-- It was the oldest of a full queue. -/
  | overflowed
  /-- Its queue was abandoned. -/
  | abandoned
  deriving DecidableEq, Repr

variable {α : Type u}

/-- The ledger of a queue: `posted` is all that was pushed, `gone` what became of
the items that left, and `queued` what is left.  An answer that takes items comes
after all answers before. -/
inductive Ledger (capacity : Nat) : List α → List (α × Fate) → List α → Prop
  | empty : Ledger capacity [] [] []
  | push {posted : List α} {gone : List (α × Fate)} {queued : List α}
      (h : Ledger capacity posted gone queued) (item : α) :
      Ledger capacity (posted ++ [item]) gone (queued ++ [item])
  | overflow {posted : List α} {gone : List (α × Fate)} {oldest : α} {queued : List α}
      (h : Ledger capacity posted gone (oldest :: queued))
      (hfull : capacity ≤ (oldest :: queued).length) :
      Ledger capacity posted (gone ++ [(oldest, .overflowed)]) queued
  | deliver {posted : List α} {gone : List (α × Fate)} {queued : List α}
      (h : Ledger capacity posted gone queued) (answer : Nat)
      (hlater : ∀ item earlier, (item, Fate.delivered earlier) ∈ gone → earlier < answer) :
      Ledger capacity posted (gone ++ queued.map fun item => (item, .delivered answer)) []
  | abandon {posted : List α} {gone : List (α × Fate)} {queued : List α}
      (h : Ledger capacity posted gone queued) :
      Ledger capacity posted (gone ++ queued.map fun item => (item, .abandoned)) []

/-- The items an answer delivered, oldest first. -/
def deliveredIn (answer : Nat) (gone : List (α × Fate)) : List α :=
  (gone.filter fun entry => entry.2 = .delivered answer).map Prod.fst

/-- The numbers of the answers that delivered something, in order. -/
def answersOf (gone : List (α × Fate)) : List Nat :=
  gone.filterMap fun entry =>
    match entry.2 with
    | .delivered answer => some answer
    | _ => none

section Parts

variable (answer : Nat) (gone later : List (α × Fate)) (queued : List α)

@[simp] theorem deliveredIn_nil : deliveredIn answer ([] : List (α × Fate)) = [] := rfl

@[simp] theorem deliveredIn_append :
    deliveredIn answer (gone ++ later) = deliveredIn answer gone ++ deliveredIn answer later := by
  simp [deliveredIn]

theorem deliveredIn_delivered :
    deliveredIn answer (queued.map fun item => (item, Fate.delivered answer)) = queued := by
  simp [deliveredIn, List.filter_map, Function.comp_def]

/-- Items with another fate are not delivered in the answer. -/
theorem deliveredIn_eq_nil {answer : Nat} {gone : List (α × Fate)}
    (h : ∀ item, (item, Fate.delivered answer) ∉ gone) : deliveredIn answer gone = [] := by
  rw [deliveredIn, List.map_eq_nil_iff, List.filter_eq_nil_iff]
  rintro ⟨item, fate⟩ hmem hfate
  obtain rfl : fate = .delivered answer := by simpa using hfate
  exact h item hmem

theorem mem_deliveredIn {item : α} :
    item ∈ deliveredIn answer gone ↔ (item, Fate.delivered answer) ∈ gone := by
  simp [deliveredIn]

end Parts

namespace Ledger

variable {capacity : Nat} {posted : List α} {gone : List (α × Fate)} {queued : List α}

/-- Nothing is lost or made up, and the order is kept: what left, in order, and what
is left make up what was pushed. -/
theorem posted_eq (h : Ledger capacity posted gone queued) :
    posted = gone.map Prod.fst ++ queued := by
  induction h with
  | empty => rfl
  | push h item ih => rw [ih, List.append_assoc]
  | overflow h hfull ih => rw [ih, List.map_append, List.append_assoc]; rfl
  | deliver h answer hlater ih => simp [ih, Function.comp_def]
  | abandon h ih => simp [ih, Function.comp_def]

theorem mem_answersOf {answer : Nat} (hmem : answer ∈ answersOf gone) :
    ∃ item, (item, Fate.delivered answer) ∈ gone := by
  obtain ⟨⟨item, fate⟩, hentry, hanswer⟩ := List.mem_filterMap.mp hmem
  cases fate with
  | delivered other =>
      obtain rfl := Option.some.inj hanswer
      exact ⟨item, hentry⟩
  | overflowed => cases hanswer
  | abandoned => cases hanswer

/-- Items are delivered in the order they were pushed: an item that was pushed
earlier is delivered in the same answer or in an earlier one. -/
theorem answers_sorted (h : Ledger capacity posted gone queued) :
    (answersOf gone).Pairwise (· ≤ ·) := by
  induction h with
  | empty => exact .nil
  | push h item ih => exact ih
  | @overflow posted gone oldest queued h hfull ih =>
      have hsame : answersOf (gone ++ [(oldest, Fate.overflowed)]) = answersOf gone := by
        simp [answersOf]
      rwa [hsame]
  | @deliver posted gone queued h answer hlater ih =>
      have hsame : answersOf (gone ++ queued.map fun item => (item, Fate.delivered answer)) =
          answersOf gone ++ List.replicate queued.length answer := by
        simp [answersOf, List.filterMap_map]
      rw [hsame, List.pairwise_append]
      refine ⟨ih, List.pairwise_replicate.mpr (.inr (Nat.le_refl _)), ?_⟩
      intro earlier hearlier last hlast
      obtain ⟨item, hitem⟩ := mem_answersOf hearlier
      rw [List.eq_of_mem_replicate hlast]
      exact Nat.le_of_lt (hlater item earlier hitem)
  | @abandon posted gone queued h ih =>
      have hsame : answersOf (gone ++ queued.map fun item => (item, Fate.abandoned)) =
          answersOf gone := by
        simp [answersOf, List.filterMap_map]
      rwa [hsame]

/-- An item overflows only after the queue has been filled. -/
theorem capacity_le (h : Ledger capacity posted gone queued) {item : α}
    (hitem : (item, Fate.overflowed) ∈ gone) : capacity ≤ posted.length := by
  induction h with
  | empty => cases hitem
  | push h next ih =>
      rw [List.length_append]
      exact Nat.le_add_right_of_le (ih hitem)
  | overflow h hfull ih =>
      rw [h.posted_eq, List.length_append]
      exact Nat.le_add_left_of_le hfull
  | deliver h answer hlater ih => exact ih (by simpa using hitem)
  | abandon h ih => exact ih (by simpa using hitem)

/-- A queue nothing was pushed to has lost nothing. -/
theorem gone_eq_nil (h : Ledger capacity [] gone queued) : gone = [] := by
  have hparts := h.posted_eq
  simpa using (List.append_eq_nil_iff.mp hparts.symm).1

end Ledger
end Library
end MicroEmu
