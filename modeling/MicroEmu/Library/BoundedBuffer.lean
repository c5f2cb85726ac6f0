import Mathlib.Data.List.Basic

/-!
# Bounded buffers

A bounded buffer makes room for a new item by dropping its oldest one.  Where every push to
a buffer does so, the buffer stays within its capacity, and it loses an item only when one
is pushed to it while it is full.
-/

namespace MicroEmu
namespace Library

universe u

variable {α : Type u} {capacity : Nat} {items : List α}

/-- Push an item; the oldest one makes room in a full buffer. -/
def pushBounded (capacity : Nat) (items : List α) (item : α) : List α :=
  (if items.length ≥ capacity then items.tail else items) ++ [item]

theorem pushBounded_of_lt (h : items.length < capacity) (item : α) :
    pushBounded capacity items item = items ++ [item] := by
  rw [pushBounded, if_neg (Nat.not_le.mpr h)]

theorem length_pushBounded_le (hcapacity : 0 < capacity) (h : items.length ≤ capacity)
    (item : α) : (pushBounded capacity items item).length ≤ capacity := by
  unfold pushBounded
  split
  · rw [List.length_append, List.length_tail, List.length_singleton]
    omega
  · rw [List.length_append, List.length_singleton]
    omega

/-- Any number of pushes keep a buffer within its capacity. -/
theorem length_foldl_pushBounded_le (hcapacity : 0 < capacity) (h : items.length ≤ capacity)
    (pushed : List α) : (pushed.foldl (pushBounded capacity) items).length ≤ capacity := by
  induction pushed generalizing items with
  | nil => exact h
  | cons item pushed ih => exact ih (length_pushBounded_le hcapacity h item)

end Library
end MicroEmu
