import Mathlib.Data.List.Basic

/-!
# Bounded queues

A queue of at most so many items, with a record of those that have left it.  What has
been accepted is what has left and what is still there, in this order: so each accepted
item leaves once, in the order of acceptance, and as it was.
-/

namespace MicroEmu
namespace Library

universe u

/-- A queue of at most so many items, and the items that have left it, both in order. -/
structure Fifo (α : Type u) (capacity : Nat) where
  gone : List α
  items : List α
  bounded : items.length ≤ capacity

namespace Fifo

variable {α : Type u} {capacity : Nat}

/-- A queue that nothing has left yet. -/
def ofList (items : List α) (h : items.length ≤ capacity) : Fifo α capacity := ⟨[], items, h⟩

/-- The items that have ever been in the queue. -/
def accepted (queue : Fifo α capacity) : List α := queue.gone ++ queue.items

/-- An item is accepted unless the queue is full. -/
def push (queue : Fifo α capacity) (item : α) : Bool × Fifo α capacity :=
  if h : queue.items.length < capacity then
    (true, ⟨queue.gone, queue.items ++ [item], by rw [List.length_append]; exact h⟩)
  else (false, queue)

/-- The first item leaves, if there is one. -/
def pop (queue : Fifo α capacity) : Fifo α capacity :=
  ⟨queue.gone ++ queue.items.head?.toList, queue.items.tail,
    by
      rw [List.length_tail]
      exact Nat.le_trans (Nat.sub_le _ 1) queue.bounded⟩

theorem push_of_lt {queue : Fifo α capacity} (h : queue.items.length < capacity) (item : α) :
    (queue.push item).1 = true ∧ (queue.push item).2.items = queue.items ++ [item] ∧
      (queue.push item).2.gone = queue.gone := by
  rw [push, dif_pos h]
  exact ⟨rfl, rfl, rfl⟩

theorem push_of_full {queue : Fifo α capacity} (h : queue.items.length = capacity) (item : α) :
    queue.push item = (false, queue) :=
  dif_neg (Nat.not_lt.mpr (Nat.le_of_eq h.symm))

/-- A push is refused exactly when the queue is full. -/
theorem push_refused_iff {queue : Fifo α capacity} {item : α} :
    (queue.push item).1 = false ↔ queue.items.length = capacity := by
  rcases Nat.lt_or_eq_of_le queue.bounded with hroom | hfull
  · rw [(push_of_lt hroom item).1]
    exact iff_of_false (by decide) (Nat.ne_of_lt hroom)
  · rw [push_of_full hfull]
    exact iff_of_true rfl hfull

@[simp] theorem gone_push (queue : Fifo α capacity) (item : α) :
    (queue.push item).2.gone = queue.gone := by
  rcases Nat.lt_or_eq_of_le queue.bounded with hroom | hfull
  · exact (push_of_lt hroom item).2.2
  · rw [push_of_full hfull]

theorem accepted_push (queue : Fifo α capacity) (item : α) :
    (queue.push item).2.accepted =
      queue.accepted ++ if (queue.push item).1 = true then [item] else [] := by
  rcases Nat.lt_or_eq_of_le queue.bounded with hroom | hfull
  · obtain ⟨htaken, hitems, hgone⟩ := push_of_lt hroom item
    rw [accepted, accepted, hitems, hgone, htaken, if_pos rfl, List.append_assoc]
  · rw [push_of_full hfull, if_neg Bool.false_ne_true, List.append_nil]

theorem pop_of_cons {queue : Fifo α capacity} {item : α} {rest : List α}
    (h : queue.items = item :: rest) :
    queue.pop.items = rest ∧ queue.pop.gone = queue.gone ++ [item] := by
  simp [pop, h]

/-- What leaves is the oldest accepted item that has not left. -/
@[simp] theorem accepted_pop (queue : Fifo α capacity) : queue.pop.accepted = queue.accepted := by
  cases hitems : queue.items with
  | nil => simp [accepted, pop, hitems]
  | cons item rest => simp [accepted, pop, hitems]

end Fifo
end Library
end MicroEmu
