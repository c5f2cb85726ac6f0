import Mathlib.Algebra.Group.Nat.Defs

/-!
# Delays that double

A retry waits for a delay that doubles with every failure, up to a limit.
-/

namespace MicroEmu
namespace Library

/-- The first delay and the longest one. -/
structure Backoff where
  initial : Nat
  limit : Nat
  initial_le : initial ≤ limit

namespace Backoff

variable (backoff : Backoff)

/-- The delay that follows another. -/
def next (delay : Nat) : Nat := min (delay * 2) backoff.limit

/-- The delay behind so many failures in a row. -/
def delay (failures : Nat) : Nat := min (backoff.initial * 2 ^ failures) backoff.limit

theorem delay_zero : backoff.delay 0 = backoff.initial := by
  simp [delay, backoff.initial_le]

theorem delay_succ (failures : Nat) :
    backoff.delay (failures + 1) = backoff.next (backoff.delay failures) := by
  rw [delay, delay, next, Nat.pow_succ, ← Nat.mul_assoc]
  omega

theorem initial_le_delay (failures : Nat) : backoff.initial ≤ backoff.delay failures :=
  Nat.le_min.mpr ⟨Nat.le_mul_of_pos_right _ (Nat.two_pow_pos failures), backoff.initial_le⟩

end Backoff

end Library
end MicroEmu
