import Mathlib.Data.Nat.Init

/-!
# A vessel that is emptied when it would overflow

A vessel of a limited size is filled by equal amounts.  An amount that does not fit
empties it and is lost itself.  Once it has been emptied, it is emptied again after a
fixed number of amounts.
-/

namespace MicroEmu
namespace Library

/-- What the vessel holds after so many amounts. -/
def level (limit amount : Nat) : Nat → Nat → Nat
  | held, 0 => held
  | held, count + 1 =>
      level limit amount (if limit < held + amount then 0 else held + amount) count

/-- The number of amounts with which it is emptied first. -/
def firstEmptied (limit amount held : Nat) : Nat := (limit - held) / amount + 1

/-- It is emptied with the last of so many amounts. -/
def EmptiedAt (limit amount held count : Nat) : Prop :=
  firstEmptied limit amount held ≤ count ∧
    (count - firstEmptied limit amount held) % (limit / amount + 1) = 0

instance (limit amount held count : Nat) : Decidable (EmptiedAt limit amount held count) :=
  inferInstanceAs (Decidable (_ ∧ _))

variable {limit amount : Nat}

theorem level_add (held first second : Nat) :
    level limit amount held (first + second) =
      level limit amount (level limit amount held first) second := by
  induction first generalizing held with
  | zero => rw [Nat.zero_add, level]
  | succ first ih => rw [Nat.succ_add, level, level, ih]

theorem level_of_fits {held count : Nat} (h : held + amount * count ≤ limit) :
    level limit amount held count = held + amount * count := by
  induction count generalizing held with
  | zero => rfl
  | succ count ih =>
      rw [Nat.mul_succ] at h ⊢
      rw [level, if_neg (by omega), ih (by omega)]
      omega

/-- Amounts that fit, and one that does not. -/
theorem level_eq_zero {held count : Nat} (hfits : held + amount * count ≤ limit)
    (hnext : limit < held + amount * (count + 1)) : level limit amount held (count + 1) = 0 := by
  rw [Nat.mul_succ, ← Nat.add_assoc] at hnext
  rw [level_add, level_of_fits hfits, level, if_pos hnext]
  rfl

theorem fits_iff_lt_firstEmptied (hamount : 0 < amount) {held : Nat} (hheld : held ≤ limit)
    (count : Nat) :
    held + amount * count ≤ limit ↔ count < firstEmptied limit amount held := by
  rw [firstEmptied, Nat.lt_succ_iff, Nat.le_div_iff_mul_le hamount, Nat.mul_comm]
  omega

theorem level_firstEmptied (hamount : 0 < amount) {held : Nat} (hheld : held ≤ limit) :
    level limit amount held (firstEmptied limit amount held) = 0 := by
  have hfits := fits_iff_lt_firstEmptied hamount hheld
  refine level_eq_zero ((hfits _).mpr (Nat.lt_succ_self _)) ?_
  exact Nat.lt_of_not_le fun h => Nat.lt_irrefl _ ((hfits _).mp h)

theorem level_period (hamount : 0 < amount) (periods : Nat) :
    level limit amount 0 ((limit / amount + 1) * periods) = 0 := by
  induction periods with
  | zero => rfl
  | succ periods ih =>
      have hperiod : firstEmptied limit amount 0 = limit / amount + 1 := rfl
      rw [Nat.mul_succ, level_add, ih, ← hperiod]
      exact level_firstEmptied hamount (Nat.zero_le limit)

/-- An empty vessel is filled in periods. -/
theorem level_of_empty (hamount : 0 < amount) (count : Nat) :
    level limit amount 0 count = amount * (count % (limit / amount + 1)) := by
  have hless : count % (limit / amount + 1) < limit / amount + 1 :=
    Nat.mod_lt count (Nat.succ_pos _)
  have hfits := (fits_iff_lt_firstEmptied hamount (Nat.zero_le limit) _).mpr hless
  calc level limit amount 0 count
      = level limit amount 0 ((limit / amount + 1) * (count / (limit / amount + 1)) +
          count % (limit / amount + 1)) := by rw [Nat.div_add_mod]
    _ = level limit amount 0 (count % (limit / amount + 1)) := by
        rw [level_add, level_period hamount]
    _ = amount * (count % (limit / amount + 1)) := by rw [level_of_fits hfits, Nat.zero_add]

/-- It holds nothing exactly when it has just been emptied. -/
theorem level_eq_zero_iff (hamount : 0 < amount) {held count : Nat} (hheld : held ≤ limit)
    (hcount : 0 < count) :
    level limit amount held count = 0 ↔ EmptiedAt limit amount held count := by
  by_cases hfirst : firstEmptied limit amount held ≤ count
  · obtain ⟨rest, rfl⟩ := Nat.exists_eq_add_of_le hfirst
    rw [level_add, level_firstEmptied hamount hheld, level_of_empty hamount, EmptiedAt,
      Nat.add_sub_cancel_left, Nat.mul_eq_zero]
    exact ⟨fun h => ⟨hfirst, h.resolve_left (Nat.ne_of_gt hamount)⟩, fun h => .inr h.2⟩
  · have hfits := (fits_iff_lt_firstEmptied hamount hheld count).mpr (Nat.lt_of_not_le hfirst)
    have hpositive : 0 < amount * count := Nat.mul_pos hamount hcount
    rw [level_of_fits hfits, EmptiedAt]
    refine ⟨fun h => ?_, fun h => absurd h.1 hfirst⟩
    omega

end Library
end MicroEmu
