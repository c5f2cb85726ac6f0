import Mathlib.Logic.Function.Basic

/-!
# Locks that are names

A lock by exclusive creation is a name: whoever creates what stands under the name owns the
lock, until it is released or taken away.  The name keeps at most one owner as long as
nothing that somebody owns is taken away from under it, and then a release removes only
what its own party created.
-/

namespace MicroEmu
namespace Library

universe u v

/-- What stands under the name, and what each party created and has not given up. -/
structure NameLock (κ : Type u) (τ : Type v) where
  name : Option τ
  owner : κ → Option τ

namespace NameLock

variable {κ : Type u} {τ : Type v} [DecidableEq κ]

/-- Everything that is owned stands under the name, and no two parties own the same. -/
structure Exclusive (lock : NameLock κ τ) : Prop where
  named : ∀ {party token}, lock.owner party = some token → lock.name = some token
  alone : ∀ {party other token}, lock.owner party = some token →
    lock.owner other = some token → party = other

/-- A party creates a token under the name. -/
def acquire (lock : NameLock κ τ) (party : κ) (token : τ) : NameLock κ τ :=
  ⟨some token, Function.update lock.owner party (some token)⟩

/-- Whatever stands under the name is taken away. -/
def clear (lock : NameLock κ τ) : NameLock κ τ := { lock with name := none }

/-- A party gives up what it owns. -/
def forget (lock : NameLock κ τ) (party : κ) : NameLock κ τ :=
  { lock with owner := Function.update lock.owner party none }

variable {lock : NameLock κ τ} {party other : κ} {token : τ}

@[simp] theorem owner_acquire_self (lock : NameLock κ τ) (party : κ) (token : τ) :
    (lock.acquire party token).owner party = some token :=
  Function.update_self ..

@[simp] theorem owner_acquire_of_ne (token : τ) (h : other ≠ party) :
    (lock.acquire party token).owner other = lock.owner other :=
  Function.update_of_ne h ..

@[simp] theorem owner_forget_self (lock : NameLock κ τ) (party : κ) :
    (lock.forget party).owner party = none :=
  Function.update_self ..

@[simp] theorem owner_forget_of_ne (h : other ≠ party) :
    (lock.forget party).owner other = lock.owner other :=
  Function.update_of_ne h ..

omit [DecidableEq κ] in
/-- At most one party owns the lock. -/
theorem Exclusive.eq_of_owner (h : lock.Exclusive) {mine theirs : τ}
    (hparty : lock.owner party = some mine) (hother : lock.owner other = some theirs) :
    party = other := by
  have hsame : mine = theirs := Option.some.inj ((h.named hparty).symm.trans (h.named hother))
  exact h.alone hparty (hsame ▸ hother)

omit [DecidableEq κ] in
/-- Where nothing stands under the name nobody owns anything. -/
theorem Exclusive.owner_eq_none (h : lock.Exclusive) (hname : lock.name = none) (party : κ) :
    lock.owner party = none := by
  cases howner : lock.owner party with
  | none => rfl
  | some token =>
      rw [h.named howner] at hname
      cases hname

theorem Exclusive.acquire (h : lock.Exclusive) (hname : lock.name = none) (party : κ)
    (token : τ) : (lock.acquire party token).Exclusive := by
  have howner {someone : κ} {found : τ}
      (hfound : (lock.acquire party token).owner someone = some found) :
      someone = party ∧ found = token := by
    by_cases hparty : someone = party
    · subst hparty
      rw [owner_acquire_self] at hfound
      exact ⟨rfl, (Option.some.inj hfound).symm⟩
    · rw [owner_acquire_of_ne token hparty, h.owner_eq_none hname] at hfound
      cases hfound
  constructor
  · intro someone found hfound
    rw [(howner hfound).2]
    rfl
  · intro first second found hfirst hsecond
    rw [(howner hfirst).1, (howner hsecond).1]

omit [DecidableEq κ] in
/-- What nobody owns may be taken away. -/
theorem Exclusive.clear (h : lock.Exclusive)
    (hfree : ∀ party token, lock.owner party = some token → lock.name ≠ some token) :
    lock.clear.Exclusive := by
  have hnone (party : κ) (token : τ) (howner : lock.owner party = some token) : False :=
    hfree party token howner (h.named howner)
  exact ⟨fun howner => (hnone _ _ howner).elim, fun howner => (hnone _ _ howner).elim⟩

theorem Exclusive.forget (h : lock.Exclusive) (party : κ) : (lock.forget party).Exclusive := by
  have howner {someone : κ} {token : τ}
      (hsome : (lock.forget party).owner someone = some token) :
      lock.owner someone = some token := by
    by_cases hparty : someone = party
    · subst hparty
      rw [owner_forget_self] at hsome
      cases hsome
    · rwa [owner_forget_of_ne hparty] at hsome
  exact ⟨fun hsome => h.named (howner hsome),
    fun hfirst hsecond => h.alone (howner hfirst) (howner hsecond)⟩

/-- A party that gives up what it owns may take away what stands under the name. -/
theorem Exclusive.release (h : lock.Exclusive) (howner : lock.owner party = some token) :
    (lock.forget party).clear.Exclusive := by
  refine (h.forget party).clear fun someone found hfound => ?_
  by_cases hparty : someone = party
  · subst hparty
    rw [owner_forget_self] at hfound
    cases hfound
  · rw [owner_forget_of_ne hparty] at hfound
    exact absurd (h.eq_of_owner hfound howner) hparty

end NameLock

end Library
end MicroEmu
