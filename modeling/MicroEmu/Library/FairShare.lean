import Mathlib.Logic.Function.Basic

/-!
# Least-served-first selection

A server repeatedly gives one unit to a waiting group that no waiting rival has
fewer units than.  Then the counts stay balanced: a group never gets two units
ahead of a rival that still waits.  `rival` restricts the comparison, for
example to the groups of one class.
-/

namespace MicroEmu
namespace Library

variable {γ : Type} {rival : γ → γ → Prop} {served : γ → Nat}
  {waiting waiting' : γ → Prop}

/-- No group is two units ahead of a rival that still waits. -/
def Balanced (rival : γ → γ → Prop) (served : γ → Nat) (waiting : γ → Prop) : Prop :=
  ∀ g h, rival g h → waiting h → served g ≤ served h + 1

/-- At the start nobody has anything. -/
theorem Balanced.start (hzero : ∀ g, served g = 0) : Balanced rival served waiting := by
  intro g h _ _
  rw [hzero g]
  exact Nat.zero_le _

/-- A group that stops waiting makes no demand. -/
theorem Balanced.anti (hbal : Balanced rival served waiting)
    (hsub : ∀ g, waiting' g → waiting g) : Balanced rival served waiting' :=
  fun g h hrival hwait => hbal g h hrival (hsub h hwait)

/-- Serving a group that no waiting rival is behind keeps the balance. -/
theorem Balanced.serve [DecidableEq γ] (hbal : Balanced rival served waiting) {g : γ}
    (hleast : ∀ h, rival g h → waiting h → served g ≤ served h) :
    Balanced rival (Function.update served g (served g + 1)) waiting := by
  intro a b hrival hwait
  have hb : served b ≤ Function.update served g (served g + 1) b := by
    by_cases hbg : b = g
    · subst hbg
      simp
    · simp [hbg]
  by_cases hag : a = g
  · subst hag
    have := hleast b hrival hwait
    simp only [Function.update_self]
    omega
  · have := hbal a b hrival hwait
    rw [Function.update_of_ne hag]
    omega

end Library
end MicroEmu
