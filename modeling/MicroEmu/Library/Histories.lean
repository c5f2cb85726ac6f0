import Mathlib.Data.List.Basic

/-!
# Laws about the steps of a run

A run is the list of the steps it takes, each with the state before it.  A law judges a
step by the steps before it, the latest first.  An invariant that ties the state to the
past steps makes two laws agree over whole runs.
-/

namespace MicroEmu
namespace Library

universe u v w

variable {σ : Type u} {ι : Type v} {ω : Type w}

/-- A step of a machine with outputs. -/
structure Taken (σ : Type u) (ι : Type v) (ω : Type w) where
  before : σ
  input : ι
  output : ω

/-- The steps of a run. -/
def taken (step : σ → ι → ω × σ) : List ι → σ → List (Taken σ ι ω)
  | [], _ => []
  | input :: inputs, state =>
      ⟨state, input, (step state input).1⟩ :: taken step inputs (step state input).2

/-- Every step obeys the law, behind the steps that are past already. -/
def EachStep (law : List (Taken σ ι ω) → Taken σ ι ω → Prop) :
    List (Taken σ ι ω) → List (Taken σ ι ω) → Prop
  | _, [] => True
  | past, step :: later => law past step ∧ EachStep law (step :: past) later

variable {step : σ → ι → ω × σ} {law other : List (Taken σ ι ω) → Taken σ ι ω → Prop}

/-- Two laws that agree wherever the invariant holds agree on the run. -/
theorem eachStep_iff (inv : List (Taken σ ι ω) → σ → Prop)
    (hstep : ∀ {past state} input, inv past state →
      inv (⟨state, input, (step state input).1⟩ :: past) (step state input).2)
    (hlaw : ∀ {past state} input, inv past state →
      (law past ⟨state, input, (step state input).1⟩ ↔
        other past ⟨state, input, (step state input).1⟩))
    {past : List (Taken σ ι ω)} {state : σ} (hinv : inv past state) (inputs : List ι) :
    EachStep law past (taken step inputs state) ↔
      EachStep other past (taken step inputs state) := by
  induction inputs generalizing past state with
  | nil => exact Iff.rfl
  | cons input inputs ih =>
      rw [taken, EachStep, EachStep, hlaw input hinv, ih (hstep input hinv)]

end Library
end MicroEmu
