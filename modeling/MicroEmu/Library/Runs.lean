import Mathlib.Order.Basic

/-!
# Runs of a machine

A machine takes one step for each input.  `runFrom` is the state after a list of
inputs, and `Along` says that a property of the state and the next input holds at
every step of the run.  An invariant that every step keeps, as long as the
property holds there, is kept by the whole run.
-/

namespace MicroEmu
namespace Library

universe u v

variable {σ : Type u} {ι : Type v}

/-- The state after a list of inputs. -/
def runFrom (step : σ → ι → σ) (inputs : List ι) (state : σ) : σ :=
  inputs.foldl step state

/-- Every step of the run satisfies the property. -/
def Along (step : σ → ι → σ) (holds : σ → ι → Prop) : List ι → σ → Prop
  | [], _ => True
  | input :: inputs, state => holds state input ∧ Along step holds inputs (step state input)

variable {step : σ → ι → σ} {holds : σ → ι → Prop} {inputs : List ι} {state : σ}

instance decidableAlong [∀ state input, Decidable (holds state input)] :
    (inputs : List ι) → (state : σ) → Decidable (Along step holds inputs state)
  | [], _ => .isTrue trivial
  | input :: inputs, state =>
      haveI := decidableAlong inputs (step state input)
      inferInstanceAs (Decidable (_ ∧ _))

theorem runFrom_append (inputs later : List ι) (state : σ) :
    runFrom step (inputs ++ later) state = runFrom step later (runFrom step inputs state) :=
  List.foldl_append

/-- What every step keeps, the run keeps. -/
theorem runFrom_invariant (inv : σ → Prop)
    (hstep : ∀ {state} input, inv state → inv (step state input)) (hinv : inv state) :
    inv (runFrom step inputs state) := by
  induction inputs generalizing state with
  | nil => exact hinv
  | cons input inputs ih => exact ih (hstep input hinv)

/-- What every allowed step keeps, the run keeps. -/
theorem Along.invariant (inv : σ → Prop)
    (hstep : ∀ {state input}, inv state → holds state input → inv (step state input))
    (h : Along step holds inputs state) (hinv : inv state) : inv (runFrom step inputs state) := by
  induction inputs generalizing state with
  | nil => exact hinv
  | cons input inputs ih => exact ih h.2 (hstep hinv h.1)

/-- What an invariant of the allowed steps implies holds along the run. -/
theorem Along.of_invariant {other : σ → ι → Prop} (inv : σ → Prop)
    (hstep : ∀ {state input}, inv state → holds state input → inv (step state input))
    (hother : ∀ {state} input, inv state → other state input)
    (h : Along step holds inputs state) (hinv : inv state) : Along step other inputs state := by
  induction inputs generalizing state with
  | nil => trivial
  | cons input inputs ih => exact ⟨hother input hinv, ih h.2 (hstep hinv h.1)⟩

theorem Along.mono {other : σ → ι → Prop} (hle : ∀ {state input}, holds state input →
    other state input) (h : Along step holds inputs state) : Along step other inputs state := by
  induction inputs generalizing state with
  | nil => trivial
  | cons input inputs ih => exact ⟨hle h.1, ih h.2⟩

theorem Along.and {other : σ → ι → Prop} (h : Along step holds inputs state)
    (hother : Along step other inputs state) :
    Along step (fun state input => holds state input ∧ other state input) inputs state := by
  induction inputs generalizing state with
  | nil => trivial
  | cons input inputs ih => exact ⟨⟨h.1, hother.1⟩, ih h.2 hother.2⟩

theorem along_append {later : List ι} :
    Along step holds (inputs ++ later) state ↔
      Along step holds inputs state ∧ Along step holds later (runFrom step inputs state) := by
  induction inputs generalizing state with
  | nil => exact ⟨fun h => ⟨trivial, h⟩, fun h => h.2⟩
  | cons input inputs ih =>
      rw [List.cons_append, Along, Along, ih, and_assoc]
      rfl

/-- A run that breaks the property breaks it at some step. -/
theorem exists_step_of_not_along (h : ¬Along step holds inputs state) :
    ∃ before input later, inputs = before ++ input :: later ∧
      ¬holds (runFrom step before state) input := by
  induction inputs generalizing state with
  | nil => exact absurd trivial h
  | cons input inputs ih =>
      by_cases hfirst : holds state input
      · obtain ⟨before, found, later, rfl, hfound⟩ := ih fun hrest => h ⟨hfirst, hrest⟩
        exact ⟨input :: before, found, later, rfl, hfound⟩
      · exact ⟨[], input, inputs, rfl, hfirst⟩

end Library
end MicroEmu
