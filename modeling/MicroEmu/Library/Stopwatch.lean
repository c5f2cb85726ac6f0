import Mathlib.Data.List.Basic

/-!
# Start and finish of a run

A history lists phases with their times, the latest first.  A run lasts until a
phase that ends it, and starts with its first active phase.  What a report shows
after a history looks at all of it: a completion shows the start of the run it
completes, and the time of its own first phase.  The equations below compute
both from the latest phase and what was shown before it.
-/

namespace MicroEmu
namespace Library

/-- Which phases are active, which complete a run, and which end one. -/
structure Phases (σ : Type) where
  active : σ → Bool
  completed : σ → Bool
  ends : σ → Bool
  ends_of_completed : ∀ {s : σ}, completed s = true → ends s = true
  not_active_of_ends : ∀ {s : σ}, ends s = true → active s = false

namespace Phases

variable {σ : Type} (phases : Phases σ)

/-- The phases since the last one that ended a run. -/
def currentRun (history : List (σ × Nat)) : List (σ × Nat) :=
  history.takeWhile fun event => !phases.ends event.1

/-- The time of the first active phase of the current run. -/
def runStart (history : List (σ × Nat)) : Option Nat :=
  ((phases.currentRun history).reverse.find? fun event => phases.active event.1).map Prod.snd

/-- The start shown after a history; a completion keeps that of its run. -/
def startedAt (history : List (σ × Nat)) : Option Nat :=
  phases.runStart (history.dropWhile fun event => phases.completed event.1)

/-- The finish shown after a history: the first phase of a lasting completion. -/
def finishedAt (history : List (σ × Nat)) : Option Nat :=
  (history.takeWhile fun event => phases.completed event.1).getLast?.map Prod.snd

variable {phases} {event : σ × Nat} {past : List (σ × Nat)}

theorem runStart_cons_of_ends (h : phases.ends event.1 = true) :
    phases.runStart (event :: past) = none := by
  simp [runStart, currentRun, h]

/-- A phase that ends nothing continues the run, or starts it. -/
theorem runStart_cons (h : phases.ends event.1 = false) :
    phases.runStart (event :: past) =
      (phases.runStart past).or (if phases.active event.1 then some event.2 else none) := by
  have hrun : phases.currentRun (event :: past) = event :: phases.currentRun past := by
    simp [currentRun, h]
  unfold runStart
  rw [hrun, List.reverse_cons, List.find?_append]
  cases hfirst : (phases.currentRun past).reverse.find? fun event => phases.active event.1 with
  | some first => simp
  | none =>
      by_cases hactive : phases.active event.1 = true
      · simp [hactive]
      · simp [hactive]

theorem startedAt_cons_of_completed (h : phases.completed event.1 = true) :
    phases.startedAt (event :: past) = phases.startedAt past := by
  simp [startedAt, h]

theorem startedAt_cons (h : phases.completed event.1 = false) :
    phases.startedAt (event :: past) = phases.runStart (event :: past) := by
  simp [startedAt, h]

/-- Unless the latest phase is a completion, the start shown is that of the run. -/
theorem startedAt_eq_runStart (h : past.head?.all (fun event => !phases.completed event.1)) :
    phases.startedAt past = phases.runStart past := by
  cases past with
  | nil => rfl
  | cons latest past => exact startedAt_cons (by simpa using h)

/-- No run continues past a completion. -/
theorem runStart_of_head_completed
    (h : past.head?.any (fun event => phases.completed event.1)) :
    phases.runStart past = none := by
  cases past with
  | nil => rfl
  | cons latest past =>
      exact runStart_cons_of_ends (phases.ends_of_completed (by simpa using h))

/-- A completion that lasts keeps the time of its first phase. -/
theorem finishedAt_cons_of_completed (h : phases.completed event.1 = true) :
    phases.finishedAt (event :: past) = (phases.finishedAt past).or (some event.2) := by
  unfold finishedAt
  rw [List.takeWhile_cons, if_pos h, List.getLast?_cons]
  cases (past.takeWhile fun event => phases.completed event.1).getLast? with
  | none => rfl
  | some first => rfl

theorem finishedAt_of_head_not_completed
    (h : past.head?.all (fun event => !phases.completed event.1)) :
    phases.finishedAt past = none := by
  cases past with
  | nil => rfl
  | cons latest past =>
      have hlatest : phases.completed latest.1 = false := by simpa using h
      simp [finishedAt, hlatest]

end Phases

end Library
end MicroEmu
