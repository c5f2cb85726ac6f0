import Mathlib.Data.Int.Init
import Mathlib.Data.List.Basic

/-!
# Nesting of brackets and quoted strings

A text is read symbol by symbol: brackets outside strings open and close levels, and
inside a string a backslash takes the next symbol for itself.  Outside strings there is
no backslash.

A text that ends where it started, outside strings and at its own level, has no proper
suffix of which the same is true, once its front has opened a level.  A suffix either
reads its strings as the whole does, and then closes levels it has not opened, or it takes
strings for what is outside them, and then ends inside one.
-/

namespace MicroEmu
namespace Library

universe u

/-- What a symbol does to the nesting. -/
inductive Symbol where
  | quote
  | backslash
  | opening
  | closing
  | other
  deriving DecidableEq, Repr

namespace Nesting

/-- Where the reader is: outside strings, inside one, or behind a backslash. -/
inductive Mode where
  | outside
  | inside
  | escaped
  deriving DecidableEq, Repr

/-- The mode of a reader and its level. -/
structure State where
  mode : Mode
  depth : Int
  deriving DecidableEq, Repr

/-- Outside strings, at the level of the text. -/
def State.start : State := ⟨.outside, 0⟩

/-- One symbol. -/
def step (state : State) (symbol : Symbol) : Option State :=
  match state.mode, symbol with
  | .outside, .quote => some ⟨.inside, state.depth⟩
  | .outside, .backslash => none
  | .outside, .opening => some ⟨.outside, state.depth + 1⟩
  | .outside, .closing => some ⟨.outside, state.depth - 1⟩
  | .outside, .other => some state
  | .inside, .quote => some ⟨.outside, state.depth⟩
  | .inside, .backslash => some ⟨.escaped, state.depth⟩
  | .inside, _ => some state
  | .escaped, _ => some ⟨.inside, state.depth⟩

/-- A text, symbol by symbol. -/
def run (state : State) (text : List Symbol) : Option State := text.foldlM step state

theorem run_cons (state : State) (symbol : Symbol) (text : List Symbol) :
    run state (symbol :: text) = (step state symbol).bind fun next => run next text :=
  List.foldlM_cons ..

theorem run_append (state : State) (front back : List Symbol) :
    run state (front ++ back) = (run state front).bind fun next => run next back :=
  List.foldlM_append ..

/-- Symbols that are neither brackets nor quotes are passed. -/
theorem run_others {state : State} (hmode : state.mode ≠ .escaped) {text : List Symbol}
    (h : ∀ symbol ∈ text, symbol = .other) : run state text = some state := by
  obtain ⟨mode, depth⟩ := state
  induction text with
  | nil => rfl
  | cons symbol text ih =>
      obtain rfl := h symbol (List.mem_cons_self ..)
      rw [run_cons]
      cases mode with
      | outside | inside => exact ih fun later hlater => h later (List.mem_cons_of_mem _ hlater)
      | escaped => exact absurd rfl hmode

/-- A text that closes nothing and has no backslash is read without falling below the level
at which it starts. -/
theorem exists_run_of_unclosed {state : State} (hmode : state.mode ≠ .escaped)
    {text : List Symbol} (h : ∀ symbol ∈ text, symbol ≠ .closing ∧ symbol ≠ .backslash) :
    ∃ last, run state text = some last ∧ state.depth ≤ last.depth := by
  induction text generalizing state with
  | nil => exact ⟨state, rfl, Int.le_refl _⟩
  | cons symbol text ih =>
      obtain ⟨hclosing, hbackslash⟩ := h symbol (List.mem_cons_self ..)
      have hstep : ∃ next, step state symbol = some next ∧ next.mode ≠ .escaped ∧
          state.depth ≤ next.depth := by
        obtain ⟨mode, depth⟩ := state
        cases mode with
        | escaped => exact absurd rfl hmode
        | outside | inside =>
            cases symbol with
            | closing => exact absurd rfl hclosing
            | backslash => exact absurd rfl hbackslash
            | quote | opening | other =>
                refine ⟨_, rfl, by simp, ?_⟩
                simp only
                omega
      obtain ⟨next, hnext, hnextMode, hdepth⟩ := hstep
      obtain ⟨last, hlast, hlastDepth⟩ :=
        ih hnextMode fun later hlater => h later (List.mem_cons_of_mem _ hlater)
      exact ⟨last, by rw [run_cons, hnext]; exact hlast, Int.le_trans hdepth hlastDepth⟩

/-- The level at which a text starts does not matter to how it is read. -/
theorem step_shift (state : State) (symbol : Symbol) (levels : Int) :
    step ⟨state.mode, state.depth + levels⟩ symbol =
      (step state symbol).map fun next => ⟨next.mode, next.depth + levels⟩ := by
  obtain ⟨mode, depth⟩ := state
  cases mode <;> cases symbol <;>
    simp only [step, Option.map_some, Option.map_none, Option.some.injEq, State.mk.injEq,
      true_and] <;> omega

theorem run_shift (state : State) (text : List Symbol) (levels : Int) :
    run ⟨state.mode, state.depth + levels⟩ text =
      (run state text).map fun last => ⟨last.mode, last.depth + levels⟩ := by
  induction text generalizing state with
  | nil => rfl
  | cons symbol text ih =>
      rw [run_cons, run_cons, step_shift]
      cases step state symbol with
      | none => rfl
      | some next => exact ih next

/-- Readers of which one is inside a string when the other is not. -/
def Opposite (first second : State) : Prop :=
  (first.mode = .inside ∧ second.mode = .outside) ∨
    (first.mode = .outside ∧ second.mode = .inside)

theorem Opposite.step {first second next other : State} (h : Opposite first second)
    {symbol : Symbol} (hfirst : Nesting.step first symbol = some next)
    (hsecond : Nesting.step second symbol = some other) : Opposite next other := by
  obtain ⟨mode, depth⟩ := first
  obtain ⟨mode', depth'⟩ := second
  rcases h with ⟨rfl, rfl⟩ | ⟨rfl, rfl⟩
  -- the reader outside strings meets no backslash, and a quote changes both modes
  · cases symbol with
    | backslash => cases hsecond
    | quote =>
        cases hfirst
        cases hsecond
        exact .inr ⟨rfl, rfl⟩
    | opening | closing | other =>
        cases hfirst
        cases hsecond
        exact .inl ⟨rfl, rfl⟩
  · cases symbol with
    | backslash => cases hfirst
    | quote =>
        cases hfirst
        cases hsecond
        exact .inl ⟨rfl, rfl⟩
    | opening | closing | other =>
        cases hfirst
        cases hsecond
        exact .inr ⟨rfl, rfl⟩

theorem Opposite.run {first second last other : State} (h : Opposite first second)
    {text : List Symbol} (hfirst : Nesting.run first text = some last)
    (hsecond : Nesting.run second text = some other) : Opposite last other := by
  induction text generalizing first second with
  | nil =>
      obtain rfl := Option.some.inj hfirst
      obtain rfl := Option.some.inj hsecond
      exact h
  | cons symbol text ih =>
      rw [run_cons] at hfirst hsecond
      obtain ⟨next, hnext, hlast⟩ := Option.bind_eq_some_iff.mp hfirst
      obtain ⟨next', hnext', hother⟩ := Option.bind_eq_some_iff.mp hsecond
      exact ih (h.step hnext hnext') hlast hother

/-- From another level, in the same mode, a text ends at another level. -/
theorem run_ne_start_of_depth {mode : Mode} {depth depth' : Int} (h : depth ≠ depth')
    {text : List Symbol} (hrun : run ⟨mode, depth⟩ text = some .start) :
    run ⟨mode, depth'⟩ text ≠ some .start := by
  have hshift := run_shift ⟨mode, depth⟩ text (depth' - depth)
  rw [hrun, show depth + (depth' - depth) = depth' by omega] at hshift
  intro hother
  rw [hshift] at hother
  have hdepth : (0 : Int) + (depth' - depth) = 0 :=
    congrArg State.depth (Option.some.inj hother)
  omega

theorem run_ne_start_of_opposite {first second : State} (h : Opposite first second)
    {text : List Symbol} (hrun : run first text = some .start) :
    run second text ≠ some .start := by
  intro hother
  rcases h.run hrun hother with ⟨hmode, -⟩ | ⟨-, hmode⟩
  · cases hmode
  · cases hmode

/-- A suffix of a closed text, behind a front that has opened a level, is not closed. -/
theorem run_suffix_ne_start {front back : List Symbol} {state : State}
    (hfront : run .start front = some state) (hdepth : state.depth ≠ 0)
    (hwhole : run .start (front ++ back) = some .start) : run .start back ≠ some .start := by
  obtain ⟨mode, depth⟩ := state
  rw [run_append, hfront, Option.bind_some] at hwhole
  cases mode with
  | outside => exact run_ne_start_of_depth hdepth hwhole
  | inside => exact run_ne_start_of_opposite (.inl ⟨rfl, rfl⟩) hwhole
  | escaped =>
      cases back with
      | nil => cases hwhole
      | cons symbol back =>
          rw [run_cons] at hwhole ⊢
          -- the whole skips the symbol behind the backslash, the suffix starts with it
          have hinside : run ⟨.inside, depth⟩ back = some .start := by
            cases symbol <;> exact hwhole
          cases symbol with
          | quote => exact run_ne_start_of_depth hdepth hinside
          | backslash => exact (Option.some_ne_none State.start).symm
          | opening => exact run_ne_start_of_opposite (.inl ⟨rfl, rfl⟩) hinside
          | closing => exact run_ne_start_of_opposite (.inl ⟨rfl, rfl⟩) hinside
          | other => exact run_ne_start_of_opposite (.inl ⟨rfl, rfl⟩) hinside

end Nesting
end Library
end MicroEmu
