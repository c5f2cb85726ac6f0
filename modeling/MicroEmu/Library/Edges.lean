import Mathlib.Data.List.Basic
import Mathlib.Logic.Function.Basic

/-!
# Edges of switches

Switches that are held or not, and a record of their presses and releases.  The record
tracks the switches if each entry is a change of its switch: then the presses and releases
of every switch alternate.
-/

namespace MicroEmu
namespace Library

universe u v

variable {κ : Type u} {γ : Type v} [DecidableEq κ] [DecidableEq γ]

/-- Presses and releases in turn, behind this one. -/
def Alternates : Bool → List Bool → Prop
  | _, [] => True
  | held, pressed :: later => pressed = !held ∧ Alternates pressed later

/-- Whether the switch is held behind the edges. -/
def heldAfter (held : Bool) (edges : List Bool) : Bool := edges.getLast?.getD held

theorem alternates_append {held : Bool} {first second : List Bool} :
    Alternates held (first ++ second) ↔
      Alternates held first ∧ Alternates (heldAfter held first) second := by
  induction first generalizing held with
  | nil => exact ⟨fun h => ⟨trivial, h⟩, fun h => h.2⟩
  | cons pressed first ih =>
      have hlast : heldAfter held (pressed :: first) = heldAfter pressed first := by
        simp only [heldAfter, List.getLast?_cons, Option.getD_some]
      rw [List.cons_append, Alternates, Alternates, ih, hlast, and_assoc]

theorem heldAfter_append (held : Bool) (first second : List Bool) :
    heldAfter held (first ++ second) = heldAfter (heldAfter held first) second := by
  simp only [heldAfter, List.getLast?_append]
  cases second.getLast? <;> rfl

/-- The presses and releases of one switch. -/
def edgesOf (edges : List (κ × Bool)) (switch : κ) : List Bool :=
  edges.filterMap fun edge => if edge.1 = switch then some edge.2 else none

theorem edgesOf_append (first second : List (κ × Bool)) (switch : κ) :
    edgesOf (first ++ second) switch = edgesOf first switch ++ edgesOf second switch :=
  List.filterMap_append

theorem edgesOf_singleton (edge : κ × Bool) (switch : κ) :
    edgesOf [edge] switch = if edge.1 = switch then [edge.2] else [] := by
  by_cases heq : edge.1 = switch <;> simp [edgesOf, heq]

theorem edgesOf_map {f : κ → γ} (hf : Function.Injective f) (edges : List (κ × Bool))
    (switch : κ) : edgesOf (edges.map fun edge => (f edge.1, edge.2)) (f switch) =
      edgesOf edges switch := by
  rw [edgesOf, edgesOf, List.filterMap_map]
  refine List.filterMap_congr fun edge _ => ?_
  simp only [Function.comp_apply, hf.eq_iff]

omit [DecidableEq κ] in
theorem edgesOf_map_of_ne {f : κ → γ} {switch : γ} (h : ∀ other, f other ≠ switch)
    (edges : List (κ × Bool)) :
    edgesOf (edges.map fun edge => (f edge.1, edge.2)) switch = [] := by
  refine List.filterMap_eq_nil_iff.mpr fun edge hedge => ?_
  obtain ⟨source, -, rfl⟩ := List.mem_map.mp hedge
  exact if_neg (h source.1)

/-- Every edge is a change of its switch. -/
structure Tracks (before : κ → Bool) (edges : List (κ × Bool)) (after : κ → Bool) : Prop where
  alternates : ∀ switch, Alternates (before switch) (edgesOf edges switch)
  held : ∀ switch, after switch = heldAfter (before switch) (edgesOf edges switch)

namespace Tracks

variable {before middle after : κ → Bool} {edges later : List (κ × Bool)}

theorem refl (held : κ → Bool) : Tracks held [] held := ⟨fun _ => trivial, fun _ => rfl⟩

theorem trans (h : Tracks before edges middle) (h' : Tracks middle later after) :
    Tracks before (edges ++ later) after where
  alternates := fun switch => by
    rw [edgesOf_append, alternates_append, ← h.held]
    exact ⟨h.alternates switch, h'.alternates switch⟩
  held := fun switch => by
    rw [edgesOf_append, heldAfter_append, ← h.held]
    exact h'.held switch

/-- One switch changes, and no other. -/
theorem change {switch : κ} {pressed : Bool} (hchange : pressed ≠ before switch)
    (hafter : after switch = pressed) (hothers : ∀ other, other ≠ switch →
      after other = before other) : Tracks before [(switch, pressed)] after where
  alternates := fun other => by
    rw [edgesOf_singleton]
    by_cases heq : switch = other
    · subst heq
      rw [if_pos rfl]
      exact ⟨Bool.eq_not.mpr hchange, trivial⟩
    · rw [if_neg heq]
      trivial
  held := fun other => by
    rw [edgesOf_singleton]
    by_cases heq : switch = other
    · subst heq
      rw [if_pos rfl]
      exact hafter
    · rw [if_neg heq]
      exact hothers other fun h => heq h.symm

/-- Some switches are released, each once. -/
theorem release {switches : List κ} (hnodup : switches.Nodup)
    (hheld : ∀ switch ∈ switches, before switch = true)
    (hafter : ∀ switch, after switch = (before switch && !decide (switch ∈ switches))) :
    Tracks before (switches.map (·, false)) after := by
  induction switches generalizing before with
  | nil =>
      obtain rfl : after = before := funext fun switch => by simp [hafter]
      exact refl after
  | cons switch switches ih =>
      obtain ⟨hfresh, hnodup⟩ := List.nodup_cons.mp hnodup
      have hfirst : Tracks before [(switch, false)]
          (fun other => before other && !decide (other = switch)) := by
        refine change ?_ (by simp) fun other hother => by simp [hother]
        rw [hheld switch List.mem_cons_self]
        exact Bool.false_ne_true
      refine hfirst.trans (ih hnodup (fun other hother => ?_) fun other => ?_)
      · have hne : other ≠ switch := fun heq => hfresh (heq ▸ hother)
        simp [hheld other (List.mem_cons_of_mem switch hother), hne]
      · rw [hafter]
        by_cases heq : other = switch <;> simp [heq]

/-- Switches that are some of others. -/
theorem embed (h : Tracks before edges after) {f : κ → γ} (hf : Function.Injective f)
    {before' after' : γ → Bool} (hbefore : ∀ switch, before' (f switch) = before switch)
    (hafter : ∀ switch, after' (f switch) = after switch)
    (hothers : ∀ other, (∀ switch, f switch ≠ other) → after' other = before' other) :
    Tracks before' (edges.map fun edge => (f edge.1, edge.2)) after' := by
  have hcases : ∀ other, (∃ switch, f switch = other) ∨ ∀ switch, f switch ≠ other := fun other =>
    (Classical.em (∃ switch, f switch = other)).imp id fun hnone switch heq => hnone ⟨switch, heq⟩
  constructor
  · intro other
    rcases hcases other with ⟨switch, rfl⟩ | hother
    · rw [edgesOf_map hf, hbefore]
      exact h.alternates switch
    · rw [edgesOf_map_of_ne hother]
      trivial
  · intro other
    rcases hcases other with ⟨switch, rfl⟩ | hother
    · rw [edgesOf_map hf, hbefore, hafter]
      exact h.held switch
    · rw [edgesOf_map_of_ne hother, hothers other hother]
      rfl

/-- Switches that are reported under other names, each under its own, or not at all. -/
theorem rename (h : Tracks before edges after) {name : κ → Option γ} {switchOf : γ → Option κ}
    (hname : ∀ switch other, name switch = some other ↔ switchOf other = some switch) :
    Tracks (fun other => (switchOf other).elim false before)
      (edges.filterMap fun edge => (name edge.1).map (·, edge.2))
      (fun other => (switchOf other).elim false after) := by
  have hedges : ∀ other, edgesOf (edges.filterMap fun edge => (name edge.1).map (·, edge.2)) other =
      (switchOf other).elim [] (edgesOf edges) := by
    intro other
    rw [edgesOf, List.filterMap_filterMap]
    cases hswitch : switchOf other with
    | none =>
        refine List.filterMap_eq_nil_iff.mpr fun edge _ => ?_
        cases hedge : name edge.1 with
        | none => rfl
        | some found =>
            have hne : found ≠ other := by
              rintro rfl
              rw [hname, hswitch] at hedge
              cases hedge
            simp [hne]
    | some switch =>
        refine List.filterMap_congr fun edge _ => ?_
        by_cases hedge : edge.1 = switch
        · have hfound := (hname edge.1 other).mpr (by rw [hswitch, hedge])
          rw [hfound, if_pos hedge]
          exact if_pos rfl
        · cases hfound : name edge.1 with
          | none => simp [hedge]
          | some found =>
              have hne : found ≠ other := by
                rintro rfl
                rw [hname, hswitch] at hfound
                exact hedge (Option.some.inj hfound).symm
              simp [hne, hedge]
  constructor
  · intro other
    rw [hedges]
    cases switchOf other with
    | none => trivial
    | some switch => exact h.alternates switch
  · intro other
    rw [hedges]
    cases switchOf other with
    | none => rfl
    | some switch => exact h.held switch

end Tracks

end Library
end MicroEmu
