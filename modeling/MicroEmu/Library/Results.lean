import Mathlib.Data.List.ReduceOption

/-!
# Fallible computations

Inversion of a chain of fallible steps: a chain that succeeds has succeeded at
every step.
-/

namespace MicroEmu
namespace Library

variable {ε α β γ : Type}

/-- A step of a chain and the rest of it. -/
theorem bind_eq_ok {x : Except ε α} {f : α → Except ε β} {b : β} :
    (x >>= f) = .ok b ↔ ∃ a, x = .ok a ∧ f a = .ok b := by
  cases x with
  | error e =>
      constructor
      · intro h
        cases h
      · rintro ⟨_, h, -⟩
        cases h
  | ok a =>
      constructor
      · intro h
        exact ⟨a, rfl, h⟩
      · rintro ⟨_, ha, h⟩
        cases ha
        exact h

theorem pure_eq_ok {a b : α} : (pure a : Except ε α) = .ok b ↔ a = b := by
  change (Except.ok a : Except ε α) = .ok b ↔ a = b
  exact Except.ok.injEq a b ▸ Iff.rfl

/-- A change of the result reaches the last step of a chain. -/
theorem map_bind_except {x : Except ε α} {f : α → Except ε β} {g : β → γ} :
    (x >>= f).map g = x >>= fun a => (f a).map g := by
  cases x with
  | error e => rfl
  | ok a => rfl

theorem toOption_eq_none_iff {x : Except ε α} : x.toOption = none ↔ ∃ e, x = .error e := by
  cases x with
  | error e => simp [Except.toOption]
  | ok a => simp [Except.toOption]

theorem toOption_eq_some_iff {x : Except ε α} {a : α} :
    x.toOption = some a ↔ x = .ok a := by
  cases x with
  | error e => simp [Except.toOption]
  | ok b => simp [Except.toOption]

/-- A successful traversal relates every input to its output, in order. -/
theorem mapM_eq_ok {f : α → Except ε β} {xs : List α} {ys : List β} :
    xs.mapM f = .ok ys ↔ List.Forall₂ (fun x y => f x = .ok y) xs ys := by
  induction xs generalizing ys with
  | nil =>
      rw [List.mapM_nil, pure_eq_ok]
      exact ⟨fun h => h ▸ .nil, fun h => by cases h; rfl⟩
  | cons x xs ih =>
      rw [List.mapM_cons, bind_eq_ok]
      constructor
      · rintro ⟨y, hy, hrest⟩
        obtain ⟨ys', hys', hcons⟩ := bind_eq_ok.mp hrest
        obtain rfl := pure_eq_ok.mp hcons
        exact .cons hy (ih.mp hys')
      · intro h
        cases h with
        | cons hy hrest =>
            exact ⟨_, hy, bind_eq_ok.mpr ⟨_, ih.mpr hrest, rfl⟩⟩

/-- A successful traversal has succeeded on every input. -/
theorem exists_ok_of_mem {f : α → Except ε β} {xs : List α} {ys : List β}
    (h : xs.mapM f = .ok ys) {x : α} (hx : x ∈ xs) : ∃ y, f x = .ok y := by
  have hall := mapM_eq_ok.mp h
  clear h
  induction hall with
  | nil => cases hx
  | cons hz _ ih =>
      rcases List.mem_cons.mp hx with rfl | hx
      · exact ⟨_, hz⟩
      · exact ih hx

/-- Where an output of a traversal comes from. -/
theorem exists_of_mem_mapM {f : α → Except ε (Option β)} {xs : List α}
    {ys : List (Option β)} (h : xs.mapM f = .ok ys) {y : β} (hy : y ∈ ys.reduceOption) :
    ∃ x ∈ xs, f x = .ok (some y) := by
  have hall := mapM_eq_ok.mp h
  clear h
  induction hall with
  | nil => simp at hy
  | @cons x o xs os hx _ ih =>
      cases o with
      | none =>
          rw [List.reduceOption_cons_of_none] at hy
          obtain ⟨x', hx', hf⟩ := ih hy
          exact ⟨x', List.mem_cons_of_mem _ hx', hf⟩
      | some z =>
          rw [List.reduceOption_cons_of_some] at hy
          rcases List.mem_cons.mp hy with rfl | hy
          · exact ⟨x, List.mem_cons_self, hx⟩
          · obtain ⟨x', hx', hf⟩ := ih hy
            exact ⟨x', List.mem_cons_of_mem _ hx', hf⟩

/-- Every output of a traversal appears. -/
theorem mem_mapM_of_mem {f : α → Except ε (Option β)} {xs : List α}
    {ys : List (Option β)} (h : xs.mapM f = .ok ys) {x : α} (hx : x ∈ xs) {y : β}
    (hy : f x = .ok (some y)) : y ∈ ys.reduceOption := by
  have hall := mapM_eq_ok.mp h
  clear h
  induction hall with
  | nil => simp at hx
  | @cons z o xs os hz _ ih =>
      rcases List.mem_cons.mp hx with rfl | hx
      · rw [hz] at hy
        obtain rfl := Except.ok.inj hy
        rw [List.reduceOption_cons_of_some]
        exact List.mem_cons_self
      · cases o with
        | none =>
            rw [List.reduceOption_cons_of_none]
            exact ih hx
        | some w =>
            rw [List.reduceOption_cons_of_some]
            exact List.mem_cons_of_mem _ (ih hx)

/-- Two steps that agree up to `g` give two traversals that agree up to `g`. -/
theorem exists_mapM_of_agree {f f' : α → Except ε (Option β)} {g : β → γ}
    (hagree : ∀ {x y}, f x = .ok y → ∃ y', f' x = .ok y' ∧ y'.map g = y.map g) {xs : List α}
    {ys : List (Option β)} (h : xs.mapM f = .ok ys) :
    ∃ ys', xs.mapM f' = .ok ys' ∧ ys'.reduceOption.map g = ys.reduceOption.map g := by
  have hall := mapM_eq_ok.mp h
  clear h
  induction hall with
  | nil => exact ⟨[], List.mapM_nil, rfl⟩
  | @cons x y _ _ hx _ ih =>
      obtain ⟨y', hy', hsame⟩ := hagree hx
      obtain ⟨ys', hys', hrest⟩ := ih
      refine ⟨y' :: ys', mapM_eq_ok.mpr (.cons hy' (mapM_eq_ok.mp hys')), ?_⟩
      cases y with
      | none =>
          obtain rfl := Option.map_eq_none_iff.mp hsame
          rw [List.reduceOption_cons_of_none, List.reduceOption_cons_of_none]
          exact hrest
      | some z =>
          obtain ⟨z', rfl, hz⟩ := Option.map_eq_some_iff.mp hsame
          rw [List.reduceOption_cons_of_some, List.reduceOption_cons_of_some, List.map_cons,
            List.map_cons, hz, hrest]

end Library
end MicroEmu
