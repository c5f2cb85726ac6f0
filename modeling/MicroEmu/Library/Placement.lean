import Mathlib.Data.Option.Basic
import Mathlib.Data.List.Nodup
import Mathlib.Logic.Function.Basic
import Mathlib.Order.Lattice

/-!
# Placements

A placement puts some keys on slots, never two keys on one slot.  It is a
partial injection; the injectivity is a field of the structure, so that each
operation below yields a placement by construction.

Three operations change a placement:

* `keep` drops entries;
* `settle` gives a key a slot if nobody holds it;
* `claim` gives a key a slot and drops whoever held it.

A batch of settlements or claims is a fold over a list of requests.  What a
batch of claims does is independent of the history: on every claimed slot the
last claim wins (`claimAll_at_iff`).  A batch of settlements is first come,
first served; it forgets the order of its requests when they want different
slots (`settleAll_at_iff`).
-/

namespace MicroEmu
namespace Library

/-- A partial injection from keys to slots. -/
structure Placement (κ σ : Type) where
  at? : κ → Option σ
  injective : ∀ {a b : κ} {s : σ}, at? a = some s → at? b = some s → a = b

namespace Placement

variable {κ σ : Type}

@[ext] theorem ext {p q : Placement κ σ} (h : ∀ k, p.at? k = q.at? k) : p = q := by
  cases p
  cases q
  congr
  exact funext h

/-- Some key is on the slot. -/
def Taken (p : Placement κ σ) (s : σ) : Prop := ∃ k, p.at? k = some s

open Classical in
/-- Give `k` the slot `s` if nobody holds it. -/
noncomputable def settle (p : Placement κ σ) (r : κ × σ) : Placement κ σ where
  at? k := if k = r.1 ∧ ¬p.Taken r.2 then some r.2 else p.at? k
  injective := by
    intro a b s ha hb
    by_cases hfree : p.Taken r.2
    · simp only [hfree, not_true_eq_false, and_false, if_false] at ha hb
      exact p.injective ha hb
    · by_cases hra : a = r.1 <;> by_cases hrb : b = r.1 <;>
        simp only [hra, hrb, hfree, not_false_eq_true, and_self, and_true, if_true,
          if_false] at ha hb
      · rw [hra, hrb]
      · exact absurd ⟨b, ha ▸ hb⟩ hfree
      · exact absurd ⟨a, hb ▸ ha⟩ hfree
      · exact p.injective ha hb

open Classical in
/-- Give `k` the slot `s`, dropping whoever held it. -/
noncomputable def claim (p : Placement κ σ) (r : κ × σ) : Placement κ σ where
  at? k := if k = r.1 then some r.2 else if p.at? k = some r.2 then none else p.at? k
  injective := by
    intro a b s ha hb
    by_cases hra : a = r.1 <;> by_cases hrb : b = r.1 <;>
      simp only [hra, hrb, if_true, if_false] at ha hb
    · rw [hra, hrb]
    · split at hb
      · simp at hb
      · exact absurd (ha ▸ hb) ‹_›
    · split at ha
      · simp at ha
      · exact absurd (hb ▸ ha) ‹_›
    · split at ha
      · simp at ha
      · split at hb
        · simp at hb
        · exact p.injective ha hb

/-- Settle a list of requests in order. -/
noncomputable def settleAll (p : Placement κ σ) (requests : List (κ × σ)) :
    Placement κ σ := requests.foldl settle p

/-- Apply a list of claims in order. -/
noncomputable def claimAll (p : Placement κ σ) (requests : List (κ × σ)) :
    Placement κ σ := requests.foldl claim p

/-! ## Settling -/

theorem settle_at_iff {p : Placement κ σ} {r : κ × σ} (hfresh : p.at? r.1 = none)
    {k : κ} {s : σ} :
    (p.settle r).at? k = some s ↔
      p.at? k = some s ∨ (k = r.1 ∧ s = r.2 ∧ ¬p.Taken r.2) := by
  simp only [settle]
  by_cases hk : k = r.1
  · subst hk
    by_cases hfree : p.Taken r.2 <;> simp [hfree, hfresh, eq_comm]
  · simp [hk]

/-- Whoever is placed stays. -/
theorem settle_extends {p : Placement κ σ} {r : κ × σ} (hfresh : p.at? r.1 = none)
    {k : κ} {s : σ} (h : p.at? k = some s) : (p.settle r).at? k = some s :=
  (settle_at_iff hfresh).mpr (Or.inl h)

/-- After a settlement the slot asked for is taken, by its old holder or by the
new one. -/
theorem settle_taken {p : Placement κ σ} {r : κ × σ} (hfresh : p.at? r.1 = none) :
    (p.settle r).Taken r.2 := by
  by_cases htaken : p.Taken r.2
  · obtain ⟨k, hk⟩ := htaken
    exact ⟨k, settle_extends hfresh hk⟩
  · exact ⟨r.1, (settle_at_iff hfresh).mpr (Or.inr ⟨rfl, rfl, htaken⟩)⟩

/-- The requests of a batch concern unplaced keys, each of them once. -/
structure Fresh (p : Placement κ σ) (requests : List (κ × σ)) : Prop where
  unplaced : ∀ r ∈ requests, p.at? r.1 = none
  nodup : (requests.map Prod.fst).Nodup

theorem Fresh.tail {p : Placement κ σ} {r : κ × σ} {rest : List (κ × σ)}
    (h : p.Fresh (r :: rest)) : (p.settle r).Fresh rest where
  unplaced := by
    intro q hq
    have hne : q.1 ≠ r.1 := by
      rintro heq
      exact (List.nodup_cons.mp h.nodup).1 (heq ▸ List.mem_map.mpr ⟨q, hq, rfl⟩)
    have hnone := h.unplaced q (List.mem_cons_of_mem _ hq)
    simp [settle, hne, hnone]
  nodup := (List.nodup_cons.mp h.nodup).2

theorem settleAll_extends {requests : List (κ × σ)} {p : Placement κ σ}
    (hfresh : p.Fresh requests) {k : κ} {s : σ} (h : p.at? k = some s) :
    (p.settleAll requests).at? k = some s := by
  induction requests generalizing p with
  | nil => exact h
  | cons r rest ih =>
      exact ih hfresh.tail
        (settle_extends (hfresh.unplaced r List.mem_cons_self) h)

/-- The first request of a batch is granted if its slot is free. -/
theorem settleAll_first {r : κ × σ} {rest : List (κ × σ)} {p : Placement κ σ}
    (hfresh : p.Fresh (r :: rest)) (hfree : ¬p.Taken r.2) :
    (p.settleAll (r :: rest)).at? r.1 = some r.2 :=
  settleAll_extends hfresh.tail
    ((settle_at_iff (hfresh.unplaced r List.mem_cons_self)).mpr (Or.inr ⟨rfl, rfl, hfree⟩))

/-- A batch places nobody but by request. -/
theorem of_settleAll_at {requests : List (κ × σ)} {p : Placement κ σ}
    (hfresh : p.Fresh requests) {k : κ} {s : σ}
    (h : (p.settleAll requests).at? k = some s) :
    p.at? k = some s ∨ (k, s) ∈ requests := by
  induction requests generalizing p with
  | nil => exact Or.inl h
  | cons r rest ih =>
      rcases ih hfresh.tail h with hplaced | hmem
      · rcases (settle_at_iff (hfresh.unplaced r List.mem_cons_self)).mp hplaced with
          hold | ⟨rfl, rfl, -⟩
        · exact Or.inl hold
        · exact Or.inr List.mem_cons_self
      · exact Or.inr (List.mem_cons_of_mem _ hmem)

/-- Every slot a batch asks for is taken afterwards. -/
theorem settleAll_taken {requests : List (κ × σ)} {p : Placement κ σ}
    (hfresh : p.Fresh requests) {r : κ × σ} (hr : r ∈ requests) :
    (p.settleAll requests).Taken r.2 := by
  induction requests generalizing p with
  | nil => simp at hr
  | cons q rest ih =>
      rcases List.mem_cons.mp hr with rfl | hr
      · obtain ⟨k, hk⟩ := settle_taken (hfresh.unplaced r List.mem_cons_self)
        exact ⟨k, settleAll_extends hfresh.tail hk⟩
      · exact ih hfresh.tail hr

/-- A batch whose requests want different free slots grants them all, in
whichever order they come. -/
theorem settleAll_at_iff {requests : List (κ × σ)} {p : Placement κ σ}
    (hfresh : p.Fresh requests) (hfree : ∀ r ∈ requests, ¬p.Taken r.2)
    (hslots : ∀ r ∈ requests, ∀ q ∈ requests, r.2 = q.2 → r.1 = q.1)
    {k : κ} {s : σ} :
    (p.settleAll requests).at? k = some s ↔
      p.at? k = some s ∨ (k, s) ∈ requests := by
  constructor
  · exact of_settleAll_at hfresh
  · rintro (hold | hmem)
    · exact settleAll_extends hfresh hold
    -- somebody holds the slot, and only a requester can
    · obtain ⟨holder, hholder⟩ := settleAll_taken hfresh hmem
      rcases of_settleAll_at hfresh hholder with hplaced | hasked
      · exact absurd ⟨holder, hplaced⟩ (hfree _ hmem)
      · have hkey : k = holder := hslots _ hmem _ hasked rfl
        rwa [hkey]

/-! ## Claiming -/

theorem claim_at_iff {p : Placement κ σ} {r : κ × σ} {k : κ} {s : σ} :
    (p.claim r).at? k = some s ↔
      (k = r.1 ∧ s = r.2) ∨ (k ≠ r.1 ∧ s ≠ r.2 ∧ p.at? k = some s) := by
  simp only [claim]
  by_cases hk : k = r.1
  · simp [hk, eq_comm]
  · simp only [hk, if_false, false_and, false_or, ne_eq, not_false_eq_true, true_and]
    by_cases hs : p.at? k = some r.2
    · simp only [hs, if_true, reduceCtorEq, Option.some.injEq, false_iff, not_and]
      exact fun hne heq => hne heq.symm
    · simp only [hs, if_false, iff_and_self]
      rintro h rfl
      exact hs h

section

variable [LinearOrder κ]

/-- A sorted batch of claims: on every claimed slot the greatest key wins; keys
and slots outside the batch keep what they had. -/
theorem claimAll_at_iff {requests : List (κ × σ)} {p : Placement κ σ}
    (hsorted : requests.Pairwise fun r q => r.1 < q.1) {k : κ} {s : σ} :
    (p.claimAll requests).at? k = some s ↔
      ((k, s) ∈ requests ∧ ∀ r ∈ requests, r.2 = s → r.1 ≤ k) ∨
        ((∀ r ∈ requests, r.1 ≠ k ∧ r.2 ≠ s) ∧ p.at? k = some s) := by
  induction requests generalizing p with
  | nil => simp [claimAll]
  | cons r rest ih =>
      obtain ⟨hfirst, hrest⟩ := List.pairwise_cons.mp hsorted
      have hstep : (p.claimAll (r :: rest)) = (p.claim r).claimAll rest := rfl
      rw [hstep, ih hrest, claim_at_iff]
      constructor
      · rintro (⟨hmem, hmax⟩ | ⟨hother, ⟨rfl, rfl⟩ | ⟨hk, hs, hold⟩⟩)
        · refine Or.inl ⟨List.mem_cons_of_mem _ hmem, fun q hq hslot => ?_⟩
          rcases List.mem_cons.mp hq with rfl | hq
          · exact le_of_lt (hfirst _ hmem)
          · exact hmax q hq hslot
        · refine Or.inl ⟨List.mem_cons_self, fun q hq hslot => ?_⟩
          rcases List.mem_cons.mp hq with rfl | hq
          · exact le_refl _
          · exact absurd hslot (hother q hq).2
        · refine Or.inr ⟨fun q hq => ?_, hold⟩
          rcases List.mem_cons.mp hq with rfl | hq
          · exact ⟨Ne.symm hk, Ne.symm hs⟩
          · exact hother q hq
      · rintro (⟨hmem, hmax⟩ | ⟨hother, hold⟩)
        · rcases List.mem_cons.mp hmem with rfl | hmem
          · -- the first claim survives only if no later one wants its slot
            refine Or.inr ⟨fun q hq => ?_, Or.inl ⟨rfl, rfl⟩⟩
            have hlt : k < q.1 := hfirst q hq
            refine ⟨ne_of_gt hlt, fun hslot => ?_⟩
            exact absurd (hmax q (List.mem_cons_of_mem _ hq) hslot) (not_le.mpr hlt)
          · exact Or.inl ⟨hmem, fun q hq => hmax q (List.mem_cons_of_mem _ hq)⟩
        · obtain ⟨hk, hs⟩ := hother r List.mem_cons_self
          exact Or.inr ⟨fun q hq => hother q (List.mem_cons_of_mem _ hq),
            Or.inr ⟨Ne.symm hk, Ne.symm hs, hold⟩⟩

end

end Placement
end Library
end MicroEmu
