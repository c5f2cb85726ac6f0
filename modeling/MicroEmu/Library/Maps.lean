import Std.Data.ExtTreeMap
import Mathlib.Data.List.Nodup

/-!
# Lookups in extensional tree maps

`Std.ExtTreeMap` states its lookup lemmas through the comparison function.  For
a comparison that decides equality they read better with `=`.  The folds below
are the usual imperative loops over a map: erase a list of keys, insert a list
of entries.
-/

namespace MicroEmu
namespace Library

open Std

variable {κ β : Type} {cmp : κ → κ → Ordering} [TransCmp cmp]

theorem contains_iff_exists {map : ExtTreeMap κ β cmp} {k : κ} :
    map.contains k = true ↔ ∃ v, map[k]? = some v := by
  rw [ExtTreeMap.contains_eq_isSome_getElem?, Option.isSome_iff_exists]

theorem contains_eq_false_iff {map : ExtTreeMap κ β cmp} {k : κ} :
    map.contains k = false ↔ map[k]? = none := by
  rw [ExtTreeMap.contains_eq_isSome_getElem?, Option.isSome_eq_false_iff,
    Option.isNone_iff_eq_none]

variable [LawfulEqCmp cmp] [DecidableEq κ]

theorem getElem?_insert_eq_ite (map : ExtTreeMap κ β cmp) (a k : κ) (v : β) :
    (map.insert a v)[k]? = if a = k then some v else map[k]? := by
  rw [ExtTreeMap.getElem?_insert]
  simp only [LawfulEqCmp.compare_eq_iff_eq]

theorem getElem?_erase_eq_ite (map : ExtTreeMap κ β cmp) (a k : κ) :
    (map.erase a)[k]? = if a = k then none else map[k]? := by
  rw [ExtTreeMap.getElem?_erase]
  simp only [LawfulEqCmp.compare_eq_iff_eq]

/-- Erasing a list of keys, one after another. -/
theorem getElem?_foldl_erase (keys : List κ) (map : ExtTreeMap κ β cmp) (k : κ) :
    (keys.foldl ExtTreeMap.erase map)[k]? = if k ∈ keys then none else map[k]? := by
  induction keys generalizing map with
  | nil => simp
  | cons a keys ih =>
      rw [List.foldl_cons, ih, getElem?_erase_eq_ite]
      by_cases hk : k = a <;> by_cases hmem : k ∈ keys <;>
        simp [hk, hmem, eq_comm]

/-- Erasing keys depends on which keys they are, not on their order. -/
theorem foldl_erase_congr {keys keys' : List κ} (hmem : ∀ k, k ∈ keys ↔ k ∈ keys')
    (map : ExtTreeMap κ β cmp) :
    keys.foldl ExtTreeMap.erase map = keys'.foldl ExtTreeMap.erase map := by
  ext k v
  rw [getElem?_foldl_erase, getElem?_foldl_erase]
  simp only [hmem k]

/-- Inserting a list of entries with distinct keys, one after another. -/
theorem getElem?_foldl_insert {γ : Type} (key : γ → κ) (value : γ → β)
    {entries : List γ} (hnodup : (entries.map key).Nodup)
    (map : ExtTreeMap κ β cmp) (k : κ) (v : β) :
    (entries.foldl (fun m e => m.insert (key e) (value e)) map)[k]? = some v ↔
      (∃ e ∈ entries, key e = k ∧ value e = v) ∨
        (k ∉ entries.map key ∧ map[k]? = some v) := by
  induction entries generalizing map with
  | nil => simp
  | cons a entries ih =>
      obtain ⟨hfresh, hrest⟩ := List.nodup_cons.mp hnodup
      rw [List.foldl_cons, ih hrest, getElem?_insert_eq_ite]
      by_cases hk : key a = k
      · subst hk
        have hnone : ¬∃ e ∈ entries, key e = key a ∧ value e = v := by
          rintro ⟨e, he, hkey, -⟩
          exact hfresh (List.mem_map.mpr ⟨e, he, hkey⟩)
        simp [hnone, hfresh]
      · simp only [List.map_cons, List.mem_cons, exists_eq_or_imp, hk, if_false,
          false_and, false_or, Ne.symm hk]

/-- The entries of the map of a list come from the list. -/
theorem mem_of_getElem?_ofList {entries : List (κ × β)} {k : κ} {v : β}
    (h : (ExtTreeMap.ofList entries cmp)[k]? = some v) : (k, v) ∈ entries := by
  have hfold : ∀ (entries : List (κ × β)) (map : ExtTreeMap κ β cmp),
      (entries.foldl (fun map entry => map.insert entry.1 entry.2) map)[k]? = some v →
        (k, v) ∈ entries ∨ map[k]? = some v := by
    intro entries
    induction entries with
    | nil => exact fun map h => Or.inr h
    | cons entry entries ih =>
        intro map h
        rcases ih _ h with hlater | hhere
        · exact Or.inl (List.mem_cons_of_mem _ hlater)
        · rw [getElem?_insert_eq_ite] at hhere
          split at hhere
          next hkey =>
            obtain rfl := hkey
            obtain rfl := Option.some.inj hhere
            exact Or.inl List.mem_cons_self
          · exact Or.inr hhere
  rw [ExtTreeMap.ofList_eq_foldl] at h
  rcases hfold entries ∅ h with hmem | hempty
  · exact hmem
  · simp at hempty

/-- The map of a list with distinct keys has the entries of the list. -/
theorem getElem?_ofList_iff {entries : List (κ × β)} (hnodup : (entries.map Prod.fst).Nodup)
    {k : κ} {v : β} : (ExtTreeMap.ofList entries cmp)[k]? = some v ↔ (k, v) ∈ entries := by
  refine ⟨mem_of_getElem?_ofList, fun hmem => ?_⟩
  rw [ExtTreeMap.ofList_eq_foldl]
  exact (getElem?_foldl_insert Prod.fst Prod.snd hnodup (∅ : ExtTreeMap κ β cmp) k v).mpr
    (Or.inl ⟨_, hmem, rfl, rfl⟩)

/-- A map is the one of its entries with the values changed. -/
theorem ofList_map_toList {γ : Type} (map : ExtTreeMap κ β cmp) (f : β → γ) :
    ExtTreeMap.ofList (map.toList.map fun entry => (entry.1, f entry.2)) cmp =
      map.map fun _ value => f value := by
  have hnodup : ((map.toList.map fun entry => (entry.1, f entry.2)).map Prod.fst).Nodup := by
    have hkeys : (map.toList.map fun entry => (entry.1, f entry.2)).map Prod.fst = map.keys := by
      rw [List.map_map, ← ExtTreeMap.map_fst_toList_eq_keys]
      rfl
    rw [hkeys]
    exact ExtTreeMap.nodup_keys
  ext k v
  rw [getElem?_ofList_iff hnodup, ExtTreeMap.getElem?_map]
  simp only [List.mem_map, Prod.exists, Prod.mk.injEq, ExtTreeMap.mem_toList_iff_getElem?_eq_some,
    Option.map_eq_some_iff]
  constructor
  · rintro ⟨k', old, hold, rfl, rfl⟩
    exact ⟨old, hold, rfl⟩
  · rintro ⟨old, hold, rfl⟩
    exact ⟨k, old, hold, rfl, rfl⟩

/-- Inserting the key of one more element of a list raises the number of elements
whose key is present by one, if the element passes the test. -/
theorem countP_contains_insert {α : Type} {key : α → κ} {xs : List α}
    (hnodup : (xs.map key).Nodup) {x : α} (hx : x ∈ xs) {map : ExtTreeMap κ β cmp}
    (hfresh : map[key x]? = none) (v : β) (test : α → Bool) :
    xs.countP (fun y => test y && (map.insert (key x) v).contains (key y)) =
      xs.countP (fun y => test y && map.contains (key y)) + if test x then 1 else 0 := by
  have hother : ∀ y, key y ≠ key x → (map.insert (key x) v).contains (key y) =
      map.contains (key y) := by
    intro y hne
    rw [ExtTreeMap.contains_eq_isSome_getElem?, ExtTreeMap.contains_eq_isSome_getElem?,
      getElem?_insert_eq_ite, if_neg (Ne.symm hne)]
  have hself : (map.insert (key x) v).contains (key x) = true :=
    contains_iff_exists.mpr ⟨v, by rw [getElem?_insert_eq_ite, if_pos rfl]⟩
  have hbefore : map.contains (key x) = false := contains_eq_false_iff.mpr hfresh
  induction xs with
  | nil => cases hx
  | cons y ys ih =>
      obtain ⟨hhead, htail⟩ := List.nodup_cons.mp hnodup
      rcases List.mem_cons.mp hx with rfl | hx
      · have hrest : ys.countP (fun y => test y && (map.insert (key x) v).contains (key y)) =
            ys.countP (fun y => test y && map.contains (key y)) := by
          refine List.countP_congr fun y hy => ?_
          rw [hother y fun hkey => hhead (List.mem_map.mpr ⟨y, hy, hkey⟩)]
        rw [List.countP_cons, List.countP_cons, hrest, hself, hbefore]
        simp
      · have hne : key y ≠ key x := fun hkey =>
          hhead (hkey ▸ List.mem_map.mpr ⟨x, hx, rfl⟩)
        rw [List.countP_cons, List.countP_cons, ih htail hx, hother y hne]
        omega

end Library
end MicroEmu
