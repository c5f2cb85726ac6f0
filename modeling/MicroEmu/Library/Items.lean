import Mathlib.Data.List.Basic

/-!
# Items that end where they say

Items are written one behind another, and none is the front of what another one and more
comes to.  Then a list says at most once how it is made of items and of a rest that starts
with none.
-/

namespace MicroEmu
namespace Library

universe u v

/-- A way to write items. -/
structure ItemCode (α : Type u) (ι : Type v) where
  encode : ι → List α
  nonempty : ∀ item, encode item ≠ []
  unique : ∀ {first second : ι} {front back : List α},
    encode first ++ front = encode second ++ back → first = second

namespace ItemCode

variable {α : Type u} {ι : Type v} (code : ItemCode α ι)

/-- Items one behind another. -/
def encodeAll (items : List ι) : List α := items.flatMap code.encode

/-- No item is at the front. -/
def Stuck (rest : List α) : Prop := ∀ item back, rest ≠ code.encode item ++ back

/-- A part of an item that is not the whole of it, and not nothing. -/
def Cut (rest : List α) : Prop :=
  rest ≠ [] ∧ ∃ item back, back ≠ [] ∧ rest ++ back = code.encode item

variable {code}

theorem encodeAll_cons (item : ι) (items : List ι) :
    code.encodeAll (item :: items) = code.encode item ++ code.encodeAll items :=
  List.flatMap_cons

theorem encodeAll_append (first second : List ι) :
    code.encodeAll (first ++ second) = code.encodeAll first ++ code.encodeAll second :=
  List.flatMap_append

theorem unique_rest {first second : ι} {front back : List α}
    (h : code.encode first ++ front = code.encode second ++ back) :
    first = second ∧ front = back := by
  obtain rfl := code.unique h
  exact ⟨rfl, List.append_cancel_left h⟩

theorem stuck_nil : code.Stuck [] := fun item _ h =>
  code.nonempty item (List.append_eq_nil_iff.mp h.symm).1

/-- A part of an item does not hold another one. -/
theorem Cut.stuck {rest : List α} (h : code.Cut rest) : code.Stuck rest := by
  obtain ⟨-, item, back, hback, hitem⟩ := h
  rintro other more rfl
  have hsame : code.encode other ++ (more ++ back) = code.encode item ++ [] := by
    rw [← List.append_assoc, hitem, List.append_nil]
  obtain ⟨-, hnone⟩ := unique_rest hsame
  exact hback (List.append_eq_nil_iff.mp hnone).2

/-- There is one way to read items and a rest that starts with none. -/
theorem encodeAll_inj {first second : List ι} {front back : List α} (hfront : code.Stuck front)
    (hback : code.Stuck back)
    (h : code.encodeAll first ++ front = code.encodeAll second ++ back) :
    first = second ∧ front = back := by
  induction first generalizing second with
  | nil =>
      cases second with
      | nil => exact ⟨rfl, h⟩
      | cons item second =>
          rw [encodeAll_cons, List.append_assoc] at h
          exact absurd h (hfront item _)
  | cons item first ih =>
      cases second with
      | nil =>
          rw [encodeAll_cons, List.append_assoc] at h
          exact absurd h.symm (hback item _)
      | cons other second =>
          rw [encodeAll_cons, encodeAll_cons, List.append_assoc, List.append_assoc] at h
          obtain ⟨rfl, hrest⟩ := unique_rest h
          obtain ⟨rfl, hsame⟩ := ih hrest
          exact ⟨rfl, hsame⟩

/-- Where every list is empty, starts with an item or is a part of one, every list is read. -/
theorem exists_encodeAll (htotal : ∀ bytes, bytes = [] ∨ code.Cut bytes ∨
      ∃ item rest, bytes = code.encode item ++ rest) (bytes : List α) :
    ∃ items rest, bytes = code.encodeAll items ++ rest ∧ (rest = [] ∨ code.Cut rest) := by
  induction hlength : bytes.length using Nat.strongRecOn generalizing bytes with
  | ind length ih =>
      subst hlength
      rcases htotal bytes with rfl | hcut | ⟨item, rest, rfl⟩
      · exact ⟨[], [], rfl, .inl rfl⟩
      · exact ⟨[], bytes, rfl, .inr hcut⟩
      · have hpositive := List.length_pos_iff.mpr (code.nonempty item)
        obtain ⟨items, last, hrest, hlast⟩ := ih rest.length
          (by rw [List.length_append]; omega) rest rfl
        refine ⟨item :: items, last, ?_, hlast⟩
        rw [encodeAll_cons, List.append_assoc, ← hrest]

end ItemCode
end Library
end MicroEmu
