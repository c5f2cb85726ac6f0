import Mathlib.Data.List.DropRight

/-!
# Texts without the blanks at their ends

A text is stripped of the blanks at both ends.  What a text starts with, if that is no blank,
does not depend on the blanks behind it.
-/

namespace MicroEmu
namespace Library

universe u

variable {α : Type u} {blank : α → Bool} {text word blanks : List α}

/-- A text without the blanks at its ends. -/
def strip (blank : α → Bool) (text : List α) : List α :=
  (text.dropWhile blank).rdropWhile blank

theorem exists_strip_append (blank : α → Bool) (text : List α) :
    ∃ blanks : List α, (∀ c ∈ blanks, blank c = true) ∧
      text.dropWhile blank = strip blank text ++ blanks := by
  refine ⟨(text.dropWhile blank).rtakeWhile blank, fun c hc => ?_, ?_⟩
  · exact List.mem_rtakeWhile_imp hc
  · exact List.rdropWhile_append_rtakeWhile.symm

theorem dropWhile_eq_self_of_head (h : ∀ c ∈ text.head?, blank c = false) :
    text.dropWhile blank = text := by
  cases text with
  | nil => rfl
  | cons c text =>
      have hc : blank c = false := h c rfl
      exact List.dropWhile_cons_of_neg (by simp [hc])

/-- A stripped text starts with no blank. -/
theorem dropWhile_strip : (strip blank text).dropWhile blank = strip blank text := by
  refine dropWhile_eq_self_of_head fun c hc => ?_
  obtain ⟨blanks, -, heq⟩ := exists_strip_append blank text
  have hhead : (text.dropWhile blank).head? = some c := by
    rw [heq, List.head?_append, hc, Option.some_or]
  have hnot := List.head?_dropWhile_not blank text
  rw [hhead] at hnot
  simpa using hnot

theorem strip_strip : strip blank (strip blank text) = strip blank text := by
  rw [strip, dropWhile_strip, strip, List.rdropWhile_idempotent]

/-- One more blank at the end makes no difference. -/
theorem strip_concat {c : α} (h : blank c = true) :
    strip blank (text ++ [c]) = strip blank text := by
  rw [strip, strip, List.dropWhile_append]
  split
  next hempty =>
    rw [List.isEmpty_iff.mp hempty, List.dropWhile_cons_of_pos h]
    rfl
  next => rw [List.rdropWhile_concat_pos _ _ _ h]

/-- A text that starts and ends with something else is stripped already. -/
theorem strip_eq_self (hhead : ∀ c ∈ text.head?, blank c = false)
    (hlast : ∀ c ∈ text.getLast?, blank c = false) : strip blank text = text := by
  rw [strip, dropWhile_eq_self_of_head hhead, List.rdropWhile_eq_self_iff]
  intro hne
  rw [hlast _ (List.getLast?_eq_some_getLast hne)]
  decide

section

variable [BEq α] [LawfulBEq α]

/-- The blanks behind a text are no part of a word at its start. -/
theorem isPrefixOf_append_blanks (hword : ∀ c ∈ word, blank c = false)
    (hblanks : ∀ c ∈ blanks, blank c = true) :
    word.isPrefixOf (text ++ blanks) = word.isPrefixOf text := by
  induction word generalizing text with
  | nil => rw [List.isPrefixOf_nil_left, List.isPrefixOf_nil_left]
  | cons c word ih =>
      have hrest : ∀ c ∈ word, blank c = false := fun c hc => hword c (List.mem_cons_of_mem _ hc)
      cases text with
      | nil =>
          cases blanks with
          | nil => rfl
          | cons d blanks =>
              have hne : (c == d) = false := by
                rw [beq_eq_false_iff_ne]
                rintro rfl
                have hblank := hblanks c List.mem_cons_self
                rw [hword c List.mem_cons_self] at hblank
                cases hblank
              simp [List.isPrefixOf, hne]
      | cons d text => simp [List.isPrefixOf, ih hrest]

/-- And neither are they part of the first word. -/
theorem isPrefixOf_dropWhile_append_blanks (hword : ∀ c ∈ word, blank c = false)
    (hblanks : ∀ c ∈ blanks, blank c = true) :
    word.isPrefixOf ((text ++ blanks).dropWhile blank) =
      word.isPrefixOf (text.dropWhile blank) := by
  rw [List.dropWhile_append]
  split
  next hempty =>
    have hall : blanks.dropWhile blank = [] := List.dropWhile_eq_nil_iff.mpr hblanks
    rw [List.isEmpty_iff.mp hempty, hall]
  next => exact isPrefixOf_append_blanks hword hblanks

end

end Library
end MicroEmu
