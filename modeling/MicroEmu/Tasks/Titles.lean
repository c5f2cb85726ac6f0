import MicroEmu.Json.Text
import MicroEmu.Tasks.Display

/-!
# Titles that are displayed again

A title shown on the strip carries the number of its slot, and a display context that is replayed
passes through the formatter again.  The number of the earlier display is taken off first, so a
title that has a text of its own keeps it through any number of displays.  A title without one is
shown as the bare number, which the next display takes for its text.
-/

namespace MicroEmu
namespace Tasks

open Json (takeChars charCount)

/-! ## Numbered titles -/

/-- A title of a number between one and nine and the dash after it, and nothing else. -/
def BareNumber (title : String) : Prop :=
  ∃ number n, Json.parseUnsigned 10 (2 ^ 64 - 1) number = some n ∧ 1 ≤ n ∧ n ≤ codexTaskSlots ∧
    title = number ++ " — "

/-- The number of a slot before a text. -/
def numbered (slot : Nat) (text : String) : String := toString (slot + 1) ++ " — " ++ text

theorem parseUnsigned_slot {slot : Nat} (hslot : slot < codexTaskSlots) :
    Json.parseUnsigned 10 (2 ^ 64 - 1) (toString (slot + 1)) = some (slot + 1) := by
  revert slot
  decide

/-- The parts of a title whose first part is a number. -/
theorem splitOnce_number {number : String} {n : Nat}
    (hnumber : Json.parseUnsigned 10 (2 ^ 64 - 1) number = some n) (text : String) :
    Json.splitOnce (number ++ " — " ++ text) " — " = some (number, text) := by
  have hhead : (" — ".toList).head? = some ' ' := by decide
  have hsplit := Json.splitOnceChars_append text.toList hhead
    (Json.blank_notMem_of_parseUnsigned hnumber)
  unfold Json.splitOnce
  rw [String.toList_append, String.toList_append, List.append_assoc, hsplit]
  simp

/-- The number of a slot is taken off again. -/
theorem unnumberedTitle_numbered {slot : Nat} (hslot : slot < codexTaskSlots) (text : String) :
    unnumberedTitle (numbered slot text) = text := by
  have hnumber := parseUnsigned_slot hslot
  unfold unnumberedTitle numbered
  rw [splitOnce_number hnumber text]
  simp only [hnumber]
  rw [if_pos ⟨Nat.succ_pos slot, hslot⟩]

/-- Nothing is left of a title without a text of its own only. -/
theorem unnumberedTitle_eq_empty_iff {title : String} :
    unnumberedTitle title = "" ↔ title = "" ∨ BareNumber title := by
  constructor
  · intro hempty
    unfold unnumberedTitle at hempty
    split at hempty
    · exact Or.inl hempty
    next number remainder hsplit =>
      split at hempty
      · exact Or.inl hempty
      next n hnumber =>
        split at hempty
        next hrange =>
          obtain ⟨⟨front, rest⟩, hchars, hparts⟩ := Option.map_eq_some_iff.mp hsplit
          obtain ⟨rfl, rfl⟩ := Prod.mk.inj hparts
          have htext := Json.splitOnceChars_sound hchars
          have hrest : rest = [] := by simpa using congrArg String.toList hempty
          refine Or.inr ⟨_, n, hnumber, hrange.1, hrange.2, ?_⟩
          apply String.toList_inj.mp
          rw [htext, hrest]
          simp
        · exact Or.inl hempty
  · rintro (rfl | ⟨number, n, hnumber, hone, hnine, rfl⟩)
    · rfl
    · have hsplit := splitOnce_number hnumber ""
      rw [String.append_empty] at hsplit
      unfold unnumberedTitle
      rw [hsplit]
      simp only [hnumber]
      rw [if_pos ⟨hone, hnine⟩]

/-! ## Displaying a title again -/

theorem charCount_number {slot : Nat} (hslot : slot < codexTaskSlots) :
    charCount (toString (slot + 1) ++ " — ") = 4 := by
  revert slot
  decide

/-- The two ways a title is displayed. -/
theorem displayTaskTitle_eq {slot : Nat} (hslot : slot < codexTaskSlots) (title : String) :
    displayTaskTitle slot title =
      if unnumberedTitle title = "" then toString (slot + 1)
      else numbered slot (takeChars 156 (unnumberedTitle title)) := by
  unfold displayTaskTitle numbered
  rw [if_neg (Nat.not_le_of_lt hslot)]
  simp only [charCount_number hslot]

/-- A displayed title fits the strip. -/
theorem charCount_displayTaskTitle {slot : Nat} (hslot : slot < codexTaskSlots)
    (title : String) : charCount (displayTaskTitle slot title) ≤ 160 := by
  have hnumber := charCount_number hslot
  rw [displayTaskTitle_eq hslot]
  unfold charCount at hnumber ⊢
  split
  · rw [String.toList_append, List.length_append] at hnumber
    omega
  · unfold numbered
    rw [String.toList_append, List.length_append, hnumber, Json.toList_takeChars,
      List.length_take]
    omega

/-- Displaying a title with a text of its own leaves the text to be displayed. -/
theorem unnumberedTitle_display {slot : Nat} (hslot : slot < codexTaskSlots) {title : String}
    (htext : unnumberedTitle title ≠ "") :
    unnumberedTitle (displayTaskTitle slot title) = takeChars 156 (unnumberedTitle title) := by
  rw [displayTaskTitle_eq hslot, if_neg htext, unnumberedTitle_numbered hslot]

theorem displayTaskTitle_display {first slot : Nat} (hfirst : first < codexTaskSlots)
    (hslot : slot < codexTaskSlots) {title : String} (htext : unnumberedTitle title ≠ "") :
    displayTaskTitle slot (displayTaskTitle first title) = displayTaskTitle slot title := by
  have hcut : takeChars 156 (unnumberedTitle title) ≠ "" :=
    Json.takeChars_ne_empty (by omega) htext
  rw [displayTaskTitle_eq hslot, unnumberedTitle_display hfirst htext, if_neg hcut,
    Json.takeChars_takeChars, displayTaskTitle_eq hslot, if_neg htext]

/-- A title after it has been displayed at some slots, one after the other. -/
def replayed (slots : List Nat) (title : String) : String :=
  slots.foldl (fun title slot => displayTaskTitle slot title) title

/-- Whatever the displays before it, a display shows what it would have shown at first, within
the limit of the strip. -/
def DisplaysStably (title : String) : Prop :=
  ∀ slots : List Nat, (∀ slot ∈ slots, slot < codexTaskSlots) → ∀ slot < codexTaskSlots,
    displayTaskTitle slot (replayed slots title) = displayTaskTitle slot title ∧
      charCount (displayTaskTitle slot title) ≤ 160

/-- A title is stable under displays exactly when it has a text of its own. -/
theorem displaysStably_iff (title : String) :
    DisplaysStably title ↔ title ≠ "" ∧ ¬BareNumber title := by
  rw [← not_or, ← unnumberedTitle_eq_empty_iff]
  constructor
  · intro hstable hempty
    have htwice := (hstable [0] (by simp [codexTaskSlots]) 0 (by decide)).1
    have hone : displayTaskTitle 0 title = "1" := by
      rw [displayTaskTitle_eq (by decide), if_pos hempty]
      rfl
    have hagain : displayTaskTitle 0 "1" ≠ "1" := by decide
    rw [replayed, List.foldl_cons, List.foldl_nil, hone] at htwice
    exact hagain htwice
  · intro htext slots hslots slot hslot
    refine ⟨?_, charCount_displayTaskTitle hslot title⟩
    induction slots generalizing title with
    | nil => rfl
    | cons first slots ih =>
        have hfirst := hslots first List.mem_cons_self
        have hcut : unnumberedTitle (displayTaskTitle first title) ≠ "" := by
          rw [unnumberedTitle_display hfirst htext]
          exact Json.takeChars_ne_empty (by omega) htext
        calc displayTaskTitle slot (replayed (first :: slots) title)
            = displayTaskTitle slot (replayed slots (displayTaskTitle first title)) := rfl
          _ = displayTaskTitle slot (displayTaskTitle first title) :=
              ih _ hcut fun slot hmem => hslots slot (List.mem_cons_of_mem _ hmem)
          _ = displayTaskTitle slot title := displayTaskTitle_display hfirst hslot htext

/-- The number an empty title is displayed as becomes its text. -/
theorem empty_title_accumulates :
    displayTaskTitle 1 (displayTaskTitle 0 "") = "2 — 1" ∧ displayTaskTitle 1 "" = "2" ∧
      ¬DisplaysStably "" := by
  refine ⟨by decide, by decide, fun hstable => ?_⟩
  have htwice := (hstable [0] (by simp [codexTaskSlots]) 1 (by decide)).1
  revert htwice
  decide

end Tasks
end MicroEmu
