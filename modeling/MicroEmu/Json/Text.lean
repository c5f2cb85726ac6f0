import MicroEmu.Json
import MicroEmu.Library.Utf8

/-!
# Facts about the text helpers

What splitting a text at a separator, reading a number and cutting a text to a number of
characters do, and what a lookup finds after a field was inserted.
-/

namespace MicroEmu
namespace Json

/-! ## Fields -/

theorem any_key_eq_false_iff (fields : List (String × Value)) (key : String) :
    fields.any (·.1 == key) = false ↔ fields.lookup key = none := by
  rw [List.lookup_eq_none_iff, List.any_eq_false]
  refine forall₂_congr fun field _ => ?_
  rw [Bool.not_eq_true, beq_eq_false_iff_ne, bne_iff_ne, ne_comm]

theorem lookup_insertField (fields : List (String × Value)) (key other : String) (value : Value) :
    (insertField fields key value).lookup other =
      if other = key then some value else fields.lookup other := by
  by_cases hother : other = key
  · subst hother
    rw [if_pos rfl]
    unfold insertField
    by_cases hpresent : fields.any (·.1 == other) = true
    · rw [if_pos hpresent]
      induction fields with
      | nil => cases hpresent
      | cons field fields ih =>
          rw [List.map_cons, List.lookup_cons]
          by_cases hname : field.1 = other
          · simp [hname]
          · have hlater : fields.any (·.1 == other) = true := by
              simpa [hname] using hpresent
            have hne : (other == field.1) = false := by
              simpa using fun h : other = field.1 => hname h.symm
            simp only [beq_eq_false_iff_ne.mpr hname, Bool.false_eq_true, if_false, hne]
            exact ih hlater
    · rw [if_neg hpresent]
      have hnone : fields.lookup other = none :=
        (any_key_eq_false_iff fields other).mp (Bool.not_eq_true _ ▸ hpresent)
      simp [List.lookup_append, hnone]
  · rw [if_neg hother, lookup_insertField_of_ne fields value hother]

/-! ## Splitting a text -/

/-- The first separator is the one after a text without its first character. -/
theorem splitOnceChars_append {separator front : List Char} {c : Char} (rest : List Char)
    (hhead : separator.head? = some c) (hfront : c ∉ front) :
    splitOnceChars separator (front ++ (separator ++ rest)) = some (front, rest) := by
  obtain ⟨tail, rfl⟩ := List.head?_eq_some_iff.mp hhead
  induction front with
  | nil =>
      have hstart : (c :: tail).isPrefixOf (c :: (tail ++ rest)) = true := by simp
      rw [List.nil_append, List.cons_append, splitOnceChars, if_pos hstart]
      simp
  | cons d front ih =>
      have hne : (c == d) = false := by
        simp only [beq_eq_false_iff_ne]
        rintro rfl
        exact hfront List.mem_cons_self
      have hstart : (c :: tail).isPrefixOf (d :: (front ++ (c :: tail ++ rest))) = false := by
        simp [List.isPrefixOf, hne]
      rw [List.cons_append, splitOnceChars, hstart, if_neg Bool.false_ne_true,
        ih fun hmem => hfront (List.mem_cons_of_mem _ hmem)]
      rfl

/-- The parts are the text around a separator. -/
theorem splitOnceChars_sound {separator text front rest : List Char}
    (h : splitOnceChars separator text = some (front, rest)) :
    text = front ++ (separator ++ rest) := by
  induction text generalizing front with
  | nil =>
      rw [splitOnceChars] at h
      split at h
      next hempty =>
        obtain rfl := List.isEmpty_iff.mp hempty
        cases h
        rfl
      · cases h
  | cons c text ih =>
      rw [splitOnceChars] at h
      split at h
      next hstart =>
        obtain ⟨tail, htail⟩ := List.isPrefixOf_iff_prefix.mp hstart
        cases h
        rw [← htail]
        simp
      · obtain ⟨⟨front', rest'⟩, hsplit, heq⟩ := Option.map_eq_some_iff.mp h
        cases heq
        rw [ih hsplit, List.cons_append]

/-! ## Numbers in a text -/

theorem digitValue_lt {radix value : Nat} {c : Char} (h : digitValue radix c = some value) :
    value < radix := by
  unfold digitValue at h
  exact of_decide_eq_true (Option.filter_eq_some_iff.mp h).2

/-- Reading one more digit. -/
theorem foldlM_digits_cons {radix start n : Nat} {d : Char} {digits : List Char} :
    (d :: digits).foldlM (fun acc c => (digitValue radix c).map (acc * radix + ·)) start = some n ↔
      ∃ value, digitValue radix d = some value ∧
        digits.foldlM (fun acc c => (digitValue radix c).map (acc * radix + ·))
          (start * radix + value) = some n := by
  rw [List.foldlM_cons]
  cases digitValue radix d <;> simp

theorem foldlM_of_parseDigits {radix n : Nat} {digits : List Char}
    (h : parseDigits radix digits = some n) :
    digits.foldlM (fun acc c => (digitValue radix c).map (acc * radix + ·)) 0 = some n := by
  unfold parseDigits at h
  split at h
  · cases h
  · exact h

/-- Every character of a number is a digit. -/
theorem digits_of_parseDigits {radix n : Nat} {digits : List Char}
    (h : parseDigits radix digits = some n) :
    ∀ c ∈ digits, (digitValue radix c).isSome = true := by
  have hfold : ∀ {digits : List Char} {start : Nat},
      digits.foldlM (fun acc c => (digitValue radix c).map (acc * radix + ·)) start = some n →
        ∀ c ∈ digits, (digitValue radix c).isSome = true := by
    intro digits
    induction digits with
    | nil => simp
    | cons d digits ih =>
        intro start hall c hc
        obtain ⟨value, hvalue, hrest⟩ := foldlM_digits_cons.mp hall
        rcases List.mem_cons.mp hc with rfl | hc
        · simp [hvalue]
        · exact ih hrest c hc
  exact hfold (foldlM_of_parseDigits h)

/-- A number is bounded by the number of its digits. -/
theorem parseDigits_lt {radix n : Nat} {digits : List Char}
    (h : parseDigits radix digits = some n) : n < radix ^ digits.length := by
  have hfold : ∀ {digits : List Char} {start : Nat},
      digits.foldlM (fun acc c => (digitValue radix c).map (acc * radix + ·)) start = some n →
        n < (start + 1) * radix ^ digits.length := by
    intro digits
    induction digits with
    | nil =>
        intro start hall
        obtain rfl : start = n := by simpa using hall
        simp
    | cons d digits ih =>
        intro start hall
        obtain ⟨value, hvalue, hrest⟩ := foldlM_digits_cons.mp hall
        have hlt := digitValue_lt hvalue
        have hstep : start * radix + value + 1 ≤ (start + 1) * radix := by
          rw [Nat.succ_mul]
          omega
        calc n < (start * radix + value + 1) * radix ^ digits.length := ih hrest
          _ ≤ (start + 1) * radix * radix ^ digits.length := Nat.mul_le_mul_right _ hstep
          _ = (start + 1) * radix ^ (d :: digits).length := by
              rw [List.length_cons, pow_succ']
              ring
  simpa using hfold (foldlM_of_parseDigits h)

/-- A number has no blank in it. -/
theorem blank_notMem_of_parseUnsigned {limit n : Nat} {number : String}
    (h : parseUnsigned 10 limit number = some n) : ' ' ∉ number.toList := by
  have hblank : (digitValue 10 ' ').isSome = false := by decide
  have hdigits : ∀ {digits : List Char}, parseDigits 10 digits = some n → ' ' ∉ digits := by
    intro digits hparse hmem
    have hdigit := digits_of_parseDigits hparse ' ' hmem
    rw [hblank] at hdigit
    cases hdigit
  have hparse := (Option.filter_eq_some_iff.mp h).1
  split at hparse
  next rest hplus =>
    rw [hplus]
    simp [hdigits hparse]
  · exact hdigits hparse

/-- A text has no more characters than bytes. -/
theorem charCount_le_utf8ByteSize (text : String) : charCount text ≤ text.utf8ByteSize := by
  have hchars : ∀ chars : List Char,
      chars.length ≤ (chars.flatMap String.utf8EncodeChar).length := by
    intro chars
    induction chars with
    | nil => simp
    | cons c chars ih =>
        have hpos := c.utf8Size_pos
        rw [List.flatMap_cons, List.length_append, String.length_utf8EncodeChar, List.length_cons]
        omega
  have hbytes : text.utf8ByteSize = (Library.encodeUtf8 text).length := rfl
  rw [hbytes, Library.encodeUtf8_eq_flatMap]
  exact hchars text.toList

theorem parseUnsigned_lt {radix limit n : Nat} {text : String} (hradix : 0 < radix)
    (h : parseUnsigned radix limit text = some n) : n < radix ^ text.utf8ByteSize := by
  have hdigits : ∀ {digits : List Char}, digits.length ≤ text.toList.length →
      parseDigits radix digits = some n → n < radix ^ text.utf8ByteSize := by
    intro digits hlength hparse
    have hcount : text.toList.length ≤ text.utf8ByteSize := charCount_le_utf8ByteSize text
    exact (parseDigits_lt hparse).trans_le (Nat.pow_le_pow_right hradix (hlength.trans hcount))
  have hparse := (Option.filter_eq_some_iff.mp h).1
  split at hparse
  next rest hplus => exact hdigits (by simp [hplus]) hparse
  · exact hdigits le_rfl hparse

/-! ## Cutting a text -/

theorem toList_takeChars (n : Nat) (s : String) : (takeChars n s).toList = s.toList.take n := by
  simp [takeChars]

theorem takeChars_takeChars (n : Nat) (s : String) :
    takeChars n (takeChars n s) = takeChars n s := by
  simp [takeChars, List.take_take]

theorem takeChars_ne_empty {n : Nat} {s : String} (hn : 0 < n) (hs : s ≠ "") :
    takeChars n s ≠ "" := by
  intro hempty
  have htake : s.toList.take n = [] := by
    rw [← toList_takeChars, hempty]
    rfl
  rcases List.take_eq_nil_iff.mp htake with hzero | hnil
  · omega
  · exact hs (String.toList_eq_nil_iff.mp hnil)

theorem charCount_takeChars_le (n : Nat) (text : String) :
    charCount (takeChars n text) ≤ n := by
  simp [charCount, takeChars]

end Json
end MicroEmu
