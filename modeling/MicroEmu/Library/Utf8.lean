import Mathlib.Data.List.Basic
import Mathlib.Data.List.Induction

/-!
# Texts and their bytes

A list of bytes is a text if it is valid UTF-8, and then it is one text.  An encoded
character ends with the newline byte only if it is the newline, so the last byte of a
text says whether its last character is one.
-/

namespace MicroEmu
namespace Library

/-- The text that some bytes encode. -/
def decodeUtf8 (bytes : List UInt8) : Option String :=
  String.fromUTF8? ⟨bytes.toArray⟩

/-- The bytes of a text. -/
def encodeUtf8 (text : String) : List UInt8 := text.toByteArray.data.toList

theorem encodeUtf8_of_decodeUtf8 {bytes : List UInt8} {text : String}
    (h : decodeUtf8 bytes = some text) : encodeUtf8 text = bytes := by
  rw [decodeUtf8, String.fromUTF8?] at h
  split at h
  · obtain rfl := Option.some.inj h
    rfl
  · cases h

theorem encodeUtf8_eq_flatMap (text : String) :
    encodeUtf8 text = text.toList.flatMap String.utf8EncodeChar := by
  rw [encodeUtf8, ← String.utf8Encode_toList, List.utf8Encode, List.data_toByteArray]

/-- The high bit of a byte behind the first one is set. -/
theorem continuation_ne_newline (byte : UInt8) : byte ||| 0x80 ≠ 10 := by
  intro h
  have hbit := congrArg (fun b : UInt8 => b.toBitVec.getLsbD 7) h
  simp at hbit

theorem getLast?_utf8EncodeChar_eq_newline_iff (c : Char) :
    (String.utf8EncodeChar c).getLast? = some 10 ↔ c = '\n' := by
  have hpos := c.utf8Size_pos
  have hle := c.utf8Size_le_four
  have hlong (hsize : c.utf8Size ≠ 1) : c ≠ '\n' := fun h => hsize (h ▸ rfl)
  obtain h | h | h | h : c.utf8Size = 1 ∨ c.utf8Size = 2 ∨ c.utf8Size = 3 ∨
      c.utf8Size = 4 := by omega
  · rw [String.utf8EncodeChar_eq_singleton h, List.getLast?_singleton, Option.some.injEq]
    constructor
    · intro hbyte
      have hsmall : c.val.toNat ≤ 127 := UInt32.le_iff_toNat_le.mp (Char.utf8Size_eq_one_iff.mp h)
      have hvalue : c.val.toNat % 256 = 10 := congrArg UInt8.toNat hbyte
      refine Char.ext (UInt32.toNat_inj.mp ?_)
      show c.val.toNat = 10
      omega
    · rintro rfl
      rfl
  · rw [String.utf8EncodeChar_eq_cons_cons h]
    simp [continuation_ne_newline, hlong (by omega)]
  · rw [String.utf8EncodeChar_eq_cons_cons_cons h]
    simp [continuation_ne_newline, hlong (by omega)]
  · rw [String.utf8EncodeChar_eq_cons_cons_cons_cons h]
    simp [continuation_ne_newline, hlong (by omega)]

/-- The last byte of a text is the newline byte exactly if its last character is the
newline. -/
theorem getLast?_encodeUtf8_eq_newline_iff (text : String) :
    (encodeUtf8 text).getLast? = some 10 ↔ text.toList.getLast? = some '\n' := by
  rw [encodeUtf8_eq_flatMap]
  induction text.toList using List.reverseRecOn with
  | nil => simp
  | append_singleton front c _ =>
      have hne : String.utf8EncodeChar c ≠ [] := by
        intro hnil
        have hlength := String.length_utf8EncodeChar c
        rw [hnil, List.length_nil] at hlength
        exact absurd hlength.symm (Nat.ne_of_gt c.utf8Size_pos)
      rw [List.flatMap_append, List.flatMap_singleton, List.getLast?_append_of_ne_nil _ hne,
        List.getLast?_concat, getLast?_utf8EncodeChar_eq_newline_iff, Option.some.injEq]

end Library
end MicroEmu
