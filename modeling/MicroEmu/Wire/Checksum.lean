import MicroEmu.Library.ShiftRegister
import MicroEmu.Wire.Frame

/-!
# The checksum and bursts

The CRC is a shift register of sixteen bits with the polynomial 0x1021, which takes each byte
from its most significant bit on.  The polynomial is odd, so two strings of one length that
differ in a burst of at most sixteen bits have different checksums.
-/

namespace MicroEmu
namespace Wire

open Library (AgreeOutside)
open Library.ShiftRegister

/-! ## Bits -/

/-- The bits of a byte, the most significant one first. -/
def bitsOfByte (byte : UInt8) : List Bool := (List.range 8).map byte.toBitVec.getMsbD

/-- The bits of a string. -/
def bitsOf (bytes : List UInt8) : List Bool := bytes.flatMap bitsOfByte

theorem length_bitsOfByte (byte : UInt8) : (bitsOfByte byte).length = 8 := rfl

theorem getD_bitsOfByte (byte : UInt8) (position : Nat) :
    (bitsOfByte byte).getD position false = byte.toBitVec.getMsbD position := by
  by_cases hlt : position < 8
  · simp [bitsOfByte, hlt]
  · have hbeyond : 8 ≤ position := Nat.not_lt.mp hlt
    rw [BitVec.getMsbD_of_ge _ _ hbeyond]
    simp [bitsOfByte, hbeyond]

theorem bitsOfByte_injective : Function.Injective bitsOfByte := by
  intro first second h
  apply UInt8.toBitVec_inj.mp
  apply BitVec.eq_of_getMsbD_eq
  intro position _
  rw [← getD_bitsOfByte, ← getD_bitsOfByte, h]

theorem bitsOf_cons (byte : UInt8) (bytes : List UInt8) :
    bitsOf (byte :: bytes) = bitsOfByte byte ++ bitsOf bytes := List.flatMap_cons

theorem length_bitsOf (bytes : List UInt8) : (bitsOf bytes).length = 8 * bytes.length := by
  rw [bitsOf, List.length_flatMap]
  simp [length_bitsOfByte, Nat.mul_comm]

theorem bitsOf_injective : Function.Injective bitsOf := by
  intro first second h
  induction first generalizing second with
  | nil =>
      have hlength := congrArg List.length h
      rw [length_bitsOf, length_bitsOf, List.length_nil] at hlength
      exact (List.eq_nil_of_length_eq_zero (by omega)).symm
  | cons byte first ih =>
      cases second with
      | nil =>
          have hlength := congrArg List.length h
          rw [length_bitsOf, length_bitsOf, List.length_nil, List.length_cons] at hlength
          omega
      | cons other second =>
          rw [bitsOf_cons, bitsOf_cons] at h
          obtain ⟨hbyte, hrest⟩ := List.append_inj h rfl
          rw [bitsOfByte_injective hbyte, ih hrest]

/-! ## The register -/

/-- The polynomial. -/
def polynomial : BitVec 16 := 0x1021

theorem toBitVec_crcBit (crc : UInt16) :
    (crcBit crc).toBitVec = shift polynomial crc.toBitVec := by
  have hmask : (crc &&& 0x8000).toBitVec =
      if crc.toBitVec.msb then BitVec.twoPow 16 15 else 0#16 := by
    rw [BitVec.msb_eq_getLsbD_last]
    exact BitVec.and_twoPow crc.toBitVec 15
  have hcondition : crc &&& 0x8000 ≠ 0 ↔ crc.toBitVec.msb = true := by
    rw [ne_eq, ← UInt16.toBitVec_inj, hmask]
    cases crc.toBitVec.msb <;> decide
  unfold crcBit shift
  by_cases hmsb : crc.toBitVec.msb = true
  · rw [if_pos (hcondition.mpr hmsb), if_pos hmsb]
    rfl
  · rw [if_neg (mt hcondition.mp hmsb), if_neg hmsb]
    rfl

/-- A byte stands at the top of the register, where the code puts it. -/
theorem toBitVec_shiftLeft_byte (byte : UInt8) :
    (byte.toUInt16 <<< 8).toBitVec = top 16 (bitsOfByte byte) := by
  apply BitVec.eq_of_getMsbD_eq
  intro position _
  rw [getMsbD_top (by rw [length_bitsOfByte]; decide), getD_bitsOfByte]
  show ((byte.toBitVec.setWidth 16) <<< 8).getMsbD position = _
  rw [BitVec.getMsbD_shiftLeft, BitVec.getMsbD_setWidth, decide_eq_true (by omega),
    Bool.true_and]
  congr 1

theorem toBitVec_crcByte (crc : UInt16) (byte : UInt8) :
    (crcByte crc byte).toBitVec = feedAll polynomial crc.toBitVec (bitsOfByte byte) := by
  rw [feedAll_eq _ (by rw [length_bitsOfByte]; decide), ← toBitVec_shiftLeft_byte,
    length_bitsOfByte]
  simp only [crcByte, toBitVec_crcBit, UInt16.toBitVec_xor]
  rfl

/-- The CRC feeds the bits of the string to the register. -/
theorem toBitVec_crc16Ccitt (bytes : List UInt8) :
    (crc16Ccitt bytes).toBitVec = feedAll polynomial 0xffff (bitsOf bytes) := by
  have hfold : ∀ crc : UInt16, (bytes.foldl crcByte crc).toBitVec =
      feedAll polynomial crc.toBitVec (bitsOf bytes) := by
    induction bytes with
    | nil => exact fun _ => rfl
    | cons byte bytes ih =>
        intro crc
        rw [List.foldl_cons, ih, toBitVec_crcByte, bitsOf_cons, feedAll_append]
  exact hfold 0xffff

/-- A burst of at most sixteen bits changes the CRC. -/
theorem crc16Ccitt_ne_of_burst {first second : List UInt8} {start size : Nat} (hsize : size ≤ 16)
    (hlength : first.length = second.length) (hne : first ≠ second)
    (hburst : AgreeOutside start size (bitsOf first) (bitsOf second)) :
    crc16Ccitt first ≠ crc16Ccitt second := by
  intro h
  have hodd : polynomial.getLsbD 0 = true := rfl
  have hbits : (bitsOf first).length = (bitsOf second).length := by
    rw [length_bitsOf, length_bitsOf, hlength]
  refine feedAll_ne_of_burst hodd 0xffff hsize hbits hburst (bitsOf_injective.ne hne) ?_
  rw [← toBitVec_crc16Ccitt, ← toBitVec_crc16Ccitt, h]

end Wire
end MicroEmu
