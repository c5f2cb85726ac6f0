import Mathlib.Logic.Function.Iterate

/-!
# Checksums from a shift register

A register takes the bits of a message in at its top, one before each shift, and a polynomial
is put on it whenever a one is shifted out.  A shift is linear over exclusive or, and loses
nothing if the polynomial is odd.  As many bits as the register holds may be put in at once
before the shifts, so messages that differ in no more bits than that leave different registers.
-/

namespace MicroEmu
namespace Library

universe u

/-- Two lists agree before a window and behind it. -/
def AgreeOutside {α : Type u} (start size : Nat) (first second : List α) : Prop :=
  first.take start = second.take start ∧ first.drop (start + size) = second.drop (start + size)

instance {α : Type u} [DecidableEq α] (start size : Nat) (first second : List α) :
    Decidable (AgreeOutside start size first second) :=
  inferInstanceAs (Decidable (_ ∧ _))

namespace ShiftRegister

variable {width : Nat} (polynomial : BitVec width)

/-- One shift. -/
def shift (register : BitVec width) : BitVec width :=
  if register.msb then (register <<< 1) ^^^ polynomial else register <<< 1

/-- Bits at the top of a register, the first one highest. -/
def top (width : Nat) (bits : List Bool) : BitVec width :=
  (BitVec.ofBoolListBE bits).setWidth width <<< (width - bits.length)

/-- A bit goes in, and the register is shifted. -/
def feed (register : BitVec width) (bit : Bool) : BitVec width :=
  shift polynomial (register ^^^ top width [bit])

/-- The register behind a message. -/
def feedAll (register : BitVec width) (bits : List Bool) : BitVec width :=
  bits.foldl (feed polynomial) register

variable {polynomial} {bits : List Bool}

/-! ## The top of the register -/

theorem getMsbD_top (h : bits.length ≤ width) (position : Nat) :
    (top width bits).getMsbD position = bits.getD position false := by
  have hwindow : width - bits.length ≤ position + (width - bits.length) := Nat.le_add_left ..
  have hposition : position + (width - bits.length) + bits.length - width = position := by omega
  rw [top, BitVec.getMsbD_shiftLeft, BitVec.getMsbD_setWidth, BitVec.getMsbD_ofBoolListBE,
    decide_eq_true hwindow, Bool.true_and, hposition]

theorem top_nil : top width [] = 0 := by
  apply BitVec.eq_of_getMsbD_eq
  intro position _
  rw [getMsbD_top (Nat.zero_le _), List.getD_nil]
  exact BitVec.getMsbD_zero.symm

/-- The first bit on top of the others, which stand one place lower. -/
theorem top_cons {bit : Bool} (h : (bit :: bits).length ≤ width) :
    top width (bit :: bits) = top width [bit] ^^^ (top width bits >>> 1) := by
  have hone : [bit].length ≤ width := Nat.le_trans (Nat.succ_le_succ (Nat.zero_le _)) h
  apply BitVec.eq_of_getMsbD_eq
  intro position hlt
  rw [BitVec.getMsbD_xor, BitVec.getMsbD_ushiftRight, getMsbD_top h, getMsbD_top hone,
    getMsbD_top (Nat.le_of_succ_le h), decide_eq_true hlt, Bool.true_and]
  cases position with
  | zero => simp
  | succ position => simp

theorem top_injective {first second : List Bool} (hlength : first.length = second.length)
    (hfits : first.length ≤ width) (h : top width first = top width second) :
    first = second := by
  refine List.ext_getElem hlength fun position hfirst hsecond => ?_
  have hbit := congrArg (·.getMsbD position) h
  simpa [getMsbD_top hfits, getMsbD_top (hlength ▸ hfits), hfirst, hsecond] using hbit

/-! ## One shift -/

/-- A shift is linear. -/
theorem shift_xor (first second : BitVec width) :
    shift polynomial (first ^^^ second) = shift polynomial first ^^^ shift polynomial second := by
  unfold shift
  rw [BitVec.msb_xor, BitVec.shiftLeft_xor_distrib]
  cases first.msb <;> cases second.msb
  · rfl
  · exact BitVec.xor_assoc ..
  · simp only [Bool.xor_false, if_true, Bool.false_eq_true, if_false]
    rw [BitVec.xor_assoc, BitVec.xor_assoc, BitVec.xor_comm (second <<< 1)]
  · simp only [Bool.xor_self, if_true, Bool.false_eq_true, if_false]
    rw [BitVec.xor_assoc, BitVec.xor_comm (second <<< 1), ← BitVec.xor_assoc polynomial,
      BitVec.xor_self, BitVec.zero_xor]

/-- With an odd polynomial only nothing is shifted to nothing. -/
theorem eq_zero_of_shift (hodd : polynomial.getLsbD 0 = true) {register : BitVec width}
    (h : shift polynomial register = 0) : register = 0 := by
  unfold shift at h
  split at h
  next hmsb =>
    have hlow := congrArg (·.getLsbD 0) h
    simp [hodd] at hlow
  next hmsb =>
    apply BitVec.eq_of_getMsbD_eq
    intro position hlt
    cases position with
    | zero =>
        rw [← BitVec.msb_eq_getMsbD_zero]
        simpa using hmsb
    | succ position =>
        have hbit := congrArg (·.getMsbD position) h
        simpa using hbit

theorem shift_injective (hodd : polynomial.getLsbD 0 = true) :
    Function.Injective (shift polynomial) := by
  intro first second h
  have hzero : shift polynomial (first ^^^ second) = 0 := by
    rw [shift_xor, h]
    exact BitVec.xor_self
  exact BitVec.xor_eq_zero_iff.mp (eq_zero_of_shift hodd hzero)

/-- A shift takes back a move to the right that has lost nothing. -/
theorem shift_ushiftRight {register : BitVec width} (h : register.getMsbD (width - 1) = false) :
    shift polynomial (register >>> 1) = register := by
  have hmsb : (register >>> 1).msb = false := by simp
  rw [shift, if_neg (by simp [hmsb])]
  apply BitVec.eq_of_getMsbD_eq
  intro position hlt
  rw [BitVec.getMsbD_shiftLeft, BitVec.getMsbD_ushiftRight]
  by_cases hlast : position + 1 < width
  · simp [hlast]
  · obtain rfl : position = width - 1 := by omega
    simp [h, hlast]

/-! ## Messages -/

/-- Bits that fit into the register may go in at once. -/
theorem feedAll_eq (register : BitVec width) (h : bits.length ≤ width) :
    feedAll polynomial register bits =
      (shift polynomial)^[bits.length] (register ^^^ top width bits) := by
  induction bits generalizing register with
  | nil =>
      rw [top_nil]
      exact BitVec.xor_zero.symm
  | cons bit bits ih =>
      have hlast : (top width bits).getMsbD (width - 1) = false := by
        rw [getMsbD_top (Nat.le_of_succ_le h)]
        have hbeyond : bits.length ≤ width - 1 := Nat.le_sub_one_of_lt h
        simp [hbeyond]
      calc feedAll polynomial register (bit :: bits)
          = feedAll polynomial (feed polynomial register bit) bits := rfl
        _ = (shift polynomial)^[bits.length]
              (feed polynomial register bit ^^^ top width bits) := ih _ (Nat.le_of_succ_le h)
        _ = (shift polynomial)^[bits.length] (shift polynomial
              (register ^^^ top width [bit] ^^^ (top width bits >>> 1))) := by
            rw [shift_xor, shift_ushiftRight hlast, feed]
        _ = (shift polynomial)^[(bit :: bits).length] (register ^^^ top width (bit :: bits)) := by
            rw [top_cons h, ← BitVec.xor_assoc, List.length_cons, Function.iterate_succ_apply]

theorem feedAll_append (register : BitVec width) (first second : List Bool) :
    feedAll polynomial register (first ++ second) =
      feedAll polynomial (feedAll polynomial register first) second :=
  List.foldl_append

/-- The same bits keep registers apart. -/
theorem feedAll_injective (hodd : polynomial.getLsbD 0 = true) (bits : List Bool) :
    Function.Injective (feedAll polynomial · bits) := by
  induction bits with
  | nil => exact fun _ _ h => h
  | cons bit bits ih =>
      intro first second h
      exact (BitVec.xor_left_inj _).mp (shift_injective hodd (ih h))

/-- Different bits that fit into a register leave different registers. -/
theorem eq_of_feedAll_eq (hodd : polynomial.getLsbD 0 = true) {register : BitVec width}
    {first second : List Bool} (hlength : first.length = second.length)
    (hfits : first.length ≤ width)
    (h : feedAll polynomial register first = feedAll polynomial register second) :
    first = second := by
  rw [feedAll_eq register hfits, feedAll_eq register (hlength ▸ hfits), ← hlength] at h
  exact top_injective hlength hfits
    ((BitVec.xor_right_inj _).mp ((shift_injective hodd).iterate _ h))

/-- Messages that differ in a burst no longer than the register leave different registers. -/
theorem feedAll_ne_of_burst (hodd : polynomial.getLsbD 0 = true) (register : BitVec width)
    {first second : List Bool} {start size : Nat} (hsize : size ≤ width)
    (hlength : first.length = second.length) (hburst : AgreeOutside start size first second)
    (hne : first ≠ second) :
    feedAll polynomial register first ≠ feedAll polynomial register second := by
  intro h
  obtain ⟨hfront, hback⟩ := hburst
  have hparts : ∀ message : List Bool, message = message.take start ++
      ((message.drop start).take size ++ message.drop (start + size)) := by
    intro message
    rw [← List.drop_drop, List.take_append_drop, List.take_append_drop]
  have hwindows : ((first.drop start).take size).length =
      ((second.drop start).take size).length := by simp [hlength]
  rw [hparts first, hparts second, feedAll_append, feedAll_append, feedAll_append, feedAll_append,
    hfront, hback] at h
  have hsame := eq_of_feedAll_eq hodd hwindows (Nat.le_trans (List.length_take_le ..) hsize)
    (feedAll_injective hodd _ h)
  refine hne ?_
  rw [hparts first, hparts second, hfront, hsame, hback]

end ShiftRegister

end Library
end MicroEmu
