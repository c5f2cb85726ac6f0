import MicroEmu.Wire.Reference

/-!
# The decoder computes the reference scan

The loop body of `FrameDecoder::feed` decides on a candidate as the reference does, so
the results of a stream do not depend on how it is cut.
-/

namespace MicroEmu
namespace Wire

open Library (Verdict Scanner Cursor findPair_eq_none_iff findPair_append)

theorem findMagic_of_noise {bytes : List UInt8} (h : Noise bytes) : findMagic bytes = none :=
  findPair_eq_none_iff.mpr h

theorem findMagic_append {noise : List UInt8} (h : Noise noise) (body : List UInt8) :
    findMagic (noise ++ (magic ++ body)) = some noise.length :=
  findPair_append (by decide) (findMagic_of_noise h) body

/-- What `feed` returns for it. -/
def Outcome.result : Outcome → Except WireError Frame
  | .unsupportedVersion version => .error (.unsupportedVersion version)
  | .payloadTooLarge length => .error (.payloadTooLarge length.toNat)
  | .crcMismatch expected actual => .error (.crcMismatch expected actual)
  | .frame typeByte sequence payload =>
      (FrameType.tryFrom typeByte).map fun frameType => ⟨frameType, sequence, payload⟩

theorem inspect_eq_judge (candidate : List UInt8) :
    inspect candidate = (judge candidate).map Outcome.result := by
  have htotal (length : Nat) : headerBytes + length + crcBytes - crcBytes = headerBytes + length :=
    Nat.add_sub_cancel _ _
  unfold inspect judge
  simp only [htotal]
  split
  · rfl
  · split
    · rfl
    · split
      · rfl
      · split
        · rfl
        · split <;> rfl

/-- What the decoder keeps of noise. -/
def lastMagic (last : Option UInt8) : List UInt8 := if last = some 0x43 then [0x43] else []

theorem look_of_noise {buffer : List UInt8} (h : Noise buffer) :
    look buffer = .wait (lastMagic buffer.getLast?) := by
  rw [look, findMagic_of_noise h, lastMagic]
  show (if buffer.getLast? = some 0x43 then _ else _) = _
  by_cases hlast : buffer.getLast? = some 0x43
  · obtain ⟨front, rfl⟩ := List.getLast?_eq_some_iff.mp hlast
    rw [if_pos hlast, if_pos hlast, List.length_append, List.length_singleton,
      Nat.add_sub_cancel, List.drop_left]
  · rw [if_neg hlast, if_neg hlast]

theorem look_candidate {noise candidate : List UInt8} {verdict : Verdict UInt8 Outcome}
    (hnoise : Noise noise) (h : Decision candidate verdict) :
    look (noise ++ candidate) = verdict.map Outcome.result := by
  obtain ⟨body, rfl⟩ := h.exists_body
  rw [look, findMagic_append hnoise, ← judge_eq h, ← inspect_eq_judge]
  exact congrArg inspect (List.drop_left' rfl)

theorem decoder_reads : Reads decoder lastMagic Outcome.result where
  keep_none := rfl
  keep_magic := rfl
  keep_some := by
    intro byte
    rw [lastMagic]
    split
    next h =>
      obtain rfl := Option.some.inj h
      exact .inl rfl
    · exact .inr rfl
  noise := look_of_noise
  candidate := look_candidate

/-- However a stream is cut, the decoder returns what its reference scan reports, and
resumes at the same positions; it keeps less than one frame between chunks, and its loop
ends. -/
theorem feed_reference_scan (chunks : List (List UInt8)) :
    (∃ outcomes, ReferenceScan 0 chunks.flatten outcomes) ∧
    (∀ outcomes, ReferenceScan 0 chunks.flatten outcomes →
      (FrameDecoder.feedAll chunks .start).1 =
        outcomes.map fun found => (found.1.result, found.2)) ∧
    ∀ (state : FrameDecoder) (bytes : List UInt8),
      (state.feed bytes).2.buffer.length < 74 ∧
      ∃ turns, decoder.turns turns ⟨state.position, state.buffer ++ bytes⟩ =
        some (state.feed bytes) := by
  refine ⟨exists_referenceScan 0 _, fun outcomes h => decoder_reads.feedAll_eq chunks h, ?_⟩
  intro state bytes
  exact ⟨decoder_reads.length_feed_lt state bytes, _,
    decoder.turns_eq_scan (Nat.lt_succ_self _)⟩

end Wire
end MicroEmu
