import MicroEmu.Wire.Frame
import Mathlib.Data.List.Infix

/-!
# The reference scan of a stream

A stream is noise without a magic pair, then a candidate that starts with one.  What
becomes of the candidate depends on its own bytes only: it is incomplete, it is
reported and skipped, or it is a frame.  The decoder computes this scan of the whole
stream, however the stream is cut.
-/

namespace MicroEmu
namespace Wire

open Library (Verdict Scanner Cursor)

/-! ## Noise -/

/-- No magic pair occurs in it. -/
def Noise (bytes : List UInt8) : Prop := ¬ magic <:+: bytes

instance (bytes : List UInt8) : Decidable (Noise bytes) :=
  inferInstanceAs (Decidable (¬ magic <:+: bytes))

theorem Noise.nil : Noise [] := by decide

theorem Noise.of_length_lt {bytes : List UInt8} (h : bytes.length < 2) : Noise bytes :=
  fun hmagic => absurd hmagic.length_le (Nat.not_le_of_lt h)

theorem Noise.singleton (byte : UInt8) : Noise [byte] :=
  .of_length_lt (Nat.lt_succ_self 1)

theorem magic_prefix_iff {first : UInt8} {rest : List UInt8} :
    magic <+: first :: rest ↔ first = 0x43 ∧ ∃ body, rest = 0x4d :: body := by
  constructor
  · rintro ⟨body, h⟩
    obtain ⟨rfl, rfl⟩ := List.cons.inj h
    exact ⟨rfl, body, rfl⟩
  · rintro ⟨rfl, body, rfl⟩
    exact ⟨body, rfl⟩

theorem Noise.of_cons {first : UInt8} {rest : List UInt8} (h : Noise (first :: rest)) :
    Noise rest :=
  fun hrest => h (List.infix_cons hrest)

theorem Noise.cons {first : UInt8} {rest : List UInt8} (h : Noise rest)
    (hfirst : ¬ (first = 0x43 ∧ ∃ body, rest = 0x4d :: body)) : Noise (first :: rest) := by
  intro hmagic
  rcases List.infix_cons_iff.mp hmagic with hfront | hrest
  · exact hfirst (magic_prefix_iff.mp hfront)
  · exact h hrest

theorem Noise.head {first : UInt8} {rest : List UInt8} (h : Noise (first :: rest)) :
    ¬ (first = 0x43 ∧ ∃ body, rest = 0x4d :: body) :=
  fun hmagic => h (magic_prefix_iff.mpr hmagic).isInfix

theorem Noise.of_append {front back : List UInt8} (h : Noise (front ++ back)) : Noise front :=
  fun hfront => h (hfront.trans (List.prefix_append front back).isInfix)

/-- Noise that overlaps in one byte is noise. -/
theorem Noise.join {front : List UInt8} {byte : UInt8} {back : List UInt8}
    (hfront : Noise (front ++ [byte])) (hback : Noise (byte :: back)) :
    Noise (front ++ byte :: back) := by
  induction front with
  | nil => exact hback
  | cons first rest ih =>
      -- a pair at the head would be one of the front part, which reaches one byte further
      refine (ih hfront.of_cons).cons ?_
      rintro ⟨rfl, body, hbody⟩
      cases rest with
      | nil =>
          obtain ⟨rfl, -⟩ := List.cons.inj hbody
          exact hfront.head ⟨rfl, [], rfl⟩
      | cons second rest =>
          obtain ⟨rfl, -⟩ := List.cons.inj hbody
          exact hfront.head ⟨rfl, rest ++ [byte], rfl⟩

/-- Noise that does not end with the first magic byte can be followed by any byte. -/
theorem Noise.concat {noise : List UInt8} (h : Noise noise) (hlast : noise.getLast? ≠ some 0x43)
    (byte : UInt8) : Noise (noise ++ [byte]) := by
  induction noise with
  | nil => exact .singleton byte
  | cons first rest ih =>
      cases rest with
      | nil =>
          refine (Noise.singleton byte).cons ?_
          rintro ⟨rfl, -⟩
          exact hlast rfl
      | cons second rest =>
          refine (ih h.of_cons hlast).cons ?_
          rintro ⟨rfl, body, hbody⟩
          obtain ⟨rfl, -⟩ := List.cons.inj hbody
          exact h.head ⟨rfl, rest, rfl⟩

/-- A stream is noise, or noise up to its first magic pair. -/
theorem noise_or_magic (stream : List UInt8) :
    Noise stream ∨ ∃ noise body, Noise noise ∧ stream = noise ++ (magic ++ body) := by
  induction stream with
  | nil => exact .inl .nil
  | cons first rest ih =>
      by_cases hfirst : first = 0x43 ∧ ∃ body, rest = 0x4d :: body
      · obtain ⟨rfl, body, rfl⟩ := hfirst
        exact .inr ⟨[], body, .nil, rfl⟩
      · rcases ih with hrest | ⟨noise, body, hnoise, rfl⟩
        · exact .inl (hrest.cons hfirst)
        · refine .inr ⟨first :: noise, body, hnoise.cons ?_, rfl⟩
          rintro ⟨rfl, tail, rfl⟩
          exact hfirst ⟨rfl, tail ++ (magic ++ body), rfl⟩

/-! ## Candidates -/

/-- What is reported of a candidate. -/
inductive Outcome where
  | unsupportedVersion (version : UInt8)
  | payloadTooLarge (length : UInt16)
  | crcMismatch (expected actual : UInt16)
  | frame (typeByte : UInt8) (sequence : UInt16) (payload : List UInt8)
  deriving DecidableEq, Repr

/-- The header of a candidate with the right version. -/
def header (typeByte : UInt8) (sequence length : UInt16) : List UInt8 :=
  magic ++ version :: typeByte :: toLeBytes sequence ++ toLeBytes length

/-- What becomes of a candidate. -/
inductive Decision : List UInt8 → Verdict UInt8 Outcome → Prop where
  | shortHeader {body} (hheader : body.length < 6) :
      Decision (magic ++ body) (.wait (magic ++ body))
  | badVersion {other rest} (hheader : 5 ≤ rest.length) (hversion : other ≠ version) :
      Decision (magic ++ other :: rest)
        (.emit (.unsupportedVersion other) ((magic ++ other :: rest).drop 2))
  | oversized {typeByte sequence length rest} (hlength : maxPayload < length.toNat) :
      Decision (header typeByte sequence length ++ rest)
        (.emit (.payloadTooLarge length)
          ((header typeByte sequence length ++ rest).drop 2))
  | shortFrame {typeByte sequence length body} (hlength : length.toNat ≤ maxPayload)
      (hbody : body.length < length.toNat + crcBytes) :
      Decision (header typeByte sequence length ++ body)
        (.wait (header typeByte sequence length ++ body))
  | badCrc {typeByte sequence payload expected rest} (hpayload : payload.length ≤ maxPayload)
      (hcrc : crc16Ccitt (headed typeByte sequence payload) ≠ expected) :
      Decision (headed typeByte sequence payload ++ toLeBytes expected ++ rest)
        (.emit (.crcMismatch expected (crc16Ccitt (headed typeByte sequence payload)))
          ((headed typeByte sequence payload ++ toLeBytes expected ++ rest).drop 1))
  | frame {typeByte sequence payload rest} (hpayload : payload.length ≤ maxPayload) :
      Decision (encoded typeByte sequence payload ++ rest)
        (.emit (.frame typeByte sequence payload) rest)

theorem length_header (typeByte : UInt8) (sequence length : UInt16) :
    (header typeByte sequence length).length = headerBytes := rfl

theorem length_headed (typeByte : UInt8) (sequence : UInt16) (payload : List UInt8) :
    (headed typeByte sequence payload).length = payload.length + 8 := by
  simp only [headed, magic, toLeBytes, List.length_append, List.length_cons, List.length_nil]
  omega

theorem length_encoded (typeByte : UInt8) (sequence : UInt16) (payload : List UInt8) :
    (encoded typeByte sequence payload).length = payload.length + 10 := by
  simp only [encoded, toLeBytes, List.length_append, length_headed, List.length_cons,
    List.length_nil]

theorem toNat_length {payload : List UInt8} (h : payload.length ≤ maxPayload) :
    (UInt16.ofNat payload.length).toNat = payload.length := by
  rw [maxPayload] at h
  rw [UInt16.toNat_ofNat']
  omega

/-- The computation of a decision. -/
def judge (candidate : List UInt8) : Verdict UInt8 Outcome :=
  if candidate.length < headerBytes then .wait candidate
  else if byteAt candidate 2 ≠ version then
    .emit (.unsupportedVersion (byteAt candidate 2)) (candidate.drop 2)
  else
    let length := fromLeBytes (byteAt candidate 6) (byteAt candidate 7)
    if length.toNat > maxPayload then .emit (.payloadTooLarge length) (candidate.drop 2)
    else if candidate.length < headerBytes + length.toNat + crcBytes then .wait candidate
    else
      let expected := fromLeBytes (byteAt candidate (headerBytes + length.toNat))
        (byteAt candidate (headerBytes + length.toNat + 1))
      let actual := crc16Ccitt (candidate.take (headerBytes + length.toNat))
      if actual ≠ expected then .emit (.crcMismatch expected actual) (candidate.drop 1)
      else
        .emit (.frame (byteAt candidate 3) (fromLeBytes (byteAt candidate 4) (byteAt candidate 5))
            ((candidate.drop headerBytes).take length.toNat))
          (candidate.drop (headerBytes + length.toNat + crcBytes))

theorem judge_shortHeader {body : List UInt8} (h : body.length < 6) :
    judge (magic ++ body) = .wait (magic ++ body) := by
  rw [judge, if_pos]
  show body.length + 1 + 1 < 8
  omega

theorem judge_badVersion {other : UInt8} {rest : List UInt8} (hheader : 5 ≤ rest.length)
    (hversion : other ≠ version) :
    judge (magic ++ other :: rest) =
      .emit (.unsupportedVersion other) ((magic ++ other :: rest).drop 2) := by
  have hlength : ¬ (magic ++ other :: rest).length < headerBytes := by
    show ¬ rest.length + 1 + 1 + 1 < 8
    omega
  rw [judge, if_neg hlength, if_pos (show byteAt (magic ++ other :: rest) 2 ≠ version from
    hversion)]
  rfl

/-- What is left to decide after a header with the right version. -/
theorem judge_header (typeByte : UInt8) (sequence length : UInt16) (rest : List UInt8) :
    judge (header typeByte sequence length ++ rest) =
      if length.toNat > maxPayload then
        .emit (.payloadTooLarge length)
          ((header typeByte sequence length ++ rest).drop 2)
      else if rest.length < length.toNat + crcBytes then
        .wait (header typeByte sequence length ++ rest)
      else
        let expected := fromLeBytes (byteAt rest length.toNat) (byteAt rest (length.toNat + 1))
        let actual :=
          crc16Ccitt (header typeByte sequence length ++ rest.take length.toNat)
        if actual ≠ expected then
          .emit (.crcMismatch expected actual)
            ((header typeByte sequence length ++ rest).drop 1)
        else
          .emit (.frame typeByte sequence (rest.take length.toNat))
            (rest.drop (length.toNat + crcBytes)) := by
  have hlong : ¬ (header typeByte sequence length ++ rest).length < headerBytes := by
    show ¬ rest.length + 1 + 1 + 1 + 1 + 1 + 1 + 1 + 1 < 8
    omega
  have hversion : ¬ byteAt (header typeByte sequence length ++ rest) 2 ≠ version :=
    not_not_intro rfl
  have hlengths : fromLeBytes (byteAt (header typeByte sequence length ++ rest) 6)
      (byteAt (header typeByte sequence length ++ rest) 7) = length :=
    fromLeBytes_toLeBytes length
  have hsequence : fromLeBytes (byteAt (header typeByte sequence length ++ rest) 4)
      (byteAt (header typeByte sequence length ++ rest) 5) = sequence :=
    fromLeBytes_toLeBytes sequence
  have htype : byteAt (header typeByte sequence length ++ rest) 3 = typeByte := rfl
  have hbody (index : Nat) :
      byteAt (header typeByte sequence length ++ rest) (headerBytes + index) =
        byteAt rest index := by
    rw [Nat.add_comm]
    rfl
  have hheader := length_header typeByte sequence length
  have htake : (header typeByte sequence length ++ rest).take (headerBytes + length.toNat) =
      header typeByte sequence length ++ rest.take length.toNat := by
    rw [← hheader, List.take_length_add_append]
  have hpayload : (header typeByte sequence length ++ rest).drop headerBytes = rest := rfl
  have hrest : (header typeByte sequence length ++ rest).drop
      (headerBytes + length.toNat + crcBytes) = rest.drop (length.toNat + crcBytes) := by
    rw [← hheader, Nat.add_assoc, List.drop_length_add_append]
  have hshort : (header typeByte sequence length ++ rest).length <
      headerBytes + length.toNat + crcBytes ↔ rest.length < length.toNat + crcBytes := by
    rw [List.length_append, hheader]
    omega
  -- every field is read behind the header by now
  rw [judge, if_neg hlong, if_neg hversion]
  simp only [hlengths, hsequence, htype, htake, hbody, hpayload, hrest, hshort,
    Nat.add_assoc headerBytes length.toNat 1]

/-- What is left to decide about a candidate that is wholly there. -/
theorem judge_whole (typeByte : UInt8) (sequence expected : UInt16) {payload : List UInt8}
    (hpayload : payload.length ≤ maxPayload) (rest : List UInt8) :
    judge (headed typeByte sequence payload ++ toLeBytes expected ++ rest) =
      if crc16Ccitt (headed typeByte sequence payload) ≠ expected then
        .emit (.crcMismatch expected (crc16Ccitt (headed typeByte sequence payload)))
          ((headed typeByte sequence payload ++ toLeBytes expected ++ rest).drop 1)
      else
        .emit (.frame typeByte sequence payload) rest := by
  have hlength := toNat_length hpayload
  have hheaded : headed typeByte sequence payload =
      header typeByte sequence (UInt16.ofNat payload.length) ++ payload := rfl
  have hcandidate : headed typeByte sequence payload ++ toLeBytes expected ++ rest =
      header typeByte sequence (UInt16.ofNat payload.length) ++
        (payload ++ (toLeBytes expected ++ rest)) := by
    rw [hheaded, List.append_assoc, List.append_assoc]
  have hwhole : ¬ (payload ++ (toLeBytes expected ++ rest)).length < payload.length + crcBytes := by
    simp only [List.length_append, toLeBytes, List.length_cons, List.length_nil, crcBytes]
    omega
  have hbyte (index : Nat) : byteAt (payload ++ (toLeBytes expected ++ rest))
      (payload.length + index) = byteAt (toLeBytes expected ++ rest) index := by
    rw [byteAt, byteAt, List.getD_eq_getElem?_getD, List.getD_eq_getElem?_getD,
      List.getElem?_append_right (Nat.le_add_right _ _), Nat.add_sub_cancel_left]
  have hexpected : fromLeBytes
      (byteAt (payload ++ (toLeBytes expected ++ rest)) payload.length)
      (byteAt (payload ++ (toLeBytes expected ++ rest)) (payload.length + 1)) = expected := by
    rw [hbyte 1, show byteAt (payload ++ (toLeBytes expected ++ rest)) payload.length =
      byteAt (toLeBytes expected ++ rest) 0 from hbyte 0]
    exact fromLeBytes_toLeBytes expected
  have hrest : (payload ++ (toLeBytes expected ++ rest)).drop (payload.length + crcBytes) =
      rest := by
    rw [List.drop_length_add_append]
    rfl
  rw [hcandidate, judge_header, hlength, if_neg (Nat.not_lt.mpr hpayload), if_neg hwhole]
  simp only [hexpected, List.take_left, hrest, hheaded]

theorem judge_eq {candidate : List UInt8} {verdict : Verdict UInt8 Outcome}
    (h : Decision candidate verdict) : judge candidate = verdict := by
  cases h with
  | shortHeader hheader => exact judge_shortHeader hheader
  | badVersion hheader hversion => exact judge_badVersion hheader hversion
  | oversized hlength => rw [judge_header, if_pos hlength]
  | shortFrame hlength hbody =>
      rw [judge_header, if_neg (Nat.not_lt.mpr hlength), if_pos hbody]
  | badCrc hpayload hcrc => rw [judge_whole _ _ _ hpayload, if_pos hcrc]
  | frame hpayload => rw [encoded, judge_whole _ _ _ hpayload, if_neg (not_not_intro rfl)]

theorem exists_cons_of_le {length : Nat} {bytes : List UInt8} (h : length + 1 ≤ bytes.length) :
    ∃ first rest, bytes = first :: rest ∧ length ≤ rest.length := by
  cases bytes with
  | nil => exact absurd h (Nat.not_succ_le_zero length)
  | cons first rest => exact ⟨first, rest, rfl, Nat.le_of_succ_le_succ h⟩

theorem exists_header {body : List UInt8} (h : 6 ≤ body.length) :
    (∃ other rest, body = other :: rest ∧ 5 ≤ rest.length ∧ other ≠ version) ∨
      ∃ typeByte sequence length rest,
        magic ++ body = header typeByte sequence length ++ rest := by
  obtain ⟨first, body, rfl, h5⟩ := exists_cons_of_le h
  -- the other five bytes of the header are named one by one
  by_cases hversion : first = version
  · obtain ⟨typeByte, body, rfl, h4⟩ := exists_cons_of_le h5
    obtain ⟨s0, body, rfl, h3⟩ := exists_cons_of_le h4
    obtain ⟨s1, body, rfl, h2⟩ := exists_cons_of_le h3
    obtain ⟨l0, body, rfl, h1⟩ := exists_cons_of_le h2
    obtain ⟨l1, rest, rfl, -⟩ := exists_cons_of_le h1
    refine .inr ⟨typeByte, fromLeBytes s0 s1, fromLeBytes l0 l1, rest, ?_⟩
    rw [header, toLeBytes_fromLeBytes, toLeBytes_fromLeBytes, hversion]
    rfl
  · exact .inl ⟨first, body, rfl, h5, hversion⟩

/-- A candidate after whose header enough bytes follow is wholly there. -/
theorem exists_whole (typeByte : UInt8) (sequence length : UInt16) {rest : List UInt8}
    (h : length.toNat + crcBytes ≤ rest.length) :
    ∃ payload expected more, payload.length = length.toNat ∧
      header typeByte sequence length ++ rest =
        headed typeByte sequence payload ++ toLeBytes expected ++ more := by
  have hpayload : (rest.take length.toNat).length = length.toNat :=
    List.length_take_of_le (Nat.le_trans (Nat.le_add_right _ _) h)
  have hofNat : UInt16.ofNat (rest.take length.toNat).length = length := by
    rw [hpayload, UInt16.ofNat_toNat]
  have hcrc : 2 ≤ (rest.drop length.toNat).length := by
    rw [List.length_drop]
    exact Nat.le_sub_of_add_le' h
  obtain ⟨c0, more, hc0, h1⟩ := exists_cons_of_le hcrc
  obtain ⟨c1, more, rfl, -⟩ := exists_cons_of_le h1
  refine ⟨rest.take length.toNat, fromLeBytes c0 c1, more, hpayload, ?_⟩
  rw [headed, hofNat, toLeBytes_fromLeBytes, ← header, List.append_assoc, List.append_assoc]
  show _ = header typeByte sequence length ++ (rest.take length.toNat ++ c0 :: c1 :: more)
  rw [← hc0, List.take_append_drop]

theorem exists_decision (body : List UInt8) : ∃ verdict, Decision (magic ++ body) verdict := by
  by_cases hheader : body.length < 6
  · exact ⟨_, .shortHeader hheader⟩
  · rcases exists_header (Nat.le_of_not_lt hheader) with
      ⟨other, rest, rfl, hrest, hversion⟩ | ⟨typeByte, sequence, length, rest, hbody⟩
    · exact ⟨_, .badVersion hrest hversion⟩
    · rw [hbody]
      by_cases hlength : maxPayload < length.toNat
      · exact ⟨_, .oversized hlength⟩
      · by_cases hshort : rest.length < length.toNat + crcBytes
        · exact ⟨_, .shortFrame (Nat.le_of_not_lt hlength) hshort⟩
        · obtain ⟨payload, expected, more, hpayload, hwhole⟩ :=
            exists_whole typeByte sequence length (Nat.le_of_not_lt hshort)
          have hfits : payload.length ≤ maxPayload := by
            rw [hpayload]
            exact Nat.le_of_not_lt hlength
          rw [hwhole]
          by_cases hcrc : crc16Ccitt (headed typeByte sequence payload) = expected
          · subst hcrc
            exact ⟨_, .frame hfits⟩
          · exact ⟨_, .badCrc hfits hcrc⟩

theorem Decision.append {candidate rest : List UInt8} {result : Outcome}
    (h : Decision candidate (.emit result rest)) (more : List UInt8) :
    Decision (candidate ++ more) (.emit result (rest ++ more)) := by
  cases h with
  | @badVersion other rest hheader hversion =>
      have hlonger : 5 ≤ (rest ++ more).length := by
        rw [List.length_append]
        exact Nat.le_add_right_of_le hheader
      exact .badVersion hlonger hversion
  | oversized hlength =>
      rw [List.append_assoc]
      exact .oversized hlength
  | @badCrc typeByte sequence payload expected rest hpayload hcrc =>
      have hlonger : Decision (headed typeByte sequence payload ++ toLeBytes expected ++
          (rest ++ more)) _ := .badCrc hpayload hcrc
      rw [← List.append_assoc] at hlonger
      exact hlonger
  | frame hpayload =>
      rw [List.append_assoc]
      exact .frame hpayload

/-- What waits is kept whole, and is shorter than the longest frame. -/
theorem Decision.kept {candidate kept : List UInt8} (h : Decision candidate (.wait kept)) :
    kept = candidate ∧ kept.length < headerBytes + maxPayload + crcBytes := by
  cases h with
  | shortHeader hheader =>
      refine ⟨rfl, ?_⟩
      rw [List.length_append, headerBytes, maxPayload, crcBytes, magic, List.length_cons,
        List.length_singleton]
      omega
  | shortFrame hlength hbody =>
      refine ⟨rfl, ?_⟩
      rw [List.length_append, length_header]
      omega

theorem Decision.rest_lt {candidate rest : List UInt8} {outcome : Outcome}
    (h : Decision candidate (.emit outcome rest)) : rest.length < candidate.length := by
  cases h with
  | badVersion hheader hversion =>
      rw [List.length_drop, List.length_append, magic, List.length_cons]
      omega
  | oversized hlength =>
      rw [List.length_drop, List.length_append, length_header, headerBytes]
      omega
  | badCrc hpayload hcrc =>
      rw [List.length_drop, List.append_assoc, List.length_append, length_headed]
      omega
  | frame hpayload =>
      rw [List.length_append, length_encoded]
      omega

theorem Decision.exists_body {candidate : List UInt8} {verdict : Verdict UInt8 Outcome}
    (h : Decision candidate verdict) : ∃ body, candidate = magic ++ body := by
  cases h <;> exact ⟨_, rfl⟩

/-! ## The scan -/

/-- What the scan of a stream reports, each with the position at which it resumes. -/
inductive ReferenceScan : Nat → List UInt8 → List (Outcome × Nat) → Prop where
  | noise {position noise} (hnoise : Noise noise) : ReferenceScan position noise []
  | incomplete {position noise candidate kept} (hnoise : Noise noise)
      (hcandidate : Decision candidate (.wait kept)) :
      ReferenceScan position (noise ++ candidate) []
  | report {position noise candidate outcome rest next outcomes} (hnoise : Noise noise)
      (hcandidate : Decision candidate (.emit outcome rest))
      (hnext : next + rest.length = position + (noise ++ candidate).length)
      (hrest : ReferenceScan next rest outcomes) :
      ReferenceScan position (noise ++ candidate) ((outcome, next) :: outcomes)

theorem exists_referenceScan (position : Nat) (stream : List UInt8) :
    ∃ outcomes, ReferenceScan position stream outcomes := by
  induction hlength : stream.length using Nat.strongRecOn generalizing position stream with
  | ind length ih =>
      subst hlength
      -- the rest of a reported candidate is shorter, whatever is reported
      rcases noise_or_magic stream with hnoise | ⟨noise, body, hnoise, rfl⟩
      · exact ⟨[], .noise hnoise⟩
      · obtain ⟨verdict, hdecision⟩ := exists_decision body
        cases verdict with
        | wait kept => exact ⟨[], .incomplete hnoise hdecision⟩
        | emit outcome rest =>
            have hshorter : rest.length < (noise ++ (magic ++ body)).length := by
              have hrest := hdecision.rest_lt
              rw [List.length_append]
              omega
            obtain ⟨outcomes, hrest⟩ := ih _ hshorter
              (position + ((noise ++ (magic ++ body)).length - rest.length)) rest rfl
            refine ⟨_, .report hnoise hdecision ?_ hrest⟩
            omega

/-! ## Scanners that compute it -/

/-- A scanner that reports what the reference scan does; of noise it keeps the last
byte at most, and keeps that when it may start a magic pair. -/
structure Reads {β : Type} (scanner : Scanner UInt8 β) (keep : Option UInt8 → List UInt8)
    (report : Outcome → β) : Prop where
  keep_none : keep none = []
  keep_magic : keep (some 0x43) = [0x43]
  keep_some : ∀ byte, keep (some byte) = [byte] ∨ keep (some byte) = []
  noise : ∀ {noise}, Noise noise → scanner.look noise = .wait (keep noise.getLast?)
  candidate : ∀ {noise candidate verdict}, Noise noise → Decision candidate verdict →
    scanner.look (noise ++ candidate) = verdict.map report

namespace Reads

variable {β : Type} {scanner : Scanner UInt8 β} {keep : Option UInt8 → List UInt8}
  {report : Outcome → β}

/-- Noise in front of a byte does not matter. -/
theorem look_skip (h : Reads scanner keep report) {noise : List UInt8} {byte : UInt8}
    (hnoise : Noise (noise ++ [byte])) (more : List UInt8) :
    scanner.look (noise ++ byte :: more) = scanner.look (byte :: more) := by
  rcases noise_or_magic (byte :: more) with hmore | ⟨front, body, hfront, hmagic⟩
  -- no candidate: only the last byte counts, and it is behind the noise
  · have hlast : (noise ++ byte :: more).getLast? = (byte :: more).getLast? := by
      rw [List.getLast?_append, List.getLast?_cons]
      rfl
    rw [h.noise (hnoise.join hmore), h.noise hmore, hlast]
  · obtain ⟨verdict, hdecision⟩ := exists_decision body
    rw [hmagic, h.candidate hfront hdecision, ← List.append_assoc]
    -- the noise in front of the candidate grows by the noise that is skipped
    refine h.candidate ?_ hdecision
    cases front with
    | nil =>
        rw [List.append_nil]
        exact hnoise.of_append
    | cons first front =>
        obtain ⟨rfl, -⟩ := List.cons.inj hmagic
        exact hnoise.join hfront

theorem wait_append (h : Reads scanner keep report) {buffer kept : List UInt8}
    (hwait : scanner.look buffer = .wait kept) (more : List UInt8) :
    scanner.look (buffer ++ more) = scanner.look (kept ++ more) := by
  rcases noise_or_magic buffer with hnoise | ⟨noise, body, hnoise, rfl⟩
  · rw [h.noise hnoise] at hwait
    obtain rfl := Verdict.wait.inj hwait
    rcases List.eq_nil_or_concat' buffer with rfl | ⟨front, last, rfl⟩
    · rw [List.getLast?_nil, h.keep_none]
    · rw [List.getLast?_append, List.getLast?_singleton, Option.some_or]
      rcases h.keep_some last with hlast | hlast
      · rw [hlast, List.append_assoc]
        exact h.look_skip hnoise more
      -- a last byte that is not kept starts no magic pair, so any byte may follow it
      · have hother : (front ++ [last]).getLast? ≠ some 0x43 := by
          rw [List.getLast?_append, List.getLast?_singleton, Option.some_or]
          intro hmagic
          rw [hmagic, h.keep_magic] at hlast
          cases hlast
        rw [hlast, List.nil_append]
        cases more with
        | nil =>
            rw [List.append_nil, h.noise hnoise, h.noise .nil, List.getLast?_nil, h.keep_none,
              List.getLast?_append, List.getLast?_singleton, Option.some_or, hlast]
        | cons byte more => exact h.look_skip (hnoise.concat hother byte) more
  · obtain ⟨verdict, hdecision⟩ := exists_decision body
    rw [h.candidate hnoise hdecision] at hwait
    cases verdict with
    | emit outcome rest => cases hwait
    | wait whole =>
        obtain rfl := Verdict.wait.inj hwait
        obtain ⟨rfl, -⟩ := hdecision.kept
        -- the candidate is kept whole, so it is decided anew with what has come
        obtain ⟨later, hlater⟩ := exists_decision (body ++ more)
        rw [List.append_assoc, List.append_assoc, h.candidate hnoise hlater,
          ← List.nil_append (magic ++ (body ++ more)), h.candidate .nil hlater]

theorem emit_append (h : Reads scanner keep report) {buffer rest : List UInt8} {result : β}
    (hemit : scanner.look buffer = .emit result rest) (more : List UInt8) :
    scanner.look (buffer ++ more) = .emit result (rest ++ more) := by
  rcases noise_or_magic buffer with hnoise | ⟨noise, body, hnoise, rfl⟩
  · rw [h.noise hnoise] at hemit
    cases hemit
  · obtain ⟨verdict, hdecision⟩ := exists_decision body
    rw [h.candidate hnoise hdecision] at hemit
    cases verdict with
    | wait kept => cases hemit
    | emit outcome rest =>
        obtain ⟨rfl, rfl⟩ := Verdict.emit.inj hemit
        rw [List.append_assoc]
        exact h.candidate hnoise (hdecision.append more)

theorem incremental (h : Reads scanner keep report) : scanner.Incremental where
  emit_append := h.emit_append
  wait_append := h.wait_append

theorem length_kept (h : Reads scanner keep report) {buffer kept : List UInt8}
    (hwait : scanner.look buffer = .wait kept) :
    kept.length < headerBytes + maxPayload + crcBytes := by
  rcases noise_or_magic buffer with hnoise | ⟨noise, body, hnoise, rfl⟩
  · rw [h.noise hnoise] at hwait
    obtain rfl := Verdict.wait.inj hwait
    cases buffer.getLast? with
    | none =>
        rw [h.keep_none]
        decide
    | some last =>
        rcases h.keep_some last with hlast | hlast
        · rw [hlast]
          exact (show 1 < 74 by decide)
        · rw [hlast]
          decide
  · obtain ⟨verdict, hdecision⟩ := exists_decision body
    rw [h.candidate hnoise hdecision] at hwait
    cases verdict with
    | emit outcome rest => cases hwait
    | wait whole =>
        obtain rfl := Verdict.wait.inj hwait
        exact hdecision.kept.2

/-- What is kept between chunks is shorter than the longest frame. -/
theorem length_feed_lt (h : Reads scanner keep report) (cursor : Cursor UInt8)
    (chunk : List UInt8) :
    (scanner.feed cursor chunk).2.buffer.length < headerBytes + maxPayload + crcBytes :=
  h.length_kept (Scanner.look_scan h.incremental.look_kept _)

theorem scan_eq (h : Reads scanner keep report) {position : Nat} {stream : List UInt8}
    {outcomes : List (Outcome × Nat)} (hscan : ReferenceScan position stream outcomes) :
    (scanner.scan ⟨position, stream⟩).1 =
      outcomes.map fun found => (report found.1, found.2) := by
  induction hscan with
  | noise hnoise =>
      rw [Scanner.scan_of_wait ⟨_, _⟩ (h.noise hnoise)]
      rfl
  | incomplete hnoise hcandidate =>
      rw [Scanner.scan_of_wait ⟨_, _⟩ (h.candidate hnoise hcandidate)]
      rfl
  | @report position noise candidate outcome rest next outcomes hnoise hcandidate hnext hrest ih =>
      have hshorter : rest.length ≤ (noise ++ candidate).length := by
        rw [List.length_append]
        exact Nat.le_add_left_of_le (Nat.le_of_lt hcandidate.rest_lt)
      have hposition : position + ((noise ++ candidate).length - rest.length) = next := by omega
      rw [Scanner.scan_of_emit ⟨_, _⟩ (h.candidate hnoise hcandidate), Scanner.advance,
        List.map_cons]
      simp only [hposition, ih]

/-- However the stream is cut, the results are those of its reference scan. -/
theorem feedAll_eq (h : Reads scanner keep report) (chunks : List (List UInt8))
    {outcomes : List (Outcome × Nat)} (hscan : ReferenceScan 0 chunks.flatten outcomes) :
    (scanner.feedAll chunks .start).1 =
      outcomes.map fun found => (report found.1, found.2) := by
  have hstart : scanner.look (Cursor.start : Cursor UInt8).buffer = .wait [] := by
    have hnil := h.noise .nil
    rwa [List.getLast?_nil, h.keep_none] at hnil
  rw [h.incremental.feedAll_eq hstart]
  exact h.scan_eq hscan

end Reads
end Wire
end MicroEmu
