import MicroEmu.Library.Chunks

/-!
# Bytes as plain text

Two ways to write any bytes with a few characters: base64, which packs three bytes into four
characters, and percent-encoding, which keeps the characters that are plain already.  Both can
be read back, and what they write never leaves its alphabet.
-/

namespace MicroEmu
namespace Library

/-! ## Base64 -/

def base64Alphabet : List Char :=
  ['A', 'B', 'C', 'D', 'E', 'F', 'G', 'H', 'I', 'J', 'K', 'L', 'M', 'N', 'O', 'P', 'Q', 'R', 'S',
    'T', 'U', 'V', 'W', 'X', 'Y', 'Z', 'a', 'b', 'c', 'd', 'e', 'f', 'g', 'h', 'i', 'j', 'k',
    'l', 'm', 'n', 'o', 'p', 'q', 'r', 's', 't', 'u', 'v', 'w', 'x', 'y', 'z', '0', '1', '2',
    '3', '4', '5', '6', '7', '8', '9', '+', '/']

/-- The character of six bits. -/
def base64Digit (bits : Nat) : Char := base64Alphabet.getD bits '='

/-- The characters of one chunk of three bytes; the last chunk may be shorter. -/
def base64Chunk (chunk : List UInt8) : List Char :=
  let byte (index : Nat) : Nat := (chunk.getD index 0).toNat
  let group := byte 0 <<< 16 ||| byte 1 <<< 8 ||| byte 2
  [base64Digit (group >>> 18 &&& 0x3f),
    base64Digit (group >>> 12 &&& 0x3f),
    if 1 < chunk.length then base64Digit (group >>> 6 &&& 0x3f) else '=',
    if 2 < chunk.length then base64Digit (group &&& 0x3f) else '=']

def base64Encode (bytes : List UInt8) : List Char := (bytes.toChunks 3).flatMap base64Chunk

/-- The six bits of a character. -/
def base64Bits (char : Char) : Option Nat := base64Alphabet.idxOf? char

/-- The bytes of three characters or four; those that are missing are padded. -/
def base64Decode : List Char → Option (List UInt8)
  | [] => some []
  | [first, second, '=', '='] => do
      let first ← base64Bits first
      let second ← base64Bits second
      return [.ofNat (first * 4 + second / 16)]
  | [first, second, third, '='] => do
      let first ← base64Bits first
      let second ← base64Bits second
      let third ← base64Bits third
      let group := (first * 64 + second) * 64 + third
      return [.ofNat (group / 1024), .ofNat (group / 4 % 256)]
  | first :: second :: third :: fourth :: rest => do
      let first ← base64Bits first
      let second ← base64Bits second
      let third ← base64Bits third
      let fourth ← base64Bits fourth
      let rest ← base64Decode rest
      let group := ((first * 64 + second) * 64 + third) * 64 + fourth
      return .ofNat (group / 65536) :: .ofNat (group / 256 % 256) :: .ofNat (group % 256) :: rest
  | _ => none

theorem base64Bits_digit : ∀ bits < 64, base64Bits (base64Digit bits) = some bits := by
  decide

theorem base64Digit_mem : ∀ bits < 64, base64Digit bits ∈ base64Alphabet := by
  decide

theorem base64Digit_ne_pad : ∀ bits < 64, base64Digit bits ≠ '=' := by
  decide

/-- Three bytes side by side. -/
theorem or_bytes {first second third : Nat} (hsecond : second < 256) (hthird : third < 256) :
    first <<< 16 ||| second <<< 8 ||| third = (first * 256 + second) * 256 + third := by
  have hshift : second <<< 8 = second * 256 := Nat.shiftLeft_eq second 8
  have hlow : second <<< 8 ||| third = second * 256 + third := by
    rw [← Nat.shiftLeft_add_eq_or_of_lt hthird, hshift]
  rw [Nat.or_assoc, hlow, ← Nat.shiftLeft_add_eq_or_of_lt (i := 16) (by omega), Nat.shiftLeft_eq]
  omega

/-- The bits of a chunk, as a number. -/
theorem base64Chunk_eq (chunk : List UInt8) {group : Nat}
    (hgroup : ((chunk.getD 0 0).toNat * 256 + (chunk.getD 1 0).toNat) * 256 +
      (chunk.getD 2 0).toNat = group) :
    base64Chunk chunk =
      [base64Digit (group / 262144), base64Digit (group / 4096 % 64),
        if 1 < chunk.length then base64Digit (group / 64 % 64) else '=',
        if 2 < chunk.length then base64Digit (group % 64) else '='] := by
  have hfirst := (chunk.getD 0 0).toNat_lt
  have hsecond := (chunk.getD 1 0).toNat_lt
  have hthird := (chunk.getD 2 0).toNat_lt
  have hmask (bits : Nat) : bits &&& 0x3f = bits % 64 := Nat.and_two_pow_sub_one_eq_mod bits 6
  have htop : group / 262144 % 64 = group / 262144 := by omega
  simp only [base64Chunk, or_bytes hsecond hthird, hgroup, hmask, Nat.shiftRight_eq_div_pow]
  simp only [Nat.reducePow, htop]

theorem base64Encode_nil : base64Encode [] = [] := by
  rw [base64Encode, toChunks_nil, List.flatMap_nil]

theorem base64Encode_eq {bytes : List UInt8} (h : bytes ≠ []) :
    base64Encode bytes = base64Chunk (bytes.take 3) ++ base64Encode (bytes.drop 3) := by
  rw [base64Encode, toChunks_eq (by decide) h, List.flatMap_cons, base64Encode]

theorem base64Decode_one {first second : Nat} (hfirst : first < 64) (hsecond : second < 64) :
    base64Decode [base64Digit first, base64Digit second, '=', '='] =
      some [.ofNat (first * 4 + second / 16)] := by
  simp [base64Decode, base64Bits_digit, hfirst, hsecond]

theorem base64Decode_two {first second third : Nat} (hfirst : first < 64)
    (hsecond : second < 64) (hthird : third < 64) :
    base64Decode [base64Digit first, base64Digit second, base64Digit third, '='] =
      some [.ofNat (((first * 64 + second) * 64 + third) / 1024),
        .ofNat (((first * 64 + second) * 64 + third) / 4 % 256)] := by
  rw [base64Decode]
  · simp [base64Bits_digit, hfirst, hsecond, hthird]
  · exact fun hpad => base64Digit_ne_pad third hthird hpad

theorem base64Decode_three {first second third fourth : Nat} (hfirst : first < 64)
    (hsecond : second < 64) (hthird : third < 64) (hfourth : fourth < 64) (rest : List Char) :
    base64Decode (base64Digit first :: base64Digit second :: base64Digit third ::
        base64Digit fourth :: rest) =
      (base64Decode rest).map fun bytes =>
        .ofNat ((((first * 64 + second) * 64 + third) * 64 + fourth) / 65536) ::
          .ofNat ((((first * 64 + second) * 64 + third) * 64 + fourth) / 256 % 256) ::
          .ofNat ((((first * 64 + second) * 64 + third) * 64 + fourth) % 256) :: bytes := by
  rw [base64Decode]
  · simp only [base64Bits_digit, hfirst, hsecond, hthird, hfourth]
    cases base64Decode rest <;> rfl
  · exact fun _ hpad => absurd hpad (base64Digit_ne_pad fourth hfourth)
  · exact fun hpad => absurd hpad (base64Digit_ne_pad fourth hfourth)

theorem ofNat_eq_byte (byte : UInt8) {value : Nat} (h : value = byte.toNat) :
    UInt8.ofNat value = byte := by
  rw [h, UInt8.ofNat_toNat]

/-- What is written in base64 is read back. -/
theorem base64Decode_encode : ∀ bytes : List UInt8,
    base64Decode (base64Encode bytes) = some bytes
  | [] => by rw [base64Encode_nil, base64Decode]
  | [first] => by
      have hfirst := first.toNat_lt
      rw [base64Encode_eq (by simp), List.drop_of_length_le (by simp), base64Encode_nil,
        base64Chunk_eq _ rfl]
      simp [List.getD]
      rw [base64Decode_one (by omega) (by omega), ofNat_eq_byte first (by omega)]
  | [first, second] => by
      have hfirst := first.toNat_lt
      have hsecond := second.toNat_lt
      rw [base64Encode_eq (by simp), List.drop_of_length_le (by simp), base64Encode_nil,
        base64Chunk_eq _ rfl]
      simp [List.getD]
      rw [base64Decode_two (by omega) (by omega) (by omega), ofNat_eq_byte first (by omega),
        ofNat_eq_byte second (by omega)]
  | first :: second :: third :: rest => by
      have hfirst := first.toNat_lt
      have hsecond := second.toNat_lt
      have hthird := third.toNat_lt
      have hrest := base64Decode_encode rest
      rw [base64Encode_eq (by simp), base64Chunk_eq _ rfl]
      simp [List.getD]
      rw [base64Decode_three (by omega) (by omega) (by omega) (by omega), hrest,
        Option.map_some, ofNat_eq_byte first (by omega), ofNat_eq_byte second (by omega),
        ofNat_eq_byte third (by omega)]

/-- What is written in base64 has no character but those of the alphabet and the padding. -/
theorem mem_base64Encode (bytes : List UInt8) {char : Char} (h : char ∈ base64Encode bytes) :
    char ∈ base64Alphabet ∨ char = '=' := by
  obtain ⟨chunk, -, hchar⟩ := List.mem_flatMap.mp h
  have hfirst := (chunk.getD 0 0).toNat_lt
  have hsecond := (chunk.getD 1 0).toNat_lt
  have hthird := (chunk.getD 2 0).toNat_lt
  rw [base64Chunk_eq chunk rfl] at hchar
  simp only [List.mem_cons, List.not_mem_nil, or_false] at hchar
  rcases hchar with rfl | rfl | rfl | rfl
  · exact .inl (base64Digit_mem _ (by omega))
  · exact .inl (base64Digit_mem _ (by omega))
  · split
    · exact .inl (base64Digit_mem _ (by omega))
    · exact .inr rfl
  · split
    · exact .inl (base64Digit_mem _ (by omega))
    · exact .inr rfl

/-! ## Percent-encoding -/

/-- The characters that stand for themselves. -/
def isUnreserved (char : Char) : Bool :=
  char.isAlphanum || char = '-' || char = '_' || char = '.' || char = '~'

def hexDigits : List Char :=
  ['0', '1', '2', '3', '4', '5', '6', '7', '8', '9', 'A', 'B', 'C', 'D', 'E', 'F']

def hexDigit (value : Nat) : Char := hexDigits.getD value '0'

def percentByte (byte : UInt8) : List Char :=
  let char := Char.ofNat byte.toNat
  if isUnreserved char then [char]
  else ['%', hexDigit (byte.toNat / 16), hexDigit (byte.toNat % 16)]

def percentEncode (bytes : List UInt8) : List Char := bytes.flatMap percentByte

def percentDecode : List Char → Option (List UInt8)
  | [] => some []
  | '%' :: high :: low :: rest => do
      let high ← hexDigits.idxOf? high
      let low ← hexDigits.idxOf? low
      let rest ← percentDecode rest
      return .ofNat (high * 16 + low) :: rest
  | char :: rest =>
      if isUnreserved char then (percentDecode rest).map (.ofNat char.toNat :: ·) else none

theorem idxOf_hexDigit : ∀ value < 16, hexDigits.idxOf? (hexDigit value) = some value := by
  decide

theorem isUnreserved_ne_percent {char : Char} (h : isUnreserved char = true) : char ≠ '%' := by
  rintro rfl
  revert h
  decide

theorem percentDecode_plain {char : Char} (h : isUnreserved char = true) (rest : List Char) :
    percentDecode (char :: rest) = (percentDecode rest).map (.ofNat char.toNat :: ·) := by
  rw [percentDecode]
  · rw [if_pos h]
  · exact fun _ _ _ hpercent => absurd hpercent (isUnreserved_ne_percent h)

theorem percentDecode_byte (byte : UInt8) (rest : List Char) :
    percentDecode (percentByte byte ++ rest) = (percentDecode rest).map (byte :: ·) := by
  have hbyte := byte.toNat_lt
  rw [percentByte]
  split
  next hchar =>
    have hvalid : byte.toNat.isValidChar := .inl (by omega)
    have hcode : (Char.ofNat byte.toNat).toNat = byte.toNat := by
      rw [Char.ofNat, dif_pos hvalid]
      rfl
    rw [List.singleton_append, percentDecode_plain hchar, hcode, UInt8.ofNat_toNat]
  next =>
    have hhigh := idxOf_hexDigit (byte.toNat / 16) (by omega)
    have hlow := idxOf_hexDigit (byte.toNat % 16) (by omega)
    have hvalue : UInt8.ofNat (byte.toNat / 16 * 16 + byte.toNat % 16) = byte :=
      ofNat_eq_byte byte (by omega)
    rw [List.cons_append, List.cons_append, List.singleton_append, percentDecode, hhigh, hlow]
    cases percentDecode rest with
    | none => rfl
    | some bytes =>
        show some (UInt8.ofNat (byte.toNat / 16 * 16 + byte.toNat % 16) :: bytes) =
          some (byte :: bytes)
        rw [hvalue]

/-- What is percent-encoded is read back. -/
theorem percentDecode_encode (bytes : List UInt8) :
    percentDecode (percentEncode bytes) = some bytes := by
  induction bytes with
  | nil => rw [percentEncode, List.flatMap_nil, percentDecode]
  | cons byte bytes ih =>
      rw [percentEncode, List.flatMap_cons, percentDecode_byte]
      rw [percentEncode] at ih
      rw [ih, Option.map_some]

theorem isUnreserved_hexDigit : ∀ value < 16, isUnreserved (hexDigit value) = true := by
  decide

/-- What is percent-encoded has no character but the unreserved ones and the percent sign. -/
theorem mem_percentEncode (bytes : List UInt8) {char : Char} (h : char ∈ percentEncode bytes) :
    isUnreserved char = true ∨ char = '%' := by
  obtain ⟨byte, -, hchar⟩ := List.mem_flatMap.mp h
  have hbyte := byte.toNat_lt
  rw [percentByte] at hchar
  split at hchar
  next hplain =>
    obtain rfl := List.mem_singleton.mp hchar
    exact .inl hplain
  next =>
    simp only [List.mem_cons, List.not_mem_nil, or_false] at hchar
    rcases hchar with rfl | rfl | rfl
    · exact .inr rfl
    · exact .inl (isUnreserved_hexDigit _ (by omega))
    · exact .inl (isUnreserved_hexDigit _ (by omega))

end Library
end MicroEmu
