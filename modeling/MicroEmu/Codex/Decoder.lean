import MicroEmu.Codex
import MicroEmu.Library.Pairs

/-!
# The decoder of Codex reports

Reports carry up to 61 bytes of a stream of JSON objects, each behind its own CRLF.  The
streaming parser of `serde_json` is a parameter: what its next value is depends on the
bytes that are left.
-/

namespace MicroEmu
namespace Codex

open Json (Value)

/-- What `StreamDeserializer::next` makes of a buffer, with its `byte_offset`. -/
inductive Streamed where
  | message (value : Value) (consumed : Nat)
  /-- An error; it may be `is_eof`. -/
  | failed (error : String) (isEof : Bool)
  /-- No value is left. -/
  | none
  deriving Repr

/-- The streaming parser. -/
abbrev Parser := List UInt8 → Streamed

/-- `CodexDecoder`. -/
structure CodexDecoder where
  buffer : List UInt8
  deriving DecidableEq, Repr

/-- `CodexDecoder::default`. -/
def CodexDecoder.default : CodexDecoder := ⟨[]⟩

/-- The limit of the buffer, 64 KiB. -/
def maxBufferBytes : Nat := 64 * 1024

/-- A byte that is removed from the front of the buffer. -/
def isTerminator (byte : UInt8) : Bool := byte == 13 || byte == 10

/-- The loop that removes them. -/
def stripTerminators (buffer : List UInt8) : List UInt8 := buffer.dropWhile isTerminator

/-- The first place of CRLF. -/
def findCrlf (bytes : List UInt8) : Option Nat := Library.findPair 13 10 bytes

/-- `invalid_prefix_length`. -/
def invalidPrefixLength (buffer : List UInt8) : Nat :=
  match findCrlf buffer with
  | some position => position + 2
  | none =>
      match buffer.findIdx? (· == 0x7b) with
      | none => buffer.length
      | some start =>
          if start > 0 then start
          else
            match (buffer.drop 1).findIdx? (· == 0x7b) with
            | some next => next + 1
            | none => buffer.length

/-- `message.is_object()`. -/
def isObject : Value → Bool
  | .object _ => true
  | _ => false

/-- The loop of `decode_available`, with so many turns left. -/
def decodeTurns (next : Parser) :
    Nat → List UInt8 → List Value → Except String (List Value) × List UInt8
  | 0, buffer, messages => (.ok messages, buffer)
  | turns + 1, buffer, messages =>
      let buffer := stripTerminators buffer
      if buffer = [] then (.ok messages, buffer)
      else
        match next buffer with
        | .message message consumed =>
            -- the buffer is drained only behind this check
            if consumed = 0 then (.error "Codex decoder consumed zero bytes", buffer)
            else
              let rest := buffer.drop consumed
              if isObject message then decodeTurns next turns rest (messages ++ [message])
              -- the messages of this call are dropped with the error
              else (.error "Codex JSON message must be an object", rest)
        | .failed error isEof =>
            if isEof then (.ok messages, buffer)
            else
              (.error ("invalid Codex JSON: " ++ error),
                buffer.drop (max (invalidPrefixLength buffer) 1))
        | .none => (.ok messages, buffer)

/-- `decode_available`; a turn that goes on has taken at least one byte. -/
def decodeAvailable (next : Parser) (buffer : List UInt8) :
    Except String (List Value) × List UInt8 :=
  decodeTurns next (buffer.length + 1) buffer []

/-- A byte as two upper-case hexadecimal digits. -/
def upperHex (byte : UInt8) : String :=
  String.ofList [(Nat.digitChar (byte.toNat / 16)).toUpper,
    (Nat.digitChar (byte.toNat % 16)).toUpper]

/-- `CodexDecoder::feed`. -/
def CodexDecoder.feed (next : Parser) (state : CodexDecoder) (report : List UInt8) :
    Except String (List Value) × CodexDecoder :=
  if report.length ≠ reportBytes ∨ report.getD 0 0 ≠ reportId then
    (.error "Codex report must be 64 bytes and start with Report ID 6", state)
  else if report.getD 1 0 ≠ opcodeData then
    (.error ("unsupported Codex opcode 0x" ++ upperHex (report.getD 1 0)), state)
  else
    let length := (report.getD 2 0).toNat
    if ¬ (1 ≤ length ∧ length ≤ maxChunkBytes) then
      (.error ("invalid Codex chunk length " ++ toString length), state)
    else
      let buffer := state.buffer ++ (report.drop 3).take length
      if buffer.length > maxBufferBytes then
        -- nothing says where the next message starts
        (.error "Codex message buffer exceeded 64 KiB", ⟨[]⟩)
      else
        let decoded := decodeAvailable next buffer
        (decoded.1, ⟨decoded.2⟩)

/-- Reports fed one after another, with what each call returned. -/
def CodexDecoder.feedAll (next : Parser) :
    List (List UInt8) → CodexDecoder → List (Except String (List Value)) × CodexDecoder
  | [], state => ([], state)
  | report :: reports, state =>
      let first := state.feed next report
      let last := feedAll next reports first.2
      (first.1 :: last.1, last.2)

/-- The messages that the calls handed to their caller; errors are ignored. -/
def delivered (results : List (Except String (List Value))) : List Value :=
  (results.map fun result => result.toOption.getD []).flatten

/-! ## Valid reports -/

/-- The chunk a report carries. -/
def chunkOf (report : List UInt8) : List UInt8 :=
  (report.drop 3).take (report.getD 2 0).toNat

/-- A report that `feed` accepts. -/
structure ValidReport (report : List UInt8) : Prop where
  length : report.length = reportBytes
  id : report.getD 0 0 = reportId
  opcode : report.getD 1 0 = opcodeData
  chunk : 1 ≤ (report.getD 2 0).toNat ∧ (report.getD 2 0).toNat ≤ maxChunkBytes

instance (report : List UInt8) : Decidable (ValidReport report) :=
  decidable_of_iff (report.length = reportBytes ∧ report.getD 0 0 = reportId ∧
      report.getD 1 0 = opcodeData ∧
      1 ≤ (report.getD 2 0).toNat ∧ (report.getD 2 0).toNat ≤ maxChunkBytes)
    ⟨fun h => ⟨h.1, h.2.1, h.2.2.1, h.2.2.2⟩, fun h => ⟨h.length, h.id, h.opcode, h.chunk⟩⟩

theorem ValidReport.length_chunkOf {report : List UInt8} (h : ValidReport report) :
    1 ≤ (chunkOf report).length ∧ (chunkOf report).length ≤ maxChunkBytes := by
  have hlength := h.length
  have hchunk := h.chunk
  rw [reportBytes] at hlength
  rw [maxChunkBytes] at hchunk ⊢
  rw [chunkOf, List.length_take, List.length_drop]
  omega

theorem chunkOf_report {chunk : List UInt8} (hfits : chunk.length ≤ maxChunkBytes) :
    chunkOf (report chunk) = chunk := by
  have hlength : (UInt8.ofNat chunk.length).toNat = chunk.length := by
    rw [maxChunkBytes] at hfits
    rw [UInt8.toNat_ofNat']
    omega
  show ((chunk ++ _).take (UInt8.ofNat chunk.length).toNat) = chunk
  rw [hlength, List.take_left]

theorem validReport_report {chunk : List UInt8} (hpositive : 1 ≤ chunk.length)
    (hfits : chunk.length ≤ maxChunkBytes) : ValidReport (report chunk) where
  length := by
    rw [maxChunkBytes] at hfits
    simp only [report, reportBytes, List.length_append, List.length_replicate, List.length_cons,
      List.length_nil]
    omega
  id := rfl
  opcode := rfl
  chunk := by
    show 1 ≤ (UInt8.ofNat chunk.length).toNat ∧ (UInt8.ofNat chunk.length).toNat ≤ maxChunkBytes
    rw [maxChunkBytes] at hfits ⊢
    rw [UInt8.toNat_ofNat']
    omega

/-- What a call does with a valid report. -/
theorem CodexDecoder.feed_of_valid (next : Parser) (state : CodexDecoder)
    {report : List UInt8} (h : ValidReport report) :
    state.feed next report =
      if (state.buffer ++ chunkOf report).length > maxBufferBytes then
        (.error "Codex message buffer exceeded 64 KiB", ⟨[]⟩)
      else
        ((decodeAvailable next (state.buffer ++ chunkOf report)).1,
          ⟨(decodeAvailable next (state.buffer ++ chunkOf report)).2⟩) := by
  have hid : ¬ (report.length ≠ reportBytes ∨ report.getD 0 0 ≠ reportId) := by
    rintro (hlength | hid)
    · exact hlength h.length
    · exact hid h.id
  rw [feed, if_neg hid, if_neg (not_not_intro h.opcode)]
  show (if ¬ _ then _ else _) = _
  rw [if_neg (not_not_intro h.chunk)]
  rfl

theorem delivered_append (first second : List (Except String (List Value))) :
    delivered (first ++ second) = delivered first ++ delivered second := by
  rw [delivered, List.map_append, List.flatten_append]
  rfl

theorem CodexDecoder.feedAll_append (next : Parser) (first second : List (List UInt8))
    (state : CodexDecoder) :
    feedAll next (first ++ second) state =
      ((feedAll next first state).1 ++ (feedAll next second (feedAll next first state).2).1,
        (feedAll next second (feedAll next first state).2).2) := by
  induction first generalizing state with
  | nil => rfl
  | cons report first ih => simp only [List.cons_append, feedAll, ih]

/-- What a call leaves in the buffer was at its end. -/
theorem decodeTurns_suffix (next : Parser) (turns : Nat) (buffer : List UInt8)
    (messages : List Value) : (decodeTurns next turns buffer messages).2 <:+ buffer := by
  induction turns generalizing buffer messages with
  | zero => exact List.suffix_refl buffer
  | succ turns ih =>
      have hstrip : stripTerminators buffer <:+ buffer := List.dropWhile_suffix isTerminator
      have hdrop (count : Nat) : (stripTerminators buffer).drop count <:+ buffer :=
        (List.drop_suffix count _).trans hstrip
      rw [decodeTurns]
      by_cases hbuffer : stripTerminators buffer = []
      · rw [if_pos hbuffer]
        exact hstrip
      · rw [if_neg hbuffer]
        cases next (stripTerminators buffer) with
        | message message consumed =>
            -- only an object goes on with the loop
            show (if consumed = 0 then _ else _ : Except String (List Value) × _).2 <:+ buffer
            split
            · exact hstrip
            · show (if isObject message then _ else _ : Except String (List Value) × _).2 <:+ buffer
              split
              · exact (ih _ _).trans (hdrop consumed)
              · exact hdrop consumed
        | failed error isEof =>
            cases isEof with
            | true => exact hstrip
            | false => exact hdrop _
        | none => exact hstrip

theorem decodeAvailable_suffix (next : Parser) (buffer : List UInt8) :
    (decodeAvailable next buffer).2 <:+ buffer :=
  decodeTurns_suffix next _ buffer []

/-! ## A parser of a few values -/

/-- A byte that a JSON string may hold as it is. -/
def isPlain (byte : UInt8) : Bool := byte ≥ 0x20 && byte != 0x22 && byte != 0x5c

/-- The bytes of `{"a":"`. -/
def memberFront : List UInt8 := [0x7b, 0x22, 0x61, 0x22, 0x3a, 0x22]

/-- The text of plain bytes. -/
def plainText (bytes : List UInt8) : String :=
  String.ofList (bytes.map fun byte => Char.ofNat byte.toNat)

/-- The rest of a string and what follows it. -/
def sampleString (bytes : List UInt8) (found : List UInt8 → List UInt8 → Streamed) : Streamed :=
  match bytes.dropWhile isPlain with
  | [] => .failed "EOF while parsing a string" true
  | 0x22 :: rest => found (bytes.takeWhile isPlain) rest
  | _ => .failed "control character found while parsing a string" false

/-- What follows the string of an object with one key. -/
def memberEnd (consumed : List UInt8 → Nat) (text : List UInt8) : List UInt8 → Streamed
  | [] => .failed "EOF while parsing an object" true
  | 0x7d :: rest => .message (.object [("a", .string (plainText text))]) (consumed rest)
  | _ => .failed "expected a comma or a closing brace" false

/-- The streaming parser on `{}`, on objects with the one key "a" and a plain string, and
on plain strings, each behind any number of spaces. -/
def sampleNext (buffer : List UInt8) : Streamed :=
  let value := buffer.dropWhile (· == 0x20)
  let consumed (rest : List UInt8) : Nat := buffer.length - rest.length
  match value with
  | [] => .none
  | 0x7b :: 0x7d :: rest => .message (.object []) (consumed rest)
  | 0x22 :: body =>
      sampleString body fun text rest => .message (.string (plainText text)) (consumed rest)
  | 0x7b :: _ =>
      if value.length < memberFront.length then
        if value.isPrefixOf memberFront then .failed "EOF while parsing an object" true
        else .failed "key must be a string" false
      else if memberFront.isPrefixOf value then
        sampleString (value.drop memberFront.length) (memberEnd consumed)
      else .failed "key must be a string" false
  | _ => .failed "expected value" false

end Codex
end MicroEmu
