import MicroEmu.Library.Tailing
import MicroEmu.Library.Utf8
import MicroEmu.Tasks.Basic

/-!
# The automatic feeds: files, texts and values

The daemon mirrors the sessions of four agents onto the task board.  It reads what the
agents keep on disk: Codex's rollout files and focus log, Claude's session records and
Hermes' cached responses.  This module holds what these readers share.
-/

namespace MicroEmu
namespace Feeds

open Json (Value)

/-- `TASK_PRIORITY_ACTIVE`. -/
def taskPriorityActive : Nat := 75

/-- `TASK_PRIORITY_IDLE`. -/
def taskPriorityIdle : Nat := 40

/-! ## Files -/

/-- The content of a file.  Its length is the `u64` of `metadata().len()`. -/
structure File where
  bytes : List UInt8
  length_lt : bytes.length < 2 ^ 64

namespace File

/-- The file while only so many of its bytes have been written. -/
def cut (file : File) (length : Nat) : File where
  bytes := file.bytes.take length
  length_lt := Nat.lt_of_le_of_lt (List.length_take_le' _ _) file.length_lt

end File

/-- What a poll meets at a path whose metadata it could read: the length, and the content
if the file could be opened. -/
structure FileView where
  length : Nat
  content : Option (List UInt8)
  deriving DecidableEq, Repr

/-- A file that can be read. -/
def File.view (file : File) : FileView := ⟨file.bytes.length, some file.bytes⟩

/-- The byte that ends a line. -/
def isNewline (byte : UInt8) : Bool := byte == 10

/-- `BufRead::read_line`: the text up to and with the next newline, or all that is left,
and how many bytes it takes.  It fails when these bytes are no UTF-8. -/
def readLine (unread : List UInt8) : Option (String × Nat) :=
  let bytes := match Library.firstLine isNewline unread with
    | some (line, _) => line
    | none => unread
  (Library.decodeUtf8 bytes).map fun line => (line, bytes.length)

/-- `line.ends_with('\n')`. -/
def endsWithNewline (line : String) : Bool := line.toList.getLast? == some '\n'

/-- `u64::saturating_add`. -/
def saturatingAddU64 (a b : Nat) : Nat := min (a + b) (2 ^ 64 - 1)

/-- The read loop of `refresh_rollout` and `refresh_focused_task`, for at most so many
lines: whether it ended without a read error, the offset, and what the complete lines were
applied to. -/
def readLoop {σ : Type} (apply : σ → String → σ) :
    Nat → Nat → σ → List UInt8 → Bool × Nat × σ
  | 0, offset, state, _ => (true, offset, state)
  | fuel + 1, offset, state, unread =>
      let lineStart := offset
      match readLine unread with
      -- a read error ends the poll with the offset at the start of the line
      | none => (false, offset, state)
      | some (line, bytes) =>
          if bytes = 0 then (true, offset, state)
          else if endsWithNewline line then
            readLoop apply fuel (saturatingAddU64 offset bytes) (apply state line)
              (unread.drop bytes)
          else
            (true, lineStart, state)

/-- The read loop on a file, from an offset on; no file has more lines than bytes. -/
def readFrom {σ : Type} (apply : σ → String → σ) (offset : Nat) (state : σ)
    (bytes : List UInt8) : Bool × Nat × σ :=
  let unread := bytes.drop offset
  readLoop apply (unread.length + 1) offset state unread

/-! ## Texts -/

/-- `str::contains`. -/
def contains (text part : String) : Bool := (Json.splitOnce text part).isSome

/-- The words of a text, the one that is being read included. -/
def wordsFrom : List Char → List Char → List (List Char)
  | word, [] => if word.isEmpty then [] else [word]
  | word, c :: rest =>
      if Json.isWhitespace c then
        if word.isEmpty then wordsFrom [] rest else word :: wordsFrom [] rest
      else
        wordsFrom (word ++ [c]) rest

/-- `str::split_whitespace`. -/
def splitWhitespace (text : String) : List String :=
  (wordsFrom [] text.toList).map String.ofList

/-- `value.trim().to_ascii_lowercase().replace(['-', ' '], "_")`. -/
def statusWord (value : String) : String :=
  String.ofList ((Json.toAsciiLowercase (Json.trim value)).toList.map fun c =>
    if c = '-' ∨ c = ' ' then '_' else c)

/-! ## Values -/

/-- A field of a value that is a string. -/
def strField (value : Value) (key : String) : Option String :=
  (value.get? key).bind Value.asStr

/-- `json!` of a `u128`.  A value that does not fit `u64` has no JSON number, and the
macro panics. -/
def jsonMs (ms : Nat) : Except String Value :=
  if ms < 2 ^ 64 then .ok (.ofNat ms) else .error "number out of range"

/-- `json!` of an `Option<u128>`. -/
def jsonOptMs : Option Nat → Except String Value
  | none => .ok .null
  | some ms => jsonMs ms

end Feeds
end MicroEmu
