import MicroEmu.Feeds.CodexState

/-!
# Polling a file that grows

The rollout cursor and the focus cursor tail their files in the same way: each poll goes on
at the offset, reads the complete lines behind it and applies them.  Whatever part of the
file the polls before saw, the cursor after a poll is the one that a single reading of what
it saw gives.  So a rollout read in pieces gives the lifecycle of the rollout read at once.

A complete line that is not UTF-8 is read again by every later poll: the cursor stays
before it for ever.
-/

namespace MicroEmu
namespace Feeds

open Json (Value)
open Library (completeLines readableLines decodeUtf8 encodeUtf8 firstLine Mark)

/-! ## The read loop -/

/-- A text ends with a newline exactly if its bytes do. -/
theorem endsWithNewline_iff {bytes : List UInt8} {line : String}
    (h : decodeUtf8 bytes = some line) :
    endsWithNewline line = true ↔ bytes.getLast? = some 10 := by
  rw [endsWithNewline, beq_iff_eq, ← Library.getLast?_encodeUtf8_eq_newline_iff,
    Library.encodeUtf8_of_decodeUtf8 h]

/-- What the loop does where no line is complete. -/
theorem readLine_open {unread : List UInt8} {line : String} {bytes : Nat}
    (hopen : firstLine isNewline unread = none) (h : readLine unread = some (line, bytes)) :
    endsWithNewline line = false := by
  simp only [readLine, hopen] at h
  obtain ⟨text, htext, hsame⟩ := Option.map_eq_some_iff.mp h
  obtain ⟨rfl, -⟩ := Prod.mk.inj hsame
  rw [← Bool.not_eq_true, endsWithNewline_iff htext]
  intro hlast
  have hnone := Library.isEnd_eq_false_of_firstLine hopen 10 (List.mem_of_getLast? hlast)
  cases hnone

/-- What the loop reads where a line is complete. -/
theorem readLine_complete {unread bytes rest : List UInt8}
    (h : firstLine isNewline unread = some (bytes, rest)) :
    readLine unread = (decodeUtf8 bytes).map fun line => (line, bytes.length) := by
  simp only [readLine, h]

theorem endsWithNewline_complete {unread bytes rest : List UInt8} {line : String}
    (h : firstLine isNewline unread = some (bytes, rest)) (hline : decodeUtf8 bytes = some line) :
    endsWithNewline line = true := by
  obtain ⟨byte, hlast, hend⟩ := Library.exists_getLast?_firstLine h
  obtain rfl : byte = 10 := beq_iff_eq.mp hend
  exact (endsWithNewline_iff hline).mpr hlast

variable {σ : Type}

/-- The loop applies the readable lines and stops behind them. -/
theorem readLoop_eq (apply : σ → String → σ) (unread : List UInt8) {fuel offset : Nat}
    (state : σ) (hfuel : unread.length < fuel) (hfits : offset + unread.length < 2 ^ 64) :
    (readLoop apply fuel offset state unread).2 =
      (offset + (readableLines isNewline decodeUtf8 unread).flatten.length,
        ((readableLines isNewline decodeUtf8 unread).filterMap decodeUtf8).foldl apply state) := by
  -- one turn of the loop takes the first line, as long as it can be decoded
  induction unread using Library.lines_induction isNewline generalizing fuel offset state with
  | none unread hopen =>
      obtain ⟨fuel, rfl⟩ := Nat.exists_eq_add_of_le' (Nat.succ_le_of_lt (Nat.zero_lt_of_lt hfuel))
      rw [Library.readableLines_of_none hopen, readLoop]
      cases hread : readLine unread with
      | none => rfl
      | some read =>
          simp only [readLine_open hopen hread, Bool.false_eq_true, if_false]
          split <;> rfl
  | line unread bytes rest hline ih =>
      obtain ⟨fuel, rfl⟩ := Nat.exists_eq_add_of_le' (Nat.succ_le_of_lt (Nat.zero_lt_of_lt hfuel))
      rw [readLoop, readLine_complete hline]
      cases htext : decodeUtf8 bytes with
      | none =>
          rw [Library.readableLines_of_undecoded hline htext]
          rfl
      | some text =>
          have hpos := Library.length_firstLine_pos hline
          have hunread := Library.eq_append_of_firstLine hline
          have hlength := congrArg List.length hunread
          rw [List.length_append] at hlength
          have hadd : saturatingAddU64 offset bytes.length = offset + bytes.length :=
            Nat.min_eq_left (by omega)
          simp only [Option.map_some, Nat.ne_of_gt hpos, if_false,
            endsWithNewline_complete hline htext, if_true, hadd]
          have hdrop : unread.drop bytes.length = rest := by rw [hunread, List.drop_left]
          rw [hdrop, ih _ (by omega) (by omega), Library.readableLines_of_decoded hline htext,
            List.flatten_cons, List.length_append, List.filterMap_cons_some htext,
            List.foldl_cons, Nat.add_assoc]

/-- One reading of a file moves a mark. -/
theorem readFrom_eq (apply : σ → String → σ) (mark : Mark σ) (file : File)
    (hmark : mark.offset ≤ file.bytes.length) :
    (readFrom apply mark.offset mark.state file.bytes).2 =
      ((mark.read isNewline decodeUtf8 apply file.bytes).offset,
        (mark.read isNewline decodeUtf8 apply file.bytes).state) := by
  have hfits := file.length_lt
  rw [Mark.read_eq, readFrom]
  refine readLoop_eq apply _ mark.state (Nat.lt_succ_self _) ?_
  rw [List.length_drop]
  omega

/-! ## Cursors -/

/-- What the two cursors share: a line changes neither path nor offset, and reads
neither. -/
structure Tailer (σ : Type) where
  apply : σ → String → σ
  path : σ → String
  offset : σ → Nat
  withOffset : σ → Nat → σ
  /-- The cursor at the start of the file of a path. -/
  fresh : String → σ
  path_fresh : ∀ name, path (fresh name) = name
  path_apply : ∀ cursor line, path (apply cursor line) = path cursor
  path_withOffset : ∀ cursor position, path (withOffset cursor position) = path cursor
  offset_withOffset : ∀ cursor position, offset (withOffset cursor position) = position
  withOffset_withOffset : ∀ cursor old new,
    withOffset (withOffset cursor old) new = withOffset cursor new
  withOffset_fresh : ∀ name, withOffset (fresh name) 0 = fresh name
  apply_withOffset : ∀ cursor position line,
    apply (withOffset cursor position) line = withOffset (apply cursor line) position

namespace Tailer

variable (tailer : Tailer σ) (name : String)

/-- A poll of a file that can be read. -/
def poll (file : File) (cursor : σ) : σ :=
  let cursor := if tailer.path cursor ≠ name ∨ file.bytes.length < tailer.offset cursor then
    tailer.fresh name else cursor
  if file.bytes.length = tailer.offset cursor then cursor
  else
    let read := readFrom tailer.apply (tailer.offset cursor) cursor file.bytes
    tailer.withOffset read.2.2 read.2.1

/-- The mark of one reading. -/
def markAt (bytes : List UInt8) : Mark σ :=
  Mark.reached isNewline decodeUtf8 tailer.apply (tailer.fresh name) bytes

/-- The cursor of one reading. -/
def cursorAt (bytes : List UInt8) : σ :=
  tailer.withOffset (tailer.markAt name bytes).state (tailer.markAt name bytes).offset

variable {tailer name}

theorem path_foldl (lines : List String) (cursor : σ) :
    tailer.path (lines.foldl tailer.apply cursor) = tailer.path cursor := by
  induction lines generalizing cursor with
  | nil => rfl
  | cons line lines ih => rw [List.foldl_cons, ih, tailer.path_apply]

theorem foldl_withOffset (lines : List String) (cursor : σ) (position : Nat) :
    lines.foldl tailer.apply (tailer.withOffset cursor position) =
      tailer.withOffset (lines.foldl tailer.apply cursor) position := by
  induction lines generalizing cursor with
  | nil => rfl
  | cons line lines ih => rw [List.foldl_cons, List.foldl_cons, tailer.apply_withOffset, ih]

@[simp] theorem offset_cursorAt (bytes : List UInt8) :
    tailer.offset (tailer.cursorAt name bytes) = (tailer.markAt name bytes).offset :=
  tailer.offset_withOffset _ _

@[simp] theorem path_cursorAt (bytes : List UInt8) :
    tailer.path (tailer.cursorAt name bytes) = name := by
  rw [cursorAt, tailer.path_withOffset, markAt, Mark.reached_eq]
  exact (path_foldl _ _).trans (tailer.path_fresh name)

/-- At the start of a file nothing has been read. -/
theorem cursorAt_nil (tailer : Tailer σ) (name : String) :
    tailer.cursorAt name [] = tailer.fresh name := by
  rw [cursorAt, markAt, Mark.reached_eq]
  exact tailer.withOffset_fresh name

/-- Reading on from the cursor of a mark. -/
theorem withOffset_readFrom (tailer : Tailer σ) (mark : Mark σ) (file : File)
    (hmark : mark.offset ≤ file.bytes.length) :
    tailer.withOffset
        (readFrom tailer.apply mark.offset (tailer.withOffset mark.state mark.offset)
          file.bytes).2.2
        (readFrom tailer.apply mark.offset (tailer.withOffset mark.state mark.offset)
          file.bytes).2.1 =
      tailer.withOffset (mark.read isNewline decodeUtf8 tailer.apply file.bytes).state
        (mark.read isNewline decodeUtf8 tailer.apply file.bytes).offset := by
  have hread := readFrom_eq tailer.apply ⟨mark.offset, tailer.withOffset mark.state mark.offset⟩
    file hmark
  rw [hread, Mark.read_eq, Mark.read_eq, foldl_withOffset, tailer.withOffset_withOffset]

/-- A poll leaves the cursor that one reading of what it sees gives, whatever part of the
file was read before. -/
theorem poll_cursorAt (file : File) (before now : Nat) :
    tailer.poll name (file.cut now) (tailer.cursorAt name (file.cut before).bytes) =
      tailer.cursorAt name (file.cut now).bytes := by
  have hpoll : (tailer.markAt name (file.cut before).bytes).poll isNewline decodeUtf8
      tailer.apply (tailer.fresh name) (file.cut now).bytes =
        tailer.markAt name (file.cut now).bytes :=
    Mark.poll_reached (List.take_prefix before file.bytes) (List.take_prefix now file.bytes)
  rw [Mark.poll] at hpoll
  have hsame : ¬tailer.path (tailer.cursorAt name (file.cut before).bytes) ≠ name :=
    fun h => h (path_cursorAt _)
  simp only [poll, hsame, false_or, offset_cursorAt]
  split at hpoll
  · rename_i hshort
    -- the file has become shorter, so it is read from its start
    simp only [hshort, if_true]
    rw [← cursorAt_nil tailer name, offset_cursorAt]
    have hstart : tailer.markAt name [] = ⟨0, tailer.fresh name⟩ := by
      rw [markAt, Mark.reached_eq]
      rfl
    split
    · rename_i hempty
      rw [hstart] at hempty
      rw [List.length_eq_zero_iff.mp hempty]
    · rw [cursorAt, hstart,
        withOffset_readFrom tailer ⟨0, tailer.fresh name⟩ _ (Nat.zero_le _), hpoll, cursorAt]
  · rename_i hlong
    simp only [hlong, if_false, offset_cursorAt]
    have hread := withOffset_readFrom tailer (tailer.markAt name (file.cut before).bytes)
      (file.cut now) (Nat.le_of_not_lt hlong)
    rw [hpoll] at hread
    split
    · rename_i hend
      -- nothing lies behind the offset, so a reading would change nothing
      have hnone : (file.cut now).bytes.drop
          (tailer.markAt name (file.cut before).bytes).offset = [] := by
        rw [← hend, List.drop_length]
      rw [Mark.read_eq, hnone] at hpoll
      rw [cursorAt, cursorAt, ← hpoll]
      rfl
    · exact hread

/-- The first poll reads from the start, whether it finds a cursor of another path or a
fresh one. -/
theorem poll_fresh (file : File) {old : String} (now : Nat) :
    tailer.poll name (file.cut now) (tailer.fresh old) =
      tailer.cursorAt name (file.cut now).bytes := by
  have hstart : tailer.poll name (file.cut now) (tailer.fresh old) =
      tailer.poll name (file.cut now) (tailer.fresh name) := by
    by_cases hname : old = name
    · rw [hname]
    · have hpath : tailer.path (tailer.fresh old) ≠ name := by rwa [tailer.path_fresh]
      have hoffset : tailer.offset (tailer.fresh name) = 0 := by
        rw [← tailer.withOffset_fresh name, tailer.offset_withOffset]
      simp only [poll, hpath, ne_eq, not_false_eq_true, true_or, if_true, hoffset,
        Nat.not_lt_zero, or_false, ite_self]
  rw [hstart, ← cursorAt_nil tailer name]
  exact poll_cursorAt file 0 now

/-- The polls of parts of the file, one after the other. -/
def pollAll (tailer : Tailer σ) (name : String) (file : File) (cuts : List Nat)
    (cursor : σ) : σ :=
  cuts.foldl (fun cursor length => tailer.poll name (file.cut length) cursor) cursor

/-- After the polls the cursor is that of one reading of what the last one saw. -/
theorem pollAll_fresh (file : File) (old : String) (cuts : List Nat) (last : Nat) :
    tailer.pollAll name file (cuts ++ [last]) (tailer.fresh old) =
      tailer.cursorAt name (file.cut last).bytes := by
  rw [pollAll, List.foldl_append]
  induction cuts using List.reverseRecOn generalizing last with
  | nil => exact poll_fresh file last
  | append_singleton cuts cut ih =>
      have hbefore : (cuts ++ [cut]).foldl
          (fun cursor length => tailer.poll name (file.cut length) cursor) (tailer.fresh old) =
            tailer.cursorAt name (file.cut cut).bytes := by
        rw [List.foldl_append]
        exact ih cut
      rw [hbefore]
      exact poll_cursorAt file cut last

end Tailer

end Feeds
end MicroEmu
