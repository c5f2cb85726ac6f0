import MicroEmu.Library.Scanner
import Mathlib.Data.List.Infix
import Mathlib.Data.List.TakeWhile

/-!
# Tailing a text that grows

A reader that tails a text keeps an offset and what it has made of the text before it.
Each poll sees some part of the text from its start and reads the complete lines behind
the offset; a line that cannot be decoded, or whose terminator has not arrived, stops the
poll at its start.  A poll that sees less than the offset starts again.

Whatever the polls saw before, a poll leaves the reader where one reading of what it saw
from the start leaves it.
-/

namespace MicroEmu
namespace Library

universe u v w

variable {α : Type u} {β : Type v} {σ : Type w}

/-! ## Lines -/

/-- The first line, with its terminator, and what follows it. -/
def firstLine (isEnd : α → Bool) : List α → Option (List α × List α)
  | [] => none
  | symbol :: rest =>
      if isEnd symbol then some ([symbol], rest)
      else (firstLine isEnd rest).map fun parts => (symbol :: parts.1, parts.2)

/-- The complete lines; what follows the last terminator is no line. -/
def completeLines (isEnd : α → Bool) : List α → List (List α)
  | [] => []
  | symbol :: rest =>
      if isEnd symbol then [symbol] :: completeLines isEnd rest
      else match completeLines isEnd rest with
        | [] => []
        | line :: lines => (symbol :: line) :: lines

variable {isEnd : α → Bool} {text line rest : List α}

theorem eq_append_of_firstLine (h : firstLine isEnd text = some (line, rest)) :
    text = line ++ rest := by
  induction text generalizing line rest with
  | nil => cases h
  | cons symbol text ih =>
      rw [firstLine] at h
      split at h
      · obtain ⟨rfl, rfl⟩ := Prod.mk.inj (Option.some.inj h)
        rfl
      · obtain ⟨parts, hparts, hsame⟩ := Option.map_eq_some_iff.mp h
        obtain ⟨rfl, rfl⟩ := Prod.mk.inj hsame
        rw [List.cons_append, ← ih hparts]

theorem length_firstLine_pos (h : firstLine isEnd text = some (line, rest)) :
    0 < line.length := by
  cases text with
  | nil => cases h
  | cons symbol text =>
      rw [firstLine] at h
      split at h
      · obtain ⟨rfl, -⟩ := Prod.mk.inj (Option.some.inj h)
        exact Nat.one_pos
      · obtain ⟨parts, -, hsame⟩ := Option.map_eq_some_iff.mp h
        obtain ⟨rfl, -⟩ := Prod.mk.inj hsame
        exact Nat.succ_pos _

theorem length_rest_lt (h : firstLine isEnd text = some (line, rest)) :
    rest.length < text.length := by
  have hlength := congrArg List.length (eq_append_of_firstLine h)
  have hpos := length_firstLine_pos h
  rw [List.length_append] at hlength
  omega

/-- A complete line stays the first one when the text grows. -/
theorem firstLine_append (h : firstLine isEnd text = some (line, rest)) (more : List α) :
    firstLine isEnd (text ++ more) = some (line, rest ++ more) := by
  induction text generalizing line rest with
  | nil => cases h
  | cons symbol text ih =>
      rw [firstLine] at h
      rw [List.cons_append, firstLine]
      split at h
      · rename_i hend
        obtain ⟨rfl, rfl⟩ := Prod.mk.inj (Option.some.inj h)
        rw [if_pos hend]
      · rename_i hend
        obtain ⟨parts, hparts, hsame⟩ := Option.map_eq_some_iff.mp h
        obtain ⟨rfl, rfl⟩ := Prod.mk.inj hsame
        rw [if_neg hend, ih hparts, Option.map_some]

/-- A line ends with its terminator. -/
theorem exists_getLast?_firstLine (h : firstLine isEnd text = some (line, rest)) :
    ∃ symbol, line.getLast? = some symbol ∧ isEnd symbol = true := by
  induction text generalizing line rest with
  | nil => cases h
  | cons symbol text ih =>
      rw [firstLine] at h
      split at h
      · rename_i hend
        obtain ⟨rfl, -⟩ := Prod.mk.inj (Option.some.inj h)
        exact ⟨symbol, rfl, hend⟩
      · obtain ⟨parts, hparts, hsame⟩ := Option.map_eq_some_iff.mp h
        obtain ⟨rfl, -⟩ := Prod.mk.inj hsame
        obtain ⟨last, hlast, hend⟩ := ih hparts
        exact ⟨last, by rw [List.getLast?_cons, hlast, Option.getD_some], hend⟩

/-- Where no line is complete there is no terminator. -/
theorem isEnd_eq_false_of_firstLine (h : firstLine isEnd text = none) :
    ∀ symbol ∈ text, isEnd symbol = false := by
  induction text with
  | nil => exact fun _ hmem => absurd hmem List.not_mem_nil
  | cons symbol text ih =>
      rw [firstLine] at h
      split at h
      · cases h
      · rename_i hend
        intro other hmem
        rcases List.mem_cons.mp hmem with rfl | hmem
        · exact Bool.not_eq_true _ ▸ hend
        · exact ih (Option.map_eq_none_iff.mp h) other hmem

/-- A line by itself. -/
theorem firstLine_line (h : firstLine isEnd text = some (line, rest)) :
    firstLine isEnd line = some (line, []) := by
  induction text generalizing line rest with
  | nil => cases h
  | cons symbol text ih =>
      rw [firstLine] at h
      split at h
      · rename_i hend
        obtain ⟨rfl, -⟩ := Prod.mk.inj (Option.some.inj h)
        rw [firstLine, if_pos hend]
      · rename_i hend
        obtain ⟨parts, hparts, hsame⟩ := Option.map_eq_some_iff.mp h
        obtain ⟨rfl, -⟩ := Prod.mk.inj hsame
        rw [firstLine, if_neg hend, ih hparts, Option.map_some]

theorem completeLines_of_none (h : firstLine isEnd text = none) :
    completeLines isEnd text = [] := by
  induction text with
  | nil => rfl
  | cons symbol text ih =>
      rw [firstLine] at h
      split at h
      · cases h
      · rename_i hend
        rw [completeLines, if_neg hend, ih (Option.map_eq_none_iff.mp h)]

theorem completeLines_of_some (h : firstLine isEnd text = some (line, rest)) :
    completeLines isEnd text = line :: completeLines isEnd rest := by
  induction text generalizing line rest with
  | nil => cases h
  | cons symbol text ih =>
      rw [firstLine] at h
      rw [completeLines]
      split at h
      · rename_i hend
        obtain ⟨rfl, rfl⟩ := Prod.mk.inj (Option.some.inj h)
        rw [if_pos hend]
      · rename_i hend
        obtain ⟨parts, hparts, hsame⟩ := Option.map_eq_some_iff.mp h
        obtain ⟨rfl, rfl⟩ := Prod.mk.inj hsame
        rw [if_neg hend, ih hparts]

/-- What holds of a text without a complete line, and of a text when it holds of what
follows its first line, holds of every text. -/
theorem lines_induction (isEnd : α → Bool) (motive : List α → Prop)
    (none : ∀ text, firstLine isEnd text = none → motive text)
    (line : ∀ text line rest, firstLine isEnd text = some (line, rest) → motive rest →
      motive text) (text : List α) : motive text := by
  induction hlength : text.length using Nat.strongRecOn generalizing text with
  | ind length ih =>
      subst hlength
      cases hline : firstLine isEnd text with
      | none => exact none text hline
      | some parts =>
          exact line text _ _ hline (ih parts.2.length (length_rest_lt hline) parts.2 rfl)

/-- A part of the text from its start has the first of its complete lines. -/
theorem completeLines_prefix (isEnd : α → Bool) {front text : List α} (h : front <+: text) :
    completeLines isEnd front <+: completeLines isEnd text := by
  obtain ⟨more, rfl⟩ := h
  induction front using lines_induction isEnd with
  | none front hline =>
      rw [completeLines_of_none hline]
      exact List.nil_prefix
  | line front line rest hline ih =>
      rw [completeLines_of_some hline, completeLines_of_some (firstLine_append hline more)]
      exact (List.prefix_cons_inj line).mpr ih

/-- What follows the complete lines is read with what comes. -/
theorem completeLines_append (h : text = (completeLines isEnd text).flatten ++ rest)
    (more : List α) : completeLines isEnd (text ++ more) =
      completeLines isEnd text ++ completeLines isEnd (rest ++ more) := by
  induction text using lines_induction isEnd with
  | none text hline =>
      rw [completeLines_of_none hline, List.flatten_nil, List.nil_append] at h
      rw [completeLines_of_none hline, List.nil_append, h]
  | line text line after hline ih =>
      have hafter : after = (completeLines isEnd after).flatten ++ rest := by
        rw [completeLines_of_some hline, List.flatten_cons, List.append_assoc] at h
        exact List.append_cancel_left ((eq_append_of_firstLine hline).symm.trans h)
      rw [completeLines_of_some hline, completeLines_of_some (firstLine_append hline more),
        ih hafter, List.cons_append]

/-! ## Handlers of lines -/

/-- The complete lines of a buffer are handled one after another, until the state stops it. -/
def handleLines (isEnd : α → Bool) (handle : σ → List α → σ) (stops : σ → Bool) (state : σ)
    (buffer : List α) : σ × List α :=
  match _hline : firstLine isEnd buffer with
  | none => (state, buffer)
  | some (line, rest) =>
      if stops (handle state line) then (handle state line, rest)
      else handleLines isEnd handle stops (handle state line) rest
termination_by buffer.length
decreasing_by exact length_rest_lt _hline

variable {handle : σ → List α → σ} {stops : σ → Bool} {state : σ} {buffer : List α}

theorem handleLines_of_none (h : firstLine isEnd buffer = none) :
    handleLines isEnd handle stops state buffer = (state, buffer) := by
  rw [handleLines, h]

theorem handleLines_of_some (h : firstLine isEnd buffer = some (line, rest)) :
    handleLines isEnd handle stops state buffer =
      if stops (handle state line) then (handle state line, rest)
      else handleLines isEnd handle stops (handle state line) rest := by
  rw [handleLines, h]

/-- What every line keeps, all of them keep. -/
theorem handleLines_invariant (inv : σ → Prop)
    (hline : ∀ {state} line, inv state → inv (handle state line)) (hinv : inv state)
    (buffer : List α) : inv (handleLines isEnd handle stops state buffer).1 := by
  induction buffer using lines_induction isEnd generalizing state with
  | none buffer h =>
      rw [handleLines_of_none h]
      exact hinv
  | line buffer line rest h ih =>
      rw [handleLines_of_some h]
      split
      · exact hline line hinv
      · exact ih (hline line hinv)

/-! ## The scanner of decodable lines -/

/-- The scanner that emits what the next line decodes to, and waits at a line that is
not complete or cannot be decoded. -/
def lineScanner (isEnd : α → Bool) (decode : List α → Option β) : Scanner α β where
  look text :=
    match firstLine isEnd text with
    | none => .wait text
    | some (line, rest) =>
        match decode line with
        | none => .wait text
        | some value => .emit value rest
  rest_lt := by
    intro buffer result rest h
    cases hline : firstLine isEnd buffer with
    | none =>
        simp only [hline] at h
        cases h
    | some parts =>
        simp only [hline] at h
        split at h
        · cases h
        · obtain ⟨-, rfl⟩ := Verdict.emit.inj h
          exact length_rest_lt hline
  kept_le := by
    intro buffer kept h
    split at h
    · exact Nat.le_of_eq (congrArg List.length (Verdict.wait.inj h)).symm
    · split at h
      · exact Nat.le_of_eq (congrArg List.length (Verdict.wait.inj h)).symm
      · cases h

variable {decode : List α → Option β}

/-- The scanner emits exactly a first line that decodes. -/
theorem look_eq_emit_iff {value : β} :
    (lineScanner isEnd decode).look text = .emit value rest ↔
      ∃ line, firstLine isEnd text = some (line, rest) ∧ decode line = some value := by
  show (match firstLine isEnd text with
    | none => Verdict.wait text
    | some (line, rest) =>
        match decode line with
        | none => Verdict.wait text
        | some value => Verdict.emit value rest) = .emit value rest ↔ _
  cases hline : firstLine isEnd text with
  | none => simp
  | some parts =>
      obtain ⟨found, after⟩ := parts
      cases hdecode : decode found with
      | none =>
          simp only [hdecode, reduceCtorEq, Option.some.injEq, Prod.mk.injEq, false_iff, not_exists]
          rintro line ⟨⟨rfl, -⟩, hvalue⟩
          rw [hdecode] at hvalue
          cases hvalue
      | some other =>
          simp only [hdecode, Verdict.emit.injEq, Option.some.injEq, Prod.mk.injEq]
          constructor
          · rintro ⟨rfl, rfl⟩
            exact ⟨found, ⟨rfl, rfl⟩, hdecode⟩
          · rintro ⟨line, ⟨rfl, rfl⟩, hvalue⟩
            rw [hdecode] at hvalue
            exact ⟨Option.some.inj hvalue, rfl⟩

/-- A scanner that waits keeps its whole buffer. -/
theorem look_eq_wait {kept : List α}
    (h : (lineScanner isEnd decode).look text = .wait kept) : kept = text := by
  change (match firstLine isEnd text with
    | none => Verdict.wait text
    | some (line, rest) =>
        match decode line with
        | none => Verdict.wait text
        | some value => Verdict.emit value rest) = .wait kept at h
  split at h
  · exact (Verdict.wait.inj h).symm
  · split at h
    · exact (Verdict.wait.inj h).symm
    · cases h

theorem lineScanner_incremental (isEnd : α → Bool) (decode : List α → Option β) :
    (lineScanner isEnd decode).Incremental where
  emit_append := by
    intro buffer result rest h more
    obtain ⟨line, hline, hvalue⟩ := look_eq_emit_iff.mp h
    exact look_eq_emit_iff.mpr ⟨line, firstLine_append hline more, hvalue⟩
  wait_append := by
    intro buffer kept h more
    rw [look_eq_wait h]

/-! ## What one reading makes of a text -/

/-- The lines before the first one that cannot be decoded. -/
def readableLines (isEnd : α → Bool) (decode : List α → Option β) (text : List α) :
    List (List α) :=
  (completeLines isEnd text).takeWhile fun line => (decode line).isSome

theorem readableLines_of_none (h : firstLine isEnd text = none) :
    readableLines isEnd decode text = [] := by
  rw [readableLines, completeLines_of_none h, List.takeWhile_nil]

theorem readableLines_of_undecoded (h : firstLine isEnd text = some (line, rest))
    (hvalue : decode line = none) : readableLines isEnd decode text = [] := by
  rw [readableLines, completeLines_of_some h,
    List.takeWhile_cons_of_neg (by rw [hvalue]; exact Bool.false_ne_true)]

theorem readableLines_of_decoded (h : firstLine isEnd text = some (line, rest)) {value : β}
    (hvalue : decode line = some value) :
    readableLines isEnd decode text = line :: readableLines isEnd decode rest := by
  rw [readableLines, completeLines_of_some h,
    List.takeWhile_cons_of_pos (by rw [hvalue]; rfl), readableLines]

/-- Where every complete line can be decoded, all of them are readable. -/
theorem readableLines_eq (h : ∀ line ∈ completeLines isEnd text, (decode line).isSome = true) :
    readableLines isEnd decode text = completeLines isEnd text :=
  List.takeWhile_eq_self_iff.mpr h

/-- The readable lines are those of the text they make up. -/
theorem readableLines_take (text : List α) :
    readableLines isEnd decode (text.take (readableLines isEnd decode text).flatten.length) =
      readableLines isEnd decode text := by
  induction text using lines_induction isEnd with
  | none text h =>
      rw [readableLines_of_none h]
      rfl
  | line text line rest h ih =>
      cases hvalue : decode line with
      | none =>
          rw [readableLines_of_undecoded h hvalue]
          rfl
      | some value =>
          have htext := eq_append_of_firstLine h
          have hline : firstLine isEnd (line ++ rest.take
              (readableLines isEnd decode rest).flatten.length) =
              some (line, rest.take (readableLines isEnd decode rest).flatten.length) :=
            firstLine_append (firstLine_line h) _
          rw [readableLines_of_decoded h hvalue, List.flatten_cons, List.length_append, htext,
            List.take_length_add_append, readableLines_of_decoded hline hvalue, ih]

/-- A scan emits what the readable lines decode to, and stops behind them. -/
theorem scan_lineScanner (isEnd : α → Bool) (decode : List α → Option β) (position : Nat)
    (text : List α) :
    ((lineScanner isEnd decode).scan ⟨position, text⟩).1.map Prod.fst =
        (readableLines isEnd decode text).filterMap decode ∧
      ((lineScanner isEnd decode).scan ⟨position, text⟩).2 =
        ⟨position + (readableLines isEnd decode text).flatten.length,
          text.drop (readableLines isEnd decode text).flatten.length⟩ := by
  generalize hcursor : (⟨position, text⟩ : Cursor α) = cursor
  induction cursor using Scanner.scan_induction (lineScanner isEnd decode)
    generalizing position text with
  | wait cursor kept h =>
      subst hcursor
      -- nothing is readable where the scanner waits
      have hnone : readableLines isEnd decode text = [] := by
        cases hline : firstLine isEnd text with
        | none => exact readableLines_of_none hline
        | some parts =>
            obtain ⟨line, rest⟩ := parts
            cases hvalue : decode line with
            | none => exact readableLines_of_undecoded hline hvalue
            | some value =>
                have hemit : (lineScanner isEnd decode).look text = .emit value rest :=
                  look_eq_emit_iff.mpr ⟨line, hline, hvalue⟩
                rw [h] at hemit
                cases hemit
      rw [Scanner.scan_of_wait _ h, look_eq_wait h, hnone]
      exact ⟨rfl, by simp [Scanner.advance]⟩
  | emit cursor result rest h ih =>
      subst hcursor
      obtain ⟨line, hline, hvalue⟩ := look_eq_emit_iff.mp h
      have htext : text = line ++ rest := eq_append_of_firstLine hline
      have hcons := readableLines_of_decoded hline hvalue
      have hadvance : Scanner.advance ⟨position, text⟩ rest =
          (⟨position + line.length, rest⟩ : Cursor α) := by
        have hlength := congrArg List.length htext
        rw [List.length_append] at hlength
        simp only [Scanner.advance, Cursor.mk.injEq, and_true]
        omega
      obtain ⟨hresults, hcursor⟩ := ih (position + line.length) rest hadvance.symm
      rw [Scanner.scan_of_emit _ h, hcons]
      constructor
      · rw [List.map_cons, hresults, List.filterMap_cons_some hvalue]
      · rw [hcursor, List.flatten_cons, List.length_append, Nat.add_assoc]
        conv_rhs => rw [htext, List.drop_length_add_append]

/-! ## A reader's mark -/

/-- How far a reader has come, and what it has made of the text up to there. -/
structure Mark (σ : Type w) where
  offset : Nat
  state : σ
  deriving DecidableEq, Repr

namespace Mark

variable (isEnd : α → Bool) (decode : List α → Option β) (apply : σ → β → σ)

/-- One reading of what lies behind the mark. -/
def read (mark : Mark σ) (text : List α) : Mark σ :=
  let last := (lineScanner isEnd decode).scan ⟨mark.offset, text.drop mark.offset⟩
  ⟨last.2.position, (last.1.map Prod.fst).foldl apply mark.state⟩

/-- A poll that sees less than the mark's offset starts again. -/
def poll (fresh : σ) (mark : Mark σ) (text : List α) : Mark σ :=
  if text.length < mark.offset then (Mark.mk 0 fresh).read isEnd decode apply text
  else mark.read isEnd decode apply text

/-- The mark after one reading of the whole text. -/
def reached (fresh : σ) (text : List α) : Mark σ :=
  (Mark.mk 0 fresh).read isEnd decode apply text

variable {isEnd decode apply} {fresh : σ}

/-- A reading applies what the readable lines decode to and stops behind them. -/
theorem read_eq (mark : Mark σ) (text : List α) :
    mark.read isEnd decode apply text =
      ⟨mark.offset + (readableLines isEnd decode (text.drop mark.offset)).flatten.length,
        ((readableLines isEnd decode (text.drop mark.offset)).filterMap decode).foldl apply
          mark.state⟩ := by
  obtain ⟨hresults, hcursor⟩ :=
    scan_lineScanner isEnd decode mark.offset (text.drop mark.offset)
  rw [read, hresults, hcursor]

theorem reached_eq (text : List α) :
    reached isEnd decode apply fresh text =
      ⟨(readableLines isEnd decode text).flatten.length,
        ((readableLines isEnd decode text).filterMap decode).foldl apply fresh⟩ := by
  rw [reached, read_eq, List.drop_zero, Nat.zero_add]

/-- A reading that goes on from the mark of a part of the text is one reading of the
text. -/
theorem read_reached {text front : List α} (h : front <+: text) :
    (reached isEnd decode apply fresh front).read isEnd decode apply text =
      reached isEnd decode apply fresh text := by
  obtain ⟨more, rfl⟩ := h
  have hfront := (scan_lineScanner isEnd decode 0 front).2
  rw [Nat.zero_add] at hfront
  have hle : (readableLines isEnd decode front).flatten.length ≤ front.length := by
    have hposition := Scanner.scan_position (lineScanner isEnd decode) ⟨0, front⟩
    rw [hfront] at hposition
    simp only [List.length_drop, Nat.zero_add] at hposition
    omega
  have hwhole := (lineScanner_incremental isEnd decode).scan_append ⟨0, front⟩ more
  simp only [hfront, Scanner.feed] at hwhole
  simp only [reached, read, List.drop_zero, hwhole, hfront, List.map_append, List.foldl_append,
    List.drop_append_of_le_length hle]

/-- The mark depends only on the text before its offset. -/
theorem reached_take (text : List α) :
    reached isEnd decode apply fresh
        (text.take (reached isEnd decode apply fresh text).offset) =
      reached isEnd decode apply fresh text := by
  rw [reached_eq text]
  rw [reached_eq, readableLines_take]

/-- Whatever part of a text was read before, a poll of a part of it leaves the mark
where one reading of that part leaves it. -/
theorem poll_reached {text before now : List α} (hbefore : before <+: text)
    (hnow : now <+: text) :
    (reached isEnd decode apply fresh before).poll isEnd decode apply fresh now =
      reached isEnd decode apply fresh now := by
  rw [poll]
  split
  · rfl
  · rename_i hle
    -- what has been read is a part of what the poll sees
    rw [← reached_take before]
    refine read_reached ?_
    refine List.prefix_of_prefix_length_le ((List.take_prefix _ _).trans hbefore) hnow ?_
    exact (List.length_take_le _ _).trans (Nat.le_of_not_lt hle)

/-- The mark has passed the first lines exactly if all of them can be decoded. -/
theorem le_offset_reached_iff {text : List α} {count : Nat}
    (hcount : count ≤ (completeLines isEnd text).length) :
    ((completeLines isEnd text).take count).flatten.length ≤
        (reached isEnd decode apply fresh text).offset ↔
      ∀ line ∈ (completeLines isEnd text).take count, (decode line).isSome = true := by
  rw [reached_eq]
  induction text using lines_induction isEnd generalizing count with
  | none text h =>
      rw [completeLines_of_none h]
      simp
  | line text line rest h ih =>
      rw [completeLines_of_some h] at hcount ⊢
      cases count with
      | zero => simp
      | succ count =>
          have hpos := length_firstLine_pos h
          rw [List.take_succ_cons, List.flatten_cons, List.length_append, List.forall_mem_cons]
          cases hvalue : decode line with
          | none =>
              rw [readableLines_of_undecoded h hvalue]
              constructor
              · intro hle
                exact absurd hle (by simp only [List.flatten_nil, List.length_nil]; omega)
              · intro hall
                exact absurd hall.1 Bool.false_ne_true
          | some value =>
              rw [readableLines_of_decoded h hvalue, List.flatten_cons, List.length_append,
                Nat.add_le_add_iff_left, ih (Nat.le_of_succ_le_succ hcount)]
              exact ⟨fun hall => ⟨rfl, hall⟩, fun hall => hall.2⟩

end Mark

end Library
end MicroEmu
