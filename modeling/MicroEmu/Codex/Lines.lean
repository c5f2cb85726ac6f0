import MicroEmu.Codex.Decoder
import Mathlib.Data.List.DropRight
import Mathlib.Data.List.TakeWhile

/-!
# Streams of lines

A stream is a list of lines, each behind its own CRLF.  A line is one JSON object, or the
parser rejects it.  What the decoder has not consumed, its buffer and the bytes still to
come, begins with the lines that are left, but for terminators in front.

A call that comes to a rejected line returns an error.  It loses nothing when it decoded
no object before it and when the line's CRLF has arrived.
-/

namespace MicroEmu
namespace Codex

open Json (Value)

/-! ## Terminators -/

theorem stripTerminators_cons {first : UInt8} (h : isTerminator first = false)
    (rest : List UInt8) : stripTerminators (first :: rest) = first :: rest := by
  rw [stripTerminators, List.dropWhile_cons_of_neg (by rw [h]; exact Bool.false_ne_true)]

theorem stripTerminators_append (front back : List UInt8) :
    stripTerminators (front ++ back) =
      if stripTerminators front = [] then stripTerminators back
      else stripTerminators front ++ back := by
  rw [stripTerminators, List.dropWhile_append, stripTerminators]
  cases front.dropWhile isTerminator <;> rfl

theorem stripTerminators_idem (buffer : List UInt8) :
    stripTerminators (stripTerminators buffer) = stripTerminators buffer :=
  List.dropWhile_idempotent isTerminator buffer

theorem length_stripTerminators_le (buffer : List UInt8) :
    (stripTerminators buffer).length ≤ buffer.length :=
  (List.dropWhile_suffix isTerminator).length_le

theorem stripTerminators_crlf (rest : List UInt8) :
    stripTerminators (13 :: 10 :: rest) = stripTerminators rest := rfl

/-- Stripping a part of the front first does not matter. -/
theorem stripTerminators_strip_append (front back : List UInt8) :
    stripTerminators (stripTerminators front ++ back) = stripTerminators (front ++ back) := by
  rw [stripTerminators_append, stripTerminators_append, stripTerminators_idem]

/-- The first CRLF behind bytes without one. -/
theorem findCrlf_append {core : List UInt8} (h : findCrlf core = none) (rest : List UInt8) :
    findCrlf (core ++ 13 :: 10 :: rest) = some core.length :=
  Library.findPair_append (by decide) h rest

/-! ## Lines -/

/-- A part of what starts with a text is a part of the text, or starts with it. -/
theorem prefix_or_append {buffer unread text rest : List UInt8}
    (h : buffer ++ unread = text ++ rest) :
    (∃ more, buffer = text ++ more ∧ more ++ unread = rest) ∨
      ∃ back, back ≠ [] ∧ text = buffer ++ back ∧ unread = back ++ rest := by
  rcases List.append_eq_append_iff.mp h with ⟨back, htext, hunread⟩ | ⟨more, hbuffer, hrest⟩
  · cases back with
    | nil =>
        rw [List.append_nil] at htext
        rw [List.nil_append] at hunread
        exact .inl ⟨[], by rw [List.append_nil, htext], hunread⟩
    | cons first back => exact .inr ⟨first :: back, List.cons_ne_nil _ _, htext, hunread⟩
  · exact .inl ⟨more, hbuffer, hrest.symm⟩

/-- A line: terminators of its own, its text, and the object it is, if it is one. -/
structure Line where
  lead : List UInt8
  text : List UInt8
  value : Option Value
  deriving Repr

namespace Line

/-- The bytes of a line, with its terminator. -/
def bytes (line : Line) : List UInt8 := line.lead ++ (line.text ++ [13, 10])

/-- The parser consumes exactly an object, whatever follows, and reports the end of its
input on what is less than the object. -/
structure IsObject (next : Parser) (text : List UInt8) (value : Value) : Prop where
  isObject : isObject value = true
  whole : ∀ more, next (text ++ more) = .message value text.length
  part : ∀ front back, text = front ++ back → front ≠ [] → back ≠ [] →
    ∃ error, next front = .failed error true

/-- The parser rejects a text, whatever follows, and takes no object from the front of
it. -/
structure IsRejected (next : Parser) (text : List UInt8) : Prop where
  whole : ∀ more, ∃ error, next (text ++ more) = .failed error false
  part : ∀ front back, text = front ++ back → ∀ value consumed,
    next front = .message value consumed → isObject value = false

/-- A line that is an object, or that the parser rejects. -/
structure Valid (next : Parser) (line : Line) : Prop where
  lead : ∀ byte ∈ line.lead, isTerminator byte = true
  starts : ∃ first rest, line.text = first :: rest ∧ isTerminator first = false
  unbroken : line.value = none → findCrlf line.text = none
  object : ∀ value, line.value = some value → IsObject next line.text value
  rejected : line.value = none → IsRejected next line.text

/-- What the parser makes of bytes that start where an object starts. -/
theorem IsObject.next_eq {next : Parser} {text : List UInt8} {value : Value}
    (h : IsObject next text value) {buffer unread rest : List UInt8} (hbuffer : buffer ≠ [])
    (hstart : buffer ++ unread = text ++ rest) :
    (next buffer = .message value text.length ∧
        ∃ more, buffer = text ++ more ∧ more ++ unread = rest) ∨
      ((∃ error, next buffer = .failed error true) ∧ unread ≠ []) := by
  rcases prefix_or_append hstart with ⟨more, rfl, hmore⟩ | ⟨back, hback, htext, hunread⟩
  · exact .inl ⟨h.whole more, more, rfl, hmore⟩
  · refine .inr ⟨h.part _ _ htext hbuffer hback, ?_⟩
    rw [hunread]
    exact List.append_ne_nil_of_left_ne_nil hback rest

/-- Where an object starts, the parser neither fails nor finds anything but an object. -/
theorem IsObject.next_accepted {next : Parser} {text : List UInt8} {value : Value}
    (h : IsObject next text value) {buffer unread rest : List UInt8} (hbuffer : buffer ≠ [])
    (hstart : buffer ++ unread = text ++ rest) :
    (∀ error, next buffer ≠ .failed error false) ∧
      ∀ found consumed, next buffer = .message found consumed →
        Codex.isObject found = true := by
  rcases h.next_eq hbuffer hstart with ⟨hwhole, -⟩ | ⟨⟨eof, hpart⟩, -⟩
  · rw [hwhole]
    refine ⟨fun error => Streamed.noConfusion, fun found consumed hfound => ?_⟩
    obtain ⟨rfl, -⟩ := Streamed.message.inj hfound
    exact h.isObject
  · rw [hpart]
    refine ⟨fun error hfailed => ?_, fun found consumed => Streamed.noConfusion⟩
    cases (Streamed.failed.inj hfailed).2

end Line

/-- The bytes of a list of lines. -/
def stream (lines : List Line) : List UInt8 := (lines.map Line.bytes).flatten

/-- The objects among lines, in order. -/
def objectsOf (lines : List Line) : List Value := lines.filterMap Line.value

theorem stream_cons (line : Line) (lines : List Line) :
    stream (line :: lines) = line.lead ++ (line.text ++ 13 :: 10 :: stream lines) := by
  rw [stream, List.map_cons, List.flatten_cons, Line.bytes, List.append_assoc,
    List.append_assoc]
  rfl

theorem Line.Valid.text_ne_nil {next : Parser} {line : Line} (h : line.Valid next) :
    line.text ≠ [] := by
  obtain ⟨first, rest, htext, -⟩ := h.starts
  rw [htext]
  exact List.cons_ne_nil _ _

/-- A stream begins with the text of its first line. -/
theorem strip_stream {next : Parser} {line : Line} (h : line.Valid next) (lines : List Line) :
    stripTerminators (stream (line :: lines)) = line.text ++ 13 :: 10 :: stream lines := by
  obtain ⟨first, rest, htext, hfirst⟩ := h.starts
  have hlead : stripTerminators line.lead = [] := List.dropWhile_eq_nil_iff.mpr h.lead
  rw [stream_cons, stripTerminators_append, if_pos hlead, htext, List.cons_append,
    stripTerminators_cons hfirst]

/-- What is ahead of the decoder: its buffer and the bytes to come begin with the lines
that are left. -/
def Ahead (buffer unread : List UInt8) (pending : List Line) : Prop :=
  stripTerminators (buffer ++ unread) = stripTerminators (stream pending)

theorem Ahead.strip {buffer unread : List UInt8} {pending : List Line}
    (h : Ahead buffer unread pending) : Ahead (stripTerminators buffer) unread pending :=
  (stripTerminators_strip_append buffer unread).trans h

/-- A buffer that starts inside a line starts with that line's text. -/
theorem Ahead.exists_line {next : Parser} {buffer unread : List UInt8} {pending : List Line}
    (h : Ahead buffer unread pending) (hpending : ∀ line ∈ pending, line.Valid next)
    (hbuffer : stripTerminators buffer ≠ []) :
    ∃ line rest, pending = line :: rest ∧ line.Valid next ∧
      stripTerminators buffer ++ unread = line.text ++ 13 :: 10 :: stream rest := by
  have hstrip : stripTerminators buffer ++ unread = stripTerminators (stream pending) := by
    rw [← h, stripTerminators_append, if_neg hbuffer]
  cases pending with
  | nil => exact absurd (List.append_eq_nil_iff.mp hstrip).1 hbuffer
  | cons line rest =>
      have hline := hpending line (List.mem_cons_self ..)
      exact ⟨line, rest, rfl, hline, hstrip.trans (strip_stream hline rest)⟩

/-- With nothing in front and nothing to come, no line is left. -/
theorem Ahead.eq_nil {next : Parser} {buffer : List UInt8} {pending : List Line}
    (h : Ahead buffer [] pending) (hpending : ∀ line ∈ pending, line.Valid next)
    (hbuffer : stripTerminators buffer = []) : pending = [] := by
  cases pending with
  | nil => rfl
  | cons line rest =>
      have hline := hpending line (List.mem_cons_self ..)
      rw [Ahead, List.append_nil, hbuffer, strip_stream hline] at h
      exact absurd (List.append_eq_nil_iff.mp h.symm).1 hline.text_ne_nil

/-! ## One call -/

/-- From a buffer, the loop decodes so many objects and then comes to bytes that it
rejects. -/
inductive Meets (next : Parser) : List UInt8 → Nat → List UInt8 → Prop where
  | failed {buffer error} (hbuffer : stripTerminators buffer ≠ [])
      (hnext : next (stripTerminators buffer) = .failed error false) :
      Meets next buffer 0 (stripTerminators buffer)
  | notObject {buffer value consumed} (hbuffer : stripTerminators buffer ≠ [])
      (hnext : next (stripTerminators buffer) = .message value consumed)
      (hvalue : isObject value = false) : Meets next buffer 0 (stripTerminators buffer)
  | behind {buffer value consumed count rejected} (hbuffer : stripTerminators buffer ≠ [])
      (hnext : next (stripTerminators buffer) = .message value consumed)
      (hvalue : isObject value = true)
      (hrest : Meets next ((stripTerminators buffer).drop consumed) count rejected) :
      Meets next buffer (count + 1) rejected

/-- A call that comes to rejected bytes has decoded nothing before them, and their CRLF
has arrived. -/
def CleanCall (next : Parser) (buffer : List UInt8) : Prop :=
  ∀ count rejected, Meets next buffer count rejected →
    count = 0 ∧ (findCrlf rejected).isSome = true

/-- The loop stops where the parser finds the end of its input, or no value. -/
theorem decodeTurns_stop {next : Parser} {buffer : List UInt8}
    (h : stripTerminators buffer = [] ∨
      (∃ error, next (stripTerminators buffer) = .failed error true) ∨
        next (stripTerminators buffer) = .none) (turns : Nat) (messages : List Value) :
    decodeTurns next (turns + 1) buffer messages = (.ok messages, stripTerminators buffer) := by
  rw [decodeTurns]
  by_cases hbuffer : stripTerminators buffer = []
  · rw [if_pos hbuffer]
  · rw [if_neg hbuffer]
    rcases h.resolve_left hbuffer with ⟨error, hnext⟩ | hnext
    · rw [hnext]
      rfl
    · rw [hnext]

/-- The loop goes on behind an object. -/
theorem decodeTurns_object {next : Parser} {buffer text more : List UInt8} {value : Value}
    (htext : text ≠ []) (hbuffer : stripTerminators buffer = text ++ more)
    (hnext : next (stripTerminators buffer) = .message value text.length)
    (hvalue : isObject value = true) (turns : Nat) (messages : List Value) :
    decodeTurns next (turns + 1) buffer messages =
      decodeTurns next turns more (messages ++ [value]) := by
  have hnonempty : stripTerminators buffer ≠ [] := by
    rw [hbuffer]
    exact List.append_ne_nil_of_left_ne_nil htext more
  have hdrop : (stripTerminators buffer).drop text.length = more := by
    rw [hbuffer, List.drop_left]
  have hpositive : text.length ≠ 0 := Nat.ne_of_gt (List.length_pos_iff.mpr htext)
  rw [decodeTurns, if_neg hnonempty, hnext]
  simp only [if_neg hpositive, hvalue, if_true, hdrop]

/-- Where the loop waits for a line to come, so does the call. -/
theorem Ahead.exists_stopped {next : Parser} {buffer unread : List UInt8} {pending : List Line}
    (h : Ahead buffer unread pending) {turns : Nat} {messages : List Value}
    (hstop : decodeTurns next turns buffer messages = (.ok messages, stripTerminators buffer))
    (hend : unread = [] → pending = []) :
    ∃ done rest left, pending = done ++ rest ∧
      decodeTurns next turns buffer messages = (.ok (messages ++ objectsOf done), left) ∧
      Ahead left unread rest ∧ (unread = [] → rest = []) ∧ stripTerminators left = left := by
  refine ⟨[], pending, _, rfl, ?_, h.strip, hend, stripTerminators_idem buffer⟩
  rw [hstop, objectsOf, List.filterMap_nil, List.append_nil]

/-- A rejected line that no call has met yet has not arrived as a whole, and the loop waits
for the rest of it. -/
theorem Line.IsRejected.waits {next : Parser} {text buffer unread rest : List UInt8}
    (h : Line.IsRejected next text) (hbuffer : stripTerminators buffer ≠ [])
    (hstart : stripTerminators buffer ++ unread = text ++ rest)
    (hquiet : ∀ rejected, ¬ Meets next buffer 0 rejected) :
    unread ≠ [] ∧ ((∃ error, next (stripTerminators buffer) = .failed error true) ∨
      next (stripTerminators buffer) = .none) := by
  rcases prefix_or_append hstart with ⟨more, hmore, hrest⟩ | ⟨back, hback, htext, hunread⟩
  · -- a whole line that is rejected would be met
    obtain ⟨error, hnext⟩ := h.whole more
    rw [← hmore] at hnext
    exact absurd (.failed hbuffer hnext) (hquiet _)
  · refine ⟨?_, ?_⟩
    · rw [hunread]
      exact List.append_ne_nil_of_left_ne_nil hback rest
    · -- a part of it may also read as the end of the input
      cases hnext : next (stripTerminators buffer) with
      | message value consumed =>
          have hother := h.part _ _ htext value consumed hnext
          exact absurd (.notObject hbuffer hnext hother) (hquiet _)
      | failed error isEof =>
          cases isEof with
          | false => exact absurd (.failed hbuffer hnext) (hquiet _)
          | true => exact .inl ⟨error, rfl⟩
      | none => exact .inr rfl

/-- A call that meets nothing to reject decodes the objects that have arrived, and
nothing else.  The induction is on the turns of its loop; one turn takes one line. -/
theorem decodeTurns_quiet {next : Parser} {unread : List UInt8} {pending : List Line}
    (hpending : ∀ line ∈ pending, line.Valid next) {buffer : List UInt8}
    (hahead : Ahead buffer unread pending)
    (hquiet : ∀ count rejected, ¬ Meets next buffer count rejected) {turns : Nat}
    (hturns : buffer.length < turns) (messages : List Value) :
    ∃ done rest left, pending = done ++ rest ∧
      decodeTurns next turns buffer messages = (.ok (messages ++ objectsOf done), left) ∧
      Ahead left unread rest ∧ (unread = [] → rest = []) ∧ stripTerminators left = left := by
  induction turns generalizing pending buffer messages with
  | zero => exact absurd hturns (Nat.not_lt_zero _)
  | succ turns ih =>
      by_cases hbuffer : stripTerminators buffer = []
      · refine hahead.exists_stopped (decodeTurns_stop (.inl hbuffer) turns messages) ?_
        rintro rfl
        exact hahead.eq_nil hpending hbuffer
      · obtain ⟨line, rest, rfl, hline, hstart⟩ := hahead.exists_line hpending hbuffer
        cases hvalue : line.value with
        | some value =>
            have hobject := hline.object value hvalue
            rcases hobject.next_eq hbuffer hstart with
              ⟨hnext, more, hmore, hrest⟩ | ⟨heof, hunread⟩
            · -- the object has arrived: one line is done, and the loop goes on behind it
              have hturn := decodeTurns_object hline.text_ne_nil hmore hnext hobject.isObject turns
                messages
              have hlength : more.length < turns := by
                have hstripped := length_stripTerminators_le buffer
                have htext := List.length_pos_iff.mpr hline.text_ne_nil
                rw [hmore, List.length_append] at hstripped
                omega
              have hlater : ∀ count rejected, ¬ Meets next more count rejected := by
                intro count rejected hmeets
                refine hquiet (count + 1) rejected (.behind hbuffer hnext hobject.isObject ?_)
                rwa [hmore, List.drop_left]
              have hbehind : Ahead more unread rest := by
                rw [Ahead, hrest, stripTerminators_crlf]
              obtain ⟨done, others, left, hdone, hdecode, hleft⟩ :=
                ih (fun other h => hpending other (List.mem_cons_of_mem _ h)) hbehind hlater
                  hlength (messages ++ [value])
              refine ⟨line :: done, others, left, by rw [hdone, List.cons_append], ?_, hleft⟩
              rw [hturn, hdecode, objectsOf, objectsOf, List.filterMap_cons_some hvalue,
                List.append_assoc]
              rfl
            · exact hahead.exists_stopped (decodeTurns_stop (.inr (.inl heof)) turns messages)
                fun h => absurd h hunread
        | none =>
            obtain ⟨hunread, hwaits⟩ :=
              (hline.rejected hvalue).waits hbuffer hstart fun rejected => hquiet 0 rejected
            exact hahead.exists_stopped (decodeTurns_stop (.inr hwaits) turns messages)
              fun h => absurd h hunread

/-- A call that comes to a rejected line at once, and has its CRLF, drops that line and
nothing else. -/
theorem decodeAvailable_rejected {next : Parser} {unread : List UInt8} {pending : List Line}
    (hpending : ∀ line ∈ pending, line.Valid next) {buffer rejected : List UInt8}
    (hahead : Ahead buffer unread pending) (hmeets : Meets next buffer 0 rejected)
    (hcrlf : (findCrlf rejected).isSome = true) :
    ∃ line rest error left, pending = line :: rest ∧ line.value = none ∧
      decodeAvailable next buffer = (.error error, left) ∧ left ++ unread = stream rest ∧
      rejected ++ unread = line.text ++ 13 :: 10 :: stream rest := by
  obtain ⟨hbuffer, rfl⟩ : stripTerminators buffer ≠ [] ∧ rejected = stripTerminators buffer := by
    cases hmeets with
    | failed hbuffer hnext => exact ⟨hbuffer, rfl⟩
    | notObject hbuffer hnext hvalue => exact ⟨hbuffer, rfl⟩
  obtain ⟨line, rest, rfl, hline, hstart⟩ := hahead.exists_line hpending hbuffer
  have hvalue : line.value = none := by
    cases hvalue : line.value with
    | none => rfl
    | some value =>
        obtain ⟨hfailed, hfound⟩ := (hline.object value hvalue).next_accepted hbuffer hstart
        cases hmeets with
        | failed _ hnext => exact absurd hnext (hfailed _)
        | notObject _ hnext hother =>
            rw [hfound _ _ hnext] at hother
            cases hother
  obtain ⟨position, hposition⟩ := Option.isSome_iff_exists.mp hcrlf
  -- the CRLF that was found is that of the line
  obtain ⟨hfound, hlong⟩ := Library.findPair_of_append hposition unread
  rw [hstart, ← findCrlf, findCrlf_append (hline.unbroken hvalue)] at hfound
  obtain rfl := Option.some.inj hfound
  rcases prefix_or_append hstart with ⟨more, hmore, hrest⟩ | ⟨back, hback, htext, hunread⟩
  · obtain ⟨error, hnext⟩ := (hline.rejected hvalue).whole more
    rw [← hmore] at hnext
    have hmax : max (invalidPrefixLength (stripTerminators buffer)) 1 = line.text.length + 2 := by
      rw [invalidPrefixLength, hposition]
      exact Nat.max_eq_left (Nat.le_add_left 1 _)
    have hleft : (stripTerminators buffer).drop (line.text.length + 2) ++ unread =
        stream rest := by
      have hdrop := congrArg (List.drop (line.text.length + 2)) hstart
      rwa [List.drop_append_of_le_length hlong, List.drop_length_add_append] at hdrop
    refine ⟨line, rest, "invalid Codex JSON: " ++ error, _, rfl, hvalue, ?_, hleft, hstart⟩
    rw [decodeAvailable, decodeTurns, if_neg hbuffer, hnext]
    simp only [Bool.false_eq_true, if_false, hmax]
  -- the buffer reaches past the CRLF, so the line cannot end behind it
  · have hshort := congrArg List.length htext
    rw [List.length_append] at hshort
    omega

/-! ## A run of calls -/

/-- What holds of the buffer at each call, once the call's chunk has arrived. -/
def AtEachCall (next : Parser) (reports : List (List UInt8)) (holds : List UInt8 → Prop) :
    Prop :=
  ∀ before report after, reports = before ++ report :: after →
    holds ((CodexDecoder.feedAll next before .default).2.buffer ++ chunkOf report)

theorem AtEachCall.nil (next : Parser) (holds : List UInt8 → Prop) :
    AtEachCall next [] holds := by
  intro before report after h
  exact absurd h.symm (List.append_ne_nil_of_right_ne_nil before (List.cons_ne_nil report after))

theorem AtEachCall.concat {next : Parser} {reports : List (List UInt8)}
    {holds : List UInt8 → Prop} (h : AtEachCall next reports holds) {last : List UInt8}
    (hlast : holds ((CodexDecoder.feedAll next reports .default).2.buffer ++ chunkOf last)) :
    AtEachCall next (reports ++ [last]) holds := by
  intro before report after hreports
  rcases List.eq_nil_or_concat' after with rfl | ⟨middle, other, rfl⟩
  · obtain ⟨rfl, hreport⟩ := List.append_inj' hreports rfl
    obtain rfl := (List.cons.inj hreport).1
    exact hlast
  · have hsplit : reports ++ [last] = (before ++ report :: middle) ++ [other] := by
      rw [hreports, List.append_assoc, List.cons_append]
    exact h before report middle (List.append_inj' hsplit rfl).1

theorem AtEachCall.single {next : Parser} {holds : List UInt8 → Prop} {report : List UInt8}
    (h : holds (chunkOf report)) : AtEachCall next [report] holds :=
  (AtEachCall.nil next holds).concat h

/-- The bytes that reports carry. -/
def chunksOf (reports : List (List UInt8)) : List UInt8 := (reports.map chunkOf).flatten

theorem feedAll_concat (next : Parser) (before : List (List UInt8)) (report : List UInt8)
    (state : CodexDecoder) :
    CodexDecoder.feedAll next (before ++ [report]) state =
      ((CodexDecoder.feedAll next before state).1 ++
          [((CodexDecoder.feedAll next before state).2.feed next report).1],
        ((CodexDecoder.feedAll next before state).2.feed next report).2) := by
  rw [CodexDecoder.feedAll_append]
  rfl

/-- So far, the objects of the lines that are done have been delivered, and the other
lines are ahead. -/
structure Progress (next : Parser) (lines : List Line) (before : List (List UInt8))
    (unread : List UInt8) (done rest : List Line) : Prop where
  lines : lines = done ++ rest
  delivered : delivered (CodexDecoder.feedAll next before .default).1 = objectsOf done
  ahead : Ahead (CodexDecoder.feedAll next before .default).2.buffer unread rest

theorem delivered_ok (messages : List Value) : delivered [.ok messages] = messages :=
  List.append_nil messages

theorem delivered_error (error : String) : delivered [.error error] = [] := rfl

theorem objectsOf_append (first second : List Line) :
    objectsOf (first ++ second) = objectsOf first ++ objectsOf second :=
  List.filterMap_append

/-- When the last call comes to a rejected line, no object is behind that line. -/
def LastCall (next : Parser) (lines : List Line) (buffer : List UInt8) : Prop :=
  ∀ count rejected, Meets next buffer count rejected →
    ∀ before line rest, lines = before ++ line :: rest →
      rejected = line.text ++ 13 :: 10 :: stream rest → objectsOf rest = []

theorem decodeAvailable_quiet {next : Parser} {unread : List UInt8} {pending : List Line}
    (hpending : ∀ line ∈ pending, line.Valid next) {buffer : List UInt8}
    (hahead : Ahead buffer unread pending)
    (hquiet : ∀ count rejected, ¬ Meets next buffer count rejected) :
    ∃ done rest left, pending = done ++ rest ∧
      decodeAvailable next buffer = (.ok (objectsOf done), left) ∧
      Ahead left unread rest ∧ (unread = [] → rest = []) ∧ stripTerminators left = left :=
  decodeTurns_quiet hpending hahead hquiet (Nat.lt_succ_self _) []

/-- One call decodes the objects that have arrived, or it drops a rejected line. -/
theorem Progress.step {next : Parser} {lines : List Line}
    (hlines : ∀ line ∈ lines, line.Valid next) {before : List (List UInt8)}
    {report unread : List UInt8} {done rest : List Line}
    (h : Progress next lines before (chunkOf report ++ unread) done rest)
    (hvalid : ValidReport report) {buffer : List UInt8}
    (hbuffer : (CodexDecoder.feedAll next before .default).2.buffer ++ chunkOf report = buffer)
    (hlimit : buffer.length ≤ maxBufferBytes) (hclean : CleanCall next buffer) :
    ∃ done rest, Progress next lines (before ++ [report]) unread done rest ∧
      (unread = [] → LastCall next lines buffer → objectsOf rest = []) := by
  have hrest : ∀ line ∈ rest, line.Valid next := fun line hline =>
    hlines line (h.lines ▸ List.mem_append_right done hline)
  have hahead : Ahead buffer unread rest := by
    have hbehind := h.ahead
    rwa [Ahead, ← List.append_assoc, hbuffer] at hbehind
  have hfeed := CodexDecoder.feed_of_valid next
    (CodexDecoder.feedAll next before .default).2 hvalid
  rw [hbuffer, if_neg (Nat.not_lt.mpr hlimit)] at hfeed
  -- either the call drops the rejected line it starts with, or it meets none
  by_cases hmeets : ∃ count rejected, Meets next buffer count rejected
  · obtain ⟨count, rejected, hmeets⟩ := hmeets
    obtain ⟨rfl, hcrlf⟩ := hclean count rejected hmeets
    obtain ⟨line, others, error, left, rfl, hvalue, hdecode, hleft, hrejected⟩ :=
      decodeAvailable_rejected hrest hahead hmeets hcrlf
    rw [hdecode] at hfeed
    have hdone : lines = (done ++ [line]) ++ others := by
      rw [h.lines, List.append_assoc, List.singleton_append]
    refine ⟨done ++ [line], others, ⟨hdone, ?_, ?_⟩, ?_⟩
    · rw [feedAll_concat, delivered_append, hfeed, delivered_error, h.delivered,
        objectsOf_append, objectsOf, objectsOf, List.filterMap_cons_none hvalue,
        List.filterMap_nil]
    · rw [feedAll_concat, hfeed, Ahead, hleft]
    · rintro rfl hlast
      rw [List.append_nil] at hrejected
      exact hlast 0 rejected hmeets done line others h.lines hrejected
  · obtain ⟨more, others, left, rfl, hdecode, hleft, hend, -⟩ := decodeAvailable_quiet hrest hahead
      (fun count rejected hm => hmeets ⟨count, rejected, hm⟩)
    rw [hdecode] at hfeed
    refine ⟨done ++ more, others, ⟨?_, ?_, ?_⟩, ?_⟩
    · rw [h.lines, List.append_assoc]
    · rw [feedAll_concat, delivered_append, hfeed, delivered_ok, h.delivered, objectsOf_append]
    · rw [feedAll_concat, hfeed]
      exact hleft
    · intro hunread _
      rw [hend hunread, objectsOf, List.filterMap_nil]

/-- However far a clean run has come, it has lost nothing. -/
theorem exists_progress {next : Parser} {lines : List Line}
    (hlines : ∀ line ∈ lines, line.Valid next) {reports : List (List UInt8)}
    (hvalid : ∀ report ∈ reports, ValidReport report) (hstream : chunksOf reports = stream lines)
    (hlimit : AtEachCall next reports (·.length ≤ maxBufferBytes))
    (hclean : AtEachCall next reports (CleanCall next)) {before after : List (List UInt8)}
    (hreports : reports = before ++ after) :
    ∃ done rest, Progress next lines before (chunksOf after) done rest := by
  induction before using List.reverseRecOn generalizing after with
  | nil =>
      refine ⟨[], lines, rfl, rfl, ?_⟩
      rw [List.nil_append] at hreports
      rw [← hreports, hstream]
      rfl
  | append_singleton before report ih =>
      rw [List.append_assoc, List.singleton_append] at hreports
      obtain ⟨done, rest, hprogress⟩ := ih hreports
      have hmember : report ∈ reports := by
        rw [hreports]
        exact List.mem_append_right before (List.mem_cons_self ..)
      obtain ⟨done', rest', hnext, -⟩ := hprogress.step hlines (hvalid report hmember) rfl
        (hlimit before report after hreports) (hclean before report after hreports)
      exact ⟨done', rest', hnext⟩

/-- In a clean run, whose last call leaves no object behind a rejected line, every object
is delivered, once and in order; and before its end the run has delivered the objects of
the lines that are done. -/
theorem lines_delivered {next : Parser} {lines : List Line}
    (hlines : ∀ line ∈ lines, line.Valid next) {reports : List (List UInt8)}
    (hvalid : ∀ report ∈ reports, ValidReport report) (hstream : chunksOf reports = stream lines)
    (hlimit : AtEachCall next reports (·.length ≤ maxBufferBytes))
    (hclean : AtEachCall next reports (CleanCall next))
    (hlast : ∀ before report, reports = before ++ [report] →
      LastCall next lines
        ((CodexDecoder.feedAll next before .default).2.buffer ++ chunkOf report)) :
    delivered (CodexDecoder.feedAll next reports .default).1 = objectsOf lines ∧
      ∀ before after, reports = before ++ after →
        ∃ done rest, Progress next lines before (chunksOf after) done rest := by
  refine ⟨?_, fun before after h => exists_progress hlines hvalid hstream hlimit hclean h⟩
  rcases List.eq_nil_or_concat' reports with rfl | ⟨before, report, rfl⟩
  · cases lines with
    | nil => rfl
    | cons line lines =>
        have hlength := congrArg List.length hstream
        rw [stream_cons, List.length_append, List.length_append, List.length_cons,
          List.length_cons] at hlength
        have hempty : (chunksOf []).length = 0 := rfl
        omega
  · obtain ⟨done, rest, hprogress⟩ :=
      exists_progress hlines hvalid hstream hlimit hclean rfl
    have hmember : report ∈ before ++ [report] := List.mem_append_right before (by simp)
    rw [show chunksOf [report] = chunkOf report ++ [] from rfl] at hprogress
    obtain ⟨done', rest', hnext, hend⟩ := hprogress.step hlines (hvalid report hmember) rfl
      (hlimit before report [] rfl) (hclean before report [] rfl)
    rw [hnext.delivered, hnext.lines, objectsOf_append, hend rfl (hlast before report rfl),
      List.append_nil]

/-! ## What an unclean call loses -/

/-- The line `{}`. -/
def emptyObject : Line := ⟨[], [0x7b, 0x7d], some (.object [])⟩

/-- The line `x`. -/
def stray : Line := ⟨[], [0x78], none⟩

theorem emptyObject_isObject :
    Line.IsObject sampleNext [0x7b, 0x7d] (.object []) where
  isObject := rfl
  whole := by
    intro more
    have hlength : more.length + 1 + 1 - more.length = 2 := by omega
    exact congrArg (Streamed.message (.object [])) hlength
  part := by
    intro front back h hfront hback
    obtain ⟨first, front, rfl⟩ := List.exists_cons_of_ne_nil hfront
    obtain ⟨rfl, hrest⟩ := List.cons.inj h
    cases front with
    | nil => exact ⟨_, rfl⟩
    | cons second front =>
        have htail : [] = front ++ back := (List.cons.inj hrest).2
        exact absurd (List.append_eq_nil_iff.mp htail.symm).2 hback

theorem emptyObject_valid : emptyObject.Valid sampleNext where
  lead := fun _ h => absurd h List.not_mem_nil
  starts := ⟨0x7b, [0x7d], rfl, rfl⟩
  unbroken := fun _ => rfl
  object := by
    intro value h
    obtain rfl := Option.some.inj h
    exact emptyObject_isObject
  rejected := fun h => absurd h (Option.some_ne_none _)

theorem stray_valid : stray.Valid sampleNext where
  lead := fun _ h => absurd h List.not_mem_nil
  starts := ⟨0x78, [], rfl, rfl⟩
  unbroken := fun _ => rfl
  object := fun value h => absurd h.symm (Option.some_ne_none value)
  rejected := fun _ => ⟨fun more => ⟨_, rfl⟩, by
    intro front back h value consumed hnext
    cases front with
    | nil => cases hnext
    | cons first front =>
        obtain ⟨rfl, -⟩ := List.cons.inj h
        cases hnext⟩

theorem not_meets_of_strip {next : Parser} {buffer rejected : List UInt8} {count : Nat}
    (h : stripTerminators buffer = []) : ¬ Meets next buffer count rejected := by
  intro hmeets
  cases hmeets with
  | failed hbuffer => exact hbuffer h
  | notObject hbuffer => exact hbuffer h
  | behind hbuffer => exact hbuffer h

theorem cleanCall_emptyObject : CleanCall sampleNext (stream [emptyObject]) := by
  intro count rejected hmeets
  cases hmeets with
  | failed _ hnext => cases hnext
  | notObject _ hnext hvalue =>
      cases hnext
      cases hvalue
  | behind _ hnext _ hrest =>
      cases hnext
      exact absurd hrest (not_meets_of_strip (by decide +kernel))

theorem cleanCall_stray : CleanCall sampleNext (stream [stray]) := by
  intro count rejected hmeets
  cases hmeets with
  | failed => exact ⟨rfl, by decide +kernel⟩
  | notObject _ hnext => cases hnext
  | behind _ hnext => cases hnext

/-- An object and a rejected line, each in a report of its own. -/
theorem lines_delivered_apart :
    delivered (CodexDecoder.feedAll sampleNext
        ([report (stream [emptyObject])] ++ [report (stream [stray])]) .default).1 =
      objectsOf [emptyObject, stray] ∧
    ∀ before after, [report (stream [emptyObject])] ++ [report (stream [stray])] =
        before ++ after →
      ∃ done rest, Progress sampleNext [emptyObject, stray] before (chunksOf after) done rest := by
  refine lines_delivered ?_ (by decide +kernel) (by decide +kernel)
    ((AtEachCall.single (by decide +kernel)).concat (by decide +kernel))
    ((AtEachCall.single cleanCall_emptyObject).concat cleanCall_stray) ?_
  · intro line hline
    rcases List.mem_pair.mp hline with rfl | rfl
    · exact emptyObject_valid
    · exact stray_valid
  · intro before last hreports count rejected hmeets front line rest hlines _
    cases front with
    | nil =>
        obtain ⟨rfl, rfl⟩ := List.cons.inj hlines
        rfl
    | cons first front =>
        have hrest : [stray] = front ++ line :: rest := (List.cons.inj hlines).2
        cases front with
        | nil =>
            obtain ⟨-, rfl⟩ := List.cons.inj hrest
            rfl
        | cons second front =>
            have hnil : [] = front ++ line :: rest := (List.cons.inj hrest).2
            exact absurd hnil.symm (List.append_ne_nil_of_right_ne_nil front
              (List.cons_ne_nil line rest))

/-- A call that decodes an object and then comes to a rejected line hands nothing to its
caller. -/
theorem object_lost_before_stray :
    ¬ ∀ (next : Parser) (lines : List Line), (∀ line ∈ lines, line.Valid next) →
      ∀ reports : List (List UInt8), (∀ report ∈ reports, ValidReport report) →
        chunksOf reports = stream lines →
        AtEachCall next reports (·.length ≤ maxBufferBytes) →
        delivered (CodexDecoder.feedAll next reports .default).1 = objectsOf lines := by
  intro h
  have hlost := h sampleNext [emptyObject, stray] (by
      intro line hline
      rcases List.mem_pair.mp hline with rfl | rfl
      · exact emptyObject_valid
      · exact stray_valid)
    [report (stream [emptyObject, stray])] (by decide +kernel) (by decide +kernel)
    (.single (by decide +kernel))
  have hdelivered : delivered (CodexDecoder.feedAll sampleNext
      [report (stream [emptyObject, stray])] .default).1 = [] := by rfl
  rw [hdelivered] at hlost
  cases hlost

end Codex
end MicroEmu
