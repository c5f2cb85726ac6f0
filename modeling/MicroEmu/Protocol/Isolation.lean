import MicroEmu.Protocol.Messages
import MicroEmu.Library.Scanner

/-!
# Inputs that are no reports

What is not a report leads to one error and leaves the buffer alone.  The line loop is an
incremental scanner, so as long as the buffer does not overflow, messages and errors of
lines depend only on the bytes that the reports carry, one report behind the other.
-/

namespace MicroEmu
namespace Protocol

open Library (Scanner Verdict Cursor findPair_of_append)

variable {Value Text : Type} (js : Runtime Value Text)

/-! ## Reports and other inputs -/

/-- The bytes behind a header at this place, from 1 to 61 of them. -/
def bodyAt (report : List UInt8) (headerOffset : Nat) : Option (List UInt8) :=
  let declaredLength := (report.getD (headerOffset + 1) 0).toNat
  if 1 ≤ declaredLength ∧ declaredLength ≤ maxChunkBytes then
    some ((report.drop (headerOffset + 2)).take declaredLength)
  else none

/-- The bytes a report of either shape carries. -/
def bodyOf : Raw → Option (List UInt8)
  | .bytes report =>
      if report.length = reportBytesBle ∧ report.getD 0 0 = reportId ∧
          report.getD 1 0 = opcodeData then bodyAt report 1
      else if report.length = reportBytesUsb ∧ report.getD 0 0 = opcodeData then
        bodyAt report 0
      else none
  | .unreadable _ | .other => none

/-- An error about an input that is no report. -/
def isInputError (error : ProtocolError) : Bool :=
  error.code ∈ ["DECODER_ERROR", "INVALID_REPORT_TYPE", "INVALID_REPORT_LENGTH",
    "INVALID_REPORT_HEADER", "INVALID_CHUNK_LENGTH"]

/-- An error about a line. -/
def isLineError (error : ProtocolError) : Bool :=
  error.code ∈ ["INVALID_UTF8", "INVALID_JSON_MESSAGE", "INVALID_JSON"]

/-- Inputs fed one after another. -/
def FrameDecoder.feedInputs : List Raw → FrameDecoder → Result Value × FrameDecoder
  | [], state => (.empty, state)
  | raw :: inputs, state =>
      let first := state.feed js raw
      let last := feedInputs inputs first.2
      (first.1.append last.1, last.2)

/-- No report of the inputs overflows the buffer. -/
def FrameDecoder.Fits : List Raw → FrameDecoder → Prop
  | [], _ => True
  | raw :: inputs, state =>
      (∀ body, bodyOf raw = some body →
        (state.buffer ++ body).length ≤ state.maxBufferedBytes) ∧
      Fits inputs (state.feed js raw).2

variable {js}

theorem bodyOf_eq (report : List UInt8) :
    (∃ offset ≤ 1, headerOffset report = .ok offset ∧ reportBytesUsb ≤ report.length ∧
        bodyOf (.bytes report) = bodyAt report offset) ∨
      ∃ error, headerOffset report = .error error ∧ isInputError error = true ∧
        bodyOf (.bytes report) = none := by
  rw [headerOffset, bodyOf]
  by_cases hble : report.length = reportBytesBle ∧ report.getD 0 0 = reportId ∧
      report.getD 1 0 = opcodeData
  · rw [if_pos hble, if_pos hble, hble.1]
    exact .inl ⟨1, Nat.le_refl 1, rfl, by decide, rfl⟩
  · rw [if_neg hble, if_neg hble]
    by_cases husb : report.length = reportBytesUsb ∧ report.getD 0 0 = opcodeData
    · rw [if_pos husb, if_pos husb, husb.1]
      exact .inl ⟨0, Nat.zero_le 1, rfl, Nat.le_refl _, rfl⟩
    · rw [if_neg husb, if_neg husb]
      split
      · exact .inr ⟨_, rfl, by rfl, rfl⟩
      · exact .inr ⟨_, rfl, by rfl, rfl⟩

/-- No report carries nothing. -/
theorem bodyOf_ne_nil {raw : Raw} {body : List UInt8} (h : bodyOf raw = some body) :
    body ≠ [] := by
  cases raw with
  | unreadable thrown => cases h
  | other => cases h
  | bytes report =>
      rcases bodyOf_eq report with ⟨offset, hone, -, hlong, hbody⟩ | ⟨error, -, -, hbody⟩
      · have hlength : 63 ≤ report.length := hlong
        rw [hbody, bodyAt] at h
        by_cases hdeclared : 1 ≤ (report.getD (offset + 1) 0).toNat ∧
            (report.getD (offset + 1) 0).toNat ≤ maxChunkBytes
        · rw [if_pos hdeclared] at h
          obtain rfl := Option.some.inj h
          refine List.ne_nil_of_length_pos ?_
          rw [List.length_take, List.length_drop]
          omega
        · rw [if_neg hdeclared] at h
          cases h
      · rw [hbody] at h
        cases h

variable (js) in
/-- A report is read as its bytes, and any other input leads to one error. -/
theorem FrameDecoder.feed_eq (state : FrameDecoder) (raw : Raw) :
    (∃ body, bodyOf raw = some body ∧ state.feed js raw = state.feedChunk js body) ∨
      (bodyOf raw = none ∧
        ∃ error, isInputError error = true ∧ state.feed js raw = (.error error, state)) := by
  cases raw with
  | unreadable thrown => exact .inr ⟨rfl, _, by rfl, rfl⟩
  | other => exact .inr ⟨rfl, _, by rfl, rfl⟩
  | bytes report =>
      rcases bodyOf_eq report with
        ⟨offset, -, hoffset, -, hbody⟩ | ⟨error, hoffset, herror, hbody⟩
      · rw [hbody, bodyAt]
        simp only [feed, asBytes, hoffset]
        by_cases hdeclared : (report.getD (offset + 1) 0).toNat = 0 ∨
            (report.getD (offset + 1) 0).toNat > maxChunkBytes
        · rw [if_pos hdeclared, if_neg (by omega)]
          exact .inr ⟨rfl, _, by rfl, rfl⟩
        · rw [if_neg hdeclared, if_pos (by omega)]
          exact .inl ⟨_, rfl, rfl⟩
      · exact .inr ⟨hbody, error, herror, by simp only [feed, asBytes, hoffset]⟩

/-! ## The line loop -/

/-- What becomes of a line. -/
def lineResult (js : Runtime Value Text) (line : List UInt8) : Result Value :=
  if line.length = 0 then .empty else readLine js line

/-- The first turn of the line loop. -/
def lookLine (js : Runtime Value Text) (buffer : List UInt8) : Verdict UInt8 (Result Value) :=
  match findCrlf buffer with
  | none => .wait buffer
  | some last => .emit (lineResult js (buffer.take last)) (buffer.drop (last + 2))

theorem lookLine_of_none {buffer : List UInt8} (h : findCrlf buffer = none) :
    lookLine js buffer = .wait buffer := by
  simp only [lookLine, h]

theorem lookLine_of_some {buffer : List UInt8} {last : Nat} (h : findCrlf buffer = some last) :
    lookLine js buffer =
      .emit (lineResult js (buffer.take last)) (buffer.drop (last + 2)) := by
  simp only [lookLine, h]

theorem lookLine_rest_lt {buffer rest : List UInt8} {result : Result Value}
    (h : lookLine js buffer = .emit result rest) : rest.length < buffer.length := by
  cases hfound : findCrlf buffer with
  | none =>
      rw [lookLine_of_none hfound] at h
      cases h
  | some last =>
      rw [lookLine_of_some hfound] at h
      injection h with hresult hrest
      have hroom := (findPair_of_append hfound []).2
      rw [← hrest, List.length_drop]
      omega

theorem lookLine_kept_le {buffer kept : List UInt8} (h : lookLine js buffer = .wait kept) :
    kept.length ≤ buffer.length := by
  cases hfound : findCrlf buffer with
  | none =>
      rw [lookLine_of_none hfound] at h
      injection h with hkept
      rw [hkept]
  | some last =>
      rw [lookLine_of_some hfound] at h
      cases h

/-- The line loop as a scanner. -/
def lineLoop (js : Runtime Value Text) : Scanner UInt8 (Result Value) :=
  ⟨lookLine js, lookLine_rest_lt, lookLine_kept_le⟩

theorem look_of_none {buffer : List UInt8} (h : findCrlf buffer = none) :
    (lineLoop js).look buffer = .wait buffer := lookLine_of_none h

theorem look_of_some {buffer : List UInt8} {last : Nat} (h : findCrlf buffer = some last) :
    (lineLoop js).look buffer =
      .emit (lineResult js (buffer.take last)) (buffer.drop (last + 2)) := lookLine_of_some h

theorem lineLoop_incremental (js : Runtime Value Text) : (lineLoop js).Incremental where
  emit_append := by
    intro buffer result rest h more
    cases hfound : findCrlf buffer with
    | none =>
        rw [look_of_none hfound] at h
        cases h
    | some last =>
        rw [look_of_some hfound] at h
        injection h with hresult hrest
        obtain ⟨hlonger, hroom⟩ := findPair_of_append hfound more
        rw [look_of_some hlonger, List.take_append_of_le_length (by omega),
          List.drop_append_of_le_length hroom, hresult, hrest]
  wait_append := by
    intro buffer kept h more
    cases hfound : findCrlf buffer with
    | none =>
        rw [look_of_none hfound] at h
        injection h with h
        rw [h]
    | some last =>
        rw [look_of_some hfound] at h
        cases h

/-- The results of the lines, joined. -/
def joined (results : List (Result Value × Nat)) : Result Value :=
  results.foldr (fun result rest => result.1.append rest) .empty

theorem joined_append (first second : List (Result Value × Nat)) :
    joined (first ++ second) = (joined first).append (joined second) := by
  induction first with
  | nil => rfl
  | cons result first ih =>
      show result.1.append (joined (first ++ second)) = (result.1.append (joined first)).append _
      rw [ih, Result.append_assoc]

theorem readLines_eq_scan {turns : Nat} {buffer : List UInt8} (h : buffer.length < turns)
    (position : Nat) :
    readLines js turns buffer =
      (joined ((lineLoop js).scan ⟨position, buffer⟩).1,
        ((lineLoop js).scan ⟨position, buffer⟩).2.buffer) := by
  induction turns generalizing buffer position with
  | zero => exact absurd h (Nat.not_lt_zero _)
  | succ turns ih =>
      cases hfound : findCrlf buffer with
      | none =>
          rw [readLines_eq_of_none hfound, Scanner.scan_of_wait _ (look_of_none hfound)]
          rfl
      | some last =>
          have hroom := (findPair_of_append hfound []).2
          have hshorter : (buffer.drop (last + 2)).length < turns := by
            rw [List.length_drop]
            omega
          have hrest := ih hshorter
            (position + (buffer.length - (buffer.drop (last + 2)).length))
          rw [Scanner.scan_of_emit _ (look_of_some hfound), readLines, hfound]
          simp only [hrest]
          show _ = ((lineResult js (buffer.take last)).append _, _)
          rw [lineResult]
          split
          · rfl
          · rfl

variable (js) in
/-- A report that fits is one more chunk for the line loop. -/
theorem FrameDecoder.feedChunk_eq_feed {state : FrameDecoder} {body : List UInt8}
    (h : (state.buffer ++ body).length ≤ state.maxBufferedBytes) (position : Nat) :
    state.feedChunk js body =
      (joined ((lineLoop js).feed ⟨position, state.buffer⟩ body).1,
        ⟨((lineLoop js).feed ⟨position, state.buffer⟩ body).2.buffer,
          state.maxBufferedBytes⟩) := by
  rw [feedChunk_of_fits h, readLines_eq_scan (Nat.lt_succ_self _) position]
  rfl

/-! ## Errors -/

theorem isLineError_readLine {line : List UInt8} {error : ProtocolError}
    (h : error ∈ (readLine js line).errors) :
    isLineError error = true ∧ isInputError error = false := by
  rw [readLine] at h
  split at h
  · obtain rfl := List.mem_singleton.mp h
    exact ⟨by rfl, by rfl⟩
  · split at h
    · split at h
      · obtain rfl := List.mem_singleton.mp h
        exact ⟨by rfl, by rfl⟩
      · cases h
    · obtain rfl := List.mem_singleton.mp h
      exact ⟨by rfl, by rfl⟩

theorem isLineError_readLines {turns : Nat} {buffer : List UInt8} {error : ProtocolError}
    (h : error ∈ (readLines js turns buffer).1.errors) :
    isLineError error = true ∧ isInputError error = false := by
  induction turns generalizing buffer with
  | zero => cases h
  | succ turns ih =>
      cases hfound : findCrlf buffer with
      | none =>
          rw [readLines_eq_of_none hfound] at h
          cases h
      | some last =>
          rw [readLines, hfound] at h
          by_cases hempty : (buffer.take last).length = 0
          · simp only [if_pos hempty] at h
            exact ih h
          · simp only [if_neg hempty] at h
            rcases List.mem_append.mp h with hline | hrest
            · exact isLineError_readLine hline
            · exact ih hrest

/-- A report leads to no error about an input. -/
theorem FrameDecoder.isInputError_feedChunk {state : FrameDecoder} {body : List UInt8}
    {error : ProtocolError} (h : error ∈ (state.feedChunk js body).1.errors) :
    isInputError error = false := by
  rw [feedChunk] at h
  split at h
  · obtain rfl := List.mem_singleton.mp h
    rfl
  · exact (isLineError_readLines h).2

variable (js) in
theorem FrameDecoder.filter_feedChunk {state : FrameDecoder} {body : List UInt8}
    (h : (state.buffer ++ body).length ≤ state.maxBufferedBytes) :
    (state.feedChunk js body).1.errors.filter isLineError =
      (state.feedChunk js body).1.errors := by
  rw [feedChunk_of_fits h]
  exact List.filter_eq_self.mpr fun error herror => (isLineError_readLines herror).1

theorem not_isLineError {error : ProtocolError} (h : isInputError error = true) :
    isLineError error = false := by
  simp only [isInputError, isLineError, List.mem_cons, List.not_mem_nil, or_false,
    decide_eq_true_eq, decide_eq_false_iff_not] at h ⊢
  rcases h with h | h | h | h | h <;> rw [h] <;> decide

/-! ## Runs -/

/-- Every input that is no report leads to one error of its kind, and nothing else does. -/
theorem FrameDecoder.length_inputErrors (inputs : List Raw) (state : FrameDecoder) :
    ((feedInputs js inputs state).1.errors.filter isInputError).length =
      inputs.countP fun raw => (bodyOf raw).isNone := by
  induction inputs generalizing state with
  | nil => rfl
  | cons raw inputs ih =>
      have hsplit : (feedInputs js (raw :: inputs) state).1.errors =
          (state.feed js raw).1.errors ++ (feedInputs js inputs (state.feed js raw).2).1.errors :=
        rfl
      rw [hsplit, List.filter_append, List.length_append, ih, List.countP_cons, Nat.add_comm]
      rcases state.feed_eq js raw with
        ⟨body, hbody, hfeed⟩ | ⟨hbody, error, herror, hfeed⟩
      · have hnone : (state.feed js raw).1.errors.filter isInputError = [] := by
          rw [hfeed, List.filter_eq_nil_iff]
          intro error herror
          rw [isInputError_feedChunk herror]
          exact Bool.false_ne_true
        rw [hnone, hbody]
        rfl
      · have hone : (state.feed js raw).1.errors.filter isInputError = [error] := by
          rw [hfeed]
          exact List.filter_cons_of_pos herror
        rw [hone, hbody]
        rfl

/-- What a run delivers, its errors about lines and its last state are those of the line
loop on the bytes of the reports. -/
theorem FrameDecoder.feedInputs_eq {inputs : List Raw} {state : FrameDecoder}
    (h : Fits js inputs state) (position : Nat) :
    (feedInputs js inputs state).1.messages = (joined ((lineLoop js).feedAll
        (inputs.filterMap bodyOf) ⟨position, state.buffer⟩).1).messages ∧
      (feedInputs js inputs state).1.errors.filter isLineError = (joined ((lineLoop js).feedAll
        (inputs.filterMap bodyOf) ⟨position, state.buffer⟩).1).errors ∧
      (feedInputs js inputs state).2 = ⟨((lineLoop js).feedAll
        (inputs.filterMap bodyOf) ⟨position, state.buffer⟩).2.buffer, state.maxBufferedBytes⟩ := by
  induction inputs generalizing state position with
  | nil => exact ⟨rfl, rfl, rfl⟩
  | cons raw inputs ih =>
      obtain ⟨hroom, hrest⟩ := h
      rcases state.feed_eq js raw with
        ⟨body, hbody, hfeed⟩ | ⟨hbody, error, herror, hfeed⟩
      · have hchunk := feedChunk_eq_feed js (hroom body hbody) position
        have hlines := filter_feedChunk js (hroom body hbody)
        rw [hfeed] at hrest
        rw [feedInputs, List.filterMap_cons_some hbody, Scanner.feedAll, hfeed]
        simp only [joined_append, Result.append, List.filter_append, hlines]
        rw [hchunk] at hrest ⊢
        obtain ⟨hmessages, herrors, hlast⟩ :=
          ih hrest ((lineLoop js).feed ⟨position, state.buffer⟩ body).2.position
        exact ⟨congrArg _ hmessages, congrArg _ herrors, hlast⟩
      · rw [hfeed] at hrest
        obtain ⟨hmessages, herrors, hlast⟩ := ih hrest position
        rw [feedInputs, List.filterMap_cons_none hbody, hfeed]
        refine ⟨hmessages, ?_, hlast⟩
        simp only [Result.append, Result.error, List.filter_append, List.filter_cons,
          not_isLineError herror, List.filter_nil]
        exact herrors

/-- The bytes of the reports among the inputs, one report behind the other. -/
def stream (inputs : List Raw) : List UInt8 := (inputs.filterMap bodyOf).flatten

theorem stream_eq_nil_iff {inputs : List Raw} :
    stream inputs = [] ↔ inputs.filterMap bodyOf = [] := by
  rw [stream, List.flatten_eq_nil_iff, List.eq_nil_iff_forall_not_mem]
  refine forall_congr' fun body => ⟨fun h hbody => ?_, fun h hbody => absurd hbody h⟩
  obtain ⟨raw, -, hraw⟩ := List.mem_filterMap.mp hbody
  exact bodyOf_ne_nil hraw (h hbody)

/-- The line loop sees the stream and not its reports. -/
theorem feedAll_filterMap_congr {first second : List Raw} (h : stream first = stream second)
    (cursor : Cursor UInt8) :
    (lineLoop js).feedAll (first.filterMap bodyOf) cursor =
      (lineLoop js).feedAll (second.filterMap bodyOf) cursor := by
  cases hfirst : first.filterMap bodyOf with
  | nil =>
      rw [stream_eq_nil_iff.mpr hfirst, eq_comm, stream_eq_nil_iff] at h
      rw [h]
  | cons chunk chunks =>
      cases hsecond : second.filterMap bodyOf with
      | nil =>
          rw [stream_eq_nil_iff.mpr hsecond, stream_eq_nil_iff, hfirst] at h
          cases h
      | cons chunk' chunks' =>
          rw [stream, stream, hfirst, hsecond] at h
          rw [(lineLoop_incremental js).feedAll_cons_eq, (lineLoop_incremental js).feedAll_cons_eq,
            h]

/-- An input that is no report leads to exactly one error and changes nothing, at whatever
place of a run; and two runs whose reports carry the same bytes, neither of which overflows
the buffer, deliver the same messages and the same errors of lines, however the bytes are
cut into reports and whatever else comes between these. -/
theorem reports_isolated (js : Runtime Value Text) (state : FrameDecoder) :
    (∀ raw, bodyOf raw = none → ∃ error, isInputError error = true ∧
        state.feed js raw = (.error error, state)) ∧
      (∀ inputs, ((FrameDecoder.feedInputs js inputs state).1.errors.filter
        isInputError).length = inputs.countP fun raw => (bodyOf raw).isNone) ∧
      ∀ first second, stream first = stream second → FrameDecoder.Fits js first state →
        FrameDecoder.Fits js second state →
        (FrameDecoder.feedInputs js first state).1.messages =
            (FrameDecoder.feedInputs js second state).1.messages ∧
          (FrameDecoder.feedInputs js first state).1.errors.filter isLineError =
            (FrameDecoder.feedInputs js second state).1.errors.filter isLineError ∧
          (FrameDecoder.feedInputs js first state).2 =
            (FrameDecoder.feedInputs js second state).2 := by
  refine ⟨fun raw hraw => ?_, fun inputs => state.length_inputErrors inputs,
    fun first second hstream hfirst hsecond => ?_⟩
  · rcases state.feed_eq js raw with ⟨body, hbody, -⟩ | ⟨-, herror⟩
    · rw [hraw] at hbody
      cases hbody
    · exact herror
  · obtain ⟨hmessages, herrors, hlast⟩ := FrameDecoder.feedInputs_eq hfirst 0
    obtain ⟨hmessages', herrors', hlast'⟩ := FrameDecoder.feedInputs_eq hsecond 0
    rw [← feedAll_filterMap_congr hstream] at hmessages' herrors' hlast'
    exact ⟨hmessages.trans hmessages'.symm, herrors.trans herrors'.symm,
      hlast.trans hlast'.symm⟩

/-- One message in one report, or with its terminator cut and other things in between. -/
theorem reports_isolated_cut :
    (FrameDecoder.feedInputs sampleRuntime
          [.bytes (report false (objectText 0 ++ messageTerminator))] (.new (some 80))).1.messages =
      (FrameDecoder.feedInputs sampleRuntime
          [.bytes (report true (objectText 0 ++ [13])), .other, .bytes [1, 2, 3],
            .bytes (report false [10])] (.new (some 80))).1.messages :=
  ((reports_isolated sampleRuntime (.new (some 80))).2.2
    [.bytes (report false (objectText 0 ++ messageTerminator))]
    [.bytes (report true (objectText 0 ++ [13])), .other, .bytes [1, 2, 3],
      .bytes (report false [10])] (by decide +kernel)
    ⟨fun body h => by obtain rfl := Option.some.inj h; decide +kernel, trivial⟩
    ⟨fun body h => by obtain rfl := Option.some.inj h; decide +kernel,
      fun body h => (Option.some_ne_none body h.symm).elim,
      fun body h => (Option.some_ne_none body h.symm).elim,
      fun body h => by obtain rfl := Option.some.inj h; decide +kernel, trivial⟩).1

end Protocol
end MicroEmu
