import MicroEmu.Protocol.Messages
import MicroEmu.Library.Nesting
import MicroEmu.Library.Refill

/-!
# Messages that do not fit

A message that is larger than the buffer empties it, once or more, and what is left of
the message is read as a line of its own.  It is no JSON text, since it closes what it has
not opened.  What can be left in the buffer is the line feed of its terminator, and that
is counted with the next message.
-/

namespace MicroEmu
namespace Protocol

open Library

variable {Value Text : Type} {js : Runtime Value Text}

/-! ## JSON texts -/

/-- What a byte of a JSON text does to its nesting. -/
def symbolOf (byte : UInt8) : Symbol :=
  if byte = 0x22 then .quote
  else if byte = 0x5c then .backslash
  else if byte = 0x7b ∨ byte = 0x5b then .opening
  else if byte = 0x7d ∨ byte = 0x5d then .closing
  else .other

/-- The runtime on any text: what is parsed is a JSON text, of which every level is closed,
and what is decoded are the bytes of a text, a byte order mark in front of it apart. -/
structure JsonRuntime (js : Runtime Value Text) : Prop where
  nonempty : ∀ text value, js.parse text = some value → js.encode text ≠ []
  closed : ∀ text value, js.parse text = some value →
    Nesting.run .start ((js.encode text).map symbolOf) = some .start
  decoded : ∀ bytes text, js.decode bytes = some text →
    ∃ mark, (mark = [] ∨ mark = [0xef, 0xbb, 0xbf]) ∧ bytes = mark ++ js.encode text

/-- The runtime on the text of a plain object: the brace with which it starts is closed by
its last byte only, and a line feed in front of it is white space. -/
structure NestedObject (js : Runtime Value Text) (value : Value) : Prop extends
    PlainObject js value where
  inside : ∀ front back, bytesOf js value = front ++ back → front ≠ [] → back ≠ [] →
    ∃ state : Nesting.State, Nesting.run .start (front.map symbolOf) = some state ∧ 0 < state.depth
  lineFeed : ∃ text, js.decode (10 :: bytesOf js value) = some text ∧ js.parse text = some value

/-- What is left of an object when its front is gone is no message. -/
theorem NestedObject.messages_readLine_tail (hjs : JsonRuntime js) {value : Value}
    (h : NestedObject js value) {front back : List UInt8}
    (hsplit : bytesOf js value = front ++ back) (hfront : front ≠ []) :
    (readLine js back).messages = [] := by
  cases hdecode : js.decode back with
  | none => simp only [Protocol.readLine, hdecode, Result.error]
  | some text =>
      cases hparse : js.parse text with
      | none => simp only [Protocol.readLine, hdecode, hparse, Result.error]
      | some parsed =>
          -- a tail that parsed would close the brace that the lost front has opened
          exfalso
          obtain ⟨mark, -, rfl⟩ := hjs.decoded back text hdecode
          rw [← List.append_assoc] at hsplit
          obtain ⟨state, hrun, hdepth⟩ := h.inside (front ++ mark) (js.encode text) hsplit
            (List.append_ne_nil_of_left_ne_nil hfront mark) (hjs.nonempty text parsed hparse)
          have hwhole := hjs.closed _ _ h.parsed
          rw [← bytesOf, hsplit, List.map_append] at hwhole
          exact Nesting.run_suffix_ne_start hrun (Int.ne_of_gt hdepth) hwhole
            (hjs.closed text parsed hparse)

/-! ## What is left in the buffer -/

/-- The line feed of the terminator comes alone in the last report, and the report before
that has emptied the buffer. -/
def LeavesLineFeed (limit carried length : Nat) : Prop :=
  limit < carried + length ∧ length % maxChunkBytes = 1 ∧ 0 < limit ∧
    EmptiedAt limit maxChunkBytes carried (length / maxChunkBytes)

instance (limit carried length : Nat) : Decidable (LeavesLineFeed limit carried length) :=
  inferInstanceAs (Decidable (_ ∧ _ ∧ _ ∧ _))

/-- How many bytes a message of a framed length leaves in the buffer. -/
def carriedBy (limit carried length : Nat) : Nat :=
  if LeavesLineFeed limit carried length then 1 else 0

theorem carriedBy_le (limit carried length : Nat) :
    carriedBy limit carried length ≤ 1 ∧ carriedBy limit carried length ≤ limit := by
  rw [carriedBy]
  by_cases h : LeavesLineFeed limit carried length
  · rw [if_pos h]
    exact ⟨Nat.le_refl 1, h.2.2.1⟩
  · rw [if_neg h]
    exact ⟨Nat.zero_le 1, Nat.zero_le limit⟩

/-- Full chunks that complete no line: either all of them are in the buffer, behind what it
held, or it has been emptied and holds the last of them. -/
theorem FrameDecoder.exists_feedAll_full (ble : Bool) {chunks : List (List UInt8)}
    (hfull : ∀ chunk ∈ chunks, chunk.length = maxChunkBytes) {buffer : List UInt8} (limit : Nat)
    (hpart : findCrlf (buffer ++ chunks.flatten) = none) :
    ∃ errors left, feedAll js (chunks.map (report ble)) ⟨buffer, limit⟩ =
        (⟨[], errors⟩, ⟨left, limit⟩) ∧
      left.length = level limit maxChunkBytes buffer.length chunks.length ∧
      ((errors = [] ∧ left = buffer ++ chunks.flatten) ∨
        (errors ≠ [] ∧ ∃ front, front ≠ [] ∧ chunks.flatten = front ++ left)) := by
  induction chunks generalizing buffer with
  | nil =>
      exact ⟨[], buffer, rfl, rfl, .inl ⟨rfl, (List.append_nil buffer).symm⟩⟩
  | cons chunk chunks ih =>
      have hlength := hfull chunk (List.mem_cons_self ..)
      have hpositive : 1 ≤ chunk.length := by rw [hlength]; decide
      have hrest : ∀ other ∈ chunks, other.length = maxChunkBytes :=
        fun other h => hfull other (List.mem_cons_of_mem _ h)
      have hnonempty : chunk ≠ [] := List.ne_nil_of_length_pos hpositive
      rw [List.flatten_cons, ← List.append_assoc] at hpart
      rw [List.map_cons, feedAll_cons_report ble hpositive (Nat.le_of_eq hlength),
        List.flatten_cons, List.length_cons, level, ← hlength, ← List.length_append]
      by_cases hlimit : limit < (buffer ++ chunk).length
      · have hempty : findCrlf ([] ++ chunks.flatten) = none := by
          rw [findCrlf, findPair_eq_none_iff] at hpart ⊢
          exact fun hpair => hpart (hpair.trans (List.suffix_append _ _).isInfix)
        have hover : ∃ error, FrameDecoder.feedChunk js ⟨buffer, limit⟩ chunk =
            (.error error, ⟨[], limit⟩) := feedChunk_of_limit hlimit
        -- the chunk is lost with what the buffer held
        obtain ⟨error, herror⟩ := hover
        obtain ⟨errors, left, hfed, hlevel, hkept⟩ := ih hrest hempty
        rw [herror, hfed, if_pos hlimit]
        refine ⟨error :: errors, left, rfl, hlength ▸ hlevel, .inr ⟨List.cons_ne_nil _ _, ?_⟩⟩
        rcases hkept with ⟨-, rfl⟩ | ⟨-, front, -, hfront⟩
        · exact ⟨chunk, hnonempty, rfl⟩
        · refine ⟨chunk ++ front, List.append_ne_nil_of_left_ne_nil hnonempty front, ?_⟩
          rw [hfront, List.append_assoc]
      · have hchunk : FrameDecoder.feedChunk js ⟨buffer, limit⟩ chunk =
            (.empty, ⟨buffer ++ chunk, limit⟩) := by
          rw [feedChunk_of_fits (Nat.not_lt.mp hlimit), readLines_eq_of_none (findPair_front hpart)]
        obtain ⟨errors, left, hfed, hlevel, hkept⟩ := ih hrest hpart
        rw [hchunk, hfed, if_neg hlimit]
        refine ⟨errors, left, rfl, hlength ▸ hlevel, ?_⟩
        -- the buffer may still be emptied by a later chunk
        rcases hkept with ⟨hnone, rfl⟩ | ⟨hsome, front, -, hfront⟩
        · exact .inl ⟨hnone, List.append_assoc ..⟩
        · refine .inr ⟨hsome, chunk ++ front, List.append_ne_nil_of_left_ne_nil hnonempty front, ?_⟩
          rw [hfront, List.append_assoc]

/-- What is left of a message and its terminator when its front is gone, as far as it is
not only the line feed. -/
theorem exists_line_of_suffix {text front rest : List UInt8}
    (h : joinWithTerminator text = front ++ rest) (hrest : 2 ≤ rest.length) :
    ∃ back, rest = back ++ messageTerminator ∧ text = front ++ back := by
  have hlength := congrArg List.length h
  rw [length_joinWithTerminator, List.length_append] at hlength
  have hfront : front.length ≤ text.length := by omega
  rw [joinWithTerminator] at h
  refine ⟨text.drop front.length, ?_, ?_⟩
  · rw [← List.drop_append_of_le_length hfront, h, List.drop_left]
  · have htake := congrArg (List.take front.length) h
    rw [List.take_append_of_le_length hfront, List.take_left] at htake
    rw [← htake, List.length_take, Nat.min_eq_left hfront, List.take_append_drop]

theorem lineFeed_of_suffix {text front : List UInt8} {byte : UInt8}
    (h : joinWithTerminator text = front ++ [byte]) : byte = 10 := by
  have hterminator : joinWithTerminator text = (text ++ [13]) ++ [10] :=
    (List.append_assoc text [13] [10]).symm
  rw [hterminator] at h
  exact (List.cons.inj (List.append_inj' h rfl).2).1.symm

/-- The last chunk, when the buffer has been emptied before it. -/
theorem NestedObject.feedChunk_last (hjs : JsonRuntime js) {value : Value}
    (h : NestedObject js value) {front left last : List UInt8} {limit : Nat}
    (hsplit : joinWithTerminator (bytesOf js value) = front ++ (left ++ last))
    (hfront : front ≠ []) (hfits : (left ++ last).length ≤ limit) :
    ∃ errors, FrameDecoder.feedChunk js ⟨left, limit⟩ last =
      (⟨[], errors⟩, ⟨if left ++ last = [10] then [10] else [], limit⟩) := by
  rw [FrameDecoder.feedChunk_of_fits hfits]
  by_cases hlong : 2 ≤ (left ++ last).length
  · obtain ⟨back, hrest, htext⟩ := exists_line_of_suffix hsplit hlong
    have hline : 13 ∉ back := by
      intro hmember
      refine h.unbroken ?_
      rw [htext]
      exact List.mem_append_right front hmember
    have hne : left ++ last ≠ [10] := by
      intro hequal
      rw [hequal] at hlong
      exact absurd hlong (by decide)
    rw [if_neg hne, hrest, readLines_line hline]
    refine ⟨(if back = [] then Result.empty else readLine js back).errors, ?_⟩
    have hmessages : (if back = [] then Result.empty else readLine js back).messages = [] := by
      split
      · rfl
      · exact h.messages_readLine_tail hjs htext hfront
    rw [← hmessages]
  · -- one byte is the line feed, none is nothing at all
    rcases hrest : left ++ last with _ | ⟨byte, rest⟩
    · exact ⟨[], rfl⟩
    · rw [hrest, List.length_cons] at hlong
      obtain rfl : rest = [] := List.eq_nil_of_length_eq_zero (by omega)
      rw [hrest] at hsplit
      rw [lineFeed_of_suffix hsplit, if_pos rfl]
      exact ⟨[], rfl⟩

theorem leavesLineFeed_iff {limit carried length count last : Nat} (hcarried : carried ≤ limit)
    (hlong : limit < carried + length) (htwo : 2 ≤ length)
    (hlength : length = count * maxChunkBytes + last) (hpositive : 1 ≤ last)
    (hlast : last ≤ maxChunkBytes) :
    LeavesLineFeed limit carried length ↔
      last = 1 ∧ 0 < limit ∧ level limit maxChunkBytes carried count = 0 := by
  have hlevel (hcount : 0 < count) :
      level limit maxChunkBytes carried count = 0 ↔ EmptiedAt limit maxChunkBytes carried count :=
    level_eq_zero_iff (by decide) hcarried hcount
  rw [LeavesLineFeed]
  rw [show maxChunkBytes = 61 from rfl] at hlevel hlength hlast ⊢
  constructor
  · rintro ⟨-, hmod, hroom, hempty⟩
    rw [show length / 61 = count by omega] at hempty
    exact ⟨by omega, hroom, (hlevel (by omega)).mpr hempty⟩
  · rintro ⟨rfl, hroom, hempty⟩
    refine ⟨hlong, by omega, hroom, ?_⟩
    rw [show length / 61 = count by omega]
    exact (hlevel (by omega)).mp hempty

/-- A message that does not fit delivers nothing, and an error is returned. -/
theorem NestedObject.exists_feedAll_oversized (hjs : JsonRuntime js) {value : Value}
    (h : NestedObject js value) (ble : Bool) {lead : List UInt8} {limit : Nat}
    (hlead : 13 ∉ lead) (hcarried : lead.length ≤ limit)
    (hlong : limit < lead.length + framedLength js value) :
    ∃ errors, FrameDecoder.feedAll js ((chunksOf (bytesOf js value)).map (report ble))
        ⟨lead, limit⟩ =
        (⟨[], errors⟩,
          ⟨List.replicate (carriedBy limit lead.length (framedLength js value)) 10, limit⟩) ∧
      errors ≠ [] := by
  obtain ⟨chunks, last, hchunks, hfull, hpositive, hsize, hlength⟩ :=
    exists_chunksOf_concat (bytesOf js value)
  have hsplit : chunks.flatten ++ last = joinWithTerminator (bytesOf js value) := by
    rw [← flatten_chunksOf, hchunks, List.flatten_append, List.flatten_singleton]
  have hlastNonempty : last ≠ [] := List.ne_nil_of_length_pos hpositive
  have hpart := findCrlf_front hlead h.unbroken hsplit hlastNonempty
  obtain ⟨errors, left, hfed, hlevel, hkept⟩ : ∃ errors left,
      FrameDecoder.feedAll js (chunks.map (report ble)) ⟨lead, limit⟩ =
        (⟨[], errors⟩, ⟨left, limit⟩) ∧ _ ∧ _ :=
    FrameDecoder.exists_feedAll_full ble hfull limit hpart
  have hleaves := leavesLineFeed_iff hcarried hlong (Nat.le_add_left 2 _) hlength hpositive hsize
  rw [← hlevel] at hleaves
  rw [hchunks, List.map_append, FrameDecoder.feedAll_append, hfed, List.map_singleton,
    FrameDecoder.feedAll_cons_report ble hpositive hsize, FrameDecoder.feedAll, carriedBy]
  by_cases hlimit : limit < (left ++ last).length
  · -- the last chunk empties the buffer once more
    have hover : ∃ error, FrameDecoder.feedChunk js ⟨left, limit⟩ last =
        (.error error, ⟨[], limit⟩) := FrameDecoder.feedChunk_of_limit hlimit
    obtain ⟨error, herror⟩ := hover
    have hnone : ¬ LeavesLineFeed limit lead.length (framedLength js value) := by
      rw [hleaves]
      rintro ⟨hone, hroom, hempty⟩
      rw [List.length_append, hone, hempty] at hlimit
      omega
    rw [herror, if_neg hnone]
    exact ⟨errors ++ [error], rfl, List.append_ne_nil_of_right_ne_nil errors (List.cons_ne_nil _ _)⟩
  -- it has been emptied before, since the whole message does not fit
  · rcases hkept with ⟨-, rfl⟩ | ⟨herrors, front, hfront, hflatten⟩
    · rw [List.append_assoc, List.length_append, hsplit, length_joinWithTerminator] at hlimit
      exact absurd hlong hlimit
    · rw [hflatten, List.append_assoc] at hsplit
      obtain ⟨others, hlast⟩ :=
        h.feedChunk_last hjs hsplit.symm hfront (Nat.not_lt.mp hlimit)
      have hfeed : left ++ last = [10] ↔
          LeavesLineFeed limit lead.length (framedLength js value) := by
        rw [hleaves]
        constructor
        · intro hend
          have hcount := congrArg List.length hend
          rw [List.length_append, List.length_singleton] at hcount
          rw [List.length_append] at hlimit
          omega
        · rintro ⟨hone, -, hempty⟩
          obtain ⟨byte, rfl⟩ := List.length_eq_one_iff.mp hone
          obtain rfl := List.eq_nil_of_length_eq_zero hempty
          exact congrArg (fun byte => [byte]) (lineFeed_of_suffix hsplit.symm)
      rw [hlast, if_congr hfeed rfl rfl, apply_ite (List.replicate · (10 : UInt8))]
      exact ⟨errors ++ (others ++ []), rfl, List.append_ne_nil_of_left_ne_nil herrors _⟩

/-! ## Messages one after another -/

/-- What one message does to a buffer in which a line feed may be left. -/
theorem NestedObject.exists_feedAll (hjs : JsonRuntime js) {value : Value}
    (h : NestedObject js value) (ble : Bool) {limit carried : Nat} (hone : carried ≤ 1)
    (hcarried : carried ≤ limit) :
    ∃ errors, FrameDecoder.feedAll js ((chunksOf (bytesOf js value)).map (report ble))
        ⟨List.replicate carried 10, limit⟩ =
        (⟨if carried + framedLength js value ≤ limit then [value] else [], errors⟩,
          ⟨List.replicate (carriedBy limit carried (framedLength js value)) 10, limit⟩) ∧
      (errors = [] ↔ carried + framedLength js value ≤ limit) := by
  have hlead : 13 ∉ List.replicate carried (10 : UInt8) := by
    intro hmember
    exact absurd (List.eq_of_mem_replicate hmember) (by decide)
  have hlength : (List.replicate carried (10 : UInt8)).length = carried := List.length_replicate
  by_cases hfits : carried + framedLength js value ≤ limit
  · have hline : readLine js (List.replicate carried 10 ++ bytesOf js value) = ⟨[value], []⟩ := by
      -- a line feed in front of the message is white space of its line
      rcases Nat.le_one_iff_eq_zero_or_eq_one.mp hone with rfl | rfl
      · exact h.toPlainObject.readLine
      · obtain ⟨text, hdecode, hparse⟩ := h.lineFeed
        show readLine js (10 :: bytesOf js value) = _
        simp only [Protocol.readLine, hdecode, hparse, h.isObject, not_true, if_false]
    have hnone : ¬ LeavesLineFeed limit carried (framedLength js value) :=
      fun hleaves => absurd hleaves.1 (Nat.not_lt.mpr hfits)
    refine ⟨[], ?_, ⟨fun _ => hfits, fun _ => rfl⟩⟩
    rw [FrameDecoder.feedAll_message ble hlead h.unbroken h.ne_nil (by rwa [hlength]), hline,
      if_pos hfits, carriedBy, if_neg hnone]
    rfl
  · have hlong : limit < (List.replicate carried (10 : UInt8)).length + framedLength js value := by
      rw [hlength]
      exact Nat.lt_of_not_le hfits
    obtain ⟨errors, hfed, herrors⟩ :=
      h.exists_feedAll_oversized hjs ble hlead (hlength.trans_le hcarried) hlong
    rw [hlength] at hfed
    rw [if_neg hfits]
    exact ⟨errors, hfed, ⟨fun hnone => absurd hnone herrors, fun hle => absurd hle hfits⟩⟩

/-- What the messages of a stream lead to, message by message. -/
def FrameDecoder.feedMessages (js : Runtime Value Text) :
    List (List (List UInt8)) → FrameDecoder → List (Result Value)
  | [], _ => []
  | reports :: framed, state =>
      (feedAll js reports state).1 :: feedMessages js framed (feedAll js reports state).2

theorem FrameDecoder.messages_feedAll (framed : List (List (List UInt8))) (state : FrameDecoder) :
    (feedAll js framed.flatten state).1.messages =
      (feedMessages js framed state).flatMap Result.messages := by
  induction framed generalizing state with
  | nil => rfl
  | cons reports framed ih =>
      rw [List.flatten_cons, feedAll_append, feedMessages, List.flatMap_cons, ← ih]
      rfl

/-- A message that fits the limit is delivered, and one that does not leads to an error and
to no message. -/
def Recovered (js : Runtime Value Text) (limit : Nat) (value : Value) (result : Result Value) :
    Prop :=
  (framedLength js value ≤ limit → result.messages = [value]) ∧
    (limit < framedLength js value → result.messages = [] ∧ result.errors ≠ [])

theorem messages_of_recovered {values : List Value} {results : List (Result Value)} {limit : Nat}
    (h : List.Forall₂ (Recovered js limit) values results) :
    results.flatMap Result.messages = values.filter (framedLength js · ≤ limit) := by
  induction h with
  | nil => rfl
  | @cons value result values results hvalue hrest ih =>
      rw [List.flatMap_cons, ih]
      by_cases hfits : framedLength js value ≤ limit
      · rw [List.filter_cons, if_pos (decide_eq_true hfits), hvalue.1 hfits]
        rfl
      · rw [List.filter_cons, if_neg (fun h => hfits (of_decide_eq_true h)),
          (hvalue.2 (Nat.lt_of_not_le hfits)).1]
        rfl

/-- No message of exactly the limit comes behind a line feed that was left in the buffer. -/
def Recovers (limit : Nat) : Nat → List Nat → Prop
  | _, [] => True
  | carried, length :: lengths =>
      ¬ (carried = 1 ∧ length = limit) ∧ Recovers limit (carriedBy limit carried length) lengths

theorem forall_recovered_iff (hjs : JsonRuntime js) {values : List Value}
    {framed : List (List (List UInt8))} (hnested : ∀ value ∈ values, NestedObject js value)
    (hframed : List.Forall₂ (fun value reports => ∃ options,
      frameMessage js (.value value) options = .ok reports) values framed)
    {limit carried : Nat} (hone : carried ≤ 1) (hcarried : carried ≤ limit) :
    List.Forall₂ (Recovered js limit) values
        (FrameDecoder.feedMessages js framed ⟨List.replicate carried 10, limit⟩) ↔
      Recovers limit carried (values.map (framedLength js)) := by
  induction hframed generalizing carried with
  | nil => exact ⟨fun _ => trivial, fun _ => .nil⟩
  | @cons value reports values framed hreports hrest ih =>
      have hvalue := hnested value (List.mem_cons_self ..)
      obtain ⟨options, hreports⟩ := hreports
      obtain ⟨⟨ble, rfl⟩, -⟩ := frameMessage_eq_ok hvalue.isObject hreports
      obtain ⟨errors, hfed, herrors⟩ := hvalue.exists_feedAll hjs ble hone hcarried
      obtain ⟨hnext, hroom⟩ := carriedBy_le limit carried (framedLength js value)
      have hfirst : Recovered js limit value
          ⟨if carried + framedLength js value ≤ limit then [value] else [], errors⟩ ↔
          ¬ (carried = 1 ∧ framedLength js value = limit) := by
        rw [Recovered]
        -- with at most one byte in front, only a message of just the limit makes a difference
        by_cases hfits : carried + framedLength js value ≤ limit
        · rw [if_pos hfits]
          refine ⟨fun _ => by omega, fun _ => ⟨fun _ => rfl, fun hlong => by omega⟩⟩
        · rw [if_neg hfits]
          refine ⟨fun h hlast => ?_, fun h => ⟨fun hfit => by omega, fun _ => ⟨rfl, ?_⟩⟩⟩
          · exact absurd (h.1 (Nat.le_of_eq hlast.2)) (List.cons_ne_nil _ _).symm
          · exact fun hnone => hfits (herrors.mp hnone)
      rw [FrameDecoder.feedMessages, hfed, List.forall₂_cons, hfirst, List.map_cons, Recovers,
        ih (fun other h => hnested other (List.mem_cons_of_mem _ h)) hnext hroom]

/-- The messages that fit the limit are delivered in order, and each other one leads to an
error and to no message, exactly when no message of just the limit comes behind the line
feed of one that has overflowed the buffer. -/
theorem oversized_recovery (hjs : JsonRuntime js) {values : List Value}
    {framed : List (List (List UInt8))} {limit : Nat}
    (hnested : ∀ value ∈ values, NestedObject js value)
    (hframed : List.Forall₂ (fun value reports => ∃ options,
      frameMessage js (.value value) options = .ok reports) values framed) :
    ((FrameDecoder.feedAll js framed.flatten (.new (some limit))).1.messages =
          values.filter (framedLength js · ≤ limit) ∧
        List.Forall₂ (Recovered js limit) values
          (FrameDecoder.feedMessages js framed (.new (some limit)))) ↔
      Recovers limit 0 (values.map (framedLength js)) := by
  have hiff : List.Forall₂ (Recovered js limit) values
      (FrameDecoder.feedMessages js framed (.new (some limit))) ↔
        Recovers limit 0 (values.map (framedLength js)) :=
    forall_recovered_iff hjs hnested hframed (Nat.zero_le 1) (Nat.zero_le limit)
  rw [← hiff, FrameDecoder.messages_feedAll]
  exact ⟨fun h => h.2, fun h => ⟨messages_of_recovered h, h⟩⟩

/-! ## The runtime of a few values -/

theorem run_objectText (letters : Nat) :
    Nesting.run .start ((objectText letters).map symbolOf) = some .start := by
  have hletters : Nesting.run ⟨.inside, 1⟩ ((List.replicate letters 0x78).map symbolOf) =
      some ⟨.inside, 1⟩ := by
    refine Nesting.run_others (by decide) fun symbol hsymbol => ?_
    rw [List.map_replicate] at hsymbol
    exact List.eq_of_mem_replicate hsymbol
  have hfront : Nesting.run .start ([0x7b, 0x22, 0x61, 0x22, 0x3a, 0x22].map symbolOf) =
      some ⟨.inside, 1⟩ := by decide
  rw [objectText, List.map_append, Nesting.run_append, hfront, Option.bind_some,
    List.map_append, Nesting.run_append, hletters]
  decide

theorem jsonRuntime_sampleRuntime : JsonRuntime sampleRuntime where
  nonempty := by
    rintro text value hparse rfl
    cases hparse
  closed := by
    intro text value hparse
    have hspaces : ∀ symbol ∈ (text.takeWhile isSpace).map symbolOf, symbol = .other := by
      intro symbol hsymbol
      obtain ⟨byte, hbyte, rfl⟩ := List.mem_map.mp hsymbol
      have hspace := List.all_eq_true.mp List.all_takeWhile byte hbyte
      simp only [isSpace, Bool.or_eq_true, beq_iff_eq] at hspace
      rcases hspace with ((rfl | rfl) | rfl) | rfl <;> rfl
    have hbody : text.dropWhile isSpace = objectText ((text.dropWhile isSpace).length - 8) := by
      by_contra hother
      rw [show sampleRuntime.parse text = none from if_neg hother] at hparse
      cases hparse
    show Nesting.run .start (text.map symbolOf) = some .start
    rw [← List.takeWhile_append_dropWhile (p := isSpace) (l := text), List.map_append,
      Nesting.run_append, Nesting.run_others (by decide) hspaces, Option.bind_some, hbody,
      run_objectText]
  decoded := by
    intro bytes text hdecode
    refine ⟨[], .inl rfl, ?_⟩
    by_cases hascii : bytes.all (· < 0x80) = true
    · rw [show sampleRuntime.decode bytes = some bytes from if_pos hascii] at hdecode
      exact Option.some.inj hdecode
    · rw [show sampleRuntime.decode bytes = none from if_neg hascii] at hdecode
      cases hdecode

theorem nestedObject_sampleRuntime (letters : Nat) : NestedObject sampleRuntime letters where
  toPlainObject := plainObject_sampleRuntime letters
  inside := by
    intro front back hsplit hfront hback
    obtain ⟨init, byte, rfl⟩ := (List.eq_nil_or_concat' back).resolve_left hback
    -- all but the last byte, which is the brace that closes the object
    have hunclosed : objectText letters =
        0x7b :: ([0x22, 0x61, 0x22, 0x3a, 0x22] ++ List.replicate letters 0x78 ++ [0x22]) ++
          [0x7d] := by
      simp only [objectText, List.cons_append, List.nil_append, List.append_assoc]
    have hinit : front ++ init =
        0x7b :: ([0x22, 0x61, 0x22, 0x3a, 0x22] ++ List.replicate letters 0x78 ++ [0x22]) := by
      rw [show bytesOf sampleRuntime letters = objectText letters from rfl, hunclosed,
        ← List.append_assoc] at hsplit
      exact (List.append_inj' hsplit rfl).1.symm
    obtain ⟨first, rest, rfl⟩ := List.exists_cons_of_ne_nil hfront
    obtain ⟨rfl, hrest⟩ := List.cons.inj hinit
    have hplain : ∀ symbol ∈ rest.map symbolOf, symbol ≠ .closing ∧ symbol ≠ .backslash := by
      intro symbol hsymbol
      obtain ⟨byte, hbyte, rfl⟩ := List.mem_map.mp hsymbol
      have hmember := List.mem_append_left init hbyte
      rw [show rest ++ init = _ from hrest] at hmember
      simp only [List.mem_append, List.mem_cons, List.not_mem_nil, or_false,
        List.mem_replicate] at hmember
      rcases hmember with ((rfl | rfl | rfl | rfl | rfl) | ⟨-, rfl⟩) | rfl <;> decide
    have hrun : ∃ last : Nesting.State,
        Nesting.run ⟨.outside, 1⟩ (rest.map symbolOf) = some last ∧ 1 ≤ last.depth :=
      Nesting.exists_run_of_unclosed (by decide) hplain
    obtain ⟨last, hlast, hdepth⟩ := hrun
    exact ⟨last, hlast, hdepth⟩
  lineFeed := by
    refine ⟨10 :: objectText letters, sampleRuntime_decode ?_, ?_⟩
    · intro byte hbyte
      rcases List.mem_cons.mp hbyte with rfl | hbyte
      · decide
      · exact (objectText_ascii hbyte).1
    · have hlead : ∀ byte ∈ [(10 : UInt8)], isSpace byte = true := by simp [isSpace]
      exact sampleRuntime_parse hlead letters

/-- A message that overflows the buffer, one of the limit behind it, and a shorter one. -/
theorem oversized_recovery_apart :
    (FrameDecoder.feedAll sampleRuntime
          ([120, 50, 40].map fun letters =>
            (chunksOf (objectText letters)).map (report false)).flatten
          (.new (some 60))).1.messages = [120, 50, 40].filter (framedLength sampleRuntime · ≤ 60) ∧
      List.Forall₂ (Recovered sampleRuntime 60) [120, 50, 40]
        (FrameDecoder.feedMessages sampleRuntime
          ([120, 50, 40].map fun letters => (chunksOf (objectText letters)).map (report false))
          (.new (some 60))) :=
  (oversized_recovery jsonRuntime_sampleRuntime
    (fun value _ => nestedObject_sampleRuntime value)
    (.cons ⟨⟨none, none⟩, by decide +kernel⟩
      (.cons ⟨⟨none, none⟩, by decide +kernel⟩ (.cons ⟨⟨none, none⟩, by decide +kernel⟩ .nil)))).mpr
    ⟨by decide +kernel, by decide +kernel, by decide +kernel, trivial⟩

/-- The line feed of a message of 62 bytes, left in a buffer of 60, keeps out the message of
60 bytes behind it. -/
theorem lineFeed_keeps_out_next :
    ¬ ∀ (js : Runtime Nat (List UInt8)) (values : List Nat)
        (framed : List (List (List UInt8))) (limit : Nat),
      JsonRuntime js → (∀ value ∈ values, NestedObject js value) →
      List.Forall₂ (fun value reports => ∃ options,
        frameMessage js (.value value) options = .ok reports) values framed →
      (FrameDecoder.feedAll js framed.flatten (.new (some limit))).1.messages =
          values.filter (framedLength js · ≤ limit) ∧
        List.Forall₂ (Recovered js limit) values
          (FrameDecoder.feedMessages js framed (.new (some limit))) := by
  intro h
  have hmessages := (h sampleRuntime [52, 50]
    [(chunksOf (objectText 52)).map (report false), (chunksOf (objectText 50)).map (report false)]
    60 jsonRuntime_sampleRuntime (fun value _ => nestedObject_sampleRuntime value)
    (.cons ⟨⟨none, none⟩, rfl⟩ (.cons ⟨⟨none, none⟩, rfl⟩ .nil))).1
  revert hmessages
  decide +kernel

end Protocol
end MicroEmu
