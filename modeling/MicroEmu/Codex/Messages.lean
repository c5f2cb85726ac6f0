import MicroEmu.Codex.Lines
import MicroEmu.Library.Chunks

/-!
# Framed messages

The reports of `frame_json` carry one message after another.  A message that fits the
buffer comes back whole.  A larger one is dropped in the middle, and what is left of it is
read as if it were a message of its own.
-/

namespace MicroEmu
namespace Codex

open Json (Value)
open Library (toChunks_eq flatten_toChunks length_of_mem_toChunks toChunks_append)

/-! ## Objects only -/

/-- Where only objects are ahead, nothing is rejected. -/
theorem not_meets_of_objects {next : Parser} {buffer unread : List UInt8} {pending : List Line}
    (hpending : ∀ line ∈ pending, line.Valid next)
    (hobjects : ∀ line ∈ pending, line.value ≠ none) (hahead : Ahead buffer unread pending)
    (count : Nat) (rejected : List UInt8) : ¬ Meets next buffer count rejected := by
  intro hmeets
  -- the lines that are left are generalised: each object that is decoded takes one
  induction hmeets generalizing pending with
  | failed hbuffer hnext =>
      obtain ⟨line, rest, rfl, hline, hstart⟩ := hahead.exists_line hpending hbuffer
      obtain ⟨value, hvalue⟩ :=
        Option.ne_none_iff_exists'.mp (hobjects line (List.mem_cons_self ..))
      exact ((hline.object value hvalue).next_accepted hbuffer hstart).1 _ hnext
  | notObject hbuffer hnext hother =>
      obtain ⟨line, rest, rfl, hline, hstart⟩ := hahead.exists_line hpending hbuffer
      obtain ⟨value, hvalue⟩ :=
        Option.ne_none_iff_exists'.mp (hobjects line (List.mem_cons_self ..))
      rw [((hline.object value hvalue).next_accepted hbuffer hstart).2 _ _ hnext] at hother
      cases hother
  | behind hbuffer hnext hisObject hrest ih =>
      obtain ⟨line, rest, rfl, hline, hstart⟩ := hahead.exists_line hpending hbuffer
      obtain ⟨value, hvalue⟩ :=
        Option.ne_none_iff_exists'.mp (hobjects line (List.mem_cons_self ..))
      rcases (hline.object value hvalue).next_eq hbuffer hstart with
        ⟨hwhole, more, hmore, hbehind⟩ | ⟨⟨error, hpart⟩, -⟩
      · rw [hwhole] at hnext
        obtain ⟨rfl, rfl⟩ := Streamed.message.inj hnext
        refine ih (fun other h => hpending other (List.mem_cons_of_mem _ h))
          (fun other h => hobjects other (List.mem_cons_of_mem _ h)) ?_
        rw [hmore, List.drop_left, Ahead, hbehind, stripTerminators_crlf]
      · rw [hpart] at hnext
        cases hnext

/-- The parser on the serialisation of an object: `serde_json` reads it back whatever
follows, and reports the end of its input on every part of it. -/
structure Serialised (next : Parser) (text : List UInt8) (value : Value) : Prop extends
    Line.IsObject next text value where
  starts : ∃ rest, text = 0x7b :: rest

/-- The line of an object. -/
def objectLine (text : List UInt8) (value : Value) : Line := ⟨[], text, some value⟩

theorem Serialised.valid {next : Parser} {text : List UInt8} {value : Value}
    (h : Serialised next text value) : (objectLine text value).Valid next where
  lead := fun _ hbyte => absurd hbyte List.not_mem_nil
  starts := by
    obtain ⟨rest, rfl⟩ := h.starts
    exact ⟨0x7b, rest, rfl, rfl⟩
  unbroken := fun hnone => absurd hnone (Option.some_ne_none value)
  object := by
    rintro other hvalue
    obtain rfl := Option.some.inj hvalue
    exact h.toIsObject
  rejected := fun hnone => absurd hnone (Option.some_ne_none value)

theorem stream_objectLine (text : List UInt8) (value : Value) :
    stream [objectLine text value] = text ++ [13, 10] := List.append_nil _

/-- Reports that carry the rest of objects that fit the buffer, where no object is
complete yet. -/
theorem exists_feedAll_objects {next : Parser} (pending : List Line)
    (hpending : ∀ line ∈ pending, line.Valid next)
    (hobjects : ∀ line ∈ pending, line.value ≠ none) {reports : List (List UInt8)}
    (hvalid : ∀ report ∈ reports, ValidReport report) {buffer : List UInt8}
    (hstripped : stripTerminators buffer = buffer)
    (hahead : Ahead buffer (chunksOf reports) pending)
    (hend : chunksOf reports = [] → pending = [])
    (hlimit : (buffer ++ chunksOf reports).length ≤ maxBufferBytes) :
    ∃ results : List (List Value),
      CodexDecoder.feedAll next reports ⟨buffer⟩ = (results.map .ok, ⟨[]⟩) ∧
        results.flatten = objectsOf pending := by
  induction reports generalizing pending buffer with
  | nil =>
      obtain rfl := hend rfl
      have hempty : buffer = [] := by
        rw [Ahead, show chunksOf [] = [] from rfl, List.append_nil, hstripped] at hahead
        exact hahead
      exact ⟨[], by rw [hempty]; rfl, rfl⟩
  | cons report reports ih =>
      have hchunks : chunksOf (report :: reports) = chunkOf report ++ chunksOf reports := rfl
      rw [hchunks, ← List.append_assoc] at hlimit
      rw [Ahead, hchunks, ← List.append_assoc] at hahead
      rw [List.length_append] at hlimit
      have hfeed := CodexDecoder.feed_of_valid next ⟨buffer⟩
        (hvalid report (List.mem_cons_self ..))
      rw [if_neg (Nat.not_lt.mpr (Nat.le_of_add_right_le hlimit))] at hfeed
      -- nothing is rejected on the way, so each call returns what has arrived
      obtain ⟨done, rest, left, rfl, hdecode, hleft, hlast, hidem⟩ :=
        decodeAvailable_quiet hpending hahead (not_meets_of_objects hpending hobjects hahead)
      have hshorter : left.length ≤ (buffer ++ chunkOf report).length := by
        have hsuffix := (decodeAvailable_suffix next (buffer ++ chunkOf report)).length_le
        rwa [hdecode] at hsuffix
      rw [hdecode] at hfeed
      obtain ⟨results, hresults, hflatten⟩ := ih rest
        (fun line h => hpending line (List.mem_append_right done h))
        (fun line h => hobjects line (List.mem_append_right done h))
        (fun other h => hvalid other (List.mem_cons_of_mem _ h)) hidem hleft hlast
        (by rw [List.length_append]; omega)
      refine ⟨objectsOf done :: results, ?_, ?_⟩
      · rw [CodexDecoder.feedAll, hfeed, hresults]
        rfl
      · rw [List.flatten_cons, hflatten, objectsOf_append]

/-! ## The reports of a message -/

/-- The reports of a text with its terminator. -/
def reportsOf (text : List UInt8) : List (List UInt8) :=
  ((text ++ [13, 10]).toChunks maxChunkBytes).map report

theorem chunksOf_map_report {chunks : List (List UInt8)}
    (h : ∀ chunk ∈ chunks, chunk.length ≤ maxChunkBytes) :
    chunksOf (chunks.map report) = chunks.flatten := by
  have hchunks : (chunks.map report).map chunkOf = chunks := by
    rw [List.map_map]
    exact (List.map_congr_left fun chunk hchunk => chunkOf_report (h chunk hchunk)).trans
      (List.map_id chunks)
  rw [chunksOf, hchunks]

theorem chunksOf_toChunks (bytes : List UInt8) :
    chunksOf ((bytes.toChunks maxChunkBytes).map report) = bytes := by
  rw [chunksOf_map_report fun chunk h => (length_of_mem_toChunks (by decide) h).2,
    flatten_toChunks (by decide)]

theorem validReport_toChunks (bytes : List UInt8) :
    ∀ other ∈ (bytes.toChunks maxChunkBytes).map report, ValidReport other := by
  intro other hother
  obtain ⟨chunk, hchunk, rfl⟩ := List.mem_map.mp hother
  obtain ⟨hpositive, hfits⟩ := length_of_mem_toChunks (by decide) hchunk
  exact validReport_report hpositive hfits

theorem validReport_reportsOf (text : List UInt8) :
    ∀ other ∈ reportsOf text, ValidReport other := validReport_toChunks _

theorem frameJson_eq_ok {toVec : Value → List UInt8} {message : Value}
    {reports : List (List UInt8)} (h : frameJson toVec message = .ok reports) :
    reports = reportsOf (toVec message) := by
  cases message with
  | object fields => exact (Except.ok.inj h).symm
  | null => cases h
  | bool b => cases h
  | number n => cases h
  | string s => cases h
  | array items => cases h

/-- A message that fits comes back, and leaves the buffer empty. -/
theorem exists_feedAll_message {next : Parser} {text : List UInt8} {value : Value}
    (h : Serialised next text value) (hsize : text.length + 2 ≤ maxBufferBytes) :
    ∃ results : List (List Value),
      CodexDecoder.feedAll next (reportsOf text) .default = (results.map .ok, .default) ∧
        results.flatten = [value] := by
  have hchunks : chunksOf (reportsOf text) = text ++ [13, 10] := chunksOf_toChunks _
  refine exists_feedAll_objects [objectLine text value] ?_ ?_
    (validReport_reportsOf text) rfl ?_ ?_ ?_
  · intro line hline
    obtain rfl := List.mem_singleton.mp hline
    exact h.valid
  · intro line hline
    obtain rfl := List.mem_singleton.mp hline
    exact Option.some_ne_none value
  · rw [Ahead, hchunks, stream_objectLine]
    rfl
  · intro hnil
    rw [hchunks] at hnil
    exact absurd (List.append_eq_nil_iff.mp hnil).2 (List.cons_ne_nil _ _)
  · rw [hchunks, List.nil_append, List.length_append]
    exact hsize

theorem framed_eq {toVec : Value → List UInt8} {messages : List Value}
    {framed : List (List (List UInt8))}
    (h : List.Forall₂ (fun message reports => frameJson toVec message = .ok reports) messages
      framed) : framed = (messages.map toVec).map reportsOf := by
  induction h with
  | nil => rfl
  | cons hmessage hrest ih => rw [frameJson_eq_ok hmessage, ih, List.map_cons, List.map_cons]

theorem forall₂_map_toVec {relation : List UInt8 → Value → Prop} {toVec : Value → List UInt8}
    {messages : List Value} (h : ∀ message ∈ messages, relation (toVec message) message) :
    List.Forall₂ relation (messages.map toVec) messages :=
  List.forall₂_map_left_iff.mpr (List.forall₂_same.mpr h)

/-- Texts that fit are delivered, and leave the decoder as it was. -/
theorem exists_feedAll_texts {next : Parser} {texts : List (List UInt8)} {values : List Value}
    (h : List.Forall₂ (Serialised next) texts values)
    (hsize : ∀ text ∈ texts, text.length + 2 ≤ maxBufferBytes) :
    ∃ batches : List (List Value), batches.flatten = values ∧ ∀ later,
      CodexDecoder.feedAll next ((texts.map reportsOf).flatten ++ later) .default =
        (batches.map .ok ++ (CodexDecoder.feedAll next later .default).1,
          (CodexDecoder.feedAll next later .default).2) := by
  induction h with
  | nil => exact ⟨[], rfl, fun _ => rfl⟩
  | @cons text value texts values hserial hrest ih =>
      obtain ⟨hfit, hfits⟩ := List.forall_mem_cons.mp hsize
      obtain ⟨first, hfirst, hvalue⟩ := exists_feedAll_message hserial hfit
      obtain ⟨batches, hflatten, hall⟩ := ih hfits
      refine ⟨first ++ batches, ?_, fun later => ?_⟩
      · rw [List.flatten_append, hvalue, hflatten, List.singleton_append]
      · rw [List.map_cons, List.flatten_cons, List.append_assoc, CodexDecoder.feedAll_append,
          hfirst, hall, List.map_append, List.append_assoc]

/-- Messages that fit come back in order, no call returns an error, and nothing is left
in the buffer. -/
theorem messages_round_trip {next : Parser} {toVec : Value → List UInt8} {messages : List Value}
    {framed : List (List (List UInt8))}
    (hserialised : ∀ message ∈ messages, Serialised next (toVec message) message)
    (hframed : List.Forall₂ (fun message reports => frameJson toVec message = .ok reports)
      messages framed)
    (hsize : ∀ message ∈ messages, (toVec message).length + 2 ≤ 65536) :
    ∃ results : List (List Value),
      CodexDecoder.feedAll next framed.flatten .default = (results.map .ok, .default) ∧
        results.flatten = messages := by
  induction hframed with
  | nil => exact ⟨[], rfl, rfl⟩
  | @cons message reports messages framed hmessage hrest ih =>
      obtain rfl := frameJson_eq_ok hmessage
      obtain ⟨first, hfirst, hvalue⟩ := exists_feedAll_message
        (hserialised message (List.mem_cons_self ..)) (hsize message (List.mem_cons_self ..))
      obtain ⟨results, hresults, hflatten⟩ :=
        ih (fun other h => hserialised other (List.mem_cons_of_mem _ h))
          (fun other h => hsize other (List.mem_cons_of_mem _ h))
      refine ⟨first ++ results, ?_, ?_⟩
      · rw [List.flatten_cons, CodexDecoder.feedAll_append, hfirst, hresults, List.map_append]
      · rw [List.flatten_append, hvalue, hflatten, List.singleton_append]

/-! ## Messages that do not fit -/

/-- The parser waits for the rest of an object. -/
theorem decodeAvailable_part {next : Parser} {text : List UInt8} {value : Value}
    (h : Serialised next text value) {front back : List UInt8} (htext : text = front ++ back)
    (hfront : front ≠ []) (hback : back ≠ []) : decodeAvailable next front = (.ok [], front) := by
  have hstrip : stripTerminators front = front := by
    obtain ⟨rest, hstarts⟩ := h.starts
    obtain ⟨first, others, rfl⟩ := List.exists_cons_of_ne_nil hfront
    rw [hstarts] at htext
    obtain ⟨rfl, -⟩ := List.cons.inj htext
    exact stripTerminators_cons rfl others
  obtain ⟨error, hnext⟩ := h.part front back htext hfront hback
  rw [decodeAvailable, decodeTurns, hstrip, if_neg hfront, hnext]
  rfl

/-- Reports that carry a part of an object, while that fits the buffer. -/
theorem feedAll_part {next : Parser} {text : List UInt8} {value : Value}
    (h : Serialised next text value) {reports : List (List UInt8)}
    (hvalid : ∀ report ∈ reports, ValidReport report) {buffer back : List UInt8}
    (htext : text = buffer ++ chunksOf reports ++ back) (hback : back ≠ [])
    (hlimit : (buffer ++ chunksOf reports).length ≤ maxBufferBytes) :
    delivered (CodexDecoder.feedAll next reports ⟨buffer⟩).1 = [] ∧
      (CodexDecoder.feedAll next reports ⟨buffer⟩).2 = ⟨buffer ++ chunksOf reports⟩ := by
  induction reports generalizing buffer with
  | nil => exact ⟨rfl, congrArg CodexDecoder.mk (List.append_nil buffer).symm⟩
  | cons report reports ih =>
      have hreport := hvalid report (List.mem_cons_self ..)
      have hchunks : buffer ++ chunksOf (report :: reports) =
          buffer ++ chunkOf report ++ chunksOf reports := (List.append_assoc ..).symm
      rw [hchunks] at hlimit htext ⊢
      have hfront : buffer ++ chunkOf report ≠ [] := List.append_ne_nil_of_right_ne_nil buffer
        (List.ne_nil_of_length_pos hreport.length_chunkOf.1)
      have hmore : chunksOf reports ++ back ≠ [] := List.append_ne_nil_of_right_ne_nil _ hback
      have hdecode := decodeAvailable_part h (htext.trans (List.append_assoc ..)) hfront hmore
      have hfits : (buffer ++ chunkOf report).length ≤ maxBufferBytes := by
        rw [List.length_append] at hlimit
        omega
      have hfeed := CodexDecoder.feed_of_valid next ⟨buffer⟩ hreport
      rw [if_neg (Nat.not_lt.mpr hfits), hdecode] at hfeed
      obtain ⟨hdelivered, hbuffer⟩ :=
        ih (fun other hother => hvalid other (List.mem_cons_of_mem _ hother)) htext hlimit
      rw [CodexDecoder.feedAll, hfeed]
      exact ⟨hdelivered, hbuffer⟩

/-- The bytes that the reports before the one that overflows the buffer carry. -/
def beforeOverflow : Nat := 1074 * maxChunkBytes

/-- The reports of a text that is longer than what fits the buffer. -/
theorem reportsOf_split (text : List UInt8) (h : beforeOverflow ≤ text.length) :
    reportsOf text =
      ((text.take beforeOverflow).toChunks maxChunkBytes).map report ++
        report ((text ++ [13, 10]).drop beforeOverflow |>.take maxChunkBytes) ::
          (((text ++ [13, 10]).drop (beforeOverflow + maxChunkBytes)).toChunks
            maxChunkBytes).map report := by
  have hfront : (text.take beforeOverflow).length = 1074 * maxChunkBytes :=
    List.length_take_of_le h
  have hback : (text ++ [13, 10]).drop beforeOverflow ≠ [] := by
    refine List.ne_nil_of_length_pos ?_
    rw [List.length_drop, List.length_append, List.length_cons, List.length_singleton]
    omega
  have hbytes : text ++ [13, 10] =
      text.take beforeOverflow ++ (text ++ [13, 10]).drop beforeOverflow := by
    rw [List.drop_append_of_le_length h, ← List.append_assoc, List.take_append_drop]
  rw [reportsOf, hbytes, toChunks_append (by decide) 1074 hfront, List.map_append, ← hbytes,
    toChunks_eq (by decide) hback, List.map_cons, List.drop_drop]

/-- A message that does not fit overflows the buffer, which is then empty. -/
theorem feedAll_overflow {next : Parser} {text : List UInt8} {value : Value}
    (h : Serialised next text value) (hsize : maxBufferBytes < text.length + 2) :
    ∃ results, delivered results = [] ∧ ∀ later,
      CodexDecoder.feedAll next
          (((text.take beforeOverflow).toChunks maxChunkBytes).map report ++
            report ((text ++ [13, 10]).drop beforeOverflow |>.take maxChunkBytes) :: later)
          .default =
        (results ++ (CodexDecoder.feedAll next later .default).1,
          (CodexDecoder.feedAll next later .default).2) := by
  rw [maxBufferBytes] at hsize
  have hbefore : beforeOverflow = 65514 := rfl
  have hchunk : maxChunkBytes = 61 := rfl
  have hpart : chunksOf (((text.take beforeOverflow).toChunks maxChunkBytes).map report) =
      text.take beforeOverflow := chunksOf_toChunks _
  have htaken : (text.take beforeOverflow).length = 65514 :=
    List.length_take_of_le (by omega)
  -- 65514 + 61 > 65536, and the 1074 reports before still fit
  have hrest : text.drop beforeOverflow ≠ [] := List.ne_nil_of_length_pos (by
    rw [List.length_drop]
    omega)
  obtain ⟨hdelivered, hbuffer⟩ := feedAll_part h (validReport_toChunks (text.take beforeOverflow))
    (show text = [] ++ chunksOf _ ++ text.drop beforeOverflow by
      rw [hpart, List.nil_append, List.take_append_drop]) hrest
    (by rw [hpart, List.nil_append, htaken]; decide)
  rw [hpart, List.nil_append] at hbuffer
  generalize hlast : ((text ++ [13, 10]).drop beforeOverflow |>.take maxChunkBytes) = last
  have hlength : last.length = min 61 (text.length + 2 - 65514) := by
    rw [← hlast, List.length_take, List.length_drop, List.length_append, hbefore, hchunk]
    rfl
  have hvalid : ValidReport (report last) :=
    validReport_report (by omega) (by rw [hchunk]; omega)
  have hcarried : chunkOf (report last) = last := chunkOf_report (by rw [hchunk]; omega)
  have hoverflow : maxBufferBytes < (text.take beforeOverflow ++ last).length := by
    rw [List.length_append, htaken, hlength, maxBufferBytes]
    omega
  have hfeed := CodexDecoder.feed_of_valid next ⟨text.take beforeOverflow⟩ hvalid
  rw [hcarried, if_pos hoverflow] at hfeed
  refine ⟨(CodexDecoder.feedAll next (((text.take beforeOverflow).toChunks
    maxChunkBytes).map report) .default).1 ++
      [.error "Codex message buffer exceeded 64 KiB"], ?_, ?_⟩
  · rw [delivered_append, delivered_error, List.append_nil]
    exact hdelivered
  · intro later
    have hstate : (CodexDecoder.feedAll next (((text.take beforeOverflow).toChunks
        maxChunkBytes).map report) .default).2 = ⟨text.take beforeOverflow⟩ := hbuffer
    rw [CodexDecoder.feedAll_append, CodexDecoder.feedAll, hstate, hfeed, List.append_assoc]
    rfl

/-- Reports of terminators change nothing between messages. -/
theorem feedAll_terminators (next : Parser) {reports : List (List UInt8)}
    (hvalid : ∀ report ∈ reports, ValidReport report)
    (hbytes : ∀ byte ∈ chunksOf reports, isTerminator byte = true) :
    delivered (CodexDecoder.feedAll next reports .default).1 = [] ∧
      (CodexDecoder.feedAll next reports .default).2 = .default := by
  induction reports with
  | nil => exact ⟨rfl, rfl⟩
  | cons report reports ih =>
      have hreport := hvalid report (List.mem_cons_self ..)
      have hchunks : chunksOf (report :: reports) = chunkOf report ++ chunksOf reports := rfl
      rw [hchunks] at hbytes
      have hstrip : stripTerminators (chunkOf report) = [] :=
        List.dropWhile_eq_nil_iff.mpr fun byte h => hbytes byte (List.mem_append_left _ h)
      have hdecode : decodeAvailable next (chunkOf report) = (.ok [], []) := by
        rw [decodeAvailable, decodeTurns, hstrip, if_pos rfl]
      have hlimit : ¬ (chunkOf report).length > maxBufferBytes := by
        have hfits := hreport.length_chunkOf.2
        rw [maxChunkBytes] at hfits
        rw [maxBufferBytes]
        omega
      have hfeed := CodexDecoder.feed_of_valid next .default hreport
      rw [show CodexDecoder.default.buffer ++ chunkOf report = chunkOf report from rfl,
        if_neg hlimit, hdecode] at hfeed
      obtain ⟨hdelivered, hstate⟩ :=
        ih (fun other h => hvalid other (List.mem_cons_of_mem _ h))
          (fun byte h => hbytes byte (List.mem_append_right _ h))
      rw [CodexDecoder.feedAll, hfeed]
      exact ⟨hdelivered, hstate⟩

/-- A message of which at most the terminator is left when it overflows the buffer is
dropped whole. -/
theorem feedAll_dropped {next : Parser} {text : List UInt8} {value : Value}
    (h : Serialised next text value) (hsize : maxBufferBytes < text.length + 2)
    (htail : text.length ≤ beforeOverflow + maxChunkBytes) :
    delivered (CodexDecoder.feedAll next (reportsOf text) .default).1 = [] ∧
      (CodexDecoder.feedAll next (reportsOf text) .default).2 = .default := by
  have hbefore : beforeOverflow ≤ text.length := by
    have hvalue : beforeOverflow = 65514 := rfl
    rw [maxBufferBytes] at hsize
    omega
  obtain ⟨results, hresults, hfeed⟩ := feedAll_overflow h hsize
  rw [reportsOf_split text hbefore, hfeed]
  obtain ⟨hdelivered, hstate⟩ := feedAll_terminators next
    (validReport_toChunks ((text ++ [13, 10]).drop (beforeOverflow + maxChunkBytes))) (by
      intro byte hbyte
      rw [chunksOf_toChunks, List.drop_append, List.drop_eq_nil_of_le htail,
        List.nil_append] at hbyte
      -- only bytes of the terminator come behind the overflow
      have hterminator : ∀ byte ∈ [(13 : UInt8), 10], isTerminator byte = true := by
        simp [isTerminator]
      exact hterminator byte (List.mem_of_mem_drop hbyte))
  exact ⟨by rw [delivered_append, hresults, hdelivered, List.nil_append], hstate⟩

/-- A message fits the buffer with its terminator. -/
def fitsBuffer (toVec : Value → List UInt8) (message : Value) : Bool :=
  decide ((toVec message).length + 2 ≤ maxBufferBytes)

/-- While no message is so large that a part of its text is left when it overflows the
buffer, the messages delivered are those that fit, in order. -/
theorem messages_delivered_whole {next : Parser} {toVec : Value → List UInt8}
    {messages : List Value} {framed : List (List (List UInt8))}
    (hserialised : ∀ message ∈ messages, Serialised next (toVec message) message)
    (hframed : List.Forall₂ (fun message reports => frameJson toVec message = .ok reports)
      messages framed)
    (hsize : ∀ message ∈ messages, (toVec message).length ≤ 65575) :
    (delivered (CodexDecoder.feedAll next framed.flatten .default).1).Sublist messages ∧
      delivered (CodexDecoder.feedAll next framed.flatten .default).1 =
        messages.filter (fitsBuffer toVec) := by
  have hfilter : delivered (CodexDecoder.feedAll next framed.flatten .default).1 =
      messages.filter (fitsBuffer toVec) := by
    induction hframed with
    | nil => rfl
    | @cons message reports messages framed hmessage hrest ih =>
        obtain rfl := frameJson_eq_ok hmessage
        have hlater := ih (fun other h => hserialised other (List.mem_cons_of_mem _ h))
          (fun other h => hsize other (List.mem_cons_of_mem _ h))
        have hobject := hserialised message (List.mem_cons_self ..)
        rw [List.flatten_cons, CodexDecoder.feedAll_append, delivered_append]
        -- either way the next message finds an empty buffer
        by_cases hfits : (toVec message).length + 2 ≤ maxBufferBytes
        · obtain ⟨first, hfirst, hvalue⟩ := exists_feedAll_message hobject hfits
          have hdelivered : delivered (first.map .ok) = [message] := by
            rw [← hvalue, delivered, List.map_map]
            exact congrArg List.flatten (List.map_id first)
          rw [hfirst, hdelivered, hlater,
            List.filter_cons_of_pos
              (show fitsBuffer toVec message = true from decide_eq_true hfits),
            List.singleton_append]
        · obtain ⟨hdropped, hstate⟩ := feedAll_dropped hobject (Nat.lt_of_not_le hfits)
            (hsize message (List.mem_cons_self ..))
          have hnot : ¬ fitsBuffer toVec message = true :=
            fun hdecide => hfits (of_decide_eq_true hdecide)
          rw [hdropped, hstate, hlater, List.nil_append, List.filter_cons_of_neg hnot]
  exact ⟨hfilter ▸ List.filter_sublist, hfilter⟩

/-! ## What a tail can hold -/

/-- The serialisation of what `sampleNext` reads. -/
def sampleToVec : Value → List UInt8
  | .object [(_, .string text)] =>
      memberFront ++ (text.toList.map fun char => UInt8.ofNat char.toNat) ++ [0x22, 0x7d]
  | _ => [0x7b, 0x7d]

/-- An object with the one key "a" and a plain string. -/
def plainObject (bytes : List UInt8) : Value := .object [("a", .string (plainText bytes))]

theorem sampleToVec_plainObject (bytes : List UInt8) :
    sampleToVec (plainObject bytes) = memberFront ++ bytes ++ [0x22, 0x7d] := by
  have hbyte (byte : UInt8) : UInt8.ofNat (Char.ofNat byte.toNat).toNat = byte := by
    have hvalid : byte.toNat.isValidChar := .inl (Nat.lt_trans byte.toNat_lt (by decide))
    rw [Char.ofNat, dif_pos hvalid]
    exact UInt8.ofNat_toNat
  have hbytes : (plainText bytes).toList.map (fun char => UInt8.ofNat char.toNat) = bytes := by
    rw [plainText, String.toList_ofList, List.map_map]
    exact (List.map_congr_left fun byte _ => hbyte byte).trans (List.map_id bytes)
  rw [plainObject, sampleToVec, hbytes]

theorem sampleNext_member (body : List UInt8) :
    sampleNext (memberFront ++ body) =
      sampleString body (memberEnd fun rest => (memberFront ++ body).length - rest.length) := rfl

theorem sampleString_plain {bytes : List UInt8} (h : ∀ byte ∈ bytes, isPlain byte = true)
    (rest : List UInt8) (found : List UInt8 → List UInt8 → Streamed) :
    sampleString (bytes ++ 0x22 :: rest) found = found bytes rest := by
  have hdrop : (bytes ++ 0x22 :: rest).dropWhile isPlain = 0x22 :: rest := by
    rw [List.dropWhile_append_of_pos h]
    rfl
  have htake : (bytes ++ 0x22 :: rest).takeWhile isPlain = bytes := by
    rw [List.takeWhile_append_of_pos h]
    exact List.append_nil bytes
  rw [sampleString, hdrop, htake]
  rfl

theorem sampleString_part {bytes : List UInt8} (h : ∀ byte ∈ bytes, isPlain byte = true)
    (found : List UInt8 → List UInt8 → Streamed) :
    sampleString bytes found = .failed "EOF while parsing a string" true := by
  rw [sampleString, List.dropWhile_eq_nil_iff.mpr h]

theorem sampleNext_part {front back : List UInt8} (h : memberFront = front ++ back)
    (hfront : front ≠ []) (hback : back ≠ []) :
    sampleNext front = .failed "EOF while parsing an object" true := by
  obtain ⟨count, rfl⟩ : ∃ count, front = memberFront.take count :=
    ⟨front.length, by rw [h, List.take_left]⟩
  have hcount : count < 6 := by
    by_contra hlong
    have hall : memberFront.take count = memberFront :=
      List.take_of_length_le (Nat.le_of_not_lt hlong)
    rw [hall] at h
    exact hback (List.append_right_eq_self.mp h.symm)
  have hpositive : count ≠ 0 := by
    rintro rfl
    exact hfront rfl
  have hcases : count = 1 ∨ count = 2 ∨ count = 3 ∨ count = 4 ∨ count = 5 := by omega
  rcases hcases with rfl | rfl | rfl | rfl | rfl <;> rfl

/-- `sampleNext` behaves as the real parser on these objects. -/
theorem plainObject_serialised {bytes : List UInt8} (h : ∀ byte ∈ bytes, isPlain byte = true) :
    Serialised sampleNext (sampleToVec (plainObject bytes)) (plainObject bytes) := by
  rw [sampleToVec_plainObject]
  refine ⟨⟨rfl, ?_, ?_⟩, ⟨_, rfl⟩⟩
  · intro more
    have htext : memberFront ++ bytes ++ [0x22, 0x7d] ++ more =
        memberFront ++ (bytes ++ 0x22 :: 0x7d :: more) := by
      simp only [List.append_assoc, List.cons_append, List.nil_append]
    rw [htext, sampleNext_member, sampleString_plain h, memberEnd, plainObject]
    congr 1
    simp only [List.length_append, List.length_cons, List.length_nil]
    omega
  · intro front back htext hfront hback
    rw [List.append_assoc] at htext
    -- the text is cut in the key, in the string, or in its end
    rcases prefix_or_append htext.symm with ⟨more, rfl, hmore⟩ | ⟨rest, hrest, hmember, -⟩
    · rw [sampleNext_member]
      rcases prefix_or_append hmore with ⟨ending, rfl, hending⟩ | ⟨rest, -, rfl, -⟩
      · cases ending with
        | nil => exact ⟨_, by rw [List.append_nil, sampleString_part h]⟩
        | cons quote ending =>
            obtain ⟨rfl, hbrace⟩ := List.cons.inj hending
            cases ending with
            | nil =>
                rw [sampleString_plain h]
                exact ⟨_, rfl⟩
            | cons brace ending =>
                obtain ⟨-, hnil⟩ := List.cons.inj hbrace
                exact absurd (List.append_eq_nil_iff.mp hnil).2 hback
      · exact ⟨_, sampleString_part (fun byte hbyte => h byte (List.mem_append_left _ hbyte)) _⟩
    · exact ⟨_, sampleNext_part hmember hfront hrest⟩

theorem isPlain_replicate (count : Nat) :
    ∀ byte ∈ List.replicate count 0x78, isPlain byte = true := by
  intro byte hbyte
  obtain rfl := List.eq_of_mem_replicate hbyte
  decide

/-- The object whose string is so many times "x". -/
def sampleObject (count : Nat) : Value := plainObject (List.replicate count 0x78)

theorem sampleObject_serialised (count : Nat) :
    Serialised sampleNext (sampleToVec (sampleObject count)) (sampleObject count) :=
  plainObject_serialised (isPlain_replicate count)

theorem length_sampleObject (count : Nat) :
    (sampleToVec (sampleObject count)).length = count + 8 := by
  rw [sampleObject, sampleToVec_plainObject, List.length_append, List.length_append,
    List.length_replicate, show memberFront.length = 6 from rfl, List.length_cons,
    List.length_singleton]
  omega

/-- A message that ends inside a report, and one whose terminator is cut. -/
theorem messages_round_trip_cut :
    ∃ results : List (List Value),
      CodexDecoder.feedAll sampleNext
          [reportsOf (sampleToVec (sampleObject 1)),
            reportsOf (sampleToVec (sampleObject 52))].flatten .default =
        (results.map .ok, .default) ∧
        results.flatten = [sampleObject 1, sampleObject 52] := by
  refine messages_round_trip ?_ (.cons rfl (.cons rfl .nil)) ?_
  · intro message hmessage
    rcases List.mem_pair.mp hmessage with rfl | rfl
    · exact sampleObject_serialised 1
    · exact sampleObject_serialised 52
  · intro message hmessage
    rcases List.mem_pair.mp hmessage with rfl | rfl
    · rw [length_sampleObject]
      decide
    · rw [length_sampleObject]
      decide

/-- A message that overflows the buffer with its last report, and one that fits. -/
theorem messages_delivered_whole_overflow :
    (delivered (CodexDecoder.feedAll sampleNext
        [reportsOf (sampleToVec (sampleObject 65532)),
          reportsOf (sampleToVec (sampleObject 1))].flatten .default).1).Sublist
      [sampleObject 65532, sampleObject 1] ∧
    delivered (CodexDecoder.feedAll sampleNext
        [reportsOf (sampleToVec (sampleObject 65532)),
          reportsOf (sampleToVec (sampleObject 1))].flatten .default).1 =
      [sampleObject 65532, sampleObject 1].filter (fitsBuffer sampleToVec) := by
  refine messages_delivered_whole ?_ (.cons rfl (.cons rfl .nil)) ?_
  · intro message hmessage
    rcases List.mem_pair.mp hmessage with rfl | rfl
    · exact sampleObject_serialised 65532
    · exact sampleObject_serialised 1
  · intro message hmessage
    rcases List.mem_pair.mp hmessage with rfl | rfl
    · rw [length_sampleObject]
      decide
    · rw [length_sampleObject]
      decide

/-- Bytes that a report of a tail hands out as a message. -/
def nestedTail : List UInt8 := [0x7b, 0x7d] ++ List.replicate 57 0x20

/-- A string of 65628 bytes that holds `{}` where the buffer overflows. -/
def oversizedBytes : List UInt8 := List.replicate 65569 0x78 ++ nestedTail

theorem isPlain_oversizedBytes : ∀ byte ∈ oversizedBytes, isPlain byte = true := by
  intro byte hbyte
  rcases List.mem_append.mp hbyte with hfront | htail
  · obtain rfl := List.eq_of_mem_replicate hfront
    decide
  · have htails : ∀ byte ∈ nestedTail, isPlain byte = true := by decide +kernel
    exact htails byte htail

/-- What is left of the message when it has overflowed the buffer. -/
theorem oversized_drop :
    (sampleToVec (plainObject oversizedBytes) ++ [13, 10]).drop
        (beforeOverflow + maxChunkBytes) =
      nestedTail ++ [0x22, 0x7d, 13, 10] := by
  have hfront : (memberFront ++ List.replicate 65569 0x78).length =
      beforeOverflow + maxChunkBytes := by
    rw [List.length_append, List.length_replicate]
    rfl
  have hsplit : sampleToVec (plainObject oversizedBytes) ++ [13, 10] =
      (memberFront ++ List.replicate 65569 0x78) ++ (nestedTail ++ [0x22, 0x7d, 13, 10]) := by
    rw [sampleToVec_plainObject, oversizedBytes]
    simp only [List.append_assoc, List.cons_append, List.nil_append]
  rw [hsplit, ← hfront, List.drop_left]

theorem length_oversized : (sampleToVec (plainObject oversizedBytes)).length = 65636 := by
  have htail : nestedTail.length = 59 := rfl
  rw [sampleToVec_plainObject, oversizedBytes, List.length_append, List.length_append,
    List.length_append, List.length_replicate, htail]
  rfl

/-- An object that does not fit the buffer can leave a tail that is delivered as a message
of its own. -/
theorem nested_object_delivered :
    ¬ ∀ (next : Parser) (toVec : Value → List UInt8) (messages : List Value)
        (framed : List (List (List UInt8))),
      (∀ message ∈ messages, Serialised next (toVec message) message) →
      List.Forall₂ (fun message reports => frameJson toVec message = .ok reports) messages
        framed →
      (delivered (CodexDecoder.feedAll next framed.flatten .default).1).Sublist messages := by
  intro h
  have hobject := plainObject_serialised isPlain_oversizedBytes
  have hsublist := h sampleNext sampleToVec [plainObject oversizedBytes]
    [reportsOf (sampleToVec (plainObject oversizedBytes))] (by
      intro message hmessage
      obtain rfl := List.mem_singleton.mp hmessage
      exact hobject) (.cons rfl .nil)
  have hlong := length_oversized
  obtain ⟨results, hresults, hfeed⟩ := feedAll_overflow hobject (by
    rw [hlong]
    decide)
  -- the braces are at the front of the tail, and the spaces fill their report
  have htail : delivered (CodexDecoder.feedAll sampleNext
      (((nestedTail ++ [0x22, 0x7d, 13, 10]).toChunks maxChunkBytes).map report) .default).1 =
      [.object []] := by
    rfl
  rw [List.flatten_singleton, reportsOf_split _ (by rw [hlong]; decide), hfeed, oversized_drop,
    delivered_append, hresults, htail, List.nil_append] at hsublist
  have hequal : Value.object [] = plainObject oversizedBytes :=
    (List.cons.inj (hsublist.eq_of_length rfl)).1
  exact absurd (Value.object.inj hequal).symm (List.cons_ne_nil _ _)

end Codex
end MicroEmu
