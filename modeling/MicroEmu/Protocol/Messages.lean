import MicroEmu.Protocol.Framing

/-!
# Messages through the framing

The chunks of a message are joined again in whatever reports they come, and a message
that fits the limit of the buffer, with what the buffer holds already, comes back whole.
-/

namespace MicroEmu
namespace Protocol

open Library (findPair_concat findPair_append findPair_front flatten_toChunks
  length_of_mem_toChunks exists_toChunks_concat)

variable {Value Text : Type} {js : Runtime Value Text}

/-! ## Results -/

theorem Result.empty_append (result : Result Value) : Result.empty.append result = result := rfl

theorem Result.append_empty (result : Result Value) : result.append .empty = result := by
  rw [append, empty, List.append_nil, List.append_nil]

theorem Result.append_assoc (first second third : Result Value) :
    (first.append second).append third = first.append (second.append third) := by
  rw [append, append, append, append, List.append_assoc, List.append_assoc]

theorem FrameDecoder.feedAll_append (first second : List (List UInt8)) (state : FrameDecoder) :
    feedAll js (first ++ second) state =
      ((feedAll js first state).1.append (feedAll js second (feedAll js first state).2).1,
        (feedAll js second (feedAll js first state).2).2) := by
  induction first generalizing state with
  | nil => rfl
  | cons report first ih =>
      rw [List.cons_append, feedAll, ih, feedAll, Result.append_assoc]

/-! ## Reports -/

theorem headerOffset_report (ble : Bool) {chunk : List UInt8}
    (h : chunk.length ≤ maxChunkBytes) :
    headerOffset (report ble chunk) = .ok (if ble then 1 else 0) := by
  have hchunk : chunk.length ≤ 61 := h
  have hlength : (report ble chunk).length = if ble then reportBytesBle else reportBytesUsb := by
    cases ble <;>
      simp only [report, reportBytesBle, reportBytesUsb, Bool.false_eq_true, if_true, if_false,
        List.length_append, List.length_cons, List.length_nil, List.length_replicate] <;>
      omega
  cases ble with
  | true => rw [headerOffset, if_pos ⟨hlength, rfl, rfl⟩, if_pos rfl]
  | false =>
      have hother : ¬ ((report false chunk).length = reportBytesBle ∧
          (report false chunk).getD 0 0 = reportId ∧
          (report false chunk).getD 1 0 = opcodeData) := by
        rintro ⟨hble, -⟩
        rw [hlength] at hble
        cases hble
      rw [headerOffset, if_neg hother, if_pos ⟨hlength, rfl⟩]
      rfl

/-- The decoder finds the chunk again in a report of either shape. -/
theorem FrameDecoder.feed_report (ble : Bool) {chunk : List UInt8} (hpositive : 1 ≤ chunk.length)
    (hfits : chunk.length ≤ maxChunkBytes) (state : FrameDecoder) :
    state.feed js (.bytes (report ble chunk)) = state.feedChunk js chunk := by
  have hsmall : chunk.length < 256 := Nat.lt_of_le_of_lt hfits (by decide)
  have hlength : (UInt8.ofNat chunk.length).toNat = chunk.length := by
    rw [UInt8.toNat_ofNat']
    exact Nat.mod_eq_of_lt hsmall
  have hdeclared : ((report ble chunk).getD ((if ble then 1 else 0) + 1) 0).toNat =
      chunk.length := by
    cases ble <;> exact hlength
  have hbody : ((report ble chunk).drop ((if ble then 1 else 0) + 2)).take chunk.length =
      chunk := by
    cases ble <;> exact List.take_left
  have hvalid : ¬ (chunk.length = 0 ∨ chunk.length > maxChunkBytes) := by
    rintro (hzero | hlong)
    · omega
    · exact absurd hfits (Nat.not_le.mpr hlong)
  simp only [feed, asBytes, headerOffset_report ble hfits, hdeclared, hbody, if_neg hvalid]

/-! ## Lines -/

theorem readLines_eq_of_none {buffer : List UInt8} (h : findCrlf buffer = none) (turns : Nat) :
    readLines js turns buffer = (.empty, buffer) := by
  cases turns with
  | zero => rfl
  | succ turns => rw [readLines, h]

/-- A line and nothing behind it. -/
theorem readLines_line {line : List UInt8} (h : 13 ∉ line) (turns : Nat) :
    readLines js (turns + 1) (line ++ messageTerminator) =
      (if line = [] then .empty else readLine js line, []) := by
  have hfound : findCrlf (line ++ messageTerminator) = some line.length :=
    findPair_append (by decide) (findPair_front (findPair_concat h 13)) []
  have hrest : (line ++ messageTerminator).drop (line.length + 2) = [] := by
    exact List.drop_eq_nil_of_le (Nat.le_of_eq List.length_append)
  rw [readLines, hfound]
  simp only [List.take_left, hrest, readLines_eq_of_none (show findCrlf [] = none from rfl),
    List.length_eq_zero_iff, Result.append_empty]
  split <;> rfl

/-! ## Chunks -/

theorem FrameDecoder.feedChunk_of_limit {state : FrameDecoder} {chunk : List UInt8}
    (h : state.maxBufferedBytes < (state.buffer ++ chunk).length) :
    ∃ error, state.feedChunk js chunk = (.error error, ⟨[], state.maxBufferedBytes⟩) := by
  rw [feedChunk]
  exact ⟨_, if_pos h⟩

theorem FrameDecoder.feedChunk_of_fits {state : FrameDecoder} {chunk : List UInt8}
    (h : (state.buffer ++ chunk).length ≤ state.maxBufferedBytes) :
    state.feedChunk js chunk =
      ((readLines js ((state.buffer ++ chunk).length + 1) (state.buffer ++ chunk)).1,
        ⟨(readLines js ((state.buffer ++ chunk).length + 1) (state.buffer ++ chunk)).2,
          state.maxBufferedBytes⟩) := by
  rw [feedChunk]
  exact if_neg (Nat.not_lt.mpr h)

theorem FrameDecoder.feedAll_cons_report (ble : Bool) {chunk : List UInt8}
    (hpositive : 1 ≤ chunk.length) (hfits : chunk.length ≤ maxChunkBytes)
    (reports : List (List UInt8)) (state : FrameDecoder) :
    feedAll js (report ble chunk :: reports) state =
      ((state.feedChunk js chunk).1.append (feedAll js reports (state.feedChunk js chunk).2).1,
        (feedAll js reports (state.feedChunk js chunk).2).2) := by
  rw [feedAll, feed_report ble hpositive hfits]

/-- Chunks that complete no line and fit the buffer. -/
theorem FrameDecoder.feedAll_part (ble : Bool) {chunks : List (List UInt8)}
    (hchunks : ∀ chunk ∈ chunks, 1 ≤ chunk.length ∧ chunk.length ≤ maxChunkBytes)
    {buffer : List UInt8} {limit : Nat} (hpart : findCrlf (buffer ++ chunks.flatten) = none)
    (hlimit : (buffer ++ chunks.flatten).length ≤ limit) :
    feedAll js (chunks.map (report ble)) ⟨buffer, limit⟩ =
      (.empty, ⟨buffer ++ chunks.flatten, limit⟩) := by
  induction chunks generalizing buffer with
  | nil => rw [List.flatten_nil, List.append_nil]; rfl
  | cons chunk chunks ih =>
      obtain ⟨hpositive, hfits⟩ := hchunks chunk (List.mem_cons_self ..)
      rw [List.flatten_cons, ← List.append_assoc] at hpart hlimit ⊢
      have hlength : (buffer ++ chunk).length ≤ limit := by
        rw [List.length_append] at hlimit
        exact Nat.le_of_add_right_le hlimit
      have hchunk : FrameDecoder.feedChunk js ⟨buffer, limit⟩ chunk =
          (.empty, ⟨buffer ++ chunk, limit⟩) := by
        -- no line ends in what has come so far
        rw [feedChunk_of_fits hlength, readLines_eq_of_none (findPair_front hpart)]
      rw [List.map_cons, feedAll_cons_report ble hpositive hfits, hchunk,
        ih (fun other h => hchunks other (List.mem_cons_of_mem _ h)) hpart hlimit]
      rfl

/-! ## Messages -/

/-- A text with its terminator, cut into chunks. -/
def chunksOf (text : List UInt8) : List (List UInt8) :=
  (joinWithTerminator text).toChunks maxChunkBytes

theorem flatten_chunksOf (text : List UInt8) :
    (chunksOf text).flatten = joinWithTerminator text :=
  flatten_toChunks (by decide) _

theorem length_joinWithTerminator (text : List UInt8) :
    (joinWithTerminator text).length = text.length + 2 := List.length_append

/-- The last chunk, behind the full ones. -/
theorem exists_chunksOf_concat (text : List UInt8) :
    ∃ front last, chunksOf text = front ++ [last] ∧
      (∀ chunk ∈ front, chunk.length = maxChunkBytes) ∧
      1 ≤ last.length ∧ last.length ≤ maxChunkBytes ∧
      text.length + 2 = front.length * maxChunkBytes + last.length := by
  have hnonempty : joinWithTerminator text ≠ [] :=
    List.append_ne_nil_of_right_ne_nil text (List.cons_ne_nil 13 [10])
  obtain ⟨front, last, hchunks, hfull, hpositive, hfits, hlength⟩ :=
    exists_toChunks_concat (show 0 < maxChunkBytes by decide) hnonempty
  rw [length_joinWithTerminator] at hlength
  exact ⟨front, last, hchunks, hfull, hpositive, hfits, hlength⟩

/-- No line is complete before the last byte of the terminator has come. -/
theorem findCrlf_front {front last text lead : List UInt8} (hlead : 13 ∉ lead) (htext : 13 ∉ text)
    (hsplit : front ++ last = joinWithTerminator text) (hlast : last ≠ []) :
    findCrlf (lead ++ front) = none := by
  have hterminator : joinWithTerminator text = (text ++ [13]) ++ [10] :=
    (List.append_assoc text [13] [10]).symm
  have hline : 13 ∉ lead ++ text := by
    rw [List.mem_append]
    exact not_or.mpr ⟨hlead, htext⟩
  have hwhole : findCrlf (lead ++ text ++ [13]) = none := findPair_concat hline 13
  obtain ⟨init, byte, rfl⟩ := (List.eq_nil_or_concat' last).resolve_left hlast
  rw [← List.append_assoc, hterminator] at hsplit
  obtain ⟨hfront, -⟩ := List.append_inj' hsplit rfl
  rw [List.append_assoc, ← hfront, ← List.append_assoc] at hwhole
  exact findPair_front hwhole

/-- A message that fits with what is in the buffer is read as one line. -/
theorem FrameDecoder.feedAll_message (ble : Bool) {lead text : List UInt8} {limit : Nat}
    (hlead : 13 ∉ lead) (htext : 13 ∉ text) (hnonempty : text ≠ [])
    (hlimit : lead.length + (text.length + 2) ≤ limit) :
    feedAll js ((chunksOf text).map (report ble)) ⟨lead, limit⟩ =
      (readLine js (lead ++ text), ⟨[], limit⟩) := by
  obtain ⟨front, last, hchunks, hfull, hpositive, hfits, hlength⟩ := exists_chunksOf_concat text
  have hsplit : front.flatten ++ last = joinWithTerminator text := by
    rw [← flatten_chunksOf, hchunks, List.flatten_append, List.flatten_singleton]
  have hfront : ∀ chunk ∈ front, 1 ≤ chunk.length ∧ chunk.length ≤ maxChunkBytes := by
    intro chunk hchunk
    rw [hfull chunk hchunk]
    decide
  have hwhole : lead ++ front.flatten ++ last = lead ++ text ++ messageTerminator := by
    rw [List.append_assoc, hsplit, joinWithTerminator, List.append_assoc]
  have hroom : (lead ++ front.flatten ++ last).length ≤ limit := by
    rw [hwhole, List.append_assoc, List.length_append, ← joinWithTerminator,
      length_joinWithTerminator]
    exact hlimit
  -- all chunks but the last only fill the buffer, which never holds more than the message
  have hpart : feedAll js (front.map (report ble)) ⟨lead, limit⟩ =
      (.empty, ⟨lead ++ front.flatten, limit⟩) := by
    refine feedAll_part ble hfront
      (findCrlf_front hlead htext hsplit (List.ne_nil_of_length_pos hpositive)) ?_
    rw [List.length_append] at hroom
    exact Nat.le_of_add_right_le hroom
  have hline : 13 ∉ lead ++ text := by
    rw [List.mem_append]
    exact not_or.mpr ⟨hlead, htext⟩
  have hlast : FrameDecoder.feedChunk js ⟨lead ++ front.flatten, limit⟩ last =
      (readLine js (lead ++ text), ⟨[], limit⟩) := by
    rw [feedChunk_of_fits hroom, hwhole, readLines_line hline,
      if_neg (List.append_ne_nil_of_right_ne_nil lead hnonempty)]
  rw [hchunks, List.map_append, feedAll_append, hpart, List.map_singleton,
    feedAll_cons_report ble hpositive hfits, hlast, feedAll, Result.empty_append,
    Result.append_empty]

/-! ## Round trip -/

/-- The bytes of the serialisation. -/
def bytesOf (js : Runtime Value Text) (value : Value) : List UInt8 :=
  js.encode (js.stringify value)

/-- The runtime on a plain object: parsing is the inverse of serialisation and decoding
that of encoding, and the text is that of an object, without line breaks. -/
structure PlainObject (js : Runtime Value Text) (value : Value) : Prop where
  isObject : js.isObject value = true
  parsed : js.parse (js.stringify value) = some value
  decoded : js.decode (bytesOf js value) = some (js.stringify value)
  starts : ∃ rest, bytesOf js value = 0x7b :: rest
  unbroken : 13 ∉ bytesOf js value

/-- The bytes of a framed message, its terminator included. -/
def framedLength (js : Runtime Value Text) (value : Value) : Nat := (bytesOf js value).length + 2

theorem PlainObject.ne_nil {value : Value} (h : PlainObject js value) :
    bytesOf js value ≠ [] := by
  obtain ⟨rest, hstarts⟩ := h.starts
  rw [hstarts]
  exact List.cons_ne_nil _ _

theorem PlainObject.readLine {value : Value} (h : PlainObject js value) :
    readLine js (bytesOf js value) = ⟨[value], []⟩ := by
  simp only [Protocol.readLine, h.decoded, h.parsed, h.isObject, not_true, if_false]

/-- The reports of an accepted object, on either transport. -/
theorem frameMessage_eq_ok {value : Value} {options : FrameOptions}
    {reports : List (List UInt8)} (hobject : js.isObject value = true)
    (h : frameMessage js (.value value) options = .ok reports) :
    (∃ ble, reports = (chunksOf (bytesOf js value)).map (report ble)) ∧
      framedLength js value ≤ options.maxMessageBytes.getD defaultLimit := by
  have hpayload : serializePayload js (.value value) = .ok (js.stringify value) := if_pos hobject
  rw [frameMessage, hpayload] at h
  -- the two checks before the reports: the transport, then the length
  by_cases htransport : ¬ (options.transport.getD "usb" = "usb" ∨
      options.transport.getD "usb" = "ble")
  · rw [if_pos htransport] at h
    cases h
  · rw [if_neg htransport] at h
    by_cases hlong : (joinWithTerminator (js.encode (js.stringify value))).length >
        options.maxMessageBytes.getD defaultLimit
    · replace h : (if _ then Except.error _ else _) = Except.ok reports := h
      rw [if_pos hlong] at h
      cases h
    · replace h : (if _ then Except.error _ else _) = Except.ok reports := h
      rw [if_neg hlong] at h
      refine ⟨⟨_, (Except.ok.inj h).symm⟩, ?_⟩
      rw [framedLength, ← length_joinWithTerminator]
      exact Nat.not_lt.mp hlong

/-- A framed object is its serialisation, framed as a text. -/
theorem frameJson_eq_frameMessage {value : Value} (hobject : js.isObject value = true)
    (options : FrameOptions) :
    frameJson js value options = frameMessage js (.value value) options := by
  have hpayload : serializePayload js (.value value) =
      serializePayload js (.text (js.stringify value)) := if_pos hobject
  rw [frameJson, if_pos hobject, frameMessage, frameMessage, hpayload]

theorem FrameDecoder.feedAll_plainObject (ble : Bool) {value : Value} (h : PlainObject js value)
    {limit : Nat} (hlimit : framedLength js value ≤ limit) :
    feedAll js ((chunksOf (bytesOf js value)).map (report ble)) ⟨[], limit⟩ =
      (⟨[value], []⟩, ⟨[], limit⟩) := by
  rw [feedAll_message ble List.not_mem_nil h.unbroken h.ne_nil
    (by rw [List.length_nil, Nat.zero_add]; exact hlimit), List.nil_append, h.readLine]

/-- What the encoder accepts under a limit, as a message or as an object, comes back from a
decoder with the same limit, in order, with no error and nothing left in the buffer. -/
theorem framing_round_trip {values : List Value} {framed : List (List (List UInt8))}
    {limit : Nat} (hplain : ∀ value ∈ values, PlainObject js value)
    (hframed : List.Forall₂ (fun value reports => ∃ transport,
      frameMessage js (.value value) ⟨transport, some limit⟩ = .ok reports ∨
        frameJson js value ⟨transport, some limit⟩ = .ok reports) values framed) :
    FrameDecoder.feedAll js framed.flatten (.new (some limit)) =
        (⟨values, []⟩, .new (some limit)) ∧
      decodeReports js framed.flatten (some limit) = ⟨values, []⟩ := by
  have hfed : FrameDecoder.feedAll js framed.flatten (.new (some limit)) =
      (⟨values, []⟩, .new (some limit)) := by
    induction hframed with
    | nil => rfl
    | @cons value reports values framed hreports hrest ih =>
        have hvalue := hplain value (List.mem_cons_self ..)
        obtain ⟨transport, hreports⟩ := hreports
        rw [frameJson_eq_frameMessage hvalue.isObject, or_self] at hreports
        -- each message leaves the buffer empty for the next, whatever its transport
        obtain ⟨⟨ble, rfl⟩, hlimit⟩ := frameMessage_eq_ok hvalue.isObject hreports
        have hfirst : FrameDecoder.feedAll js ((chunksOf (bytesOf js value)).map (report ble))
            (.new (some limit)) = (⟨[value], []⟩, .new (some limit)) :=
          FrameDecoder.feedAll_plainObject ble hvalue hlimit
        rw [List.flatten_cons, FrameDecoder.feedAll_append, hfirst,
          ih fun other h => hplain other (List.mem_cons_of_mem _ h)]
        rfl
  refine ⟨hfed, ?_⟩
  rw [decodeReports, hfed]
  exact Result.append_empty _

/-! ## A runtime of a few values -/

/-- The text of an object whose one string has so many letters. -/
def objectText (letters : Nat) : List UInt8 :=
  [0x7b, 0x22, 0x61, 0x22, 0x3a, 0x22] ++ (List.replicate letters 0x78 ++ [0x22, 0x7d])

/-- White space of JSON. -/
def isSpace (byte : UInt8) : Bool := byte == 0x20 || byte == 9 || byte == 10 || byte == 13

/-- The runtime on these objects; a text is given by its bytes. -/
def sampleRuntime : Runtime Nat (List UInt8) where
  stringify := objectText
  parse text :=
    let body := text.dropWhile isSpace
    if body = objectText (body.length - 8) then some (body.length - 8) else none
  isObject _ := true
  encode := id
  decode bytes := if bytes.all (· < 0x80) then some bytes else none

theorem length_objectText (letters : Nat) : (objectText letters).length = letters + 8 := by
  simp only [objectText, List.length_append, List.length_cons, List.length_nil,
    List.length_replicate]
  omega

theorem mem_objectText {letters : Nat} {byte : UInt8} (h : byte ∈ objectText letters) :
    byte = 0x78 ∨ byte ∈ [(0x7b : UInt8), 0x22, 0x61, 0x3a, 0x7d] := by
  simp only [objectText, List.mem_append, List.mem_cons, List.not_mem_nil, or_false,
    List.mem_replicate] at h ⊢
  tauto

/-- What is behind white space is parsed. -/
theorem sampleRuntime_parse {lead : List UInt8} (h : ∀ byte ∈ lead, isSpace byte = true)
    (letters : Nat) :
    sampleRuntime.parse (lead ++ objectText letters) = some letters := by
  have hbody : (lead ++ objectText letters).dropWhile isSpace = objectText letters := by
    rw [List.dropWhile_append_of_pos h]
    rfl
  show (if (lead ++ objectText letters).dropWhile isSpace = _ then _ else _) = some letters
  rw [hbody, length_objectText, Nat.add_sub_cancel, if_pos rfl]

theorem sampleRuntime_decode {bytes : List UInt8} (h : ∀ byte ∈ bytes, byte < 0x80) :
    sampleRuntime.decode bytes = some bytes :=
  if_pos (List.all_eq_true.mpr fun byte hbyte => decide_eq_true (h byte hbyte))

theorem objectText_ascii {letters : Nat} {byte : UInt8} (h : byte ∈ objectText letters) :
    byte < 0x80 ∧ byte ≠ 13 ∧ byte ≠ 10 := by
  have hothers : ∀ byte ∈ [(0x7b : UInt8), 0x22, 0x61, 0x3a, 0x7d],
      byte < 0x80 ∧ byte ≠ 13 ∧ byte ≠ 10 := by
    simp
  rcases mem_objectText h with rfl | hother
  · decide
  · exact hothers byte hother

theorem plainObject_sampleRuntime (letters : Nat) : PlainObject sampleRuntime letters where
  isObject := rfl
  parsed := sampleRuntime_parse (fun _ h => absurd h List.not_mem_nil) letters
  decoded := sampleRuntime_decode fun _ h => (objectText_ascii h).1
  starts := ⟨_, rfl⟩
  unbroken := fun h => (objectText_ascii h).2.1 rfl

theorem framing_round_trip_transports :
    FrameDecoder.feedAll sampleRuntime
        [(chunksOf (objectText 0)).map (report true),
          (chunksOf (objectText 70)).map (report false)].flatten (.new (some 80)) =
        (⟨[0, 70], []⟩, .new (some 80)) ∧
      decodeReports sampleRuntime
        [(chunksOf (objectText 0)).map (report true),
          (chunksOf (objectText 70)).map (report false)].flatten (some 80) = ⟨[0, 70], []⟩ :=
  framing_round_trip (fun value _ => plainObject_sampleRuntime value)
    (.cons ⟨some "ble", .inl (by rfl)⟩ (.cons ⟨none, .inr (by rfl)⟩ .nil))

end Protocol
end MicroEmu
