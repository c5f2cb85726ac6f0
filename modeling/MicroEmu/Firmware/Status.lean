import MicroEmu.Firmware.Queues

/-!
# The response to `device.status`

The response is a JSON text in two reports.  Its reports are appended as far as there is
room for them.
-/

namespace MicroEmu
namespace Firmware

open Library (Block toChunks_eq toChunks_nil flatten_toChunks length_of_mem_toChunks)
open Library.Block (exists_store_behind)

/-! ## The text -/

theorem textBytes_append (first second : String) :
    textBytes (first ++ second) = textBytes first ++ textBytes second := by
  rw [textBytes, String.toByteArray_append, ByteArray.toList_data_append]
  rfl

/-- The value of digits that follow others. -/
def digitsValue (value : Nat) (digits : List UInt8) : Nat :=
  digits.foldl (fun value byte => value * 10 + (byte.toNat - 0x30)) value

theorem digitsValue_map {digits : List Char} (h : ∀ c ∈ digits, c.isDigit = true) (value : Nat) :
    digitsValue value (digits.map fun c => UInt8.ofNat c.toNat) =
      Nat.ofDigitChars 10 digits value := by
  induction digits generalizing value with
  | nil => rfl
  | cons c digits ih =>
      have hdigit := h c (List.mem_cons_self ..)
      have hsmall : c.toNat < 256 := by
        rw [Char.isDigit, Bool.and_eq_true, decide_eq_true_eq, decide_eq_true_eq] at hdigit
        exact Nat.lt_of_le_of_lt (UInt32.le_iff_toNat_le.mp hdigit.2) (by decide)
      have hbyte : (UInt8.ofNat c.toNat).toNat = c.toNat := by
        rw [UInt8.toNat_ofNat']
        exact Nat.mod_eq_of_lt hsmall
      rw [List.map_cons, Nat.ofDigitChars_cons,
        ← ih fun other hother => h other (List.mem_cons_of_mem _ hother)]
      rw [digitsValue, List.foldl_cons, hbyte, Nat.mul_comm value 10]
      rfl

theorem isDigit_toDigits {n : Nat} {c : Char} (h : c ∈ Nat.toDigits 10 n) : c.isDigit = true :=
  Nat.isDigit_of_mem_toDigits (by decide) (by decide) h

theorem textBytes_toString (n : Nat) :
    textBytes (toString n) = (Nat.toDigits 10 n).map fun c => UInt8.ofNat c.toNat := by
  rw [textBytes, Nat.toString_eq_ofList_toDigits, String.toByteArray_ofList, List.utf8Encode,
    List.toList_data_toByteArray, List.map_eq_flatMap]
  refine List.flatMap_congr fun c hc => ?_
  have hdigit := isDigit_toDigits hc
  rw [Char.isDigit, Bool.and_eq_true, decide_eq_true_eq, decide_eq_true_eq] at hdigit
  have hsmall : c.toNat ≤ 127 := (UInt32.le_iff_toNat_le.mp hdigit.2).trans (by decide)
  exact if_pos hsmall

theorem digitsValue_textBytes (n : Nat) : digitsValue 0 (textBytes (toString n)) = n := by
  rw [textBytes_toString, digitsValue_map fun c hc => isDigit_toDigits hc,
    Nat.ofDigitChars_ten_toDigits]

/-- What stands in front of the id. -/
def statusFront : List UInt8 :=
  textBytes
    ("\x7b\"result\":\x7b\"version\":\"0.4.1\",\"profile_index\":0,\"layer_index\":0," ++
      "\"battery\":100,\"is_charging\":true\x7d,\"id\":")

/-- The response as it is sent, with its terminator. -/
def statusText (id : Nat) : List UInt8 := textBytes (statusJson id) ++ [0x0d, 0x0a]

theorem textBytes_statusJson (id : Nat) :
    textBytes (statusJson id) = statusFront ++ (textBytes (toString id) ++ [0x7d]) := by
  have hbrace : textBytes "\x7d" = [0x7d] := by decide +kernel
  have hfront (front : String) : textBytes (front ++ toString id ++ "\x7d") =
      textBytes front ++ (textBytes (toString id) ++ [0x7d]) := by
    rw [textBytes_append _ "\x7d", textBytes_append front, List.append_assoc, hbrace]
  exact hfront _

theorem length_statusFront : statusFront.length = 102 := by decide +kernel

/-- The reports of the response. -/
def statusReports (id : Nat) : List (List UInt8) :=
  ((statusText id).toChunks Codex.maxChunkBytes).map Codex.report

theorem length_textBytes_toString {id : Nat} (h : id ≤ intMax) :
    1 ≤ (textBytes (toString id)).length ∧ (textBytes (toString id)).length ≤ 10 := by
  have hlength : (textBytes (toString id)).length = (Nat.toDigits 10 id).length := by
    rw [textBytes_toString, List.length_map]
  rw [hlength]
  exact ⟨Nat.length_toDigits_pos, (Nat.length_toDigits_le_iff (by decide) (by decide)).mpr
    (Nat.lt_of_le_of_lt h (by decide))⟩

theorem length_textBytes_statusJson (id : Nat) :
    (textBytes (statusJson id)).length = (textBytes (toString id)).length + 103 := by
  rw [textBytes_statusJson, List.length_append, length_statusFront, List.length_append,
    List.length_singleton]
  omega

theorem length_statusText (id : Nat) :
    (statusText id).length = (textBytes (statusJson id)).length + 2 := List.length_append

/-- A response names its id. -/
theorem statusText_injective {first second : Nat} (h : statusText first = statusText second) :
    first = second := by
  have hjson : textBytes (statusJson first) = textBytes (statusJson second) :=
    List.append_cancel_right h
  rw [textBytes_statusJson, textBytes_statusJson] at hjson
  have hdigits := List.append_cancel_right (List.append_cancel_left hjson)
  rw [← digitsValue_textBytes first, hdigits, digitsValue_textBytes]

theorem chunkOf_statusReports (id : Nat) :
    ((statusReports id).map Codex.chunkOf).flatten = statusText id := by
  have hchunks : (statusReports id).map Codex.chunkOf =
      (statusText id).toChunks Codex.maxChunkBytes := by
    rw [statusReports, List.map_map]
    exact (List.map_congr_left fun chunk hchunk =>
      Codex.chunkOf_report (length_of_mem_toChunks (by decide) hchunk).2).trans (List.map_id _)
  rw [hchunks, flatten_toChunks (by decide)]

theorem statusReports_injective {first second : Nat}
    (h : statusReports first = statusReports second) : first = second := by
  apply statusText_injective
  rw [← chunkOf_statusReports, h, chunkOf_statusReports]

/-- The first report of a response, which does not depend on the id. -/
def statusReport : List UInt8 := Codex.report (statusFront.take Codex.maxChunkBytes)

/-- A response is two reports. -/
theorem exists_statusReports {id : Nat} (h : id ≤ intMax) :
    ∃ last, statusReports id = [statusReport, last] := by
  obtain ⟨hpositive, hmost⟩ := length_textBytes_toString h
  have hlength := length_statusText id
  rw [length_textBytes_statusJson] at hlength
  have hfront : (statusText id).take Codex.maxChunkBytes =
      statusFront.take Codex.maxChunkBytes := by
    rw [statusText, textBytes_statusJson, List.append_assoc,
      List.take_append_of_le_length (by rw [length_statusFront]; decide)]
  have hnonempty : statusText id ≠ [] := List.ne_nil_of_length_pos (by omega)
  have hrest : (statusText id).drop Codex.maxChunkBytes ≠ [] := by
    refine List.ne_nil_of_length_pos ?_
    rw [List.length_drop, show Codex.maxChunkBytes = 61 from rfl]
    omega
  have hend : ((statusText id).drop Codex.maxChunkBytes).drop Codex.maxChunkBytes = [] := by
    rw [List.drop_drop]
    refine List.drop_eq_nil_of_le ?_
    rw [show Codex.maxChunkBytes + Codex.maxChunkBytes = 122 from rfl]
    omega
  refine ⟨Codex.report (((statusText id).drop Codex.maxChunkBytes).take Codex.maxChunkBytes), ?_⟩
  rw [statusReports, toChunks_eq (by decide) hnonempty, toChunks_eq (by decide) hrest, hend,
    toChunks_nil, hfront]
  rfl

/-! ## Its reports in the queue -/

/-- A fragment is written as a report of the protocol. -/
theorem exists_fragment {chunk : List UInt8} (h : chunk.length ≤ 61) :
    ∃ report : Report, (Block.fill 0).store 0
        ([codexReportId, 0x02, UInt8.ofNat chunk.length] ++ chunk) = some report ∧
      report.cells = Codex.report chunk := by
  have hroom : 0 + ([codexReportId, 0x02, UInt8.ofNat chunk.length] ++ chunk).length ≤
      codexReportWireBytes := by
    rw [List.length_append]
    exact show 0 + (3 + chunk.length) ≤ 64 by omega
  obtain ⟨report, hreport, hcells⟩ := (Block.fill (0 : UInt8)).exists_store hroom
  refine ⟨report, hreport, ?_⟩
  rw [hcells, List.take_zero, List.nil_append, Nat.zero_add]
  show _ ++ (List.replicate codexReportWireBytes 0).drop _ = _
  rw [List.drop_replicate]
  rfl

theorem State.Valid.length_queued {state : State} (h : state.Valid) :
    state.queued.length ≤ reportQueueCapacity := by
  rw [State.queued, ReportQueue.length_contents]
  exact h.inputReports.count

/-- The fragments from an offset on are appended as far as there is room. -/
theorem exists_queueFragments {json : Block UInt8 jsonBytes} {rest more : List UInt8}
    {turns offset total : Nat} (hjson : json.cells.drop offset = rest ++ more)
    (htotal : total = offset + rest.length) (hturns : rest.length < turns) (fragments : Nat)
    {state : State} (h : state.Valid) :
    ∃ result next, queueFragments json total turns offset fragments state =
        some (result, next) ∧ next.Valid ∧
      next.queued = (state.queued ++
        (rest.toChunks Codex.maxChunkBytes).map Codex.report).take reportQueueCapacity := by
  induction turns generalizing rest offset fragments state with
  | zero => exact absurd hturns (Nat.not_lt_zero _)
  | succ turns ih =>
      by_cases hrest : rest = []
      · subst hrest
        refine ⟨some fragments, state, ?_, h, ?_⟩
        · have hend : ¬ offset < total := Nat.not_lt.mpr (Nat.le_of_eq htotal)
          rw [queueFragments, if_neg hend]
        · rw [toChunks_nil, List.map_nil, List.append_nil,
            List.take_of_length_le h.length_queued]
      · have hpositive := List.length_pos_iff.mpr hrest
        -- the loop takes the next chunk of the text
        obtain ⟨chunk, back, hchunk, hback⟩ : ∃ chunk back, rest.take Codex.maxChunkBytes = chunk ∧
          rest.drop Codex.maxChunkBytes = back := ⟨_, _, rfl, rfl⟩
        have hsplit : rest = chunk ++ back := by
          rw [← hchunk, ← hback, List.take_append_drop]
        have hlength : chunk.length = if rest.length > 61 then 61 else rest.length := by
          rw [← hchunk, List.length_take, show Codex.maxChunkBytes = 61 from rfl]
          split <;> omega
        have hnonempty : 0 < chunk.length := by
          rw [hlength]
          split <;> omega
        have hwhole := congrArg List.length hjson
        have hboth := congrArg List.length hsplit
        rw [List.length_drop, json.length_cells, List.length_append] at hwhole
        rw [List.length_append] at hboth
        have hslice : json.slice offset chunk.length = some chunk := by
          rw [json.slice_eq (by omega), hjson, hsplit, List.append_assoc, List.take_left]
        have hdrop : json.cells.drop (offset + chunk.length) = back ++ more := by
          rw [← List.drop_drop, hjson, hsplit, List.append_assoc, List.drop_left]
        obtain ⟨report, hreport, hcells⟩ := exists_fragment (show chunk.length ≤ 61 by
          rw [hlength]
          split <;> omega)
        obtain ⟨pushed, queue, hpush, hvalid, hroom, hcontents⟩ :=
          exists_reportQueuePush h.inputReports hcells
        have hturn : queueFragments json total (turns + 1) offset fragments state =
            if pushed = false then
              (bridgeLog { state with inputReports := queue } "status resp queue full").map
                fun state => (none, state)
            else
              queueFragments json total turns (offset + chunk.length) (fragments + 1)
                { state with inputReports := queue } := by
          have hleft : total - offset = rest.length := by omega
          rw [queueFragments, if_pos (by omega), hleft, ← hlength]
          simp only [hslice, hreport, hpush, Option.bind_eq_bind, Option.bind_some]
        have hnext : State.queued { state with inputReports := queue } =
            (state.queued ++ [Codex.report chunk]).take reportQueueCapacity := by
          rw [← hcells]
          exact hcontents
        rw [toChunks_eq (by decide) hrest, hchunk, hback, List.map_cons, hturn]
        cases pushed with
        | true =>
            obtain ⟨result, next, hqueue, hnextValid, hqueued⟩ :=
              ih hdrop (by omega) (by omega) (fragments + 1) (h.push hvalid)
            refine ⟨result, next, hqueue, hnextValid, ?_⟩
            have hfits : (state.queued ++ [Codex.report chunk]).length ≤ reportQueueCapacity := by
              rw [List.length_append]
              exact hroom.mp rfl
            rw [hqueued, hnext, List.take_of_length_le hfits, List.append_assoc]
            rfl
        -- the queue is full, so no later fragment would fit either
        | false =>
            obtain ⟨next, hlog, hquiet⟩ := exists_bridgeLog (h.push hvalid) "status resp queue full"
            refine ⟨none, next, by rw [if_pos rfl, hlog]; rfl, hquiet.valid (h.push hvalid), ?_⟩
            have hfull : reportQueueCapacity ≤ state.queued.length :=
              Nat.not_lt.mp fun hless => Bool.false_ne_true (hroom.mpr hless)
            rw [hquiet.queued, hnext, List.take_append_of_le_length hfull,
              List.take_append_of_le_length hfull]

/-- The response is appended as far as there is room for it. -/
theorem exists_sendDeviceStatusResponse {state : State} (h : state.Valid) {id : Nat}
    (hid : id ≤ intMax) :
    ∃ next, sendDeviceStatusResponse state id = some next ∧ next.Valid ∧
      next.queued = (state.queued ++ statusReports id).take reportQueueCapacity := by
  obtain ⟨hpositive, hmost⟩ := length_textBytes_toString hid
  have hlength := length_textBytes_statusJson id
  have hfits : ¬ (textBytes (statusJson id) = [] ∨
      (textBytes (statusJson id)).length ≥ jsonBytes) := by
    rintro (hempty | hlong)
    · rw [hempty] at hlength
      cases hlength
    · exact absurd hlong (show ¬ _ ≥ 128 by omega)
  -- the text is written with a zero behind it, which the terminator replaces
  obtain ⟨first, hfirst, hzero⟩ := exists_store_behind (Block.fill (0 : UInt8))
    (show (Block.fill 0 : Block UInt8 jsonBytes).cells.take ([] : List UInt8).length = [] from rfl)
    0 rfl (textBytes (statusJson id) ++ [0]) (by
      rw [List.nil_append, List.length_append]
      exact show _ + 1 ≤ 128 by omega)
  have htext : first.cells.take (textBytes (statusJson id)).length = textBytes (statusJson id) := by
    have htake := congrArg (List.take (textBytes (statusJson id)).length) hzero
    rw [List.nil_append, List.take_take, List.take_left, List.length_append,
      Nat.min_eq_left (Nat.le_add_right _ _)] at htake
    exact htake
  obtain ⟨second, hsecond, hreturn⟩ := exists_store_behind first htext _ rfl [0x0d] (by
    rw [List.length_append]
    exact show _ + 1 ≤ 128 by omega)
  obtain ⟨third, hthird, hfeed⟩ := exists_store_behind second hreturn
    ((textBytes (statusJson id)).length + 1) (by rw [List.length_append]; rfl) [0x0a] (by
      rw [List.length_append, List.length_append]
      exact show _ + 1 + 1 ≤ 128 by omega)
  have hjson : third.cells.drop 0 = statusText id ++ third.cells.drop (statusText id).length := by
    rw [List.append_assoc] at hfeed
    rw [List.drop_zero]
    conv_lhs => rw [← List.take_append_drop (statusText id).length third.cells]
    rw [show third.cells.take (statusText id).length = statusText id from hfeed]
  obtain ⟨result, queued, hqueue, hvalid, hcontents⟩ := exists_queueFragments hjson
    (show (textBytes (statusJson id)).length + 2 = 0 + (statusText id).length by
      rw [length_statusText, Nat.zero_add])
    (show (statusText id).length < (textBytes (statusJson id)).length + 2 + 1 by
      rw [length_statusText]
      exact Nat.lt_succ_self _) 0 h
  cases result with
  | none =>
      refine ⟨queued, ?_, hvalid, hcontents⟩
      simp only [sendDeviceStatusResponse, if_neg hfits, hfirst, hsecond, hthird, hqueue,
        Option.bind_eq_bind, Option.bind_some]
  | some fragments =>
      obtain ⟨next, hlog, hquiet⟩ := exists_bridgeLog hvalid
        ("device.status resp queued " ++ field "id" id ++ " " ++ field "fragments" fragments ++
          " " ++ field "bytes" ((textBytes (statusJson id)).length + 2))
      refine ⟨next, ?_, hquiet.valid hvalid, hquiet.queued.trans hcontents⟩
      simp only [sendDeviceStatusResponse, if_neg hfits, hfirst, hsecond, hthird, hqueue, hlog,
        Option.bind_eq_bind, Option.bind_some]

end Firmware
end MicroEmu
