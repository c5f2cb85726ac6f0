import MicroEmu.Firmware.Requests

/-!
# Which requests are answered

A report of the host is forwarded to the bridge, and answered if the name of the method
stands in its chunk.
-/

namespace MicroEmu
namespace Firmware

open Library (Block)
open Library.Block (exists_store_behind)

/-! ## Reports of the host -/

theorem exists_forward {state : State} (h : state.Valid) (normalized : Report) :
    ∃ pushed next, bridgeTxPush state bridgeFrameCodexOutputReport normalized.cells =
        some (pushed, next) ∧
      ∃ last, (if pushed = false then bridgeLog next "codex out queue full" else some next) =
          some last ∧ state.Quiet last := by
  obtain ⟨pushed, next, hpush, hquiet⟩ :=
    exists_bridgeTxPush h bridgeFrameCodexOutputReport normalized.cells
  refine ⟨pushed, next, hpush, ?_⟩
  cases pushed with
  | true => exact ⟨next, rfl, hquiet⟩
  | false =>
      obtain ⟨last, hlog, hlast⟩ := exists_bridgeLog (hquiet.valid h) "codex out queue full"
      exact ⟨last, hlog, hquiet.trans hlast⟩

theorem exists_handleReport_unasked {state : State} (h : state.Valid) (request : SetReport)
    (size : Nat) {normalized : Report}
    (hcontains : codexPayloadContains normalized deviceStatus = some false) :
    ∃ next, handleReport state request size normalized = some next ∧ state.Quiet next := by
  obtain ⟨logged, hlog, hquiet⟩ :=
    exists_bridgeLog h (request.accepted size (normalized.cells.drop 1))
  obtain ⟨pushed, next, hpush, last, hlast, hforward⟩ :=
    exists_forward (hquiet.valid h) normalized
  refine ⟨last, ?_, hquiet.trans hforward⟩
  rw [deviceStatus] at hcontains
  simp only [handleReport, hlog, hcontains, hpush, hlast, Option.bind_eq_bind,
    Option.bind_some, Bool.false_eq_true, if_false]

theorem handleReport_undefined {state : State} (h : state.Valid) (request : SetReport)
    (size : Nat) {normalized : Report}
    (hcontains : codexPayloadContains normalized deviceStatus = some true)
    (hparse : codexPayloadParseId normalized = none) :
    handleReport state request size normalized = none := by
  obtain ⟨logged, hlog, hquiet⟩ :=
    exists_bridgeLog h (request.accepted size (normalized.cells.drop 1))
  rw [deviceStatus] at hcontains
  simp only [handleReport, hlog, hcontains, hparse, Option.bind_eq_bind,
    Option.bind_some, Option.bind_none, if_true]

theorem exists_handleReport_asked {state : State} (h : state.Valid) (request : SetReport)
    (size : Nat) {normalized : Report} {id : Nat}
    (hcontains : codexPayloadContains normalized deviceStatus = some true)
    (hparse : codexPayloadParseId normalized = some id) (hid : id ≤ intMax) :
    ∃ next, handleReport state request size normalized = some next ∧ next.Valid ∧
      next.queued = (state.queued ++ statusReports id).take reportQueueCapacity := by
  obtain ⟨logged, hlog, hquiet⟩ :=
    exists_bridgeLog h (request.accepted size (normalized.cells.drop 1))
  have hlogged := hquiet.valid h
  obtain ⟨asked, hask, haskQuiet⟩ := exists_bridgeLog hlogged
    ("device.status req " ++ field "id" id ++ " " ++
      field "chunk" ((normalized.cells.drop 1).getD 1 0).toNat)
  obtain ⟨answered, hanswer, hanswered, hqueued⟩ :=
    exists_sendDeviceStatusResponse (haskQuiet.valid hlogged) hid
  obtain ⟨pushed, next, hpush, last, hlast, hforward⟩ := exists_forward hanswered normalized
  refine ⟨last, ?_, hforward.valid hanswered, ?_⟩
  · rw [deviceStatus] at hcontains
    simp only [handleReport, hlog, hcontains, hparse, hask, hanswer, hpush, hlast,
      Option.bind_eq_bind, Option.bind_some, if_true]
  · rw [hforward.queued, hqueued, haskQuiet.queued, hquiet.queued]

/-- The report is accepted, and the name of the method stands in its chunk. -/
def SetReport.asks (request : SetReport) : Bool :=
  request.interface = interfaceVendorHid ∧
    ((normalizedReport request.reportId (request.buffer.getD [])).bind fun normalized =>
      codexPayloadContains normalized deviceStatus) = some true

theorem normalizedReport_nil (reportId : UInt8) : normalizedReport reportId [] = none := by
  have hpayload : ¬ (reportId = codexReportId ∧ ([] : List UInt8).length =
      codexReportPayloadBytes) := fun hand => absurd hand.2 (by decide)
  rw [normalizedReport, if_neg hpayload, if_neg (by decide)]

/-- The scan for the method stays in the report. -/
theorem exists_codexPayloadContains (normalized : Report) :
    ∃ contains, codexPayloadContains normalized deviceStatus = some contains ∧
      (contains = true → ∃ text, Carries normalized text) := by
  obtain ⟨length, hlength⟩ :=
    normalized.exists_load (show 2 < codexReportWireBytes by decide)
  by_cases hlong : length.toNat > codexReportPayloadBytes - 3
  · refine ⟨false, ?_, fun hfalse => absurd hfalse Bool.false_ne_true⟩
    rw [codexPayloadContains, hlength, Option.bind_eq_bind, Option.bind_some, if_pos hlong]
  · obtain ⟨text, hcarries, -⟩ :=
      exists_carries hlength ((Nat.not_lt.mp hlong).trans (by decide))
    exact ⟨_, codexPayloadContains_eq hcarries (by decide), fun _ => ⟨text, hcarries⟩⟩

theorem tudHidSetReportCb_of_normalized {state : State} {request : SetReport}
    {normalized : Report} (hinterface : request.interface = interfaceVendorHid)
    (hnormalized : normalizedReport request.reportId (request.buffer.getD []) =
      some normalized) :
    tudHidSetReportCb state request =
      handleReport state request (request.buffer.getD []).length normalized := by
  have hbuffer : request.buffer.getD [] ≠ [] := by
    intro hempty
    rw [hempty, normalizedReport_nil] at hnormalized
    cases hnormalized
  simp only [tudHidSetReportCb, if_neg (not_not_intro hinterface), if_neg hbuffer, hnormalized]

/-- Any other report leaves the queue of input reports as it is. -/
theorem exists_tudHidSetReportCb_unasked {state : State} (h : state.Valid) {request : SetReport}
    (hasks : request.asks = false) :
    ∃ next, tudHidSetReportCb state request = some next ∧ state.Quiet next := by
  rw [SetReport.asks, decide_eq_false_iff_not] at hasks
  by_cases hinterface : request.interface = interfaceVendorHid
  · cases hnormalized : normalizedReport request.reportId (request.buffer.getD []) with
    | some normalized =>
        obtain ⟨contains, hcontains, -⟩ := exists_codexPayloadContains normalized
        rw [hnormalized, Option.bind_some, hcontains] at hasks
        obtain rfl : contains = false := Bool.eq_false_iff.mpr fun htrue =>
          hasks ⟨hinterface, congrArg some htrue⟩
        rw [tudHidSetReportCb_of_normalized hinterface hnormalized]
        exact exists_handleReport_unasked h request _ hcontains
    -- no buffer, or one in no shape that is accepted: at most a line is logged
    | none =>
        by_cases hbuffer : request.buffer.getD [] = []
        · refine ⟨state, ?_, .refl state⟩
          simp only [tudHidSetReportCb, if_neg (not_not_intro hinterface), if_pos hbuffer]
        · simp only [tudHidSetReportCb, if_neg (not_not_intro hinterface), if_neg hbuffer,
            hnormalized]
          exact exists_bridgeLog h _
  · simp only [tudHidSetReportCb, if_pos hinterface]
    exact exists_bridgeLog h _

/-- A report that asks is answered as far as there is room, with some id. -/
theorem tudHidSetReportCb_asked {state next : State} (h : state.Valid) {request : SetReport}
    (hasks : request.asks = true) (hnext : tudHidSetReportCb state request = some next) :
    next.Valid ∧ ∃ id ≤ intMax,
      next.queued = (state.queued ++ statusReports id).take reportQueueCapacity := by
  rw [SetReport.asks, decide_eq_true_iff] at hasks
  obtain ⟨hinterface, hbind⟩ := hasks
  obtain ⟨normalized, hnormalized, hcontains⟩ := Option.bind_eq_some_iff.mp hbind
  rw [tudHidSetReportCb_of_normalized hinterface hnormalized] at hnext
  obtain ⟨contains, hother, hcarries⟩ := exists_codexPayloadContains normalized
  obtain rfl : true = contains := Option.some.inj (hcontains.symm.trans hother)
  obtain ⟨text, htext⟩ := hcarries rfl
  have hparse := codexPayloadParseId_eq htext
  by_cases hlarge : statedId text ≤ intMax
  · rw [if_pos hlarge] at hparse
    obtain ⟨last, hlast, hvalid, hqueued⟩ :=
      exists_handleReport_asked h request (request.buffer.getD []).length hcontains hparse hlarge
    obtain rfl := Option.some.inj (hnext.symm.trans hlast)
    exact ⟨hvalid, statedId text, hlarge, hqueued⟩
  · rw [if_neg hlarge] at hparse
    rw [handleReport_undefined h request _ hcontains hparse] at hnext
    cases hnext

/-! ## Requests in a chunk -/

/-- A report of the host with a text as its chunk, in either of the accepted shapes. -/
def SetReport.Delivers (request : SetReport) (text : List UInt8) : Prop :=
  request.interface = interfaceVendorHid ∧ ∃ opcode padding,
    (text ++ padding).length = 61 ∧
    ((request.reportId = codexReportId ∧
        request.buffer = some (opcode :: UInt8.ofNat text.length :: (text ++ padding))) ∨
      request.buffer =
        some (codexReportId :: opcode :: UInt8.ofNat text.length :: (text ++ padding)))

theorem exists_store_whole {values : List UInt8} (h : values.length = codexReportWireBytes) :
    ∃ report : Report, (Block.fill 0).store 0 values = some report ∧ report.cells = values := by
  have hroom : 0 + values.length ≤ codexReportWireBytes := by rw [Nat.zero_add, h]
  obtain ⟨report, hreport, hcells⟩ := (Block.fill (0 : UInt8)).exists_store hroom
  refine ⟨report, hreport, ?_⟩
  have hrest : (Block.fill 0 : Report).cells.drop (0 + values.length) = [] :=
    List.drop_eq_nil_of_le (Nat.le_of_eq (by rw [Block.length_cells, Nat.zero_add, h]))
  rw [hcells, hrest, List.take_zero, List.nil_append, List.append_nil]

theorem SetReport.Delivers.exists_normalized {request : SetReport} {text : List UInt8}
    (h : request.Delivers text) :
    ∃ normalized, normalizedReport request.reportId (request.buffer.getD []) = some normalized ∧
      Carries normalized text := by
  obtain ⟨-, opcode, padding, hlength, hshape⟩ := h
  have hwhole : (codexReportId :: opcode :: UInt8.ofNat text.length ::
      (text ++ padding)).length = codexReportWireBytes := by
    rw [List.length_cons, List.length_cons, List.length_cons, hlength]
    rfl
  obtain ⟨normalized, hstored, hcells⟩ := exists_store_whole hwhole
  refine ⟨normalized, ?_, codexReportId, opcode, padding, hcells⟩
  -- the id of the report is passed beside the bytes, or is the first of them
  rcases hshape with ⟨hid, hbuffer⟩ | hbuffer
  · have hpayload : (opcode :: UInt8.ofNat text.length :: (text ++ padding)).length =
        codexReportPayloadBytes := Nat.succ.inj hwhole
    rw [hbuffer, Option.getD_some, normalizedReport, if_pos ⟨hid, hpayload⟩, hstored]
  · have hwire : ¬ (request.reportId = codexReportId ∧
        (codexReportId :: opcode :: UInt8.ofNat text.length :: (text ++ padding)).length =
          codexReportPayloadBytes) := by
      rw [hwhole]
      exact fun hand => absurd hand.2 (by decide)
    rw [hbuffer, Option.getD_some, normalizedReport, if_neg hwire, if_pos ⟨hwhole, rfl⟩, hstored]

/-- What a JSON parser reads of a text that is a request: the name of its method, and its id
where that is an integer and not negative. -/
structure Request where
  method : String
  id : Option Nat
  deriving DecidableEq, Repr

/-- A request for the status is answered with one response, which has its id; no other
request is. -/
def Answered (state : State) (request : Request) (result : Option State) : Prop :=
  if request.method = "device.status" then
    ∀ id, request.id = some id →
      ∃ next, result = some next ∧ next.queued = state.queued ++ statusReports id
  else ∃ next, result = some next ∧ next.queued = state.queued

/-- A request for the status has at most 60 bytes, spells the name of the method out, and
states its id behind the first key `id`; the id fits an `int`.  Any other request has 61
bytes, or does not contain the name. -/
def Answerable (text : List UInt8) (request : Request) : Prop :=
  if request.method = "device.status" then
    ∀ id, request.id = some id →
      text.length ≤ 60 ∧ deviceStatus <:+: text ∧ statedId text = id ∧ id ≤ intMax
  else ¬ (text.length ≤ 60 ∧ deviceStatus <:+: text)

theorem statusReports_ne_nil (id : Nat) : statusReports id ≠ [] := by
  intro hempty
  have htext := chunkOf_statusReports id
  rw [hempty, statusText] at htext
  exact absurd (List.append_eq_nil_iff.mp htext.symm).2 (List.cons_ne_nil _ _)

/-- What becomes of a chunk that contains the name of the method. -/
theorem answered_of_contains {state : State} (h : state.Valid)
    (hroom : state.queued.length + 2 ≤ reportQueueCapacity) {set : SetReport}
    {text : List UInt8} (hset : set.Delivers text)
    (hcontains : text.length ≤ 60 ∧ deviceStatus <:+: text) :
    (intMax < statedId text ∧ tudHidSetReportCb state set = none) ∨
      (statedId text ≤ intMax ∧ ∃ next, tudHidSetReportCb state set = some next ∧
        next.queued = state.queued ++ statusReports (statedId text)) := by
  obtain ⟨normalized, hnormalized, hcarries⟩ := hset.exists_normalized
  have hscan := codexPayloadContains_eq hcarries (show deviceStatus ≠ [] by decide)
  have hparse := codexPayloadParseId_eq hcarries
  rw [decide_eq_true hcontains] at hscan
  rw [tudHidSetReportCb_of_normalized hset.1 hnormalized]
  by_cases hlarge : statedId text ≤ intMax
  · rw [if_pos hlarge] at hparse
    obtain ⟨next, hnext, -, hqueued⟩ :=
      exists_handleReport_asked h set (set.buffer.getD []).length hscan hparse hlarge
    obtain ⟨last, hreports⟩ := exists_statusReports hlarge
    have hfits : (state.queued ++ statusReports (statedId text)).length ≤
        reportQueueCapacity := by
      rw [hreports, List.length_append]
      exact hroom
    rw [List.take_of_length_le hfits] at hqueued
    exact .inr ⟨hlarge, next, hnext, hqueued⟩
  · rw [if_neg hlarge] at hparse
    exact .inl ⟨Nat.lt_of_not_le hlarge, handleReport_undefined h set _ hscan hparse⟩

theorem exists_unanswered {state : State} (h : state.Valid) {set : SetReport}
    {text : List UInt8} (hset : set.Delivers text)
    (hcontains : ¬ (text.length ≤ 60 ∧ deviceStatus <:+: text)) :
    ∃ next, tudHidSetReportCb state set = some next ∧ next.queued = state.queued := by
  obtain ⟨normalized, hnormalized, hcarries⟩ := hset.exists_normalized
  have hscan := codexPayloadContains_eq hcarries (show deviceStatus ≠ [] by decide)
  rw [decide_eq_false hcontains] at hscan
  rw [tudHidSetReportCb_of_normalized hset.1 hnormalized]
  obtain ⟨next, hnext, hquiet⟩ :=
    exists_handleReport_unasked h set (set.buffer.getD []).length hscan
  exact ⟨next, hnext, hquiet.queued⟩

theorem answered_iff {state : State} (h : state.Valid)
    (hroom : state.queued.length + 2 ≤ reportQueueCapacity) {set : SetReport}
    {text : List UInt8} (hset : set.Delivers text) (request : Request) :
    Answered state request (tudHidSetReportCb state set) ↔ Answerable text request := by
  rw [Answered, Answerable]
  by_cases hcontains : text.length ≤ 60 ∧ deviceStatus <:+: text
  · rcases answered_of_contains h hroom hset hcontains with
      ⟨hlarge, hnone⟩ | ⟨hfits, next, hnext, hqueued⟩
    · -- the digits overflow the `int`
      rw [hnone]
      split
      · refine forall₂_congr fun id hid => ⟨?_, ?_⟩
        · rintro ⟨next, hnext, -⟩
          cases hnext
        · rintro ⟨-, -, rfl, hsmall⟩
          exact absurd hsmall (Nat.not_le.mpr hlarge)
      · refine ⟨?_, fun hnot => absurd hcontains hnot⟩
        rintro ⟨next, hnext, -⟩
        cases hnext
    · rw [hnext]
      split
      · refine forall₂_congr fun id hid => ⟨?_, ?_⟩
        · rintro ⟨other, hother, hreports⟩
          obtain rfl := Option.some.inj hother
          rw [hqueued] at hreports
          obtain rfl := statusReports_injective (List.append_cancel_left hreports)
          exact ⟨hcontains.1, hcontains.2, rfl, hfits⟩
        · rintro ⟨-, -, rfl, -⟩
          exact ⟨next, rfl, hqueued⟩
      · refine ⟨?_, fun hnot => absurd hcontains hnot⟩
        rintro ⟨other, hother, hsame⟩
        obtain rfl := Option.some.inj hother
        rw [hqueued, List.append_right_eq_self] at hsame
        exact absurd hsame (statusReports_ne_nil _)
  · obtain ⟨next, hnext, hqueued⟩ := exists_unanswered h hset hcontains
    rw [hnext]
    split
    · refine forall₂_congr fun id hid => ⟨?_, fun hall => absurd ⟨hall.1, hall.2.1⟩ hcontains⟩
      rintro ⟨other, hother, hreports⟩
      obtain rfl := Option.some.inj hother
      rw [hqueued, List.self_eq_append_right] at hreports
      exact absurd hreports (statusReports_ne_nil _)
    · exact ⟨fun _ => hcontains, fun _ => ⟨next, rfl, hqueued⟩⟩

/-- Whatever reads the requests, they are answered as they should be exactly when the
firmware's scan sees what it reads. -/
theorem device_status_answered_iff (parse : List UInt8 → Option Request) {state : State}
    (h : state.Valid) (hroom : state.queued.length + 2 ≤ reportQueueCapacity)
    {set : SetReport} {text : List UInt8} (hset : set.Delivers text) :
    (∀ request, parse text = some request →
        Answered state request (tudHidSetReportCb state set)) ↔
      ∀ request, parse text = some request → Answerable text request :=
  forall₂_congr fun request _ => answered_iff h hroom hset request

/-- A short request, and one that fills its report. -/
def sampleTexts : List UInt8 × List UInt8 :=
  (textBytes "\x7b\"m\":\"device.status\",\"id\":7\x7d",
    textBytes "\x7b\"m\":\"device.status\",\"id\":1,\"p\":\"xxxxxxxxxxxxxxxxxxxxxxxxxx\"\x7d")

/-- A parser of these two texts. -/
def sampleParse (text : List UInt8) : Option Request :=
  if text = sampleTexts.1 then some ⟨"device.status", some 7⟩
  else if text = sampleTexts.2 then some ⟨"device.status", some 1⟩
  else none

/-- The report that carries a text, with its id in front. -/
def sampleReport (text : List UInt8) : SetReport :=
  ⟨interfaceVendorHid, codexReportId, .output, some (Codex.report text)⟩

theorem sampleReport_delivers {text : List UInt8} (h : text.length ≤ 61) :
    (sampleReport text).Delivers text := by
  refine ⟨rfl, 0x02, List.replicate (61 - text.length) 0, ?_, .inr ?_⟩
  · rw [List.length_append, List.length_replicate]
    omega
  · have hzeros : Codex.reportBytes - ([codexReportId, 2, UInt8.ofNat text.length] ++
        text).length = 61 - text.length := by
      rw [List.length_append]
      exact show 64 - (3 + text.length) = 61 - text.length by omega
    show some (([codexReportId, 2, UInt8.ofNat text.length] ++ text) ++ List.replicate _ 0) = _
    rw [← hzeros]
    rfl

theorem device_status_answered_short :
    Answered .init ⟨"device.status", some 7⟩
      (tudHidSetReportCb .init (sampleReport sampleTexts.1)) := by
  have hanswerable (request : Request) (hrequest : sampleParse sampleTexts.1 = some request) :
      Answerable sampleTexts.1 request := by
    obtain rfl : (⟨"device.status", some 7⟩ : Request) = request := Option.some.inj hrequest
    rw [Answerable, if_pos rfl]
    rintro id hid
    obtain rfl := Option.some.inj hid
    decide +kernel
  exact (device_status_answered_iff sampleParse State.valid_init (by decide)
    (sampleReport_delivers (by decide +kernel))).mpr hanswerable _ rfl

/-- A request of 61 bytes is not answered. -/
theorem full_report_unanswered :
    ¬ ∀ (parse : List UInt8 → Option Request) (state : State) (set : SetReport)
        (text : List UInt8), state.Valid →
      state.queued.length + 2 ≤ reportQueueCapacity → set.Delivers text →
      ∀ request, parse text = some request →
        Answered state request (tudHidSetReportCb state set) := by
  intro h
  have hlength : sampleTexts.2.length = 61 := by decide +kernel
  have hdelivers := sampleReport_delivers (Nat.le_of_eq hlength)
  have hanswered := h sampleParse .init _ _ State.valid_init (by decide) hdelivers
    ⟨"device.status", some 1⟩ (by decide +kernel)
  obtain ⟨next, hnext, hqueued⟩ := exists_unanswered State.valid_init hdelivers
    fun hand => absurd hand.1 (by rw [hlength]; decide)
  rw [Answered, if_pos rfl, hnext] at hanswered
  obtain ⟨other, hother, hreports⟩ := hanswered 1 rfl
  obtain rfl := Option.some.inj hother
  rw [hqueued, List.self_eq_append_right] at hreports
  exact statusReports_ne_nil 1 hreports

end Firmware
end MicroEmu
