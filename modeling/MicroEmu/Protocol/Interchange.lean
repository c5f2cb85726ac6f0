import MicroEmu.Codex.Messages
import MicroEmu.Protocol.Messages

/-!
# The two implementations of the framing

The bridge frames messages with `frame_json` and reads them with `CodexDecoder`; the protocol
package does so with `frameMessage` and `FrameDecoder`.  Each reads what the other has framed.
-/

namespace MicroEmu
namespace Protocol

open Codex (CodexDecoder)

variable {Value Text : Type} {js : Runtime Value Text}

/-! ## A text of the bridge in JavaScript -/

/-- The runtime reads a value from a text, which has no line break. -/
structure ReadsAs (js : Runtime Value Text) (bytes : List UInt8) (value : Value) : Prop where
  decoded : ∃ text, js.decode bytes = some text ∧ js.parse text = some value
  isObject : js.isObject value = true
  nonempty : bytes ≠ []
  unbroken : 13 ∉ bytes

theorem ReadsAs.readLine {bytes : List UInt8} {value : Value} (h : ReadsAs js bytes value) :
    readLine js bytes = ⟨[value], []⟩ := by
  obtain ⟨text, hdecoded, hparsed⟩ := h.decoded
  simp only [Protocol.readLine, hdecoded, hparsed, h.isObject, not_true, if_false]

/-- The reports of texts that fit are read as the values of the texts. -/
theorem FrameDecoder.feedAll_texts (ble : Bool) {texts : List (List UInt8)} {values : List Value}
    (hreads : List.Forall₂ (ReadsAs js) texts values) {limit : Nat}
    (hfits : ∀ text ∈ texts, text.length + 2 ≤ limit) (later : List (List UInt8)) :
    feedAll js ((texts.map fun text => (chunksOf text).map (report ble)).flatten ++ later)
        ⟨[], limit⟩ =
      (Result.append ⟨values, []⟩ (feedAll js later ⟨[], limit⟩).1,
        (feedAll js later ⟨[], limit⟩).2) := by
  induction hreads with
  | nil => rfl
  | @cons text value texts values hvalue hrest ih =>
      obtain ⟨hfit, hfits⟩ := List.forall_mem_cons.mp hfits
      have hmessage : feedAll js ((chunksOf text).map (report ble)) ⟨[], limit⟩ =
          (⟨[value], []⟩, ⟨[], limit⟩) := by
        rw [feedAll_message ble List.not_mem_nil hvalue.unbroken hvalue.nonempty
          (by rw [List.length_nil, Nat.zero_add]; exact hfit), List.nil_append, hvalue.readLine]
      rw [List.map_cons, List.flatten_cons, List.append_assoc, feedAll_append, hmessage,
        ih hfits, ← Result.append_assoc]
      rfl

/-! ## Interchange -/

/-- What is framed for BLE fits, and is in the reports of the bridge. -/
theorem frameMessage_ble {value : Value} {reports : List (List UInt8)}
    (hobject : js.isObject value = true)
    (h : frameMessage js (.value value) ⟨some "ble", none⟩ = .ok reports) :
    reports = Codex.reportsOf (bytesOf js value) ∧
      (bytesOf js value).length + 2 ≤ Codex.maxBufferBytes := by
  have hpayload : serializePayload js (.value value) = .ok (js.stringify value) := if_pos hobject
  have hfits : (js.encode (js.stringify value)).length + 2 ≤ defaultLimit :=
    (frameMessage_eq_ok hobject h).2
  rw [frameMessage, hpayload] at h
  replace h : (if (joinWithTerminator (js.encode (js.stringify value))).length > defaultLimit then
    Except.error _ else Except.ok _) = Except.ok reports := h
  rw [length_joinWithTerminator] at h
  rw [if_neg (Nat.not_lt.mpr hfits)] at h
  exact ⟨(Except.ok.inj h).symm, hfits⟩

/-- Reports of either implementation are read by the decoder of the other: `FrameDecoder` reads
what `frame_json` has framed, and `CodexDecoder` what `frameMessage` has framed for BLE, each
in order, with no error and nothing left in its buffer. -/
theorem implementations_interchange {js : Runtime Json.Value Text} {next : Codex.Parser}
    {toVec : Json.Value → List UInt8} {messages : List Json.Value}
    {framed packed : List (List (List UInt8))}
    (hreads : ∀ message ∈ messages, ReadsAs js (toVec message) message)
    (hserialised : ∀ message ∈ messages,
      Codex.Serialised next (bytesOf js message) message)
    (hframed : List.Forall₂ (fun message reports => Codex.frameJson toVec message = .ok reports)
      messages framed)
    (hsize : ∀ message ∈ messages, (toVec message).length + 2 ≤ defaultLimit)
    (hpacked : List.Forall₂ (fun message reports =>
      frameMessage js (.value message) ⟨some "ble", none⟩ = .ok reports) messages packed) :
    FrameDecoder.feedAll js framed.flatten (.new none) = (⟨messages, []⟩, .new none) ∧
      ∃ batches : List (List Json.Value),
        CodexDecoder.feedAll next packed.flatten .default = (batches.map .ok, .default) ∧
          batches.flatten = messages := by
  constructor
  · have hfed := FrameDecoder.feedAll_texts true (Codex.forall₂_map_toVec hreads)
      (List.forall_mem_map.mpr hsize) []
    rw [List.append_nil] at hfed
    rw [Codex.framed_eq hframed]
    exact hfed.trans (congrArg (·, FrameDecoder.new none) (Result.append_empty _))
  · have hpackets : packed = (messages.map (bytesOf js)).map Codex.reportsOf ∧
        ∀ message ∈ messages, (bytesOf js message).length + 2 ≤ Codex.maxBufferBytes := by
      clear hframed hsize hserialised
      induction hpacked with
      | nil => exact ⟨rfl, fun _ h => absurd h List.not_mem_nil⟩
      | @cons message reports messages packed hmessage hrest ih =>
          obtain ⟨hread, hreads⟩ := List.forall_mem_cons.mp hreads
          obtain ⟨rfl, hfit⟩ := frameMessage_ble hread.isObject hmessage
          obtain ⟨rfl, hfits⟩ := ih hreads
          exact ⟨rfl, List.forall_mem_cons.mpr ⟨hfit, hfits⟩⟩
    obtain ⟨rfl, hfits⟩ := hpackets
    obtain ⟨batches, hflatten, hall⟩ := Codex.exists_feedAll_texts
      (Codex.forall₂_map_toVec hserialised) (List.forall_mem_map.mpr hfits)
    have hfed := hall []
    rw [List.append_nil] at hfed
    exact ⟨batches, hfed.trans (congrArg (·, CodexDecoder.default) (List.append_nil _)), hflatten⟩

/-- A runtime on the objects that the sample parser of the bridge reads; a text is given by its
bytes. -/
def objectRuntime : Runtime Json.Value (List UInt8) where
  stringify := Codex.sampleToVec
  parse text :=
    match Codex.sampleNext text with
    | .message value consumed => if consumed = text.length then some value else none
    | _ => none
  isObject := Codex.isObject
  encode := id
  decode bytes := if bytes.all (· < 0x80) then some bytes else none

/-- Objects in one report and in two. -/
def sampleMessages : List Json.Value := [Codex.sampleObject 1, Codex.sampleObject 52]

theorem implementations_interchange_sampleMessages :
    FrameDecoder.feedAll objectRuntime
        (sampleMessages.map fun message => Codex.reportsOf (Codex.sampleToVec message)).flatten
        (.new none) = (⟨sampleMessages, []⟩, .new none) ∧
      ∃ batches : List (List Json.Value),
        CodexDecoder.feedAll Codex.sampleNext
            (sampleMessages.map fun message =>
              Codex.reportsOf (Codex.sampleToVec message)).flatten .default =
          (batches.map .ok, .default) ∧
        batches.flatten = sampleMessages := by
  have hall {property : Json.Value → Prop} (hfirst : property (Codex.sampleObject 1))
      (hsecond : property (Codex.sampleObject 52)) :
      ∀ message ∈ sampleMessages, property message :=
    List.forall_mem_cons.mpr ⟨hfirst, List.forall_mem_singleton.mpr hsecond⟩
  refine implementations_interchange (hall ?_ ?_) (hall ?_ ?_) (.cons rfl (.cons rfl .nil))
    (hall ?_ ?_) (.cons rfl (.cons rfl .nil))
  · exact ⟨⟨_, rfl, rfl⟩, rfl, by decide, by decide⟩
  · exact ⟨⟨_, rfl, rfl⟩, rfl, by decide, by decide⟩
  · exact Codex.sampleObject_serialised 1
  · exact Codex.sampleObject_serialised 52
  · rw [Codex.length_sampleObject]
    decide
  · rw [Codex.length_sampleObject]
    decide

end Protocol
end MicroEmu
