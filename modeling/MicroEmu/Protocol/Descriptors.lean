import MicroEmu.Library.Items
import MicroEmu.Protocol.Framing
import Mathlib.Algebra.Group.Nat.Defs

/-!
# Report descriptors

A report descriptor is a list of items.  The inspector walks over it byte by byte, keeps the
global items it uses and the usages since the last main item, and lists the reports that the
main items declare.
-/

namespace MicroEmu
namespace Protocol

open Library (ItemCode)

/-! ## The inspector -/

/-- The kinds of `MAIN_TAGS`. -/
inductive MainKind where
  | input
  | output
  | feature
  deriving DecidableEq, Repr

/-- `MAIN_TAGS`. -/
def mainTags (tag : UInt8) : Option MainKind :=
  if tag = 0x8 then some .input
  else if tag = 0x9 then some .output
  else if tag = 0xb then some .feature
  else none

/-- A number as a double holds it: from 2^53 on, to the nearest of those with 53 bits, and to
the even one of two that are equally near. -/
def toDouble (number : Nat) : Nat :=
  if number < 2 ^ 53 then number
  else
    let unit := 2 ^ (Nat.log2 number - 52)
    let quotient := number / unit
    let double := 2 * (number % unit)
    if double > unit ∨ (double = unit ∧ quotient % 2 = 1) then (quotient + 1) * unit
    else quotient * unit

/-- What a main item declares. -/
structure ReportItem where
  kind : MainKind
  reportId : Nat
  usagePage : Nat
  usage : Option Nat
  reportSize : Nat
  reportCount : Nat
  reportBits : Nat
  flags : Nat
  offset : Nat
  deriving DecidableEq, Repr

/-- The global items that are used, the usages since the last main item, and what has been
declared. -/
structure InspectorState where
  usagePage : Nat
  reportSize : Nat
  reportId : Nat
  reportCount : Nat
  usages : List Nat
  items : List ReportItem
  deriving DecidableEq, Repr

/-- Before the first item. -/
def InspectorState.start : InspectorState := ⟨0, 0, 0, 0, [], []⟩

/-- `readUnsignedLittleEndian`. -/
def readUnsignedLittleEndian (bytes : List UInt8) : Nat :=
  bytes.zipIdx.foldl (fun value byte => value + byte.1.toNat * 2 ^ (8 * byte.2)) 0

/-- The size of the data of a short item. -/
def itemSize (head : UInt8) : Nat :=
  let sizeCode := head &&& 0x03
  if sizeCode = 3 then 4 else sizeCode.toNat

/-- What a main item declares where the state is so. -/
def InspectorState.declared (state : InspectorState) (offset value : Nat) (kind : MainKind) :
    ReportItem where
  kind
  reportId := state.reportId
  usagePage := state.usagePage
  usage := state.usages.getLast?
  reportSize := state.reportSize
  reportCount := state.reportCount
  reportBits := toDouble (state.reportSize * state.reportCount)
  flags := value
  offset

/-- What a short item does. -/
def InspectorState.take (state : InspectorState) (offset : Nat) (head : UInt8) (value : Nat) :
    InspectorState :=
  let type := (head >>> 2) &&& 0x03
  let tag := (head >>> 4) &&& 0x0f
  if type = 1 then
    if tag = 0x0 then { state with usagePage := value }
    else if tag = 0x7 then { state with reportSize := value }
    else if tag = 0x8 then { state with reportId := value }
    else if tag = 0x9 then { state with reportCount := value }
    else state
  else if type = 2 ∧ tag = 0x0 then { state with usages := state.usages ++ [value] }
  else if type = 0 then
    -- any other main item, such as the end of a collection, only drops the usages
    { state with
      items := state.items ++ ((mainTags tag).map (state.declared offset value)).toList
      usages := [] }
  else state

/-- An item that does not fit the rest of the descriptor. -/
def truncatedItem (message : String) : ProtocolError := ⟨"TRUNCATED_DESCRIPTOR_ITEM", message, []⟩

/-- The loop of `inspectReportDescriptor`, with so many turns left. -/
def inspectTurns (descriptor : List UInt8) :
    Nat → Nat → InspectorState → Except ProtocolError InspectorState
  | 0, _, state => .ok state
  | turns + 1, offset, state =>
      if offset < descriptor.length then
        let head := descriptor.getD offset 0
        if head = 0xfe then
          if offset + 2 ≥ descriptor.length then
            .error (truncatedItem ("Truncated long HID item at byte " ++ toString offset ++ "."))
          else
            let last := offset + 3 + (descriptor.getD (offset + 1) 0).toNat
            if last > descriptor.length then
              .error (truncatedItem ("Long HID item at byte " ++ toString offset ++
                " exceeds descriptor length."))
            else inspectTurns descriptor turns last state
        else
          let dataStart := offset + 1
          let last := dataStart + itemSize head
          if last > descriptor.length then
            .error (truncatedItem ("HID item at byte " ++ toString offset ++
              " exceeds descriptor length."))
          else
            let value := readUnsignedLittleEndian ((descriptor.drop dataStart).take (itemSize head))
            inspectTurns descriptor turns last (state.take offset head value)
      else .ok state

/-- The items of a report id. -/
structure ReportKinds where
  input : List ReportItem
  output : List ReportItem
  feature : List ReportItem
  deriving DecidableEq, Repr

/-- The items of a kind. -/
def ReportKinds.ofKind (report : ReportKinds) : MainKind → List ReportItem
  | .input => report.input
  | .output => report.output
  | .feature => report.feature

/-- One more item, behind the others of its kind. -/
def ReportKinds.push (report : ReportKinds) (item : ReportItem) : ReportKinds :=
  match item.kind with
  | .input => { report with input := report.input ++ [item] }
  | .output => { report with output := report.output ++ [item] }
  | .feature => { report with feature := report.feature ++ [item] }

/-- The reports with one more item; a report id has an entry from its first item on. -/
def addItem (reports : List (Nat × ReportKinds)) (item : ReportItem) :
    List (Nat × ReportKinds) :=
  match reports.lookup item.reportId with
  | none => reports ++ [(item.reportId, ReportKinds.push ⟨[], [], []⟩ item)]
  | some _ =>
      reports.map fun entry =>
        if entry.1 = item.reportId then (entry.1, entry.2.push item) else entry

/-- What the inspector returns. -/
structure Inspection where
  byteLength : Nat
  items : List ReportItem
  reports : List (Nat × ReportKinds)
  deriving DecidableEq, Repr

/-- What is returned for what has been declared. -/
def Inspection.ofItems (byteLength : Nat) (items : List ReportItem) : Inspection :=
  ⟨byteLength, items, items.foldl addItem []⟩

/-- `inspectReportDescriptor`, of a `Uint8Array` or of something else. -/
def inspectReportDescriptor : Option (List UInt8) → Except ProtocolError Inspection
  | none => .error ⟨"INVALID_DESCRIPTOR", "Descriptor must be a Uint8Array.", []⟩
  | some descriptor =>
      (inspectTurns descriptor (descriptor.length + 1) 0 .start).map fun state =>
        .ofItems descriptor.length state.items

/-! ## Items -/

/-- An item of a descriptor. -/
inductive HidItem where
  | short (head : UInt8) (data : List UInt8) (hhead : head ≠ 0xfe)
      (hdata : data.length = itemSize head)
  | long (tag : UInt8) (data : List UInt8) (hdata : data.length < 256)

namespace HidItem

/-- The bytes of an item. -/
def encode : HidItem → List UInt8
  | short head data _ _ => head :: data
  | long tag data _ => 0xfe :: UInt8.ofNat data.length :: tag :: data

/-- What an item does; long ones are passed over. -/
def apply (offset : Nat) (state : InspectorState) : HidItem → InspectorState
  | short head data _ _ => state.take offset head (readUnsignedLittleEndian data)
  | long _ _ _ => state

theorem encode_ne_nil (item : HidItem) : item.encode ≠ [] := by
  cases item <;> exact List.cons_ne_nil _ _

theorem toNat_length {data : List UInt8} (h : data.length < 256) :
    (UInt8.ofNat data.length).toNat = data.length := by
  rw [UInt8.toNat_ofNat']
  exact Nat.mod_eq_of_lt h

/-- The head of an item says how long it is. -/
theorem encode_unique {first second : HidItem} {front back : List UInt8}
    (h : first.encode ++ front = second.encode ++ back) : first = second := by
  cases first with
  | short head data hhead hdata =>
      cases second with
      | short other bytes hother hbytes =>
          obtain ⟨rfl, hrest⟩ := List.cons.inj h
          obtain ⟨rfl, -⟩ := List.append_inj hrest (hdata.trans hbytes.symm)
          rfl
      | long tag bytes hbytes => exact absurd (List.cons.inj h).1 hhead
  | long tag data hdata =>
      cases second with
      | short other bytes hother hbytes => exact absurd (List.cons.inj h).1.symm hother
      | long other bytes hbytes =>
          obtain ⟨hlength, hbehind⟩ := List.cons.inj (List.cons.inj h).2
          obtain ⟨rfl, hrest⟩ := List.cons.inj hbehind
          have hsame : data.length = bytes.length := by
            rw [← toNat_length hdata, ← toNat_length hbytes, hlength]
          obtain ⟨rfl, -⟩ := List.append_inj hrest hsame
          rfl

end HidItem

/-- Items as they stand in a descriptor. -/
def hidItems : ItemCode UInt8 HidItem := ⟨HidItem.encode, HidItem.encode_ne_nil,
  HidItem.encode_unique⟩

/-- Data that is too short for an item is filled up with zeros. -/
theorem length_filled {data : List UInt8} {size : Nat} (h : data.length < size) :
    (data ++ List.replicate (size - data.length) 0).length = size := by
  rw [List.length_append, List.length_replicate]
  omega

theorem replicate_ne_nil {data : List UInt8} {size : Nat} (h : data.length < size) :
    List.replicate (size - data.length) (0 : UInt8) ≠ [] := by
  rw [Ne, List.replicate_eq_nil_iff]
  omega

/-- A descriptor ends, starts with an item, or is a part of one. -/
theorem hidItems_total (bytes : List UInt8) :
    bytes = [] ∨ hidItems.Cut bytes ∨ ∃ item rest, bytes = hidItems.encode item ++ rest := by
  rcases bytes with _ | ⟨head, data⟩
  · exact .inl rfl
  refine .inr ?_
  by_cases hhead : head = 0xfe
  · subst hhead
    rcases data with _ | ⟨length, _ | ⟨tag, data⟩⟩
    · exact .inl ⟨List.cons_ne_nil _ _, .long 0 [] (by decide), [0, 0], List.cons_ne_nil _ _, rfl⟩
    · have hlong : (List.replicate length.toNat (0 : UInt8)).length < 256 := by
        rw [List.length_replicate]
        exact length.toNat_lt
      refine .inl ⟨List.cons_ne_nil _ _, .long 0 (List.replicate length.toNat 0) hlong,
        0 :: List.replicate length.toNat 0, List.cons_ne_nil _ _, ?_⟩
      show 0xfe :: length :: _ = 0xfe :: UInt8.ofNat (List.replicate length.toNat _).length :: _
      rw [List.length_replicate, UInt8.ofNat_toNat]
      rfl
    · have hlong := length.toNat_lt
      rcases Nat.lt_or_ge data.length length.toNat with hcut | hwhole
      · refine .inl ⟨List.cons_ne_nil _ _,
          .long tag (data ++ List.replicate (length.toNat - data.length) 0)
            ((length_filled hcut).trans_lt hlong), _, replicate_ne_nil hcut, ?_⟩
        show _ = 0xfe :: UInt8.ofNat (data ++ List.replicate _ _).length :: _
        rw [length_filled hcut, UInt8.ofNat_toNat]
        rfl
      · have htaken : (data.take length.toNat).length = length.toNat :=
          List.length_take_of_le hwhole
        refine .inr ⟨.long tag (data.take length.toNat) (htaken.trans_lt hlong),
          data.drop length.toNat, ?_⟩
        show _ = 0xfe :: UInt8.ofNat (data.take length.toNat).length :: tag ::
          (data.take length.toNat ++ data.drop length.toNat)
        rw [htaken, UInt8.ofNat_toNat, List.take_append_drop]
  · rcases Nat.lt_or_ge data.length (itemSize head) with hcut | hwhole
    · exact .inl ⟨List.cons_ne_nil _ _,
        .short head (data ++ List.replicate (itemSize head - data.length) 0) hhead
          (length_filled hcut), _, replicate_ne_nil hcut, rfl⟩
    · refine .inr ⟨.short head (data.take (itemSize head)) hhead (List.length_take_of_le hwhole),
        data.drop (itemSize head), ?_⟩
      exact congrArg (head :: ·) (List.take_append_drop _ _).symm

/-! ## Walking over items -/

/-- What items do, one after another from a place on. -/
def interpret : Nat → InspectorState → List HidItem → InspectorState
  | _, state, [] => state
  | offset, state, item :: items =>
      interpret (offset + item.encode.length) (item.apply offset state) items

/-- The step lemma: a turn takes one item. -/
theorem inspectTurns_item (front : List UInt8) (item : HidItem) (back : List UInt8) (turns : Nat)
    (state : InspectorState) :
    inspectTurns (front ++ (item.encode ++ back)) (turns + 1) front.length state =
      inspectTurns (front ++ (item.encode ++ back)) turns (front.length + item.encode.length)
        (item.apply front.length state) := by
  have hget (index : Nat) (byte : UInt8) (h : (item.encode ++ back)[index]? = some byte) :
      (front ++ (item.encode ++ back)).getD (front.length + index) 0 = byte := by
    rw [List.getD_eq_getElem?_getD, List.getElem?_append_right (Nat.le_add_right _ _),
      Nat.add_sub_cancel_left, h, Option.getD_some]
  have hlength : (front ++ (item.encode ++ back)).length =
      front.length + (item.encode.length + back.length) := by
    rw [List.length_append, List.length_append]
  have hinside : front.length < front.length + (item.encode.length + back.length) := by
    have hpositive := List.length_pos_iff.mpr item.encode_ne_nil
    omega
  rw [inspectTurns, hlength, if_pos hinside]
  cases item with
  | short head data hhead hdata =>
      have hfirst := hget 0 head rfl
      have hsize : (HidItem.short head data hhead hdata).encode.length = 1 + itemSize head := by
        rw [HidItem.encode, List.length_cons, hdata, Nat.add_comm]
      have hvalue : ((front ++ ((HidItem.short head data hhead hdata).encode ++ back)).drop
          (front.length + 1)).take (itemSize head) = data := by
        rw [← List.drop_drop, List.drop_left, ← hdata]
        exact List.take_left
      rw [Nat.add_zero] at hfirst
      simp only [hfirst, if_neg hhead, hvalue]
      rw [if_neg (by omega), Nat.add_assoc, ← hsize]
      rfl
  | long tag data hdata =>
      have hfirst := hget 0 0xfe rfl
      have hsecond := hget 1 (UInt8.ofNat data.length) rfl
      have hsize : (HidItem.long tag data hdata).encode.length = 3 + data.length := by
        rw [HidItem.encode, List.length_cons, List.length_cons, List.length_cons]
        omega
      rw [Nat.add_zero] at hfirst
      simp only [hfirst, hsecond, if_true, HidItem.toNat_length hdata]
      rw [if_neg (by omega), if_neg (by omega), Nat.add_assoc, ← hsize]
      rfl

/-- The run lemma: as many turns take as many items. -/
theorem inspectTurns_items (front : List UInt8) (items : List HidItem) (back : List UInt8)
    (turns : Nat) (state : InspectorState) :
    inspectTurns (front ++ (hidItems.encodeAll items ++ back)) (items.length + turns)
        front.length state =
      inspectTurns (front ++ (hidItems.encodeAll items ++ back)) turns
        (front ++ hidItems.encodeAll items).length (interpret front.length state items) := by
  induction items generalizing front state with
  | nil =>
      rw [List.length_nil, Nat.zero_add, ItemCode.encodeAll, List.flatMap_nil, List.append_nil]
      rfl
  | cons item items ih =>
      have hbytes : front ++ (hidItems.encodeAll (item :: items) ++ back) =
          front ++ (item.encode ++ (hidItems.encodeAll items ++ back)) := by
        rw [ItemCode.encodeAll_cons, List.append_assoc]
        rfl
      have hrest := ih (front ++ item.encode) (item.apply front.length state)
      rw [List.append_assoc, List.append_assoc, List.length_append] at hrest
      rw [hbytes, List.length_cons, Nat.add_right_comm, inspectTurns_item, hrest,
        ItemCode.encodeAll_cons]
      rfl

/-- What is said of a part of an item. -/
def truncation (offset : Nat) (rest : List UInt8) : ProtocolError :=
  if rest.head? = some 0xfe then
    if rest.length < 3 then
      truncatedItem ("Truncated long HID item at byte " ++ toString offset ++ ".")
    else
      truncatedItem ("Long HID item at byte " ++ toString offset ++ " exceeds descriptor length.")
  else truncatedItem ("HID item at byte " ++ toString offset ++ " exceeds descriptor length.")

/-- A turn that meets a part of an item. -/
theorem inspectTurns_cut (front : List UInt8) {rest : List UInt8} (h : hidItems.Cut rest)
    (turns : Nat) (state : InspectorState) :
    inspectTurns (front ++ rest) (turns + 1) front.length state =
      .error (truncation front.length rest) := by
  obtain ⟨hnonempty, item, back, hback, hitem⟩ := h
  replace hitem : rest ++ back = item.encode := hitem
  have hget (index : Nat) (byte : UInt8) (h : rest[index]? = some byte) :
      (front ++ rest).getD (front.length + index) 0 = byte := by
    rw [List.getD_eq_getElem?_getD, List.getElem?_append_right (Nat.le_add_right _ _),
      Nat.add_sub_cancel_left, h, Option.getD_some]
  have hshorter : rest.length < item.encode.length := by
    have hpositive := List.length_pos_iff.mpr hback
    rw [← hitem, List.length_append]
    omega
  obtain ⟨first, more, rfl⟩ := List.exists_cons_of_ne_nil hnonempty
  have hfirst := hget 0 first rfl
  rw [Nat.add_zero] at hfirst
  have hinside : front.length < (front ++ first :: more).length := by
    rw [List.length_append, List.length_cons]
    omega
  rw [inspectTurns, if_pos hinside]
  rw [List.length_append]
  cases item with
  | short head data hhead hdata =>
      obtain ⟨rfl, -⟩ := List.cons.inj hitem
      have hlength : (first :: more).length < itemSize first + 1 := by
        rw [← hdata]
        exact hshorter
      have hother : ¬ (first :: more).head? = some 0xfe := fun hlong =>
        hhead (Option.some.inj hlong)
      simp only [hfirst, if_neg hhead]
      rw [truncation, if_neg hother, if_pos (by omega)]
  | long tag data hdata =>
      obtain ⟨rfl, hmore⟩ := List.cons.inj hitem
      have hlong : (0xfe :: more).head? = some (0xfe : UInt8) := rfl
      simp only [hfirst, if_true]
      rw [truncation, if_pos hlong]
      by_cases hfew : (0xfe :: more).length < 3
      · rw [if_pos hfew, if_pos (by omega)]
      · rw [if_neg hfew, if_neg (by omega)]
        rcases more with _ | ⟨second, others⟩
        · exact absurd (by decide) hfew
        obtain ⟨rfl, -⟩ := List.cons.inj hmore
        have hsecond := hget 1 (UInt8.ofNat data.length) rfl
        have hsize : (HidItem.long tag data hdata).encode.length = 3 + data.length := by
          rw [HidItem.encode, List.length_cons, List.length_cons, List.length_cons]
          omega
        rw [hsecond, HidItem.toNat_length hdata, if_pos (by omega)]

/-! ## What is accepted -/

/-- The inspector on items and a rest. -/
theorem inspectTurns_split {items : List HidItem} {rest descriptor : List UInt8}
    (hdescriptor : descriptor = hidItems.encodeAll items ++ rest)
    (hrest : rest = [] ∨ hidItems.Cut rest) :
    inspectTurns descriptor (descriptor.length + 1) 0 .start =
      if rest = [] then .ok (interpret 0 .start items)
      else .error (truncation (hidItems.encodeAll items).length rest) := by
  have hmany : items.length ≤ (hidItems.encodeAll items).length := by
    clear hdescriptor
    induction items with
    | nil => exact Nat.zero_le _
    | cons item items ih =>
        have hpositive := List.length_pos_iff.mpr item.encode_ne_nil
        rw [ItemCode.encodeAll_cons, List.length_append, List.length_cons]
        replace hpositive : 0 < (hidItems.encode item).length := hpositive
        omega
  have hlength := congrArg List.length hdescriptor
  rw [List.length_append] at hlength
  obtain ⟨turns, hturns⟩ : ∃ turns, descriptor.length + 1 = items.length + (turns + 1) :=
    ⟨descriptor.length - items.length, by omega⟩
  have hrun := inspectTurns_items [] items rest (turns + 1) .start
  rw [List.nil_append, List.nil_append, ← hdescriptor] at hrun
  rw [hturns]
  refine hrun.trans ?_
  rcases hrest with rfl | hcut
  · rw [List.append_nil] at hdescriptor
    rw [if_pos rfl, inspectTurns, hdescriptor, if_neg (Nat.lt_irrefl _)]
    rfl
  · rw [if_neg hcut.1, hdescriptor]
    exact inspectTurns_cut _ hcut turns _

/-- There is one way to read a descriptor as items with nothing or a part of an item behind
them.  The inspector accepts exactly the descriptors that are made of items, and then lists what
the items declare; any other descriptor ends with a part of an item, and the error says where
that part starts. -/
theorem inspectReportDescriptor_iff (descriptor : List UInt8) :
    (∃! reading : List HidItem × List UInt8,
      descriptor = hidItems.encodeAll reading.1 ++ reading.2 ∧
        (reading.2 = [] ∨ hidItems.Cut reading.2)) ∧
    (∀ inspection, inspectReportDescriptor (some descriptor) = .ok inspection ↔
      ∃ items, descriptor = hidItems.encodeAll items ∧
        inspection = .ofItems descriptor.length (interpret 0 .start items).items) ∧
    (∀ error, inspectReportDescriptor (some descriptor) = .error error ↔
      ∃ items rest, descriptor = hidItems.encodeAll items ++ rest ∧ hidItems.Cut rest ∧
        error = truncation (hidItems.encodeAll items).length rest) := by
  obtain ⟨items, rest, hdescriptor, hrest⟩ :=
    ItemCode.exists_encodeAll hidItems_total descriptor
  have hrun := inspectTurns_split hdescriptor hrest
  have hends {part : List UInt8} (hpart : part = [] ∨ hidItems.Cut part) : hidItems.Stuck part := by
    rcases hpart with rfl | hcut
    · exact ItemCode.stuck_nil
    · exact hcut.stuck
  have hstuck := hends hrest
  refine ⟨⟨(items, rest), ⟨hdescriptor, hrest⟩, ?_⟩, ?_⟩
  · rintro ⟨others, part⟩ ⟨hothers, hpart⟩
    rw [hdescriptor] at hothers
    obtain ⟨rfl, rfl⟩ := ItemCode.encodeAll_inj hstuck (hends hpart) hothers
    rfl
  rw [inspectReportDescriptor, hrun]
  rcases hrest with rfl | hcut
  · rw [if_pos rfl]
    constructor
    · intro inspection
      constructor
      · intro hok
        exact ⟨items, hdescriptor.trans (List.append_nil _), (Except.ok.inj hok).symm⟩
      · rintro ⟨others, hothers, rfl⟩
        rw [← List.append_nil (hidItems.encodeAll others), hdescriptor] at hothers
        obtain ⟨rfl, -⟩ := ItemCode.encodeAll_inj hstuck hstuck hothers
        rfl
    · intro error
      constructor
      · intro herror
        cases herror
      · rintro ⟨others, part, hothers, hpart, -⟩
        rw [hdescriptor] at hothers
        obtain ⟨-, rfl⟩ := ItemCode.encodeAll_inj hstuck hpart.stuck hothers
        exact absurd rfl hpart.1
  · rw [if_neg hcut.1]
    constructor
    · intro inspection
      constructor
      · intro hok
        cases hok
      · rintro ⟨others, hothers, -⟩
        rw [← List.append_nil (hidItems.encodeAll others), hdescriptor] at hothers
        obtain ⟨-, hnil⟩ := ItemCode.encodeAll_inj hstuck ItemCode.stuck_nil hothers
        exact absurd hnil hcut.1
    · intro error
      constructor
      · intro herror
        exact ⟨items, rest, hdescriptor, hcut, (Except.error.inj herror).symm⟩
      · rintro ⟨others, part, hothers, hpart, rfl⟩
        rw [hdescriptor] at hothers
        obtain ⟨rfl, rfl⟩ := ItemCode.encodeAll_inj hstuck hpart.stuck hothers
        rfl

/-! ## The vendor report -/

/-- The name of a kind. -/
def MainKind.name : MainKind → String
  | .input => "input"
  | .output => "output"
  | .feature => "feature"

/-- The kinds that are expected of Report ID 6, with their usages. -/
def vendorKinds : List (MainKind × Nat) := [(.input, 0x02), (.output, 0x03), (.feature, 0x04)]

/-- An item of 63 bytes with the usage that is expected. -/
def isVendorItem (expectedUsage : Nat) (item : ReportItem) : Bool :=
  item.usagePage == 0xff00 && item.usage == some expectedUsage && item.reportSize == 8 &&
    item.reportCount == 63

/-- The loop of `assertCodexMicroVendorReport`. -/
def assertVendorKinds (report : ReportKinds) :
    List (MainKind × Nat) → Except ProtocolError Unit
  | [] => .ok ()
  | (kind, expectedUsage) :: kinds =>
      match (report.ofKind kind).find? (isVendorItem expectedUsage) with
      | none => .error ⟨"INVALID_VENDOR_REPORT", "Report ID 6 lacks the expected 63-byte " ++
          kind.name ++ " item.", []⟩
      | some _ => assertVendorKinds report kinds

/-- `assertCodexMicroVendorReport`. -/
def assertCodexMicroVendorReport (descriptor : Option (List UInt8)) :
    Except ProtocolError Inspection := do
  let inspection ← inspectReportDescriptor descriptor
  match inspection.reports.lookup 6 with
  | none => .error ⟨"MISSING_VENDOR_REPORT", "Descriptor does not define Report ID 6.", []⟩
  | some report =>
      match assertVendorKinds report vendorKinds with
      | .error error => .error error
      | .ok _ => .ok inspection

/-- The items of a report id, by their kinds. -/
def kindsOf (id : Nat) (items : List ReportItem) : ReportKinds :=
  let ofKind (kind : MainKind) := items.filter fun item => item.reportId == id && item.kind == kind
  ⟨ofKind .input, ofKind .output, ofKind .feature⟩

theorem ofKind_kindsOf (id : Nat) (items : List ReportItem) (kind : MainKind) :
    (kindsOf id items).ofKind kind =
      items.filter fun item => item.reportId == id && item.kind == kind := by
  cases kind <;> rfl

theorem kindsOf_concat (id : Nat) (items : List ReportItem) (item : ReportItem) :
    kindsOf id (items ++ [item]) =
      if item.reportId = id then (kindsOf id items).push item else kindsOf id items := by
  simp only [kindsOf, List.filter_append]
  by_cases hid : item.reportId = id
  · rw [if_pos hid, ReportKinds.push]
    cases hkind : item.kind <;> simp [hid, hkind]
  · rw [if_neg hid]
    simp [hid]

theorem lookup_map_push (reports : List (Nat × ReportKinds)) (item : ReportItem) (id : Nat) :
    (reports.map fun entry =>
        if entry.1 = item.reportId then (entry.1, entry.2.push item) else entry).lookup id =
      if item.reportId = id then (reports.lookup id).map (·.push item)
      else reports.lookup id := by
  induction reports with
  | nil => split <;> rfl
  | cons entry reports ih =>
      obtain ⟨key, report⟩ := entry
      rw [List.map_cons]
      by_cases hkey : key = item.reportId
      · rw [if_pos hkey, List.lookup_cons, List.lookup_cons, ih]
        by_cases hid : item.reportId = id
        · rw [if_pos hid, if_pos hid, hkey, hid]
          simp
        · rw [if_neg hid, if_neg hid]
          have hother : (id == key) = false := by
            rw [beq_eq_false_iff_ne, hkey]
            exact Ne.symm hid
          simp only [hother]
      · rw [if_neg hkey, List.lookup_cons, List.lookup_cons, ih]
        by_cases hid : item.reportId = id
        · have hother : (id == key) = false := by
            rw [beq_eq_false_iff_ne, ← hid]
            exact Ne.symm hkey
          simp only [if_pos hid, hother]
        · rw [if_neg hid, if_neg hid]

theorem lookup_addItem (reports : List (Nat × ReportKinds)) (item : ReportItem) (id : Nat) :
    (addItem reports item).lookup id =
      if item.reportId = id then
        some (((reports.lookup id).getD ⟨[], [], []⟩).push item)
      else reports.lookup id := by
  rw [addItem]
  split
  next hnone =>
    rw [List.lookup_append]
    by_cases hid : item.reportId = id
    · rw [if_pos hid, ← hid, hnone]
      simp
    · rw [if_neg hid]
      have hother : (id == item.reportId) = false := by
        rw [beq_eq_false_iff_ne]
        exact Ne.symm hid
      simp [List.lookup_cons, hother]
  next report hsome =>
    rw [lookup_map_push]
    by_cases hid : item.reportId = id
    · rw [if_pos hid, if_pos hid, ← hid, hsome]
      rfl
    · rw [if_neg hid, if_neg hid]

/-- An id has an entry if an item has it, and then the items with that id. -/
theorem lookup_reports (items : List ReportItem) (id : Nat) :
    (items.foldl addItem []).lookup id =
      if ∃ item ∈ items, item.reportId = id then some (kindsOf id items) else none := by
  induction items using List.reverseRecOn with
  | nil => rfl
  | append_singleton items item ih =>
      rw [List.foldl_append, List.foldl_cons, List.foldl_nil, lookup_addItem, ih, kindsOf_concat]
      by_cases hid : item.reportId = id
      · have hsome : ∃ other ∈ items ++ [item], other.reportId = id :=
          ⟨item, List.mem_append_right _ (List.mem_singleton_self _), hid⟩
        rw [if_pos hid, if_pos hsome, if_pos hid]
        by_cases hbefore : ∃ other ∈ items, other.reportId = id
        · rw [if_pos hbefore, Option.getD_some]
        · rw [if_neg hbefore, Option.getD_none]
          have hnone (kind : MainKind) :
              items.filter (fun other => other.reportId == id && other.kind == kind) = [] := by
            refine List.filter_eq_nil_iff.mpr fun other hother heq => hbefore ⟨other, hother, ?_⟩
            exact of_decide_eq_true (Bool.and_eq_true_iff.mp heq).1
          simp only [kindsOf, hnone]
      · rw [if_neg hid, if_neg hid]
        have hiff : (∃ other ∈ items ++ [item], other.reportId = id) ↔
            ∃ other ∈ items, other.reportId = id := by
          simp only [List.mem_append, List.mem_singleton]
          constructor
          · rintro ⟨other, hother | rfl, hsame⟩
            · exact ⟨other, hother, hsame⟩
            · exact absurd hsame hid
          · rintro ⟨other, hother, hsame⟩
            exact ⟨other, .inl hother, hsame⟩
        by_cases hbefore : ∃ other ∈ items, other.reportId = id
        · rw [if_pos hbefore, if_pos (hiff.mpr hbefore)]
        · rw [if_neg hbefore, if_neg (mt hiff.mp hbefore)]

theorem assertVendorKinds_iff (report : ReportKinds) (kinds : List (MainKind × Nat)) :
    assertVendorKinds report kinds = .ok () ↔
      ∀ expected ∈ kinds, ∃ item ∈ report.ofKind expected.1,
        isVendorItem expected.2 item = true := by
  induction kinds with
  | nil => exact ⟨fun _ _ hnone => absurd hnone List.not_mem_nil, fun _ => rfl⟩
  | cons expected kinds ih =>
      obtain ⟨kind, expectedUsage⟩ := expected
      rw [assertVendorKinds, List.forall_mem_cons, ← ih]
      cases hfind : (report.ofKind kind).find? (isVendorItem expectedUsage) with
      | none =>
          rw [List.find?_eq_none] at hfind
          constructor
          · intro herror
            cases herror
          · rintro ⟨⟨item, hitem, hvendor⟩, -⟩
            exact absurd hvendor (hfind item hitem)
      | some item =>
          exact ⟨fun hrest => ⟨⟨item, List.mem_of_find?_eq_some hfind,
            List.find?_some hfind⟩, hrest⟩, fun hboth => hboth.2⟩

theorem reports_of_inspect {descriptor : Option (List UInt8)} {inspection : Inspection}
    (h : inspectReportDescriptor descriptor = .ok inspection) :
    inspection.reports = inspection.items.foldl addItem [] := by
  cases descriptor with
  | none => cases h
  | some bytes =>
      rw [inspectReportDescriptor] at h
      cases hrun : inspectTurns bytes (bytes.length + 1) 0 .start with
      | error error =>
          rw [hrun] at h
          cases h
      | ok state =>
          rw [hrun] at h
          obtain rfl := Except.ok.inj h
          rfl

/-- What the assertion accepts: for each of the three kinds, an item of Report ID 6 with 63
bytes and the expected usage. -/
theorem assert_eq_ok_iff (descriptor : Option (List UInt8)) (inspection : Inspection) :
    assertCodexMicroVendorReport descriptor = .ok inspection ↔
      inspectReportDescriptor descriptor = .ok inspection ∧
        ∀ expected ∈ vendorKinds, ∃ item ∈ inspection.items,
          item.reportId = 6 ∧ item.kind = expected.1 ∧ isVendorItem expected.2 item = true := by
  rw [assertCodexMicroVendorReport]
  cases hinspect : inspectReportDescriptor descriptor with
  | error error =>
      constructor
      · intro herror
        cases herror
      · rintro ⟨hok, -⟩
        cases hok
  | ok other =>
      have hlookup := lookup_reports other.items 6
      rw [← reports_of_inspect hinspect] at hlookup
      have hkinds : (∀ expected ∈ vendorKinds, ∃ item ∈ (kindsOf 6 other.items).ofKind expected.1,
            isVendorItem expected.2 item = true) ↔
          ∀ expected ∈ vendorKinds, ∃ item ∈ other.items,
            item.reportId = 6 ∧ item.kind = expected.1 ∧
              isVendorItem expected.2 item = true := by
        simp only [ofKind_kindsOf, List.mem_filter, Bool.and_eq_true, beq_iff_eq, and_assoc]
      show (match other.reports.lookup 6 with
        | none => Except.error _
        | some report =>
            match assertVendorKinds report vendorKinds with
            | .error error => .error error
            | .ok _ => .ok other) = .ok inspection ↔ _
      rw [hlookup]
      by_cases hsome : ∃ item ∈ other.items, item.reportId = 6
      · rw [if_pos hsome]
        have hiff := assertVendorKinds_iff (kindsOf 6 other.items) vendorKinds
        rw [hkinds] at hiff
        show (match assertVendorKinds (kindsOf 6 other.items) vendorKinds with
          | .error error => Except.error error
          | .ok _ => .ok other) = .ok inspection ↔ _
        cases hassert : assertVendorKinds (kindsOf 6 other.items) vendorKinds with
        | error error =>
            rw [hassert] at hiff
            constructor
            · intro herror
              cases herror
            · rintro ⟨hok, hall⟩
              obtain rfl := Except.ok.inj hok
              cases hiff.mpr hall
        | ok done =>
            rw [hassert] at hiff
            constructor
            · intro hok
              obtain rfl := Except.ok.inj hok
              exact ⟨rfl, hiff.mp rfl⟩
            · exact fun hboth => hboth.1
      · rw [if_neg hsome]
        constructor
        · intro herror
          cases herror
        · rintro ⟨hok, hall⟩
          obtain rfl := Except.ok.inj hok
          obtain ⟨item, hitem, hid, -⟩ := hall (.input, 0x02) (List.mem_cons_self ..)
          exact absurd ⟨item, hitem, hid⟩ hsome

/-! ## The descriptors -/

/-- `CODEX_MICRO_REPORT_DESCRIPTOR`, as it was captured on BLE. -/
def codexMicroReportDescriptor : List UInt8 :=
  [0x05, 0x01, 0x09, 0x06, 0xa1, 0x01, 0x85, 0x01, 0x05, 0x07, 0x19, 0xe0, 0x29, 0xe7, 0x15, 0x00,
   0x25, 0x01, 0x75, 0x01, 0x95, 0x08, 0x81, 0x02, 0x95, 0x01, 0x75, 0x08, 0x81, 0x01, 0x95, 0x05,
   0x75, 0x01, 0x05, 0x08, 0x19, 0x01, 0x29, 0x05, 0x91, 0x02, 0x95, 0x01, 0x75, 0x03, 0x91, 0x01,
   0x95, 0x06, 0x75, 0x08, 0x15, 0x00, 0x25, 0xa4, 0x05, 0x07, 0x19, 0x00, 0x29, 0xa4, 0x81, 0x00,
   0xc0, 0x05, 0x0c, 0x09, 0x01, 0xa1, 0x01, 0x85, 0x02, 0x75, 0x10, 0x95, 0x01, 0x15, 0x00, 0x26,
   0xff, 0x07, 0x19, 0x00, 0x2a, 0xff, 0x07, 0x81, 0x00, 0xc0, 0x09, 0x02, 0xa1, 0x01, 0x85, 0x03,
   0x09, 0x01, 0xa1, 0x00, 0x05, 0x09, 0x19, 0x01, 0x29, 0x05, 0x15, 0x00, 0x25, 0x01, 0x95, 0x05,
   0x75, 0x01, 0x81, 0x02, 0x95, 0x01, 0x75, 0x03, 0x81, 0x01, 0x05, 0x01, 0x09, 0x30, 0x09, 0x31,
   0x15, 0x81, 0x25, 0x7f, 0x95, 0x02, 0x75, 0x08, 0x81, 0x06, 0x09, 0x38, 0x15, 0x81, 0x25, 0x7f,
   0x95, 0x01, 0x75, 0x08, 0x81, 0x06, 0x05, 0x0c, 0x0a, 0x38, 0x02, 0x15, 0x81, 0x25, 0x7f, 0x95,
   0x01, 0x75, 0x08, 0x81, 0x06, 0xc0, 0xc0, 0x06, 0x00, 0xff, 0x09, 0x01, 0xa1, 0x01, 0x85, 0x06,
   0x09, 0x02, 0x15, 0x00, 0x26, 0xff, 0x00, 0x75, 0x08, 0x95, 0x3f, 0x81, 0x02, 0x09, 0x03, 0x15,
   0x00, 0x26, 0xff, 0x00, 0x75, 0x08, 0x95, 0x3f, 0x91, 0x02, 0x09, 0x04, 0x15, 0x00, 0x26, 0xff,
   0x00, 0x75, 0x08, 0x95, 0x3f, 0xb1, 0x02, 0xc0]

/-- `CODEX_MICRO_USB_REPORT_DESCRIPTOR`, which is `codex_micro_report_descriptor` of the
firmware too. -/
def codexMicroUsbReportDescriptor : List UInt8 :=
  [0x06, 0x00, 0xff, 0x09, 0x01, 0xa1, 0x01, 0x85, 0x06, 0x09, 0x02, 0x15, 0x00, 0x26, 0xff, 0x00,
   0x75, 0x08, 0x95, 0x3f, 0x81, 0x02, 0x09, 0x03, 0x15, 0x00, 0x26, 0xff, 0x00, 0x75, 0x08, 0x95,
   0x3f, 0x91, 0x02, 0x09, 0x04, 0x15, 0x00, 0x26, 0xff, 0x00, 0x75, 0x08, 0x95, 0x3f, 0xb1, 0x02,
   0xc0]

/-- `keyboard_report_descriptor` of the firmware. -/
def keyboardReportDescriptor : List UInt8 :=
  [0x05, 0x01, 0x09, 0x06, 0xa1, 0x01, 0x85, 0x01, 0x05, 0x07, 0x19, 0xe0, 0x29, 0xe7, 0x15, 0x00,
   0x25, 0x01, 0x75, 0x01, 0x95, 0x08, 0x81, 0x02, 0x95, 0x01, 0x75, 0x08, 0x81, 0x01, 0x95, 0x05,
   0x75, 0x01, 0x05, 0x08, 0x19, 0x01, 0x29, 0x05, 0x91, 0x02, 0x95, 0x01, 0x75, 0x03, 0x91, 0x01,
   0x95, 0x06, 0x75, 0x08, 0x15, 0x00, 0x25, 0xa4, 0x05, 0x07, 0x19, 0x00, 0x29, 0xa4, 0x81, 0x00,
   0xc0, 0x05, 0x0c, 0x09, 0x01, 0xa1, 0x01, 0x85, 0x02, 0x75, 0x10, 0x95, 0x01, 0x15, 0x00, 0x26,
   0xff, 0x07, 0x19, 0x00, 0x2a, 0xff, 0x07, 0x81, 0x00, 0xc0, 0x09, 0x02, 0xa1, 0x01, 0x85, 0x03,
   0x09, 0x01, 0xa1, 0x00, 0x05, 0x09, 0x19, 0x01, 0x29, 0x05, 0x15, 0x00, 0x25, 0x01, 0x95, 0x05,
   0x75, 0x01, 0x81, 0x02, 0x95, 0x01, 0x75, 0x03, 0x81, 0x01, 0x05, 0x01, 0x09, 0x30, 0x09, 0x31,
   0x15, 0x81, 0x25, 0x7f, 0x95, 0x02, 0x75, 0x08, 0x81, 0x06, 0x09, 0x38, 0x15, 0x81, 0x25, 0x7f,
   0x95, 0x01, 0x75, 0x08, 0x81, 0x06, 0x05, 0x0c, 0x0a, 0x38, 0x02, 0x15, 0x81, 0x25, 0x7f, 0x95,
   0x01, 0x75, 0x08, 0x81, 0x06, 0xc0, 0xc0]

/-- The firmware declares on two interfaces what was captured on one. -/
theorem codexMicroReportDescriptor_eq :
    codexMicroReportDescriptor = keyboardReportDescriptor ++ codexMicroUsbReportDescriptor := by
  decide +kernel

/-- What the vendor collection declares, from a place on. -/
def vendorItems (offset : Nat) : List ReportItem :=
  [⟨.input, 6, 0xff00, some 2, 8, 63, 504, 2, offset + 20⟩,
    ⟨.output, 6, 0xff00, some 3, 8, 63, 504, 2, offset + 33⟩,
    ⟨.feature, 6, 0xff00, some 4, 8, 63, 504, 2, offset + 46⟩]

section

variable (state : InspectorState) (offset value : Nat)

theorem take_usagePage :
    state.take offset 0x06 value = { state with usagePage := value } := rfl

theorem take_reportSize :
    state.take offset 0x75 value = { state with reportSize := value } := rfl

theorem take_reportId : state.take offset 0x85 value = { state with reportId := value } := rfl

theorem take_reportCount :
    state.take offset 0x95 value = { state with reportCount := value } := rfl

theorem take_logicalMinimum : state.take offset 0x15 value = state := rfl

theorem take_logicalMaximum : state.take offset 0x26 value = state := rfl

theorem take_usage :
    state.take offset 0x09 value = { state with usages := state.usages ++ [value] } := rfl

theorem take_collection : state.take offset 0xa1 value =
    { state with items := state.items ++ [], usages := [] } := rfl

theorem take_endCollection : state.take offset 0xc0 value =
    { state with items := state.items ++ [], usages := [] } := rfl

theorem take_input : state.take offset 0x81 value =
    { state with items := state.items ++ [state.declared offset value .input], usages := [] } := rfl

theorem take_output : state.take offset 0x91 value =
    { state with items := state.items ++ [state.declared offset value .output], usages := [] } :=
  rfl

theorem take_feature : state.take offset 0xb1 value =
    { state with items := state.items ++ [state.declared offset value .feature], usages := [] } :=
  rfl

end

/-- The vendor collection sets all that its main items use, so they do not depend on what
comes before. -/
theorem exists_vendorItems :
    ∃ items, codexMicroUsbReportDescriptor = hidItems.encodeAll items ∧
      ∀ offset state, (interpret offset state items).items =
        state.items ++ vendorItems offset := by
  refine ⟨[.short 0x06 [0x00, 0xff] (by decide) rfl, .short 0x09 [0x01] (by decide) rfl,
    .short 0xa1 [0x01] (by decide) rfl, .short 0x85 [0x06] (by decide) rfl,
    .short 0x09 [0x02] (by decide) rfl, .short 0x15 [0x00] (by decide) rfl,
    .short 0x26 [0xff, 0x00] (by decide) rfl, .short 0x75 [0x08] (by decide) rfl,
    .short 0x95 [0x3f] (by decide) rfl, .short 0x81 [0x02] (by decide) rfl,
    .short 0x09 [0x03] (by decide) rfl, .short 0x15 [0x00] (by decide) rfl,
    .short 0x26 [0xff, 0x00] (by decide) rfl, .short 0x75 [0x08] (by decide) rfl,
    .short 0x95 [0x3f] (by decide) rfl, .short 0x91 [0x02] (by decide) rfl,
    .short 0x09 [0x04] (by decide) rfl, .short 0x15 [0x00] (by decide) rfl,
    .short 0x26 [0xff, 0x00] (by decide) rfl, .short 0x75 [0x08] (by decide) rfl,
    .short 0x95 [0x3f] (by decide) rfl, .short 0xb1 [0x02] (by decide) rfl,
    .short 0xc0 [] (by decide) rfl], rfl, fun offset state => ?_⟩
  simp only [interpret, HidItem.apply, take_usagePage, take_usage, take_collection,
    take_endCollection, take_reportId, take_logicalMinimum, take_logicalMaximum, take_reportSize,
    take_reportCount, take_input, take_output, take_feature, List.nil_append, List.append_nil,
    List.append_assoc, InspectorState.declared, HidItem.encode, List.length_cons, List.length_nil,
    Nat.add_assoc, Nat.reduceAdd]
  rfl

theorem interpret_append (offset : Nat) (state : InspectorState) (first second : List HidItem) :
    interpret offset state (first ++ second) =
      interpret (offset + (hidItems.encodeAll first).length) (interpret offset state first)
        second := by
  induction first generalizing offset state with
  | nil => rfl
  | cons item first ih =>
      rw [List.cons_append, interpret, interpret, ih, ItemCode.encodeAll_cons, List.length_append,
        Nat.add_assoc]
      rfl

theorem inspect_encodeAll (items : List HidItem) :
    inspectReportDescriptor (some (hidItems.encodeAll items)) =
      .ok (.ofItems (hidItems.encodeAll items).length (interpret 0 .start items).items) := by
  have hrun := inspectTurns_split (List.append_nil (hidItems.encodeAll items)).symm (.inl rfl)
  rw [inspectReportDescriptor, hrun, if_pos rfl]
  rfl

/-- Behind any descriptor that is accepted, the vendor collection of the firmware is recognised,
and declares its three reports of 63 bytes; what comes before keeps what it declares.  What was
captured is the keyboard with that collection behind it. -/
theorem assertCodexMicroVendorReport_append {front : List UInt8} {inspection : Inspection}
    (h : inspectReportDescriptor (some front) = .ok inspection) :
    (∃ whole, assertCodexMicroVendorReport (some (front ++ codexMicroUsbReportDescriptor)) =
        .ok whole ∧
      whole.byteLength = inspection.byteLength + 49 ∧
      whole.items = inspection.items ++ vendorItems front.length) ∧
    codexMicroReportDescriptor = keyboardReportDescriptor ++ codexMicroUsbReportDescriptor := by
  refine ⟨?_, codexMicroReportDescriptor_eq⟩
  obtain ⟨items, rest, hfront, hrest⟩ := ItemCode.exists_encodeAll hidItems_total front
  have hrun := inspectTurns_split hfront hrest
  rw [inspectReportDescriptor, hrun] at h
  rcases hrest with rfl | hcut
  · rw [if_pos rfl] at h
    obtain rfl := Except.ok.inj h
    rw [List.append_nil] at hfront
    obtain ⟨vendor, hvendor, hdeclared⟩ := exists_vendorItems
    have hwhole := inspect_encodeAll (items ++ vendor)
    rw [ItemCode.encodeAll_append, ← hfront, ← hvendor] at hwhole
    have hitems : (interpret 0 .start (items ++ vendor)).items =
        (interpret 0 .start items).items ++ vendorItems front.length := by
      rw [interpret_append, hdeclared, Nat.zero_add, ← hfront]
    rw [hitems] at hwhole
    refine ⟨_, (assert_eq_ok_iff _ _).mpr ⟨hwhole, ?_⟩, List.length_append, rfl⟩
    have hmem {item : ReportItem} (hitem : item ∈ vendorItems front.length) :
        item ∈ (interpret 0 .start items).items ++ vendorItems front.length :=
      List.mem_append_right _ hitem
    refine List.forall_mem_cons.mpr ⟨?_, List.forall_mem_cons.mpr ⟨?_,
      List.forall_mem_singleton.mpr ?_⟩⟩
    · exact ⟨_, hmem (List.mem_cons_self ..), rfl, rfl, rfl⟩
    · exact ⟨_, hmem (List.mem_cons_of_mem _ (List.mem_cons_self ..)), rfl, rfl, rfl⟩
    · exact ⟨_, hmem (List.mem_cons_of_mem _ (List.mem_cons_of_mem _ (List.mem_cons_self ..))),
        rfl, rfl, rfl⟩
  · rw [if_neg hcut.1] at h
    cases h

/-- The capture is recognised by the vendor collection at its end. -/
theorem assertCodexMicroVendorReport_capture :
    ∃ keyboard whole, inspectReportDescriptor (some keyboardReportDescriptor) = .ok keyboard ∧
      assertCodexMicroVendorReport (some codexMicroReportDescriptor) = .ok whole ∧
      whole.byteLength = keyboard.byteLength + 49 ∧
      whole.items = keyboard.items ++ vendorItems 167 := by
  cases hkeyboard : inspectReportDescriptor (some keyboardReportDescriptor) with
  | error error =>
      have hok : (inspectReportDescriptor (some keyboardReportDescriptor)).isOk = true := by
        decide +kernel
      rw [hkeyboard] at hok
      cases hok
  | ok keyboard =>
      obtain ⟨⟨whole, hwhole, hlength, hitems⟩, hcapture⟩ :=
        assertCodexMicroVendorReport_append hkeyboard
      rw [← hcapture] at hwhole
      exact ⟨keyboard, whole, rfl, hwhole, hlength, hitems⟩

end Protocol
end MicroEmu
