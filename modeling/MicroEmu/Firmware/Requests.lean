import MicroEmu.Firmware.Status

/-!
# Requests for `device.status`

The firmware does not parse a request: it looks for the name of the method anywhere in the
chunk, and takes the digits behind the first key `id`.
-/

namespace MicroEmu
namespace Firmware

open Library (Block)

/-! ## The chunk of a report -/

/-- The report carries a text as its chunk. -/
def Carries (report : Report) (text : List UInt8) : Prop :=
  ∃ first second padding,
    report.cells = first :: second :: UInt8.ofNat text.length :: (text ++ padding)

theorem Carries.length_le {report : Report} {text : List UInt8} (h : Carries report text) :
    text.length ≤ 61 := by
  obtain ⟨first, second, padding, hcells⟩ := h
  have hlength := congrArg List.length hcells
  rw [report.length_cells] at hlength
  simp only [codexReportWireBytes, List.length_cons, List.length_append] at hlength
  omega

theorem Carries.load_length {report : Report} {text : List UInt8} (h : Carries report text) :
    report.load 2 = some (UInt8.ofNat text.length) ∧
      (UInt8.ofNat text.length).toNat = text.length := by
  have hsmall := h.length_le
  obtain ⟨first, second, padding, hcells⟩ := h
  refine ⟨?_, ?_⟩
  · rw [Block.load, hcells]
    rfl
  · rw [UInt8.toNat_ofNat']
    exact Nat.mod_eq_of_lt (Nat.lt_of_le_of_lt hsmall (by decide))

theorem Carries.slice {report : Report} {text : List UInt8} (h : Carries report text)
    {index count : Nat} (hwithin : index + count ≤ text.length) :
    report.slice (3 + index) count = some ((text.drop index).take count) := by
  have hsmall := h.length_le
  obtain ⟨first, second, padding, hcells⟩ := h
  have hdrop : report.cells.drop (3 + index) = text.drop index ++ padding := by
    rw [← List.drop_drop, hcells]
    exact List.drop_append_of_le_length (Nat.le_of_add_right_le hwithin)
  rw [report.slice_eq (show 3 + index + count ≤ 64 by omega), hdrop,
    List.take_append_of_le_length]
  rw [List.length_drop]
  omega

theorem Carries.load {report : Report} {text : List UInt8} (h : Carries report text)
    {index : Nat} {byte : UInt8} {rest : List UInt8} (hrest : text.drop index = byte :: rest) :
    report.load (3 + index) = some byte := by
  obtain ⟨first, second, padding, hcells⟩ := h
  have hlookup := congrArg List.head? hrest
  rw [List.head?_drop] at hlookup
  obtain ⟨hindex, -⟩ := List.getElem?_eq_some_iff.mp hlookup
  rw [Block.load, hcells, Nat.add_comm 3 index]
  show (text ++ padding)[index]? = _
  rw [List.getElem?_append_left hindex]
  exact hlookup

/-- Every report whose chunk is not too long carries it. -/
theorem exists_carries {report : Report} {length : UInt8} (h : report.load 2 = some length)
    (hlength : length.toNat ≤ 61) : ∃ text, Carries report text ∧ text.length = length.toNat := by
  obtain ⟨first, second, third, rest, hcells⟩ : ∃ first second third rest,
      report.cells = first :: second :: third :: rest := by
    have hwire := report.length_cells
    rcases hcells : report.cells with _ | ⟨first, _ | ⟨second, _ | ⟨third, rest⟩⟩⟩
    · rw [hcells] at hwire; cases hwire
    · rw [hcells] at hwire; cases hwire
    · rw [hcells] at hwire; cases hwire
    · exact ⟨first, second, third, rest, rfl⟩
  obtain rfl : third = length := by
    rw [Block.load, hcells] at h
    exact Option.some.inj h
  have hrest : rest.length = 61 := by
    have hwire := report.length_cells
    rw [hcells] at hwire
    exact Nat.succ.inj (Nat.succ.inj (Nat.succ.inj hwire))
  have htext : (rest.take third.toNat).length = third.toNat := by
    rw [List.length_take, hrest]
    exact Nat.min_eq_left hlength
  refine ⟨rest.take third.toNat, ⟨first, second, rest.drop third.toNat, ?_⟩, htext⟩
  rw [htext, UInt8.ofNat_toNat, List.take_append_drop, hcells]

/-! ## The method -/

/-- The name that the firmware looks for. -/
def deviceStatus : List UInt8 := textBytes "device.status"

theorem containsTurns_eq {report : Report} {text needle : List UInt8} (h : Carries report text)
    (hneedle : needle ≠ []) {turns index : Nat} (hindex : index ≤ text.length)
    (hturns : text.length < turns + index) :
    containsTurns report needle text.length turns (3 + index) =
      some (decide (needle <:+: text.drop index)) := by
  have hpositive := List.length_pos_iff.mpr hneedle
  induction turns generalizing index with
  | zero => omega
  | succ turns ih =>
      rw [containsTurns]
      by_cases hroom : 3 + index + needle.length ≤ 3 + text.length
      · have hless : index < text.length := by omega
        have hcons := List.drop_eq_getElem_cons hless
        rw [if_pos hroom, h.slice (by omega), Option.bind_eq_bind, Option.bind_some]
        by_cases hfound : (text.drop index).take needle.length = needle
        · have hwithin : needle <:+: text.drop index := by
            rw [← hfound]
            exact (List.take_prefix _ _).isInfix
          -- found here, it is found anywhere
          rw [if_pos hfound, decide_eq_true hwithin]
        · have hfront : ¬ needle <+: text.drop index :=
            fun hstart => hfound (List.prefix_iff_eq_take.mp hstart).symm
          have hlater : needle <:+: text.drop index ↔ needle <:+: text.drop (index + 1) := by
            rw [hcons, List.infix_cons_iff, ← hcons]
            exact ⟨fun hor => hor.resolve_left hfront, .inr⟩
          rw [if_neg hfound, Nat.add_assoc, ih hless (by omega), decide_eq_decide.mpr hlater]
      · have hshort : ¬ needle <:+: text.drop index := by
          intro hwithin
          have hlength := hwithin.length_le
          rw [List.length_drop] at hlength
          omega
        rw [if_neg hroom, decide_eq_false hshort]

/-- The scan finds a text anywhere in a chunk of at most 60 bytes. -/
theorem codexPayloadContains_eq {report : Report} {text needle : List UInt8}
    (h : Carries report text) (hneedle : needle ≠ []) :
    codexPayloadContains report needle =
      some (decide (text.length ≤ 60 ∧ needle <:+: text)) := by
  obtain ⟨hload, hlength⟩ := h.load_length
  rw [codexPayloadContains, hload, Option.bind_eq_bind, Option.bind_some, hlength]
  -- the bound is one below what a report can carry
  by_cases hlong : text.length > codexReportPayloadBytes - 3
  · rw [if_pos hlong, decide_eq_false fun hand => absurd hand.1 (Nat.not_le.mpr hlong)]
  · have hfits : text.length ≤ 60 := Nat.not_lt.mp hlong
    rw [if_neg hlong]
    by_cases hshort : text.length < needle.length
    · rw [if_pos hshort, decide_eq_false fun hand =>
        absurd hand.2.length_le (Nat.not_le.mpr hshort)]
    · rw [if_neg hshort, ← Nat.add_zero 3,
        containsTurns_eq h hneedle (Nat.zero_le _) (by omega), List.drop_zero]
      exact congrArg some
        (decide_eq_decide.mpr ⟨fun hwithin => ⟨hfits, hwithin⟩, fun hand => hand.2⟩)

/-! ## The id -/

/-- What stands behind the first place of a key. -/
def behind (key : List UInt8) : List UInt8 → Option (List UInt8)
  | [] => none
  | byte :: rest =>
      if key.isPrefixOf (byte :: rest) then some ((byte :: rest).drop key.length)
      else behind key rest

/-- The number that a text states: the digits behind the first key `id` and any spaces, or
one where there is no such key. -/
def statedId (text : List UInt8) : Nat :=
  match behind idKey text with
  | none => 1
  | some rest => digitsValue 0 ((rest.dropWhile (· == 0x20)).takeWhile isDigit)

theorem behind_eq_none_of_short {key text : List UInt8} (h : text.length < key.length) :
    behind key text = none := by
  induction text with
  | nil => rfl
  | cons byte rest ih =>
      have hfront : ¬ key.isPrefixOf (byte :: rest) = true := fun hstart =>
        absurd (List.isPrefixOf_iff_prefix.mp hstart).length_le (Nat.not_le.mpr h)
      rw [behind, if_neg hfront]
      exact ih (Nat.lt_of_succ_lt h)

theorem skipSpaces_eq {report : Report} {text : List UInt8} (h : Carries report text)
    {turns index : Nat} (hindex : index ≤ text.length) (hturns : text.length < turns + index) :
    ∃ last, skipSpaces report text.length turns index = some last ∧ last ≤ text.length ∧
      text.drop last = (text.drop index).dropWhile (· == 0x20) := by
  induction turns generalizing index with
  | zero => omega
  | succ turns ih =>
      rw [skipSpaces]
      by_cases hless : index < text.length
      · have hcons := List.drop_eq_getElem_cons hless
        rw [if_pos hless, h.load hcons, Option.bind_eq_bind, Option.bind_some]
        by_cases hspace : text[index] = 0x20
        · rw [if_pos hspace, hcons, hspace]
          exact ih hless (by omega)
        · rw [if_neg hspace, hcons, List.dropWhile_cons_of_neg (by simpa using hspace)]
          exact ⟨index, rfl, hindex, hcons⟩
      · obtain rfl : index = text.length := Nat.le_antisymm hindex (Nat.not_lt.mp hless)
        rw [if_neg hless, List.drop_length]
        exact ⟨_, rfl, hindex, List.drop_length⟩

theorem digitsValue_cons (value : Nat) (byte : UInt8) (digits : List UInt8) :
    digitsValue value (byte :: digits) =
      digitsValue (value * 10 + (byte.toNat - 0x30)) digits := by
  rw [digitsValue, List.foldl_cons, digitsValue]

theorem le_digitsValue (value : Nat) (digits : List UInt8) : value ≤ digitsValue value digits := by
  induction digits generalizing value with
  | nil => exact Nat.le_refl value
  | cons byte digits ih =>
      rw [digitsValue_cons]
      exact (show value ≤ value * 10 + (byte.toNat - 0x30) by omega).trans (ih _)

/-- The digits are read as far as their value fits an `int`. -/
theorem readDigits_eq {report : Report} {text : List UInt8} (h : Carries report text)
    {turns index value : Nat} (hindex : index ≤ text.length)
    (hturns : text.length < turns + index) (hvalue : value ≤ intMax) :
    readDigits report text.length turns index value =
      if digitsValue value ((text.drop index).takeWhile isDigit) ≤ intMax then
        some (digitsValue value ((text.drop index).takeWhile isDigit))
      else none := by
  induction turns generalizing index value with
  | zero => omega
  | succ turns ih =>
      rw [readDigits]
      by_cases hless : index < text.length
      · have hcons := List.drop_eq_getElem_cons hless
        rw [if_pos hless, h.load hcons, hcons, Option.bind_eq_bind, Option.bind_some]
        by_cases hdigit : isDigit text[index] = true
        · simp only [if_pos hdigit, List.takeWhile_cons_of_pos hdigit, digitsValue_cons]
          -- once too large, the value does not become smaller
          by_cases hlarge : value * 10 + (text[index].toNat - 0x30) > intMax
          · have hmore := le_digitsValue (value * 10 + (text[index].toNat - 0x30))
              ((text.drop (index + 1)).takeWhile isDigit)
            rw [if_pos hlarge, if_neg (Nat.not_le.mpr (Nat.lt_of_lt_of_le hlarge hmore))]
          · rw [if_neg hlarge, ih hless (by omega) (Nat.not_lt.mp hlarge)]
        · rw [if_neg hdigit, List.takeWhile_cons_of_neg hdigit, digitsValue, List.foldl_nil,
            if_pos hvalue]
      · obtain rfl : index = text.length := Nat.le_antisymm hindex (Nat.not_lt.mp hless)
        rw [if_neg hless, List.drop_length, List.takeWhile_nil, digitsValue, List.foldl_nil,
          if_pos hvalue]

theorem parseIdTurns_eq {report : Report} {text : List UInt8} (h : Carries report text)
    {turns index : Nat} (hindex : index ≤ text.length) (hturns : text.length < turns + index) :
    parseIdTurns report text.length turns index =
      if statedId (text.drop index) ≤ intMax then some (statedId (text.drop index)) else none := by
  have hkey : idKey.length = 5 := rfl
  induction turns generalizing index with
  | zero => omega
  | succ turns ih =>
      rw [parseIdTurns]
      by_cases hroom : index + 4 < text.length
      · have hcons := List.drop_eq_getElem_cons (show index < text.length by omega)
        rw [if_pos hroom, h.slice (by omega), Option.bind_eq_bind, Option.bind_some]
        by_cases hfound : (text.drop index).take 5 = idKey
        · have hfront : idKey.isPrefixOf (text.drop index) = true := by
            rw [List.isPrefixOf_iff_prefix, ← hfound]
            exact List.take_prefix _ _
          have hbehind : behind idKey (text.drop index) = some (text.drop (index + 5)) := by
            rw [hcons] at hfront ⊢
            rw [behind, if_pos hfront, ← hcons, List.drop_drop, hkey]
          obtain ⟨last, hskip, hlast, hdrop⟩ :=
            skipSpaces_eq h (show index + 5 ≤ text.length by omega)
              (show text.length < text.length + 1 + (index + 5) by omega)
          have hread := readDigits_eq h hlast (show text.length < text.length + 1 + last by omega)
            (Nat.zero_le intMax)
          rw [hdrop] at hread
          have hstated : statedId (text.drop index) = digitsValue 0
              (((text.drop (index + 5)).dropWhile (· == 0x20)).takeWhile isDigit) := by
            rw [statedId, hbehind]
          rw [if_pos hfound, hskip, Option.bind_eq_bind, Option.bind_some, hread, hstated]
        -- no key stands here, so the same is stated one byte further on
        · have hfront : ¬ idKey.isPrefixOf (text.drop index) = true := fun hstart =>
            hfound (List.prefix_iff_eq_take.mp (List.isPrefixOf_iff_prefix.mp hstart)).symm
          have hbehind : behind idKey (text.drop index) = behind idKey (text.drop (index + 1)) := by
            rw [hcons] at hfront ⊢
            rw [behind, if_neg hfront]
          have hstated : statedId (text.drop index) = statedId (text.drop (index + 1)) := by
            rw [statedId, hbehind, statedId]
          rw [if_neg hfound, hstated]
          exact ih (by omega) (by omega)
      · have hbehind : behind idKey (text.drop index) = none := by
          refine behind_eq_none_of_short ?_
          rw [List.length_drop, hkey]
          omega
        have hstated : statedId (text.drop index) = 1 := by rw [statedId, hbehind]
        rw [if_neg hroom, hstated, if_pos (show 1 ≤ intMax by decide)]

/-- The scan takes the number that the text states, if it fits an `int`. -/
theorem codexPayloadParseId_eq {report : Report} {text : List UInt8} (h : Carries report text) :
    codexPayloadParseId report =
      if statedId text ≤ intMax then some (statedId text) else none := by
  obtain ⟨hload, hlength⟩ := h.load_length
  have hparse := parseIdTurns_eq h (Nat.zero_le _) (show text.length < text.length + 1 + 0 by omega)
  rw [List.drop_zero] at hparse
  rw [codexPayloadParseId, hload, Option.bind_eq_bind, Option.bind_some, hlength, hparse]

end Firmware
end MicroEmu
