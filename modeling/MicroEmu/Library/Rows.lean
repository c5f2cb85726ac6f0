import Mathlib.Data.List.Induction

/-!
# Rows that are dealt out

A row of places is cut into blocks of one length, one block for each member of a list; the last
member also takes what is left over.  Single places may be written again afterwards, and the last
write of a place counts.
-/

namespace MicroEmu
namespace Library

universe u v

variable {α : Type u} {β : Type v}

/-! ## Blocks -/

/-- Write one value to the places from `start` up to `stop`. -/
def fillRange (start stop : Nat) (value : α) (row : List α) : List α :=
  row.mapIdx fun place old => if start ≤ place ∧ place < stop then value else old

/-- Deal a row of the length out to the members. -/
def dealRow (give : β → α) (length : Nat) (members : List β) (row : List α) : List α :=
  let block := length / members.length
  members.zipIdx.foldl (fun row entry =>
    let stop := if entry.2 + 1 = members.length then length else (entry.2 + 1) * block
    fillRange (entry.2 * block) stop (give entry.1) row) row

/-- The member that gets a place. -/
def blockOf (length count place : Nat) : Nat :=
  if place < (count - 1) * (length / count) then place / (length / count) else count - 1

theorem getElem?_fillRange (start stop : Nat) (value : α) (row : List α) (place : Nat) :
    (fillRange start stop value row)[place]? =
      row[place]?.map fun old => if start ≤ place ∧ place < stop then value else old := by
  simp [fillRange]

/-- What the members before the last one have taken. -/
theorem getElem?_foldl_take (give : β → α) (block : Nat) (stop : Nat → Nat) (members : List β)
    (row : List α) {count : Nat} (hcount : count ≤ members.length)
    (hstop : ∀ index < count, stop index = (index + 1) * block) (place : Nat) :
    ((members.zipIdx.take count).foldl (fun row entry =>
        fillRange (entry.2 * block) (stop entry.2) (give entry.1) row) row)[place]? =
      if place < count * block then
        row[place]?.bind fun _ => members[place / block]?.map give
      else row[place]? := by
  induction count with
  | zero => simp
  | succ count ih =>
      have hindex : count < members.length := hcount
      have hentry : members.zipIdx[count]? = some (members[count], count) := by
        simp [List.getElem?_zipIdx, List.getElem?_eq_getElem hindex]
      rw [List.take_add_one, hentry, List.foldl_append]
      simp only [Option.toList_some, List.foldl_cons, List.foldl_nil]
      rw [getElem?_fillRange, ih (by omega) fun index hlt => hstop index (by omega),
        hstop count (by omega)]
      have hmul : (count + 1) * block = count * block + block := Nat.succ_mul count block
      by_cases hbefore : place < count * block
      · have hnot : ¬count * block ≤ place := by omega
        rw [if_pos hbefore, if_pos (by omega)]
        simp [hnot]
      · by_cases hhere : place < (count + 1) * block
        · have hdiv : place / block = count := by
            rw [Nat.div_eq_iff (by omega)]
            constructor
            · omega
            · omega
          rw [if_neg hbefore, if_pos hhere, hdiv, List.getElem?_eq_getElem hindex]
          cases row[place]? with
          | none => rfl
          | some old => simp [hhere, Nat.le_of_not_lt hbefore]
        · rw [if_neg hbefore, if_neg hhere]
          simp [hhere]

/-- Every place goes to the member of its block. -/
theorem getElem?_dealRow (give : β → α) {length : Nat} {members : List β} {row : List α}
    (hlength : row.length = length) (hmembers : members ≠ []) {place : Nat}
    (hplace : place < length) : (dealRow give length members row)[place]? =
      members[blockOf length members.length place]?.map give := by
  obtain ⟨count, hcount⟩ : ∃ count, members.length = count + 1 :=
    Nat.exists_eq_succ_of_ne_zero (by simpa using hmembers)
  have hindex : count < members.length := by omega
  have hrow : row[place]? = some row[place] := List.getElem?_eq_getElem (hlength ▸ hplace)
  have hlast : members.zipIdx = members.zipIdx.take count ++ [(members[count], count)] := by
    have hall : members.zipIdx.take (count + 1) = members.zipIdx :=
      List.take_of_length_le (by simp [hcount])
    conv_lhs => rw [← hall, List.take_add_one]
    simp [List.getElem?_zipIdx, List.getElem?_eq_getElem hindex]
  unfold dealRow
  simp only
  rw [hlast, List.foldl_append]
  simp only [List.foldl_cons, List.foldl_nil, hcount, if_true]
  rw [getElem?_fillRange, getElem?_foldl_take give (length / (count + 1))
    (fun index => if index + 1 = count + 1 then length else (index + 1) * (length / (count + 1)))
    members row (Nat.le_of_lt hindex) (fun index hlt => if_neg (by omega)) place, hrow]
  unfold blockOf
  simp only [Nat.add_sub_cancel]
  by_cases hbefore : place < count * (length / (count + 1))
  · have hnot : ¬count * (length / (count + 1)) ≤ place := by omega
    simp only [hbefore, if_true, Option.bind_some]
    cases members[place / (length / (count + 1))]? with
    | none => rfl
    | some member => simp [hnot]
  · simp [hbefore, Nat.le_of_not_lt hbefore, hplace, List.getElem?_eq_getElem hindex]

theorem blockOf_lt {length count place : Nat} (hcount : 0 < count) :
    blockOf length count place < count := by
  unfold blockOf
  split
  next hbefore =>
    have hdiv : place / (length / count) < count - 1 :=
      Nat.div_lt_of_lt_mul (by rwa [Nat.mul_comm] at hbefore)
    omega
  · omega

/-- With a place for each member, nobody is left out. -/
theorem exists_blockOf_eq {length count index : Nat} (hfits : count ≤ length)
    (hindex : index < count) : ∃ place < length, blockOf length count place = index := by
  have hpos : 0 < length / count := Nat.div_pos hfits (by omega)
  have hle : count * (length / count) ≤ length := Nat.mul_div_le length count
  refine ⟨index * (length / count), ?_, ?_⟩
  · have hlt : index * (length / count) < count * (length / count) :=
      Nat.mul_lt_mul_of_pos_right hindex hpos
    omega
  · unfold blockOf
    split
    · exact Nat.mul_div_cancel index hpos
    next hlast =>
      have hnot : ¬index < count - 1 := fun hlt =>
        hlast (Nat.mul_lt_mul_of_pos_right hlt hpos)
      omega

/-- The places of the first of several members. -/
theorem blockOf_eq_zero_iff {length count place : Nat} (hcount : 2 ≤ count) :
    blockOf length count place = 0 ↔ place < length / count := by
  unfold blockOf
  have hone : length / count ≤ (count - 1) * (length / count) :=
    Nat.le_mul_of_pos_left _ (by omega)
  split
  next hbefore =>
    have hpos : 0 < length / count := by
      rcases Nat.eq_zero_or_pos (length / count) with hzero | hpos
      · rw [hzero, Nat.mul_zero] at hbefore
        omega
      · exact hpos
    rw [Nat.div_eq_zero_iff]
    omega
  · omega

/-! ## Single places -/

/-- What has been written to a place last. -/
def lastWrite (writes : List (Nat × β)) (place : Nat) : Option β :=
  (writes.filter fun write => write.1 == place).getLast?.map Prod.snd

theorem lastWrite_append (writes : List (Nat × β)) (write : Nat × β) (place : Nat) :
    lastWrite (writes ++ [write]) place =
      if write.1 = place then some write.2 else lastWrite writes place := by
  unfold lastWrite
  rw [List.filter_append]
  by_cases hplace : write.1 = place
  · simp [hplace]
  · simp [hplace]

theorem length_foldl_set (give : β → α) (writes : List (Nat × β)) (row : List α) :
    (writes.foldl (fun row write => row.set write.1 (give write.2)) row).length = row.length := by
  induction writes generalizing row with
  | nil => rfl
  | cons write writes ih => rw [List.foldl_cons, ih, List.length_set]

/-- After the writes, a place has what has been written to it last. -/
theorem getElem?_foldl_set (give : β → α) (writes : List (Nat × β)) (row : List α)
    (place : Nat) : (writes.foldl (fun row write => row.set write.1 (give write.2)) row)[place]? =
      row[place]?.map fun old => ((lastWrite writes place).map give).getD old := by
  induction writes using List.reverseRecOn with
  | nil => simp [lastWrite]
  | append_singleton writes write ih =>
      rw [List.foldl_append, List.foldl_cons, List.foldl_nil, List.getElem?_set, ih,
        lastWrite_append, length_foldl_set]
      by_cases hplace : write.1 = place
      · subst hplace
        simp only [if_true]
        by_cases hlt : write.1 < row.length
        · simp [hlt]
        · simp [hlt]
      · simp [hplace]

end Library
end MicroEmu
