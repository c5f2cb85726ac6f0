import Mathlib.Data.List.Infix

/-!
# Numbered parts of a transfer

Something is sent in parts, each with its number and the last with a mark.  Who puts the
parts together starts anew at each first part, so a transfer that was given up leaves nothing
behind in the next one.
-/

namespace MicroEmu
namespace Library

universe u v

/-- A part of what is sent to a place. -/
structure Part (κ : Type u) (α : Type v) where
  place : κ
  number : Nat
  last : Bool
  data : List α
  deriving DecidableEq, Repr

/-- What has come of a transfer: its place, the number of the next part, and the data. -/
abbrev Unfinished (κ : Type u) (α : Type v) := Option (κ × Nat × List α)

variable {κ : Type u} {α : Type v}

/-- The parts of a transfer. -/
def partsOf (place : κ) (chunks : List (List α)) : List (Part κ α) :=
  chunks.zipIdx.map fun chunk =>
    ⟨place, chunk.2, decide (chunk.2 + 1 = chunks.length), chunk.1⟩

theorem length_partsOf (place : κ) (chunks : List (List α)) :
    (partsOf place chunks).length = chunks.length := by
  rw [partsOf, List.length_map, List.length_zipIdx]

theorem partsOf_concat (place : κ) (front : List (List α)) (last : List α) :
    partsOf place (front ++ [last]) =
      (front.zipIdx.map fun chunk => ⟨place, chunk.2, false, chunk.1⟩) ++
        [⟨place, front.length, true, last⟩] := by
  rw [partsOf, List.zipIdx_append, List.map_append, List.length_append, List.length_singleton]
  congr 1
  · refine List.map_congr_left fun chunk hchunk => ?_
    obtain ⟨index, hindex, rfl⟩ := List.getElem_of_mem hchunk
    rw [List.length_zipIdx] at hindex
    have hbefore : ¬ (index = front.length) := Nat.ne_of_lt hindex
    simp [hbefore]
  · simp

variable [DecidableEq κ]

/-- A part behind what has come before. -/
def join (unfinished : Unfinished κ α) (part : Part κ α) : Unfinished κ α :=
  if part.number = 0 then some (part.place, 1, part.data)
  else
    match unfinished with
    | none => none
    | some (place, number, data) =>
        if place = part.place ∧ number = part.number then
          some (place, number + 1, data ++ part.data)
        else none

/-- Put parts together: what has been finished, and what has not. -/
def assemble : Unfinished κ α → List (Part κ α) → List (κ × List α) × Unfinished κ α
  | unfinished, [] => ([], unfinished)
  | unfinished, part :: parts =>
      match join unfinished part with
      | none => assemble none parts
      | some (place, number, data) =>
          if part.last then
            let rest := assemble none parts
            ((place, data) :: rest.1, rest.2)
          else assemble (some (place, number, data)) parts

theorem assemble_append (unfinished : Unfinished κ α) (first second : List (Part κ α)) :
    assemble unfinished (first ++ second) =
      ((assemble unfinished first).1 ++ (assemble (assemble unfinished first).2 second).1,
        (assemble (assemble unfinished first).2 second).2) := by
  induction first generalizing unfinished with
  | nil => rfl
  | cons part first ih =>
      rw [List.cons_append]
      simp only [assemble]
      split
      · exact ih none
      · split
        · rw [ih none]
          rfl
        · exact ih _

theorem join_first (unfinished : Unfinished κ α) (place : κ) (last : Bool) (data : List α) :
    join unfinished ⟨place, 0, last, data⟩ = some (place, 1, data) := if_pos rfl

theorem join_next (place : κ) {number : Nat} (hnumber : number ≠ 0) (data chunk : List α)
    (last : Bool) :
    join (some (place, number, data)) ⟨place, number, last, chunk⟩ =
      some (place, number + 1, data ++ chunk) := by
  rw [join.eq_def]
  simp only [if_neg hnumber, and_self, if_true]

/-- Parts that follow on what has come and are not the last. -/
theorem assemble_more (place : κ) (chunks : List (List α)) (number : Nat) (data : List α)
    (hnumber : number ≠ 0) :
    assemble (some (place, number, data))
        ((chunks.zipIdx number).map fun chunk => ⟨place, chunk.2, false, chunk.1⟩) =
      ([], some (place, number + chunks.length, data ++ chunks.flatten)) := by
  induction chunks generalizing number data with
  | nil => simp [assemble]
  | cons chunk chunks ih =>
      rw [List.zipIdx_cons, List.map_cons, assemble, join_next place hnumber]
      simp only [Bool.false_eq_true, if_false]
      rw [ih (number + 1) (data ++ chunk) (Nat.succ_ne_zero number), List.flatten_cons,
        List.append_assoc, List.length_cons, Nat.add_assoc, Nat.add_comm 1]

/-- All but the last part of a transfer, whatever has come before. -/
theorem assemble_front (place : κ) {chunks : List (List α)} (hnonempty : chunks ≠ [])
    (unfinished : Unfinished κ α) :
    assemble unfinished (chunks.zipIdx.map fun chunk => ⟨place, chunk.2, false, chunk.1⟩) =
      ([], some (place, chunks.length, chunks.flatten)) := by
  obtain ⟨chunk, chunks, rfl⟩ := List.exists_cons_of_ne_nil hnonempty
  rw [List.zipIdx_cons, List.map_cons, assemble, join_first]
  simp only [Bool.false_eq_true, if_false]
  rw [assemble_more place chunks 1 chunk Nat.one_ne_zero, List.length_cons, List.flatten_cons,
    Nat.add_comm 1]

/-- A whole transfer is put together, whatever has come before. -/
theorem assemble_partsOf (place : κ) {chunks : List (List α)} (hnonempty : chunks ≠ [])
    (unfinished : Unfinished κ α) :
    assemble unfinished (partsOf place chunks) = ([(place, chunks.flatten)], none) := by
  obtain ⟨front, last, rfl⟩ := (List.eq_nil_or_concat' chunks).resolve_left hnonempty
  rw [partsOf_concat, assemble_append]
  by_cases hfront : front = []
  · subst hfront
    have hflat : ([] ++ [last]).flatten = last := by
      rw [List.nil_append, List.flatten_singleton]
    rw [List.zipIdx_nil, List.map_nil, assemble, List.length_nil, assemble, join_first, hflat]
    rfl
  · have hpositive := List.length_pos_iff.mpr hfront
    rw [assemble_front place hfront, assemble, join_next place (Nat.ne_of_gt hpositive),
      List.flatten_append, List.flatten_singleton]
    rfl

/-- A transfer that was given up before its last part finishes nothing. -/
theorem assemble_take_partsOf (place : κ) (chunks : List (List α)) {count : Nat}
    (hcount : count < chunks.length) (unfinished : Unfinished κ α) :
    (assemble unfinished ((partsOf place chunks).take count)).1 = [] := by
  have hnonempty : chunks ≠ [] := List.ne_nil_of_length_pos (Nat.zero_lt_of_lt hcount)
  obtain ⟨front, last, rfl⟩ := (List.eq_nil_or_concat' chunks).resolve_left hnonempty
  rw [List.length_append, List.length_singleton] at hcount
  have hfront : count ≤ front.length := Nat.le_of_lt_succ hcount
  rw [partsOf_concat, List.take_append_of_le_length
    (by rw [List.length_map, List.length_zipIdx]; exact hfront), ← List.map_take]
  by_cases hzero : count = 0
  · rw [hzero]
    rfl
  · have htaken : front.zipIdx.take count = (front.take count).zipIdx := by
      refine List.ext_getElem ?_ fun index _ _ => ?_
      · rw [List.length_take, List.length_zipIdx, List.length_zipIdx, List.length_take]
      · rw [List.getElem_take, List.getElem_zipIdx, List.getElem_zipIdx, List.getElem_take]
    have hsome : front.take count ≠ [] := by
      intro hnone
      have hlength := congrArg List.length hnone
      rw [List.length_take, Nat.min_eq_left hfront, List.length_nil] at hlength
      exact hzero hlength
    rw [htaken, assemble_front place hsome]

end Library
end MicroEmu
