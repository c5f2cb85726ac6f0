import Mathlib.Data.List.Basic

/-!
# Lists cut into chunks

`List.toChunks` cuts a list into chunks of a fixed size, of which only the last may be
shorter.
-/

namespace MicroEmu
namespace Library

universe u

variable {α : Type u} {size : Nat}

theorem toChunks_nil (size : Nat) : ([] : List α).toChunks size = [] := by
  cases size <;> rfl

theorem toChunks_cons (hsize : 0 < size) (value : α) (values : List α) :
    (value :: values).toChunks size = List.toChunks.go size values #[value] #[] := by
  cases size with
  | zero => exact absurd hsize (Nat.lt_irrefl 0)
  | succ size => rfl

/-- The loop fills the chunk it is at, and then goes on with the rest. -/
theorem toChunks_go_eq (hsize : 0 < size) (values : List α) (chunk : Array α)
    (chunks : Array (List α)) (hchunk : chunk.size ≤ size) :
    List.toChunks.go size values chunk chunks =
      chunks.toList ++ (chunk.toList ++ values.take (size - chunk.size)) ::
        (values.drop (size - chunk.size)).toChunks size := by
  induction values generalizing chunk chunks with
  | nil =>
      rw [List.toChunks.go, List.take_nil, List.drop_nil, toChunks_nil, List.append_nil,
        Array.toList_push]
  | cons value values ih =>
      rw [List.toChunks.go]
      by_cases hfull : chunk.size = size
      · have hnext (front : Array (List α)) := ih #[value] front hsize
        have hpush : (Array.mkEmpty size).push value = #[value] := rfl
        -- the chunk is full: it is put away, and the value starts the next one
        rw [if_pos (beq_iff_eq.mpr hfull), hpush, hnext, hfull, Nat.sub_self, List.take_zero,
          List.drop_zero, toChunks_cons hsize, hnext, Array.toList_push, List.append_assoc]
        rw [List.append_nil]
        rfl
      · have hless : chunk.size < size := Nat.lt_of_le_of_ne hchunk hfull
        have hroom : size - chunk.size = size - (chunk.size + 1) + 1 := by omega
        rw [if_neg (fun h => hfull (beq_iff_eq.mp h)), ih _ _ (by rwa [Array.size_push]),
          Array.size_push, Array.toList_push, hroom, List.take_succ_cons, List.drop_succ_cons,
          List.append_assoc]
        rfl

/-- The first chunk, and then the chunks of the rest. -/
theorem toChunks_eq (hsize : 0 < size) {values : List α} (h : values ≠ []) :
    values.toChunks size = values.take size :: (values.drop size).toChunks size := by
  cases values with
  | nil => exact absurd rfl h
  | cons value values =>
      obtain ⟨size, rfl⟩ := Nat.exists_eq_add_of_lt hsize
      rw [toChunks_cons hsize, toChunks_go_eq hsize values #[value] #[] hsize]
      simp

theorem flatten_toChunks (hsize : 0 < size) (values : List α) :
    (values.toChunks size).flatten = values := by
  induction hlength : values.length using Nat.strongRecOn generalizing values with
  | ind length ih =>
      subst hlength
      by_cases h : values = []
      · rw [h, toChunks_nil, List.flatten_nil]
      · have hshorter : (values.drop size).length < values.length := by
          have hpositive := List.length_pos_iff.mpr h
          rw [List.length_drop]
          omega
        rw [toChunks_eq hsize h, List.flatten_cons, ih _ hshorter _ rfl, List.take_append_drop]

theorem length_of_mem_toChunks (hsize : 0 < size) {values chunk : List α}
    (h : chunk ∈ values.toChunks size) : 1 ≤ chunk.length ∧ chunk.length ≤ size := by
  induction hlength : values.length using Nat.strongRecOn generalizing values with
  | ind length ih =>
      subst hlength
      by_cases hvalues : values = []
      · rw [hvalues, toChunks_nil] at h
        cases h
      · have hpositive := List.length_pos_iff.mpr hvalues
        have hshorter : (values.drop size).length < values.length := by
          rw [List.length_drop]
          omega
        rw [toChunks_eq hsize hvalues, List.mem_cons] at h
        rcases h with rfl | h
        · rw [List.length_take]
          omega
        · exact ih _ hshorter h rfl

/-- Cutting behind a whole number of chunks. -/
theorem toChunks_append (hsize : 0 < size) (count : Nat) {front : List α}
    (hfront : front.length = count * size) (back : List α) :
    (front ++ back).toChunks size = front.toChunks size ++ back.toChunks size := by
  induction count generalizing front with
  | zero =>
      rw [Nat.zero_mul] at hfront
      obtain rfl := List.eq_nil_of_length_eq_zero hfront
      rw [List.nil_append, toChunks_nil, List.nil_append]
  | succ count ih =>
      have hlong : size ≤ front.length := by
        rw [hfront, Nat.succ_mul]
        exact Nat.le_add_left _ _
      have hnonempty : front ≠ [] := List.ne_nil_of_length_pos (Nat.lt_of_lt_of_le hsize hlong)
      have hrest : (front.drop size).length = count * size := by
        rw [List.length_drop, hfront, Nat.succ_mul, Nat.add_sub_cancel]
      rw [toChunks_eq hsize (fun h => hnonempty (List.append_eq_nil_iff.mp h).1),
        toChunks_eq hsize hnonempty, List.take_append_of_le_length hlong,
        List.drop_append_of_le_length hlong, ih hrest, List.cons_append]

/-- All chunks but the last are full. -/
theorem exists_toChunks_concat (hsize : 0 < size) {values : List α} (h : values ≠ []) :
    ∃ front last, values.toChunks size = front ++ [last] ∧
      (∀ chunk ∈ front, chunk.length = size) ∧ 1 ≤ last.length ∧ last.length ≤ size ∧
      values.length = front.length * size + last.length := by
  induction hlength : values.length using Nat.strongRecOn generalizing values with
  | ind length ih =>
      subst hlength
      have hpositive := List.length_pos_iff.mpr h
      rw [toChunks_eq hsize h]
      by_cases hrest : values.drop size = []
      · have hshort : values.length ≤ size := List.drop_eq_nil_iff.mp hrest
        refine ⟨[], values.take size, by rw [hrest, toChunks_nil]; rfl, ?_, ?_⟩
        · intro chunk hchunk
          exact absurd hchunk List.not_mem_nil
        · rw [List.length_take, Nat.min_eq_right hshort, List.length_nil, Nat.zero_mul,
            Nat.zero_add]
          exact ⟨hpositive, hshort, rfl⟩
      · have hlong : size < values.length :=
          Nat.lt_of_not_le fun hshort => hrest (List.drop_eq_nil_of_le hshort)
        have hshorter : (values.drop size).length < values.length := by
          rw [List.length_drop]
          omega
        obtain ⟨front, last, hchunks, hfull, hfirst, hlast, hlength⟩ := ih _ hshorter hrest rfl
        refine ⟨values.take size :: front, last, by rw [hchunks, List.cons_append], ?_, hfirst,
          hlast, ?_⟩
        · intro chunk hchunk
          rcases List.mem_cons.mp hchunk with rfl | hchunk
          · exact List.length_take_of_le (Nat.le_of_lt hlong)
          · exact hfull chunk hchunk
        · rw [List.length_drop] at hlength
          rw [List.length_cons, Nat.succ_mul]
          omega

end Library
end MicroEmu
