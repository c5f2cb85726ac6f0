import Mathlib.Data.List.Induction
import Mathlib.Data.List.Nodup
import MicroEmu.Routing.Events

/-!
# The fused display after any updates

An agent's entries are kept by their position in the arrays it sends, and a partition decides
only where they appear.  The buffers therefore remember, for each agent and position, the last
entry sent there, whatever the partitions and the other agents did meanwhile.
-/

namespace MicroEmu
namespace Routing

open Json (Value)

/-! ## The slots of an agent -/

namespace Partition

variable {partition : Partition} {agent : AgentId} {slot : Nat}

theorem mem_slotsFor :
    slot ∈ partition.slotsFor agent ↔ slot < lcdSlots ∧ partition.ownerOf slot = some agent := by
  simp [slotsFor]

theorem nodup_slotsFor : (partition.slotsFor agent).Nodup :=
  List.nodup_range.filter _

/-- Nobody owns a slot past the sixth. -/
theorem lt_of_ownerOf (h : partition.ownerOf slot = some agent) : slot < lcdSlots := by
  by_contra hge
  have hnone : partition.owners[slot]? = none := Vector.getElem?_eq_none (by omega)
  rw [ownerOf, hnone] at h
  cases h

/-- An agent owns at most six slots. -/
theorem place_lt {place : Nat} (h : (partition.slotsFor agent)[place]? = some slot) :
    place < lcdSlots := by
  obtain ⟨hlt, -⟩ := List.getElem?_eq_some_iff.mp h
  have hlength : (partition.slotsFor agent).length ≤ (List.range lcdSlots).length :=
    List.length_filter_le ..
  rw [List.length_range] at hlength
  omega

/-- The place of a slot among those of its owner. -/
theorem idxOf?_slotsFor {place : Nat} (h : (partition.slotsFor agent)[place]? = some slot) :
    (partition.slotsFor agent).idxOf? slot = some place := by
  obtain ⟨hlt, hslot⟩ := List.getElem?_eq_some_iff.mp h
  refine List.idxOf?_eq_some_iff.mpr ⟨hlt, hslot, fun other hother heq => ?_⟩
  have hsame := (List.Nodup.getElem_inj_iff nodup_slotsFor).mp (heq.trans hslot.symm)
  omega

end Partition

/-! ## Updates -/

/-- One call of `merge_from_agent`. -/
structure LcdUpdate where
  agent : AgentId
  parameters : Value
  partition : Partition

/-- The entry an update carries for a position of an agent's buffer. -/
def LcdUpdate.entryAt (update : LcdUpdate) (agent : AgentId) (place : Nat) : Option Value :=
  if update.agent = agent then update.parameters.asArray.bind (·[place]?) else none

/-- The entries an agent has sent at a position, oldest first. -/
def sentAt (updates : List LcdUpdate) (agent : AgentId) (place : Nat) : List Value :=
  updates.filterMap fun update => update.entryAt agent place

namespace FusedLcdState

variable (fused : FusedLcdState)

/-- The buffers after a sequence of updates. -/
def mergeAll (updates : List LcdUpdate) : FusedLcdState :=
  updates.foldl (fun fused update =>
    (fused.mergeFromAgent update.agent update.parameters update.partition).2) fused

/-- An update writes the positions it carries of the buffer of its agent. -/
theorem entries_mergeFromAgent (update : LcdUpdate) (agent : AgentId) (place : Nat) :
    ((fused.mergeFromAgent update.agent update.parameters update.partition).2.entries
        agent)[place]? =
      (fused.entries agent)[place]?.map ((update.entryAt agent place).or ·) := by
  unfold mergeFromAgent LcdUpdate.entryAt
  cases harray : update.parameters.asArray with
  | none => simp
  | some entries =>
      by_cases hagent : update.agent = agent
      · subst hagent
        simp
      · have hne : agent ≠ update.agent := fun h => hagent h.symm
        simp [hagent, hne]

/-- A position holds the last entry sent there, else what it held before. -/
theorem entries_mergeAll (updates : List LcdUpdate) (agent : AgentId) (place : Nat) :
    ((fused.mergeAll updates).entries agent)[place]? =
      (fused.entries agent)[place]?.map ((sentAt updates agent place).getLast?.or ·) := by
  induction updates using List.reverseRecOn with
  | nil => simp [mergeAll, sentAt]
  | append_singleton updates update ih =>
      have hsent : (sentAt (updates ++ [update]) agent place).getLast? =
          (update.entryAt agent place).or (sentAt updates agent place).getLast? := by
        unfold sentAt
        cases hentry : update.entryAt agent place with
        | none => simp [hentry]
        | some entry => simp [hentry]
      have hstep : fused.mergeAll (updates ++ [update]) =
          ((fused.mergeAll updates).mergeFromAgent update.agent update.parameters
            update.partition).2 := by
        simp [mergeAll]
      rw [hstep, entries_mergeFromAgent, ih, hsent, Option.map_map]
      congr 1
      ext1 old
      exact (Option.or_assoc ..).symm

variable {fused}

/-- The entry at the position of a slot among those of its owner is shown there. -/
theorem fusedSlot_of_slotsFor {partition : Partition} {agent : AgentId} {slot place : Nat}
    {entry : Option Value} (hslot : (partition.slotsFor agent)[place]? = some slot)
    (hentry : (fused.entries agent)[place]? = some entry) :
    fused.fusedSlot partition slot =
      (entry.map (normalizeRenderEntry · slot agent)).getD slotOff := by
  have howner := (Partition.mem_slotsFor.mp (List.mem_of_getElem? hslot)).2
  unfold fusedSlot
  rw [howner]
  simp only
  rw [Partition.idxOf?_slotsFor hslot]
  simp only
  rw [hentry]
  cases entry with
  | none => rfl
  | some entry => rfl

theorem getElem?_fusedArray (partition : Partition) {slot : Nat} (hslot : slot < lcdSlots) :
    (fused.fusedArray partition)[slot]? = some (fused.fusedSlot partition slot) := by
  simp [fusedArray, hslot]

/-- A position of an agent's buffer after the updates. -/
theorem entries_mergeAll_new (updates : List LcdUpdate) (agent : AgentId) {place : Nat}
    (hplace : place < lcdSlots) : ((new.mergeAll updates).entries agent)[place]? =
      some (sentAt updates agent place).getLast? := by
  rw [entries_mergeAll]
  simp [new, hplace]

/-- After any updates the display shows, under any partition, at the `place`-th slot of an agent
the last entry the agent has sent at `place`, or nothing if there is none, and nothing at a slot
without an owner. -/
theorem fusedArray_mergeAll (updates : List LcdUpdate) (partition : Partition) :
    ((new.mergeAll updates).fusedArray partition).length = lcdSlots ∧
      (∀ slot < lcdSlots, partition.ownerOf slot = none →
        ((new.mergeAll updates).fusedArray partition)[slot]? = some slotOff) ∧
      (∀ agent slot, partition.ownerOf slot = some agent →
        ∃ place : Nat, (partition.slotsFor agent)[place]? = some slot) ∧
      ∀ agent (place : Nat) slot, (partition.slotsFor agent)[place]? = some slot →
        ((new.mergeAll updates).fusedArray partition)[slot]? =
          some (((sentAt updates agent place).getLast?.map
            (normalizeRenderEntry · slot agent)).getD slotOff) := by
  refine ⟨by simp [fusedArray], fun slot hslot howner => ?_, fun agent slot howner => ?_,
    fun agent place slot hplace => ?_⟩
  · rw [getElem?_fusedArray partition hslot, fusedSlot, howner]
  · exact List.mem_iff_getElem?.mp
      (Partition.mem_slotsFor.mpr ⟨Partition.lt_of_ownerOf howner, howner⟩)
  · have hslot := (Partition.mem_slotsFor.mp (List.mem_of_getElem? hplace)).1
    rw [getElem?_fusedArray partition hslot,
      fusedSlot_of_slotsFor hplace (entries_mergeAll_new updates agent (Partition.place_lt hplace))]

end FusedLcdState
end Routing
end MicroEmu
