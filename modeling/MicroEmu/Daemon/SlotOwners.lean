import MicroEmu.Daemon.Rounds
import MicroEmu.Library.Rows

/-!
# The owners of the task slots

The slots of the task device are dealt out to the active agents, except that Codex, ZCode and
Hermes together have a layout of their own, made for six slots.  Everybody gets a slot as long as
there are enough of them, but not on a device with three slots in that layout.
-/

namespace MicroEmu
namespace Daemon

open Routing (AgentId Partition)
open Library (blockOf blockOf_eq_zero_iff blockOf_lt dealRow exists_blockOf_eq fillRange
  getElem?_dealRow getElem?_foldl_set getElem?_fillRange lastWrite)

variable {slotCount slot : Nat} {active : AgentId → Bool} {agent : AgentId}
  {overrides : List (Nat × AgentId)}

/-! ## The owner of a slot -/

/-- The agents with a layout of their own are active, and no other. -/
def threeAgents (active : AgentId → Bool) : Bool :=
  active .codex && active .zCode && active .hermes && !active .claude

/-- The layout of the three agents. -/
def threeAgentsOwner (slot : Nat) : Option AgentId :=
  if slot < 2 then some .codex
  else if slot = 2 ∨ slot = 5 then some .hermes
  else if slot = 3 ∨ slot = 4 then some .zCode
  else none

/-- The owner a slot has without overrides. -/
def automaticOwner (slotCount : Nat) (active : AgentId → Bool) (slot : Nat) : Option AgentId :=
  if threeAgents active then threeAgentsOwner slot
  else (agents.filter active)[blockOf slotCount (agents.filter active).length slot]?

theorem mem_agents (agent : AgentId) : agent ∈ agents := by
  cases agent <;> decide

theorem getElem?_splitOwners (hslot : slot < slotCount) {members : List AgentId}
    (hmembers : members ≠ []) :
    (splitOwners slotCount members (List.replicate slotCount none))[slot]? =
      some (members[blockOf slotCount members.length slot]?) := by
  have hdealt : splitOwners slotCount members (List.replicate slotCount none) =
      dealRow some slotCount members (List.replicate slotCount none) := rfl
  have hpos : 0 < members.length := List.length_pos_iff.mpr hmembers
  rw [hdealt, getElem?_dealRow some List.length_replicate hmembers hslot,
    List.getElem?_eq_getElem (blockOf_lt hpos)]
  rfl

theorem getElem?_automaticOwners (hslot : slot < slotCount) :
    (automaticOwners slotCount active)[slot]? = some (automaticOwner slotCount active slot) := by
  unfold automaticOwners automaticOwner threeAgents
  simp only
  split
  · simp only [List.foldl_cons, List.foldl_nil, List.getElem?_set, List.length_set,
      List.length_replicate, List.getElem?_replicate, threeAgentsOwner]
    split_ifs <;> first | rfl | omega
  · cases hactive : agents.filter active with
    | nil => simp [hslot]
    | cons first rest =>
        cases rest with
        | nil =>
            have hfilled : fillOwners 0 slotCount first (List.replicate slotCount none) =
                fillRange 0 slotCount (some first) (List.replicate slotCount none) := rfl
            have hblock : blockOf slotCount 1 slot = 0 := by simp [blockOf]
            simp only [List.length_singleton, hblock]
            rw [hfilled, getElem?_fillRange]
            simp [hslot]
        | cons second rest => exact getElem?_splitOwners hslot (List.cons_ne_nil _ _)

/-- An override replaces the owner, and the last one of a slot counts. -/
theorem getElem?_taskSlotOwners (overrides : Option (List (Nat × AgentId)))
    (hslot : slot < slotCount) : (taskSlotOwners slotCount active overrides)[slot]? =
      some ((lastWrite (overrides.getD []) slot).or (automaticOwner slotCount active slot)) := by
  unfold taskSlotOwners
  rw [getElem?_foldl_set, getElem?_automaticOwners hslot]
  cases lastWrite (overrides.getD []) slot <;> rfl

theorem mem_taskSlotOwners_iff (overrides : Option (List (Nat × AgentId))) :
    some agent ∈ taskSlotOwners slotCount active overrides ↔ ∃ slot < slotCount,
      (lastWrite (overrides.getD []) slot).or (automaticOwner slotCount active slot) =
        some agent := by
  rw [List.mem_iff_getElem?]
  constructor
  · rintro ⟨slot, hslot⟩
    have hlt : slot < slotCount := by
      obtain ⟨hlength, -⟩ := List.getElem?_eq_some_iff.mp hslot
      rwa [length_taskSlotOwners] at hlength
    rw [getElem?_taskSlotOwners overrides hlt] at hslot
    exact ⟨slot, hlt, Option.some.inj hslot⟩
  · rintro ⟨slot, hlt, howner⟩
    exact ⟨slot, by rw [getElem?_taskSlotOwners overrides hlt, howner]⟩

/-! ## Nobody starves -/

/-- The owners are those of active agents. -/
theorem active_of_automaticOwner (h : automaticOwner slotCount active slot = some agent) :
    active agent = true := by
  unfold automaticOwner at h
  split at h
  next hthree =>
    unfold threeAgents at hthree
    unfold threeAgentsOwner at h
    simp only [Bool.and_eq_true] at hthree
    split_ifs at h
    · obtain rfl := Option.some.inj h
      exact hthree.1.1.1
    · obtain rfl := Option.some.inj h
      exact hthree.1.2
    · obtain rfl := Option.some.inj h
      exact hthree.1.1.2
  · exact (List.mem_filter.mp (List.mem_of_getElem? h)).2

/-- With a slot for each, every active agent has one. -/
theorem exists_automaticOwner (hfits : (agents.filter active).length ≤ slotCount)
    (hlayout : ¬(slotCount = 3 ∧ threeAgents active)) (hactive : active agent = true) :
    ∃ slot < slotCount, automaticOwner slotCount active slot = some agent := by
  unfold automaticOwner
  by_cases hthree : threeAgents active = true
  · have hthreeActive := hthree
    unfold threeAgents at hthreeActive
    simp only [Bool.and_eq_true, Bool.not_eq_true'] at hthreeActive
    obtain ⟨⟨⟨hcodex, hzcode⟩, hhermes⟩, hclaude⟩ := hthreeActive
    have hmany : (agents.filter active).length = 3 := by
      simp [agents, hcodex, hzcode, hhermes, hclaude]
    have hfour : 4 ≤ slotCount := by
      have hne : slotCount ≠ 3 := fun heq => hlayout ⟨heq, hthree⟩
      omega
    simp only [hthree, if_true]
    cases agent with
    | codex => exact ⟨0, by omega, rfl⟩
    | hermes => exact ⟨2, by omega, rfl⟩
    | zCode => exact ⟨3, by omega, rfl⟩
    | claude =>
        rw [hclaude] at hactive
        cases hactive
  · have hmem : agent ∈ agents.filter active := List.mem_filter.mpr ⟨mem_agents agent, hactive⟩
    obtain ⟨index, hindex, hget⟩ := List.getElem_of_mem hmem
    obtain ⟨slot, hslot, hblock⟩ := exists_blockOf_eq hfits hindex
    refine ⟨slot, hslot, ?_⟩
    rw [if_neg hthree, hblock, List.getElem?_eq_getElem hindex, hget]

/-- Every slot has an entry, the owners are active agents and each of these has a slot, and
overrides replace just the entries of the slots they list. -/
structure StarvesNobody (slotCount : Nat) (active : AgentId → Bool) : Prop where
  length : ∀ overrides, (taskSlotOwners slotCount active overrides).length = slotCount
  named : ∀ agent, some agent ∈ taskSlotOwners slotCount active none → active agent = true
  served : ∀ agent, active agent = true → some agent ∈ taskSlotOwners slotCount active none
  listed : ∀ overrides slot agent, slot < slotCount → lastWrite overrides slot = some agent →
    (taskSlotOwners slotCount active (some overrides))[slot]? = some (some agent)
  unlisted : ∀ overrides slot, (∀ entry ∈ overrides, entry.1 ≠ slot) →
    (taskSlotOwners slotCount active (some overrides))[slot]? =
      (taskSlotOwners slotCount active none)[slot]?

/-- Where there are at least as many slots as active agents, nobody starves except on a device
with three slots for Codex, ZCode and Hermes. -/
theorem starvesNobody_iff (slotCount : Nat) (active : AgentId → Bool)
    (hfits : (agents.filter active).length ≤ slotCount) :
    StarvesNobody slotCount active ↔
      ¬(slotCount = 3 ∧ active .codex = true ∧ active .zCode = true ∧ active .hermes = true ∧
        active .claude = false) := by
  have hthree : threeAgents active = true ↔ active .codex = true ∧ active .zCode = true ∧
      active .hermes = true ∧ active .claude = false := by
    simp [threeAgents, and_assoc]
  constructor
  · rintro h ⟨rfl, hactive⟩
    obtain ⟨slot, hslot, howner⟩ := (mem_taskSlotOwners_iff none).mp (h.served .zCode hactive.2.1)
    have hlayout : automaticOwner 3 active slot = threeAgentsOwner slot :=
      if_pos (hthree.mpr hactive)
    rw [show lastWrite ((none : Option (List (Nat × AgentId))).getD []) slot = none from rfl,
      Option.none_or, hlayout] at howner
    unfold threeAgentsOwner at howner
    split_ifs at howner
    · cases howner
    · cases howner
    · omega
  · intro hlayout
    refine ⟨length_taskSlotOwners slotCount active, ?_, ?_, ?_, ?_⟩
    · intro agent hmem
      obtain ⟨slot, -, howner⟩ := (mem_taskSlotOwners_iff none).mp hmem
      exact active_of_automaticOwner howner
    · intro agent hactive
      have hnot : ¬(slotCount = 3 ∧ threeAgents active) := by rwa [hthree]
      obtain ⟨slot, hslot, howner⟩ := exists_automaticOwner hfits hnot hactive
      exact (mem_taskSlotOwners_iff none).mpr ⟨slot, hslot, howner⟩
    · intro overrides slot agent hslot hlast
      rw [getElem?_taskSlotOwners _ hslot, Option.getD_some, hlast]
      rfl
    · intro overrides slot hunlisted
      by_cases hslot : slot < slotCount
      · have hlast : lastWrite overrides slot = none := by
          unfold lastWrite
          rw [List.filter_eq_nil_iff.mpr fun entry hentry => by simpa using hunlisted entry hentry]
          rfl
        rw [getElem?_taskSlotOwners _ hslot, getElem?_taskSlotOwners _ hslot, Option.getD_some,
          hlast]
        rfl
      · rw [List.getElem?_eq_none (by rw [length_taskSlotOwners]; omega),
          List.getElem?_eq_none (by rw [length_taskSlotOwners]; omega)]

/-- Four slots for the three agents. -/
theorem starvesNobody_iff_four : StarvesNobody 4 (fun agent => agent != .claude) ↔
    ¬(4 = 3 ∧ ((AgentId.codex != .claude) = true) ∧ ((AgentId.zCode != .claude) = true) ∧
      ((AgentId.hermes != .claude) = true) ∧ ((AgentId.claude != .claude) = false)) :=
  starvesNobody_iff 4 (fun agent => agent != .claude) (by decide)

/-- With three slots, ZCode gets none. -/
theorem zCode_starves : ¬ ∀ slotCount active, (agents.filter active).length ≤ slotCount →
    StarvesNobody slotCount active := by
  intro h
  have hserved := (h 3 (fun agent => agent != .claude) (by decide)).served .zCode (by decide)
  revert hserved
  decide

/-! ## How many slots the feeds ask for -/

/-- The slots Codex has without overrides are the first ones. -/
def codexShare (slotCount : Nat) (active : AgentId → Bool) : Nat :=
  if !active .codex then 0
  else if threeAgents active then min 2 slotCount
  else slotCount / (agents.filter active).length

/-- The slots whose override takes them from Codex. -/
def takenFromCodex (slotCount : Nat) (active : AgentId → Bool)
    (overrides : List (Nat × AgentId)) : Nat :=
  (List.range slotCount).countP fun slot =>
    decide (slot < codexShare slotCount active) && (lastWrite overrides slot).any (· != .codex)

/-- The slots whose override gives them to Codex. -/
def givenToCodex (slotCount : Nat) (active : AgentId → Bool)
    (overrides : List (Nat × AgentId)) : Nat :=
  (List.range slotCount).countP fun slot =>
    !decide (slot < codexShare slotCount active) && lastWrite overrides slot == some .codex

theorem codexShare_le (slotCount : Nat) (active : AgentId → Bool) :
    codexShare slotCount active ≤ slotCount := by
  unfold codexShare
  split
  · exact Nat.zero_le _
  · split
    · exact Nat.min_le_right _ _
    · exact Nat.div_le_self _ _

theorem automaticOwner_eq_codex_iff (hslot : slot < slotCount) :
    automaticOwner slotCount active slot = some .codex ↔ slot < codexShare slotCount active := by
  unfold automaticOwner codexShare
  by_cases hthree : threeAgents active = true
  · have hcodex : active .codex = true := by
      unfold threeAgents at hthree
      simp only [Bool.and_eq_true] at hthree
      exact hthree.1.1.1
    simp only [hthree, if_true, hcodex, Bool.not_true, Bool.false_eq_true, if_false]
    unfold threeAgentsOwner
    split_ifs
    · simp; omega
    · simp; omega
    · simp; omega
    · simp; omega
  · simp only [hthree]
    cases hcodex : active .codex with
    | false =>
        have hnone : AgentId.codex ∉ agents.filter active := fun hmem => by
          rw [(List.mem_filter.mp hmem).2] at hcodex
          cases hcodex
        simp only [Bool.not_false, if_true, Nat.not_lt_zero, iff_false]
        exact fun howner => hnone (List.mem_of_getElem? howner)
    | true =>
        obtain ⟨others, hothers⟩ : ∃ others, agents.filter active = .codex :: others :=
          ⟨_, List.filter_cons_of_pos hcodex⟩
        have hnone : AgentId.codex ∉ others := by
          have hnodup : (agents.filter active).Nodup := List.Nodup.filter _ (by decide)
          rw [hothers, List.nodup_cons] at hnodup
          exact hnodup.1
        rw [hothers]
        cases others with
        | nil => simp [blockOf, hslot]
        | cons second rest =>
            have hfirst := @blockOf_eq_zero_iff slotCount (second :: rest).length.succ slot
              (by simp)
            simp only [Bool.not_true, Bool.false_eq_true, if_false, List.length_cons] at hfirst ⊢
            rw [← hfirst]
            cases hblock : blockOf slotCount (rest.length + 1 + 1) slot with
            | zero => simp
            | succ block =>
                simp only [List.getElem?_cons_succ, Nat.succ_ne_zero, iff_false]
                exact fun howner => hnone (List.mem_of_getElem? howner)

/-- Counting the entries of a row is counting its places. -/
theorem countP_eq_countP_range {α : Type} (p : α → Bool) (row : List α) :
    row.countP p = (List.range row.length).countP fun place => (row[place]?).any p := by
  have hrow : row.map some = (List.range row.length).map (row[·]?) := by
    apply List.ext_getElem?
    intro place
    by_cases hplace : place < row.length
    · simp [hplace]
    · simp [hplace]
  have hcount : row.countP p = (row.map some).countP fun entry => entry.any p := by
    rw [List.countP_map]
    rfl
  rw [hcount, hrow, List.countP_map]
  rfl

/-- Where two indicators add up to two others at every place, so do the counts. -/
theorem countP_add_countP {α : Type} {p q r s : α → Bool} {places : List α}
    (h : ∀ place ∈ places, (p place).toNat + (q place).toNat = (r place).toNat + (s place).toNat) :
    places.countP p + places.countP q = places.countP r + places.countP s := by
  induction places with
  | nil => rfl
  | cons place places ih =>
      have hrest := ih fun later hlater => h later (List.mem_cons_of_mem _ hlater)
      have hplace := h place List.mem_cons_self
      simp only [List.countP_cons]
      cases hp : p place <;> cases hq : q place <;> cases hr : r place <;>
        cases hs : s place <;> simp [hp, hq, hr, hs] at hplace ⊢ <;> omega

theorem countP_range_lt {count bound : Nat} (h : bound ≤ count) :
    ((List.range count).countP fun place => decide (place < bound)) = bound := by
  induction count with
  | zero => simp [Nat.le_zero.mp h]
  | succ count ih =>
      rw [List.range_succ, List.countP_append, List.countP_singleton]
      by_cases hlast : count < bound
      · have hall : (List.range count).countP (fun place => decide (place < bound)) = count := by
          rw [List.countP_eq_length.mpr, List.length_range]
          intro place hplace
          have hlt := List.mem_range.mp hplace
          simpa using by omega
        rw [hall]
        simp [hlast]
        omega
      · rw [ih (by omega)]
        simp [hlast]

/-- The slots Codex owns are its share, without the taken and with the given ones. -/
theorem taskSlotsForAgent_codex (slotCount : Nat) (active : AgentId → Bool)
    (overrides : Option (List (Nat × AgentId))) :
    taskSlotsForAgent slotCount active overrides .codex +
        takenFromCodex slotCount active (overrides.getD []) =
      codexShare slotCount active + givenToCodex slotCount active (overrides.getD []) := by
  have howned : taskSlotsForAgent slotCount active overrides .codex =
      (taskSlotOwners slotCount active overrides).countP fun owner => owner.any (· == .codex) := by
    rw [taskSlotsForAgent, ← List.countP_eq_length_filter, List.reduceOption,
      List.countP_filterMap]
    refine List.countP_congr fun owner _ => ?_
    cases owner <;> simp
  have hshare := countP_range_lt (codexShare_le slotCount active)
  unfold takenFromCodex givenToCodex
  rw [howned, countP_eq_countP_range, length_taskSlotOwners]
  calc _ = ((List.range slotCount).countP fun slot =>
          decide (slot < codexShare slotCount active)) + _ := ?_
    _ = _ := by rw [hshare]
  refine countP_add_countP fun slot hslot => ?_
  have hlt := List.mem_range.mp hslot
  rw [getElem?_taskSlotOwners overrides hlt]
  have hauto := @automaticOwner_eq_codex_iff slotCount slot active hlt
  -- an override decides alone, and without one the slot is Codex's if it is in its share
  cases hlast : lastWrite (overrides.getD []) slot with
  | some agent =>
      by_cases hfirst : slot < codexShare slotCount active
      · cases agent <;> simp [hfirst] <;> rfl
      · cases agent <;> simp [hfirst]
  | none =>
      by_cases hfirst : slot < codexShare slotCount active
      · simp [hfirst, hauto.mpr hfirst]
      · cases howner : automaticOwner slotCount active slot with
        | none => simp [hfirst]
        | some agent =>
            have hne : agent ≠ .codex := fun heq => hfirst (hauto.mp (heq ▸ howner))
            simp [hfirst, hne]

theorem codexSlots_compute (seen : AgentId → Bool) :
    codexSlots (Partition.compute seen) = if seen .codex then 3 else 0 := by
  unfold codexSlots Partition.slotsFor Partition.ownerOf Partition.compute
  cases seen .codex <;> cases seen .claude <;> cases seen .zCode <;> cases seen .hermes <;> rfl

/-- The poll of the Codex database asks for as many threads as Codex has slots exactly if the
fixed half of the keys is as large as its share of the slots with the given and without the taken
ones. -/
theorem codexSlots_agree_iff (slotCount : Nat) (seen active : AgentId → Bool)
    (overrides : Option (List (Nat × AgentId))) :
    codexSlots (Partition.compute seen) = taskSlotsForAgent slotCount active overrides .codex ↔
      (if seen .codex then 3 else 0) + takenFromCodex slotCount active (overrides.getD []) =
        codexShare slotCount active + givenToCodex slotCount active (overrides.getD []) := by
  rw [codexSlots_compute, ← taskSlotsForAgent_codex]
  omega

/-- Codex alone on six slots: three threads are asked for. -/
theorem codexSlots_disagree : ¬ ∀ slotCount active overrides,
    codexSlots (Partition.compute active) =
      taskSlotsForAgent slotCount active overrides .codex := by
  intro h
  have hsix := h 6 (fun agent => agent == .codex) none
  revert hsix
  decide

end Daemon
end MicroEmu
