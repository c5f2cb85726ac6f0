import MicroEmu.Tasks.Stability
import MicroEmu.Tasks.WorkConservation

/-!
# Boards a reallocation leaves alone

A reallocation drops, returns, pins and fills.  `Returns` and `Pins` read off the
board to which slots the sticky pass may return a card and the pin pass may pin
it.  If the last card pinned to a slot and every HID card are on their pins, and
every slot that a card returns to is the position of a HID card, which takes it
back at once (`AtHome`), the first three passes restore the layout; the fill adds
nobody exactly if no free slot admits a first waiting card (`Served`).

This is about boards that a reallocation has laid out (`LaidOut`): the retain
pass drops the Codex cards on reserved positions, and the pin pass puts them
back, since they sit on their source slot.
-/

namespace MicroEmu
namespace Tasks

open Std (ExtTreeMap LawfulEqCmp)
open Routing (AgentId)
open Library

namespace TaskBoard

variable {order : WalkOrder} {board : TaskBoard} {id : String} {slot : DeviceSlot}

/-! ## Positions, returns and pins -/

/-- The slot is the source position of the Codex card, and Codex may use it. -/
structure Position (board : TaskBoard) (id : String) (slot : DeviceSlot) : Prop where
  primary : board.partitionedDeviceId = some slot.deviceId
  available : slot ∈ board.available
  owned : board.ownedByCodex slot.slot = true
  card : ∃ task, board.tasks[id]? = some task ∧ task.LogicalAt slot.slot

/-- The card is on the slot, eligible or leased, and the owner of the slot lets it
stay. -/
def KeepsSlot (board : TaskBoard) (id : String) (slot : DeviceSlot) : Prop :=
  board.assignments[id]? = some ⟨slot⟩ ∧ board.retains id ⟨slot⟩ = true

/-- The card keeps no slot, and nobody keeps this one. -/
def OpenTo (board : TaskBoard) (id : String) (slot : DeviceSlot) : Prop :=
  (∀ slot', ¬board.KeepsSlot id slot') ∧ ∀ other, ¬board.KeepsSlot other slot

/-- An eligible card remembers the open slot, and the slot admits it. -/
structure Returns (board : TaskBoard) (id : String) (slot : DeviceSlot) : Prop where
  card : ∃ task, board.tasks[id]? = some task ∧ task.state.eligible = true ∧
    (board.slotOwner slot).admits task.ownerAgent = true
  remembered : board.rememberedSlot id = some slot
  available : slot ∈ board.available
  openTo : board.OpenTo id slot

/-- The slot is the position of a HID card, or the open position of another card,
if nobody returns to it and the card itself returns nowhere or may be beaten to it. -/
def Pins (board : TaskBoard) (id : String) (slot : DeviceSlot) : Prop :=
  board.Position id slot ∧ (isCodexHid id = true ∨
    (board.OpenTo id slot ∧ (∀ other, ¬board.Returns other slot) ∧
      ∀ slot', board.Returns id slot' → ∃ other, other ≠ id ∧ board.Returns other slot'))

/-- The slot is pinned to this card after all others, since pins come in id order. -/
def LastPin (board : TaskBoard) (id : String) (slot : DeviceSlot) : Prop :=
  board.Pins id slot ∧ ∀ other, board.Pins other slot → other ≤ id

/-- No card is pinned to the position of a HID card after that card. -/
def HidUnbeaten (board : TaskBoard) : Prop :=
  ∀ hid slot, isCodexHid hid = true → board.Position hid slot → board.LastPin hid slot

/-- An eligible card without a slot that no other such card of its session comes
before. -/
structure FirstWaiting (board : TaskBoard) (task : TaskCard) : Prop where
  card : board.tasks[task.taskId]? = some task
  waits : board.unplaced task = true
  first : ∀ other, board.tasks[other.taskId]? = some other → board.unplaced other = true →
    other.ownerSession = task.ownerSession → notAbove taskOrder task other

/-- Every HID card with a position and every last pin are on their slots, and every
slot that a card returns to is the position of a HID card. -/
structure AtHome (board : TaskBoard) : Prop where
  hid : ∀ id slot, isCodexHid id = true → board.Position id slot →
    board.assignments[id]? = some ⟨slot⟩
  pinned : ∀ id slot, board.LastPin id slot → board.assignments[id]? = some ⟨slot⟩
  returning : ∀ id slot, board.Returns id slot →
    ∃ hid, isCodexHid hid = true ∧ board.Position hid slot

/-- No free slot admits a first waiting card. -/
def Served (board : TaskBoard) : Prop :=
  ∀ task slot, board.FirstWaiting task → slot ∈ board.available →
    slotTaken board.assignments slot = false →
      (board.slotOwner slot).admits task.ownerAgent = false

theorem Returns.unique {slot' : DeviceSlot} (h : board.Returns id slot)
    (h' : board.Returns id slot') : slot = slot' := by
  have hremembered := h.remembered
  rw [h'.remembered, Option.some.injEq] at hremembered
  exact hremembered.symm

/-- Among the cards pinned to a slot there is a last one. -/
theorem Pins.exists_last (h : board.Pins id slot) :
    ∃ last, id ≤ last ∧ board.LastPin last slot := by
  classical
  let pinned := board.tasks.keys.toFinset.filter (board.Pins · slot)
  have hmem : ∀ other, board.Pins other slot ↔ other ∈ pinned := by
    intro other
    have hcard (hpins : board.Pins other slot) : other ∈ board.tasks := by
      obtain ⟨task, htask, -⟩ := hpins.1.card
      exact ExtTreeMap.mem_iff_isSome_getElem?.mpr (htask ▸ rfl)
    simp only [pinned, Finset.mem_filter, List.mem_toFinset, ExtTreeMap.mem_keys]
    exact ⟨fun hpins => ⟨hcard hpins, hpins⟩, fun h => h.2⟩
  obtain ⟨last, hlast, hmax⟩ := pinned.exists_max_image (fun other => other) ⟨id, (hmem id).mp h⟩
  exact ⟨last, hmax id ((hmem id).mp h), (hmem last).mpr hlast,
    fun other hother => hmax other ((hmem other).mp hother)⟩

/-- At home no HID card is beaten, since no two cards share a slot. -/
theorem AtHome.hidUnbeaten (h : board.AtHome) (hinj : SlotInjective board.assignments) :
    board.HidUnbeaten := by
  intro hid slot hishid hposition
  obtain ⟨last, -, hlast⟩ := Pins.exists_last ⟨hposition, Or.inl hishid⟩
  obtain rfl : last = hid := hinj (h.pinned last slot hlast) (h.hid hid slot hishid hposition)
  exact hlast

/-- Where no slot is wasted, everybody is served. -/
theorem Conserved.served (h : board.Conserved) : board.Served :=
  fun task slot hfirst havailable hfree =>
    h task slot hfirst.card (unplaced_iff.mp hfirst.waits).1 (unplaced_iff.mp hfirst.waits).2
      havailable hfree

/-! ## The passes on returns and pins -/

theorem keepsSlot_iff : board.KeepsSlot id slot ↔ board.retainPass.assignments[id]? = some ⟨slot⟩ :=
  retained_iff.symm

/-- A slot is open to a card if both are without the other after the retain
pass. -/
theorem openTo_iff : board.OpenTo id slot ↔
    board.retainPass.assignments[id]? = none ∧
      slotTaken board.retainPass.assignments slot = false := by
  refine and_congr ?_ ?_
  · rw [Option.eq_none_iff_forall_ne_some]
    constructor
    · rintro h ⟨slot'⟩ hkept
      exact h slot' (keepsSlot_iff.mpr hkept)
    · intro h slot' hkeeps
      exact h ⟨slot'⟩ (keepsSlot_iff.mp hkeeps)
  · rw [← Bool.not_eq_true, slotTaken_iff, not_exists]
    exact forall_congr' fun other => not_congr keepsSlot_iff

/-- The requests of the sticky pass. -/
theorem requests_iff (hwf : board.WellFormed) :
    board.Requests id slot ↔ board.Returns id slot := by
  constructor
  · rintro ⟨task, htask, hunplaced, htarget⟩
    obtain rfl := hwf.keyed htask
    obtain ⟨heligible, hnone⟩ := unplaced_iff.mp hunplaced
    obtain ⟨hremembered, havail, hfree, hadmits⟩ := stickyTarget_eq_some_iff.mp htarget
    exact ⟨⟨task, htask, heligible, hadmits⟩, hremembered, havail, openTo_iff.mpr ⟨hnone, hfree⟩⟩
  · intro h
    obtain ⟨task, htask, heligible, hadmits⟩ := h.card
    obtain rfl := hwf.keyed htask
    obtain ⟨hnone, hfree⟩ := openTo_iff.mp h.openTo
    exact ⟨task, htask, unplaced_iff.mpr ⟨heligible, hnone⟩,
      stickyTarget_eq_some_iff.mpr ⟨h.remembered, h.available, hfree, hadmits⟩⟩

/-- Whoever the sticky pass places keeps the slot or returns to it. -/
theorem sticky_cases (hwf : board.WellFormed) (hinj : SlotInjective board.assignments)
    (h : (board.stickyBoard order).assignments[id]? = some ⟨slot⟩) :
    board.KeepsSlot id slot ∨ board.Returns id slot :=
  (of_stickyBoard hwf hinj h).imp keepsSlot_iff.mpr (requests_iff hwf).mp

/-- The pins collected after the sticky pass. -/
theorem pins_of_sticky (hwf : board.WellFormed) (hinj : SlotInjective board.assignments)
    (h : (board.stickyBoard order).PinnedTo id slot) : board.Pins id slot := by
  have hfree := of_pinnedTo order hwf hinj h
  obtain ⟨task, htask, hpin⟩ := h
  obtain ⟨hprimary, havailable, hagent, hsource, howned, -⟩ :=
    (pinSlot_eq_some_iff (stickyBoard_wellFormed order hwf)).mp hpin
  refine ⟨⟨hprimary, havailable, howned, task, htask, hagent, hsource⟩, hfree.imp_right ?_⟩
  rintro ⟨hnone, hempty, hasked, hrace⟩
  refine ⟨openTo_iff.mpr ⟨hnone, hempty⟩,
    fun other hreturns => hasked other ((requests_iff hwf).mpr hreturns),
    fun slot' hreturns => ?_⟩
  obtain ⟨other, hne, hother⟩ := hrace slot' ((requests_iff hwf).mpr hreturns)
  exact ⟨other, hne, (requests_iff hwf).mp hother⟩

/-- A HID card is pinned in any case, another card if the sticky pass leaves it
without a slot. -/
theorem Pins.pinnedTo (h : board.Pins id slot) (hwf : board.WellFormed)
    (hinj : SlotInjective board.assignments)
    (hplain : isCodexHid id = true ∨ (board.stickyBoard order).assignments[id]? = none) :
    (board.stickyBoard order).PinnedTo id slot := by
  obtain ⟨hposition, hpins⟩ := h
  obtain ⟨task, htask, hagent, hsource⟩ := hposition.card
  obtain rfl := hwf.keyed htask
  refine ⟨task, htask, (pinSlot_eq_some_iff (stickyBoard_wellFormed order hwf)).mpr
    ⟨hposition.primary, hposition.available, hagent, hsource, hposition.owned, ?_⟩⟩
  rcases hpins with hhid | ⟨hopen, hnobody, -⟩
  · exact Or.inl hhid
  refine hplain.imp_right fun hnone => ⟨hnone, ?_⟩
  rw [← Bool.not_eq_true, slotTaken_iff]
  rintro ⟨holder, hholder⟩
  rcases sticky_cases hwf hinj hholder with hkeeps | hreturns
  · exact hopen.2 holder hkeeps
  · exact hnobody holder hreturns

/-- The last card that is pinned to a slot gets it. -/
theorem LastPin.reallocate (h : board.LastPin id slot) (hwf : board.WellFormed)
    (hinj : SlotInjective board.assignments)
    (hplain : isCodexHid id = true ∨ (board.stickyBoard order).assignments[id]? = none) :
    (board.reallocate order).assignments[id]? = some ⟨slot⟩ :=
  reallocate_of_last_pin hwf hinj (h.1.pinnedTo hwf hinj hplain) fun other hother =>
    h.2 other (pins_of_sticky hwf hinj hother)

/-- A card that keeps no slot and returns nowhere is left without one. -/
theorem sticky_none_of_not_returns (hwf : board.WellFormed)
    (hinj : SlotInjective board.assignments) (hkeeps : ∀ slot', ¬board.KeepsSlot id slot')
    (hreturns : ∀ slot', ¬board.Returns id slot') :
    (board.stickyBoard order).assignments[id]? = none := by
  rw [Option.eq_none_iff_forall_ne_some]
  rintro ⟨slot'⟩ hsticky
  exact (sticky_cases hwf hinj hsticky).elim (hkeeps slot') (hreturns slot')

/-- A card that is beaten to the slot it returns to is left without one. -/
theorem sticky_none_of_rival (hwf : board.WellFormed) (hinj : SlotInjective board.assignments)
    {other : String} (hreturns : board.Returns id slot) (hother : board.Returns other slot)
    (hne : other ≠ id) : (board.stickyBoard (.leading other)).assignments[id]? = none := by
  have hgranted := stickyBoard_leading hwf hinj ((requests_iff hwf).mpr hother)
  rw [Option.eq_none_iff_forall_ne_some]
  rintro ⟨slot'⟩ hsticky
  rcases sticky_cases hwf hinj hsticky with hkeeps | hreturns'
  · exact hreturns.openTo.1 slot' hkeeps
  · obtain rfl := hreturns.unique hreturns'
    exact hne (stickyBoard_injective (.leading other) hinj hgranted hsticky)

/-! ## Boards a reallocation has laid out -/

/-- What a reallocation leaves: every card on a slot keeps it or is on its own
position, and remembers a slot of the partitioned device. -/
structure LaidOut (board : TaskBoard) : Prop where
  wellFormed : board.WellFormed
  injective : SlotInjective board.assignments
  entry : ∀ {id : String} {slot : DeviceSlot}, board.assignments[id]? = some ⟨slot⟩ →
    board.retains id ⟨slot⟩ = true ∨ board.Position id slot
  remembered : ∀ {id : String} {slot : DeviceSlot}, board.assignments[id]? = some ⟨slot⟩ →
    board.partitionedDeviceId = some slot.deviceId → board.rememberedSlot id = some slot

/-- The record prefers the slot of the layout on the partitioned device. -/
theorem rememberSlots_preference (order : WalkOrder)
    (hassigned : board.assignments[id]? = some ⟨slot⟩) (hcard : board.tasks[id]? ≠ none)
    (hprimary : board.partitionedDeviceId = some slot.deviceId) :
    (board.rememberSlots order).primaryPreferences[id]? = some slot.slot := by
  have hfold (entries : List (String × TaskAssignment)) (preferences : ExtTreeMap String Nat)
      (honly : ∀ entry ∈ entries, entry.1 = id → entry.2 = ⟨slot⟩)
      (hmem : (id, (⟨slot⟩ : TaskAssignment)) ∈ entries ∨ preferences[id]? = some slot.slot) :
      (entries.foldl (fun preferences entry =>
        if board.partitionedDeviceId = some entry.2.slot.deviceId then
          preferences.insert entry.1 entry.2.slot.slot
        else preferences) preferences)[id]? = some slot.slot := by
    induction entries generalizing preferences with
    | nil => exact hmem.resolve_left List.not_mem_nil
    | cons entry entries ih =>
        refine ih _ (fun other hother => honly other (List.mem_cons_of_mem _ hother)) ?_
        simp only
        by_cases hid : entry.1 = id
        · -- the entry of the card records its slot
          rw [honly entry List.mem_cons_self hid, if_pos hprimary, getElem?_insert_eq_ite,
            if_pos hid]
          exact Or.inr rfl
        · refine hmem.imp (fun hmem => ?_) fun hpreference => ?_
          · exact (List.mem_cons.mp hmem).resolve_left fun heq => hid (heq ▸ rfl)
          · split
            · rw [getElem?_insert_eq_ite, if_neg hid]
              exact hpreference
            · exact hpreference
  have hrecorded := hfold (order.entries board.assignments) board.primaryPreferences
    (fun entry hentry hid => by
      have hget := order.mem_entries.mp hentry
      rw [hid, hassigned] at hget
      exact (Option.some.inj hget).symm)
    (Or.inl (order.mem_entries.mpr hassigned))
  unfold rememberSlots
  simp only
  split
  · rw [ExtTreeMap.getElem?_filter', hrecorded, Option.filter_some,
      if_pos (contains_iff_exists.mpr (Option.ne_none_iff_exists'.mp hcard))]
  · exact hrecorded

/-- Wherever a reallocation leaves a card, the retain pass would keep it there or
it is a Codex card on its own position. -/
theorem reallocate_kept_or_pinned (hwf : board.WellFormed)
    (hinj : SlotInjective board.assignments)
    (h : (board.reallocate order).assignments[id]? = some ⟨slot⟩) :
    board.retains id ⟨slot⟩ = true ∨ board.Position id slot := by
  rw [reallocate_assignments] at h
  rcases (reallocate_fillInv order hwf hinj).only h with hpinned | ⟨hfree, task, hmem, rfl, hadmits⟩
  · rcases (pinPass_iff (stickyBoard_wellFormed order hwf)
        (stickyBoard_injective order hinj)).mp hpinned with ⟨hpin, -⟩ | ⟨-, -, hsticky⟩
    · exact Or.inr (pins_of_sticky hwf hinj hpin).1
    · rcases of_stickyBoard hwf hinj hsticky with hkept | ⟨task, htask, hunplaced, htarget⟩
      · exact Or.inl (retained_iff.mp hkept).2
      · obtain ⟨-, havail, -, hadmits⟩ := stickyTarget_eq_some_iff.mp htarget
        exact Or.inl (retains_iff.mpr ⟨task, htask, Or.inl (unplaced_iff.mp hunplaced).1, havail,
          retainsOwner_of_admits hadmits⟩)
  · obtain ⟨htask, heligible, -⟩ := (mem_candidates (pinnedBoard_wellFormed order hwf)).mp hmem
    exact Or.inl (retains_iff.mpr ⟨task, htask, Or.inl heligible, (mem_freeSlots.mp hfree).1,
      retainsOwner_of_admits hadmits⟩)

/-- A reallocation lays a board out. -/
theorem reallocate_laidOut (order : WalkOrder) (hwf : board.WellFormed)
    (hinj : SlotInjective board.assignments) : (board.reallocate order).LaidOut where
  wellFormed := reallocate_wellFormed order hwf
  injective := reallocate_injective order hwf hinj
  entry := by
    intro id slot hassigned
    have hentry := reallocate_kept_or_pinned hwf hinj hassigned
    obtain ⟨_, _, _, _, _, hframe⟩ := reallocate_frame order board
    rw [hframe]
    exact hentry.imp_right fun h => ⟨h.primary, h.available, h.owned, h.card⟩
  remembered := by
    intro id slot hassigned hprimary
    obtain ⟨base, hbase, hlayout, -, -, hpartition, htasks⟩ := reallocate_remembers order board
    obtain ⟨task, htask, -⟩ := reallocate_entry hwf hinj hassigned
    rw [reallocate_partitionedDeviceId] at hprimary
    have hpreference : (board.reallocate order).primaryPreferences[id]? = some slot.slot := by
      rw [hbase]
      refine rememberSlots_preference order (hlayout ▸ hassigned) ?_ (hpartition.trans hprimary)
      rw [htasks, htask]
      simp
    unfold rememberedSlot
    rw [hpreference, reallocate_partitionedDeviceId, hprimary]
    rfl

namespace LaidOut

/-- A card that is dropped from its slot is on its own position, which is open to it. -/
theorem dropped (h : board.LaidOut) (hassigned : board.assignments[id]? = some ⟨slot⟩)
    (hnot : ¬board.KeepsSlot id slot) : board.Position id slot ∧ board.OpenTo id slot := by
  refine ⟨(h.entry hassigned).resolve_left fun hretains => hnot ⟨hassigned, hretains⟩,
    fun slot' hkeeps => ?_, fun other hkeeps => ?_⟩
  · have hsame := hkeeps.1
    rw [hassigned, Option.some.injEq, TaskAssignment.mk.injEq] at hsame
    exact hnot (hsame ▸ hkeeps)
  · obtain rfl := h.injective hkeeps.1 hassigned
    exact hnot hkeeps

/-- Only cards without a slot return to one: a dropped card is on its position,
which it remembers, and a slot that admits it would have kept it. -/
theorem unplaced_of_returns (h : board.LaidOut) (hreturns : board.Returns id slot) :
    board.assignments[id]? = none := by
  rw [Option.eq_none_iff_forall_ne_some]
  rintro ⟨place⟩ hassigned
  obtain ⟨task, htask, heligible, hadmits⟩ := hreturns.card
  obtain ⟨hposition, -⟩ := h.dropped hassigned (hreturns.openTo.1 place)
  have hplace := h.remembered hassigned hposition.primary
  rw [hreturns.remembered, Option.some.injEq] at hplace
  subst hplace
  exact hreturns.openTo.1 slot ⟨hassigned, retains_iff.mpr
    ⟨task, htask, Or.inl heligible, hreturns.available, retainsOwner_of_admits hadmits⟩⟩

/-- A pinned card that is on its slot is pinned there on every walk. -/
theorem pinnedTo_of_assigned (h : board.LaidOut) (order : WalkOrder) (hpins : board.Pins id slot)
    (hassigned : board.assignments[id]? = some ⟨slot⟩) :
    (board.stickyBoard order).PinnedTo id slot := by
  refine hpins.pinnedTo h.wellFormed h.injective (hpins.2.imp_right fun hopen => ?_)
  refine sticky_none_of_not_returns h.wellFormed h.injective hopen.1.1 fun slot' hreturns => ?_
  rw [h.unplaced_of_returns hreturns] at hassigned
  cases hassigned

/-- Whoever is on a slot that somebody is pinned to is the last pin on it. -/
theorem lastPin_of_assigned (h : board.LaidOut) (hhome : board.AtHome) {other : String}
    (hpins : board.Pins other slot) (hassigned : board.assignments[id]? = some ⟨slot⟩) :
    board.LastPin id slot := by
  obtain ⟨last, -, hlast⟩ := hpins.exists_last
  obtain rfl := h.injective (hhome.pinned last slot hlast) hassigned
  exact hlast

/-- A card at home is pinned to its slot or on it after the sticky pass. -/
theorem pinned_or_sticky (h : board.LaidOut) (hhome : board.AtHome) (order : WalkOrder)
    (hassigned : board.assignments[id]? = some ⟨slot⟩) :
    (board.stickyBoard order).PinnedTo id slot ∨
      (board.stickyBoard order).assignments[id]? = some ⟨slot⟩ := by
  by_cases hkeeps : board.KeepsSlot id slot
  · exact Or.inr (stickyBoard_keeps order h.wellFormed h.injective (keepsSlot_iff.mp hkeeps))
  obtain ⟨hposition, hopen⟩ := h.dropped hassigned hkeeps
  refine Or.inl (h.pinnedTo_of_assigned order ⟨hposition, ?_⟩ hassigned)
  by_cases hhid : isCodexHid id = true
  · exact Or.inl hhid
  refine Or.inr ⟨hopen, fun other hreturns => ?_, fun slot' hreturns => ?_⟩
  · -- only a HID card can be on a slot that others return to
    obtain ⟨hid, hishid, hhidPosition⟩ := hhome.returning other slot hreturns
    exact hhid (h.injective (hhome.hid hid slot hishid hhidPosition) hassigned ▸ hishid)
  · rw [h.unplaced_of_returns hreturns] at hassigned
    cases hassigned

/-- The pin pass restores exactly the layout the retain pass found. -/
theorem pinnedBoard_eq (h : board.LaidOut) (hhome : board.AtHome) (order : WalkOrder) :
    board.pinnedBoard order = board := by
  have hwf := h.wellFormed
  have hpins : ∀ {id slot}, (board.stickyBoard order).PinnedTo id slot → board.Pins id slot :=
    pins_of_sticky hwf h.injective
  have hlayout : (board.pinnedBoard order).assignments = board.assignments := by
    ext id ⟨slot⟩
    unfold pinnedBoard
    rw [pinPass_iff (stickyBoard_wellFormed order hwf) (stickyBoard_injective order h.injective)]
    constructor
    · rintro (⟨hpin, hmax⟩ | ⟨-, hunpinned, hsticky⟩)
      · obtain ⟨last, hle, hlast⟩ := (hpins hpin).exists_last
        have hassigned := hhome.pinned last slot hlast
        have hge := hmax last (h.pinnedTo_of_assigned order hlast.1 hassigned)
        rwa [le_antisymm hge hle] at hassigned
      rcases sticky_cases hwf h.injective hsticky with hkeeps | hreturns
      · exact hkeeps.1
      · obtain ⟨hid, hishid, hposition⟩ := hhome.returning id slot hreturns
        exact absurd (Pins.pinnedTo ⟨hposition, Or.inl hishid⟩ hwf h.injective (Or.inl hishid))
          (hunpinned hid)
    · intro hassigned
      by_cases hpin : (board.stickyBoard order).PinnedTo id slot
      · exact Or.inl ⟨hpin, fun other hother =>
          (h.lastPin_of_assigned hhome (hpins hpin) hassigned).2 other (hpins hother)⟩
      have hsticky := (h.pinned_or_sticky hhome order hassigned).resolve_left hpin
      refine Or.inr ⟨fun slot' hpin' => ?_, fun other hother => ?_, hsticky⟩
      · -- only a HID card is pinned while it has a slot, and then it is on its pin
        rcases (hpins hpin').2 with hhid | ⟨hopen, -⟩
        · have hsame := hhome.hid id slot' hhid (hpins hpin').1
          rw [hassigned, Option.some.injEq, TaskAssignment.mk.injEq] at hsame
          exact hpin (hsame ▸ hpin')
        · rcases sticky_cases hwf h.injective hsticky with hkeeps | hreturns
          · exact hopen.1 slot hkeeps
          · rw [h.unplaced_of_returns hreturns] at hassigned
            cases hassigned
      · have hlast := h.lastPin_of_assigned hhome (hpins hother) hassigned
        exact hpin (h.pinnedTo_of_assigned order hlast.1 hassigned)
  have hframe : board.pinnedBoard order =
      { board with assignments := (board.pinnedBoard order).assignments } := rfl
  rw [hframe, hlayout]

/-- A returning card is pinned away again if the reallocation changes nothing. -/
theorem returning_of_same (h : board.LaidOut)
    (hhid : ∀ id slot, isCodexHid id = true → board.Position id slot →
      board.assignments[id]? = some ⟨slot⟩)
    (hsame : (board.reallocate order).assignments = board.assignments)
    (hreturns : board.Returns id slot) :
    ∃ hid, isCodexHid hid = true ∧ board.Position hid slot := by
  have hwf := h.wellFormed
  by_contra hnone
  push Not at hnone
  obtain ⟨holder, hholder⟩ :=
    stickyBoard_taken order hwf h.injective ((requests_iff hwf).mpr hreturns)
  have hreturned : board.Returns holder slot :=
    (sticky_cases hwf h.injective hholder).resolve_left (hreturns.openTo.2 holder)
  have hunplaced := h.unplaced_of_returns hreturned
  -- whoever has returned is pinned nowhere, and nobody is pinned over it
  have hstays : (board.reallocate order).assignments[holder]? = some ⟨slot⟩ := by
    refine reallocate_of_sticky hwf h.injective hholder (fun hishid slot' hpin => ?_)
      fun hid hishid hpin => hnone hid hishid (pins_of_sticky hwf h.injective hpin).1
    rw [hhid holder slot' hishid (pins_of_sticky hwf h.injective hpin).1] at hunplaced
    cases hunplaced
  rw [hsame, hunplaced] at hstays
  cases hstays

end LaidOut

/-! ## The fill on served boards -/

/-- The fill changes nothing exactly if no free slot has a ready session at the
start. -/
theorem fillResult_assignments_eq_iff (order : WalkOrder) (hwf : board.WellFormed)
    (hinj : SlotInjective board.assignments) :
    (board.fillResult order).assignments = board.assignments ↔
      ∀ slot ∈ board.freeSlots, ∀ ready, ¬board.Ready (board.fillStart order) slot ready := by
  constructor
  · intro hsame
    -- until a round grants a slot, the state is that of the start
    have hrun : (board.fillResult order = board.fillStart order ∧
        ∀ slot ∈ board.freeSlots, ∀ ready, ¬board.Ready (board.fillStart order) slot ready) ∨
          ∃ id : String, board.assignments[id]? = none ∧
            (board.fillResult order).assignments[id]? ≠ none := by
      refine @fill_induction order board hwf hinj (fun done state =>
        (state = board.fillStart order ∧
          ∀ slot ∈ done, ∀ ready, ¬board.Ready (board.fillStart order) slot ready) ∨
            ∃ id : String, board.assignments[id]? = none ∧ state.assignments[id]? ≠ none)
        (Or.inl ⟨rfl, fun slot hslot => absurd hslot List.not_mem_nil⟩) ?_
      intro done state slot hinv hprior hslot _
      rcases board.fillSlot_cases state slot with ⟨hstay, hnone⟩ | ⟨ready, hready, -, hgrant⟩
      · rw [hstay]
        refine hprior.imp_left fun ⟨hstart, hvisited⟩ => ⟨hstart, fun place hplace => ?_⟩
        rcases List.mem_append.mp hplace with hdone | hnew
        · exact hvisited place hdone
        · rw [List.mem_singleton.mp hnew, ← hstart]
          exact hnone
      · rw [hgrant]
        refine Or.inr ⟨ready.head.taskId, ?_, ?_⟩
        · have hhead : ready.head ∈ queueOf order board ready.session :=
            hinv.waiting_sub (hready.1 ▸ List.mem_cons_self)
          exact ((mem_queueOf hwf).mp hhead).1.2.2
        · rw [granted_getElem?, if_pos rfl]
          simp
    rcases hrun with ⟨-, hnone⟩ | ⟨id, hbefore, hplaced⟩
    · exact hnone
    · rw [hsame] at hplaced
      exact absurd hbefore hplaced
  · intro hnone
    rw [fillResult_eq_start hnone]
    rfl

/-- The first waiting card of a session is the head of its queue. -/
theorem head_iff_firstWaiting (order : WalkOrder) (hwf : board.WellFormed) {task : TaskCard} :
    (∃ rest, queueOf order board task.ownerSession = task :: rest) ↔ board.FirstWaiting task := by
  have hsorted : (queueOf order board task.ownerSession).Pairwise (notAbove taskOrder) :=
    candidates_sorted.filter _
  constructor
  · rintro ⟨rest, hqueue⟩
    have hhead : task ∈ queueOf order board task.ownerSession := hqueue ▸ List.mem_cons_self
    obtain ⟨⟨htask, hwaits⟩, -⟩ := (mem_queueOf hwf).mp hhead
    refine ⟨htask, unplaced_iff.mpr hwaits, fun other hother hunplaced hsame => ?_⟩
    have hmem : other ∈ queueOf order board task.ownerSession :=
      (mem_queueOf hwf).mpr ⟨⟨hother, unplaced_iff.mp hunplaced⟩, hsame⟩
    rw [hqueue] at hmem hsorted
    rcases List.mem_cons.mp hmem with rfl | hrest
    · exact notAbove_refl _
    · exact (List.pairwise_cons.mp hsorted).1 other hrest
  · intro hfirst
    have hmem : task ∈ queueOf order board task.ownerSession :=
      (mem_queueOf hwf).mpr ⟨⟨hfirst.card, unplaced_iff.mp hfirst.waits⟩, rfl⟩
    cases hqueue : queueOf order board task.ownerSession with
    | nil =>
        rw [hqueue] at hmem
        cases hmem
    | cons head rest =>
        have hhead : head ∈ queueOf order board task.ownerSession :=
          hqueue ▸ List.mem_cons_self
        obtain ⟨⟨hcard, hwaits⟩, hsession⟩ := (mem_queueOf hwf).mp hhead
        rw [hqueue] at hmem hsorted
        rcases List.mem_cons.mp hmem with rfl | hrest
        · exact ⟨rest, rfl⟩
        · -- neither is above the other, so they are the same card
          have hle := (List.pairwise_cons.mp hsorted).1 task hrest
          have hge := hfirst.first head hcard (unplaced_iff.mpr hwaits) hsession
          have heq := taskId_eq_of_taskOrder_eq (eq_of_notAbove hle hge)
          rw [heq, hfirst.card, Option.some.injEq] at hcard
          exact ⟨rest, by rw [hcard]⟩

/-- The fill changes nothing exactly if no free slot admits a first waiting
card. -/
theorem fillResult_same_iff (order : WalkOrder) (hwf : board.WellFormed)
    (hinj : SlotInjective board.assignments) :
    (board.fillResult order).assignments = board.assignments ↔ board.Served := by
  rw [fillResult_assignments_eq_iff order hwf hinj]
  constructor
  · intro hnone task slot hfirst havailable hfree
    obtain ⟨rest, hqueue⟩ := (head_iff_firstWaiting order hwf).mpr hfirst
    rw [← Bool.not_eq_true]
    intro hadmits
    refine hnone slot (mem_freeSlots.mpr ⟨havailable, hfree⟩) ⟨task.ownerSession, task, rest⟩
      ⟨?_, hadmits⟩
    rw [fillStart_waiting]
    exact hqueue
  · intro hrefused slot hslot ready hready
    obtain ⟨hqueue, hadmits⟩ := hready
    rw [fillStart_waiting] at hqueue
    have hhead : ready.head ∈ queueOf order board ready.session := hqueue ▸ List.mem_cons_self
    obtain ⟨-, hsession⟩ := (mem_queueOf hwf).mp hhead
    obtain ⟨havailable, hfree⟩ := mem_freeSlots.mp hslot
    have hfirst := (head_iff_firstWaiting order hwf).mp ⟨ready.rest, hsession ▸ hqueue⟩
    rw [hrefused ready.head slot hfirst havailable hfree] at hadmits
    cases hadmits

/-- Where everybody is at home, a reallocation changes nothing exactly if everybody
is served. -/
theorem AtHome.reallocate_same_iff (hhome : board.AtHome) (h : board.LaidOut)
    (order : WalkOrder) :
    (board.reallocate order).assignments = board.assignments ↔ board.Served := by
  rw [reallocate_assignments, h.pinnedBoard_eq hhome order]
  exact fillResult_same_iff order h.wellFormed h.injective

end TaskBoard
end Tasks
end MicroEmu
