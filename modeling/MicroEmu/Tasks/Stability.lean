import MicroEmu.Tasks.HidPins

/-!
# Slot stability

A publication reallocates the whole board.  Every card the retain pass keeps
stays where it is, because a catalog card is only ever pinned to an empty slot;
only a HID card can take its place.

The exception is a card on a reserved position, an unowned slot among the first
six of the partitioned device.  Only the pin pass puts a Codex card there, the
retain pass drops it on every reallocation, and it returns by being pinned again,
at the source position the publication now gives it.  `Anchored` says when that
is the slot it left.
-/

namespace MicroEmu
namespace Tasks

open Std (ExtTreeMap LawfulEqCmp)
open Json (Value)
open Routing (AgentId)
open Library

/-- The publications that replace the cards of their session. -/
def Op.replacesSession : Op → Bool
  | .publishTasks .. | .publishCodexSnapshot .. | .publishLegacyStatus .. => true
  | _ => false

namespace TaskBoard

variable {order : WalkOrder} {board : TaskBoard}

/-! ## Reserved positions -/

/-- An unowned slot among the first six of the partitioned device. -/
def Reserved (board : TaskBoard) (slot : DeviceSlot) : Prop :=
  board.partitionedDeviceId = some slot.deviceId ∧
    board.slotOwners[slot.slot]? = some none ∧ slot.slot < Routing.lcdSlots

/-- Nobody may be scheduled on a reserved position. -/
theorem Reserved.admits {slot : DeviceSlot} (h : board.Reserved slot) (agent : AgentId) :
    (board.slotOwner slot).admits agent = false := by
  obtain ⟨hprimary, howner, hlt⟩ := h
  have hne : board.slotOwners.isEmpty = false := by
    cases howners : board.slotOwners with
    | nil => simp [howners] at howner
    | cons _ _ => rfl
  have hnot : ¬slot.slot ≥ Routing.lcdSlots := by omega
  unfold slotOwner
  simp [hprimary, hne, howner, hnot, SlotConstraint.admits]

/-- No task asks to return to a reserved position. -/
theorem Reserved.not_requests {slot : DeviceSlot} (h : board.Reserved slot) (id : String) :
    ¬board.Requests id slot := by
  rintro ⟨task, -, -, htarget⟩
  have hadmits : (board.slotOwner slot).admits task.ownerAgent = true :=
    (stickyTarget_eq_some_iff.mp htarget).2.2.2
  rw [h.admits] at hadmits
  cases hadmits

/-- The retain pass keeps nobody on a reserved position. -/
theorem Reserved.not_retains {slot : DeviceSlot} (h : board.Reserved slot) (id : String) :
    board.retainPass.assignments[id]? ≠ some ⟨slot⟩ := by
  obtain ⟨hprimary, howner, hlt⟩ := h
  intro hkept
  obtain ⟨task, -, -, -, hretains⟩ := retains_iff.mp (retained_iff.mp hkept).2
  unfold retainsOwner at hretains
  have hnot : ¬slot.slot ≥ Routing.lcdSlots := by omega
  simp [hprimary, howner, hnot] at hretains

/-- A card complies with a slot that is not reserved through the owner test. -/
theorem Complies.reserved_or {task : TaskCard} {slot : DeviceSlot}
    (h : board.Complies task slot) :
    board.retainsOwner task.ownerAgent slot = true ∨
      (board.Reserved slot ∧ task.ownerAgent = .codex ∧
        board.ownedByCodex slot.slot = true) := by
  rcases h.owner with hretains | ⟨hprimary, hagent, -, howned⟩
  · exact Or.inl hretains
  · cases howner : board.slotOwners[slot.slot]? with
    | none => exact Or.inl (by simp [retainsOwner, howner])
    | some owner =>
        cases owner with
        | none =>
            by_cases hlt : slot.slot < Routing.lcdSlots
            · exact Or.inr ⟨⟨hprimary, howner, hlt⟩, hagent, howned⟩
            · exact Or.inl (by simp [retainsOwner, howner, not_lt.mp hlt])
        | some agent =>
            have hcodex : agent = .codex := by
              unfold ownedByCodex at howned
              rw [howner, Option.join_some, Option.all_some, Bool.or_eq_true,
                List.isEmpty_iff, beq_iff_eq] at howned
              rcases howned with hempty | hcodex
              · rw [hempty] at howner
                cases howner
              · exact hcodex
            exact Or.inl (by simp [retainsOwner, howner, hagent, hcodex])

/-! ## One reallocation -/

/-- A catalog pin spares the cards that are placed: it asks for no slot of theirs. -/
theorem pinnedTo_spares (hwf : board.WellFormed) {id : String} {slot : DeviceSlot}
    (hsticky : (board.stickyBoard order).assignments[id]? = some ⟨slot⟩) {other : String}
    {slot' : DeviceSlot} (hpin : (board.stickyBoard order).PinnedTo other slot') :
    isCodexHid other = true ∨ (other ≠ id ∧ slot' ≠ slot) := by
  obtain ⟨task, htask, hslot⟩ := hpin
  obtain ⟨-, -, -, -, -, hfree⟩ :=
    (pinSlot_eq_some_iff (stickyBoard_wellFormed order hwf)).mp hslot
  obtain rfl := hwf.keyed htask
  rcases hfree with hhid | ⟨hunplaced, hempty⟩
  · exact Or.inl hhid
  · refine Or.inr ⟨?_, ?_⟩
    · rintro rfl
      rw [hsticky] at hunplaced
      cases hunplaced
    · rintro rfl
      rw [slotTaken_iff.mpr ⟨id, hsticky⟩] at hempty
      cases hempty

/-- A card that is placed before the pins stays if it is not pinned elsewhere and
no HID card is pinned over it. -/
theorem reallocate_of_sticky (hwf : board.WellFormed) (hinj : SlotInjective board.assignments)
    {id : String} {slot : DeviceSlot}
    (hsticky : (board.stickyBoard order).assignments[id]? = some ⟨slot⟩)
    (hself : isCodexHid id = true → ∀ slot', ¬(board.stickyBoard order).PinnedTo id slot')
    (hunpinned : ∀ hid, isCodexHid hid = true → ¬(board.stickyBoard order).PinnedTo hid slot) :
    (board.reallocate order).assignments[id]? = some ⟨slot⟩ := by
  have hpinned : (board.pinnedBoard order).assignments[id]? = some ⟨slot⟩ := by
    refine (pinPass_iff (stickyBoard_wellFormed order hwf)
      (stickyBoard_injective order hinj)).mpr (Or.inr ⟨fun slot' hpin => ?_,
        fun other hpin => ?_, hsticky⟩)
    · rcases pinnedTo_spares hwf hsticky hpin with hhid | ⟨hne, -⟩
      · exact hself hhid slot' hpin
      · exact hne rfl
    · rcases pinnedTo_spares hwf hsticky hpin with hhid | ⟨-, hne⟩
      · exact hunpinned other hhid hpin
      · exact hne rfl
  rw [reallocate_assignments]
  exact (reallocate_fillInv order hwf hinj).old hpinned

/-- A catalog card that is placed before the pins stays where no HID card is pinned. -/
theorem reallocate_of_unpinned (hwf : board.WellFormed) (hinj : SlotInjective board.assignments)
    {id : String} {slot : DeviceSlot} (hnotHid : isCodexHid id = false)
    (hsticky : (board.stickyBoard order).assignments[id]? = some ⟨slot⟩)
    (hunpinned : ∀ hid, isCodexHid hid = true → ¬(board.stickyBoard order).PinnedTo hid slot) :
    (board.reallocate order).assignments[id]? = some ⟨slot⟩ := by
  refine reallocate_of_sticky hwf hinj hsticky (fun hhid => ?_) hunpinned
  rw [hnotHid] at hhid
  cases hhid

/-- A card the retain pass keeps stays where no HID card is pinned. -/
theorem reallocate_keeps_unpinned (hwf : board.WellFormed)
    (hinj : SlotInjective board.assignments) {id : String} {slot : DeviceSlot}
    (hnotHid : isCodexHid id = false)
    (hkept : board.retainPass.assignments[id]? = some ⟨slot⟩)
    (hunpinned : ∀ hid, isCodexHid hid = true → ¬(board.stickyBoard order).PinnedTo hid slot) :
    (board.reallocate order).assignments[id]? = some ⟨slot⟩ :=
  reallocate_of_unpinned hwf hinj hnotHid (stickyBoard_keeps order hwf hinj hkept) hunpinned

/-- A card the retain pass keeps stays, or a HID card is pinned over it. -/
theorem reallocate_keeps (hwf : board.WellFormed) (hinj : SlotInjective board.assignments)
    {id : String} {slot : DeviceSlot} (hnotHid : isCodexHid id = false)
    (hkept : board.retainPass.assignments[id]? = some ⟨slot⟩) :
    (board.reallocate order).assignments[id]? = some ⟨slot⟩ ∨
      ∃ hid, isCodexHid hid = true ∧
        (board.reallocate order).assignments[hid]? = some ⟨slot⟩ := by
  by_cases hclaimed : ∃ other, (board.stickyBoard order).PinnedTo other slot
  · -- the slot is taken, so only HID cards ask for it, and the last of them gets it
    obtain ⟨other, hother⟩ := hclaimed
    obtain ⟨last, hlast, hmax⟩ := exists_last_pin order hwf hother
    rcases pinnedTo_spares hwf (stickyBoard_keeps order hwf hinj hkept) hlast with hhid | ⟨-, hne⟩
    · exact Or.inr ⟨last, hhid, reallocate_of_last_pin hwf hinj hlast hmax⟩
    · exact absurd rfl hne
  · exact Or.inl (reallocate_keeps_unpinned hwf hinj hnotHid hkept
      fun hid _ hpin => hclaimed ⟨hid, hpin⟩)

/-- What brings a Codex card back to the reserved position it was dropped from:
its source slot is still that position, it asks for no other slot it remembers,
and no catalog card rivals it there. -/
structure Anchored (board : TaskBoard) (id : String) (slot : DeviceSlot) : Prop where
  source : ∃ task, board.tasks[id]? = some task ∧ task.sourceSlot = some slot.slot
  still : ∀ slot', ¬board.Requests id slot'
  alone : ∀ other, isCodexHid other = false → ¬board.Rival id slot other

/-- An anchored card returns to its reserved position, or a HID card is pinned
there. -/
theorem reallocate_returns (hwf : board.WellFormed) (hinj : SlotInjective board.assignments)
    {id : String} {slot : DeviceSlot} {task : TaskCard} (hreserved : board.Reserved slot)
    (htask : board.tasks[id]? = some task) (hagent : task.ownerAgent = .codex)
    (hassigned : board.assignments[id]? = some ⟨slot⟩)
    (havailable : slot ∈ board.available) (howned : board.ownedByCodex slot.slot = true)
    (hanchored : board.Anchored id slot) :
    (board.reallocate order).assignments[id]? = some ⟨slot⟩ ∨
      ∃ hid, isCodexHid hid = true ∧
        (board.reallocate order).assignments[hid]? = some ⟨slot⟩ := by
  have hsource : task.sourceSlot = some slot.slot := by
    obtain ⟨task', htask', hsource⟩ := hanchored.source
    rw [htask] at htask'
    exact Option.some.inj htask' ▸ hsource
  have hunplaced : (board.stickyBoard order).assignments[id]? = none := by
    cases hplaced : (board.stickyBoard order).assignments[id]? with
    | none => rfl
    | some assignment =>
        obtain ⟨slot'⟩ := assignment
        rcases of_stickyBoard hwf hinj hplaced with hkept | hasked
        · have hslot := (retained_iff.mp hkept).1
          rw [hassigned] at hslot
          obtain rfl := congrArg TaskAssignment.slot (Option.some.inj hslot)
          exact absurd hkept (hreserved.not_retains id)
        · exact absurd hasked (hanchored.still slot')
  have hempty : slotTaken (board.stickyBoard order).assignments slot = false := by
    rw [← Bool.not_eq_true]
    intro htaken
    obtain ⟨holder, hholder⟩ := slotTaken_iff.mp htaken
    rcases of_stickyBoard hwf hinj hholder with hkept | hasked
    · exact hreserved.not_retains holder hkept
    · exact hreserved.not_requests holder hasked
  have hpin : (board.stickyBoard order).PinnedTo id slot := by
    refine ⟨task, htask, (pinSlot_eq_some_iff (stickyBoard_wellFormed order hwf)).mpr
      ⟨hreserved.1, havailable, hagent, hsource, howned, Or.inr ⟨?_, hempty⟩⟩⟩
    rw [hwf.keyed htask]
    exact hunplaced
  obtain ⟨last, hlast, hmax⟩ := exists_last_pin order hwf hpin
  have hplaced := reallocate_of_last_pin hwf hinj hlast hmax
  -- whoever is pinned last gets the slot: this card, a HID card, or a catalog rival
  rcases lt_or_eq_of_le (hmax id hpin) with hlater | rfl
  · have hrival := rival_of_pin order hwf hinj hlater hlast
    cases hhid : isCodexHid last with
    | true => exact Or.inr ⟨last, hhid, hplaced⟩
    | false => exact absurd hrival (hanchored.alone last hhid)
  · exact Or.inl hplaced

/-! ## Stability of a publication -/

/-- The publications that replace a session hand its replacement over. -/
theorem handover_replacesSession {op : Op} {m : TaskBoard} (hop : op.replacesSession = true)
    (h : handover order board op = some m) :
    ∃ session cards nowMs, m = replacedBoard order board session cards nowMs := by
  cases op with
  | publishTasks session agent value nowMs =>
      obtain ⟨cards, -, rfl⟩ := Option.map_eq_some_iff.mp h
      exact ⟨_, _, _, rfl⟩
  | publishCodexSnapshot value nowMs =>
      obtain ⟨cards, -, rfl⟩ := Option.map_eq_some_iff.mp h
      exact ⟨_, _, _, rfl⟩
  | publishLegacyStatus session agent value nowMs =>
      obtain ⟨cards, -, rfl⟩ := Option.map_eq_some_iff.mp h
      exact ⟨_, _, _, rfl⟩
  | _ => cases hop

/-- The card was on the slot, is there after the publication with the same agent,
is no HID card, and is eligible or leased. -/
structure Protected (before after : TaskBoard) (id : String) (slot : DeviceSlot) : Prop where
  assigned : before.assignments[id]? = some ⟨slot⟩
  card : ∃ old new, before.tasks[id]? = some old ∧ after.tasks[id]? = some new ∧
    new.ownerAgent = old.ownerAgent ∧
      (new.state.eligible = true ∨ new.reconnectUntilMs.isSome = true)
  notHid : isCodexHid id = false

/-- The card is on the slot, or a HID card is pinned there. -/
def StaysOn (after : TaskBoard) (id : String) (slot : DeviceSlot) : Prop :=
  after.assignments[id]? = some ⟨slot⟩ ∨
    ∃ hid, isCodexHid hid = true ∧ after.assignments[hid]? = some ⟨slot⟩

/-- No accepted publication moves a protected card of a reachable board, unless
the card is on a reserved position it is not anchored to. -/
theorem slot_stability (steps : List (WalkOrder × Op)) (order : WalkOrder) (op : Op)
    {m : TaskBoard} {id : String} {slot : DeviceSlot} (hop : op.replacesSession = true)
    (hm : handover order (run steps default) op = some m)
    (hprotected : Protected (run steps default) ((run steps default).apply order op) id slot)
    (hanchored : m.Reserved slot → m.Anchored id slot) :
    StaysOn ((run steps default).apply order op) id slot := by
  have hplaced := placed_run steps
  have hhanded := handed_of_handover hm
  have hwf := hhanded.wellFormed hplaced.wellFormed
  have hinj : SlotInjective m.assignments := hhanded.injective hplaced.injective
  obtain ⟨_, _, hafter⟩ := apply_of_handover hm
  obtain ⟨old, new, hold, hnew, hagent, hstays⟩ := hprotected.card
  rw [hafter] at hnew ⊢
  simp only [reallocate_tasks] at hnew
  obtain ⟨session, cards, nowMs, rfl⟩ := handover_replacesSession hop hm
  obtain ⟨tasks, assignments, reviewed, hframe⟩ :=
    replacedBoard_frame order (run steps default) session cards nowMs
  have hassigned : (replacedBoard order (run steps default) session cards nowMs).assignments[id]? =
      some ⟨slot⟩ := by
    refine replacedBoard_assignments.mpr ⟨hprotected.assigned, ?_⟩
    rintro ⟨⟨gone, hgone, hsession⟩, hfresh⟩
    rcases of_replacedBoard hnew with ⟨-, hsame, hforeign⟩ | ⟨card, hcard, hid, -⟩
    · rw [hgone] at hsame
      exact hforeign (Option.some.inj hsame ▸ hsession)
    · exact hfresh (hid ▸ List.mem_map.mpr ⟨card, hcard, rfl⟩)
  obtain ⟨old', hold', hcomplies⟩ := hplaced.complies hprotected.assigned
  rw [hold] at hold'
  obtain rfl := Option.some.inj hold'
  have havailable :
      slot ∈ (replacedBoard order (run steps default) session cards nowMs).available := by
    unfold available
    rw [hframe]
    exact hcomplies.available
  -- the retain pass keeps the card, or its position is reserved and it was pinned
  rcases hcomplies.reserved_or with hretains | ⟨hreserved, hcodex, howned⟩
  · refine reallocate_keeps hwf hinj hprotected.notHid (retained_iff.mpr ⟨hassigned, ?_⟩)
    refine retains_iff.mpr ⟨new, hnew, hstays, havailable, ?_⟩
    unfold retainsOwner at hretains ⊢
    rw [hagent, hframe]
    exact hretains
  · have hreserved' : (replacedBoard order (run steps default) session cards nowMs).Reserved
        slot := by
      unfold Reserved
      rw [hframe]
      exact hreserved
    have howned' : (replacedBoard order (run steps default) session cards nowMs).ownedByCodex
        slot.slot = true := by
      unfold ownedByCodex
      rw [hframe]
      exact howned
    exact reallocate_returns hwf hinj hreserved' hnew (hagent.trans hcodex) hassigned havailable
      howned' (hanchored hreserved')

/-- Two threads on their source positions, under the given owners. -/
def twoThreads (owners : List (Option AgentId)) : List (WalkOrder × Op) :=
  [(.ascending, .setDevice "primary" 6 true),
    (.ascending, .setSlotOwners "primary" owners),
    (.ascending, .publishCodexSnapshot (snapshotOf [("a", 0), ("b", 1)]) 10)]

/-- The desktop lists the two threads the other way round. -/
def swapThreads : Op := .publishCodexSnapshot (snapshotOf [("a", 1), ("b", 0)]) 20

/-- The first thread is protected by the swap, from lookups before and after it. -/
private theorem protected_of_lookups (owners : List (Option AgentId))
    (hassigned : (run (twoThreads owners) default).assignments["a"]? = some ⟨⟨"primary", 0⟩⟩)
    (hold : ((run (twoThreads owners) default).tasks["a"]?).map (·.ownerAgent) = some .codex)
    (hnew : (((run (twoThreads owners) default).apply .ascending swapThreads).tasks["a"]?).map
      (fun task => (task.ownerAgent, task.state)) = some (.codex, .queued)) :
    Protected (run (twoThreads owners) default)
      ((run (twoThreads owners) default).apply .ascending swapThreads) "a" ⟨"primary", 0⟩ := by
  obtain ⟨old, hgetOld, hagentOld⟩ := Option.map_eq_some_iff.mp hold
  obtain ⟨new, hgetNew, hdata⟩ := Option.map_eq_some_iff.mp hnew
  obtain ⟨hagentNew, hstate⟩ := Prod.mk.inj hdata
  exact ⟨hassigned, ⟨old, new, hgetOld, hgetNew, hagentNew.trans hagentOld.symm,
    Or.inl (by rw [hstate]; rfl)⟩, by decide⟩

/-- On positions of Codex a swap of the source positions moves nobody. -/
theorem slot_stability_swap :
    StaysOn ((run (twoThreads codexOwners) default).apply .ascending swapThreads) "a"
      ⟨"primary", 0⟩ := by
  have hsome : (handover .ascending (run (twoThreads codexOwners) default) swapThreads).isSome =
      true := by decide +kernel
  obtain ⟨m, hm⟩ := Option.isSome_iff_exists.mp hsome
  have hprotected := protected_of_lookups codexOwners (by decide +kernel) (by decide +kernel)
    (by decide +kernel)
  refine slot_stability (twoThreads codexOwners) .ascending swapThreads rfl hm hprotected ?_
  rintro ⟨-, howner, -⟩
  have howners : (handover .ascending (run (twoThreads codexOwners) default) swapThreads).map
      (·.slotOwners[0]?) = some (some (some .codex)) := by decide +kernel
  rw [hm, Option.map_some, howner] at howners
  cases howners

/-- On unowned positions the same swap exchanges the two cards. -/
theorem slot_swapped :
    Protected (run (twoThreads (List.replicate 6 none)) default)
        ((run (twoThreads (List.replicate 6 none)) default).apply .ascending swapThreads) "a"
        ⟨"primary", 0⟩ ∧
      ¬StaysOn ((run (twoThreads (List.replicate 6 none)) default).apply .ascending swapThreads)
        "a" ⟨"primary", 0⟩ := by
  refine ⟨protected_of_lookups (List.replicate 6 none) (by decide +kernel) (by decide +kernel)
    (by decide +kernel), ?_⟩
  have hlayout : ((run (twoThreads (List.replicate 6 none)) default).apply .ascending
      swapThreads).assignments.toList =
        [("a", ⟨⟨"primary", 1⟩⟩), ("b", ⟨⟨"primary", 0⟩⟩)] := by decide +kernel
  have hentry : ∀ {id : String}, ((run (twoThreads (List.replicate 6 none)) default).apply
      .ascending swapThreads).assignments[id]? = some ⟨⟨"primary", 0⟩⟩ → id = "b" := by
    intro id hid
    have hmem := ExtTreeMap.mem_toList_iff_getElem?_eq_some.mpr hid
    rw [hlayout] at hmem
    simpa using hmem
  rintro (hstays | ⟨hid, hhid, hassigned⟩)
  · have hab := hentry hstays
    revert hab
    decide
  · rw [hentry hassigned] at hhid
    revert hhid
    decide

end TaskBoard
end Tasks
end MicroEmu
