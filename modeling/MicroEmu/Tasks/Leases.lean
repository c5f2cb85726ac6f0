import MicroEmu.Tasks.Acknowledgement

/-!
# Reconnect leases

A disconnected session keeps its cards for the time of a lease.  Until the deadline
only the session itself, a publication that names the card, or a second disconnect
can touch it, and it keeps its slot as long as the slot stays its agent's.  The first
`expire` at the deadline removes what was not taken over.  A card that was taken over
carries no lease, so nothing of the old lease is left to run out.
-/

namespace MicroEmu
namespace Tasks

open Std (ExtTreeMap LawfulEqCmp)
open Json (Value)
open Routing (AgentId)
open Library

/-! ## Published cards carry no lease -/

/-- After a merge the entry holds the last of its cards. -/
theorem Entry.foldl_merge_card {cards : List TaskCard} (hcards : cards ≠ []) (nowMs : Nat)
    (entry : Entry) :
    ∃ card ∈ cards, ∃ merged, (cards.foldl (Entry.merge nowMs) entry).card = some merged ∧
      SameSource merged card := by
  induction cards generalizing entry with
  | nil => exact absurd rfl hcards
  | cons first cards ih =>
      rw [List.foldl_cons]
      cases cards with
      | nil =>
          exact ⟨first, List.mem_cons_self, _, rfl,
            (sameSource_mergeTimers ..).trans (sameSource_reviewCard ..)⟩
      | cons second cards =>
          obtain ⟨card, hcard, hmerged⟩ := ih (List.cons_ne_nil _ _) (entry.merge nowMs first)
          exact ⟨card, List.mem_cons_of_mem _ hcard, hmerged⟩

namespace TaskBoard

variable {order : WalkOrder} {board : TaskBoard}

theorem settled_reconnectUntilMs (echoing : Bool) (update : HidUpdate) :
    (update.settled echoing).reconnectUntilMs = update.card.reconnectUntilMs := by
  unfold HidUpdate.settled
  cases update.previous with
  | none => rfl
  | some previous =>
      simp only
      split
      · rfl
      · rfl

/-- Every card of a publication is the publisher's and has no lease. -/
theorem mergedCards_unleased {op : Op} {cards : List TaskCard} {nowMs : Nat}
    (h : board.mergedCards op = some (cards, nowMs)) :
    ∀ card ∈ cards, op.publisher = some (card.ownerSession, card.ownerAgent) ∧
      card.reconnectUntilMs = none := by
  intro card hcard
  cases op with
  | publishTasks session agent value nowMs' =>
      obtain ⟨_, hcards, heq⟩ := Option.map_eq_some_iff.mp h
      obtain ⟨rfl, rfl⟩ := Prod.mk.inj heq
      obtain ⟨⟨_, hparsed⟩, -⟩ := publishedCards_ok (toOption_eq_some_iff.mp hcards) card hcard
      rw [hparsed.ownerSession, hparsed.ownerAgent]
      exact ⟨rfl, hparsed.reconnectUntilMs⟩
  | publishCodexSnapshot value nowMs' =>
      obtain ⟨_, hcards, heq⟩ := Option.map_eq_some_iff.mp h
      obtain ⟨rfl, rfl⟩ := Prod.mk.inj heq
      obtain ⟨⟨_, hparsed⟩, -⟩ := publishedCards_ok (toOption_eq_some_iff.mp hcards) card hcard
      rw [hparsed.ownerSession, hparsed.ownerAgent]
      exact ⟨rfl, hparsed.reconnectUntilMs⟩
  | publishLegacyStatus session agent value nowMs' =>
      obtain ⟨_, hcards, heq⟩ := Option.map_eq_some_iff.mp h
      obtain ⟨rfl, rfl⟩ := Prod.mk.inj heq
      obtain ⟨_, _, _, -, -, -, hparsed⟩ :=
        legacyCards_ok (toOption_eq_some_iff.mp hcards) card hcard
      rw [hparsed.ownerSession, hparsed.ownerAgent]
      exact ⟨rfl, hparsed.reconnectUntilMs⟩
  | publishCodexHidStatus value nowMs' =>
      obtain ⟨entries, hentries, h⟩ := Option.bind_eq_some_iff.mp h
      obtain ⟨updates, hupdates, heq⟩ := Option.map_eq_some_iff.mp h
      obtain ⟨rfl, rfl⟩ := Prod.mk.inj heq
      obtain ⟨update, hupdate, rfl⟩ := List.mem_map.mp hcard
      obtain ⟨_, _, -, -, hread⟩ := hidUpdates_ok (toOption_eq_some_iff.mp hupdates) update hupdate
      obtain ⟨-, hsession, hagent, -⟩ := settled_owned
        (!(board.dropExpiredGuards nowMs').selectionActivationGuards.isEmpty ||
          selectionHandoff updates) update
      rw [hsession, hagent, hread.parsed.ownerSession, hread.parsed.ownerAgent,
        settled_reconnectUntilMs]
      exact ⟨rfl, hread.parsed.reconnectUntilMs⟩
  | setDevice | clearDevices | setSlotOwners | disconnectSession | clearSession | expire | select
  | selectTask | autoSelectWaiting | guardSelectionActivation | setSelectedModel
  | restoreSlotPreferences => cases h

/-- An accepted publication names the task. -/
def TakesOver (id : String) (board : TaskBoard) (op : Op) : Prop :=
  ∃ cards nowMs, board.mergedCards op = some (cards, nowMs) ∧ id ∈ cards.map TaskCard.taskId

/-- A card that a publication names is the publisher's, without a lease. -/
theorem TakesOver.card {id : String} {op : Op} (h : TakesOver id board op) (order : WalkOrder) :
    ∃ task, (board.apply order op).tasks[id]? = some task ∧
      op.publisher = some (task.ownerSession, task.ownerAgent) ∧
        task.reconnectUntilMs = none := by
  obtain ⟨cards, nowMs, hmerged, hnamed⟩ := h
  have hcards : cards.filter (·.taskId == id) ≠ [] := by
    obtain ⟨card, hcard, rfl⟩ := List.mem_map.mp hnamed
    exact List.ne_nil_of_mem (List.mem_filter.mpr ⟨hcard, beq_self_eq_true _⟩)
  obtain ⟨card, hcard, merged, htask, hsame⟩ :=
    Entry.foldl_merge_card hcards nowMs (board.entry id)
  obtain ⟨hpublisher, hunleased⟩ :=
    mergedCards_unleased hmerged card (List.mem_filter.mp hcard).1
  refine ⟨merged, ?_, ?_, hsame.reconnectUntilMs.trans hunleased⟩
  · show ((board.apply order op).entry id).card = some merged
    rw [apply_entry_of_mergedCards order hmerged hnamed]
    exact htask
  · rw [hsame.ownerSession, hsame.ownerAgent]
    exact hpublisher

/-! ## A leased card -/

/-- The card is the session's and is leased until the deadline. -/
def Leased (session deadline : Nat) (agent : AgentId) (task : TaskCard) : Prop :=
  task.ownerSession = session ∧ task.ownerAgent = agent ∧
    task.reconnectUntilMs = some deadline

/-- What ends the lease of a card: the session is cleared, publishes or disconnects
once more, the deadline is reached, or a publication takes the card over. -/
inductive EndsLease (session deadline : Nat) (id : String) (board : TaskBoard) : Op → Prop where
  | cleared : EndsLease session deadline id board (.clearSession session)
  | reached {nowMs : Nat} (late : deadline ≤ nowMs) :
      EndsLease session deadline id board (.expire nowMs)
  | published {op : Op} {agent : AgentId} (publisher : op.publisher = some (session, agent)) :
      EndsLease session deadline id board op
  | renewed {nowMs : Nat} : EndsLease session deadline id board (.disconnectSession session nowMs)
  | takenOver {op : Op} (takes : TakesOver id board op) : EndsLease session deadline id board op

/-- Any other step keeps the card and its lease. -/
theorem CardStep.leased_of_lasts {id : String} {op : Op} {after : Entry}
    (h : board.CardStep id op after) {session deadline : Nat} {agent : AgentId} {task : TaskCard}
    (htask : board.tasks[id]? = some task) (hleased : Leased session deadline agent task)
    (hlasts : ¬EndsLease session deadline id board op) :
    ∃ task', after.card = some task' ∧ Leased session deadline agent task' := by
  obtain ⟨howner, hagent, hlease⟩ := hleased
  cases h with
  | kept => exact ⟨task, htask, howner, hagent, hlease⟩
  | published hmerged hnamed => exact absurd (.takenOver ⟨_, _, hmerged, hnamed⟩) hlasts
  | removed hcard hremoves =>
      rw [htask] at hcard
      obtain rfl := Option.some.inj hcard
      cases hremoves with
      | unlisted hpublisher => exact absurd (.published (howner ▸ hpublisher)) hlasts
      | cleared => exact absurd (howner ▸ .cleared) hlasts
      | expired hcard hover =>
          rw [hlease] at hcard
          obtain rfl := Option.some.inj hcard
          exact absurd (.reached hover) hlasts
  | leased hcard hsession =>
      rw [htask] at hcard
      obtain rfl := Option.some.inj hcard
      obtain rfl := howner.symm.trans hsession
      exact absurd .renewed hlasts
  | acknowledged hcard =>
      rw [htask] at hcard
      obtain rfl := Option.some.inj hcard
      exact ⟨_, rfl, howner, hagent, hlease⟩
  | remodelled hcard =>
      rw [htask] at hcard
      obtain rfl := Option.some.inj hcard
      exact ⟨_, rfl, howner, hagent, hlease⟩

/-! ## A card on its slot -/

/-- Devices and owners are the same. -/
structure SameSlots (before after : TaskBoard) : Prop where
  devices : after.devices = before.devices
  slotOwners : after.slotOwners = before.slotOwners
  partitionedDeviceId : after.partitionedDeviceId = before.partitionedDeviceId

theorem SameSlots.available {after : TaskBoard} (h : SameSlots board after) :
    after.available = board.available := by
  unfold TaskBoard.available
  rw [h.devices]

theorem SameSlots.retainsOwner {after : TaskBoard} (h : SameSlots board after) (agent : AgentId)
    (slot : DeviceSlot) : after.retainsOwner agent slot = board.retainsOwner agent slot := by
  unfold TaskBoard.retainsOwner
  rw [h.slotOwners, h.partitionedDeviceId]

/-- A board is handed over with the slots of its remaining cards, unless a device
leaves. -/
theorem handover_keeps_slot {op : Op} {m : TaskBoard} (hplaced : Placed board)
    (h : handover order board op = some m) (hdevices : m.devices = board.devices) {id : String}
    {slot : DeviceSlot} {task : TaskCard} (htask : m.tasks[id]? = some task)
    (hassigned : board.assignments[id]? = some ⟨slot⟩) : m.assignments[id]? = some ⟨slot⟩ := by
  have hreplaced : ∀ {session cards nowMs},
      m = replacedBoard order board session cards nowMs → m.assignments[id]? = some ⟨slot⟩ := by
    rintro session cards nowMs rfl
    refine replacedBoard_assignments.mpr ⟨hassigned, ?_⟩
    rintro ⟨⟨gone, hgone, hsession⟩, hfresh⟩
    rcases of_replacedBoard htask with ⟨-, hsame, hforeign⟩ | ⟨card, hcard, hid, -⟩
    · rw [hgone] at hsame
      exact hforeign (Option.some.inj hsame ▸ hsession)
    · exact hfresh (hid ▸ List.mem_map.mpr ⟨card, hcard, rfl⟩)
  have hremoved : ∀ {base : TaskBoard} {ids : List String}, base.assignments = board.assignments →
      base.removedBoard ids = some m → m.assignments[id]? = some ⟨slot⟩ := by
    intro base ids hbase hm
    unfold removedBoard at hm
    split at hm
    · cases hm
    · obtain rfl := Option.some.inj hm
      rw [foldl_removeTask_tasks] at htask
      rw [foldl_removeTask_assignments, hbase]
      split at htask
      · cases htask
      · rename_i hkept
        rw [if_neg hkept]
        exact hassigned
  cases op with
  | setDevice deviceId taskSlots connected =>
      obtain rfl := Option.some.inj h
      cases connected with
      | true => exact hassigned
      | false =>
          rw [if_neg Bool.false_ne_true] at hdevices ⊢
          rw [ExtTreeMap.getElem?_filter', Option.filter_eq_some_iff]
          refine ⟨hassigned, bne_iff_ne.mpr ?_⟩
          rintro rfl
          -- the slot's device is registered, so leaving would change the devices
          obtain ⟨_, _, hcomplies⟩ := hplaced.complies hassigned
          obtain ⟨n, hdevice, -⟩ :=
            (mem_available_iff hplaced.wellFormed).mp hcomplies.available
          rw [← hdevices] at hdevice
          simp at hdevice
  | setSlotOwners deviceId owners =>
      rw [handover] at h
      split at h
      · obtain rfl := Option.some.inj h
        exact hassigned
      · cases h
  | publishTasks session agent value nowMs =>
      obtain ⟨cards, -, hm⟩ := Option.map_eq_some_iff.mp h
      exact hreplaced hm.symm
  | publishCodexSnapshot value nowMs =>
      obtain ⟨cards, -, hm⟩ := Option.map_eq_some_iff.mp h
      exact hreplaced hm.symm
  | publishLegacyStatus session agent value nowMs =>
      obtain ⟨cards, -, hm⟩ := Option.map_eq_some_iff.mp h
      exact hreplaced hm.symm
  | publishCodexHidStatus value nowMs =>
      obtain ⟨entries, -, h⟩ := Option.bind_eq_some_iff.mp h
      obtain ⟨updates, -, rfl⟩ := Option.map_eq_some_iff.mp h
      obtain ⟨base, echoing, hboard, hfocus⟩ :=
        hidBoard_eq order (board.dropExpiredGuards nowMs) updates nowMs
      obtain ⟨_, _, hframe⟩ :=
        mergedBoard_frame base (updates.map (HidUpdate.settled echoing)) nowMs
      rw [hboard, hframe]
      show base.assignments[id]? = some ⟨slot⟩
      rw [hfocus.sameCards.assignments]
      exact hassigned
  | clearSession session => exact hremoved rfl h
  | expire nowMs =>
      have hbase : ({ board with nowMs := nowMs } : TaskBoard).assignments =
          board.assignments := rfl
      exact hremoved hbase h
  | clearDevices | disconnectSession | select | selectTask | autoSelectWaiting
  | guardSelectionActivation | setSelectedModel | restoreSlotPreferences => cases h

/-- While devices and owners stay, a leased card that stays on the board stays on a
slot its agent may keep, or a HID card is pinned there. -/
theorem staysOn_apply {op : Op} {id : String} {slot : DeviceSlot} {task : TaskCard}
    (hplaced : Placed board) (hslots : SameSlots board (board.apply order op))
    (hnotHid : isCodexHid id = false) (hassigned : board.assignments[id]? = some ⟨slot⟩)
    (htask : (board.apply order op).tasks[id]? = some task)
    (hlease : task.reconnectUntilMs.isSome = true)
    (hretains : board.retainsOwner task.ownerAgent slot = true) :
    StaysOn (board.apply order op) id slot := by
  obtain ⟨_, _, hcomplies⟩ := hplaced.complies hassigned
  rcases apply_cases order board op with ⟨m, hm, hhanded, hfocus⟩ | hquiet | ⟨-, hclear⟩
  · rw [(apply_cards hm).1] at htask
    have hwf := hhanded.wellFormed hplaced.wellFormed
    have hinj : SlotInjective m.assignments := hhanded.injective hplaced.injective
    have hslots' : SameSlots board m := by
      obtain ⟨_, _, hafter⟩ := hfocus
      rw [hafter] at hslots
      refine ⟨?_, ?_, ?_⟩
      · simpa only [reallocate_devices] using hslots.devices
      · simpa only [reallocate_slotOwners] using hslots.slotOwners
      · simpa only [reallocate_partitionedDeviceId] using hslots.partitionedDeviceId
    have hkept : m.retainPass.assignments[id]? = some ⟨slot⟩ := by
      refine retained_iff.mpr ⟨handover_keeps_slot hplaced hm hslots'.devices htask hassigned,
        retains_iff.mpr ⟨task, htask, Or.inr hlease, ?_, ?_⟩⟩
      · rw [hslots'.available]
        exact hcomplies.available
      · rw [hslots'.retainsOwner]
        exact hretains
    unfold StaysOn
    rw [hfocus.sameCards.assignments]
    exact reallocate_keeps hwf hinj hnotHid hkept
  · exact Or.inl (hquiet.assignments ▸ hassigned)
  · have hdevices := hslots.devices
    rw [hclear] at hdevices
    obtain ⟨n, hdevice, -⟩ := (mem_available_iff hplaced.wellFormed).mp hcomplies.available
    rw [← hdevices] at hdevice
    simp [clearDevices] at hdevice

/-! ## Runs -/

/-- The lease of the card ends in the step. -/
abbrev EndsLeaseBy (session deadline : Nat) (id : String) (board : TaskBoard)
    (step : WalkOrder × Op) : Prop :=
  EndsLease session deadline id board step.2

/-- A run in which the lease does not end keeps the leased card. -/
theorem leased_run {session deadline : Nat} {agent : AgentId} {id : String}
    {steps : List (WalkOrder × Op)} {task : TaskCard} (htask : board.tasks[id]? = some task)
    (hleased : Leased session deadline agent task)
    (hlasts : AlongRun (fun board step => ¬EndsLeaseBy session deadline id board step)
      steps board) :
    ∃ task', (run steps board).tasks[id]? = some task' ∧ Leased session deadline agent task' := by
  refine hlasts.invariant (fun board => ∃ task, board.tasks[id]? = some task ∧
    Leased session deadline agent task) ?_ ⟨task, htask, hleased⟩
  rintro board step ⟨task, htask, hleased⟩ hlasts
  exact (apply_cardStep step.1 board step.2 id).leased_of_lasts htask hleased hlasts

/-- While moreover devices and owners stay, the card stays on a slot its agent may
keep, until a HID card is pinned there. -/
theorem leased_slot_run {session deadline : Nat} {agent : AgentId} {id : String}
    {slot : DeviceSlot} {steps : List (WalkOrder × Op)} {task : TaskCard} (hplaced : Placed board)
    (htask : board.tasks[id]? = some task) (hleased : Leased session deadline agent task)
    (hnotHid : isCodexHid id = false) (hassigned : board.assignments[id]? = some ⟨slot⟩)
    (hretains : board.retainsOwner agent slot = true)
    (hlasts : AlongRun (fun board step => ¬EndsLeaseBy session deadline id board step) steps board)
    (hslots : AlongRun (fun board step => SameSlots board (board.apply step.1 step.2))
      steps board) :
    (run steps board).assignments[id]? = some ⟨slot⟩ ∨
      ∃ earlier later, steps = earlier ++ later ∧ ∃ hid, isCodexHid hid = true ∧
        (run earlier board).assignments[hid]? = some ⟨slot⟩ := by
  induction steps generalizing board task with
  | nil => exact Or.inl hassigned
  | cons step steps ih =>
      obtain ⟨task', htask', hleased'⟩ :=
        (apply_cardStep step.1 board step.2 id).leased_of_lasts htask hleased hlasts.1
      have hstays := staysOn_apply hplaced hslots.1 hnotHid hassigned htask'
        (Option.isSome_iff_exists.mpr ⟨_, hleased'.2.2⟩) (hleased'.2.1 ▸ hretains)
      rcases hstays with hstays | ⟨hid, hhid, hpinned⟩
      · have hretains' : (board.apply step.1 step.2).retainsOwner agent slot = true :=
          (hslots.1.retainsOwner agent slot).trans hretains
        rcases ih (hplaced.apply step.1 step.2) htask' hleased' hstays hretains' hlasts.2
          hslots.2 with hlast | ⟨earlier, later, rfl, hpinned⟩
        · exact Or.inl hlast
        · exact Or.inr ⟨step :: earlier, later, rfl, hpinned⟩
      · exact Or.inr ⟨[step], steps, rfl, hid, hhid, hpinned⟩

/-- An expiry removes every card whose lease has run out. -/
theorem expire_removes (order : WalkOrder) {id : String} {task : TaskCard} {deadline nowMs : Nat}
    (htask : board.tasks[id]? = some task) (hlease : task.reconnectUntilMs = some deadline)
    (hlate : deadline ≤ nowMs) : (board.apply order (.expire nowMs)).tasks[id]? = none := by
  have hmem : id ∈ taskIdsWhere order { board with nowMs := nowMs } fun _ task =>
      task.reconnectUntilMs.any fun untilMs => decide (untilMs ≤ nowMs) :=
    mem_taskIdsWhere.mpr ⟨task, htask, by simp [hlease, hlate]⟩
  cases hhandover : handover order board (.expire nowMs) with
  | none =>
      rw [handover, removedBoard] at hhandover
      split at hhandover
      · rename_i hempty
        rw [List.isEmpty_iff] at hempty
        rw [hempty] at hmem
        cases hmem
      · cases hhandover
  | some m =>
      rw [(apply_cards hhandover).1]
      rw [handover, removedBoard] at hhandover
      split at hhandover
      · cases hhandover
      · obtain rfl := Option.some.inj hhandover
        rw [foldl_removeTask_tasks, if_pos hmem]

/-- A leased card that nobody takes over is gone or still carries its lease. -/
theorem lapsing_run {session deadline : Nat} {agent : AgentId} {id : String}
    {steps : List (WalkOrder × Op)}
    (hleased : ∀ task, board.tasks[id]? = some task → Leased session deadline agent task)
    (hlasts : AlongRun (fun board step => ¬TakesOver id board step.2 ∧
      ∀ nowMs, step.2 ≠ .disconnectSession session nowMs) steps board) :
    ∀ task, (run steps board).tasks[id]? = some task → Leased session deadline agent task := by
  refine hlasts.invariant (fun board => ∀ task, board.tasks[id]? = some task →
    Leased session deadline agent task) ?_ hleased
  rintro board ⟨order, op⟩ hleased ⟨hfree, hrenews⟩ task htask
  have hstep := apply_cardStep order board op id
  have hcard : ((board.apply order op).entry id).card = some task := htask
  generalize (board.apply order op).entry id = after at hstep hcard
  cases hstep with
  | kept => exact hleased task hcard
  | published hmerged hnamed => exact absurd ⟨_, _, hmerged, hnamed⟩ hfree
  | removed => cases hcard
  | leased hbefore howner =>
      rw [← howner, (hleased _ hbefore).1] at hrenews
      exact absurd rfl (hrenews _)
  | acknowledged hbefore =>
      have hlease := hleased _ hbefore
      obtain rfl := Option.some.inj hcard
      exact hlease
  | remodelled hbefore =>
      have hlease := hleased _ hbefore
      obtain rfl := Option.some.inj hcard
      exact hlease

/-- The step is no disconnect of the session that owns the task. -/
def OwnerStays (id : String) (board : TaskBoard) (step : WalkOrder × Op) : Prop :=
  ∀ session nowMs task, step.2 = .disconnectSession session nowMs →
    board.tasks[id]? = some task → task.ownerSession ≠ session

/-- A card without a lease stays without one until its owner disconnects. -/
theorem unleased_run {id : String} {steps : List (WalkOrder × Op)}
    (hunleased : ∀ task, board.tasks[id]? = some task → task.reconnectUntilMs = none)
    (howner : AlongRun (OwnerStays id) steps board) :
    ∀ task, (run steps board).tasks[id]? = some task → task.reconnectUntilMs = none := by
  refine howner.invariant (fun board => ∀ task, board.tasks[id]? = some task →
    task.reconnectUntilMs = none) ?_ hunleased
  rintro board ⟨order, op⟩ hunleased howner task htask
  by_cases htakes : TakesOver id board op
  · obtain ⟨taken, htaken, -, hlease⟩ := htakes.card order
    rw [htask] at htaken
    obtain rfl := Option.some.inj htaken
    exact hlease
  · have hstep := apply_cardStep order board op id
    have hcard : ((board.apply order op).entry id).card = some task := htask
    generalize (board.apply order op).entry id = after at hstep hcard
    cases hstep with
    | kept => exact hunleased task hcard
    | published hmerged hnamed => exact absurd ⟨_, _, hmerged, hnamed⟩ htakes
    | removed => cases hcard
    | leased hbefore hsession => exact absurd hsession (howner _ _ _ rfl hbefore)
    | acknowledged hbefore =>
        have hlease := hunleased _ hbefore
        obtain rfl := Option.some.inj hcard
        exact hlease
    | remodelled hbefore =>
        have hlease := hunleased _ hbefore
        obtain rfl := Option.some.inj hcard
        exact hlease

/-- An expiry leaves a card without a lease. -/
theorem expire_keeps_unleased (order : WalkOrder) (nowMs : Nat) {id : String}
    (hunleased : ∀ task, board.tasks[id]? = some task → task.reconnectUntilMs = none) :
    (board.apply order (.expire nowMs)).tasks[id]? = board.tasks[id]? := by
  have hstep := apply_cardStep order board (.expire nowMs) id
  show ((board.apply order (.expire nowMs)).entry id).card = board.tasks[id]?
  generalize (board.apply order (.expire nowMs)).entry id = after at hstep
  cases hstep with
  | kept => rfl
  | published hmerged => cases hmerged
  | removed hcard hremoves =>
      cases hremoves with
      | unlisted hpublisher => cases hpublisher
      | expired hlease =>
          rw [hunleased _ hcard] at hlease
          cases hlease
  | acknowledged _ _ hacknowledges => cases hacknowledges

/-! ## Lease safety -/

theorem disconnectSession_tasks {session nowMs : Nat} {id : String} {task : TaskCard}
    (htask : board.tasks[id]? = some task) (howner : task.ownerSession = session) :
    (board.disconnectSession session nowMs).tasks[id]? =
      some (leaseCard (wrappingAdd nowMs reconnectGrace) task) := by
  unfold disconnectSession
  simp only [ExtTreeMap.getElem?_map, htask, Option.map_some, howner, if_true]

/-- From the disconnect of a session on, for each of its cards: until the lease ends
the card stays on the board, and while devices and owners stay a card other than a
HID card stays on a slot that admits its agent until a HID card is pinned there;
unless the card is taken over, or the session disconnects again, an expiry at or
after the deadline leaves it removed; and once a publication has taken the card over,
no expiry touches it before its owner disconnects. -/
theorem lease_safety (before : List (WalkOrder × Op)) (order : WalkOrder) (session nowMs : Nat)
    (id : String) (task : TaskCard) (htask : (run before default).tasks[id]? = some task)
    (howner : task.ownerSession = session) :
    let deadline := wrappingAdd nowMs reconnectGrace
    let left := (run before default).apply order (.disconnectSession session nowMs)
    (∀ steps, AlongRun (fun board step => ¬EndsLeaseBy session deadline id board step) steps left →
      (∃ task', (run steps left).tasks[id]? = some task' ∧ task'.ownerSession = session ∧
        task'.reconnectUntilMs = some deadline) ∧
      ∀ slot, isCodexHid id = false → left.assignments[id]? = some ⟨slot⟩ →
        (left.slotOwner slot).admits task.ownerAgent = true →
          AlongRun (fun board step => SameSlots board (board.apply step.1 step.2)) steps left →
            (run steps left).assignments[id]? = some ⟨slot⟩ ∨
              ∃ earlier later, steps = earlier ++ later ∧ ∃ hid, isCodexHid hid = true ∧
                (run earlier left).assignments[hid]? = some ⟨slot⟩) ∧
      (∀ steps, AlongRun (fun board step => ¬TakesOver id board step.2 ∧
          ∀ nowMs, step.2 ≠ .disconnectSession session nowMs) steps left →
        ∀ order nowMs, deadline ≤ nowMs →
          ((run steps left).apply order (.expire nowMs)).tasks[id]? = none) ∧
        ∀ steps order op, TakesOver id (run steps left) op →
          ∀ later, AlongRun (OwnerStays id) later ((run steps left).apply order op) →
            let board := run later ((run steps left).apply order op)
            ∀ order nowMs, (board.apply order (.expire nowMs)).tasks[id]? = board.tasks[id]? := by
  intro deadline left
  have hplaced : Placed left := (placed_run before).apply order _
  have hcard : left.tasks[id]? = some (leaseCard deadline task) :=
    disconnectSession_tasks htask howner
  have hleased : Leased session deadline task.ownerAgent (leaseCard deadline task) :=
    ⟨howner, rfl, rfl⟩
  refine ⟨fun steps hlasts => ⟨?_, ?_⟩, ?_, ?_⟩
  · obtain ⟨task', htask', hsession, -, hlease⟩ := leased_run hcard hleased hlasts
    exact ⟨task', htask', hsession, hlease⟩
  · intro slot hnotHid hassigned hadmits hslots
    exact leased_slot_run hplaced hcard hleased hnotHid hassigned (retainsOwner_of_admits hadmits)
      hlasts hslots
  · intro steps hlasts order' later hlate
    have hstart : ∀ task', left.tasks[id]? = some task' →
        Leased session deadline task.ownerAgent task' := by
      intro task' htask'
      rw [hcard] at htask'
      exact Option.some.inj htask' ▸ hleased
    have hlapsing := lapsing_run hstart hlasts
    cases hthere : (run steps left).tasks[id]? with
    | none => exact (expire_keeps_unleased order' later (by simp [hthere])).trans hthere
    | some task' => exact expire_removes order' hthere (hlapsing task' hthere).2.2 hlate
  · intro steps order' op htakes later hstays board order'' later'
    refine expire_keeps_unleased order'' later' (unleased_run (fun task' htask' => ?_) hstays)
    obtain ⟨taken, htaken, -, hlease⟩ := htakes.card order'
    rw [htask'] at htaken
    exact Option.some.inj htaken ▸ hlease

/-- The lease of the card lasts through the operation, as a test. -/
def lastsThrough (session deadline : Nat) (id : String) (board : TaskBoard) (op : Op) : Bool :=
  ((board.mergedCards op).all fun merged => !(merged.1.map TaskCard.taskId).contains id) &&
    (op.publisher.all (·.1 != session) &&
      match op with
      | .clearSession other | .disconnectSession other _ => other != session
      | .expire nowMs => decide (nowMs < deadline)
      | _ => true)

theorem not_endsLease_of_lastsThrough {session deadline : Nat} {id : String} {op : Op}
    (h : lastsThrough session deadline id board op = true) :
    ¬EndsLease session deadline id board op := by
  obtain ⟨hfree, hrest⟩ := Bool.and_eq_true_iff.mp h
  obtain ⟨hpublisher, hop⟩ := Bool.and_eq_true_iff.mp hrest
  rintro (_ | hlate | hown | _ | ⟨cards, nowMs, hmerged, hnamed⟩)
  · exact absurd rfl (bne_iff_ne.mp hop)
  · exact absurd (of_decide_eq_true hop) (Nat.not_lt.mpr hlate)
  · rw [hown, Option.all_some] at hpublisher
    exact absurd rfl (bne_iff_ne.mp hpublisher)
  · exact absurd rfl (bne_iff_ne.mp hop)
  · rw [hmerged, Option.all_some, Bool.not_eq_true', ← Bool.not_eq_true,
      List.contains_iff_mem] at hfree
    exact hfree hnamed

/-- One session publishes one task, on a device of six slots. -/
def published (session : Nat) (taskId : String) (nowMs : Nat) : WalkOrder × Op :=
  (.ascending, .publishTasks session .zCode
    (.object [("tasks", .array [.object [("task_id", .string taskId)]])]) nowMs)

/-- While its session is away, another one comes and goes. -/
def comeAndGo : List (WalkOrder × Op) :=
  [published 2 "other" 200, (.ascending, .clearSession 2), (.ascending, .expire 30099)]

/-- The card outlives a session that comes and goes, until the deadline. -/
theorem lease_safety_comeAndGo :
    let left := (run [(.ascending, .setDevice "primary" 6 true), published 1 "mine" 50]
      default).apply .ascending (.disconnectSession 1 100)
    (run comeAndGo left).tasks.contains "mine" = true ∧
      ((run comeAndGo left).apply .ascending (.expire 30100)).tasks["mine"]? = none := by
  intro left
  have howned : ((run [(.ascending, .setDevice "primary" 6 true), published 1 "mine" 50]
      default).tasks["mine"]?).map (·.ownerSession) = some 1 := by decide +kernel
  obtain ⟨task, htask, howner⟩ := Option.map_eq_some_iff.mp howned
  obtain ⟨hkeeps, hremoves, -⟩ := lease_safety _ .ascending 1 100 "mine" task htask howner
  have hlasts : AlongRun (fun board step => ¬EndsLeaseBy 1 30100 "mine" board step)
      comeAndGo left := by
    refine ⟨?_, ?_, ?_, trivial⟩ <;>
      exact not_endsLease_of_lastsThrough (by decide +kernel)
  constructor
  · obtain ⟨task', htask', -⟩ := (hkeeps comeAndGo hlasts).1
    exact contains_iff_exists.mpr ⟨task', htask'⟩
  · refine hremoves comeAndGo (hlasts.mono fun hlasts => ⟨?_, ?_⟩) .ascending 30100 (by decide)
    · exact fun htakes => hlasts (.takenOver htakes)
    · rintro nowMs hop
      unfold EndsLeaseBy at hlasts
      rw [hop] at hlasts
      exact hlasts .renewed

end TaskBoard
end Tasks
end MicroEmu
