import MicroEmu.Tasks.FixedPoint

/-!
# Reallocating twice

The next reallocation leaves a board alone if everybody is at home and served,
and as long as no HID card is beaten to its position it does so only then.  With
one agent per session everybody always is served.

The board handed to a second reallocation need not be the one the first left:
registering the same device again, or the identical publication, changes cards
and clock but nothing the returns and pins depend on (`Unchanged`).
-/

namespace MicroEmu
namespace Tasks

open Std (ExtTreeMap LawfulEqCmp)
open Json (Value)
open Routing (AgentId)
open Library

namespace TaskBoard

variable {order : WalkOrder} {board : TaskBoard}

/-! ## Nothing changed -/

/-- What the layout depends on in a card, its place in the waiting order aside. -/
def steady (task : TaskCard) : AgentId × Option Nat × Bool × Bool :=
  (task.ownerAgent, task.sourceSlot, task.state.eligible, task.reconnectUntilMs.isSome)

/-- Devices, owners, layout, memory and the steady part of the cards are the
same. -/
structure Unchanged (before after : TaskBoard) : Prop where
  devices : after.devices = before.devices
  slotOwners : after.slotOwners = before.slotOwners
  partitionedDeviceId : after.partitionedDeviceId = before.partitionedDeviceId
  lastSlots : after.lastSlots = before.lastSlots
  primaryPreferences : after.primaryPreferences = before.primaryPreferences
  assignments : after.assignments = before.assignments
  cards : ∀ id : String, (after.tasks[id]?).map steady = (before.tasks[id]?).map steady

namespace Unchanged

variable {before after : TaskBoard} {id : String} {slot : DeviceSlot}

theorem refl (board : TaskBoard) : Unchanged board board :=
  ⟨rfl, rfl, rfl, rfl, rfl, rfl, fun _ => rfl⟩

theorem symm (h : Unchanged before after) : Unchanged after before where
  devices := h.devices.symm
  slotOwners := h.slotOwners.symm
  partitionedDeviceId := h.partitionedDeviceId.symm
  lastSlots := h.lastSlots.symm
  primaryPreferences := h.primaryPreferences.symm
  assignments := h.assignments.symm
  cards := fun id => (h.cards id).symm

theorem available (h : Unchanged before after) : after.available = before.available := by
  unfold TaskBoard.available
  rw [h.devices]

theorem slotOwner (h : Unchanged before after) (slot : DeviceSlot) :
    after.slotOwner slot = before.slotOwner slot := by
  unfold TaskBoard.slotOwner
  rw [h.partitionedDeviceId, h.slotOwners]

theorem card (h : Unchanged before after) {task : TaskCard}
    (htask : before.tasks[id]? = some task) :
    ∃ task', after.tasks[id]? = some task' ∧ task'.ownerAgent = task.ownerAgent ∧
      task'.sourceSlot = task.sourceSlot ∧ task'.state.eligible = task.state.eligible ∧
        task'.reconnectUntilMs.isSome = task.reconnectUntilMs.isSome := by
  have hcards := h.cards id
  rw [htask, Option.map_some] at hcards
  obtain ⟨task', htask', hsteady⟩ := Option.map_eq_some_iff.mp hcards
  simp only [steady, Prod.mk.injEq] at hsteady
  exact ⟨task', htask', hsteady⟩

theorem position (h : Unchanged before after) (hposition : before.Position id slot) :
    after.Position id slot := by
  obtain ⟨task, htask, hagent, hsource⟩ := hposition.card
  obtain ⟨task', htask', hagent', hsource', -⟩ := h.card htask
  refine ⟨h.partitionedDeviceId.trans hposition.primary, h.available ▸ hposition.available, ?_,
    task', htask', hagent'.trans hagent, hsource'.trans hsource⟩
  have howned := hposition.owned
  unfold ownedByCodex at howned ⊢
  rw [h.slotOwners]
  exact howned

theorem retains (h : Unchanged before after) (hretains : before.retains id ⟨slot⟩ = true) :
    after.retains id ⟨slot⟩ = true := by
  obtain ⟨task, htask, hstays, havailable, howner⟩ := retains_iff.mp hretains
  obtain ⟨task', htask', hagent, -, heligible, hleased⟩ := h.card htask
  refine retains_iff.mpr ⟨task', htask', ?_, h.available ▸ havailable, ?_⟩
  · rw [heligible, hleased]
    exact hstays
  · unfold retainsOwner at howner ⊢
    rw [h.partitionedDeviceId, h.slotOwners, hagent]
    exact howner

theorem keepsSlot (h : Unchanged before after) (hkeeps : before.KeepsSlot id slot) :
    after.KeepsSlot id slot := ⟨h.assignments ▸ hkeeps.1, h.retains hkeeps.2⟩

theorem openTo (h : Unchanged before after) (hopen : before.OpenTo id slot) :
    after.OpenTo id slot :=
  ⟨fun slot' hkeeps => hopen.1 slot' (h.symm.keepsSlot hkeeps),
    fun other hkeeps => hopen.2 other (h.symm.keepsSlot hkeeps)⟩

theorem rememberedSlot (h : Unchanged before after) (id : String) :
    after.rememberedSlot id = before.rememberedSlot id := by
  unfold TaskBoard.rememberedSlot
  rw [h.primaryPreferences, h.partitionedDeviceId, h.lastSlots]

theorem returns (h : Unchanged before after) (hreturns : before.Returns id slot) :
    after.Returns id slot := by
  obtain ⟨task, htask, heligible, hadmits⟩ := hreturns.card
  obtain ⟨task', htask', hagent, -, heligible', -⟩ := h.card htask
  refine ⟨⟨task', htask', heligible'.trans heligible, ?_⟩,
    (h.rememberedSlot id).trans hreturns.remembered, h.available ▸ hreturns.available,
      h.openTo hreturns.openTo⟩
  rw [h.slotOwner, hagent]
  exact hadmits

theorem pins (h : Unchanged before after) (hpins : before.Pins id slot) :
    after.Pins id slot := by
  obtain ⟨hposition, hfree⟩ := hpins
  refine ⟨h.position hposition, hfree.imp_right fun ⟨hopen, hnobody, hrace⟩ =>
    ⟨h.openTo hopen, fun other hreturns => hnobody other (h.symm.returns hreturns),
      fun slot' hreturns => ?_⟩⟩
  obtain ⟨other, hne, hother⟩ := hrace slot' (h.symm.returns hreturns)
  exact ⟨other, hne, h.returns hother⟩

theorem lastPin (h : Unchanged before after) (hlast : before.LastPin id slot) :
    after.LastPin id slot :=
  ⟨h.pins hlast.1, fun other hother => hlast.2 other (h.symm.pins hother)⟩

theorem atHome (h : Unchanged before after) (hhome : before.AtHome) : after.AtHome where
  hid := by
    intro id slot hhid hposition
    rw [h.assignments]
    exact hhome.hid id slot hhid (h.symm.position hposition)
  pinned := by
    intro id slot hlast
    rw [h.assignments]
    exact hhome.pinned id slot (h.symm.lastPin hlast)
  returning := by
    intro id slot hreturns
    obtain ⟨hid, hishid, hposition⟩ := hhome.returning id slot (h.symm.returns hreturns)
    exact ⟨hid, hishid, h.position hposition⟩

theorem conserved (h : Unchanged before after) (hwf : before.WellFormed)
    (hconserved : before.Conserved) : after.Conserved := by
  intro task slot htask heligible hhidden havailable hfree
  obtain ⟨task', htask', hagent, -, heligible', -⟩ := h.symm.card htask
  have hid := hwf.keyed htask'
  rw [h.assignments] at hhidden hfree
  rw [h.slotOwner, ← hagent]
  refine hconserved task' slot (hid.symm ▸ htask') (heligible'.trans heligible) ?_
    (h.available ▸ havailable) hfree
  rw [hid]
  exact hhidden

theorem laidOut (h : Unchanged before after) (hlaid : before.LaidOut)
    (hwf : after.WellFormed) : after.LaidOut where
  wellFormed := hwf
  injective := by
    rw [h.assignments]
    exact hlaid.injective
  entry := by
    intro id slot hassigned
    rw [h.assignments] at hassigned
    exact (hlaid.entry hassigned).imp h.retains h.position
  remembered := by
    intro id slot hassigned hprimary
    rw [h.assignments] at hassigned
    rw [h.partitionedDeviceId] at hprimary
    rw [h.rememberedSlot]
    exact hlaid.remembered hassigned hprimary

end Unchanged

theorem Refocused.laidOut {after : TaskBoard} (h : Refocused board after)
    (hlaid : board.LaidOut) : after.LaidOut := by
  obtain ⟨_, _, rfl⟩ := h
  exact @Unchanged.laidOut board _ ⟨rfl, rfl, rfl, rfl, rfl, rfl, fun _ => rfl⟩ hlaid
    (hlaid.wellFormed.congr rfl rfl)

/-- Registering a device again with its count changes nothing. -/
theorem unchanged_setDevice {deviceId : String} {n : Nat}
    (hdevice : board.devices[deviceId]? = some (deviceSlots deviceId n)) :
    ∃ m, handover order board (.setDevice deviceId n true) = some m ∧ Unchanged board m := by
  refine ⟨_, rfl, ?_, rfl, rfl, rfl, rfl, rfl, fun _ => rfl⟩
  ext id slots
  show (board.devices.insert deviceId (deviceSlots deviceId n))[id]? = some slots ↔
    board.devices[id]? = some slots
  rw [getElem?_insert_eq_ite]
  split
  · rename_i hid
    rw [← hid, hdevice]
  · exact Iff.rfl

/-- A merge leaves the steady part of the last card it is given under an id. -/
theorem steady_mergedBoard (board : TaskBoard) (cards : List TaskCard) (nowMs : Nat)
    (id : String) :
    ((board.mergedBoard cards nowMs).tasks[id]?).map steady =
      ((lastCard cards id).map steady).or ((board.tasks[id]?).map steady) := by
  cases hlast : lastCard cards id with
  | none =>
      rw [mergedBoard_of_not_mem (lastCard_eq_none_iff.mp hlast), Option.map_none, Option.none_or]
  | some card =>
      obtain ⟨merged, hget, hsame⟩ := mergedBoard_lastCard board nowMs hlast
      rw [hget, Option.map_some, Option.map_some, Option.some_or]
      simp only [steady, hsame.ownerAgent, hsame.sourceSlot, hsame.eligible,
        hsame.reconnectUntilMs]

/-- Merging cards of the same steady part a second time changes no steady part. -/
theorem steady_mergedBoard_again {base base' after : TaskBoard} {cards cards' : List TaskCard}
    {nowMs nowMs' : Nat} (htasks : after.tasks = (base.mergedBoard cards nowMs).tasks)
    (hbase : base'.tasks = after.tasks)
    (hcards : ∀ id, (lastCard cards' id).map steady = (lastCard cards id).map steady)
    (id : String) :
    ((base'.mergedBoard cards' nowMs').tasks[id]?).map steady = (after.tasks[id]?).map steady := by
  rw [steady_mergedBoard, hbase, htasks, steady_mergedBoard, hcards, ← Option.or_assoc,
    Option.or_self]

/-- Replacing the cards of a session by the same cards again changes nothing. -/
theorem unchanged_replacedBoard (order' : WalkOrder) {b after : TaskBoard} {session nowMs : Nat}
    {cards : List TaskCard}
    (htasks : after.tasks = (replacedBoard order b session cards nowMs).tasks) :
    Unchanged after (replacedBoard order' after session cards nowMs) := by
  have hkept : ∀ id, ¬after.Dropped session cards id := by
    rintro id ⟨⟨task, htask, hsession⟩, hfresh⟩
    rw [htasks] at htask
    rcases of_replacedBoard htask with ⟨-, -, hforeign⟩ | ⟨card, hcard, hid, -⟩
    · exact hforeign hsession
    · exact hfresh (hid ▸ List.mem_map.mpr ⟨card, hcard, rfl⟩)
  obtain ⟨_, _, _, hframe⟩ := replacedBoard_frame order' after session cards nowMs
  refine ⟨by rw [hframe], by rw [hframe], by rw [hframe], by rw [hframe], by rw [hframe], ?_,
    fun id => ?_⟩
  · ext id assignment
    rw [replacedBoard_assignments]
    exact and_iff_left (hkept id)
  · refine steady_mergedBoard_again htasks ?_ (fun _ => rfl) id
    ext id task
    rw [foldl_removeTask_tasks, if_neg fun hmem => hkept id (mem_dropped.mp hmem)]

/-- A selection redraw moves between idle and active, both eligible. -/
theorem eligible_of_selectionTransition {previous observed : TaskState}
    (h : isSelectionTransition previous observed = true) :
    previous.eligible = observed.eligible := by
  cases previous <;> cases observed <;> first | rfl | cases h

/-- An echo changes no steady part. -/
theorem steady_settled (echoing : Bool) {update : HidUpdate}
    (hobserved : update.observed = update.card.state) :
    steady (update.settled echoing) = steady update.card := by
  unfold HidUpdate.settled
  cases update.previous with
  | none => rfl
  | some previous =>
      simp only
      split
      · rename_i hecho
        rw [Bool.and_eq_true] at hecho
        have heligible := eligible_of_selectionTransition hecho.2
        rw [hobserved] at heligible
        simp only [steady, heligible]
      · rfl

/-- The same HID frame again changes nothing. -/
theorem unchanged_hidBoard (order' : WalkOrder) {b after : TaskBoard} {entries : List Value}
    {nowMs : Nat} {updates updates' : List HidUpdate}
    (h : b.hidUpdates entries nowMs = .ok updates)
    (h' : after.hidUpdates entries nowMs = .ok updates')
    (hcards : updates'.map HidUpdate.card = updates.map HidUpdate.card)
    (htasks : after.tasks = (b.hidBoard order updates nowMs).tasks) :
    Unchanged after (after.hidBoard order' updates' nowMs) := by
  obtain ⟨base, echoing, hfirst, -⟩ := hidBoard_eq order b updates nowMs
  obtain ⟨_, echoing', hsecond, selected, pendingSelection, rfl⟩ :=
    hidBoard_eq order' after updates' nowMs
  obtain ⟨_, _, hframe⟩ := mergedBoard_frame { after with selected, pendingSelection }
    (updates'.map (HidUpdate.settled echoing')) nowMs
  have hlast : ∀ {board : TaskBoard} {updates : List HidUpdate} (echoing : Bool),
      board.hidUpdates entries nowMs = .ok updates → ∀ id,
        (lastCard (updates.map (HidUpdate.settled echoing)) id).map steady =
          (lastCard (updates.map HidUpdate.card) id).map steady := by
    intro board updates echoing hok id
    refine lastCard_map_congr (fun update _ => (settled_owned echoing update).1)
      (fun update hupdate => ?_) id
    obtain ⟨_, _, -, -, hread⟩ := hidUpdates_ok hok update hupdate
    exact steady_settled echoing hread.observed
  rw [hfirst] at htasks
  rw [hsecond]
  refine ⟨by rw [hframe], by rw [hframe], by rw [hframe], by rw [hframe], by rw [hframe],
    by rw [hframe], ?_⟩
  refine steady_mergedBoard_again htasks rfl fun id => ?_
  rw [hlast echoing' h', hcards, hlast echoing h]

/-- A board that lets the session write every card accepts the same list. -/
theorem parseReplacement_congr {other : TaskBoard} {session nowMs : Nat} {agent : AgentId}
    {items : List Value} {seen : List String} {cards : List TaskCard}
    (h : board.parseReplacement session agent nowMs items seen = .ok cards)
    (howner : ∀ card ∈ cards, other.checkOwner session agent card.taskId = .ok ()) :
    other.parseReplacement session agent nowMs items seen = .ok cards := by
  induction items generalizing seen cards with
  | nil => exact h
  | cons item items ih =>
      obtain ⟨card, rest, rfl, hcard, -, hseen, hrest⟩ := parseReplacement_cons h
      unfold parseReplacement
      refine bind_eq_ok.mpr ⟨card, hcard, bind_eq_ok.mpr ⟨(), howner card List.mem_cons_self, ?_⟩⟩
      rw [if_neg hseen]
      refine bind_eq_ok.mpr ⟨rest, ih hrest fun c hc => howner c (List.mem_cons_of_mem _ hc), ?_⟩
      rfl

/-- After its own publication the session may publish the same cards again. -/
theorem publishedCards_again {b after : TaskBoard} {session nowMs : Nat} {agent : AgentId}
    {value : Value} {cards : List TaskCard}
    (h : b.publishedCards session agent value nowMs = .ok cards)
    (htasks : after.tasks = (replacedBoard order b session cards nowMs).tasks) :
    after.publishedCards session agent value nowMs = .ok cards := by
  have howner : ∀ card ∈ cards, after.checkOwner session agent card.taskId = .ok () := by
    intro card hcard
    rw [checkOwner_eq_ok_iff]
    intro existing hexisting
    rw [htasks] at hexisting
    rcases of_replacedBoard hexisting with ⟨hfresh, -, -⟩ | ⟨source, hsource, -, hsame⟩
    · exact absurd (List.mem_map.mpr ⟨card, hcard, rfl⟩) hfresh
    · obtain ⟨⟨_, hparsed⟩, -⟩ := publishedCards_ok h source hsource
      exact Or.inl (hsame.ownerSession.trans hparsed.ownerSession)
  unfold publishedCards at h ⊢
  split at h
  · cases h
  · exact parseReplacement_congr h howner

/-- The identical publication changes nothing. -/
theorem unchanged_publication (order' : WalkOrder) {op : Op} {m after : TaskBoard}
    (hop : op.publisher.isSome = true) (hm : handover order board op = some m)
    (hafter : Refocused (m.reallocate order) after) :
    ∃ m', handover order' after op = some m' ∧ Unchanged after m' := by
  have htasks : after.tasks = m.tasks := hafter.sameCards.tasks.trans reallocate_tasks
  cases op with
  | publishTasks session agent value nowMs =>
      obtain ⟨cards, hcards, rfl⟩ := Option.map_eq_some_iff.mp hm
      have hok := toOption_eq_some_iff.mp hcards
      refine ⟨replacedBoard order' after session cards nowMs, ?_,
        unchanged_replacedBoard order' htasks⟩
      rw [handover, publishedCards_again hok htasks]
      rfl
  | publishCodexSnapshot value nowMs =>
      obtain ⟨cards, hcards, rfl⟩ := Option.map_eq_some_iff.mp hm
      have hok := toOption_eq_some_iff.mp hcards
      refine ⟨replacedBoard order' after 0 cards nowMs, ?_,
        unchanged_replacedBoard order' htasks⟩
      rw [handover, publishedCards_again hok htasks]
      rfl
  | publishLegacyStatus session agent value nowMs =>
      obtain ⟨cards, hcards, rfl⟩ := Option.map_eq_some_iff.mp hm
      refine ⟨replacedBoard order' after session cards nowMs, ?_,
        unchanged_replacedBoard order' htasks⟩
      rw [handover, hcards]
      rfl
  | publishCodexHidStatus value nowMs =>
      obtain ⟨entries, hentries, h⟩ := Option.bind_eq_some_iff.mp hm
      obtain ⟨updates, hupdates, rfl⟩ := Option.map_eq_some_iff.mp h
      have hok := toOption_eq_some_iff.mp hupdates
      obtain ⟨updates', hok', hcards⟩ := hidUpdates_cards (after.dropExpiredGuards nowMs) hok
      refine ⟨(after.dropExpiredGuards nowMs).hidBoard order' updates' nowMs, ?_, ?_⟩
      · rw [handover, hentries, Option.bind_some, hok']
        rfl
      · have hsame := unchanged_hidBoard order' hok hok' hcards htasks
        exact ⟨hsame.devices, hsame.slotOwners, hsame.partitionedDeviceId, hsame.lastSlots,
          hsame.primaryPreferences, hsame.assignments, hsame.cards⟩
  | setDevice | clearDevices | setSlotOwners | disconnectSession | clearSession | expire | select
  | selectTask | autoSelectWaiting | guardSelectionActivation | setSelectedModel
  | restoreSlotPreferences => cases hop

/-! ## Idempotence -/

/-- Where no HID card is beaten to its position, everybody is at home if on every
walk a reallocation of the unchanged board changes no slot. -/
theorem HidUnbeaten.atHome (hunbeaten : board.HidUnbeaten) (hlaid : board.LaidOut)
    (hsame : ∀ order, ∃ m, Unchanged board m ∧ m.WellFormed ∧
      (m.reallocate order).assignments = board.assignments) : board.AtHome := by
  have hpinned (id : String) (slot : DeviceSlot) (hlast : board.LastPin id slot) :
      board.assignments[id]? = some ⟨slot⟩ := by
    -- a walk on which the card is pinned
    obtain ⟨order, hplain⟩ : ∃ order, ∀ m, Unchanged board m → m.WellFormed →
        isCodexHid id = true ∨ (m.stickyBoard order).assignments[id]? = none := by
      obtain ⟨-, hhid | ⟨hopen, -, hrace⟩⟩ := hlast.1
      · exact ⟨.ascending, fun _ _ _ => Or.inl hhid⟩
      by_cases hreturns : ∃ slot', board.Returns id slot'
      · obtain ⟨slot', hreturns⟩ := hreturns
        obtain ⟨other, hne, hother⟩ := hrace slot' hreturns
        exact ⟨.leading other, fun m hm hwf => Or.inr (sticky_none_of_rival hwf
          (hm.laidOut hlaid hwf).injective (hm.returns hreturns) (hm.returns hother) hne)⟩
      · exact ⟨.ascending, fun m hm hwf => Or.inr (sticky_none_of_not_returns hwf
          (hm.laidOut hlaid hwf).injective (hm.openTo hopen).1 fun slot' hreturns' =>
            hreturns ⟨slot', hm.symm.returns hreturns'⟩)⟩
    obtain ⟨m, hm, hwf, hsame⟩ := hsame order
    rw [← hsame]
    exact (hm.lastPin hlast).reallocate hwf (hm.laidOut hlaid hwf).injective (hplain m hm hwf)
  have hhid (id : String) (slot : DeviceSlot) (hishid : isCodexHid id = true)
      (hposition : board.Position id slot) : board.assignments[id]? = some ⟨slot⟩ :=
    hpinned id slot (hunbeaten id slot hishid hposition)
  refine ⟨hhid, hpinned, fun id slot hreturns => ?_⟩
  obtain ⟨m, hm, hwf, hsame⟩ := hsame .ascending
  obtain ⟨hid, hishid, hposition⟩ := (hm.laidOut hlaid hwf).returning_of_same
    (fun id slot hishid hposition =>
      hm.assignments ▸ hhid id slot hishid (hm.symm.position hposition))
    (hsame.trans hm.assignments.symm) (hm.returns hreturns)
  exact ⟨hid, hishid, hm.symm.position hposition⟩

/-- After an operation that reallocates, everybody is at home and served exactly if
no HID card is beaten to its position and reallocating again changes no slot, on
whatever walk.  With one agent per session no slot is wasted, so everybody is
served; then the same holds of every operation that hands over an unchanged board,
with everybody at home for its condition.  Registering a device with its own count
and the identical publication hand over an unchanged board. -/
theorem reallocation_idempotent (steps : List (WalkOrder × Op)) (order : WalkOrder) (op : Op)
    {m after : TaskBoard} (hm : handover order (run steps default) op = some m)
    (hafter : after = (run steps default).apply order op) :
    (after.AtHome ∧ after.Served ↔ after.HidUnbeaten ∧
        ∀ order', (after.reallocate order').assignments = after.assignments) ∧
      (∀ agentOf, Consistent agentOf (steps ++ [(order, op)]) →
        after.Conserved ∧ after.Served) ∧
      (∀ op', (∀ order', ∃ m', handover order' after op' = some m' ∧ Unchanged after m') →
        after.Conserved →
          (after.AtHome ↔ after.HidUnbeaten ∧
            ∀ order', (after.apply order' op').assignments = after.assignments)) ∧
      (∀ deviceId n, after.devices[deviceId]? = some (deviceSlots deviceId n) →
        ∀ order', ∃ m', handover order' after (.setDevice deviceId n true) = some m' ∧
          Unchanged after m') ∧
      (op.publisher.isSome = true →
        ∀ order', ∃ m', handover order' after op = some m' ∧ Unchanged after m') := by
  have hplaced := placed_run steps
  have hhanded := handed_of_handover hm
  have hwf := hhanded.wellFormed hplaced.wellFormed
  have hinj : SlotInjective m.assignments := hhanded.injective hplaced.injective
  have hfocus : Refocused (m.reallocate order) after := hafter ▸ apply_of_handover hm
  have hlaid : after.LaidOut := hfocus.laidOut (reallocate_laidOut order hwf hinj)
  refine ⟨⟨fun ⟨hhome, hserved⟩ => ⟨hhome.hidUnbeaten hlaid.injective, fun order' =>
      (hhome.reallocate_same_iff hlaid order').mpr hserved⟩, fun ⟨hunbeaten, hsame⟩ => ?_⟩,
    fun agentOf hconsistent => ?_, fun op' hop' hconserved => ⟨fun hhome =>
      ⟨hhome.hidUnbeaten hlaid.injective, fun order' => ?_⟩, fun ⟨hunbeaten, hsame⟩ => ?_⟩,
    fun deviceId n hdevice order' => unchanged_setDevice hdevice,
    fun hop order' => unchanged_publication order' hop hm hfocus⟩
  · have hhome := hunbeaten.atHome hlaid fun order' =>
      ⟨after, .refl after, hlaid.wellFormed, hsame order'⟩
    exact ⟨hhome, (hhome.reallocate_same_iff hlaid order).mp (hsame order)⟩
  · have hbefore : (run steps default).Uniform agentOf :=
      uniform_default.run fun step hstep => hconsistent step (List.mem_append_left _ hstep)
    have huniform : m.Uniform agentOf :=
      hhanded.uniform hbefore (hconsistent (order, op) (by simp))
    have hconserved := hfocus.conserved (reallocate_conserved order hwf hinj huniform)
    exact ⟨hconserved, hconserved.served⟩
  · obtain ⟨m', hm', hsame⟩ := hop' order'
    have hwf' := (handed_of_handover hm').wellFormed hlaid.wellFormed
    rw [(apply_of_handover hm').sameCards.assignments, ← hsame.assignments]
    exact ((hsame.atHome hhome).reallocate_same_iff (hsame.laidOut hlaid hwf') order').mpr
      (hsame.conserved hlaid.wellFormed hconserved).served
  · refine hunbeaten.atHome hlaid fun order' => ?_
    obtain ⟨m', hm', hunchanged⟩ := hop' order'
    refine ⟨m', hunchanged, (handed_of_handover hm').wellFormed hlaid.wellFormed, ?_⟩
    rw [← (apply_of_handover hm').sameCards.assignments]
    exact hsame order'

/-- Where every card keeps a slot and every HID card with a position is on it,
everybody is at home. -/
theorem atHome_of_kept
    (hkept : ∀ id task, board.tasks[id]? = some task → ∃ slot, board.KeepsSlot id slot)
    (hhid : ∀ id slot, isCodexHid id = true → board.Position id slot →
      board.assignments[id]? = some ⟨slot⟩) : board.AtHome := by
  have hclosed {id : String} {task : TaskCard} {slot : DeviceSlot}
      (htask : board.tasks[id]? = some task) : ¬board.OpenTo id slot := fun hopen => by
    obtain ⟨slot', hkeeps⟩ := hkept id task htask
    exact hopen.1 slot' hkeeps
  refine ⟨hhid, fun id slot hlast => ?_, fun id slot hreturns => ?_⟩
  · obtain ⟨hposition, hhid' | ⟨hopen, -⟩⟩ := hlast.1
    · exact hhid id slot hhid' hposition
    · obtain ⟨task, htask, -⟩ := hposition.card
      exact absurd hopen (hclosed htask)
  · obtain ⟨task, htask, -⟩ := hreturns.card
    exact absurd hreturns.openTo (hclosed htask)

/-- The frame that lights position 0 once more. -/
def litAgain : Op := .publishCodexHidStatus (litFrame 0) 30

/-- The HID card is on its position beside the catalog card, and the same frame
again leaves both there. -/
theorem reallocation_idempotent_once :
    let board := (run pinnedOverCatalog default).apply .ascending litAgain
    (board.apply .descending litAgain).assignments = board.assignments := by
  intro board
  have hsome : (handover .ascending (run pinnedOverCatalog default) litAgain).isSome = true := by
    decide +kernel
  obtain ⟨m, hm⟩ := Option.isSome_iff_exists.mp hsome
  have hreads : board.partitionedDeviceId = some "primary" ∧
      board.tasks.toList.map (fun entry => (entry.1, entry.2.sourceSlot,
        (board.assignments[entry.1]?).map fun assignment =>
          (assignment.slot, board.retains entry.1 assignment))) =
        [("codex-hid:0", some 0, some (⟨"primary", 0⟩, true)),
          ("thread", some 0, some (⟨"primary", 1⟩, true))] := by
    decide +kernel
  have hread : ∀ {id task}, board.tasks[id]? = some task →
      ∃ slot, board.KeepsSlot id slot ∧
        (id = "codex-hid:0" ∧ task.sourceSlot = some 0 ∧ slot = ⟨"primary", 0⟩ ∨
          id = "thread") := by
    intro id task htask
    have hmem := List.mem_map_of_mem (ExtTreeMap.mem_toList_iff_getElem?_eq_some.mpr htask)
      (f := fun entry : String × TaskCard => (entry.1, entry.2.sourceSlot,
        (board.assignments[entry.1]?).map fun assignment =>
          (assignment.slot, board.retains entry.1 assignment)))
    rw [hreads.2, List.mem_pair, Prod.mk.injEq, Prod.mk.injEq, Prod.mk.injEq, Prod.mk.injEq]
      at hmem
    rcases hmem with ⟨rfl, hsource, hslot⟩ | ⟨rfl, -, hslot⟩
    all_goals
      obtain ⟨⟨slot⟩, hassigned, hkept⟩ := Option.map_eq_some_iff.mp hslot
      obtain ⟨hplace, hretains⟩ := Prod.mk.inj hkept
    · exact ⟨slot, ⟨hassigned, hretains⟩, Or.inl ⟨rfl, hsource, hplace⟩⟩
    · exact ⟨slot, ⟨hassigned, hretains⟩, Or.inr rfl⟩
  have hhome : board.AtHome :=
    atHome_of_kept (fun id task htask => (hread htask).imp fun _ h => h.1) (by
      intro id slot hhid hposition
      obtain ⟨task, htask, -, hsource⟩ := hposition.card
      obtain ⟨place, hkeeps, ⟨rfl, hzero, rfl⟩ | rfl⟩ := hread htask
      · rw [hzero, Option.some.injEq] at hsource
        have hprimary := hposition.primary
        rw [hreads.1, Option.some.injEq] at hprimary
        rw [hkeeps.1, hprimary, hsource]
      · have hnot : isCodexHid "thread" = false := by decide
        rw [hnot] at hhid
        cases hhid)
  have hcodex : Consistent (fun _ => .codex) (pinnedOverCatalog ++ [(.ascending, litAgain)]) := by
    intro step hstep session agent hpublisher
    simp only [pinnedOverCatalog, List.cons_append, List.nil_append, List.mem_cons,
      List.not_mem_nil, or_false] at hstep
    rcases hstep with rfl | rfl | rfl | rfl | rfl <;> cases hpublisher <;> rfl
  have h := reallocation_idempotent pinnedOverCatalog .ascending litAgain hm rfl
  have hconserved := (h.2.1 (fun _ => .codex) hcodex).1
  exact ((h.2.2.1 litAgain (h.2.2.2.2 rfl) hconserved).mp hhome).2 .descending

/-- The catalog card that took the slot of a HID card loses it to that card when
the controller registers a second time. -/
theorem reallocation_flips :
    let register := Op.setDevice "primary" 6 true
    let board := (run waitingForDevice default).apply .ascending register
    board.assignments.toList =
        [("codex-hid:0", ⟨⟨"primary", 1⟩⟩), ("thread", ⟨⟨"primary", 0⟩⟩)] ∧
      (board.apply .ascending register).assignments ≠ board.assignments := by
  refine ⟨by decide +kernel, fun hsame => ?_⟩
  have hslot := congrArg (fun assignments : Assignments => assignments["thread"]?) hsame
  revert hslot
  decide +kernel

end TaskBoard
end Tasks
end MicroEmu
