import MicroEmu.Tasks.Publish
import MicroEmu.Tasks.Stages

/-!
# What one operation does

An operation of the board does one of three things.  It hands some board to the
reallocation (`handover`), it changes neither the layout nor what the layout
rests on (`Quiet`), or it is `clear_devices`, which empties the layout.  The
invariants of later modules are proved once for the reallocation, from
`reallocate_entry`, and once for a quiet step; no later module unfolds an
operation to prove one.
-/

namespace MicroEmu
namespace Tasks

open Std (ExtTreeMap LawfulEqCmp)
open Json (Value)
open Routing (AgentId)
open Library

/-- What the layout rests on in a card. -/
def TaskCard.owned (task : TaskCard) : String × Nat × AgentId × Option Nat :=
  (task.taskId, task.ownerSession, task.ownerAgent, task.sourceSlot)

namespace TaskBoard

variable {order : WalkOrder} {board : TaskBoard}

/-! ## Operations that reallocate -/

/-- A HID frame before its reallocation. -/
def hidBoard (order : WalkOrder) (board : TaskBoard) (updates : List HidUpdate)
    (nowMs : Nat) : TaskBoard :=
  let handoff := selectionHandoff updates
  let echoing := !board.selectionActivationGuards.isEmpty || handoff
  let selected := if handoff then board.followHandoff order updates else board
  selected.mergedBoard (updates.map (HidUpdate.settled echoing)) nowMs

/-- Remove some cards and reallocate, if there are any. -/
def removedBoard (board : TaskBoard) (ids : List String) : Option TaskBoard :=
  if ids.isEmpty then none else some (ids.foldl removeTask board)

/-- The board an operation hands to the reallocation, if it reallocates. -/
def handover (order : WalkOrder) (board : TaskBoard) : Op → Option TaskBoard
  | .setDevice deviceId taskSlots connected =>
      some <|
        if connected then
          { board with devices := board.devices.insert deviceId (deviceSlots deviceId taskSlots) }
        else
          { board with
            devices := board.devices.erase deviceId
            assignments := board.assignments.filter fun _ assignment =>
              assignment.slot.deviceId != deviceId }
  | .setSlotOwners deviceId owners =>
      if board.partitionedDeviceId ≠ some deviceId ∨ board.slotOwners ≠ owners then
        some { board with partitionedDeviceId := some deviceId, slotOwners := owners }
      else
        none
  | .publishTasks session agent value nowMs =>
      (board.publishedCards session agent value nowMs).toOption.map fun cards =>
        replacedBoard order board session cards nowMs
  | .publishCodexSnapshot value nowMs =>
      (board.publishedCards 0 .codex value nowMs).toOption.map fun cards =>
        replacedBoard order board 0 cards nowMs
  | .publishLegacyStatus session agent value nowMs =>
      (legacyCards session agent value nowMs).toOption.map fun cards =>
        replacedBoard order board session cards nowMs
  | .publishCodexHidStatus value nowMs =>
      value.asArray.bind fun entries =>
        ((board.dropExpiredGuards nowMs).hidUpdates entries nowMs).toOption.map fun updates =>
          (board.dropExpiredGuards nowMs).hidBoard order updates nowMs
  | .clearSession session =>
      board.removedBoard (board.taskIdsWhere order fun _ task => task.ownerSession == session)
  | .expire nowMs =>
      let board := { board with nowMs := nowMs }
      board.removedBoard (board.taskIdsWhere order fun _ task =>
        task.reconnectUntilMs.any fun untilMs => decide (untilMs ≤ nowMs))
  | .clearDevices | .disconnectSession .. | .select .. | .selectTask .. | .autoSelectWaiting ..
  | .guardSelectionActivation .. | .setSelectedModel .. | .restoreSlotPreferences .. => none

/-- The two boards differ in the selection only. -/
def Refocused (before after : TaskBoard) : Prop :=
  ∃ selected pendingSelection, after = { before with selected, pendingSelection }

theorem Refocused.refl (board : TaskBoard) : Refocused board board := ⟨_, _, rfl⟩

/-- `reconcile_authoritative_selection` touches the selection only. -/
theorem refocused_reconcile (authoritative : Option String) (nowMs : Nat)
    (board : TaskBoard) :
    Refocused board (board.reconcileAuthoritativeSelection authoritative nowMs) := by
  unfold reconcileAuthoritativeSelection
  cases authoritative.filter board.tasks.contains with
  | none => exact .refl board
  | some id =>
      simp only
      split
      · exact .refl board
      · split
        · exact ⟨_, _, rfl⟩
        · split
          · exact ⟨_, _, rfl⟩
          · split
            · exact ⟨_, _, rfl⟩
            · exact ⟨_, _, rfl⟩

theorem refocused_followHandoff (order : WalkOrder) (board : TaskBoard)
    (updates : List HidUpdate) :
    Refocused board (board.followHandoff order updates) := by
  unfold followHandoff
  cases updates.find? HidUpdate.promoted with
  | none => exact .refl board
  | some update =>
      simp only
      split
      · exact ⟨_, _, rfl⟩
      · exact .refl board

/-- A HID frame is a merge, on a board whose selection it may have moved. -/
theorem hidBoard_eq (order : WalkOrder) (board : TaskBoard) (updates : List HidUpdate)
    (nowMs : Nat) :
    ∃ base echoing, board.hidBoard order updates nowMs =
      TaskBoard.mergedBoard base (updates.map (HidUpdate.settled echoing)) nowMs ∧
        Refocused board base := by
  refine ⟨_, _, rfl, ?_⟩
  split
  · exact refocused_followHandoff order board updates
  · exact .refl board

/-- The task a Codex snapshot focuses. -/
def snapshotFocus (value : Value) : Option String :=
  (value.get? "selected_task_id").bind Value.asStr

/-- A snapshot ends with the selection Codex reports; other operations end with the
reallocation. -/
def reconciled (op : Op) (board : TaskBoard) : TaskBoard :=
  match op with
  | .publishCodexSnapshot value nowMs =>
      board.reconcileAuthoritativeSelection (snapshotFocus value) nowMs
  | _ => board

/-- An operation that hands a board over ends with its reallocation. -/
theorem apply_eq_of_handover {op : Op} {m : TaskBoard}
    (h : handover order board op = some m) :
    board.apply order op = reconciled op (m.reallocate order) := by
  cases op with
  | setDevice deviceId taskSlots connected =>
      obtain rfl := Option.some.inj h
      show board.setDevice order deviceId taskSlots connected = _
      unfold setDevice
      cases connected with
      | true => rfl
      | false => rfl
  | setSlotOwners deviceId owners =>
      rw [handover] at h
      show board.setSlotOwners order deviceId owners = _
      unfold setSlotOwners
      split at h
      · obtain rfl := Option.some.inj h
        rename_i hchanged
        rw [if_pos hchanged]
        rfl
      · cases h
  | publishTasks session agent value nowMs =>
      show (board.publishTasks order session agent value nowMs).2 = _
      rw [handover] at h
      unfold publishTasks
      cases hcards : board.publishedCards session agent value nowMs with
      | error _ =>
          rw [hcards] at h
          cases h
      | ok cards =>
          rw [hcards] at h
          obtain rfl := Option.some.inj h
          rfl
  | publishCodexSnapshot value nowMs =>
      show (board.publishCodexSnapshot order value nowMs).2 = _
      rw [handover] at h
      unfold publishCodexSnapshot publishTasks
      cases hcards : board.publishedCards 0 .codex value nowMs with
      | error _ =>
          rw [hcards] at h
          cases h
      | ok cards =>
          rw [hcards] at h
          obtain rfl := Option.some.inj h
          rfl
  | publishLegacyStatus session agent value nowMs =>
      show (board.publishLegacyStatus order session agent value nowMs).2 = _
      rw [handover] at h
      unfold publishLegacyStatus
      cases hcards : legacyCards session agent value nowMs with
      | error _ =>
          rw [hcards] at h
          cases h
      | ok cards =>
          rw [hcards] at h
          obtain rfl := Option.some.inj h
          rfl
  | publishCodexHidStatus value nowMs =>
      show (board.publishCodexHidStatus order value nowMs).2 = _
      rw [handover] at h
      unfold publishCodexHidStatus
      cases hentries : value.asArray with
      | none =>
          rw [hentries] at h
          cases h
      | some entries =>
          rw [hentries, Option.bind_some] at h
          simp only
          cases hupdates : (board.dropExpiredGuards nowMs).hidUpdates entries nowMs with
          | error _ =>
              rw [hupdates] at h
              cases h
          | ok updates =>
              rw [hupdates] at h
              obtain rfl := Option.some.inj h
              rfl
  | clearSession session =>
      rw [handover, removedBoard] at h
      split at h
      · cases h
      · obtain rfl := Option.some.inj h
        rename_i hremoved
        show (if (board.taskIdsWhere order _).isEmpty = true then _ else _) = _
        rw [if_neg hremoved]
        rfl
  | expire nowMs =>
      rw [handover, removedBoard] at h
      split at h
      · cases h
      · obtain rfl := Option.some.inj h
        rename_i hexpired
        show (if (taskIdsWhere order { board with nowMs := nowMs } _).isEmpty = true
          then _ else _) = _
        rw [if_neg hexpired]
        rfl
  | clearDevices | disconnectSession | select | selectTask | autoSelectWaiting
  | guardSelectionActivation | setSelectedModel | restoreSlotPreferences => cases h

theorem apply_of_handover {op : Op} {m : TaskBoard} (h : handover order board op = some m) :
    Refocused (m.reallocate order) (board.apply order op) := by
  rw [apply_eq_of_handover h]
  unfold reconciled
  split
  · exact refocused_reconcile ..
  · exact .refl _

/-- The boards agree on cards, layout and devices. -/
structure SameCards (base board : TaskBoard) : Prop where
  tasks : base.tasks = board.tasks
  assignments : base.assignments = board.assignments
  devices : base.devices = board.devices

/-- How a board is handed over: relaid, with a session's cards replaced, with
cards merged, or with cards removed. -/
inductive Handed (order : WalkOrder) (board : TaskBoard) (op : Op) : TaskBoard → Prop where
  | relaid {m : TaskBoard} (tasks : m.tasks = board.tasks)
      (devices : ∀ {id : String} {slots : List DeviceSlot}, m.devices[id]? = some slots →
        board.devices[id]? = some slots ∨ ∃ n, slots = deviceSlots id n)
      (assignments : ∀ {id : String} {assignment : TaskAssignment},
        m.assignments[id]? = some assignment → board.assignments[id]? = some assignment) :
      Handed order board op m
  | replaced {session nowMs : Nat} {agent : AgentId} {cards : List TaskCard}
      (publisher : op.publisher = some (session, agent))
      (cards_of : ∀ card ∈ cards, card.ownerSession = session ∧ card.ownerAgent = agent) :
      Handed order board op (replacedBoard order board session cards nowMs)
  | merged {base : TaskBoard} {nowMs : Nat} {cards : List TaskCard} (same : SameCards base board)
      (publisher : op.publisher = some (0, .codex))
      (cards_of : ∀ card ∈ cards, card.ownerSession = 0 ∧ card.ownerAgent = .codex) :
      Handed order board op (base.mergedBoard cards nowMs)
  | removed {base : TaskBoard} (same : SameCards base board) (ids : List String) :
      Handed order board op (ids.foldl removeTask base)

theorem Refocused.sameCards {before after : TaskBoard} (h : Refocused before after) :
    SameCards after before := by
  obtain ⟨_, _, rfl⟩ := h
  exact ⟨rfl, rfl, rfl⟩

theorem handed_of_removedBoard {op : Op} {base m : TaskBoard} {ids : List String}
    (same : SameCards base board) (h : base.removedBoard ids = some m) :
    Handed order board op m := by
  unfold removedBoard at h
  split at h
  · cases h
  · obtain rfl := Option.some.inj h
    exact .removed same ids

theorem handed_of_handover {op : Op} {m : TaskBoard} (h : handover order board op = some m) :
    Handed order board op m := by
  cases op with
  | setDevice deviceId taskSlots connected =>
      obtain rfl := Option.some.inj h
      cases connected with
      | true =>
          refine .relaid rfl (fun {id slots} hid => ?_) fun ha => ha
          rw [if_pos rfl, getElem?_insert_eq_ite] at hid
          split at hid
          · rename_i hdevice
            obtain rfl := Option.some.inj hid
            exact Or.inr ⟨taskSlots, by rw [hdevice]⟩
          · exact Or.inl hid
      | false =>
          refine .relaid rfl (fun {id slots} hid => ?_) fun {id a} ha => ?_
          · rw [if_neg Bool.false_ne_true, getElem?_erase_eq_ite] at hid
            split at hid
            · cases hid
            · exact Or.inl hid
          · rw [if_neg Bool.false_ne_true, ExtTreeMap.getElem?_filter'] at ha
            exact (Option.filter_eq_some_iff.mp ha).1
  | setSlotOwners deviceId owners =>
      rw [handover] at h
      split at h
      · obtain rfl := Option.some.inj h
        exact .relaid rfl (fun hid => Or.inl hid) fun ha => ha
      · cases h
  | publishTasks session agent value nowMs =>
      rw [handover, Option.map_eq_some_iff] at h
      obtain ⟨cards, hcards, rfl⟩ := h
      refine .replaced rfl fun card hcard => ?_
      obtain ⟨⟨_, hparsed⟩, -⟩ := publishedCards_ok (toOption_eq_some_iff.mp hcards) card hcard
      exact ⟨hparsed.ownerSession, hparsed.ownerAgent⟩
  | publishCodexSnapshot value nowMs =>
      rw [handover, Option.map_eq_some_iff] at h
      obtain ⟨cards, hcards, rfl⟩ := h
      refine .replaced rfl fun card hcard => ?_
      obtain ⟨⟨_, hparsed⟩, -⟩ := publishedCards_ok (toOption_eq_some_iff.mp hcards) card hcard
      exact ⟨hparsed.ownerSession, hparsed.ownerAgent⟩
  | publishLegacyStatus session agent value nowMs =>
      rw [handover, Option.map_eq_some_iff] at h
      obtain ⟨cards, hcards, rfl⟩ := h
      refine .replaced rfl fun card hcard => ?_
      obtain ⟨_, _, _, -, -, -, hparsed⟩ :=
        legacyCards_ok (toOption_eq_some_iff.mp hcards) card hcard
      exact ⟨hparsed.ownerSession, hparsed.ownerAgent⟩
  | publishCodexHidStatus value nowMs =>
      rw [handover, Option.bind_eq_some_iff] at h
      obtain ⟨entries, -, h⟩ := h
      obtain ⟨updates, hupdates, rfl⟩ := Option.map_eq_some_iff.mp h
      have hread := hidUpdates_ok (toOption_eq_some_iff.mp hupdates)
      obtain ⟨base, echoing, hboard, hfocus⟩ :=
        hidBoard_eq order (board.dropExpiredGuards nowMs) updates nowMs
      have hsame := hfocus.sameCards
      rw [hboard]
      refine .merged ⟨hsame.tasks, hsame.assignments, hsame.devices⟩ rfl fun card hcard => ?_
      obtain ⟨update, hupdate, rfl⟩ := List.mem_map.mp hcard
      obtain ⟨_, _, -, -, hok⟩ := hread update hupdate
      obtain ⟨-, hsession, hagent, -⟩ := settled_owned echoing update
      exact ⟨hsession.trans hok.parsed.ownerSession, hagent.trans hok.parsed.ownerAgent⟩
  | clearSession session => exact handed_of_removedBoard ⟨rfl, rfl, rfl⟩ h
  | expire nowMs =>
      have same : SameCards { board with nowMs := nowMs } board := ⟨rfl, rfl, rfl⟩
      exact handed_of_removedBoard same h
  | clearDevices | disconnectSession | select | selectTask | autoSelectWaiting
  | guardSelectionActivation | setSelectedModel | restoreSlotPreferences => cases h

theorem SameCards.wellFormed {base : TaskBoard} (same : SameCards base board)
    (hwf : board.WellFormed) : base.WellFormed := hwf.congr same.tasks same.devices

theorem Handed.wellFormed {op : Op} {m : TaskBoard} (h : Handed order board op m)
    (hwf : board.WellFormed) : m.WellFormed := by
  cases h with
  | relaid htasks hdevices _ =>
      refine ⟨fun {id task} ht => ?_, fun {id slots} hd => ?_⟩
      · rw [htasks] at ht
        exact hwf.keyed ht
      · rcases hdevices hd with hold | hnew
        · exact hwf.devices hold
        · exact hnew
  | replaced => exact replacedBoard_wellFormed hwf _ _ _
  | merged same => exact mergedBoard_wellFormed (same.wellFormed hwf) _ _
  | removed same ids => exact foldl_removeTask_wellFormed (same.wellFormed hwf) ids

/-- An operation places nobody before its reallocation. -/
theorem Handed.layout {op : Op} {m : TaskBoard} (h : Handed order board op m) {id : String}
    {assignment : TaskAssignment} (ha : m.assignments[id]? = some assignment) :
    board.assignments[id]? = some assignment := by
  cases h with
  | relaid _ _ hassign => exact hassign ha
  | replaced => exact (replacedBoard_assignments.mp ha).1
  | @merged base nowMs cards same =>
      obtain ⟨_, _, hframe⟩ := mergedBoard_frame base cards nowMs
      rw [hframe] at ha
      exact same.assignments ▸ ha
  | removed same ids =>
      rw [foldl_removeTask_assignments] at ha
      split at ha
      · cases ha
      · exact same.assignments ▸ ha

theorem Handed.injective {op : Op} {m : TaskBoard} (h : Handed order board op m)
    (hinj : SlotInjective board.assignments) : SlotInjective m.assignments := by
  intro a b assignment ha hb
  exact hinj (h.layout ha) (h.layout hb)

/-- Every card handed over was there before or belongs to the publisher. -/
theorem Handed.card {op : Op} {m : TaskBoard} (h : Handed order board op m) {id : String}
    {task : TaskCard} (ht : m.tasks[id]? = some task) :
    board.tasks[id]? = some task ∨
      op.publisher = some (task.ownerSession, task.ownerAgent) := by
  cases h with
  | relaid htasks _ _ => exact Or.inl (htasks ▸ ht)
  | replaced hpub hcards =>
      rcases of_replacedBoard ht with ⟨-, hold, -⟩ | ⟨card, hcard, -, hsame⟩
      · exact Or.inl hold
      · obtain ⟨hsession, hagent⟩ := hcards card hcard
        rw [hsame.ownerSession, hsame.ownerAgent, hsession, hagent]
        exact Or.inr hpub
  | @merged base nowMs cards same hpub hcards =>
      by_cases hid : id ∈ cards.map TaskCard.taskId
      · obtain ⟨card, hcard, -, merged, hget, hsame⟩ := mergedBoard_of_mem base nowMs hid
        rw [hget] at ht
        obtain rfl := Option.some.inj ht
        obtain ⟨hsession, hagent⟩ := hcards card hcard
        rw [hsame.ownerSession, hsame.ownerAgent, hsession, hagent]
        exact Or.inr hpub
      · rw [mergedBoard_of_not_mem hid, same.tasks] at ht
        exact Or.inl ht
  | removed same ids =>
      rw [foldl_removeTask_tasks] at ht
      split at ht
      · cases ht
      · exact Or.inl (same.tasks ▸ ht)

/-! ## Quiet operations -/

/-- Layout, devices and owners stay, every card keeps what the layout rests on,
and only a card is acknowledged. -/
structure Quiet (before after : TaskBoard) : Prop where
  assignments : after.assignments = before.assignments
  devices : after.devices = before.devices
  slotOwners : after.slotOwners = before.slotOwners
  partitionedDeviceId : after.partitionedDeviceId = before.partitionedDeviceId
  cards : ∀ id : String, (after.tasks[id]?).map TaskCard.owned =
    (before.tasks[id]?).map TaskCard.owned
  acknowledged : ∀ id : String, before.tasks[id]? = none →
    after.reviewedCompletions[id]? = before.reviewedCompletions[id]?

theorem Refocused.quiet {before after : TaskBoard} (h : Refocused before after) :
    Quiet before after := by
  obtain ⟨_, _, rfl⟩ := h
  exact ⟨rfl, rfl, rfl, rfl, fun _ => rfl, fun _ _ => rfl⟩

theorem Quiet.refl (board : TaskBoard) : Quiet board board := (Refocused.refl board).quiet

/-- Rewriting one card without touching what the layout rests on is quiet. -/
theorem quiet_rewrite {after : TaskBoard} {id : String} {old : TaskCard} (new : TaskCard)
    (hold : board.tasks[id]? = some old) (howned : new.owned = old.owned)
    (htasks : after.tasks = board.tasks.insert id new)
    (hassign : after.assignments = board.assignments) (hdevices : after.devices = board.devices)
    (howners : after.slotOwners = board.slotOwners)
    (hprimary : after.partitionedDeviceId = board.partitionedDeviceId)
    (hacknowledged : ∀ id', id ≠ id' →
      after.reviewedCompletions[id']? = board.reviewedCompletions[id']?) :
    Quiet board after := by
  refine ⟨hassign, hdevices, howners, hprimary, fun id' => ?_, fun id' hnone => ?_⟩
  · rw [htasks, getElem?_insert_eq_ite]
    split
    · rename_i hid
      rw [← hid, hold]
      exact congrArg some howned
    · rfl
  · refine hacknowledged id' fun hid => ?_
    rw [← hid, hold] at hnone
    cases hnone

theorem quiet_selectTask (taskId : String) (nowMs : Nat) :
    Quiet board (board.selectTask taskId nowMs).2 := by
  unfold selectTask
  simp only
  split
  · rename_i assignment task _ htask
    by_cases hcompleted : task.state = .completed
    · refine quiet_rewrite (acknowledgedCard task) htask rfl (by simp [hcompleted]) rfl rfl rfl rfl
        fun id hid => ?_
      simp [hcompleted, getElem?_insert_eq_ite, hid]
    · exact ⟨rfl, rfl, rfl, rfl, by simp [hcompleted], by simp [hcompleted]⟩
  · exact ⟨rfl, rfl, rfl, rfl, fun _ => rfl, fun _ _ => rfl⟩

theorem quiet_disconnectSession (session nowMs : Nat) :
    Quiet board (board.disconnectSession session nowMs) := by
  refine ⟨rfl, rfl, rfl, rfl, fun id => ?_, fun _ _ => rfl⟩
  unfold disconnectSession
  simp only [ExtTreeMap.getElem?_map]
  cases board.tasks[id]? with
  | none => rfl
  | some task =>
      simp only [Option.map_some]
      split
      · rfl
      · rfl

theorem quiet_setSelectedModel (model : String) :
    Quiet board (board.setSelectedModel model).2 := by
  unfold setSelectedModel
  split
  · exact .refl board
  · rename_i taskId task hselected
    obtain ⟨id, -, hid⟩ := Option.bind_eq_some_iff.mp hselected
    obtain ⟨old, hold, heq⟩ := Option.map_eq_some_iff.mp hid
    obtain ⟨rfl, rfl⟩ := Prod.mk.inj heq
    exact quiet_rewrite { old with model := some model } hold rfl rfl rfl rfl rfl rfl
      fun _ _ => rfl

/-- The operations that may reallocate. -/
def reallocates : Op → Bool
  | .setDevice .. | .setSlotOwners .. | .publishTasks .. | .publishCodexSnapshot ..
  | .publishLegacyStatus .. | .publishCodexHidStatus .. | .clearSession .. | .expire .. => true
  | _ => false

/-- A rejected publication and a removal of nobody change the clock and the guards
at most. -/
theorem apply_of_no_handover {op : Op} (hop : reallocates op = true)
    (h : handover order board op = none) :
    ∃ nowMs selectionActivationGuards,
      board.apply order op = { board with nowMs, selectionActivationGuards } := by
  cases op with
  | setDevice deviceId taskSlots connected => cases h
  | setSlotOwners deviceId owners =>
      rw [handover] at h
      refine ⟨board.nowMs, board.selectionActivationGuards, ?_⟩
      show board.setSlotOwners order deviceId owners = _
      unfold setSlotOwners
      split at h
      · cases h
      · rename_i hsame
        rw [if_neg hsame]
  | publishTasks session agent value nowMs =>
      obtain ⟨message, hcards⟩ := toOption_eq_none_iff.mp (Option.map_eq_none_iff.mp h)
      refine ⟨board.nowMs, board.selectionActivationGuards, ?_⟩
      show (board.publishTasks order session agent value nowMs).2 = _
      rw [publishTasks, hcards]
  | publishCodexSnapshot value nowMs =>
      obtain ⟨message, hcards⟩ := toOption_eq_none_iff.mp (Option.map_eq_none_iff.mp h)
      refine ⟨board.nowMs, board.selectionActivationGuards, ?_⟩
      show (board.publishCodexSnapshot order value nowMs).2 = _
      rw [publishCodexSnapshot, publishTasks, hcards]
  | publishLegacyStatus session agent value nowMs =>
      obtain ⟨message, hcards⟩ := toOption_eq_none_iff.mp (Option.map_eq_none_iff.mp h)
      refine ⟨board.nowMs, board.selectionActivationGuards, ?_⟩
      show (board.publishLegacyStatus order session agent value nowMs).2 = _
      rw [publishLegacyStatus, hcards]
  | publishCodexHidStatus value nowMs =>
      rw [handover] at h
      cases hentries : value.asArray with
      | none =>
          refine ⟨board.nowMs, board.selectionActivationGuards, ?_⟩
          show (board.publishCodexHidStatus order value nowMs).2 = _
          rw [publishCodexHidStatus, hentries]
      | some entries =>
          rw [hentries, Option.bind_some] at h
          obtain ⟨message, hupdates⟩ := toOption_eq_none_iff.mp (Option.map_eq_none_iff.mp h)
          -- a rejected frame still drops the guards that have run out
          refine ⟨board.nowMs, (board.dropExpiredGuards nowMs).selectionActivationGuards, ?_⟩
          show (board.publishCodexHidStatus order value nowMs).2 = _
          rw [publishCodexHidStatus, hentries]
          simp only [hupdates]
          rfl
  | clearSession session =>
      rw [handover, removedBoard] at h
      refine ⟨board.nowMs, board.selectionActivationGuards, ?_⟩
      split at h
      · rename_i hremoved
        show (if (board.taskIdsWhere order _).isEmpty = true then _ else _) = _
        rw [if_pos hremoved]
      · cases h
  | expire nowMs =>
      rw [handover, removedBoard] at h
      refine ⟨nowMs, board.selectionActivationGuards, ?_⟩
      split at h
      · rename_i hexpired
        show (if (taskIdsWhere order { board with nowMs := nowMs } _).isEmpty = true
          then _ else _) = _
        rw [if_pos hexpired]
      · cases h
  | clearDevices | disconnectSession | select | selectTask | autoSelectWaiting
  | guardSelectionActivation | setSelectedModel | restoreSlotPreferences => cases hop

/-- An operation that hands nothing over is quiet, unless it clears the devices. -/
theorem apply_quiet {op : Op} (hop : op ≠ .clearDevices)
    (h : handover order board op = none) : Quiet board (board.apply order op) := by
  cases hreallocates : reallocates op with
  | true =>
      obtain ⟨_, _, hafter⟩ := apply_of_no_handover hreallocates h
      rw [hafter]
      exact ⟨rfl, rfl, rfl, rfl, fun _ => rfl, fun _ _ => rfl⟩
  | false =>
      cases op with
      | setDevice | setSlotOwners | publishTasks | publishCodexSnapshot | publishLegacyStatus
      | publishCodexHidStatus | clearSession | expire => cases hreallocates
      | clearDevices => exact absurd rfl hop
      | disconnectSession session nowMs => exact quiet_disconnectSession session nowMs
      | select deviceId slot nowMs =>
          show Quiet board (board.select order deviceId slot nowMs).2
          unfold select
          split
          · exact .refl board
          · exact quiet_selectTask _ nowMs
      | selectTask taskId nowMs => exact quiet_selectTask taskId nowMs
      | autoSelectWaiting deviceId nowMs =>
          show Quiet board (board.autoSelectWaiting order deviceId nowMs).2
          unfold autoSelectWaiting
          simp only
          split
          · exact .refl board
          · split
            · exact .refl board
            · split
              · exact ⟨rfl, rfl, rfl, rfl, fun _ => rfl, fun _ _ => rfl⟩
              · exact .refl board
      | guardSelectionActivation taskId nowMs =>
          show Quiet board (board.guardSelectionActivation taskId nowMs)
          unfold guardSelectionActivation
          split
          · exact ⟨rfl, rfl, rfl, rfl, fun _ => rfl, fun _ _ => rfl⟩
          · exact .refl board
      | setSelectedModel model => exact quiet_setSelectedModel model
      | restoreSlotPreferences value =>
          show Quiet board (board.restoreSlotPreferences value)
          unfold restoreSlotPreferences
          split
          · exact .refl board
          · exact ⟨rfl, rfl, rfl, rfl, fun _ => rfl, fun _ _ => rfl⟩

/-- The three things an operation can do. -/
theorem apply_cases (order : WalkOrder) (board : TaskBoard) (op : Op) :
    (∃ m, handover order board op = some m ∧ Handed order board op m ∧
        Refocused (m.reallocate order) (board.apply order op)) ∨
      Quiet board (board.apply order op) ∨
        (op = .clearDevices ∧ board.apply order op = board.clearDevices) := by
  cases hhandover : handover order board op with
  | some m =>
      exact Or.inl ⟨m, rfl, handed_of_handover hhandover, apply_of_handover hhandover⟩
  | none =>
      by_cases hop : op = .clearDevices
      · subst hop
        exact Or.inr (Or.inr ⟨rfl, rfl⟩)
      · exact Or.inr (Or.inl (apply_quiet hop hhandover))

end TaskBoard
end Tasks
end MicroEmu
