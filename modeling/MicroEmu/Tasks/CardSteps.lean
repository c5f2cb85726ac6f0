import MicroEmu.Tasks.Stability
import MicroEmu.Tasks.Timers

/-!
# What one operation does to one card

The card of a task and the acknowledgement of its completion form the entry of
the task.  An operation keeps an entry, merges published cards into it one after
another, removes it, leases its card to a session that may come back,
acknowledges its completion, or records another model for it (`CardStep`).  The
theorems about a single task over whole runs are inductions over these six
cases; none of them unfolds an operation.
-/

namespace MicroEmu
namespace Tasks

open Std (ExtTreeMap LawfulEqCmp)
open Json (Value)
open Routing (AgentId)
open Library

/-- The card of a task, if the board has it, and whether its completion has been
acknowledged. -/
structure Entry where
  card : Option TaskCard
  reviewed : Bool

/-- Merging one more card. -/
def Entry.merge (nowMs : Nat) (entry : Entry) (card : TaskCard) : Entry where
  card := some (mergeTimers entry.card (reviewCard entry.reviewed card) nowMs)
  reviewed := card.state == .completed && entry.reviewed

/-- What takes a card off the board: its session publishes without it, its session
is cleared, or its lease runs out. -/
inductive Op.Removes (task : TaskCard) : Op → Prop where
  | unlisted {op : Op} {agent : AgentId}
      (publisher : op.publisher = some (task.ownerSession, agent))
      (replaces : op.replacesSession = true) : Op.Removes task op
  | cleared : Op.Removes task (.clearSession task.ownerSession)
  | expired {untilMs nowMs : Nat} (lease : task.reconnectUntilMs = some untilMs)
      (ended : untilMs ≤ nowMs) : Op.Removes task (.expire nowMs)

/-- The operations that acknowledge the completion of the task they select. -/
def Op.acknowledges : Op → Bool
  | .select .. | .selectTask .. => true
  | _ => false

namespace TaskBoard

variable {order : WalkOrder} {board : TaskBoard}

def entry (board : TaskBoard) (id : String) : Entry :=
  ⟨board.tasks[id]?, board.reviewedCompletions.contains id⟩

/-- The entry an operation leaves for a task. -/
inductive CardStep (board : TaskBoard) (id : String) : Op → Entry → Prop where
  | kept {op : Op} : CardStep board id op (board.entry id)
  | published {op : Op} {cards : List TaskCard} {nowMs : Nat}
      (merged : board.mergedCards op = some (cards, nowMs))
      (named : id ∈ cards.map TaskCard.taskId) :
      CardStep board id op
        ((cards.filter (·.taskId == id)).foldl (Entry.merge nowMs) (board.entry id))
  | removed {op : Op} {task : TaskCard} (card : board.tasks[id]? = some task)
      (removes : op.Removes task) : CardStep board id op ⟨none, false⟩
  | leased {session nowMs : Nat} {task : TaskCard} (card : board.tasks[id]? = some task)
      (owner : task.ownerSession = session) :
      CardStep board id (.disconnectSession session nowMs)
        ⟨some (leaseCard (wrappingAdd nowMs reconnectGrace) task), (board.entry id).reviewed⟩
  | acknowledged {op : Op} {task : TaskCard} (card : board.tasks[id]? = some task)
      (completed : task.state = .completed) (acknowledges : op.acknowledges = true) :
      CardStep board id op ⟨some (acknowledgedCard task), true⟩
  | remodelled {model : String} {task : TaskCard} (card : board.tasks[id]? = some task) :
      CardStep board id (.setSelectedModel model)
        ⟨some { task with model := some model }, (board.entry id).reviewed⟩

/-! ## Merging and removing -/

theorem mergeTask_entry (nowMs : Nat) (board : TaskBoard) (card : TaskCard) (id : String) :
    (mergeTask nowMs board card).entry id =
      if card.taskId = id then (board.entry id).merge nowMs card else board.entry id := by
  have hreviewed : (mergeTask nowMs board card).reviewedCompletions.contains id =
      if card.taskId = id then
        card.state == .completed && board.reviewedCompletions.contains id
      else board.reviewedCompletions.contains id := by
    unfold mergeTask
    by_cases hcompleted : card.state = .completed
    · simp [hcompleted]
    · by_cases hid : card.taskId = id
      · simp [hcompleted, hid]
      · simp [hcompleted, hid, ExtTreeMap.contains_erase]
  unfold entry
  rw [mergeTask_getElem?, hreviewed]
  by_cases hid : card.taskId = id
  · subst hid
    simp only [if_true]
    rfl
  · simp only [hid, if_false]

theorem filter_taskId_eq_nil {cards : List TaskCard} {id : String}
    (h : id ∉ cards.map TaskCard.taskId) : cards.filter (·.taskId == id) = [] := by
  simpa [List.filter_eq_nil_iff] using h

/-- A merge works on each entry by the cards of its task, in their order. -/
theorem mergedBoard_entry (board : TaskBoard) (cards : List TaskCard) (nowMs : Nat)
    (id : String) :
    (board.mergedBoard cards nowMs).entry id =
      (cards.filter (·.taskId == id)).foldl (Entry.merge nowMs) (board.entry id) := by
  have hfold : ∀ (cards : List TaskCard) (base : TaskBoard),
      (cards.foldl (mergeTask nowMs) base).entry id =
        (cards.filter (·.taskId == id)).foldl (Entry.merge nowMs) (base.entry id) := by
    intro cards
    induction cards with
    | nil => exact fun _ => rfl
    | cons card cards ih =>
        intro base
        rw [List.foldl_cons, ih, mergeTask_entry]
        by_cases hid : card.taskId = id
        · simp [hid]
        · simp [hid]
  exact hfold cards _

theorem removeTasks_entry (ids : List String) (board : TaskBoard) (id : String) :
    (ids.foldl removeTask board).entry id =
      if id ∈ ids then ⟨none, false⟩ else board.entry id := by
  rw [foldl_removeTask]
  unfold entry
  simp only [ExtTreeMap.contains_eq_isSome_getElem?, getElem?_foldl_erase]
  split
  · rfl
  · rfl

/-- The reallocation leaves the entries it is handed. -/
theorem apply_entry_of_handover {op : Op} {m : TaskBoard}
    (h : handover order board op = some m) (id : String) :
    (board.apply order op).entry id = m.entry id := by
  obtain ⟨htasks, hreviewed⟩ := apply_cards h
  unfold entry
  rw [htasks, hreviewed]

/-- A published card is merged into its entry. -/
theorem apply_entry_of_mergedCards (order : WalkOrder) {op : Op} {cards : List TaskCard}
    {nowMs : Nat} {id : String} (hmerged : board.mergedCards op = some (cards, nowMs))
    (hnamed : id ∈ cards.map TaskCard.taskId) :
    (board.apply order op).entry id =
      (cards.filter (·.taskId == id)).foldl (Entry.merge nowMs) (board.entry id) := by
  obtain ⟨base, hhandover, hbase⟩ : ∃ base : TaskBoard,
      handover order board op = some (base.mergedBoard cards nowMs) ∧ _ :=
    handover_of_mergedCards hmerged
  obtain ⟨htasks, hreviewed⟩ := hbase id hnamed
  have hentry : base.entry id = board.entry id := by
    unfold entry
    simp only [ExtTreeMap.contains_eq_isSome_getElem?, htasks, hreviewed]
  rw [apply_entry_of_handover hhandover, mergedBoard_entry, hentry]

/-! ## One step -/

theorem cardStep_replaced {op : Op} {session nowMs : Nat} {agent : AgentId}
    {cards : List TaskCard} (hmerged : board.mergedCards op = some (cards, nowMs))
    (hpublisher : op.publisher = some (session, agent)) (hreplaces : op.replacesSession = true)
    (id : String) :
    board.CardStep id op ((replacedBoard order board session cards nowMs).entry id) := by
  rw [replacedBoard, mergedBoard_entry, removeTasks_entry]
  by_cases hnamed : id ∈ cards.map TaskCard.taskId
  · rw [if_neg fun hmem => (mem_dropped.mp hmem).2 hnamed]
    exact .published hmerged hnamed
  · rw [filter_taskId_eq_nil hnamed, List.foldl_nil]
    split
    · rename_i hdropped
      obtain ⟨⟨task, htask, rfl⟩, -⟩ := mem_dropped.mp hdropped
      exact .removed htask (.unlisted hpublisher hreplaces)
    · exact .kept

/-- An accepted HID frame merges its settled cards. -/
theorem cardStep_hidBoard {value : Value} {nowMs : Nat} {updates : List HidUpdate}
    (hmerged : board.mergedCards (.publishCodexHidStatus value nowMs) =
      some (updates.map (HidUpdate.settled
        (!(board.dropExpiredGuards nowMs).selectionActivationGuards.isEmpty ||
          selectionHandoff updates)), nowMs)) (id : String) :
    board.CardStep id (.publishCodexHidStatus value nowMs)
      (((board.dropExpiredGuards nowMs).hidBoard order updates nowMs).entry id) := by
  have hselected : ∀ base : TaskBoard, (base = (board.dropExpiredGuards nowMs).followHandoff order
      updates ∨ base = board.dropExpiredGuards nowMs) → base.entry id = board.entry id := by
    rintro base (rfl | rfl)
    · obtain ⟨_, _, hframe⟩ :=
        refocused_followHandoff order (board.dropExpiredGuards nowMs) updates
      rw [hframe]
      rfl
    · rfl
  rw [hidBoard, mergedBoard_entry, hselected _ (by split <;> simp)]
  by_cases hnamed : id ∈ (updates.map (HidUpdate.settled
      (!(board.dropExpiredGuards nowMs).selectionActivationGuards.isEmpty ||
        selectionHandoff updates))).map TaskCard.taskId
  · exact .published hmerged hnamed
  · rw [filter_taskId_eq_nil hnamed]
    exact .kept

/-- Removing the cards that pass a test. -/
theorem cardStep_removed {op : Op} {base m : TaskBoard} {test : TaskCard → Bool} {id : String}
    (hbase : base.entry id = board.entry id)
    (hremoves : ∀ {task : TaskCard}, test task = true → op.Removes task)
    (h : base.removedBoard (base.taskIdsWhere order fun _ task => test task) = some m) :
    board.CardStep id op (m.entry id) := by
  unfold removedBoard at h
  split at h
  · cases h
  · obtain rfl := Option.some.inj h
    rw [removeTasks_entry]
    split
    · rename_i hremoved
      obtain ⟨task, htask, htest⟩ := mem_taskIdsWhere.mp hremoved
      have hcard : base.tasks[id]? = board.tasks[id]? := congrArg Entry.card hbase
      exact .removed (hcard ▸ htask) (hremoves htest)
    · rw [hbase]
      exact .kept

/-- What is handed over. -/
theorem cardStep_handover {op : Op} {m : TaskBoard} (h : handover order board op = some m)
    (id : String) : board.CardStep id op (m.entry id) := by
  cases op with
  | setDevice deviceId taskSlots connected =>
      obtain rfl := Option.some.inj h
      cases connected with
      | true => exact .kept
      | false => exact .kept
  | setSlotOwners deviceId owners =>
      rw [handover] at h
      split at h
      · obtain rfl := Option.some.inj h
        exact .kept
      · cases h
  | publishTasks session agent value nowMs =>
      obtain ⟨cards, hcards, rfl⟩ := Option.map_eq_some_iff.mp h
      refine cardStep_replaced ?_ rfl rfl id
      rw [mergedCards, hcards]
      rfl
  | publishCodexSnapshot value nowMs =>
      obtain ⟨cards, hcards, rfl⟩ := Option.map_eq_some_iff.mp h
      refine cardStep_replaced ?_ rfl rfl id
      rw [mergedCards, hcards]
      rfl
  | publishLegacyStatus session agent value nowMs =>
      obtain ⟨cards, hcards, rfl⟩ := Option.map_eq_some_iff.mp h
      refine cardStep_replaced ?_ rfl rfl id
      rw [mergedCards, hcards]
      rfl
  | publishCodexHidStatus value nowMs =>
      obtain ⟨entries, hentries, h⟩ := Option.bind_eq_some_iff.mp h
      obtain ⟨updates, hupdates, rfl⟩ := Option.map_eq_some_iff.mp h
      refine cardStep_hidBoard ?_ id
      rw [mergedCards, hentries, Option.bind_some, hupdates]
      rfl
  | clearSession session =>
      refine cardStep_removed rfl (fun {task} hremoved => ?_) h
      obtain rfl := beq_iff_eq.mp hremoved
      exact .cleared
  | expire nowMs =>
      have hbase : ({ board with nowMs := nowMs } : TaskBoard).entry id = board.entry id := rfl
      refine cardStep_removed hbase (fun {task} hremoved => ?_) h
      obtain ⟨untilMs, hlease, hover⟩ := (Option.any_eq_true _ _).mp hremoved
      exact .expired hlease (of_decide_eq_true hover)
  | clearDevices | disconnectSession | select | selectTask | autoSelectWaiting
  | guardSelectionActivation | setSelectedModel | restoreSlotPreferences => cases h

theorem cardStep_selectTask {op : Op} (hop : op.acknowledges = true) (taskId : String)
    (nowMs : Nat) (id : String) :
    board.CardStep id op ((board.selectTask taskId nowMs).2.entry id) := by
  unfold selectTask
  simp only
  split
  · rename_i assignment task _ htask
    by_cases hcompleted : task.state = .completed
    · by_cases hid : taskId = id
      · subst hid
        simp only [entry, hcompleted, beq_self_eq_true, if_true, ExtTreeMap.getElem?_insert_self,
          ExtTreeMap.contains_insert_self]
        exact .acknowledged htask hcompleted hop
      · have hkept : board.entry id =
            ⟨(board.tasks.insert taskId (acknowledgedCard task))[id]?,
              (board.reviewedCompletions.insert taskId ()).contains id⟩ := by
          rw [getElem?_insert_eq_ite, if_neg hid, ExtTreeMap.contains_insert]
          simp [entry, hid]
        simp only [entry, hcompleted, beq_self_eq_true, if_true]
        rw [← hkept]
        exact .kept
    · simp only [entry, beq_eq_false_iff_ne.mpr hcompleted, Bool.false_eq_true, if_false]
      exact .kept
  · exact .kept

theorem cardStep_disconnectSession (session nowMs : Nat) (id : String) :
    board.CardStep id (.disconnectSession session nowMs)
      ((board.disconnectSession session nowMs).entry id) := by
  have hkept : board.CardStep id (.disconnectSession session nowMs) (board.entry id) := .kept
  unfold disconnectSession entry
  simp only [ExtTreeMap.getElem?_map]
  cases htask : board.tasks[id]? with
  | none =>
      rw [entry, htask] at hkept
      exact hkept
  | some task =>
      simp only [Option.map_some]
      split
      · rename_i howner
        exact .leased htask howner
      · rw [entry, htask] at hkept
        exact hkept

theorem cardStep_setSelectedModel (model : String) (id : String) :
    board.CardStep id (.setSelectedModel model) ((board.setSelectedModel model).2.entry id) := by
  unfold setSelectedModel
  split
  · exact .kept
  · rename_i taskId task hselected
    obtain ⟨selected, -, hcard⟩ := Option.bind_eq_some_iff.mp hselected
    obtain ⟨card, htask, heq⟩ := Option.map_eq_some_iff.mp hcard
    obtain ⟨rfl, rfl⟩ := Prod.mk.inj heq
    by_cases hid : selected = id
    · subst hid
      simp only [entry, ExtTreeMap.getElem?_insert_self]
      exact .remodelled htask
    · simp only [entry, getElem?_insert_eq_ite, hid, if_false]
      exact .kept

theorem cardStep_autoSelectWaiting (deviceId : String) (nowMs : Nat) (id : String) :
    board.CardStep id (.autoSelectWaiting deviceId nowMs)
      ((board.autoSelectWaiting order deviceId nowMs).2.entry id) := by
  unfold autoSelectWaiting
  simp only
  split
  · exact .kept
  · split
    · exact .kept
    · split
      · exact .kept
      · exact .kept

/-- Every operation treats every entry in one of the six ways. -/
theorem apply_cardStep (order : WalkOrder) (board : TaskBoard) (op : Op) (id : String) :
    board.CardStep id op ((board.apply order op).entry id) := by
  cases hhandover : handover order board op with
  | some m =>
      rw [apply_entry_of_handover hhandover]
      exact cardStep_handover hhandover id
  | none =>
      cases hreallocates : reallocates op with
      | true =>
          obtain ⟨_, _, hafter⟩ := apply_of_no_handover hreallocates hhandover
          rw [hafter]
          exact .kept
      | false =>
          cases op with
          | setDevice | setSlotOwners | publishTasks | publishCodexSnapshot | publishLegacyStatus
          | publishCodexHidStatus | clearSession | expire => cases hreallocates
          | clearDevices => exact .kept
          | disconnectSession session nowMs => exact cardStep_disconnectSession session nowMs id
          | select deviceId slot nowMs =>
              show board.CardStep id _ ((board.select order deviceId slot nowMs).2.entry id)
              unfold select
              split
              · exact .kept
              · exact cardStep_selectTask rfl _ nowMs id
          | selectTask taskId nowMs => exact cardStep_selectTask rfl taskId nowMs id
          | autoSelectWaiting deviceId nowMs =>
              exact cardStep_autoSelectWaiting deviceId nowMs id
          | guardSelectionActivation taskId nowMs =>
              show board.CardStep id _ ((board.guardSelectionActivation taskId nowMs).entry id)
              unfold guardSelectionActivation
              split
              · exact .kept
              · exact .kept
          | setSelectedModel model => exact cardStep_setSelectedModel model id
          | restoreSlotPreferences value =>
              show board.CardStep id _ ((board.restoreSlotPreferences value).entry id)
              unfold restoreSlotPreferences
              split
              · exact .kept
              · exact .kept

end TaskBoard
end Tasks
end MicroEmu
