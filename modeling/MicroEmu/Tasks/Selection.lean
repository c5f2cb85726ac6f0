import MicroEmu.Tasks.Acknowledgement

/-!
# The selection

One task is selected for the whole board.  A reallocation drops a selection whose
task is gone, so a selected id always names a task, and the marker of a pending
local selection always names the selected task (`Coherent`).

A local selection of a Codex task is ahead of what Codex Desktop reports.  Until
Codex confirms it, or the marker runs out, a snapshot that focuses another task
does not take it back.  A selected task of another agent is never Codex's to move.
-/

namespace MicroEmu
namespace Tasks

open Std (ExtTreeMap LawfulEqCmp)
open Json (Value)
open Routing (AgentId)
open Library

namespace TaskBoard

variable {order : WalkOrder} {board : TaskBoard}

/-- The pending marker names the selected task. -/
def Marked (board : TaskBoard) : Prop :=
  ∀ id deadline, board.pendingSelection = some (id, deadline) → board.selected = some id

/-- The pending marker names the selected task, and the selected task exists. -/
structure Coherent (board : TaskBoard) : Prop where
  selected : ∀ id, board.selected = some id → ∃ task, board.tasks[id]? = some task
  pending : board.Marked

/-! ## The selection in a reallocation -/

@[simp] theorem reallocate_selected :
    (board.reallocate order).selected = board.repairSelection.selected := rfl

@[simp] theorem reallocate_pendingSelection :
    (board.reallocate order).pendingSelection = board.repairSelection.pendingSelection := rfl

/-- A reallocation repairs the selection. -/
theorem Marked.reallocate (hmarked : board.Marked) (order : WalkOrder) :
    (board.reallocate order).Coherent where
  selected := by
    intro id hselected
    rw [reallocate_selected, repairSelection] at hselected
    rw [reallocate_tasks]
    split at hselected
    · cases hselected
    · rename_i hthere
      rw [hselected, Option.any_some, Bool.not_eq_true', Bool.not_eq_false] at hthere
      exact contains_iff_exists.mp hthere
  pending := by
    intro id deadline hpending
    rw [reallocate_pendingSelection, repairSelection] at hpending
    rw [reallocate_selected, repairSelection]
    split at hpending
    · cases hpending
    · rename_i hthere
      rw [if_neg hthere]
      exact hmarked id deadline hpending

/-- A selected task that is there survives the repair. -/
theorem repairSelection_of_mem {id : String} {task : TaskCard}
    (hselected : board.selected = some id) (htask : board.tasks[id]? = some task) :
    board.repairSelection = board := by
  unfold repairSelection
  rw [if_neg]
  rw [hselected, Option.any_some, contains_iff_exists.mpr ⟨task, htask⟩]
  exact Bool.false_ne_true

/-- An accepted HID frame swaps the selected card, and the task it selects. -/
def HandsOff (order : WalkOrder) (board : TaskBoard) (op : Op) (id : String) : Prop :=
  ∃ value nowMs entries updates update, op = .publishCodexHidStatus value nowMs ∧
    value.asArray = some entries ∧
      (board.dropExpiredGuards nowMs).hidUpdates entries nowMs = .ok updates ∧
        selectionHandoff updates = true ∧ updates.find? HidUpdate.promoted = some update ∧
          (board.dropExpiredGuards nowMs).handoffTask order update.card = id ∧
            board.assignments.contains id = true

/-- The boards have the same selection and pending marker. -/
def SameFocus (board other : TaskBoard) : Prop :=
  other.selected = board.selected ∧ other.pendingSelection = board.pendingSelection

theorem sameFocus_replacedBoard (order : WalkOrder) (board : TaskBoard) (session : Nat)
    (cards : List TaskCard) (nowMs : Nat) :
    SameFocus board (replacedBoard order board session cards nowMs) := by
  obtain ⟨_, _, _, hframe⟩ := replacedBoard_frame order board session cards nowMs
  rw [hframe]
  exact ⟨rfl, rfl⟩

theorem sameFocus_removedBoard {base m : TaskBoard} {ids : List String}
    (hbase : SameFocus board base) (h : base.removedBoard ids = some m) : SameFocus board m := by
  unfold TaskBoard.removedBoard at h
  split at h
  · cases h
  · obtain rfl := Option.some.inj h
    rw [foldl_removeTask]
    exact hbase

/-- A board is handed over with the selection it had, unless a frame hands the
selection off. -/
theorem handover_focus {op : Op} {m : TaskBoard} (h : handover order board op = some m) :
    SameFocus board m ∨
      ∃ id, HandsOff order board op id ∧ m.selected = some id ∧ m.pendingSelection = none := by
  cases op with
  | setDevice deviceId taskSlots connected =>
      obtain rfl := Option.some.inj h
      cases connected with
      | true => exact Or.inl ⟨rfl, rfl⟩
      | false => exact Or.inl ⟨rfl, rfl⟩
  | setSlotOwners deviceId owners =>
      rw [handover] at h
      split at h
      · obtain rfl := Option.some.inj h
        exact Or.inl ⟨rfl, rfl⟩
      · cases h
  | publishTasks session agent value nowMs =>
      obtain ⟨cards, -, rfl⟩ := Option.map_eq_some_iff.mp h
      exact Or.inl (sameFocus_replacedBoard ..)
  | publishCodexSnapshot value nowMs =>
      obtain ⟨cards, -, rfl⟩ := Option.map_eq_some_iff.mp h
      exact Or.inl (sameFocus_replacedBoard ..)
  | publishLegacyStatus session agent value nowMs =>
      obtain ⟨cards, -, rfl⟩ := Option.map_eq_some_iff.mp h
      exact Or.inl (sameFocus_replacedBoard ..)
  | publishCodexHidStatus value nowMs =>
      obtain ⟨entries, hentries, h⟩ := Option.bind_eq_some_iff.mp h
      obtain ⟨updates, hupdates, rfl⟩ := Option.map_eq_some_iff.mp h
      have hframe : ∀ base : TaskBoard, ∀ cards,
          (base.mergedBoard cards nowMs).selected = base.selected ∧
            (base.mergedBoard cards nowMs).pendingSelection = base.pendingSelection := by
        intro base cards
        obtain ⟨_, _, hframe⟩ := mergedBoard_frame base cards nowMs
        rw [hframe]
        exact ⟨rfl, rfl⟩
      unfold hidBoard SameFocus
      simp only [hframe]
      cases hhandoff : selectionHandoff updates with
      | false => exact Or.inl ⟨rfl, rfl⟩
      | true =>
          simp only [if_true]
          unfold followHandoff
          cases hpromoted : updates.find? HidUpdate.promoted with
          | none => exact Or.inl ⟨rfl, rfl⟩
          | some update =>
              simp only
              split
              · rename_i hvisible
                exact Or.inr ⟨_, ⟨value, nowMs, entries, updates, update, rfl, hentries,
                  toOption_eq_some_iff.mp hupdates, hhandoff, hpromoted, rfl, hvisible⟩, rfl, rfl⟩
              · exact Or.inl ⟨rfl, rfl⟩
  | clearSession session => exact Or.inl (sameFocus_removedBoard ⟨rfl, rfl⟩ h)
  | expire nowMs =>
      have hbase : SameFocus board { board with nowMs := nowMs } := ⟨rfl, rfl⟩
      exact Or.inl (sameFocus_removedBoard hbase h)
  | clearDevices | disconnectSession | select | selectTask | autoSelectWaiting
  | guardSelectionActivation | setSelectedModel | restoreSlotPreferences => cases h

/-! ## Coherence -/

/-- Whoever confirms or moves the selection to an existing task leaves it coherent. -/
theorem Coherent.reconcile (hcoherent : board.Coherent) (authoritative : Option String)
    (nowMs : Nat) : (board.reconcileAuthoritativeSelection authoritative nowMs).Coherent := by
  unfold reconcileAuthoritativeSelection
  cases hfocus : authoritative.filter board.tasks.contains with
  | none => exact hcoherent
  | some focus =>
      have hfocused : ({ board with selected := some focus, pendingSelection := none } :
          TaskBoard).Coherent := by
        refine ⟨fun id hselected => ?_, fun _ _ hpending => by cases hpending⟩
        obtain rfl := Option.some.inj hselected
        exact contains_iff_exists.mp (Option.filter_eq_some_iff.mp hfocus).2
      simp only
      split
      · exact hcoherent
      · split
        · exact hfocused
        · rename_i pending deadline hpending
          split
          · exact hfocused
          · split
            · rw [← hcoherent.pending pending deadline hpending]
              exact hcoherent
            · exact hfocused

/-- Coherence rests on the ids of the cards and on the selection. -/
theorem Coherent.congr {after : TaskBoard} (hcoherent : board.Coherent)
    (hfocus : SameFocus board after)
    (hcards : ∀ id : String, after.tasks[id]? = none → board.tasks[id]? = none) :
    after.Coherent where
  selected := by
    intro id hselected
    rw [hfocus.1] at hselected
    obtain ⟨task, htask⟩ := hcoherent.selected id hselected
    rw [← Option.ne_none_iff_exists']
    intro hnone
    rw [hcards id hnone] at htask
    cases htask
  pending := by
    intro id deadline hpending
    rw [hfocus.2] at hpending
    exact hfocus.1.trans (hcoherent.pending id deadline hpending)

/-! ## Selecting a task -/

/-- The selecting call of an operation, with the event it returns. -/
def selection (order : WalkOrder) (board : TaskBoard) : Op → Option Value
  | .select deviceId slot nowMs => (board.select order deviceId slot nowMs).1
  | .selectTask taskId nowMs => (board.selectTask taskId nowMs).1
  | .autoSelectWaiting deviceId nowMs => (board.autoSelectWaiting order deviceId nowMs).1
  | _ => none

/-- A call that returns no event leaves the selection; one that returns an event has
selected a task. -/
def Chosen (board : TaskBoard) (nowMs : Nat) (result : Option Value × TaskBoard) : Prop :=
  (result.1 = none ∧ SameFocus board result.2) ∨
    (result.1.isSome = true ∧ ∃ id task, board.tasks[id]? = some task ∧
      result.2.selected = some id ∧ result.2.pendingSelection = pendingMarker task id nowMs)

theorem chosen_selectTask (board : TaskBoard) (taskId : String) (nowMs : Nat) :
    board.Chosen nowMs (board.selectTask taskId nowMs) := by
  unfold selectTask
  simp only
  split
  · rename_i task _ htask
    exact Or.inr ⟨rfl, taskId, _, htask, rfl, rfl⟩
  · exact Or.inl ⟨rfl, rfl, rfl⟩

theorem chosen_select (order : WalkOrder) (board : TaskBoard) (deviceId : String)
    (slot nowMs : Nat) : board.Chosen nowMs (board.select order deviceId slot nowMs) := by
  unfold select
  split
  · exact Or.inl ⟨rfl, rfl, rfl⟩
  · exact chosen_selectTask board _ nowMs

theorem chosen_autoSelectWaiting (order : WalkOrder) (board : TaskBoard) (deviceId : String)
    (nowMs : Nat) : board.Chosen nowMs (board.autoSelectWaiting order deviceId nowMs) := by
  unfold autoSelectWaiting
  simp only
  split
  · exact Or.inl ⟨rfl, rfl, rfl⟩
  · rename_i best _
    split
    · exact Or.inl ⟨rfl, rfl, rfl⟩
    · split
      · rename_i task _ htask hmarked
        exact Or.inr ⟨rfl, best.taskId, _, hmarked, rfl, rfl⟩
      · exact Or.inl ⟨rfl, rfl, rfl⟩

/-- An operation that hands nothing over leaves the selection or selects a task. -/
theorem apply_focus_of_quiet {op : Op} (h : handover order board op = none) :
    (selection order board op = none ∧ SameFocus board (board.apply order op)) ∨
      ((selection order board op).isSome = true ∧ ∃ id task nowMs, board.tasks[id]? = some task ∧
        (board.apply order op).selected = some id ∧
          (board.apply order op).pendingSelection = pendingMarker task id nowMs) := by
  have hchosen : ∀ {nowMs result}, board.Chosen nowMs result →
      selection order board op = result.1 → board.apply order op = result.2 →
        (selection order board op = none ∧ SameFocus board (board.apply order op)) ∨
          ((selection order board op).isSome = true ∧ ∃ id task nowMs,
            board.tasks[id]? = some task ∧ (board.apply order op).selected = some id ∧
              (board.apply order op).pendingSelection = pendingMarker task id nowMs) := by
    rintro nowMs result hresult hselection hafter
    rw [hselection, hafter]
    rcases hresult with hsame | ⟨hsome, id, task, htask, hselected, hpending⟩
    · exact Or.inl hsame
    · exact Or.inr ⟨hsome, id, task, nowMs, htask, hselected, hpending⟩
  cases hreallocates : reallocates op with
  | true =>
      obtain ⟨_, _, hafter⟩ := apply_of_no_handover hreallocates h
      refine Or.inl ⟨?_, ?_⟩
      · cases op <;> first | rfl | cases hreallocates
      · rw [hafter]
        exact ⟨rfl, rfl⟩
  | false =>
      cases op with
      | setDevice | setSlotOwners | publishTasks | publishCodexSnapshot | publishLegacyStatus
      | publishCodexHidStatus | clearSession | expire => cases hreallocates
      | clearDevices | disconnectSession => exact Or.inl ⟨rfl, rfl, rfl⟩
      | select deviceId slot nowMs =>
          exact hchosen (chosen_select order board deviceId slot nowMs) rfl rfl
      | selectTask taskId nowMs => exact hchosen (chosen_selectTask board taskId nowMs) rfl rfl
      | autoSelectWaiting deviceId nowMs =>
          exact hchosen (chosen_autoSelectWaiting order board deviceId nowMs) rfl rfl
      | guardSelectionActivation taskId nowMs =>
          refine Or.inl ⟨rfl, ?_⟩
          show SameFocus board (board.guardSelectionActivation taskId nowMs)
          unfold guardSelectionActivation
          split
          · exact ⟨rfl, rfl⟩
          · exact ⟨rfl, rfl⟩
      | setSelectedModel model =>
          refine Or.inl ⟨rfl, ?_⟩
          show SameFocus board (board.setSelectedModel model).2
          unfold setSelectedModel
          split
          · exact ⟨rfl, rfl⟩
          · exact ⟨rfl, rfl⟩
      | restoreSlotPreferences value =>
          refine Or.inl ⟨rfl, ?_⟩
          show SameFocus board (board.restoreSlotPreferences value)
          unfold restoreSlotPreferences
          split
          · exact ⟨rfl, rfl⟩
          · exact ⟨rfl, rfl⟩

/-- Without a reallocation no card leaves the board. -/
theorem none_of_quiet {op : Op} (h : handover order board op = none) {id : String}
    (hnone : (board.apply order op).tasks[id]? = none) : board.tasks[id]? = none := by
  by_cases hop : op = .clearDevices
  · subst hop
    exact hnone
  · exact (apply_quiet hop h).none_iff.mp hnone

theorem pendingMarker_fst {task : TaskCard} {taskId id : String} {nowMs deadline : Nat}
    (h : pendingMarker task taskId nowMs = some (id, deadline)) : id = taskId := by
  unfold pendingMarker at h
  split at h
  · exact (congrArg Prod.fst (Option.some.inj h)).symm
  · cases h

/-- Every operation leaves a coherent selection. -/
theorem Coherent.apply (hcoherent : board.Coherent) (order : WalkOrder) (op : Op) :
    (board.apply order op).Coherent := by
  cases hhandover : handover order board op with
  | some m =>
      have hmarked : m.Marked := by
        rcases handover_focus hhandover with hsame | ⟨_, -, -, hnone⟩
        · intro id deadline hpending
          rw [hsame.2] at hpending
          exact hsame.1.trans (hcoherent.pending id deadline hpending)
        · intro id deadline hpending
          rw [hnone] at hpending
          cases hpending
      have hreallocated := hmarked.reallocate order
      rw [apply_eq_of_handover hhandover]
      unfold reconciled
      split
      · exact hreallocated.reconcile _ _
      · exact hreallocated
  | none =>
      rcases apply_focus_of_quiet hhandover with
        ⟨-, hsame⟩ | ⟨-, chosen, task, nowMs, htask, hselected, hpending⟩
      · exact hcoherent.congr hsame fun id => none_of_quiet hhandover
      · constructor
        · intro id hid
          rw [hselected] at hid
          obtain rfl := Option.some.inj hid
          rw [← Option.ne_none_iff_exists']
          intro hnone
          rw [none_of_quiet hhandover hnone] at htask
          cases htask
        · intro id deadline hmarker
          rw [hpending] at hmarker
          rw [pendingMarker_fst hmarker]
          exact hselected

theorem coherent_run (steps : List (WalkOrder × Op)) : (run steps default).Coherent := by
  have hrun : ∀ (steps : List (WalkOrder × Op)) (board : TaskBoard), board.Coherent →
      (run steps board).Coherent := by
    intro steps
    induction steps with
    | nil => exact fun _ hcoherent => hcoherent
    | cons step steps ih => exact fun board hcoherent => ih _ (hcoherent.apply step.1 step.2)
  refine hrun steps default ⟨fun id hselected => ?_, fun id deadline hpending => ?_⟩
  · simp [default] at hselected
  · simp [default] at hpending

/-! ## A local selection -/

/-- The task is selected locally, and Codex has until the deadline to confirm it. -/
def AwaitsConfirmation (id : String) (deadline : Nat) (board : TaskBoard) : Prop :=
  board.selected = some id ∧ board.pendingSelection = some (id, deadline)

/-- What ends a local selection: a call or a HID frame selects a task, a snapshot
confirms the selection, or a late one moves it. -/
def Supersedes (id : String) (deadline : Nat) (board : TaskBoard) (step : WalkOrder × Op) : Prop :=
  (selection step.1 board step.2).isSome = true ∨
    (∃ other, HandsOff step.1 board step.2 other) ∨
      ∃ value nowMs, step.2 = .publishCodexSnapshot value nowMs ∧
        (snapshotFocus value = some id ∨
          (deadline < nowMs ∧ ¬SameFocus board (board.apply step.1 step.2)))

/-- A snapshot in time that focuses another task leaves the local selection. -/
theorem AwaitsConfirmation.reconcile {id : String} {deadline nowMs : Nat}
    {focus : Option String} (h : AwaitsConfirmation id deadline board) {task : TaskCard}
    (htask : board.tasks[id]? = some task) (hother : focus ≠ some id)
    (hintime : nowMs ≤ deadline) :
    SameFocus board (board.reconcileAuthoritativeSelection focus nowMs) := by
  unfold reconcileAuthoritativeSelection
  cases hfocus : focus.filter board.tasks.contains with
  | none => exact ⟨rfl, rfl⟩
  | some authoritative =>
      have hne : ¬id = authoritative := by
        rintro rfl
        exact hother (Option.filter_eq_some_iff.mp hfocus).1
      simp only
      split
      · exact ⟨rfl, rfl⟩
      · rw [h.2]
        simp only
        rw [if_neg hne, if_pos ⟨hintime, contains_iff_exists.mpr ⟨task, htask⟩⟩]
        exact ⟨h.1.symm, h.2.symm ▸ rfl⟩

/-- A step that keeps the task and does not supersede its selection keeps the local
selection. -/
theorem AwaitsConfirmation.apply {id : String} {deadline : Nat} {step : WalkOrder × Op}
    (h : AwaitsConfirmation id deadline board) (hstays : StaysBy id board step)
    (hlasts : ¬Supersedes id deadline board step) :
    SameFocus board (board.apply step.1 step.2) := by
  unfold Supersedes at hlasts
  push Not at hlasts
  obtain ⟨hselection, hhandoff, hsnapshot⟩ := hlasts
  cases hhandover : handover step.1 board step.2 with
  | some m =>
      rcases handover_focus hhandover with hsame | ⟨other, hother, -, -⟩
      · obtain ⟨task, htask⟩ := Option.isSome_iff_exists.mp hstays
        have htask' : m.tasks[id]? = some task := by
          rw [← (apply_cards hhandover).1]
          exact htask
        have hrepair := repairSelection_of_mem (hsame.1.trans h.1) htask'
        have hfocus : SameFocus board (m.reallocate step.1) := by
          unfold SameFocus
          rw [reallocate_selected, reallocate_pendingSelection, hrepair]
          exact hsame
        rw [apply_eq_of_handover hhandover]
        unfold reconciled
        split
        · rename_i value nowMs hop
          obtain ⟨hunconfirmed, hlate⟩ := hsnapshot value nowMs hop
          rcases Nat.lt_or_ge deadline nowMs with hafter | hintime
          · have hsame' := hlate hafter
            rw [apply_eq_of_handover hhandover, hop] at hsame'
            exact hsame'
          · have hawaits : AwaitsConfirmation id deadline (m.reallocate step.1) :=
              ⟨hfocus.1.trans h.1, hfocus.2.trans h.2⟩
            have hkept := hawaits.reconcile (reallocate_tasks ▸ htask') hunconfirmed hintime
            exact ⟨hkept.1.trans hfocus.1, hkept.2.trans hfocus.2⟩
        · exact hfocus
      · exact absurd hother (hhandoff other)
  | none =>
      rcases apply_focus_of_quiet hhandover with ⟨-, hsame⟩ | ⟨hsome, -⟩
      · exact hsame
      · exact absurd hsome hselection

/-- A local selection that nothing supersedes lasts as long as its task. -/
theorem AwaitsConfirmation.run {id : String} {deadline : Nat} {steps : List (WalkOrder × Op)}
    (h : AwaitsConfirmation id deadline board) (hstays : AlongRun (StaysBy id) steps board)
    (hlasts : AlongRun (fun board step => ¬Supersedes id deadline board step) steps board) :
    AwaitsConfirmation id deadline (run steps board) := by
  refine (hstays.and hlasts).invariant (AwaitsConfirmation id deadline) ?_ h
  rintro board step h ⟨hstays, hlasts⟩
  have hsame := h.apply hstays hlasts
  exact ⟨hsame.1.trans h.1, hsame.2.trans h.2⟩

/-- Selecting a visible Codex task by its id awaits a confirmation. -/
theorem awaitsConfirmation_selectTask {id : String} {task : TaskCard} (nowMs : Nat)
    (htask : board.tasks[id]? = some task) (hcodex : task.ownerAgent = .codex)
    (hvisible : board.assignments.contains id = true) :
    AwaitsConfirmation id (saturatingAdd nowMs 2000) (board.selectTask id nowMs).2 := by
  obtain ⟨assignment, hassigned⟩ := contains_iff_exists.mp hvisible
  unfold selectTask AwaitsConfirmation
  simp only [hassigned, htask, pendingMarker, hcodex, if_true, and_self]

/-! ## A selected task of another agent -/

/-- No snapshot moves the selection from a task of another agent that is still one
after it. -/
theorem snapshot_keeps_foreign (order : WalkOrder) (value : Value) (nowMs : Nat) {id : String}
    {task : TaskCard} (hselected : board.selected = some id)
    (htask : (board.apply order (.publishCodexSnapshot value nowMs)).tasks[id]? = some task)
    (hforeign : task.ownerAgent ≠ .codex) :
    (board.apply order (.publishCodexSnapshot value nowMs)).selected = some id := by
  cases hhandover : handover order board (.publishCodexSnapshot value nowMs) with
  | none =>
      obtain ⟨_, _, hafter⟩ := apply_of_no_handover rfl hhandover
      rw [hafter]
      exact hselected
  | some m =>
      rw [(apply_cards hhandover).1] at htask
      have hsame : SameFocus board m := by
        rcases handover_focus hhandover with hsame | ⟨_, ⟨_, _, _, _, _, hop, -⟩, -⟩
        · exact hsame
        · cases hop
      have hrepair := repairSelection_of_mem (hsame.1.trans hselected) htask
      have hkept : (m.reallocate order).selected = some id := by
        rw [reallocate_selected, hrepair, hsame.1, hselected]
      have howner : ((m.reallocate order).selected.bind ((m.reallocate order).tasks[·]?)).any
          (·.ownerAgent != .codex) = true := by
        rw [hkept, Option.bind_some, reallocate_tasks, htask, Option.any_some]
        exact bne_iff_ne.mpr hforeign
      rw [apply_eq_of_handover hhandover]
      unfold reconciled reconcileAuthoritativeSelection
      simp only
      split
      · exact hkept
      · rw [if_pos howner]
        exact hkept

/-- A snapshot is Codex's own: it neither removes nor rewrites another agent's card of
another session. -/
theorem snapshot_keeps_card (order : WalkOrder) (value : Value) (nowMs : Nat) {id : String}
    {task : TaskCard} (htask : board.tasks[id]? = some task) (hforeign : task.ownerAgent ≠ .codex)
    (hsession : task.ownerSession ≠ 0) :
    (board.apply order (.publishCodexSnapshot value nowMs)).tasks[id]? = some task := by
  have hstep := apply_cardStep order board (.publishCodexSnapshot value nowMs) id
  show ((board.apply order (.publishCodexSnapshot value nowMs)).entry id).card = some task
  generalize (board.apply order (.publishCodexSnapshot value nowMs)).entry id = after at hstep
  cases hstep with
  | kept => exact htask
  | published hmerged hnamed =>
      obtain ⟨cards, hcards, heq⟩ := Option.map_eq_some_iff.mp hmerged
      obtain ⟨rfl, rfl⟩ := Prod.mk.inj heq
      obtain ⟨card, hcard, rfl⟩ := List.mem_map.mp hnamed
      obtain ⟨-, hallowed⟩ := publishedCards_ok (toOption_eq_some_iff.mp hcards) card hcard
      rcases checkOwner_eq_ok_iff.mp hallowed task htask with howner | ⟨hcodex, -⟩
      · exact absurd howner hsession
      · exact absurd hcodex hforeign
  | removed hcard hremoves =>
      rw [htask] at hcard
      obtain rfl := Option.some.inj hcard
      cases hremoves with
      | unlisted hpublisher =>
          exact absurd (congrArg Prod.fst (Option.some.inj hpublisher)).symm hsession
  | acknowledged _ _ hop => cases hop

/-! ## Selection coherence -/

/-- The selected id of a reachable board names a card, and its pending marker names
the selected task.  After a Codex task is selected by its id, and as long as the task
stays on the board and nothing supersedes its selection, a snapshot of the next two
seconds that focuses another task leaves the selection where it is.  A selected task
of another agent stays selected through every snapshot, unless its session is the
snapshot's own and the snapshot replaces or drops the card. -/
theorem selection_coherence (before : List (WalkOrder × Op)) :
    let board := run before default
    (∀ id, board.selected = some id → ∃ task, board.tasks[id]? = some task) ∧
      (∀ id deadline, board.pendingSelection = some (id, deadline) → board.selected = some id) ∧
      (∀ order id nowMs task, board.tasks[id]? = some task → task.ownerAgent = .codex →
        board.assignments.contains id = true →
          let chosen := board.apply order (.selectTask id nowMs)
          ∀ steps, AlongRun (StaysBy id) steps chosen →
            AlongRun (fun board step => ¬Supersedes id (saturatingAdd nowMs 2000) board step)
              steps chosen →
              ∀ order value later, later ≤ nowMs + 2000 → later ≤ u128Max →
                snapshotFocus value ≠ some id →
                  let after := (run steps chosen).apply order (.publishCodexSnapshot value later)
                  (∃ task, after.tasks[id]? = some task) →
                    (run steps chosen).selected = some id ∧ after.selected = some id) ∧
      ∀ order value nowMs id task, board.selected = some id → board.tasks[id]? = some task →
        task.ownerAgent ≠ .codex →
          let after := board.apply order (.publishCodexSnapshot value nowMs)
          after.selected = some id ∨ (task.ownerSession = 0 ∧
            ∀ task', after.tasks[id]? = some task' → task'.ownerAgent = .codex) := by
  intro board
  have hcoherent := coherent_run before
  refine ⟨hcoherent.selected, hcoherent.pending, ?_, ?_⟩
  · intro order id nowMs task htask hcodex hvisible chosen steps hstays hlasts order' value later
      hintime hclock hother after hthere
    have hawaits : AwaitsConfirmation id (saturatingAdd nowMs 2000) (run steps chosen) :=
      (awaitsConfirmation_selectTask nowMs htask hcodex hvisible).run hstays hlasts
    have hdeadline : later ≤ saturatingAdd nowMs 2000 := le_min hintime hclock
    have hkept : SameFocus (run steps chosen) after := by
      refine @AwaitsConfirmation.apply _ _ _ (order', .publishCodexSnapshot value later) hawaits
        ?_ ?_
      · obtain ⟨task', htask'⟩ := hthere
        exact Option.isSome_iff_exists.mpr ⟨task', htask'⟩
      · rintro (hselection | ⟨_, ⟨_, _, _, _, _, hop, -⟩⟩ | ⟨_, _, hop, hconfirm | ⟨hlate, -⟩⟩)
        · cases hselection
        · cases hop
        · obtain ⟨rfl, rfl⟩ := Op.publishCodexSnapshot.inj hop
          exact hother hconfirm
        · obtain ⟨rfl, rfl⟩ := Op.publishCodexSnapshot.inj hop
          omega
    exact ⟨hawaits.1, hkept.1.trans hawaits.1⟩
  · intro order value nowMs id task hselected htask hforeign after
    by_cases hstill : ∃ task', after.tasks[id]? = some task' ∧ task'.ownerAgent ≠ .codex
    · obtain ⟨task', htask', hforeign'⟩ := hstill
      exact Or.inl (snapshot_keeps_foreign order value nowMs hselected htask' hforeign')
    · by_cases hsession : task.ownerSession = 0
      · refine Or.inr ⟨hsession, fun task' htask' => ?_⟩
        by_contra hforeign'
        exact hstill ⟨task', htask', hforeign'⟩
      · exact absurd ⟨task, snapshot_keeps_card order value nowMs htask hforeign hsession, hforeign⟩
          hstill

/-- Desktop lists the two threads and focuses the second one. -/
def focusSecond (nowMs : Nat) : WalkOrder × Op :=
  (.ascending, .publishCodexSnapshot (.object [("tasks", .array
    [.object [("task_id", .string "a")], .object [("task_id", .string "b")]]),
      ("selected_task_id", .string "b")]) nowMs)

/-- The first thread, selected on the device, stays selected through two snapshots
that still focus the second one. -/
theorem selection_stands :
    let chosen := (run (twoThreads codexOwners) default).apply .ascending (.selectTask "a" 100)
    (run [focusSecond 500] chosen).selected = some "a" ∧
      ((run [focusSecond 500] chosen).apply .ascending (focusSecond 1500).2).selected =
        some "a" := by
  intro chosen
  have hcodex : ((run (twoThreads codexOwners) default).tasks["a"]?).map (·.ownerAgent) =
      some .codex := by decide +kernel
  obtain ⟨task, htask, hagent⟩ := Option.map_eq_some_iff.mp hcodex
  have hthere : (((run [focusSecond 500] chosen).apply .ascending
      (focusSecond 1500).2).tasks["a"]?).isSome = true := by decide +kernel
  refine (selection_coherence (twoThreads codexOwners)).2.2.1 .ascending "a" 100 task htask hagent
    (by decide +kernel) [focusSecond 500] ⟨?_, trivial⟩ ⟨?_, trivial⟩ .ascending _ 1500
    (by decide) (by decide) (by decide) (Option.isSome_iff_exists.mp hthere)
  · unfold StaysBy
    decide +kernel
  · rintro (hselection | ⟨_, ⟨_, _, _, _, _, hop, -⟩⟩ | ⟨_, _, hop, hconfirm | ⟨hlate, -⟩⟩)
    · cases hselection
    · cases hop
    · obtain ⟨rfl, -⟩ := Op.publishCodexSnapshot.inj hop
      revert hconfirm
      decide
    · obtain ⟨-, rfl⟩ := Op.publishCodexSnapshot.inj hop
      revert hlate
      decide

end TaskBoard
end Tasks
end MicroEmu
