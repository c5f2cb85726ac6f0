import MicroEmu.Library.Stopwatch
import MicroEmu.Tasks.Layout

/-!
# The timers of a card

A card without timestamps of its own is timed by the merge, from the card it
replaces and the time of the publication.  The timer law says what it should
show after any history of publications: the start of its current run, and the
finish of a lasting completion (`lawfulLifecycle`, by the stopwatch of the
library).  The merge follows a recurrence over the history (`mergedLifecycle`).
The two agree until a card waits or pauses right after a completion: there the
merge carries the start of the finished run on (`stalls`).
-/

namespace MicroEmu
namespace Tasks

open Std (ExtTreeMap LawfulEqCmp)
open Json (Value)
open Routing (AgentId)
open Library

/-! ## The law and the recurrence -/

/-- A run ends at a queued, completed or error state. -/
def taskPhases : Phases TaskState where
  active := TaskState.active
  completed := (· == .completed)
  ends state := state == .queued || state == .completed || state == .error
  ends_of_completed := by
    intro state h
    rw [h, Bool.or_true, Bool.true_or]
  not_active_of_ends := by
    intro state h
    cases state <;> first | rfl | cases h

/-- What the timer law speaks of in a card. -/
structure Lifecycle where
  state : TaskState
  startedAtMs : Option Nat
  finishedAtMs : Option Nat
  deriving DecidableEq

def TaskCard.lifecycle (task : TaskCard) : Lifecycle :=
  ⟨task.state, task.startedAtMs, task.finishedAtMs⟩

/-- A published state and the time of its publication. -/
abbrev Publication := TaskState × Nat

/-- The lifecycle the timer law asks for after a history, the latest first. -/
def lawfulLifecycle : List Publication → Option Lifecycle
  | [] => none
  | latest :: past =>
      some ⟨latest.1, taskPhases.startedAt (latest :: past),
        taskPhases.finishedAt (latest :: past)⟩

/-- What a publication without timestamps makes of the previous lifecycle. -/
def Lifecycle.merge (previous : Option Lifecycle) (latest : Publication) : Lifecycle where
  state := latest.1
  startedAtMs :=
    match latest.1 with
    | .running | .thinking =>
        if previous.any fun before => before.state == .queued || before.state == .completed then
          some latest.2
        else
          (previous.bind Lifecycle.startedAtMs).or (some latest.2)
    | .completed | .waiting | .paused | .reconnecting => previous.bind Lifecycle.startedAtMs
    | .queued | .error => none
  finishedAtMs :=
    if latest.1 = .completed then
      ((previous.filter (·.state == .completed)).bind Lifecycle.finishedAtMs).or (some latest.2)
    else
      none

/-- The lifecycle after a history. -/
def mergedLifecycle : List Publication → Option Lifecycle
  | [] => none
  | latest :: past => some (Lifecycle.merge (mergedLifecycle past) latest)

/-- A card waits, pauses or reconnects right after the completion of a run that
had started. -/
def stalls (latest : Publication) (past : List Publication) : Bool :=
  (latest.1 == .waiting || latest.1 == .paused || latest.1 == .reconnecting) &&
    past.head?.any (·.1 == .completed) && (taskPhases.startedAt past).isSome

/-- No publication of the history stalls. -/
def StallFree : List Publication → Prop
  | [] => True
  | latest :: past => stalls latest past = false ∧ StallFree past

/-- After a queued or error state no run is shown. -/
theorem startedAt_of_over {latest : Publication} (past : List Publication)
    (h : latest.1 = .queued ∨ latest.1 = .error) :
    taskPhases.startedAt (latest :: past) = none := by
  have hcompleted : taskPhases.completed latest.1 = false := by
    rcases h with h | h <;> rw [h] <;> rfl
  have hends : taskPhases.ends latest.1 = true := by
    rcases h with h | h <;> rw [h] <;> rfl
  rw [Phases.startedAt_cons hcompleted, Phases.runStart_cons_of_ends hends]

/-- The run a further publication continues. -/
theorem runStart_past (past : List Publication) :
    taskPhases.runStart past =
      if past.head?.any (·.1 == .completed) then none else taskPhases.startedAt past := by
  split
  · rename_i hcompleted
    exact Phases.runStart_of_head_completed hcompleted
  · rename_i hongoing
    refine (Phases.startedAt_eq_runStart ?_).symm
    cases past with
    | nil => rfl
    | cons before past => simpa [taskPhases] using hongoing

/-- A state that ends no run continues the one before it, or starts one. -/
theorem startedAt_of_goes {latest : Publication} (past : List Publication)
    (h : taskPhases.ends latest.1 = false) :
    taskPhases.startedAt (latest :: past) =
      (if past.head?.any (·.1 == .completed) then none else taskPhases.startedAt past).or
        (if latest.1.active then some latest.2 else none) := by
  have hcompleted : taskPhases.completed latest.1 = false := by
    cases hc : taskPhases.completed latest.1 with
    | false => rfl
    | true => exact absurd (taskPhases.ends_of_completed hc) (by simp [h])
  rw [Phases.startedAt_cons hcompleted, Phases.runStart_cons h, runStart_past]
  rfl

theorem lawful_startedAtMs (past : List Publication) :
    (lawfulLifecycle past).bind Lifecycle.startedAtMs = taskPhases.startedAt past := by
  cases past with
  | nil => rfl
  | cons before past => rfl

theorem lawful_finishedAtMs (past : List Publication) :
    ((lawfulLifecycle past).filter (·.state == .completed)).bind Lifecycle.finishedAtMs =
      taskPhases.finishedAt past := by
  cases past with
  | nil => rfl
  | cons before past =>
      by_cases hbefore : before.1 = .completed
      · simp [lawfulLifecycle, hbefore, Option.filter]
      · have hnone : taskPhases.finishedAt (before :: past) = none :=
          Phases.finishedAt_of_head_not_completed (by simpa [taskPhases] using hbefore)
        simp [lawfulLifecycle, hbefore, hnone]

/-- The finish of the recurrence is always lawful. -/
theorem merge_finishedAtMs (latest : Publication) (past : List Publication) :
    (Lifecycle.merge (lawfulLifecycle past) latest).finishedAtMs =
      taskPhases.finishedAt (latest :: past) := by
  unfold Lifecycle.merge
  simp only [lawful_finishedAtMs]
  split
  · rename_i hcompleted
    have hlatest : taskPhases.completed latest.1 = true := beq_iff_eq.mpr hcompleted
    rw [Phases.finishedAt_cons_of_completed hlatest]
  · rename_i hongoing
    have hlatest : (latest :: past).head?.all
        (fun event => !taskPhases.completed event.1) = true := by
      simpa [taskPhases] using hongoing
    rw [Phases.finishedAt_of_head_not_completed hlatest]

/-- An active state keeps the start of a run in flight and is a start otherwise. -/
theorem merge_startedAtMs_active {latest : Publication} (past : List Publication)
    (h : latest.1.active = true) :
    (Lifecycle.merge (lawfulLifecycle past) latest).startedAtMs =
      taskPhases.startedAt (latest :: past) := by
  have hends : taskPhases.ends latest.1 = false := by
    cases hstate : taskPhases.ends latest.1 with
    | false => rfl
    | true => exact absurd (taskPhases.not_active_of_ends hstate) (by simp [taskPhases, h])
  have hmerge : (Lifecycle.merge (lawfulLifecycle past) latest).startedAtMs =
      if (lawfulLifecycle past).any
          fun before => before.state == .queued || before.state == .completed then
        some latest.2
      else
        ((lawfulLifecycle past).bind Lifecycle.startedAtMs).or (some latest.2) := by
    unfold Lifecycle.merge
    cases hstate : latest.1 <;> first | rfl | (rw [hstate] at h; cases h)
  rw [hmerge, startedAt_of_goes past hends, lawful_startedAtMs, if_pos h]
  cases past with
  | nil => rfl
  | cons before past =>
      by_cases hqueued : before.1 = .queued
      · -- an idle card is not in flight, and shows no start either
        simp [lawfulLifecycle, hqueued, startedAt_of_over past (Or.inl hqueued)]
      · by_cases hcompleted : before.1 = .completed
        · simp [lawfulLifecycle, hcompleted]
        · simp [lawfulLifecycle, hqueued, hcompleted]

/-- The start of the recurrence is lawful unless the publication stalls. -/
theorem merge_startedAtMs (latest : Publication) (past : List Publication) :
    (Lifecycle.merge (lawfulLifecycle past) latest).startedAtMs =
        taskPhases.startedAt (latest :: past) ↔ stalls latest past = false := by
  have hheld : latest.1 = .waiting ∨ latest.1 = .paused ∨ latest.1 = .reconnecting →
      ((Lifecycle.merge (lawfulLifecycle past) latest).startedAtMs =
        taskPhases.startedAt (latest :: past) ↔ stalls latest past = false) := by
    intro h
    have hends : taskPhases.ends latest.1 = false := by
      rcases h with h | h | h <;> rw [h] <;> rfl
    have hactive : latest.1.active = false := by
      rcases h with h | h | h <;> rw [h] <;> rfl
    have hmerge : (Lifecycle.merge (lawfulLifecycle past) latest).startedAtMs =
        (lawfulLifecycle past).bind Lifecycle.startedAtMs := by
      unfold Lifecycle.merge
      rcases h with h | h | h <;> simp only [h]
    have hstalls : stalls latest past =
        (past.head?.any (·.1 == .completed) && (taskPhases.startedAt past).isSome) := by
      unfold stalls
      rcases h with h | h | h <;> simp [h]
    rw [hmerge, startedAt_of_goes past hends, lawful_startedAtMs, hactive, hstalls]
    -- the law drops the start of a completed run, the merge keeps it
    cases hcompleted : past.head?.any (·.1 == .completed) with
    | false => simp
    | true => simp [Option.isNone_iff_eq_none]
  cases hstate : latest.1 with
  | running | thinking =>
      have hactive : latest.1.active = true := by rw [hstate]; rfl
      simp [merge_startedAtMs_active past hactive, stalls, hstate]
  | completed =>
      have hcompleted : taskPhases.completed latest.1 = true := by rw [hstate]; rfl
      rw [Phases.startedAt_cons_of_completed hcompleted, ← lawful_startedAtMs past]
      simp [Lifecycle.merge, stalls, hstate]
  | queued =>
      rw [startedAt_of_over past (Or.inl hstate)]
      simp [Lifecycle.merge, stalls, hstate]
  | error =>
      rw [startedAt_of_over past (Or.inr hstate)]
      simp [Lifecycle.merge, stalls, hstate]
  | waiting => exact hheld (Or.inl hstate)
  | paused => exact hheld (Or.inr (Or.inl hstate))
  | reconnecting => exact hheld (Or.inr (Or.inr hstate))

/-- From a lawful past, the recurrence is lawful unless the publication stalls. -/
theorem mergedLifecycle_cons_iff {latest : Publication} {past : List Publication}
    (hpast : mergedLifecycle past = lawfulLifecycle past) :
    mergedLifecycle (latest :: past) = lawfulLifecycle (latest :: past) ↔
      stalls latest past = false := by
  rw [← merge_startedAtMs, mergedLifecycle, hpast, lawfulLifecycle, Option.some.injEq]
  constructor
  · intro h
    rw [h]
  · intro h
    have hfinished := merge_finishedAtMs latest past
    cases hmerge : Lifecycle.merge (lawfulLifecycle past) latest with
    | mk state started finished =>
        rw [hmerge] at h hfinished
        have hstate : state = latest.1 := (congrArg Lifecycle.state hmerge).symm
        simp only at h hfinished
        rw [h, hfinished, hstate]

/-- Without a stall the recurrence follows the law. -/
theorem mergedLifecycle_of_stallFree {history : List Publication} (h : StallFree history) :
    mergedLifecycle history = lawfulLifecycle history := by
  induction history with
  | nil => rfl
  | cons latest past ih => exact (mergedLifecycle_cons_iff (ih h.2)).mpr h.1

/-! ## The merge follows the recurrence -/

/-- Parsing gives an entry without timestamps the timers of a first publication. -/
theorem ParsedFrom.first {session : Nat} {agent : AgentId} {item : Value} {nowMs : Nat}
    {legacy : Option (String × String)} {card : TaskCard}
    (h : ParsedFrom session agent item nowMs legacy card)
    (hplain : card.timingAuthoritative = false) :
    card.lifecycle = Lifecycle.merge none (card.state, nowMs) := by
  unfold TaskCard.lifecycle Lifecycle.merge
  rw [h.startedAtMs hplain, h.finishedAtMs hplain]
  cases card.state <;> rfl

theorem lifecycle_mergeTimers {previous : Option TaskCard} {card : TaskCard} {nowMs : Nat}
    (hplain : card.timingAuthoritative = false)
    (hfirst : previous = none → card.lifecycle = Lifecycle.merge none (card.state, nowMs)) :
    (mergeTimers previous card nowMs).lifecycle =
      Lifecycle.merge (previous.map TaskCard.lifecycle) (card.state, nowMs) := by
  cases previous with
  | none => exact hfirst rfl
  | some previous =>
      have hstart : mergedStart previous card nowMs =
          (Lifecycle.merge (some previous.lifecycle) (card.state, nowMs)).startedAtMs := by
        unfold mergedStart runInFlight Lifecycle.merge TaskCard.lifecycle
        cases card.state with
        | running | thinking =>
            cases previous.startedAtMs with
            | none => simp
            | some started =>
                by_cases hqueued : previous.state = .queued
                · simp [hqueued]
                · by_cases hcompleted : previous.state = .completed
                  · simp [hcompleted]
                  · simp [hqueued, hcompleted]
        | queued | error | completed | waiting | paused | reconnecting => rfl
      have hfinish : mergedFinish previous card nowMs =
          (Lifecycle.merge (some previous.lifecycle) (card.state, nowMs)).finishedAtMs := by
        unfold mergedFinish Lifecycle.merge TaskCard.lifecycle
        by_cases hbefore : previous.state = .completed
        · simp [hbefore, Option.filter]
        · simp [hbefore, Option.filter]
      have hmerged : mergeTimers (some previous) card nowMs = { card with
          startedAtMs := mergedStart previous card nowMs
          finishedAtMs := mergedFinish previous card nowMs } := by
        simp [mergeTimers, hplain]
      rw [hmerged, hstart, hfinish]
      rfl

namespace TaskBoard

variable {order : WalkOrder} {board : TaskBoard}

/-- The publications of a task among the cards of a merge, the latest first. -/
def publicationsOf (id : String) (cards : List TaskCard) (nowMs : Nat) : List Publication :=
  ((cards.filter (·.taskId == id)).map fun card => (card.state, nowMs)).reverse

theorem publicationsOf_cons (id : String) (card : TaskCard) (cards : List TaskCard)
    (nowMs : Nat) :
    publicationsOf id (card :: cards) nowMs =
      publicationsOf id cards nowMs ++ if card.taskId = id then [(card.state, nowMs)] else [] := by
  unfold publicationsOf
  by_cases hid : card.taskId = id
  · simp [hid]
  · simp [hid]

/-- A merge continues the history of each task by its publications. -/
theorem foldl_mergeTask_lifecycle {id : String} {nowMs : Nat} {cards : List TaskCard}
    {past : List Publication} (hreviewed : board.reviewedCompletions[id]? = none)
    (hplain : ∀ card ∈ cards, card.taskId = id → card.timingAuthoritative = false)
    (hfirst : board.tasks[id]? = none → ∀ card ∈ cards, card.taskId = id →
      card.lifecycle = Lifecycle.merge none (card.state, nowMs))
    (hpast : (board.tasks[id]?).map TaskCard.lifecycle = mergedLifecycle past) :
    let after := cards.foldl (mergeTask nowMs) board
    (after.tasks[id]?).map TaskCard.lifecycle =
        mergedLifecycle (publicationsOf id cards nowMs ++ past) ∧
      after.reviewedCompletions[id]? = none := by
  induction cards generalizing board past with
  | nil => exact ⟨hpast, hreviewed⟩
  | cons card cards ih =>
      -- merging acknowledges nothing
      have hreviewed' : (mergeTask nowMs board card).reviewedCompletions[id]? = none := by
        show (if card.state = .completed then board.reviewedCompletions
          else board.reviewedCompletions.erase card.taskId)[id]? = none
        split
        · exact hreviewed
        · rw [getElem?_erase_eq_ite]
          split
          · rfl
          · exact hreviewed
      have hrest : ∀ later ∈ cards, later.taskId = id → later.timingAuthoritative = false :=
        fun later hlater => hplain later (List.mem_cons_of_mem _ hlater)
      rw [List.foldl_cons, publicationsOf_cons, List.append_assoc]
      by_cases hid : card.taskId = id
      · have hget : (mergeTask nowMs board card).tasks[id]? =
            some (mergeTimers board.tasks[id]? card nowMs) := by
          rw [mergeTask_getElem?, if_pos hid, mergedCard, hid,
            contains_eq_false_iff.mpr hreviewed]
          simp [reviewCard]
        have hmerged : ((mergeTask nowMs board card).tasks[id]?).map TaskCard.lifecycle =
            mergedLifecycle ((card.state, nowMs) :: past) := by
          rw [hget, mergedLifecycle, ← hpast, Option.map_some,
            lifecycle_mergeTimers (hplain card List.mem_cons_self hid) fun hnone =>
              hfirst hnone card List.mem_cons_self hid]
        rw [if_pos hid]
        -- the card is there now, so no later one is a first publication
        refine ih hreviewed' hrest (fun hnone => ?_) hmerged
        rw [hget] at hnone
        cases hnone
      · have hget : (mergeTask nowMs board card).tasks[id]? = board.tasks[id]? := by
          rw [mergeTask_getElem?, if_neg hid]
        rw [if_neg hid, List.nil_append]
        refine ih hreviewed' hrest (fun hnone later hlater => ?_) (by rw [hget]; exact hpast)
        rw [hget] at hnone
        exact hfirst hnone later (List.mem_cons_of_mem _ hlater)

/-! ## Publications of a run -/

/-- The cards an accepted publication merges, and its time. -/
def mergedCards (board : TaskBoard) : Op → Option (List TaskCard × Nat)
  | .publishTasks session agent value nowMs =>
      (board.publishedCards session agent value nowMs).toOption.map fun cards => (cards, nowMs)
  | .publishCodexSnapshot value nowMs =>
      (board.publishedCards 0 .codex value nowMs).toOption.map fun cards => (cards, nowMs)
  | .publishLegacyStatus session agent value nowMs =>
      (legacyCards session agent value nowMs).toOption.map fun cards => (cards, nowMs)
  | .publishCodexHidStatus value nowMs =>
      let guarded := board.dropExpiredGuards nowMs
      value.asArray.bind fun entries =>
        (guarded.hidUpdates entries nowMs).toOption.map fun updates =>
          (updates.map (HidUpdate.settled
            (!guarded.selectionActivationGuards.isEmpty || selectionHandoff updates)), nowMs)
  | _ => none

/-- What is merged keeps the cards and acknowledgements of the tasks it names. -/
theorem handover_of_mergedCards {op : Op} {cards : List TaskCard} {nowMs : Nat}
    (h : board.mergedCards op = some (cards, nowMs)) :
    ∃ base : TaskBoard, handover order board op = some (base.mergedBoard cards nowMs) ∧
      ∀ id ∈ cards.map TaskCard.taskId, base.tasks[id]? = board.tasks[id]? ∧
        base.reviewedCompletions[id]? = board.reviewedCompletions[id]? := by
  have hremoved : ∀ session, ∀ id ∈ cards.map TaskCard.taskId,
      let base := (board.taskIdsWhere order fun id task => task.ownerSession == session &&
        !(cards.map TaskCard.taskId).contains id).foldl removeTask board
      base.tasks[id]? = board.tasks[id]? ∧
        base.reviewedCompletions[id]? = board.reviewedCompletions[id]? := by
    intro session id hid
    have hkept : id ∉ board.taskIdsWhere order fun id task => task.ownerSession == session &&
        !(cards.map TaskCard.taskId).contains id := fun hmem => (mem_dropped.mp hmem).2 hid
    rw [foldl_removeTask]
    exact ⟨by rw [getElem?_foldl_erase, if_neg hkept], by rw [getElem?_foldl_erase, if_neg hkept]⟩
  cases op with
  | publishTasks session agent value nowMs' =>
      obtain ⟨_, hcards, heq⟩ := Option.map_eq_some_iff.mp h
      obtain ⟨rfl, rfl⟩ := Prod.mk.inj heq
      exact ⟨_, by rw [handover, hcards]; rfl, hremoved session⟩
  | publishCodexSnapshot value nowMs' =>
      obtain ⟨_, hcards, heq⟩ := Option.map_eq_some_iff.mp h
      obtain ⟨rfl, rfl⟩ := Prod.mk.inj heq
      exact ⟨_, by rw [handover, hcards]; rfl, hremoved 0⟩
  | publishLegacyStatus session agent value nowMs' =>
      obtain ⟨_, hcards, heq⟩ := Option.map_eq_some_iff.mp h
      obtain ⟨rfl, rfl⟩ := Prod.mk.inj heq
      exact ⟨_, by rw [handover, hcards]; rfl, hremoved session⟩
  | publishCodexHidStatus value nowMs' =>
      obtain ⟨entries, hentries, h⟩ := Option.bind_eq_some_iff.mp h
      obtain ⟨updates, hupdates, heq⟩ := Option.map_eq_some_iff.mp h
      obtain ⟨rfl, rfl⟩ := Prod.mk.inj heq
      refine ⟨_, by rw [handover, hentries, Option.bind_some, hupdates]; rfl, fun id _ => ?_⟩
      split
      · obtain ⟨_, _, hframe⟩ :=
          refocused_followHandoff order (board.dropExpiredGuards nowMs') updates
        rw [hframe]
        exact ⟨rfl, rfl⟩
      · exact ⟨rfl, rfl⟩
  | setDevice | clearDevices | setSlotOwners | disconnectSession | clearSession | expire | select
  | selectTask | autoSelectWaiting | guardSelectionActivation | setSelectedModel
  | restoreSlotPreferences => cases h

/-- The cards of a publication have the timers of a first publication, where they
are the first. -/
theorem first_of_mergedCards {op : Op} {cards : List TaskCard} {nowMs : Nat}
    (h : board.mergedCards op = some (cards, nowMs)) :
    ∀ card ∈ cards, board.tasks[card.taskId]? = none → card.timingAuthoritative = false →
      card.lifecycle = Lifecycle.merge none (card.state, nowMs) := by
  intro card hcard hnone hplain
  cases op with
  | publishTasks session agent value nowMs' =>
      obtain ⟨_, hcards, heq⟩ := Option.map_eq_some_iff.mp h
      obtain ⟨rfl, rfl⟩ := Prod.mk.inj heq
      obtain ⟨⟨_, hparsed⟩, -⟩ := publishedCards_ok (toOption_eq_some_iff.mp hcards) card hcard
      exact hparsed.first hplain
  | publishCodexSnapshot value nowMs' =>
      obtain ⟨_, hcards, heq⟩ := Option.map_eq_some_iff.mp h
      obtain ⟨rfl, rfl⟩ := Prod.mk.inj heq
      obtain ⟨⟨_, hparsed⟩, -⟩ := publishedCards_ok (toOption_eq_some_iff.mp hcards) card hcard
      exact hparsed.first hplain
  | publishLegacyStatus session agent value nowMs' =>
      obtain ⟨_, hcards, heq⟩ := Option.map_eq_some_iff.mp h
      obtain ⟨rfl, rfl⟩ := Prod.mk.inj heq
      obtain ⟨_, _, _, -, -, -, hparsed⟩ :=
        legacyCards_ok (toOption_eq_some_iff.mp hcards) card hcard
      exact hparsed.first hplain
  | publishCodexHidStatus value nowMs' =>
      obtain ⟨entries, hentries, h⟩ := Option.bind_eq_some_iff.mp h
      obtain ⟨updates, hupdates, heq⟩ := Option.map_eq_some_iff.mp h
      obtain ⟨rfl, rfl⟩ := Prod.mk.inj heq
      obtain ⟨update, hupdate, rfl⟩ := List.mem_map.mp hcard
      obtain ⟨_, _, -, -, hread⟩ := hidUpdates_ok (toOption_eq_some_iff.mp hupdates) update hupdate
      rw [(settled_owned _ update).1] at hnone
      have hprevious : update.previous = none := hread.previous.trans hnone
      simp only [HidUpdate.settled, hprevious] at hplain ⊢
      exact hread.parsed.first hplain
  | setDevice | clearDevices | setSlotOwners | disconnectSession | clearSession | expire | select
  | selectTask | autoSelectWaiting | guardSelectionActivation | setSelectedModel
  | restoreSlotPreferences => cases h

/-- The publications of a task in one operation, the latest first. -/
def publicationsIn (id : String) (board : TaskBoard) (op : Op) : List Publication :=
  match board.mergedCards op with
  | none => []
  | some (cards, nowMs) => publicationsOf id cards nowMs

/-! ## Acknowledgements -/

/-- Only cards on the board are acknowledged. -/
def AcknowledgesCards (board : TaskBoard) : Prop :=
  ∀ id : String, board.tasks[id]? = none → board.reviewedCompletions[id]? = none

theorem AcknowledgesCards.mergeTask (hack : board.AcknowledgesCards) (nowMs : Nat)
    (card : TaskCard) : (mergeTask nowMs board card).AcknowledgesCards := by
  intro id hnone
  rw [mergeTask_getElem?] at hnone
  split at hnone
  · cases hnone
  · rename_i hid
    show (if card.state = .completed then board.reviewedCompletions
      else board.reviewedCompletions.erase card.taskId)[id]? = none
    split
    · exact hack id hnone
    · rw [getElem?_erase_eq_ite, if_neg hid]
      exact hack id hnone

theorem AcknowledgesCards.mergedBoard (hack : board.AcknowledgesCards) (cards : List TaskCard)
    (nowMs : Nat) : (board.mergedBoard cards nowMs).AcknowledgesCards := by
  have hfold : ∀ (cards : List TaskCard) (base : TaskBoard), base.AcknowledgesCards →
      (cards.foldl (TaskBoard.mergeTask nowMs) base).AcknowledgesCards := by
    intro cards
    induction cards with
    | nil => exact fun _ hbase => hbase
    | cons card cards ih => exact fun base hbase => ih _ (hbase.mergeTask nowMs card)
  exact hfold cards _ hack

theorem AcknowledgesCards.removeTasks (hack : board.AcknowledgesCards) (ids : List String) :
    (ids.foldl removeTask board).AcknowledgesCards := by
  intro id hnone
  rw [foldl_removeTask] at hnone ⊢
  simp only [getElem?_foldl_erase] at hnone ⊢
  split
  · rfl
  · rename_i hid
    rw [if_neg hid] at hnone
    exact hack id hnone

theorem AcknowledgesCards.removedBoard (hack : board.AcknowledgesCards) {ids : List String}
    {m : TaskBoard} (h : board.removedBoard ids = some m) : m.AcknowledgesCards := by
  unfold TaskBoard.removedBoard at h
  split at h
  · cases h
  · obtain rfl := Option.some.inj h
    exact hack.removeTasks ids

theorem AcknowledgesCards.handover (hack : board.AcknowledgesCards) {op : Op} {m : TaskBoard}
    (h : handover order board op = some m) : m.AcknowledgesCards := by
  cases op with
  | setDevice deviceId taskSlots connected =>
      obtain rfl := Option.some.inj h
      cases connected with
      | true => exact hack
      | false => exact hack
  | setSlotOwners deviceId owners =>
      rw [TaskBoard.handover] at h
      split at h
      · obtain rfl := Option.some.inj h
        exact hack
      · cases h
  | publishTasks session agent value nowMs =>
      obtain ⟨cards, -, rfl⟩ := Option.map_eq_some_iff.mp h
      exact (hack.removeTasks _).mergedBoard cards nowMs
  | publishCodexSnapshot value nowMs =>
      obtain ⟨cards, -, rfl⟩ := Option.map_eq_some_iff.mp h
      exact (hack.removeTasks _).mergedBoard cards nowMs
  | publishLegacyStatus session agent value nowMs =>
      obtain ⟨cards, -, rfl⟩ := Option.map_eq_some_iff.mp h
      exact (hack.removeTasks _).mergedBoard cards nowMs
  | publishCodexHidStatus value nowMs =>
      obtain ⟨entries, -, h⟩ := Option.bind_eq_some_iff.mp h
      obtain ⟨updates, -, rfl⟩ := Option.map_eq_some_iff.mp h
      refine AcknowledgesCards.mergedBoard ?_ _ nowMs
      split
      · obtain ⟨_, _, hframe⟩ :=
          refocused_followHandoff order (board.dropExpiredGuards nowMs) updates
        rw [hframe]
        exact hack
      · exact hack
  | clearSession session => exact hack.removedBoard h
  | expire nowMs =>
      have hack' : ({ board with nowMs := nowMs } : TaskBoard).AcknowledgesCards := hack
      exact hack'.removedBoard h
  | clearDevices | disconnectSession | select | selectTask | autoSelectWaiting
  | guardSelectionActivation | setSelectedModel | restoreSlotPreferences => cases h

/-- The reallocation leaves the cards and acknowledgements it is handed. -/
theorem apply_cards {op : Op} {m : TaskBoard} (h : handover order board op = some m) :
    (board.apply order op).tasks = m.tasks ∧
      (board.apply order op).reviewedCompletions = m.reviewedCompletions := by
  obtain ⟨_, _, hfocus⟩ := apply_of_handover h
  obtain ⟨_, _, _, _, _, hframe⟩ := reallocate_frame order m
  rw [hfocus, hframe]
  exact ⟨rfl, rfl⟩

/-- Every operation keeps acknowledging cards only. -/
theorem AcknowledgesCards.apply (hack : board.AcknowledgesCards) (order : WalkOrder) (op : Op) :
    (board.apply order op).AcknowledgesCards := by
  rcases apply_cases order board op with ⟨m, hm, -, -⟩ | hquiet | ⟨-, hclear⟩
  · obtain ⟨htasks, hreviewed⟩ := apply_cards hm
    unfold AcknowledgesCards
    rw [htasks, hreviewed]
    exact hack.handover hm
  · intro id hnone
    have hbefore := hquiet.none_iff.mp hnone
    rw [hquiet.acknowledged id hbefore]
    exact hack id hbefore
  · rw [hclear]
    exact hack

theorem acknowledgesCards_run (steps : List (WalkOrder × Op)) :
    (run steps default).AcknowledgesCards := by
  have hrun : ∀ (steps : List (WalkOrder × Op)) (board : TaskBoard), board.AcknowledgesCards →
      (run steps board).AcknowledgesCards := by
    intro steps
    induction steps with
    | nil => exact fun _ hack => hack
    | cons step steps ih => exact fun board hack => ih _ (hack.apply step.1 step.2)
  refine hrun steps default fun id _ => ?_
  simp [default]

/-! ## The timer law -/

/-- The history of a task over a run, the latest publication first. -/
def history (id : String) :
    List (WalkOrder × Op) → TaskBoard → List Publication → List Publication
  | [], _, past => past
  | step :: steps, board, past =>
      history id steps (board.apply step.1 step.2) (board.publicationsIn id step.2 ++ past)

/-- A step publishes the task without timestamps of its own, or leaves its
lifecycle and acknowledgement alone. -/
structure PlainStep (id : String) (board : TaskBoard) (step : WalkOrder × Op) : Prop where
  plain : ∀ {cards : List TaskCard} {nowMs : Nat}, board.mergedCards step.2 = some (cards, nowMs) →
    ∀ card ∈ cards, card.taskId = id → card.timingAuthoritative = false
  untouched : board.publicationsIn id step.2 = [] →
    ((board.apply step.1 step.2).tasks[id]?).map TaskCard.lifecycle =
        (board.tasks[id]?).map TaskCard.lifecycle ∧
      (board.apply step.1 step.2).reviewedCompletions[id]? = board.reviewedCompletions[id]?

/-- Nothing but publications without timestamps touches the task. -/
def PlainRun (id : String) : List (WalkOrder × Op) → TaskBoard → Prop
  | [], _ => True
  | step :: steps, board =>
      board.PlainStep id step ∧ PlainRun id steps (board.apply step.1 step.2)

/-- The card shows what the timer law asks for after the history. -/
def TimerLaw (id : String) (history : List Publication) (board : TaskBoard) : Prop :=
  (board.tasks[id]?).map TaskCard.lifecycle = lawfulLifecycle history

/-- The recurrence holds of the task, which is not acknowledged. -/
structure Timed (id : String) (history : List Publication) (board : TaskBoard) : Prop where
  lifecycle : (board.tasks[id]?).map TaskCard.lifecycle = mergedLifecycle history
  reviewed : board.reviewedCompletions[id]? = none

/-- One step of the run continues the recurrence. -/
theorem Timed.apply {id : String} {past : List Publication} (htimed : Timed id past board)
    {step : WalkOrder × Op} (hplain : board.PlainStep id step) :
    Timed id (board.publicationsIn id step.2 ++ past) (board.apply step.1 step.2) := by
  cases hpublished : board.publicationsIn id step.2 with
  | nil =>
      obtain ⟨hcard, hreviewed⟩ := hplain.untouched hpublished
      exact ⟨hcard.trans htimed.lifecycle, hreviewed.trans htimed.reviewed⟩
  | cons latest published =>
      rw [← hpublished]
      cases hmerged : board.mergedCards step.2 with
      | none =>
          rw [publicationsIn, hmerged] at hpublished
          cases hpublished
      | some merged =>
          obtain ⟨cards, nowMs⟩ := merged
          have hcards : board.publicationsIn id step.2 = publicationsOf id cards nowMs := by
            rw [publicationsIn, hmerged]
          rw [hcards] at hpublished ⊢
          have hid : id ∈ cards.map TaskCard.taskId := by
            have hmem : latest ∈ publicationsOf id cards nowMs := by
              rw [hpublished]
              exact List.mem_cons_self
            unfold publicationsOf at hmem
            obtain ⟨card, hcard, -⟩ := List.mem_map.mp (List.mem_reverse.mp hmem)
            obtain ⟨hcard, htask⟩ := List.mem_filter.mp hcard
            exact List.mem_map.mpr ⟨card, hcard, beq_iff_eq.mp htask⟩
          obtain ⟨base, hhandover, hbase⟩ := handover_of_mergedCards hmerged
          obtain ⟨htasks, hreviewed⟩ := hbase id hid
          obtain ⟨htasks', hreviewed'⟩ := apply_cards hhandover
          have hmerge : ((base.mergedBoard cards nowMs).tasks[id]?).map TaskCard.lifecycle =
                mergedLifecycle (publicationsOf id cards nowMs ++ past) ∧
              (base.mergedBoard cards nowMs).reviewedCompletions[id]? = none := by
            refine foldl_mergeTask_lifecycle (hreviewed.trans htimed.reviewed)
              (hplain.plain hmerged) (fun hfresh card hcard htask => ?_)
              ((congrArg _ htasks).trans htimed.lifecycle)
            refine first_of_mergedCards hmerged card hcard ?_
              (hplain.plain hmerged card hcard htask)
            rw [htask, ← htasks]
            exact hfresh
          refine ⟨?_, ?_⟩
          · rw [htasks']
            exact hmerge.1
          · rw [hreviewed']
            exact hmerge.2

theorem Timed.run {id : String} {past : List Publication} (htimed : Timed id past board)
    {steps : List (WalkOrder × Op)} (hplain : PlainRun id steps board) :
    Timed id (history id steps board past) (run steps board) := by
  induction steps generalizing board past with
  | nil => exact htimed
  | cons step steps ih =>
      exact ih (htimed.apply hplain.1) hplain.2

/-- After any publications of a task, as long as none stalls, the card shows what
the timer law asks for; and from a history without a stall, the latest
publication breaks the law exactly when it stalls. -/
theorem timer_law (id : String) (before steps : List (WalkOrder × Op))
    (habsent : (run before default).tasks[id]? = none)
    (hplain : PlainRun id steps (run before default)) :
    let history := history id steps (run before default) []
    let board := run steps (run before default)
    (StallFree history → TimerLaw id history board) ∧
      ∀ latest past, history = latest :: past → StallFree past →
        (TimerLaw id history board ↔ stalls latest past = false) := by
  have hstart : Timed id [] (run before default) := by
    refine ⟨?_, acknowledgesCards_run before id habsent⟩
    rw [habsent]
    rfl
  have htimed := hstart.run hplain
  intro history board
  constructor
  · intro hfree
    exact htimed.lifecycle.trans (mergedLifecycle_of_stallFree hfree)
  · intro latest past hhistory hfree
    unfold TimerLaw
    rw [htimed.lifecycle]
    show mergedLifecycle history = lawfulLifecycle history ↔ _
    rw [hhistory, mergedLifecycle_cons_iff (mergedLifecycle_of_stallFree hfree)]

/-- A publication of the task without timestamps, as a test. -/
def publishesPlainly (id : String) (board : TaskBoard) (op : Op) : Bool :=
  !(board.publicationsIn id op).isEmpty && (board.mergedCards op).all fun merged =>
    merged.1.all fun card => card.taskId != id || !card.timingAuthoritative

theorem plainStep_of_publishesPlainly {id : String} {step : WalkOrder × Op}
    (h : publishesPlainly id board step.2 = true) : board.PlainStep id step := by
  obtain ⟨hpublished, hcards⟩ := Bool.and_eq_true_iff.mp h
  constructor
  · intro cards nowMs hmerged card hcard hid
    rw [hmerged, Option.all_some] at hcards
    have hcard := List.all_eq_true.mp hcards card hcard
    simpa [hid] using hcard
  · intro hnone
    rw [hnone] at hpublished
    cases hpublished

/-- A session publishes one task, in a state at a time. -/
def loopRun (states : List (String × Nat)) : List (WalkOrder × Op) :=
  states.map fun entry => (.ascending, .publishTasks 1 .codex (.object [("tasks", .array
    [.object [("task_id", .string "loop"), ("state", .string entry.1)]])]) entry.2)

/-- A run that waits in between keeps its start, and completes. -/
theorem timer_law_loop :
    TimerLaw "loop" [(.completed, 40), (.running, 30), (.waiting, 20), (.running, 10)]
        (run (loopRun [("running", 10), ("waiting", 20), ("running", 30), ("completed", 40)])
          default) ∧
      lawfulLifecycle [(.completed, 40), (.running, 30), (.waiting, 20), (.running, 10)] =
        some ⟨.completed, some 10, some 40⟩ := by
  have hplain : PlainRun "loop"
      (loopRun [("running", 10), ("waiting", 20), ("running", 30), ("completed", 40)])
        default := by
    refine ⟨?_, ?_, ?_, ?_, trivial⟩ <;>
      exact plainStep_of_publishesPlainly (by decide +kernel)
  have hhistory : history "loop"
      (loopRun [("running", 10), ("waiting", 20), ("running", 30), ("completed", 40)]) default [] =
        [(.completed, 40), (.running, 30), (.waiting, 20), (.running, 10)] := by
    decide +kernel
  have hlaw := (timer_law "loop" [] _ (by decide +kernel) hplain).1
  refine ⟨hhistory ▸ hlaw ?_, by decide⟩
  show StallFree (history "loop" _ default [])
  rw [hhistory]
  exact ⟨rfl, rfl, rfl, rfl, trivial⟩

/-- A card that waits after a completion takes the start of the finished run into
the next one. -/
theorem timer_leaks :
    let steps := loopRun [("running", 10), ("completed", 20), ("waiting", 30), ("running", 40)]
    history "loop" steps default [] =
        [(.running, 40), (.waiting, 30), (.completed, 20), (.running, 10)] ∧
      PlainRun "loop" steps default ∧
      ((run steps default).tasks["loop"]?).map TaskCard.lifecycle =
        some ⟨.running, some 10, none⟩ ∧
      ¬TimerLaw "loop" (history "loop" steps default []) (run steps default) := by
  refine ⟨by decide +kernel, ⟨?_, ?_, ?_, ?_, trivial⟩, by decide +kernel, ?_⟩
  · exact plainStep_of_publishesPlainly (by decide +kernel)
  · exact plainStep_of_publishesPlainly (by decide +kernel)
  · exact plainStep_of_publishesPlainly (by decide +kernel)
  · exact plainStep_of_publishesPlainly (by decide +kernel)
  · unfold TimerLaw
    decide +kernel

end TaskBoard
end Tasks
end MicroEmu
