import MicroEmu.Library.Runs
import MicroEmu.Tasks.CardSteps

/-!
# How long an acknowledgement lasts

Selecting a completed task acknowledges the completion: the card is shown idle,
and as long as the source keeps reporting the same completion the card stays
idle.  A report in any other state begins a new run of the task and forgets the
acknowledgement.
-/

namespace MicroEmu
namespace Tasks

open Std (ExtTreeMap LawfulEqCmp)
open Json (Value)
open Routing (AgentId)
open Library

/-! ## What a publication reports -/

namespace TaskBoard

variable {order : WalkOrder} {board : TaskBoard}

/-- The cards an accepted publication reads, before a HID frame settles its
echoes. -/
def readCards (board : TaskBoard) : Op → Option (List TaskCard)
  | .publishCodexHidStatus value nowMs =>
      value.asArray.bind fun entries =>
        ((board.dropExpiredGuards nowMs).hidUpdates entries nowMs).toOption.map fun updates =>
          updates.map HidUpdate.card
  | op => (board.mergedCards op).map Prod.fst

/-- An accepted publication reports the task in the given state. -/
def Reports (board : TaskBoard) (op : Op) (id : String) (state : TaskState) : Prop :=
  ∃ cards, board.readCards op = some cards ∧
    ∃ card ∈ cards, card.taskId = id ∧ card.state = state

/-- Only a reported completion is merged as one. -/
theorem settled_state_completed {echoing : Bool} {update : HidUpdate}
    (hobserved : update.observed = update.card.state) :
    (update.settled echoing).state = .completed ↔ update.card.state = .completed := by
  unfold HidUpdate.settled
  cases update.previous with
  | none => exact Iff.rfl
  | some previous =>
      simp only
      split
      · rename_i hecho
        have htransition := (Bool.and_eq_true_iff.mp hecho).2
        rw [hobserved] at htransition
        show previous.state = .completed ↔ update.card.state = .completed
        constructor
        · intro hprevious
          rw [hprevious] at htransition
          cases hstate : update.card.state <;> rw [hstate] at htransition <;> cases htransition
        · intro hcompleted
          rw [hcompleted] at htransition
          cases hstate : previous.state <;> rw [hstate] at htransition <;> cases htransition
      · exact Iff.rfl

/-- A merged card that is not completed was not reported completed. -/
theorem reports_of_mergedCards {op : Op} {cards : List TaskCard} {nowMs : Nat}
    (hmerged : board.mergedCards op = some (cards, nowMs)) {card : TaskCard}
    (hcard : card ∈ cards) (hstate : card.state ≠ .completed) :
    ∃ state, state ≠ .completed ∧ board.Reports op card.taskId state := by
  by_cases hhid : ∃ value time, op = .publishCodexHidStatus value time
  · obtain ⟨value, time, rfl⟩ := hhid
    obtain ⟨entries, hentries, h⟩ := Option.bind_eq_some_iff.mp hmerged
    obtain ⟨updates, hupdates, heq⟩ := Option.map_eq_some_iff.mp h
    obtain ⟨rfl, rfl⟩ := Prod.mk.inj heq
    obtain ⟨update, hupdate, rfl⟩ := List.mem_map.mp hcard
    obtain ⟨_, _, -, -, hread⟩ := hidUpdates_ok (toOption_eq_some_iff.mp hupdates) update hupdate
    refine ⟨update.card.state,
      fun hcompleted => hstate ((settled_state_completed hread.observed).mpr hcompleted),
      updates.map HidUpdate.card, ?_, update.card, List.mem_map.mpr ⟨update, hupdate, rfl⟩,
      (settled_owned _ update).1.symm, rfl⟩
    rw [readCards, hentries, Option.bind_some, hupdates]
    rfl
  · refine ⟨card.state, hstate, cards, ?_, card, hcard, rfl, rfl⟩
    have hread : board.readCards op = (board.mergedCards op).map Prod.fst := by
      cases op with
      | publishCodexHidStatus value time => exact absurd ⟨value, time, rfl⟩ hhid
      | _ => rfl
    rw [hread, hmerged]
    rfl

/-! ## Acknowledged entries -/

/-- The completion of the task has been acknowledged. -/
def Acknowledged (board : TaskBoard) (id : String) : Prop := (board.entry id).reviewed = true

/-- The board shows the task in the given state. -/
def Shows (board : TaskBoard) (id : String) (state : TaskState) : Prop :=
  ∃ task, board.tasks[id]? = some task ∧ task.state = state

end TaskBoard

/-- An acknowledged entry has a card, which is not completed. -/
def Entry.Settled (entry : Entry) : Prop :=
  entry.reviewed = true → ∃ task, entry.card = some task ∧ task.state ≠ .completed

@[simp] theorem mergeTimers_state (previous : Option TaskCard) (card : TaskCard) (nowMs : Nat) :
    (mergeTimers previous card nowMs).state = card.state := by
  unfold mergeTimers
  split
  · rfl
  · split
    · rfl
    · rfl

theorem Entry.settled_merge (entry : Entry) (nowMs : Nat) (card : TaskCard) :
    (entry.merge nowMs card).Settled := by
  intro hreviewed
  obtain ⟨hcompleted, hbefore⟩ := Bool.and_eq_true_iff.mp hreviewed
  refine ⟨_, rfl, ?_⟩
  -- an acknowledged completion is merged as an idle card
  rw [mergeTimers_state, reviewCard, if_pos ⟨beq_iff_eq.mp hcompleted, hbefore⟩]
  exact TaskState.noConfusion

theorem Entry.Settled.foldl_merge {entry : Entry} (hsettled : entry.Settled) (nowMs : Nat)
    (cards : List TaskCard) : (cards.foldl (Entry.merge nowMs) entry).Settled := by
  induction cards generalizing entry with
  | nil => exact hsettled
  | cons card cards ih => exact ih (entry.settled_merge nowMs card)

/-- An acknowledgement survives a merge of completions only. -/
theorem Entry.reviewed_foldl_merge (nowMs : Nat) (cards : List TaskCard) (entry : Entry) :
    (cards.foldl (Entry.merge nowMs) entry).reviewed =
      (cards.all (·.state == .completed) && entry.reviewed) := by
  induction cards generalizing entry with
  | nil => rfl
  | cons card cards ih =>
      rw [List.foldl_cons, ih, List.all_cons, Entry.merge, ← Bool.and_assoc,
        Bool.and_comm (cards.all _)]

namespace TaskBoard

variable {order : WalkOrder} {board : TaskBoard}

/-- A step keeps acknowledged entries settled. -/
theorem CardStep.settled {id : String} {op : Op} {after : Entry}
    (h : board.CardStep id op after) (hsettled : (board.entry id).Settled) : after.Settled := by
  cases h with
  | kept => exact hsettled
  | published => exact hsettled.foldl_merge _ _
  | removed => exact fun hreviewed => absurd hreviewed Bool.false_ne_true
  | leased => exact fun _ => ⟨_, rfl, TaskState.noConfusion⟩
  | acknowledged => exact fun _ => ⟨_, rfl, TaskState.noConfusion⟩
  | @remodelled model task hcard =>
      intro hreviewed
      obtain ⟨task', hcard', hstate⟩ := hsettled hreviewed
      have hcard'' : board.tasks[id]? = some task' := hcard'
      rw [hcard] at hcard''
      obtain rfl := Option.some.inj hcard''
      exact ⟨_, rfl, hstate⟩

/-- A step that leaves the task on the board and reports no other state keeps its
acknowledgement. -/
theorem CardStep.acknowledged_of_attested {id : String} {op : Op} {after : Entry}
    (h : board.CardStep id op after) (hreviewed : board.Acknowledged id)
    (hstays : after.card.isSome = true)
    (hattested : ∀ state, board.Reports op id state → state = .completed) :
    after.reviewed = true := by
  cases h with
  | kept => exact hreviewed
  | published hmerged _ =>
      rw [Entry.reviewed_foldl_merge]
      refine Bool.and_eq_true_iff.mpr ⟨List.all_eq_true.mpr fun card hcard => ?_, hreviewed⟩
      rw [beq_iff_eq]
      obtain ⟨hcard, hid⟩ := List.mem_filter.mp hcard
      by_contra hstate
      obtain ⟨state, hother, hreports⟩ := reports_of_mergedCards hmerged hcard hstate
      rw [beq_iff_eq.mp hid] at hreports
      exact hother (hattested state hreports)
  | removed => cases hstays
  | leased => exact hreviewed
  | acknowledged => rfl
  | remodelled => exact hreviewed

/-! ## Runs -/

/-- A property holds at every step of a run of the board. -/
abbrev AlongRun (holds : TaskBoard → WalkOrder × Op → Prop) (steps : List (WalkOrder × Op))
    (board : TaskBoard) : Prop :=
  Along (fun board step => board.apply step.1 step.2) holds steps board

/-- The step leaves the task on the board. -/
def StaysBy (id : String) (board : TaskBoard) (step : WalkOrder × Op) : Prop :=
  ((board.apply step.1 step.2).entry id).card.isSome = true

/-- Every report of the task in the step is a completion. -/
def AttestedBy (id : String) (board : TaskBoard) (step : WalkOrder × Op) : Prop :=
  ∀ state, board.Reports step.2 id state → state = .completed

theorem settled_run (steps : List (WalkOrder × Op)) (id : String) :
    ((run steps default).entry id).Settled := by
  have hrun : ∀ (steps : List (WalkOrder × Op)) (board : TaskBoard), (board.entry id).Settled →
      ((run steps board).entry id).Settled := by
    intro steps
    induction steps with
    | nil => exact fun _ hsettled => hsettled
    | cons step steps ih =>
        exact fun board hsettled => ih _ ((apply_cardStep step.1 board step.2 id).settled hsettled)
  refine hrun steps default fun hreviewed => ?_
  simp [entry, default] at hreviewed

/-- The run of attested reports keeps the acknowledgement. -/
theorem acknowledged_run {id : String} {steps : List (WalkOrder × Op)}
    (hstays : AlongRun (StaysBy id) steps board) (hattested : AlongRun (AttestedBy id) steps board)
    (hreviewed : board.Acknowledged id) : (run steps board).Acknowledged id := by
  refine (hstays.and hattested).invariant (fun board => board.Acknowledged id) ?_ hreviewed
  rintro board step hreviewed ⟨hstays, hattested⟩
  exact (apply_cardStep step.1 board step.2 id).acknowledged_of_attested hreviewed hstays
    hattested

/-- Selecting a visible completed task acknowledges it. -/
theorem acknowledged_selectTask {id : String} (nowMs : Nat)
    (hvisible : board.assignments.contains id = true) (hcompleted : board.Shows id .completed) :
    (board.selectTask id nowMs).2.Acknowledged id := by
  obtain ⟨task, htask, hstate⟩ := hcompleted
  obtain ⟨assignment, hassigned⟩ := contains_iff_exists.mp hvisible
  unfold selectTask Acknowledged entry
  simp [htask, hassigned, hstate]

/-- Every acknowledged id of a reachable board names a card, which is not completed.
Selecting a completed task by its id or on its slot acknowledges it.  From then on,
as long as the task stays on the board and every report of it is a completion, it
stays acknowledged and is not shown as completed; it is shown as completed only
after a publication has reported it in another state. -/
theorem acknowledgement_lifetime (before : List (WalkOrder × Op)) (id : String) :
    let board := run before default
    (board.Acknowledged id → ∃ state, state ≠ .completed ∧ board.Shows id state) ∧
      (board.Shows id .completed → board.assignments.contains id = true →
        ∀ order nowMs, (board.apply order (.selectTask id nowMs)).Acknowledged id ∧
          ∀ deviceId slot, board.occupant order deviceId slot = some id →
            (board.apply order (.select deviceId slot nowMs)).Acknowledged id) ∧
      ∀ steps, board.Acknowledged id → AlongRun (StaysBy id) steps board →
        (AlongRun (AttestedBy id) steps board →
          (run steps board).Acknowledged id ∧ ¬(run steps board).Shows id .completed) ∧
        ((run steps board).Shows id .completed →
          ∃ earlier step later state, steps = earlier ++ step :: later ∧ state ≠ .completed ∧
            (run earlier board).Reports step.2 id state) := by
  intro board
  have hshown : ∀ steps, (run steps board).Acknowledged id →
      ∃ state, state ≠ .completed ∧ (run steps board).Shows id state := by
    intro steps hreviewed
    have hsettled := settled_run (before ++ steps) id
    rw [run, List.foldl_append] at hsettled
    obtain ⟨task, htask, hstate⟩ := hsettled hreviewed
    exact ⟨task.state, hstate, task, htask, rfl⟩
  refine ⟨hshown [], fun hcompleted hvisible order nowMs => ⟨?_, ?_⟩,
    fun steps hreviewed hstays => ?_⟩
  · exact acknowledged_selectTask nowMs hvisible hcompleted
  · intro deviceId slot hoccupant
    show (board.select order deviceId slot nowMs).2.Acknowledged id
    rw [select, hoccupant]
    exact acknowledged_selectTask nowMs hvisible hcompleted
  · have hlasts : AlongRun (AttestedBy id) steps board →
        (run steps board).Acknowledged id ∧ ¬(run steps board).Shows id .completed := by
      intro hattested
      have hafter := acknowledged_run hstays hattested hreviewed
      refine ⟨hafter, ?_⟩
      rintro ⟨task, htask, hcompleted⟩
      obtain ⟨state, hstate, task', htask', rfl⟩ := hshown steps hafter
      rw [htask] at htask'
      obtain rfl := Option.some.inj htask'
      exact hstate hcompleted
    refine ⟨hlasts, fun hcompleted => ?_⟩
    have hother : ¬AlongRun (AttestedBy id) steps board :=
      fun hattested => (hlasts hattested).2 hcompleted
    obtain ⟨earlier, step, later, hsteps, hother⟩ := exists_step_of_not_along hother
    unfold AttestedBy at hother
    push Not at hother
    obtain ⟨state, hreports, hstate⟩ := hother
    exact ⟨earlier, step, later, state, hsteps, hstate, hreports⟩

/-- Every report of the task in a publication is a completion, as a test. -/
def attests (id : String) (board : TaskBoard) (op : Op) : Bool :=
  (board.readCards op).all fun cards =>
    cards.all fun card => card.taskId != id || card.state == .completed

theorem attestedBy_of_attests {id : String} {step : WalkOrder × Op}
    (h : attests id board step.2 = true) : board.AttestedBy id step := by
  rintro state ⟨cards, hread, card, hcard, hid, rfl⟩
  rw [attests, hread, Option.all_some] at h
  have htest := List.all_eq_true.mp h card hcard
  simpa [hid] using htest

instance (board : TaskBoard) (id : String) : Decidable (board.Acknowledged id) :=
  inferInstanceAs (Decidable (_ = true))

/-- A device and one task, published as completed and selected. -/
def acknowledgedRun : List (WalkOrder × Op) :=
  (.ascending, .setDevice "primary" 6 true) :: loopRun [("completed", 10)] ++
    [(.ascending, .selectTask "loop" 20)]

/-- An acknowledged completion that is reported twice more stays acknowledged. -/
theorem acknowledgement_repeated :
    (run acknowledgedRun default).Acknowledged "loop" ∧
      ¬(run (loopRun [("completed", 30), ("done", 40)])
        (run acknowledgedRun default)).Shows "loop" .completed := by
  have hacknowledged : (run acknowledgedRun default).Acknowledged "loop" := by decide +kernel
  have hstays : AlongRun (StaysBy "loop") (loopRun [("completed", 30), ("done", 40)])
      (run acknowledgedRun default) := by
    refine ⟨?_, ?_, trivial⟩
    · unfold StaysBy
      decide +kernel
    · unfold StaysBy
      decide +kernel
  have hattested : AlongRun (AttestedBy "loop") (loopRun [("completed", 30), ("done", 40)])
      (run acknowledgedRun default) := by
    refine ⟨?_, ?_, trivial⟩
    · exact attestedBy_of_attests (by decide +kernel)
    · exact attestedBy_of_attests (by decide +kernel)
  exact ⟨hacknowledged,
    (((acknowledgement_lifetime acknowledgedRun "loop").2.2 _ hacknowledged hstays).1
      hattested).2⟩

end TaskBoard
end Tasks
end MicroEmu
