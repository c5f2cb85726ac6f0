import MicroEmu.Tasks.Leases
import MicroEmu.Tasks.Renaming

/-!
# Reclaiming cards after a reconnect

A session leaves, and a new session of its agent publishes the cards again while
their leases last.  This module compares the run with one in which the old session
stays and makes the publication itself.

The publication is read alike, and every card it lists ends in the same state.  The
timers are guessed from the card that is replaced, and in the first run that card
says Reconnecting: the two guesses are compared by `reclaimed_started_iff` and
`reclaimed_finished_iff`.  The cards it does not list stay on their slots in the first run,
for the rest of their leases, and are removed in the second.  So the layouts are the
same when the publication lists every card of the session, and a card that is shown
keeps its slot in both runs whatever is listed.
-/

namespace MicroEmu
namespace Tasks

open Std (ExtTreeMap LawfulEqCmp)
open Json (Value)
open Routing (AgentId)
open Library

/-! ## One publication, read for two sessions -/

/-- The card, owned by another session. -/
def TaskCard.ownedBy (session : Nat) (card : TaskCard) : TaskCard :=
  { card with ownerSession := session }

/-- The session a card is read for is all that depends on it. -/
theorem parseTask_ownedBy (session session' : Nat) (agent : AgentId) (item : Value)
    (nowMs : Nat) (legacy : Option (String × String)) :
    parseTask session' agent item nowMs legacy =
      (parseTask session agent item nowMs legacy).map (TaskCard.ownedBy session') := by
  unfold parseTask
  cases item.asObject with
  | none => rfl
  | some _ =>
      simp only [map_bind_except]
      rfl

/-- The new state says that the task runs, and the card it replaces was idle or
completed but carried another start. -/
def Restarts (old card : TaskCard) (nowMs : Nat) : Prop :=
  card.timingAuthoritative = false ∧ card.state.active = true ∧
    (old.state = .queued ∨ old.state = .completed) ∧
      ∃ started, old.startedAtMs = some started ∧ started ≠ nowMs

/-- A completion is reported once more, over a completed card with another finish. -/
def Recompletes (old card : TaskCard) (nowMs : Nat) : Prop :=
  card.timingAuthoritative = false ∧ card.state = .completed ∧ old.state = .completed ∧
    ∃ finished, old.finishedAtMs = some finished ∧ finished ≠ nowMs

namespace TaskBoard

/-! ## One card, merged into both boards -/

section

variable {old card : TaskCard} {session deadline nowMs : Nat} {reviewed : Bool}

theorem reviewCard_ownedBy (reviewed : Bool) (session : Nat) (card : TaskCard) :
    reviewCard reviewed (card.ownedBy session) = (reviewCard reviewed card).ownedBy session := by
  unfold reviewCard TaskCard.ownedBy
  split
  · rfl
  · rfl

/-- An acknowledged completion is merged without timers. -/
theorem mergeTimers_acknowledged (previous : Option TaskCard) (card : TaskCard) (nowMs : Nat) :
    (mergeTimers previous (acknowledgedCard card) nowMs).startedAtMs = none ∧
      (mergeTimers previous (acknowledgedCard card) nowMs).finishedAtMs = none := by
  unfold mergeTimers
  split
  · exact ⟨rfl, rfl⟩
  · split
    · exact ⟨rfl, rfl⟩
    · exact ⟨rfl, rfl⟩

/-- A card that is read for two sessions is merged alike, but for the session and the
timers. -/
theorem mergeTimers_alike (previous previous' : Option TaskCard) (card : TaskCard)
    (session nowMs : Nat) (reviewed : Bool) :
    let mine := mergeTimers previous (reviewCard reviewed card) nowMs
    mine = { mergeTimers previous' (reviewCard reviewed (card.ownedBy session)) nowMs with
      ownerSession := mine.ownerSession
      startedAtMs := mine.startedAtMs
      finishedAtMs := mine.finishedAtMs } := by
  have hsource : ∀ (previous : Option TaskCard) (merged : TaskCard),
      ∃ startedAtMs finishedAtMs, mergeTimers previous merged nowMs =
        { merged with startedAtMs, finishedAtMs } := by
    intro previous merged
    unfold mergeTimers
    split
    · exact ⟨_, _, rfl⟩
    · split
      · exact ⟨_, _, rfl⟩
      · exact ⟨_, _, rfl⟩
  intro mine
  simp only [mine, reviewCard_ownedBy]
  obtain ⟨_, _, hmine⟩ := hsource previous (reviewCard reviewed card)
  obtain ⟨_, _, htheirs⟩ := hsource previous' ((reviewCard reviewed card).ownedBy session)
  rw [hmine, htheirs]
  rfl

/-- A session that comes back starts the clock it left, unless the task it left was
not running. -/
theorem reclaimed_started_iff :
    (mergeTimers (some (leaseCard deadline old)) (reviewCard reviewed card) nowMs).startedAtMs =
        (mergeTimers (some old) (reviewCard reviewed (card.ownedBy session)) nowMs).startedAtMs ↔
      ¬Restarts old card nowMs := by
  by_cases hreviewed : card.state = .completed ∧ reviewed = true
  · have hidle : ¬Restarts old card nowMs := by
      rintro ⟨-, hactive, -⟩
      rw [hreviewed.1] at hactive
      cases hactive
    refine iff_of_true ?_ hidle
    rw [reviewCard_ownedBy, reviewCard, if_pos hreviewed, (mergeTimers_acknowledged ..).1]
    exact (mergeTimers_acknowledged _ (card.ownedBy session) nowMs).1.symm
  · rw [reviewCard_ownedBy, reviewCard, if_neg hreviewed]
    unfold Restarts mergeTimers mergedStart runInFlight
    cases hauthoritative : card.timingAuthoritative with
    | true => simp [TaskCard.ownedBy, hauthoritative]
    | false =>
        cases hstarted : old.startedAtMs with
        | none =>
            cases hstate : card.state <;>
              simp [TaskCard.ownedBy, leaseCard, hauthoritative, hstarted, hstate]
        | some started =>
            cases hstate : card.state <;> cases hold : old.state <;>
              simp [TaskCard.ownedBy, leaseCard, hauthoritative, hstarted, hstate, hold,
                TaskState.active]

/-- A session that comes back reports the finish it left, unless it reports the same
completion again. -/
theorem reclaimed_finished_iff (hsettled : reviewed = true → old.state ≠ .completed) :
    (mergeTimers (some (leaseCard deadline old)) (reviewCard reviewed card) nowMs).finishedAtMs =
        (mergeTimers (some old) (reviewCard reviewed (card.ownedBy session)) nowMs).finishedAtMs ↔
      ¬Recompletes old card nowMs := by
  by_cases hreviewed : card.state = .completed ∧ reviewed = true
  · have hopen : ¬Recompletes old card nowMs := by
      rintro ⟨-, -, hcompleted, -⟩
      exact hsettled hreviewed.2 hcompleted
    refine iff_of_true ?_ hopen
    rw [reviewCard_ownedBy, reviewCard, if_pos hreviewed, (mergeTimers_acknowledged ..).2]
    exact (mergeTimers_acknowledged _ (card.ownedBy session) nowMs).2.symm
  · rw [reviewCard_ownedBy, reviewCard, if_neg hreviewed]
    unfold Recompletes mergeTimers mergedFinish
    cases hauthoritative : card.timingAuthoritative with
    | true => simp [TaskCard.ownedBy, hauthoritative]
    | false =>
        by_cases hcompleted : card.state = .completed
        · by_cases hold : old.state = .completed
          · cases hfinished : old.finishedAtMs with
            | none =>
                simp [TaskCard.ownedBy, leaseCard, hauthoritative, hcompleted, hold, hfinished]
            | some finished =>
                simp [TaskCard.ownedBy, leaseCard, hauthoritative, hcompleted, hold, hfinished,
                  eq_comm]
          · simp [TaskCard.ownedBy, leaseCard, hauthoritative, hcompleted, hold]
        · simp [TaskCard.ownedBy, leaseCard, hauthoritative, hcompleted]

end

/-! ## While the session is away -/

variable {order : WalkOrder} {board left stayed : TaskBoard}

/-- The daemon removes what has lapsed, again and again. -/
def ticking (ticks : List (WalkOrder × Nat)) : List (WalkOrder × Op) :=
  ticks.map fun tick => (tick.1, .expire tick.2)

/-- The card that a disconnect leaves of a card. -/
def awayCard (session deadline : Nat) (task : TaskCard) : TaskCard :=
  if task.ownerSession = session then leaseCard deadline task else task

/-- The boards differ in the leases of one session. -/
def Away (session deadline : Nat) (left stayed : TaskBoard) : Prop :=
  ∀ id, left.entry id =
    ⟨(stayed.tasks[id]?).map (awayCard session deadline), (stayed.entry id).reviewed⟩

@[simp] theorem awayCard_ownerSession (session deadline : Nat) (task : TaskCard) :
    (awayCard session deadline task).ownerSession = task.ownerSession := by
  unfold awayCard
  split
  · rfl
  · rfl

@[simp] theorem awayCard_sourceSlot (session deadline : Nat) (task : TaskCard) :
    (awayCard session deadline task).sourceSlot = task.sourceSlot := by
  unfold awayCard
  split
  · rfl
  · rfl

theorem Away.card {session deadline : Nat} (haway : Away session deadline left stayed)
    {id : String} {task : TaskCard} (htask : left.tasks[id]? = some task) :
    ∃ task', stayed.tasks[id]? = some task' ∧ task = awayCard session deadline task' := by
  rw [show left.tasks[id]? = _ from congrArg Entry.card (haway id)] at htask
  obtain ⟨task', htask', rfl⟩ := Option.map_eq_some_iff.mp htask
  exact ⟨task', htask', rfl⟩

theorem away_disconnectSession (board : TaskBoard) (session nowMs : Nat) :
    Away session (wrappingAdd nowMs reconnectGrace) (board.disconnectSession session nowMs)
      board := by
  intro id
  unfold entry disconnectSession
  rw [ExtTreeMap.getElem?_map]
  rfl

/-- The lease of the card is over. -/
def lapsed (nowMs : Nat) (task : TaskCard) : Bool :=
  task.reconnectUntilMs.any fun untilMs => decide (untilMs ≤ nowMs)

/-- A tick removes the lapsed cards and no others. -/
theorem expire_entry (order : WalkOrder) (board : TaskBoard) (nowMs : Nat) (id : String) :
    (board.apply order (.expire nowMs)).entry id =
      if (board.tasks[id]?).any (lapsed nowMs) = true then ⟨none, false⟩ else board.entry id := by
  have hmem : id ∈ taskIdsWhere order { board with nowMs := nowMs } (fun _ => lapsed nowMs) ↔
      (board.tasks[id]?).any (lapsed nowMs) = true := by
    rw [mem_taskIdsWhere, Option.any_eq_true]
  have hbase : ({ board with nowMs := nowMs } : TaskBoard).entry id = board.entry id := rfl
  show (board.expire order nowMs).entry id = _
  unfold expire
  simp only
  split
  · rename_i hnone
    rw [hbase, if_neg fun hlapsed => ?_]
    rw [← hmem] at hlapsed
    exact absurd hlapsed (List.isEmpty_iff.mp hnone ▸ List.not_mem_nil)
  · have hreallocated : ∀ m : TaskBoard, (m.reallocate order).entry id = m.entry id := by
      intro m
      obtain ⟨_, _, _, _, _, hframe⟩ := reallocate_frame order m
      rw [hframe]
      rfl
    rw [hreallocated, removeTasks_entry, hbase]
    by_cases hlapsed : (board.tasks[id]?).any (lapsed nowMs) = true
    · rw [if_pos hlapsed]
      exact if_pos (hmem.mpr hlapsed)
    · rw [if_neg hlapsed]
      exact if_neg fun hremoved => hlapsed (hmem.mp hremoved)

/-- Ticks put nothing on the board. -/
theorem of_ticking {ticks : List (WalkOrder × Nat)} {id : String} {task : TaskCard}
    (h : (run (ticking ticks) board).tasks[id]? = some task) : board.tasks[id]? = some task := by
  induction ticks generalizing board with
  | nil => exact h
  | cons tick ticks ih =>
      have hentry := congrArg Entry.card (expire_entry tick.1 board tick.2 id)
      have htask : ((board.apply tick.1 (.expire tick.2)).entry id).card = some task := ih h
      rw [hentry] at htask
      split at htask
      · cases htask
      · exact htask

/-- Ticks keep the cards without a lease. -/
theorem ticking_entry {ticks : List (WalkOrder × Nat)} {id : String} {task : TaskCard}
    (htask : board.tasks[id]? = some task) (hunleased : task.reconnectUntilMs = none) :
    (run (ticking ticks) board).entry id = board.entry id := by
  induction ticks generalizing board with
  | nil => rfl
  | cons tick ticks ih =>
      have hentry : (board.apply tick.1 (.expire tick.2)).entry id = board.entry id := by
        rw [expire_entry, if_neg]
        simp [htask, lapsed, hunleased]
      have hkept : (board.apply tick.1 (.expire tick.2)).tasks[id]? = some task :=
        (congrArg Entry.card hentry).trans htask
      exact (ih hkept).trans hentry

/-- Ticks before the deadline treat both boards alike. -/
theorem Away.ticking {session deadline : Nat} (haway : Away session deadline left stayed)
    (hconnected : ∀ {id : String} {task : TaskCard}, stayed.tasks[id]? = some task →
      task.ownerSession = session → task.reconnectUntilMs = none)
    {ticks : List (WalkOrder × Nat)} (hticks : ∀ tick ∈ ticks, tick.2 < deadline) :
    Away session deadline (run (TaskBoard.ticking ticks) left)
      (run (TaskBoard.ticking ticks) stayed) := by
  induction ticks generalizing left stayed with
  | nil => exact haway
  | cons tick ticks ih =>
      have hlater : ∀ other ∈ ticks, other.2 < deadline :=
        fun other hother => hticks other (List.mem_cons_of_mem _ hother)
      have hsub : ∀ {id : String} {task : TaskCard},
          (stayed.apply tick.1 (.expire tick.2)).tasks[id]? = some task →
            stayed.tasks[id]? = some task :=
        fun {id task} h => @of_ticking stayed [tick] id task h
      refine ih (fun id => ?_) (fun htask => hconnected (hsub htask)) hlater
      have hlapsed : (left.tasks[id]?).any (lapsed tick.2) =
          (stayed.tasks[id]?).any (lapsed tick.2) := by
        rw [show left.tasks[id]? = _ from congrArg Entry.card (haway id)]
        cases htask : stayed.tasks[id]? with
        | none => rfl
        | some task =>
            by_cases howner : task.ownerSession = session
            · have hlasts : ¬deadline ≤ tick.2 := not_le.mpr (hticks tick List.mem_cons_self)
              simp [awayCard, howner, leaseCard, lapsed, hlasts, hconnected htask howner]
            · simp [awayCard, howner]
      have hleft := expire_entry tick.1 left tick.2 id
      have hstayed := expire_entry tick.1 stayed tick.2 id
      rw [hlapsed] at hleft
      rw [hleft, show (stayed.apply tick.1 (.expire tick.2)).tasks[id]? = _ from
        congrArg Entry.card hstayed, congrArg Entry.reviewed hstayed]
      split
      · rfl
      · exact haway id

/-! ## The two publications -/

/-- What the new session may publish, the old one may. -/
theorem Away.parseReplacement {session session' deadline nowMs : Nat} {agent : AgentId}
    (haway : Away session deadline left stayed)
    (hfresh : ∀ {id : String} {task : TaskCard}, stayed.tasks[id]? = some task →
      task.ownerSession ≠ session') {items : List Value} {seen : List String}
    {cards : List TaskCard}
    (h : left.parseReplacement session' agent nowMs items seen = .ok cards) :
    stayed.parseReplacement session agent nowMs items seen =
      .ok (cards.map (TaskCard.ownedBy session)) := by
  have howner : ∀ {id : String}, left.checkOwner session' agent id = .ok () →
      stayed.checkOwner session agent id = .ok () := by
    intro id hallowed
    rw [checkOwner_eq_ok_iff] at hallowed ⊢
    intro task htask
    by_cases hown : task.ownerSession = session
    · exact Or.inl hown
    · have hleft : left.tasks[id]? = some task := by
        rw [show left.tasks[id]? = _ from congrArg Entry.card (haway id), htask]
        simp [awayCard, hown]
      rcases hallowed task hleft with hforeign | hleased
      · exact absurd hforeign (hfresh htask)
      · exact Or.inr hleased
  induction items generalizing seen cards with
  | nil =>
      cases h
      rfl
  | cons item items ih =>
      obtain ⟨card, rest, rfl, hcard, hallowed, hseen, hrest⟩ := parseReplacement_cons h
      have hcard' : parseTask session agent item nowMs none = .ok (card.ownedBy session) := by
        rw [parseTask_ownedBy session' session, hcard]
        rfl
      unfold TaskBoard.parseReplacement
      refine bind_eq_ok.mpr ⟨_, hcard', bind_eq_ok.mpr ⟨(), howner hallowed, ?_⟩⟩
      refine (if_neg (show (card.ownedBy session).taskId ∉ seen from hseen)).trans ?_
      exact bind_eq_ok.mpr ⟨_, ih hrest, rfl⟩

theorem Away.publishedCards {session session' deadline nowMs : Nat} {agent : AgentId}
    {value : Value} (haway : Away session deadline left stayed)
    (hfresh : ∀ {id : String} {task : TaskCard}, stayed.tasks[id]? = some task →
      task.ownerSession ≠ session') {cards : List TaskCard}
    (h : left.publishedCards session' agent value nowMs = .ok cards) :
    stayed.publishedCards session agent value nowMs =
      .ok (cards.map (TaskCard.ownedBy session)) := by
  unfold TaskBoard.publishedCards at h ⊢
  split at h
  · cases h
  · exact haway.parseReplacement hfresh h

theorem publishedCards_nodup {session nowMs : Nat} {agent : AgentId} {value : Value}
    {cards : List TaskCard} (h : board.publishedCards session agent value nowMs = .ok cards) :
    (cards.map TaskCard.taskId).Nodup := by
  unfold TaskBoard.publishedCards at h
  split at h
  · cases h
  · exact (parseReplacement_nodup h).1

theorem map_ownedBy_taskId (cards : List TaskCard) (session : Nat) :
    (cards.map (TaskCard.ownedBy session)).map TaskCard.taskId = cards.map TaskCard.taskId := by
  rw [List.map_map]
  rfl

theorem filter_taskId_eq_singleton {cards : List TaskCard}
    (hnodup : (cards.map TaskCard.taskId).Nodup) {card : TaskCard} (hcard : card ∈ cards) :
    cards.filter (·.taskId == card.taskId) = [card] := by
  induction cards with
  | nil => cases hcard
  | cons first cards ih =>
      obtain ⟨hfirst, hrest⟩ := List.nodup_cons.mp hnodup
      rcases List.mem_cons.mp hcard with rfl | hcard
      · rw [List.filter_cons, if_pos (beq_self_eq_true _), filter_taskId_eq_nil hfirst]
      · have hne : first.taskId ≠ card.taskId := fun heq =>
          hfirst (heq ▸ List.mem_map.mpr ⟨card, hcard, rfl⟩)
        rw [List.filter_cons, if_neg (by simpa using hne), ih hrest hcard]

/-- A listed card is merged into its entry. -/
theorem replacedBoard_entry_of_mem {session nowMs : Nat} {cards : List TaskCard}
    (hnodup : (cards.map TaskCard.taskId).Nodup) {card : TaskCard} (hcard : card ∈ cards) :
    (replacedBoard order board session cards nowMs).entry card.taskId =
      (board.entry card.taskId).merge nowMs card := by
  rw [replacedBoard, mergedBoard_entry, removeTasks_entry, filter_taskId_eq_singleton hnodup hcard,
    if_neg fun hdropped => (mem_dropped.mp hdropped).2 (List.mem_map.mpr ⟨card, hcard, rfl⟩)]
  rfl

/-- A card that is not listed stays as it is, if it belongs to another session. -/
theorem replacedBoard_entry_of_not_mem {session nowMs : Nat} {cards : List TaskCard} {id : String}
    (hid : id ∉ cards.map TaskCard.taskId)
    (hforeign : ∀ {task : TaskCard}, board.tasks[id]? = some task →
      task.ownerSession ≠ session) :
    (replacedBoard order board session cards nowMs).entry id = board.entry id := by
  rw [replacedBoard, mergedBoard_entry, removeTasks_entry, filter_taskId_eq_nil hid, if_neg]
  · rfl
  · rintro hdropped
    obtain ⟨⟨task, htask, hsession⟩, -⟩ := mem_dropped.mp hdropped
    exact hforeign htask hsession

/-! ## The layout after a complete publication -/

/-- The publication lists every card of the session. -/
def ListsAll (board : TaskBoard) (session : Nat) (cards : List TaskCard) : Prop :=
  ∀ {id : String} {task : TaskCard}, board.tasks[id]? = some task → task.ownerSession = session →
    id ∈ cards.map TaskCard.taskId

/-- The card with the session and the timers it has on the other board. -/
def renamedAs (board : TaskBoard) (task : TaskCard) : TaskCard :=
  match board.tasks[task.taskId]? with
  | none => task
  | some mine => { task with
      ownerSession := mine.ownerSession
      startedAtMs := mine.startedAtMs
      finishedAtMs := mine.finishedAtMs }

theorem renamedAs_of {mine task : TaskCard} {id : String} (hid : task.taskId = id)
    (hmine : board.tasks[id]? = some mine) :
    board.renamedAs task = { task with
      ownerSession := mine.ownerSession
      startedAtMs := mine.startedAtMs
      finishedAtMs := mine.finishedAtMs } := by
  rw [renamedAs, hid, hmine]

theorem renamedAs_eq (board : TaskBoard) (task : TaskCard) :
    ∃ ownerSession startedAtMs finishedAtMs,
      board.renamedAs task = { task with ownerSession, startedAtMs, finishedAtMs } := by
  unfold renamedAs
  split
  · exact ⟨_, _, _, rfl⟩
  · exact ⟨_, _, _, rfl⟩

/-- The boards of two publications have the same cards, under the names of the two
sessions. -/
structure Counterparts (session session' : Nat) (mine theirs : TaskBoard) : Prop where
  card : ∀ id : String, mine.tasks[id]? = (theirs.tasks[id]?).map mine.renamedAs
  ownerSession : ∀ {id : String} {task : TaskCard}, theirs.tasks[id]? = some task →
    task.ownerSession ≠ session' ∧ (mine.renamedAs task).ownerSession =
      if task.ownerSession = session then session' else task.ownerSession

theorem Counterparts.renames {session session' : Nat} {mine theirs : TaskBoard}
    (h : Counterparts session session' mine theirs) : theirs.Renames mine.renamedAs := by
  refine ⟨?_, ?_, ?_, ?_, ?_, ?_, ?_, fun {id other a b} ha hb => ?_⟩
  case refine_8 =>
    obtain ⟨hfreshA, hsessionA⟩ := h.ownerSession ha
    obtain ⟨hfreshB, hsessionB⟩ := h.ownerSession hb
    rw [hsessionA, hsessionB]
    by_cases hownA : a.ownerSession = session
    · by_cases hownB : b.ownerSession = session
      · simp [hownA, hownB]
      · simp [hownA, hownB, Ne.symm hfreshB, Ne.symm hownB]
    · by_cases hownB : b.ownerSession = session
      · simp [hownA, hownB, hfreshA]
      · simp [hownA, hownB]
  all_goals
    intro task
    obtain ⟨_, _, _, hrenamed⟩ := renamedAs_eq mine task
    rw [hrenamed]

/-- The cards of the two publications are counterparts if every card of the session is
listed. -/
theorem Away.counterparts {session session' deadline nowMs : Nat} {cards : List TaskCard}
    (haway : Away session deadline left stayed) (hwf : stayed.WellFormed)
    (hfresh : ∀ {id : String} {task : TaskCard}, stayed.tasks[id]? = some task →
      task.ownerSession ≠ session')
    (hnew : session' ≠ session) (hnodup : (cards.map TaskCard.taskId).Nodup)
    (howned : ∀ card ∈ cards, card.ownerSession = session')
    (hlists : stayed.ListsAll session cards) :
    Counterparts session session' (replacedBoard order left session' cards nowMs)
      (replacedBoard order stayed session (cards.map (TaskCard.ownedBy session)) nowMs) := by
  have hnodup' : ((cards.map (TaskCard.ownedBy session)).map TaskCard.taskId).Nodup := by
    rw [map_ownedBy_taskId]
    exact hnodup
  have hwf' : (replacedBoard order stayed session (cards.map (TaskCard.ownedBy session))
      nowMs).WellFormed := replacedBoard_wellFormed hwf ..
  have hlisted : ∀ card ∈ cards, ∃ mine theirs,
      (replacedBoard order left session' cards nowMs).tasks[card.taskId]? = some mine ∧
      (replacedBoard order stayed session (cards.map (TaskCard.ownedBy session))
        nowMs).tasks[card.taskId]? = some theirs ∧
      mine.ownerSession = session' ∧ theirs.ownerSession = session ∧
        mine = { theirs with
          ownerSession := mine.ownerSession
          startedAtMs := mine.startedAtMs
          finishedAtMs := mine.finishedAtMs } := by
    intro card hcard
    have hmine : (replacedBoard order left session' cards nowMs).entry card.taskId =
        (left.entry card.taskId).merge nowMs card := replacedBoard_entry_of_mem hnodup hcard
    have htheirs : (replacedBoard order stayed session (cards.map (TaskCard.ownedBy session))
        nowMs).entry card.taskId =
          (stayed.entry card.taskId).merge nowMs (card.ownedBy session) :=
      replacedBoard_entry_of_mem hnodup' (List.mem_map.mpr ⟨card, hcard, rfl⟩)
    rw [haway card.taskId] at hmine
    refine ⟨_, _, congrArg Entry.card hmine, congrArg Entry.card htheirs, ?_, ?_,
      mergeTimers_alike ..⟩
    · rw [(sameSource_mergeTimers ..).ownerSession, (sameSource_reviewCard ..).ownerSession]
      exact howned card hcard
    · rw [(sameSource_mergeTimers ..).ownerSession, (sameSource_reviewCard ..).ownerSession]
      rfl
  have hunlisted : ∀ id : String, id ∉ cards.map TaskCard.taskId →
      (replacedBoard order left session' cards nowMs).tasks[id]? = stayed.tasks[id]? ∧
      (replacedBoard order stayed session (cards.map (TaskCard.ownedBy session))
        nowMs).tasks[id]? = stayed.tasks[id]? := by
    intro id hid
    have hforeign : ∀ {task : TaskCard}, stayed.tasks[id]? = some task →
        task.ownerSession ≠ session := fun htask hown => hid (hlists htask hown)
    have hleft : left.tasks[id]? = stayed.tasks[id]? := by
      rw [show left.tasks[id]? = _ from congrArg Entry.card (haway id)]
      cases htask : stayed.tasks[id]? with
      | none => rfl
      | some task => simp [awayCard, hforeign htask]
    refine ⟨?_, ?_⟩
    · rw [← hleft]
      exact congrArg Entry.card (replacedBoard_entry_of_not_mem hid
        fun htask => hfresh (hleft ▸ htask))
    · refine congrArg Entry.card (replacedBoard_entry_of_not_mem ?_ hforeign)
      rw [map_ownedBy_taskId]
      exact hid
  refine ⟨fun id => ?_, fun {id task} htask => ?_⟩
  · by_cases hid : id ∈ cards.map TaskCard.taskId
    · obtain ⟨card, hcard, rfl⟩ := List.mem_map.mp hid
      obtain ⟨mine, theirs, hmine, htheirs, -, -, heq⟩ := hlisted card hcard
      rw [hmine, htheirs, Option.map_some, renamedAs_of (hwf'.keyed htheirs) hmine]
      exact congrArg some heq
    · obtain ⟨hmine, htheirs⟩ := hunlisted id hid
      rw [hmine, htheirs]
      cases htask : stayed.tasks[id]? with
      | none => rfl
      | some task =>
          rw [htask] at hmine
          rw [Option.map_some, renamedAs_of (hwf.keyed htask) hmine]
  · by_cases hid : id ∈ cards.map TaskCard.taskId
    · obtain ⟨card, hcard, rfl⟩ := List.mem_map.mp hid
      obtain ⟨mine, theirs, hmine, htheirs, hsession', hsession, -⟩ := hlisted card hcard
      rw [htheirs] at htask
      obtain rfl := Option.some.inj htask
      rw [hsession, if_pos rfl, renamedAs_of (hwf'.keyed htheirs) hmine]
      exact ⟨hnew.symm, hsession'⟩
    · obtain ⟨hmine, htheirs⟩ := hunlisted id hid
      rw [htheirs] at htask
      rw [htask] at hmine
      rw [if_neg fun hown => hid (hlists htask hown), renamedAs_of (hwf.keyed htask) hmine]
      exact ⟨hfresh htask, rfl⟩

/-- Reallocation does not read the acknowledgements. -/
theorem reallocate_assignments_reviewed (reviewedCompletions : ExtTreeMap String Unit) :
    ({ board with reviewedCompletions }.reallocate order).assignments =
      (board.reallocate order).assignments := by
  rw [TaskBoard.reallocate_assignments, TaskBoard.reallocate_assignments]
  rfl

/-- A complete publication leaves the same layout, whichever session makes it. -/
theorem Away.reallocate_assignments {session session' deadline nowMs : Nat}
    {cards : List TaskCard} (hkeys : order.ByKeys) (haway : Away session deadline left stayed)
    (hwf : stayed.WellFormed)
    (hframe : ∃ tasks nowMs, left = { stayed with tasks, nowMs })
    (hfresh : ∀ {id : String} {task : TaskCard}, stayed.tasks[id]? = some task →
      task.ownerSession ≠ session')
    (hnew : session' ≠ session) (hnodup : (cards.map TaskCard.taskId).Nodup)
    (howned : ∀ card ∈ cards, card.ownerSession = session')
    (hlists : stayed.ListsAll session cards) :
    ((replacedBoard order left session' cards nowMs).reallocate order).assignments =
      ((replacedBoard order stayed session (cards.map (TaskCard.ownedBy session))
        nowMs).reallocate order).assignments := by
  have hcounter : Counterparts session session' (replacedBoard order left session' cards nowMs)
      (replacedBoard order stayed session (cards.map (TaskCard.ownedBy session)) nowMs) :=
    haway.counterparts hwf hfresh hnew hnodup howned hlists
  have hwf' : (replacedBoard order stayed session (cards.map (TaskCard.ownedBy session))
      nowMs).WellFormed := replacedBoard_wellFormed hwf ..
  -- neither publication drops a card
  have hassignments : (replacedBoard order left session' cards nowMs).assignments =
      (replacedBoard order stayed session (cards.map (TaskCard.ownedBy session))
        nowMs).assignments := by
    have hmine : ∀ id, ¬left.Dropped session' cards id := by
      rintro id ⟨⟨task, htask, hown⟩, -⟩
      obtain ⟨task', htask', rfl⟩ := haway.card htask
      exact hfresh htask' (awayCard_ownerSession session deadline task' ▸ hown)
    have htheirs : ∀ id, ¬stayed.Dropped session (cards.map (TaskCard.ownedBy session)) id := by
      rintro id ⟨⟨task, htask, hown⟩, hunlisted⟩
      rw [map_ownedBy_taskId] at hunlisted
      exact hunlisted (hlists htask hown)
    have hleft : left.assignments = stayed.assignments := by
      obtain ⟨_, _, rfl⟩ := hframe
      rfl
    ext id slot
    simp only [replacedBoard_assignments, hmine id, htheirs id, hleft, not_false_iff, and_true]
  have htasks : (replacedBoard order left session' cards nowMs).tasks =
      (replacedBoard order stayed session (cards.map (TaskCard.ownedBy session))
        nowMs).tasks.map fun _ =>
          (replacedBoard order left session' cards nowMs).renamedAs := by
    ext id task
    rw [hcounter.card id, ExtTreeMap.getElem?_map]
  obtain ⟨_, _, reviewed, hmine⟩ := replacedBoard_frame order left session' cards nowMs
  obtain ⟨_, _, _, htheirs⟩ :=
    replacedBoard_frame order stayed session (cards.map (TaskCard.ownedBy session)) nowMs
  generalize replacedBoard order left session' cards nowMs = mine at *
  generalize replacedBoard order stayed session (cards.map (TaskCard.ownedBy session)) nowMs =
    theirs at *
  have hboard : mine = { theirs.renamed mine.renamedAs with reviewedCompletions := reviewed } := by
    obtain ⟨_, _, rfl⟩ := hframe
    conv_lhs => rw [hmine]
    rw [renamed, ← htasks, htheirs]
    rw [hmine, htheirs] at hassignments
    simp only at hassignments
    rw [hassignments, hmine]
  rw [hboard, reallocate_assignments_reviewed, ← hcounter.renames.reallocate_assignments hkeys hwf']

/-! ## A card that is shown -/

/-- A listed card keeps its slot where its agent may stay, whoever publishes it, if no
HID card names the position. -/
theorem publish_keeps_slot {session nowMs : Nat} {cards : List TaskCard} {card : TaskCard}
    {slot : DeviceSlot} (hplaced : Placed board) (hcard : card ∈ cards)
    (hnodup : (cards.map TaskCard.taskId).Nodup)
    (hassigned : board.assignments[card.taskId]? = some ⟨slot⟩)
    (hretains : board.retainsOwner card.ownerAgent slot = true)
    (heligible : card.state.eligible = true) (hnotHid : isCodexHid card.taskId = false)
    (hfree : ∀ {id : String} {task : TaskCard}, isCodexHid id = true →
      (replacedBoard order board session cards nowMs).tasks[id]? = some task →
        task.sourceSlot ≠ some slot.slot) :
    ((replacedBoard order board session cards nowMs).reallocate order).assignments[card.taskId]? =
      some ⟨slot⟩ := by
  have hwf : (replacedBoard order board session cards nowMs).WellFormed :=
    replacedBoard_wellFormed hplaced.wellFormed ..
  obtain ⟨tasks, assignments, reviewed, hframe⟩ :=
    replacedBoard_frame order board session cards nowMs
  have hlisted : card.taskId ∈ cards.map TaskCard.taskId := List.mem_map.mpr ⟨card, hcard, rfl⟩
  have hinj : SlotInjective (replacedBoard order board session cards nowMs).assignments := by
    intro a b assignment ha hb
    exact hplaced.injective (replacedBoard_assignments.mp ha).1 (replacedBoard_assignments.mp hb).1
  have hstays : (replacedBoard order board session cards nowMs).assignments[card.taskId]? =
      some ⟨slot⟩ :=
    replacedBoard_assignments.mpr ⟨hassigned, fun hdropped => hdropped.2 hlisted⟩
  have hentry : (replacedBoard order board session cards nowMs).entry card.taskId =
      (board.entry card.taskId).merge nowMs card := replacedBoard_entry_of_mem hnodup hcard
  have hmerged := (sameSource_mergeTimers (board.entry card.taskId).card
    (reviewCard (board.entry card.taskId).reviewed card) nowMs).trans (sameSource_reviewCard ..)
  obtain ⟨_, _, hcomplies⟩ := hplaced.complies hassigned
  refine reallocate_keeps_unpinned hwf hinj hnotHid (retained_iff.mpr ⟨hstays,
    retains_iff.mpr ⟨_, congrArg Entry.card hentry, Or.inl ?_, ?_, ?_⟩⟩) fun hid hhid hpin => ?_
  · rw [hmerged.eligible]
    exact heligible
  · rw [hframe]
    exact hcomplies.available
  · rw [hframe, hmerged.ownerAgent]
    exact hretains
  · obtain ⟨task, htask, hslot⟩ := hpin
    exact hfree hhid htask
      ((pinSlot_eq_some_iff (stickyBoard_wellFormed order hwf)).mp hslot).2.2.2.1

/-- The card is shown on a slot that its agent keeps and no HID card names, and the
publication does not hide it. -/
structure Held (board : TaskBoard) (cards : List TaskCard) (card : TaskCard)
    (slot : DeviceSlot) : Prop where
  assigned : board.assignments[card.taskId]? = some ⟨slot⟩
  retains : board.retainsOwner card.ownerAgent slot = true
  eligible : card.state.eligible = true
  notHid : isCodexHid card.taskId = false
  unnamed : ∀ {id : String} {task : TaskCard}, isCodexHid id = true →
    board.tasks[id]? = some task → task.sourceSlot ≠ some slot.slot
  unlisted : ∀ other ∈ cards, isCodexHid other.taskId = true → other.sourceSlot ≠ some slot.slot

/-- A tick that meets no lapsed card only moves the clock. -/
theorem apply_expire_of_none {nowMs : Nat}
    (hnone : ∀ {id : String} {task : TaskCard}, board.tasks[id]? = some task →
      lapsed nowMs task = false) (order : WalkOrder) :
    board.apply order (.expire nowMs) = { board with nowMs } := by
  have hempty : (taskIdsWhere order { board with nowMs := nowMs } fun _ => lapsed nowMs) = [] := by
    refine List.eq_nil_iff_forall_not_mem.mpr fun id hmem => ?_
    obtain ⟨task, htask, hlapsed⟩ := mem_taskIdsWhere.mp hmem
    rw [hnone htask] at hlapsed
    cases hlapsed
  show board.expire order nowMs = _
  unfold expire
  exact if_pos (List.isEmpty_iff.mpr hempty)

/-- No lease of the board ends at one of the ticks. -/
def NoneLapses (ticks : List (WalkOrder × Nat)) (board : TaskBoard) : Prop :=
  ∀ tick ∈ ticks, ∀ {id : String} {task : TaskCard}, board.tasks[id]? = some task →
    lapsed tick.2 task = false

theorem ticking_of_noneLapses {ticks : List (WalkOrder × Nat)}
    (hnone : NoneLapses ticks board) :
    ∃ nowMs, run (ticking ticks) board = { board with nowMs } := by
  induction ticks generalizing board with
  | nil => exact ⟨board.nowMs, rfl⟩
  | cons tick ticks ih =>
      have hfirst := apply_expire_of_none (fun {id task} h =>
        hnone tick List.mem_cons_self (h : board.tasks[id]? = some task)) tick.1
      have hlater : NoneLapses ticks { board with nowMs := tick.2 } :=
        fun other hother {id task} h => hnone other (List.mem_cons_of_mem _ hother) h
      obtain ⟨nowMs, hrest⟩ := ih hlater
      refine ⟨nowMs, ?_⟩
      show run (ticking ticks) (board.apply tick.1 (.expire tick.2)) = _
      rw [hfirst, hrest]

/-- The new session finds the layout that the old one would have left. -/
theorem Away.same_slot {session session' deadline nowMs : Nat} {cards : List TaskCard}
    {card : TaskCard} (hkeys : order.ByKeys) (haway : Away session deadline left stayed)
    (hplaced : Placed left) (hplaced' : Placed stayed)
    (hframe : ∃ tasks nowMs, left = { stayed with tasks, nowMs })
    (hfresh : ∀ {id : String} {task : TaskCard}, stayed.tasks[id]? = some task →
      task.ownerSession ≠ session')
    (hne : session' ≠ session) (hnodup : (cards.map TaskCard.taskId).Nodup)
    (howned : ∀ card ∈ cards, card.ownerSession = session') (hcard : card ∈ cards)
    (h : stayed.ListsAll session cards ∨ ∃ slot, stayed.Held cards card slot) :
    ((replacedBoard order left session' cards nowMs).reallocate order).assignments[card.taskId]? =
      ((replacedBoard order stayed session (cards.map (TaskCard.ownedBy session))
        nowMs).reallocate order).assignments[card.taskId]? := by
  rcases h with hlists | ⟨slot, hheld⟩
  · rw [haway.reallocate_assignments hkeys hplaced'.wellFormed hframe hfresh hne hnodup
      howned hlists]
  · have hmine : ((replacedBoard order left session' cards nowMs).reallocate
        order).assignments[card.taskId]? = some ⟨slot⟩ := by
      refine publish_keeps_slot hplaced hcard hnodup ?_ ?_ hheld.eligible hheld.notHid
        fun {id task} hhid htask => ?_
      · obtain ⟨_, _, rfl⟩ := hframe
        exact hheld.assigned
      · obtain ⟨_, _, rfl⟩ := hframe
        exact hheld.retains
      · rcases of_replacedBoard htask with ⟨-, htask, -⟩ | ⟨other, hother, rfl, hsame⟩
        · obtain ⟨task', htask', rfl⟩ := haway.card htask
          rw [awayCard_sourceSlot]
          exact hheld.unnamed hhid htask'
        · rw [hsame.sourceSlot]
          exact hheld.unlisted other hother hhid
    have htheirs : ((replacedBoard order stayed session (cards.map (TaskCard.ownedBy session))
        nowMs).reallocate order).assignments[(card.ownedBy session).taskId]? = some ⟨slot⟩ := by
      refine publish_keeps_slot hplaced' (List.mem_map.mpr ⟨card, hcard, rfl⟩) ?_ hheld.assigned
        hheld.retains hheld.eligible hheld.notHid fun {id task} hhid htask => ?_
      · rw [map_ownedBy_taskId]
        exact hnodup
      · rcases of_replacedBoard htask with ⟨-, htask, -⟩ | ⟨other', hother', rfl, hsame⟩
        · exact hheld.unnamed hhid htask
        · obtain ⟨other, hother, rfl⟩ := List.mem_map.mp hother'
          rw [hsame.sourceSlot]
          exact hheld.unlisted other hother hhid
    rw [hmine]
    exact htheirs.symm

/-- While no lease ends, ticks change neither board. -/
theorem noneLapses_of_disconnectSession {ticks : List (WalkOrder × Nat)} {session leftMs : Nat}
    (hconnected : ∀ {id : String} {task : TaskCard}, board.tasks[id]? = some task →
      task.ownerSession = session → task.reconnectUntilMs = none)
    (hnone : NoneLapses ticks (board.disconnectSession session leftMs)) :
    NoneLapses ticks board := by
  intro tick htick id task htask
  by_cases howner : task.ownerSession = session
  · rw [lapsed, hconnected htask howner]
    rfl
  · refine hnone tick htick (?_ : (board.disconnectSession session leftMs).tasks[id]? = some task)
    unfold disconnectSession
    rw [ExtTreeMap.getElem?_map, htask, Option.map_some, if_neg howner]

/-! ## The two runs -/

/-- A session of a reachable board leaves at `leftMs`, and within the lease a new
session makes a publication that is accepted.  The old session could have made it: a
card it lists ends in the same state, with the same timers unless they are guessed
from a task that had stopped, and on the same slot if every card of the session is
listed or the card is held there. -/
theorem reconnect_transparency (before : List (WalkOrder × Op)) (order : WalkOrder)
    (hkeys : order.ByKeys) (session session' : Nat) (agent : AgentId) (value : Value)
    (leftMs nowMs : Nat) (ticks : List (WalkOrder × Nat))
    (hnew : ∀ {id : String} {task : TaskCard}, (run before default).tasks[id]? = some task →
      task.ownerSession ≠ session')
    (hconnected : ∀ {id : String} {task : TaskCard}, (run before default).tasks[id]? = some task →
      task.ownerSession = session → task.reconnectUntilMs = none)
    (hticks : ∀ tick ∈ ticks, tick.2 < wrappingAdd leftMs reconnectGrace) :
    let board := run before default
    let left := run (ticking ticks) (board.disconnectSession session leftMs)
    let stayed := run (ticking ticks) board
    let mine := left.apply order (.publishTasks session' agent value nowMs)
    let theirs := stayed.apply order (.publishTasks session agent value nowMs)
    ∀ cards, left.publishedCards session' agent value nowMs = .ok cards →
      (stayed.publishedCards session agent value nowMs).isOk = true ∧
      ∀ card ∈ cards, ∀ old, board.tasks[card.taskId]? = some old → old.ownerSession = session →
        ∃ reclaimed republished, mine.tasks[card.taskId]? = some reclaimed ∧
          theirs.tasks[card.taskId]? = some republished ∧
          reclaimed.state = republished.state ∧
          (¬Restarts old card nowMs → reclaimed.startedAtMs = republished.startedAtMs) ∧
          (¬Recompletes old card nowMs → reclaimed.finishedAtMs = republished.finishedAtMs) ∧
          (NoneLapses ticks (board.disconnectSession session leftMs) →
            board.ListsAll session cards ∨ (∃ slot, board.Held cards card slot) →
              mine.assignments[card.taskId]? = theirs.assignments[card.taskId]?) := by
  intro board left stayed mine theirs cards hcards
  have haway : Away session (wrappingAdd leftMs reconnectGrace) left stayed :=
    (away_disconnectSession board session leftMs).ticking hconnected hticks
  have hfresh : ∀ {id : String} {task : TaskCard}, stayed.tasks[id]? = some task →
      task.ownerSession ≠ session' := fun htask => hnew (of_ticking htask)
  have hcards' := haway.publishedCards hfresh hcards
  have hnodup := publishedCards_nodup hcards
  have hnodup' := publishedCards_nodup hcards'
  have hm : handover order left (.publishTasks session' agent value nowMs) =
      some (replacedBoard order left session' cards nowMs) := by
    rw [handover, hcards]
    rfl
  have hm' : handover order stayed (.publishTasks session agent value nowMs) =
      some (replacedBoard order stayed session (cards.map (TaskCard.ownedBy session)) nowMs) := by
    rw [handover, hcards']
    rfl
  refine ⟨by rw [hcards']; rfl, fun card hcard old hold howner => ?_⟩
  have hmem' : card.ownedBy session ∈ cards.map (TaskCard.ownedBy session) :=
    List.mem_map.mpr ⟨card, hcard, rfl⟩
  have hstayed : stayed.entry card.taskId = board.entry card.taskId :=
    ticking_entry hold (hconnected hold howner)
  have hstayed' : stayed.tasks[card.taskId]? = some old :=
    (congrArg Entry.card hstayed).trans hold
  have hmine : mine.entry card.taskId = (left.entry card.taskId).merge nowMs card := by
    rw [apply_entry_of_handover hm]
    exact replacedBoard_entry_of_mem hnodup hcard
  have htheirs : theirs.entry card.taskId =
      (board.entry card.taskId).merge nowMs (card.ownedBy session) := by
    rw [apply_entry_of_handover hm', ← hstayed]
    exact replacedBoard_entry_of_mem hnodup' hmem'
  -- the new session merges over the leased card, the old one over the card itself
  have hleft : left.entry card.taskId = ⟨some (leaseCard (wrappingAdd leftMs reconnectGrace) old),
      (board.entry card.taskId).reviewed⟩ := by
    rw [haway card.taskId, hstayed, hstayed', Option.map_some, awayCard, if_pos howner]
  rw [hleft] at hmine
  have hentry : board.entry card.taskId = ⟨some old, (board.entry card.taskId).reviewed⟩ := by
    rw [← hold]
    rfl
  rw [hentry] at htheirs
  have hsettled : (board.entry card.taskId).reviewed = true → old.state ≠ .completed := by
    intro hreviewed
    obtain ⟨task, htask, hstate⟩ := settled_run before card.taskId hreviewed
    have heq : some old = some task := hold.symm.trans htask
    exact Option.some.inj heq ▸ hstate
  refine ⟨_, _, congrArg Entry.card hmine, congrArg Entry.card htheirs, ?_,
    reclaimed_started_iff.mpr, (reclaimed_finished_iff hsettled).mpr, fun hnone hslot => ?_⟩
  · rw [mergeTimers_state, mergeTimers_state, reviewCard_ownedBy]
    rfl
  · obtain ⟨_, hleftFrame⟩ := ticking_of_noneLapses hnone
    obtain ⟨_, hstayedFrame⟩ :=
      ticking_of_noneLapses (noneLapses_of_disconnectSession hconnected hnone)
    have hplaced : Placed board := placed_run before
    have hplaced' : Placed (board.disconnectSession session leftMs) :=
      hplaced.apply order (.disconnectSession session leftMs)
    have hframe : ∃ tasks nowMs, left = { stayed with tasks, nowMs } := by
      simp only [left, stayed, hleftFrame, board, hstayedFrame]
      exact ⟨_, _, rfl⟩
    rw [show mine = _ from apply_eq_of_handover hm, show theirs = _ from apply_eq_of_handover hm']
    refine haway.same_slot hkeys (hplaced'.run _) (hplaced.run _) hframe hfresh
      (fun heq => hnew hold (howner.trans heq.symm)) hnodup (fun other hother => ?_) hcard ?_
    · obtain ⟨⟨_, hparsed⟩, -⟩ := publishedCards_ok hcards other hother
      exact hparsed.ownerSession
    · simp only [stayed, board, hstayedFrame]
      rcases hslot with hlists | ⟨slot, hheld⟩
      · exact Or.inl hlists
      · exact Or.inr ⟨slot, hheld.assigned, hheld.retains, hheld.eligible, hheld.notHid,
          hheld.unnamed, hheld.unlisted⟩

/-- A publication of tasks in given states. -/
def reports (cards : List (String × String)) : Value :=
  .object [("tasks", .array (cards.map fun card =>
    .object [("task_id", .string card.1), ("state", .string card.2)]))]

/-- A controller, and a session with tasks in given states. -/
def connected (slots : Nat) (cards : List (String × String)) : List (WalkOrder × Op) :=
  [(.ascending, .setDevice "deck" slots true),
    (.ascending, .publishTasks 1 .zCode (reports cards) 10)]

/-- A running task is reclaimed with its clock and its slot. -/
theorem reconnect_transparency_running :
    let board := run (connected 2 [("a", "running")]) default
    let left := run (ticking [(.ascending, 50)]) (board.disconnectSession 1 20)
    let stayed := run (ticking [(.ascending, 50)]) board
    let mine := left.apply .ascending (.publishTasks 2 .zCode (reports [("a", "running")]) 60)
    let theirs := stayed.apply .ascending (.publishTasks 1 .zCode (reports [("a", "running")]) 60)
    (mine.tasks["a"]?).bind (·.startedAtMs) = (theirs.tasks["a"]?).bind (·.startedAtMs) ∧
      mine.assignments["a"]? = theirs.assignments["a"]? := by
  intro board left stayed mine theirs
  have hcard : ∀ {id : String} {task : TaskCard}, board.tasks[id]? = some task →
      id = "a" ∧ task.ownerSession = 1 ∧ task.state = .running ∧ task.reconnectUntilMs = none := by
    intro id task htask
    have hall : board.tasks.toList.all (fun entry => entry.1 == "a" && entry.2.ownerSession == 1 &&
        entry.2.state == .running && entry.2.reconnectUntilMs.isNone) = true := by decide +kernel
    have hentry := List.all_eq_true.mp hall (id, task)
      (ExtTreeMap.mem_toList_iff_getElem?_eq_some.mpr htask)
    simpa [and_assoc] using hentry
  have hids : (left.publishedCards 2 .zCode (reports [("a", "running")]) 60).toOption.map
      (·.map TaskCard.taskId) = some ["a"] := by decide +kernel
  have howner : (board.tasks["a"]?).map (·.ownerSession) = some 1 := by decide +kernel
  obtain ⟨cards, hcards, hnames⟩ := Option.map_eq_some_iff.mp hids
  obtain ⟨old, hold, -⟩ := Option.map_eq_some_iff.mp howner
  obtain ⟨-, hsession, hrunning, -⟩ := hcard hold
  obtain ⟨-, hlisted⟩ := reconnect_transparency (connected 2 [("a", "running")]) .ascending
    (fun _ _ => rfl) 1 2 .zCode (reports [("a", "running")]) 20 60 [(.ascending, 50)]
    (fun htask => by rw [(hcard htask).2.1]; decide) (fun htask _ => (hcard htask).2.2.2)
    (by decide) cards (toOption_eq_some_iff.mp hcards)
  have hmem : "a" ∈ cards.map TaskCard.taskId := by rw [hnames]; exact List.mem_singleton_self _
  obtain ⟨card, hmem, hid⟩ := List.mem_map.mp hmem
  obtain ⟨reclaimed, republished, hmine, htheirs, -, hstarted, -, hslot⟩ :=
    hlisted card hmem old (by rw [hid]; exact hold) hsession
  rw [hid] at hmine htheirs hslot
  have hstill : ¬Restarts old card 60 := by
    rintro ⟨-, -, hstopped, -⟩
    rw [hrunning] at hstopped
    rcases hstopped with h | h <;> cases h
  refine ⟨?_, hslot (fun tick htick {id task} htask => ?_) (Or.inl fun htask _ => ?_)⟩
  · have hmine' : mine.tasks["a"]? = some reclaimed := hmine
    have htheirs' : theirs.tasks["a"]? = some republished := htheirs
    rw [hmine', htheirs']
    exact hstarted hstill
  · obtain rfl := List.mem_singleton.mp htick
    have hall : (board.disconnectSession 1 20).tasks.toList.all
        (fun entry => !lapsed 50 entry.2) = true := by decide +kernel
    simpa using List.all_eq_true.mp hall (id, task)
      (ExtTreeMap.mem_toList_iff_getElem?_eq_some.mpr htask)
  · rw [hnames, (hcard htask).1]
    exact List.mem_singleton_self _

/-- The cards a new session does not list keep their slots while they are leased, and
a completion it repeats is dated anew. -/
theorem reconnect_differs :
    let shown := fun (board : TaskBoard) (session : Nat) (cards : List (String × String)) =>
      board.apply .ascending (.publishTasks session .zCode (reports cards) 40)
    let pair := run (connected 1 [("a", "running"), ("b", "running")]) default
    let done := run (connected 1 [("a", "completed")]) default
    (shown (pair.disconnectSession 1 20) 2 [("b", "running")]).assignments["b"]? = none ∧
      (shown pair 1 [("b", "running")]).assignments["b"]? = some ⟨⟨"deck", 0⟩⟩ ∧
      ((shown (done.disconnectSession 1 20) 2 [("a", "completed")]).tasks["a"]?).bind
        (·.finishedAtMs) = some 40 ∧
      ((shown done 1 [("a", "completed")]).tasks["a"]?).bind (·.finishedAtMs) = some 10 := by
  decide +kernel

end TaskBoard
end Tasks
end MicroEmu
