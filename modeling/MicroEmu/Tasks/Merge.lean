import MicroEmu.Library.Results
import MicroEmu.Tasks.Board
import MicroEmu.Tasks.Fill

/-!
# What a publication does to the cards

Parsing gives every card the session and agent it is read for.  Merging replaces
exactly the cards it is given and touches no other; replacing a session's tasks
also removes the cards of that session that are no longer published.  Both end
in a reallocation, of the boards `mergedBoard` and `replacedBoard`.
-/

namespace MicroEmu
namespace Tasks

open Std (ExtTreeMap LawfulEqCmp)
open Json (Value)
open Routing (AgentId)
open Library

/-! ## Parsing -/

/-- What a parsed entry says about its card. -/
structure ParsedFrom (session : Nat) (agent : AgentId) (item : Value) (nowMs : Nat)
    (legacy : Option (String × String)) (card : TaskCard) : Prop where
  identity : ∃ key, taskIdentity item legacy = .ok (card.taskId, key) ∧
    card.legacyKey = key.filter (· ≠ "")
  ownerSession : card.ownerSession = session
  ownerAgent : card.ownerAgent = agent
  sourceSlot : card.sourceSlot = cardSourceSlot item card.legacyKey
  state : cardState item card.legacyKey = .ok card.state
  authoritative : card.timingAuthoritative = timingAuthoritative item
  updatedAtMs : card.updatedAtMs = nowMs
  startedAtMs : card.timingAuthoritative = false →
    card.startedAtMs = if card.state.active then some nowMs else none
  finishedAtMs : card.timingAuthoritative = false →
    card.finishedAtMs = if card.state = .completed then some nowMs else none
  reconnectUntilMs : card.reconnectUntilMs = none

/-- Without a timestamp field there is no explicit timestamp. -/
private theorem explicit_timestamp_none {item : Value} {key : String} {t : Option Nat}
    (hkey : (item.get? key).isSome = false) (h : parseTimestampMs (item.get? key) = .ok t) :
    t = none := by
  rw [Option.isSome_eq_false_iff, Option.isNone_iff_eq_none] at hkey
  rw [hkey] at h
  cases h
  rfl

theorem parseTask_ok {session : Nat} {agent : AgentId} {item : Value} {nowMs : Nat}
    {legacy : Option (String × String)} {card : TaskCard}
    (h : parseTask session agent item nowMs legacy = .ok card) :
    ParsedFrom session agent item nowMs legacy card := by
  unfold parseTask at h
  split at h
  · cases h
  obtain ⟨⟨taskId, key⟩, hidentity, h⟩ := bind_eq_ok.mp h
  obtain ⟨_, _, h⟩ := bind_eq_ok.mp h
  obtain ⟨_, _, h⟩ := bind_eq_ok.mp h
  obtain ⟨state, hstate, h⟩ := bind_eq_ok.mp h
  obtain ⟨_, _, h⟩ := bind_eq_ok.mp h
  obtain ⟨_, _, h⟩ := bind_eq_ok.mp h
  obtain ⟨_, _, h⟩ := bind_eq_ok.mp h
  obtain ⟨_, _, h⟩ := bind_eq_ok.mp h
  obtain ⟨started, hstarted, h⟩ := bind_eq_ok.mp h
  obtain ⟨finished, hfinished, h⟩ := bind_eq_ok.mp h
  obtain rfl := pure_eq_ok.mp h
  have hexplicit : timingAuthoritative item = false → started = none ∧ finished = none := by
    intro hauth
    simp only [timingAuthoritative, Bool.or_eq_false_iff] at hauth
    exact ⟨explicit_timestamp_none hauth.1.2 hstarted,
      explicit_timestamp_none hauth.2 hfinished⟩
  refine ⟨⟨key, hidentity, rfl⟩, rfl, rfl, rfl, hstate, rfl, rfl, ?_, ?_, rfl⟩
  · intro hauth
    simp only at hauth
    simp [(hexplicit hauth).1, hauth]
  · intro hauth
    simp only at hauth
    simp [(hexplicit hauth).2, hauth]

/-- A synthesised entry gets the id it was given. -/
theorem ParsedFrom.taskId_eq {session : Nat} {agent : AgentId} {item : Value} {nowMs : Nat}
    {id key : String} {card : TaskCard}
    (h : ParsedFrom session agent item nowMs (some (id, key)) card) : card.taskId = id := by
  obtain ⟨_, hidentity, -⟩ := h.identity
  cases hidentity
  rfl

/-- A synthesised entry keeps its key label. -/
theorem ParsedFrom.legacyKey_eq {session : Nat} {agent : AgentId} {item : Value} {nowMs : Nat}
    {id key : String} {card : TaskCard}
    (h : ParsedFrom session agent item nowMs (some (id, key)) card) (hkey : key ≠ "") :
    card.legacyKey = some key := by
  obtain ⟨_, hidentity, hlegacy⟩ := h.identity
  cases hidentity
  rw [hlegacy]
  simp [hkey]

/-! ## Merging -/

/-- The merged card is the given one but for its lifecycle fields. -/
structure SameSource (merged card : TaskCard) : Prop where
  taskId : merged.taskId = card.taskId
  ownerSession : merged.ownerSession = card.ownerSession
  ownerAgent : merged.ownerAgent = card.ownerAgent
  sourceSlot : merged.sourceSlot = card.sourceSlot
  reconnectUntilMs : merged.reconnectUntilMs = card.reconnectUntilMs
  eligible : merged.state.eligible = card.state.eligible

theorem SameSource.refl (card : TaskCard) : SameSource card card :=
  ⟨rfl, rfl, rfl, rfl, rfl, rfl⟩

theorem sameSource_reviewCard (reviewed : Bool) (card : TaskCard) :
    SameSource (reviewCard reviewed card) card := by
  unfold reviewCard
  split
  · rename_i hreviewed
    exact ⟨rfl, rfl, rfl, rfl, rfl, by rw [hreviewed.1]; rfl⟩
  · exact .refl card

theorem sameSource_mergeTimers (previous : Option TaskCard) (card : TaskCard) (nowMs : Nat) :
    SameSource (mergeTimers previous card nowMs) card := by
  unfold mergeTimers
  split
  · exact .refl card
  · split
    · exact .refl card
    · exact ⟨rfl, rfl, rfl, rfl, rfl, rfl⟩

theorem SameSource.trans {a b c : TaskCard} (hab : SameSource a b) (hbc : SameSource b c) :
    SameSource a c where
  taskId := hab.taskId.trans hbc.taskId
  ownerSession := hab.ownerSession.trans hbc.ownerSession
  ownerAgent := hab.ownerAgent.trans hbc.ownerAgent
  sourceSlot := hab.sourceSlot.trans hbc.sourceSlot
  reconnectUntilMs := hab.reconnectUntilMs.trans hbc.reconnectUntilMs
  eligible := hab.eligible.trans hbc.eligible

namespace TaskBoard

variable {order : WalkOrder} {board : TaskBoard}

/-- The card a merge files. -/
def mergedCard (board : TaskBoard) (nowMs : Nat) (card : TaskCard) : TaskCard :=
  mergeTimers board.tasks[card.taskId]?
    (reviewCard (board.reviewedCompletions.contains card.taskId) card) nowMs

theorem sameSource_mergedCard (nowMs : Nat) (card : TaskCard) :
    SameSource (board.mergedCard nowMs card) card :=
  (sameSource_mergeTimers ..).trans (sameSource_reviewCard ..)

theorem mergeTask_getElem? (nowMs : Nat) (card : TaskCard) (id : String) :
    (mergeTask nowMs board card).tasks[id]? =
      if card.taskId = id then some (board.mergedCard nowMs card) else board.tasks[id]? :=
  getElem?_insert_eq_ite ..

/-- A merge of cards changes the cards and the acknowledgements only. -/
theorem foldl_mergeTask_frame (nowMs : Nat) (cards : List TaskCard) (board : TaskBoard) :
    ∃ tasks reviewedCompletions, cards.foldl (mergeTask nowMs) board =
      { board with tasks, reviewedCompletions } := by
  induction cards generalizing board with
  | nil => exact ⟨_, _, rfl⟩
  | cons card cards ih =>
      obtain ⟨tasks, reviewed, h⟩ := ih (mergeTask nowMs board card)
      exact ⟨tasks, reviewed, h⟩

/-- Cards that are not mentioned stay as they are. -/
theorem foldl_mergeTask_of_not_mem {nowMs : Nat} {cards : List TaskCard} {id : String}
    (hid : id ∉ cards.map TaskCard.taskId) :
    (cards.foldl (mergeTask nowMs) board).tasks[id]? = board.tasks[id]? := by
  induction cards generalizing board with
  | nil => rfl
  | cons card cards ih =>
      rw [List.map_cons, List.mem_cons, not_or] at hid
      rw [List.foldl_cons, ih hid.2, mergeTask_getElem?, if_neg (Ne.symm hid.1)]

/-- The last of the cards with the given id. -/
def lastCard (cards : List TaskCard) (id : String) : Option TaskCard :=
  cards.reverse.find? (·.taskId == id)

theorem lastCard_cons (card : TaskCard) (cards : List TaskCard) (id : String) :
    lastCard (card :: cards) id =
      (lastCard cards id).or (if card.taskId = id then some card else none) := by
  unfold lastCard
  rw [List.reverse_cons, List.find?_append]
  by_cases hid : card.taskId = id <;> simp [hid]

theorem lastCard_eq_none_iff {cards : List TaskCard} {id : String} :
    lastCard cards id = none ↔ id ∉ cards.map TaskCard.taskId := by
  simp [lastCard, List.find?_eq_none]

theorem lastCard_mem {cards : List TaskCard} {id : String} {card : TaskCard}
    (h : lastCard cards id = some card) : card ∈ cards ∧ card.taskId = id := by
  have hid := List.find?_some h
  exact ⟨List.mem_reverse.mp (List.mem_of_find?_eq_some h), beq_iff_eq.mp hid⟩

/-- Lists that carry the same ids end with the same data under each of them. -/
theorem lastCard_map_congr {α β : Type} {card card' : α → TaskCard} {data : TaskCard → β}
    {xs : List α} (hid : ∀ x ∈ xs, (card x).taskId = (card' x).taskId)
    (hdata : ∀ x ∈ xs, data (card x) = data (card' x)) (id : String) :
    (lastCard (xs.map card) id).map data = (lastCard (xs.map card') id).map data := by
  induction xs with
  | nil => rfl
  | cons x xs ih =>
      have hrest := ih (fun y hy => hid y (List.mem_cons_of_mem _ hy))
        fun y hy => hdata y (List.mem_cons_of_mem _ hy)
      rw [List.map_cons, List.map_cons, lastCard_cons, lastCard_cons, Option.map_or, Option.map_or,
        hrest, hid x List.mem_cons_self]
      congr 1
      split
      · exact congrArg some (hdata x List.mem_cons_self)
      · rfl

/-- Every mentioned card is there afterwards, with the data of its last mention. -/
theorem foldl_mergeTask_lastCard (board : TaskBoard) (nowMs : Nat) {cards : List TaskCard}
    {id : String} {card : TaskCard} (h : lastCard cards id = some card) :
    ∃ merged, (cards.foldl (mergeTask nowMs) board).tasks[id]? = some merged ∧
      SameSource merged card := by
  induction cards generalizing board with
  | nil => cases h
  | cons first cards ih =>
      rw [lastCard_cons] at h
      rw [List.foldl_cons]
      cases hlater : lastCard cards id with
      | some later =>
          rw [hlater, Option.some_or] at h
          exact ih (mergeTask nowMs board first) (hlater.trans h)
      | none =>
          rw [hlater, Option.none_or] at h
          split at h
          · rename_i hid
            obtain rfl := Option.some.inj h
            rw [foldl_mergeTask_of_not_mem (lastCard_eq_none_iff.mp hlater), mergeTask_getElem?,
              if_pos hid]
            exact ⟨_, rfl, sameSource_mergedCard nowMs first⟩
          · cases h

/-- The board a merge hands to the reallocation. -/
def mergedBoard (board : TaskBoard) (cards : List TaskCard) (nowMs : Nat) : TaskBoard :=
  cards.foldl (mergeTask nowMs) { board with nowMs := nowMs }

/-- A merge leaves devices, owners, assignments and memory alone. -/
theorem mergedBoard_frame (board : TaskBoard) (cards : List TaskCard) (nowMs : Nat) :
    ∃ tasks reviewedCompletions, board.mergedBoard cards nowMs =
      { board with tasks, reviewedCompletions, nowMs } := by
  obtain ⟨tasks, reviewed, h⟩ := foldl_mergeTask_frame nowMs cards { board with nowMs := nowMs }
  exact ⟨tasks, reviewed, h⟩

theorem mergedBoard_of_not_mem {cards : List TaskCard} {nowMs : Nat} {id : String}
    (hid : id ∉ cards.map TaskCard.taskId) :
    (board.mergedBoard cards nowMs).tasks[id]? = board.tasks[id]? :=
  foldl_mergeTask_of_not_mem hid

theorem mergedBoard_lastCard (board : TaskBoard) (nowMs : Nat) {cards : List TaskCard}
    {id : String} {card : TaskCard} (h : lastCard cards id = some card) :
    ∃ merged, (board.mergedBoard cards nowMs).tasks[id]? = some merged ∧
      SameSource merged card :=
  foldl_mergeTask_lastCard _ nowMs h

theorem mergedBoard_of_mem (board : TaskBoard) (nowMs : Nat) {cards : List TaskCard}
    {id : String} (hid : id ∈ cards.map TaskCard.taskId) :
    ∃ card ∈ cards, card.taskId = id ∧
      ∃ merged, (board.mergedBoard cards nowMs).tasks[id]? = some merged ∧
        SameSource merged card := by
  cases hlast : lastCard cards id with
  | none => exact absurd hid (lastCard_eq_none_iff.mp hlast)
  | some card =>
      obtain ⟨hmem, hcard⟩ := lastCard_mem hlast
      exact ⟨card, hmem, hcard, mergedBoard_lastCard board nowMs hlast⟩

theorem mergedBoard_wellFormed (hwf : board.WellFormed) (cards : List TaskCard) (nowMs : Nat) :
    (board.mergedBoard cards nowMs).WellFormed where
  keyed := by
    intro id task htask
    by_cases hid : id ∈ cards.map TaskCard.taskId
    · obtain ⟨card, -, hcard, merged, hget, hsame⟩ := mergedBoard_of_mem board nowMs hid
      rw [hget] at htask
      obtain rfl := Option.some.inj htask
      exact hsame.taskId.trans hcard
    · rw [mergedBoard_of_not_mem hid] at htask
      exact hwf.keyed htask
  devices := by
    obtain ⟨_, _, hframe⟩ := mergedBoard_frame board cards nowMs
    rw [hframe]
    exact hwf.devices

/-! ## Removal -/

theorem mem_taskIdsWhere {test : String → TaskCard → Bool} {id : String} :
    id ∈ board.taskIdsWhere order test ↔
      ∃ task, board.tasks[id]? = some task ∧ test id task = true := by
  simp only [taskIdsWhere, List.mem_filterMap, Prod.exists, order.mem_entries]
  constructor
  · rintro ⟨_, task, hget, h⟩
    split at h
    · obtain rfl := Option.some.inj h
      exact ⟨task, hget, ‹_›⟩
    · cases h
  · rintro ⟨task, hget, htest⟩
    exact ⟨id, task, hget, by rw [if_pos htest]⟩

theorem foldl_removeTask (ids : List String) (board : TaskBoard) :
    ids.foldl removeTask board =
      { board with
        tasks := ids.foldl ExtTreeMap.erase board.tasks
        assignments := ids.foldl ExtTreeMap.erase board.assignments
        reviewedCompletions := ids.foldl ExtTreeMap.erase board.reviewedCompletions } := by
  induction ids generalizing board with
  | nil => rfl
  | cons id ids ih => exact ih (board.removeTask id)

theorem foldl_removeTask_tasks (ids : List String) (id : String) :
    (ids.foldl removeTask board).tasks[id]? = if id ∈ ids then none else board.tasks[id]? := by
  rw [foldl_removeTask]
  exact getElem?_foldl_erase ..

theorem foldl_removeTask_assignments (ids : List String) (id : String) :
    (ids.foldl removeTask board).assignments[id]? =
      if id ∈ ids then none else board.assignments[id]? := by
  rw [foldl_removeTask]
  exact getElem?_foldl_erase ..

theorem foldl_removeTask_wellFormed (hwf : board.WellFormed) (ids : List String) :
    (ids.foldl removeTask board).WellFormed where
  keyed := by
    intro id task htask
    rw [foldl_removeTask_tasks] at htask
    split at htask
    · cases htask
    · exact hwf.keyed htask
  devices := by
    rw [foldl_removeTask]
    exact hwf.devices

/-- The board a replacement hands to the reallocation. -/
def replacedBoard (order : WalkOrder) (board : TaskBoard) (session : Nat)
    (cards : List TaskCard) (nowMs : Nat) : TaskBoard :=
  ((board.taskIdsWhere order fun id task => task.ownerSession == session &&
    !(cards.map TaskCard.taskId).contains id).foldl removeTask board).mergedBoard cards nowMs

theorem replaceSessionTasks_eq (session : Nat) (cards : List TaskCard) (nowMs : Nat) :
    board.replaceSessionTasks order session cards nowMs =
      (replacedBoard order board session cards nowMs).reallocate order := rfl

/-- A card the replacement removes: of the session, and no longer published. -/
def Dropped (board : TaskBoard) (session : Nat) (cards : List TaskCard) (id : String) : Prop :=
  (∃ task, board.tasks[id]? = some task ∧ task.ownerSession = session) ∧
    id ∉ cards.map TaskCard.taskId

theorem mem_dropped {session : Nat} {cards : List TaskCard} {id : String} :
    id ∈ board.taskIdsWhere order (fun id task => task.ownerSession == session &&
      !(cards.map TaskCard.taskId).contains id) ↔ board.Dropped session cards id := by
  simp only [mem_taskIdsWhere, Bool.and_eq_true, beq_iff_eq, Bool.not_eq_true',
    ← Bool.not_eq_true, List.contains_iff_mem, Dropped]
  constructor
  · rintro ⟨task, hget, hsession, hfresh⟩
    exact ⟨⟨task, hget, hsession⟩, hfresh⟩
  · rintro ⟨⟨task, hget, hsession⟩, hfresh⟩
    exact ⟨task, hget, hsession, hfresh⟩

theorem replacedBoard_of_mem (order : WalkOrder) (board : TaskBoard) (session nowMs : Nat)
    {cards : List TaskCard} {id : String} (hid : id ∈ cards.map TaskCard.taskId) :
    ∃ card ∈ cards, card.taskId = id ∧
      ∃ merged, (replacedBoard order board session cards nowMs).tasks[id]? = some merged ∧
        SameSource merged card :=
  mergedBoard_of_mem _ _ hid

theorem replacedBoard_of_foreign {session nowMs : Nat} {cards : List TaskCard} {id : String}
    {task : TaskCard} (hid : id ∉ cards.map TaskCard.taskId)
    (htask : board.tasks[id]? = some task) (hforeign : task.ownerSession ≠ session) :
    (replacedBoard order board session cards nowMs).tasks[id]? = some task := by
  rw [replacedBoard, mergedBoard_of_not_mem hid, foldl_removeTask_tasks, if_neg, htask]
  rw [mem_dropped]
  rintro ⟨⟨task', htask', hown⟩, -⟩
  rw [htask] at htask'
  obtain rfl := Option.some.inj htask'
  exact hforeign hown

theorem of_replacedBoard {session nowMs : Nat} {cards : List TaskCard} {id : String}
    {task : TaskCard}
    (h : (replacedBoard order board session cards nowMs).tasks[id]? = some task) :
    (id ∉ cards.map TaskCard.taskId ∧ board.tasks[id]? = some task ∧
        task.ownerSession ≠ session) ∨
      ∃ card ∈ cards, card.taskId = id ∧ SameSource task card := by
  by_cases hid : id ∈ cards.map TaskCard.taskId
  · obtain ⟨card, hmem, hcard, merged, hget, hsame⟩ := replacedBoard_of_mem order board
      session nowMs hid
    rw [hget] at h
    obtain rfl := Option.some.inj h
    exact Or.inr ⟨card, hmem, hcard, hsame⟩
  · rw [replacedBoard, mergedBoard_of_not_mem hid, foldl_removeTask_tasks] at h
    split at h
    · cases h
    · rename_i hkept
      refine Or.inl ⟨hid, h, fun hsession => hkept (mem_dropped.mpr ?_)⟩
      exact ⟨⟨task, h, hsession⟩, hid⟩

theorem replacedBoard_assignments {session nowMs : Nat} {cards : List TaskCard}
    {id : String} {assignment : TaskAssignment} :
    (replacedBoard order board session cards nowMs).assignments[id]? = some assignment ↔
      board.assignments[id]? = some assignment ∧ ¬board.Dropped session cards id := by
  obtain ⟨_, _, hframe⟩ := mergedBoard_frame
    ((board.taskIdsWhere order fun id task => task.ownerSession == session &&
      !(cards.map TaskCard.taskId).contains id).foldl removeTask board) cards nowMs
  rw [replacedBoard, hframe]
  rw [foldl_removeTask_assignments]
  by_cases hdropped : board.Dropped session cards id
  · rw [if_pos (mem_dropped.mpr hdropped)]
    simp [hdropped]
  · rw [if_neg fun hmem => hdropped (mem_dropped.mp hmem)]
    simp [hdropped]

/-- A replacement leaves devices, owners and memory alone. -/
theorem replacedBoard_frame (order : WalkOrder) (board : TaskBoard) (session : Nat)
    (cards : List TaskCard) (nowMs : Nat) :
    ∃ tasks assignments reviewedCompletions,
      replacedBoard order board session cards nowMs =
        { board with tasks, assignments, reviewedCompletions, nowMs } := by
  obtain ⟨tasks, reviewed, hframe⟩ := mergedBoard_frame
    ((board.taskIdsWhere order fun id task => task.ownerSession == session &&
      !(cards.map TaskCard.taskId).contains id).foldl removeTask board) cards nowMs
  rw [replacedBoard, hframe, foldl_removeTask]
  exact ⟨_, _, _, rfl⟩

theorem replacedBoard_wellFormed (hwf : board.WellFormed) (session : Nat)
    (cards : List TaskCard) (nowMs : Nat) :
    (replacedBoard order board session cards nowMs).WellFormed :=
  mergedBoard_wellFormed (foldl_removeTask_wellFormed hwf _) cards nowMs

end TaskBoard
end Tasks
end MicroEmu
