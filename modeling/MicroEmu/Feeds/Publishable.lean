import MicroEmu.Feeds.ClaudeState
import MicroEmu.Feeds.HermesState
import MicroEmu.Tasks.Publish
import Mathlib.Data.List.Forall2

/-!
# Feeds and the board's parser

The board reads every task a feed writes without an error, but for its id: an id may be
too long, and two records may share one.  So a snapshot is accepted exactly if the ids of
its records are short and distinct, and for the Hermes feed if the dates it takes from the
transcripts fit a JSON integer.
-/

namespace MicroEmu
namespace Feeds

open Json (Value)
open Routing (AgentId)
open Tasks (TaskBoard TaskCard TaskState WalkOrder parseTask parseTask_ok)
open Library (bind_eq_ok pure_eq_ok)

/-! ## Tasks as the feeds write them -/

/-- A timestamp the board reads: none, `null`, or an integer. -/
def IsTimestamp (field : Option Value) : Prop :=
  field = none ∨ field = some .null ∨ ∃ ms, field = some (.ofNat ms)

/-- An entry as the feeds write it. -/
structure FeedTask (item : Value) (taskId : String) : Prop where
  object : item.asObject.isSome = true
  taskId : item.get? "task_id" = some (.string taskId)
  state : ∃ text state, item.get? "state" = some (.string text) ∧
    TaskState.parse (some text) = .ok state
  priority : ∃ priority ≤ 100, item.get? "priority" = some (.ofNat priority)
  startedAt : IsTimestamp (item.get? "started_at_ms")
  finishedAt : IsTimestamp (item.get? "finished_at_ms")
  /-- No feed writes any of these fields. -/
  absent : ∀ key ∈ ["legacy_key", "interaction", "progress", "color", "c", "brightness", "b"],
    item.get? key = none

theorem IsTimestamp.parse {field : Option Value} (h : IsTimestamp field) :
    ∃ ms, Tasks.parseTimestampMs field = .ok ms := by
  rcases h with rfl | rfl | ⟨ms, rfl⟩
  · exact ⟨none, rfl⟩
  · exact ⟨none, rfl⟩
  · exact ⟨some (UInt64.ofNat ms).toNat, rfl⟩

theorem FeedTask.identity {item : Value} {taskId : String} (h : FeedTask item taskId) :
    Tasks.taskIdentity item none = .ok (taskId, none) := by
  have hkey : item.get? "legacy_key" = none := h.absent _ (by simp)
  simp only [Tasks.taskIdentity, h.taskId, hkey, Option.some_or, Option.bind_some, Value.asStr,
    Option.bind_none]

theorem checkTaskId_eq_ok_iff {taskId : String} :
    Tasks.checkTaskId taskId = .ok () ↔ taskId ≠ "" ∧ Json.charCount taskId ≤ 160 := by
  unfold Tasks.checkTaskId
  split
  · rename_i hbad
    refine iff_of_false (fun h => by cases h) ?_
    rintro ⟨hnonempty, hlength⟩
    exact hbad.elim hnonempty (Nat.not_lt.mpr hlength)
  · rename_i hgood
    rw [not_or, Nat.not_lt] at hgood
    exact iff_of_true rfl hgood

/-- The board reads an entry of a feed exactly if its id has a good length. -/
theorem FeedTask.parse_iff {item : Value} {taskId : String} (h : FeedTask item taskId)
    (session nowMs : Nat) (agent : AgentId) :
    (∃ card, parseTask session agent item nowMs none = .ok card) ↔
      taskId ≠ "" ∧ Json.charCount taskId ≤ 160 := by
  rw [← checkTaskId_eq_ok_iff]
  obtain ⟨fields, hobject⟩ := Option.isSome_iff_exists.mp h.object
  have hinteraction : item.get? "interaction" = none := h.absent _ (by simp)
  have hprogress : Tasks.parseProgress item = .ok none := by
    have hfield : item.get? "progress" = none := h.absent _ (by simp)
    simp only [Tasks.parseProgress, hfield]
  have hcolor : Tasks.colorField item = none := by
    have hlong : item.get? "color" = none := h.absent _ (by simp)
    have hshort : item.get? "c" = none := h.absent _ (by simp)
    simp only [Tasks.colorField, hlong, hshort, Option.or_none]
  have hbrightness : (item.get? "brightness").or (item.get? "b") = none := by
    have hlong : item.get? "brightness" = none := h.absent _ (by simp)
    have hshort : item.get? "b" = none := h.absent _ (by simp)
    simp only [hlong, hshort, Option.or_none]
  obtain ⟨text, state, htext, hparse⟩ := h.state
  have hstate : Tasks.cardState item none = .ok state := by
    simp only [Tasks.cardState, Tasks.hidColorState, htext, Option.some_or, Option.bind_some,
      Value.asStr, hparse]
  obtain ⟨priority, hle, hfield⟩ := h.priority
  have hpriority : Tasks.parsePriority item = .ok priority := by
    have hsmall : (UInt64.ofNat priority).toNat = priority :=
      UInt64.toNat_ofNat_of_lt' (Nat.lt_of_le_of_lt hle (by decide))
    simp only [Tasks.parsePriority, hfield, Option.bind_some, Value.ofNat, Value.asU64,
      Json.Number.asU64, hsmall, Option.getD_some, Nat.not_lt.mpr hle, if_false]
  obtain ⟨started, hstarted⟩ := h.startedAt.parse
  obtain ⟨finished, hfinished⟩ := h.finishedAt.parse
  -- every check but the one on the id has its result
  cases hid : Tasks.checkTaskId taskId with
  | error message =>
      refine iff_of_false ?_ (fun h => by cases h)
      rintro ⟨card, hcard⟩
      simp only [parseTask, hobject, h.identity, hid, bind, Except.bind] at hcard
      cases hcard
  | ok _ =>
      refine iff_of_true ?_ rfl
      simp only [parseTask, hobject, h.identity, hid, bind, Except.bind,
        Option.filter_none, hinteraction, Tasks.parseInteraction, hstate, hpriority, hprogress,
        hcolor, Tasks.parseColor, hbrightness, Tasks.parseBrightness, hstarted, hfinished]
      exact ⟨_, rfl⟩

theorem FeedTask.taskId_eq {item : Value} {taskId : String} (h : FeedTask item taskId)
    {session nowMs : Nat} {agent : AgentId} {card : TaskCard}
    (hcard : parseTask session agent item nowMs none = .ok card) : card.taskId = taskId := by
  obtain ⟨_, hidentity, -⟩ := (parseTask_ok hcard).identity
  rw [h.identity] at hidentity
  exact (Prod.mk.inj (Except.ok.inj hidentity)).1.symm

/-! ## Snapshots -/

/-- The ids of a list of entries are good: short, not empty, and no two the same. -/
def GoodIds (ids : List String) : Prop :=
  ids.Nodup ∧ ∀ id ∈ ids, id ≠ "" ∧ Json.charCount id ≤ 160

/-- The board reads the entries of a feed exactly if their ids are good, where it lets the
session write them. -/
theorem parseReplacement_iff {board : TaskBoard} {session nowMs : Nat} {agent : AgentId}
    {items : List Value} {ids : List String} (h : List.Forall₂ FeedTask items ids)
    (howner : ∀ id ∈ ids, board.checkOwner session agent id = .ok ()) (seen : List String) :
    (∃ cards, board.parseReplacement session agent nowMs items seen = .ok cards) ↔
      GoodIds ids ∧ ∀ id ∈ ids, id ∉ seen := by
  induction h generalizing seen with
  | nil => simp [TaskBoard.parseReplacement, GoodIds]
  | @cons item id items ids hitem _ ih =>
      obtain ⟨howns, hothers⟩ := List.forall_mem_cons.mp howner
      have hparse := hitem.parse_iff session nowMs agent
      constructor
      · rintro ⟨cards, hcards⟩
        obtain ⟨card, rest, -, hcard, -, hseen, hrest⟩ := TaskBoard.parseReplacement_cons hcards
        obtain rfl := hitem.taskId_eq hcard
        obtain ⟨⟨hnodup, hgood⟩, hfresh⟩ := (ih hothers (card.taskId :: seen)).mp ⟨rest, hrest⟩
        refine ⟨⟨List.nodup_cons.mpr ⟨fun hmem => ?_, hnodup⟩, ?_⟩, ?_⟩
        · exact hfresh _ hmem List.mem_cons_self
        · exact List.forall_mem_cons.mpr ⟨hparse.mp ⟨card, hcard⟩, hgood⟩
        · exact List.forall_mem_cons.mpr
            ⟨hseen, fun other hother hmem => hfresh other hother (List.mem_cons_of_mem _ hmem)⟩
      · rintro ⟨⟨hnodup, hgood⟩, hfresh⟩
        obtain ⟨hnotin, hnodup⟩ := List.nodup_cons.mp hnodup
        obtain ⟨hid, hgood⟩ := List.forall_mem_cons.mp hgood
        obtain ⟨hunseen, hfresh⟩ := List.forall_mem_cons.mp hfresh
        obtain ⟨card, hcard⟩ := hparse.mpr hid
        have hsame := hitem.taskId_eq hcard
        obtain ⟨rest, hrest⟩ := (ih hothers (id :: seen)).mpr ⟨⟨hnodup, hgood⟩,
          fun other hother hmem => (List.mem_cons.mp hmem).elim
            (fun heq => hnotin (heq ▸ hother)) (hfresh other hother)⟩
        refine ⟨card :: rest, ?_⟩
        rw [TaskBoard.parseReplacement, hcard]
        simp only [bind, Except.bind, hsame, howns, hunseen, if_false, hrest]
        rfl

/-- The ids of the entries of a snapshot. -/
def taskIds (snapshot : Value) : List String :=
  (((snapshot.get? "tasks").bind Value.asArray).getD []).filterMap (strField · "task_id")

/-- `publish_tasks` accepts the snapshot on every board where no other owner holds one of
its ids. -/
def IsPublishable (snapshot : Value) : Prop :=
  ∀ (order : WalkOrder) (board : TaskBoard) (session : Nat) (agent : AgentId) (nowMs : Nat),
    (∀ id ∈ taskIds snapshot, ∀ card, board.tasks[id]? = some card →
      card.ownerSession = session) →
    ∃ result, (board.publishTasks order session agent snapshot nowMs).1 = .ok result

/-- The snapshot that lists some entries. -/
def snapshotOf (items : List Value) : Value := .object [("tasks", .array items)]

theorem taskIds_snapshotOf {items : List Value} {ids : List String}
    (h : List.Forall₂ FeedTask items ids) : taskIds (snapshotOf items) = ids := by
  show items.filterMap (strField · "task_id") = ids
  induction h with
  | nil => rfl
  | cons hitem _ ih =>
      rw [List.filterMap_cons_some, ih]
      rw [strField, hitem.taskId]
      rfl

theorem publishTasks_isOk_iff {order : WalkOrder} {board : TaskBoard} {session nowMs : Nat}
    {agent : AgentId} {items : List Value} :
    (∃ result, (board.publishTasks order session agent (snapshotOf items) nowMs).1 =
        .ok result) ↔
      ∃ cards, board.parseReplacement session agent nowMs items [] = .ok cards := by
  have hcards : board.publishedCards session agent (snapshotOf items) nowMs =
      board.parseReplacement session agent nowMs items [] := rfl
  unfold TaskBoard.publishTasks
  rw [hcards]
  cases board.parseReplacement session agent nowMs items [] with
  | error message => simp
  | ok cards => simp

/-- A snapshot of a feed is publishable exactly if its ids are good. -/
theorem isPublishable_iff {items : List Value} {ids : List String}
    (h : List.Forall₂ FeedTask items ids) : IsPublishable (snapshotOf items) ↔ GoodIds ids := by
  constructor
  · intro hpublishable
    -- on an empty board every id is free
    have hempty := hpublishable .ascending {} 0 .claude 0 fun id _ card hcard => by
      rw [Std.ExtTreeMap.getElem?_empty] at hcard
      cases hcard
    exact ((parseReplacement_iff h (fun _ _ => rfl) []).mp (publishTasks_isOk_iff.mp hempty)).1
  · intro hgood order board session agent nowMs hfree
    rw [taskIds_snapshotOf h] at hfree
    refine publishTasks_isOk_iff.mpr ((parseReplacement_iff h ?_ []).mpr ⟨hgood, ?_⟩)
    · exact fun id hid => TaskBoard.checkOwner_eq_ok_iff.mpr
        fun card hcard => .inl (hfree id hid card hcard)
    · exact fun id _ => List.not_mem_nil

/-- Ids behind a label are good exactly if they are distinct and leave room for it. -/
theorem goodIds_map_append {label : String} (hlabel : label ≠ "") {ids : List String} :
    GoodIds (ids.map (label ++ ·)) ↔
      ids.Nodup ∧ ∀ id ∈ ids, Json.charCount label + Json.charCount id ≤ 160 := by
  have hinjective : Function.Injective fun id : String => label ++ id :=
    fun a b hab => by simpa using hab
  rw [GoodIds, List.nodup_map_iff hinjective]
  simp only [List.forall_mem_map, Json.charCount, String.toList_append, List.length_append]
  refine and_congr_right fun _ => forall₂_congr fun id _ => ?_
  refine and_iff_right fun hempty => hlabel ?_
  exact (String.append_eq_empty_iff.mp hempty).1

/-! ## The Claude feed -/

namespace ClaudeState

/-- The id of a record's card, without its label. -/
def recordId (record : Value) : Option String :=
  (namedField record "sessionId").map (stableId record)

/-- The ids of the records a snapshot lists. -/
def listedIds (home : Home) (maxTasks : Nat) : List String :=
  (listedRecords home (home.sessions.getD []) maxTasks).filterMap recordId

theorem parse_asStr (state : SessionState) :
    ∃ parsed, TaskState.parse (some state.asStr) = .ok parsed := by
  cases state <;> exact ⟨_, rfl⟩

/-- A record's task is an entry under the record's id. -/
theorem feedTask_buildTask {record task : Value} {model : Option String}
    (h : buildTask record model = some task) :
    ∃ id, recordId record = some id ∧ FeedTask task ("claude:" ++ id) := by
  obtain ⟨sessionId, hsession, rfl⟩ := Option.map_eq_some_iff.mp h
  refine ⟨stableId record sessionId, by rw [recordId, hsession]; rfl, ?_⟩
  have hpriority : (if (sessionState record).isActive then taskPriorityActive
      else taskPriorityIdle) ≤ 100 := by split <;> decide
  obtain ⟨state, hstate⟩ := parse_asStr (sessionState record)
  simp only []
  split
  · refine ⟨rfl, rfl, ⟨_, state, rfl, hstate⟩, ⟨_, hpriority, rfl⟩, .inr (.inr ⟨_, rfl⟩),
      .inr (.inl rfl), ?_⟩
    simp [Value.get?, Value.asObject, List.lookup_cons]
  · refine ⟨rfl, rfl, ⟨_, state, rfl, hstate⟩, ⟨_, hpriority, rfl⟩, .inl rfl, .inl rfl, ?_⟩
    simp [Value.get?, Value.asObject, List.lookup_cons]

theorem buildTask_eq_none {record : Value} {model : Option String}
    (h : buildTask record model = none) : recordId record = none := by
  rw [recordId, Option.map_eq_none_iff]
  exact Option.map_eq_none_iff.mp h

theorem feedTasks_filterMap (home : Home) (records : List Value) :
    List.Forall₂ FeedTask (records.filterMap (recordTask home))
      ((records.filterMap recordId).map ("claude:" ++ ·)) := by
  induction records with
  | nil => exact .nil
  | cons record records ih =>
      cases htask : recordTask home record with
      | none =>
          rw [List.filterMap_cons_none htask, List.filterMap_cons_none (buildTask_eq_none htask)]
          exact ih
      | some task =>
          obtain ⟨id, hid, hfeed⟩ := feedTask_buildTask htask
          rw [List.filterMap_cons_some htask, List.filterMap_cons_some hid, List.map_cons]
          exact .cons hfeed ih

/-- The snapshot of Claude's records is publishable exactly if the ids of the listed
records are distinct and at most 153 characters long. -/
theorem readClaudeSnapshotFrom_publishable_iff (home : Home) (maxTasks : Nat) :
    (∀ snapshot ∈ readClaudeSnapshotFrom home maxTasks, IsPublishable snapshot) ↔
      (listedIds home maxTasks).Nodup ∧
        ∀ id ∈ listedIds home maxTasks, Json.charCount id ≤ 153 := by
  have hroom (id : String) : Json.charCount "claude:" + Json.charCount id ≤ 160 ↔
      Json.charCount id ≤ 153 := by
    have hlabel : Json.charCount "claude:" = 7 := rfl
    omega
  simp only [readClaudeSnapshotFrom, listedIds]
  cases home.sessions with
  | none => simp [listedRecords]
  | some files =>
      simp only [Option.map_some, Option.mem_def, Option.some.injEq, forall_eq', Option.getD_some]
      have hfeed := feedTasks_filterMap home (listedRecords home files maxTasks)
      have hsnapshot : (if maxTasks = 0 then (.object [("tasks", .array [])] : Value)
          else .object [("tasks",
            .array ((listedRecords home files maxTasks).filterMap (recordTask home)))]) =
          snapshotOf ((listedRecords home files maxTasks).filterMap (recordTask home)) := by
        split
        · rename_i hzero
          rw [listedRecords, hzero]
          rfl
        · rfl
      rw [hsnapshot, isPublishable_iff hfeed, goodIds_map_append (by decide)]
      simp only [hroom]

end ClaudeState

/-! ## The Hermes feed -/

namespace HermesState

/-- The id of a session the board shows, without its label. -/
def visibleId (session : Value) : Option String :=
  if isHidden session then none else strField session "id"

/-- The sessions a snapshot lists. -/
def listedSessions (responses : List (Option Value)) (maxTasks : Nat) : List Value :=
  ((((collectResponses responses none ∅).1.getD []).insertionSort (sessionLe · ·)).filter
    fun session => (visibleId session).isSome).take maxTasks

/-- The ids of the sessions a snapshot lists. -/
def listedIds (responses : List (Option Value)) (maxTasks : Nat) : List String :=
  (listedSessions responses maxTasks).filterMap visibleId

/-- The dates a session's task takes from its transcript fit a JSON integer. -/
def DatesFit (details : Transcripts) (session : Value) : Prop :=
  ∀ messages, (strField session "id").bind (details[·]?) = some messages →
    ∀ dates, cachedTurnDates session messages = some dates →
      secondsToMs dates.1 < 2 ^ 64 ∧
        (sessionStateText session = "completed" → ∀ finished, dates.2 = some finished →
          secondsToMs finished < 2 ^ 64)

theorem jsonMs_isOk_iff {ms : Nat} : (∃ value, jsonMs ms = .ok value) ↔ ms < 2 ^ 64 := by
  unfold jsonMs
  split
  · rename_i hfits
    exact iff_of_true ⟨_, rfl⟩ hfits
  · rename_i hlarge
    exact iff_of_false (by rintro ⟨_, h⟩; cases h) hlarge

theorem jsonMs_of_lt {ms : Nat} (h : ms < 2 ^ 64) : jsonMs ms = .ok (.ofNat ms) := if_pos h

theorem parse_sessionStateText (session : Value) :
    ∃ state, TaskState.parse (some (sessionStateText session)) = .ok state := by
  unfold sessionStateText
  simp only []
  split
  · exact ⟨.waiting, rfl⟩
  · split
    · exact ⟨.running, rfl⟩
    · split
      · exact ⟨.error, rfl⟩
      · exact ⟨.completed, rfl⟩

theorem buildCachedTask_isSome (fileName : String → Option String) (session : Value) :
    (buildCachedTask fileName session).isSome = (visibleId session).isSome := by
  unfold buildCachedTask visibleId
  cases strField session "id" with
  | none => simp
  | some id =>
      simp only []
      split <;> rfl

/-- The object of a task, by what its dates may change. -/
def taskObject (id state : String) (title project path model context : Value) (priority : Nat)
    (startedAt finishedAt : Value) : Value :=
  .object [("task_id", .string ("hermes:" ++ id)), ("title", title), ("project", project),
    ("workspace_path", path), ("model", model), ("state", .string state),
    ("timing_authoritative", .bool true), ("started_at_ms", startedAt),
    ("finished_at_ms", finishedAt), ("priority", .ofNat priority), ("context", context)]

section

variable {id state : String} {title project path model context startedAt finishedAt : Value}
  {priority : Nat}

theorem setField_startedAt (field : Value) :
    setField (taskObject id state title project path model context priority startedAt
        finishedAt) "started_at_ms" field =
      taskObject id state title project path model context priority field finishedAt := by
  simp [setField, taskObject, Json.insertField]

theorem setField_finishedAt (field : Value) :
    setField (taskObject id state title project path model context priority startedAt
        finishedAt) "finished_at_ms" field =
      taskObject id state title project path model context priority startedAt field := by
  simp [setField, taskObject, Json.insertField]

theorem strField_state :
    strField (taskObject id state title project path model context priority startedAt
      finishedAt) "state" = some state := rfl

/-- Whatever its dates, the object is an entry under its id. -/
theorem feedTask_taskObject (hpriority : priority ≤ 100)
    (hstate : ∃ parsed, TaskState.parse (some state) = .ok parsed)
    (hstarted : IsTimestamp (some startedAt)) (hfinished : IsTimestamp (some finishedAt)) :
    FeedTask (taskObject id state title project path model context priority startedAt
      finishedAt) ("hermes:" ++ id) := by
  obtain ⟨parsed, hparsed⟩ := hstate
  refine ⟨rfl, rfl, ⟨state, parsed, rfl, hparsed⟩, ⟨priority, hpriority, rfl⟩, hstarted,
    hfinished, ?_⟩
  simp [taskObject, Value.get?, Value.asObject, List.lookup_cons]

end

/-- What a built task carries: its id, its state, and no dates. -/
theorem buildCachedTask_eq {fileName : String → Option String} {session task : Value}
    (h : buildCachedTask fileName session = some task) :
    ∃ id title project path model context priority, visibleId session = some id ∧
      priority ≤ 100 ∧ task = taskObject id (sessionStateText session) title project path model
        context priority .null .null := by
  unfold buildCachedTask at h
  cases hid : strField session "id" with
  | none =>
      rw [hid] at h
      cases h
  | some id =>
      simp only [hid] at h
      split at h
      · cases h
      · rename_i hshown
        obtain rfl := Option.some.inj h
        refine ⟨id, _, _, _, _, _, _, ?_, ?_, rfl⟩
        · rw [visibleId, if_neg hshown, hid]
        · split <;> decide

theorem isTimestamp_jsonMs {ms : Nat} {field : Value} (h : jsonMs ms = .ok field) :
    IsTimestamp (some field) := by
  unfold jsonMs at h
  split at h
  · obtain rfl := Except.ok.inj h
    exact .inr (.inr ⟨ms, rfl⟩)
  · cases h

/-- A dated task is an entry under the session's id. -/
theorem feedTask_datedTask {fileName : String → Option String} {session task dated : Value}
    {details : Transcripts} (h : buildCachedTask fileName session = some task)
    (hdated : datedTask task session details = .ok dated) :
    ∃ id, visibleId session = some id ∧ FeedTask dated ("hermes:" ++ id) := by
  obtain ⟨id, title, project, path, model, context, priority, hid, hpriority, rfl⟩ :=
    buildCachedTask_eq h
  refine ⟨id, hid, ?_⟩
  have hstate := parse_sessionStateText session
  have hnull : IsTimestamp (some .null) := .inr (.inl rfl)
  unfold datedTask at hdated
  split at hdated
  · obtain rfl := Except.ok.inj hdated
    exact feedTask_taskObject hpriority hstate hnull hnull
  · unfold applyCachedTurnTiming at hdated
    split at hdated
    · obtain rfl := Except.ok.inj hdated
      exact feedTask_taskObject hpriority hstate hnull hnull
    · obtain ⟨startedAt, hstarted, hdated⟩ := bind_eq_ok.mp hdated
      simp only [setField_startedAt, strField_state] at hdated
      have hstartedAt := isTimestamp_jsonMs hstarted
      split at hdated
      · split at hdated
        · obtain ⟨finishedAt, hfinished, hdated⟩ := bind_eq_ok.mp hdated
          obtain rfl := pure_eq_ok.mp hdated
          rw [setField_finishedAt]
          exact feedTask_taskObject hpriority hstate hstartedAt (isTimestamp_jsonMs hfinished)
        · obtain rfl := pure_eq_ok.mp hdated
          exact feedTask_taskObject hpriority hstate hstartedAt hnull
      · obtain rfl := pure_eq_ok.mp hdated
        exact feedTask_taskObject hpriority hstate hstartedAt hnull

/-- A task is dated without a panic exactly if its dates fit. -/
theorem datedTask_isOk_iff {fileName : String → Option String} {session task : Value}
    {details : Transcripts} (h : buildCachedTask fileName session = some task) :
    (∃ dated, datedTask task session details = .ok dated) ↔ DatesFit details session := by
  obtain ⟨id, title, project, path, model, context, priority, -, -, rfl⟩ := buildCachedTask_eq h
  unfold datedTask DatesFit
  cases htranscript : (strField session "id").bind (details[·]?) with
  | none => simp
  | some messages =>
      simp only [Option.some.injEq, forall_eq', applyCachedTurnTiming]
      cases hdates : cachedTurnDates session messages with
      | none => simp
      | some dates =>
          obtain ⟨prompt, finished⟩ := dates
          simp only [Option.some.injEq, forall_eq']
          by_cases hprompt : secondsToMs prompt < 2 ^ 64
          · rw [jsonMs_of_lt hprompt, and_iff_right hprompt]
            simp only [bind, Except.bind, setField_startedAt, strField_state, Option.some.injEq]
            cases finished with
            | none => simp [pure, Except.pure]
            | some finished =>
                by_cases hstate : sessionStateText session = "completed"
                · simp only [hstate, if_true, forall_const, Option.some.injEq, forall_eq']
                  rw [← jsonMs_isOk_iff]
                  cases jsonMs (secondsToMs finished) with
                  | error message => simp
                  | ok value => simp [pure, Except.pure]
                · simp [hstate, pure, Except.pure]
          · refine iff_of_false ?_ (fun hfits => hprompt hfits.1)
            rintro ⟨dated, hdated⟩
            obtain ⟨value, hvalue, -⟩ := bind_eq_ok.mp hdated
            exact hprompt (jsonMs_isOk_iff.mp ⟨value, hvalue⟩)

/-- The entries of a snapshot, under the ids of the listed sessions. -/
theorem feedTasks_cachedTasks {fileName : String → Option String} {details : Transcripts}
    {count : Nat} {sessions tasks : List Value}
    (h : cachedTasks fileName details count sessions = .ok tasks) :
    List.Forall₂ FeedTask tasks
      ((((sessions.filter fun session => (visibleId session).isSome).take count).filterMap
        visibleId).map ("hermes:" ++ ·)) := by
  induction sessions generalizing count tasks with
  | nil =>
      obtain rfl : tasks = [] := by cases count <;> cases h <;> rfl
      simp
  | cons session sessions ih =>
      cases count with
      | zero =>
          cases h
          simp
      | succ count =>
          rw [cachedTasks] at h
          have hvisible := buildCachedTask_isSome fileName session
          cases htask : buildCachedTask fileName session with
          | none =>
              rw [htask] at h hvisible
              rw [List.filter_cons_of_neg (by rw [← hvisible]; exact Bool.false_ne_true)]
              exact ih h
          | some task =>
              rw [htask] at h hvisible
              obtain ⟨dated, hdated, h⟩ := bind_eq_ok.mp h
              obtain ⟨rest, hrest, h⟩ := bind_eq_ok.mp h
              obtain rfl := pure_eq_ok.mp h
              obtain ⟨id, hid, hfeed⟩ := feedTask_datedTask htask hdated
              rw [List.filter_cons_of_pos (by rw [← hvisible]; rfl), List.take_succ_cons,
                List.filterMap_cons_some hid, List.map_cons]
              exact .cons hfeed (ih hrest)

/-- A snapshot is built without a panic exactly if the dates of every listed session
fit. -/
theorem cachedTasks_isOk_iff (fileName : String → Option String) (details : Transcripts)
    (count : Nat) (sessions : List Value) :
    (∃ tasks, cachedTasks fileName details count sessions = .ok tasks) ↔
      ∀ session ∈ (sessions.filter fun session => (visibleId session).isSome).take count,
        DatesFit details session := by
  induction sessions generalizing count with
  | nil => cases count <;> simp [cachedTasks]
  | cons session sessions ih =>
      cases count with
      | zero => simp [cachedTasks]
      | succ count =>
          rw [cachedTasks]
          have hvisible := buildCachedTask_isSome fileName session
          cases htask : buildCachedTask fileName session with
          | none =>
              rw [htask] at hvisible
              rw [List.filter_cons_of_neg (by rw [← hvisible]; exact Bool.false_ne_true)]
              exact ih (count + 1)
          | some task =>
              rw [htask] at hvisible
              rw [List.filter_cons_of_pos (by rw [← hvisible]; rfl), List.take_succ_cons,
                List.forall_mem_cons, ← datedTask_isOk_iff htask, ← ih count]
              constructor
              · rintro ⟨tasks, h⟩
                obtain ⟨dated, hdated, h⟩ := bind_eq_ok.mp h
                obtain ⟨rest, hrest, -⟩ := bind_eq_ok.mp h
                exact ⟨⟨dated, hdated⟩, rest, hrest⟩
              · rintro ⟨⟨dated, hdated⟩, rest, hrest⟩
                refine ⟨dated :: rest, ?_⟩
                simp only [hdated, hrest, bind, Except.bind]
                rfl

/-- The snapshot of a cached listing is built and publishable exactly if the ids of the
listed sessions are distinct and at most 153 characters long, and their dates fit. -/
theorem parseRemoteCacheCandidates_publishable_iff (fileName : String → Option String)
    (responses : List (Option Value)) (maxTasks : Nat) :
    (∃ found, parseRemoteCacheCandidates fileName responses maxTasks = .ok found ∧
        ∀ snapshot ∈ found, IsPublishable snapshot) ↔
      ((listedIds responses maxTasks).Nodup ∧
        ∀ id ∈ listedIds responses maxTasks, Json.charCount id ≤ 153) ∧
      ∀ session ∈ listedSessions responses maxTasks,
        DatesFit (collectResponses responses none ∅).2 session := by
  have hroom (id : String) : Json.charCount "hermes:" + Json.charCount id ≤ 160 ↔
      Json.charCount id ≤ 153 := by
    have hlabel : Json.charCount "hermes:" = 7 := rfl
    omega
  unfold parseRemoteCacheCandidates listedIds listedSessions
  cases hlisting : (collectResponses responses none ∅).1 with
  | none => simp [hlisting]
  | some sessions =>
      have hbuilt := cachedTasks_isOk_iff fileName (collectResponses responses none ∅).2 maxTasks
        (sessions.insertionSort (sessionLe · ·))
      simp only [hlisting, Option.getD_some]
      rw [← hbuilt]
      constructor
      · rintro ⟨found, hfound, hpublishable⟩
        obtain ⟨tasks, htasks, hfound⟩ := bind_eq_ok.mp hfound
        obtain rfl := pure_eq_ok.mp hfound
        have hgood := (isPublishable_iff (feedTasks_cachedTasks htasks)).mp (hpublishable _ rfl)
        rw [goodIds_map_append (by decide)] at hgood
        simp only [hroom] at hgood
        exact ⟨hgood, tasks, htasks⟩
      · rintro ⟨hids, tasks, htasks⟩
        refine ⟨some (snapshotOf tasks), ?_, ?_⟩
        · simp only [htasks, bind, Except.bind]
          rfl
        · rintro snapshot ⟨⟩
          refine (isPublishable_iff (feedTasks_cachedTasks htasks)).mpr ?_
          rw [goodIds_map_append (by decide)]
          simp only [hroom]
          exact hids

end HermesState

/-! ## Both feeds -/

/-- The snapshots of both feeds are built and publishable exactly if the ids of the records
they list are distinct and leave room for the label, and the dates of the transcripts
fit. -/
theorem feeds_publishable_iff (home : ClaudeState.Home) (fileName : String → Option String)
    (responses : List (Option Value)) (maxTasks : Nat) :
    ((∀ snapshot ∈ ClaudeState.readClaudeSnapshotFrom home maxTasks, IsPublishable snapshot) ↔
      (ClaudeState.listedIds home maxTasks).Nodup ∧
        ∀ id ∈ ClaudeState.listedIds home maxTasks, Json.charCount id ≤ 153) ∧
    ((∃ found, HermesState.parseRemoteCacheCandidates fileName responses maxTasks = .ok found ∧
        ∀ snapshot ∈ found, IsPublishable snapshot) ↔
      ((HermesState.listedIds responses maxTasks).Nodup ∧
        ∀ id ∈ HermesState.listedIds responses maxTasks, Json.charCount id ≤ 153) ∧
      ∀ session ∈ HermesState.listedSessions responses maxTasks,
        HermesState.DatesFit (HermesState.collectResponses responses none ∅).2 session) :=
  ⟨ClaudeState.readClaudeSnapshotFrom_publishable_iff home maxTasks,
    HermesState.parseRemoteCacheCandidates_publishable_iff fileName responses maxTasks⟩

/-- The record of a session of the desktop app. -/
def desktopRecord (pid : Nat) (sessionId : String) : ClaudeState.RecordFile where
  extension := some "json"
  isFile := true
  length := 200
  record := some (.object [("pid", .ofNat pid), ("sessionId", .string sessionId),
    ("kind", .string "interactive"), ("hostSessionId", .string "local_1"),
    ("status", .string "busy")])

/-- Two live records of one host session. -/
def sharedHost : ClaudeState.Home where
  sessions := some [desktopRecord 7 "a", desktopRecord 8 "b"]
  transcriptTail _ := none
  fromStr _ := none
  alive _ _ := true

/-- A cached listing that has one session twice. -/
def repeatedListing : List (Option Value) :=
  [some (.object [("sessions", .array [.object [("id", .string "a")],
    .object [("id", .string "a")]])])]

theorem not_publishable_repeated :
    (¬∀ snapshot ∈ ClaudeState.readClaudeSnapshotFrom sharedHost 6, IsPublishable snapshot) ∧
      ¬∃ found, HermesState.parseRemoteCacheCandidates some repeatedListing 6 = .ok found ∧
        ∀ snapshot ∈ found, IsPublishable snapshot := by
  have hclaude : ¬(ClaudeState.listedIds sharedHost 6).Nodup := by decide +kernel
  have hhermes : ¬(HermesState.listedIds repeatedListing 6).Nodup := by decide +kernel
  exact ⟨fun h => hclaude
      ((ClaudeState.readClaudeSnapshotFrom_publishable_iff sharedHost 6).mp h).1,
    fun h => hhermes
      ((HermesState.parseRemoteCacheCandidates_publishable_iff some repeatedListing 6).mp h).1.1⟩

end Feeds
end MicroEmu
