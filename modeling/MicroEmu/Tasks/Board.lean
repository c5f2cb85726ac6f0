import MicroEmu.Tasks.Reallocate

/-!
# The operations of the task board

Every method of `TaskBoard` that changes the board, and the readers the
controllers project it with.  A method that walks a hash map takes the walk
order; a fallible method returns its result beside the board it leaves.
-/

namespace MicroEmu
namespace Tasks

open Std
open Json (Value)
open Routing (AgentId)
open Library

/-- `is_selection_transition`. -/
def isSelectionTransition (previous observed : TaskState) : Bool :=
  previous != observed && (previous == .queued || previous.active) &&
    (observed == .queued || observed.active)

/-- A reviewed completion is shown as an idle card. -/
def acknowledgedCard (task : TaskCard) : TaskCard :=
  { task with
    state := .queued
    color := some TaskState.queued.displayColor
    startedAtMs := none
    finishedAtMs := none }

/-! ## Merging one card -/

/-- A run of the previous card that an active state continues. -/
def runInFlight (previous : TaskCard) : Bool :=
  previous.startedAtMs.isSome &&
    !(previous.state == .queued || previous.state == .completed)

/-- `started_at_ms` of a card without authoritative timings. -/
def mergedStart (previous task : TaskCard) (nowMs : Nat) : Option Nat :=
  match task.state with
  | .running | .thinking =>
      -- a card that has completed starts a new run
      if runInFlight previous then previous.startedAtMs else some nowMs
  | .completed => previous.startedAtMs
  -- kept from any previous state, a completion included
  | .waiting | .paused | .reconnecting => previous.startedAtMs
  | .queued | .error => none

/-- `finished_at_ms` of a card without authoritative timings. -/
def mergedFinish (previous task : TaskCard) (nowMs : Nat) : Option Nat :=
  if task.state = .completed then
    if previous.state = .completed then previous.finishedAtMs.or (some nowMs)
    else some nowMs
  else
    none

/-- The timer fallback of the merge, against the card it replaces. -/
def mergeTimers (previous : Option TaskCard) (task : TaskCard) (nowMs : Nat) :
    TaskCard :=
  match previous with
  | none => task
  | some previous =>
      if task.timingAuthoritative then task
      else { task with
        startedAtMs := mergedStart previous task nowMs
        finishedAtMs := mergedFinish previous task nowMs }

/-- A completion the user has already acknowledged is read as idle. -/
def reviewCard (reviewed : Bool) (task : TaskCard) : TaskCard :=
  if task.state = .completed ∧ reviewed then acknowledgedCard task else task

namespace TaskBoard

variable (order : WalkOrder) (board : TaskBoard)

/-! ## Publication -/

/-- One iteration of `merge_session_tasks`. -/
def mergeTask (nowMs : Nat) (board : TaskBoard) (task : TaskCard) : TaskBoard :=
  let reviewed := board.reviewedCompletions.contains task.taskId
  { board with
    tasks := board.tasks.insert task.taskId
      (mergeTimers board.tasks[task.taskId]? (reviewCard reviewed task) nowMs)
    reviewedCompletions :=
      if task.state = .completed then board.reviewedCompletions
      else board.reviewedCompletions.erase task.taskId }

def mergeSessionTasks (replacement : List TaskCard) (nowMs : Nat) : TaskBoard :=
  (replacement.foldl (mergeTask nowMs) { board with nowMs := nowMs }).reallocate order

/-- Remove a task with its assignment and its acknowledgement. -/
def removeTask (board : TaskBoard) (taskId : String) : TaskBoard :=
  { board with
    tasks := board.tasks.erase taskId
    assignments := board.assignments.erase taskId
    reviewedCompletions := board.reviewedCompletions.erase taskId }

/-- The ids of the cards that pass a test, in walk order. -/
def taskIdsWhere (test : String → TaskCard → Bool) : List String :=
  (order.entries board.tasks).filterMap fun entry =>
    if test entry.1 entry.2 then some entry.1 else none

def replaceSessionTasks (session : Nat) (replacement : List TaskCard) (nowMs : Nat) :
    TaskBoard :=
  let oldIds := board.taskIdsWhere order fun id task =>
    task.ownerSession == session && !(replacement.map TaskCard.taskId).contains id
  (oldIds.foldl removeTask board).mergeSessionTasks order replacement nowMs

/-- The slot of a task, as `assignments_for_session` reports it. -/
def assignmentValue (taskId : String) : Value :=
  match board.assignments[taskId]? with
  | none => .null
  | some assignment => .object [("device_id", .string assignment.slot.deviceId),
      ("slot", .ofNat assignment.slot.slot)]

/-- `assignments_for_session`, sorted by task id. -/
def assignmentsForSession (session : Nat) : Value :=
  let cards := ((order.values board.tasks).filter (·.ownerSession == session)).insertionSort
    fun a b => a.taskId ≤ b.taskId
  .object [("tasks", .array (cards.map fun task =>
    .object [("task_id", .string task.taskId),
      ("assignment", board.assignmentValue task.taskId)]))]

/-- The ownership check of `publish_tasks`. -/
def checkOwner (session : Nat) (agent : AgentId) (taskId : String) : Except String Unit :=
  match board.tasks[taskId]? with
  | none => .ok ()
  | some existing =>
      -- a leased card may be reclaimed by another session of its agent
      if existing.ownerSession ≠ session ∧
          ¬(existing.ownerAgent = agent ∧ existing.reconnectUntilMs.isSome) then
        .error ("task_id is already owned by session " ++
          toString existing.ownerSession ++ ": " ++ taskId)
      else
        .ok ()

/-- The validation loop of `publish_tasks`; `seen` holds the ids read so far. -/
def parseReplacement (session : Nat) (agent : AgentId) (nowMs : Nat) :
    List Value → List String → Except String (List TaskCard)
  | [], _ => .ok []
  | item :: items, seen => do
      let card ← parseTask session agent item nowMs none
      let _ ← board.checkOwner session agent card.taskId
      if card.taskId ∈ seen then
        .error ("duplicate task_id in publish_tasks: " ++ card.taskId)
      else do
        let rest ← parseReplacement session agent nowMs items (card.taskId :: seen)
        return card :: rest

/-- The cards `publish_tasks` reads from its arguments. -/
def publishedCards (session : Nat) (agent : AgentId) (value : Value) (nowMs : Nat) :
    Except String (List TaskCard) :=
  match (value.get? "tasks").bind Value.asArray with
  | none => .error "publish_tasks requires a tasks array"
  | some tasks => board.parseReplacement session agent nowMs tasks []

def publishTasks (session : Nat) (agent : AgentId) (value : Value) (nowMs : Nat) :
    Except String Value × TaskBoard :=
  match board.publishedCards session agent value nowMs with
  | .error message => (.error message, board)
  | .ok replacement =>
      let board := board.replaceSessionTasks order session replacement nowMs
      (.ok (board.assignmentsForSession order session), board)

/-- `reconcile_authoritative_selection`. -/
def reconcileAuthoritativeSelection (authoritative : Option String) (nowMs : Nat) :
    TaskBoard :=
  match authoritative.filter board.tasks.contains with
  | none => board
  | some authoritative =>
      if (board.selected.bind (board.tasks[·]?)).any (·.ownerAgent != .codex) then
        board
      else
        let focused :=
          { board with selected := some authoritative, pendingSelection := none }
        match board.pendingSelection with
        | none => focused
        | some (pending, deadline) =>
            if pending = authoritative then focused
            -- a newer hardware selection is still waiting for its confirmation
            else if nowMs ≤ deadline ∧ board.tasks.contains pending then
              { board with selected := some pending }
            else
              focused

def publishCodexSnapshot (value : Value) (nowMs : Nat) :
    Except String Value × TaskBoard :=
  let authoritativeSelection := (value.get? "selected_task_id").bind Value.asStr
  match board.publishTasks order 0 .codex value nowMs with
  | (.error message, board) => (.error message, board)
  | (.ok result, board) =>
      (.ok result, board.reconcileAuthoritativeSelection authoritativeSelection nowMs)

/-- The key label of a logical position. -/
def keyLabel (index : Nat) : String := "AG0" ++ toString index

/-- The id the board gives a legacy status entry. -/
def legacyTaskId (session index : Nat) : String :=
  "legacy:" ++ toString session ++ ":" ++ toString index

/-- A legacy status entry shows a card unless its effect is zero. -/
def legacyEnabled (entry : Value) : Bool :=
  ((entry.get? "e").bind Value.asU64).getD 1 != 0

/-- One entry of `publish_legacy_status`; a disabled one yields no card. -/
def legacyCard (session : Nat) (agent : AgentId) (nowMs : Nat) (entry : Value × Nat) :
    Except String (Option TaskCard) :=
  if legacyEnabled entry.1 then do
    let card ← parseTask session agent entry.1 nowMs
      (some (legacyTaskId session entry.2, keyLabel entry.2))
    return some card
  else
    .ok none

/-- The cards of a legacy status array. -/
def legacyCards (session : Nat) (agent : AgentId) (value : Value) (nowMs : Nat) :
    Except String (List TaskCard) :=
  match value.asArray with
  | none => .error "status must be an array"
  | some entries => do
      let cards ← entries.zipIdx.mapM (legacyCard session agent nowMs)
      return cards.reduceOption

def publishLegacyStatus (session : Nat) (agent : AgentId) (value : Value) (nowMs : Nat) :
    Except String Value × TaskBoard :=
  match legacyCards session agent value nowMs with
  | .error message => (.error message, board)
  | .ok cards =>
      let board := board.replaceSessionTasks order session cards nowMs
      (.ok (board.assignmentsForSession order session), board)

/-! ## The Codex HID feed -/

/-- The id of a logical Codex HID card. -/
def hidTaskId (index : Nat) : String := "codex-hid:" ++ toString index

/-- The logical position a HID entry names, by default its place in the frame. -/
def hidIndex (entry : Value) (position : Nat) : Nat :=
  (((entry.get? "id").or (entry.get? "i")).bind Value.asU64).getD position

/-- `e:0` and a zero brightness only clear the LCD presentation. -/
def hidCleared (entry : Value) : Bool :=
  (entry.get? "e").bind Value.asU64 == some 0 ||
    ((entry.get? "b").bind Value.asF64).any fun brightness =>
      decide (brightness ≤ Json.f64Epsilon)

/-- A card of a HID frame with the card it replaces and the state it reports. -/
structure HidUpdate where
  previous : Option TaskCard
  observed : TaskState
  card : TaskCard

/-- One entry of a HID frame; out of range and cleared ones yield no update. -/
def hidUpdate (nowMs : Nat) (entry : Value × Nat) : Except String (Option HidUpdate) :=
  let index := hidIndex entry.1 entry.2
  -- a skipped entry leaves the card of its position as it is
  if index ≥ codexHidSlots then .ok none
  else if hidCleared entry.1 then .ok none
  else do
    let card ← parseTask 0 .codex entry.1 nowMs (some (hidTaskId index, keyLabel index))
    return some ⟨board.tasks[hidTaskId index]?, card.state, card⟩

def hidUpdates (entries : List Value) (nowMs : Nat) : Except String (List HidUpdate) := do
  let updates ← (entries.zipIdx.take codexHidSlots).mapM (board.hidUpdate nowMs)
  return updates.reduceOption

/-- An idle card is reported active. -/
def HidUpdate.promoted (update : HidUpdate) : Bool :=
  update.previous.any fun task => task.state == .queued && update.observed.active

/-- An active card is reported idle. -/
def HidUpdate.demoted (update : HidUpdate) : Bool :=
  update.previous.any fun task => task.state.active && update.observed == .queued

/-- A new card, a repeated state or a selection redraw. -/
def HidUpdate.echoes (update : HidUpdate) : Bool :=
  update.previous.all fun task =>
    task.state == update.observed || isSelectionTransition task.state update.observed

/-- The whole frame swaps the selected card and changes nothing else. -/
def selectionHandoff (updates : List HidUpdate) : Bool :=
  updates.any HidUpdate.demoted && updates.any HidUpdate.promoted &&
    updates.all HidUpdate.echoes

/-- A catalog card of Codex on the given logical position. -/
def isCatalogCardAt (sourceSlot : Nat) (task : TaskCard) : Bool :=
  task.ownerSession == 0 && task.ownerAgent == .codex && !isCodexHid task.taskId &&
    task.sourceSlot == some sourceSlot

/-- The task a handoff selects: the catalog card at the position of the promoted
card, else the promoted card itself. -/
def handoffTask (promoted : TaskCard) : String :=
  ((promoted.sourceSlot.bind fun sourceSlot =>
    (order.values board.tasks).find? (isCatalogCardAt sourceSlot)).map
      TaskCard.taskId).getD promoted.taskId

/-- Move the selection along with a handoff, if its task is visible. -/
def followHandoff (updates : List HidUpdate) : TaskBoard :=
  match updates.find? HidUpdate.promoted with
  | none => board
  | some update =>
      let taskId := board.handoffTask order update.card
      if board.assignments.contains taskId then
        { board with selected := some taskId, pendingSelection := none }
      else
        board

/-- The card to merge: an echo keeps the previous lifecycle and its color. -/
def HidUpdate.settled (echoing : Bool) (update : HidUpdate) : TaskCard :=
  match update.previous with
  | none => update.card
  | some previous =>
      -- a redraw of the selection is no change of the task
      if echoing && isSelectionTransition previous.state update.observed then
        { update.card with
          state := previous.state
          color := some previous.state.displayColor
          brightness := previous.brightness }
      else
        update.card

/-- Guards that have not run out at `nowMs`. -/
def dropExpiredGuards (nowMs : Nat) : TaskBoard :=
  { board with
    selectionActivationGuards :=
      board.selectionActivationGuards.filter fun _ expiresAt => decide (nowMs ≤ expiresAt) }

/-- A HID frame whose entries have been read. -/
def applyHidUpdates (updates : List HidUpdate) (nowMs : Nat) : TaskBoard :=
  let handoff := selectionHandoff updates
  let echoing := !board.selectionActivationGuards.isEmpty || handoff
  let selected := if handoff then board.followHandoff order updates else board
  selected.mergeSessionTasks order (updates.map (HidUpdate.settled echoing)) nowMs

def publishCodexHidStatus (value : Value) (nowMs : Nat) : Except String Unit × TaskBoard :=
  match value.asArray with
  | none => (.error "thstatus payload must be an array", board)
  | some entries =>
      let guarded := board.dropExpiredGuards nowMs
      match guarded.hidUpdates entries nowMs with
      | .error message => (.error message, guarded)
      | .ok updates => (.ok (), guarded.applyHidUpdates order updates nowMs)

/-! ## Devices and owners -/

def setDevice (deviceId : String) (taskSlots : Nat) (connected : Bool) : TaskBoard :=
  if connected then
    { board with
      devices := board.devices.insert deviceId (deviceSlots deviceId taskSlots)
      : TaskBoard }.reallocate order
  else
    { board with
      devices := board.devices.erase deviceId
      assignments := board.assignments.filter fun _ assignment =>
        assignment.slot.deviceId != deviceId
      : TaskBoard }.reallocate order

def clearDevices : TaskBoard :=
  { board with devices := ∅, assignments := ∅ }

def setSlotOwners (deviceId : String) (owners : List (Option AgentId)) : TaskBoard :=
  if board.partitionedDeviceId ≠ some deviceId ∨ board.slotOwners ≠ owners then
    { board with
      partitionedDeviceId := some deviceId
      slotOwners := owners : TaskBoard }.reallocate order
  else
    board

/-! ## Sessions -/

/-- A card whose owner has disconnected, holding a lease. -/
def leaseCard (untilMs : Nat) (task : TaskCard) : TaskCard :=
  { task with state := .reconnecting, reconnectUntilMs := some untilMs }

def disconnectSession (session nowMs : Nat) : TaskBoard :=
  let untilMs := wrappingAdd nowMs reconnectGrace
  { board with
    tasks := board.tasks.map fun _ task =>
      if task.ownerSession = session then leaseCard untilMs task else task }

def clearSession (session : Nat) : TaskBoard :=
  let removed := board.taskIdsWhere order fun _ task => task.ownerSession == session
  if removed.isEmpty then board
  else (removed.foldl removeTask board).reallocate order

def expire (nowMs : Nat) : TaskBoard :=
  let board := { board with nowMs := nowMs }
  let expired := board.taskIdsWhere order fun _ task =>
    task.reconnectUntilMs.any fun untilMs => decide (untilMs ≤ nowMs)
  if expired.isEmpty then board
  else (expired.foldl removeTask board).reallocate order

/-! ## Selection -/

/-- The task assigned to a slot. -/
def occupant (deviceId : String) (slot : Nat) : Option String :=
  ((order.entries board.assignments).find? fun entry =>
    entry.2.slot.deviceId == deviceId && entry.2.slot.slot == slot).map Prod.fst

/-- The pending marker a selection leaves: only Codex confirms selections. -/
def pendingMarker (task : TaskCard) (taskId : String) (nowMs : Nat) :
    Option (String × Nat) :=
  if task.ownerAgent = .codex then some (taskId, saturatingAdd nowMs 2000) else none

def selectTask (taskId : String) (nowMs : Nat) : Option Value × TaskBoard :=
  let board := { board with nowMs := nowMs }
  match board.assignments[taskId]?, board.tasks[taskId]? with
  | some assignment, some task =>
      let completed := task.state == .completed
      let event := Value.object [("type", .string "task_selected"),
        ("task_id", .string taskId),
        ("device_id", .string assignment.slot.deviceId),
        ("slot", .ofNat assignment.slot.slot),
        ("owner_session", .ofNat task.ownerSession),
        ("legacy_key", .ofOptString task.legacyKey),
        ("ts", .ofNat nowMs)]
      (some event, { board with
        reviewedCompletions :=
          if completed then board.reviewedCompletions.insert taskId ()
          else board.reviewedCompletions
        tasks := if completed then board.tasks.insert taskId (acknowledgedCard task)
          else board.tasks
        selected := some taskId
        pendingSelection := pendingMarker task taskId nowMs })
  | _, _ => (none, board)

def select (deviceId : String) (slot nowMs : Nat) : Option Value × TaskBoard :=
  match board.occupant order deviceId slot with
  | none => (none, board)
  | some taskId => board.selectTask taskId nowMs

/-- A waiting task whose interaction has not run out. -/
def awaitsAnswer (nowMs : Nat) (task : TaskCard) : Bool :=
  task.state == .waiting && task.interaction.any fun interaction =>
    interaction.expiresAtMs.all fun expires => decide (expires > nowMs)

/-- The task is shown on the device. -/
def assignedOn (deviceId taskId : String) : Bool :=
  (board.assignments[taskId]?).any (·.slot.deviceId == deviceId)

/-- The comparison `auto_select_waiting` maximises. -/
def waitingOrder (a b : TaskCard) : Ordering :=
  (compare b.priority a.priority).then
    ((compare a.updatedAtMs b.updatedAtMs).then (compare b.taskId a.taskId))

def autoSelectWaiting (deviceId : String) (nowMs : Nat) : Option Value × TaskBoard :=
  let waiting := ((order.values board.tasks).filter (awaitsAnswer nowMs)).filter fun task =>
    board.assignedOn deviceId task.taskId
  match maxBy? waitingOrder waiting with
  | none => (none, board)
  | some best =>
      if board.selected = some best.taskId then (none, board)
      else
        match board.assignments[best.taskId]?, board.tasks[best.taskId]? with
        | some assignment, some task =>
            let event := Value.object [("type", .string "task_selected"),
              ("task_id", .string best.taskId),
              ("device_id", .string assignment.slot.deviceId),
              ("slot", .ofNat assignment.slot.slot),
              ("owner_session", .ofNat task.ownerSession),
              ("legacy_key", .null), ("automatic", .bool true), ("ts", .ofNat nowMs)]
            (some event, { board with
              selected := some best.taskId
              pendingSelection := pendingMarker task best.taskId nowMs })
        | _, _ => (none, board)

def guardSelectionActivation (taskId : String) (nowMs : Nat) : TaskBoard :=
  if (board.tasks[taskId]?).any (!·.state.active) then
    { board with
      selectionActivationGuards :=
        (∅ : ExtTreeMap String Nat).insert taskId (saturatingAdd nowMs 1000) }
  else
    board

/-- `set_selected_model`. -/
def setSelectedModel (model : String) : Bool × TaskBoard :=
  match board.selected.bind fun id => (board.tasks[id]?).map fun task => (id, task) with
  | none => (false, board)
  | some (taskId, task) =>
      (true, { board with tasks := board.tasks.insert taskId { task with model := some model } })

/-! ## Persisted preferences -/

/-- A persisted preference that is read back. -/
def preferenceEntry (field : String × Value) : Option (String × Nat) :=
  field.2.asU64.bind fun slot =>
    if field.1.utf8ByteSize ≤ 160 ∧ slot < 64 then some (field.1, slot) else none

def restoreSlotPreferences (value : Value) : TaskBoard :=
  match (value.get? "slots").bind Value.asObject with
  | none => board
  | some slots =>
      { board with
        primaryPreferences := ExtTreeMap.ofList
          (((Value.sortedFields slots).take 256).filterMap preferenceEntry) }

/-! ## What the controllers show -/

def taskAt (deviceId : String) (slot : Nat) : Option TaskCard :=
  (board.occupant order deviceId slot).bind (board.tasks[·]?)

/-- `selected`: the selected task, if it is shown on the device. -/
def selectedOn (deviceId : String) : Option String :=
  board.selected.filter (board.assignedOn deviceId)

def interactionActionValue (action : TaskAction) : Value :=
  .object [("id", .string action.id), ("label", .string action.label),
    ("action", .string action.action), ("payload", action.payload)]

def interactionValue (interaction : TaskInteraction) : Value :=
  .object [("id", .string interaction.id), ("kind", .string interaction.kind),
    ("prompt", .string interaction.prompt),
    ("short", (interaction.short.map interactionActionValue).getD .null),
    ("long", (interaction.long.map interactionActionValue).getD .null),
    ("expires_at_ms", .ofOptNat interaction.expiresAtMs)]

/-- The color a controller paints: the source's own only on a keyless card in an
ongoing state. -/
def renderedColor (task : TaskCard) : Nat :=
  if task.legacyKey.isSome ∨ task.state = .waiting then task.state.displayColor
  else match task.state with
    | .queued | .completed | .reconnecting => task.state.displayColor
    | _ => task.color.getD task.state.displayColor

/-- The label of a card: its title, its key, or its place. -/
def renderedTitle (task : TaskCard) (slot : Nat) : String :=
  if task.title = "" then task.legacyKey.getD ("Task " ++ toString (slot + 1))
  else task.title

/-- One entry of `rendered_slots`. -/
def renderedSlot (deviceId : String) (slot : Nat) : Value :=
  match board.taskAt order deviceId slot with
  | none => .object [("id", .ofNat slot), ("e", .ofNat 0), ("selected", .bool false)]
  | some task =>
      .object [("e", .ofNat 1), ("id", .ofNat slot),
        ("selected", .bool (board.selectedOn deviceId == some task.taskId)),
        ("recently_finished", .bool (task.state == .completed)),
        ("title", .string task.title), ("t", .string (renderedTitle task slot)),
        ("project", .ofOptString task.project),
        ("workspace_path", .ofOptString task.workspacePath),
        ("model", .ofOptString task.model), ("effort", .ofOptString task.effort),
        ("status", .string task.state.asStr), ("c", .ofNat (renderedColor task)),
        ("b", .number (.float (Json.toF64 (task.brightness / 100)))),
        ("progress", .ofOptNat task.progress), ("task_id", .string task.taskId),
        ("agent", .string task.ownerAgent.asStr),
        ("started_at_ms", .ofOptNat task.startedAtMs),
        ("finished_at_ms", .ofOptNat task.finishedAtMs),
        ("source_slot", .ofOptNat task.sourceSlot),
        ("interaction", (task.interaction.map interactionValue).getD .null)]

def renderedSlots (deviceId : String) (slotCount : Nat) : List Value :=
  (List.range slotCount).map (board.renderedSlot order deviceId)

end TaskBoard

/-! ## Runs -/

/-- The operations that change a board. -/
inductive Op where
  | setDevice (deviceId : String) (taskSlots : Nat) (connected : Bool)
  | clearDevices
  | setSlotOwners (deviceId : String) (owners : List (Option AgentId))
  | publishTasks (session : Nat) (agent : AgentId) (value : Value) (nowMs : Nat)
  | publishCodexSnapshot (value : Value) (nowMs : Nat)
  | publishLegacyStatus (session : Nat) (agent : AgentId) (value : Value) (nowMs : Nat)
  | publishCodexHidStatus (value : Value) (nowMs : Nat)
  | disconnectSession (session nowMs : Nat)
  | clearSession (session : Nat)
  | expire (nowMs : Nat)
  | select (deviceId : String) (slot nowMs : Nat)
  | selectTask (taskId : String) (nowMs : Nat)
  | autoSelectWaiting (deviceId : String) (nowMs : Nat)
  | guardSelectionActivation (taskId : String) (nowMs : Nat)
  | setSelectedModel (model : String)
  | restoreSlotPreferences (value : Value)

namespace TaskBoard

/-- The board an operation leaves, under one walk order of its hash maps. -/
def apply (order : WalkOrder) (board : TaskBoard) : Op → TaskBoard
  | .setDevice deviceId taskSlots connected =>
      board.setDevice order deviceId taskSlots connected
  | .clearDevices => board.clearDevices
  | .setSlotOwners deviceId owners => board.setSlotOwners order deviceId owners
  | .publishTasks session agent value nowMs =>
      (board.publishTasks order session agent value nowMs).2
  | .publishCodexSnapshot value nowMs => (board.publishCodexSnapshot order value nowMs).2
  | .publishLegacyStatus session agent value nowMs =>
      (board.publishLegacyStatus order session agent value nowMs).2
  | .publishCodexHidStatus value nowMs => (board.publishCodexHidStatus order value nowMs).2
  | .disconnectSession session nowMs => board.disconnectSession session nowMs
  | .clearSession session => board.clearSession order session
  | .expire nowMs => board.expire order nowMs
  | .select deviceId slot nowMs => (board.select order deviceId slot nowMs).2
  | .selectTask taskId nowMs => (board.selectTask taskId nowMs).2
  | .autoSelectWaiting deviceId nowMs => (board.autoSelectWaiting order deviceId nowMs).2
  | .guardSelectionActivation taskId nowMs => board.guardSelectionActivation taskId nowMs
  | .setSelectedModel model => (board.setSelectedModel model).2
  | .restoreSlotPreferences value => board.restoreSlotPreferences value

/-- The board after a sequence of operations, each with its own walk order. -/
def run (steps : List (WalkOrder × Op)) (board : TaskBoard) : TaskBoard :=
  steps.foldl (fun board step => board.apply step.1 step.2) board

end TaskBoard
end Tasks
end MicroEmu
