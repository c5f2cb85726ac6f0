import MicroEmu.Bridge.Frame
import MicroEmu.Tasks.Passes

/-!
# What the press of a card acts on

The press of a card names a position, and may name a task.  Routing it selects no other
task than the one it resolves to, changes no other card, tells only the owner of this task
about it, and outside it asks only for the session of this task and the window of its agent.
`ActsFor` says this of a step of the bridge; it is transitive, so each route has it from its
parts.
-/

namespace MicroEmu
namespace Bridge

open Json (Value)
open Routing (AgentId)
open Codex (PhysicalEvent)
open Library (getElem?_insert_eq_ite)
open Tasks (TaskBoard TaskCard WalkOrder acknowledgedCard)

/-- The card after it may have been acknowledged. -/
def Follows (card later : TaskCard) : Prop := later = card ∨ later = acknowledgedCard card

theorem Follows.trans {card later last : TaskCard} (h : Follows card later)
    (h' : Follows later last) : Follows card last := by
  rcases h with rfl | rfl
  · exact h'
  · rcases h' with rfl | rfl
    · exact .inr rfl
    · exact .inr rfl

theorem Follows.eqs {card later : TaskCard} (h : Follows card later) :
    later.taskId = card.taskId ∧ later.title = card.title ∧
      later.ownerSession = card.ownerSession ∧ later.ownerAgent = card.ownerAgent ∧
      later.legacyKey = card.legacyKey := by
  rcases h with rfl | rfl
  · exact ⟨rfl, rfl, rfl, rfl, rfl⟩
  · exact ⟨rfl, rfl, rfl, rfl, rfl⟩

/-- The event is one for the owner of the card, about the card or its key. -/
def Concerns (card : TaskCard) (pushed : Nat × Value) : Prop :=
  pushed.1 = card.ownerSession ∧
    (pushed.2.get? "task_id" = some (.string card.taskId) ∨
      ∃ key, card.legacyKey = some key ∧ pushed.2.get? "key" = some (.string key))

variable {World : Type}

/-- The calls outside that are about the card, and the writes on the serial port, keep a
property of the world. -/
structure Outside.Keeps (out : Outside World) (target : Option TaskCard)
    (inv : World → Prop) : Prop where
  writeFrame : ∀ (number : Nat) (frame : List UInt8) {world : World}, inv world →
    inv (out.writeFrame number frame world).2
  isForeground : ∀ card ∈ target, ∀ {world : World}, inv world →
    inv (out.isForeground card.ownerAgent world).2
  minimize : ∀ card ∈ target, ∀ {world : World}, inv world →
    inv (out.minimize card.ownerAgent world).2
  showAndFocus : ∀ card ∈ target, ∀ {world : World}, inv world →
    inv (out.showAndFocus card.ownerAgent world).2
  requestSessionSelection : ∀ card ∈ target,
    ∀ arguments ∈ [[card.title], [card.taskId, card.title], [card.taskId]],
    ∀ {world : World}, inv world →
      inv (out.requestSessionSelection card.ownerAgent arguments world).2

namespace BridgeRuntime

/-- What happens between the states is about the target, if there is one. -/
structure ActsFor (out : Outside World) (target : Option TaskCard)
    (before after : BridgeRuntime World) : Prop where
  assignments : after.taskBoard.assignments = before.taskBoard.assignments
  selected : after.taskBoard.selected = before.taskBoard.selected ∨
    ∃ card ∈ target, after.taskBoard.selected = some card.taskId
  cards : ∀ id : String, (∀ card ∈ target, card.taskId ≠ id) →
    after.taskBoard.tasks[id]? = before.taskBoard.tasks[id]?
  follows : ∀ {id : String} {later : TaskCard}, after.taskBoard.tasks[id]? = some later →
    ∃ card, before.taskBoard.tasks[id]? = some card ∧ Follows card later
  events : ∃ pushed, after.pendingTaskEvents = before.pendingTaskEvents ++ pushed ∧
    ∀ event ∈ pushed, ∃ card ∈ target, Concerns card event
  world : ∀ {inv : World → Prop}, out.Keeps target inv → inv before.world → inv after.world

namespace ActsFor

variable {out : Outside World} {target : Option TaskCard}
variable {before middle after bridge : BridgeRuntime World}

/-- Nothing happens on the board, no event is queued. -/
theorem of_world (hboard : after.taskBoard = before.taskBoard)
    (hevents : after.pendingTaskEvents = before.pendingTaskEvents)
    (hworld : ∀ {inv : World → Prop}, out.Keeps target inv → inv before.world →
      inv after.world) : ActsFor out target before after where
  assignments := by rw [hboard]
  selected := .inl (by rw [hboard])
  cards := fun id _ => by rw [hboard]
  follows := fun {id later} hlater => ⟨later, by rw [← hboard, hlater], .inl rfl⟩
  events := ⟨[], by rw [hevents, List.append_nil], fun _ h => absurd h List.not_mem_nil⟩
  world := hworld

theorem refl (bridge : BridgeRuntime World) : ActsFor out target bridge bridge :=
  .of_world rfl rfl fun _ hinv => hinv

theorem trans (h : ActsFor out target before middle) (h' : ActsFor out target middle after) :
    ActsFor out target before after where
  assignments := h'.assignments.trans h.assignments
  selected := by
    rcases h'.selected with hsame | hcard
    · rcases h.selected with hsame' | ⟨card, hcard, hselected⟩
      · exact .inl (hsame.trans hsame')
      · exact .inr ⟨card, hcard, hsame.trans hselected⟩
    · exact .inr hcard
  cards := fun id hid => (h'.cards id hid).trans (h.cards id hid)
  follows := by
    intro id last hlast
    obtain ⟨later, hlater, hfollows'⟩ := h'.follows hlast
    obtain ⟨card, hcard, hfollows⟩ := h.follows hlater
    exact ⟨card, hcard, hfollows.trans hfollows'⟩
  events := by
    obtain ⟨pushed, hpushed, hconcerns⟩ := h.events
    obtain ⟨pushed', hpushed', hconcerns'⟩ := h'.events
    refine ⟨pushed ++ pushed', by rw [hpushed', hpushed, List.append_assoc], ?_⟩
    intro event hevent
    exact (List.mem_append.mp hevent).elim (hconcerns event) (hconcerns' event)
  world := fun hkeeps hinv => h'.world hkeeps (h.world hkeeps hinv)

/-- An event about the target is queued. -/
theorem push {card : TaskCard} (hcard : card ∈ target) {session : Nat} {event : Value}
    (hconcerns : Concerns card (session, event)) :
    ActsFor out target bridge (bridge.pushTaskEvent session event) where
  assignments := rfl
  selected := .inl rfl
  cards := fun _ _ => rfl
  follows := fun {_ later} hlater => ⟨later, hlater, .inl rfl⟩
  events := ⟨[(session, event)], rfl, fun other hother => by
    obtain rfl := List.mem_singleton.mp hother
    exact ⟨card, hcard, hconcerns⟩⟩
  world := fun _ hinv => hinv

end ActsFor

variable {out : Outside World} {order : WalkOrder} {target : Option TaskCard}
variable {bridge : BridgeRuntime World}

/-! ## The HID device -/

theorem actsFor_writeReports (reports : List (List UInt8)) (bridge : BridgeRuntime World) :
    ActsFor out target bridge (writeReports out reports bridge).2 := by
  induction reports generalizing bridge with
  | nil => exact .refl bridge
  | cons report reports ih =>
      have hwrite : ActsFor out target bridge
          ({ bridge with sequence := (bridge.sequence + 1) % 2 ^ 16 }.call
            (out.writeFrame bridge.sequence report)).2 :=
        .of_world rfl rfl fun hkeeps hinv => hkeeps.writeFrame bridge.sequence report hinv
      simp only [writeReports]
      split
      · exact hwrite
      · exact hwrite.trans (ih _)

theorem actsFor_sendCodex (message : Value) :
    ActsFor out target bridge (bridge.sendCodex out message).2 := by
  unfold sendCodex
  split
  · split
    · exact .refl bridge
    · rename_i reports _
      have hwrite : ActsFor out target bridge (writeReports out reports bridge).2 :=
        actsFor_writeReports reports bridge
      simp only
      split
      · exact hwrite
      · exact hwrite.trans (.of_world rfl rfl fun _ hinv => hinv)
  · exact .refl bridge

theorem actsFor_sendRadial (event : PhysicalEvent) :
    ActsFor out target bridge (bridge.sendRadial out event).2 := by
  have hturned : ActsFor out target bridge
      { bridge with radialState := (bridge.radialState.event event).2 } :=
    .of_world rfl rfl fun _ hinv => hinv
  unfold sendRadial
  simp only
  split
  · exact hturned
  · split
    · exact hturned.trans (actsFor_sendCodex _)
    · exact hturned

theorem actsFor_routePosition (nowMs index : Nat) (pressed : Bool) (event : PhysicalEvent) :
    ActsFor out target bridge (bridge.routePosition out nowMs index pressed event).2 := by
  have hbuffer : ActsFor out target bridge (bridge.bufferButton index pressed nowMs) :=
    .of_world rfl rfl fun _ hinv => hinv
  unfold routePosition
  split
  · exact actsFor_sendRadial event
  · split
    · exact actsFor_sendRadial event
    · exact hbuffer.trans (actsFor_sendRadial event)
  · exact hbuffer

/-! ## A card -/

theorem actsFor_sendLegacyKey (key : String) (pressed : Bool) :
    ActsFor out target bridge (bridge.sendLegacyKey out key pressed) := by
  unfold sendLegacyKey
  split
  · split
    · exact .refl bridge
    · exact actsFor_sendCodex _
  · exact .refl bridge

/-- The key pair of a card. -/
theorem actsFor_routeLegacyKey {card task : TaskCard} (hcard : card ∈ target)
    (hfollows : Follows card task) (pressed : Bool) (nowMs : Nat) :
    ActsFor out target bridge (bridge.routeLegacyKey out task pressed nowMs) := by
  obtain ⟨-, -, hsession, -, hlegacy⟩ := hfollows.eqs
  unfold routeLegacyKey
  split
  · exact .refl bridge
  · rename_i key hkey
    have hguard : ActsFor out target bridge { bridge with
        taskBoard := bridge.taskBoard.guardSelectionActivation task.taskId nowMs } := by
      unfold TaskBoard.guardSelectionActivation
      split
      · exact ⟨rfl, .inl rfl, fun _ _ => rfl, fun {_ later} hlater => ⟨later, hlater, .inl rfl⟩,
          ⟨[], (List.append_nil _).symm, fun _ h => absurd h List.not_mem_nil⟩,
          fun _ hinv => hinv⟩
      · exact .refl bridge
    have hconcerns : Concerns card (task.ownerSession, keyEvent key pressed nowMs) :=
      ⟨hsession, .inr ⟨key, hlegacy ▸ hkey, rfl⟩⟩
    have hqueued : ∀ start, ActsFor out target bridge start → ActsFor out target bridge
        (start.pushTaskEvent task.ownerSession (keyEvent key pressed nowMs)) :=
      fun start hstart => hstart.trans (.push hcard hconcerns)
    have hguarded : ActsFor out target bridge
        (if pressed = true ∧ task.ownerSession = 0 then { bridge with
          taskBoard := bridge.taskBoard.guardSelectionActivation task.taskId nowMs }
        else bridge) := by
      split
      · exact hguard
      · exact .refl bridge
    simp only
    split
    · exact (hqueued _ hguarded).trans (actsFor_sendLegacyKey key pressed)
    · exact hqueued _ hguarded

/-- The desktop application opens the session of the card. -/
theorem actsFor_driveDesktop {card : TaskCard} (hcard : card ∈ target) :
    ActsFor out target bridge (bridge.driveDesktop out card) := by
  have htell : ∀ arguments ∈ [[card.title], [card.taskId, card.title], [card.taskId]],
      ActsFor out target bridge
        (bridge.tell (out.requestSessionSelection card.ownerAgent arguments)) :=
    fun arguments harguments => .of_world rfl rfl fun hkeeps hinv =>
      hkeeps.requestSessionSelection card hcard arguments harguments hinv
  unfold driveDesktop
  split
  · rename_i hagent
    split
    · rw [← hagent]
      exact htell _ (by simp)
    · exact .refl bridge
  · rename_i hagent
    split
    · rw [← hagent]
      exact htell _ (by simp)
    · exact .refl bridge
  · rename_i hagent
    split
    · rw [← hagent]
      exact htell _ (by simp)
    · exact .refl bridge
  · exact .refl bridge

/-- The selection of a task on the board. -/
theorem selectTask_eq (board : TaskBoard) (taskId : String) (nowMs : Nat) :
    (board.selectTask taskId nowMs = (none, { board with nowMs := nowMs })) ∨
      ∃ assignment task event, board.assignments[taskId]? = some assignment ∧
        board.tasks[taskId]? = some task ∧
        (board.selectTask taskId nowMs).1 = some event ∧
        event.get? "task_id" = some (.string taskId) ∧
        (board.selectTask taskId nowMs).2.assignments = board.assignments ∧
        (board.selectTask taskId nowMs).2.selected = some taskId ∧
        ((board.selectTask taskId nowMs).2.tasks = board.tasks ∨
          (board.selectTask taskId nowMs).2.tasks =
            board.tasks.insert taskId (acknowledgedCard task)) := by
  unfold TaskBoard.selectTask
  simp only
  split
  · rename_i assignment task hassigned htask
    refine .inr ⟨assignment, task, _, hassigned, htask, rfl, rfl, rfl, rfl, ?_⟩
    simp only
    split
    · exact .inr rfl
    · exact .inl rfl
  · exact .inl rfl

/-- The selection of the target. -/
theorem actsFor_selectTask {card : TaskCard} (hcard : card ∈ target)
    (htask : bridge.taskBoard.tasks[card.taskId]? = some card) (nowMs : Nat) :
    ActsFor out target bridge
      { bridge with taskBoard := (bridge.taskBoard.selectTask card.taskId nowMs).2 } := by
  rcases selectTask_eq bridge.taskBoard card.taskId nowMs with hnone |
    ⟨assignment, task, event, -, hfound, -, -, hassignments, hselected, htasks⟩
  · rw [hnone]
    exact ⟨rfl, .inl rfl, fun _ _ => rfl, fun {_ later} hlater => ⟨later, hlater, .inl rfl⟩,
      ⟨[], (List.append_nil _).symm, fun _ h => absurd h List.not_mem_nil⟩, fun _ hinv => hinv⟩
  · obtain rfl := Option.some.inj (hfound.symm.trans htask)
    refine ⟨hassignments, .inr ⟨task, hcard, hselected⟩, fun id hother => ?_,
      fun {id later} hlater => ?_,
      ⟨[], (List.append_nil _).symm, fun _ h => absurd h List.not_mem_nil⟩, fun _ hinv => hinv⟩
    · rcases htasks with hsame | hinsert
      · simp only [hsame]
      · simp only [hinsert]
        rw [getElem?_insert_eq_ite, if_neg (hother task hcard)]
    · rcases htasks with hsame | hinsert
      · simp only [hsame] at hlater
        exact ⟨later, hlater, .inl rfl⟩
      · simp only [hinsert, getElem?_insert_eq_ite] at hlater
        split at hlater
        · rename_i hid
          obtain rfl := Option.some.inj hlater
          exact ⟨task, hid ▸ htask, .inr rfl⟩
        · exact ⟨later, hlater, .inl rfl⟩

/-- The resolved task is filed under its own id. -/
theorem resolveTaskTarget_keyed (hkeyed : bridge.taskBoard.WellFormed) {deviceId : String}
    {index : Nat} {taskId : Option String} {task : TaskCard}
    (h : bridge.resolveTaskTarget order deviceId index taskId = some task) :
    bridge.taskBoard.tasks[task.taskId]? = some task := by
  cases taskId with
  | some id =>
      obtain rfl := hkeyed.keyed h
      exact h
  | none =>
      obtain ⟨id, -, htask⟩ := Option.bind_eq_some_iff.mp h
      obtain rfl := hkeyed.keyed htask
      exact htask

/-- The selection by a position is that of the resolved task. -/
theorem selectPressed_eq (hkeyed : bridge.taskBoard.WellFormed) {deviceId : String}
    {index : Nat} {taskId : Option String} {task : TaskCard}
    (h : bridge.resolveTaskTarget order deviceId index taskId = some task) (nowMs : Nat) :
    bridge.selectPressed order deviceId index taskId task nowMs =
      bridge.selectPressed order deviceId index (some task.taskId) task nowMs := by
  cases taskId with
  | some id =>
      obtain rfl := hkeyed.keyed h
      rfl
  | none =>
      obtain ⟨id, hoccupant, htask⟩ := Option.bind_eq_some_iff.mp h
      obtain rfl := hkeyed.keyed htask
      simp only [selectPressed, TaskBoard.select, hoccupant]

/-- The press selects the target and tells its owner. -/
theorem actsFor_selectPressed (hkeyed : bridge.taskBoard.WellFormed) {deviceId : String}
    {index : Nat} {taskId : Option String} {task : TaskCard} (htarget : task ∈ target)
    (h : bridge.resolveTaskTarget order deviceId index taskId = some task) (nowMs : Nat) :
    ActsFor out target bridge
      (bridge.selectPressed order deviceId index taskId task nowMs) := by
  have htask := resolveTaskTarget_keyed hkeyed h
  have hselect : ActsFor out target bridge
      { bridge with taskBoard := (bridge.taskBoard.selectTask task.taskId nowMs).2 } :=
    actsFor_selectTask htarget htask nowMs
  rw [selectPressed_eq hkeyed h]
  simp only [selectPressed]
  split
  · exact hselect
  · rename_i selection hevent
    rcases selectTask_eq bridge.taskBoard task.taskId nowMs with hnone |
      ⟨-, -, event, -, -, hevent', hid, -, -, -⟩
    · rw [hnone] at hevent
      cases hevent
    · obtain rfl := Option.some.inj (hevent.symm.trans hevent')
      exact hselect.trans (.push htarget ⟨rfl, .inl hid⟩)

/-! ## Routes -/

/-- Whatever card the position resolves to is the target. -/
def Targets (order : WalkOrder) (bridge : BridgeRuntime World) (deviceId : String)
    (slotCount index : Nat) (taskId : Option String) (target : Option TaskCard) : Prop :=
  ∀ {task : TaskCard}, bridge.cardInRange slotCount index = true →
    bridge.resolveTaskTarget order deviceId index taskId = some task → task ∈ target

/-- The press of the target. -/
theorem actsFor_routeTaskButton (hkeyed : bridge.taskBoard.WellFormed) {deviceId : String}
    {slotCount index : Nat} {taskId : Option String}
    (htarget : Targets order bridge deviceId slotCount index taskId target) (pressed : Bool)
    (nowMs : Nat) : ActsFor out target bridge
      (bridge.routeTaskButton out order deviceId slotCount index pressed taskId nowMs).2 := by
  unfold routeTaskButton
  split
  · rename_i hrange
    split
    · exact .refl bridge
    · rename_i task htask
      have hcard := htarget hrange htask
      simp only
      split
      · exact ((actsFor_selectPressed hkeyed hcard htask nowMs).trans
          (actsFor_driveDesktop hcard)).trans (actsFor_routeLegacyKey hcard (.inl rfl) _ nowMs)
      · exact actsFor_routeLegacyKey hcard (.inl rfl) pressed nowMs
  · exact .refl bridge

/-- The release of the target, which may have been acknowledged. -/
theorem actsFor_release {deviceId : String} {slotCount index : Nat} {task : TaskCard}
    {taskId : String} (htarget : task ∈ target) (hfollows : ∀ later,
      bridge.taskBoard.tasks[taskId]? = some later → Follows task later) (nowMs : Nat) :
    ActsFor out target bridge
      (bridge.routeTaskButton out order deviceId slotCount index false (some taskId) nowMs).2 := by
  unfold routeTaskButton
  split
  · split
    · exact .refl bridge
    · rename_i later hlater
      exact actsFor_routeLegacyKey htarget (hfollows later hlater) false nowMs
  · exact .refl bridge

theorem actsFor_clickTask (hkeyed : bridge.taskBoard.WellFormed) {task : TaskCard}
    (htarget : task ∈ target) (htask : bridge.taskBoard.tasks[task.taskId]? = some task)
    (deviceId : String) (slotCount index nowMs : Nat) : ActsFor out target bridge
      (bridge.clickTask out order deviceId slotCount index task.taskId nowMs) := by
  have hpress : ActsFor out target bridge (bridge.routeTaskButton out order deviceId slotCount
      index true (some task.taskId) nowMs).2 := by
    refine actsFor_routeTaskButton hkeyed (fun _ hfound => ?_) true nowMs
    obtain rfl := Option.some.inj (hfound.symm.trans htask)
    exact htarget
  refine hpress.trans (actsFor_release htarget (fun later hlater => ?_) nowMs)
  obtain ⟨card, hcard, hfollows⟩ := hpress.follows hlater
  obtain rfl := Option.some.inj (hcard.symm.trans htask)
  exact hfollows

/-- The window of the target is shown or minimized. -/
theorem actsFor_routeTaskToggle (hkeyed : bridge.taskBoard.WellFormed) {deviceId : String}
    {slotCount index : Nat} {taskId : Option String}
    (htarget : Targets order bridge deviceId slotCount index taskId target) (nowMs : Nat) :
    ActsFor out target bridge
      (bridge.routeTaskToggle out order deviceId slotCount index taskId nowMs).2 := by
  unfold routeTaskToggle
  split
  · rename_i hrange
    split
    · exact .refl bridge
    · rename_i task htask
      have hcard := htarget hrange htask
      have hasked : ActsFor out target bridge
          (bridge.call (out.isForeground task.ownerAgent)).2 :=
        .of_world rfl rfl fun hkeeps hinv => hkeeps.isForeground task hcard hinv
      have hkeyed' : (bridge.call (out.isForeground task.ownerAgent)).2.taskBoard.WellFormed :=
        hkeyed
      have hclicked : ActsFor out target (bridge.call (out.isForeground task.ownerAgent)).2
          ((bridge.call (out.isForeground task.ownerAgent)).2.clickTask out order deviceId
            slotCount index task.taskId nowMs) :=
        actsFor_clickTask hkeyed' hcard (resolveTaskTarget_keyed hkeyed htask) deviceId slotCount
          index nowMs
      have htell : ∀ start : BridgeRuntime World,
          ActsFor out target start (start.tell (out.showAndFocus task.ownerAgent)) :=
        fun start => .of_world rfl rfl fun hkeeps hinv => hkeeps.showAndFocus task hcard hinv
      simp only
      split
      · exact hasked.trans (.of_world rfl rfl fun hkeeps hinv => hkeeps.minimize task hcard hinv)
      · exact (hasked.trans hclicked).trans (htell _)
  · exact .refl bridge

/-- The answer of a waiting task that is selected already. -/
theorem actsFor_routeTaskAction {deviceId : String} {slotCount index : Nat}
    {taskId : Option String}
    (htarget : Targets order bridge deviceId slotCount index taskId target) (gesture : String)
    (nowMs : Nat) : ActsFor out target bridge
      (bridge.routeTaskAction order deviceId slotCount index gesture taskId nowMs).2 := by
  unfold routeTaskAction
  split
  · rename_i hrange
    split
    · exact .refl bridge
    · rename_i task htask
      split
      · exact .refl bridge
      · split
        · exact .refl bridge
        · split
          · exact .refl bridge
          · split
            · exact .refl bridge
            · exact .push (htarget hrange htask) ⟨rfl, .inl rfl⟩
  · exact .refl bridge

/-! ## Events -/

/-- The position of a card that an event presses, and the task that the event names. -/
def cardPress : PhysicalEvent → Option (Nat × Option String)
  | .button index _ => some (index, none)
  | .taskButton index _ taskId => some (index, taskId)
  | .taskToggle index taskId => some (index, taskId)
  | .taskAction index _ taskId => some (index, taskId)
  | _ => none

/-- The task of the card at a position, if the position is one of a card. -/
def pressTarget (order : WalkOrder) (bridge : BridgeRuntime World) (deviceId : String)
    (slotCount : Nat) (press : Nat × Option String) : Option TaskCard :=
  if press.1 < slotCount then bridge.resolveTaskTarget order deviceId press.1 press.2 else none

theorem targets_pressTarget (order : WalkOrder) (bridge : BridgeRuntime World)
    (deviceId : String) (slotCount index : Nat) (taskId : Option String) :
    Targets order bridge deviceId slotCount index taskId
      (bridge.pressTarget order deviceId slotCount (index, taskId)) := by
  intro task hrange htask
  have hindex : index < slotCount := of_decide_eq_true (Bool.and_eq_true_iff.mp hrange).2
  rw [pressTarget, if_pos hindex, htask]
  rfl

/-- A button that no card consumes is a position of the Micro. -/
theorem actsFor_routeMicroEvent (nowMs : Nat) (event : PhysicalEvent) :
    ActsFor out target bridge (bridge.routeMicroEvent out nowMs event).2 := by
  cases event with
  | button index pressed => exact actsFor_routePosition nowMs index pressed _
  | microButton index pressed => exact actsFor_routePosition nowMs index pressed _
  | taskButton | taskToggle | taskAction | catalogAction | modelCycle | usageSelect |
    encoderTurn | encoderButton => exact actsFor_sendRadial _

/-- The press of a card of an auxiliary controller acts for the task at its position, or
for the task it names. -/
theorem actsFor_routeTaskDeviceEvent (hkeyed : bridge.taskBoard.WellFormed) {deviceId : String}
    {slotCount : Nat} {event : PhysicalEvent} {press : Nat × Option String}
    (hpress : cardPress event = some press) (nowMs : Nat) :
    ActsFor out (bridge.pressTarget order deviceId slotCount press) bridge
      (bridge.routeTaskDeviceEvent out order deviceId slotCount nowMs event) := by
  cases event with
  | button index pressed =>
      obtain rfl := Option.some.inj hpress
      have hrouted : ActsFor out (bridge.pressTarget order deviceId slotCount (index, none)) bridge
          (bridge.routeTaskButton out order deviceId slotCount index pressed none nowMs).2 :=
        actsFor_routeTaskButton hkeyed (targets_pressTarget order bridge _ _ _ _) pressed nowMs
      simp only [routeTaskDeviceEvent]
      split
      · exact hrouted
      · split
        · exact hrouted
        · exact hrouted.trans (actsFor_routeMicroEvent nowMs _)
  | taskButton index pressed taskId =>
      obtain rfl := Option.some.inj hpress
      exact actsFor_routeTaskButton hkeyed (targets_pressTarget order bridge _ _ _ _) pressed nowMs
  | taskToggle index taskId =>
      obtain rfl := Option.some.inj hpress
      exact actsFor_routeTaskToggle hkeyed (targets_pressTarget order bridge _ _ _ _) nowMs
  | taskAction index gesture taskId =>
      obtain rfl := Option.some.inj hpress
      exact actsFor_routeTaskAction (targets_pressTarget order bridge _ _ _ _) _ nowMs
  | microButton | catalogAction | modelCycle | usageSelect | encoderTurn | encoderButton =>
      cases hpress

/-- The press of a card of the primary controller. -/
theorem actsFor_pollEvent (hkeyed : bridge.taskBoard.WellFormed) {event : PhysicalEvent}
    {press : Nat × Option String} (hpress : cardPress event = some press) (nowMs : Nat) :
    ActsFor out (bridge.pressTarget order bridge.taskDeviceId bridge.taskSlotCount press) bridge
      (bridge.pollEvent out order nowMs event).2 := by
  cases event with
  | button index pressed =>
      obtain rfl := Option.some.inj hpress
      have hrouted : ActsFor out
          (bridge.pressTarget order bridge.taskDeviceId bridge.taskSlotCount (index, none)) bridge
          (bridge.routeTaskButton out order bridge.taskDeviceId bridge.taskSlotCount index pressed
            none nowMs).2 :=
        actsFor_routeTaskButton hkeyed (targets_pressTarget order bridge _ _ _ _) pressed nowMs
      simp only [pollEvent]
      split
      · exact hrouted
      · split
        · exact hrouted
        · exact hrouted.trans (actsFor_routeMicroEvent nowMs _)
  | taskButton index pressed taskId =>
      obtain rfl := Option.some.inj hpress
      exact actsFor_routeTaskButton hkeyed (targets_pressTarget order bridge _ _ _ _) pressed nowMs
  | taskToggle index taskId => exact actsFor_routeMicroEvent nowMs _
  | taskAction index gesture taskId =>
      obtain rfl := Option.some.inj hpress
      exact actsFor_routeTaskAction (targets_pressTarget order bridge _ _ _ _) _ nowMs
  | microButton | catalogAction | modelCycle | usageSelect | encoderTurn | encoderButton =>
      cases hpress

end BridgeRuntime
end Bridge
end MicroEmu
