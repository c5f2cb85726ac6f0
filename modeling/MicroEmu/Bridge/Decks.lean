import MicroEmu.Bridge.Tools
import Mathlib.Logic.Relation

/-!
# What the bridge does to its devices

The task board registers devices with their slots; the bridge holds a primary controller
and a list of auxiliary ones.  Serving an event, rendering and polling change these in a few
ways only: a call goes out of the process, an operation of the board is made, the primary
controller is detached, or an auxiliary one is dropped and its device leaves the board.
`DeckStep` says so once, and every function of the bridge is a number of such steps.

The loops over the auxiliary controllers take their list out of the bridge while they run.
`decksWith` puts it back.
-/

namespace MicroEmu

/-- The operations that serving an event makes on the board. -/
def Tasks.Op.IsSelection : Tasks.Op → Prop
  | .select .. | .selectTask .. | .autoSelectWaiting .. | .guardSelectionActivation ..
  | .setSelectedModel .. => True
  | _ => False

namespace Bridge

open Json (Value)
open Routing (AgentId)
open Codex (CatalogAction PhysicalEvent UsageAgent)
open Tasks (Op TaskBoard TaskCard WalkOrder)
open Relation (ReflTransGen)

variable {World : Type}

/-! ## Calls -/

/-- One call out of the process, seen from the world. -/
inductive WorldStep (out : Outside World) : World → World → Prop
  | systemTime (world : World) : WorldStep out world (out.systemTime world).2
  | instant (world : World) : WorldStep out world (out.instant world).2
  | writeFrame (number : Nat) (frame : List UInt8) (world : World) :
      WorldStep out world (out.writeFrame number frame world).2
  | poll (device : Device) (world : World) : WorldStep out world (out.poll device world).2
  | applyTaskCards (device : Device) (cards : List Value) (world : World) :
      WorldStep out world (out.applyTaskCards device cards world).2
  | applyThreadStatus (device : Device) (status : Value) (world : World) :
      WorldStep out world (out.applyThreadStatus device status world).2
  | applyDisplayContext (device : Device) (context : DisplayContext) (world : World) :
      WorldStep out world (out.applyDisplayContext device context world).2
  | applyRgbConfig (device : Device) (config : Value) (world : World) :
      WorldStep out world (out.applyRgbConfig device config world).2
  | shutdown (device : Device) (world : World) :
      WorldStep out world (out.shutdown device world).2
  | isForeground (agent : AgentId) (world : World) :
      WorldStep out world (out.isForeground agent world).2
  | minimize (agent : AgentId) (world : World) :
      WorldStep out world (out.minimize agent world).2
  | showAndFocus (agent : AgentId) (world : World) :
      WorldStep out world (out.showAndFocus agent world).2
  | microphoneActive (agent : AgentId) (world : World) :
      WorldStep out world (out.microphoneActive agent world).2
  | setMicrophone (agent : AgentId) (pressed : Bool) (world : World) :
      WorldStep out world (out.setMicrophone agent pressed world).2
  | requestSessionSelection (agent : AgentId) (arguments : List String) (world : World) :
      WorldStep out world (out.requestSessionSelection agent arguments world).2
  | searchTasks (world : World) : WorldStep out world (out.searchTasks world).2
  | toggleTerminal (world : World) : WorldStep out world (out.toggleTerminal world).2
  | cycleModel (world : World) : WorldStep out world (out.cycleModel world).2
  | readCodexConfig (world : World) : WorldStep out world (out.readCodexConfig world).2
  | readLatestCodexSessionCwd (world : World) :
      WorldStep out world (out.readLatestCodexSessionCwd world).2
  | fetchUsage (agent : UsageAgent) (world : World) :
      WorldStep out world (out.fetchUsage agent world).2

/-- A number of calls. -/
abbrev WorldSteps (out : Outside World) : World → World → Prop := ReflTransGen (WorldStep out)

variable (out : Outside World) (order : WalkOrder)

theorem worldSteps_andThen {first second : FallibleCall World Unit}
    (hfirst : ∀ world, WorldSteps out world (first world).2)
    (hsecond : ∀ world, WorldSteps out world (second world).2) (world : World) :
    WorldSteps out world (first.andThen second world).2 := by
  simp only [FallibleCall.andThen]
  split
  · exact hfirst world
  · exact (hfirst world).trans (hsecond _)

theorem worldSteps_applyControllerState (device : Device) (cards : List Value)
    (context : DisplayContext) (rgbConfig : Option Value) (world : World) :
    WorldSteps out world
      (BridgeRuntime.applyControllerState out device cards context rgbConfig world).2 := by
  refine worldSteps_andThen out (fun world => .single (.applyTaskCards device cards world))
    (worldSteps_andThen out (fun world => .single (.applyDisplayContext device context world))
      fun world => ?_) world
  cases rgbConfig with
  | none => exact .refl
  | some config => exact .single (.applyRgbConfig device config world)

theorem worldSteps_dictationTarget (agents : List AgentId) (world : World) :
    WorldSteps out world (BridgeRuntime.dictationTarget out agents world).2 := by
  induction agents generalizing world with
  | nil => exact .refl
  | cons agent agents ih =>
      have hactive := @WorldStep.microphoneActive World out agent world
      simp only [BridgeRuntime.dictationTarget]
      split
      · exact .single hactive
      · split
        · exact .head hactive (.single (.isForeground agent _))
        · exact .head hactive (.head (.isForeground agent _) (ih _))

/-! ## Decks -/

/-- The controllers of the bridge and what the board knows of their devices. -/
structure Decks (World : Type) where
  world : World
  choice : ControllerKind
  controller : Option Device
  auxControllers : List AuxController
  taskDeviceId : String
  taskSlotCount : Nat
  taskBoard : TaskBoard

namespace BridgeRuntime

/-- The decks with the list a loop has taken out. -/
def decksWith (bridge : BridgeRuntime World) (auxControllers : List AuxController) :
    Decks World where
  world := bridge.world
  choice := bridge.controllerChoice
  controller := bridge.controller
  auxControllers := auxControllers
  taskDeviceId := bridge.taskDeviceId
  taskSlotCount := bridge.taskSlotCount
  taskBoard := bridge.taskBoard

def decks (bridge : BridgeRuntime World) : Decks World := bridge.decksWith bridge.auxControllers

end BridgeRuntime

/-- One step of the decks: `may` says which operations of the board it may be, and `loses`
which auxiliary controllers may go without their device leaving the board. -/
inductive DeckStep (may : Op → Prop) (loses : Decks World → AuxController → Prop) :
    Decks World → Decks World → Prop
  | call (decks : Decks World) {world : World} (h : WorldStep out decks.world world) :
      DeckStep may loses decks { decks with world := world }
  | board (decks : Decks World) (order : WalkOrder) (op : Op) (h : may op) :
      DeckStep may loses decks { decks with taskBoard := decks.taskBoard.apply order op }
  | detach (decks : Decks World) : DeckStep may loses decks { decks with controller := none }
  /-- An auxiliary controller is dropped and its device unregistered. -/
  | drop {decks : Decks World} (order : WalkOrder) (kept : List AuxController)
      (aux : AuxController) (rest : List AuxController)
      (h : decks.auxControllers = kept ++ aux :: rest) :
      DeckStep may loses decks { decks with
        auxControllers := kept ++ rest
        taskBoard := decks.taskBoard.setDevice order aux.deviceId 0 false }
  /-- The dropped controller was the task device. -/
  | forget {decks : Decks World} (order : WalkOrder) (kept : List AuxController)
      (aux : AuxController) (rest : List AuxController)
      (h : decks.auxControllers = kept ++ aux :: rest) (hcontroller : decks.controller = none)
      (hdevice : decks.taskDeviceId = aux.deviceId) :
      DeckStep may loses decks { decks with
        auxControllers := kept ++ rest
        taskDeviceId := "none"
        taskSlotCount := 0
        taskBoard :=
          (decks.taskBoard.setDevice order aux.deviceId 0 false).setSlotOwners order "none" [] }
  /-- An auxiliary controller is dropped, and its device stays registered. -/
  | lose {decks : Decks World} (kept : List AuxController) (aux : AuxController)
      (rest : List AuxController) (h : decks.auxControllers = kept ++ aux :: rest)
      (hloses : loses decks aux) :
      DeckStep may loses decks { decks with auxControllers := kept ++ rest }

/-- A number of steps. -/
abbrev DeckSteps (may : Op → Prop) (loses : Decks World → AuxController → Prop) :
    Decks World → Decks World → Prop :=
  ReflTransGen (DeckStep out may loses)

/-- The steps of the functions that serve events: they only select. -/
abbrev ServeSteps : Decks World → Decks World → Prop :=
  DeckSteps out Op.IsSelection fun _ _ => False

section Steps

variable {out} {may may' : Op → Prop} {loses loses' : Decks World → AuxController → Prop}
  {decks decks' : Decks World}

theorem DeckSteps.mono (h : DeckSteps out may loses decks decks')
    (hmay : ∀ op, may op → may' op) (hloses : ∀ decks aux, loses decks aux → loses' decks aux) :
    DeckSteps out may' loses' decks decks' := by
  induction h with
  | refl => exact .refl
  | tail _ hstep ih =>
      refine ih.tail ?_
      cases hstep with
      | call hworld => exact .call _ hworld
      | board order op hop => exact .board _ order op (hmay op hop)
      | detach => exact .detach _
      | drop order kept aux rest hlist => exact .drop order kept aux rest hlist
      | forget order kept aux rest hlist hcontroller hdevice =>
          exact .forget order kept aux rest hlist hcontroller hdevice
      | lose kept aux rest hlist hlost =>
          exact .lose kept aux rest hlist (hloses _ _ hlost)

/-- A property that every step keeps is kept by a number of them. -/
theorem DeckSteps.invariant {inv : Decks World → Prop}
    (hstep : ∀ {before after : Decks World}, DeckStep out may loses before after →
      inv before → inv after)
    (h : DeckSteps out may loses decks decks') (hinv : inv decks) : inv decks' := by
  induction h with
  | refl => exact hinv
  | tail _ hlast ih => exact hstep hlast ih

theorem DeckSteps.of_world (decks : Decks World) {world : World}
    (h : WorldSteps out decks.world world) :
    DeckSteps out may loses decks { decks with world := world } := by
  induction h with
  | refl => exact .refl
  | tail _ hstep ih => exact ih.tail (.call _ hstep)

/-- Without auxiliary controllers the steps do not depend on their list. -/
theorem DeckSteps.frame (h : DeckSteps out may loses decks decks')
    (hnil : decks.auxControllers = []) :
    decks'.auxControllers = [] ∧ ∀ list, DeckSteps out may loses
      { decks with auxControllers := list } { decks' with auxControllers := list } := by
  induction h with
  | refl => exact ⟨hnil, fun list => .refl⟩
  | @tail middle last _ hstep ih =>
      obtain ⟨hmiddle, hsteps⟩ := ih
      have hno (kept : List AuxController) (aux : AuxController) (rest : List AuxController)
          (hlist : middle.auxControllers = kept ++ aux :: rest) : False := by
        rw [hmiddle] at hlist
        simp at hlist
      cases hstep with
      | call hworld =>
          exact ⟨hmiddle, fun list => (hsteps list).tail
            (.call { middle with auxControllers := list } hworld)⟩
      | board order op hop =>
          exact ⟨hmiddle, fun list => (hsteps list).tail
            (.board { middle with auxControllers := list } order op hop)⟩
      | detach =>
          exact ⟨hmiddle, fun list => (hsteps list).tail
            (.detach { middle with auxControllers := list })⟩
      | drop order kept aux rest hlist => exact (hno kept aux rest hlist).elim
      | forget order kept aux rest hlist => exact (hno kept aux rest hlist).elim
      | lose kept aux rest hlist => exact (hno kept aux rest hlist).elim

end Steps

namespace BridgeRuntime

/-- What comes out of a function that serves events. -/
def Serves (before after : BridgeRuntime World) : Prop :=
  ServeSteps out before.decks after.decks

variable {out} {a b c : BridgeRuntime World}

theorem Serves.refl (bridge : BridgeRuntime World) : Serves out bridge bridge := ReflTransGen.refl

theorem Serves.trans (hab : Serves out a b) (hbc : Serves out b c) : Serves out a c :=
  ReflTransGen.trans hab hbc

/-- The decks are the same. -/
theorem Serves.of_eq (h : b.decks = a.decks) : Serves out a b := by
  rw [Serves, h]

theorem Serves.call {α : Type} {ask : Call World α}
    (h : WorldSteps out a.world (ask a.world).2) : Serves out a (a.call ask).2 :=
  DeckSteps.of_world a.decks h

theorem Serves.tell {α : Type} {ask : Call World α}
    (h : WorldSteps out a.world (ask a.world).2) : Serves out a (a.tell ask) :=
  DeckSteps.of_world a.decks h

/-- A selection on the board. -/
theorem Serves.select (order : WalkOrder) (op : Op) (h : op.IsSelection) {board : TaskBoard}
    (hboard : a.taskBoard.apply order op = board) : Serves out a { a with taskBoard := board } := by
  subst hboard
  exact .single (.board a.decks order op h)

variable (out)

/-! ## The HID device and the primary controller -/

theorem serves_writeReports (reports : List (List UInt8)) (bridge : BridgeRuntime World) :
    Serves out bridge (writeReports out reports bridge).2 := by
  induction reports generalizing bridge with
  | nil => exact .refl bridge
  | cons report reports ih =>
      have hwritten : Serves out bridge
          (({ bridge with sequence := (bridge.sequence + 1) % 2 ^ 16 }.call
            (out.writeFrame bridge.sequence report)).2) :=
        .call (a := { bridge with sequence := _ }) (.single (.writeFrame _ _ _))
      simp only [writeReports]
      split
      · exact hwritten
      · exact hwritten.trans (ih _)

theorem serves_sendCodex (bridge : BridgeRuntime World) (message : Value) :
    Serves out bridge (bridge.sendCodex out message).2 := by
  unfold sendCodex
  split
  · split
    · exact .refl bridge
    next reports hreports =>
      have hwritten := serves_writeReports out reports bridge
      simp only
      split
      · exact hwritten
      · exact hwritten.trans (.of_eq rfl)
  · exact .refl bridge

theorem serves_scheduleControllerRetry (bridge : BridgeRuntime World) :
    Serves out bridge (bridge.scheduleControllerRetry out) := by
  unfold scheduleControllerRetry
  split
  · have hasked : Serves out bridge (bridge.call out.instant).2 := .call (.single (.instant _))
    exact hasked.trans (.of_eq rfl)
  · exact .refl bridge

theorem serves_detachController (bridge : BridgeRuntime World) :
    Serves out bridge (bridge.detachController out) := by
  unfold detachController
  split
  · exact serves_scheduleControllerRetry out bridge
  next device hdevice =>
    have hdetached : Serves out bridge { bridge with controller := none } :=
      .single (.detach bridge.decks)
    have hclosed : Serves out { bridge with controller := none }
        ({ bridge with controller := none }.tell (out.shutdown device)) :=
      .tell (.single (.shutdown _ _))
    exact (hdetached.trans hclosed).trans (serves_scheduleControllerRetry out _)

/-! ## Refreshing the controllers -/

theorem serves_autoSelect (bridge : BridgeRuntime World) :
    Serves out bridge (bridge.autoSelect out order) := by
  have hasked : Serves out bridge (bridge.call out.systemTime).2 :=
    .call (.single (.systemTime _))
  have hselected := hasked.trans (Serves.select order
    (.autoSelectWaiting (bridge.call out.systemTime).2.taskDeviceId
      (bridge.call out.systemTime).1) trivial rfl)
  simp only [autoSelect]
  split
  · exact hselected
  · exact hselected.trans (.of_eq rfl)

theorem serves_renderPrimary (bridge : BridgeRuntime World) :
    Serves out bridge (bridge.renderPrimary out order).2 := by
  unfold renderPrimary
  split
  · exact .refl bridge
  · exact .call (worldSteps_applyControllerState out _ _ _ _ _)

/-- The rendering loop keeps or drops one controller after the other. -/
theorem steps_refreshAux (auxes kept : List AuxController) (bridge : BridgeRuntime World) :
    ServeSteps out (bridge.decksWith (kept ++ auxes))
      ((refreshAux out order auxes bridge).2.decksWith
        (kept ++ (refreshAux out order auxes bridge).1)) := by
  induction auxes generalizing kept bridge with
  | nil => exact .refl
  | cons aux auxes ih =>
      have hrendered : ServeSteps out (bridge.decksWith (kept ++ aux :: auxes))
          ((bridge.call (applyControllerState out aux.device (bridge.desiredAuxCards order aux)
            (bridge.desiredContextForDevice aux.deviceId) bridge.lastRgbConfig)).2.decksWith
              (kept ++ aux :: auxes)) :=
        .of_world (bridge.decksWith (kept ++ aux :: auxes))
          (worldSteps_applyControllerState out _ _ _ _ _)
      refine ReflTransGen.trans hrendered ?_
      simp only [refreshAux]
      generalize bridge.call _ = rendered
      split
      · refine ReflTransGen.trans (DeckSteps.of_world
          (rendered.2.decksWith (kept ++ aux :: auxes))
          (.single (.shutdown aux.device _))) (.head ?_ (ih kept _))
        exact .drop order kept aux auxes rfl
      · have hkept := ih (kept ++ [aux]) rendered.2
        rwa [List.append_assoc, List.append_assoc] at hkept

theorem serves_refreshTaskBoard (bridge : BridgeRuntime World) :
    Serves out bridge (bridge.refreshTaskBoard out order).2 := by
  unfold refreshTaskBoard
  split
  · exact .refl bridge
  · have hrendered := (serves_autoSelect out order bridge).trans
      (serves_renderPrimary out order (bridge.autoSelect out order))
    simp only
    split
    · exact hrendered.trans (serves_detachController out _)
    · exact hrendered.trans (steps_refreshAux out order _ [] { ((bridge.autoSelect out
        order).renderPrimary out order).2 with auxControllers := [] })

theorem serves_refresh (bridge : BridgeRuntime World) :
    Serves out bridge (bridge.refresh out order) := serves_refreshTaskBoard out order bridge

/-! ## The display context and the usage figures -/

theorem serves_autoDeriveDisplayContext (bridge : BridgeRuntime World) :
    Serves out bridge (bridge.autoDeriveDisplayContext out order) := by
  unfold autoDeriveDisplayContext
  split
  · exact .refl bridge
  · have hconfig : Serves out bridge (bridge.call out.readCodexConfig).2 :=
      .call (.single (.readCodexConfig _))
    have hproject : Serves out (bridge.call out.readCodexConfig).2
        ((bridge.call out.readCodexConfig).2.call out.readLatestCodexSessionCwd).2 :=
      .call (.single (.readLatestCodexSessionCwd _))
    exact (hconfig.trans hproject).trans (.of_eq rfl)

theorem decks_patchDisplayContextUsage (bridge : BridgeRuntime World) :
    bridge.patchDisplayContextUsage.decks = bridge.decks := by
  unfold patchDisplayContextUsage
  split <;> rfl

theorem serves_requestUsageRefresh (bridge : BridgeRuntime World) (agent : UsageAgent) :
    Serves out bridge (bridge.requestUsageRefresh out agent) := by
  have hasked : Serves out bridge (bridge.call out.instant).2 := .call (.single (.instant _))
  unfold requestUsageRefresh
  simp only
  split
  · refine (hasked.trans (.of_eq rfl)).trans (.tell (.single (.fetchUsage _ _)))
  · exact hasked

/-! ## Task cards -/

theorem serves_sendLegacyKey (bridge : BridgeRuntime World) (key : String) (pressed : Bool) :
    Serves out bridge (bridge.sendLegacyKey out key pressed) := by
  unfold sendLegacyKey
  split
  · split
    · exact .refl bridge
    · exact serves_sendCodex out bridge _
  · exact .refl bridge

theorem serves_routeLegacyKey (bridge : BridgeRuntime World) (task : TaskCard) (pressed : Bool)
    (nowMs : Nat) : Serves out bridge (bridge.routeLegacyKey out task pressed nowMs) := by
  unfold routeLegacyKey
  split
  · exact .refl bridge
  next key hkey =>
    have hguarded : Serves out bridge
        (if pressed ∧ task.ownerSession = 0 then
          { bridge with
            taskBoard := bridge.taskBoard.guardSelectionActivation task.taskId nowMs }
        else bridge) := by
      split
      · exact Serves.select .ascending (.guardSelectionActivation task.taskId nowMs)
          trivial rfl
      · exact .refl bridge
    have hqueued := hguarded.trans (Serves.of_eq (b := BridgeRuntime.pushTaskEvent _
      task.ownerSession (keyEvent key pressed nowMs)) rfl)
    simp only
    split
    · exact hqueued.trans (serves_sendLegacyKey out _ key pressed)
    · exact hqueued

theorem serves_selectPressed (bridge : BridgeRuntime World) (deviceId : String) (index : Nat)
    (taskId : Option String) (task : TaskCard) (nowMs : Nat) :
    Serves out bridge (bridge.selectPressed order deviceId index taskId task nowMs) := by
  unfold selectPressed
  cases taskId with
  | some id =>
      have hselected := @Serves.select _ out bridge order (.selectTask id nowMs) trivial _ rfl
      simp only
      split
      · exact hselected
      · exact hselected.trans (.of_eq rfl)
  | none =>
      have hselected := @Serves.select _ out bridge order (.select deviceId index nowMs) trivial
        _ rfl
      simp only
      split
      · exact hselected
      · exact hselected.trans (.of_eq rfl)

theorem serves_driveDesktop (bridge : BridgeRuntime World) (task : TaskCard) :
    Serves out bridge (bridge.driveDesktop out task) := by
  have htold (agent : AgentId) (arguments : List String) : Serves out bridge
      (bridge.tell (out.requestSessionSelection agent arguments)) :=
    .tell (.single (.requestSessionSelection agent arguments _))
  unfold driveDesktop
  split
  · split
    · exact htold _ _
    · exact .refl bridge
  · split
    · exact htold _ _
    · exact .refl bridge
  · split
    · exact htold _ _
    · exact .refl bridge
  · exact .refl bridge

theorem serves_routeTaskButton (bridge : BridgeRuntime World) (deviceId : String)
    (slotCount index : Nat) (pressed : Bool) (taskId : Option String) (nowMs : Nat) :
    Serves out bridge
      (bridge.routeTaskButton out order deviceId slotCount index pressed taskId nowMs).2 := by
  unfold routeTaskButton
  split
  · split
    · exact .refl bridge
    next task htask =>
      refine Serves.trans ?_ (serves_routeLegacyKey out _ task pressed nowMs)
      split
      · exact (serves_selectPressed out order bridge _ _ _ task nowMs).trans
          (serves_driveDesktop out _ task)
      · exact .refl bridge
  · exact .refl bridge

theorem decks_routeTaskAction (bridge : BridgeRuntime World) (deviceId : String)
    (slotCount index : Nat) (gesture : String) (taskId : Option String) (nowMs : Nat) :
    (bridge.routeTaskAction order deviceId slotCount index gesture taskId nowMs).2.decks =
      bridge.decks := by
  unfold routeTaskAction
  repeat' first | rfl | split

theorem serves_routeTaskToggle (bridge : BridgeRuntime World) (deviceId : String)
    (slotCount index : Nat) (taskId : Option String) (nowMs : Nat) :
    Serves out bridge
      (bridge.routeTaskToggle out order deviceId slotCount index taskId nowMs).2 := by
  unfold routeTaskToggle
  split
  · split
    · exact .refl bridge
    next task htask =>
      have hasked : Serves out bridge (bridge.call (out.isForeground task.ownerAgent)).2 :=
        .call (.single (.isForeground _ _))
      simp only
      split
      · exact hasked.trans (.tell (.single (.minimize _ _)))
      · refine hasked.trans (Serves.trans ?_ (.tell (.single (.showAndFocus _ _))))
        exact (serves_routeTaskButton out order _ _ _ _ _ _ _).trans
          (serves_routeTaskButton out order _ _ _ _ _ _ _)
  · exact .refl bridge

/-! ## The desktop and the catalog -/

theorem serves_routeDesktopDictation (bridge : BridgeRuntime World) (pressed : Bool) :
    Serves out bridge (bridge.routeDesktopDictation out pressed).2 := by
  have hasked : Serves out bridge
      (bridge.call (dictationTarget out [.zCode, .hermes, .claude])).2 :=
    .call (worldSteps_dictationTarget out _ _)
  simp only [routeDesktopDictation]
  split
  · exact hasked
  · exact hasked.trans (.tell (.single (.setMicrophone _ _ _)))

theorem serves_routeCatalogTaskNavigation (bridge : BridgeRuntime World) (deviceId : String)
    (action : CatalogAction) (nowMs : Nat) :
    Serves out bridge (bridge.routeCatalogTaskNavigation order deviceId action nowMs) := by
  unfold routeCatalogTaskNavigation
  split
  · exact .refl bridge
  next target htarget =>
    split
    · exact .refl bridge
    · have hselected := @Serves.select _ out bridge order (.select deviceId target nowMs)
        trivial _ rfl
      simp only
      split
      · exact hselected
      · exact hselected.trans (.of_eq rfl)

theorem serves_routeCatalogAction (bridge : BridgeRuntime World) (deviceId : String)
    (action : CatalogAction) (nowMs : Nat) :
    Serves out bridge (bridge.routeCatalogAction out order deviceId action nowMs) := by
  unfold routeCatalogAction
  split
  · exact serves_routeCatalogTaskNavigation out order bridge deviceId action nowMs
  · simp only
    split
    · exact .tell (.single (.searchTasks _))
    · split
      · exact .tell (.single (.toggleTerminal _))
      · exact .of_eq rfl

theorem serves_routeUsageSelect (bridge : BridgeRuntime World) (agent : UsageAgent) :
    Serves out bridge (bridge.routeUsageSelect out order agent) := by
  have hasked : Serves out bridge
      (({ bridge with usageAgent := agent } : BridgeRuntime World).call out.instant).2 :=
    .call (a := { bridge with usageAgent := agent }) (.single (.instant _))
  unfold routeUsageSelect
  simp only
  refine Serves.trans ?_ (serves_refresh out order _)
  refine Serves.trans ?_ (.of_eq (decks_patchDisplayContextUsage _))
  refine Serves.trans ?_ (serves_autoDeriveDisplayContext out order _)
  split
  · exact hasked.trans (serves_requestUsageRefresh out _ agent)
  · exact hasked

theorem serves_routeModelCycle (bridge : BridgeRuntime World) :
    Serves out bridge (bridge.routeModelCycle out order) := by
  unfold routeModelCycle
  split
  · have hasked : Serves out bridge (bridge.call out.systemTime).2 :=
      .call (.single (.systemTime _))
    exact hasked.trans (.of_eq rfl)
  · have hasked : Serves out bridge (bridge.call out.cycleModel).2 :=
      .call (.single (.cycleModel _))
    simp only
    split
    · exact hasked
    next model hmodel =>
      have hmodelled := @Serves.select _ out (bridge.call out.cycleModel).2 order
        (.setSelectedModel model) trivial _ rfl
      refine Serves.trans ?_ (serves_refresh out order _)
      exact hasked.trans (hmodelled.trans (.of_eq rfl))

/-! ## Micro positions -/

theorem serves_sendRadial (bridge : BridgeRuntime World) (event : PhysicalEvent) :
    Serves out bridge (bridge.sendRadial out event).2 := by
  simp only [sendRadial]
  split
  · exact .of_eq rfl
  next message hmessage =>
    have hturned : Serves out bridge
        { bridge with radialState := (bridge.radialState.event event).2 } := .of_eq rfl
    split
    · exact hturned.trans (serves_sendCodex out _ message)
    · exact hturned

theorem serves_routePosition (bridge : BridgeRuntime World) (nowMs index : Nat) (pressed : Bool)
    (event : PhysicalEvent) :
    Serves out bridge (bridge.routePosition out nowMs index pressed event).2 := by
  unfold routePosition
  split
  · exact serves_sendRadial out bridge event
  · refine Serves.trans ?_ (serves_sendRadial out _ event)
    split
    · exact .refl bridge
    · exact .of_eq rfl
  · exact .of_eq rfl

theorem serves_routeMicroEvent (bridge : BridgeRuntime World) (nowMs : Nat)
    (event : PhysicalEvent) : Serves out bridge (bridge.routeMicroEvent out nowMs event).2 := by
  unfold routeMicroEvent
  split
  · exact serves_routePosition out bridge nowMs _ _ _
  · exact serves_routePosition out bridge nowMs _ _ _
  · exact serves_sendRadial out bridge _

/-! ## The event loops -/

/-- A button that is no task card is a Micro position. -/
theorem serves_dictation (bridge : BridgeRuntime World) (pressed : Bool) (nowMs : Nat)
    (event : PhysicalEvent) {other : BridgeRuntime World}
    (hother : other = (bridge.routeDesktopDictation out pressed).2 ∨
      other = (bridge.routeDesktopDictation out pressed).2.tell
        (out.setMicrophone .codex pressed) ∨
      other = ((bridge.routeDesktopDictation out pressed).2.routeMicroEvent out nowMs event).2) :
    Serves out bridge other := by
  have hdictated := serves_routeDesktopDictation out bridge pressed
  rcases hother with rfl | rfl | rfl
  · exact hdictated
  · exact hdictated.trans (.tell (.single (.setMicrophone _ _ _)))
  · exact hdictated.trans (serves_routeMicroEvent out _ nowMs event)

theorem serves_pollEvent (bridge : BridgeRuntime World) (nowMs : Nat) (event : PhysicalEvent) :
    Serves out bridge (bridge.pollEvent out order nowMs event).2 := by
  unfold pollEvent
  split
  next pressed =>
    refine serves_dictation out bridge pressed nowMs (.encoderButton 2 pressed) ?_
    simp only
    split
    · exact .inl rfl
    · split
      · exact .inr (.inl rfl)
      · exact .inr (.inr rfl)
  · exact serves_routeModelCycle out order bridge
  · exact serves_routeUsageSelect out order bridge _
  · exact .of_eq (decks_routeTaskAction order bridge _ _ _ _ _ _)
  · exact serves_routeTaskButton out order bridge _ _ _ _ _ _
  · exact serves_routeCatalogAction out order bridge _ _ _
  next index pressed =>
    have hrouted := serves_routeTaskButton out order bridge bridge.taskDeviceId
      bridge.taskSlotCount index pressed none nowMs
    simp only
    split
    · exact hrouted
    · split
      · exact hrouted
      · exact hrouted.trans (serves_routeMicroEvent out _ nowMs _)
  · exact serves_routeMicroEvent out bridge nowMs _

theorem serves_pollEvents (nowMs : Nat) (events : List PhysicalEvent)
    (bridge : BridgeRuntime World) :
    Serves out bridge (pollEvents out order nowMs events bridge).2 := by
  induction events generalizing bridge with
  | nil => exact .refl bridge
  | cons event events ih =>
      have hrouted := serves_pollEvent out order bridge nowMs event
      simp only [pollEvents]
      split
      · exact hrouted
      · exact hrouted.trans (ih _)

theorem serves_routeTaskDeviceEvent (bridge : BridgeRuntime World) (deviceId : String)
    (slotCount nowMs : Nat) (event : PhysicalEvent) : Serves out bridge
      (bridge.routeTaskDeviceEvent out order deviceId slotCount nowMs event) := by
  unfold routeTaskDeviceEvent
  split
  next pressed =>
    refine serves_dictation out bridge pressed nowMs (.encoderButton 2 pressed) ?_
    simp only
    split
    · exact .inl rfl
    · split
      · exact .inr (.inl rfl)
      · exact .inr (.inr rfl)
  · exact serves_routeModelCycle out order bridge
  · exact serves_routeUsageSelect out order bridge _
  · exact serves_routeTaskToggle out order bridge _ _ _ _ _
  · exact .of_eq (decks_routeTaskAction order bridge _ _ _ _ _ _)
  · exact serves_routeTaskButton out order bridge _ _ _ _ _ _
  · exact serves_routeCatalogAction out order bridge _ _ _
  next index pressed =>
    have hrouted := serves_routeTaskButton out order bridge deviceId slotCount index pressed
      none nowMs
    simp only
    split
    · exact hrouted
    · split
      · exact hrouted
      · exact hrouted.trans (serves_routeMicroEvent out _ nowMs _)
  · exact serves_routeMicroEvent out bridge nowMs _

theorem serves_routeTaskDeviceEvents (bridge : BridgeRuntime World) (deviceId : String)
    (slotCount : Nat) (events : List PhysicalEvent) : Serves out bridge
      (bridge.routeTaskDeviceEvents out order deviceId slotCount events) := by
  have hasked : Serves out bridge (bridge.call out.systemTime).2 :=
    .call (.single (.systemTime _))
  simp only [routeTaskDeviceEvents, routeDeviceEvents]
  refine hasked.trans ?_
  generalize (bridge.call out.systemTime).2 = asked
  induction events generalizing asked with
  | nil => exact .refl asked
  | cons event events ih =>
      exact (serves_routeTaskDeviceEvent out order asked deviceId slotCount _ event).trans (ih _)

/-! ## Polling -/

/-- While a loop runs over the list it has taken out, serving events leaves the list alone. -/
theorem Serves.frame {a b : BridgeRuntime World} (h : Serves out a b)
    (hnil : a.auxControllers = []) (list : List AuxController) :
    b.auxControllers = [] ∧ ServeSteps out (a.decksWith list) (b.decksWith list) := by
  obtain ⟨hempty, hsteps⟩ := DeckSteps.frame h hnil
  exact ⟨hempty, hsteps list⟩

/-- The polling loop keeps or drops one controller after the other. -/
theorem steps_pollAux (auxes kept : List AuxController) (bridge : BridgeRuntime World)
    (hnil : bridge.auxControllers = []) :
    ServeSteps out (bridge.decksWith (kept ++ auxes))
      ((pollAux out order auxes bridge).2.decksWith
        (kept ++ (pollAux out order auxes bridge).1)) := by
  induction auxes generalizing kept bridge with
  | nil => exact .refl
  | cons aux auxes ih =>
      have hpolled : ServeSteps out (bridge.decksWith (kept ++ aux :: auxes))
          ((bridge.call (out.poll aux.device)).2.decksWith (kept ++ aux :: auxes)) :=
        .of_world (bridge.decksWith (kept ++ aux :: auxes)) (.single (.poll _ _))
      refine ReflTransGen.trans hpolled ?_
      simp only [pollAux]
      have hnilPolled : (bridge.call (out.poll aux.device)).2.auxControllers = [] := hnil
      generalize bridge.call (out.poll aux.device) = polled at hnilPolled
      split
      next events hevents =>
        obtain ⟨hempty, hserved⟩ := (serves_routeTaskDeviceEvents out order polled.2
          aux.deviceId aux.slots events).frame out hnilPolled (kept ++ aux :: auxes)
        have hkept := ih (kept ++ [aux]) _ hempty
        rw [List.append_assoc, List.append_assoc] at hkept
        exact hserved.trans hkept
      next error herror =>
        refine ReflTransGen.trans (DeckSteps.of_world
          (polled.2.decksWith (kept ++ aux :: auxes))
          (.single (.shutdown aux.device _))) ?_
        split
        next htask =>
          refine .head ?_ (ih kept _ hnilPolled)
          exact .forget order kept aux auxes rfl (Option.isNone_iff_eq_none.mp htask.1) htask.2
        next htask =>
          refine .head ?_ (ih kept _ hnilPolled)
          exact .drop order kept aux auxes rfl

theorem serves_pollPrimary (bridge : BridgeRuntime World) :
    Serves out bridge (bridge.pollPrimary out order).2 := by
  unfold pollPrimary
  split
  · exact .refl bridge
  next device hdevice =>
    have hpolled : Serves out bridge (bridge.call (out.poll device)).2 :=
      .call (.single (.poll _ _))
    simp only
    split
    · exact hpolled.trans (serves_detachController out _)
    · have hasked : Serves out (bridge.call (out.poll device)).2
          ((bridge.call (out.poll device)).2.call out.systemTime).2 :=
        .call (.single (.systemTime _))
      exact (hpolled.trans hasked).trans (serves_pollEvents out order _ _ _)

theorem serves_pollController (bridge : BridgeRuntime World) :
    Serves out bridge (bridge.pollController out order).2 := by
  have hpolled := serves_pollPrimary out order bridge
  unfold pollController
  simp only
  split
  · exact hpolled
  · exact hpolled.trans (steps_pollAux out order _ []
      { (bridge.pollPrimary out order).2 with auxControllers := [] } rfl)

end BridgeRuntime

end Bridge
end MicroEmu
