import MicroEmu.Daemon.Registry

/-!
# The rounds of the main loop

Every part of a round is a number of steps of the registry, and the operations it makes on
the board are made in the name of one party: the session a message is from, Codex, an automatic
feed, or the loop itself.
-/

namespace MicroEmu
namespace Daemon

open Json (Value)
open Routing (AgentId)
open Bridge (AuxController BridgeRuntime ControllerKind Decks DeckStep DeckSteps Device Outside
  WorldSteps)
open Bridge.BridgeRuntime (Serves Works)
open Tasks (Op TaskBoard WalkOrder)
open Relation (ReflTransGen)

/-! ## Parties -/

/-- In whose name a part of the round works. -/
inductive Party where
  | client (session : Nat) (agent : Option AgentId) (publishes : Bool)
  | codex
  | feed (agent : AgentId)
  | loop
  deriving DecidableEq

/-- The operations that are made in the name of a party. -/
def Party.may : Party → Op → Prop
  | .client session agent publishes, op => op.IsFor session agent publishes
  | .codex, .publishCodexSnapshot .. => True
  | .codex, .publishCodexHidStatus .. => True
  | .codex, .clearSession session => session = 0
  | .feed agent, .publishTasks session publishing _ _ =>
      DaemonState.autoFeedSession agent = some session ∧ publishing = agent
  | .feed agent, .clearSession session => DaemonState.autoFeedSession agent = some session
  | .loop, .expire _ => True
  | _, op => op.IsSelection

theorem Party.may_of_isSelection (party : Party) {op : Op} (h : op.IsSelection) :
    party.may op := by
  cases party with
  | client session agent publishes => exact h.isFor session agent publishes
  | codex => cases op <;> first | exact h.elim | exact h
  | feed agent => cases op <;> first | exact h.elim | exact h
  | loop => cases op <;> first | exact h.elim | exact h

theorem Party.may.keepsSlots {party : Party} {op : Op} (h : party.may op) : op.KeepsSlots := by
  cases party with
  | client session agent publishes => exact Op.IsFor.keepsSlots h
  | codex => cases op <;> trivial
  | feed agent => cases op <;> trivial
  | loop => cases op <;> trivial

/-- The message asks for `publish_tasks`. -/
def LoopMessage.publishes : LoopMessage → Bool
  | .session (.request _ request) => DaemonState.callsPublishTasks request
  | _ => false

/-- The party of a part of the round. -/
def LoopState.party {World : Type} (state : LoopState World) : LoopInput World → Party
  | .message _ sent =>
      .client sent.sender (state.daemon.sessionAgent sent.sender) sent.publishes
  | .codexMessage .. => .codex
  | .codexSnapshot .. => .codex
  | .clearHid .. => .codex
  | .feed _ agent _ => .feed agent
  | _ => .loop

section

variable {World : Type} {host : Host World} {party : Party}
  {loses : Decks World → AuxController → Prop}

/-- What the bridge does in the name of a party. -/
abbrev WorksAs (host : Host World) (party : Party) (loses : Decks World → AuxController → Prop)
    (before after : BridgeRuntime World) : Prop :=
  Works host.toOutside party.may loses before after

theorem worksAs_of_serves {before after : BridgeRuntime World}
    (h : Serves host.toOutside before after) : WorksAs host party loses before after :=
  h.works fun _ hop => party.may_of_isSelection hop

theorem worksAs_board (bridge : BridgeRuntime World) (order : WalkOrder) (op : Op)
    (h : party.may op) : WorksAs host party loses bridge
      { bridge with taskBoard := bridge.taskBoard.apply order op } := .board bridge order op h rfl

theorem worksAs_refresh (order : WalkOrder) (bridge : BridgeRuntime World) :
    WorksAs host party loses bridge (bridge.refresh host.toOutside order) :=
  worksAs_of_serves (BridgeRuntime.serves_refresh host.toOutside order bridge)

/-- A refresh does not ask for more than the decks. -/
theorem WorksAs.refresh {before middle changed : BridgeRuntime World}
    (h : WorksAs host party loses before middle) (order : WalkOrder)
    (hdecks : changed.decks = middle.decks) :
    WorksAs host party loses before (changed.refresh host.toOutside order) :=
  (h.trans (.of_eq hdecks)).trans (worksAs_refresh order changed)

theorem worksAs_systemTime (bridge : BridgeRuntime World) :
    WorksAs host party loses bridge (bridge.call host.systemTime).2 :=
  worksAs_of_serves (.call (.single (.systemTime _)))

/-! ## Usage figures and Codex messages -/

theorem serves_refreshWantedUsage (sessionAgents : AgentId → Bool) (pluginConnected : Bool)
    (bridge : BridgeRuntime World) : Serves host.toOutside bridge
      (refreshWantedUsage host sessionAgents pluginConnected bridge).2 := by
  have hcodex (wanted : Bool) : Serves host.toOutside bridge
      (if wanted then bridge.requestUsageRefresh host.toOutside .codex else bridge) := by
    split
    · exact BridgeRuntime.serves_requestUsageRefresh host.toOutside bridge .codex
    · exact .refl bridge
  unfold refreshWantedUsage
  simp only
  split
  · exact (hcodex _).trans (BridgeRuntime.serves_requestUsageRefresh host.toOutside _ .zCode)
  · exact hcodex _

theorem serves_showUsage (order : WalkOrder) (bridge : BridgeRuntime World) :
    Serves host.toOutside bridge (showUsage host order bridge) := by
  unfold showUsage
  split
  · exact .of_eq (BridgeRuntime.decks_patchDisplayContextUsage bridge)
  · exact BridgeRuntime.serves_autoDeriveDisplayContext host.toOutside order bridge

theorem serves_showThreadStatus (bridge : BridgeRuntime World) (parameters : Value) :
    Serves host.toOutside bridge (showThreadStatus host bridge parameters).2 := by
  have hkept : Serves host.toOutside bridge { bridge with
      lastThreadStatus := some parameters
      fusedLcd := (bridge.fusedLcd.mergeFromAgent .codex parameters bridge.partition).2 } :=
    .of_eq rfl
  unfold showThreadStatus
  simp only
  split
  · exact hkept
  · split
    · exact hkept
    next device hdevice =>
      refine hkept.trans ?_
      split
      · exact .call (.single (.applyThreadStatus device _ _))
      · split
        · exact .call (.single (.applyThreadStatus device _ _))
        · exact .call (.single (.applyThreadStatus device _ _))

theorem serves_showRgbConfig (bridge : BridgeRuntime World) (parameters : Value) :
    Serves host.toOutside bridge (showRgbConfig host bridge parameters).2 := by
  have hkept : Serves host.toOutside bridge
      { bridge with lastRgbConfig := some parameters } := .of_eq rfl
  unfold showRgbConfig
  simp only
  split
  · exact hkept
  next device hdevice =>
    refine hkept.trans ?_
    split
    · exact .call (.single (.applyRgbConfig device _ _))
    · split
      · exact .call (.single (.applyRgbConfig device _ _))
      · exact .call (.single (.applyRgbConfig device _ _))

/-- The answer to a message writes to the controller only. -/
theorem serves_answered {bridge : BridgeRuntime World} (message : Value)
    (shown : Except ProcessError Unit × BridgeRuntime World)
    (h : Serves host.toOutside bridge shown.2) : Serves host.toOutside bridge
      (match shown.1 with
        | .error error => (.error error, shown.2)
        | .ok () =>
            match rpcAckResponse message with
            | none => (.ok (), shown.2)
            | some response =>
                let written := shown.2.sendCodex host.toOutside response
                (written.1.mapError .serial, written.2) :
          Except ProcessError Unit × BridgeRuntime World).2 := by
  split
  · exact h
  · split
    · exact h
    · exact h.trans (BridgeRuntime.serves_sendCodex host.toOutside _ _)

theorem serves_processCodexMessage (bridge : BridgeRuntime World) (message : Value) :
    Serves host.toOutside bridge (processCodexMessage host bridge message).2 := by
  unfold processCodexMessage
  refine serves_answered message _ ?_
  split
  · exact serves_showThreadStatus bridge _
  · exact serves_showRgbConfig bridge _
  · exact .refl bridge

end

/-- The registry of a bridge and its plugin sessions. -/
def registryOf {World : Type} (bridge : BridgeRuntime World) (sessions : List (Nat × String)) :
    Registry World :=
  { bridge.decks with sessions := sessions }

namespace LoopState

variable {World : Type} (host : Host World) (state : LoopState World)
  {loses : Decks World → AuxController → Prop}

/-- The registry of the loop. -/
def registry : Registry World := registryOf state.bridge state.pluginSessions

/-! ## Parts that only work on the bridge -/

theorem worksAs_publishHidStatus (order : WalkOrder) (parameters : Value) :
    WorksAs host .codex loses state.bridge (state.publishHidStatus host order parameters) := by
  have hexplicit : WorksAs host .codex loses state.bridge
      { state.bridge with hasExplicitTaskState := true } := .of_eq rfl
  have hpublished : WorksAs host .codex loses state.bridge
      (if state.codexSnapshotAvailable then
        ({ state.bridge with hasExplicitTaskState := true } : BridgeRuntime World)
      else
        let asked := ({ state.bridge with hasExplicitTaskState := true } :
          BridgeRuntime World).call host.systemTime
        { asked.2 with
          taskBoard := (asked.2.taskBoard.publishCodexHidStatus order parameters
            asked.1).2 }) := by
    split
    · exact hexplicit
    · refine (hexplicit.trans (worksAs_systemTime _)).trans ?_
      exact worksAs_board _ order (.publishCodexHidStatus parameters _) trivial
  refine hpublished.trans ?_
  exact (worksAs_of_serves (BridgeRuntime.serves_autoDeriveDisplayContext host.toOutside order
    _)).trans (worksAs_refresh order _)

/-- A message that fails at the controller detaches it. -/
theorem worksAs_processed (message : Value) {published : BridgeRuntime World}
    (h : WorksAs host .codex loses state.bridge published) :
    WorksAs host .codex loses state.bridge
      (match (processCodexMessage host published message).1 with
        | .error (.controller _) => state.withBridge
            ((processCodexMessage host published message).2.detachController host.toOutside)
        | _ => state.withBridge (processCodexMessage host published message).2 :
          LoopState World).bridge := by
  have hprocessed := h.trans (worksAs_of_serves (serves_processCodexMessage published message))
  split
  · exact hprocessed.trans
      (worksAs_of_serves (BridgeRuntime.serves_detachController host.toOutside _))
  · exact hprocessed

theorem worksAs_codexMessage (order : WalkOrder) (message : Value) :
    WorksAs host .codex loses state.bridge (state.codexMessage host order message).bridge := by
  unfold codexMessage
  refine worksAs_processed host state message ?_
  split
  · split
    · exact worksAs_publishHidStatus host state order _
    · exact .refl _
  · exact .refl _

theorem worksAs_codexSnapshot (order : WalkOrder) (snapshot : Value) :
    WorksAs host .codex loses state.bridge (state.codexSnapshot host order snapshot).bridge := by
  have hasked : WorksAs host .codex loses state.bridge (state.bridge.call host.systemTime).2 :=
    worksAs_systemTime state.bridge
  have hpublished := hasked.trans (worksAs_board _ order
    (.publishCodexSnapshot snapshot (state.bridge.call host.systemTime).1) trivial)
  unfold codexSnapshot
  simp only
  split
  · exact hpublished.trans (.of_eq rfl)
  · exact hpublished

theorem worksAs_clearHid (order : WalkOrder) :
    WorksAs host .codex loses state.bridge (state.clearHid host order).bridge := by
  unfold clearHid
  split
  · have hcleared := @worksAs_board _ host .codex loses state.bridge order (.clearSession 0) rfl
    simp only
    split
    · exact WorksAs.refresh hcleared order rfl
    · exact WorksAs.refresh hcleared order rfl
  · exact .refl _

theorem worksAs_feedOwned (order : WalkOrder) (agent : AgentId) {owner : Nat}
    (howner : DaemonState.autoFeedSession agent = some owner) (desktopActive : Bool)
    (snapshot : Option Value) : WorksAs host (.feed agent) loses state.bridge
      (state.feedOwned host order agent owner desktopActive snapshot).bridge := by
  unfold feedOwned
  simp only
  split
  · split
    · have hcleared : WorksAs host (.feed agent) loses state.bridge { state.bridge with
          taskBoard := state.bridge.taskBoard.clearSession order owner } :=
        worksAs_board _ order (.clearSession owner) howner
      exact WorksAs.refresh hcleared order rfl
    · exact .refl _
  · split
    · exact .refl _
    next snapshot =>
      have hasked : WorksAs host (.feed agent) loses state.bridge
          (state.bridge.call host.systemTime).2 := worksAs_systemTime state.bridge
      have hpublished := hasked.trans (worksAs_board _ order
        (.publishTasks owner agent snapshot (state.bridge.call host.systemTime).1) ⟨howner, rfl⟩)
      split
      · exact hpublished
      · exact WorksAs.refresh hpublished order rfl

theorem worksAs_feed (order : WalkOrder) (agent : AgentId) (snapshot : Option Value) :
    WorksAs host (.feed agent) loses state.bridge
      (state.feed host order snapshot agent).bridge := by
  cases agent with
  | codex => exact .refl _
  | zCode => exact worksAs_feedOwned host state order .zCode rfl _ snapshot
  | hermes => exact worksAs_feedOwned host state order .hermes rfl _ snapshot
  | claude => exact worksAs_feedOwned host state order .claude rfl _ snapshot

theorem worksAs_showUsage (order : WalkOrder) :
    WorksAs host .loop loses state.bridge (state.showUsage host order).bridge := by
  have hwanted := @worksAs_of_serves _ host .loop loses _ _
    (@serves_refreshWantedUsage _ host state.sessionAgents
      (!state.pluginSessions.isEmpty) state.bridge)
  unfold showUsage
  simp only
  split
  · exact (hwanted.trans (worksAs_of_serves (serves_showUsage order _))).trans
      (worksAs_refresh order _)
  · exact hwanted

end LoopState

/-! ## The controllers of the loop -/

section

variable {World : Type} {host : Host World} {party : Party} {allows : Allowance World}

/-- The steps that a part in the name of a party makes. -/
abbrev RoundSteps (host : Host World) (party : Party) (allows : Allowance World) :
    Registry World → Registry World → Prop :=
  RegistrySteps host party.may allows

theorem RegistrySteps.of_works {may : Op → Prop} {before after : BridgeRuntime World}
    (h : Works host.toOutside may allows.loses before after) (sessions : List (Nat × String)) :
    RegistrySteps host may allows (registryOf before sessions) (registryOf after sessions) := by
  have hdecks : ∀ {last : Decks World},
      DeckSteps host.toOutside may allows.loses before.decks last →
        RegistrySteps host may allows (registryOf before sessions)
          { last with sessions := sessions } := by
    intro last hsteps
    induction hsteps with
    | refl => exact .refl
    | tail _ hstep ih => exact ih.tail (.deck hstep)
  exact hdecks h

theorem RoundSteps.of_works {before after : BridgeRuntime World}
    (h : WorksAs host party allows.loses before after) (sessions : List (Nat × String)) :
    RoundSteps host party allows (registryOf before sessions)
      (registryOf after sessions) := RegistrySteps.of_works h sessions

theorem RoundSteps.of_serves {before after : BridgeRuntime World}
    (h : Serves host.toOutside before after) (sessions : List (Nat × String)) :
    RoundSteps host party allows (registryOf before sessions)
      (registryOf after sessions) := .of_works (worksAs_of_serves h) sessions

/-- The decks are the same. -/
theorem RoundSteps.of_eq {before after : BridgeRuntime World} (h : after.decks = before.decks)
    (sessions : List (Nat × String)) :
    RoundSteps host party allows (registryOf before sessions)
      (registryOf after sessions) := .of_works (.of_eq h) sessions

/-! ### Owners -/

theorem length_fillOwners (start stop : Nat) (agent : AgentId)
    (owners : List (Option AgentId)) :
    (fillOwners start stop agent owners).length = owners.length := by
  simp [fillOwners]

theorem length_splitOwners (slotCount : Nat) (active : List AgentId)
    (owners : List (Option AgentId)) :
    (splitOwners slotCount active owners).length = owners.length := by
  unfold splitOwners
  simp only
  generalize active.zipIdx = entries
  induction entries generalizing owners with
  | nil => rfl
  | cons entry entries ih => rw [List.foldl_cons, ih, length_fillOwners]

theorem length_automaticOwners (slotCount : Nat) (active : AgentId → Bool) :
    (automaticOwners slotCount active).length = slotCount := by
  unfold automaticOwners
  simp only
  split
  · simp
  · split
    · simp
    · rw [length_fillOwners, List.length_replicate]
    · rw [length_splitOwners, List.length_replicate]

/-- Every slot has an entry. -/
theorem length_taskSlotOwners (slotCount : Nat) (active : AgentId → Bool)
    (overrides : Option (List (Nat × AgentId))) :
    (taskSlotOwners slotCount active overrides).length = slotCount := by
  unfold taskSlotOwners
  generalize hentries : overrides.getD [] = entries
  clear hentries
  have hlength := length_automaticOwners slotCount active
  generalize automaticOwners slotCount active = owners at hlength
  induction entries generalizing owners with
  | nil => exact hlength
  | cons entry entries ih => exact ih _ (List.length_set.trans hlength)

theorem steps_applyOwners (order : WalkOrder) (active : AgentId → Bool)
    (bridge : BridgeRuntime World) (sessions : List (Nat × String)) :
    RoundSteps host party allows (registryOf bridge sessions)
      (registryOf (applyOwners host order active bridge) sessions) :=
  .single (.owners (registryOf bridge sessions) order _ (length_taskSlotOwners ..))

/-! ### Reconnecting -/

theorem connectController_ok {choice : ControllerKind} {serial : Option String} {world : World}
    {device : Device} (h : (connectController host choice serial world).1 = .ok (some device)) :
    device.kind = choice ∧ choice ≠ .none ∧ choice ≠ .streamDeckPlugin := by
  have hopened (kind : ControllerKind)
      (hanswer : ((host.connect kind serial world).1.map fun answer =>
        some (⟨kind, answer.1, answer.2⟩ : Device)) = .ok (some device)) : device.kind = kind := by
    cases hconnect : (host.connect kind serial world).1 with
    | error error =>
        rw [hconnect] at hanswer
        cases hanswer
    | ok answer =>
        rw [hconnect] at hanswer
        cases hanswer
        rfl
  unfold connectController at h
  cases choice with
  | none => cases h
  | streamDeckPlugin => cases h
  | ajazz | streamDeckPlus | streamDeckPlusXl | streamDeckXl =>
      exact ⟨hopened _ h, ControllerKind.noConfusion, ControllerKind.noConfusion⟩

theorem serves_replayPrimary (order : WalkOrder) (bridge : BridgeRuntime World) :
    Serves host.toOutside bridge (replayPrimary host order bridge).2 :=
  (BridgeRuntime.serves_autoSelect host.toOutside order bridge).trans
    (BridgeRuntime.serves_renderPrimary host.toOutside order _)

theorem steps_installController (order : WalkOrder) (bridge : BridgeRuntime World)
    {device : Device} (sessions : List (Nat × String)) (hnone : bridge.controller = none)
    (hkind : device.kind = bridge.controllerChoice) (hphysical : bridge.controllerChoice ≠ .none)
    (hplugin : bridge.controllerChoice ≠ .streamDeckPlugin) :
    RoundSteps host party allows (registryOf bridge sessions)
      (registryOf (installController host order bridge device) sessions) := by
  have hregistered : RoundSteps host party allows (registryOf bridge sessions)
      (registryOf (if bridge.taskMode then
        { bridge with
          controller := some device
          taskBoard := bridge.taskBoard.setDevice order bridge.taskDeviceId
            bridge.taskSlotCount true }
      else { bridge with controller := some device }) sessions) := by
    split
    · exact .single (.reconnect (registryOf bridge sessions) order device hnone hkind hphysical
        hplugin)
    · exact .single (.reconnectUnregistered (registryOf bridge sessions) device hnone hkind
        hphysical hplugin)
  refine ReflTransGen.trans hregistered ?_
  unfold installController
  simp only
  generalize (if bridge.taskMode then _ else _ : BridgeRuntime World) = registered
  have hreplayed : RoundSteps host party allows (registryOf registered sessions)
      (registryOf (replayPrimary host order registered).2 sessions) :=
    RoundSteps.of_serves (serves_replayPrimary order registered) sessions
  split
  · exact hreplayed.trans
      (RoundSteps.of_serves (BridgeRuntime.serves_detachController host.toOutside _) sessions)
  · refine hreplayed.trans ?_
    generalize (replayPrimary host order registered).2 = replayed
    have hrefreshed : Serves host.toOutside replayed
        (if replayed.taskMode then replayed.refresh host.toOutside order else replayed) := by
      split
      · exact BridgeRuntime.serves_refresh host.toOutside order replayed
      · exact .refl replayed
    have hasked := hrefreshed.trans (.call (.single (.instant _)))
    exact RoundSteps.of_serves (hasked.trans (.of_eq rfl)) sessions

/-- Connecting a controller is a move of the world that is allowed. -/
def Allowance.Connects (host : Host World) (allows : Allowance World) : Prop :=
  ∀ choice serial world, allows.moves world (connectController host choice serial world).2

theorem steps_reconnectControllerIfDue (hconnects : allows.Connects host) (order : WalkOrder)
    (bridge : BridgeRuntime World) (sessions : List (Nat × String)) :
    RoundSteps host party allows (registryOf bridge sessions)
      (registryOf (reconnectControllerIfDue host order bridge) sessions) := by
  unfold reconnectControllerIfDue
  split
  · exact .refl
  next hdue =>
    have hnone : bridge.controller = none := by
      cases hcontroller : bridge.controller with
      | none => rfl
      | some device => simp [hcontroller] at hdue
    have hasked : RoundSteps host party allows (registryOf bridge sessions)
        (registryOf (bridge.call host.instant).2 sessions) :=
      RoundSteps.of_serves (.call (.single (.instant _))) sessions
    have hnoneAsked : (bridge.call host.instant).2.controller = none := hnone
    simp only
    generalize bridge.call host.instant = asked at hasked hnoneAsked
    split
    · exact hasked
    · have hconnected : RoundSteps host party allows (registryOf bridge sessions)
          (registryOf (asked.2.call (connectController host asked.2.controllerChoice
            asked.2.controllerSerial)).2 sessions) :=
        hasked.tail (.outside (registryOf asked.2 sessions) _ (hconnects _ _ _))
      split
      · exact hconnected.trans (RoundSteps.of_serves
          (BridgeRuntime.serves_scheduleControllerRetry host.toOutside _) sessions)
      · exact hconnected
      next device hdevice =>
        have hanswer : (connectController host asked.2.controllerChoice asked.2.controllerSerial
          asked.2.world).1 = .ok (some device) := hdevice
        obtain ⟨hkind, hphysical, hplugin⟩ := connectController_ok hanswer
        exact hconnected.trans
          (steps_installController order _ sessions hnoneAsked hkind hphysical hplugin)

/-! ### Plugins -/

/-- The world after a number of controllers have been shut down. -/
def shutDown (host : Host World) (auxes : List AuxController) (world : World) : World :=
  auxes.foldl (fun world aux => (host.shutdown aux.device world).2) world

/-- Shutting down controllers changes the world only. -/
theorem tells_eq (auxes : List AuxController) (bridge : BridgeRuntime World) :
    auxes.foldl (fun bridge aux => bridge.tell (host.shutdown aux.device)) bridge =
      { bridge with world := shutDown host auxes bridge.world } := by
  induction auxes generalizing bridge with
  | nil => rfl
  | cons aux auxes ih => exact ih (bridge.tell (host.shutdown aux.device))

theorem worldSteps_shutDown (auxes : List AuxController) (world : World) :
    WorldSteps host.toOutside world (shutDown host auxes world) := by
  induction auxes generalizing world with
  | nil => exact .refl
  | cons aux auxes ih => exact .head (.shutdown aux.device world) (ih _)

/-- A plugin that is told to leave is not attached afterwards.  If it was, it leaves the task
device and the board too; if it was not, nothing happens. -/
structure Releases (host : Host World) (party : Party) (allows : Allowance World)
    (deviceId : String) (before after : Registry World) : Prop where
  steps : RoundSteps host party allows before after
  detached : ¬after.Attached deviceId
  cleared : before.Attached deviceId → after.Left deviceId
  unchanged : ¬before.Attached deviceId → after = before

/-- What holds of a device that has left, and held of one that was not attached, holds after the
release. -/
theorem Releases.elim {deviceId : String} {before after : Registry World}
    {holds : Registry World → Prop} (h : Releases host party allows deviceId before after)
    (hleft : ∀ registry : Registry World, ¬registry.Attached deviceId →
      registry.Left deviceId → holds registry)
    (hstays : ¬before.Attached deviceId → holds before) : holds after := by
  by_cases hattached : before.Attached deviceId
  · exact hleft after h.detached (h.cleared hattached)
  · rw [h.unchanged hattached]
    exact hstays hattached

theorem releases_primary {bridge : BridgeRuntime World} {sessions : List (Nat × String)}
    (hsound : Sound (registryOf bridge sessions)) (order : WalkOrder) {device : Device}
    (hcontroller : bridge.controller = some device) (hkind : device.kind = .streamDeckPlugin)
    (hne : bridge.taskDeviceId ≠ "none") :
    Releases host party allows bridge.taskDeviceId (registryOf bridge sessions)
      (registryOf (detachPluginController host order bridge.taskDeviceId bridge) sessions) := by
  have hplugin : (registryOf bridge sessions).PluginPrimary := ⟨device, hcontroller, hkind⟩
  obtain ⟨-, -, -, -, haux⟩ := hsound.primary device hcontroller hkind
  have htold : RoundSteps host party allows (registryOf bridge sessions)
      (registryOf (bridge.tell (host.shutdown device)) sessions) :=
    RoundSteps.of_serves (.tell (.single (.shutdown _ _))) sessions
  have hafter : detachPluginController host order bridge.taskDeviceId bridge =
      { ({ bridge with controller := none } : BridgeRuntime World).tell (host.shutdown device) with
        taskBoard := (bridge.taskBoard.setDevice order bridge.taskDeviceId 0 false).setSlotOwners
          order "none" []
        taskDeviceId := "none"
        taskSlotCount := 0 } := by
    unfold detachPluginController
    rw [if_pos ⟨rfl, by rw [hcontroller]; simp [hkind]⟩]
    simp only [hcontroller]
    rfl
  rw [hafter]
  refine ⟨htold.tail (.releasePrimary (registryOf (bridge.tell (host.shutdown device)) sessions)
    order device hcontroller hkind), ?_,
    fun _ => ⟨hne.symm, TaskBoard.not_registered_setSlotOwners order _ _ _ _⟩,
    fun hnot => absurd (.inl ⟨hplugin, rfl⟩) hnot⟩
  rintro (⟨⟨other, hother, -⟩, -⟩ | hmem)
  · cases hother
  · exact haux hmem

/-- The ids of the list without those of one device. -/
theorem not_mem_map_filter (auxes : List AuxController) (deviceId : String) :
    deviceId ∉ (auxes.filter (·.deviceId != deviceId)).map AuxController.deviceId := by
  simp

theorem releases_aux {bridge : BridgeRuntime World} {sessions : List (Nat × String)}
    (order : WalkOrder) {deviceId : String} (hne : deviceId ≠ "none")
    (hprimary : ¬(bridge.taskDeviceId = deviceId ∧
      bridge.controller.any (·.kind == .streamDeckPlugin)))
    (hmem : deviceId ∈ (registryOf bridge sessions).auxIds) :
    Releases host party allows deviceId (registryOf bridge sessions)
      (registryOf (detachPluginController host order deviceId bridge) sessions) := by
  have hnotPrimary : ¬((registryOf bridge sessions).PluginPrimary ∧
      bridge.taskDeviceId = deviceId) := by
    rintro ⟨⟨device, hdevice, hkind⟩, htask⟩
    refine hprimary ⟨htask, ?_⟩
    rw [show bridge.controller = some device from hdevice]
    simp [hkind]
  have hremoved : (bridge.auxControllers.filter (·.deviceId == deviceId)).isEmpty = false := by
    obtain ⟨aux, haux, hid⟩ := List.mem_map.mp hmem
    rw [List.isEmpty_eq_false_iff_exists_mem]
    exact ⟨aux, List.mem_filter.mpr ⟨haux, beq_iff_eq.mpr hid⟩⟩
  generalize hgone : bridge.auxControllers.filter (·.deviceId == deviceId) = gone at hremoved
  have hworks : WorksAs host party allows.loses bridge
      { bridge with world := shutDown host gone bridge.world } :=
    DeckSteps.of_world bridge.decks (worldSteps_shutDown gone bridge.world)
  have htold : RoundSteps host party allows (registryOf bridge sessions)
      { registryOf bridge sessions with world := shutDown host gone bridge.world } :=
    RoundSteps.of_works hworks sessions
  have hclosed := @tells_eq _ host gone
    { bridge with auxControllers := bridge.auxControllers.filter (·.deviceId != deviceId) }
  by_cases htask : bridge.taskDeviceId = deviceId
  · subst htask
    have hafter : registryOf (detachPluginController host order bridge.taskDeviceId bridge)
        sessions = { registryOf bridge sessions with
          world := shutDown host gone bridge.world
          auxControllers := bridge.auxControllers.filter (·.deviceId != bridge.taskDeviceId)
          taskDeviceId := "none"
          taskSlotCount := 0
          taskBoard := (bridge.taskBoard.setDevice order bridge.taskDeviceId 0
            false).setSlotOwners order "none" [] } := by
      unfold detachPluginController
      rw [if_neg hprimary]
      simp only [hgone, hclosed, hremoved, Bool.false_eq_true, if_false, if_true]
      rfl
    rw [hafter]
    refine ⟨htold.tail (.releaseTask { registryOf bridge sessions with
        world := shutDown host gone bridge.world } order hmem fun h => hnotPrimary ⟨h, rfl⟩), ?_,
      fun _ => ⟨hne.symm, TaskBoard.not_registered_setSlotOwners order _ _ _ _⟩,
      fun hnot => absurd (.inr hmem) hnot⟩
    rintro (⟨-, hother⟩ | hfiltered)
    · exact hne hother.symm
    · exact not_mem_map_filter _ _ hfiltered
  · have hafter : registryOf (detachPluginController host order deviceId bridge) sessions =
        { registryOf bridge sessions with
          world := shutDown host gone bridge.world
          auxControllers := bridge.auxControllers.filter (·.deviceId != deviceId)
          taskBoard := bridge.taskBoard.setDevice order deviceId 0 false } := by
      unfold detachPluginController
      rw [if_neg hprimary]
      simp only [hgone, hclosed, hremoved, Bool.false_eq_true, if_false, htask]
      rfl
    rw [hafter]
    refine ⟨htold.tail (.releaseAux { registryOf bridge sessions with
        world := shutDown host gone bridge.world } order deviceId hmem htask), ?_,
      fun _ => ⟨htask, TaskBoard.not_registered_setDevice order _ _⟩,
      fun hnot => absurd (.inr hmem) hnot⟩
    rintro (⟨-, hother⟩ | hfiltered)
    · exact htask hother
    · exact not_mem_map_filter _ _ hfiltered

/-- Without a controller of the device there is nothing to release. -/
theorem releases_absent {bridge : BridgeRuntime World} {sessions : List (Nat × String)}
    (order : WalkOrder) {deviceId : String}
    (hprimary : ¬(bridge.taskDeviceId = deviceId ∧
      bridge.controller.any (·.kind == .streamDeckPlugin)))
    (hmem : deviceId ∉ (registryOf bridge sessions).auxIds) :
    Releases host party allows deviceId (registryOf bridge sessions)
      (registryOf (detachPluginController host order deviceId bridge) sessions) := by
  have hdetached : ¬(registryOf bridge sessions).Attached deviceId := by
    rintro (⟨⟨device, hdevice, hkind⟩, htask⟩ | haux)
    · refine hprimary ⟨htask, ?_⟩
      rw [show bridge.controller = some device from hdevice]
      simp [hkind]
    · exact hmem haux
  have hne : ∀ aux ∈ bridge.auxControllers, aux.deviceId ≠ deviceId := by
    rintro aux haux rfl
    exact hmem (List.mem_map.mpr ⟨aux, haux, rfl⟩)
  have hremoved : bridge.auxControllers.filter (·.deviceId == deviceId) = [] :=
    List.filter_eq_nil_iff.mpr fun aux haux => by simpa using hne aux haux
  have hkept : bridge.auxControllers.filter (·.deviceId != deviceId) = bridge.auxControllers :=
    List.filter_eq_self.mpr fun aux haux => by simpa using hne aux haux
  have hafter : detachPluginController host order deviceId bridge = bridge := by
    unfold detachPluginController
    rw [if_neg hprimary]
    simp only [hremoved, hkept]
    rfl
  rw [hafter]
  exact ⟨.refl, hdetached, fun h => absurd h hdetached, fun _ => rfl⟩

theorem releases_detachPluginController {bridge : BridgeRuntime World}
    {sessions : List (Nat × String)} (hsound : Sound (registryOf bridge sessions))
    (order : WalkOrder) {deviceId : String} (hne : deviceId ≠ "none") :
    Releases host party allows deviceId (registryOf bridge sessions)
      (registryOf (detachPluginController host order deviceId bridge) sessions) := by
  by_cases hprimary : bridge.taskDeviceId = deviceId ∧
      bridge.controller.any (·.kind == .streamDeckPlugin)
  · obtain ⟨rfl, hany⟩ := hprimary
    cases hcontroller : bridge.controller with
    | none =>
        rw [hcontroller] at hany
        cases hany
    | some device =>
        rw [hcontroller] at hany
        exact releases_primary hsound order hcontroller (beq_iff_eq.mp hany) hne
  · by_cases hmem : deviceId ∈ (registryOf bridge sessions).auxIds
    · exact releases_aux order hne hprimary hmem
    · exact releases_absent order hprimary hmem

/-- The installed plugin is the primary controller or an auxiliary one. -/
theorem steps_installPlugin (order : WalkOrder) (session : Nat) (instanceId : String)
    (slots : Nat) (bridge : BridgeRuntime World) (sessions : List (Nat × String))
    (hattached : ¬(registryOf bridge sessions).Attached (pluginId instanceId))
    (hgreets : allows.greets (registryOf bridge sessions) session instanceId slots) :
    RoundSteps host party allows (registryOf bridge sessions)
      (registryOf (installPlugin host order session instanceId slots bridge)
        ((sessions.filter fun entry => entry.2 != pluginId instanceId) ++
          [(session, pluginId instanceId)])) := by
  unfold installPlugin
  by_cases hbecomes : becomesPrimary bridge = true
  · rw [if_pos hbecomes]
    obtain ⟨hnone, hdevice⟩ := Bool.and_eq_true_iff.mp hbecomes
    have hstep := @RegistryStep.promote _ host party.may allows (registryOf bridge sessions)
      order session instanceId slots ((List.range slots).map bridge.partition.ownerOf)
      (Option.isNone_iff_eq_none.mp hnone) (beq_iff_eq.mp hdevice) hattached (by simp) hgreets
    refine .single ?_
    simp only
    split at hstep
    next hslots =>
      rw [if_pos hslots]
      exact hstep
    next hslots =>
      rw [if_neg hslots]
      exact hstep
  · rw [if_neg hbecomes]
    have hoccupied : ¬(bridge.controller = none ∧ bridge.taskDeviceId = "none") := by
      rintro ⟨hnone, hdevice⟩
      exact hbecomes (Bool.and_eq_true_iff.mpr
        ⟨Option.isNone_iff_eq_none.mpr hnone, beq_iff_eq.mpr hdevice⟩)
    have hstep := @RegistryStep.enlist _ host party.may allows (registryOf bridge sessions)
      order session instanceId slots hoccupied hattached hgreets
    refine .single ?_
    simp only
    split at hstep
    next hslots =>
      rw [if_pos hslots]
      exact hstep
    next hslots =>
      rw [if_neg hslots]
      exact hstep

/-- The plugin that says hello is not attached when its controller is installed. -/
theorem releases_replacePlugin {bridge : BridgeRuntime World} {sessions : List (Nat × String)}
    (hsound : Sound (registryOf bridge sessions)) (order : WalkOrder) (instanceId : String) :
    Releases host party allows (pluginId instanceId) (registryOf bridge sessions)
      (registryOf (replacePlugin host order (pluginId instanceId) sessions bridge) sessions) := by
  unfold replacePlugin
  split
  · exact releases_detachPluginController hsound order (pluginId_ne_none instanceId)
  next hmapped =>
    have hdetached : ¬(registryOf bridge sessions).Attached (pluginId instanceId) := by
      intro hattached
      have hmem : pluginId instanceId ∈ (registryOf bridge sessions).mapped := by
        rcases hattached with ⟨⟨device, hdevice, hkind⟩, htask⟩ | haux
        · obtain ⟨-, -, -, hmem, -⟩ := hsound.primary device hdevice hkind
          exact htask ▸ hmem
        · exact hsound.auxMapped _ haux
      obtain ⟨entry, hentry, hid⟩ := List.mem_map.mp hmem
      exact hmapped (List.any_eq_true.mpr ⟨entry, hentry, beq_iff_eq.mpr hid⟩)
    exact ⟨.refl, hdetached, fun hattached => absurd hattached hdetached, fun _ => rfl⟩

/-- Devices that have left the task device and the board may lose their session. -/
def Allowance.Leaves (allows : Allowance World) : Prop :=
  ∀ (registry : Registry World) (deviceId : String), ¬registry.Attached deviceId →
    registry.Left deviceId → allows.leaves registry deviceId

end

namespace LoopState

variable {World : Type} (host : Host World) {state : LoopState World} {party : Party}
  {allows : Allowance World}

/-- A plugin with these slots may be installed, whether it has to be released before or not. -/
def MayGreet (allows : Allowance World) (state : LoopState World) (session : Nat)
    (instanceId : String) (slots : Nat) : Prop :=
  (∀ registry : Registry World, ¬registry.Attached (pluginId instanceId) →
    registry.Left (pluginId instanceId) → allows.greets registry session instanceId slots) ∧
  (¬state.registry.Attached (pluginId instanceId) →
    allows.greets state.registry session instanceId slots)

/-- An installed plugin is shown the usage figures and the cards. -/
theorem serves_showHello (sessionAgents : AgentId → Bool) (order : WalkOrder)
    (installed : BridgeRuntime World) : Serves host.toOutside installed
      ((if (refreshWantedUsage host sessionAgents true installed).1 then
        Daemon.showUsage host order (refreshWantedUsage host sessionAgents true installed).2
      else (refreshWantedUsage host sessionAgents true installed).2).refresh host.toOutside
        order) := by
  have hwanted := @serves_refreshWantedUsage _ host sessionAgents true installed
  refine Serves.trans ?_ (BridgeRuntime.serves_refresh host.toOutside order _)
  split
  · exact hwanted.trans (serves_showUsage order _)
  · exact hwanted

theorem steps_controllerHello (hsound : Sound state.registry) (order : WalkOrder)
    (session : Nat) (instanceId : String) (taskSlots : Nat)
    (hgreets : MayGreet allows state session instanceId (min taskSlots maxPluginTaskSlots)) :
    RoundSteps host party allows state.registry
      (state.controllerHello host order session instanceId taskSlots).registry := by
  have hreleases :=
    @releases_replacePlugin _ host party allows _ _ hsound order instanceId
  have hinstalled := hreleases.steps.trans (steps_installPlugin order session instanceId
    (min taskSlots maxPluginTaskSlots) _ state.pluginSessions hreleases.detached
    (hreleases.elim hgreets.1 hgreets.2))
  exact hinstalled.trans
    (RoundSteps.of_serves (serves_showHello host state.sessionAgents order _) _)

/-- Removing the mapping of a session removes those of its device. -/
theorem removePluginSession_eq_some {session : Nat} {sessions others : List (Nat × String)}
    {deviceId : String} (hnodup : (sessions.map Prod.snd).Nodup)
    (h : removePluginSession session sessions = some (deviceId, others)) :
    deviceId ∈ sessions.map Prod.snd ∧
      others = sessions.filter fun entry => entry.2 != deviceId := by
  obtain ⟨entry, hfind, hentry⟩ := Option.map_eq_some_iff.mp h
  obtain ⟨rfl, rfl⟩ := Prod.mk.inj hentry
  clear h hentry
  induction sessions with
  | nil => cases hfind
  | cons first sessions ih =>
      rw [List.map_cons, List.nodup_cons] at hnodup
      by_cases hfirst : (first.1 == session) = true
      · rw [List.find?_cons_of_pos (by simpa using hfirst)] at hfind
        obtain rfl := Option.some.inj hfind
        refine ⟨List.mem_cons_self, ?_⟩
        have hothers : ∀ other ∈ sessions, (other.2 != first.2) = true := fun other hother =>
          bne_iff_ne.mpr fun heq => hnodup.1 (heq ▸ List.mem_map_of_mem hother)
        rw [List.eraseP_cons_of_pos (by simpa using hfirst), List.filter_cons_of_neg (by simp),
          List.filter_eq_self.mpr hothers]
      · rw [List.find?_cons_of_neg (by simpa using hfirst)] at hfind
        obtain ⟨hmem, hothers⟩ := ih hnodup.2 hfind
        refine ⟨List.mem_cons_of_mem _ hmem, ?_⟩
        have hne : (first.2 != entry.2) = true :=
          bne_iff_ne.mpr fun heq => hnodup.1 (heq ▸ hmem)
        rw [List.eraseP_cons_of_neg (by simpa using hfirst),
          List.filter_cons_of_pos (by simpa using hne), hothers]

/-- A plugin session ends: its plugin is released, and its mapping goes. -/
theorem steps_endPluginSession (hsound : Sound state.registry) (order : WalkOrder)
    {session : Nat} {deviceId : String} {others : List (Nat × String)}
    (hremoved : removePluginSession session state.pluginSessions = some (deviceId, others))
    (hleft : ∀ registry : Registry World, ¬registry.Attached deviceId →
      registry.Left deviceId → allows.leaves registry deviceId)
    (hleaves : ¬state.registry.Attached deviceId → allows.leaves state.registry deviceId) :
    RoundSteps host party allows state.registry
      (state.endSession host order session).registry := by
  obtain ⟨hmapped, rfl⟩ := removePluginSession_eq_some hsound.sessionsNodup hremoved
  obtain ⟨instanceId, hplugin⟩ := hsound.sessionPlugins deviceId hmapped
  have hreleases := @releases_detachPluginController _ host party allows _ _ hsound order
    deviceId (hplugin ▸ pluginId_ne_none instanceId)
  have hunmapped := hreleases.steps.tail
    (.unmap _ deviceId hreleases.detached (hreleases.elim hleft hleaves))
  unfold endSession
  rw [hremoved]
  exact hunmapped.trans
    (RoundSteps.of_serves (BridgeRuntime.serves_refresh host.toOutside order _) _)

/-! ## One part of a round -/

/-- The session whose end the input reports. -/
def endedSession : LoopInput World → Option Nat
  | .message _ (.session (.disconnected session)) => some session
  | .message _ (.session (.error session)) => some session
  | _ => none

/-- When the input ends a plugin session whose plugin is not attached, it may. -/
def MayEnd (leaves : Registry World → String → Prop) (state : LoopState World)
    (input : LoopInput World) : Prop :=
  ∀ session, endedSession input = some session → ∀ deviceId others,
    removePluginSession session state.pluginSessions = some (deviceId, others) →
      ¬state.registry.Attached deviceId → leaves state.registry deviceId

/-- When the input is a request that sets the display context, the auxiliary controllers that
refuse it may go. -/
def MayRefuse (loses : Decks World → AuxController → Prop) (state : LoopState World)
    (input : LoopInput World) : Prop :=
  ∀ order session request, input = .message order (.session (.request session request)) →
    DaemonState.RefusalsMayGo host.toOutside loses session state.daemon request

/-- What comes from outside with the input is allowed. -/
structure Allowed (allows : Allowance World) (state : LoopState World)
    (input : LoopInput World) : Prop where
  ends : state.MayEnd allows.leaves input
  refuses : state.MayRefuse host allows.loses input
  greets : ∀ order session instanceId taskSlots,
    input = .message order (.controllerHello session instanceId taskSlots) →
      state.MayGreet allows session instanceId (min taskSlots maxPluginTaskSlots)
  moves : ∀ world, input = .outside world → allows.moves state.bridge.world world

/-- A part that works on the bridge and leaves the plugin sessions alone. -/
theorem steps_of_worksAs {after : LoopState World}
    (h : WorksAs host party allows.loses state.bridge after.bridge)
    (hsessions : after.pluginSessions = state.pluginSessions) :
    RoundSteps host party allows state.registry after.registry := by
  unfold registry
  rw [hsessions]
  exact RoundSteps.of_works h state.pluginSessions

/-- The connections, their numbers and the plugin sessions are those of before. -/
structure SameConnections (state after : LoopState World) : Prop where
  accepted : after.accepted = state.accepted
  nextId : after.nextId = state.nextId
  pluginSessions : after.pluginSessions = state.pluginSessions

theorem connections_codexMessage (order : WalkOrder) (message : Value) :
    SameConnections state (state.codexMessage host order message) := by
  unfold codexMessage
  simp only
  split
  · exact ⟨rfl, rfl, rfl⟩
  · exact ⟨rfl, rfl, rfl⟩

theorem connections_codexSnapshot (order : WalkOrder) (snapshot : Value) :
    SameConnections state (state.codexSnapshot host order snapshot) := by
  unfold codexSnapshot
  simp only
  split
  · exact ⟨rfl, rfl, rfl⟩
  · exact ⟨rfl, rfl, rfl⟩

theorem connections_clearHid (order : WalkOrder) :
    SameConnections state (state.clearHid host order) := by
  unfold clearHid
  split
  · exact ⟨rfl, rfl, rfl⟩
  · exact ⟨rfl, rfl, rfl⟩

theorem connections_feed (order : WalkOrder) (agent : AgentId) (snapshot : Option Value) :
    SameConnections state (state.feed host order snapshot agent) := by
  have howned (agent : AgentId) (owner : Nat) (desktopActive : Bool) :
      SameConnections state
        (state.feedOwned host order agent owner desktopActive snapshot) := by
    unfold feedOwned
    simp only
    split
    · split
      · exact ⟨rfl, rfl, rfl⟩
      · exact ⟨rfl, rfl, rfl⟩
    · split
      · exact ⟨rfl, rfl, rfl⟩
      · split
        · exact ⟨rfl, rfl, rfl⟩
        · exact ⟨rfl, rfl, rfl⟩
  cases agent with
  | codex => exact ⟨rfl, rfl, rfl⟩
  | zCode => exact howned ..
  | hermes => exact howned ..
  | claude => exact howned ..

theorem connections_showUsage (order : WalkOrder) :
    SameConnections state (state.showUsage host order) := by
  unfold showUsage
  simp only
  split
  · exact ⟨rfl, rfl, rfl⟩
  · exact ⟨rfl, rfl, rfl⟩

theorem connections_pollController (order : WalkOrder) :
    SameConnections state (state.pollController host order) := by
  unfold pollController
  simp only
  split
  · exact ⟨rfl, rfl, rfl⟩
  · exact ⟨rfl, rfl, rfl⟩

theorem steps_endSession (hsound : Sound state.registry) (order : WalkOrder) (session : Nat)
    (hleft : allows.Leaves)
    (hleaves : ∀ deviceId others,
      removePluginSession session state.pluginSessions = some (deviceId, others) →
        ¬state.registry.Attached deviceId → allows.leaves state.registry deviceId) :
    RoundSteps host (.client session (state.daemon.sessionAgent session) false) allows
      state.registry (state.endSession host order session).registry := by
  cases hremoved : removePluginSession session state.pluginSessions with
  | some removed =>
      exact steps_endPluginSession host hsound order hremoved (fun registry => hleft registry _)
        (hleaves _ _ hremoved)
  | none =>
      unfold endSession
      rw [hremoved]
      exact RoundSteps.of_works (DaemonState.worksFor_endSession host.toOutside order state.daemon)
        state.pluginSessions

/-- The distribution of the task events leaves the bridge alone. -/
theorem bridge_routeTaskEvent (daemon : DaemonState World) (event : Nat × Value) :
    (daemon.routeTaskEvent event).bridge = daemon.bridge := by
  have hpushed (ids : List Nat) (daemon : DaemonState World) :
      (ids.foldl (fun daemon id => daemon.pushBack id event.2) daemon).bridge =
        daemon.bridge := by
    induction ids generalizing daemon with
    | nil => rfl
    | cons id ids ih =>
        rw [List.foldl_cons, ih]
        exact DaemonState.bridge_pushBack daemon id event.2
  unfold DaemonState.routeTaskEvent
  split
  · split
    · rfl
    · exact DaemonState.bridge_pushSessionEvent ..
  · split
    · exact hpushed _ daemon
    · exact DaemonState.bridge_pushBack ..

theorem decks_routeTaskEvents (daemon : DaemonState World) :
    daemon.routeTaskEvents.bridge.decks = daemon.bridge.decks := by
  have hrouted (events : List (Nat × Value)) (daemon : DaemonState World) :
      (events.foldl DaemonState.routeTaskEvent daemon).bridge = daemon.bridge := by
    induction events generalizing daemon with
    | nil => rfl
    | cons event events ih => rw [List.foldl_cons, ih, bridge_routeTaskEvent]
  rw [DaemonState.routeTaskEvents, hrouted]
  rfl

theorem decks_resolvePendingPolls (pretty : Value → String) (now : Nat)
    (daemon : DaemonState World) :
    (daemon.resolvePendingPolls pretty now).bridge.decks = daemon.bridge.decks := by
  have hresolved (polls : List PendingPoll) (daemon : DaemonState World) :
      (DaemonState.resolvePolls pretty now polls daemon).2.bridge.decks = daemon.bridge.decks := by
    induction polls generalizing daemon with
    | nil => rfl
    | cons poll polls ih =>
        unfold DaemonState.resolvePolls
        split
        · rw [ih, DaemonState.answerPoll, DaemonState.bridge_send]
          rfl
        · exact ih daemon
  exact hresolved daemon.pendingPolls daemon

theorem steps_handleMessage (hsound : Sound state.registry) (order : WalkOrder)
    (message : LoopMessage) (hleft : allows.Leaves)
    (hallowed : state.Allowed host allows (.message order message)) :
    RoundSteps host (.client message.sender (state.daemon.sessionAgent message.sender)
      message.publishes) allows state.registry
      (state.handleMessage host order message).registry := by
  cases message with
  | controllerHello session instanceId taskSlots =>
      exact steps_controllerHello host hsound order session instanceId taskSlots
        (hallowed.greets order session instanceId taskSlots rfl)
  | session message =>
      cases message with
      | connected session => exact .refl
      | request session request =>
          exact RoundSteps.of_works (DaemonState.worksFor_handleRequest host.toOutside order
            state.daemon request (hallowed.refuses order session request rfl)) state.pluginSessions
      | hello session info =>
          exact RoundSteps.of_serves (DaemonState.serves_hello host.toOutside order state.daemon
            session info) state.pluginSessions
      | disconnected session =>
          exact steps_endSession host hsound order session hleft (hallowed.ends session rfl)
      | error session =>
          exact steps_endSession host hsound order session hleft (hallowed.ends session rfl)

/-- Every part of a round is a number of steps of the registry, made in the name of one
party. -/
theorem steps_step (hsound : Sound state.registry) (input : LoopInput World)
    (hconnects : allows.Connects host) (hleft : allows.Leaves)
    (hallowed : state.Allowed host allows input) :
    RoundSteps host (state.party input) allows state.registry
      (state.step host input).registry := by
  unfold step
  split
  · exact .refl
  · cases input with
    | accept => exact .refl
    | outside world => exact .single (.outside state.registry world (hallowed.moves world rfl))
    | usageReady order cache =>
        have hcached : Serves host.toOutside state.bridge
            (({ state.bridge with usageCache := cache } :
              BridgeRuntime World).patchDisplayContextUsage) :=
          .of_eq (BridgeRuntime.decks_patchDisplayContextUsage _)
        exact RoundSteps.of_serves
          (hcached.trans (BridgeRuntime.serves_refresh host.toOutside order _)) _
    | message order message =>
        simp only [act]
        split
        · exact steps_handleMessage host hsound order message hleft hallowed
        · exact .refl
    | codexMessage order message =>
        exact steps_of_worksAs host (worksAs_codexMessage host state order message)
          (connections_codexMessage host order message).pluginSessions
    | replaceRuntime link => exact RoundSteps.of_eq rfl state.pluginSessions
    | codexSnapshot order snapshot =>
        exact steps_of_worksAs host (worksAs_codexSnapshot host state order snapshot)
          (connections_codexSnapshot host order snapshot).pluginSessions
    | reconnect order => exact steps_reconnectControllerIfDue hconnects order state.bridge _
    | expire order =>
        have hasked : WorksAs host .loop allows.loses state.bridge
            (state.bridge.call host.systemTime).2 := worksAs_systemTime state.bridge
        exact RoundSteps.of_works (hasked.trans
          (worksAs_board _ order (.expire (state.bridge.call host.systemTime).1) trivial)) _
    | refresh order => exact RoundSteps.of_works (worksAs_refresh order state.bridge) _
    | pollController order =>
        have hpolled : RoundSteps host .loop allows state.registry
            (registryOf (state.bridge.pollController host.toOutside order).2
              state.pluginSessions) :=
          RoundSteps.of_serves (BridgeRuntime.serves_pollController host.toOutside order _) _
        simp only [act, pollController]
        split
        · exact hpolled
        · exact hpolled.trans (steps_applyOwners order _ _ _)
    | routeTaskEvents => exact RoundSteps.of_eq (decks_routeTaskEvents state.daemon) _
    | clearHid order =>
        exact steps_of_worksAs host (worksAs_clearHid host state order)
          (connections_clearHid host order).pluginSessions
    | feed order agent snapshot =>
        exact steps_of_worksAs host (worksAs_feed host state order agent snapshot)
          (connections_feed host order agent snapshot).pluginSessions
    | probe => exact .refl
    | repartition order =>
        have hcomputed : RoundSteps host .loop allows state.registry
            (registryOf { state.bridge with
              partition := .compute state.effectiveActiveSet } state.pluginSessions) :=
          RoundSteps.of_eq rfl _
        have howned := hcomputed.trans (steps_applyOwners order state.effectiveActiveSet _ _)
        have hrefreshed := howned.trans (RoundSteps.of_works (worksAs_refresh order _) _)
        exact hrefreshed.trans (RoundSteps.of_works
          ((worksAs_systemTime _).trans (.of_eq rfl)) state.pluginSessions)
    | resolvePolls now => exact RoundSteps.of_eq (decks_resolvePendingPolls _ now state.daemon) _
    | usageTick order =>
        exact steps_of_worksAs host (worksAs_showUsage host state order)
          (connections_showUsage host order).pluginSessions

end LoopState

end Daemon
end MicroEmu
