import MicroEmu.Daemon.Held

/-!
# Plugins that leave

The end of a plugin session is seen twice: by the poll of its controller, when the channel has
closed, and by the main loop, when the reader thread says so.  The message releases what is
attached.  A poll that comes first detaches a primary plugin and leaves it the task device, so
that the message finds nothing to release.  As long as every message finds the plugin attached,
or finds that it has left, nothing of an ended plugin stays.
-/

namespace MicroEmu
namespace Daemon

open Json (Value)
open Bridge (AuxController BridgeRuntime ControllerKind Decks Device)
open Bridge.BridgeRuntime (Serves)
open Tasks (Op TaskBoard WalkOrder)
open Relation (ReflTransGen)

variable {World : Type}

/-! ## The invariant -/

/-- A plugin without a session is neither the task device nor on the board. -/
def Vacated (registry : Registry World) : Prop :=
  ∀ instanceId, pluginId instanceId ∉ registry.mapped → registry.Left (pluginId instanceId)

/-- A plugin session ends for a device that has left. -/
def Allowance.departures (World : Type) : Allowance World := { leaves := Registry.Left }

namespace Vacated

variable {host : Host World} {may : Op → Prop} {registry after : Registry World}

theorem deck {decks : Decks World} {deviceId : String} (h : registry.Left deviceId)
    (hne : deviceId ≠ "none")
    (hstep : Bridge.DeckStep host.toOutside may (fun _ _ => True) registry.toDecks decks)
    (hmay : ∀ op, may op → op.KeepsSlots) :
    Registry.Left { registry with toDecks := decks } deviceId := by
  cases hstep with
  | call hworld => exact h
  | board order op hop =>
      have hsame := TaskBoard.sameSlots_apply (hmay op hop) order registry.taskBoard
      exact ⟨h.1, fun hid => h.2 ((hsame.registered_iff deviceId).mp hid)⟩
  | detach => exact h
  | drop order kept aux rest hlist =>
      exact ⟨h.1, fun hid =>
        h.2 ((TaskBoard.registered_setDevice_false_iff order _ _ deviceId 0).mp hid).2⟩
  | forget order kept aux rest hlist hcontroller hdevice =>
      refine ⟨hne.symm, fun hid => h.2 ?_⟩
      have hcleared := (TaskBoard.registered_setSlotOwners_iff order _ _ deviceId _).mp hid
      exact ((TaskBoard.registered_setDevice_false_iff order _ _ deviceId 0).mp hcleared).2
  | lose kept aux rest hlist hlost => exact h

/-- Unregistering a device and handing its slots back leaves the others unregistered. -/
theorem left_release (order : WalkOrder) {other deviceId : String} (h : registry.Left deviceId)
    (auxControllers : List AuxController) (controller : Option Device)
    (hne : deviceId ≠ "none") : Registry.Left { registry with
      controller := controller
      auxControllers := auxControllers
      taskDeviceId := "none"
      taskSlotCount := 0
      taskBoard := (registry.taskBoard.setDevice order other 0 false).setSlotOwners order
        "none" [] } deviceId := by
  refine ⟨hne.symm, fun hid => h.2 ?_⟩
  have hcleared := (TaskBoard.registered_setSlotOwners_iff order _ _ deviceId _).mp hid
  exact ((TaskBoard.registered_setDevice_false_iff order _ _ deviceId 0).mp hcleared).2

/-- A plugin that gets a session is not the one that has left. -/
theorem not_mem_of_greeted {session : Nat} {instanceId : String} {id : String}
    (h : id ∉ ((registry.sessions.filter (·.2 != pluginId instanceId)) ++
      [(session, pluginId instanceId)]).map Prod.snd) :
    id ≠ pluginId instanceId ∧ id ∉ registry.mapped := by
  simp only [List.map_append, List.mem_append, List.map_cons, List.map_nil, List.mem_singleton,
    not_or] at h
  refine ⟨h.2, fun hmem => h.1 ?_⟩
  obtain ⟨entry, hentry, rfl⟩ := List.mem_map.mp hmem
  exact List.mem_map_of_mem (List.mem_filter.mpr ⟨hentry, bne_iff_ne.mpr h.2⟩)

theorem step (h : Vacated registry)
    (hstep : RegistryStep host may (.departures World) registry after)
    (hmay : ∀ op, may op → op.KeepsSlots) : Vacated after := by
  intro instanceId hmapped
  have hne := pluginId_ne_none instanceId
  cases hstep with
  | deck hdeck => exact deck (h instanceId hmapped) hne hdeck hmay
  | outside world hmoves => exact h instanceId hmapped
  | owners order owners hlength =>
      obtain ⟨htask, hregistered⟩ := h instanceId hmapped
      exact ⟨htask, fun hid =>
        hregistered ((TaskBoard.registered_setSlotOwners_iff order _ _ _ _).mp hid)⟩
  | reconnect order device hnone hkind hphysical hplugin =>
      obtain ⟨htask, hregistered⟩ := h instanceId hmapped
      refine ⟨htask, fun hid => ?_⟩
      rcases (TaskBoard.registered_setDevice_true_iff order _ _ _ _).mp hid with heq | hold
      · exact htask heq.symm
      · exact hregistered hold
  | reconnectUnregistered device => exact h instanceId hmapped
  | releasePrimary order device hdevice hkind =>
      exact left_release order (h instanceId hmapped) _ _ hne
  | releaseAux order deviceId haux hdevice =>
      obtain ⟨htask, hregistered⟩ := h instanceId hmapped
      exact ⟨htask, fun hid =>
        hregistered ((TaskBoard.registered_setDevice_false_iff order _ _ _ 0).mp hid).2⟩
  | releaseTask order haux hprimary =>
      exact left_release order (h instanceId hmapped) _ _ hne
  | unmap deviceId hattached hleaves =>
      by_cases heq : pluginId instanceId = deviceId
      · exact heq ▸ hleaves
      · exact h instanceId fun hmem => hmapped (Registry.mem_mapped_filter.mpr ⟨hmem, heq⟩)
  | promote order session greeted slots owners =>
      obtain ⟨hother, hunmapped⟩ := not_mem_of_greeted hmapped
      obtain ⟨htask, hregistered⟩ := h instanceId hunmapped
      refine ⟨hother.symm, fun hid => hregistered ?_⟩
      simp only at hid
      split at hid
      · have hset := (TaskBoard.registered_setSlotOwners_iff order _ _ _ _).mp hid
        exact ((TaskBoard.registered_setDevice_true_iff order _ _ _ _).mp hset).resolve_left hother
      · exact hid
  | enlist order session greeted slots =>
      obtain ⟨hother, hunmapped⟩ := not_mem_of_greeted hmapped
      obtain ⟨htask, hregistered⟩ := h instanceId hunmapped
      refine ⟨htask, fun hid => hregistered ?_⟩
      simp only at hid
      split at hid
      · exact ((TaskBoard.registered_setDevice_true_iff order _ _ _ _).mp hid).resolve_left hother
      · exact hid

theorem steps (h : Vacated registry)
    (hsteps : RegistrySteps host may (.departures World) registry after)
    (hmay : ∀ op, may op → op.KeepsSlots) : Vacated after := by
  induction hsteps with
  | refl => exact h
  | tail _ hstep ih => exact ih.step hstep hmay

end Vacated

/-- No plugin is on a board that has just been opened. -/
theorem JustOpened.vacated {registry : Registry World} {single : Prop}
    (h : JustOpened registry single) : Vacated registry := fun instanceId _ =>
  h.hardware instanceId

/-! ## The next plugin -/

section

variable (host : Host World)

/-- Detaching a plugin that is not the task device leaves the task device alone. -/
theorem detachPluginController_eq_of_ne (order : WalkOrder) {deviceId : String}
    (bridge : BridgeRuntime World) (hne : bridge.taskDeviceId ≠ deviceId) :
    (detachPluginController host order deviceId bridge).controller = bridge.controller ∧
      (detachPluginController host order deviceId bridge).taskDeviceId = bridge.taskDeviceId := by
  have hclosed := @tells_eq _ host (bridge.auxControllers.filter (·.deviceId == deviceId))
    { bridge with auxControllers := bridge.auxControllers.filter (·.deviceId != deviceId) }
  unfold detachPluginController
  rw [if_neg fun h => hne h.1]
  simp only [hclosed]
  split
  · exact ⟨rfl, rfl⟩
  · exact ⟨rfl, rfl⟩

/-- The task device with its slots, while no auxiliary controller is the task device. -/
def StaysTask (deviceId : String) (slots : Nat) (decks : Decks World) : Prop :=
  decks.taskDeviceId = deviceId ∧ decks.taskSlotCount = slots ∧
    deviceId ∉ decks.auxControllers.map AuxController.deviceId

theorem StaysTask.serves {deviceId : String} {slots : Nat} {before after : BridgeRuntime World}
    (h : StaysTask deviceId slots before.decks) (hserves : Serves host.toOutside before after) :
    StaysTask deviceId slots after.decks := by
  refine Bridge.DeckSteps.invariant (fun {first last} hstep hinv => ?_) hserves h
  have hshrink {kept rest : List AuxController} {aux : AuxController}
      (hlist : first.auxControllers = kept ++ aux :: rest) :
      deviceId ∉ (kept ++ rest).map AuxController.deviceId := by
    have hno := hinv.2.2
    rw [hlist] at hno
    simp only [List.map_append, List.map_cons, List.mem_append, List.mem_cons, not_or] at hno ⊢
    exact ⟨hno.1, hno.2.2⟩
  cases hstep with
  | call | board | detach => exact hinv
  | drop order kept aux rest hlist => exact ⟨hinv.1, hinv.2.1, hshrink hlist⟩
  | forget order kept aux rest hlist hcontroller hdevice =>
      refine absurd ?_ hinv.2.2
      rw [hlist, ← hinv.1, hdevice]
      simp
  | lose kept aux rest hlist hlost => exact hlost.elim

/-- A hello that finds neither a controller nor a task device makes its plugin the task
device. -/
theorem task_controllerHello {state : LoopState World} (hsound : Sound state.registry)
    (hcontroller : state.bridge.controller = none) (hdevice : state.bridge.taskDeviceId = "none")
    (order : WalkOrder) (session : Nat) (instanceId : String) (taskSlots : Nat) :
    (state.controllerHello host order session instanceId taskSlots).bridge.taskDeviceId =
        pluginId instanceId ∧
      (state.controllerHello host order session instanceId taskSlots).bridge.taskSlotCount =
        min taskSlots maxPluginTaskSlots := by
  have hne : state.bridge.taskDeviceId ≠ pluginId instanceId :=
    hdevice ▸ (pluginId_ne_none instanceId).symm
  obtain ⟨replaced, hreplaced⟩ : ∃ replaced, replaced =
      replacePlugin host order (pluginId instanceId) state.pluginSessions state.bridge := ⟨_, rfl⟩
  have hreleases := @releases_replacePlugin _ host .loop {} _ _ hsound order instanceId
  have hfields : replaced.controller = state.bridge.controller ∧
      replaced.taskDeviceId = state.bridge.taskDeviceId := by
    rw [hreplaced, replacePlugin]
    split
    · exact detachPluginController_eq_of_ne host order state.bridge hne
    · exact ⟨rfl, rfl⟩
  have hbecomes : becomesPrimary replaced = true := by
    rw [becomesPrimary, hfields.1, hfields.2, hcontroller, hdevice]
    rfl
  have hfresh : pluginId instanceId ∉ replaced.auxControllers.map AuxController.deviceId := by
    rw [hreplaced]
    exact fun hmem => hreleases.detached (.inr hmem)
  have hinstalled : StaysTask (pluginId instanceId) (min taskSlots maxPluginTaskSlots)
      (installPlugin host order session instanceId (min taskSlots maxPluginTaskSlots)
        replaced).decks := by
    unfold installPlugin
    rw [if_pos hbecomes]
    simp only
    split
    · exact ⟨rfl, rfl, hfresh⟩
    · exact ⟨rfl, rfl, hfresh⟩
  have hstays := hinstalled.serves host
    (LoopState.serves_showHello host state.sessionAgents order _)
  rw [hreplaced] at hstays
  exact ⟨hstays.1, hstays.2.1⟩

end

/-! ## Runs -/

/-- Nothing of the device is left: it is not the task device, it has no slots and no cards on
the board, and no controller of it is there. -/
structure Departed (bridge : BridgeRuntime World) (deviceId : String) : Prop where
  task : bridge.taskDeviceId ≠ deviceId
  device : ¬bridge.taskBoard.Registered deviceId
  cards : ¬bridge.taskBoard.HasCardOn deviceId
  aux : ∀ aux ∈ bridge.auxControllers, aux.deviceId ≠ deviceId
  primary : ∀ device, bridge.controller = some device → device.deviceId ≠ deviceId

/-- Ended plugins have departed, and while neither a hardware controller is configured nor a
plugin with a session is the task device, the next hello makes its plugin the task device. -/
structure CleanedUp (host : Host World) (state : LoopState World) : Prop where
  ended : ∀ instanceId, pluginId instanceId ∉ state.pluginSessions.map Prod.snd →
    Departed state.bridge (pluginId instanceId)
  next : state.bridge.controllerChoice = .none →
    state.bridge.taskDeviceId ∉ state.pluginSessions.map Prod.snd →
      ∀ order session instanceId taskSlots,
        (state.controllerHello host order session instanceId taskSlots).bridge.taskDeviceId =
            pluginId instanceId ∧
          (state.controllerHello host order session instanceId taskSlots).bridge.taskSlotCount =
            min taskSlots maxPluginTaskSlots

theorem Vacated.cleanedUp (host : Host World) {state : LoopState World}
    (h : Vacated state.registry) (hsound : Sound state.registry) : CleanedUp host state where
  ended instanceId hended := by
    obtain ⟨htask, hdevice⟩ := h instanceId hended
    refine ⟨htask, hdevice, fun hcard => hdevice (hsound.placed.registered_of_hasCardOn hcard),
      ?_, ?_⟩
    · intro aux haux heq
      exact hended (heq ▸ hsound.auxMapped aux.deviceId (List.mem_map_of_mem haux))
    · intro device hdevice heq
      by_cases hkind : device.kind = .streamDeckPlugin
      · obtain ⟨-, hid, -⟩ := hsound.primary device hdevice hkind
        exact htask (hid.symm.trans heq)
      · exact deviceId_ne_pluginId hkind instanceId heq
  next hchoice hfree order session instanceId taskSlots := by
    have hdevice : state.bridge.taskDeviceId = "none" := by
      rcases (hsound.standalone hchoice).2 with hnone | ⟨other, hplugin⟩
      · exact hnone
      · have hplugin : state.bridge.taskDeviceId = pluginId other := hplugin
        exact absurd hplugin (h other (hplugin ▸ hfree)).1
    have hcontroller : state.bridge.controller = none := by
      cases hprimary : state.bridge.controller with
      | none => rfl
      | some device =>
          have hkind := (hsound.standalone hchoice).1 device hprimary
          obtain ⟨-, -, -, hmapped, -⟩ := hsound.primary device hprimary hkind
          exact absurd hmapped hfree
    exact task_controllerHello host hsound hcontroller hdevice order session instanceId taskSlots

section

variable (host : Host World)

/-- When a plugin session ends, its plugin is attached, or it has left. -/
def EndsAttached (state : LoopState World) (input : LoopInput World) : Prop :=
  state.MayEnd Registry.Left input

theorem vacated_step {state : LoopState World} {input : LoopInput World}
    (hsound : Sound state.registry) (hvacated : Vacated state.registry)
    (h : EndsAttached state input) :
    Sound (state.step host input).registry ∧ Vacated (state.step host input).registry := by
  have hallowed : state.Allowed host (.departures World) input := {
    ends := h
    refuses := fun _ _ _ _ _ _ _ _ _ _ _ => trivial
    greets := fun _ _ _ _ _ => ⟨fun _ _ _ => trivial, fun _ => trivial⟩
    moves := fun _ _ => trivial }
  have hsteps := LoopState.steps_step host hsound input (fun _ _ _ => trivial)
    (fun _ _ _ hleft => hleft) hallowed
  exact ⟨hsound.steps hsteps fun _ => Party.may.keepsSlots,
    hvacated.steps hsteps fun _ => Party.may.keepsSlots⟩

/-- In a run in which plugin sessions end only for plugins that are attached or have left,
everything is cleaned up at every time. -/
theorem cleanedUp_run {order : WalkOrder} {options : Options} {link : SerialLink} {now : Nat}
    {world : World} {bridge : BridgeRuntime World} {inputs : List (LoopInput World)}
    {preferences snapshot : Option Value} {zcode hermes claude : Bool}
    (hopened : openRuntime host order options link now world = .ok bridge)
    (hends : Library.Along (LoopState.step host) EndsAttached inputs
      (.started host order bridge preferences snapshot zcode hermes claude)) :
    CleanedUp host ((LoopState.started host order bridge preferences snapshot zcode hermes
      claude).run host inputs) := by
  obtain ⟨opened, hjust, hsteps⟩ := exists_justOpened_started host (.departures World) hopened
    preferences snapshot zcode hermes claude
  have hrun := hends.invariant
    (fun state => Sound state.registry ∧ Vacated state.registry)
    (fun hinv h => vacated_step host hinv.1 hinv.2 h)
    ⟨hjust.sound.steps hsteps fun _ => Op.IsStartup.keepsSlots,
      hjust.vacated.steps hsteps fun _ => Op.IsStartup.keepsSlots⟩
  exact hrun.2.cleanedUp host hrun.1

end

/-- No hardware is configured. -/
def noDevice : Options := ⟨.none, none, []⟩

/-- A plugin becomes the task device. -/
def deckGreets : List (LoopInput (PluginWorld Unit)) :=
  [.accept, .accept, .message .ascending (.controllerHello 1 "deck" 4)]

/-- The session of the plugin ends while its controller is attached. -/
theorem cleanedUp_desk : ∃ bridge,
    openRuntime (PluginWorld.host .idle) .ascending noDevice .standalone 0 .initial = .ok bridge ∧
      CleanedUp (PluginWorld.host .idle) ((LoopState.started (PluginWorld.host .idle) .ascending
        bridge none none false false false).run (PluginWorld.host .idle)
          (deckGreets ++ [.message .ascending (.session (.disconnected 1))])) := by
  obtain ⟨bridge, hopened, hgreeted⟩ := exists_ok_of
    (fun bridge : BridgeRuntime (PluginWorld Unit) =>
      let greeted := (LoopState.started (PluginWorld.host .idle) .ascending bridge none none false
        false false).run (PluginWorld.host .idle) deckGreets
      greeted.bridge.controller = some (pluginDevice "deck") ∧
        greeted.bridge.taskDeviceId = pluginId "deck" ∧
        greeted.pluginSessions = [(1, pluginId "deck")])
    (show gives _ (openRuntime (PluginWorld.host .idle) .ascending noDevice .standalone 0
      .initial) = true by decide +kernel)
  obtain ⟨hcontroller, htask, hsessions⟩ := of_decide_eq_true hgreeted
  refine ⟨bridge, hopened, cleanedUp_run _ hopened
    (Library.along_append.mpr ⟨⟨?_, ?_, ?_, trivial⟩, ?_, trivial⟩)⟩
  · exact fun _ h => nomatch h
  · exact fun _ h => nomatch h
  · exact fun _ h => nomatch h
  · intro session hended deviceId others hremoved hdetached
    cases hended
    have hdeck : deviceId = pluginId "deck" := by
      rw [show (Library.runFrom (LoopState.step (PluginWorld.host .idle)) deckGreets
        _).pluginSessions = [(1, pluginId "deck")] from hsessions] at hremoved
      cases hremoved
      rfl
    refine absurd (.inl ⟨⟨_, hcontroller, rfl⟩, ?_⟩) hdetached
    rw [hdeck]
    exact htask

/-- The channel of the first session closes, a poll sees it, and the main loop is told. -/
def deckLeaves (state : LoopState (PluginWorld Unit)) : List (LoopInput (PluginWorld Unit)) :=
  [.outside (state.bridge.world.setChannel 1
      { state.bridge.world.channels 1 with closed := true }),
    .pollController .ascending, .message .ascending (.session (.disconnected 1)),
    .pollController .ascending]

/-- The plugin that has left is still the task device, with its slots, and the next one is not
made the task device. -/
theorem departed_not_cleanedUp : ∃ state, (desk noDevice).map (fun state =>
      let greeted := state.run (PluginWorld.host .idle) deckGreets
      greeted.run (PluginWorld.host .idle) (deckLeaves greeted)) = .ok state ∧
    state.pluginSessions = [] ∧ state.bridge.taskDeviceId = pluginId "deck" ∧
      (state.controllerHello (PluginWorld.host .idle) .ascending 2 "panel"
        4).bridge.taskDeviceId = pluginId "deck" ∧
      ¬CleanedUp (PluginWorld.host .idle) state := by
  obtain ⟨state, hstate, hchecked⟩ := exists_ok_of
    (fun state : LoopState (PluginWorld Unit) =>
      state.pluginSessions = [] ∧ state.bridge.taskDeviceId = pluginId "deck" ∧
        (state.controllerHello (PluginWorld.host .idle) .ascending 2 "panel"
          4).bridge.taskDeviceId = pluginId "deck")
    (show gives _ ((desk noDevice).map fun state =>
      let greeted := state.run (PluginWorld.host .idle) deckGreets
      greeted.run (PluginWorld.host .idle) (deckLeaves greeted)) = true by decide +kernel)
  obtain ⟨hsessions, htask, hnext⟩ := of_decide_eq_true hchecked
  refine ⟨state, hstate, hsessions, htask, hnext, fun hclean => ?_⟩
  refine (hclean.ended "deck" ?_).task htask
  rw [hsessions]
  exact List.not_mem_nil

end Daemon
end MicroEmu
