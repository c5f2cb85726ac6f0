import MicroEmu.Daemon.PluginController
import MicroEmu.Daemon.Startup

/-!
# Devices without a controller

The board should register the task device and the devices of auxiliary controllers, no others.
Two paths shrink the list of auxiliary controllers and leave their devices on the board: the
start-up drops the list it has collected, and `set_display_context` drops the controllers that
refuse the context.  Every other part of a round keeps the two in step.
-/

namespace MicroEmu
namespace Daemon

open Json (Value)
open Routing (AgentId)
open Bridge (AuxController BridgeRuntime ControllerKind Decks Device Outside)
open Bridge.BridgeRuntime (Serves)
open Tasks (Op TaskBoard WalkOrder)
open Relation (ReflTransGen)

variable {World : Type}

/-! ## The invariant -/

/-- Every device of the board is the task device or that of an auxiliary controller. -/
def Held (registry : Registry World) : Prop :=
  ∀ id, registry.taskBoard.Registered id → id = registry.taskDeviceId ∨ id ∈ registry.auxIds

/-- The controller may go: its device is not on the board, or it is the task device. -/
def Unneeded (decks : Decks World) (aux : AuxController) : Prop :=
  ¬decks.taskBoard.Registered aux.deviceId ∨ aux.deviceId = decks.taskDeviceId

namespace Held

variable {host : Host World} {may : Op → Prop} {allows : Allowance World}
  {registry after : Registry World}

theorem mem_auxIds_or {kept rest : List AuxController} {aux : AuxController}
    (hlist : registry.auxControllers = kept ++ aux :: rest) {id : String}
    (h : id ∈ registry.auxIds) : id = aux.deviceId ∨
      id ∈ Registry.auxIds { registry with auxControllers := kept ++ rest } := by
  unfold Registry.auxIds at h ⊢
  rw [hlist] at h
  simp only [List.map_append, List.map_cons, List.mem_append, List.mem_cons] at h ⊢
  rcases h with hkept | heq | hrest
  · exact .inr (.inl hkept)
  · exact .inl heq
  · exact .inr (.inr hrest)

theorem deck {decks : Decks World} (h : Held registry)
    (hstep : Bridge.DeckStep host.toOutside may allows.loses registry.toDecks decks)
    (hmay : ∀ op, may op → op.KeepsSlots) (hloses : ∀ decks aux, allows.loses decks aux →
      Unneeded decks aux) : Held { registry with toDecks := decks } := by
  cases hstep with
  | call hworld => exact h
  | board order op hop =>
      have hsame := TaskBoard.sameSlots_apply (hmay op hop) order registry.taskBoard
      exact fun id hid => h id ((hsame.registered_iff id).mp hid)
  | detach => exact h
  | drop order kept aux rest hlist =>
      intro id hid
      obtain ⟨hne, hold⟩ := (TaskBoard.registered_setDevice_false_iff order _ _ id 0).mp hid
      rcases h id hold with htask | haux
      · exact .inl htask
      · exact .inr ((mem_auxIds_or hlist haux).resolve_left hne)
  | forget order kept aux rest hlist hcontroller hdevice =>
      intro id hid
      have hcleared := (TaskBoard.registered_setSlotOwners_iff order _ _ id _).mp hid
      obtain ⟨hne, hold⟩ := (TaskBoard.registered_setDevice_false_iff order _ _ id 0).mp hcleared
      rcases h id hold with htask | haux
      · exact absurd (htask.trans hdevice) hne
      · exact .inr ((mem_auxIds_or hlist haux).resolve_left hne)
  | lose kept aux rest hlist hlost =>
      intro id hid
      rcases h id hid with htask | haux
      · exact .inl htask
      · rcases mem_auxIds_or hlist haux with rfl | hother
        · exact .inl ((hloses _ _ hlost).resolve_left (not_not.mpr hid))
        · exact .inr hother

/-- The device that leaves is the one whose controllers go. -/
theorem filtered {deviceId id : String} (h : Held registry)
    (hid : registry.taskBoard.Registered id) (hne : id ≠ deviceId) :
    id = registry.taskDeviceId ∨ id ∈ Registry.auxIds { registry with
      auxControllers := registry.auxControllers.filter (·.deviceId != deviceId) } := by
  rcases h id hid with htask | haux
  · exact .inl htask
  · obtain ⟨aux, hmem, rfl⟩ := List.mem_map.mp haux
    exact .inr (List.mem_map.mpr ⟨aux, List.mem_filter.mpr ⟨hmem, bne_iff_ne.mpr hne⟩, rfl⟩)

/-- The task device may be registered. -/
theorem of_setDevice_task {order : WalkOrder} {slots : Nat} (h : Held registry) {id : String}
    (hid : (registry.taskBoard.setDevice order registry.taskDeviceId slots true).Registered id) :
    id = registry.taskDeviceId ∨ id ∈ registry.auxIds := by
  rcases (TaskBoard.registered_setDevice_true_iff order _ _ id _).mp hid with htask | hold
  · exact .inl htask
  · exact h id hold

theorem step (h : Held registry) (hsound : Sound registry)
    (hstep : RegistryStep host may allows registry after)
    (hmay : ∀ op, may op → op.KeepsSlots)
    (hloses : ∀ decks aux, allows.loses decks aux → Unneeded decks aux) : Held after := by
  cases hstep with
  | deck hdeck => exact h.deck hdeck hmay hloses
  | outside world hmoves => exact h
  | owners order owners hlength =>
      exact fun id hid => h id ((TaskBoard.registered_setSlotOwners_iff order _ _ id _).mp hid)
  | reconnect order device => exact fun id hid => h.of_setDevice_task hid
  | reconnectUnregistered device => exact h
  | releasePrimary order device hdevice hkind =>
      intro id hid
      have hcleared := (TaskBoard.registered_setSlotOwners_iff order _ _ id _).mp hid
      obtain ⟨hne, hold⟩ := (TaskBoard.registered_setDevice_false_iff order _ _ id 0).mp hcleared
      exact .inr ((h id hold).resolve_left hne)
  | releaseAux order deviceId haux hdevice =>
      intro id hid
      obtain ⟨hne, hold⟩ := (TaskBoard.registered_setDevice_false_iff order _ _ id 0).mp hid
      exact h.filtered hold hne
  | releaseTask order haux hprimary =>
      intro id hid
      have hcleared := (TaskBoard.registered_setSlotOwners_iff order _ _ id _).mp hid
      obtain ⟨hne, hold⟩ := (TaskBoard.registered_setDevice_false_iff order _ _ id 0).mp hcleared
      exact .inr ((h.filtered hold hne).resolve_left hne)
  | unmap deviceId hattached hleaves => exact h
  | promote order session instanceId slots owners hnone hdevice hattached howners hgreets =>
      -- The task device was missing, and nothing is registered under that name.
      have hother (id : String) (hid : registry.taskBoard.Registered id) :
          id ∈ registry.auxIds := by
        rcases h id hid with htask | haux
        · rw [htask, hdevice] at hid
          exact absurd hid hsound.noneUnregistered
        · exact haux
      intro id hid
      simp only at hid
      split at hid
      · have hset := (TaskBoard.registered_setSlotOwners_iff order _ _ id _).mp hid
        rcases (TaskBoard.registered_setDevice_true_iff order _ _ id _).mp hset with heq | hold
        · exact .inl heq
        · exact .inr (hother id hold)
      · exact .inr (hother id hid)
  | enlist order session instanceId slots hoccupied hattached hgreets =>
      have hlisted {id : String} (hold : id = registry.taskDeviceId ∨ id ∈ registry.auxIds) :
          id = registry.taskDeviceId ∨ id ∈ Registry.auxIds { registry with
            auxControllers := registry.auxControllers ++
              [⟨pluginId instanceId, pluginDevice instanceId, slots⟩] } := by
        refine hold.imp_right fun haux => ?_
        unfold Registry.auxIds at haux ⊢
        rw [List.map_append]
        exact List.mem_append_left _ haux
      intro id hid
      simp only at hid
      split at hid
      · rcases (TaskBoard.registered_setDevice_true_iff order _ _ id _).mp hid with rfl | hold
        · exact .inr (List.mem_map.mpr ⟨_, List.mem_append_right _ List.mem_cons_self, rfl⟩)
        · exact hlisted (h id hold)
      · exact hlisted (h id hid)

theorem steps (h : Held registry) (hsound : Sound registry)
    (hsteps : RegistrySteps host may allows registry after)
    (hmay : ∀ op, may op → op.KeepsSlots)
    (hloses : ∀ decks aux, allows.loses decks aux → Unneeded decks aux) : Held after := by
  induction hsteps with
  | refl => exact h
  | tail hbefore hstep ih => exact ih.step (hsound.steps hbefore hmay) hstep hmay hloses

end Held

/-! ## A desk -/

/-- A call has succeeded with an answer that passes the check. -/
def gives {α : Type} (check : α → Bool) : Except String α → Bool
  | .ok answer => check answer
  | .error _ => false

theorem exists_ok_of {α : Type} (check : α → Bool) {answer : Except String α}
    (h : gives check answer = true) : ∃ value, answer = .ok value ∧ check value = true := by
  cases answer with
  | ok value => exact ⟨value, rfl, h⟩
  | error error => cases h

/-- One device, an AJAZZ. -/
def oneDevice : Options := ⟨.ajazz, some "1", [⟨.ajazz, some "1", none⟩]⟩

/-- An AJAZZ and a Stream Deck. -/
def twoDevices : Options :=
  ⟨.ajazz, some "1", [⟨.ajazz, some "1", none⟩, ⟨.streamDeckXl, some "2", none⟩]⟩

/-- The daemon of a desk without a serial port, before its first round. -/
def desk (options : Options) : Except String (LoopState (PluginWorld Unit)) :=
  (openRuntime (PluginWorld.host .idle) .ascending options .standalone 0 .initial).map fun bridge =>
    .started (PluginWorld.host .idle) .ascending bridge none none false false false

/-- A plugin with four slots says hello on the first connection, Codex on the second. -/
def greetings : List (LoopInput (PluginWorld Unit)) :=
  [.accept, .accept, .message .ascending (.controllerHello 1 "deck" 4),
    .message .ascending (.session (.connected 2)),
    .message .ascending (.session (.hello 2 ⟨.codex, some "cli", false⟩))]

/-- The writer thread of the plugin ends, and Codex sets the display context. -/
def refusedContext (state : LoopState (PluginWorld Unit)) :
    List (LoopInput (PluginWorld Unit)) :=
  [.outside (state.bridge.world.setChannel 1
      { state.bridge.world.channels 1 with writerClosed := true }),
    .message .ascending (.session (.request 2 (.object [("jsonrpc", .string "2.0"),
      ("id", .ofNat 1), ("method", .string "tools/call"),
      ("params", .object [("name", .string "set_display_context"),
        ("arguments", .object [("project", .string "bridge")])])])))]

/-! ## Runs -/

/-- Every device of the board, and every device with a card, is the task device or that of an
auxiliary controller. -/
structure DevicesHeld (bridge : BridgeRuntime World) : Prop where
  registered : ∀ id, bridge.taskBoard.Registered id →
    id = bridge.taskDeviceId ∨ ∃ aux ∈ bridge.auxControllers, aux.deviceId = id
  cards : ∀ id, bridge.taskBoard.HasCardOn id →
    id = bridge.taskDeviceId ∨ ∃ aux ∈ bridge.auxControllers, aux.deviceId = id

theorem Held.devicesHeld {bridge : BridgeRuntime World} {sessions : List (Nat × String)}
    (h : Held (registryOf bridge sessions)) (hsound : Sound (registryOf bridge sessions)) :
    DevicesHeld bridge where
  registered id hid := (h id hid).imp_right List.mem_map.mp
  cards id hid :=
    (h id (hsound.placed.registered_of_hasCardOn hid)).imp_right List.mem_map.mp

section

variable (host : Host World)

/-- A display context is refused by controllers only whose devices are not on the board, or
are the task device. -/
def RefusalsUnneeded (state : LoopState World) (input : LoopInput World) : Prop :=
  state.MayRefuse host Unneeded input

theorem held_step {state : LoopState World} {input : LoopInput World}
    (hsound : Sound state.registry) (hheld : Held state.registry)
    (h : RefusalsUnneeded host state input) :
    Sound (state.step host input).registry ∧ Held (state.step host input).registry := by
  have hallowed : state.Allowed host { loses := Unneeded } input := {
    ends := fun _ _ _ _ _ _ => trivial
    refuses := h
    greets := fun _ _ _ _ _ => ⟨fun _ _ _ => trivial, fun _ => trivial⟩
    moves := fun _ _ => trivial }
  have hsteps := LoopState.steps_step host hsound input (fun _ _ _ => trivial)
    (fun _ _ _ _ => trivial) hallowed
  exact ⟨hsound.steps hsteps fun _ => Party.may.keepsSlots,
    hheld.steps hsound hsteps (fun _ => Party.may.keepsSlots) fun _ _ hloses => hloses⟩

/-- A daemon opened with at most one device, whose plugins refuse no display context, has no
device on its board that it does not hold, and no card on one. -/
theorem devicesHeld_run {order : WalkOrder} {options : Options} {link : SerialLink} {now : Nat}
    {world : World} {bridge : BridgeRuntime World} {inputs : List (LoopInput World)}
    {preferences snapshot : Option Value} {zcode hermes claude : Bool}
    (hopened : openRuntime host order options link now world = .ok bridge)
    (hsingle : options.devices.tail = [])
    (hrefusals : Library.Along (LoopState.step host) (RefusalsUnneeded host) inputs
      (.started host order bridge preferences snapshot zcode hermes claude)) :
    DevicesHeld bridge ∧ DevicesHeld ((LoopState.started host order bridge preferences snapshot
      zcode hermes claude).run host inputs).bridge := by
  have hjust {opened : Registry World}
      (h : JustOpened opened (options.devices.tail = [])) : Held opened :=
    fun id hid => .inl (h.only hsingle id hid)
  have hheldAfter {opened after : Registry World}
      (h : JustOpened opened (options.devices.tail = []))
      (hsteps : RegistrySteps host Op.IsStartup { loses := fun _ _ => False } opened after) :
      Sound after ∧ Held after :=
    ⟨h.sound.steps hsteps fun _ => Op.IsStartup.keepsSlots,
      (hjust h).steps h.sound hsteps (fun _ => Op.IsStartup.keepsSlots)
        fun _ _ (hno : False) => hno.elim⟩
  obtain ⟨opened, hjustOpened, hsteps⟩ := exists_justOpened host _ hopened
  obtain ⟨started, hjustStarted, hstarted⟩ := exists_justOpened_started host _ hopened
    preferences snapshot zcode hermes claude
  obtain ⟨hsound, hheld⟩ := hheldAfter hjustOpened hsteps
  have hrun := hrefusals.invariant
    (fun state => Sound state.registry ∧ Held state.registry)
    (fun hinv h => held_step host hinv.1 hinv.2 h) (hheldAfter hjustStarted hstarted)
  exact ⟨hheld.devicesHeld hsound, hrun.2.devicesHeld hrun.1⟩

end

/-- The desk with its AJAZZ, a plugin and Codex. -/
theorem devicesHeld_desk : ∃ bridge, openRuntime (PluginWorld.host .idle) .ascending oneDevice
    .standalone 0 .initial = .ok bridge ∧ DevicesHeld bridge ∧
      DevicesHeld ((LoopState.started (PluginWorld.host .idle) .ascending bridge none none false
        false false).run (PluginWorld.host .idle) greetings).bridge := by
  obtain ⟨bridge, hopened, -⟩ := exists_ok_of (fun _ => true)
    (show gives _ (openRuntime (PluginWorld.host .idle) .ascending oneDevice .standalone 0
      .initial) = true by decide +kernel)
  have hno (state : LoopState (PluginWorld Unit)) (message : LoopMessage)
      (hrequest : ∀ session request, message ≠ .session (.request session request)) :
      RefusalsUnneeded (PluginWorld.host .idle) state (.message .ascending message) := by
    intro order session request h
    cases h
    exact absurd rfl (hrequest session request)
  refine ⟨bridge, hopened, (devicesHeld_run _ hopened rfl
    ⟨?_, ?_, hno _ _ ?_, hno _ _ ?_, hno _ _ ?_, trivial⟩)⟩
  · exact fun _ _ _ h => nomatch h
  · exact fun _ _ _ h => nomatch h
  · exact fun _ _ h => nomatch h
  · exact fun _ _ h => nomatch h
  · exact fun _ _ h => nomatch h

/-- The bridge has a device that is neither the task device nor an auxiliary one. -/
def strays (id : String) (bridge : BridgeRuntime World) : Bool :=
  bridge.taskBoard.devices.contains id && bridge.taskDeviceId != id &&
    bridge.auxControllers.all (·.deviceId != id)

theorem not_devicesHeld_of_strays {id : String} {bridge : BridgeRuntime World}
    (h : strays id bridge = true) : ¬DevicesHeld bridge := by
  obtain ⟨hboth, hall⟩ := Bool.and_eq_true_iff.mp h
  obtain ⟨hregistered, htask⟩ := Bool.and_eq_true_iff.mp hboth
  intro hheld
  rcases hheld.registered id (Std.ExtTreeMap.contains_iff_mem.mp hregistered) with
    heq | ⟨aux, haux, heq⟩
  · exact bne_iff_ne.mp htask heq.symm
  · exact bne_iff_ne.mp (List.all_eq_true.mp hall aux haux) heq

/-- The second device stays on the board without a controller, and so does the plugin that
could not be shown the context. -/
theorem devices_not_held :
    (∃ bridge, openRuntime (PluginWorld.host .idle) .ascending twoDevices .standalone 0 .initial =
      .ok bridge ∧ ¬DevicesHeld bridge) ∧
    ∃ bridge, ((desk oneDevice).map fun state =>
      let greeted := state.run (PluginWorld.host .idle) greetings
      (greeted.run (PluginWorld.host .idle) (refusedContext greeted)).bridge) = .ok bridge ∧
        ¬DevicesHeld bridge := by
  obtain ⟨opened, hopened, hsecond⟩ := exists_ok_of (strays "streamdeck-xl:2")
    (show gives _ (openRuntime (PluginWorld.host .idle) .ascending twoDevices .standalone 0
      .initial) = true by decide +kernel)
  obtain ⟨ended, hended, hplugin⟩ := exists_ok_of (strays "streamdeck-plugin:deck")
    (show gives _ ((desk oneDevice).map fun state =>
      let greeted := state.run (PluginWorld.host .idle) greetings
      (greeted.run (PluginWorld.host .idle) (refusedContext greeted)).bridge) = true by
        decide +kernel)
  exact ⟨⟨opened, hopened, not_devicesHeld_of_strays hsecond⟩,
    ended, hended, not_devicesHeld_of_strays hplugin⟩

end Daemon
end MicroEmu
