import MicroEmu.Daemon.Rounds

/-!
# Start-up

`open_runtime` registers the devices of hardware controllers and nothing else; what comes
between it and the first round is a number of steps of the registry.
-/

namespace MicroEmu

/-- The operations on the board before the first round. -/
def Tasks.Op.IsStartup : Tasks.Op → Prop
  | .restoreSlotPreferences _ => True
  | .publishCodexSnapshot .. => True
  | op => op.IsSelection

theorem Tasks.Op.IsSelection.isStartup {op : Tasks.Op} (h : op.IsSelection) :
    op.IsStartup := by
  cases op <;> first | exact h.elim | trivial

theorem Tasks.Op.IsStartup.keepsSlots {op : Tasks.Op} (h : op.IsStartup) : op.KeepsSlots := by
  cases op <;> first | exact h.elim | trivial

namespace Daemon

open Json (Value)
open Bridge (AuxController BridgeRuntime ControllerKind Decks Device)
open Bridge.BridgeRuntime (Works)
open Tasks (Op TaskBoard WalkOrder)
open Relation (ReflTransGen)

variable {World : Type} (host : Host World) {order : WalkOrder}

/-! ## Opening -/

theorem connectController_ok_none {choice : ControllerKind} {serial : Option String}
    {world : World} (h : (connectController host choice serial world).1 = .ok none) :
    choice = .none := by
  have hopened (kind : ControllerKind) :
      ((host.connect kind serial world).1.map fun answer =>
        some (⟨kind, answer.1, answer.2⟩ : Device)) ≠ .ok none := by
    cases (host.connect kind serial world).1 with
    | error error =>
        intro hanswer
        cases hanswer
    | ok answer =>
        intro hanswer
        cases hanswer
  cases choice with
  | none => rfl
  | streamDeckPlugin => cases h
  | ajazz | streamDeckPlus | streamDeckPlusXl | streamDeckXl => exact absurd h (hopened _)

/-- A registry without plugins and without devices on its board. -/
theorem sound_empty {registry : Registry World} (hboard : registry.taskBoard = default)
    (haux : registry.auxControllers = []) (hsessions : registry.sessions = [])
    (hnone : registry.controller = none →
      registry.choice = .none ∧ registry.taskDeviceId = "none")
    (hsome : ∀ device, registry.controller = some device →
      device.kind = registry.choice ∧ registry.choice ≠ .none ∧
        registry.choice ≠ .streamDeckPlugin ∧ registry.taskDeviceId = device.deviceId) :
    Sound registry := by
  have hno : registry.auxIds = [] := by rw [Registry.auxIds, haux, List.map_nil]
  have hunmapped : registry.mapped = [] := by rw [Registry.mapped, hsessions, List.map_nil]
  refine {
    placed := hboard ▸ TaskBoard.placed_default
    noneUnregistered := ?_
    auxPlugins := ?_
    auxMapped := ?_
    auxNodup := hno ▸ List.nodup_nil
    primary := ?_
    standalone := ?_
    physical := ?_
    sessionPlugins := ?_
    sessionsNodup := hunmapped ▸ List.nodup_nil }
  · rw [hboard]
    exact Std.ExtTreeMap.not_mem_empty
  · intro aux hmem
    rw [haux] at hmem
    cases hmem
  · intro id hmem
    rw [hno] at hmem
    cases hmem
  · intro device hdevice hkind
    obtain ⟨hchoice, -, hplugin, -⟩ := hsome device hdevice
    exact absurd (hchoice.symm.trans hkind) hplugin
  · intro hchoice
    cases hcontroller : registry.controller with
    | none => exact ⟨fun _ hdevice => (by cases hdevice), .inl (hnone hcontroller).2⟩
    | some device => exact absurd hchoice (hsome device hcontroller).2.1
  · intro hchoice
    cases hcontroller : registry.controller with
    | none => exact absurd (hnone hcontroller).1 hchoice
    | some device =>
        obtain ⟨hkind, hphysical, hplugin, hid⟩ := hsome device hcontroller
        rw [hid]
        rw [← hkind] at hphysical hplugin
        exact ⟨deviceId_ne_none hphysical, deviceId_ne_pluginId hplugin⟩
  · intro id hmem
    rw [hunmapped] at hmem
    cases hmem

/-- The registry before the state is replayed: no plugin is known, and with a single device in
the options the task device is the only one on the board. -/
structure JustOpened (registry : Registry World) (single : Prop) : Prop where
  sound : Sound registry
  alone : registry.auxControllers = []
  unmapped : registry.sessions = []
  hardware : ∀ instanceId, registry.Left (pluginId instanceId)
  only : single → ∀ id, registry.taskBoard.Registered id → id = registry.taskDeviceId
  cardless : ∀ id : String, registry.taskBoard.tasks[id]? = none
  /-- Without a task device there are no slots. -/
  slotless : registry.taskDeviceId = "none" → registry.taskSlotCount = 0

/-- A hardware device may be registered. -/
theorem JustOpened.register {registry : Registry World} {single : Prop}
    (h : JustOpened registry single) (device : Device) (hphysical : device.kind ≠ .none)
    (hplugin : device.kind ≠ .streamDeckPlugin) (slots : Nat)
    (honly : single → device.deviceId = registry.taskDeviceId) :
    JustOpened { registry with
      taskBoard := registry.taskBoard.setDevice order device.deviceId slots true } single where
  sound := h.sound.register order (deviceId_ne_none hphysical) slots
  alone := h.alone
  unmapped := h.unmapped
  hardware instanceId := by
    refine ⟨(h.hardware instanceId).1, fun hregistered => ?_⟩
    rcases (TaskBoard.registered_setDevice_true_iff order _ _ _ _).mp hregistered with heq | hold
    · exact deviceId_ne_pluginId hplugin instanceId heq.symm
    · exact (h.hardware instanceId).2 hold
  only hsingle id hregistered := by
    rcases (TaskBoard.registered_setDevice_true_iff order _ _ _ _).mp hregistered with rfl | hold
    · exact honly hsingle
    · exact h.only hsingle id hold
  cardless id := by
    rw [TaskBoard.setDevice, if_pos rfl, TaskBoard.reallocate_tasks]
    exact h.cardless id
  slotless := h.slotless

theorem justOpened_openPrimary (options : Options) (link : SerialLink)
    {controller : Option Device} {world : World} (now : Nat) (later : World) (single : Prop)
    (h : (connectController host options.controller options.controllerSerial world).1 =
      .ok controller) :
    JustOpened (registryOf (openPrimary order options link controller later now) []) single := by
  have hempty {registry : Registry World} (hsound : Sound registry)
      (hboard : registry.taskBoard = default) (haux : registry.auxControllers = [])
      (hsessions : registry.sessions = [])
      (htask : ∀ instanceId, registry.taskDeviceId ≠ pluginId instanceId)
      (hslots : registry.taskDeviceId = "none" → registry.taskSlotCount = 0) :
      JustOpened registry single := {
    sound := hsound
    alone := haux
    unmapped := hsessions
    hardware := fun instanceId => by
      refine ⟨htask instanceId, fun hregistered => ?_⟩
      rw [hboard] at hregistered
      exact Std.ExtTreeMap.not_mem_empty hregistered
    only := fun _ _ hregistered => by
      rw [hboard] at hregistered
      exact absurd hregistered Std.ExtTreeMap.not_mem_empty
    cardless := fun _ => by
      rw [hboard]
      exact Std.ExtTreeMap.getElem?_empty
    slotless := hslots }
  cases controller with
  | none =>
      have hchoice := connectController_ok_none host h
      have hlabel : options.controller.asStr = "none" := by rw [hchoice]; rfl
      exact hempty (sound_empty rfl rfl rfl (fun _ => ⟨hchoice, hlabel⟩)
        fun _ hdevice => (nomatch hdevice)) rfl rfl rfl
        (fun instanceId heq => pluginId_ne_none instanceId (heq.symm.trans hlabel)) fun _ => rfl
  | some device =>
      obtain ⟨hkind, hphysical, hplugin⟩ := connectController_ok h
      have hsound : Sound { registryOf (openPrimary order options link (some device) later now)
          [] with taskBoard := default } :=
        sound_empty rfl rfl rfl (fun hnone => nomatch hnone) fun other hother => by
          obtain rfl := Option.some.inj hother
          exact ⟨hkind, hphysical, hplugin, rfl⟩
      rw [← hkind] at hphysical hplugin
      have hopened := hempty hsound rfl rfl rfl (deviceId_ne_pluginId hplugin) fun hnone =>
        absurd hnone (deviceId_ne_none hphysical)
      unfold openPrimary at hopened ⊢
      simp only at hopened ⊢
      split
      · exact hopened.register device hphysical hplugin _ fun _ => rfl
      · exact hopened

/-- Further devices are registered under the ids of hardware controllers. -/
theorem justOpened_openDevices {specs : List DeviceSpec} {bridge : BridgeRuntime World}
    {auxControllers : List AuxController} {opened : BridgeRuntime World × List AuxController}
    {single : Prop} (hbridge : JustOpened (registryOf bridge []) single)
    (hsingle : single → specs = [])
    (h : openDevices host order specs bridge auxControllers = .ok opened) :
    JustOpened (registryOf opened.1 []) single := by
  induction specs generalizing bridge auxControllers with
  | nil =>
      cases h
      exact hbridge
  | cons spec specs ih =>
      have hno : ¬single := fun hone => nomatch hsingle hone
      have hconnected : JustOpened (registryOf
          (bridge.call (connectController host spec.kind spec.serial)).2 []) single :=
        ⟨hbridge.sound.withWorld _, hbridge.alone, hbridge.unmapped, hbridge.hardware,
          hbridge.only, hbridge.cardless, hbridge.slotless⟩
      unfold openDevices at h
      simp only at h
      split at h
      · cases h
      · cases h
      next device hdevice =>
        obtain ⟨hkind, hphysical, hplugin⟩ :=
          @connectController_ok _ host _ _ bridge.world _ hdevice
        rw [← hkind] at hphysical hplugin
        refine ih ?_ (fun hone => absurd hone hno) h
        split
        · exact hconnected.register device hphysical hplugin _ fun hone => absurd hone hno
        · exact hconnected

/-- What `open_runtime` gives comes from the bridge with its devices open. -/
theorem exists_opened {options : Options} {link : SerialLink} {now : Nat} {world : World}
    {bridge : BridgeRuntime World} (allows : Allowance World)
    (h : openRuntime host order options link now world = .ok bridge) :
    ∃ controller opened,
      (connectController host options.controller options.controllerSerial world).1 =
        .ok controller ∧
      openDevices host order options.devices.tail (openPrimary order options link controller
        (connectController host options.controller options.controllerSerial world).2 now) [] =
          .ok opened ∧
      RegistrySteps host Op.IsStartup allows (registryOf opened.1 []) (registryOf bridge []) := by
  unfold openRuntime at h
  simp only at h
  split at h
  · cases h
  next controller hcontroller =>
    split at h
    · cases h
    next opened auxControllers hopened =>
      have hreplayed : Works host.toOutside Op.IsStartup allows.loses opened
          (replayPrimary host order opened).2 :=
        (serves_replayPrimary order opened).works fun _ hop => hop.isStartup
      split at h
      · cases h
      · obtain rfl := Except.ok.inj h
        exact ⟨controller, (opened, auxControllers), hcontroller, hopened,
          RegistrySteps.of_works hreplayed []⟩

/-- What `open_runtime` gives comes from a registry that has just been opened. -/
theorem exists_justOpened {options : Options} {link : SerialLink} {now : Nat} {world : World}
    {bridge : BridgeRuntime World} (allows : Allowance World)
    (h : openRuntime host order options link now world = .ok bridge) :
    ∃ opened, JustOpened opened (options.devices.tail = []) ∧
      RegistrySteps host Op.IsStartup allows opened (registryOf bridge []) := by
  obtain ⟨controller, opened, hcontroller, hopened, hsteps⟩ := exists_opened host allows h
  have hprimary := @justOpened_openPrimary _ host order options link _ _ now
    (connectController host options.controller options.controllerSerial world).2
    (options.devices.tail = []) hcontroller
  exact ⟨registryOf opened.1 [], justOpened_openDevices host hprimary id hopened, hsteps⟩

/-! ## Before the first round -/

/-- The saved preferences are restored. -/
theorem steps_restored {allows : Allowance World} (order : WalkOrder)
    (bridge : BridgeRuntime World) (preferences : Option Value) :
    RegistrySteps host Op.IsStartup allows (registryOf bridge [])
      (registryOf { bridge with
        taskMode := true
        taskBoard := match preferences with
          | none => bridge.taskBoard
          | some value => bridge.taskBoard.restoreSlotPreferences value } []) := by
  cases preferences with
  | none => exact .refl
  | some value => exact .single (.deck (.board bridge.decks order
      (.restoreSlotPreferences value) trivial))

/-- The first snapshot is published. -/
theorem steps_published {allows : Allowance World} (bridge : BridgeRuntime World)
    (snapshot : Option Value) :
    RegistrySteps host Op.IsStartup allows (registryOf bridge [])
      (registryOf (match snapshot with
        | none => (bridge, false)
        | some value =>
            let asked := bridge.call host.systemTime
            let outcome := asked.2.taskBoard.publishCodexSnapshot order value asked.1
            match outcome.1 with
            | .ok _ =>
                ({ asked.2 with taskBoard := outcome.2, hasExplicitTaskState := true }, true)
            | .error _ => ({ asked.2 with taskBoard := outcome.2 }, false) :
          BridgeRuntime World × Bool).1 []) := by
  cases snapshot with
  | none => exact .refl
  | some value =>
      have hasked : RegistrySteps host Op.IsStartup allows (registryOf bridge [])
          (registryOf (bridge.call host.systemTime).2 []) :=
        .single (.deck (.call bridge.decks (.systemTime _)))
      have hsnapshot := hasked.tail (.deck (.board (bridge.call host.systemTime).2.decks order
        (.publishCodexSnapshot value (bridge.call host.systemTime).1) trivial))
      simp only
      split
      · exact hsnapshot
      · exact hsnapshot

/-- Getting ready for the first round makes no step but those of the registry. -/
theorem steps_started {allows : Allowance World} (bridge : BridgeRuntime World)
    (preferences snapshot : Option Value) (zcode hermes claude : Bool) :
    RegistrySteps host Op.IsStartup allows (registryOf bridge [])
      (LoopState.started host order bridge preferences snapshot zcode hermes claude).registry := by
  refine ReflTransGen.trans (steps_restored host order bridge preferences) ?_
  refine (@steps_published _ host order _ _ snapshot).tail ?_
  exact .owners _ order _ (length_taskSlotOwners ..)

/-- The first round begins with a registry that has been opened and has made some steps. -/
theorem exists_justOpened_started {options : Options} {link : SerialLink} {now : Nat}
    {world : World} {bridge : BridgeRuntime World} (allows : Allowance World)
    (h : openRuntime host order options link now world = .ok bridge)
    (preferences snapshot : Option Value) (zcode hermes claude : Bool) :
    ∃ opened, JustOpened opened (options.devices.tail = []) ∧
      RegistrySteps host Op.IsStartup allows opened
        (LoopState.started host order bridge preferences snapshot zcode hermes
          claude).registry := by
  obtain ⟨opened, hopened, hsteps⟩ := exists_justOpened host allows h
  exact ⟨opened, hopened,
    hsteps.trans (steps_started host bridge preferences snapshot zcode hermes claude)⟩

end Daemon
end MicroEmu
