import MicroEmu.Daemon.Decks
import MicroEmu.Daemon.MainLoop

/-!
# The registry of the devices

What the parts of the main loop do to the controllers and to the devices of the board.  Most
parts are steps of the decks; attaching and detaching a plugin, installing a reconnected
controller and handing out the slots of the task device come on top.
-/

namespace MicroEmu
namespace Daemon

open Json (Value)
open Routing (AgentId)
open Bridge (AuxController BridgeRuntime ControllerKind Decks DeckStep DeckSteps Device Outside
  WorldSteps)
open Bridge.BridgeRuntime (Serves Works)
open Tasks (Op TaskBoard WalkOrder)
open Relation (ReflTransGen)

/-! ## Device ids -/

/-- Texts with different beginnings are different. -/
theorem append_ne_append (n : Nat) {label other : String} (text rest : String)
    (hlabel : n ≤ label.toList.length) (hother : n ≤ other.toList.length)
    (hne : label.toList.take n ≠ other.toList.take n) : label ++ text ≠ other ++ rest := by
  intro h
  have htake := congrArg (fun name : String => name.toList.take n) h
  simp only [String.toList_append] at htake
  rw [List.take_append_of_le_length hlabel, List.take_append_of_le_length hother] at htake
  exact hne htake

theorem pluginId_eq (instanceId : String) :
    pluginId instanceId = "streamdeck-plugin:" ++ instanceId := rfl

theorem pluginId_inj {a b : String} : pluginId a = pluginId b ↔ a = b := by
  rw [pluginId_eq, pluginId_eq]
  constructor
  · intro h
    have hlist := congrArg String.toList h
    rw [String.toList_append, String.toList_append] at hlist
    exact String.toList_inj.mp (List.append_cancel_left hlist)
  · rintro rfl
    rfl

theorem pluginId_ne_none (instanceId : String) : pluginId instanceId ≠ "none" := by
  rw [pluginId_eq, ← String.append_empty (s := "none")]
  exact append_ne_append 4 _ _ (by decide) (by decide) (by decide)

/-- Only plugins have ids of plugins. -/
theorem deviceId_ne_pluginId {device : Device} (h : device.kind ≠ .streamDeckPlugin)
    (instanceId : String) : device.deviceId ≠ pluginId instanceId := by
  obtain ⟨kind, model, serial⟩ := device
  have hlabel : ∀ text, kind.asStr ++ text ≠ pluginId instanceId := by
    intro text
    rw [pluginId_eq]
    cases kind with
    | ajazz => exact append_ne_append 5 _ _ (by decide) (by decide) (by decide)
    | streamDeckPlus => exact append_ne_append 15 _ _ (by decide) (by decide) (by decide)
    | streamDeckPlusXl => exact append_ne_append 15 _ _ (by decide) (by decide) (by decide)
    | streamDeckXl => exact append_ne_append 13 _ _ (by decide) (by decide) (by decide)
    | streamDeckPlugin => exact absurd rfl h
    | none => exact append_ne_append 4 _ _ (by decide) (by decide) (by decide)
  cases serial with
  | none =>
      have hbare := hlabel ""
      rwa [String.append_empty] at hbare
  | some serial =>
      have hserial := hlabel (":" ++ serial)
      rwa [← String.append_assoc] at hserial

/-- No controller has the id of a missing one. -/
theorem deviceId_ne_none {device : Device} (h : device.kind ≠ .none) :
    device.deviceId ≠ "none" := by
  obtain ⟨kind, model, serial⟩ := device
  have hlabel : ∀ text, kind.asStr ++ text ≠ "none" := by
    intro text
    rw [← String.append_empty (s := "none")]
    cases kind with
    | none => exact absurd rfl h
    | ajazz | streamDeckPlus | streamDeckPlusXl | streamDeckXl | streamDeckPlugin =>
        exact append_ne_append 4 _ _ (by decide) (by decide) (by decide)
  cases serial with
  | none =>
      have hbare := hlabel ""
      rwa [String.append_empty] at hbare
  | some serial =>
      have hserial := hlabel (":" ++ serial)
      rwa [← String.append_assoc] at hserial

/-! ## Steps of the registry -/

/-- The decks with the device of each plugin session. -/
structure Registry (World : Type) extends Decks World where
  sessions : List (Nat × String)

namespace Registry

variable {World : Type}

/-- The devices with a plugin session. -/
def mapped (registry : Registry World) : List String := registry.sessions.map Prod.snd

/-- The ids of the auxiliary controllers. -/
def auxIds (registry : Registry World) : List String :=
  registry.auxControllers.map AuxController.deviceId

/-- The primary controller is a plugin. -/
def PluginPrimary (registry : Registry World) : Prop :=
  ∃ device, registry.controller = some device ∧ device.kind = .streamDeckPlugin

/-- The plugin is the primary controller or an auxiliary one. -/
def Attached (registry : Registry World) (deviceId : String) : Prop :=
  registry.PluginPrimary ∧ registry.taskDeviceId = deviceId ∨ deviceId ∈ registry.auxIds

/-- The device is neither the task device nor on the board. -/
def Left (registry : Registry World) (deviceId : String) : Prop :=
  registry.taskDeviceId ≠ deviceId ∧ ¬registry.taskBoard.Registered deviceId

end Registry

namespace Registry

variable {World : Type} {registry : Registry World}

theorem mem_mapped_filter {deviceId id : String} :
    id ∈ Registry.mapped { registry with
      sessions := registry.sessions.filter (·.2 != deviceId) } ↔
        id ∈ registry.mapped ∧ id ≠ deviceId := by
  simp [mapped]

end Registry

/-- A new item may be put behind the others. -/
theorem nodup_map_append {α β : Type} {f : α → β} {items : List α} {item : α}
    (hnodup : (items.map f).Nodup) (hfresh : f item ∉ items.map f) :
    ((items ++ [item]).map f).Nodup := by
  rw [List.map_append, List.map_singleton, ← List.concat_eq_append]
  exact hnodup.concat hfresh

/-- What may happen to the registry from outside the daemon. -/
structure Allowance (World : Type) where
  /-- The auxiliary controllers that may go without their device leaving the board. -/
  loses : Decks World → AuxController → Prop := fun _ _ => True
  /-- The devices a plugin session may end for when no controller of the device is attached. -/
  leaves : Registry World → String → Prop := fun _ _ => True
  /-- The session, the instance and the slots of a plugin that may be installed. -/
  greets : Registry World → Nat → String → Nat → Prop := fun _ _ _ _ => True
  /-- The ways the world may move on its own. -/
  moves : World → World → Prop := fun _ _ => True

/-- One step of the registry. -/
inductive RegistryStep {World : Type} (host : Host World) (may : Op → Prop)
    (allows : Allowance World) : Registry World → Registry World → Prop
  | deck {registry : Registry World} {decks : Decks World}
      (h : DeckStep host.toOutside may allows.loses registry.toDecks decks) :
      RegistryStep host may allows registry { registry with toDecks := decks }
  /-- The world moves on its own. -/
  | outside (registry : Registry World) (world : World)
      (hmoves : allows.moves registry.world world) :
      RegistryStep host may allows registry { registry with world := world }
  /-- The slots of the task device get owners. -/
  | owners (registry : Registry World) (order : WalkOrder) (owners : List (Option AgentId))
      (h : owners.length = registry.taskSlotCount) :
      RegistryStep host may allows registry { registry with
        taskBoard := registry.taskBoard.setSlotOwners order registry.taskDeviceId owners }
  /-- The configured controller is connected again. -/
  | reconnect (registry : Registry World) (order : WalkOrder) (device : Device)
      (hnone : registry.controller = none) (hkind : device.kind = registry.choice)
      (hphysical : registry.choice ≠ .none) (hplugin : registry.choice ≠ .streamDeckPlugin) :
      RegistryStep host may allows registry { registry with
        controller := some device
        taskBoard := registry.taskBoard.setDevice order registry.taskDeviceId
          registry.taskSlotCount true }
  /-- The configured controller is connected again outside task mode. -/
  | reconnectUnregistered (registry : Registry World) (device : Device)
      (hnone : registry.controller = none) (hkind : device.kind = registry.choice)
      (hphysical : registry.choice ≠ .none) (hplugin : registry.choice ≠ .streamDeckPlugin) :
      RegistryStep host may allows registry { registry with controller := some device }
  /-- The primary controller is a plugin and leaves. -/
  | releasePrimary (registry : Registry World) (order : WalkOrder) (device : Device)
      (h : registry.controller = some device) (hkind : device.kind = .streamDeckPlugin) :
      RegistryStep host may allows registry { registry with
        controller := none
        taskDeviceId := "none"
        taskSlotCount := 0
        taskBoard := (registry.taskBoard.setDevice order registry.taskDeviceId 0
          false).setSlotOwners order "none" [] }
  /-- The auxiliary controllers of a device leave. -/
  | releaseAux (registry : Registry World) (order : WalkOrder) (deviceId : String)
      (h : deviceId ∈ registry.auxIds) (hdevice : registry.taskDeviceId ≠ deviceId) :
      RegistryStep host may allows registry { registry with
        auxControllers := registry.auxControllers.filter (·.deviceId != deviceId)
        taskBoard := registry.taskBoard.setDevice order deviceId 0 false }
  /-- The auxiliary controllers of the task device leave. -/
  | releaseTask (registry : Registry World) (order : WalkOrder)
      (h : registry.taskDeviceId ∈ registry.auxIds) (hprimary : ¬registry.PluginPrimary) :
      RegistryStep host may allows registry { registry with
        auxControllers := registry.auxControllers.filter (·.deviceId != registry.taskDeviceId)
        taskDeviceId := "none"
        taskSlotCount := 0
        taskBoard := (registry.taskBoard.setDevice order registry.taskDeviceId 0
          false).setSlotOwners order "none" [] }
  /-- A plugin session ends. -/
  | unmap (registry : Registry World) (deviceId : String)
      (hattached : ¬registry.Attached deviceId) (hleaves : allows.leaves registry deviceId) :
      RegistryStep host may allows registry { registry with
        sessions := registry.sessions.filter (·.2 != deviceId) }
  /-- A plugin becomes the primary controller. -/
  | promote (registry : Registry World) (order : WalkOrder) (session : Nat)
      (instanceId : String) (slots : Nat) (owners : List (Option AgentId))
      (hnone : registry.controller = none) (hdevice : registry.taskDeviceId = "none")
      (hattached : ¬registry.Attached (pluginId instanceId)) (howners : owners.length = slots)
      (hgreets : allows.greets registry session instanceId slots) :
      RegistryStep host may allows registry { registry with
        world := host.attachPlugin session instanceId slots registry.world
        controller := some (pluginDevice instanceId)
        taskDeviceId := pluginId instanceId
        taskSlotCount := slots
        taskBoard :=
          if 0 < slots then
            (registry.taskBoard.setDevice order (pluginId instanceId) slots true).setSlotOwners
              order (pluginId instanceId) owners
          else registry.taskBoard
        sessions := (registry.sessions.filter (·.2 != pluginId instanceId)) ++
          [(session, pluginId instanceId)] }
  /-- A plugin becomes an auxiliary controller. -/
  | enlist (registry : Registry World) (order : WalkOrder) (session : Nat)
      (instanceId : String) (slots : Nat)
      (hoccupied : ¬(registry.controller = none ∧ registry.taskDeviceId = "none"))
      (hattached : ¬registry.Attached (pluginId instanceId))
      (hgreets : allows.greets registry session instanceId slots) :
      RegistryStep host may allows registry { registry with
        world := host.attachPlugin session instanceId slots registry.world
        auxControllers := registry.auxControllers ++
          [⟨pluginId instanceId, pluginDevice instanceId, slots⟩]
        taskBoard :=
          if 0 < slots then
            registry.taskBoard.setDevice order (pluginId instanceId) slots true
          else registry.taskBoard
        sessions := (registry.sessions.filter (·.2 != pluginId instanceId)) ++
          [(session, pluginId instanceId)] }

/-- A number of steps. -/
abbrev RegistrySteps {World : Type} (host : Host World) (may : Op → Prop)
    (allows : Allowance World) : Registry World → Registry World → Prop :=
  ReflTransGen (RegistryStep host may allows)

/-- What holds of the registry between any two steps. -/
structure Sound {World : Type} (registry : Registry World) : Prop where
  placed : registry.taskBoard.Placed
  noneUnregistered : ¬registry.taskBoard.Registered "none"
  auxPlugins : ∀ aux ∈ registry.auxControllers, ∃ instanceId,
    aux.deviceId = pluginId instanceId ∧ aux.device = pluginDevice instanceId
  auxMapped : ∀ id ∈ registry.auxIds, id ∈ registry.mapped
  auxNodup : registry.auxIds.Nodup
  /-- A plugin that is the primary controller is the task device. -/
  primary : ∀ device, registry.controller = some device → device.kind = .streamDeckPlugin →
    registry.choice = .none ∧ device.deviceId = registry.taskDeviceId ∧
      (∃ instanceId, device = pluginDevice instanceId) ∧
      registry.taskDeviceId ∈ registry.mapped ∧ registry.taskDeviceId ∉ registry.auxIds
  /-- Without a configured controller the task device is a plugin. -/
  standalone : registry.choice = .none →
    (∀ device, registry.controller = some device → device.kind = .streamDeckPlugin) ∧
      (registry.taskDeviceId = "none" ∨ ∃ instanceId, registry.taskDeviceId = pluginId instanceId)
  /-- With a configured controller the task device is never a plugin. -/
  physical : registry.choice ≠ .none →
    registry.taskDeviceId ≠ "none" ∧ ∀ instanceId, registry.taskDeviceId ≠ pluginId instanceId
  sessionPlugins : ∀ id ∈ registry.mapped, ∃ instanceId, id = pluginId instanceId
  sessionsNodup : registry.mapped.Nodup

namespace Sound

variable {World : Type} {registry : Registry World}

/-- The board may change as long as nothing registers a missing controller. -/
theorem withBoard (h : Sound registry) {board : TaskBoard} (hplaced : board.Placed)
    (hnone : ¬board.Registered "none") : Sound { registry with taskBoard := board } where
  placed := hplaced
  noneUnregistered := hnone
  auxPlugins := h.auxPlugins
  auxMapped := h.auxMapped
  auxNodup := h.auxNodup
  primary := h.primary
  standalone := h.standalone
  physical := h.physical
  sessionPlugins := h.sessionPlugins
  sessionsNodup := h.sessionsNodup

theorem withWorld (h : Sound registry) (world : World) :
    Sound { registry with world := world } where
  placed := h.placed
  noneUnregistered := h.noneUnregistered
  auxPlugins := h.auxPlugins
  auxMapped := h.auxMapped
  auxNodup := h.auxNodup
  primary := h.primary
  standalone := h.standalone
  physical := h.physical
  sessionPlugins := h.sessionPlugins
  sessionsNodup := h.sessionsNodup

/-- Auxiliary controllers may go. -/
theorem shrink (h : Sound registry) {auxControllers : List AuxController}
    (hsub : auxControllers.Sublist registry.auxControllers) :
    Sound { registry with auxControllers := auxControllers } where
  placed := h.placed
  noneUnregistered := h.noneUnregistered
  auxPlugins aux haux := h.auxPlugins aux (hsub.subset haux)
  auxMapped id hid := h.auxMapped id ((hsub.map _).subset hid)
  auxNodup := h.auxNodup.sublist (hsub.map _)
  primary device hdevice hkind := by
    obtain ⟨hchoice, hid, hplugin, hmapped, haux⟩ := h.primary device hdevice hkind
    exact ⟨hchoice, hid, hplugin, hmapped, fun hmem => haux ((hsub.map _).subset hmem)⟩
  standalone := h.standalone
  physical := h.physical
  sessionPlugins := h.sessionPlugins
  sessionsNodup := h.sessionsNodup

/-- The primary controller may go. -/
theorem vacate (h : Sound registry) : Sound { registry with controller := none } where
  placed := h.placed
  noneUnregistered := h.noneUnregistered
  auxPlugins := h.auxPlugins
  auxMapped := h.auxMapped
  auxNodup := h.auxNodup
  primary _ hdevice := nomatch hdevice
  standalone hchoice := ⟨fun _ hdevice => (nomatch hdevice), (h.standalone hchoice).2⟩
  physical := h.physical
  sessionPlugins := h.sessionPlugins
  sessionsNodup := h.sessionsNodup

/-- A task device that was a plugin may be forgotten. -/
theorem forget (h : Sound registry) (hnone : registry.controller = none) {instanceId : String}
    (hdevice : registry.taskDeviceId = pluginId instanceId) :
    Sound { registry with taskDeviceId := "none", taskSlotCount := 0 } where
  placed := h.placed
  noneUnregistered := h.noneUnregistered
  auxPlugins := h.auxPlugins
  auxMapped := h.auxMapped
  auxNodup := h.auxNodup
  primary device hcontroller := by
    rw [show registry.controller = some device from hcontroller] at hnone
    cases hnone
  standalone hchoice := ⟨(h.standalone hchoice).1, .inl rfl⟩
  physical hchoice := absurd hdevice ((h.physical hchoice).2 instanceId)
  sessionPlugins := h.sessionPlugins
  sessionsNodup := h.sessionsNodup

/-! ## Boards -/

theorem unregister (h : Sound registry) (order : WalkOrder) (deviceId : String) :
    Sound { registry with taskBoard := registry.taskBoard.setDevice order deviceId 0 false } :=
  h.withBoard (h.placed.apply order (.setDevice deviceId 0 false)) fun hnone =>
    h.noneUnregistered
      ((TaskBoard.registered_setDevice_false_iff order _ deviceId "none" 0).mp hnone).2

theorem register (h : Sound registry) (order : WalkOrder) {deviceId : String}
    (hdevice : deviceId ≠ "none") (slots : Nat) :
    Sound { registry with taskBoard := registry.taskBoard.setDevice order deviceId slots true } :=
  h.withBoard (h.placed.apply order (.setDevice deviceId slots true)) fun hnone => by
    rcases (TaskBoard.registered_setDevice_true_iff order _ deviceId "none" slots).mp hnone with
      rfl | hold
    · exact hdevice rfl
    · exact h.noneUnregistered hold

theorem own (h : Sound registry) (order : WalkOrder) (deviceId : String)
    (owners : List (Option AgentId)) : Sound { registry with
      taskBoard := registry.taskBoard.setSlotOwners order deviceId owners } :=
  h.withBoard (h.placed.apply order (.setSlotOwners deviceId owners)) fun hnone =>
    h.noneUnregistered ((TaskBoard.registered_setSlotOwners_iff order _ deviceId _ owners).mp hnone)

/-! ## Steps -/

theorem mem_auxIds {kept rest : List AuxController} {aux : AuxController}
    (h : registry.auxControllers = kept ++ aux :: rest) : aux.deviceId ∈ registry.auxIds := by
  unfold Registry.auxIds
  rw [h]
  simp

/-- The id of an auxiliary controller is that of a plugin. -/
theorem exists_pluginId (h : Sound registry) {id : String} (hid : id ∈ registry.auxIds) :
    ∃ instanceId, id = pluginId instanceId := by
  obtain ⟨aux, haux, rfl⟩ := List.mem_map.mp hid
  obtain ⟨instanceId, hplugin, -⟩ := h.auxPlugins aux haux
  exact ⟨instanceId, hplugin⟩

/-- With a plugin as the task device, no hardware controller is there. -/
theorem controller_eq_none (h : Sound registry) (hprimary : ¬registry.PluginPrimary)
    {instanceId : String} (hdevice : registry.taskDeviceId = pluginId instanceId) :
    registry.controller = none := by
  cases hcontroller : registry.controller with
  | none => rfl
  | some device =>
      by_cases hchoice : registry.choice = .none
      · exact absurd ⟨device, hcontroller, (h.standalone hchoice).1 device hcontroller⟩ hprimary
      · exact absurd hdevice ((h.physical hchoice).2 instanceId)

theorem deck {host : Host World} {may : Op → Prop} {loses : Decks World → AuxController → Prop}
    {decks : Decks World} (h : Sound registry)
    (hstep : DeckStep host.toOutside may loses registry.toDecks decks)
    (hmay : ∀ op, may op → op.KeepsSlots) : Sound { registry with toDecks := decks } := by
  have hsublist {kept rest : List AuxController} {aux : AuxController}
      (hlist : registry.auxControllers = kept ++ aux :: rest) :
      (kept ++ rest).Sublist registry.auxControllers := by
    rw [hlist]
    exact (List.sublist_cons_self aux rest).append_left kept
  cases hstep with
  | call hworld => exact h.withWorld _
  | board order op hop =>
      have hsame := TaskBoard.sameSlots_apply (hmay op hop) order registry.taskBoard
      exact h.withBoard (h.placed.apply order op) fun hnone =>
        h.noneUnregistered ((hsame.registered_iff "none").mp hnone)
  | detach => exact h.vacate
  | drop order kept aux rest hlist =>
      exact (h.shrink (hsublist hlist)).unregister order aux.deviceId
  | forget order kept aux rest hlist hcontroller hdevice =>
      obtain ⟨instanceId, hplugin⟩ := h.exists_pluginId (mem_auxIds hlist)
      exact (((h.shrink (hsublist hlist)).unregister order aux.deviceId).own order "none"
        []).forget hcontroller (hdevice.trans hplugin)
  | lose kept aux rest hlist => exact h.shrink (hsublist hlist)

/-- A device whose plugin is not attached may lose its session. -/
theorem unmap (h : Sound registry) {deviceId : String} (hattached : ¬registry.Attached deviceId) :
    Sound { registry with sessions := registry.sessions.filter (·.2 != deviceId) } where
  placed := h.placed
  noneUnregistered := h.noneUnregistered
  auxPlugins := h.auxPlugins
  auxMapped id hid := Registry.mem_mapped_filter.mpr
    ⟨h.auxMapped id hid, fun heq => hattached (.inr (heq ▸ hid))⟩
  auxNodup := h.auxNodup
  primary device hdevice hkind := by
    obtain ⟨hchoice, hid, hplugin, hmapped, haux⟩ := h.primary device hdevice hkind
    exact ⟨hchoice, hid, hplugin, Registry.mem_mapped_filter.mpr
      ⟨hmapped, fun heq => hattached (.inl ⟨⟨device, hdevice, hkind⟩, heq⟩)⟩, haux⟩
  standalone := h.standalone
  physical := h.physical
  sessionPlugins id hid := h.sessionPlugins id (Registry.mem_mapped_filter.mp hid).1
  sessionsNodup := h.sessionsNodup.sublist (List.filter_sublist.map _)

/-- A device whose session has ended may get a new one. -/
theorem map (h : Sound registry) {instanceId : String} (session : Nat)
    (hfresh : pluginId instanceId ∉ registry.mapped) : Sound { registry with
      sessions := registry.sessions ++ [(session, pluginId instanceId)] } := by
  have hmapped (id : String) : id ∈ (registry.sessions ++ [(session, pluginId instanceId)]).map
      Prod.snd ↔ id ∈ registry.mapped ∨ id = pluginId instanceId := by
    simp [Registry.mapped]
  exact {
    placed := h.placed
    noneUnregistered := h.noneUnregistered
    auxPlugins := h.auxPlugins
    auxMapped := fun id hid => (hmapped id).mpr (.inl (h.auxMapped id hid))
    auxNodup := h.auxNodup
    primary := fun device hdevice hkind => by
      obtain ⟨hchoice, hid, hplugin, hold, haux⟩ := h.primary device hdevice hkind
      exact ⟨hchoice, hid, hplugin, (hmapped _).mpr (.inl hold), haux⟩
    standalone := h.standalone
    physical := h.physical
    sessionPlugins := fun id hid => by
      rcases (hmapped id).mp hid with hold | rfl
      · exact h.sessionPlugins id hold
      · exact ⟨instanceId, rfl⟩
    sessionsNodup := nodup_map_append h.sessionsNodup hfresh }

/-- A plugin with a session may become the primary controller. -/
theorem promote (h : Sound registry) {instanceId : String} (slots : Nat)
    (hdevice : registry.taskDeviceId = "none")
    (hmapped : pluginId instanceId ∈ registry.mapped)
    (haux : pluginId instanceId ∉ registry.auxIds) : Sound { registry with
      controller := some (pluginDevice instanceId)
      taskDeviceId := pluginId instanceId
      taskSlotCount := slots } := by
  have hchoice : registry.choice = .none := by
    by_contra hchoice
    exact (h.physical hchoice).1 hdevice
  exact {
    placed := h.placed
    noneUnregistered := h.noneUnregistered
    auxPlugins := h.auxPlugins
    auxMapped := h.auxMapped
    auxNodup := h.auxNodup
    primary := by
      rintro device ⟨⟩ -
      exact ⟨hchoice, rfl, ⟨instanceId, rfl⟩, hmapped, haux⟩
    standalone := fun _ => ⟨by rintro device ⟨⟩; rfl, .inr ⟨instanceId, rfl⟩⟩
    physical := fun hphysical => absurd hchoice hphysical
    sessionPlugins := h.sessionPlugins
    sessionsNodup := h.sessionsNodup }

/-- A plugin with a session may become an auxiliary controller. -/
theorem enlist (h : Sound registry) {instanceId : String} (slots : Nat)
    (hmapped : pluginId instanceId ∈ registry.mapped)
    (hattached : ¬registry.Attached (pluginId instanceId)) : Sound { registry with
      auxControllers := registry.auxControllers ++
        [⟨pluginId instanceId, pluginDevice instanceId, slots⟩] } := by
  have haux (id : String) : id ∈ Registry.auxIds { registry with
      auxControllers := registry.auxControllers ++
        [⟨pluginId instanceId, pluginDevice instanceId, slots⟩] } ↔
        id ∈ registry.auxIds ∨ id = pluginId instanceId := by
    simp [Registry.auxIds]
  exact {
    placed := h.placed
    noneUnregistered := h.noneUnregistered
    auxPlugins := fun aux hmem => by
      rcases List.mem_append.mp hmem with hold | hnew
      · exact h.auxPlugins aux hold
      · obtain rfl := List.mem_singleton.mp hnew
        exact ⟨instanceId, rfl, rfl⟩
    auxMapped := fun id hid => by
      rcases (haux id).mp hid with hold | rfl
      · exact h.auxMapped id hold
      · exact hmapped
    auxNodup := nodup_map_append h.auxNodup fun hmem => hattached (.inr hmem)
    primary := fun device hdevice hkind => by
      obtain ⟨hchoice, hid, hplugin, hold, hnot⟩ := h.primary device hdevice hkind
      refine ⟨hchoice, hid, hplugin, hold, fun hmem => ?_⟩
      rcases (haux _).mp hmem with hmem | htask
      · exact hnot hmem
      · exact hattached (.inl ⟨⟨device, hdevice, hkind⟩, htask⟩)
    standalone := h.standalone
    physical := h.physical
    sessionPlugins := h.sessionPlugins
    sessionsNodup := h.sessionsNodup }

/-- The configured controller may come back. -/
theorem reconnect (h : Sound registry) {device : Device} (hkind : device.kind = registry.choice)
    (hphysical : registry.choice ≠ .none) (hplugin : registry.choice ≠ .streamDeckPlugin) :
    Sound { registry with controller := some device } where
  placed := h.placed
  noneUnregistered := h.noneUnregistered
  auxPlugins := h.auxPlugins
  auxMapped := h.auxMapped
  auxNodup := h.auxNodup
  primary := by
    rintro other ⟨⟩ hother
    exact absurd (hkind.symm.trans hother) hplugin
  standalone hchoice := absurd hchoice hphysical
  physical := h.physical
  sessionPlugins := h.sessionPlugins
  sessionsNodup := h.sessionsNodup

theorem step {host : Host World} {may : Op → Prop} {allows : Allowance World}
    {after : Registry World} (h : Sound registry)
    (hstep : RegistryStep host may allows registry after)
    (hmay : ∀ op, may op → op.KeepsSlots) : Sound after := by
  cases hstep with
  | deck hdeck => exact h.deck hdeck hmay
  | outside world hmoves => exact h.withWorld world
  | owners order owners hlength => exact h.own order registry.taskDeviceId owners
  | reconnect order device hnone hkind hphysical hplugin =>
      exact (h.register order (h.physical hphysical).1 registry.taskSlotCount).reconnect hkind
        hphysical hplugin
  | reconnectUnregistered device hnone hkind hphysical hplugin =>
      exact h.reconnect hkind hphysical hplugin
  | releasePrimary order device hdevice hkind =>
      obtain ⟨-, hid, ⟨instanceId, rfl⟩, -⟩ := h.primary device hdevice hkind
      exact ((h.vacate.unregister order registry.taskDeviceId).own order "none" []).forget rfl
        hid.symm
  | releaseAux order deviceId haux hdevice =>
      exact (h.shrink List.filter_sublist).unregister order deviceId
  | releaseTask order haux hprimary =>
      obtain ⟨instanceId, hplugin⟩ := h.exists_pluginId haux
      have hnone := h.controller_eq_none hprimary hplugin
      exact (((h.shrink List.filter_sublist).unregister order registry.taskDeviceId).own order
        "none" []).forget hnone hplugin
  | unmap deviceId hattached hleaves => exact h.unmap hattached
  | promote order session instanceId slots owners hnone hdevice hattached howners hgreets =>
      have hfresh : pluginId instanceId ∉ Registry.mapped { registry with
          sessions := registry.sessions.filter (·.2 != pluginId instanceId) } :=
        fun hmem => (Registry.mem_mapped_filter.mp hmem).2 rfl
      have hmapped := ((h.unmap hattached).map session hfresh).withWorld
        (host.attachPlugin session instanceId slots registry.world)
      have hpromoted := hmapped.promote slots hdevice
        (by simp [Registry.mapped]) fun haux => hattached (.inr haux)
      split
      · exact ((hpromoted.register order (pluginId_ne_none instanceId) slots).own order
          (pluginId instanceId) owners)
      · exact hpromoted
  | enlist order session instanceId slots hoccupied hattached hgreets =>
      have hfresh : pluginId instanceId ∉ Registry.mapped { registry with
          sessions := registry.sessions.filter (·.2 != pluginId instanceId) } :=
        fun hmem => (Registry.mem_mapped_filter.mp hmem).2 rfl
      have hmapped := ((h.unmap hattached).map session hfresh).withWorld
        (host.attachPlugin session instanceId slots registry.world)
      have hlisted := hmapped.enlist slots (by simp [Registry.mapped]) hattached
      split
      · exact hlisted.register order (pluginId_ne_none instanceId) slots
      · exact hlisted

theorem steps {host : Host World} {may : Op → Prop} {allows : Allowance World}
    {after : Registry World} (h : Sound registry)
    (hsteps : RegistrySteps host may allows registry after)
    (hmay : ∀ op, may op → op.KeepsSlots) : Sound after := by
  induction hsteps with
  | refl => exact h
  | tail _ hstep ih => exact ih.step hstep hmay

end Sound

end Daemon
end MicroEmu
