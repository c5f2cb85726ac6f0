import MicroEmu.Daemon.Departures
import MicroEmu.Daemon.Reports

/-!
# The capacity of a plugin

The number of slots of a plugin is kept in four places: its controller, the registration of its
device on the board, the count its cards are rendered with, and the owners of the slots of the
task device.  A hello sets all four.  A `capacity` message reaches the controller only, so the
four agree as long as the messages of a connection repeat the number of its hello.
-/

namespace MicroEmu
namespace Daemon

open Json (Value)
open Routing (AgentId)
open Bridge (AuxController BridgeRuntime Decks Device)
open Tasks (Op TaskBoard WalkOrder)
open Relation (ReflTransGen)
open PluginWorld (Arrives Informed)

variable {Rest : Type}

/-- The number of slots of the device that have owners. -/
def ownedSlots (board : TaskBoard) (deviceId : String) : Nat :=
  if board.partitionedDeviceId = some deviceId then board.slotOwners.length else 0

theorem ownedSlots_of_eq {board after : TaskBoard} (howners : after.slotOwners = board.slotOwners)
    (hdevice : after.partitionedDeviceId = board.partitionedDeviceId) (deviceId : String) :
    ownedSlots after deviceId = ownedSlots board deviceId := by
  rw [ownedSlots, howners, hdevice, ownedSlots]

theorem ownedSlots_setSlotOwners (order : WalkOrder) (board : TaskBoard) (deviceId : String)
    (owners : List (Option AgentId)) :
    ownedSlots (board.setSlotOwners order deviceId owners) deviceId = owners.length := by
  obtain ⟨howners, hdevice⟩ := TaskBoard.owners_setSlotOwners order board deviceId owners
  rw [ownedSlots, hdevice, if_pos rfl, howners]

/-! ## The invariant -/

/-- The copies of the capacity agree for every plugin. -/
structure Agreed (greeting : Nat → String × Nat) (registry : Registry (PluginWorld Rest)) :
    Prop where
  informed : Informed greeting registry.world
  auxiliary : ∀ aux ∈ registry.auxControllers, ∀ instanceId, aux.deviceId = pluginId instanceId →
    registry.world.slotsOf instanceId = some aux.slots ∧
      registry.taskBoard.registeredSlots aux.deviceId = aux.slots
  primary : ∀ instanceId, registry.controller = some (pluginDevice instanceId) →
    registry.world.slotsOf instanceId = some registry.taskSlotCount ∧
      registry.taskBoard.registeredSlots (pluginId instanceId) = registry.taskSlotCount ∧
      ownedSlots registry.taskBoard (pluginId instanceId) = registry.taskSlotCount
  /-- Owners are given to the task device, or to a missing one. -/
  partitioned : ∀ id, registry.taskBoard.partitionedDeviceId = some id →
    id = registry.taskDeviceId ∨ id = "none"

/-- What may come from outside: hellos as the connections greet, one that reports no slots only
for a device that has none, and lines that repeat the hello. -/
def announces (greeting : Nat → String × Nat) : Allowance (PluginWorld Rest) where
  greets registry session instanceId slots :=
    (greeting session).1 = instanceId ∧
      slots = min (greeting session).2 maxPluginTaskSlots ∧
      (slots = 0 → registry.taskBoard.registeredSlots (pluginId instanceId) = 0)
  moves := Arrives greeting

namespace Agreed

variable {windows : Windows Rest} {greeting : Nat → String × Nat} {may : Op → Prop}
  {registry after : Registry (PluginWorld Rest)}

/-- Another world in which the controllers hold the same numbers of slots. -/
theorem withWorld (h : Agreed greeting registry) {world : PluginWorld Rest}
    (hinformed : Informed greeting world)
    (hslots : ∀ instanceId, world.slotsOf instanceId = registry.world.slotsOf instanceId) :
    Agreed greeting { registry with world := world } where
  informed := hinformed
  auxiliary aux haux instanceId hid := by
    rw [hslots]
    exact h.auxiliary aux haux instanceId hid
  primary instanceId hcontroller := by
    rw [hslots]
    exact h.primary instanceId hcontroller
  partitioned := h.partitioned

/-- Fewer auxiliary controllers, and a board that has not changed for those that stay. -/
theorem shrink (h : Agreed greeting registry) {auxControllers : List AuxController}
    {board : TaskBoard} (hsub : ∀ aux ∈ auxControllers, aux ∈ registry.auxControllers)
    (hslots : ∀ aux ∈ auxControllers,
      board.registeredSlots aux.deviceId = registry.taskBoard.registeredSlots aux.deviceId)
    (hprimary : ∀ instanceId, registry.controller = some (pluginDevice instanceId) →
      board.registeredSlots (pluginId instanceId) =
        registry.taskBoard.registeredSlots (pluginId instanceId) ∧
      ownedSlots board (pluginId instanceId) = ownedSlots registry.taskBoard (pluginId instanceId))
    (hpartitioned : ∀ id, board.partitionedDeviceId = some id →
      id = registry.taskDeviceId ∨ id = "none") :
    Agreed greeting { registry with auxControllers := auxControllers, taskBoard := board } where
  informed := h.informed
  auxiliary aux haux instanceId hid := by
    have hknown := h.auxiliary aux (hsub aux haux) instanceId hid
    rw [hslots aux haux]
    exact hknown
  primary instanceId hcontroller := by
    obtain ⟨hregistered, howned⟩ := hprimary instanceId hcontroller
    rw [hregistered, howned]
    exact h.primary instanceId hcontroller
  partitioned := hpartitioned

/-- The primary controller goes. -/
theorem vacate (h : Agreed greeting registry) :
    Agreed greeting { registry with controller := none } where
  informed := h.informed
  auxiliary := h.auxiliary
  primary _ hcontroller := nomatch hcontroller
  partitioned := h.partitioned

/-- A device that no remaining plugin has leaves the board. -/
theorem unregister (h : Agreed greeting registry) (order : WalkOrder) {deviceId : String}
    {auxControllers : List AuxController}
    (hsub : ∀ aux ∈ auxControllers, aux ∈ registry.auxControllers ∧ aux.deviceId ≠ deviceId)
    (hprimary : ∀ instanceId, registry.controller = some (pluginDevice instanceId) →
      pluginId instanceId ≠ deviceId) :
    Agreed greeting { registry with
      auxControllers := auxControllers
      taskBoard := registry.taskBoard.setDevice order deviceId 0 false } := by
  obtain ⟨howners, hdevice⟩ := TaskBoard.owners_setDevice order registry.taskBoard deviceId 0 false
  have hothers {id : String} (hne : id ≠ deviceId) :
      (registry.taskBoard.setDevice order deviceId 0 false).registeredSlots id =
        registry.taskBoard.registeredSlots id := by
    rw [TaskBoard.registeredSlots_setDevice_false, if_neg hne.symm]
  refine h.shrink (fun aux haux => (hsub aux haux).1) (fun aux haux => hothers (hsub aux haux).2)
    (fun instanceId hcontroller => ?_) fun id hid => ?_
  · exact ⟨hothers (hprimary instanceId hcontroller), ownedSlots_of_eq howners hdevice _⟩
  · rw [hdevice] at hid
    exact h.partitioned id hid

/-- A device that no plugin has comes to the board. -/
theorem register (h : Agreed greeting registry) (order : WalkOrder) {deviceId : String}
    (hother : ∀ instanceId, deviceId ≠ pluginId instanceId) (hsound : Sound registry)
    (slots : Nat) :
    Agreed greeting { registry with
      taskBoard := registry.taskBoard.setDevice order deviceId slots true } := by
  obtain ⟨howners, hdevice⟩ :=
    TaskBoard.owners_setDevice order registry.taskBoard deviceId slots true
  have hothers (instanceId : String) :
      (registry.taskBoard.setDevice order deviceId slots true).registeredSlots
        (pluginId instanceId) = registry.taskBoard.registeredSlots (pluginId instanceId) := by
    rw [TaskBoard.registeredSlots_setDevice_true, if_neg (hother instanceId)]
  refine h.shrink (fun aux haux => haux) (fun aux haux => ?_) (fun instanceId _ => ?_)
    fun id hid => ?_
  · obtain ⟨instanceId, hid, -⟩ := hsound.auxPlugins aux haux
    rw [hid]
    exact hothers instanceId
  · exact ⟨hothers instanceId, ownedSlots_of_eq howners hdevice _⟩
  · rw [hdevice] at hid
    exact h.partitioned id hid

/-- Without a primary controller the task device is forgotten. -/
theorem forget (h : Agreed greeting registry) (order : WalkOrder)
    (hnone : registry.controller = none) :
    Agreed greeting { registry with
      taskDeviceId := "none"
      taskSlotCount := 0
      taskBoard := registry.taskBoard.setSlotOwners order "none" [] } where
  informed := h.informed
  auxiliary aux haux instanceId hid := by
    have hknown := h.auxiliary aux haux instanceId hid
    unfold TaskBoard.registeredSlots
    rw [TaskBoard.devices_setSlotOwners]
    exact hknown
  primary instanceId hcontroller := by
    rw [show registry.controller = some _ from hcontroller] at hnone
    cases hnone
  partitioned id hid := by
    rw [(TaskBoard.owners_setSlotOwners order _ _ _).2] at hid
    exact .inr (Option.some.inj hid).symm

/-- The slots of the task device get owners, as many as its cards are rendered with. -/
theorem own (h : Agreed greeting registry) (hsound : Sound registry) (order : WalkOrder)
    {owners : List (Option AgentId)} (hlength : owners.length = registry.taskSlotCount) :
    Agreed greeting { registry with
      taskBoard := registry.taskBoard.setSlotOwners order registry.taskDeviceId owners } where
  informed := h.informed
  auxiliary aux haux instanceId hid := by
    have hknown := h.auxiliary aux haux instanceId hid
    unfold TaskBoard.registeredSlots
    rw [TaskBoard.devices_setSlotOwners]
    exact hknown
  primary instanceId hcontroller := by
    obtain ⟨hslots, hregistered, -⟩ := h.primary instanceId hcontroller
    obtain ⟨-, htask, -⟩ := hsound.primary _ hcontroller rfl
    have htask : pluginId instanceId = registry.taskDeviceId := htask
    refine ⟨hslots, ?_, ?_⟩
    · unfold TaskBoard.registeredSlots
      rw [TaskBoard.devices_setSlotOwners]
      exact hregistered
    · rw [htask, ownedSlots_setSlotOwners, hlength]
  partitioned id hid := by
    rw [(TaskBoard.owners_setSlotOwners order _ _ _).2] at hid
    exact .inl (Option.some.inj hid).symm

/-- An operation that keeps the slots keeps the copies. -/
theorem sameSlots (h : Agreed greeting registry) {board : TaskBoard}
    (hsame : TaskBoard.SameSlots registry.taskBoard board) :
    Agreed greeting { registry with taskBoard := board } := by
  refine h.shrink (fun _ haux => haux) (fun aux _ => hsame.registeredSlots aux.deviceId)
    (fun instanceId _ => ⟨hsame.registeredSlots _,
      ownedSlots_of_eq hsame.slotOwners hsame.partitionedDeviceId _⟩) fun id hid => ?_
  rw [hsame.partitionedDeviceId] at hid
  exact h.partitioned id hid

/-! ## Steps -/

theorem mem_of_split {kept rest : List AuxController} {aux other : AuxController}
    (hlist : registry.auxControllers = kept ++ aux :: rest) (h : other ∈ kept ++ rest) :
    other ∈ registry.auxControllers := by
  rw [hlist]
  exact (List.mem_append.mp h).elim (List.mem_append_left _)
    fun hrest => List.mem_append_right _ (List.mem_cons_of_mem _ hrest)

/-- An auxiliary controller that is dropped leaves others with other ids. -/
theorem ne_of_split (hsound : Sound registry) {kept rest : List AuxController}
    {aux other : AuxController} (hlist : registry.auxControllers = kept ++ aux :: rest)
    (h : other ∈ kept ++ rest) : other.deviceId ≠ aux.deviceId := by
  have hnodup := hsound.auxNodup
  rw [Registry.auxIds, hlist, List.map_append, List.map_cons, List.nodup_middle,
    List.nodup_cons, ← List.map_append] at hnodup
  exact fun heq => hnodup.1 (heq ▸ List.mem_map_of_mem h)

/-- The primary controller is none of the auxiliary ones. -/
theorem primary_ne (hsound : Sound registry) {deviceId instanceId : String}
    (haux : deviceId ∈ registry.auxIds)
    (hcontroller : registry.controller = some (pluginDevice instanceId)) :
    pluginId instanceId ≠ deviceId := by
  obtain ⟨-, htask, -, -, hnot⟩ := hsound.primary _ hcontroller rfl
  rintro rfl
  have htask : pluginId instanceId = registry.taskDeviceId := htask
  exact hnot (htask ▸ haux)

theorem deck {decks : Decks (PluginWorld Rest)} (h : Agreed greeting registry)
    (hsound : Sound registry) {loses : Decks (PluginWorld Rest) → AuxController → Prop}
    (hstep : Bridge.DeckStep (PluginWorld.host windows).toOutside may loses registry.toDecks decks)
    (hmay : ∀ op, may op → op.KeepsSlots) : Agreed greeting { registry with toDecks := decks } := by
  cases hstep with
  | call hworld =>
      obtain ⟨hinformed, hslots⟩ := PluginWorld.informed_worldStep h.informed hworld
      exact h.withWorld hinformed hslots
  | board order op hop =>
      exact h.sameSlots (TaskBoard.sameSlots_apply (hmay op hop) order registry.taskBoard)
  | detach => exact h.vacate
  | drop order kept aux rest hlist =>
      exact h.unregister order
        (fun other hother => ⟨mem_of_split hlist hother, ne_of_split hsound hlist hother⟩)
        fun instanceId hcontroller => primary_ne hsound (Sound.mem_auxIds hlist) hcontroller
  | forget order kept aux rest hlist hcontroller hdevice =>
      exact (h.unregister order
        (fun other hother => ⟨mem_of_split hlist hother, ne_of_split hsound hlist hother⟩)
        fun instanceId hcontroller => primary_ne hsound (Sound.mem_auxIds hlist)
          hcontroller).forget order hcontroller
  | lose kept aux rest hlist hlost =>
      exact h.shrink (fun _ hother => mem_of_split hlist hother) (fun _ _ => rfl)
        (fun _ _ => ⟨rfl, rfl⟩) h.partitioned

/-- The world in which a plugin has greeted. -/
theorem attach (h : Agreed greeting registry) (hsound : Sound registry) {session slots : Nat}
    {instanceId : String} (hattached : ¬registry.Attached (pluginId instanceId))
    (hinstance : (greeting session).1 = instanceId)
    (hslots : slots = min (greeting session).2 maxPluginTaskSlots) :
    Agreed greeting { registry with
      world := PluginWorld.attach session instanceId slots registry.world } := by
  obtain ⟨hinformed, -, hothers⟩ :=
    PluginWorld.informed_attach h.informed hinstance hslots
  refine ⟨hinformed, fun aux haux other hid => ?_, fun other hcontroller => ?_, h.partitioned⟩
  · have hne : other ≠ instanceId := by
      rintro rfl
      exact hattached (.inr (List.mem_map.mpr ⟨aux, haux, hid⟩))
    rw [hothers other hne]
    exact h.auxiliary aux haux other hid
  · have hne : other ≠ instanceId := by
      rintro rfl
      obtain ⟨-, htask, -⟩ := hsound.primary _ hcontroller rfl
      exact hattached (.inl ⟨⟨_, hcontroller, rfl⟩, htask.symm⟩)
    rw [hothers other hne]
    exact h.primary other hcontroller

/-- A plugin becomes an auxiliary controller. -/
theorem enlist (h : Agreed greeting registry) {slots : Nat} {instanceId : String}
    (hattached : ¬registry.Attached (pluginId instanceId))
    (hprimary : ∀ other, registry.controller = some (pluginDevice other) → other ≠ instanceId)
    (hslots : registry.world.slotsOf instanceId = some slots) {board : TaskBoard}
    (howners : board.slotOwners = registry.taskBoard.slotOwners)
    (hdevice : board.partitionedDeviceId = registry.taskBoard.partitionedDeviceId)
    (hhere : board.registeredSlots (pluginId instanceId) = slots)
    (hothers : ∀ id, id ≠ pluginId instanceId →
      board.registeredSlots id = registry.taskBoard.registeredSlots id) :
    Agreed greeting { registry with
      auxControllers := registry.auxControllers ++
        [⟨pluginId instanceId, pluginDevice instanceId, slots⟩]
      taskBoard := board } where
  informed := h.informed
  auxiliary aux haux other hid := by
    rcases List.mem_append.mp haux with hold | hnew
    · have hne : aux.deviceId ≠ pluginId instanceId := fun heq =>
        hattached (.inr (List.mem_map.mpr ⟨aux, hold, heq⟩))
      rw [hothers aux.deviceId hne]
      exact h.auxiliary aux hold other hid
    · obtain rfl := List.mem_singleton.mp hnew
      obtain rfl := pluginId_inj.mp hid
      exact ⟨hslots, hhere⟩
  primary other hcontroller := by
    have hne : pluginId other ≠ pluginId instanceId :=
      mt pluginId_inj.mp (hprimary other hcontroller)
    rw [hothers _ hne, ownedSlots_of_eq howners hdevice]
    exact h.primary other hcontroller
  partitioned id hid := by
    rw [hdevice] at hid
    exact h.partitioned id hid

/-- A plugin becomes the primary controller. -/
theorem promote (h : Agreed greeting registry) {slots : Nat} {instanceId : String}
    (hattached : ¬registry.Attached (pluginId instanceId))
    (hslots : registry.world.slotsOf instanceId = some slots) {board : TaskBoard}
    (howned : ownedSlots board (pluginId instanceId) = slots)
    (hpartitioned : ∀ id, board.partitionedDeviceId = some id →
      id = pluginId instanceId ∨ id = "none")
    (hhere : board.registeredSlots (pluginId instanceId) = slots)
    (hothers : ∀ id, id ≠ pluginId instanceId →
      board.registeredSlots id = registry.taskBoard.registeredSlots id) :
    Agreed greeting { registry with
      controller := some (pluginDevice instanceId)
      taskDeviceId := pluginId instanceId
      taskSlotCount := slots
      taskBoard := board } where
  informed := h.informed
  auxiliary aux haux other hid := by
    have hne : aux.deviceId ≠ pluginId instanceId := fun heq =>
      hattached (.inr (List.mem_map.mpr ⟨aux, haux, heq⟩))
    rw [hothers aux.deviceId hne]
    exact h.auxiliary aux haux other hid
  primary other hcontroller := by
    have hid : pluginId instanceId = pluginId other :=
      congrArg Device.deviceId (Option.some.inj hcontroller)
    obtain rfl := pluginId_inj.mp hid
    exact ⟨hslots, hhere, howned⟩
  partitioned := hpartitioned

/-- A device that had no slots before has those it comes with. -/
theorem registeredSlots_installed (order : WalkOrder) (board : TaskBoard) (deviceId : String)
    {slots : Nat} (hempty : slots = 0 → board.registeredSlots deviceId = 0) (id : String) :
    (if 0 < slots then board.setDevice order deviceId slots true else board).registeredSlots id =
      if id = deviceId then slots else board.registeredSlots id := by
  split
  next hsome =>
    rw [TaskBoard.registeredSlots_setDevice_true]
    simp only [eq_comm]
  next hnone =>
    have hzero : slots = 0 := Nat.eq_zero_of_not_pos hnone
    split
    next hhere => rw [hhere, hempty hzero, hzero]
    · rfl

/-- The mapping of the sessions is not part of it. -/
theorem sameDecks (h : Agreed greeting registry) (hdecks : after.toDecks = registry.toDecks) :
    Agreed greeting after where
  informed := by
    rw [hdecks]
    exact h.informed
  auxiliary := by
    rw [hdecks]
    exact h.auxiliary
  primary := by
    rw [hdecks]
    exact h.primary
  partitioned := by
    rw [hdecks]
    exact h.partitioned

theorem step (h : Agreed greeting registry) (hsound : Sound registry)
    (hstep : RegistryStep (PluginWorld.host windows) may (announces greeting) registry after)
    (hmay : ∀ op, may op → op.KeepsSlots) : Agreed greeting after := by
  cases hstep with
  | deck hdeck => exact h.deck hsound hdeck hmay
  | outside world hmoves => exact h.withWorld (hmoves.informed h.informed) hmoves.slotsOf
  | owners order owners hlength => exact h.own hsound order hlength
  | reconnect order device hnone hkind hphysical hplugin =>
      have hregistered := h.register order (hsound.physical hphysical).2 hsound
        registry.taskSlotCount
      refine ⟨hregistered.informed, hregistered.auxiliary, fun instanceId hcontroller => ?_,
        hregistered.partitioned⟩
      obtain rfl := Option.some.inj hcontroller
      exact absurd hkind.symm hplugin
  | reconnectUnregistered device hnone hkind hphysical hplugin =>
      refine ⟨h.informed, h.auxiliary, fun instanceId hcontroller => ?_, h.partitioned⟩
      obtain rfl := Option.some.inj hcontroller
      exact absurd hkind.symm hplugin
  | releasePrimary order device hdevice hkind =>
      obtain ⟨-, -, -, -, hnot⟩ := hsound.primary device hdevice hkind
      exact (h.vacate.unregister order
        (fun aux haux => ⟨haux, fun heq => hnot (by rw [← heq]; exact List.mem_map_of_mem haux)⟩)
        fun _ hcontroller => nomatch hcontroller).forget order rfl
  | releaseAux order deviceId haux hdevice =>
      refine h.unregister order (fun aux hmem => ?_)
        fun instanceId hcontroller => primary_ne hsound haux hcontroller
      obtain ⟨hold, hne⟩ := List.mem_filter.mp hmem
      exact ⟨hold, bne_iff_ne.mp hne⟩
  | releaseTask order haux hprimary =>
      obtain ⟨instanceId, hplugin⟩ := hsound.exists_pluginId haux
      have hnone := hsound.controller_eq_none hprimary hplugin
      refine (h.unregister order (fun aux hmem => ?_) fun instanceId hcontroller =>
        primary_ne hsound haux hcontroller).forget order hnone
      obtain ⟨hold, hne⟩ := List.mem_filter.mp hmem
      exact ⟨hold, bne_iff_ne.mp hne⟩
  | unmap deviceId hattached hleaves =>
      exact h.sameDecks rfl
  | promote order session instanceId slots owners hnone hdevice hattached howners hgreets =>
      obtain ⟨hinstance, hslots, hempty⟩ := hgreets
      have hworld := h.attach hsound hattached hinstance hslots
      have hheld := (PluginWorld.informed_attach h.informed hinstance hslots).2.1
      have hinstalled := registeredSlots_installed order registry.taskBoard (pluginId instanceId)
        hempty
      have hpromoted (board : TaskBoard)
          (howned : ownedSlots board (pluginId instanceId) = slots)
          (hpartitioned : ∀ id, board.partitionedDeviceId = some id →
            id = pluginId instanceId ∨ id = "none")
          (hregistered : ∀ id, board.registeredSlots id =
            if id = pluginId instanceId then slots else registry.taskBoard.registeredSlots id) :=
        hworld.promote hattached hheld howned hpartitioned
          (by rw [hregistered, if_pos rfl]) fun id hne => by rw [hregistered, if_neg hne]
      split
      next hsome =>
        rw [if_pos hsome] at hinstalled
        have hagreed := hpromoted ((registry.taskBoard.setDevice order (pluginId instanceId)
          slots true).setSlotOwners order (pluginId instanceId) owners)
          ((ownedSlots_setSlotOwners ..).trans howners) (fun id hid => ?_) fun id => ?_
        · exact hagreed.sameDecks rfl
        · rw [(TaskBoard.owners_setSlotOwners order _ _ _).2] at hid
          exact .inl (Option.some.inj hid).symm
        · unfold TaskBoard.registeredSlots at hinstalled ⊢
          rw [TaskBoard.devices_setSlotOwners]
          exact hinstalled id
      next hnoslots =>
        have hmissing : ∀ id, registry.taskBoard.partitionedDeviceId = some id → id = "none" :=
          fun id hid => (h.partitioned id hid).elim (fun heq => heq.trans hdevice) fun heq => heq
        rw [if_neg hnoslots] at hinstalled
        have hagreed := hpromoted registry.taskBoard ?_ (fun id hid => .inr (hmissing id hid))
          hinstalled
        · exact hagreed.sameDecks rfl
        · rw [ownedSlots, if_neg fun hid => pluginId_ne_none instanceId (hmissing _ hid)]
          omega
  | enlist order session instanceId slots hoccupied hattached hgreets =>
      obtain ⟨hinstance, hslots, hempty⟩ := hgreets
      have hworld := h.attach hsound hattached hinstance hslots
      have hheld := (PluginWorld.informed_attach h.informed hinstance hslots).2.1
      have hinstalled := registeredSlots_installed order registry.taskBoard (pluginId instanceId)
        hempty
      have hprimary (other : String)
          (hcontroller : registry.controller = some (pluginDevice other)) : other ≠ instanceId := by
        rintro rfl
        obtain ⟨-, htask, -⟩ := hsound.primary _ hcontroller rfl
        exact hattached (.inl ⟨⟨_, hcontroller, rfl⟩, htask.symm⟩)
      have hkept : ∀ board, board = (if 0 < slots then
          registry.taskBoard.setDevice order (pluginId instanceId) slots true
            else registry.taskBoard) → board.slotOwners = registry.taskBoard.slotOwners ∧
              board.partitionedDeviceId = registry.taskBoard.partitionedDeviceId := by
        rintro board rfl
        split
        · exact TaskBoard.owners_setDevice ..
        · exact ⟨rfl, rfl⟩
      have hagreed := hworld.enlist hattached hprimary hheld (hkept _ rfl).1 (hkept _ rfl).2
        ((hinstalled _).trans (if_pos rfl)) fun id hne => (hinstalled id).trans (if_neg hne)
      exact hagreed.sameDecks rfl

theorem steps (h : Agreed greeting registry) (hsound : Sound registry)
    (hsteps : RegistrySteps (PluginWorld.host windows) may (announces greeting) registry after)
    (hmay : ∀ op, may op → op.KeepsSlots) : Agreed greeting after := by
  induction hsteps with
  | refl => exact h
  | tail hbefore hstep ih => exact ih.step (hsound.steps hbefore hmay) hstep hmay

end Agreed

/-! ## Start-up -/

section

variable {windows : Windows Rest} {greeting : Nat → String × Nat}

/-- Opening hardware concerns no plugin. -/
theorem arrives_connectController (choice : Bridge.ControllerKind) (serial : Option String)
    (world : PluginWorld Rest) :
    Arrives greeting world
      (connectController (PluginWorld.host windows) choice serial world).2 := by
  have hrest (ask : Bridge.Call Rest (Except String (String × Option String))) :
      Arrives greeting world (PluginWorld.onRest ask world).2 :=
    .of_alike (PluginWorld.alike_onRest ask world) rfl
  cases choice with
  | none => exact .of_alike (.refl world) rfl
  | streamDeckPlugin => exact .of_alike (.refl world) rfl
  | ajazz | streamDeckPlus | streamDeckPlusXl | streamDeckXl => exact hrest _

/-- While the devices are opened no plugin is known, and no slots have owners. -/
theorem informed_openDevices {order : WalkOrder} {specs : List DeviceSpec}
    {bridge : BridgeRuntime (PluginWorld Rest)} {auxControllers : List AuxController}
    {opened : BridgeRuntime (PluginWorld Rest) × List AuxController}
    (hinformed : Informed greeting bridge.world)
    (hnone : bridge.taskBoard.partitionedDeviceId = none)
    (h : openDevices (PluginWorld.host windows) order specs bridge auxControllers = .ok opened) :
    Informed greeting opened.1.world ∧ opened.1.taskBoard.partitionedDeviceId = none := by
  induction specs generalizing bridge auxControllers with
  | nil =>
      cases h
      exact ⟨hinformed, hnone⟩
  | cons spec specs ih =>
      have hconnected := (@arrives_connectController Rest windows greeting spec.kind spec.serial
        bridge.world).informed hinformed
      unfold openDevices at h
      simp only at h
      split at h
      · cases h
      · cases h
      next device hdevice =>
        refine ih ?_ ?_ h
        · split
          · exact hconnected
          · exact hconnected
        · split
          · exact (TaskBoard.owners_setDevice order _ _ _ true).2.trans hnone
          · exact hnone

/-- With its devices open the daemon knows no plugin. -/
theorem JustOpened.agreed {registry : Registry (PluginWorld Rest)} {single : Prop}
    (h : JustOpened registry single) (hinformed : Informed greeting registry.world)
    (hnone : registry.taskBoard.partitionedDeviceId = none) : Agreed greeting registry where
  informed := hinformed
  auxiliary aux haux := by
    rw [h.alone] at haux
    cases haux
  primary instanceId hcontroller := by
    obtain ⟨-, -, -, hmapped, -⟩ := h.sound.primary _ hcontroller rfl
    rw [Registry.mapped, h.unmapped] at hmapped
    cases hmapped
  partitioned id hid := by
    rw [hnone] at hid
    cases hid

/-! ## Runs -/

/-- What a plugin has reported is what is in force for it. -/
structure InForce (host : Host (PluginWorld Rest)) (bridge : BridgeRuntime (PluginWorld Rest))
    (instanceId : String) (slots : Nat) (agents : Std.ExtTreeMap Nat AgentId) : Prop where
  primary : bridge.controller = some (pluginDevice instanceId) →
    bridge.taskBoard.registeredSlots (pluginId instanceId) = slots ∧
      bridge.taskSlotCount = slots ∧ ownedSlots bridge.taskBoard (pluginId instanceId) = slots
  auxiliary : ∀ aux ∈ bridge.auxControllers, aux.deviceId = pluginId instanceId →
    bridge.taskBoard.registeredSlots (pluginId instanceId) = slots ∧ aux.slots = slots
  overrides : host.slotAgentOverrides (pluginDevice instanceId) bridge.world =
    if agents.isEmpty then none else some agents.toList
  existing : ∀ slot agent, agents[slot]? = some agent → slot < slots

/-- For every plugin whose messages have all been polled, its latest report is in force. -/
def Converged (windows : Windows Rest) (greeting : Nat → String × Nat)
    (bridge : BridgeRuntime (PluginWorld Rest)) : Prop :=
  ∀ instanceId controller, bridge.world.controllers instanceId = some controller →
    let channel := bridge.world.channels controller.session
    channel.received = channel.lines.length →
      let slots := latestSlots (greeting controller.session).2 channel.lines
      InForce (PluginWorld.host windows) bridge instanceId slots
        (latestAgents slots channel.lines)

/-- A connection greets as it says, with no slots only for a device that has none left over,
and its `capacity` messages repeat the number of slots. -/
def Announced (greeting : Nat → String × Nat) (state : LoopState (PluginWorld Rest)) :
    LoopInput (PluginWorld Rest) → Prop
  | .outside world => Arrives greeting state.bridge.world world
  | .message _ (.controllerHello session instanceId slots) =>
      greeting session = (instanceId, slots) ∧
        (slots = 0 → ¬state.registry.Attached (pluginId instanceId) →
          state.bridge.taskBoard.registeredSlots (pluginId instanceId) = 0)
  | _ => True

theorem Agreed.converged {bridge : BridgeRuntime (PluginWorld Rest)}
    {sessions : List (Nat × String)} (h : Agreed greeting (registryOf bridge sessions)) :
    Converged windows greeting bridge := by
  intro instanceId controller hcontroller channel hpolled slots
  obtain ⟨-, hslots, hagents⟩ := h.informed.controllers instanceId controller hcontroller
  have hlatest : slots = controller.taskSlots :=
    (latestSlots_of_repeats (h.informed.repeats controller.session)).trans hslots.symm
  have hheld : (registryOf bridge sessions).world.slotsOf instanceId = some slots := by
    rw [hlatest]
    exact congrArg (Option.map fun controller => controller.taskSlots) hcontroller
  have hforce : controller.slotAgents = latestAgents slots channel.lines := by
    have htaken : channel.lines.take channel.received = channel.lines := by
      rw [hpolled, List.take_length]
    rw [hlatest, hagents]
    exact congrArg (latestAgents controller.taskSlots) htaken
  refine ⟨fun hprimary => ?_, fun aux haux hid => ?_, ?_, fun slot agent => lt_of_latestAgents⟩
  · obtain ⟨hcount, hregistered, howned⟩ := h.primary instanceId hprimary
    have hcount : slots = bridge.taskSlotCount := Option.some.inj (hheld.symm.trans hcount)
    rw [hcount]
    exact ⟨hregistered, rfl, howned⟩
  · obtain ⟨hcount, hregistered⟩ := h.auxiliary aux haux instanceId hid
    have hcount : slots = aux.slots := Option.some.inj (hheld.symm.trans hcount)
    rw [hcount, ← hid]
    exact ⟨hregistered, rfl⟩
  · show (bridge.world.controllers instanceId).bind PluginController.overrides = _
    rw [hcontroller, ← hforce]
    rfl

/-- What is announced is allowed. -/
theorem Announced.allowed {state : LoopState (PluginWorld Rest)}
    {input : LoopInput (PluginWorld Rest)} (h : Announced greeting state input) :
    state.Allowed (PluginWorld.host windows) (announces greeting) input where
  ends _ _ _ _ _ _ := trivial
  refuses _ _ _ _ _ _ _ _ _ _ _ := trivial
  greets order session instanceId taskSlots heq := by
    subst heq
    obtain ⟨hgreets, hempty⟩ := h
    have hcapped : min taskSlots maxPluginTaskSlots =
        min (greeting session).2 maxPluginTaskSlots := by rw [hgreets]
    have hzero (hnone : min taskSlots maxPluginTaskSlots = 0) : taskSlots = 0 := by
      unfold maxPluginTaskSlots at hnone
      omega
    refine ⟨fun registry hattached hleft => ⟨by rw [hgreets], hcapped, fun _ => ?_⟩,
      fun hattached => ⟨by rw [hgreets], hcapped, fun hnone => hempty (hzero hnone) hattached⟩⟩
    exact TaskBoard.registeredSlots_of_not_registered hleft.2
  moves world heq := by
    subst heq
    exact h

theorem agreed_step {state : LoopState (PluginWorld Rest)} {input : LoopInput (PluginWorld Rest)}
    (hsound : Sound state.registry) (hagreed : Agreed greeting state.registry)
    (h : Announced greeting state input) :
    Sound (state.step (PluginWorld.host windows) input).registry ∧
      Agreed greeting (state.step (PluginWorld.host windows) input).registry := by
  have hsteps := LoopState.steps_step (PluginWorld.host windows) hsound input
    (fun _ _ _ => arrives_connectController _ _ _) (fun _ _ _ _ => trivial) h.allowed
  exact ⟨hsound.steps hsteps fun _ => Party.may.keepsSlots,
    hagreed.steps hsound hsteps fun _ => Party.may.keepsSlots⟩

/-- In a run in which the messages of a connection repeat the number of slots of its hello, what
a plugin has reported is in force whenever its messages have been polled. -/
theorem capacities_converge (windows : Windows Rest) (greeting : Nat → String × Nat)
    {order : WalkOrder} {options : Options} {link : SerialLink} {now : Nat} {rest : Rest}
    {bridge : BridgeRuntime (PluginWorld Rest)} {inputs : List (LoopInput (PluginWorld Rest))}
    {preferences snapshot : Option Value} {zcode hermes claude : Bool}
    (hopened : openRuntime (PluginWorld.host windows) order options link now
      ⟨fun _ => .empty, fun _ => none, rest⟩ = .ok bridge)
    (hannounced : Library.Along (LoopState.step (PluginWorld.host windows)) (Announced greeting)
      inputs (.started (PluginWorld.host windows) order bridge preferences snapshot zcode hermes
        claude)) :
    Converged windows greeting ((LoopState.started (PluginWorld.host windows) order bridge
      preferences snapshot zcode hermes claude).run (PluginWorld.host windows) inputs).bridge := by
  obtain ⟨controller, opened, hcontroller, hdevices, hsteps⟩ :=
    exists_opened (PluginWorld.host windows) (announces greeting) hopened
  have hjust := justOpened_openDevices (PluginWorld.host windows)
    (justOpened_openPrimary (PluginWorld.host windows) options link now _
      (options.devices.tail = []) hcontroller) id hdevices
  have hconnected := (@arrives_connectController Rest windows greeting options.controller
    options.controllerSerial ⟨fun _ => .empty, fun _ => none, rest⟩).informed
      (PluginWorld.informed_initial greeting rest)
  have hunowned : (openPrimary order options link controller (connectController
      (PluginWorld.host windows) options.controller options.controllerSerial
        ⟨fun _ => .empty, fun _ => none, rest⟩).2 now).taskBoard.partitionedDeviceId = none := by
    unfold openPrimary
    simp only
    split
    · exact (TaskBoard.owners_setDevice order default _ _ true).2
    · rfl
  obtain ⟨hinformed, hnone⟩ := informed_openDevices hconnected hunowned hdevices
  have hstarted : RegistrySteps (PluginWorld.host windows) Op.IsStartup (announces greeting)
      (registryOf opened.1 []) (LoopState.started (PluginWorld.host windows) order bridge
        preferences snapshot zcode hermes claude).registry :=
    hsteps.trans (steps_started (PluginWorld.host windows) bridge preferences snapshot zcode
      hermes claude)
  have hrun := hannounced.invariant
    (fun state => Sound state.registry ∧ Agreed greeting state.registry)
    (fun hinv h => agreed_step hinv.1 hinv.2 h)
    ⟨hjust.sound.steps hstarted fun _ => Op.IsStartup.keepsSlots,
      (hjust.agreed hinformed hnone).steps hjust.sound hstarted fun _ => Op.IsStartup.keepsSlots⟩
  exact Agreed.converged hrun.2

end

/-- A `capacity` message with the agent of its first slot. -/
def capacityLine (slots : Nat) : Value :=
  .object [("type", .string "capacity"), ("taskSlots", .ofNat slots),
    ("slotAgents", .object [("0", .string "hermes")])]

/-- The line comes on the first connection. -/
def lineComes (line : Value) (world : PluginWorld Unit) : PluginWorld Unit :=
  world.setChannel 1 { world.channels 1 with lines := (world.channels 1).lines ++ [line] }

theorem arrives_lineComes {greeting : Nat → String × Nat} {line : Value}
    (h : Repeats (greeting 1).2 line) (world : PluginWorld Unit) :
    Arrives greeting world (lineComes line world) where
  controllers := rfl
  lines session := by
    by_cases hhere : session = 1
    · subst hhere
      refine ⟨[line], ?_, fun other hother => ?_⟩
      · rw [lineComes, PluginWorld.channels_setChannel_self]
      · rw [List.mem_singleton.mp hother]
        exact h
    · refine ⟨[], ?_, fun other hother => nomatch hother⟩
      rw [lineComes, PluginWorld.channels_setChannel_of_ne hhere, List.append_nil]
  received session := by
    by_cases hhere : session = 1
    · subst hhere
      rw [lineComes, PluginWorld.channels_setChannel_self]
    · rw [lineComes, PluginWorld.channels_setChannel_of_ne hhere]

/-- The plugin of the first connection reports a capacity, and is polled. -/
def deckReports (slots : Nat) (state : LoopState (PluginWorld Unit)) :
    List (LoopInput (PluginWorld Unit)) :=
  let greeted := state.run (PluginWorld.host .idle) deckGreets
  deckGreets ++ [.outside (lineComes (capacityLine slots) greeted.bridge.world),
    .pollController .ascending]

/-- A plugin repeats its four slots. -/
theorem capacities_converge_desk : ∃ bridge,
    openRuntime (PluginWorld.host .idle) .ascending noDevice .standalone 0 .initial = .ok bridge ∧
      let started := LoopState.started (PluginWorld.host .idle) .ascending bridge none none false
        false false
      Converged .idle (fun _ => ("deck", 4))
        (started.run (PluginWorld.host .idle) (deckReports 4 started)).bridge := by
  obtain ⟨bridge, hopened, -⟩ := exists_ok_of (fun _ => true)
    (show gives _ (openRuntime (PluginWorld.host .idle) .ascending noDevice .standalone 0
      .initial) = true by decide +kernel)
  have hrepeats : Repeats 4 (capacityLine 4) := by
    intro slots hslots
    have hfour : reportedSlots (capacityLine 4) = some 4 := by decide +kernel
    rw [hfour] at hslots
    rw [← Option.some.inj hslots]
  refine ⟨bridge, hopened, capacities_converge .idle (fun _ => ("deck", 4)) hopened
    ⟨trivial, trivial, ⟨rfl, ?_⟩, arrives_lineComes hrepeats _, trivial, trivial⟩⟩
  intro hzero
  cases hzero

/-- A plugin reports eight slots after a hello with four: its controller has eight, everything
else has four. -/
theorem later_capacity_is_lost : ∃ bridge,
    (desk noDevice).map (fun started =>
      (started.run (PluginWorld.host .idle) (deckReports 8 started)).bridge) = .ok bridge ∧
    bridge.world.slotsOf "deck" = some 8 ∧
      bridge.taskBoard.registeredSlots (pluginId "deck") = 4 ∧ bridge.taskSlotCount = 4 ∧
      ownedSlots bridge.taskBoard (pluginId "deck") = 4 ∧
      ¬Converged .idle (fun _ => ("deck", 4)) bridge := by
  obtain ⟨bridge, hbridge, hchecked⟩ := exists_ok_of
    (fun bridge : BridgeRuntime (PluginWorld Unit) =>
      bridge.world.slotsOf "deck" = some 8 ∧
        bridge.taskBoard.registeredSlots (pluginId "deck") = 4 ∧ bridge.taskSlotCount = 4 ∧
        ownedSlots bridge.taskBoard (pluginId "deck") = 4 ∧
        bridge.controller = some (pluginDevice "deck") ∧
        (bridge.world.controllers "deck").any fun controller =>
          (bridge.world.channels controller.session).received =
              (bridge.world.channels controller.session).lines.length ∧
            latestSlots 4 (bridge.world.channels controller.session).lines = 8)
    (show gives _ ((desk noDevice).map fun started =>
      (started.run (PluginWorld.host .idle) (deckReports 8 started)).bridge) = true by
        decide +kernel)
  obtain ⟨hslots, hregistered, hcount, howned, hprimary, hreported⟩ := of_decide_eq_true hchecked
  refine ⟨bridge, hbridge, hslots, hregistered, hcount, howned, fun hconverged => ?_⟩
  obtain ⟨controller, hcontroller, hcheck⟩ := Option.any_eq_true _ _ |>.mp hreported
  obtain ⟨hpolled, hlatest⟩ := of_decide_eq_true hcheck
  have height := ((hconverged "deck" controller hcontroller hpolled).primary hprimary).1
  rw [hregistered, hlatest] at height
  cases height

end Daemon
end MicroEmu
