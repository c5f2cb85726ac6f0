import MicroEmu.Tasks.Leases

/-!
# The devices of the board

Only registering or unregistering a device, and setting the owners of its slots, change
which devices the board knows and who owns their slots.  A card is assigned to slots of
registered devices only.
-/

namespace MicroEmu
namespace Tasks

open Std (ExtTreeMap)
open Routing (AgentId)
open Library

/-- The operation leaves the devices and the owners of their slots alone. -/
def Op.KeepsSlots : Op → Prop
  | .setDevice .. | .clearDevices | .setSlotOwners .. => False
  | _ => True

namespace TaskBoard

variable {order : WalkOrder} {board : TaskBoard}

/-- The board has the device. -/
def Registered (board : TaskBoard) (deviceId : String) : Prop := deviceId ∈ board.devices

/-- The number of slots the board has for the device. -/
def registeredSlots (board : TaskBoard) (deviceId : String) : Nat :=
  ((board.devices[deviceId]?).map List.length).getD 0

/-- A card is assigned to a slot of the device. -/
def HasCardOn (board : TaskBoard) (deviceId : String) : Prop :=
  ∃ (id : String) (slot : DeviceSlot), board.assignments[id]? = some ⟨slot⟩ ∧
    slot.deviceId = deviceId

theorem SameSlots.refl (board : TaskBoard) : SameSlots board board := ⟨rfl, rfl, rfl⟩

theorem SameSlots.trans {middle last : TaskBoard} (h : SameSlots board middle)
    (hlast : SameSlots middle last) : SameSlots board last where
  devices := hlast.devices.trans h.devices
  slotOwners := hlast.slotOwners.trans h.slotOwners
  partitionedDeviceId := hlast.partitionedDeviceId.trans h.partitionedDeviceId

theorem SameSlots.registered_iff {after : TaskBoard} (h : SameSlots board after)
    (deviceId : String) : after.Registered deviceId ↔ board.Registered deviceId := by
  unfold Registered
  rw [h.devices]

theorem SameSlots.registeredSlots {after : TaskBoard} (h : SameSlots board after)
    (deviceId : String) : after.registeredSlots deviceId = board.registeredSlots deviceId := by
  unfold TaskBoard.registeredSlots
  rw [h.devices]

/-! ## Operations that keep the slots -/

theorem sameSlots_reallocate (order : WalkOrder) (board : TaskBoard) :
    SameSlots board (board.reallocate order) :=
  ⟨reallocate_devices, reallocate_slotOwners, reallocate_partitionedDeviceId⟩

theorem sameSlots_replacedBoard (order : WalkOrder) (board : TaskBoard) (session : Nat)
    (cards : List TaskCard) (nowMs : Nat) :
    SameSlots board (replacedBoard order board session cards nowMs) := by
  obtain ⟨_, _, _, hframe⟩ := replacedBoard_frame order board session cards nowMs
  rw [hframe]
  exact ⟨rfl, rfl, rfl⟩

theorem sameSlots_removedBoard {base m : TaskBoard} {ids : List String}
    (hbase : SameSlots board base) (h : base.removedBoard ids = some m) : SameSlots board m := by
  unfold removedBoard at h
  split at h
  · cases h
  · obtain rfl := Option.some.inj h
    rw [foldl_removeTask]
    exact hbase.trans ⟨rfl, rfl, rfl⟩

theorem sameSlots_hidBoard (order : WalkOrder) (board : TaskBoard) (updates : List HidUpdate)
    (nowMs : Nat) : SameSlots board (hidBoard order board updates nowMs) := by
  obtain ⟨base, echoing, hboard, hfocus⟩ := hidBoard_eq order board updates nowMs
  obtain ⟨_, _, hframe⟩ := mergedBoard_frame base (updates.map (HidUpdate.settled echoing)) nowMs
  obtain ⟨_, _, rfl⟩ := hfocus
  rw [hboard, hframe]
  exact ⟨rfl, rfl, rfl⟩

theorem sameSlots_handover {op : Op} {m : TaskBoard} (hop : op.KeepsSlots)
    (h : handover order board op = some m) : SameSlots board m := by
  cases op with
  | publishTasks session agent value nowMs =>
      obtain ⟨cards, -, rfl⟩ := Option.map_eq_some_iff.mp h
      exact sameSlots_replacedBoard ..
  | publishCodexSnapshot value nowMs =>
      obtain ⟨cards, -, rfl⟩ := Option.map_eq_some_iff.mp h
      exact sameSlots_replacedBoard ..
  | publishLegacyStatus session agent value nowMs =>
      obtain ⟨cards, -, rfl⟩ := Option.map_eq_some_iff.mp h
      exact sameSlots_replacedBoard ..
  | publishCodexHidStatus value nowMs =>
      obtain ⟨entries, -, h⟩ := Option.bind_eq_some_iff.mp h
      obtain ⟨updates, -, rfl⟩ := Option.map_eq_some_iff.mp h
      have hguards : SameSlots board (board.dropExpiredGuards nowMs) := ⟨rfl, rfl, rfl⟩
      exact hguards.trans (sameSlots_hidBoard ..)
  | clearSession session => exact sameSlots_removedBoard (.refl board) h
  | expire nowMs =>
      have hbase : SameSlots board { board with nowMs := nowMs } := ⟨rfl, rfl, rfl⟩
      exact sameSlots_removedBoard hbase h
  | setDevice | clearDevices | setSlotOwners => exact hop.elim
  | disconnectSession | select | selectTask | autoSelectWaiting | guardSelectionActivation
  | setSelectedModel | restoreSlotPreferences => cases h

theorem sameSlots_apply {op : Op} (hop : op.KeepsSlots) (order : WalkOrder)
    (board : TaskBoard) : SameSlots board (board.apply order op) := by
  rcases apply_cases order board op with ⟨m, hm, -, hfocus⟩ | hquiet | ⟨rfl, -⟩
  · obtain ⟨_, _, hafter⟩ := hfocus
    rw [hafter]
    exact ((sameSlots_handover hop hm).trans (sameSlots_reallocate order m)).trans ⟨rfl, rfl, rfl⟩
  · exact ⟨hquiet.devices, hquiet.slotOwners, hquiet.partitionedDeviceId⟩
  · exact hop.elim

/-! ## Devices come and go -/

theorem devices_setDevice_true (order : WalkOrder) (board : TaskBoard) (deviceId : String)
    (slots : Nat) : (board.setDevice order deviceId slots true).devices =
      board.devices.insert deviceId (deviceSlots deviceId slots) := by
  rw [setDevice, if_pos rfl, reallocate_devices]

theorem devices_setDevice_false (order : WalkOrder) (board : TaskBoard) (deviceId : String)
    (slots : Nat) : (board.setDevice order deviceId slots false).devices =
      board.devices.erase deviceId := by
  rw [setDevice, if_neg Bool.false_ne_true, reallocate_devices]

theorem owners_setDevice (order : WalkOrder) (board : TaskBoard) (deviceId : String)
    (slots : Nat) (connected : Bool) :
    (board.setDevice order deviceId slots connected).slotOwners = board.slotOwners ∧
      (board.setDevice order deviceId slots connected).partitionedDeviceId =
        board.partitionedDeviceId := by
  cases connected with
  | true =>
      rw [setDevice, if_pos rfl, reallocate_slotOwners, reallocate_partitionedDeviceId]
      exact ⟨rfl, rfl⟩
  | false =>
      rw [setDevice, if_neg Bool.false_ne_true, reallocate_slotOwners,
        reallocate_partitionedDeviceId]
      exact ⟨rfl, rfl⟩

theorem devices_setSlotOwners (order : WalkOrder) (board : TaskBoard) (deviceId : String)
    (owners : List (Option AgentId)) :
    (board.setSlotOwners order deviceId owners).devices = board.devices := by
  unfold setSlotOwners
  split
  · rw [reallocate_devices]
  · rfl

theorem owners_setSlotOwners (order : WalkOrder) (board : TaskBoard) (deviceId : String)
    (owners : List (Option AgentId)) :
    (board.setSlotOwners order deviceId owners).slotOwners = owners ∧
      (board.setSlotOwners order deviceId owners).partitionedDeviceId = some deviceId := by
  unfold setSlotOwners
  split
  · rw [reallocate_slotOwners, reallocate_partitionedDeviceId]
    exact ⟨rfl, rfl⟩
  next hsame =>
    obtain ⟨hdevice, howners⟩ := not_or.mp hsame
    exact ⟨not_not.mp howners, not_not.mp hdevice⟩

theorem registered_setDevice_true_iff (order : WalkOrder) (board : TaskBoard)
    (deviceId other : String) (slots : Nat) :
    (board.setDevice order deviceId slots true).Registered other ↔
      other = deviceId ∨ board.Registered other := by
  unfold Registered
  rw [devices_setDevice_true, ExtTreeMap.mem_insert, Std.compare_eq_iff_eq,
    @eq_comm _ deviceId]

theorem registered_setDevice_false_iff (order : WalkOrder) (board : TaskBoard)
    (deviceId other : String) (slots : Nat) :
    (board.setDevice order deviceId slots false).Registered other ↔
      other ≠ deviceId ∧ board.Registered other := by
  unfold Registered
  rw [devices_setDevice_false, ExtTreeMap.mem_erase, ne_eq, Std.compare_eq_iff_eq,
    @eq_comm _ deviceId]

theorem registered_setSlotOwners_iff (order : WalkOrder) (board : TaskBoard)
    (deviceId other : String) (owners : List (Option AgentId)) :
    (board.setSlotOwners order deviceId owners).Registered other ↔ board.Registered other := by
  unfold Registered
  rw [devices_setSlotOwners]

theorem registeredSlots_setDevice_true (order : WalkOrder) (board : TaskBoard)
    (deviceId other : String) (slots : Nat) :
    (board.setDevice order deviceId slots true).registeredSlots other =
      if deviceId = other then slots else board.registeredSlots other := by
  unfold registeredSlots
  rw [devices_setDevice_true, getElem?_insert_eq_ite]
  split
  · simp [deviceSlots]
  · rfl

theorem registeredSlots_setDevice_false (order : WalkOrder) (board : TaskBoard)
    (deviceId other : String) (slots : Nat) :
    (board.setDevice order deviceId slots false).registeredSlots other =
      if deviceId = other then 0 else board.registeredSlots other := by
  unfold registeredSlots
  rw [devices_setDevice_false, getElem?_erase_eq_ite]
  split
  · rfl
  · rfl

theorem registeredSlots_of_not_registered {deviceId : String} (h : ¬board.Registered deviceId) :
    board.registeredSlots deviceId = 0 := by
  have hnone : board.devices[deviceId]? = none := ExtTreeMap.getElem?_eq_none h
  rw [registeredSlots, hnone]
  rfl

/-- A device that leaves is not registered any more. -/
theorem not_registered_setDevice (order : WalkOrder) (board : TaskBoard) (deviceId : String) :
    ¬(board.setDevice order deviceId 0 false).Registered deviceId := fun h =>
  ((registered_setDevice_false_iff order board deviceId deviceId 0).mp h).1 rfl

theorem not_registered_setSlotOwners (order : WalkOrder) (board : TaskBoard)
    (deviceId other : String) (owners : List (Option AgentId)) :
    ¬((board.setDevice order deviceId 0 false).setSlotOwners order other owners).Registered
      deviceId := fun h =>
  not_registered_setDevice order board deviceId
    ((registered_setSlotOwners_iff order _ other deviceId owners).mp h)

/-! ## Cards on devices -/

/-- A card is on registered devices only. -/
theorem Placed.registered_of_hasCardOn (hplaced : Placed board) {deviceId : String}
    (h : board.HasCardOn deviceId) : board.Registered deviceId := by
  obtain ⟨id, slot, hassigned, rfl⟩ := h
  obtain ⟨_, -, hcomplies⟩ := hplaced.complies hassigned
  obtain ⟨n, hdevice, -⟩ := (mem_available_iff hplaced.wellFormed).mp hcomplies.available
  exact ExtTreeMap.isSome_getElem?_iff_mem.mp (by rw [hdevice]; rfl)

end TaskBoard
end Tasks
end MicroEmu
