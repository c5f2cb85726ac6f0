import MicroEmu.Json
import MicroEmu.Routing

/-!
# The task board's data model

The daemon treats a task as the schedulable resource and maps tasks onto a
combined list of physical device slots.  This module holds the records of that
scheduler: a task card, a device slot, and the board with its finite maps.

Every map of the source, hashed or ordered, is a `Std.ExtTreeMap`: two maps with
the same entries are equal.  A hash map hands its entries out in an order the
program does not control.  Each function of the model that walks one therefore
takes a `WalkOrder`, an arbitrary reordering of the entries, and passes the
entries through it.
-/

namespace MicroEmu
namespace Tasks

open Std
open Json (Value)
open Routing (AgentId)

/-- Number of physical task positions of the Codex Micro protocol. -/
def codexHidSlots : Nat := 6

/-- `RECONNECT_GRACE`, in milliseconds. -/
def reconnectGrace : Nat := 30000

/-! ## Task states -/

inductive TaskState where
  | queued
  | running
  | thinking
  | waiting
  | error
  | paused
  | completed
  | reconnecting
  deriving DecidableEq, Repr

namespace TaskState

def parse (value : Option String) : Except String TaskState :=
  match value.getD "queued" with
  | "queued" | "idle" | "ready" => .ok .queued
  | "running" | "active" | "working" => .ok .running
  | "thinking" => .ok .thinking
  | "waiting" | "blocked" => .ok .waiting
  | "error" | "failed" => .ok .error
  | "paused" => .ok .paused
  | "completed" | "complete" | "done" => .ok .completed
  | "reconnecting" => .ok .reconnecting
  | other => .error ("unsupported task state: " ++ other)

def asStr : TaskState → String
  | .queued => "queued"
  | .running => "running"
  | .thinking => "thinking"
  | .waiting => "waiting"
  | .error => "error"
  | .paused => "paused"
  | .completed => "completed"
  | .reconnecting => "reconnecting"

def rank : TaskState → Nat
  | .waiting | .error => 0
  | .running | .thinking => 1
  | .queued | .paused => 2
  | .completed => 3
  | .reconnecting => 4

def active : TaskState → Bool
  | .running | .thinking => true
  | _ => false

def eligible : TaskState → Bool
  | .reconnecting => false
  | _ => true

def displayColor : TaskState → Nat
  | .queued | .reconnecting => 0x37474f
  | .running => 0x1565c0
  | .thinking => 0x6a1b9a
  | .waiting | .paused => 0xef6c00
  | .error => 0xb71c1c
  | .completed => 0x1b5e20

/-- Decodes the semantic colors of the `v.oai.thstatus` feed. -/
def fromHidColor (color : Nat) : Option TaskState :=
  if color = 0x1565c0 then some .running
  else if color = 0x6a1b9a then some .thinking
  else if color = 0xef6c00 then some .waiting
  else if color = 0xb71c1c then some .error
  else if color = 0x2e7d32 ∨ color = 0x1b5e20 then some .completed
  else if color = 0x0277bd ∨ color = 0x37474f then some .queued
  else none

end TaskState

/-! ## Cards and slots -/

structure TaskAction where
  id : String
  label : String
  action : String
  payload : Value
  deriving Repr

structure TaskInteraction where
  id : String
  kind : String
  prompt : String
  short : Option TaskAction
  long : Option TaskAction
  expiresAtMs : Option Nat
  deriving Repr

structure TaskCard where
  taskId : String
  ownerSession : Nat
  ownerAgent : AgentId
  title : String
  project : Option String
  workspacePath : Option String
  model : Option String
  effort : Option String
  state : TaskState
  priority : Nat
  color : Option Nat
  brightness : Nat
  progress : Option Nat
  context : Value
  legacyKey : Option String
  /-- Logical AG00-AG05 position supplied by the task source. -/
  sourceSlot : Option Nat
  /-- The lifecycle timestamps came from the task source. -/
  timingAuthoritative : Bool
  updatedAtMs : Nat
  startedAtMs : Option Nat
  finishedAtMs : Option Nat
  /-- Deadline of the reconnect lease, while the owner is away. -/
  reconnectUntilMs : Option Nat
  interaction : Option TaskInteraction
  deriving Repr

structure DeviceSlot where
  deviceId : String
  slot : Nat
  deriving DecidableEq, Repr

structure TaskAssignment where
  slot : DeviceSlot
  deriving DecidableEq, Repr

/-- The slots `0 .. task_slots` of one device. -/
def deviceSlots (deviceId : String) (taskSlots : Nat) : List DeviceSlot :=
  (List.range taskSlots).map fun slot => ⟨deviceId, slot⟩

/-- Cards by task id. -/
abbrev Cards := ExtTreeMap String TaskCard

/-- The slot each visible task occupies. -/
abbrev Assignments := ExtTreeMap String TaskAssignment

/-- `TaskBoard`. -/
structure TaskBoard where
  tasks : Cards := ∅
  assignments : Assignments := ∅
  devices : ExtTreeMap String (List DeviceSlot) := ∅
  /-- One selected task for the whole board. -/
  selected : Option String := none
  /-- An optimistic hardware selection and its deadline. -/
  pendingSelection : Option (String × Nat) := none
  /-- Completed tasks acknowledged by selecting them. -/
  reviewedCompletions : ExtTreeMap String Unit := ∅
  nowMs : Nat := 0
  /-- Owners of the slots of the partitioned controller; an empty list
  leaves the scheduler unrestricted. -/
  slotOwners : List (Option AgentId) := []
  partitionedDeviceId : Option String := none
  selectionActivationGuards : ExtTreeMap String Nat := ∅
  /-- Last slot each task occupied. -/
  lastSlots : ExtTreeMap String DeviceSlot := ∅
  primaryPreferences : ExtTreeMap String Nat := ∅

/-- `TaskBoard::default`. -/
instance : Inhabited TaskBoard := ⟨{}⟩

/-! ## Walking a hash map -/

/-- The order in which the hash maps hand out their entries: any reordering of
the entries, chosen anew for every operation and free to look at the keys. -/
structure WalkOrder where
  walk : ∀ {β : Type}, List (String × β) → List (String × β)
  perm : ∀ {β : Type} (entries : List (String × β)), (walk entries).Perm entries

namespace WalkOrder

/-- The walk in key order. -/
def ascending : WalkOrder := ⟨fun entries => entries, fun _ => .refl _⟩

/-- The walk in descending key order. -/
def descending : WalkOrder :=
  ⟨List.reverse, fun entries => entries.reverse_perm⟩

/-- The walk that meets one key before all others. -/
def leading (id : String) : WalkOrder :=
  ⟨fun entries => entries.filter (·.1 == id) ++ entries.filter fun entry => !(entry.1 == id),
    fun entries => entries.filter_append_perm _⟩

variable (order : WalkOrder)

/-- `HashMap::iter`. -/
def entries {β : Type} (map : ExtTreeMap String β) : List (String × β) :=
  order.walk map.toList

/-- `HashMap::values`. -/
def values {β : Type} (map : ExtTreeMap String β) : List β :=
  (order.entries map).map Prod.snd

/-- `HashMap::keys`. -/
def keys {β : Type} (map : ExtTreeMap String β) : List String :=
  (order.entries map).map Prod.fst

theorem mem_entries {β : Type} {map : ExtTreeMap String β} {id : String} {v : β} :
    (id, v) ∈ order.entries map ↔ map[id]? = some v := by
  rw [entries, (order.perm map.toList).mem_iff]
  exact ExtTreeMap.mem_toList_iff_getElem?_eq_some

theorem mem_values {β : Type} {map : ExtTreeMap String β} {v : β} :
    v ∈ order.values map ↔ ∃ id : String, map[id]? = some v := by
  simp only [values, List.mem_map, Prod.exists, exists_eq_right, mem_entries]

theorem mem_keys {β : Type} {map : ExtTreeMap String β} {id : String} :
    id ∈ order.keys map ↔ id ∈ map := by
  simp only [keys, List.mem_map, Prod.exists, exists_and_right, exists_eq_right,
    mem_entries, ExtTreeMap.mem_iff_isSome_getElem?, Option.isSome_iff_exists]

theorem leading_values {β : Type} {map : ExtTreeMap String β} {id : String} {v : β}
    (h : map[id]? = some v) : ∃ rest, (leading id).values map = v :: rest := by
  have hmem : (id, v) ∈ map.toList.filter (·.1 == id) := by
    simpa using h
  have hfirst : ∀ entry ∈ map.toList.filter (·.1 == id), entry.2 = v := by
    rintro ⟨id', v'⟩ hentry
    obtain ⟨hlisted, hid⟩ := List.mem_filter.mp hentry
    obtain rfl : id' = id := eq_of_beq hid
    have hget := ExtTreeMap.mem_toList_iff_getElem?_eq_some.mp hlisted
    rw [h, Option.some.injEq] at hget
    exact hget.symm
  unfold values entries leading
  simp only
  cases hentries : map.toList.filter (·.1 == id) with
  | nil =>
      rw [hentries] at hmem
      cases hmem
  | cons entry entries =>
      rw [← hfirst entry (hentries ▸ List.mem_cons_self)]
      exact ⟨_, rfl⟩

/-- A walk meets every key once. -/
theorem nodup_keys {β : Type} (map : ExtTreeMap String β) :
    (order.keys map).Nodup := by
  have hperm : (order.keys map).Perm map.keys := by
    rw [keys, ← ExtTreeMap.map_fst_toList_eq_keys]
    exact (order.perm map.toList).map _
  exact hperm.nodup_iff.mpr ExtTreeMap.nodup_keys

end WalkOrder

/-! ## Small readers -/

/-- `Some(agent)` and `None` as the scheduler's `slot_owner` returns them: the
outer `none` is "no constraint", `some none` is "reserved, nobody's". -/
abbrev SlotConstraint := Option (Option AgentId)

/-- A constraint admits an agent: there is none, or it names that agent. -/
def SlotConstraint.admits (required : SlotConstraint) (agent : AgentId) : Bool :=
  required.all (· == some agent)

/-- The ids of the logical hardware positions. -/
def isCodexHid (taskId : String) : Bool := Json.startsWith taskId "codex-hid:"

namespace TaskBoard

variable (board : TaskBoard)

/-- `slot_owner`. -/
def slotOwner (slot : DeviceSlot) : SlotConstraint :=
  if board.partitionedDeviceId ≠ some slot.deviceId ∨ board.slotOwners.isEmpty then
    none
  else
    match board.slotOwners[slot.slot]? with
    -- task-only slots beyond the six Micro positions stay unrestricted
    | some none => if slot.slot ≥ Routing.lcdSlots then none else some none
    | owner => owner

/-- The slots of every registered device. -/
def available : List DeviceSlot := (board.devices.toList.map Prod.snd).flatten

end TaskBoard

/-- Some task occupies the slot. -/
def slotTaken (assignments : Assignments) (slot : DeviceSlot) : Bool :=
  assignments.toList.any fun entry => entry.2.slot == slot

theorem slotTaken_iff {assignments : Assignments} {slot : DeviceSlot} :
    slotTaken assignments slot = true ↔
      ∃ id : String, assignments[id]? = some ⟨slot⟩ := by
  simp only [slotTaken, List.any_eq_true, Prod.exists, beq_iff_eq,
    ExtTreeMap.mem_toList_iff_getElem?_eq_some]
  constructor
  · rintro ⟨id, ⟨s⟩, hid, rfl⟩
    exact ⟨id, hid⟩
  · rintro ⟨id, hid⟩
    exact ⟨id, ⟨slot⟩, hid, rfl⟩

end Tasks
end MicroEmu
