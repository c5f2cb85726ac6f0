import MicroEmu.Json
import MicroEmu.Routing

/-!
# Event partitioning and fused LCD state

Physical controller events are partitioned among the agents: each agent owns a
set of keys and buffers the events of those keys until it polls for them.  A
buffer never grows past its capacity, and the queue type carries that bound.
The status entries an agent sends are kept per agent and shown through the
partition of the moment.
-/

namespace MicroEmu
namespace Routing

open Json (Value)

/-- Maximum buffered events per agent before the oldest are dropped. -/
def eventQueueCapacity : Nat := 256

/-- `AgentId::parse`. -/
def AgentId.parse : String → Except String AgentId
  | "codex" => .ok .codex
  | "zcode" => .ok .zCode
  | "hermes" => .ok .hermes
  | "claude" => .ok .claude
  | value => .error ("agent must be codex, claude, zcode, or hermes (got " ++ value ++ ")")

/-! ## Partition -/

/-- The current partition of LCD keys and slots among agents: entry `i` is the
agent that owns key `AG0i` and LCD slot `i`. -/
structure Partition where
  owners : Vector (Option AgentId) lcdSlots
  deriving DecidableEq

namespace Partition

/-- `compute`: Codex always has the first half; the second half goes to the first
active agent among Claude, ZCode and Hermes. -/
def compute (active : AgentId → Bool) : Partition :=
  let first : Option AgentId := if active .codex then some .codex else none
  let second : Option AgentId :=
    if active .claude then some .claude
    else if active .zCode then some .zCode
    else if active .hermes then some .hermes
    else none
  ⟨#v[first, first, first, second, second, second]⟩

variable (partition : Partition)

/-- `owner_of`. -/
def ownerOf (index : Nat) : Option AgentId := (partition.owners[index]?).join

/-- `slots_for`: the absolute slot indices an agent owns. -/
def slotsFor (agent : AgentId) : List Nat :=
  (List.range lcdSlots).filter fun i => partition.ownerOf i == some agent

/-- `keys_for`: the key labels an agent owns. -/
def keysFor (agent : AgentId) : List String :=
  (partition.slotsFor agent).map fun i => "AG0" ++ toString i

/-- `owners_json`. -/
def ownersJson : List Value :=
  partition.owners.toList.map fun owner => .ofOptString (owner.map AgentId.asStr)

end Partition

/-! ## Buffered events -/

/-- A buffered event ready to be polled by an agent. -/
inductive BufferedEvent where
  /-- A physical key press or release. -/
  | key (key : String) (pressed : Bool) (timestampMs : Nat)
  /-- A partition change: the keys and slots the agent now owns and the agents
  that are active. -/
  | partition (keys : List String) (slots : List Nat) (agents : List String)
      (timestampMs : Nat)
  deriving DecidableEq, Repr

/-- `to_json`, the form `poll_events` reports. -/
def BufferedEvent.toJson : BufferedEvent → Value
  | .key label pressed timestampMs =>
      .object [("type", .string "key"), ("key", .string label),
        ("pressed", .bool pressed), ("ts", .ofNat timestampMs)]
  | .partition keys slots agents timestampMs =>
      .object [("type", .string "partition"),
        ("keys", .array (keys.map .string)), ("slots", .array (slots.map .ofNat)),
        ("agents", .array (agents.map .string)), ("ts", .ofNat timestampMs)]

/-- A per-agent event queue with a hard cap. -/
structure EventQueue where
  events : List BufferedEvent
  bounded : events.length ≤ eventQueueCapacity
  deriving DecidableEq

namespace EventQueue

def empty : EventQueue := ⟨[], Nat.zero_le _⟩

instance : Inhabited EventQueue := ⟨empty⟩

variable (queue : EventQueue)

/-- `push`: the oldest event makes room in a full queue. -/
def push (event : BufferedEvent) : EventQueue where
  events :=
    (if queue.events.length ≥ eventQueueCapacity then queue.events.tail else queue.events) ++
      [event]
  bounded := by
    have hbound := queue.bounded
    split
    · simp only [List.length_append, List.length_tail, List.length_singleton]
      have : 0 < eventQueueCapacity := by decide
      omega
    · simp only [List.length_append, List.length_singleton]
      omega

/-- `is_empty`. -/
def isEmpty : Bool := queue.events.isEmpty

end EventQueue

/-- `EventRouting`: the event queues of all agents. -/
structure EventRouting where
  queues : AgentId → EventQueue

namespace EventRouting

def new : EventRouting := ⟨fun _ => .empty⟩

variable (routing : EventRouting)

/-- `queue`. -/
def queue (agent : AgentId) : EventQueue := routing.queues agent

/-- A write through `queue_mut`. -/
def setQueue (agent : AgentId) (queue : EventQueue) : EventRouting :=
  ⟨fun a => if a = agent then queue else routing.queues a⟩

@[simp] theorem queue_setQueue_self (agent : AgentId) (queue : EventQueue) :
    (routing.setQueue agent queue).queue agent = queue := by
  simp [setQueue, EventRouting.queue]

theorem queue_setQueue_of_ne {agent other : AgentId} (queue : EventQueue)
    (h : other ≠ agent) :
    (routing.setQueue agent queue).queue other = routing.queue other := by
  simp [setQueue, EventRouting.queue, h]

/-- `queue_mut(agent).push(event)`. -/
def push (agent : AgentId) (event : BufferedEvent) : EventRouting :=
  routing.setQueue agent ((routing.queue agent).push event)

/-- `route_button`: the event goes to the owner of the key; an unowned key is
silently dropped. -/
def routeButton (index : Nat) (pressed : Bool) (timestampMs : Nat)
    (partition : Partition) : EventRouting :=
  match partition.ownerOf index with
  | none => routing
  | some owner =>
      routing.push owner (.key ("AG0" ++ toString index) pressed timestampMs)

/-- `push_partition_event`. -/
def pushPartitionEvent (agent : AgentId) (partition : Partition)
    (activeAgents : List AgentId) (timestampMs : Nat) : EventRouting :=
  routing.push agent (.partition (partition.keysFor agent) (partition.slotsFor agent)
    (activeAgents.map AgentId.asStr) timestampMs)

end EventRouting

/-! ## Fused LCD state -/

/-- `FusedLcdState`: the entries each agent sent last, by their position in the
array it sent. -/
structure FusedLcdState where
  entries : AgentId → Vector (Option Value) lcdSlots

/-- The entry of a slot nobody shows anything on. -/
def slotOff : Value := .object [("e", .ofNat 0)]

/-- `normalize_render_entry`: the entry carries its slot and agent, and a
percentage becomes a fraction. -/
def normalizeRenderEntry (entry : Value) (slot : Nat) (agent : AgentId) : Value :=
  match entry with
  | .object fields =>
      let named := Json.insertField (Json.insertField (Json.insertField fields
        "id" (.ofNat slot)) "i" (.ofNat slot)) "agent" (.string agent.asStr)
      match (Value.object named).get? "b" |>.bind Value.asF64 with
      | none => .object named
      | some value =>
          if value > 1 then
            .object (Json.insertField named "b"
              (.number (.float (max 0 (min 1 (Json.toF64 (value / 100)))))))
          else
            .object named
  | other => other

namespace FusedLcdState

def new : FusedLcdState := ⟨fun _ => Vector.replicate lcdSlots none⟩

variable (fused : FusedLcdState)

/-- The entry shown at one slot: the owner's entry at the rank of the slot among
its own. -/
def fusedSlot (partition : Partition) (slot : Nat) : Value :=
  match partition.ownerOf slot with
  | none => slotOff
  | some agent =>
      match (partition.slotsFor agent).idxOf? slot with
      | none => slotOff
      | some localIndex =>
          match ((fused.entries agent)[localIndex]?).join with
          | none => slotOff
          | some entry => normalizeRenderEntry entry slot agent

/-- `fused_array`. -/
def fusedArray (partition : Partition) : List Value :=
  (List.range lcdSlots).map (fused.fusedSlot partition)

/-- `merge_from_agent`: positions past the sixth are ignored. -/
def mergeFromAgent (agent : AgentId) (parameters : Value) (partition : Partition) :
    Except String (List Value) × FusedLcdState :=
  match parameters.asArray with
  | none => (.error "thstatus payload must be an array", fused)
  | some entries =>
      let merged : FusedLcdState :=
        ⟨fun a => if a = agent then
            (fused.entries a).mapFinIdx fun i old _ => (entries[i]?).or old
          else fused.entries a⟩
      (.ok (merged.fusedArray partition), merged)

end FusedLcdState
end Routing
end MicroEmu
