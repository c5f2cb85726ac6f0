import MicroEmu.Library.Maps
import MicroEmu.Library.Select
import MicroEmu.Tasks.Parse
import Mathlib.Data.String.Basic

/-!
# Reallocation

`TaskBoard::reallocate` recomputes the assignment map.  The source is one long
function; here each of its passes is a function of the board that changes the
assignments only:

* `repairSelection` forgets a selected task that is gone;
* `retainPass` drops assignments that no longer comply;
* `stickyPass` returns unassigned tasks to the slot they remember;
* `pinCodexHidPrimarySlots` puts Codex cards on their logical positions;
* `fairFill` shares the free slots among agents, then sessions;
* `rememberSlots` records where every task ended up.
-/

namespace MicroEmu
namespace Tasks

open Std
open Routing (AgentId)
open Library

/-! ## Orders -/

/-- `task_order`: most urgent state, highest priority, latest update, id. -/
def taskOrder (a b : TaskCard) : Ordering :=
  ((compare a.state.rank b.state.rank).then
    ((compare b.priority a.priority).then
      ((compare b.updatedAtMs a.updatedAtMs).then
        (compare a.taskId b.taskId))))

/-- The order of the free slots: the partitioned device first. -/
def slotOrder (primary : Option String) (a b : DeviceSlot) : Ordering :=
  (compare (primary == some b.deviceId) (primary == some a.deviceId)).then
    ((compare a.deviceId b.deviceId).then (compare a.slot b.slot))

instance : TransCmp taskOrder :=
  inferInstanceAs (TransCmp (compareLex (compareOn fun t : TaskCard => t.state.rank)
    (compareLex (fun a b => compareOn TaskCard.priority b a)
      (compareLex (fun a b => compareOn TaskCard.updatedAtMs b a)
        (compareOn TaskCard.taskId)))))

instance (primary : Option String) : TransCmp (slotOrder primary) :=
  inferInstanceAs (TransCmp (compareLex
    (fun a b => compareOn (fun s : DeviceSlot => primary == some s.deviceId) b a)
    (compareLex (compareOn DeviceSlot.deviceId) (compareOn DeviceSlot.slot))))

/-- Cards that compare equal have the same id. -/
theorem taskId_eq_of_taskOrder_eq {a b : TaskCard} (h : taskOrder a b = .eq) :
    a.taskId = b.taskId := by
  simp only [taskOrder, Ordering.then_eq_eq] at h
  exact LawfulEqCmp.compare_eq_iff_eq.mp h.2.2.2

namespace TaskBoard

variable (order : WalkOrder) (board : TaskBoard)

/-! ## Selection repair and retention -/

/-- A selection whose task is gone is dropped with its pending marker. -/
def repairSelection : TaskBoard :=
  if board.selected.any (fun id => !board.tasks.contains id) then
    { board with selected := none, pendingSelection := none }
  else
    board

/-- The owner test of the retain pass. -/
def retainsOwner (agent : AgentId) (slot : DeviceSlot) : Bool :=
  board.partitionedDeviceId != some slot.deviceId ||
    -- positions past the owner list belong to everybody
    (board.slotOwners[slot.slot]?).all fun owner =>
      owner == some agent ||
        (owner.isNone && decide (slot.slot ≥ Routing.lcdSlots))

/-- The retain pass keeps this assignment. -/
def retains (taskId : String) (assignment : TaskAssignment) : Bool :=
  (board.tasks[taskId]?).any fun task =>
    (task.state.eligible || task.reconnectUntilMs.isSome) &&
      (board.available.contains assignment.slot &&
        board.retainsOwner task.ownerAgent assignment.slot)

def retainPass : TaskBoard :=
  { board with assignments := board.assignments.filter board.retains }

/-! ## Sticky pass -/

/-- The slot a task returns to: its preference on the partitioned device, else
the slot it last occupied. -/
def rememberedSlot (taskId : String) : Option DeviceSlot :=
  ((board.primaryPreferences[taskId]?).bind fun slot =>
    board.partitionedDeviceId.map fun id => ⟨id, slot⟩).or board.lastSlots[taskId]?

/-- An eligible task without a slot. -/
def unplaced (task : TaskCard) : Bool :=
  task.state.eligible && !board.assignments.contains task.taskId

/-- The slot the sticky pass proposes for a task. -/
def stickyTarget (task : TaskCard) : Option DeviceSlot :=
  (board.rememberedSlot task.taskId).filter fun slot =>
    board.available.contains slot && !slotTaken board.assignments slot &&
      (board.slotOwner slot).admits task.ownerAgent

def stickyRequests : List (String × DeviceSlot) :=
  ((order.values board.tasks).filter board.unplaced).filterMap fun task =>
    (board.stickyTarget task).map fun slot => (task.taskId, slot)

/-- Insert an assignment if the slot is still free. -/
def assignIfFree (assignments : Assignments) (request : String × DeviceSlot) :
    Assignments :=
  -- first come, first served: a later request for the slot is dropped
  if slotTaken assignments request.2 then assignments
  else assignments.insert request.1 ⟨request.2⟩

def stickyPass : TaskBoard :=
  { board with
    assignments := (board.stickyRequests order).foldl assignIfFree board.assignments }

/-! ## Codex HID pins -/

/-- Codex may use the position: no partition, no owner, or Codex itself. -/
def ownedByCodex (slot : Nat) : Bool :=
  board.slotOwners.isEmpty ||
    (board.slotOwners[slot]?).join.all (· == AgentId.codex)

/-- The position a card is pinned to.  A catalog card is pinned only while it is
unassigned and its position is empty; a HID card always is. -/
def pinTarget (primary : String) (primarySlots : List DeviceSlot) (task : TaskCard) :
    Option DeviceSlot :=
  -- both tests read the layout before any pin of this pass
  if !isCodexHid task.taskId &&
      (board.assignments.contains task.taskId ||
        task.sourceSlot.any fun source =>
          slotTaken board.assignments ⟨primary, source⟩) then
    none
  else if task.ownerAgent = .codex then
    task.sourceSlot.bind fun slot =>
      if board.ownedByCodex slot then primarySlots[slot]? else none
  else
    none

/-- The pins in id order. -/
def pinRequests : List (String × DeviceSlot) :=
  match board.partitionedDeviceId with
  | none => []
  | some primary =>
      match board.devices[primary]? with
      | none => []
      | some primarySlots =>
          ((order.values board.tasks).filterMap fun task =>
            (board.pinTarget primary primarySlots task).map fun slot =>
              (task.taskId, slot)).insertionSort fun left right => left.1 ≤ right.1

/-- Insert a pin, evicting whoever holds its slot. -/
def assignPin (assignments : Assignments) (request : String × DeviceSlot) :
    Assignments :=
  (assignments.filter fun taskId assignment =>
    taskId == request.1 || assignment.slot != request.2).insert request.1 ⟨request.2⟩

def pinCodexHidPrimarySlots : TaskBoard :=
  { board with
    assignments := (board.pinRequests order).foldl assignPin board.assignments }

/-! ## Fair fill -/

/-- Visible cards by session and by agent. -/
structure Visible where
  bySession : Nat → Nat
  byAgent : AgentId → Nat

def Visible.zero : Visible := ⟨fun _ => 0, fun _ => 0⟩

def Visible.add (visible : Visible) (session : Nat) (agent : AgentId) : Visible where
  bySession := Function.update visible.bySession session (visible.bySession session + 1)
  byAgent := Function.update visible.byAgent agent (visible.byAgent agent + 1)

/-- The unassigned slots, in the order they are filled. -/
def freeSlots : List DeviceSlot :=
  (board.available.filter fun slot => !slotTaken board.assignments slot).insertionSort
    (notAbove (slotOrder board.partitionedDeviceId))

/-- The unassigned eligible tasks, best first. -/
def candidates : List TaskCard :=
  ((order.values board.tasks).filter board.unplaced).insertionSort (notAbove taskOrder)

/-- The candidates waiting in each session, best first. -/
abbrev Queues := ExtTreeMap Nat (List TaskCard)

def enqueue (queues : Queues) (task : TaskCard) : Queues :=
  queues.insert task.ownerSession (queues.getD task.ownerSession [] ++ [task])

/-- The cards already visible before the fill. -/
def visibleBefore : Visible :=
  (order.keys board.assignments).foldl (fun visible taskId =>
    match board.tasks[taskId]? with
    | some task => visible.add task.ownerSession task.ownerAgent
    | none => visible) .zero

structure FillState where
  queues : Queues
  visible : Visible
  assignments : Assignments

/-- A session, its best waiting task and the tasks behind it. -/
structure ReadySession where
  session : Nat
  head : TaskCard
  rest : List TaskCard

/-- The sessions whose best task may use the slot. -/
def readySessions (required : SlotConstraint) (queues : Queues) : List ReadySession :=
  queues.toList.filterMap fun entry =>
    match entry.2 with
    | [] => none
    | head :: rest =>
        if required.admits head.ownerAgent then some ⟨entry.1, head, rest⟩ else none

/-- Least served agent, least served session, best task, session id. -/
def sessionOrder (visible : Visible) (a b : ReadySession) : Ordering :=
  (compare (visible.byAgent a.head.ownerAgent) (visible.byAgent b.head.ownerAgent)).then
    ((compare (visible.bySession a.session) (visible.bySession b.session)).then
      ((taskOrder a.head b.head).then (compare a.session b.session)))

/-- One round of the fill loop. -/
def fillSlot (state : FillState) (slot : DeviceSlot) : FillState :=
  match minBy? (sessionOrder state.visible)
      (readySessions (board.slotOwner slot) state.queues) with
  -- this owner has no eligible work; its slot remains reserved
  | none => state
  | some ready =>
      { queues := state.queues.insert ready.session ready.rest
        visible := state.visible.add ready.session ready.head.ownerAgent
        assignments := state.assignments.insert ready.head.taskId ⟨slot⟩ }

def fillStart : FillState where
  queues := (board.candidates order).foldl enqueue ∅
  visible := board.visibleBefore order
  assignments := board.assignments

def fillResult : FillState := board.freeSlots.foldl board.fillSlot (board.fillStart order)

def fairFill : TaskBoard := { board with assignments := (board.fillResult order).assignments }

/-! ## Memory -/

def rememberSlots : TaskBoard :=
  let entries := order.entries board.assignments
  let lastSlots := entries.foldl
    (fun slots entry => slots.insert entry.1 entry.2.slot) board.lastSlots
  let preferences := entries.foldl
    (fun preferences entry =>
      if board.partitionedDeviceId = some entry.2.slot.deviceId then
        preferences.insert entry.1 entry.2.slot.slot
      else preferences) board.primaryPreferences
  -- the slots of hidden cards are remembered, those of removed cards are not
  { board with
    lastSlots := lastSlots.filter fun taskId _ =>
      board.tasks.contains taskId || board.assignments.contains taskId
    primaryPreferences :=
      if preferences.size > 256 then
        preferences.filter fun taskId _ => board.tasks.contains taskId
      else preferences }

/-- `reallocate`. -/
def reallocate : TaskBoard :=
  (((((board.repairSelection).retainPass).stickyPass order).pinCodexHidPrimarySlots
    order).fairFill order).rememberSlots order

end TaskBoard
end Tasks
end MicroEmu
