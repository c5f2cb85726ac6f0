import MicroEmu.Tasks.IterationOrder

/-!
# The automatic selection

`auto_select_waiting` looks at the tasks that wait for an answer on a device, and
selects one of them.  `task_order` puts the highest priority first, then the latest
update, then the smallest id.  The comparison that is maximised here has the update
and the id that way round, but not the priority: a higher priority compares as
less.  So the task selected is one of the lowest priority, and it is the first in
`task_order` exactly when no two of the tasks differ in their priority.
-/

namespace MicroEmu
namespace Tasks

open Std (ExtTreeMap compare_self)
open Json (Value)
open Library

/-- The first of two waiting tasks: the higher priority, then the later update, then
the smaller id. -/
def Precedes (a b : TaskCard) : Prop :=
  b.priority < a.priority ∨ (a.priority = b.priority ∧
    (b.updatedAtMs < a.updatedAtMs ∨ (a.updatedAtMs = b.updatedAtMs ∧ a.taskId ≤ b.taskId)))

/-- Not above, for texts. -/
theorem compare_ne_gt_iff {a b : String} : compare a b ≠ .gt ↔ a ≤ b :=
  Ordering.isLE_iff_ne_gt.symm.trans
    (isLE_compareOfLessAndEq String.le_antisymm String.not_le String.le_total)

/-- Among waiting tasks the first one is the first in `task_order`. -/
theorem precedes_iff_notAbove {a b : TaskCard} (hstate : a.state = b.state) :
    Precedes a b ↔ notAbove taskOrder a b := by
  unfold Precedes notAbove taskOrder
  rw [hstate, compare_self, Ordering.eq_then]
  rcases Nat.lt_trichotomy a.priority b.priority with hless | hsame | hmore
  · rw [Nat.compare_eq_gt.mpr hless]
    simp only [Ordering.gt_then, ne_eq, not_true_eq_false, iff_false]
    omega
  · rw [hsame, compare_self, Ordering.eq_then]
    rcases Nat.lt_trichotomy a.updatedAtMs b.updatedAtMs with hearly | hupdated | hlate
    · rw [Nat.compare_eq_gt.mpr hearly]
      simp only [Ordering.gt_then, ne_eq, not_true_eq_false, iff_false]
      omega
    · rw [hupdated, compare_self, Ordering.eq_then, compare_ne_gt_iff]
      simp
    · rw [Nat.compare_eq_lt.mpr hlate]
      simp [hlate]
  · rw [Nat.compare_eq_lt.mpr hmore]
    simp [hmore]

/-- A task that is not below another one in the comparison that is maximised has no
higher priority. -/
theorem priority_le_of_notAbove {a b : TaskCard} (h : notAbove TaskBoard.waitingOrder a b) :
    b.priority ≤ a.priority := by
  by_contra hmore
  refine h ?_
  rw [TaskBoard.waitingOrder, Nat.compare_eq_gt.mpr (Nat.lt_of_not_le hmore), Ordering.gt_then]

/-- Among tasks of one priority the greatest is the first. -/
theorem precedes_of_notAbove {a b : TaskCard} (hpriority : a.priority = b.priority)
    (h : notAbove TaskBoard.waitingOrder a b) : Precedes b a := by
  refine Or.inr ⟨hpriority.symm, ?_⟩
  rw [notAbove, TaskBoard.waitingOrder, hpriority, compare_self, Ordering.eq_then] at h
  rcases Nat.lt_trichotomy a.updatedAtMs b.updatedAtMs with hearly | hupdated | hlate
  · exact Or.inl hearly
  · rw [hupdated, compare_self, Ordering.eq_then, compare_ne_gt_iff] at h
    exact Or.inr ⟨hupdated.symm, h⟩
  · rw [Nat.compare_eq_gt.mpr hlate] at h
    exact absurd rfl h

/-- Two tasks that precede each other have one id. -/
theorem taskId_eq_of_precedes {a b : TaskCard} (hab : Precedes a b) (hba : Precedes b a) :
    a.taskId = b.taskId := by
  rcases hab with hmore | ⟨hpriority, hlate | ⟨hupdated, hle⟩⟩ <;>
    rcases hba with hmore' | ⟨hpriority', hlate' | ⟨hupdated', hle'⟩⟩ <;> try omega
  exact String.le_antisymm hle hle'

namespace TaskBoard

variable {order : WalkOrder} {board : TaskBoard} {deviceId : String} {nowMs : Nat}

/-- The task waits on the device for an answer that it would still accept. -/
structure Awaits (board : TaskBoard) (deviceId : String) (nowMs : Nat) (task : TaskCard) :
    Prop where
  stored : board.tasks[task.taskId]? = some task
  waiting : task.state = .waiting
  unexpired : ∃ interaction, task.interaction = some interaction ∧
    ∀ expires, interaction.expiresAtMs = some expires → nowMs < expires
  shown : ∃ slot, board.assignments[task.taskId]? = some ⟨slot⟩ ∧ slot.deviceId = deviceId

/-- The first of the tasks that wait on the device. -/
structure Foremost (board : TaskBoard) (deviceId : String) (nowMs : Nat) (task : TaskCard) :
    Prop where
  awaits : board.Awaits deviceId nowMs task
  first : ∀ other, board.Awaits deviceId nowMs other → Precedes task other

/-- The event of an automatic selection. -/
def automaticSelection (task : TaskCard) (slot : DeviceSlot) (nowMs : Nat) : Value :=
  .object [("type", .string "task_selected"), ("task_id", .string task.taskId),
    ("device_id", .string slot.deviceId), ("slot", .ofNat slot.slot),
    ("owner_session", .ofNat task.ownerSession), ("legacy_key", .null),
    ("automatic", .bool true), ("ts", .ofNat nowMs)]

/-- The board with the task selected. -/
def withSelected (board : TaskBoard) (task : TaskCard) (nowMs : Nat) : TaskBoard :=
  { board with
    selected := some task.taskId
    pendingSelection := pendingMarker task task.taskId nowMs }

/-- The automatic selection selects the first of the waiting tasks, and does nothing
when no task waits or when that one is selected already. -/
structure SelectsForemost (order : WalkOrder) (board : TaskBoard) (deviceId : String)
    (nowMs : Nat) : Prop where
  idle : (∀ task, ¬ board.Awaits deviceId nowMs task) →
    board.autoSelectWaiting order deviceId nowMs = (none, board)
  keeps : ∀ task, board.Foremost deviceId nowMs task → board.selected = some task.taskId →
    board.autoSelectWaiting order deviceId nowMs = (none, board)
  selects : ∀ task slot, board.Foremost deviceId nowMs task →
    board.assignments[task.taskId]? = some ⟨slot⟩ → board.selected ≠ some task.taskId →
      board.autoSelectWaiting order deviceId nowMs =
        (some (automaticSelection task slot nowMs), board.withSelected task nowMs)

/-! ## The tasks that are considered -/

/-- The list whose maximum `auto_select_waiting` takes. -/
def waitingTasks (order : WalkOrder) (board : TaskBoard) (deviceId : String) (nowMs : Nat) :
    List TaskCard :=
  ((order.values board.tasks).filter (awaitsAnswer nowMs)).filter fun task =>
    board.assignedOn deviceId task.taskId

theorem awaitsAnswer_iff {task : TaskCard} : awaitsAnswer nowMs task = true ↔
    task.state = .waiting ∧ ∃ interaction, task.interaction = some interaction ∧
      ∀ expires, interaction.expiresAtMs = some expires → nowMs < expires := by
  simp [awaitsAnswer, Option.any_eq_true, Option.all_eq_true]

theorem assignedOn_iff {taskId : String} : board.assignedOn deviceId taskId = true ↔
    ∃ slot, board.assignments[taskId]? = some ⟨slot⟩ ∧ slot.deviceId = deviceId := by
  rw [assignedOn, Option.any_eq_true]
  constructor
  · rintro ⟨⟨slot⟩, hslot, hdevice⟩
    exact ⟨slot, hslot, eq_of_beq hdevice⟩
  · rintro ⟨slot, hslot, hdevice⟩
    exact ⟨⟨slot⟩, hslot, beq_iff_eq.mpr hdevice⟩

theorem mem_waitingTasks_iff (hwf : board.WellFormed) {task : TaskCard} :
    task ∈ board.waitingTasks order deviceId nowMs ↔ board.Awaits deviceId nowMs task := by
  rw [waitingTasks, List.mem_filter, List.mem_filter, order.mem_values_iff hwf,
    awaitsAnswer_iff, assignedOn_iff]
  constructor
  · rintro ⟨⟨hstored, hwaiting, hopen⟩, hshown⟩
    exact ⟨hstored, hwaiting, hopen, hshown⟩
  · rintro ⟨hstored, hwaiting, hopen, hshown⟩
    exact ⟨⟨hstored, hwaiting, hopen⟩, hshown⟩

/-- Where a task waits, one of them is the first. -/
theorem Awaits.exists_foremost (hwf : board.WellFormed) {task : TaskCard}
    (htask : board.Awaits deviceId nowMs task) :
    ∃ first, board.Foremost deviceId nowMs first := by
  have hmem : task ∈ board.waitingTasks .ascending deviceId nowMs :=
    (mem_waitingTasks_iff hwf).mpr htask
  have hsome : minBy? taskOrder (board.waitingTasks .ascending deviceId nowMs) ≠ none :=
    mt minBy?_eq_none_iff.mp (List.ne_nil_of_mem hmem)
  obtain ⟨first, hfirst⟩ := Option.ne_none_iff_exists'.mp hsome
  have hawaits := (mem_waitingTasks_iff hwf).mp (minBy?_mem hfirst)
  refine ⟨first, hawaits, fun other hother => ?_⟩
  rw [precedes_iff_notAbove (hawaits.waiting.trans hother.waiting.symm)]
  exact minBy?_notAbove hfirst other ((mem_waitingTasks_iff hwf).mpr hother)

/-! ## The task that is selected -/

/-- Without a waiting task nothing is selected. -/
theorem autoSelectWaiting_of_idle (hwf : board.WellFormed)
    (hidle : ∀ task, ¬ board.Awaits deviceId nowMs task) :
    board.autoSelectWaiting order deviceId nowMs = (none, board) := by
  have hnil : board.waitingTasks order deviceId nowMs = [] := by
    rw [List.eq_nil_iff_forall_not_mem]
    exact fun task htask => hidle task ((mem_waitingTasks_iff hwf).mp htask)
  unfold autoSelectWaiting
  rw [waitingTasks] at hnil
  simp only [hnil, maxBy?]

/-- The greatest waiting task in the comparison, and what is done with it. -/
theorem autoSelectWaiting_eq (hwf : board.WellFormed) {task : TaskCard}
    (htask : board.Awaits deviceId nowMs task) (order : WalkOrder) :
    ∃ best slot, board.Awaits deviceId nowMs best ∧
      (∀ other, board.Awaits deviceId nowMs other → notAbove waitingOrder other best) ∧
      board.assignments[best.taskId]? = some ⟨slot⟩ ∧
      board.autoSelectWaiting order deviceId nowMs =
        if board.selected = some best.taskId then (none, board)
        else (some (automaticSelection best slot nowMs), board.withSelected best nowMs) := by
  have hmem : task ∈ board.waitingTasks order deviceId nowMs :=
    (mem_waitingTasks_iff hwf).mpr htask
  cases hbest : maxBy? waitingOrder (board.waitingTasks order deviceId nowMs) with
  | none =>
      cases hlist : board.waitingTasks order deviceId nowMs with
      | nil =>
          rw [hlist] at hmem
          cases hmem
      | cons _ _ =>
          rw [hlist] at hbest
          cases hbest
  | some best =>
      obtain ⟨hthere, habove⟩ := maxBy?_spec hbest
      have hawaits := (mem_waitingTasks_iff hwf).mp hthere
      obtain ⟨slot, hslot, -⟩ := hawaits.shown
      refine ⟨best, slot, hawaits, ?_, hslot, ?_⟩
      · exact fun other hother => habove other ((mem_waitingTasks_iff hwf).mpr hother)
      · unfold autoSelectWaiting
        rw [waitingTasks] at hbest
        simp only [hbest, hslot, hawaits.stored]
        rfl

/-- The first task is the one selected where all have one priority. -/
theorem selectsForemost_of_priority (hwf : board.WellFormed)
    (hsame : ∀ a b, board.Awaits deviceId nowMs a → board.Awaits deviceId nowMs b →
      a.priority = b.priority) : board.SelectsForemost order deviceId nowMs := by
  -- whoever is the first is the greatest of the comparison
  have hfirst : ∀ task slot, board.Foremost deviceId nowMs task →
      board.assignments[task.taskId]? = some ⟨slot⟩ →
        board.autoSelectWaiting order deviceId nowMs =
          if board.selected = some task.taskId then (none, board)
          else (some (automaticSelection task slot nowMs), board.withSelected task nowMs) := by
    intro task slot hforemost hslot
    obtain ⟨best, place, hbest, habove, hplace, hresult⟩ :=
      autoSelectWaiting_eq hwf hforemost.awaits order
    have hid : task.taskId = best.taskId :=
      taskId_eq_of_precedes (hforemost.first best hbest)
        (precedes_of_notAbove (hsame task best hforemost.awaits hbest)
          (habove task hforemost.awaits))
    have hcard : task = best := by
      have hstored := hforemost.awaits.stored
      rw [hid, hbest.stored] at hstored
      exact (Option.some.inj hstored).symm
    subst hcard
    rw [hplace] at hslot
    cases hslot
    exact hresult
  refine ⟨autoSelectWaiting_of_idle hwf, ?_, ?_⟩
  · intro task hforemost hselected
    obtain ⟨slot, hslot, -⟩ := hforemost.awaits.shown
    rw [hfirst task slot hforemost hslot, if_pos hselected]
  · intro task slot hforemost hslot hselected
    rw [hfirst task slot hforemost hslot, if_neg hselected]

/-- Where the first task is selected, no waiting task has a lower priority. -/
theorem SelectsForemost.priority_le (hwf : board.WellFormed)
    (hselects : board.SelectsForemost order deviceId nowMs) {a b : TaskCard}
    (ha : board.Awaits deviceId nowMs a) (hb : board.Awaits deviceId nowMs b) :
    b.priority ≤ a.priority := by
  obtain ⟨first, hforemost⟩ := ha.exists_foremost hwf
  obtain ⟨best, place, hbest, habove, -, hresult⟩ := autoSelectWaiting_eq hwf ha order
  obtain ⟨slot, hslot, -⟩ := hforemost.awaits.shown
  have hid : first.taskId = best.taskId := by
    by_cases hselected : board.selected = some first.taskId
    · rw [hselects.keeps first hforemost hselected] at hresult
      split at hresult
      · rename_i hbestSelected
        exact Option.some.inj (hselected.symm.trans hbestSelected)
      · cases hresult
    · rw [hselects.selects first slot hforemost hslot hselected] at hresult
      split at hresult
      · cases hresult
      · exact Option.some.inj (congrArg (fun result => result.2.selected) hresult)
  have hcard : first = best := by
    have hstored := hforemost.awaits.stored
    rw [hid, hbest.stored] at hstored
    exact (Option.some.inj hstored).symm
  have hhigh : b.priority ≤ first.priority := by
    rcases hforemost.first b hb with hmore | ⟨hequal, -⟩ <;> omega
  have hlow := priority_le_of_notAbove (habove a ha)
  rw [hcard] at hhigh
  exact hhigh.trans hlow

/-- On every reachable board the automatic selection selects the first of the waiting
tasks exactly when they all have one priority. -/
theorem selects_foremost_iff (steps : List (WalkOrder × Op)) (order : WalkOrder)
    (deviceId : String) (nowMs : Nat) :
    (run steps default).SelectsForemost order deviceId nowMs ↔
      ∀ a b, (run steps default).Awaits deviceId nowMs a →
        (run steps default).Awaits deviceId nowMs b → a.priority = b.priority := by
  have hwf := (placed_run steps).wellFormed
  constructor
  · intro hselects a b ha hb
    exact Nat.le_antisymm (hselects.priority_le hwf hb ha) (hselects.priority_le hwf ha hb)
  · exact selectsForemost_of_priority hwf

/-- A waiting task as an owner publishes it. -/
def waitingEntry (taskId : String) (priority : Nat) : Value :=
  .object [("task_id", .string taskId), ("state", .string "waiting"),
    ("priority", .ofNat priority),
    ("interaction", .object [("id", .string taskId), ("kind", .string "approval"),
      ("prompt", .string "Deploy now?")])]

/-- Two tasks wait on a device with two slots. -/
def twoPriorities : List (WalkOrder × Op) :=
  [(.ascending, .setDevice "deck" 2 true),
    (.ascending, .publishTasks 7 .hermes (.object [("tasks", .array
      [waitingEntry "minor" 10, waitingEntry "urgent" 90])]) 100)]

/-- Of two waiting tasks the one of the lower priority is selected. -/
theorem lower_priority_is_selected :
    let board := run twoPriorities default
    ((board.waitingTasks .ascending "deck" 100).map fun task => (task.taskId, task.priority)) =
        [("minor", 10), ("urgent", 90)] ∧
      (board.autoSelectWaiting .ascending "deck" 100).2.selected = some "minor" ∧
      ¬ board.SelectsForemost .ascending "deck" 100 := by
  intro board
  have hwf : board.WellFormed := (placed_run twoPriorities).wellFormed
  have hwaiting : ((board.waitingTasks .ascending "deck" 100).map
      fun task => (task.taskId, task.priority)) = [("minor", 10), ("urgent", 90)] := by
    decide +kernel
  refine ⟨hwaiting, by decide +kernel, fun hselects => ?_⟩
  have hentry : ∀ entry ∈ [("minor", 10), ("urgent", 90)],
      ∃ task, board.Awaits "deck" 100 task ∧ task.priority = entry.2 := by
    intro entry hentry
    rw [← hwaiting] at hentry
    obtain ⟨task, htask, rfl⟩ := List.mem_map.mp hentry
    exact ⟨task, (mem_waitingTasks_iff hwf).mp htask, rfl⟩
  obtain ⟨minor, hminor, hlow⟩ := hentry ("minor", 10) List.mem_cons_self
  obtain ⟨urgent, hurgent, hhigh⟩ := hentry ("urgent", 90) (by simp)
  have hle := hselects.priority_le hwf hminor hurgent
  omega

end TaskBoard
end Tasks
end MicroEmu
