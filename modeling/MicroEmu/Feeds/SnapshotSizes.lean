import MicroEmu.Feeds.ClaudeState
import MicroEmu.Library.Select

/-!
# How many cards a snapshot holds

A record without a session id makes no card.  The Hermes snapshot leaves such records out
before it cuts the list to its limit, the Claude snapshot cuts the list first.  So a Claude
snapshot is short exactly if a record that makes no card stands among the first ones of the
order while a record that makes one stands behind them.
-/

namespace MicroEmu
namespace Feeds

open Json (Value)
open Library (filterMap_take_eq_iff)

namespace ClaudeState

/-- The live records in the snapshot's order. -/
def orderedRecords (home : Home) (files : List RecordFile) : List Value :=
  (files.filterMap (liveRecord home)).insertionSort (recordLe · ·)

/-- A record `build_task` can make a card from. -/
def showable (record : Value) : Bool := (namedField record "sessionId").isSome

@[simp] theorem recordTask_isSome (home : Home) (record : Value) :
    (recordTask home record).isSome = showable record :=
  Option.isSome_map

theorem recordTask_eq_none_iff {home : Home} {record : Value} :
    recordTask home record = none ↔ showable record = false := by
  rw [← recordTask_isSome home, Option.isSome_eq_false_iff, Option.isNone_iff_eq_none]

/-- What a snapshot of at most `maxTasks` cards is to hold: the cards of the first records
among those a card can be made from. -/
def foremostTasks (home : Home) (files : List RecordFile) (maxTasks : Nat) : List Value :=
  (((orderedRecords home files).filter showable).take maxTasks).filterMap (recordTask home)

theorem filterMap_filter_showable (home : Home) (records : List Value) :
    (records.filter showable).filterMap (recordTask home) =
      records.filterMap (recordTask home) := by
  rw [List.filterMap_filter]
  refine List.filterMap_congr fun record _ => ?_
  split
  · rfl
  · rename_i hshow
    exact (recordTask_eq_none_iff.mpr (Bool.eq_false_of_not_eq_true hshow)).symm

/-- Cutting the showable records and making cards of them is the same in either order. -/
theorem foremostTasks_eq (home : Home) (files : List RecordFile) (maxTasks : Nat) :
    foremostTasks home files maxTasks =
      ((orderedRecords home files).filterMap (recordTask home)).take maxTasks := by
  rw [← filterMap_filter_showable, foremostTasks, filterMap_take_eq_iff]
  refine Or.inl fun record hmem => ?_
  rw [recordTask_isSome]
  exact (List.mem_filter.mp (List.mem_of_mem_take hmem)).2

/-- There are as many of them as the limit and the live records allow. -/
theorem length_foremostTasks (home : Home) (files : List RecordFile) (maxTasks : Nat) :
    (foremostTasks home files maxTasks).length =
      min maxTasks ((files.filterMap (liveRecord home)).countP showable) := by
  have hcount : ((orderedRecords home files).filterMap (recordTask home)).length =
      (files.filterMap (liveRecord home)).countP showable := by
    rw [List.length_filterMap_eq_countP, orderedRecords,
      (List.perm_insertionSort (recordLe · ·) _).countP_eq]
    simp only [recordTask_isSome]
  rw [foremostTasks_eq, List.length_take, hcount]

/-- A limit of zero needs no case of its own. -/
theorem readClaudeSnapshotFrom_eq (home : Home) (maxTasks : Nat) :
    readClaudeSnapshotFrom home maxTasks = home.sessions.map fun files =>
      .object [("tasks",
        .array (((orderedRecords home files).take maxTasks).filterMap (recordTask home)))] := by
  unfold readClaudeSnapshotFrom
  congr 1
  funext files
  split
  · rename_i hzero
    rw [hzero, List.take_zero, List.filterMap_nil]
  · rfl

/-- The snapshot holds exactly the foremost cards, as many as there are up to the limit. -/
def FillsSnapshot (home : Home) (maxTasks : Nat) : Prop :=
  ∀ files, home.sessions = some files →
    ∃ tasks, readClaudeSnapshotFrom home maxTasks = some (.object [("tasks", .array tasks)]) ∧
      tasks.length = min maxTasks ((files.filterMap (liveRecord home)).countP showable) ∧
      tasks = foremostTasks home files maxTasks

theorem fillsSnapshot_iff (home : Home) (maxTasks : Nat) :
    FillsSnapshot home maxTasks ↔ ∀ files, home.sessions = some files →
      (∀ record ∈ (orderedRecords home files).take maxTasks, showable record = true) ∨
        ∀ record ∈ (orderedRecords home files).drop maxTasks, showable record = false := by
  refine forall₂_congr fun files hfiles => ?_
  have hiff := filterMap_take_eq_iff (recordTask home) maxTasks (orderedRecords home files)
  simp only [recordTask_isSome, recordTask_eq_none_iff] at hiff
  rw [← hiff, ← foremostTasks_eq, readClaudeSnapshotFrom_eq, hfiles, Option.map_some]
  constructor
  · rintro ⟨tasks, hread, -, rfl⟩
    injection hread with hread
    injection hread with hread
    injection hread with hread
    injection hread with _ hread
    injection hread
  · intro heq
    exact ⟨_, rfl, by rw [heq, length_foremostTasks], heq⟩

/-- Two live sessions.  The one touched last has no session id. -/
def twoSessions : List RecordFile :=
  [⟨some "json", true, 100, some (.object [("pid", .ofNat 1), ("updatedAt", .ofNat 20)])⟩,
    ⟨some "json", true, 100, some (.object [("pid", .ofNat 2), ("updatedAt", .ofNat 10),
      ("sessionId", .string "a")])⟩]

def twoSessionHome : Home where
  sessions := some twoSessions
  transcriptTail := fun _ => none
  fromStr := fun _ => none
  alive := fun _ _ => true

/-- The session without an id takes the only place of the snapshot, and nothing is shown. -/
theorem not_fillsSnapshot_twoSessions : ¬FillsSnapshot twoSessionHome 1 := by
  intro h
  obtain ⟨tasks, hread, hlength, -⟩ := h twoSessions rfl
  have hnone : readClaudeSnapshotFrom twoSessionHome 1 =
      some (.object [("tasks", .array [])]) := by rfl
  have hone : min 1 ((twoSessions.filterMap (liveRecord twoSessionHome)).countP showable) = 1 := by
    decide +kernel
  rw [hnone] at hread
  rw [hone] at hlength
  cases hread
  cases hlength

end ClaudeState

end Feeds
end MicroEmu
