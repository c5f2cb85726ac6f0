import MicroEmu.Feeds.Polls

/-!
# Rollout files and focus logs

A rollout that is polled while it grows gives the lifecycle of all its complete lines,
whatever the polls saw of it.  Polling passes every complete line of a rollout or a focus
log exactly if all of them are UTF-8; a line that is not stops both readers for ever.
-/

namespace MicroEmu
namespace Feeds

open Json (Value)
open Library (completeLines readableLines decodeUtf8 Mark)

/-- Every complete line of the file is UTF-8. -/
def File.IsText (file : File) : Prop :=
  ∀ line ∈ completeLines isNewline file.bytes, (decodeUtf8 line).isSome = true

instance (file : File) : Decidable file.IsText :=
  inferInstanceAs (Decidable (∀ line ∈ completeLines isNewline file.bytes, _))

theorem File.IsText.cut {file : File} (h : file.IsText) (length : Nat) :
    (file.cut length).IsText :=
  fun line hline => h line
    ((Library.completeLines_prefix isNewline (List.take_prefix length file.bytes)).subset hline)

theorem File.cut_length (file : File) : (file.cut file.bytes.length).bytes = file.bytes :=
  List.take_length

/-! ## Two tailers -/

/-- A line changes the lifecycle and the verification of a cursor only. -/
theorem applyRolloutLine_path (fromStr : String → Option Value) (threadId : String)
    (cursor : RolloutCursor) (line : String) :
    (applyRolloutLine fromStr threadId cursor line).path = cursor.path := by
  unfold applyRolloutLine
  split
  · rfl
  · split
    · split <;> rfl
    · split <;> rfl

/-- A line does not read the offset. -/
theorem applyRolloutLine_offset (fromStr : String → Option Value) (threadId : String)
    (cursor : RolloutCursor) (offset : Nat) (line : String) :
    applyRolloutLine fromStr threadId { cursor with offset } line =
      { applyRolloutLine fromStr threadId cursor line with offset } := by
  unfold applyRolloutLine
  split
  · rfl
  · split
    · split <;> rfl
    · split <;> rfl

/-- The rollout cursor of a thread. -/
def rolloutTailer (fromStr : String → Option Value) (threadId : String) :
    Tailer RolloutCursor where
  apply := applyRolloutLine fromStr threadId
  path := RolloutCursor.path
  offset := RolloutCursor.offset
  withOffset cursor offset := { cursor with offset }
  fresh path := { path }
  path_fresh _ := rfl
  path_apply := applyRolloutLine_path fromStr threadId
  path_withOffset _ _ := rfl
  offset_withOffset _ _ := rfl
  withOffset_withOffset _ _ _ := rfl
  withOffset_fresh _ := rfl
  apply_withOffset := applyRolloutLine_offset fromStr threadId

/-- The focus cursor. -/
def focusTailer : Tailer FocusCursor where
  apply := applyFocusEvent
  path := FocusCursor.path
  offset := FocusCursor.offset
  withOffset cursor offset := { cursor with offset }
  fresh path := { path }
  path_fresh _ := rfl
  path_apply cursor line := by
    unfold applyFocusEvent
    split
    · rfl
    · split
      · rfl
      · split <;> rfl
      · rfl
  path_withOffset _ _ := rfl
  offset_withOffset _ _ := rfl
  withOffset_withOffset _ _ _ := rfl
  withOffset_fresh _ := rfl
  apply_withOffset cursor offset line := by
    unfold applyFocusEvent
    split
    · rfl
    · split
      · rfl
      · split <;> rfl
      · rfl

theorem refreshCursor_view (fromStr : String → Option Value) (threadId path : String)
    (file : File) (cursor : RolloutCursor) :
    refreshCursor fromStr threadId path (some file.view) cursor =
      (rolloutTailer fromStr threadId).poll path file cursor := rfl

theorem refreshFocusedTask_view (path : String) (file : File) (cursor : FocusCursor) :
    (refreshFocusedTask (some (path, some file.view)) cursor).2 =
      focusTailer.poll path file cursor := by
  by_cases hreset : cursor.path ≠ path ∨ file.bytes.length < cursor.offset
  · simp only [refreshFocusedTask, File.view, Tailer.poll, focusTailer, hreset, if_true]
    split <;> rfl
  · simp only [refreshFocusedTask, File.view, Tailer.poll, focusTailer, hreset, if_false]
    split <;> rfl

/-! ## Polls -/

/-- The cursor of a thread, as `entry().or_default()` finds it. -/
def CodexStateCache.cursor (cache : CodexStateCache) (threadId : String) : RolloutCursor :=
  (cache.rollouts[threadId]?).getD {}

/-- Polls of a rollout that see so many of its bytes each. -/
def rolloutPolls (fromStr : String → Option Value) (threadId path : String) (file : File)
    (cuts : List Nat) (cache : CodexStateCache) : CodexStateCache :=
  cuts.foldl (fun cache length =>
    (refreshRollout fromStr cache threadId path (some (file.cut length).view)).2) cache

/-- Polls of a focus log that see so many of its bytes each. -/
def focusPolls (path : String) (file : File) (cuts : List Nat) (cursor : FocusCursor) :
    FocusCursor :=
  cuts.foldl (fun cursor length =>
    (refreshFocusedTask (some (path, some (file.cut length).view)) cursor).2) cursor

/-- All complete lines of a rollout that are texts, applied to its initial cursor. -/
def rolloutBatch (fromStr : String → Option Value) (threadId path : String) (file : File) :
    RolloutCursor :=
  ((completeLines isNewline file.bytes).filterMap decodeUtf8).foldl
    (applyRolloutLine fromStr threadId) { path }

/-- All complete lines of a focus log that are texts, applied to its initial cursor. -/
def focusBatch (path : String) (file : File) : FocusCursor :=
  ((completeLines isNewline file.bytes).filterMap decodeUtf8).foldl applyFocusEvent { path }

theorem cursor_rolloutPolls (fromStr : String → Option Value) (threadId path : String)
    (file : File) (cuts : List Nat) (cache : CodexStateCache) :
    (rolloutPolls fromStr threadId path file cuts cache).cursor threadId =
      (rolloutTailer fromStr threadId).pollAll path file cuts (cache.cursor threadId) := by
  induction cuts generalizing cache with
  | nil => rfl
  | cons cut cuts ih =>
      have hcursor : (refreshRollout fromStr cache threadId path
          (some (file.cut cut).view)).2.cursor threadId =
            (rolloutTailer fromStr threadId).poll path (file.cut cut) (cache.cursor threadId) := by
        rw [← refreshCursor_view]
        simp only [refreshRollout, CodexStateCache.cursor, Std.ExtTreeMap.getElem?_insert_self,
          Option.getD_some]
      rw [rolloutPolls, List.foldl_cons, ← rolloutPolls, ih, hcursor]
      rfl

theorem focusPolls_eq (path : String) (file : File) (cuts : List Nat) (cursor : FocusCursor) :
    focusPolls path file cuts cursor = focusTailer.pollAll path file cuts cursor := by
  induction cuts generalizing cursor with
  | nil => rfl
  | cons cut cuts ih =>
      rw [focusPolls, List.foldl_cons, ← focusPolls, ih, refreshFocusedTask_view]
      rfl

/-! ## One reading -/

section

variable {σ : Type} {tailer : Tailer σ} {name : String}

/-- The mark of a text has all its complete lines applied. -/
theorem markAt_of_isText {file : File} (h : file.IsText) :
    tailer.markAt name file.bytes =
      ⟨(completeLines isNewline file.bytes).flatten.length,
        ((completeLines isNewline file.bytes).filterMap decodeUtf8).foldl tailer.apply
          (tailer.fresh name)⟩ := by
  rw [Tailer.markAt, Mark.reached_eq, Library.readableLines_eq h]

/-- A line that is not UTF-8 keeps the mark before it. -/
theorem exists_line_past_mark (tailer : Tailer σ) (name : String) {file : File}
    (h : ¬file.IsText) :
    ∃ count, count < (completeLines isNewline file.bytes).length ∧
      (tailer.markAt name file.bytes).offset <
        ((completeLines isNewline file.bytes).take (count + 1)).flatten.length := by
  by_contra hnone
  simp only [not_exists, not_and, Nat.not_lt] at hnone
  apply h
  intro line hline
  obtain ⟨count, hcount, rfl⟩ := List.mem_iff_getElem.mp hline
  have hpassed := (Mark.le_offset_reached_iff (Nat.succ_le_of_lt hcount)).mp (hnone count hcount)
  exact hpassed _ (List.mem_take_iff_getElem.mpr ⟨count, by omega, rfl⟩)

end

/-! ## What the cursors have passed -/

/-- Repeated polls of a rollout pass each complete line, and what they have applied then
is every line that is a text. -/
def RolloutProgresses (fromStr : String → Option Value) (threadId path : String)
    (file : File) (cuts : List Nat) : Prop :=
  ∀ count < (completeLines isNewline file.bytes).length, ∃ polls, ∀ more ≥ polls,
    let cursor := (rolloutPolls fromStr threadId path file
      (cuts ++ List.replicate more file.bytes.length) {}).cursor threadId
    ((completeLines isNewline file.bytes).take (count + 1)).flatten.length ≤ cursor.offset ∧
      cursor.lifecycle = (rolloutBatch fromStr threadId path file).lifecycle ∧
        cursor.threadIdVerified = (rolloutBatch fromStr threadId path file).threadIdVerified

/-- The same of a focus log. -/
def FocusProgresses (path : String) (file : File) (cuts : List Nat) : Prop :=
  ∀ count < (completeLines isNewline file.bytes).length, ∃ polls, ∀ more ≥ polls,
    let cursor := focusPolls path file (cuts ++ List.replicate more file.bytes.length) {}
    ((completeLines isNewline file.bytes).take (count + 1)).flatten.length ≤ cursor.offset ∧
      cursor.selectedTaskId = (focusBatch path file).selectedTaskId

/-- After a poll of the whole file the cursor is that of one reading. -/
theorem pollAll_whole {σ : Type} {tailer : Tailer σ} (path old : String) (file : File)
    (cuts : List Nat) {more : Nat} (hmore : 1 ≤ more) :
    tailer.pollAll path file (cuts ++ List.replicate more file.bytes.length) (tailer.fresh old) =
      tailer.cursorAt path file.bytes := by
  obtain ⟨more, rfl⟩ := Nat.exists_eq_add_of_le' hmore
  rw [List.replicate_succ', ← List.append_assoc, Tailer.pollAll_fresh, File.cut_length]

/-- The rollout reader passes every complete line exactly if all of them are UTF-8. -/
theorem rolloutProgresses_iff (fromStr : String → Option Value) (threadId path : String)
    (file : File) (cuts : List Nat) :
    RolloutProgresses fromStr threadId path file cuts ↔ file.IsText := by
  have hcursor (more : Nat) (hmore : 1 ≤ more) :
      (rolloutPolls fromStr threadId path file
        (cuts ++ List.replicate more file.bytes.length) {}).cursor threadId =
          (rolloutTailer fromStr threadId).cursorAt path file.bytes := by
    rw [cursor_rolloutPolls]
    exact pollAll_whole path "" file cuts hmore
  constructor
  · intro hprogress
    by_contra htext
    obtain ⟨count, hcount, hpast⟩ :=
      exists_line_past_mark (rolloutTailer fromStr threadId) path htext
    obtain ⟨polls, hpolls⟩ := hprogress count hcount
    have hpassed := (hpolls (polls + 1) (Nat.le_succ polls)).1
    rw [hcursor (polls + 1) (Nat.succ_pos polls)] at hpassed
    exact absurd hpassed (Nat.not_le.mpr hpast)
  · intro htext count _
    refine ⟨1, fun more hmore => ?_⟩
    rw [hcursor more hmore, Tailer.cursorAt, markAt_of_isText htext]
    refine ⟨?_, rfl, rfl⟩
    exact ((List.take_prefix _ _).flatten).length_le

/-- The focus reader passes every complete line exactly if all of them are UTF-8. -/
theorem focusProgresses_iff (path : String) (file : File) (cuts : List Nat) :
    FocusProgresses path file cuts ↔ file.IsText := by
  have hcursor (more : Nat) (hmore : 1 ≤ more) :
      focusPolls path file (cuts ++ List.replicate more file.bytes.length) {} =
        focusTailer.cursorAt path file.bytes := by
    rw [focusPolls_eq]
    exact pollAll_whole path "" file cuts hmore
  constructor
  · intro hprogress
    by_contra htext
    obtain ⟨count, hcount, hpast⟩ :=
      exists_line_past_mark focusTailer path htext
    obtain ⟨polls, hpolls⟩ := hprogress count hcount
    have hpassed := (hpolls (polls + 1) (Nat.le_succ polls)).1
    rw [hcursor (polls + 1) (Nat.succ_pos polls)] at hpassed
    exact absurd hpassed (Nat.not_le.mpr hpast)
  · intro htext count _
    refine ⟨1, fun more hmore => ?_⟩
    rw [hcursor more hmore, Tailer.cursorAt, markAt_of_isText htext]
    refine ⟨?_, rfl⟩
    exact ((List.take_prefix _ _).flatten).length_le

/-! ## The two results -/

/-- Whatever the polls of a rollout of UTF-8 lines saw of it, the lifecycle and the
verification after the last one are those of all complete lines it saw, applied once to
the initial cursor. -/
theorem rolloutPolls_eq_batch (fromStr : String → Option Value) (threadId path : String)
    (file : File) (hlines : file.IsText) (cache : CodexStateCache)
    (hcache : cache.rollouts[threadId]? = none) (cuts : List Nat) (last : Nat) :
    ∃ cursor, (rolloutPolls fromStr threadId path file (cuts ++ [last]) cache).rollouts[threadId]? =
        some cursor ∧
      cursor.lifecycle = (rolloutBatch fromStr threadId path (file.cut last)).lifecycle ∧
      cursor.threadIdVerified =
        (rolloutBatch fromStr threadId path (file.cut last)).threadIdVerified := by
  have hfresh : cache.cursor threadId = (rolloutTailer fromStr threadId).fresh "" := by
    rw [CodexStateCache.cursor, hcache]
    rfl
  have hcursor := cursor_rolloutPolls fromStr threadId path file (cuts ++ [last]) cache
  rw [hfresh, Tailer.pollAll_fresh, Tailer.cursorAt, markAt_of_isText (hlines.cut last)] at hcursor
  -- the last poll leaves a cursor of its own in the cache
  have hsome : ∃ cursor, (rolloutPolls fromStr threadId path file (cuts ++ [last])
      cache).rollouts[threadId]? = some cursor := by
    rw [rolloutPolls, List.foldl_append]
    exact ⟨_, Std.ExtTreeMap.getElem?_insert_self⟩
  obtain ⟨cursor, hsome⟩ := hsome
  rw [CodexStateCache.cursor, hsome, Option.getD_some] at hcursor
  exact ⟨cursor, hsome, by rw [hcursor]; rfl, by rw [hcursor]; rfl⟩

/-- The lines of a rollout with what they say: its thread, the start of a turn, and its end. -/
def sampleLines : List (String × Value) :=
  [("\x7b\"type\":\"session_meta\",\"payload\":\x7b\"id\":\"thread\"\x7d\x7d\n",
      .object [("type", .string "session_meta"), ("payload", .object [("id", .string "thread")])]),
    ("\x7b\"type\":\"event_msg\",\"payload\":\x7b\"type\":\"task_started\"," ++
        "\"turn_id\":\"é\"\x7d\x7d\n",
      .object [("type", .string "event_msg"), ("payload", .object
        [("type", .string "task_started"), ("turn_id", .string "é")])]),
    ("\x7b\"type\":\"event_msg\",\"payload\":\x7b\"type\":\"task_complete\"," ++
        "\"turn_id\":\"é\"\x7d\x7d\n",
      .object [("type", .string "event_msg"), ("payload", .object
        [("type", .string "task_complete"), ("turn_id", .string "é")])])]

def sampleParser (line : String) : Option Value :=
  (sampleLines.find? (·.1 == line)).map (·.2)

def sampleRollout : File :=
  ⟨sampleLines.flatMap fun line => Library.encodeUtf8 line.1, by decide +kernel⟩

/-- The polls see a part of the first line, then a part of a character of the second, then that
line, and then the end of the turn. -/
theorem rolloutPolls_eq_batch_sample :
    ∃ cursor, (rolloutPolls sampleParser "thread" "rollout.jsonl" sampleRollout
        ([20, 115, 120] ++ [191]) {}).rollouts["thread"]? = some cursor ∧
      cursor.lifecycle.state = some .completed ∧ cursor.threadIdVerified = some true := by
  obtain ⟨cursor, hcursor, hlifecycle, hverified⟩ := rolloutPolls_eq_batch sampleParser "thread"
    "rollout.jsonl" sampleRollout (by decide +kernel) {} rfl [20, 115, 120] 191
  refine ⟨cursor, hcursor, ?_, ?_⟩
  · rw [hlifecycle]
    decide +kernel
  · rw [hverified]
    decide +kernel

/-- Polling passes every complete line of a rollout, and of a focus log, and applies every
one that is a text, exactly if all its complete lines are UTF-8. -/
theorem logProgress_iff (fromStr : String → Option Value) (threadId path : String)
    (file : File) (cuts : List Nat) :
    (RolloutProgresses fromStr threadId path file cuts ↔ file.IsText) ∧
      (FocusProgresses path file cuts ↔ file.IsText) :=
  ⟨rolloutProgresses_iff fromStr threadId path file cuts, focusProgresses_iff path file cuts⟩

/-- A complete line that is not UTF-8, and a line behind it. -/
def brokenLog : File := ⟨[0xff, 10] ++ Library.encodeUtf8 "{}\n", by decide⟩

theorem not_logProgress_brokenLog :
    ¬RolloutProgresses (fun _ => some (.object [])) "thread" "rollout.jsonl" brokenLog [] ∧
      ¬FocusProgresses "focus.log" brokenLog [] := by
  have hbroken : ¬brokenLog.IsText := by decide +kernel
  exact ⟨fun h => hbroken ((rolloutProgresses_iff _ _ _ _ _).mp h),
    fun h => hbroken ((focusProgresses_iff _ _ _).mp h)⟩

end Feeds
end MicroEmu
