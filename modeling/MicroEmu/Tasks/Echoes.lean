import MicroEmu.Tasks.Acknowledgement

/-!
# Echoes of a selection

Codex redraws its cards when the selection changes, and the redraw must not be
read as a change of the tasks: the frame's entry for such a card is settled to the
state the card has.  The settled card then goes through the merge like any report.
It keeps the timers the merge's rule gives a repeated state, and, since it is not a
completion, it forgets that the card was acknowledged.  `Undisturbed` says which
frames leave the cards they mention alone.
-/

namespace MicroEmu
namespace Tasks

open Std (ExtTreeMap LawfulEqCmp)
open Json (Value)
open Routing (AgentId)
open Library

/-! ## Repeating a state -/

/-- An active card has a start, a queued or failed one has none, and only a
completion has a finish. -/
@[mk_iff] structure Lifecycle.Regular (lifecycle : Lifecycle) : Prop where
  active : lifecycle.state.active = true → lifecycle.startedAtMs.isSome = true
  ended : lifecycle.state = .queued ∨ lifecycle.state = .error → lifecycle.startedAtMs = none
  finished : lifecycle.finishedAtMs.isSome = true ↔ lifecycle.state = .completed

/-- What one more report of the same state makes of a lifecycle: timestamps of its
own replace the timers. -/
def Lifecycle.repeated (nowMs : Nat) (lifecycle : Lifecycle) (card : TaskCard) : Lifecycle :=
  if card.timingAuthoritative then
    { lifecycle with startedAtMs := card.startedAtMs, finishedAtMs := card.finishedAtMs }
  else
    Lifecycle.merge (some lifecycle) (lifecycle.state, nowMs)

theorem Lifecycle.repeated_state (nowMs : Nat) (lifecycle : Lifecycle) (card : TaskCard) :
    (lifecycle.repeated nowMs card).state = lifecycle.state := by
  unfold Lifecycle.repeated
  split
  · rfl
  · rfl

/-- Reports of the same state leave the timers: without timestamps the lifecycle is
regular, and with some, they come back to the timers it has. -/
def Lifecycle.Repeatable (nowMs : Nat) (lifecycle : Lifecycle) (cards : List TaskCard) : Prop :=
  if cards.all (!·.timingAuthoritative) then lifecycle.Regular
  else cards.foldl (Lifecycle.repeated nowMs) lifecycle = lifecycle

/-- The timers of a repeated state. -/
theorem Lifecycle.merge_same (lifecycle : Lifecycle) (nowMs : Nat) :
    Lifecycle.merge (some lifecycle) (lifecycle.state, nowMs) =
      { state := lifecycle.state
        startedAtMs :=
          if lifecycle.state.active then some (lifecycle.startedAtMs.getD nowMs)
          else if lifecycle.state = .queued ∨ lifecycle.state = .error then none
          else lifecycle.startedAtMs
        finishedAtMs :=
          if lifecycle.state = .completed then some (lifecycle.finishedAtMs.getD nowMs)
          else none } := by
  obtain ⟨state, started, finished⟩ := lifecycle
  cases state <;> simp [Lifecycle.merge, TaskState.active, Option.or_some, Option.filter]

theorem Lifecycle.merge_same_iff {lifecycle : Lifecycle} {nowMs : Nat} :
    Lifecycle.merge (some lifecycle) (lifecycle.state, nowMs) = lifecycle ↔
      lifecycle.Regular := by
  obtain ⟨state, started, finished⟩ := lifecycle
  rw [Lifecycle.merge_same, Lifecycle.regular_iff]
  cases state <;> cases started <;> cases finished <;> simp [TaskState.active]

/-- Repeating a state makes the lifecycle regular. -/
theorem Lifecycle.regular_merge_same (lifecycle : Lifecycle) (nowMs : Nat) :
    (Lifecycle.merge (some lifecycle) (lifecycle.state, nowMs)).Regular := by
  obtain ⟨state, started, finished⟩ := lifecycle
  rw [Lifecycle.merge_same, Lifecycle.regular_iff]
  cases state <;> simp [TaskState.active]

theorem Lifecycle.Regular.foldl_repeated {lifecycle : Lifecycle} (hregular : lifecycle.Regular)
    (nowMs : Nat) {cards : List TaskCard}
    (hplain : ∀ card ∈ cards, card.timingAuthoritative = false) :
    cards.foldl (Lifecycle.repeated nowMs) lifecycle = lifecycle := by
  induction cards with
  | nil => rfl
  | cons card cards ih =>
      have hcard : lifecycle.repeated nowMs card = lifecycle := by
        rw [Lifecycle.repeated, if_neg (by simp [hplain card List.mem_cons_self])]
        exact Lifecycle.merge_same_iff.mpr hregular
      rw [List.foldl_cons, hcard]
      exact ih fun later hlater => hplain later (List.mem_cons_of_mem _ hlater)

theorem Lifecycle.foldl_repeated_iff {nowMs : Nat} {lifecycle : Lifecycle}
    {cards : List TaskCard} (hcards : cards ≠ []) :
    cards.foldl (Lifecycle.repeated nowMs) lifecycle = lifecycle ↔
      lifecycle.Repeatable nowMs cards := by
  unfold Lifecycle.Repeatable
  split
  · rename_i hplain
    simp only [List.all_eq_true, Bool.not_eq_true'] at hplain
    cases cards with
    | nil => exact absurd rfl hcards
    | cons card cards =>
        have hfirst : lifecycle.repeated nowMs card =
            Lifecycle.merge (some lifecycle) (lifecycle.state, nowMs) := by
          rw [Lifecycle.repeated, if_neg (by simp [hplain card List.mem_cons_self])]
        have hrest := (lifecycle.regular_merge_same nowMs).foldl_repeated nowMs
          fun later hlater => hplain later (List.mem_cons_of_mem card hlater)
        rw [List.foldl_cons, hfirst, hrest]
        exact Lifecycle.merge_same_iff
  · exact Iff.rfl

/-- Merging a report of the state the card has, while no acknowledgement is at
stake. -/
theorem Entry.merge_repeated {entry : Entry} {task card : TaskCard} (nowMs : Nat)
    (hcard : entry.card = some task) (hreviewed : entry.reviewed = false)
    (hstate : card.state = task.state) :
    ((entry.merge nowMs card).card).map TaskCard.lifecycle =
        some (task.lifecycle.repeated nowMs card) ∧ (entry.merge nowMs card).reviewed = false := by
  constructor
  · have hmerged : (entry.merge nowMs card).card = some (mergeTimers (some task) card nowMs) := by
      simp [Entry.merge, hcard, hreviewed, reviewCard]
    rw [hmerged, Option.map_some]
    congr 1
    cases hauthoritative : card.timingAuthoritative with
    | true => simp [mergeTimers, Lifecycle.repeated, hauthoritative, TaskCard.lifecycle, hstate]
    | false =>
        have hplain : (mergeTimers (some task) card nowMs).lifecycle =
            Lifecycle.merge (some task.lifecycle) (card.state, nowMs) :=
          lifecycle_mergeTimers hauthoritative (by simp)
        rw [hplain, Lifecycle.repeated, if_neg (by simp [hauthoritative]), hstate]
        rfl
  · simp [Entry.merge, hreviewed]

/-- Merging a list of them. -/
theorem Entry.foldl_merge_repeated {entry : Entry} {task : TaskCard} (nowMs : Nat)
    {cards : List TaskCard} (hcard : entry.card = some task) (hreviewed : entry.reviewed = false)
    (hstate : ∀ card ∈ cards, card.state = task.state) :
    ((cards.foldl (Entry.merge nowMs) entry).card).map TaskCard.lifecycle =
        some (cards.foldl (Lifecycle.repeated nowMs) task.lifecycle) ∧
      (cards.foldl (Entry.merge nowMs) entry).reviewed = false := by
  induction cards generalizing entry task with
  | nil => exact ⟨by rw [List.foldl_nil, List.foldl_nil, hcard]; rfl, hreviewed⟩
  | cons card cards ih =>
      obtain ⟨hlifecycle, hreviewed'⟩ :=
        Entry.merge_repeated nowMs hcard hreviewed (hstate card List.mem_cons_self)
      obtain ⟨merged, hmerged, hsame⟩ := Option.map_eq_some_iff.mp hlifecycle
      have hstate' : merged.state = task.state := by
        have h := congrArg Lifecycle.state hsame
        rw [Lifecycle.repeated_state] at h
        exact h
      rw [List.foldl_cons, List.foldl_cons, ← hsame]
      exact ih hmerged hreviewed' fun later hlater =>
        (hstate later (List.mem_cons_of_mem _ hlater)).trans hstate'.symm

namespace TaskBoard

variable {order : WalkOrder} {board : TaskBoard}

/-! ## Echo frames -/

/-- The echo of a card's own state, if the frame is read as a redraw. -/
def HidUpdate.Repeats (echoing : Bool) (update : HidUpdate) : Prop :=
  ∀ previous, update.previous = some previous → update.observed = previous.state ∨
    (echoing = true ∧ isSelectionTransition previous.state update.observed = true)

/-- Such an entry is settled to the state the card has. -/
theorem HidUpdate.Repeats.settled {echoing : Bool} {update : HidUpdate}
    (h : update.Repeats echoing) (hobserved : update.observed = update.card.state)
    {previous : TaskCard} (hprevious : update.previous = some previous) :
    (update.settled echoing).state = previous.state := by
  unfold HidUpdate.settled
  rw [hprevious]
  simp only
  split
  · rfl
  · rename_i hplain
    rcases h previous hprevious with hsame | ⟨hechoing, htransition⟩
    · exact hobserved.symm.trans hsame
    · rw [hechoing, htransition] at hplain
      exact absurd rfl hplain

/-- Settling keeps the timestamps of the entry. -/
theorem settled_timers (echoing : Bool) (update : HidUpdate) :
    (update.settled echoing).timingAuthoritative = update.card.timingAuthoritative ∧
      (update.settled echoing).startedAtMs = update.card.startedAtMs ∧
        (update.settled echoing).finishedAtMs = update.card.finishedAtMs := by
  unfold HidUpdate.settled
  cases update.previous with
  | none => exact ⟨rfl, rfl, rfl⟩
  | some previous =>
      simp only
      split
      · exact ⟨rfl, rfl, rfl⟩
      · exact ⟨rfl, rfl, rfl⟩

/-- Settled entries repeat what the entries themselves repeat. -/
theorem foldl_repeated_settled (nowMs : Nat) (echoing : Bool) (id : String)
    (updates : List HidUpdate) (lifecycle : Lifecycle) :
    ((updates.map (HidUpdate.settled echoing)).filter (·.taskId == id)).foldl
        (Lifecycle.repeated nowMs) lifecycle =
      ((updates.map HidUpdate.card).filter (·.taskId == id)).foldl
        (Lifecycle.repeated nowMs) lifecycle := by
  induction updates generalizing lifecycle with
  | nil => rfl
  | cons update updates ih =>
      obtain ⟨hauthoritative, hstarted, hfinished⟩ := settled_timers echoing update
      rw [List.map_cons, List.map_cons, List.filter_cons, List.filter_cons,
        (settled_owned echoing update).1]
      split
      · rw [List.foldl_cons, List.foldl_cons, ih]
        unfold Lifecycle.repeated
        rw [hauthoritative, hstarted, hfinished]
      · exact ih lifecycle

/-- The updates an accepted HID frame reads. -/
def frameUpdates (board : TaskBoard) (value : Value) (nowMs : Nat) : Option (List HidUpdate) :=
  value.asArray.bind fun entries =>
    ((board.dropExpiredGuards nowMs).hidUpdates entries nowMs).toOption

/-- The frame is read as a redraw: a selection guard is active, or it hands the
selection off. -/
def readsAsEcho (board : TaskBoard) (updates : List HidUpdate) (nowMs : Nat) : Bool :=
  !(board.dropExpiredGuards nowMs).selectionActivationGuards.isEmpty || selectionHandoff updates

/-- Every entry for a card of the board repeats the card's state or echoes a
selection. -/
def EchoFrame (board : TaskBoard) (value : Value) (nowMs : Nat) : Prop :=
  ∀ updates, board.frameUpdates value nowMs = some updates →
    ∀ update ∈ updates, update.Repeats (board.readsAsEcho updates nowMs)

/-- Every card keeps its state and timers, and the same cards are acknowledged. -/
def Neutral (before after : TaskBoard) : Prop :=
  (∀ (id : String) task, before.tasks[id]? = some task →
    (after.tasks[id]?).map TaskCard.lifecycle = some task.lifecycle) ∧
    ∀ id, after.Acknowledged id ↔ before.Acknowledged id

/-- No card the frame mentions is acknowledged, and the reports of each leave its
timers. -/
def Undisturbed (board : TaskBoard) (value : Value) (nowMs : Nat) : Prop :=
  ∀ updates, board.frameUpdates value nowMs = some updates → ∀ id task,
    board.tasks[id]? = some task → id ∈ updates.map (·.card.taskId) →
      ¬board.Acknowledged id ∧ task.lifecycle.Repeatable nowMs
        ((updates.map HidUpdate.card).filter (·.taskId == id))

theorem mergedCards_frame {value : Value} {nowMs : Nat} {updates : List HidUpdate}
    (h : board.frameUpdates value nowMs = some updates) :
    board.mergedCards (.publishCodexHidStatus value nowMs) =
      some (updates.map (HidUpdate.settled (board.readsAsEcho updates nowMs)), nowMs) := by
  obtain ⟨entries, hentries, hupdates⟩ := Option.bind_eq_some_iff.mp h
  rw [mergedCards, hentries, Option.bind_some, hupdates]
  rfl

theorem settled_names (echoing : Bool) (updates : List HidUpdate) :
    (updates.map (HidUpdate.settled echoing)).map TaskCard.taskId =
      updates.map (·.card.taskId) := by
  rw [List.map_map]
  exact List.map_congr_left fun update _ => (settled_owned echoing update).1

/-- An entry that no accepted frame mentions stays. -/
theorem entry_of_unnamed {value : Value} {nowMs : Nat} (order : WalkOrder) {id : String}
    (h : ∀ updates, board.frameUpdates value nowMs = some updates →
      id ∉ updates.map (·.card.taskId)) :
    (board.apply order (.publishCodexHidStatus value nowMs)).entry id = board.entry id := by
  have hstep := apply_cardStep order board (.publishCodexHidStatus value nowMs) id
  generalize (board.apply order (.publishCodexHidStatus value nowMs)).entry id = after at hstep
  cases hstep with
  | kept => rfl
  | published hmerged hnamed =>
      obtain ⟨entries, hentries, hread⟩ := Option.bind_eq_some_iff.mp hmerged
      obtain ⟨updates, hupdates, heq⟩ := Option.map_eq_some_iff.mp hread
      obtain ⟨rfl, rfl⟩ := Prod.mk.inj heq
      rw [settled_names] at hnamed
      refine absurd hnamed (h updates ?_)
      rw [frameUpdates, hentries]
      exact hupdates
  | removed _ hremoves =>
      cases hremoves with
      | unlisted _ hreplaces => cases hreplaces
  | acknowledged _ _ hacknowledges => cases hacknowledges

/-- What an echo frame makes of the entry of one card. -/
theorem entry_of_echoFrame {value : Value} {nowMs : Nat} {updates : List HidUpdate}
    (order : WalkOrder) {id : String} {task : TaskCard}
    (hupdates : board.frameUpdates value nowMs = some updates)
    (hecho : board.EchoFrame value nowMs) (htask : board.tasks[id]? = some task)
    (hnamed : id ∈ updates.map (·.card.taskId)) :
    let after := board.apply order (.publishCodexHidStatus value nowMs)
    let cards := (updates.map HidUpdate.card).filter (·.taskId == id)
    (task.state ≠ .completed → board.Acknowledged id → ¬after.Acknowledged id) ∧
      (¬board.Acknowledged id → ¬after.Acknowledged id ∧ (after.tasks[id]?).map TaskCard.lifecycle =
        some (cards.foldl (Lifecycle.repeated nowMs) task.lifecycle)) := by
  intro after cards
  let echoing := board.readsAsEcho updates nowMs
  let settled := (updates.map (HidUpdate.settled echoing)).filter (·.taskId == id)
  have hsettledNamed : id ∈ (updates.map (HidUpdate.settled echoing)).map TaskCard.taskId :=
    settled_names echoing updates ▸ hnamed
  have hafter : after.entry id = settled.foldl (Entry.merge nowMs) (board.entry id) :=
    apply_entry_of_mergedCards order (mergedCards_frame hupdates) hsettledNamed
  have hstates : ∀ card ∈ settled, card.state = task.state := by
    intro card hcard
    obtain ⟨hmem, hid⟩ := List.mem_filter.mp hcard
    obtain ⟨update, hupdate, rfl⟩ := List.mem_map.mp hmem
    rw [beq_iff_eq, (settled_owned echoing update).1] at hid
    obtain ⟨entries, -, hread⟩ := Option.bind_eq_some_iff.mp hupdates
    obtain ⟨_, _, -, -, hok⟩ := hidUpdates_ok (toOption_eq_some_iff.mp hread) update hupdate
    have hprevious : update.previous = some task := by
      rw [hok.previous, hid]
      exact htask
    exact (hecho updates hupdates update hupdate).settled hok.observed hprevious
  constructor
  · intro hopen _ hacknowledged
    unfold Acknowledged at hacknowledged
    rw [hafter, Entry.reviewed_foldl_merge, Bool.and_eq_true] at hacknowledged
    obtain ⟨card, hcard, hid⟩ := List.mem_map.mp hsettledNamed
    have hsettled : card ∈ settled := List.mem_filter.mpr ⟨hcard, beq_iff_eq.mpr hid⟩
    have hcompleted := List.all_eq_true.mp hacknowledged.1 card hsettled
    rw [beq_iff_eq, hstates card hsettled] at hcompleted
    exact hopen hcompleted
  · intro hreviewed
    obtain ⟨hlifecycle, hreviewed'⟩ := Entry.foldl_merge_repeated nowMs
      (show (board.entry id).card = some task from htask) (Bool.not_eq_true _ ▸ hreviewed) hstates
    refine ⟨?_, ?_⟩
    · unfold Acknowledged
      rw [hafter, hreviewed']
      exact Bool.false_ne_true
    · show ((after.entry id).card).map TaskCard.lifecycle = _
      rw [hafter, hlifecycle, foldl_repeated_settled]

/-- On a board where acknowledged cards are not completed, an echo frame is neutral
exactly when it leaves the cards it mentions alone. -/
theorem neutral_iff {value : Value} {nowMs : Nat} (order : WalkOrder)
    (hacknowledges : board.AcknowledgesCards) (hsettled : ∀ id, (board.entry id).Settled)
    (hecho : board.EchoFrame value nowMs) :
    Neutral board (board.apply order (.publishCodexHidStatus value nowMs)) ↔
      board.Undisturbed value nowMs := by
  constructor
  · rintro ⟨hcards, hreviewed⟩ updates hupdates id task htask hnamed
    obtain ⟨hforgets, hkeeps⟩ := entry_of_echoFrame order hupdates hecho htask hnamed
    have hopen : ¬board.Acknowledged id := by
      intro hack
      obtain ⟨task', htask', hstate⟩ := hsettled id hack
      have htask'' : board.tasks[id]? = some task' := htask'
      rw [htask] at htask''
      obtain rfl := Option.some.inj htask''
      exact hforgets hstate hack ((hreviewed id).mpr hack)
    refine ⟨hopen, ?_⟩
    have hlifecycle := (hkeeps hopen).2
    rw [hcards id task htask] at hlifecycle
    refine (Lifecycle.foldl_repeated_iff ?_).mp (Option.some.inj hlifecycle).symm
    obtain ⟨update, hupdate, hid⟩ := List.mem_map.mp hnamed
    exact List.ne_nil_of_mem (List.mem_filter.mpr
      ⟨List.mem_map.mpr ⟨update, hupdate, rfl⟩, beq_iff_eq.mpr hid⟩)
  · intro hundisturbed
    have hentry : ∀ (id : String), (∃ updates, board.frameUpdates value nowMs = some updates ∧
          id ∈ updates.map (·.card.taskId)) ∨
        (board.apply order (.publishCodexHidStatus value nowMs)).entry id = board.entry id := by
      intro id
      by_cases hnamed : ∃ updates, board.frameUpdates value nowMs = some updates ∧
          id ∈ updates.map (·.card.taskId)
      · exact Or.inl hnamed
      · exact Or.inr (entry_of_unnamed order fun updates hupdates hid =>
          hnamed ⟨updates, hupdates, hid⟩)
    constructor
    · intro id task htask
      rcases hentry id with ⟨updates, hupdates, hnamed⟩ | hsame
      · obtain ⟨hopen, hrepeats⟩ := hundisturbed updates hupdates id task htask hnamed
        obtain ⟨-, hkeeps⟩ := entry_of_echoFrame order hupdates hecho htask hnamed
        rw [(hkeeps hopen).2]
        refine congrArg some ((Lifecycle.foldl_repeated_iff ?_).mpr hrepeats)
        obtain ⟨update, hupdate, hid⟩ := List.mem_map.mp hnamed
        exact List.ne_nil_of_mem (List.mem_filter.mpr
          ⟨List.mem_map.mpr ⟨update, hupdate, rfl⟩, beq_iff_eq.mpr hid⟩)
      · rw [show (board.apply order (.publishCodexHidStatus value nowMs)).tasks[id]? =
          some task from (congrArg Entry.card hsame).trans htask]
        rfl
    · intro id
      rcases hentry id with ⟨updates, hupdates, hnamed⟩ | hsame
      · have hnone : ¬board.Acknowledged id ∧
            ¬(board.apply order (.publishCodexHidStatus value nowMs)).Acknowledged id := by
          cases htask : board.tasks[id]? with
          | some task =>
              obtain ⟨hopen, -⟩ := hundisturbed updates hupdates id task htask hnamed
              exact ⟨hopen, ((entry_of_echoFrame order hupdates hecho htask hnamed).2 hopen).1⟩
          | none =>
              have hreviewed : (board.entry id).reviewed = false :=
                contains_eq_false_iff.mpr (hacknowledges id htask)
              have hnamed' := settled_names (board.readsAsEcho updates nowMs) updates ▸ hnamed
              unfold Acknowledged
              rw [apply_entry_of_mergedCards order (mergedCards_frame hupdates) hnamed',
                Entry.reviewed_foldl_merge, hreviewed, Bool.and_false]
              exact ⟨Bool.false_ne_true, Bool.false_ne_true⟩
        exact ⟨fun h => absurd h hnone.2, fun h => absurd h hnone.1⟩
      · unfold Acknowledged
        rw [hsame]

/-- On a reachable board an echo frame keeps the state and timers of every card and
the acknowledged completions if and only if no card it mentions is acknowledged and
the reports of each leave its timers. -/
theorem echo_neutrality (steps : List (WalkOrder × Op)) (order : WalkOrder) (value : Value)
    (nowMs : Nat) (hecho : (run steps default).EchoFrame value nowMs) :
    Neutral (run steps default)
        ((run steps default).apply order (.publishCodexHidStatus value nowMs)) ↔
      (run steps default).Undisturbed value nowMs :=
  neutral_iff order (acknowledgesCards_run steps) (settled_run steps) hecho

/-- Every entry repeats or echoes, as a test. -/
def echoesFrame (board : TaskBoard) (value : Value) (nowMs : Nat) : Bool :=
  (board.frameUpdates value nowMs).all fun updates => updates.all fun update =>
    update.previous.all fun previous => update.observed == previous.state ||
      (board.readsAsEcho updates nowMs && isSelectionTransition previous.state update.observed)

theorem echoFrame_of_echoesFrame {value : Value} {nowMs : Nat}
    (h : board.echoesFrame value nowMs = true) : board.EchoFrame value nowMs := by
  intro updates hupdates update hupdate previous hprevious
  rw [echoesFrame, hupdates, Option.all_some] at h
  have hentry := List.all_eq_true.mp h update hupdate
  rw [hprevious, Option.all_some, Bool.or_eq_true, Bool.and_eq_true, beq_iff_eq] at hentry
  exact hentry

/-- The timers of the mentioned cards stay, as a test for entries without timestamps
of their own. -/
def leavesTimers (board : TaskBoard) (value : Value) (nowMs : Nat) : Bool :=
  (board.frameUpdates value nowMs).all fun updates => updates.all fun update =>
    !update.card.timingAuthoritative && (!(board.entry update.card.taskId).reviewed &&
      (board.tasks[update.card.taskId]?).all fun task =>
        decide (Lifecycle.merge (some task.lifecycle) (task.state, nowMs) = task.lifecycle))

theorem undisturbed_of_leavesTimers {value : Value} {nowMs : Nat}
    (h : board.leavesTimers value nowMs = true) : board.Undisturbed value nowMs := by
  intro updates hupdates id task htask hnamed
  rw [leavesTimers, hupdates, Option.all_some, List.all_eq_true] at h
  obtain ⟨update, hupdate, rfl⟩ := List.mem_map.mp hnamed
  have hentry := h update hupdate
  rw [Bool.and_eq_true, Bool.and_eq_true, htask, Option.all_some] at hentry
  obtain ⟨-, hopen, hregular⟩ := hentry
  refine ⟨by simpa [Acknowledged] using hopen, ?_⟩
  unfold Lifecycle.Repeatable
  rw [if_pos]
  · exact Lifecycle.merge_same_iff.mp (of_decide_eq_true hregular)
  · refine List.all_eq_true.mpr fun card hcard => ?_
    obtain ⟨other, hother, rfl⟩ := List.mem_map.mp (List.mem_filter.mp hcard).1
    exact (Bool.and_eq_true_iff.mp (h other hother)).1

/-- A HID frame that paints the given positions in the given colors. -/
def hidFrame (cards : List (Nat × Nat)) : Value :=
  .array (cards.map fun card =>
    .object [("id", .ofNat card.1), ("c", .ofNat card.2), ("b", .ofNat 1)])

/-- A frame arrives, and the key of one of its cards is pressed. -/
def pressed (cards : List (Nat × Nat)) (id : String) : List (WalkOrder × Op) :=
  [(.ascending, .setDevice "primary" 6 true),
    (.ascending, .publishCodexHidStatus (hidFrame cards) 10),
    (.ascending, .selectTask id 20), (.ascending, .guardSelectionActivation id 20)]

/-- The press of an idle card is echoed as a swap with the running one, and neither
card changes. -/
theorem echo_neutrality_swap :
    Neutral (run (pressed [(0, 0x1565c0), (1, 0x37474f)] "codex-hid:1") default)
      ((run (pressed [(0, 0x1565c0), (1, 0x37474f)] "codex-hid:1") default).apply .ascending
        (.publishCodexHidStatus (hidFrame [(0, 0x37474f), (1, 0x1565c0)]) 30)) :=
  (echo_neutrality _ .ascending _ 30 (echoFrame_of_echoesFrame (by decide +kernel))).mpr
    (undisturbed_of_leavesTimers (by decide +kernel))

/-- The press of a completed card acknowledges it, its echo forgets that, and the next
frame shows the card as completed again. -/
theorem echo_forgets_acknowledgement :
    let board := run (pressed [(0, 0x2e7d32)] "codex-hid:0") default
    let echoed := board.apply .ascending (.publishCodexHidStatus (hidFrame [(0, 0x1565c0)]) 30)
    board.EchoFrame (hidFrame [(0, 0x1565c0)]) 30 ∧ board.Acknowledged "codex-hid:0" ∧
      ¬Neutral board echoed ∧
        (echoed.apply .ascending (.publishCodexHidStatus (hidFrame [(0, 0x2e7d32)]) 40)).Shows
          "codex-hid:0" .completed := by
  intro board echoed
  have hacknowledged : board.Acknowledged "codex-hid:0" := by decide +kernel
  have hforgotten : ¬echoed.Acknowledged "codex-hid:0" := by decide +kernel
  have hshown : ((echoed.apply .ascending (.publishCodexHidStatus (hidFrame [(0, 0x2e7d32)])
      40)).tasks["codex-hid:0"]?).map (·.state) = some .completed := by decide +kernel
  refine ⟨echoFrame_of_echoesFrame (by decide +kernel), hacknowledged, ?_, ?_⟩
  · exact fun hneutral => hforgotten ((hneutral.2 _).mpr hacknowledged)
  · exact Option.map_eq_some_iff.mp hshown

end TaskBoard
end Tasks
end MicroEmu
