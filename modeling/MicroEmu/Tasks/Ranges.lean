import MicroEmu.Json.Text
import MicroEmu.Tasks.CardSteps

/-!
# The ranges of what a card stores

Every publication path reads its entries through `parse_task`, whose checks bound what a card
stores, and what the board does to a card afterwards stays within those bounds.  The one check
that does not hold what it says is the check of the progress: it bounds the value by its type
and not by the hundred of its message.
-/

namespace MicroEmu
namespace Tasks

open Json (Value charCount)
open Routing (AgentId)
open Library

/-! ## What the checks of an entry bound -/

theorem checkTaskId_eq_ok_iff {taskId : String} :
    checkTaskId taskId = .ok () ↔ 1 ≤ charCount taskId ∧ charCount taskId ≤ 160 := by
  have hpos : 1 ≤ charCount taskId ↔ taskId ≠ "" := by
    rw [← not_iff_not, not_ne_iff, Nat.not_le, Nat.lt_one_iff]
    unfold charCount
    rw [List.length_eq_zero_iff, String.toList_eq_nil_iff]
  unfold checkTaskId
  split
  next hbad =>
    simp only [reduceCtorEq, false_iff]
    rintro ⟨hone, hle⟩
    rcases hbad with hempty | hlong
    · exact hpos.mp hone hempty
    · omega
  next hgood =>
    simp only [true_iff]
    exact ⟨hpos.mpr fun hempty => hgood (Or.inl hempty), by
      by_contra hlong
      exact hgood (Or.inr (by omega))⟩

theorem parsePriority_le {item : Value} {priority : Nat} (h : parsePriority item = .ok priority) :
    priority ≤ 100 := by
  unfold parsePriority at h
  simp only at h
  split at h
  · cases h
  next hle =>
    obtain rfl := Except.ok.inj h
    omega

/-- A progress is one the entry names, as an integer that fits a byte. -/
theorem parseProgress_eq_some {item : Value} {progress : Nat}
    (h : parseProgress item = .ok (some progress)) :
    (item.get? "progress").bind Value.asU64 = some progress ∧ progress < 256 := by
  unfold parseProgress at h
  split at h
  · cases h
  · cases h
  next value hvalue =>
    rw [hvalue]
    split at h
    · cases h
    next number hnumber =>
      split at h
      next hlt =>
        obtain rfl := Option.some.inj (Except.ok.inj h)
        exact ⟨hnumber, hlt⟩
      · cases h

theorem parseColor_le {field : Option Value} {color : Nat}
    (h : parseColor field = .ok (some color)) : color ≤ 0xFFFFFF := by
  unfold parseColor at h
  split at h
  · cases h
  · cases h
  · split at h
    · obtain rfl := Option.some.inj (Except.ok.inj h)
      omega
    · cases h
  · simp only at h
    split at h
    · cases h
    next hsix =>
      split at h
      next n hn =>
        obtain rfl := Option.some.inj (Except.ok.inj h)
        have hlt := Json.parseUnsigned_lt (by omega) hn
        rw [not_not.mp hsix] at hlt
        omega
      · cases h
  · cases h

/-- Rounding stays below a whole bound. -/
theorem f64Round_toNat_le {q : Json.F64} (hnonneg : 0 ≤ q) (hle : q ≤ 100) :
    (Json.f64Round q).toNat ≤ 100 := by
  unfold Json.f64Round
  rw [if_pos hnonneg]
  have hfloor : ⌊q + 1 / 2⌋ < 101 := by
    rw [Int.floor_lt]
    push_cast
    linarith
  omega

theorem parseBrightness_le {field : Option Value} {brightness : Nat}
    (h : parseBrightness field = .ok brightness) : brightness ≤ 100 := by
  unfold parseBrightness at h
  split at h
  · obtain rfl := Except.ok.inj h
    omega
  · obtain rfl := Except.ok.inj h
    omega
  next value =>
    simp only at h
    generalize (if value.asF64 ≤ 1 then Json.toF64 (value.asF64 * 100) else value.asF64) =
      normalized at h
    split at h
    next hrange =>
      obtain rfl := Except.ok.inj h
      exact f64Round_toNat_le hrange.1 hrange.2
    · cases h
  · cases h

theorem charCount_textField {item : Value} {key text : String}
    (h : textField item key = some text) : charCount text ≤ 160 := by
  unfold textField at h
  obtain ⟨whole, -, rfl⟩ := Option.map_eq_some_iff.mp h
  exact Json.charCount_takeChars_le 160 whole

theorem charCount_cardTitle (item : Value) (legacyKey : Option String) :
    charCount (cardTitle item legacyKey) ≤ 160 := by
  unfold cardTitle
  simp only
  split
  · exact Nat.zero_le _
  · cases htitle : textField item "title" with
    | some title => exact charCount_textField htitle
    | none =>
        cases htask : textField item "task" with
        | some title => exact charCount_textField htask
        | none =>
            cases (item.get? "t").bind Value.asStr with
            | none => exact Nat.zero_le _
            | some text => exact Json.charCount_takeChars_le 160 text

/-! ## The card of an entry -/

/-- The ranges of what a card stores; `limit` is the greatest progress. -/
structure TaskCard.Bounded (limit : Nat) (card : TaskCard) : Prop where
  taskId : 1 ≤ charCount card.taskId ∧ charCount card.taskId ≤ 160
  title : charCount card.title ≤ 160
  priority : card.priority ≤ 100
  brightness : card.brightness ≤ 100
  progress : ∀ progress, card.progress = some progress → progress ≤ limit
  color : ∀ color, card.color = some color → color ≤ 0xFFFFFF

/-- The progress of an entry, when it is one that the check of the progress accepts. -/
def entryProgress (entry : Value) : Option Nat :=
  ((entry.get? "progress").bind Value.asU64).filter (· < 256)

theorem bounded_of_parseTask {session nowMs limit : Nat} {agent : AgentId} {item : Value}
    {legacy : Option (String × String)} {card : TaskCard}
    (h : parseTask session agent item nowMs legacy = .ok card)
    (hprogress : ∀ progress, entryProgress item = some progress → progress ≤ limit) :
    card.Bounded limit := by
  unfold parseTask at h
  split at h
  · cases h
  obtain ⟨⟨taskId, key⟩, -, h⟩ := bind_eq_ok.mp h
  obtain ⟨_, htaskId, h⟩ := bind_eq_ok.mp h
  obtain ⟨_, -, h⟩ := bind_eq_ok.mp h
  obtain ⟨_, -, h⟩ := bind_eq_ok.mp h
  obtain ⟨_, hpriority, h⟩ := bind_eq_ok.mp h
  obtain ⟨_, hparsed, h⟩ := bind_eq_ok.mp h
  obtain ⟨_, hcolor, h⟩ := bind_eq_ok.mp h
  obtain ⟨_, hbrightness, h⟩ := bind_eq_ok.mp h
  obtain ⟨_, -, h⟩ := bind_eq_ok.mp h
  obtain ⟨_, -, h⟩ := bind_eq_ok.mp h
  obtain rfl := pure_eq_ok.mp h
  refine ⟨checkTaskId_eq_ok_iff.mp htaskId, charCount_cardTitle _ _, parsePriority_le hpriority,
    parseBrightness_le hbrightness, ?_, ?_⟩
  · rintro progress rfl
    obtain ⟨hnumber, hlt⟩ := parseProgress_eq_some hparsed
    exact hprogress progress (Option.filter_eq_some_iff.mpr ⟨hnumber, decide_eq_true hlt⟩)
  · rintro color rfl
    exact parseColor_le hcolor

/-! ## What a publication turns into cards -/

/-- The entries a publication reads cards from: the listed tasks, or those of a status array that
it does not skip. -/
def Op.Reads : Op → Value → Prop
  | .publishTasks _ _ value _, entry | .publishCodexSnapshot value _, entry =>
      ∃ items, (value.get? "tasks").bind Value.asArray = some items ∧ entry ∈ items
  | .publishLegacyStatus _ _ value _, entry =>
      ∃ entries, value.asArray = some entries ∧ entry ∈ entries ∧
        TaskBoard.legacyEnabled entry = true
  | .publishCodexHidStatus value _, entry =>
      ∃ entries position, value.asArray = some entries ∧ entries[position]? = some entry ∧
        position < codexHidSlots ∧ TaskBoard.hidIndex entry position < codexHidSlots ∧
          TaskBoard.hidCleared entry = false
  | _, _ => False

/-- No entry the publication reads has an acceptable progress above the limit. -/
def Op.ProgressWithin (limit : Nat) (op : Op) : Prop :=
  ∀ entry, op.Reads entry → ∀ progress, entryProgress entry = some progress → progress ≤ limit

theorem Op.progressWithin_byte (op : Op) : op.ProgressWithin 255 := by
  intro entry _ progress hprogress
  have hlt := of_decide_eq_true (Option.filter_eq_some_iff.mp hprogress).2
  omega

namespace TaskBoard

variable {order : WalkOrder} {board : TaskBoard}

/-- The publication is accepted. -/
def Accepts (board : TaskBoard) (op : Op) : Prop := (board.mergedCards op).isSome = true

/-- A card with the lifecycle of the card it redraws. -/
def redrawn (previous card : TaskCard) : TaskCard :=
  { card with
    state := previous.state
    color := some previous.state.displayColor
    brightness := previous.brightness }

/-- Every merged card is read from an entry, and a HID frame may redraw it. -/
theorem mergedCards_parsed {op : Op} {cards : List TaskCard} {nowMs : Nat}
    (h : board.mergedCards op = some (cards, nowMs)) :
    ∀ card ∈ cards, ∃ session agent entry legacy parsed, op.Reads entry ∧
      parseTask session agent entry nowMs legacy = .ok parsed ∧
        (card = parsed ∨ ∃ previous, board.tasks[parsed.taskId]? = some previous ∧
          card = redrawn previous parsed) := by
  have hlisted : ∀ {session : Nat} {agent : AgentId} {value : Value} {cards : List TaskCard},
      board.publishedCards session agent value nowMs = .ok cards → ∀ card ∈ cards,
        ∃ items entry, (value.get? "tasks").bind Value.asArray = some items ∧ entry ∈ items ∧
          parseTask session agent entry nowMs none = .ok card := by
    intro session agent value cards hcards card hcard
    unfold publishedCards at hcards
    split at hcards
    · cases hcards
    next items hitems =>
      obtain ⟨⟨entry, hentry, hparse⟩, -⟩ := parseReplacement_ok hcards card hcard
      exact ⟨items, entry, hitems, hentry, hparse⟩
  intro card hcard
  cases op with
  | publishTasks session agent value nowMs' =>
      obtain ⟨_, hcards, heq⟩ := Option.map_eq_some_iff.mp h
      obtain ⟨rfl, rfl⟩ := Prod.mk.inj heq
      obtain ⟨items, entry, hitems, hentry, hparse⟩ :=
        hlisted (toOption_eq_some_iff.mp hcards) card hcard
      exact ⟨session, agent, entry, none, card, ⟨items, hitems, hentry⟩, hparse, Or.inl rfl⟩
  | publishCodexSnapshot value nowMs' =>
      obtain ⟨_, hcards, heq⟩ := Option.map_eq_some_iff.mp h
      obtain ⟨rfl, rfl⟩ := Prod.mk.inj heq
      obtain ⟨items, entry, hitems, hentry, hparse⟩ :=
        hlisted (toOption_eq_some_iff.mp hcards) card hcard
      exact ⟨0, .codex, entry, none, card, ⟨items, hitems, hentry⟩, hparse, Or.inl rfl⟩
  | publishLegacyStatus session agent value nowMs' =>
      obtain ⟨_, hcards, heq⟩ := Option.map_eq_some_iff.mp h
      obtain ⟨rfl, rfl⟩ := Prod.mk.inj heq
      obtain ⟨entries, entry, index, hentries, hentry, henabled, hparse⟩ :=
        legacyCards_parsed (toOption_eq_some_iff.mp hcards) card hcard
      exact ⟨session, agent, entry, _, card,
        ⟨entries, hentries, List.mem_of_getElem? hentry, henabled⟩, hparse, Or.inl rfl⟩
  | publishCodexHidStatus value nowMs' =>
      obtain ⟨entries, hentries, h⟩ := Option.bind_eq_some_iff.mp h
      obtain ⟨updates, hupdates, heq⟩ := Option.map_eq_some_iff.mp h
      obtain ⟨rfl, rfl⟩ := Prod.mk.inj heq
      obtain ⟨update, hupdate, rfl⟩ := List.mem_map.mp hcard
      obtain ⟨entry, position, hentry, hlt, hok⟩ :=
        exists_hidUpdate_of_mem (toOption_eq_some_iff.mp hupdates) update hupdate
      obtain ⟨hindex, hlit, hparse, hprevious, -⟩ := hidUpdate_parsed hok
      refine ⟨0, .codex, entry, _, update.card,
        ⟨entries, position, hentries, hentry, hlt, hindex, hlit⟩, hparse, ?_⟩
      have hid : update.card.taskId = hidTaskId (hidIndex entry position) :=
        (parseTask_ok hparse).taskId_eq
      unfold HidUpdate.settled
      cases hcard : update.previous with
      | none => exact Or.inl rfl
      | some previous =>
          simp only
          split
          · refine Or.inr ⟨previous, ?_, rfl⟩
            rw [hid]
            exact hprevious.symm.trans hcard
          · exact Or.inl rfl
  | setDevice | clearDevices | setSlotOwners | disconnectSession | clearSession | expire | select
  | selectTask | autoSelectWaiting | guardSelectionActivation | setSelectedModel
  | restoreSlotPreferences => cases h

end TaskBoard

/-! ## What the board does to a card -/

/-- A property of cards that nothing the board does to a stored card breaks. -/
structure Kept (P : TaskCard → Prop) : Prop where
  timed : ∀ {card : TaskCard} (startedAtMs finishedAtMs : Option Nat), P card →
    P { card with startedAtMs, finishedAtMs }
  acknowledged : ∀ {card : TaskCard}, P card → P (acknowledgedCard card)
  leased : ∀ {card : TaskCard} (untilMs : Nat), P card →
    P (TaskBoard.leaseCard untilMs card)
  remodelled : ∀ {card : TaskCard} (model : String), P card → P { card with model := some model }

namespace Kept

variable {P : TaskCard → Prop} {order : WalkOrder} {board : TaskBoard}

theorem merge (hkept : Kept P) (entry : Entry) (nowMs : Nat) {card : TaskCard} (h : P card) :
    ∀ merged, (entry.merge nowMs card).card = some merged → P merged := by
  intro merged hcard
  obtain rfl := Option.some.inj hcard
  have hreviewed : P (reviewCard entry.reviewed card) := by
    unfold reviewCard
    split
    · exact hkept.acknowledged h
    · exact h
  unfold mergeTimers
  split
  · exact hreviewed
  · split
    · exact hreviewed
    · exact hkept.timed _ _ hreviewed

/-- The cards of a board have the property after an operation, if the merged ones have it. -/
theorem apply (hkept : Kept P)
    (hboard : ∀ {id : String} {task : TaskCard}, board.tasks[id]? = some task → P task) {op : Op}
    (hmerged : ∀ {cards : List TaskCard} {nowMs : Nat},
      board.mergedCards op = some (cards, nowMs) → ∀ card ∈ cards, P card)
    {id : String} {task : TaskCard} (h : (board.apply order op).tasks[id]? = some task) :
    P task := by
  have hfold : ∀ (nowMs : Nat) (cards : List TaskCard) (entry : Entry),
      (∀ card ∈ cards, P card) → (∀ old, entry.card = some old → P old) →
        ∀ merged, (cards.foldl (Entry.merge nowMs) entry).card = some merged → P merged := by
    intro nowMs cards
    induction cards with
    | nil => exact fun entry _ hold merged hcard => hold merged hcard
    | cons card cards ih =>
        intro entry hcards hold
        rw [List.foldl_cons]
        exact ih _ (fun card hcard => hcards card (List.mem_cons_of_mem _ hcard))
          (hkept.merge entry nowMs (hcards card List.mem_cons_self))
  have hcard : ((board.apply order op).entry id).card = some task := h
  have hstep := TaskBoard.apply_cardStep order board op id
  generalize (board.apply order op).entry id = entry at hstep hcard
  cases hstep with
  | kept => exact hboard hcard
  | @published _ cards nowMs hcards _ =>
      refine hfold nowMs _ _ (fun card hmem => ?_) (fun old hold => hboard hold) task hcard
      exact hmerged hcards card (List.mem_filter.mp hmem).1
  | removed => cases hcard
  | leased hold =>
      obtain rfl := Option.some.inj hcard
      exact hkept.leased _ (hboard hold)
  | acknowledged hold =>
      obtain rfl := Option.some.inj hcard
      exact hkept.acknowledged (hboard hold)
  | remodelled hold =>
      obtain rfl := Option.some.inj hcard
      exact hkept.remodelled _ (hboard hold)

/-- The cards of every board reached have the property, if each operation merges cards with it
into boards with it. -/
theorem run (hkept : Kept P) (steps : List (WalkOrder × Op))
    (hmerged : ∀ before step after, steps = before ++ step :: after →
      (∀ {id : String} {task : TaskCard},
        (TaskBoard.run before default).tasks[id]? = some task → P task) →
          ∀ {cards : List TaskCard} {nowMs : Nat},
            (TaskBoard.run before default).mergedCards step.2 = some (cards, nowMs) →
              ∀ card ∈ cards, P card)
    {id : String} {task : TaskCard} (h : (TaskBoard.run steps default).tasks[id]? = some task) :
    P task := by
  induction steps using List.reverseRecOn generalizing id task with
  | nil => cases h
  | append_singleton steps step ih =>
      have hbefore : ∀ {id : String} {task : TaskCard},
          (TaskBoard.run steps default).tasks[id]? = some task → P task := by
        refine ih fun before earlier after hsplit => hmerged before earlier (after ++ [step]) ?_
        rw [hsplit]
        simp
      unfold TaskBoard.run at h
      rw [List.foldl_append, List.foldl_cons, List.foldl_nil] at h
      exact hkept.apply hbefore (hmerged steps step [] rfl hbefore) h

end Kept

/-! ## The ranges over whole runs -/

theorem displayColor_le (state : TaskState) : state.displayColor ≤ 0xFFFFFF := by
  cases state <;> decide

theorem kept_bounded (limit : Nat) : Kept (TaskCard.Bounded limit) where
  timed := fun _ _ h => ⟨h.taskId, h.title, h.priority, h.brightness, h.progress, h.color⟩
  acknowledged := fun h => ⟨h.taskId, h.title, h.priority, h.brightness, h.progress,
    fun _ hcolor => Option.some.inj hcolor ▸ displayColor_le _⟩
  leased := fun _ h => ⟨h.taskId, h.title, h.priority, h.brightness, h.progress, h.color⟩
  remodelled := fun _ h => ⟨h.taskId, h.title, h.priority, h.brightness, h.progress, h.color⟩

namespace TaskBoard

/-- Merged cards are in range on a board whose cards are, if the entries are. -/
theorem bounded_of_mergedCards {board : TaskBoard} {limit : Nat}
    (hboard : ∀ {id : String} {task : TaskCard}, board.tasks[id]? = some task →
      task.Bounded limit) {op : Op} {cards : List TaskCard} {nowMs : Nat}
    (h : board.mergedCards op = some (cards, nowMs)) (hentries : op.ProgressWithin limit) :
    ∀ card ∈ cards, card.Bounded limit := by
  intro card hcard
  obtain ⟨_, _, entry, _, parsed, hreads, hparse, hsettled⟩ := mergedCards_parsed h card hcard
  have hparsed := bounded_of_parseTask hparse (hentries entry hreads)
  rcases hsettled with rfl | ⟨previous, hprevious, rfl⟩
  · exact hparsed
  · exact ⟨hparsed.taskId, hparsed.title, hparsed.priority, (hboard hprevious).brightness,
      hparsed.progress, fun _ hcolor => Option.some.inj hcolor ▸ displayColor_le _⟩

/-- The cards of every board reached are in range, if the accepted publications are. -/
theorem bounded_run {limit : Nat} (steps : List (WalkOrder × Op))
    (hentries : ∀ before step after, steps = before ++ step :: after →
      (run before default).Accepts step.2 → step.2.ProgressWithin limit)
    {id : String} {task : TaskCard} (h : (run steps default).tasks[id]? = some task) :
    task.Bounded limit := by
  refine (kept_bounded limit).run steps (fun before step after hsplit hboard => ?_) h
  intro cards nowMs hmerged
  refine bounded_of_mergedCards hboard hmerged (hentries before step after hsplit ?_)
  unfold Accepts
  rw [hmerged]
  rfl

/-- Every card is in range but for its progress, which is one byte; the progress is in range too
unless an accepted publication carries an entry with one above a hundred. -/
theorem cards_bounded (steps : List (WalkOrder × Op)) :
    (∀ (id : String) (task : TaskCard), (run steps default).tasks[id]? = some task →
      task.Bounded 255) ∧
      ((∀ before step after, steps = before ++ step :: after →
          (run before default).Accepts step.2 → step.2.ProgressWithin 100) →
        ∀ (id : String) (task : TaskCard), (run steps default).tasks[id]? = some task →
          task.Bounded 100) :=
  ⟨fun _ _ h => bounded_run steps (fun _ step _ _ _ => step.2.progressWithin_byte) h,
    fun hentries _ _ h => bounded_run steps hentries h⟩

/-- A card that is done, and then a publication that is rejected for its second entry. -/
def doneCard : List (WalkOrder × Op) :=
  [(.ascending, .publishTasks 1 .zCode (.object [("tasks", .array
      [.object [("task_id", .string "a"), ("progress", .ofNat 100)]])]) 10),
    (.ascending, .publishTasks 1 .zCode (.object [("tasks", .array
      [.object [("task_id", .string "a"), ("progress", .ofNat 200)], .object []])]) 20)]

theorem cards_bounded_doneCard :
    ((run doneCard default).tasks["a"]?).bind (·.progress) = some 100 ∧
      ∀ (id : String) (task : TaskCard), (run doneCard default).tasks[id]? = some task →
        task.Bounded 100 := by
  refine ⟨by decide +kernel, (cards_bounded doneCard).2 fun before step after hsplit haccepts => ?_⟩
  rcases before with _ | ⟨first, _ | ⟨second, before⟩⟩
  · obtain ⟨rfl, -⟩ := List.cons.inj hsplit
    rintro entry ⟨items, hitems, hmem⟩ progress hprogress
    obtain rfl := Option.some.inj hitems
    rw [List.mem_singleton.mp hmem] at hprogress
    exact Nat.le_of_eq (Option.some.inj hprogress).symm
  · obtain ⟨rfl, hrest⟩ := List.cons.inj hsplit
    obtain ⟨rfl, -⟩ := List.cons.inj hrest
    exact absurd haccepts (by unfold Accepts; decide +kernel)
  · have hlength := congrArg List.length hsplit
    simp [doneCard] at hlength

/-- A progress of two hundred is accepted and stored. -/
theorem progress_exceeds_hundred :
    let entry := Value.object [("task_id", .string "a"), ("progress", .ofNat 200)]
    let board := run [(.ascending, .publishTasks 1 .zCode
      (.object [("tasks", .array [entry])]) 10)] default
    (board.tasks["a"]?).bind (·.progress) = some 200 ∧
      ¬∀ (id : String) (task : TaskCard), board.tasks[id]? = some task → task.Bounded 100 := by
  intro entry board
  have hprogress : (board.tasks["a"]?).bind (·.progress) = some 200 := by decide +kernel
  refine ⟨hprogress, fun hbounded => ?_⟩
  obtain ⟨task, htask, hstored⟩ := Option.bind_eq_some_iff.mp hprogress
  have hle := (hbounded "a" task htask).progress 200 hstored
  omega

end TaskBoard

end Tasks
end MicroEmu
