import MicroEmu.Tasks.Merge

/-!
# What a publication reads

The four publication paths read their cards differently: `publish_tasks` checks
ownership and refuses a repeated id, a legacy status skips disabled entries, a
HID frame skips cleared and out of range ones.  The lemmas below say which cards
a path accepts and whom it reads them for.
-/

namespace MicroEmu
namespace Tasks

open Json (Value)
open Routing (AgentId)
open Library

/-- The session and agent an operation publishes cards for. -/
def Op.publisher : Op → Option (Nat × AgentId)
  | .publishTasks session agent _ _ | .publishLegacyStatus session agent _ _ =>
      some (session, agent)
  | .publishCodexSnapshot .. | .publishCodexHidStatus .. => some (0, .codex)
  | _ => none

/-- The ids under which a publication files cards: the ids its entries carry, or
those the board synthesises for the entries it does not skip. -/
def Op.Names : Op → String → Prop
  | .publishTasks _ _ value _, id | .publishCodexSnapshot value _, id =>
      ∃ items item key, (value.get? "tasks").bind Value.asArray = some items ∧ item ∈ items ∧
        taskIdentity item none = .ok (id, key)
  | .publishLegacyStatus session _ value _, id =>
      ∃ entries entry index, value.asArray = some entries ∧ entries[index]? = some entry ∧
        TaskBoard.legacyEnabled entry = true ∧ id = TaskBoard.legacyTaskId session index
  | .publishCodexHidStatus value _, id =>
      ∃ entries entry position, value.asArray = some entries ∧
        entries[position]? = some entry ∧ position < codexHidSlots ∧
          TaskBoard.hidIndex entry position < codexHidSlots ∧
            TaskBoard.hidCleared entry = false ∧
              id = TaskBoard.hidTaskId (TaskBoard.hidIndex entry position)
  | _, _ => False

namespace TaskBoard

variable {order : WalkOrder} {board : TaskBoard}

/-! ## `publish_tasks` -/

/-- The session may write the card: nobody has it, it is the session's own, or it
is leased and of the same agent. -/
theorem checkOwner_eq_ok_iff {session : Nat} {agent : AgentId} {id : String} :
    board.checkOwner session agent id = .ok () ↔
      ∀ existing, board.tasks[id]? = some existing → existing.ownerSession = session ∨
        (existing.ownerAgent = agent ∧ existing.reconnectUntilMs.isSome = true) := by
  unfold checkOwner
  cases hexisting : board.tasks[id]? with
  | none => simp
  | some existing =>
      simp only [Option.some.injEq, forall_eq']
      split
      · rename_i hforeign
        simp only [reduceCtorEq, false_iff, not_or]
        exact hforeign
      · rename_i hallowed
        simp only [true_iff]
        by_cases hsession : existing.ownerSession = session
        · exact Or.inl hsession
        · exact Or.inr (not_not.mp fun hlease => hallowed ⟨hsession, hlease⟩)

/-- One accepted entry and the entries after it. -/
theorem parseReplacement_cons {session nowMs : Nat} {agent : AgentId} {item : Value}
    {items : List Value} {seen : List String} {cards : List TaskCard}
    (h : board.parseReplacement session agent nowMs (item :: items) seen = .ok cards) :
    ∃ card rest, cards = card :: rest ∧ parseTask session agent item nowMs none = .ok card ∧
      board.checkOwner session agent card.taskId = .ok () ∧ card.taskId ∉ seen ∧
      board.parseReplacement session agent nowMs items (card.taskId :: seen) = .ok rest := by
  unfold parseReplacement at h
  obtain ⟨card, hcard, h⟩ := bind_eq_ok.mp h
  obtain ⟨⟨⟩, howner, h⟩ := bind_eq_ok.mp h
  split at h
  · cases h
  · rename_i hseen
    obtain ⟨rest, hrest, h⟩ := bind_eq_ok.mp h
    obtain rfl := pure_eq_ok.mp h
    exact ⟨card, rest, rfl, hcard, howner, hseen, hrest⟩

/-- Every card of an accepted list is read from one of its entries, and the
session may write it. -/
theorem parseReplacement_ok {session nowMs : Nat} {agent : AgentId} {items : List Value}
    {seen : List String} {cards : List TaskCard}
    (h : board.parseReplacement session agent nowMs items seen = .ok cards) :
    ∀ card ∈ cards, (∃ item ∈ items, parseTask session agent item nowMs none = .ok card) ∧
      board.checkOwner session agent card.taskId = .ok () := by
  induction items generalizing seen cards with
  | nil =>
      cases h
      simp
  | cons item items ih =>
      obtain ⟨card, rest, rfl, hcard, howner, -, hrest⟩ := parseReplacement_cons h
      intro c hc
      rcases List.mem_cons.mp hc with rfl | hc
      · exact ⟨⟨item, List.mem_cons_self, hcard⟩, howner⟩
      · obtain ⟨⟨item', hitem, hparse⟩, hown⟩ := ih hrest c hc
        exact ⟨⟨item', List.mem_cons_of_mem _ hitem, hparse⟩, hown⟩

/-- An accepted list names every task once. -/
theorem parseReplacement_nodup {session nowMs : Nat} {agent : AgentId} {items : List Value}
    {seen : List String} {cards : List TaskCard}
    (h : board.parseReplacement session agent nowMs items seen = .ok cards) :
    (cards.map TaskCard.taskId).Nodup ∧ ∀ card ∈ cards, card.taskId ∉ seen := by
  induction items generalizing seen cards with
  | nil =>
      cases h
      simp
  | cons item items ih =>
      obtain ⟨card, rest, rfl, -, -, hseen, hrest⟩ := parseReplacement_cons h
      obtain ⟨hnodup, hfresh⟩ := ih hrest
      constructor
      · rw [List.map_cons, List.nodup_cons]
        refine ⟨fun hmem => ?_, hnodup⟩
        obtain ⟨c, hc, hid⟩ := List.mem_map.mp hmem
        exact hfresh c hc (hid ▸ List.mem_cons_self)
      · intro c hc
        rcases List.mem_cons.mp hc with rfl | hc
        · exact hseen
        · exact fun hmem => hfresh c hc (List.mem_cons_of_mem _ hmem)

/-- The accepted cards are filed under the ids of the entries. -/
theorem parseReplacement_names {session nowMs : Nat} {agent : AgentId} {items : List Value}
    {seen : List String} {cards : List TaskCard}
    (h : board.parseReplacement session agent nowMs items seen = .ok cards) (id : String) :
    id ∈ cards.map TaskCard.taskId ↔
      ∃ item key, item ∈ items ∧ taskIdentity item none = .ok (id, key) := by
  induction items generalizing seen cards with
  | nil =>
      cases h
      simp
  | cons item items ih =>
      obtain ⟨card, rest, rfl, hcard, -, -, hrest⟩ := parseReplacement_cons h
      obtain ⟨key, hidentity, -⟩ := (parseTask_ok hcard).identity
      rw [List.map_cons, List.mem_cons, ih hrest]
      constructor
      · rintro (rfl | ⟨other, key', hmem, hother⟩)
        · exact ⟨item, key, List.mem_cons_self, hidentity⟩
        · exact ⟨other, key', List.mem_cons_of_mem _ hmem, hother⟩
      · rintro ⟨other, key', hmem, hother⟩
        rcases List.mem_cons.mp hmem with rfl | hmem
        · rw [hidentity] at hother
          exact Or.inl (congrArg Prod.fst (Except.ok.inj hother)).symm
        · exact Or.inr ⟨other, key', hmem, hother⟩

theorem publishedCards_names {session nowMs : Nat} {agent : AgentId} {value : Value}
    {cards : List TaskCard} (h : board.publishedCards session agent value nowMs = .ok cards)
    (id : String) :
    id ∈ cards.map TaskCard.taskId ↔ (Op.publishTasks session agent value nowMs).Names id := by
  unfold publishedCards at h
  split at h
  · cases h
  · rename_i items hitems
    rw [parseReplacement_names h]
    constructor
    · rintro ⟨item, key, hmem, hidentity⟩
      exact ⟨items, item, key, hitems, hmem, hidentity⟩
    · rintro ⟨items', item, key, hitems', hmem, hidentity⟩
      rw [hitems] at hitems'
      obtain rfl := Option.some.inj hitems'
      exact ⟨item, key, hmem, hidentity⟩

theorem publishedCards_ok {session nowMs : Nat} {agent : AgentId} {value : Value}
    {cards : List TaskCard} (h : board.publishedCards session agent value nowMs = .ok cards) :
    ∀ card ∈ cards, (∃ item, ParsedFrom session agent item nowMs none card) ∧
      board.checkOwner session agent card.taskId = .ok () := by
  unfold publishedCards at h
  split at h
  · cases h
  · intro card hcard
    obtain ⟨⟨item, -, hparse⟩, howner⟩ := parseReplacement_ok h card hcard
    exact ⟨⟨item, parseTask_ok hparse⟩, howner⟩

/-! ## `publish_legacy_status` -/

/-- A card of a legacy status is read from an enabled entry, under the id of the
entry's place. -/
theorem legacyCards_parsed {session nowMs : Nat} {agent : AgentId} {value : Value}
    {cards : List TaskCard} (h : legacyCards session agent value nowMs = .ok cards) :
    ∀ card ∈ cards, ∃ entries entry index, value.asArray = some entries ∧
      entries[index]? = some entry ∧ legacyEnabled entry = true ∧
        parseTask session agent entry nowMs
          (some (legacyTaskId session index, keyLabel index)) = .ok card := by
  unfold legacyCards at h
  cases hentries : value.asArray with
  | none =>
      rw [hentries] at h
      cases h
  | some entries =>
      rw [hentries] at h
      obtain ⟨read, hread, h⟩ := bind_eq_ok.mp h
      obtain rfl := pure_eq_ok.mp h
      intro card hcard
      obtain ⟨⟨entry, index⟩, hentry, hlegacy⟩ := exists_of_mem_mapM hread hcard
      unfold legacyCard at hlegacy
      split at hlegacy
      · rename_i henabled
        obtain ⟨parsed, hparse, hlegacy⟩ := bind_eq_ok.mp hlegacy
        obtain rfl := Option.some.inj (pure_eq_ok.mp hlegacy)
        exact ⟨entries, entry, index, rfl, List.mem_zipIdx_iff_getElem?.mp hentry, henabled, hparse⟩
      · cases hlegacy

theorem legacyCards_ok {session nowMs : Nat} {agent : AgentId} {value : Value}
    {cards : List TaskCard} (h : legacyCards session agent value nowMs = .ok cards) :
    ∀ card ∈ cards, ∃ entries entry index, value.asArray = some entries ∧
      entries[index]? = some entry ∧ legacyEnabled entry = true ∧
        ParsedFrom session agent entry nowMs
          (some (legacyTaskId session index, keyLabel index)) card := by
  intro card hcard
  obtain ⟨entries, entry, index, hentries, hentry, henabled, hparse⟩ :=
    legacyCards_parsed h card hcard
  exact ⟨entries, entry, index, hentries, hentry, henabled, parseTask_ok hparse⟩

theorem legacyCards_names {session nowMs : Nat} {agent : AgentId} {value : Value}
    {cards : List TaskCard} (h : legacyCards session agent value nowMs = .ok cards)
    (id : String) :
    id ∈ cards.map TaskCard.taskId ↔
      (Op.publishLegacyStatus session agent value nowMs).Names id := by
  constructor
  · intro hid
    obtain ⟨card, hcard, rfl⟩ := List.mem_map.mp hid
    obtain ⟨entries, entry, index, hentries, hentry, henabled, hparsed⟩ :=
      legacyCards_ok h card hcard
    exact ⟨entries, entry, index, hentries, hentry, henabled, hparsed.taskId_eq⟩
  · rintro ⟨entries, entry, index, hentries, hentry, henabled, rfl⟩
    unfold legacyCards at h
    rw [hentries] at h
    obtain ⟨read, hread, h⟩ := bind_eq_ok.mp h
    obtain rfl := pure_eq_ok.mp h
    have hmem : (entry, index) ∈ entries.zipIdx := List.mem_zipIdx_iff_getElem?.mpr hentry
    obtain ⟨output, hlegacy⟩ := exists_ok_of_mem hread hmem
    have hsome := hlegacy
    unfold legacyCard at hlegacy
    rw [if_pos henabled] at hlegacy
    obtain ⟨card, hparse, hlegacy⟩ := bind_eq_ok.mp hlegacy
    obtain rfl := pure_eq_ok.mp hlegacy
    exact List.mem_map.mpr
      ⟨card, mem_mapM_of_mem hread hmem hsome, (parseTask_ok hparse).taskId_eq⟩

/-! ## `publish_codex_hid_status` -/

/-- What a HID update says about its entry. -/
structure HidRead (board : TaskBoard) (nowMs : Nat) (entry : Value) (position : Nat)
    (update : HidUpdate) : Prop where
  index_lt : hidIndex entry position < codexHidSlots
  lit : hidCleared entry = false
  previous : update.previous = board.tasks[update.card.taskId]?
  observed : update.observed = update.card.state
  parsed : ParsedFrom 0 .codex entry nowMs
    (some (hidTaskId (hidIndex entry position), keyLabel (hidIndex entry position))) update.card

/-- An update is read from an entry that is in range and lit. -/
theorem hidUpdate_parsed {nowMs : Nat} {entry : Value} {position : Nat} {update : HidUpdate}
    (h : board.hidUpdate nowMs (entry, position) = .ok (some update)) :
    hidIndex entry position < codexHidSlots ∧ hidCleared entry = false ∧
      parseTask 0 .codex entry nowMs
        (some (hidTaskId (hidIndex entry position), keyLabel (hidIndex entry position))) =
          .ok update.card ∧
        update.previous = board.tasks[hidTaskId (hidIndex entry position)]? ∧
          update.observed = update.card.state := by
  unfold hidUpdate at h
  simp only at h
  split at h
  · cases h
  · rename_i hindex
    split at h
    · cases h
    · rename_i hlit
      obtain ⟨card, hcard, h⟩ := bind_eq_ok.mp h
      obtain rfl := Option.some.inj (pure_eq_ok.mp h)
      exact ⟨by omega, by simpa using hlit, hcard, rfl, rfl⟩

theorem hidUpdate_ok {nowMs : Nat} {entry : Value} {position : Nat} {update : HidUpdate}
    (h : board.hidUpdate nowMs (entry, position) = .ok (some update)) :
    board.HidRead nowMs entry position update := by
  obtain ⟨hindex, hlit, hparse, hprevious, hobserved⟩ := hidUpdate_parsed h
  have hparsed := parseTask_ok hparse
  exact ⟨hindex, hlit, hprevious.trans (by rw [hparsed.taskId_eq]), hobserved, hparsed⟩

/-- The updates of a frame come from its first six entries. -/
theorem exists_hidUpdate_of_mem {entries : List Value} {nowMs : Nat} {updates : List HidUpdate}
    (h : board.hidUpdates entries nowMs = .ok updates) :
    ∀ update ∈ updates, ∃ entry position, entries[position]? = some entry ∧
      position < codexHidSlots ∧ board.hidUpdate nowMs (entry, position) = .ok (some update) := by
  unfold hidUpdates at h
  obtain ⟨read, hread, h⟩ := bind_eq_ok.mp h
  obtain rfl := pure_eq_ok.mp h
  intro update hupdate
  obtain ⟨⟨entry, position⟩, hentry, hok⟩ := exists_of_mem_mapM hread hupdate
  have hindexed := List.mem_zipIdx_iff_getElem?.mp (List.mem_of_mem_take hentry)
  refine ⟨entry, position, hindexed, ?_, hok⟩
  obtain ⟨i, hi⟩ := List.mem_iff_getElem?.mp hentry
  rw [List.getElem?_take] at hi
  split at hi
  · rw [List.getElem?_zipIdx] at hi
    obtain ⟨_, -, heq⟩ := Option.map_eq_some_iff.mp hi
    have hposition : i = position := by simpa using congrArg Prod.snd heq
    omega
  · cases hi

theorem hidUpdates_ok {entries : List Value} {nowMs : Nat} {updates : List HidUpdate}
    (h : board.hidUpdates entries nowMs = .ok updates) :
    ∀ update ∈ updates, ∃ entry position, entries[position]? = some entry ∧
      position < codexHidSlots ∧ board.HidRead nowMs entry position update := by
  intro update hupdate
  obtain ⟨entry, position, hentry, hlt, hok⟩ := exists_hidUpdate_of_mem h update hupdate
  exact ⟨entry, position, hentry, hlt, hidUpdate_ok hok⟩

theorem hidUpdates_names {entries : List Value} {value : Value} {nowMs : Nat}
    {updates : List HidUpdate} (hentries : value.asArray = some entries)
    (h : board.hidUpdates entries nowMs = .ok updates) (id : String) :
    id ∈ updates.map (·.card.taskId) ↔ (Op.publishCodexHidStatus value nowMs).Names id := by
  constructor
  · intro hid
    obtain ⟨update, hupdate, rfl⟩ := List.mem_map.mp hid
    obtain ⟨entry, position, hentry, hlt, hok⟩ := hidUpdates_ok h update hupdate
    exact ⟨entries, entry, position, hentries, hentry, hlt, hok.index_lt, hok.lit,
      hok.parsed.taskId_eq⟩
  · rintro ⟨entries', entry, position, hentries', hentry, hlt, hindex, hlit, rfl⟩
    rw [hentries] at hentries'
    obtain rfl := Option.some.inj hentries'
    unfold hidUpdates at h
    obtain ⟨read, hread, h⟩ := bind_eq_ok.mp h
    obtain rfl := pure_eq_ok.mp h
    have hmem : (entry, position) ∈ entries.zipIdx.take codexHidSlots := by
      refine List.mem_of_getElem? (i := position) ?_
      rw [List.getElem?_take_of_lt hlt, List.getElem?_zipIdx, hentry]
      simp
    obtain ⟨output, hupdate⟩ := exists_ok_of_mem hread hmem
    have hsome := hupdate
    unfold hidUpdate at hupdate
    have hnot : ¬hidIndex entry position ≥ codexHidSlots := by omega
    simp only [hnot, if_false, hlit, Bool.false_eq_true] at hupdate
    obtain ⟨card, hparse, hupdate⟩ := bind_eq_ok.mp hupdate
    obtain rfl := pure_eq_ok.mp hupdate
    exact List.mem_map.mpr
      ⟨_, mem_mapM_of_mem hread hmem hsome, (parseTask_ok hparse).taskId_eq⟩

/-- A frame reads the same cards on every board. -/
theorem hidUpdates_cards (other : TaskBoard) {entries : List Value} {nowMs : Nat}
    {updates : List HidUpdate} (h : board.hidUpdates entries nowMs = .ok updates) :
    ∃ updates', other.hidUpdates entries nowMs = .ok updates' ∧
      updates'.map HidUpdate.card = updates.map HidUpdate.card := by
  unfold hidUpdates at h ⊢
  obtain ⟨read, hread, h⟩ := bind_eq_ok.mp h
  obtain rfl := pure_eq_ok.mp h
  -- only the previous card of an update comes from the board
  have hagree : ∀ {entry output}, board.hidUpdate nowMs entry = .ok output →
      ∃ output', other.hidUpdate nowMs entry = .ok output' ∧
        output'.map HidUpdate.card = output.map HidUpdate.card := by
    intro entry output hupdate
    unfold hidUpdate at hupdate ⊢
    simp only at hupdate ⊢
    split at hupdate
    · rename_i hindex
      rw [if_pos hindex]
      exact ⟨output, hupdate, rfl⟩
    · rename_i hindex
      rw [if_neg hindex]
      split at hupdate
      · rename_i hcleared
        rw [if_pos hcleared]
        exact ⟨output, hupdate, rfl⟩
      · rename_i hlit
        rw [if_neg hlit]
        obtain ⟨card, hcard, hupdate⟩ := bind_eq_ok.mp hupdate
        obtain rfl := pure_eq_ok.mp hupdate
        exact ⟨_, bind_eq_ok.mpr ⟨card, hcard, rfl⟩, rfl⟩
  obtain ⟨read', hread', hsame⟩ := exists_mapM_of_agree hagree hread
  exact ⟨read'.reduceOption, bind_eq_ok.mpr ⟨read', hread', rfl⟩, hsame⟩

/-- Settling an update changes the lifecycle of its card only. -/
theorem settled_owned (echoing : Bool) (update : HidUpdate) :
    (update.settled echoing).taskId = update.card.taskId ∧
      (update.settled echoing).ownerSession = update.card.ownerSession ∧
        (update.settled echoing).ownerAgent = update.card.ownerAgent ∧
          (update.settled echoing).sourceSlot = update.card.sourceSlot := by
  unfold HidUpdate.settled
  cases update.previous with
  | none => exact ⟨rfl, rfl, rfl, rfl⟩
  | some previous =>
      simp only
      split
      · exact ⟨rfl, rfl, rfl, rfl⟩
      · exact ⟨rfl, rfl, rfl, rfl⟩

end TaskBoard
end Tasks
end MicroEmu
