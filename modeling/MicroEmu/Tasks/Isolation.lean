import MicroEmu.Tasks.Layout

/-!
# Session isolation

A publication files its cards under ids it chooses (`publish_tasks`) or under ids
the board synthesises for it (`legacy:<session>:<i>`, `codex-hid:<i>`).  All of
them share one map.  Only `publish_tasks` asks who owns a card before it writes;
the other two paths overwrite whatever they find.  So a publication respects the
cards of the other sessions exactly when every foreign card whose id it names is
one it may take over.
-/

namespace MicroEmu
namespace Tasks

open Std (ExtTreeMap LawfulEqCmp)
open Json (Value)
open Routing (AgentId)
open Library

/-- The time an operation publishes at. -/
def Op.publishedAt : Op → Nat
  | .publishTasks _ _ _ nowMs | .publishLegacyStatus _ _ _ nowMs
  | .publishCodexSnapshot _ nowMs | .publishCodexHidStatus _ nowMs => nowMs
  | _ => 0

namespace TaskBoard

variable {order : WalkOrder} {board : TaskBoard}

/-- A replacement writes the cards it is given, for their session, and leaves
every other foreign card alone. -/
theorem replacedBoard_writes {session nowMs : Nat} {cards : List TaskCard}
    (hcards : ∀ card ∈ cards, card.ownerSession = session) (id : String) :
    (id ∈ cards.map TaskCard.taskId → ∃ written,
      (replacedBoard order board session cards nowMs).tasks[id]? = some written ∧
        written.ownerSession = session) ∧
      (id ∉ cards.map TaskCard.taskId → ∀ card, board.tasks[id]? = some card →
        card.ownerSession ≠ session →
          (replacedBoard order board session cards nowMs).tasks[id]? = some card) := by
  constructor
  · intro hid
    obtain ⟨card, hcard, -, written, hget, hsame⟩ :=
      replacedBoard_of_mem order board session nowMs hid
    exact ⟨written, hget, hsame.ownerSession.trans (hcards card hcard)⟩
  · exact fun hid card hget hforeign => replacedBoard_of_foreign hid hget hforeign

/-- An accepted publication writes exactly the ids it names, for its own session. -/
theorem handover_writes {op : Op} {m : TaskBoard} {session : Nat} {agent : AgentId}
    (hpublisher : op.publisher = some (session, agent))
    (hm : handover order board op = some m) (id : String) :
    (op.Names id → ∃ written, m.tasks[id]? = some written ∧
        written.ownerSession = session) ∧
      (¬op.Names id → ∀ card, board.tasks[id]? = some card → card.ownerSession ≠ session →
        m.tasks[id]? = some card) := by
  cases op with
  | publishTasks session' agent' value nowMs =>
      obtain ⟨rfl, rfl⟩ := Prod.mk.inj (Option.some.inj hpublisher)
      obtain ⟨cards, hcards, rfl⟩ := Option.map_eq_some_iff.mp hm
      have hok := toOption_eq_some_iff.mp hcards
      rw [← publishedCards_names hok]
      refine replacedBoard_writes (fun card hcard => ?_) id
      obtain ⟨⟨_, hparsed⟩, -⟩ := publishedCards_ok hok card hcard
      exact hparsed.ownerSession
  | publishCodexSnapshot value nowMs =>
      obtain ⟨rfl, rfl⟩ := Prod.mk.inj (Option.some.inj hpublisher)
      obtain ⟨cards, hcards, rfl⟩ := Option.map_eq_some_iff.mp hm
      have hok := toOption_eq_some_iff.mp hcards
      have hnames : id ∈ cards.map TaskCard.taskId ↔
          (Op.publishCodexSnapshot value nowMs).Names id := publishedCards_names hok id
      rw [← hnames]
      refine replacedBoard_writes (fun card hcard => ?_) id
      obtain ⟨⟨_, hparsed⟩, -⟩ := publishedCards_ok hok card hcard
      exact hparsed.ownerSession
  | publishLegacyStatus session' agent' value nowMs =>
      obtain ⟨rfl, rfl⟩ := Prod.mk.inj (Option.some.inj hpublisher)
      obtain ⟨cards, hcards, rfl⟩ := Option.map_eq_some_iff.mp hm
      have hok := toOption_eq_some_iff.mp hcards
      rw [← legacyCards_names hok]
      refine replacedBoard_writes (fun card hcard => ?_) id
      obtain ⟨_, _, _, -, -, -, hparsed⟩ := legacyCards_ok hok card hcard
      exact hparsed.ownerSession
  | publishCodexHidStatus value nowMs =>
      obtain ⟨rfl, rfl⟩ := Prod.mk.inj (Option.some.inj hpublisher)
      obtain ⟨entries, hentries, h⟩ := Option.bind_eq_some_iff.mp hm
      obtain ⟨updates, hupdates, rfl⟩ := Option.map_eq_some_iff.mp h
      have hok := toOption_eq_some_iff.mp hupdates
      -- merging only adds cards, on a board that has the cards of this one
      obtain ⟨base, echoing, hbase, hfocus⟩ :=
        hidBoard_eq order (board.dropExpiredGuards nowMs) updates nowMs
      have htasks : base.tasks = board.tasks := hfocus.sameCards.tasks
      have hids : (updates.map (HidUpdate.settled echoing)).map TaskCard.taskId =
          updates.map (·.card.taskId) := by
        rw [List.map_map]
        exact List.map_congr_left fun update _ => (settled_owned echoing update).1
      rw [← hidUpdates_names hentries hok, ← hids, hbase]
      constructor
      · intro hid
        obtain ⟨card, hcard, -, written, hget, hsame⟩ := mergedBoard_of_mem base nowMs hid
        obtain ⟨update, hupdate, rfl⟩ := List.mem_map.mp hcard
        obtain ⟨_, _, -, -, hread⟩ := hidUpdates_ok hok update hupdate
        exact ⟨written, hget, hsame.ownerSession.trans
          ((settled_owned echoing update).2.1.trans hread.parsed.ownerSession)⟩
      · intro hid card hget _
        rw [mergedBoard_of_not_mem hid, htasks]
        exact hget
  | setDevice | clearDevices | setSlotOwners | disconnectSession | clearSession | expire | select
  | selectTask | autoSelectWaiting | guardSelectionActivation | setSelectedModel
  | restoreSlotPreferences => cases hpublisher

/-! ## Isolation -/

/-- A publication by an agent may take the card over: it is the agent's, and its
owner has left with a reconnect lease that is still open. -/
def OpenLease (agent : AgentId) (nowMs : Nat) (card : TaskCard) : Prop :=
  card.ownerAgent = agent ∧ ∃ untilMs, card.reconnectUntilMs = some untilMs ∧ nowMs < untilMs

/-- Every card of another session is still there unchanged, or it could be taken
over. -/
def Isolated (before after : TaskBoard) (session : Nat) (agent : AgentId) (nowMs : Nat) : Prop :=
  ∀ (id : String) (card : TaskCard), before.tasks[id]? = some card →
    card.ownerSession ≠ session →
      after.tasks[id]? = some card ∨ OpenLease agent nowMs card

/-- An accepted publication isolates the other sessions if and only if every
foreign card it names could be taken over. -/
theorem session_isolation_iff (steps : List (WalkOrder × Op)) (order : WalkOrder) (op : Op)
    {m : TaskBoard} {session : Nat} {agent : AgentId}
    (hpublisher : op.publisher = some (session, agent))
    (hm : handover order (run steps default) op = some m) :
    Isolated (run steps default) ((run steps default).apply order op) session agent
        op.publishedAt ↔
      ∀ id card, op.Names id → (run steps default).tasks[id]? = some card →
        card.ownerSession ≠ session → OpenLease agent op.publishedAt card := by
  have htasks : ((run steps default).apply order op).tasks = m.tasks :=
    (apply_of_handover hm).sameCards.tasks.trans reallocate_tasks
  unfold Isolated
  rw [htasks]
  constructor
  · intro hisolated id card hnames hget hforeign
    rcases hisolated id card hget hforeign with hsame | hopen
    -- the card written under the id belongs to the publisher, not to its old owner
    · obtain ⟨written, hwritten, hown⟩ := (handover_writes hpublisher hm id).1 hnames
      rw [hsame] at hwritten
      exact absurd (Option.some.inj hwritten ▸ hown) hforeign
    · exact hopen
  · intro hnamed id card hget hforeign
    by_cases hnames : op.Names id
    · exact Or.inr (hnamed id card hnames hget hforeign)
    · exact Or.inl ((handover_writes hpublisher hm id).2 hnames card hget hforeign)

/-- One card of a client, under an id of its choice. -/
def taskNamed (id : String) : Value :=
  .object [("tasks", .array [.object [("task_id", .string id)]])]

/-- Two sessions with different ids do not touch each other. -/
theorem session_isolation_two :
    let board := run [(.ascending, .publishTasks 1 .zCode (taskNamed "a") 10)] default
    Isolated board (board.apply .ascending (.publishTasks 2 .hermes (taskNamed "b") 20)) 2
      .hermes 20 := by
  intro board
  have hsome : (handover .ascending board (.publishTasks 2 .hermes (taskNamed "b") 20)).isSome =
      true := by decide +kernel
  obtain ⟨m, hm⟩ := Option.isSome_iff_exists.mp hsome
  refine (session_isolation_iff [(.ascending, .publishTasks 1 .zCode (taskNamed "a") 10)]
    .ascending _ rfl hm).mpr ?_
  rintro id card ⟨items, item, key, hitems, hitem, hidentity⟩ hget -
  obtain rfl := Option.some.inj hitems
  rw [List.mem_singleton.mp hitem] at hidentity
  have hid : id = "b" := by
    have hok := congrArg (fun r : Except String (String × Option String) =>
      r.toOption.map Prod.fst) hidentity
    exact (Option.some.inj hok).symm
  have hfree : ((run [(.ascending, .publishTasks 1 .zCode (taskNamed "a") 10)]
      default).tasks["b"]?).isNone = true := by decide +kernel
  rw [hid] at hget
  rw [hget] at hfree
  cases hfree

/-- A client of ZCode that calls its card `codex-hid:0` loses it to the next HID
frame. -/
theorem session_taken_over :
    let board := run [(.ascending, .publishTasks 1 .zCode (taskNamed "codex-hid:0") 10)] default
    let frame := Op.publishCodexHidStatus (.array [.object [("id", .ofNat 0)]]) 20
    ¬Isolated board (board.apply .ascending frame) 0 .codex 20 := by
  intro board frame hisolated
  have hbefore : (board.tasks["codex-hid:0"]?).map
      (fun card => (card.ownerSession, card.ownerAgent)) = some (1, .zCode) := by decide +kernel
  have hafter : ((board.apply .ascending frame).tasks["codex-hid:0"]?).map
      (fun card => (card.ownerSession, card.ownerAgent)) = some (0, .codex) := by decide +kernel
  obtain ⟨card, hget, hdata⟩ := Option.map_eq_some_iff.mp hbefore
  obtain ⟨hsession, hagent⟩ := Prod.mk.inj hdata
  rcases hisolated "codex-hid:0" card hget (by omega) with hsame | ⟨hcodex, -⟩
  · rw [hsame, Option.map_some, hdata] at hafter
    cases hafter
  · rw [hagent] at hcodex
    cases hcodex

end TaskBoard
end Tasks
end MicroEmu
