import MicroEmu.Tasks.Devices

/-!
# The holder of a card

A card has an owner, the owner's agent, and possibly a lease.  Only a few operations change
them: one that takes the card off the board, a publication that names the card, and the
disconnect of its owner.
-/

namespace MicroEmu
namespace Tasks

open Std (ExtTreeMap)
open Routing (AgentId)
open Library

/-- Two states of a card have the same owner under the same lease. -/
structure SameHolder (old card : TaskCard) : Prop where
  ownerSession : card.ownerSession = old.ownerSession
  ownerAgent : card.ownerAgent = old.ownerAgent
  reconnectUntilMs : card.reconnectUntilMs = old.reconnectUntilMs

theorem SameHolder.refl (card : TaskCard) : SameHolder card card := ⟨rfl, rfl, rfl⟩

theorem SameHolder.trans {first second third : TaskCard} (h : SameHolder first second)
    (hnext : SameHolder second third) : SameHolder first third where
  ownerSession := hnext.ownerSession.trans h.ownerSession
  ownerAgent := hnext.ownerAgent.trans h.ownerAgent
  reconnectUntilMs := hnext.reconnectUntilMs.trans h.reconnectUntilMs

namespace TaskBoard

variable {order : WalkOrder} {board : TaskBoard} {id : String}

/-- The board has the card under the same holder. -/
def Keeps (board : TaskBoard) (id : String) (old : TaskCard) : Prop :=
  ∃ card, board.tasks[id]? = some card ∧ SameHolder old card

/-- What may change the holder of a card. -/
inductive Disturbs (board : TaskBoard) (id : String) (old : TaskCard) : Op → Prop where
  | removes {op : Op} (h : op.Removes old) : Disturbs board id old op
  | takesOver {op : Op} (h : TakesOver id board op) : Disturbs board id old op
  | leases (nowMs : Nat) : Disturbs board id old (.disconnectSession old.ownerSession nowMs)

/-- A card keeps its holder, or something has disturbed it. -/
theorem keeps_apply (order : WalkOrder) (op : Op) {old : TaskCard}
    (hold : board.tasks[id]? = some old) :
    (board.apply order op).Keeps id old ∨ board.Disturbs id old op := by
  have hstep := apply_cardStep order board op id
  generalize hafter : (board.apply order op).entry id = after at hstep
  have htasks : (board.apply order op).tasks[id]? = after.card := congrArg Entry.card hafter
  unfold Keeps
  rw [htasks]
  have hsame {task : TaskCard} (htask : board.tasks[id]? = some task) : task = old :=
    Option.some.inj (htask.symm.trans hold)
  cases hstep with
  | kept => exact .inl ⟨old, hold, .refl old⟩
  | published hmerged hnamed => exact .inr (.takesOver ⟨_, _, hmerged, hnamed⟩)
  | removed hcard hremoves => exact .inr (.removes (hsame hcard ▸ hremoves))
  | leased hcard howner =>
      obtain rfl := hsame hcard
      exact .inr (howner ▸ .leases _)
  | acknowledged hcard =>
      obtain rfl := hsame hcard
      exact .inl ⟨_, rfl, rfl, rfl, rfl⟩
  | remodelled hcard =>
      obtain rfl := hsame hcard
      exact .inl ⟨_, rfl, rfl, rfl, rfl⟩

/-- Where a card comes from that an operation leaves. -/
inductive ComesFrom (board : TaskBoard) (id : String) (card : TaskCard) : Op → Prop where
  | kept {op : Op} {old : TaskCard} (hold : board.tasks[id]? = some old)
      (same : SameHolder old card) : ComesFrom board id card op
  | published {op : Op} (publisher : op.publisher = some (card.ownerSession, card.ownerAgent))
      (unleased : card.reconnectUntilMs = none) : ComesFrom board id card op
  | leased {old : TaskCard} {nowMs : Nat} (hold : board.tasks[id]? = some old)
      (owner : old.ownerSession = card.ownerSession) :
      ComesFrom board id card (.disconnectSession card.ownerSession nowMs)

theorem comesFrom_apply (order : WalkOrder) (op : Op) {card : TaskCard}
    (hcard : (board.apply order op).tasks[id]? = some card) : board.ComesFrom id card op := by
  have hstep := apply_cardStep order board op id
  generalize hafter : (board.apply order op).entry id = after at hstep
  have htasks : after.card = some card := (congrArg Entry.card hafter).symm.trans hcard
  cases hstep with
  | kept => exact .kept htasks (.refl card)
  | published hmerged hnamed =>
      have htakes : TakesOver id board op := ⟨_, _, hmerged, hnamed⟩
      obtain ⟨task, htask, hpublisher, hunleased⟩ := htakes.card order
      obtain rfl := Option.some.inj (htask.symm.trans hcard)
      exact .published hpublisher hunleased
  | removed => cases htasks
  | leased hold howner =>
      obtain rfl := Option.some.inj htasks
      obtain rfl := howner
      exact .leased hold rfl
  | acknowledged hold =>
      obtain rfl := Option.some.inj htasks
      exact .kept hold ⟨rfl, rfl, rfl⟩
  | remodelled hold =>
      obtain rfl := Option.some.inj htasks
      exact .kept hold ⟨rfl, rfl, rfl⟩

/-- What can disturb a card leaves the slots alone. -/
theorem Disturbs.keepsSlots {old : TaskCard} {op : Op} (h : board.Disturbs id old op) :
    op.KeepsSlots := by
  cases h with
  | removes hremoves =>
      cases hremoves with
      | unlisted hpublisher hreplaces =>
          cases op with
          | setDevice | clearDevices | setSlotOwners => cases hpublisher
          | _ => trivial
      | cleared => trivial
      | expired => trivial
  | takesOver htakes =>
      obtain ⟨cards, nowMs, hmerged, -⟩ := htakes
      cases op with
      | setDevice | clearDevices | setSlotOwners => cases hmerged
      | _ => trivial
  | leases => trivial

/-! ## What a publication takes over -/

/-- `publish_tasks` takes over only what is its session's, or leased and of its agent. -/
theorem TakesOver.publishTasks {session nowMs : Nat} {agent : AgentId} {value : Json.Value}
    (h : TakesOver id board (.publishTasks session agent value nowMs)) {old : TaskCard}
    (hold : board.tasks[id]? = some old) : old.ownerSession = session ∨
      old.ownerAgent = agent ∧ old.reconnectUntilMs.isSome := by
  obtain ⟨cards, publishedMs, hmerged, hnamed⟩ := h
  obtain ⟨_, hcards, heq⟩ := Option.map_eq_some_iff.mp hmerged
  obtain ⟨rfl, rfl⟩ := Prod.mk.inj heq
  obtain ⟨card, hcard, rfl⟩ := List.mem_map.mp hnamed
  obtain ⟨-, hchecked⟩ := publishedCards_ok (toOption_eq_some_iff.mp hcards) card hcard
  exact checkOwner_eq_ok_iff.mp hchecked old hold

/-- A snapshot of the Codex database is a publication of the session 0. -/
theorem TakesOver.publishCodexSnapshot {nowMs : Nat} {value : Json.Value}
    (h : TakesOver id board (.publishCodexSnapshot value nowMs)) :
    TakesOver id board (.publishTasks 0 .codex value nowMs) := h

/-- A legacy status takes over only cards under the ids it makes up. -/
theorem TakesOver.publishLegacyStatus {session nowMs : Nat} {agent : AgentId}
    {value : Json.Value} (h : TakesOver id board (.publishLegacyStatus session agent value nowMs)) :
    ∃ index, id = legacyTaskId session index := by
  obtain ⟨cards, publishedMs, hmerged, hnamed⟩ := h
  obtain ⟨_, hcards, heq⟩ := Option.map_eq_some_iff.mp hmerged
  obtain ⟨rfl, rfl⟩ := Prod.mk.inj heq
  obtain ⟨card, hcard, rfl⟩ := List.mem_map.mp hnamed
  obtain ⟨_, _, index, -, -, -, hparsed⟩ :=
    legacyCards_ok (toOption_eq_some_iff.mp hcards) card hcard
  exact ⟨index, hparsed.taskId_eq⟩

/-- A HID frame takes over only cards under the ids of its positions. -/
theorem TakesOver.publishCodexHidStatus {nowMs : Nat} {value : Json.Value}
    (h : TakesOver id board (.publishCodexHidStatus value nowMs)) :
    ∃ index, id = hidTaskId index := by
  obtain ⟨cards, publishedMs, hmerged, hnamed⟩ := h
  obtain ⟨entries, -, hread⟩ := Option.bind_eq_some_iff.mp hmerged
  obtain ⟨updates, hupdates, heq⟩ := Option.map_eq_some_iff.mp hread
  obtain ⟨rfl, rfl⟩ := Prod.mk.inj heq
  obtain ⟨card, hcard, rfl⟩ := List.mem_map.mp hnamed
  obtain ⟨update, hupdate, rfl⟩ := List.mem_map.mp hcard
  obtain ⟨_, _, -, -, hread⟩ := hidUpdates_ok (toOption_eq_some_iff.mp hupdates) update hupdate
  exact ⟨_, ((settled_owned _ update).1).trans hread.parsed.taskId_eq⟩

end TaskBoard
end Tasks
end MicroEmu
