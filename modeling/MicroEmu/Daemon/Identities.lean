import MicroEmu.Daemon.Held
import MicroEmu.Tasks.Holders

/-!
# The ids of the sessions

The acceptor numbers the connections from one upward; the daemon files its own cards under fixed
numbers, and routes catalog actions to four more.  As long as the numbers differ, a card belongs
to who has published it: a client publishes under its own number only, and a feed replaces no
card of a client.  The 997th connection has the number of the feed of Claude.
-/

namespace MicroEmu
namespace Daemon

open Json (Value)
open Routing (AgentId)
open Bridge (BridgeRuntime Outside)
open Bridge.BridgeRuntime (Works)
open Tasks (Op TaskBoard TaskCard WalkOrder SameHolder)
open Relation (ReflTransGen)

variable {World : Type}

/-! ## Steps of the board -/

/-- One operation that may be made, or one on the slots. -/
def BoardStep (may : Op → Prop) (before after : TaskBoard) : Prop :=
  ∃ order op, (may op ∨ ¬op.KeepsSlots) ∧ after = before.apply order op

abbrev BoardSteps (may : Op → Prop) : TaskBoard → TaskBoard → Prop := ReflTransGen (BoardStep may)

section

variable {host : Host World} {may : Op → Prop} {allows : Allowance World}
  {registry last : Registry World}

theorem boardSteps_setDevice (order : WalkOrder) (board : TaskBoard) (deviceId : String)
    (slots : Nat) (connected : Bool) :
    BoardSteps may board (board.setDevice order deviceId slots connected) :=
  .single ⟨order, .setDevice deviceId slots connected, .inr id, rfl⟩

theorem boardSteps_setSlotOwners (order : WalkOrder) (board : TaskBoard) (deviceId : String)
    (owners : List (Option AgentId)) :
    BoardSteps may board (board.setSlotOwners order deviceId owners) :=
  .single ⟨order, .setSlotOwners deviceId owners, .inr id, rfl⟩

/-- A device changes, and the slots of one get owners. -/
theorem boardSteps_reassign (order : WalkOrder) (board : TaskBoard) (deviceId other : String)
    (slots : Nat) (connected : Bool) (owners : List (Option AgentId)) :
    BoardSteps may board
      ((board.setDevice order deviceId slots connected).setSlotOwners order other owners) :=
  (boardSteps_setDevice order board deviceId slots connected).trans
    (boardSteps_setSlotOwners order _ other owners)

theorem boardSteps_deck {decks decks' : Bridge.Decks World}
    {loses : Bridge.Decks World → Bridge.AuxController → Prop} {out : Outside World}
    (h : Bridge.DeckStep out may loses decks decks') :
    BoardSteps may decks.taskBoard decks'.taskBoard := by
  cases h with
  | call | detach | lose => exact .refl
  | board order op hop => exact .single ⟨order, op, .inl hop, rfl⟩
  | drop order kept aux rest => exact boardSteps_setDevice order _ aux.deviceId 0 false
  | forget order kept aux rest => exact boardSteps_reassign order ..

/-- What happens to the registry happens to the board by its operations. -/
theorem boardSteps_registry (h : RegistrySteps host may allows registry last) :
    BoardSteps may registry.taskBoard last.taskBoard := by
  induction h with
  | refl => exact .refl
  | tail _ hstep ih =>
      refine ReflTransGen.trans ih ?_
      cases hstep with
      | deck hdeck => exact boardSteps_deck hdeck
      | outside | reconnectUnregistered | unmap => exact .refl
      | owners order owners => exact boardSteps_setSlotOwners order ..
      | reconnect order device => exact boardSteps_setDevice order _ _ _ true
      | releasePrimary order => exact boardSteps_reassign order ..
      | releaseAux order => exact boardSteps_setDevice order _ _ 0 false
      | releaseTask order => exact boardSteps_reassign order ..
      | promote order =>
          simp only
          split
          · exact boardSteps_reassign order ..
          · exact .refl
      | enlist order =>
          simp only
          split
          · exact boardSteps_setDevice order ..
          · exact .refl

end

section

variable {may : Op → Prop} {before after : TaskBoard} {id : String}

/-- A card keeps its holder unless an operation that may be made disturbs it. -/
theorem BoardSteps.keeps {givesWay : Prop} {old : TaskCard} (h : BoardSteps may before after)
    (hold : before.tasks[id]? = some old)
    (hdisturbs : ∀ (board : TaskBoard) card op, SameHolder old card →
      board.tasks[id]? = some card → board.Disturbs id card op → may op → givesWay) :
    after.Keeps id old ∨ givesWay := by
  induction h with
  | refl => exact .inl ⟨old, hold, .refl old⟩
  | tail _ hstep ih =>
      obtain ⟨order, op, hop, rfl⟩ := hstep
      rcases ih with ⟨card, hcard, hsame⟩ | hgives
      · rcases TaskBoard.keeps_apply order op hcard with ⟨later, hlater, hkept⟩ | hdisturbed
        · exact .inl ⟨later, hlater, hsame.trans hkept⟩
        · exact .inr (hdisturbs _ card op hsame hcard hdisturbed
            (hop.resolve_right (not_not.mpr hdisturbed.keepsSlots)))
      · exact .inr hgives

/-- A card has its owner from before, or from a publication that may be made. -/
theorem BoardSteps.owner (h : BoardSteps may before after) {card : TaskCard}
    (hcard : after.tasks[id]? = some card) :
    (∃ old, before.tasks[id]? = some old ∧ old.ownerSession = card.ownerSession) ∨
      ∃ op agent, may op ∧ op.publisher = some (card.ownerSession, agent) := by
  induction h generalizing card with
  | refl => exact .inl ⟨card, hcard, rfl⟩
  | tail _ hstep ih =>
      obtain ⟨order, op, hop, rfl⟩ := hstep
      cases TaskBoard.comesFrom_apply order op hcard with
      | kept hold hsame => exact hsame.ownerSession ▸ ih hold
      | published hpublisher =>
          refine .inr ⟨op, _, hop.resolve_right fun hslots => ?_, hpublisher⟩
          cases op with
          | setDevice | clearDevices | setSlotOwners => cases hpublisher
          | _ => exact hslots trivial
      | leased hold howner => exact howner ▸ ih hold

/-- No card of the owner has a lease. -/
def Unleased (board : TaskBoard) (owner : Nat) : Prop :=
  ∀ (id : String) card, board.tasks[id]? = some card → card.ownerSession = owner →
    card.reconnectUntilMs = none

/-- Only a disconnect of the owner leases its cards. -/
theorem BoardSteps.unleased {owner : Nat} (h : BoardSteps may before after)
    (hmay : ∀ nowMs, ¬may (.disconnectSession owner nowMs)) (hunleased : Unleased before owner) :
    Unleased after owner := by
  induction h with
  | refl => exact hunleased
  | tail _ hstep ih =>
      obtain ⟨order, op, hop, rfl⟩ := hstep
      rintro id card hcard rfl
      cases TaskBoard.comesFrom_apply order op hcard with
      | kept hold hsame =>
          rw [hsame.reconnectUntilMs]
          exact ih id _ hold hsame.ownerSession.symm
      | published _ hnone => exact hnone
      | leased hold howner => exact absurd (hop.resolve_right fun hslots => hslots trivial) (hmay _)

end

/-! ## The numbers -/

/-- The ids the daemon uses itself: the owners of its own cards, and those catalog actions
go to. -/
def ownerIds : List Nat :=
  [0, Bridge.zcodePollSession, Bridge.hermesPollSession, Bridge.claudePollSession] ++
    agents.map Bridge.catalogActionSession

/-- The connections are numbered from one upward, in 64 bits. -/
structure Numbered (state : LoopState World) : Prop where
  accepted : state.accepted =
    (List.range state.accepted.length).map fun index => (index + 1) % 2 ^ 64
  next : state.nextId = (state.accepted.length + 1) % 2 ^ 64

/-- The automatic feeds have ids of the daemon. -/
theorem autoFeedSession_mem_ownerIds {agent : AgentId} {owner : Nat}
    (h : DaemonState.autoFeedSession agent = some owner) : owner ∈ ownerIds := by
  cases agent with
  | codex => cases h
  | zCode | hermes | claude =>
      obtain rfl := Option.some.inj h
      decide

section

variable (host : Host World) {state : LoopState World}

/-- Only the acceptor gives out ids. -/
theorem ids_act (input : LoopInput World) : input = .accept ∨
    (state.act host input).accepted = state.accepted ∧
      (state.act host input).nextId = state.nextId := by
  cases input with
  | accept => exact .inl rfl
  | message order message =>
      refine .inr ?_
      simp only [LoopState.act]
      split
      · cases message with
        | controllerHello => exact ⟨rfl, rfl⟩
        | session message =>
            cases message with
            | connected | request | hello => exact ⟨rfl, rfl⟩
            | disconnected session | error session =>
                simp only [LoopState.handleMessage, LoopState.endSession]
                split
                · exact ⟨rfl, rfl⟩
                · exact ⟨rfl, rfl⟩
      · exact ⟨rfl, rfl⟩
  | codexMessage order message =>
      have hkept := @LoopState.connections_codexMessage _ host state order message
      exact .inr ⟨hkept.accepted, hkept.nextId⟩
  | codexSnapshot order snapshot =>
      have hkept := @LoopState.connections_codexSnapshot _ host state order snapshot
      exact .inr ⟨hkept.accepted, hkept.nextId⟩
  | pollController order =>
      have hkept := @LoopState.connections_pollController _ host state order
      exact .inr ⟨hkept.accepted, hkept.nextId⟩
  | clearHid order =>
      have hkept := @LoopState.connections_clearHid _ host state order
      exact .inr ⟨hkept.accepted, hkept.nextId⟩
  | feed order agent snapshot =>
      have hkept := @LoopState.connections_feed _ host state order agent snapshot
      exact .inr ⟨hkept.accepted, hkept.nextId⟩
  | usageTick order =>
      have hkept := @LoopState.connections_showUsage _ host state order
      exact .inr ⟨hkept.accepted, hkept.nextId⟩
  | outside | usageReady | replaceRuntime | reconnect | expire | refresh | routeTaskEvents
  | probe | repartition | resolvePolls => exact .inr ⟨rfl, rfl⟩

theorem Numbered.step (h : Numbered state) (input : LoopInput World) :
    Numbered (state.step host input) ∧
      state.accepted.length ≤ (state.step host input).accepted.length := by
  unfold LoopState.step
  split
  · exact ⟨h, Nat.le_refl _⟩
  · rcases @ids_act _ host state input with rfl | ⟨haccepted, hnext⟩
    · refine ⟨⟨?_, ?_⟩, by simp [LoopState.act]⟩
      · simp only [LoopState.act, List.length_append, List.length_singleton, List.range_succ,
          List.map_append, List.map_singleton]
        rw [← h.accepted, h.next]
      · simp only [LoopState.act, List.length_append, List.length_singleton]
        rw [h.next]
        omega
    · refine ⟨⟨?_, ?_⟩, ?_⟩
      · rw [haccepted]
        exact h.accepted
      · rw [hnext, haccepted]
        exact h.next
      · rw [haccepted]

/-- The connections of a daemon that has just been started. -/
theorem run_accepts (count : Nat) (hrunning : state.ended = false) (hnext : state.nextId = 1)
    (hnone : state.accepted = []) :
    state.run host (List.replicate count .accept) = { state with
      nextId := (count + 1) % 2 ^ 64
      accepted := (List.range count).map fun index => (index + 1) % 2 ^ 64 } := by
  induction count with
  | zero =>
      obtain ⟨⟩ := state
      subst hnext hnone
      rfl
  | succ count ih =>
      rw [List.replicate_succ', LoopState.run, Library.runFrom_append]
      rw [LoopState.run] at ih
      rw [ih]
      simp only [Library.runFrom, List.foldl_cons, List.foldl_nil, LoopState.step, hrunning,
        Bool.false_eq_true, if_false, LoopState.act, List.range_succ, List.map_append,
        List.map_singleton]
      congr 1
      omega

end

/-- The ids are distinct and none of the daemon's own exactly as long as fewer than 997
connections have been accepted. -/
theorem Numbered.separate_iff {state : LoopState World} (h : Numbered state) :
    (state.accepted.Nodup ∧ ∀ id ∈ state.accepted, id ∉ ownerIds) ↔
      state.accepted.length < 997 := by
  have hids : ∀ index < state.accepted.length, (index + 1) % 2 ^ 64 ∈ state.accepted := by
    intro index hindex
    rw [h.accepted]
    exact List.mem_map_of_mem (List.mem_range.mpr hindex)
  constructor
  · rintro ⟨-, hreserved⟩
    by_contra hmany
    exact hreserved _ (hids 996 (by omega)) (by decide)
  · intro hfew
    have hsmall : ∀ index ∈ List.range state.accepted.length, (index + 1) % 2 ^ 64 = index + 1 := by
      intro index hindex
      have hlt := List.mem_range.mp hindex
      exact Nat.mod_eq_of_lt (by omega)
    have hnumbers : state.accepted = (List.range state.accepted.length).map (· + 1) :=
      h.accepted.trans (List.map_congr_left hsmall)
    rw [hnumbers]
    refine ⟨List.nodup_range.map (fun a b heq => Nat.succ.inj heq), ?_⟩
    intro id hid
    obtain ⟨index, hindex, rfl⟩ := List.mem_map.mp hid
    have hlt := List.mem_range.mp hindex
    intro howner
    have hreserved : ∀ id ∈ ownerIds, id = 0 ∨ 997 ≤ id := by decide
    rcases hreserved _ howner with hzero | hlarge
    · omega
    · omega

/-! ## Who disturbs whose cards -/

section

variable {board : TaskBoard} {id : String} {card : TaskCard} {op : Op}

/-- A client disturbs no card of another session that has no lease, except those it takes away
before it publishes a list, and those whose id it makes up itself. -/
theorem disturbs_client {sender : Nat} {agent : Option AgentId} {publishes : Bool}
    (hdisturbs : board.Disturbs id card op) (hcard : board.tasks[id]? = some card)
    (hmay : op.IsFor sender agent publishes) (hother : card.ownerSession ≠ sender)
    (hunleased : card.reconnectUntilMs = none) :
    (publishes = true ∧ agent.bind DaemonState.autoFeedSession = some card.ownerSession) ∨
      ∃ index, id = TaskBoard.legacyTaskId sender index := by
  cases hdisturbs with
  | removes hremoves =>
      cases hremoves with
      | unlisted hpublisher hreplaces =>
          cases op with
          | publishTasks session | publishLegacyStatus session =>
              obtain ⟨rfl, -⟩ := Prod.mk.inj (Option.some.inj hpublisher)
              exact absurd hmay.1 hother
          | publishCodexSnapshot | publishCodexHidStatus => exact hmay.elim
          | _ => cases hpublisher
      | cleared => exact .inl hmay
      | expired => exact hmay.elim
  | takesOver htakes =>
      cases op with
      | publishTasks session =>
          rcases htakes.publishTasks hcard with howner | ⟨-, hleased⟩
          · exact absurd (howner.trans hmay.1) hother
          · rw [hunleased] at hleased
            cases hleased
      | publishLegacyStatus session =>
          obtain ⟨rfl, -⟩ := hmay
          exact .inr htakes.publishLegacyStatus
      | publishCodexSnapshot | publishCodexHidStatus => exact hmay.elim
      | _ =>
          obtain ⟨_, _, hmerged, -⟩ := htakes
          cases hmerged
  | leases => exact absurd hmay hother

/-- What is published under the session 0 disturbs only the leased cards of Codex, and those
under the ids of the HID frames. -/
theorem disturbs_codex (hdisturbs : board.Disturbs id card op)
    (hcard : board.tasks[id]? = some card) (hmay : Party.codex.may op)
    (hother : card.ownerSession ≠ 0) :
    (card.ownerAgent = .codex ∧ card.reconnectUntilMs.isSome) ∨
      ∃ index, id = TaskBoard.hidTaskId index := by
  cases hdisturbs with
  | removes hremoves =>
      cases hremoves with
      | unlisted hpublisher hreplaces =>
          cases op with
          | publishCodexSnapshot | publishCodexHidStatus =>
              exact absurd (Prod.mk.inj (Option.some.inj hpublisher)).1.symm hother
          | publishTasks | publishLegacyStatus => exact hmay.elim
          | _ => cases hpublisher
      | cleared => exact absurd hmay hother
      | expired => exact hmay.elim
  | takesOver htakes =>
      cases op with
      | publishCodexSnapshot =>
          exact .inl ((htakes.publishCodexSnapshot.publishTasks hcard).resolve_left hother)
      | publishCodexHidStatus => exact .inr htakes.publishCodexHidStatus
      | publishTasks | publishLegacyStatus => exact hmay.elim
      | _ =>
          obtain ⟨_, _, hmerged, -⟩ := htakes
          cases hmerged
  | leases => exact hmay.elim

/-- A feed disturbs only cards of its agent, with its publication. -/
theorem disturbs_feed {agent : AgentId} {owner : Nat}
    (howner : DaemonState.autoFeedSession agent = some owner)
    (hdisturbs : board.Disturbs id card op) (hcard : board.tasks[id]? = some card)
    (hmay : (Party.feed agent).may op) (hother : card.ownerSession ≠ owner) :
    card.ownerAgent = agent ∧ op.publisher = some (owner, agent) := by
  have hnot {session : Nat} (h : DaemonState.autoFeedSession agent = some session) :
      card.ownerSession ≠ session := Option.some.inj (howner.symm.trans h) ▸ hother
  cases hdisturbs with
  | removes hremoves =>
      cases hremoves with
      | unlisted hpublisher hreplaces =>
          cases op with
          | publishTasks session =>
              exact absurd (Prod.mk.inj (Option.some.inj hpublisher)).1.symm (hnot hmay.1)
          | publishCodexSnapshot | publishCodexHidStatus | publishLegacyStatus => exact hmay.elim
          | _ => cases hpublisher
      | cleared => exact absurd rfl (hnot hmay)
      | expired => exact hmay.elim
  | takesOver htakes =>
      cases op with
      | publishTasks session =>
          rcases htakes.publishTasks hcard with hsame | ⟨hagent, -⟩
          · exact absurd hsame (hnot hmay.1)
          · obtain ⟨hsession, rfl⟩ := hmay
            obtain rfl := Option.some.inj (howner.symm.trans hsession)
            exact ⟨hagent, rfl⟩
      | publishCodexSnapshot | publishCodexHidStatus | publishLegacyStatus => exact hmay.elim
      | _ =>
          obtain ⟨_, _, hmerged, -⟩ := htakes
          cases hmerged
  | leases => exact hmay.elim

end

/-! ## Clients and feeds -/

/-- The message takes the cards of the owner away before its session publishes a list: they are
those of the automatic feed of the agent of the session. -/
def HandsOver (state : LoopState World) (message : LoopMessage) (owner : Nat) : Prop :=
  message.publishes = true ∧
    (state.daemon.sessionAgent message.sender).bind DaemonState.autoFeedSession = some owner

/-- The ids of the connections are distinct and none of the daemon's own, and so no client owns
or disturbs what a feed has published, and no feed what a client has. -/
structure Apart (host : Host World) (state : LoopState World) : Prop where
  distinct : state.accepted.Nodup
  reserved : ∀ id ∈ state.accepted, id ∉ ownerIds
  /-- A client puts no card under an id of the daemon. -/
  owns : ∀ order message (id : String) (card : TaskCard),
    (state.step host (.message order message)).bridge.taskBoard.tasks[id]? = some card →
      card.ownerSession ∈ ownerIds →
        ∃ old : TaskCard, state.bridge.taskBoard.tasks[id]? = some old ∧
          old.ownerSession = card.ownerSession
  /-- A card of the daemon stays when a client's message is handled. -/
  clients : ∀ order message id card, state.bridge.taskBoard.tasks[id]? = some card →
    card.ownerSession ∈ ownerIds →
      (state.step host (.message order message)).bridge.taskBoard.Keeps id card ∨
        HandsOver state message card.ownerSession ∨
          ∃ index, id = TaskBoard.legacyTaskId message.sender index
  /-- A card of a client stays when an automatic feed is refreshed. -/
  feeds : ∀ order agent snapshot id card, state.bridge.taskBoard.tasks[id]? = some card →
    card.ownerSession ∈ state.accepted →
      (state.step host (.feed order agent snapshot)).bridge.taskBoard.Keeps id card
  /-- A card of a client stays when the cards of Codex are refreshed. -/
  codex : ∀ input, state.party input = .codex → ∀ id card,
    state.bridge.taskBoard.tasks[id]? = some card → card.ownerSession ∈ state.accepted →
      (state.step host input).bridge.taskBoard.Keeps id card ∨
        (card.ownerAgent = .codex ∧ card.reconnectUntilMs.isSome) ∨
          ∃ index, id = TaskBoard.hidTaskId index

section

variable (host : Host World) {state : LoopState World}

/-- A part of a round is made of steps that its party may make. -/
theorem registrySteps_step (hsound : Sound state.registry) (input : LoopInput World) :
    RoundSteps host (state.party input) {} state.registry (state.step host input).registry :=
  LoopState.steps_step host hsound input (fun _ _ _ => trivial) (fun _ _ _ _ => trivial) {
    ends := fun _ _ _ _ _ _ => trivial
    refuses := fun _ _ _ _ _ _ _ _ _ _ _ => trivial
    greets := fun _ _ _ _ _ => ⟨fun _ _ _ => trivial, fun _ => trivial⟩
    moves := fun _ _ => trivial }

/-- A message of a connection that has not been accepted changes nothing. -/
theorem step_message_of_not_mem {order : WalkOrder} {message : LoopMessage}
    (h : message.sender ∉ state.accepted) : state.step host (.message order message) = state := by
  unfold LoopState.step
  split
  · rfl
  · exact if_neg h

/-- The feed of an agent with an automatic feed. -/
theorem feed_eq {agent : AgentId} {owner : Nat}
    (howner : DaemonState.autoFeedSession agent = some owner) (order : WalkOrder)
    (snapshot : Option Value) : ∃ desktopActive, state.feed host order snapshot agent =
      state.feedOwned host order agent owner desktopActive snapshot := by
  cases agent with
  | codex => cases howner
  | zCode | hermes | claude =>
      obtain rfl := Option.some.inj howner
      exact ⟨_, rfl⟩

/-- A feed for whose agent somebody else has cards at most takes its own cards away. -/
theorem works_feedOwned_held {agent : AgentId} {owner : Nat} (order : WalkOrder)
    (desktopActive : Bool) (snapshot : Option Value)
    (hheld : LoopState.hasAgentTasksExcept state.bridge.taskBoard agent owner = true) :
    Works host.toOutside (fun op => op = .clearSession owner ∨ op.IsSelection)
      (fun _ _ => True) state.bridge
      (state.feedOwned host order agent owner desktopActive snapshot).bridge := by
  unfold LoopState.feedOwned
  simp only [hheld, Bool.or_true, if_true]
  split
  · have hcleared : Works host.toOutside (fun op => op = .clearSession owner ∨ op.IsSelection)
        (fun _ _ => True) state.bridge { state.bridge with
          taskBoard := state.bridge.taskBoard.clearSession order owner } :=
      .board state.bridge order (.clearSession owner) (.inl rfl) rfl
    exact hcleared.trans ((BridgeRuntime.serves_refresh host.toOutside order _).works
      fun _ hop => .inr hop)
  · exact .refl _

/-- A feed keeps the cards of other owners: it publishes only while nobody else has cards of its
agent, and it takes over no card of another agent. -/
theorem keeps_feed (hsound : Sound state.registry) (order : WalkOrder) {agent : AgentId}
    {owner : Nat} (howner : DaemonState.autoFeedSession agent = some owner)
    (snapshot : Option Value) {id : String} {card : TaskCard}
    (hcard : state.bridge.taskBoard.tasks[id]? = some card) (hother : card.ownerSession ≠ owner) :
    (state.step host (.feed order agent snapshot)).bridge.taskBoard.Keeps id card := by
  by_cases hagent : card.ownerAgent = agent
  · have hheld : LoopState.hasAgentTasksExcept state.bridge.taskBoard agent owner = true :=
      List.any_eq_true.mpr ⟨(id, card), Std.ExtTreeMap.mem_toList_iff_getElem?_eq_some.mpr hcard,
        Bool.and_eq_true_iff.mpr ⟨beq_iff_eq.mpr hagent, bne_iff_ne.mpr hother⟩⟩
    have hworks : BoardSteps (fun op => op = .clearSession owner ∨ op.IsSelection)
        state.bridge.taskBoard
        (state.step host (.feed order agent snapshot)).bridge.taskBoard := by
      unfold LoopState.step
      split
      · exact .refl
      · obtain ⟨desktopActive, hfeed⟩ := feed_eq host howner order snapshot
        have hsteps : RegistrySteps host (fun op => op = .clearSession owner ∨ op.IsSelection) {}
            state.registry (registryOf (state.feed host order snapshot agent).bridge
              state.pluginSessions) := by
          rw [hfeed]
          exact RegistrySteps.of_works
            (works_feedOwned_held host order desktopActive snapshot hheld) state.pluginSessions
        exact boardSteps_registry hsteps
    have hquiet : ∀ (board : TaskBoard) (later : TaskCard) (op : Op), SameHolder card later →
        board.tasks[id]? = some later → board.Disturbs id later op →
          (op = .clearSession owner ∨ op.IsSelection) → False := by
      intro board later op hsame hlater hdisturbs hmay
      have hfeeds : (Party.feed agent).may op := by
        rcases hmay with rfl | hselection
        · exact howner
        · exact Party.may_of_isSelection _ hselection
      have hpublisher := (disturbs_feed howner hdisturbs hlater hfeeds
        (hsame.ownerSession ▸ hother)).2
      rcases hmay with rfl | hselection
      · cases hpublisher
      · cases op with
        | publishTasks | publishLegacyStatus | publishCodexSnapshot | publishCodexHidStatus =>
            exact hselection
        | _ => cases hpublisher
    exact (hworks.keeps hcard hquiet).resolve_right not_false
  · have hsteps := registrySteps_step host hsound (.feed order agent snapshot)
    have hquiet : ∀ (board : TaskBoard) (later : TaskCard) (op : Op), SameHolder card later →
        board.tasks[id]? = some later → board.Disturbs id later op →
          (Party.feed agent).may op → False := by
      intro board later op hsame hlater hdisturbs hmay
      have hdisturbed := disturbs_feed howner hdisturbs hlater hmay
        (hsame.ownerSession ▸ hother)
      exact hagent (hsame.ownerAgent ▸ hdisturbed.1)
    exact ((boardSteps_registry hsteps).keeps hcard hquiet).resolve_right not_false

/-- What holds along every run. -/
structure Separate (state : LoopState World) : Prop where
  sound : Sound state.registry
  numbered : Numbered state
  /-- The daemon's own cards have no lease. -/
  unleased : state.accepted.length < 997 → ∀ owner ∈ ownerIds,
    Unleased state.bridge.taskBoard owner

theorem Separate.step (h : Separate state) (input : LoopInput World) :
    Separate (state.step host input) := by
  have hsteps := registrySteps_step host h.sound input
  obtain ⟨hnumbered, hlength⟩ := h.numbered.step host input
  refine ⟨h.sound.steps hsteps fun _ => Party.may.keepsSlots, hnumbered, ?_⟩
  intro hfew owner howner
  have hbefore : state.accepted.length < 997 := by omega
  have hunleased := h.unleased hbefore owner howner
  have hkept (hmay : ∀ nowMs, ¬(state.party input).may (.disconnectSession owner nowMs)) :
      Unleased (state.step host input).bridge.taskBoard owner :=
    (boardSteps_registry hsteps).unleased hmay hunleased
  cases input with
  | message order message =>
      by_cases hsender : message.sender ∈ state.accepted
      · refine hkept fun nowMs (hended : owner = message.sender) => ?_
        exact (h.numbered.separate_iff.mpr hbefore).2 _ hsender (hended ▸ howner)
      · rwa [step_message_of_not_mem host hsender]
  | _ => exact hkept fun nowMs hended => hended

theorem Separate.apart (h : Separate state) (hfew : state.accepted.length < 997) :
    Apart host state := by
  obtain ⟨hdistinct, hreserved⟩ := h.numbered.separate_iff.mpr hfew
  refine ⟨hdistinct, hreserved, ?_, ?_, ?_, ?_⟩
  · intro order message id card hcard howner
    by_cases hsender : message.sender ∈ state.accepted
    · have hsteps := registrySteps_step host h.sound (.message order message)
      rcases (boardSteps_registry hsteps).owner hcard with hold | ⟨op, agent, hmay, hpublisher⟩
      · exact hold
      · have hsame : card.ownerSession = message.sender := by
          cases op with
          | publishTasks | publishLegacyStatus =>
              exact (Prod.mk.inj (Option.some.inj hpublisher)).1.symm.trans hmay.1
          | publishCodexSnapshot | publishCodexHidStatus => exact hmay.elim
          | _ => cases hpublisher
        exact absurd (hsame ▸ howner) (hreserved _ hsender)
    · rw [step_message_of_not_mem host hsender] at hcard
      exact ⟨card, hcard, rfl⟩
  · intro order message id card hcard howner
    by_cases hsender : message.sender ∈ state.accepted
    · have hsteps := registrySteps_step host h.sound (.message order message)
      refine (boardSteps_registry hsteps).keeps hcard fun board later op hsame hlater hdisturbs
        hmay => ?_
      have hdisturbed := disturbs_client hdisturbs hlater hmay
        (fun heq => hreserved _ hsender (heq ▸ hsame.ownerSession ▸ howner))
        (hsame.reconnectUntilMs.trans (h.unleased hfew _ howner id card hcard rfl))
      rwa [hsame.ownerSession] at hdisturbed
    · rw [step_message_of_not_mem host hsender]
      exact .inl ⟨card, hcard, .refl card⟩
  · intro order agent snapshot id card hcard howner
    cases hfeed : DaemonState.autoFeedSession agent with
    | none =>
        cases agent with
        | codex =>
            refine ⟨card, ?_, .refl card⟩
            unfold LoopState.step
            split
            · exact hcard
            · exact hcard
        | zCode | hermes | claude => cases hfeed
    | some owner =>
        exact keeps_feed host h.sound order hfeed snapshot hcard fun heq =>
          hreserved _ howner (heq ▸ autoFeedSession_mem_ownerIds hfeed)
  · intro input hparty id card hcard howner
    have hsteps := registrySteps_step host h.sound input
    rw [hparty] at hsteps
    refine (boardSteps_registry hsteps).keeps hcard fun board later op hsame hlater hdisturbs
      hmay => ?_
    have hdisturbed := disturbs_codex hdisturbs hlater hmay
      (fun hzero => hreserved _ howner (hsame.ownerSession ▸ hzero ▸ by decide))
    rwa [hsame.ownerAgent, hsame.reconnectUntilMs] at hdisturbed

/-- As long as fewer than 997 connections have been accepted, clients and feeds are apart. -/
theorem apart_run {order : WalkOrder} {options : Options} {link : SerialLink} {now : Nat}
    {world : World} {bridge : BridgeRuntime World} {inputs : List (LoopInput World)}
    {preferences snapshot : Option Value} {zcode hermes claude : Bool}
    (hopened : openRuntime host order options link now world = .ok bridge)
    (hfew : ((LoopState.started host order bridge preferences snapshot zcode hermes claude).run
      host inputs).accepted.length < 997) :
    Apart host ((LoopState.started host order bridge preferences snapshot zcode hermes claude).run
      host inputs) := by
  obtain ⟨opened, hjust, hsteps⟩ := exists_justOpened_started host ({} : Allowance World) hopened
    preferences snapshot zcode hermes claude
  have hunleased (owner : Nat) : Unleased opened.taskBoard owner := by
    intro id card hcard
    rw [hjust.cardless id] at hcard
    cases hcard
  have hstarted : Separate (LoopState.started host order bridge preferences snapshot zcode hermes
      claude) := {
    sound := hjust.sound.steps hsteps fun _ => Op.IsStartup.keepsSlots
    numbered := ⟨rfl, rfl⟩
    unleased := fun _ owner _ =>
      (boardSteps_registry hsteps).unleased (fun _ hstartup => hstartup) (hunleased owner) }
  have hrun : Separate ((LoopState.started host order bridge preferences snapshot zcode hermes
      claude).run host inputs) :=
    Library.runFrom_invariant Separate (fun input hinv => hinv.step host input) hstarted
  exact hrun.apart host hfew

end

/-! ## Meetings -/

/-- A list of tasks as a feed or a client publishes it. -/
def taskList (ids : List String) : Value :=
  .object [("tasks", .array (ids.map fun id =>
    .object [("task_id", .string id), ("state", .string "running")]))]

/-- A connection is accepted for an agent. -/
def joins (session : Nat) (agent : AgentId) : List (LoopInput (PluginWorld Unit)) :=
  [.message .ascending (.session (.connected session)),
    .message .ascending (.session (.hello session ⟨agent, some "cli", false⟩))]

/-- A session calls a tool. -/
def calls (session : Nat) (tool : String) (arguments : Value) :
    LoopInput (PluginWorld Unit) :=
  .message .ascending (.session (.request session (.object [("jsonrpc", .string "2.0"),
    ("id", .ofNat 1), ("method", .string "tools/call"),
    ("params", .object [("name", .string tool), ("arguments", arguments)])])))

/-- A client of ZCode. -/
def zcodeJoins : List (LoopInput (PluginWorld Unit)) := .accept :: joins 1 .zCode

/-- A client of ZCode shows a card while the feed of Claude is quiet. -/
theorem apart_desk : ∃ bridge, openRuntime (PluginWorld.host .idle) .ascending oneDevice
    .standalone 0 .initial = .ok bridge ∧
      Apart (PluginWorld.host .idle) ((LoopState.started (PluginWorld.host .idle) .ascending
        bridge none none false false false).run (PluginWorld.host .idle)
          (zcodeJoins ++ [calls 1 "publish_tasks" (taskList ["build"])])) := by
  obtain ⟨bridge, hopened, haccepted⟩ := exists_ok_of
    (fun bridge : BridgeRuntime (PluginWorld Unit) => ((LoopState.started (PluginWorld.host .idle)
      .ascending bridge none none false false false).run (PluginWorld.host .idle) (zcodeJoins ++
        [calls 1 "publish_tasks" (taskList ["build"])])).accepted.length < 997)
    (show gives _ (openRuntime (PluginWorld.host .idle) .ascending oneDevice .standalone 0
      .initial) = true by decide +kernel)
  exact ⟨bridge, hopened, apart_run _ hopened (of_decide_eq_true haccepted)⟩

/-- The owner of a card. -/
def ownerOf (state : LoopState World) (id : String) : Option Nat :=
  (state.bridge.taskBoard.tasks[id]?).map TaskCard.ownerSession

/-- After the inputs, one more takes the card from one owner to another, or off the board; the
client with the number has been accepted. -/
def Changes (inputs : List (LoopInput (PluginWorld Unit))) (input : LoopInput (PluginWorld Unit))
    (client : Nat) (id : String) (before after : Option Nat) : Prop :=
  ∃ state, (desk oneDevice).map (LoopState.run (PluginWorld.host .idle) inputs) = .ok state ∧
    client ∈ state.accepted ∧ ownerOf state id = before ∧
      ownerOf (state.step (PluginWorld.host .idle) input) id = after

theorem changes_of_gives {inputs : List (LoopInput (PluginWorld Unit))}
    {input : LoopInput (PluginWorld Unit)} {client : Nat} {id : String}
    {before after : Option Nat}
    (h : gives (fun state => decide (client ∈ state.accepted ∧ ownerOf state id = before ∧
      ownerOf (state.step (PluginWorld.host .idle) input) id = after))
      ((desk oneDevice).map (LoopState.run (PluginWorld.host .idle) inputs)) = true) :
    Changes inputs input client id before after := by
  obtain ⟨state, hstate, hchecked⟩ := exists_ok_of _ h
  exact ⟨state, hstate, of_decide_eq_true hchecked⟩

/-- Many connections at once. -/
theorem desk_accepts (count : Nat) (later : List (LoopInput (PluginWorld Unit))) :
    (desk oneDevice).map (LoopState.run (PluginWorld.host .idle)
        (List.replicate count .accept ++ later)) =
      (desk oneDevice).map fun state => ({ state with
        nextId := (count + 1) % 2 ^ 64
        accepted := (List.range count).map fun index => (index + 1) % 2 ^ 64 } :
          LoopState (PluginWorld Unit)).run (PluginWorld.host .idle) later := by
  unfold desk
  cases openRuntime (PluginWorld.host .idle) .ascending oneDevice .standalone 0 .initial with
  | error error => rfl
  | ok bridge =>
      refine congrArg Except.ok ?_
      rw [LoopState.run, Library.runFrom_append]
      exact congrArg _ (run_accepts _ count rfl rfl rfl)

/-- The 997th client has the number of the feed of Claude, and clears its card; the first one
takes away the card of the feed of its agent; the Codex database takes over the card a client
of Codex has left; and the ids of the HID frames and of the legacy status are taken over. -/
theorem clients_and_feeds_meet :
    Changes (List.replicate 997 .accept ++ (joins 997 .zCode ++
        [.probe false false false true, .feed .ascending .claude (some (taskList ["claude:a"]))]))
      (calls 997 "publish_tasks" (taskList [])) Bridge.claudePollSession "claude:a"
      (some Bridge.claudePollSession) none ∧
    Changes (zcodeJoins ++ [.feed .ascending .zCode (some (taskList ["zcode:a"]))])
      (calls 1 "publish_tasks" (taskList ["build"])) 1 "zcode:a"
      (some Bridge.zcodePollSession) none ∧
    Changes (.accept :: joins 1 .codex ++ [calls 1 "publish_tasks" (taskList ["build"]),
        .message .ascending (.session (.disconnected 1))])
      (.codexSnapshot .ascending (taskList ["build"])) 1 "build" (some 1) (some 0) ∧
    Changes (zcodeJoins ++ [calls 1 "publish_tasks" (taskList ["codex-hid:0"])])
      (.codexMessage .ascending (.object [("m", .string "v.oai.thstatus"),
        ("p", .array [.object [("id", .ofNat 0)]])])) 1 "codex-hid:0" (some 1) (some 0) ∧
    Changes (zcodeJoins ++ [.codexSnapshot .ascending (taskList ["legacy:1:0"])])
      (calls 1 "set_thread_status" (.object [("status", .array [.object [("id", .ofNat 0)]])]))
      1 "legacy:1:0" (some 0) (some 1) :=
  ⟨changes_of_gives (by rw [desk_accepts]; decide +kernel), changes_of_gives (by decide +kernel),
    changes_of_gives (by decide +kernel), changes_of_gives (by decide +kernel),
    changes_of_gives (by decide +kernel)⟩

end Daemon
end MicroEmu
