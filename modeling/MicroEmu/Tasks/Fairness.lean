import MicroEmu.Library.FairShare
import MicroEmu.Tasks.WorkConservation

/-!
# Fairness of the fill

On a blank board, without partition, layout or memory, only the fill places
cards.  It serves the least served agent that still has a waiting card, and among
its sessions the least served one.  So neither an agent nor a session ever gets
two cards ahead of a rival that still waits (`Balanced`), and from every session
the cards are taken in task order.  The counters the fill compares are the true
numbers of visible cards (`ShareInv.byAgent`, `ShareInv.bySession`).
-/

namespace MicroEmu
namespace Tasks

open Std (ExtTreeMap LawfulEqCmp)
open Routing (AgentId)
open Library

namespace TaskBoard

variable {order : WalkOrder} {board : TaskBoard} {agentOf : Nat → AgentId}

/-- No partition, no layout, no remembered slot and no preference. -/
structure Blank (board : TaskBoard) : Prop where
  assignments : board.assignments.isEmpty = true
  lastSlots : board.lastSlots.isEmpty = true
  primaryPreferences : board.primaryPreferences.isEmpty = true
  partitionedDeviceId : board.partitionedDeviceId = none

theorem Blank.hidden (hblank : board.Blank) (id : String) : board.assignments[id]? = none := by
  rw [ExtTreeMap.isEmpty_iff.mp hblank.assignments]
  exact ExtTreeMap.getElem?_empty

/-- An unpartitioned slot admits everybody. -/
theorem Blank.admits (hblank : board.Blank) (slot : DeviceSlot) (agent : AgentId) :
    (board.slotOwner slot).admits agent = true := by
  unfold slotOwner
  simp [hblank.partitionedDeviceId, SlotConstraint.admits]

/-- On a blank board the passes before the fill do nothing. -/
theorem Blank.pinnedBoard (hblank : board.Blank) (order : WalkOrder) (hwf : board.WellFormed) :
    board.pinnedBoard order = board := by
  have hstill : ∀ id slot, ¬board.Requests id slot := by
    rintro id slot ⟨task, -, -, htarget⟩
    have hremembered : board.rememberedSlot task.taskId = some slot :=
      (stickyTarget_eq_some_iff.mp htarget).1
    unfold rememberedSlot at hremembered
    rw [ExtTreeMap.isEmpty_iff.mp hblank.lastSlots,
      ExtTreeMap.isEmpty_iff.mp hblank.primaryPreferences] at hremembered
    simp at hremembered
  have hpins : board.retainPass.pinRequests order = [] := by
    have hnone : ∀ task, board.retainPass.pinSlot task = none := by
      intro task
      show board.partitionedDeviceId.bind _ = none
      rw [hblank.partitionedDeviceId, Option.bind_none]
    simp [pinRequests_eq, hnone]
  have hretained : board.retainPass.assignments = board.assignments := by
    ext id ⟨slot⟩
    rw [retained_iff, hblank.hidden]
    simp
  unfold TaskBoard.pinnedBoard
  rw [stickyBoard_of_still order hwf hstill]
  unfold pinCodexHidPrimarySlots
  rw [hpins, List.foldl_nil, hretained]
  rfl

/-! ## The shares -/

/-- Some card of the agent waits. -/
def AgentWaits (state : FillState) (agent : AgentId) : Prop :=
  ∃ session, ∃ task ∈ state.waiting session, task.ownerAgent = agent

/-- The counters are true and balanced: over all agents, and over the sessions of
one agent. -/
structure ShareInv (order : WalkOrder) (board : TaskBoard) (agentOf : Nat → AgentId)
    (state : FillState) : Prop where
  byAgent : ∀ agent, state.visible.byAgent agent = (board.candidates order).countP fun task =>
    task.ownerAgent == agent && state.assignments.contains task.taskId
  bySession : ∀ session, state.visible.bySession session =
    (board.candidates order).countP fun task =>
      task.ownerSession == session && state.assignments.contains task.taskId
  agents : Balanced (fun _ _ => True) state.visible.byAgent (AgentWaits state)
  sessions : Balanced (fun s t => agentOf s = agentOf t) state.visible.bySession
    fun session => state.waiting session ≠ []

theorem shareInv_start (hblank : board.Blank) (order : WalkOrder) (agentOf : Nat → AgentId) :
    ShareInv order board agentOf (board.fillStart order) := by
  have hkeys : order.keys board.assignments = [] := by
    rw [List.eq_nil_iff_forall_not_mem]
    intro id hid
    rw [order.mem_keys, ExtTreeMap.mem_iff_isSome_getElem?, hblank.hidden id] at hid
    cases hid
  have hzero : (board.fillStart order).visible = .zero := by
    show board.visibleBefore order = .zero
    unfold visibleBefore
    rw [hkeys]
    rfl
  have hcount : ∀ test : TaskCard → Bool, (board.candidates order).countP (fun task =>
      test task && (board.fillStart order).assignments.contains task.taskId) = 0 := by
    intro test
    rw [List.countP_eq_zero]
    intro task _ hboth
    rw [Bool.and_eq_true] at hboth
    obtain ⟨assignment, hassigned⟩ := contains_iff_exists.mp hboth.2
    have hnone : (board.fillStart order).assignments[task.taskId]? = none :=
      hblank.hidden task.taskId
    rw [hassigned] at hnone
    cases hnone
  refine ⟨fun agent => ?_, fun session => ?_, ?_, ?_⟩
  · rw [hzero, hcount]
    rfl
  · rw [hzero, hcount]
    rfl
  · rw [hzero]
    exact Balanced.start fun _ => rfl
  · rw [hzero]
    exact Balanced.start fun _ => rfl

/-- The session served is one that no waiting session comes before. -/
theorem least_served {state : FillState} {ready other : ReadySession}
    (h : notAbove (sessionOrder state.visible) ready other) :
    state.visible.byAgent ready.head.ownerAgent ≤ state.visible.byAgent other.head.ownerAgent ∧
      (ready.head.ownerAgent = other.head.ownerAgent →
        state.visible.bySession ready.session ≤ state.visible.bySession other.session) := by
  unfold notAbove sessionOrder at h
  constructor
  · by_contra hlt
    have hgt := Nat.compare_eq_gt.mpr (not_le.mp hlt)
    rw [hgt] at h
    exact h rfl
  · intro hagent
    by_contra hlt
    have hgt := Nat.compare_eq_gt.mpr (not_le.mp hlt)
    rw [hagent, Nat.compare_eq_eq.mpr rfl, hgt] at h
    exact h rfl

theorem ShareInv.step (hwf : board.WellFormed) (hblank : board.Blank)
    (huniform : board.Uniform agentOf) {done : List DeviceSlot} {state : FillState}
    {slot : DeviceSlot} (hinv : FillInv order board done state)
    (hshare : ShareInv order board agentOf state) :
    ShareInv order board agentOf (board.fillSlot state slot) := by
  rcases board.fillSlot_cases state slot with ⟨hsame, -⟩ | ⟨ready, hready, hleast, hgrant⟩
  · rw [hsame]
    exact hshare
  · rw [hgrant]
    have hhead : ready.head ∈ state.waiting ready.session := hready.1 ▸ List.mem_cons_self
    have hqueued := (mem_queueOf hwf).mp (hinv.waiting_sub hhead)
    have hcandidate : ready.head ∈ board.candidates order := (mem_candidates hwf).mpr hqueued.1
    have hfresh : state.assignments[ready.head.taskId]? = none := by
      obtain ⟨_, _, _, hwaiting⟩ := hinv.queued ready.session
      exact hwaiting ready.head hhead
    have hcount := fun test : TaskCard → Bool =>
      countP_contains_insert (candidates_nodup order hwf) hcandidate hfresh ⟨slot⟩ test
    have hagent : ready.head.ownerAgent = agentOf ready.session :=
      hinv.waiting_agent hwf huniform hhead
    -- a session that waits has a best task, and every slot admits it
    have hrival : ∀ {session}, state.waiting session ≠ [] → ∃ other,
        other.session = session ∧ other.head.ownerAgent = agentOf session ∧
          notAbove (sessionOrder state.visible) ready other := by
      intro session hwaits
      cases hqueue : state.waiting session with
      | nil => exact absurd hqueue hwaits
      | cons head rest =>
          have hother : board.Ready state slot ⟨session, head, rest⟩ :=
            ⟨hqueue, hblank.admits slot head.ownerAgent⟩
          exact ⟨_, rfl, hinv.waiting_agent hwf huniform (hqueue ▸ List.mem_cons_self),
            hleast _ hother⟩
    refine ⟨fun agent => ?_, fun session => ?_, ?_, ?_⟩
    · show (state.visible.add ready.session ready.head.ownerAgent).byAgent agent = _
      unfold Visible.add granted
      rw [hcount, ← hshare.byAgent]
      by_cases hsame : agent = ready.head.ownerAgent
      · rw [hsame]
        simp
      · simp [hsame, Ne.symm hsame]
    · show (state.visible.add ready.session ready.head.ownerAgent).bySession session = _
      unfold Visible.add granted
      rw [hcount, ← hshare.bySession, hqueued.2]
      by_cases hsame : session = ready.session
      · rw [hsame]
        simp
      · simp [hsame, Ne.symm hsame]
    · refine (hshare.agents.serve fun agent _ hwaits => ?_).anti fun agent hwaits => ?_
      · obtain ⟨session, task, htask, rfl⟩ := hwaits
        obtain ⟨other, -, hother, hle⟩ := hrival (List.ne_nil_of_mem htask)
        rw [hinv.waiting_agent hwf huniform htask, ← hother]
        exact (least_served hle).1
      · obtain ⟨session, task, htask, hof⟩ := hwaits
        exact ⟨session, task, granted_waiting_sub hready htask, hof⟩
    · refine (hshare.sessions.serve fun session hsameAgent hwaits => ?_).anti
        fun session hwaits => ?_
      · obtain ⟨other, rfl, hother, hle⟩ := hrival hwaits
        exact (least_served hle).2 (by rw [hagent, hother, hsameAgent])
      · obtain ⟨task, htask⟩ := List.exists_mem_of_ne_nil _ hwaits
        exact List.ne_nil_of_mem (granted_waiting_sub hready htask)

/-! ## Max-min fairness -/

/-- Number of visible cards that pass a test. -/
def visibleCount (board : TaskBoard) (test : TaskCard → Bool) : Nat :=
  board.tasks.toList.countP fun entry => test entry.2 && board.assignments.contains entry.1

/-- The eligible cards of a session, in task order. -/
def eligibleQueue (board : TaskBoard) (session : Nat) : List TaskCard :=
  (((board.tasks.toList.map Prod.snd).filter (·.state.eligible)).insertionSort
    (notAbove taskOrder)).filter (·.ownerSession == session)

/-- A fair share: an agent two cards behind another one shows all its eligible
cards, so does a session two cards behind another one of the same agent, and what
every session shows are the first of its eligible cards. -/
structure FairShare (agentOf : Nat → AgentId) (board : TaskBoard) : Prop where
  eligible : ∀ (id : String) (task : TaskCard), board.tasks[id]? = some task →
    board.assignments.contains id = true → task.state.eligible = true
  agents : ∀ agent other,
    visibleCount board (·.ownerAgent == other) + 1 < visibleCount board (·.ownerAgent == agent) →
      ∀ (id : String) (task : TaskCard), board.tasks[id]? = some task →
        task.state.eligible = true → task.ownerAgent = other →
          board.assignments.contains id = true
  sessions : ∀ session other, agentOf session = agentOf other →
    visibleCount board (·.ownerSession == other) + 1 <
        visibleCount board (·.ownerSession == session) →
      ∀ (id : String) (task : TaskCard), board.tasks[id]? = some task →
        task.state.eligible = true → task.ownerSession = other →
          board.assignments.contains id = true
  firstOnes : ∀ session,
    ((board.eligibleQueue session).filter fun task =>
      board.assignments.contains task.taskId) <+: board.eligibleQueue session

/-- After the fill of a blank board the visible cards are counted among the
candidates. -/
theorem visibleCount_fairFill (hwf : board.WellFormed) (hblank : board.Blank)
    (hinv : FillInv order board board.freeSlots (board.fillResult order))
    (test : TaskCard → Bool) :
    visibleCount (board.fairFill order) test = (board.candidates order).countP fun task =>
      test task && (board.fillResult order).assignments.contains task.taskId := by
  have hkeyed : visibleCount (board.fairFill order) test =
      (board.tasks.toList.map Prod.snd).countP fun task =>
        test task && (board.fillResult order).assignments.contains task.taskId := by
    rw [List.countP_map]
    refine List.countP_congr fun entry hentry => ?_
    have hid : entry.2.taskId = entry.1 :=
      hwf.keyed (ExtTreeMap.mem_toList_iff_getElem?_eq_some.mp hentry)
    show (test entry.2 && (board.fillResult order).assignments.contains entry.1) = true ↔ _
    rw [Function.comp_apply, hid]
  have hcandidates : (board.candidates order).Perm
      ((order.values board.tasks).filter board.unplaced) := List.perm_insertionSort _ _
  rw [hkeyed, hcandidates.countP_eq, List.countP_filter,
    (values_perm order .ascending board.tasks).countP_eq]
  refine List.countP_congr fun task htask => ?_
  -- a visible card has been placed by the fill, so it was a candidate
  have hcandidate : (board.fillResult order).assignments.contains task.taskId = true →
      board.unplaced task = true := by
    intro hvisible
    obtain ⟨⟨slot⟩, hassigned⟩ := contains_iff_exists.mp hvisible
    rcases hinv.only hassigned with hold | ⟨-, other, hother, hid, -⟩
    · rw [hblank.hidden] at hold
      cases hold
    · have hcard := (WalkOrder.ascending.mem_values_iff hwf).mp htask
      obtain ⟨hother, heligible, hnone⟩ := (mem_candidates hwf).mp hother
      rw [hid, hcard] at hother
      obtain rfl := Option.some.inj hother
      exact unplaced_iff.mpr ⟨heligible, hnone⟩
  cases hvisible : (board.fillResult order).assignments.contains task.taskId with
  | false => simp
  | true => simp [hcandidate hvisible]

/-- The queue of a session before the fill of a blank board holds its eligible
cards. -/
theorem queueOf_blank (order : WalkOrder) (hwf : board.WellFormed) (hblank : board.Blank)
    (session : Nat) : queueOf order board session = board.eligibleQueue session := by
  have hunplaced : board.unplaced = fun task => task.state.eligible := by
    funext task
    unfold unplaced
    rw [contains_eq_false_iff.mpr (hblank.hidden task.taskId)]
    simp
  unfold queueOf candidates eligibleQueue
  rw [sorted_cards_eq order .ascending hwf, hunplaced]
  rfl

theorem fairFill_fairShare (order : WalkOrder) (hwf : board.WellFormed) (hblank : board.Blank)
    (huniform : board.Uniform agentOf) : FairShare agentOf (board.fairFill order) := by
  have hinj : SlotInjective board.assignments := by
    intro a b assignment ha
    rw [hblank.hidden] at ha
    cases ha
  have hinv : FillInv order board board.freeSlots (board.fillResult order) :=
    fillResult_inv hwf hinj
  have hshare : ShareInv order board agentOf (board.fillResult order) :=
    @fill_induction order board hwf hinj (fun _ state => ShareInv order board agentOf state)
      (shareInv_start hblank order agentOf) fun hinv h _ _ => h.step hwf hblank huniform hinv
  -- an eligible card that is not shown still waits in its session
  have hwaits : ∀ {id : String} {task : TaskCard}, board.tasks[id]? = some task →
      task.state.eligible = true → (board.fairFill order).assignments.contains id ≠ true →
        task ∈ (board.fillResult order).waiting task.ownerSession := by
    intro id task htask heligible hhidden
    obtain rfl := hwf.keyed htask
    exact hinv.waiting_of_hidden hwf htask heligible
      (contains_eq_false_iff.mp (Bool.eq_false_iff.mpr hhidden))
  refine ⟨?_, ?_, ?_, fun session => ?_⟩
  · intro id task htask hvisible
    obtain ⟨⟨slot⟩, hassigned⟩ := contains_iff_exists.mp hvisible
    rcases hinv.only hassigned with hold | ⟨-, other, hother, hid, -⟩
    · rw [hblank.hidden] at hold
      cases hold
    · obtain ⟨hcard, heligible, -⟩ := (mem_candidates hwf).mp hother
      have hsame : board.tasks[id]? = some task := htask
      rw [hid, hsame] at hcard
      exact Option.some.inj hcard ▸ heligible
  · intro agent other hgap id task htask heligible hof
    by_contra hhidden
    rw [visibleCount_fairFill hwf hblank hinv, visibleCount_fairFill hwf hblank hinv,
      ← hshare.byAgent, ← hshare.byAgent] at hgap
    have hle := hshare.agents agent other trivial
      ⟨_, task, hwaits htask heligible hhidden, hof⟩
    omega
  · intro session other hsame hgap id task htask heligible hof
    by_contra hhidden
    rw [visibleCount_fairFill hwf hblank hinv, visibleCount_fairFill hwf hblank hinv,
      ← hshare.bySession, ← hshare.bySession] at hgap
    have hwaiting := hwaits htask heligible hhidden
    rw [hof] at hwaiting
    have hle := hshare.sessions session other hsame (List.ne_nil_of_mem hwaiting)
    omega
  · show ((board.eligibleQueue session).filter fun task =>
      (board.fillResult order).assignments.contains task.taskId) <+: board.eligibleQueue session
    obtain ⟨taken, hqueue, htaken, hwaiting⟩ := hinv.queued session
    rw [← queueOf_blank order hwf hblank, hqueue, List.filter_append]
    have hshown : (taken.filter fun task =>
        (board.fillResult order).assignments.contains task.taskId) = taken := by
      rw [List.filter_eq_self]
      intro task htask
      obtain ⟨slot, -, hassigned, -⟩ := htaken task htask
      exact contains_iff_exists.mpr ⟨_, hassigned⟩
    have hrest : (((board.fillResult order).waiting session).filter fun task =>
        (board.fillResult order).assignments.contains task.taskId) = [] := by
      rw [List.filter_eq_nil_iff]
      intro task htask hcontains
      rw [contains_eq_false_iff.mpr (hwaiting task htask)] at hcontains
      cases hcontains
    rw [hshown, hrest, List.append_nil]
    exact List.prefix_append _ _

/-- Reallocating a blank board, whose sessions each publish for one agent, gives a
fair share. -/
theorem max_min_fairness (agentOf : Nat → AgentId) (order : WalkOrder) {board : TaskBoard}
    (hwf : board.WellFormed) (hblank : board.Blank) (huniform : board.Uniform agentOf) :
    FairShare agentOf (board.reallocate order) := by
  have hfair := fairFill_fairShare order hwf hblank huniform
  have hassignments : (board.reallocate order).assignments =
      (board.fairFill order).assignments := by
    rw [reallocate_assignments, hblank.pinnedBoard order hwf]
    rfl
  obtain ⟨_, _, _, _, _, hframe⟩ := reallocate_frame order board
  rw [hframe] at hassignments ⊢
  simp only at hassignments
  subst hassignments
  exact ⟨hfair.eligible, hfair.agents, hfair.sessions, hfair.firstOnes⟩

/-- Two sessions of different agents publish before there is a controller. -/
def twoAgents : List (WalkOrder × Op) :=
  [(.ascending, .publishTasks 1 .zCode (.object [("tasks", .array
      [.object [("task_id", .string "a")], .object [("task_id", .string "b")]])]) 10),
    (.ascending, .publishTasks 2 .hermes (.object [("tasks", .array
      [.object [("task_id", .string "c")]])]) 20)]

/-- Their board with a controller of two slots, before the reallocation. -/
def twoAgentsDeck : TaskBoard :=
  { run twoAgents default with
    devices := (run twoAgents default).devices.insert "deck" (deviceSlots "deck" 2) }

/-- Each agent gets one of the two slots, though one has two cards. -/
theorem max_min_fairness_deck :
    FairShare (fun session => if session = 1 then .zCode else .hermes)
        (twoAgentsDeck.reallocate .ascending) ∧
      visibleCount (twoAgentsDeck.reallocate .ascending) (·.ownerAgent == .zCode) = 1 ∧
        visibleCount (twoAgentsDeck.reallocate .ascending) (·.ownerAgent == .hermes) = 1 := by
  have hdeck : handover .ascending (run twoAgents default) (.setDevice "deck" 2 true) =
      some twoAgentsDeck := rfl
  have hwf : twoAgentsDeck.WellFormed :=
    (handed_of_handover hdeck).wellFormed (placed_run twoAgents).wellFormed
  have huniform : (run twoAgents default).Uniform
      (fun session => if session = 1 then .zCode else .hermes) := by
    refine uniform_default.run fun step hstep session agent hpublisher => ?_
    rcases List.mem_pair.mp hstep with rfl | rfl
    · obtain ⟨rfl, rfl⟩ := Prod.mk.inj (Option.some.inj hpublisher)
      rfl
    · obtain ⟨rfl, rfl⟩ := Prod.mk.inj (Option.some.inj hpublisher)
      rfl
  have hblank : twoAgentsDeck.Blank :=
    ⟨by decide +kernel, by decide +kernel, by decide +kernel, by decide +kernel⟩
  exact ⟨max_min_fairness _ .ascending hwf hblank huniform, by decide +kernel,
    by decide +kernel⟩

end TaskBoard
end Tasks
end MicroEmu
