import MicroEmu.Tasks.HidPins
import MicroEmu.Tasks.Isolation

/-!
# Independence of the iteration order

The board walks hash maps, and a hash map hands out its entries in any order.
Most walks forget it: the pins and the candidates are sorted, counters and maps
built from a walk do not depend on its order, and a slot has one occupant.  Two
walks do not.  The sticky pass serves the tasks first come, first served, so two
tasks that ask for one slot race for it (`Uncontested`); and a HID handoff selects
the first catalog card it meets on the promoted position (`HandoffClear`).

Where neither happens, two runs of the same operations end with the same board.
Maps are extensional here, so this is an equality of boards.
-/

namespace MicroEmu
namespace Tasks

open Std (ExtTreeMap LawfulEqCmp TransCmp)
open Json (Value)
open Routing (AgentId)
open Library

namespace TaskBoard

variable {board : TaskBoard}

/-! ## The passes of a reallocation -/

/-- No two tasks ask for the same slot. -/
def Uncontested (board : TaskBoard) : Prop :=
  ∀ a b slot, board.Requests a slot → board.Requests b slot → a = b

/-- The sticky pass of an uncontested board grants every request. -/
theorem stickyBoard_iff (order : WalkOrder) (hwf : board.WellFormed)
    (hinj : SlotInjective board.assignments) (huncontested : board.Uncontested) {id : String}
    {slot : DeviceSlot} :
    (board.stickyBoard order).assignments[id]? = some ⟨slot⟩ ↔
      board.retainPass.assignments[id]? = some ⟨slot⟩ ∨ board.Requests id slot := by
  have hp := represents_placementOf (retainPass_injective hinj)
  have hfresh := stickyRequests_fresh order (retainPass_wellFormed hwf) hp
  have hfree : ∀ r ∈ board.retainPass.stickyRequests order,
      ¬(placementOf board.retainPass.assignments (retainPass_injective hinj)).Taken r.2 := by
    intro r hr htaken
    obtain ⟨_, -, -, htarget⟩ := (mem_requests order hwf).mp hr
    have hempty := (stickyTarget_eq_some_iff.mp htarget).2.2.1
    rw [hp.taken_iff.mpr htaken] at hempty
    cases hempty
  have hslots : ∀ r ∈ board.retainPass.stickyRequests order,
      ∀ q ∈ board.retainPass.stickyRequests order, r.2 = q.2 → r.1 = q.1 := by
    intro r hr q hq hslot
    have hasked := (mem_requests order hwf).mp hq
    rw [← hslot] at hasked
    exact huncontested r.1 q.1 r.2 ((mem_requests order hwf).mp hr) hasked
  unfold stickyBoard
  rw [(stickyPass_represents hp).at_iff, Placement.settleAll_at_iff hfresh hfree hslots, hp.at_iff,
    mem_requests order hwf]

theorem stickyBoard_order_free (order order' : WalkOrder) (hwf : board.WellFormed)
    (hinj : SlotInjective board.assignments) (huncontested : board.Uncontested) :
    board.stickyBoard order = board.stickyBoard order' := by
  have hassignments : (board.stickyBoard order).assignments =
      (board.stickyBoard order').assignments := by
    ext id ⟨slot⟩
    rw [stickyBoard_iff order hwf hinj huncontested, stickyBoard_iff order' hwf hinj huncontested]
  have hframe : ∀ walk : WalkOrder, board.stickyBoard walk =
      { board with assignments := (board.stickyBoard walk).assignments } := fun _ => rfl
  rw [hframe order, hframe order', hassignments]

theorem pinPass_order_free (order order' : WalkOrder) (hwf : board.WellFormed)
    (hinj : SlotInjective board.assignments) :
    board.pinCodexHidPrimarySlots order = board.pinCodexHidPrimarySlots order' := by
  have hassignments : (board.pinCodexHidPrimarySlots order).assignments =
      (board.pinCodexHidPrimarySlots order').assignments := by
    ext id ⟨slot⟩
    rw [pinPass_iff hwf hinj, pinPass_iff hwf hinj]
  have hframe : ∀ walk : WalkOrder, board.pinCodexHidPrimarySlots walk =
      { board with assignments := (board.pinCodexHidPrimarySlots walk).assignments } :=
    fun _ => rfl
  rw [hframe order, hframe order', hassignments]

theorem Visible.add_comm (visible : Visible) (s t : Nat) (a b : AgentId) :
    (visible.add s a).add t b = (visible.add t b).add s a := by
  unfold Visible.add
  congr 1
  · funext session
    by_cases hs : session = s <;> by_cases ht : session = t <;>
      simp [Function.update_apply, hs, ht] <;> split <;> simp_all
  · funext agent
    by_cases ha : agent = a <;> by_cases hb : agent = b <;>
      simp [Function.update_apply, ha, hb] <;> split <;> simp_all

/-- Recounting the visible cards gives the same counters in every order. -/
theorem visibleBefore_order_free (order order' : WalkOrder) :
    board.visibleBefore order = board.visibleBefore order' := by
  have hperm : (order.keys board.assignments).Perm (order'.keys board.assignments) :=
    ((order.perm board.assignments.toList).trans
      (order'.perm board.assignments.toList).symm).map Prod.fst
  unfold visibleBefore
  refine hperm.foldl_eq' (fun a _ b _ visible => ?_) Visible.zero
  cases board.tasks[a]? with
  | none => rfl
  | some first =>
      cases board.tasks[b]? with
      | none => rfl
      | some second => exact Visible.add_comm visible ..

theorem fairFill_order_free (order order' : WalkOrder) (hwf : board.WellFormed) :
    board.fairFill order = board.fairFill order' := by
  have hstart : board.fillStart order = board.fillStart order' := by
    have hcandidates : board.candidates order = board.candidates order' :=
      sorted_cards_eq order order' hwf board.unplaced
    unfold fillStart
    rw [hcandidates, visibleBefore_order_free order order']
  unfold fairFill fillResult
  rw [hstart]

/-- Whatever is written into a map from a walk, one entry for each key. -/
theorem foldl_insert_order_free {β γ : Type} (order order' : WalkOrder)
    (map : ExtTreeMap String β) (test : String × β → Bool) (value : String × β → γ)
    (start : ExtTreeMap String γ) :
    ((order.entries map).filter test).foldl (fun m e => m.insert e.1 (value e)) start =
      ((order'.entries map).filter test).foldl (fun m e => m.insert e.1 (value e)) start := by
  have hnodup : ∀ walk : WalkOrder,
      (((walk.entries map).filter test).map Prod.fst).Nodup := fun walk =>
    (walk.nodup_keys map).sublist (List.filter_sublist.map _)
  have hmem : ∀ walk : WalkOrder, ∀ e : String × β,
      e ∈ (walk.entries map).filter test ↔ map[e.1]? = some e.2 ∧ test e = true := by
    rintro walk ⟨id, v⟩
    rw [List.mem_filter, walk.mem_entries]
  ext id v
  rw [getElem?_foldl_insert Prod.fst value (hnodup order),
    getElem?_foldl_insert Prod.fst value (hnodup order')]
  simp only [List.mem_map, hmem]

theorem rememberSlots_order_free (order order' : WalkOrder) :
    board.rememberSlots order = board.rememberSlots order' := by
  have hlast := foldl_insert_order_free order order' board.assignments (fun _ => true)
    (fun entry => entry.2.slot) board.lastSlots
  have hpreferences := foldl_insert_order_free order order' board.assignments
    (fun entry => board.partitionedDeviceId == some entry.2.slot.deviceId)
    (fun entry => entry.2.slot.slot) board.primaryPreferences
  rw [List.filter_true, List.filter_true] at hlast
  simp only [List.foldl_filter, beq_iff_eq] at hpreferences
  unfold rememberSlots
  simp only [hlast, hpreferences]

/-- An uncontested board is reallocated in one way. -/
theorem reallocate_order_free (order order' : WalkOrder) (hwf : board.WellFormed)
    (hinj : SlotInjective board.assignments) (huncontested : board.Uncontested) :
    board.reallocate order = board.reallocate order' := by
  obtain ⟨selected, pending, hrepair⟩ := repairSelection_frame board
  let focused : TaskBoard := { board with selected, pendingSelection := pending }
  have hwf' : focused.WellFormed := hwf.congr rfl rfl
  have hinj' : SlotInjective focused.assignments := hinj
  have huncontested' : focused.Uncontested := huncontested
  have hsticky := stickyBoard_order_free order order' hwf' hinj' huncontested'
  have hinjSticky : SlotInjective (focused.stickyBoard order').assignments :=
    stickyBoard_injective order' hinj'
  have hpins : (focused.stickyBoard order').pinCodexHidPrimarySlots order =
      (focused.stickyBoard order').pinCodexHidPrimarySlots order' :=
    pinPass_order_free order order' (hwf'.congr rfl rfl) hinjSticky
  have hfill : ((focused.stickyBoard order').pinCodexHidPrimarySlots order').fairFill order =
      ((focused.stickyBoard order').pinCodexHidPrimarySlots order').fairFill order' :=
    fairFill_order_free order order' (hwf'.congr rfl rfl)
  unfold reallocate
  rw [hrepair]
  show rememberSlots order (fairFill order
      (pinCodexHidPrimarySlots order (focused.stickyBoard order))) =
    rememberSlots order' (fairFill order'
      (pinCodexHidPrimarySlots order' (focused.stickyBoard order')))
  rw [hsticky, hpins, hfill, rememberSlots_order_free order order']

/-! ## Before the reallocation -/

theorem mem_taskIdsWhere_iff (order order' : WalkOrder) (test : String → TaskCard → Bool)
    (id : String) : id ∈ board.taskIdsWhere order test ↔ id ∈ board.taskIdsWhere order' test := by
  rw [mem_taskIdsWhere, mem_taskIdsWhere]

theorem isEmpty_taskIdsWhere (order order' : WalkOrder) (test : String → TaskCard → Bool) :
    (board.taskIdsWhere order test).isEmpty = (board.taskIdsWhere order' test).isEmpty := by
  rw [Bool.eq_iff_iff, List.isEmpty_iff, List.isEmpty_iff, List.eq_nil_iff_forall_not_mem,
    List.eq_nil_iff_forall_not_mem]
  simp only [mem_taskIdsWhere_iff order order' test]

theorem foldl_removeTask_order_free (order order' : WalkOrder)
    (test : String → TaskCard → Bool) :
    (board.taskIdsWhere order test).foldl removeTask board =
      (board.taskIdsWhere order' test).foldl removeTask board := by
  have hmem : ∀ id, id ∈ board.taskIdsWhere order test ↔ id ∈ board.taskIdsWhere order' test :=
    mem_taskIdsWhere_iff order order' test
  rw [foldl_removeTask, foldl_removeTask, foldl_erase_congr hmem, foldl_erase_congr hmem,
    foldl_erase_congr hmem]

theorem replacedBoard_order_free (order order' : WalkOrder) (session : Nat)
    (cards : List TaskCard) (nowMs : Nat) :
    replacedBoard order board session cards nowMs =
      replacedBoard order' board session cards nowMs := by
  unfold replacedBoard
  rw [foldl_removeTask_order_free order order']

/-- A visible catalog card on the position of the promoted card is the only
catalog card there. -/
def HandoffClear (board : TaskBoard) (updates : List HidUpdate) : Prop :=
  ∀ update sourceSlot a b, updates.find? HidUpdate.promoted = some update →
    update.card.sourceSlot = some sourceSlot →
    board.tasks[TaskCard.taskId a]? = some a → board.tasks[TaskCard.taskId b]? = some b →
    isCatalogCardAt sourceSlot a = true → isCatalogCardAt sourceSlot b = true →
    board.assignments.contains a.taskId = true → a = b

theorem followHandoff_order_free (order order' : WalkOrder) (hwf : board.WellFormed)
    {updates : List HidUpdate} (hclear : board.HandoffClear updates) :
    board.followHandoff order updates = board.followHandoff order' updates := by
  unfold followHandoff
  cases hpromoted : updates.find? HidUpdate.promoted with
  | none => rfl
  | some update =>
      simp only
      unfold handoffTask
      cases hsource : update.card.sourceSlot with
      | none => rfl
      | some sourceSlot =>
          have hcatalog : ∀ (walk : WalkOrder) (task : TaskCard),
              (walk.values board.tasks).find? (isCatalogCardAt sourceSlot) = some task →
                board.tasks[task.taskId]? = some task ∧ isCatalogCardAt sourceSlot task = true :=
            fun walk task hfind => ⟨(walk.mem_values_iff hwf).mp (List.mem_of_find?_eq_some hfind),
              List.find?_some hfind⟩
          simp only [Option.bind_some]
          cases hfirst : (order.values board.tasks).find? (isCatalogCardAt sourceSlot) with
          | none =>
              have hnone :
                  (order'.values board.tasks).find? (isCatalogCardAt sourceSlot) = none := by
                rw [List.find?_eq_none] at hfirst ⊢
                intro task hmem
                exact hfirst task ((values_perm order order' board.tasks).mem_iff.mpr hmem)
              rw [hnone]
          | some a =>
              obtain ⟨htaskA, hcatalogA⟩ := hcatalog order a hfirst
              cases hsecond : (order'.values board.tasks).find? (isCatalogCardAt sourceSlot) with
              | none =>
                  have hmem := (order'.mem_values_iff hwf).mpr htaskA
                  exact absurd hcatalogA (List.find?_eq_none.mp hsecond a hmem)
              | some b =>
                  obtain ⟨htaskB, hcatalogB⟩ := hcatalog order' b hsecond
                  simp only [Option.map_some, Option.getD_some]
                  -- two different cards can only both be out of sight
                  by_cases hvisible : board.assignments.contains a.taskId = true
                  · rw [hclear update sourceSlot a b hpromoted hsource htaskA htaskB hcatalogA
                      hcatalogB hvisible]
                  · by_cases hvisible' : board.assignments.contains b.taskId = true
                    · have heq := hclear update sourceSlot b a hpromoted hsource htaskB htaskA
                        hcatalogB hcatalogA hvisible'
                      exact absurd (heq ▸ hvisible') hvisible
                    · rw [if_neg hvisible, if_neg hvisible']

/-- The updates of a HID frame that hands the selection over. -/
def handoffUpdates (board : TaskBoard) : Op → Option (List HidUpdate)
  | .publishCodexHidStatus value nowMs =>
      value.asArray.bind fun entries =>
        ((board.dropExpiredGuards nowMs).hidUpdates entries nowMs).toOption.filter
          selectionHandoff
  | _ => none

/-- No race decides what the operation does: the board it hands to the
reallocation is uncontested, and a handoff meets one card at most. -/
structure OrderFree (board : TaskBoard) (op : Op) : Prop where
  uncontested : ∀ {order : WalkOrder} {m : TaskBoard},
    handover order board op = some m → m.Uncontested
  handoff : ∀ {updates : List HidUpdate},
    board.handoffUpdates op = some updates → board.HandoffClear updates

theorem hidBoard_order_free (order order' : WalkOrder) (hwf : board.WellFormed)
    {updates : List HidUpdate} (nowMs : Nat)
    (hclear : selectionHandoff updates = true → board.HandoffClear updates) :
    board.hidBoard order updates nowMs = board.hidBoard order' updates nowMs := by
  unfold hidBoard
  cases hhandoff : selectionHandoff updates with
  | false => rfl
  | true =>
      simp only [if_true]
      rw [followHandoff_order_free order order' hwf (hclear hhandoff)]

/-- The board handed to the reallocation does not depend on the walk order. -/
theorem handover_order_free (order order' : WalkOrder) (hwf : board.WellFormed) {op : Op}
    (hclear : ∀ {updates : List HidUpdate},
      board.handoffUpdates op = some updates → board.HandoffClear updates) :
    handover order board op = handover order' board op := by
  cases op with
  | publishTasks session agent value nowMs =>
      rw [handover, handover]
      simp only [replacedBoard_order_free order order']
  | publishCodexSnapshot value nowMs =>
      rw [handover, handover]
      simp only [replacedBoard_order_free order order']
  | publishLegacyStatus session agent value nowMs =>
      rw [handover, handover]
      simp only [replacedBoard_order_free order order']
  | publishCodexHidStatus value nowMs =>
      rw [handover, handover]
      cases hentries : value.asArray with
      | none => rfl
      | some entries =>
          rw [Option.bind_some, Option.bind_some]
          cases hupdates : (board.dropExpiredGuards nowMs).hidUpdates entries nowMs with
          | error message => rfl
          | ok updates =>
              have hclear : selectionHandoff updates = true → board.HandoffClear updates := by
                intro hhandoff
                refine hclear ?_
                simp only [handoffUpdates, hentries, hupdates, Option.bind_some,
                  Except.toOption, Option.filter_some, hhandoff, if_true]
              have hguarded : (board.dropExpiredGuards nowMs).WellFormed := hwf.congr rfl rfl
              exact congrArg some (hidBoard_order_free order order' hguarded nowMs hclear)
  | clearSession session =>
      rw [handover, handover, removedBoard, removedBoard]
      rw [isEmpty_taskIdsWhere order order', foldl_removeTask_order_free order order']
  | expire nowMs =>
      rw [handover, handover, removedBoard, removedBoard]
      rw [isEmpty_taskIdsWhere order order', foldl_removeTask_order_free order order']
  | setDevice | setSlotOwners | clearDevices | disconnectSession | select | selectTask
  | autoSelectWaiting | guardSelectionActivation | setSelectedModel
  | restoreSlotPreferences => rfl

/-! ## One operation -/

theorem occupant_order_free (order order' : WalkOrder)
    (hinj : SlotInjective board.assignments) (deviceId : String) (slot : Nat) :
    board.occupant order deviceId slot = board.occupant order' deviceId slot := by
  ext id
  rw [occupant_eq_some_iff hinj, occupant_eq_some_iff hinj]

instance : TransCmp waitingOrder :=
  inferInstanceAs (TransCmp (compareLex (fun a b => compareOn TaskCard.priority b a)
    (compareLex (compareOn TaskCard.updatedAtMs)
      (fun a b => compareOn TaskCard.taskId b a))))

/-- The waiting task to select is the greatest in an order that ends with the id. -/
theorem maxWaiting_order_free (order order' : WalkOrder) (hwf : board.WellFormed)
    (test shown : TaskCard → Bool) :
    maxBy? waitingOrder (((order.values board.tasks).filter test).filter shown) =
      maxBy? waitingOrder (((order'.values board.tasks).filter test).filter shown) := by
  refine maxBy?_eq_of_perm (((values_perm order order' board.tasks).filter test).filter shown) ?_
  -- cards that compare equal have one id, so they are one card
  intro a ha b hb heq
  simp only [waitingOrder, Ordering.then_eq_eq] at heq
  have hid : a.taskId = b.taskId := (LawfulEqCmp.compare_eq_iff_eq.mp heq.2.2).symm
  have htaskA := (order.mem_values_iff hwf).mp (List.mem_filter.mp (List.mem_filter.mp ha).1).1
  have htaskB := (order.mem_values_iff hwf).mp (List.mem_filter.mp (List.mem_filter.mp hb).1).1
  rw [hid, htaskB] at htaskA
  exact (Option.some.inj htaskA).symm

/-- What is handed over is well formed and uncontested, so it is reallocated in
one way. -/
theorem handover_reallocate_order_free (order order' : WalkOrder) (hplaced : Placed board)
    {op : Op} (hfree : board.OrderFree op) {m : TaskBoard}
    (hm : handover order board op = some m) : m.reallocate order = m.reallocate order' := by
  have hhanded := handed_of_handover hm
  exact reallocate_order_free order order' (hhanded.wellFormed hplaced.wellFormed)
    (hhanded.injective hplaced.injective) (hfree.uncontested hm)

theorem replaceSessionTasks_order_free (order order' : WalkOrder) (hplaced : Placed board)
    {op : Op} (hfree : board.OrderFree op) {session nowMs : Nat} {cards : List TaskCard}
    (hm : handover order board op = some (replacedBoard order board session cards nowMs)) :
    board.replaceSessionTasks order session cards nowMs =
      board.replaceSessionTasks order' session cards nowMs := by
  rw [replaceSessionTasks_eq, handover_reallocate_order_free order order' hplaced hfree hm,
    replaceSessionTasks_eq, replacedBoard_order_free order order']

/-- An operation without a race leaves one board, whatever the walk orders. -/
theorem apply_order_free (order order' : WalkOrder) (hplaced : Placed board) {op : Op}
    (hfree : board.OrderFree op) : board.apply order op = board.apply order' op := by
  have hhandover := handover_order_free order order' hplaced.wellFormed hfree.handoff
  have hrelaid : ∀ m, handover order board op = some m →
      m.reallocate order = m.reallocate order' := fun m hm =>
    handover_reallocate_order_free order order' hplaced hfree hm
  cases op with
  | setDevice deviceId taskSlots connected =>
      have hm := hrelaid _ rfl
      show board.setDevice order deviceId taskSlots connected =
        board.setDevice order' deviceId taskSlots connected
      unfold setDevice
      cases connected with
      | true => exact hm
      | false => exact hm
  | setSlotOwners deviceId owners =>
      show board.setSlotOwners order deviceId owners = board.setSlotOwners order' deviceId owners
      unfold setSlotOwners
      split
      · rename_i hchanged
        exact hrelaid _ (if_pos hchanged)
      · rfl
  | publishTasks session agent value nowMs =>
      show (board.publishTasks order session agent value nowMs).2 =
        (board.publishTasks order' session agent value nowMs).2
      unfold publishTasks
      cases hcards : board.publishedCards session agent value nowMs with
      | error message => rfl
      | ok cards =>
          have hm : handover order board (.publishTasks session agent value nowMs) =
              some (replacedBoard order board session cards nowMs) := by
            rw [handover, hcards]
            rfl
          simp only [replaceSessionTasks_order_free order order' hplaced hfree hm]
  | publishCodexSnapshot value nowMs =>
      show (board.publishCodexSnapshot order value nowMs).2 =
        (board.publishCodexSnapshot order' value nowMs).2
      unfold publishCodexSnapshot publishTasks
      cases hcards : board.publishedCards 0 .codex value nowMs with
      | error message => rfl
      | ok cards =>
          have hm : handover order board (.publishCodexSnapshot value nowMs) =
              some (replacedBoard order board 0 cards nowMs) := by
            rw [handover, hcards]
            rfl
          simp only [replaceSessionTasks_order_free order order' hplaced hfree hm]
  | publishLegacyStatus session agent value nowMs =>
      show (board.publishLegacyStatus order session agent value nowMs).2 =
        (board.publishLegacyStatus order' session agent value nowMs).2
      unfold publishLegacyStatus
      cases hcards : legacyCards session agent value nowMs with
      | error message => rfl
      | ok cards =>
          have hm : handover order board (.publishLegacyStatus session agent value nowMs) =
              some (replacedBoard order board session cards nowMs) := by
            rw [handover, hcards]
            rfl
          simp only [replaceSessionTasks_order_free order order' hplaced hfree hm]
  | publishCodexHidStatus value nowMs =>
      show (board.publishCodexHidStatus order value nowMs).2 =
        (board.publishCodexHidStatus order' value nowMs).2
      rw [handover, handover] at hhandover
      unfold publishCodexHidStatus
      cases hentries : value.asArray with
      | none => rfl
      | some entries =>
          simp only
          cases hupdates : (board.dropExpiredGuards nowMs).hidUpdates entries nowMs with
          | error message => rfl
          | ok updates =>
              rw [hentries, Option.bind_some, Option.bind_some, hupdates] at hhandover
              have hsame : (board.dropExpiredGuards nowMs).hidBoard order updates nowMs =
                  (board.dropExpiredGuards nowMs).hidBoard order' updates nowMs :=
                Option.some.inj hhandover
              have hm := hrelaid ((board.dropExpiredGuards nowMs).hidBoard order updates nowMs)
                (by rw [handover, hentries, Option.bind_some, hupdates]; rfl)
              show ((board.dropExpiredGuards nowMs).hidBoard order updates nowMs).reallocate
                  order = ((board.dropExpiredGuards nowMs).hidBoard order' updates nowMs).reallocate
                  order'
              rw [hm, hsame]
  | clearSession session =>
      show board.clearSession order session = board.clearSession order' session
      unfold clearSession
      simp only
      rw [isEmpty_taskIdsWhere order order', ← foldl_removeTask_order_free order order']
      split
      · rfl
      · rename_i hremoved
        refine hrelaid _ ?_
        rw [handover, removedBoard, isEmpty_taskIdsWhere order order', if_neg hremoved]
  | expire nowMs =>
      show board.expire order nowMs = board.expire order' nowMs
      unfold expire
      simp only
      rw [isEmpty_taskIdsWhere order order', ← foldl_removeTask_order_free order order']
      split
      · rfl
      · rename_i hexpired
        refine hrelaid _ ?_
        rw [handover, removedBoard, isEmpty_taskIdsWhere order order', if_neg hexpired]
  | select deviceId slot nowMs =>
      show (board.select order deviceId slot nowMs).2 = (board.select order' deviceId slot nowMs).2
      unfold select
      rw [occupant_order_free order order' hplaced.injective]
  | autoSelectWaiting deviceId nowMs =>
      show (board.autoSelectWaiting order deviceId nowMs).2 =
        (board.autoSelectWaiting order' deviceId nowMs).2
      have hmax := maxWaiting_order_free order order' hplaced.wellFormed (awaitsAnswer nowMs)
        fun task => board.assignedOn deviceId task.taskId
      unfold autoSelectWaiting
      simp only [hmax]
  | clearDevices | disconnectSession | selectTask | guardSelectionActivation | setSelectedModel
  | restoreSlotPreferences => rfl

/-! ## Runs -/

/-- No operation of the run meets a race. -/
def OrderFreeRun (board : TaskBoard) : List (WalkOrder × Op) → Prop
  | [] => True
  | step :: steps => board.OrderFree step.2 ∧ OrderFreeRun (board.apply step.1 step.2) steps

theorem run_order_free {steps steps' : List (WalkOrder × Op)} (hplaced : Placed board)
    (hsame : steps.map Prod.snd = steps'.map Prod.snd) (hfree : OrderFreeRun board steps) :
    run steps board = run steps' board := by
  induction steps generalizing board steps' with
  | nil =>
      rw [List.map_nil, eq_comm, List.map_eq_nil_iff] at hsame
      rw [hsame]
  | cons step steps ih =>
      cases steps' with
      | nil => cases hsame
      | cons step' steps' =>
          obtain ⟨hop, hrest⟩ := List.cons.inj hsame
          obtain ⟨hstep, hfree⟩ := hfree
          have happly : board.apply step.1 step.2 = board.apply step'.1 step'.2 := by
            rw [← hop]
            exact apply_order_free step.1 step'.1 hplaced hstep
          have htail := ih (hplaced.apply step.1 step.2) hrest hfree
          show run steps (board.apply step.1 step.2) = run steps' (board.apply step'.1 step'.2)
          rw [← happly]
          exact htail

/-- Two runs of the same operations end with the same board, whatever the walk
orders, as long as no operation meets a race. -/
theorem iteration_order_independence (steps steps' : List (WalkOrder × Op))
    (hsame : steps.map Prod.snd = steps'.map Prod.snd) (hfree : OrderFreeRun default steps) :
    run steps default = run steps' default :=
  run_order_free placed_default hsame hfree

/-! ## The check of a run -/

/-- The races of an operation, looked for under one walk order: no slot is asked for twice, and
one catalog card at most is on the promoted position. -/
def OrderFreeIn (order : WalkOrder) (board : TaskBoard) (op : Op) : Prop :=
  (∀ m ∈ handover order board op, ((m.retainPass.stickyRequests order).map Prod.snd).Nodup) ∧
    ∀ updates ∈ board.handoffUpdates op, ∀ update ∈ updates.find? HidUpdate.promoted,
      ∀ sourceSlot ∈ update.card.sourceSlot,
        ((order.values board.tasks).filter (isCatalogCardAt sourceSlot)).length ≤ 1

instance (order : WalkOrder) (board : TaskBoard) (op : Op) :
    Decidable (board.OrderFreeIn order op) :=
  inferInstanceAs (Decidable (_ ∧ _))

theorem uncontested_of_nodup {order : WalkOrder} (hwf : board.WellFormed)
    (h : ((board.retainPass.stickyRequests order).map Prod.snd).Nodup) : board.Uncontested := by
  intro a b slot ha hb
  have hfirst := (mem_requests order hwf).mpr ha
  have hsecond := (mem_requests order hwf).mpr hb
  exact congrArg Prod.fst (List.inj_on_of_nodup_map h hfirst hsecond rfl)

theorem handoffClear_of_length_le_one {order : WalkOrder} (hwf : board.WellFormed)
    {updates : List HidUpdate}
    (h : ∀ update ∈ updates.find? HidUpdate.promoted, ∀ sourceSlot ∈ update.card.sourceSlot,
      ((order.values board.tasks).filter (isCatalogCardAt sourceSlot)).length ≤ 1) :
    board.HandoffClear updates := by
  intro update sourceSlot a b hpromoted hsource ha hb hcatalogA hcatalogB _
  have hfirst := List.mem_filter.mpr ⟨(order.mem_values_iff hwf).mpr ha, hcatalogA⟩
  have hsecond := List.mem_filter.mpr ⟨(order.mem_values_iff hwf).mpr hb, hcatalogB⟩
  obtain ⟨only, honly⟩ : ∃ only, (order.values board.tasks).filter (isCatalogCardAt sourceSlot) =
      [only] :=
    List.length_eq_one_iff.mp
      (Nat.le_antisymm (h update hpromoted sourceSlot hsource) (List.length_pos_of_mem hfirst))
  rw [honly, List.mem_singleton] at hfirst hsecond
  exact hfirst.trans hsecond.symm

/-- The races that one walk order does not show are in none. -/
theorem orderFree_of_orderFreeIn {order : WalkOrder} (hplaced : Placed board) {op : Op}
    (h : board.OrderFreeIn order op) : board.OrderFree op := by
  have hclear : ∀ {updates : List HidUpdate},
      board.handoffUpdates op = some updates → board.HandoffClear updates :=
    fun hupdates => handoffClear_of_length_le_one hplaced.wellFormed (h.2 _ hupdates)
  -- every walk hands over the board that was checked
  refine ⟨fun {walk m} hm => ?_, hclear⟩
  rw [handover_order_free walk order hplaced.wellFormed hclear] at hm
  exact uncontested_of_nodup ((handed_of_handover hm).wellFormed hplaced.wellFormed) (h.1 m hm)

def OrderFreeRunIn (board : TaskBoard) : List (WalkOrder × Op) → Prop
  | [] => True
  | step :: steps =>
      board.OrderFreeIn step.1 step.2 ∧ OrderFreeRunIn (board.apply step.1 step.2) steps

instance decidableOrderFreeRunIn : (board : TaskBoard) → (steps : List (WalkOrder × Op)) →
    Decidable (board.OrderFreeRunIn steps)
  | _, [] => .isTrue trivial
  | board, step :: steps =>
      haveI := decidableOrderFreeRunIn (board.apply step.1 step.2) steps
      inferInstanceAs (Decidable (_ ∧ _))

theorem orderFreeRun_of_orderFreeRunIn (hplaced : Placed board) {steps : List (WalkOrder × Op)}
    (h : board.OrderFreeRunIn steps) : board.OrderFreeRun steps := by
  induction steps generalizing board with
  | nil => trivial
  | cons step steps ih =>
      exact ⟨orderFree_of_orderFreeIn hplaced h.1, ih (hplaced.apply step.1 step.2) h.2⟩

/-- Operations under one walk order. -/
def under (order : WalkOrder) (ops : List Op) : List (WalkOrder × Op) :=
  ops.map fun op => (order, op)

/-- A HID frame whose first two positions show two colors. -/
def twoLit (first second : Nat) : Value :=
  .array [.object [("id", .ofNat 0), ("e", .ofNat 2), ("c", .ofNat first)],
    .object [("id", .ofNat 1), ("e", .ofNat 2), ("c", .ofNat second)]]

/-- The first of two cards is gone when the controller is back, and the other one returns to its
slot; then a handoff promotes the position of that card. -/
def returningCard : List Op :=
  [.setDevice "deck" 3 true, .publishCodexSnapshot (snapshotOf [("a", 0), ("b", 1)]) 10,
    .setDevice "deck" 3 false, .publishCodexSnapshot (snapshotOf [("b", 1)]) 20,
    .setDevice "deck" 3 true,
    .publishCodexHidStatus (twoLit TaskState.running.displayColor TaskState.queued.displayColor)
      30,
    .publishCodexHidStatus (twoLit TaskState.queued.displayColor TaskState.running.displayColor)
      40]

theorem iteration_order_independence_returning :
    run (under .ascending returningCard) default =
        run (under .descending returningCard) default ∧
      (run (under .ascending (returningCard.take 5)) default).assignments["b"]? =
        some ⟨⟨"deck", 1⟩⟩ ∧
      (run (under .ascending returningCard) default).selected = some "b" :=
  ⟨iteration_order_independence _ _ rfl
      (orderFreeRun_of_orderFreeRunIn placed_default (by decide +kernel)),
    by decide +kernel, by decide +kernel⟩

/-- A Codex card has the only slot, then it is reserved for the card of another
agent; the controller leaves and returns unreserved, and both cards remember it. -/
def contestedSlot : List Op :=
  [.setDevice "deck" 1 true, .publishTasks 1 .codex (taskNamed "a") 10,
    .setSlotOwners "deck" [some .zCode], .publishTasks 2 .zCode (taskNamed "b") 20,
    .setDevice "deck" 1 false, .setSlotOwners "deck" [], .setDevice "deck" 1 true]

/-- Two catalog cards carry position 0, and a handoff promotes that position. -/
def contestedHandoff : List Op :=
  [.setDevice "deck" 4 true, .publishCodexSnapshot (snapshotOf [("a", 0), ("b", 0)]) 10,
    .publishCodexHidStatus (twoLit TaskState.queued.displayColor TaskState.running.displayColor)
      20,
    .publishCodexHidStatus (twoLit TaskState.running.displayColor TaskState.queued.displayColor)
      30]

/-- The walk order decides both races. -/
theorem iteration_order_decides :
    (run (under .ascending contestedSlot) default).assignments["a"]? = some ⟨⟨"deck", 0⟩⟩ ∧
      (run (under .descending contestedSlot) default).assignments["a"]? = none ∧
      (run (under .ascending contestedHandoff) default).selected = some "a" ∧
        (run (under .descending contestedHandoff) default).selected = some "b" := by
  refine ⟨?_, ?_, ?_, ?_⟩ <;> decide +kernel

end TaskBoard
end Tasks
end MicroEmu
