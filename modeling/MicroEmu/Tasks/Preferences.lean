import MicroEmu.Tasks.Devices
import MicroEmu.Tasks.Reconnect

/-!
# Saving and restoring the slot preferences

The daemon saves where each task was shown on the partitioned controller and reads the file back
when it starts.  The reader has limits of its own: it takes 256 entries, in the order of the ids,
and of those the ones with an id of at most 160 bytes and a slot below 64.  The board that records
the preferences has other limits, and what they admit beyond the reader's is lost.
-/

namespace MicroEmu
namespace Tasks

open Std (ExtTreeMap)
open Json (Value)
open Routing (AgentId)
open Library

namespace TaskBoard

variable {order : WalkOrder} {board : TaskBoard}

/-- `slot_preferences`: the value the daemon saves. -/
def slotPreferences (board : TaskBoard) : Value :=
  .object [("version", .ofNat 1),
    ("slots", .object (board.primaryPreferences.toList.map fun entry =>
      (entry.1, .ofNat entry.2)))]

/-- The limits of the reader admit all preferences of the board. -/
structure Restorable (board : TaskBoard) : Prop where
  bytes : ∀ {id : String} {slot : Nat}, board.primaryPreferences[id]? = some slot →
    id.utf8ByteSize ≤ 160
  slots : ∀ {id : String} {slot : Nat}, board.primaryPreferences[id]? = some slot → slot < 64
  size : board.primaryPreferences.size ≤ 256

/-- The entries the reader takes from the saved preferences. -/
def readEntries (board : TaskBoard) : List (String × Nat) :=
  ((board.primaryPreferences.toList.map fun entry =>
    (entry.1, Value.ofNat entry.2)).take 256).filterMap preferenceEntry

/-- The saved entries are read in the order of the map they come from. -/
theorem restoreSlotPreferences_saved (base board : TaskBoard) :
    base.restoreSlotPreferences board.slotPreferences =
      { base with primaryPreferences := ExtTreeMap.ofList board.readEntries } := by
  have hsorted : Value.sortedFields (board.primaryPreferences.toList.map fun entry =>
      (entry.1, Value.ofNat entry.2)) =
        board.primaryPreferences.toList.map fun entry => (entry.1, Value.ofNat entry.2) := by
    unfold Value.sortedFields
    rw [ofList_map_toList, ExtTreeMap.toList_map]
  have hslots : (board.slotPreferences.get? "slots").bind Value.asObject =
      some (board.primaryPreferences.toList.map fun entry => (entry.1, Value.ofNat entry.2)) := rfl
  unfold restoreSlotPreferences readEntries
  rw [hslots]
  simp only
  rw [hsorted]

/-- What the reader makes of one saved entry. -/
theorem preferenceEntry_saved (id : String) (slot : Nat) :
    preferenceEntry (id, Value.ofNat slot) =
      if id.utf8ByteSize ≤ 160 ∧ slot % 2 ^ 64 < 64 then some (id, slot % 2 ^ 64) else none := by
  simp [preferenceEntry, Value.ofNat, Value.asU64, Json.Number.asU64]

theorem mem_readEntries {id : String} {slot : Nat} (h : (id, slot) ∈ board.readEntries) :
    (∃ saved, board.primaryPreferences[id]? = some saved) ∧ id.utf8ByteSize ≤ 160 ∧ slot < 64 := by
  obtain ⟨entry, htaken, hread⟩ := List.mem_filterMap.mp h
  obtain ⟨⟨id', saved⟩, hsaved, rfl⟩ := List.mem_map.mp (List.mem_of_mem_take htaken)
  rw [preferenceEntry_saved] at hread
  split at hread
  next hlimits =>
    obtain ⟨rfl, rfl⟩ := Prod.mk.inj (Option.some.inj hread)
    exact ⟨⟨saved, ExtTreeMap.mem_toList_iff_getElem?_eq_some.mp hsaved⟩, hlimits⟩
  · cases hread

/-- Within its limits the reader takes every entry as it was saved. -/
theorem readEntries_of_restorable (h : board.Restorable) :
    board.readEntries = board.primaryPreferences.toList := by
  have hall : (board.primaryPreferences.toList.map fun entry =>
      (entry.1, Value.ofNat entry.2)).take 256 =
        board.primaryPreferences.toList.map fun entry => (entry.1, Value.ofNat entry.2) := by
    refine List.take_of_length_le ?_
    rw [List.length_map, ExtTreeMap.length_toList]
    exact h.size
  unfold readEntries
  rw [hall, List.filterMap_map]
  refine (List.filterMap_congr fun entry hentry => ?_).trans List.filterMap_some
  have hsaved : board.primaryPreferences[entry.1]? = some entry.2 :=
    ExtTreeMap.mem_toList_iff_getElem?_eq_some.mp hentry
  have hslot := h.slots hsaved
  have hmod : entry.2 % 2 ^ 64 = entry.2 := Nat.mod_eq_of_lt (by omega)
  show preferenceEntry (entry.1, Value.ofNat entry.2) = some entry
  rw [preferenceEntry_saved, hmod, if_pos ⟨h.bytes hsaved, hslot⟩]

/-- Saved and restored, the preferences are the same exactly when the reader admits them all. -/
theorem restored_preferences_iff (board : TaskBoard) :
    ((default : TaskBoard).restoreSlotPreferences board.slotPreferences).primaryPreferences =
      board.primaryPreferences ↔ board.Restorable := by
  rw [restoreSlotPreferences_saved]
  show ExtTreeMap.ofList board.readEntries = board.primaryPreferences ↔ board.Restorable
  constructor
  · intro hsame
    have hread : ∀ {id : String} {slot : Nat}, board.primaryPreferences[id]? = some slot →
        id.utf8ByteSize ≤ 160 ∧ slot < 64 := by
      intro id slot hslot
      rw [← hsame] at hslot
      exact (mem_readEntries (mem_of_getElem?_ofList hslot)).2
    refine ⟨fun h => (hread h).1, fun h => (hread h).2, ?_⟩
    calc board.primaryPreferences.size
        = (ExtTreeMap.ofList board.readEntries : ExtTreeMap String Nat).size := by rw [hsame]
      _ ≤ board.readEntries.length := ExtTreeMap.size_ofList_le
      _ ≤ 256 := (List.length_filterMap_le ..).trans (List.length_take_le ..)
  · intro hrestorable
    have hidentity : board.primaryPreferences.toList =
        board.primaryPreferences.toList.map fun entry => (entry.1, id entry.2) := by simp
    rw [readEntries_of_restorable hrestorable, hidentity, ofList_map_toList]
    ext id slot
    rw [ExtTreeMap.getElem?_map]
    simp

/-! ## What a reallocation records -/

/-- A preference is an old one or records a slot of the layout. -/
theorem of_rememberSlots {id : String} {slot : Nat}
    (h : (board.rememberSlots order).primaryPreferences[id]? = some slot) :
    board.primaryPreferences[id]? = some slot ∨
      ∃ deviceId, board.assignments[id]? = some ⟨⟨deviceId, slot⟩⟩ := by
  have hfold : ∀ (entries : List (String × TaskAssignment)) (preferences : ExtTreeMap String Nat),
      (entries.foldl (fun preferences entry =>
        if board.partitionedDeviceId = some entry.2.slot.deviceId then
          preferences.insert entry.1 entry.2.slot.slot
        else preferences) preferences)[id]? = some slot →
          preferences[id]? = some slot ∨
            ∃ deviceId, (id, (⟨⟨deviceId, slot⟩⟩ : TaskAssignment)) ∈ entries := by
    intro entries
    induction entries with
    | nil => exact fun preferences h => Or.inl h
    | cons entry entries ih =>
        intro preferences h
        rcases ih _ h with hold | ⟨deviceId, hlater⟩
        · simp only at hold
          split at hold
          · rw [getElem?_insert_eq_ite] at hold
            split at hold
            next hid =>
              obtain rfl := hid
              obtain rfl := Option.some.inj hold
              exact Or.inr ⟨entry.2.slot.deviceId, List.mem_cons_self⟩
            · exact Or.inl hold
          · exact Or.inl hold
        · exact Or.inr ⟨deviceId, List.mem_cons_of_mem _ hlater⟩
  have hrecorded : ∀ {preferences : ExtTreeMap String Nat},
      (if preferences.size > 256 then
        preferences.filter fun taskId _ => board.tasks.contains taskId
      else preferences)[id]? = some slot → preferences[id]? = some slot := by
    intro preferences h
    split at h
    · rw [ExtTreeMap.getElem?_filter'] at h
      exact (Option.filter_eq_some_iff.mp h).1
    · exact h
  rcases hfold _ _ (hrecorded h) with hold | ⟨deviceId, hentry⟩
  · exact Or.inl hold
  · exact Or.inr ⟨deviceId, order.mem_entries.mp hentry⟩

/-! ## The first publication after a restart -/

/-- A board that has no cards yet. -/
structure Unused (board : TaskBoard) : Prop where
  tasks : board.tasks = ∅
  assignments : board.assignments = ∅
  lastSlots : board.lastSlots = ∅
  devices : ∀ {id : String} {slots : List DeviceSlot},
    board.devices[id]? = some slots → ∃ n, slots = deviceSlots id n

theorem Unused.wellFormed (h : board.Unused) : board.WellFormed where
  keyed := by
    intro id task htask
    rw [h.tasks] at htask
    cases htask
  devices := h.devices

/-- Without cards a reallocation keeps nothing but the preferences. -/
theorem Unused.reallocate (h : board.Unused) (hsize : board.primaryPreferences.size ≤ 256)
    (order : WalkOrder) : (board.reallocate order).Unused ∧
      (board.reallocate order).primaryPreferences = board.primaryPreferences := by
  have hempty : (board.reallocate order).assignments = ∅ := by
    have hinj : SlotInjective board.assignments := by
      intro a b slot ha
      rw [h.assignments] at ha
      cases ha
    ext id ⟨slot⟩
    constructor
    · intro hslot
      obtain ⟨task, htask, -⟩ := reallocate_entry h.wellFormed hinj hslot
      rw [h.tasks] at htask
      cases htask
    · intro hslot
      cases hslot
  obtain ⟨base, hbase, hlayout, hmemory, hpreferences, -⟩ := reallocate_remembers order board
  have hentries : order.entries base.assignments = [] := by
    rw [hlayout, hempty]
    exact List.perm_nil.mp (order.perm _)
  have hremember : (base.rememberSlots order).lastSlots = ∅ ∧
      (base.rememberSlots order).primaryPreferences = board.primaryPreferences := by
    unfold rememberSlots
    simp only [hentries, List.foldl_nil]
    refine ⟨?_, ?_⟩
    · rw [hmemory, h.lastSlots]
      rfl
    · rw [hpreferences, if_neg (by omega)]
  refine ⟨⟨?_, hempty, ?_, ?_⟩, ?_⟩
  · rw [reallocate_tasks, h.tasks]
  · rw [hbase]
    exact hremember.1
  · intro id slots hslots
    rw [reallocate_devices] at hslots
    exact h.devices hslots
  · rw [hbase]
    exact hremember.2

/-- The board after a restart: the saved preferences are read back, and the controller connects
and is partitioned. -/
def restarted (saved : Value) (deviceId : String) (taskSlots : Nat)
    (owners : List (Option AgentId)) (order order' : WalkOrder) : TaskBoard :=
  ((default : TaskBoard).restoreSlotPreferences saved
    |>.setDevice order deviceId taskSlots true).setSlotOwners order' deviceId owners

/-- The restarted board has the controller and the preferences, and nothing else. -/
structure Restarted (board fresh : TaskBoard) (deviceId : String) (taskSlots : Nat) : Prop where
  unused : fresh.Unused
  primary : fresh.partitionedDeviceId = some deviceId
  device : fresh.devices[deviceId]? = some (deviceSlots deviceId taskSlots)
  preferences : fresh.primaryPreferences = board.primaryPreferences

theorem restarted_of_restorable (h : board.Restorable) (deviceId : String) (taskSlots : Nat)
    (owners : List (Option AgentId)) (order order' : WalkOrder) :
    Restarted board (restarted board.slotPreferences deviceId taskSlots owners order order')
      deviceId taskSlots := by
  have hread := (restored_preferences_iff board).mpr h
  have hsize := h.size
  unfold restarted
  rw [restoreSlotPreferences_saved] at hread ⊢
  generalize hpreferences : (ExtTreeMap.ofList board.readEntries : ExtTreeMap String Nat) =
    preferences at hread ⊢
  obtain rfl : preferences = board.primaryPreferences := hread
  -- the controller connects, and is then partitioned
  let connected : TaskBoard := { (default : TaskBoard) with
    primaryPreferences := board.primaryPreferences
    devices := (default : TaskBoard).devices.insert deviceId (deviceSlots deviceId taskSlots) }
  have hdevice : connected.devices[deviceId]? = some (deviceSlots deviceId taskSlots) := by
    show ((default : TaskBoard).devices.insert deviceId _)[deviceId]? = _
    rw [getElem?_insert_eq_ite, if_pos rfl]
  have hconnected : connected.Unused := by
    refine ⟨rfl, rfl, rfl, fun {id slots} hslots => ?_⟩
    have hslots' : ((default : TaskBoard).devices.insert deviceId
      (deviceSlots deviceId taskSlots))[id]? = some slots := hslots
    rw [getElem?_insert_eq_ite] at hslots'
    split at hslots'
    next hid =>
      obtain rfl := Option.some.inj hslots'
      exact ⟨taskSlots, by rw [hid]⟩
    · cases hslots'
  obtain ⟨hunused, hkept⟩ := hconnected.reallocate hsize order
  let partitioned : TaskBoard := { connected.reallocate order with
    partitionedDeviceId := some deviceId
    slotOwners := owners }
  have hpartitioned : partitioned.Unused :=
    ⟨hunused.tasks, hunused.assignments, hunused.lastSlots, hunused.devices⟩
  have hsame : partitioned.primaryPreferences = board.primaryPreferences := hkept
  obtain ⟨hunused', hkept'⟩ := hpartitioned.reallocate (by rw [hsame]; exact hsize) order'
  have hfresh : (({ (default : TaskBoard) with
      primaryPreferences := board.primaryPreferences } : TaskBoard).setDevice order deviceId
        taskSlots true).setSlotOwners order' deviceId owners = partitioned.reallocate order' := by
    have hnone : (connected.reallocate order).partitionedDeviceId = none := by
      rw [reallocate_partitionedDeviceId]
      rfl
    unfold setSlotOwners
    rw [if_pos]
    · rfl
    · refine Or.inl fun hsome => ?_
      have hcontra : (connected.reallocate order).partitionedDeviceId = some deviceId := hsome
      rw [hnone] at hcontra
      cases hcontra
  rw [hfresh]
  refine ⟨hunused', ?_, ?_, hkept'.trans hsame⟩
  · rw [reallocate_partitionedDeviceId]
  · rw [reallocate_devices]
    show (connected.reallocate order).devices[deviceId]? = _
    rw [reallocate_devices]
    exact hdevice

/-- After the first publication the cards of it remember the keys they prefer. -/
theorem Restarted.rememberedSlot {fresh : TaskBoard} {deviceId : String} {taskSlots : Nat}
    (hfresh : Restarted board fresh deviceId taskSlots) (order : WalkOrder) (session nowMs : Nat)
    (cards : List TaskCard) (id : String) :
    (replacedBoard order fresh session cards nowMs).retainPass.rememberedSlot id =
      (board.primaryPreferences[id]?).map fun slot => ⟨deviceId, slot⟩ := by
  obtain ⟨_, _, _, hframe⟩ := replacedBoard_frame order fresh session cards nowMs
  rw [hframe]
  show ((fresh.primaryPreferences[id]?).bind fun slot =>
    fresh.partitionedDeviceId.map fun device => (⟨device, slot⟩ : DeviceSlot)).or
      fresh.lastSlots[id]? = _
  rw [hfresh.preferences, hfresh.primary, hfresh.unused.lastSlots]
  cases board.primaryPreferences[id]? with
  | none => rfl
  | some slot => rfl

/-- The first publication after a restart puts a card back on its key, if nobody else in it
prefers the key. -/
theorem Restarted.returns {fresh : TaskBoard} {deviceId : String} {taskSlots : Nat}
    (hfresh : Restarted board fresh deviceId taskSlots) {order : WalkOrder} {session nowMs : Nat}
    {agent : AgentId} {value : Value} {cards : List TaskCard}
    (hcards : fresh.publishedCards session agent value nowMs = .ok cards) {card : TaskCard}
    (hcard : card ∈ cards) {slot : Nat}
    (hslot : board.primaryPreferences[card.taskId]? = some slot) (hlt : slot < taskSlots)
    (heligible : card.state.eligible = true)
    (hadmits : (fresh.slotOwner ⟨deviceId, slot⟩).admits card.ownerAgent = true)
    (hsole : ∀ other ∈ cards, board.primaryPreferences[other.taskId]? = some slot →
      other.taskId = card.taskId)
    (hnotHid : ∀ other ∈ cards, isCodexHid other.taskId = false) :
    (fresh.apply order (.publishTasks session agent value nowMs)).assignments[card.taskId]? =
      some ⟨⟨deviceId, slot⟩⟩ := by
  have happly : fresh.apply order (.publishTasks session agent value nowMs) =
      (replacedBoard order fresh session cards nowMs).reallocate order := by
    show (fresh.publishTasks order session agent value nowMs).2 = _
    unfold publishTasks
    rw [hcards]
    rfl
  have hwf : (replacedBoard order fresh session cards nowMs).WellFormed :=
    replacedBoard_wellFormed hfresh.unused.wellFormed session cards nowMs
  have hremembered := hfresh.rememberedSlot order session nowMs cards
  have hempty : ∀ id : String,
      (replacedBoard order fresh session cards nowMs).assignments[id]? = none := by
    intro id
    rw [Option.eq_none_iff_forall_ne_some]
    intro assignment hassigned
    have hold := (replacedBoard_assignments.mp hassigned).1
    rw [hfresh.unused.assignments] at hold
    cases hold
  have hlisted : ∀ {id : String} {task : TaskCard},
      (replacedBoard order fresh session cards nowMs).tasks[id]? = some task →
        ∃ other ∈ cards, other.taskId = id ∧ SameSource task other := by
    intro id task htask
    rcases of_replacedBoard htask with ⟨-, hold, -⟩ | hnew
    · rw [hfresh.unused.tasks] at hold
      cases hold
    · exact hnew
  -- the controller is as it was before the publication
  have havailable : (⟨deviceId, slot⟩ : DeviceSlot) ∈ fresh.available :=
    (mem_available_iff hfresh.unused.wellFormed).mpr ⟨taskSlots, hfresh.device, hlt⟩
  have hcontroller :
      (replacedBoard order fresh session cards nowMs).retainPass.available = fresh.available ∧
        (replacedBoard order fresh session cards nowMs).retainPass.slotOwner ⟨deviceId, slot⟩ =
          fresh.slotOwner ⟨deviceId, slot⟩ := by
    obtain ⟨_, _, _, hframe⟩ := replacedBoard_frame order fresh session cards nowMs
    rw [hframe]
    exact ⟨rfl, rfl⟩
  obtain ⟨same, hsame, hid, merged, hmerged, hsource⟩ := replacedBoard_of_mem order fresh session
    nowMs (List.mem_map.mpr ⟨card, hcard, rfl⟩)
  obtain rfl : same = card := List.inj_on_of_nodup_map (publishedCards_nodup hcards) hsame hcard hid
  generalize replacedBoard order fresh session cards nowMs = published at *
  have hinj : SlotInjective published.assignments := by
    intro a b assignment ha
    rw [hempty a] at ha
    cases ha
  have hnothing : ∀ id : String, published.retainPass.assignments[id]? = none := by
    intro id
    rw [Option.eq_none_iff_forall_ne_some]
    rintro ⟨held⟩ hheld
    have hold := (retained_iff.mp hheld).1
    rw [hempty id] at hold
    cases hold
  have hfree : slotTaken published.retainPass.assignments ⟨deviceId, slot⟩ = false := by
    rw [← Bool.not_eq_true, slotTaken_iff]
    rintro ⟨id, hheld⟩
    rw [hnothing id] at hheld
    cases hheld
  have hasks : published.Requests same.taskId ⟨deviceId, slot⟩ := by
    refine ⟨merged, hmerged, unplaced_iff.mpr ⟨?_, hnothing _⟩,
      stickyTarget_eq_some_iff.mpr ⟨?_, ?_, hfree, ?_⟩⟩
    · rw [hsource.eligible]
      exact heligible
    · rw [hsource.taskId, hremembered, hslot]
      rfl
    · rw [hcontroller.1]
      exact havailable
    · rw [hcontroller.2, hsource.ownerAgent]
      exact hadmits
  have hsticky : (published.stickyBoard order).assignments[same.taskId]? =
      some ⟨⟨deviceId, slot⟩⟩ := by
    refine stickyBoard_of_sole order hwf hinj hasks fun rival hrival => ?_
    obtain ⟨task, htask, -, htarget⟩ := hrival
    obtain ⟨other, hother, rfl, hothers⟩ := hlisted htask
    have hkey := (stickyTarget_eq_some_iff.mp htarget).1
    rw [hothers.taskId, hremembered] at hkey
    obtain ⟨prefers, hprefers, heq⟩ := Option.map_eq_some_iff.mp hkey
    cases heq
    exact hsole other hother hprefers
  rw [happly]
  refine reallocate_of_unpinned hwf hinj (hnotHid same hsame) hsticky fun hid hhid hpin => ?_
  obtain ⟨task, htask, -⟩ := hpin
  obtain ⟨other, hother, rfl, -⟩ := hlisted htask
  rw [hnotHid other hother] at hhid
  cases hhid

end TaskBoard

/-! ## Runs within the limits of the reader -/

/-- The operation names tasks of the list only, and registers no more slots than the reader
takes. -/
def Op.Within (ids : List String) : Op → Prop
  | .setDevice _ taskSlots _ => taskSlots ≤ 64
  | .restoreSlotPreferences value =>
      ∀ slots, (value.get? "slots").bind Value.asObject = some slots →
        ∀ field ∈ slots, field.1 ∈ ids
  | op => ∀ id, op.Names id → id ∈ ids

namespace TaskBoard

variable {order : WalkOrder} {board : TaskBoard}

/-- A merged card is filed under an id the publication names. -/
theorem names_of_mergedCards {op : Op} {cards : List TaskCard} {nowMs : Nat}
    (h : board.mergedCards op = some (cards, nowMs)) {id : String}
    (hid : id ∈ cards.map TaskCard.taskId) : op.Names id := by
  cases op with
  | publishTasks session agent value nowMs' =>
      obtain ⟨_, hcards, heq⟩ := Option.map_eq_some_iff.mp h
      obtain ⟨rfl, rfl⟩ := Prod.mk.inj heq
      exact (publishedCards_names (toOption_eq_some_iff.mp hcards) id).mp hid
  | publishCodexSnapshot value nowMs' =>
      obtain ⟨_, hcards, heq⟩ := Option.map_eq_some_iff.mp h
      obtain ⟨rfl, rfl⟩ := Prod.mk.inj heq
      exact (publishedCards_names (toOption_eq_some_iff.mp hcards) id).mp hid
  | publishLegacyStatus session agent value nowMs' =>
      obtain ⟨_, hcards, heq⟩ := Option.map_eq_some_iff.mp h
      obtain ⟨rfl, rfl⟩ := Prod.mk.inj heq
      exact (legacyCards_names (toOption_eq_some_iff.mp hcards) id).mp hid
  | publishCodexHidStatus value nowMs' =>
      obtain ⟨entries, hentries, h⟩ := Option.bind_eq_some_iff.mp h
      obtain ⟨updates, hupdates, heq⟩ := Option.map_eq_some_iff.mp h
      obtain ⟨rfl, rfl⟩ := Prod.mk.inj heq
      refine (hidUpdates_names hentries (toOption_eq_some_iff.mp hupdates) id).mp ?_
      obtain ⟨card, hcard, rfl⟩ := List.mem_map.mp hid
      obtain ⟨update, hupdate, rfl⟩ := List.mem_map.mp hcard
      exact List.mem_map.mpr ⟨update, hupdate, (settled_owned _ update).1.symm⟩
  | setDevice | clearDevices | setSlotOwners | disconnectSession | clearSession | expire | select
  | selectTask | autoSelectWaiting | guardSelectionActivation | setSelectedModel
  | restoreSlotPreferences => cases h

/-- A card is an old one, or the operation names it. -/
theorem named_of_apply {op : Op} {id : String} {task : TaskCard}
    (h : (board.apply order op).tasks[id]? = some task) :
    (∃ old, board.tasks[id]? = some old) ∨ op.Names id := by
  have hcard : ((board.apply order op).entry id).card = some task := h
  have hstep := apply_cardStep order board op id
  generalize (board.apply order op).entry id = entry at hstep hcard
  cases hstep with
  | kept => exact Or.inl ⟨task, hcard⟩
  | published hmerged hnamed => exact Or.inr (names_of_mergedCards hmerged hnamed)
  | removed => cases hcard
  | leased hold => exact Or.inl ⟨_, hold⟩
  | acknowledged hold => exact Or.inl ⟨_, hold⟩
  | remodelled hold => exact Or.inl ⟨_, hold⟩

/-- The board hands its preferences over as they are. -/
theorem preferences_handover {op : Op} {m : TaskBoard} (h : handover order board op = some m) :
    m.primaryPreferences = board.primaryPreferences := by
  have hreplaced : ∀ (session : Nat) (cards : List TaskCard) (nowMs : Nat),
      (replacedBoard order board session cards nowMs).primaryPreferences =
        board.primaryPreferences := by
    intro session cards nowMs
    obtain ⟨_, _, _, hframe⟩ := replacedBoard_frame order board session cards nowMs
    rw [hframe]
  have hremoved : ∀ {base : TaskBoard} {ids : List String}, base.removedBoard ids = some m →
      m.primaryPreferences = base.primaryPreferences := by
    intro base ids h
    unfold removedBoard at h
    split at h
    · cases h
    · obtain rfl := Option.some.inj h
      rw [foldl_removeTask]
  cases op with
  | setDevice deviceId taskSlots connected =>
      obtain rfl := Option.some.inj h
      cases connected with
      | true => rfl
      | false => rfl
  | setSlotOwners deviceId owners =>
      rw [handover] at h
      split at h
      · obtain rfl := Option.some.inj h
        rfl
      · cases h
  | publishTasks session agent value nowMs =>
      obtain ⟨cards, -, rfl⟩ := Option.map_eq_some_iff.mp h
      exact hreplaced session cards nowMs
  | publishCodexSnapshot value nowMs =>
      obtain ⟨cards, -, rfl⟩ := Option.map_eq_some_iff.mp h
      exact hreplaced 0 cards nowMs
  | publishLegacyStatus session agent value nowMs =>
      obtain ⟨cards, -, rfl⟩ := Option.map_eq_some_iff.mp h
      exact hreplaced session cards nowMs
  | publishCodexHidStatus value nowMs =>
      obtain ⟨entries, -, h⟩ := Option.bind_eq_some_iff.mp h
      obtain ⟨updates, -, rfl⟩ := Option.map_eq_some_iff.mp h
      obtain ⟨base, echoing, hboard, hfocus⟩ :=
        hidBoard_eq order (board.dropExpiredGuards nowMs) updates nowMs
      obtain ⟨_, _, hframe⟩ :=
        mergedBoard_frame base (updates.map (HidUpdate.settled echoing)) nowMs
      obtain ⟨_, _, rfl⟩ := hfocus
      rw [hboard, hframe]
      rfl
  | clearSession session => exact hremoved h
  | expire nowMs => exact (hremoved h).trans rfl
  | clearDevices | disconnectSession | select | selectTask | autoSelectWaiting
  | guardSelectionActivation | setSelectedModel | restoreSlotPreferences => cases h

theorem preferences_selectTask (taskId : String) (nowMs : Nat) :
    (board.selectTask taskId nowMs).2.primaryPreferences = board.primaryPreferences := by
  unfold selectTask
  simp only
  split
  · rfl
  · rfl

/-- Preferences that no reallocation records are restored, or stay as they are. -/
theorem preferences_of_no_handover {op : Op} (h : handover order board op = none) :
    (board.apply order op).primaryPreferences = board.primaryPreferences ∨
      ∃ value, op = .restoreSlotPreferences value := by
  cases hreallocates : reallocates op with
  | true =>
      obtain ⟨_, _, hafter⟩ := apply_of_no_handover hreallocates h
      exact Or.inl (by rw [hafter])
  | false =>
      cases op with
      | setDevice | setSlotOwners | publishTasks | publishCodexSnapshot | publishLegacyStatus
      | publishCodexHidStatus | clearSession | expire => cases hreallocates
      | clearDevices => exact Or.inl rfl
      | disconnectSession session nowMs => exact Or.inl rfl
      | select deviceId slot nowMs =>
          refine Or.inl ?_
          show (board.select order deviceId slot nowMs).2.primaryPreferences = _
          unfold select
          split
          · rfl
          · exact preferences_selectTask _ nowMs
      | selectTask taskId nowMs => exact Or.inl (preferences_selectTask taskId nowMs)
      | autoSelectWaiting deviceId nowMs =>
          refine Or.inl ?_
          show (board.autoSelectWaiting order deviceId nowMs).2.primaryPreferences = _
          unfold autoSelectWaiting
          simp only
          split
          · rfl
          · split
            · rfl
            · split
              · rfl
              · rfl
      | guardSelectionActivation taskId nowMs =>
          refine Or.inl ?_
          show (board.guardSelectionActivation taskId nowMs).primaryPreferences = _
          unfold guardSelectionActivation
          split
          · rfl
          · rfl
      | setSelectedModel model =>
          refine Or.inl ?_
          show (board.setSelectedModel model).2.primaryPreferences = _
          unfold setSelectedModel
          split
          · rfl
          · rfl
      | restoreSlotPreferences value => exact Or.inr ⟨value, rfl⟩

/-- A preference is an old one, records a slot of the layout, or is read back. -/
theorem of_preferences_apply {op : Op} {id : String} {slot : Nat}
    (h : (board.apply order op).primaryPreferences[id]? = some slot) :
    board.primaryPreferences[id]? = some slot ∨
      (∃ deviceId, (board.apply order op).assignments[id]? = some ⟨⟨deviceId, slot⟩⟩) ∨
        ∃ value, op = .restoreSlotPreferences value := by
  cases hhandover : handover order board op with
  | some m =>
      obtain ⟨_, _, hafter⟩ := apply_of_handover hhandover
      obtain ⟨base, hbase, hlayout, -, hpreferences, -⟩ := reallocate_remembers order m
      rw [hafter] at h ⊢
      rw [hbase] at h
      rcases of_rememberSlots h with hold | ⟨deviceId, hassigned⟩
      · rw [hpreferences, preferences_handover hhandover] at hold
        exact Or.inl hold
      · exact Or.inr (Or.inl ⟨deviceId, hlayout ▸ hassigned⟩)
  | none =>
      rcases preferences_of_no_handover hhandover with hsame | hrestored
      · exact Or.inl (hsame ▸ h)
      · exact Or.inr (Or.inr hrestored)

/-- The ids of the board are on the list and its slots within the reader's limit. -/
structure Recorded (ids : List String) (board : TaskBoard) : Prop where
  tasks : ∀ {id : String} {task : TaskCard}, board.tasks[id]? = some task → id ∈ ids
  devices : ∀ {id : String} {slots : List DeviceSlot}, board.devices[id]? = some slots →
    slots.length ≤ 64
  preferences : ∀ {id : String} {slot : Nat}, board.primaryPreferences[id]? = some slot →
    id ∈ ids ∧ slot < 64

theorem Recorded.apply {ids : List String} (h : Recorded ids board) (hplaced : board.Placed)
    (order : WalkOrder) {op : Op} (hop : op.Within ids) : Recorded ids (board.apply order op) := by
  have htasks : ∀ {id : String} {task : TaskCard},
      (board.apply order op).tasks[id]? = some task → id ∈ ids := by
    intro id task htask
    rcases named_of_apply htask with ⟨old, hold⟩ | hnamed
    · exact h.tasks hold
    · cases op with
      | setDevice | restoreSlotPreferences => cases hnamed
      | _ => exact hop id hnamed
  have hdevices : ∀ {id : String} {slots : List DeviceSlot},
      (board.apply order op).devices[id]? = some slots → slots.length ≤ 64 := by
    intro id slots hslots
    by_cases hkeeps : op.KeepsSlots
    · exact h.devices ((sameSlots_apply hkeeps order board).devices ▸ hslots)
    · cases op with
      | setDevice deviceId taskSlots connected =>
          have hslots' : (board.setDevice order deviceId taskSlots connected).devices[id]? =
            some slots := hslots
          cases connected with
          | true =>
              rw [devices_setDevice_true, getElem?_insert_eq_ite] at hslots'
              split at hslots'
              · obtain rfl := Option.some.inj hslots'
                have htaskSlots : taskSlots ≤ 64 := hop
                simpa [deviceSlots] using htaskSlots
              · exact h.devices hslots'
          | false =>
              rw [devices_setDevice_false, getElem?_erase_eq_ite] at hslots'
              split at hslots'
              · cases hslots'
              · exact h.devices hslots'
      | clearDevices => cases hslots
      | setSlotOwners deviceId owners =>
          exact h.devices (devices_setSlotOwners order board deviceId owners ▸ hslots)
      | _ => exact absurd trivial hkeeps
  refine ⟨htasks, hdevices, fun {id slot} hslot => ?_⟩
  rcases of_preferences_apply hslot with hold | ⟨deviceId, hassigned⟩ | ⟨value, rfl⟩
  · exact h.preferences hold
  · have hafter := hplaced.apply order op
    obtain ⟨task, htask, hcomplies⟩ := hafter.complies hassigned
    obtain ⟨n, hdevice, hlt⟩ := (mem_available_iff hafter.wellFormed).mp hcomplies.available
    have hlength := hdevices hdevice
    simp only [deviceSlots, List.length_map, List.length_range] at hlength
    have hslot' : slot < n := hlt
    exact ⟨htasks htask, by omega⟩
  · have hslot' : (board.restoreSlotPreferences value).primaryPreferences[id]? = some slot := hslot
    unfold restoreSlotPreferences at hslot'
    split at hslot'
    · exact h.preferences hslot'
    next slots hslots =>
      obtain ⟨field, hfield, hread⟩ := List.mem_filterMap.mp (mem_of_getElem?_ofList hslot')
      have hsorted :=
        Std.ExtTreeMap.mem_toList_iff_getElem?_eq_some.mp (List.mem_of_mem_take hfield)
      have hstored : field ∈ slots := mem_of_getElem?_ofList hsorted
      obtain ⟨number, -, hlimits⟩ := Option.bind_eq_some_iff.mp hread
      split at hlimits
      next hwithin =>
        obtain ⟨rfl, rfl⟩ := Prod.mk.inj (Option.some.inj hlimits)
        exact ⟨hop slots hslots field hstored, hwithin.2⟩
      · cases hlimits

/-- A run within the limits reaches boards that are restored in full. -/
theorem restorable_run {ids : List String} (hlength : ids.length ≤ 256)
    (hbytes : ∀ id ∈ ids, id.utf8ByteSize ≤ 160) (steps : List (WalkOrder × Op))
    (hsteps : ∀ step ∈ steps, step.2.Within ids) : (run steps default).Restorable := by
  have hrecorded : Recorded ids (run steps default) := by
    induction steps using List.reverseRecOn with
    | nil =>
        refine ⟨?_, ?_, ?_⟩
        · intro id task htask
          cases htask
        · intro id slots hslots
          cases hslots
        · intro id slot hslot
          cases hslot
    | append_singleton steps step ih =>
        have hbefore := ih fun earlier hmem => hsteps earlier (List.mem_append_left _ hmem)
        unfold run
        rw [List.foldl_append, List.foldl_cons, List.foldl_nil]
        exact hbefore.apply (placed_run steps) step.1
          (hsteps step (List.mem_append_right _ List.mem_cons_self))
  refine ⟨fun hslot => hbytes _ (hrecorded.preferences hslot).1,
    fun hslot => (hrecorded.preferences hslot).2, ?_⟩
  have hkeys : (run steps default).primaryPreferences.keys ⊆ ids := by
    intro id hid
    obtain ⟨slot, hslot⟩ := Option.isSome_iff_exists.mp
      (ExtTreeMap.mem_iff_isSome_getElem?.mp (ExtTreeMap.mem_keys.mp hid))
    exact (hrecorded.preferences hslot).1
  calc (run steps default).primaryPreferences.size
      = (run steps default).primaryPreferences.keys.length := ExtTreeMap.length_keys.symm
    _ ≤ ids.length := (ExtTreeMap.nodup_keys.subperm hkeys).length_le
    _ ≤ 256 := hlength

/-- The preferences of a reached board come back from the file exactly when the reader's limits
admit them.  They then put the cards of the first publication after the restart back on their
keys, and within the limits every run reaches such boards. -/
theorem preferences_survive_restart_iff (steps : List (WalkOrder × Op)) :
    (((default : TaskBoard).restoreSlotPreferences
        (run steps default).slotPreferences).primaryPreferences =
          (run steps default).primaryPreferences ↔ (run steps default).Restorable) ∧
      ((run steps default).Restorable →
        ∀ (deviceId : String) (taskSlots : Nat) (owners : List (Option AgentId))
          (order order' order'' : WalkOrder) (session nowMs : Nat) (agent : AgentId)
          (value : Value) (cards : List TaskCard),
          let fresh :=
            restarted (run steps default).slotPreferences deviceId taskSlots owners order order'
          fresh.publishedCards session agent value nowMs = .ok cards →
            (∀ card ∈ cards, isCodexHid card.taskId = false) →
              ∀ card ∈ cards, ∀ slot < taskSlots,
                (run steps default).primaryPreferences[card.taskId]? = some slot →
                  card.state.eligible = true →
                    (fresh.slotOwner ⟨deviceId, slot⟩).admits card.ownerAgent = true →
                      (∀ other ∈ cards,
                        (run steps default).primaryPreferences[other.taskId]? = some slot →
                          other.taskId = card.taskId) →
                        (fresh.apply order''
                          (.publishTasks session agent value nowMs)).assignments[card.taskId]? =
                            some ⟨⟨deviceId, slot⟩⟩) ∧
      ∀ ids : List String, ids.length ≤ 256 → (∀ id ∈ ids, id.utf8ByteSize ≤ 160) →
        (∀ step ∈ steps, step.2.Within ids) → (run steps default).Restorable := by
  refine ⟨restored_preferences_iff _, ?_, fun ids hlength hbytes hsteps =>
    restorable_run hlength hbytes steps hsteps⟩
  intro hrestorable deviceId taskSlots owners order order' order'' session nowMs agent value cards
    fresh hcards hnotHid card hcard slot hlt hslot heligible hadmits hsole
  have hfresh := restarted_of_restorable hrestorable deviceId taskSlots owners order order'
  exact hfresh.returns hcards hcard hslot hlt heligible hadmits hsole hnotHid

/-- An id of eighty-one characters with two bytes each is accepted and not restored. -/
theorem long_id_is_lost :
    let id := String.ofList (List.replicate 81 'é')
    let board := run [(.ascending, .setDevice "deck" 1 true),
      (.ascending, .setSlotOwners "deck" [some .codex]),
      (.ascending, .publishTasks 1 .codex (.object [("tasks", .array [.object
        [("task_id", .string id)]])]) 10)] default
    board.primaryPreferences[id]? = some 0 ∧
      ((default : TaskBoard).restoreSlotPreferences
        board.slotPreferences).primaryPreferences[id]? = none := by
  decide +kernel

end TaskBoard
end Tasks
end MicroEmu
