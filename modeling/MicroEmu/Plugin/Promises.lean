import MicroEmu.Library.Positions
import MicroEmu.Library.Runs
import MicroEmu.Plugin.CodexAppServer
import Mathlib.Data.List.Nodup

/-!
# The promises of the app-server client

Every call of `request` is settled once, or something is left that settles it: a start that
it awaits, its own continuation, or a request that is pending with its timer.  A pending
request has one owner, and what settles it takes it away.
-/

namespace MicroEmu
namespace Plugin

open Json (Value)
open Library

/-- The id of the response that settles a promise. -/
def Outcome.id? : Outcome → Option Int
  | .resolved id _ => some id
  | .rejected id _ => some id
  | .failed => none

/-- A start that will still settle its promise. -/
def Start.Alive (start : Start) : Prop := start ≠ .done ∧ start ≠ .failed

theorem Start.Alive.settle {start : Start} (h : start.Alive) (succeeded : Bool) :
    (start.settle succeeded).Alive := by
  unfold Start.settle
  split
  · cases succeeded <;> exact ⟨by simp, by simp⟩
  · exact h

theorem CodexAppServerClient.exists_settle_eq (client : CodexAppServerClient) (start child : Nat)
    (outcome : Outcome) : ∃ succeeded, client.settle (.start start child) outcome =
      { client with
        starts := client.starts.modify start (·.settle succeeded)
        log := client.log ++ if succeeded then [.initialized child] else [] } := by
  cases outcome with
  | resolved id result => exact ⟨true, rfl⟩
  | rejected id error => exact ⟨false, by simp [CodexAppServerClient.settle]⟩
  | failed => exact ⟨false, by simp [CodexAppServerClient.settle]⟩

/-- A request is rejected, or written to the child and pending with its timer. -/
theorem CodexAppServerClient.sendRequest_cases (client : CodexAppServerClient)
    (owner : Nat → Owner) : client.sendRequest owner = (client, none) ∨
      ∃ child, client.child = some child ∧ client.sendRequest owner =
        ({ client with
          nextId := client.nextId + 1
          pending := client.pending ++ [(client.nextId, owner child)]
          timers := client.timers ++ [(client.nextId, owner child)]
          log := client.log ++ [.wrote child client.nextId (owner child)] },
          some client.nextId) := by
  unfold CodexAppServerClient.sendRequest
  split
  · exact .inl rfl
  next child hchild =>
    split
    · exact .inr ⟨child, hchild, rfl⟩
    · exact .inl rfl

theorem CodexAppServerClient.id_outcomeOf (id : Int) (message : Value) :
    (outcomeOf id message).id? = some id := by
  unfold outcomeOf
  split <;> rfl

/-- What the settling of promises leaves alone. -/
structure Settles (client after : CodexAppServerClient) : Prop where
  child : after.child = client.child
  startPromise : after.startPromise = client.startPromise
  pending : after.pending = client.pending
  timers : after.timers = client.timers
  length_starts : after.starts.length = client.starts.length
  phase : after.phase = client.phase

namespace Settles

theorem refl (client : CodexAppServerClient) : Settles client client :=
  ⟨rfl, rfl, rfl, rfl, rfl, rfl⟩

theorem trans {client middle after : CodexAppServerClient} (h : Settles client middle)
    (hafter : Settles middle after) : Settles client after where
  child := hafter.child.trans h.child
  startPromise := hafter.startPromise.trans h.startPromise
  pending := hafter.pending.trans h.pending
  timers := hafter.timers.trans h.timers
  length_starts := hafter.length_starts.trans h.length_starts
  phase := hafter.phase.trans h.phase

theorem settle (client : CodexAppServerClient) (owner : Owner) (outcome : Outcome) :
    Settles client (client.settle owner outcome) := by
  cases owner with
  | call index => exact ⟨rfl, rfl, rfl, rfl, rfl, rfl⟩
  | start start child =>
      obtain ⟨succeeded, hsettle⟩ := client.exists_settle_eq start child outcome
      rw [hsettle]
      exact ⟨rfl, rfl, rfl, rfl, List.length_modify .., rfl⟩

theorem fail (client : CodexAppServerClient) (requests : List (Nat × Owner)) :
    Settles client
      (requests.foldl (fun client request => client.settle request.2 .failed) client) := by
  induction requests generalizing client with
  | nil => exact refl client
  | cons request requests ih => exact (settle client request.2 .failed).trans (ih _)

end Settles

section

variable {call : Call} {start : Nat} {succeeded : Bool}

theorem Call.place_wake_eq_sent {id : Nat} :
    (call.wake start succeeded).place = .sent id ↔ call.place = .sent id := by
  unfold Call.wake
  split
  next hawaits => cases succeeded <;> simp [hawaits, Call.settle]
  · exact Iff.rfl

theorem Call.place_wake_eq_awaiting {other : Nat} :
    (call.wake start succeeded).place = .awaiting other ↔
      call.place = .awaiting other ∧ start ≠ other := by
  unfold Call.wake
  split
  next hawaits => cases succeeded <;> simp [hawaits, Call.settle]
  next hother =>
    refine ⟨fun hplace => ⟨hplace, ?_⟩, fun h => h.1⟩
    rintro rfl
    exact hother hplace

theorem Call.id_wake : (call.wake start succeeded).id = call.id := by
  unfold Call.wake
  split
  · cases succeeded <;> rfl
  · rfl

end

/-- What holds of one call. -/
structure Call.Kept (call : Call) (nextId : Nat) : Prop where
  once : call.settled.length = if call.place = .done then 1 else 0
  own : ∀ outcome ∈ call.settled, ∀ id, outcome.id? = some id →
    ∃ key, call.id = some key ∧ (key : Int) = id
  id_of_sent : ∀ {id}, call.place = .sent id → call.id = some id
  id_lt : ∀ {id}, call.id = some id → id < nextId

namespace Call.Kept

variable {call : Call} {nextId : Nat}

theorem mono (h : call.Kept nextId) {later : Nat} (hle : nextId ≤ later) : call.Kept later :=
  ⟨h.once, h.own, h.id_of_sent, fun hid => Nat.lt_of_lt_of_le (h.id_lt hid) hle⟩

/-- A call that is not done is settled, by the response to its own request or without one. -/
theorem settle (h : call.Kept nextId) (hopen : call.place ≠ .done) {outcome : Outcome}
    (hown : ∀ id, outcome.id? = some id → ∃ key, call.id = some key ∧ (key : Int) = id) :
    (call.settle outcome).Kept nextId where
  once := by
    have honce := h.once
    rw [if_neg hopen] at honce
    simp [Call.settle, honce]
  own other hmem := by
    rcases List.mem_append.mp hmem with hmem | hmem
    · exact h.own other hmem
    · rw [List.mem_singleton.mp hmem]
      exact hown
  id_of_sent hplace := by cases hplace
  id_lt := h.id_lt

theorem wake (h : call.Kept nextId) (start : Nat) (succeeded : Bool) :
    (call.wake start succeeded).Kept nextId := by
  unfold Call.wake
  split
  next hawaits =>
    split
    · refine ⟨?_, h.own, by simp, h.id_lt⟩
      have honce := h.once
      rw [if_neg (by simp [hawaits])] at honce
      simpa using honce
    · exact h.settle (by simp [hawaits]) (by simp [Outcome.id?])
  · exact h

end Call.Kept

/-- A request with a key of its own, and the others. -/
theorem perm_cons_filter {requests : List (Nat × Owner)} {key : Nat} {owner : Owner}
    (hnodup : (requests.map Prod.fst).Nodup) (hmem : (key, owner) ∈ requests) :
    requests.Perm ((key, owner) :: requests.filter (·.1 ≠ key)) := by
  obtain ⟨before, after, rfl⟩ := List.append_of_mem hmem
  rw [List.map_append, List.map_cons] at hnodup
  have hothers : ∀ request ∈ before ++ after, decide (request.1 ≠ key) = true := by
    intro request hrequest
    have hkey := (List.nodup_middle.mp hnodup).notMem
    rw [← List.map_append] at hkey
    exact decide_eq_true fun heq => hkey (List.mem_map.mpr ⟨request, hrequest, heq⟩)
  have hfilter : (before ++ (key, owner) :: after).filter (·.1 ≠ key) = before ++ after := by
    rw [List.filter_append, List.filter_cons_of_neg (by simp), ← List.filter_append]
    exact List.filter_eq_self.mpr hothers
  rw [hfilter]
  exact List.perm_middle

/-- The requests that are pending, the calls and the starts fit together. -/
structure Orderly (requests : List (Nat × Owner)) (client : CodexAppServerClient) : Prop where
  lt : ∀ request ∈ requests, request.1 < client.nextId
  nodup : (requests.map Prod.fst).Nodup
  sent : ∀ {id index : Nat}, (id, Owner.call index) ∈ requests ↔
    ∃ call, client.calls[index]? = some call ∧ call.place = .sent id
  initializing : ∀ {start : Nat}, client.starts[start]? = some Start.initializing ↔
    ∃ id child, (id, Owner.start start child) ∈ requests
  started_once : ∀ {start id child other otherChild : Nat},
    (id, Owner.start start child) ∈ requests → (other, Owner.start start otherChild) ∈ requests →
    id = other
  kept : ∀ {index : Nat} {call : Call}, client.calls[index]? = some call → call.Kept client.nextId
  distinct : ∀ {index other id : Nat} {call otherCall : Call}, client.calls[index]? = some call →
    client.calls[other]? = some otherCall → call.id = some id → otherCall.id = some id →
    index = other
  awaiting : ∀ {index start : Nat} {call : Call}, client.calls[index]? = some call →
    call.place = .awaiting start → ∃ state : Start, client.starts[start]? = some state ∧ state.Alive
  spawning : ∀ {start child : Nat}, client.starts[start]? = some (Start.spawning child) →
    client.phase child = .starting ∧ child < client.children

namespace Orderly

variable {requests : List (Nat × Owner)} {client : CodexAppServerClient}

theorem new : Orderly [] .new := by
  constructor <;> simp [CodexAppServerClient.new]

theorem perm (h : Orderly requests client) {others : List (Nat × Owner)}
    (hperm : requests.Perm others) : Orderly others client where
  lt request hmem := h.lt request (hperm.mem_iff.mpr hmem)
  nodup := (hperm.map Prod.fst).nodup_iff.mp h.nodup
  sent := by
    intro id index
    rw [← hperm.mem_iff]
    exact h.sent
  initializing := by
    intro start
    simp only [← hperm.mem_iff]
    exact h.initializing
  started_once hmem hother :=
    h.started_once (hperm.mem_iff.mpr hmem) (hperm.mem_iff.mpr hother)
  kept := h.kept
  distinct := h.distinct
  awaiting := h.awaiting
  spawning := h.spawning

/-- A call that is not done is settled, and none of its requests stay. -/
theorem settleCall (h : Orderly requests client) {index : Nat} {own : Call}
    (hown : client.calls[index]? = some own) (hopen : own.place ≠ .done) {outcome : Outcome}
    (hid : ∀ id, outcome.id? = some id → ∃ key, own.id = some key ∧ (key : Int) = id) :
    Orderly (requests.filter (·.2 ≠ .call index)) (client.settle (.call index) outcome) where
  lt request hmem := h.lt request (List.mem_filter.mp hmem).1
  nodup := h.nodup.sublist (List.filter_sublist.map Prod.fst)
  sent := by
    intro id position
    rw [List.mem_filter, h.sent]
    constructor
    · rintro ⟨⟨call, hcall, hsent⟩, hother⟩
      have hne : index ≠ position := by
        rintro rfl
        simp at hother
      exact ⟨call, getElem?_modify_eq_some.mpr ⟨call, hcall, (if_neg hne).symm⟩, hsent⟩
    · rintro ⟨call, hget, hsent⟩
      obtain ⟨old, hold, rfl⟩ := getElem?_modify_eq_some.mp hget
      split at hsent
      · cases hsent
      next hne =>
        exact ⟨⟨old, hold, hsent⟩, decide_eq_true fun heq => hne (Owner.call.inj heq).symm⟩
  initializing := by
    intro start
    show client.starts[start]? = some .initializing ↔ _
    rw [h.initializing]
    simp
  started_once hmem hother :=
    h.started_once (List.mem_filter.mp hmem).1 (List.mem_filter.mp hother).1
  kept := by
    intro position call hget
    obtain ⟨old, hold, rfl⟩ := getElem?_modify_eq_some.mp hget
    split
    next hsame =>
      subst hsame
      obtain rfl := Option.some.inj (hown.symm.trans hold)
      exact (h.kept hown).settle hopen hid
    · exact h.kept hold
  distinct := by
    intro position other key call otherCall hget hother hcall hotherCall
    obtain ⟨old, hold, rfl⟩ := getElem?_modify_eq_some.mp hget
    obtain ⟨otherOld, hotherOld, rfl⟩ := getElem?_modify_eq_some.mp hother
    have hkey : old.id = some key := by split at hcall <;> exact hcall
    have hotherKey : otherOld.id = some key := by split at hotherCall <;> exact hotherCall
    exact h.distinct hold hotherOld hkey hotherKey
  awaiting := by
    intro position start call hget hawaits
    obtain ⟨old, hold, rfl⟩ := getElem?_modify_eq_some.mp hget
    split at hawaits
    · cases hawaits
    · exact h.awaiting hold hawaits
  spawning := h.spawning

/-- A call that has not sent anything is rejected. -/
theorem reject (h : Orderly requests client) {index : Nat} {own : Call}
    (hown : client.calls[index]? = some own) (hopen : own.place ≠ .done)
    (hunsent : ∀ id, own.place ≠ .sent id) :
    Orderly requests (client.settle (.call index) .failed) := by
  have hnone : requests.filter (·.2 ≠ .call index) = requests := by
    refine List.filter_eq_self.mpr fun request hmem => decide_eq_true fun howner => ?_
    obtain ⟨id, owner⟩ := request
    obtain rfl : owner = .call index := howner
    obtain ⟨call, hcall, hsent⟩ := h.sent.mp hmem
    exact hunsent id ((Option.some.inj (hown.symm.trans hcall)) ▸ hsent)
  rw [← hnone]
  exact h.settleCall hown hopen (by simp [Outcome.id?])

/-- The promise of the first request is settled, and the request is no longer pending. -/
theorem settle {id : Nat} {owner : Owner} (h : Orderly ((id, owner) :: requests) client)
    {outcome : Outcome} (hid : ∀ other, outcome.id? = some other → (id : Int) = other) :
    Orderly requests (client.settle owner outcome) := by
  have hlt := fun request hmem => h.lt request (List.mem_cons_of_mem _ hmem)
  obtain ⟨hfresh, hnodup⟩ := List.nodup_cons.mp h.nodup
  have hgone : ∀ other, (id, other) ∉ requests :=
    fun other hmem => hfresh (List.mem_map.mpr ⟨_, hmem, rfl⟩)
  cases owner with
  | call index =>
      obtain ⟨own, hown, hplace⟩ := h.sent.mp List.mem_cons_self
      have hrest : ((id, Owner.call index) :: requests).filter (·.2 ≠ .call index) = requests := by
        rw [List.filter_cons_of_neg (by simp)]
        refine List.filter_eq_self.mpr fun request hmem => decide_eq_true fun howner => ?_
        obtain ⟨key, owner⟩ := request
        obtain rfl : owner = .call index := howner
        obtain ⟨call, hcall, hsent⟩ := h.sent.mp (List.mem_cons_of_mem _ hmem)
        obtain rfl := Option.some.inj (hown.symm.trans hcall)
        obtain rfl := Place.sent.inj (hplace.symm.trans hsent)
        exact hgone _ hmem
      rw [← hrest]
      exact h.settleCall hown (by simp [hplace]) fun other hother =>
        ⟨id, (h.kept hown).id_of_sent hplace, hid other hother⟩
  | start start child =>
      obtain ⟨succeeded, hsettle⟩ := client.exists_settle_eq start child outcome
      have hown : client.starts[start]? = some .initializing :=
        h.initializing.mpr ⟨id, child, List.mem_cons_self⟩
      rw [hsettle]
      constructor
      · exact hlt
      · exact hnodup
      · intro other position
        have hsent : _ ↔ ∃ call, client.calls[position]? = some call ∧ call.place = .sent other :=
          h.sent
        simpa using hsent
      · intro other
        constructor
        · intro hget
          obtain ⟨old, hold, hstart⟩ := getElem?_modify_eq_some.mp hget
          split at hstart
          next hsame =>
            subst hsame
            obtain rfl := Option.some.inj (hown.symm.trans hold)
            cases succeeded <;> cases hstart
          next hne =>
            subst hstart
            obtain ⟨key, otherChild, hmem⟩ := h.initializing.mp hold
            rcases List.mem_cons.mp hmem with heq | hmem
            · cases heq
              exact absurd rfl hne
            · exact ⟨key, otherChild, hmem⟩
        · rintro ⟨key, otherChild, hmem⟩
          have hne : start ≠ other := by
            rintro rfl
            obtain rfl := h.started_once List.mem_cons_self (List.mem_cons_of_mem _ hmem)
            exact hgone _ hmem
          have hget := h.initializing.mpr ⟨key, otherChild, List.mem_cons_of_mem _ hmem⟩
          exact getElem?_modify_eq_some.mpr ⟨_, hget, (if_neg hne).symm⟩
      · exact fun hmem hother =>
          h.started_once (List.mem_cons_of_mem _ hmem) (List.mem_cons_of_mem _ hother)
      · exact h.kept
      · exact h.distinct
      · intro position other call hget hawaits
        obtain ⟨state, hstate, halive⟩ := h.awaiting hget hawaits
        refine ⟨_, getElem?_modify_eq_some.mpr ⟨state, hstate, rfl⟩, ?_⟩
        split
        · exact halive.settle succeeded
        · exact halive
      · intro other otherChild hget
        obtain ⟨old, hold, hstart⟩ := getElem?_modify_eq_some.mp hget
        split at hstart
        next hsame =>
          subst hsame
          obtain rfl := Option.some.inj (hown.symm.trans hold)
          cases succeeded <;> cases hstart
        · exact h.spawning (hold.trans (congrArg some hstart.symm))

/-- A request that is taken away is settled. -/
theorem delete (h : Orderly client.pending client) {key : Nat} {owner : Owner}
    (hmem : (key, owner) ∈ client.pending) {outcome : Outcome}
    (hid : ∀ other, outcome.id? = some other → (key : Int) = other) :
    Orderly ((client.delete key).settle owner outcome).pending
      ((client.delete key).settle owner outcome) := by
  have hrest : Orderly ((key, owner) :: client.pending.filter (·.1 ≠ key)) (client.delete key) :=
    { h.perm (perm_cons_filter h.nodup hmem) with }
  rw [(Settles.settle (client.delete key) owner outcome).pending]
  exact hrest.settle hid

/-- All requests are settled. -/
theorem fail (h : Orderly requests client) :
    Orderly [] (requests.foldl (fun client request => client.settle request.2 .failed) client) := by
  induction requests generalizing client with
  | nil => exact h
  | cons request requests ih => exact ih (h.settle (by simp [Outcome.id?]))

/-! ### Calls -/

/-- A new call, which has not sent anything. -/
theorem push (h : Orderly requests client) {call : Call} (hkept : call.Kept client.nextId)
    (hid : call.id = none) (hawaiting : ∀ {start}, call.place = .awaiting start →
      ∃ state : Start, client.starts[start]? = some state ∧ state.Alive) :
    Orderly requests { client with calls := client.calls ++ [call] } := by
  refine { h with sent := ?_, kept := ?_, distinct := ?_, awaiting := ?_ }
  · intro id position
    rw [h.sent]
    constructor
    · rintro ⟨other, hother, hplace⟩
      exact ⟨other, getElem?_concat_eq_some.mpr (.inl hother), hplace⟩
    · rintro ⟨other, hother, hplace⟩
      rcases getElem?_concat_eq_some.mp hother with hold | ⟨-, rfl⟩
      · exact ⟨other, hold, hplace⟩
      · have hsome := hkept.id_of_sent hplace
        rw [hid] at hsome
        cases hsome
  · intro position other hother
    rcases getElem?_concat_eq_some.mp hother with hold | ⟨-, rfl⟩
    · exact h.kept hold
    · exact hkept
  · intro position other id first second hfirst hsecond hfirstId hsecondId
    rcases getElem?_concat_eq_some.mp hfirst with hfirst | ⟨-, rfl⟩
    · rcases getElem?_concat_eq_some.mp hsecond with hsecond | ⟨-, rfl⟩
      · exact h.distinct hfirst hsecond hfirstId hsecondId
      · rw [hid] at hsecondId
        cases hsecondId
    · rw [hid] at hfirstId
      cases hfirstId
  · intro position start other hother hplace
    rcases getElem?_concat_eq_some.mp hother with hold | ⟨-, rfl⟩
    · exact h.awaiting hold hplace
    · exact hawaiting hplace

/-- The next id is new. -/
theorem lt_push (h : Orderly requests client) (owner : Owner) :
    ∀ request ∈ requests ++ [(client.nextId, owner)], request.1 < client.nextId + 1 := by
  intro request hmem
  rcases List.mem_append.mp hmem with hmem | hmem
  · exact Nat.lt_succ_of_lt (h.lt request hmem)
  · rw [List.mem_singleton.mp hmem]
    exact Nat.lt_succ_self _

theorem nodup_push (h : Orderly requests client) (owner : Owner) :
    ((requests ++ [(client.nextId, owner)]).map Prod.fst).Nodup := by
  rw [List.map_append, List.map_singleton, ← List.concat_eq_append]
  refine h.nodup.concat fun hmem => ?_
  obtain ⟨request, hrequest, heq⟩ := List.mem_map.mp hmem
  exact absurd (h.lt request hrequest) (by omega)

/-- A call sends its request. -/
theorem sendCall (h : Orderly requests client) {index : Nat} {own : Call}
    (hown : client.calls[index]? = some own) (hplace : own.place = .resumes) :
    Orderly (requests ++ [(client.nextId, .call index)])
      { client with
        nextId := client.nextId + 1
        calls := client.calls.modify index fun call =>
          { call with place := .sent client.nextId, id := client.nextId } } where
  lt := h.lt_push _
  nodup := h.nodup_push _
  sent := by
    intro id position
    rw [List.mem_append, h.sent, List.mem_singleton]
    constructor
    · rintro (⟨call, hcall, hsent⟩ | heq)
      · have hne : index ≠ position := by
          rintro rfl
          obtain rfl := Option.some.inj (hown.symm.trans hcall)
          cases hplace.symm.trans hsent
        exact ⟨call, getElem?_modify_eq_some.mpr ⟨call, hcall, (if_neg hne).symm⟩, hsent⟩
      · cases heq
        exact ⟨_, getElem?_modify_eq_some.mpr ⟨own, hown, (if_pos rfl).symm⟩, rfl⟩
    · rintro ⟨call, hget, hsent⟩
      obtain ⟨old, hold, rfl⟩ := getElem?_modify_eq_some.mp hget
      split at hsent
      next hsame =>
        subst hsame
        cases hsent
        exact .inr rfl
      · exact .inl ⟨old, hold, hsent⟩
  initializing := by
    intro start
    show client.starts[start]? = some .initializing ↔ _
    rw [h.initializing]
    simp
  started_once hmem hother := by
    simp only [List.mem_append, List.mem_singleton, Prod.mk.injEq, reduceCtorEq, and_false,
      or_false] at hmem hother
    exact h.started_once hmem hother
  kept := by
    intro position call hget
    obtain ⟨old, hold, rfl⟩ := getElem?_modify_eq_some.mp hget
    have hkept := h.kept hold
    split
    next hsame =>
      subst hsame
      obtain rfl := Option.some.inj (hown.symm.trans hold)
      have honce := hkept.once
      rw [if_neg (by simp [hplace])] at honce
      have hnone := List.eq_nil_of_length_eq_zero honce
      refine ⟨by simp [hnone], by simp [hnone], ?_, ?_⟩
      · rintro id ⟨⟩
        rfl
      · rintro id ⟨⟩
        exact Nat.lt_succ_self _
    · exact hkept.mono (Nat.le_succ _)
  distinct := by
    intro position other id first second hfirst hsecond hfirstId hsecondId
    obtain ⟨old, hold, rfl⟩ := getElem?_modify_eq_some.mp hfirst
    obtain ⟨otherOld, hotherOld, rfl⟩ := getElem?_modify_eq_some.mp hsecond
    split at hfirstId <;> split at hsecondId
    next hsame hotherSame => rw [← hsame, ← hotherSame]
    next hsame hother =>
      cases hfirstId
      exact absurd ((h.kept hotherOld).id_lt hsecondId) (Nat.lt_irrefl _)
    next hne hotherSame =>
      cases hsecondId
      exact absurd ((h.kept hold).id_lt hfirstId) (Nat.lt_irrefl _)
    · exact h.distinct hold hotherOld hfirstId hsecondId
  awaiting := by
    intro position start call hget hawaits
    obtain ⟨old, hold, rfl⟩ := getElem?_modify_eq_some.mp hget
    split at hawaits
    · cases hawaits
    · exact h.awaiting hold hawaits
  spawning := h.spawning

/-! ### Starts -/

/-- A start sends `initialize`. -/
theorem sendStart (h : Orderly requests client) {start : Nat} (child : Nat)
    (hown : client.starts[start]? = some .spawned) :
    Orderly (requests ++ [(client.nextId, .start start child)])
      { client with
        nextId := client.nextId + 1
        starts := client.starts.set start .initializing } where
  lt := h.lt_push _
  nodup := h.nodup_push _
  sent := by
    intro id position
    rw [← h.sent]
    simp
  initializing := by
    intro other
    rw [getElem?_set_eq_some hown, h.initializing]
    constructor
    · rintro (⟨rfl, -⟩ | ⟨-, id, otherChild, hmem⟩)
      · exact ⟨client.nextId, child, by simp⟩
      · exact ⟨id, otherChild, List.mem_append_left _ hmem⟩
    · rintro ⟨id, otherChild, hmem⟩
      rcases List.mem_append.mp hmem with hmem | hmem
      · have hne : start ≠ other := by
          rintro rfl
          have hget := h.initializing.mpr ⟨id, otherChild, hmem⟩
          cases hown.symm.trans hget
        exact .inr ⟨hne, id, otherChild, hmem⟩
      · cases List.mem_singleton.mp hmem
        exact .inl ⟨rfl, rfl⟩
  started_once := by
    have hnew : ∀ {id otherChild}, (id, Owner.start start otherChild) ∉ requests := by
      intro id otherChild hmem
      have hget := h.initializing.mpr ⟨id, otherChild, hmem⟩
      cases hown.symm.trans hget
    intro other id otherChild second secondChild hmem hother
    rcases List.mem_append.mp hmem with hmem | hmem <;>
      rcases List.mem_append.mp hother with hother | hother
    · exact h.started_once hmem hother
    · cases List.mem_singleton.mp hother
      exact absurd hmem hnew
    · cases List.mem_singleton.mp hmem
      exact absurd hother hnew
    · cases List.mem_singleton.mp hmem
      cases List.mem_singleton.mp hother
      rfl
  kept hget := (h.kept hget).mono (Nat.le_succ _)
  distinct := h.distinct
  awaiting := by
    intro position other call hget hawaits
    obtain ⟨state, hstate, halive⟩ := h.awaiting hget hawaits
    by_cases heq : start = other
    · exact ⟨_, (getElem?_set_eq_some hown).mpr (.inl ⟨heq, rfl⟩), by simp, by simp⟩
    · exact ⟨state, (getElem?_set_eq_some hown).mpr (.inr ⟨heq, hstate⟩), halive⟩
  spawning := by
    intro other otherChild hget
    rcases (getElem?_set_eq_some hown).mp hget with ⟨-, hnever⟩ | ⟨-, hold⟩
    · cases hnever
    · exact h.spawning hold

/-- A start changes to one that is not on its own any more: to throw, to return, or done. -/
theorem setStart (h : Orderly requests client) {start : Nat} {old new : Start}
    (hown : client.starts[start]? = some old) (hold : old ≠ .initializing)
    (hinitializing : new ≠ .initializing) (hspawning : ∀ child, new ≠ .spawning child)
    (hawaiting : ∀ {index : Nat} {call : Call}, client.calls[index]? = some call →
      call.place = .awaiting start → new.Alive) :
    Orderly requests { client with starts := client.starts.set start new } := by
  refine { h with initializing := ?_, awaiting := ?_, spawning := ?_ }
  · intro other
    rw [← h.initializing, getElem?_set_eq_some hown]
    constructor
    · rintro (⟨-, hnever⟩ | ⟨-, hget⟩)
      · exact absurd hnever.symm hinitializing
      · exact hget
    · intro hget
      have hne : start ≠ other := by
        rintro rfl
        exact hold (Option.some.inj (hown.symm.trans hget))
      exact .inr ⟨hne, hget⟩
  · intro position other call hget hawaits
    by_cases heq : start = other
    · subst heq
      exact ⟨new, (getElem?_set_eq_some hown).mpr (.inl ⟨rfl, rfl⟩), hawaiting hget hawaits⟩
    · obtain ⟨state, hstate, halive⟩ := h.awaiting hget hawaits
      exact ⟨state, (getElem?_set_eq_some hown).mpr (.inr ⟨heq, hstate⟩), halive⟩
  · intro other child hget
    rcases (getElem?_set_eq_some hown).mp hget with ⟨-, hnever⟩ | ⟨-, hget⟩
    · exact absurd hnever.symm (hspawning child)
    · exact h.spawning hget

/-- The calls that await a start go on, or are rejected with it. -/
theorem wake (h : Orderly requests client) (start : Nat) (succeeded : Bool) :
    Orderly requests { client with calls := client.calls.map (·.wake start succeeded) } := by
  have hget : ∀ {position : Nat} {call : Call},
      (client.calls.map (·.wake start succeeded))[position]? = some call →
      ∃ old, client.calls[position]? = some old ∧ call = old.wake start succeeded := by
    intro position call hget
    rw [List.getElem?_map] at hget
    obtain ⟨old, hold, rfl⟩ := Option.map_eq_some_iff.mp hget
    exact ⟨old, hold, rfl⟩
  refine { h with sent := ?_, kept := ?_, distinct := ?_, awaiting := ?_ }
  · intro id position
    rw [h.sent]
    constructor
    · rintro ⟨call, hcall, hsent⟩
      refine ⟨call.wake start succeeded, ?_, Call.place_wake_eq_sent.mpr hsent⟩
      rw [List.getElem?_map, hcall]
      rfl
    · rintro ⟨call, hcall, hsent⟩
      obtain ⟨old, hold, rfl⟩ := hget hcall
      exact ⟨old, hold, Call.place_wake_eq_sent.mp hsent⟩
  · intro position call hcall
    obtain ⟨old, hold, rfl⟩ := hget hcall
    exact (h.kept hold).wake start succeeded
  · intro position other id first second hfirst hsecond hfirstId hsecondId
    obtain ⟨old, hold, rfl⟩ := hget hfirst
    obtain ⟨otherOld, hotherOld, rfl⟩ := hget hsecond
    rw [Call.id_wake] at hfirstId hsecondId
    exact h.distinct hold hotherOld hfirstId hsecondId
  · intro position other call hcall hawaits
    obtain ⟨old, hold, rfl⟩ := hget hcall
    exact h.awaiting hold (Call.place_wake_eq_awaiting.mp hawaits).1

/-- A new start. -/
theorem pushStart (h : Orderly requests client) {state : Start} (hstate : state ≠ .initializing)
    (hspawning : ∀ child, state = .spawning child →
      client.phase child = .starting ∧ child < client.children) :
    Orderly requests { client with starts := client.starts ++ [state] } := by
  refine { h with initializing := ?_, awaiting := ?_, spawning := ?_ }
  · intro other
    rw [← h.initializing, getElem?_concat_eq_some]
    simp [hstate.symm]
  · intro position other call hget hawaits
    obtain ⟨old, hold, halive⟩ := h.awaiting hget hawaits
    exact ⟨old, getElem?_concat_eq_some.mpr (.inl hold), halive⟩
  · intro other child hget
    rcases getElem?_concat_eq_some.mp hget with hold | ⟨-, heq⟩
    · exact h.spawning hold
    · exact hspawning child heq.symm

/-- A child is launched for a new start, or the start is to throw. -/
theorem start (h : Orderly requests client) (launches : Bool) :
    Orderly requests (client.start launches) ∧
      ∃ state, (client.start launches).starts[client.starts.length]? = some state ∧
        state.Alive := by
  unfold CodexAppServerClient.start
  split
  · have hlaunched : Orderly requests { client with
        children := client.children + 1
        phase := Function.update client.phase client.children .starting } := by
      refine { h with spawning := fun hget => ?_ }
      obtain ⟨hphase, hlt⟩ := h.spawning hget
      exact ⟨(Function.update_of_ne (Nat.ne_of_lt hlt) ..).trans hphase, Nat.lt_succ_of_lt hlt⟩
    refine ⟨{ hlaunched.pushStart (Start.noConfusion : .spawning client.children ≠ _) ?_ with },
      .spawning client.children, by simp, by simp, by simp⟩
    rintro _ ⟨⟩
    exact ⟨Function.update_self .., Nat.lt_succ_self _⟩
  · exact ⟨h.pushStart (by simp) (by simp), .failing, by simp, by simp, by simp⟩

/-- A child is no longer starting, and the starts that waited for it go on. -/
theorem leave (h : Orderly requests client) (child : Nat) (phase : ChildPhase) {next : Start}
    (halive : next.Alive) (hinitializing : next ≠ .initializing)
    (hspawning : ∀ other, next ≠ .spawning other) :
    Orderly requests { client with
      phase := Function.update client.phase child phase
      starts := client.starts.map fun start =>
        if start = .spawning child then next else start } := by
  have hget : ∀ {position : Nat} {state : Start},
      (client.starts.map fun start => if start = .spawning child then next else start)[position]? =
        some state →
      ∃ old, client.starts[position]? = some old ∧
        state = if old = .spawning child then next else old := by
    intro position state hget
    rw [List.getElem?_map] at hget
    obtain ⟨old, hold, rfl⟩ := Option.map_eq_some_iff.mp hget
    exact ⟨old, hold, rfl⟩
  refine { h with initializing := ?_, awaiting := ?_, spawning := ?_ }
  · intro other
    rw [← h.initializing]
    constructor
    · intro hstate
      obtain ⟨old, hold, heq⟩ := hget hstate
      split at heq
      · exact absurd heq.symm hinitializing
      · rw [hold, heq]
    · intro hold
      show (client.starts.map _)[other]? = _
      rw [List.getElem?_map, hold]
      rfl
  · intro position other call hcall hawaits
    obtain ⟨state, hstate, hold⟩ := h.awaiting hcall hawaits
    refine ⟨if state = .spawning child then next else state, ?_, ?_⟩
    · show (client.starts.map _)[other]? = _
      rw [List.getElem?_map, hstate]
      rfl
    · split
      · exact halive
      · exact hold
  · intro other otherChild hstate
    obtain ⟨old, hold, heq⟩ := hget hstate
    split at heq
    · exact absurd heq.symm (hspawning otherChild)
    next hne =>
      subst heq
      obtain ⟨hphase, hlt⟩ := h.spawning hold
      have hother : otherChild ≠ child := by
        rintro rfl
        exact hne rfl
      exact ⟨(Function.update_of_ne hother ..).trans hphase, hlt⟩

end Orderly

/-! ## The client -/

/-- The pending requests are those with a timer, and they have their owners. -/
structure Keeping (client : CodexAppServerClient) : Prop where
  timers : client.timers = client.pending
  orderly : Orderly client.pending client
  promise : ∀ {start}, client.startPromise = some start → start < client.starts.length

namespace Keeping

variable {client : CodexAppServerClient}

theorem new : Keeping .new := ⟨rfl, Orderly.new, by simp [CodexAppServerClient.new]⟩

theorem enter (h : Keeping client) {place : Place} (hdone : place ≠ .done)
    (hsent : ∀ id, place ≠ .sent id) (hawaiting : ∀ {start}, place = .awaiting start →
      ∃ state : Start, client.starts[start]? = some state ∧ state.Alive) :
    Keeping (client.enter place) := by
  refine ⟨h.timers, h.orderly.push ⟨?_, by simp, fun hplace => ?_, by simp⟩ rfl hawaiting,
    h.promise⟩
  · rw [if_neg hdone]
    rfl
  · exact absurd hplace (hsent _)

theorem request (h : Keeping client) (launches : Bool) : Keeping (client.request launches) := by
  unfold CodexAppServerClient.request
  split
  next start hstart =>
    split
    · exact h.enter (by simp) (by simp) (by simp)
    · exact ⟨h.timers, h.orderly.push ⟨rfl, by simp [Outcome.id?], by simp, by simp⟩ rfl (by simp),
        h.promise⟩
    next hdone hfailed =>
      refine h.enter (by simp) (by simp) ?_
      rintro _ ⟨⟩
      have hget := List.getElem?_eq_getElem (h.promise hstart)
      exact ⟨_, hget, fun heq => hdone (heq ▸ hget), fun heq => hfailed (heq ▸ hget)⟩
  · split
    · exact h.enter (by simp) (by simp) (by simp)
    · obtain ⟨horderly, state, hstate, halive⟩ := h.orderly.start launches
      have hstarted : Keeping { client.start launches with
          startPromise := some client.starts.length } := by
        refine ⟨?_, ?_, ?_⟩
        · have htimers := h.timers
          unfold CodexAppServerClient.start
          split <;> exact htimers
        · have hpending : (client.start launches).pending = client.pending := by
            unfold CodexAppServerClient.start
            split <;> rfl
          show Orderly (client.start launches).pending _
          rw [hpending]
          exact { horderly with }
        · rintro _ ⟨⟩
          exact (List.getElem?_eq_some_iff.mp hstate).1
      refine hstarted.enter (by simp) (by simp) ?_
      rintro _ ⟨⟩
      exact ⟨state, hstate, halive⟩

/-- A request that is pending is settled and taken away. -/
theorem delete (h : Keeping client) {key : Nat} {owner : Owner}
    (hmem : (key, owner) ∈ client.pending) {outcome : Outcome}
    (hid : ∀ other, outcome.id? = some other → (key : Int) = other) :
    Keeping ((client.delete key).settle owner outcome) := by
  have hsettles := Settles.settle (client.delete key) owner outcome
  refine ⟨?_, h.orderly.delete hmem hid, fun hpromise => ?_⟩
  · rw [hsettles.timers, hsettles.pending]
    show client.timers.filter _ = client.pending.filter _
    rw [h.timers]
  · rw [hsettles.startPromise] at hpromise
    rw [hsettles.length_starts]
    exact h.promise hpromise

theorem onTimeout (h : Keeping client) (id : Nat) : Keeping (client.onTimeout id) := by
  unfold CodexAppServerClient.onTimeout
  split
  next key owner hfind =>
    have hmem := List.mem_of_find?_eq_some hfind
    rw [h.timers] at hmem
    exact h.delete hmem (by simp [Outcome.id?])
  · exact h

theorem onWriteError (h : Keeping client) (id : Nat) : Keeping (client.onWriteError id) := by
  unfold CodexAppServerClient.onWriteError
  split
  next key owner hfind =>
    exact h.delete (List.mem_of_find?_eq_some hfind) (by simp [Outcome.id?])
  · exact h

variable {number : Option Value → Option Int} {parse : String → Option Value}

theorem handleMessage (h : Keeping client) (message : Value) :
    Keeping (client.handleMessage number message) := by
  unfold CodexAppServerClient.handleMessage
  split
  · exact h
  · split
    · exact h
    next id hnumber =>
      split
      · exact h
      next key owner hfind =>
        have hkey : (key : Int) = id := by simpa using List.find?_some hfind
        refine h.delete (List.mem_of_find?_eq_some hfind) fun other hother => ?_
        rw [CodexAppServerClient.id_outcomeOf] at hother
        rw [hkey, Option.some.inj hother]

theorem handleData (h : Keeping client) (chunk : List Char) :
    Keeping (client.handleData number parse chunk) := by
  have hlines : Keeping (handleLines isNewline
      (fun client line => client.handleText number parse line) CodexAppServerClient.crashed client
      (client.buffer ++ chunk)).1 := by
    refine handleLines_invariant Keeping (fun {client} line h => ?_) h _
    unfold CodexAppServerClient.handleText
    split
    · exact h
    · split
      · exact h
      · exact ⟨h.timers, { h.orderly with }, h.promise⟩
      · exact h.handleMessage _
  exact ⟨hlines.timers, { hlines.orderly with }, hlines.promise⟩

theorem failChild (h : Keeping client) (child : Nat) : Keeping (client.failChild child) := by
  unfold CodexAppServerClient.failChild
  split
  · have hcleared : Orderly client.pending
        { client with child := none, startPromise := none } := { h.orderly with }
    have hsettles := Settles.fail { client with child := none, startPromise := none }
      client.pending
    refine ⟨?_, { hcleared.fail with }, fun hpromise => ?_⟩
    · refine List.filter_eq_nil_iff.mpr fun timer hmem => ?_
      rw [h.timers] at hmem
      have hany : client.pending.any (·.1 == timer.1) = true :=
        List.any_eq_true.mpr ⟨timer, hmem, beq_self_eq_true _⟩
      simp [hany]
    · have hnone := hsettles.startPromise.symm.trans hpromise
      cases hnone
  · exact h

theorem leave (h : Keeping client) (child : Nat) (phase : ChildPhase) {next : Start}
    (halive : next.Alive) (hinitializing : next ≠ .initializing)
    (hspawning : ∀ other, next ≠ .spawning other) :
    Keeping { client with
      phase := Function.update client.phase child phase
      starts := client.starts.map fun start =>
        if start = .spawning child then next else start } := by
  refine ⟨h.timers, h.orderly.leave child phase halive hinitializing hspawning, fun hpromise => ?_⟩
  rw [List.length_map]
  exact h.promise hpromise

theorem onSpawn (h : Keeping client) (child : Nat) : Keeping (client.onSpawn child) := by
  unfold CodexAppServerClient.onSpawn
  exact h.leave child .running ⟨by simp, by simp⟩ (by simp) (by simp)

theorem onError (h : Keeping client) (child : Nat) : Keeping (client.onError child) := by
  unfold CodexAppServerClient.onError
  exact (h.leave child _ ⟨by simp, by simp⟩ (by simp) (by simp)).failChild child

theorem onClose (h : Keeping client) {child : Nat} (hphase : client.phase child ≠ .starting) :
    Keeping (client.onClose child) := by
  unfold CodexAppServerClient.onClose
  have hclosed : Keeping { client with
      phase := Function.update client.phase child .closed } := by
    refine ⟨h.timers, { h.orderly with spawning := fun hget => ?_ }, h.promise⟩
    obtain ⟨hstarting, hlt⟩ := h.orderly.spawning hget
    have hother : _ ≠ child := fun heq => hphase (heq ▸ hstarting)
    exact ⟨(Function.update_of_ne hother ..).trans hstarting, hlt⟩
  exact hclosed.failChild child

theorem resume (h : Keeping client) (index : Nat) : Keeping (client.resume index) := by
  unfold CodexAppServerClient.resume
  split
  next hresumes =>
    obtain ⟨call, hcall, hplace⟩ := Option.map_eq_some_iff.mp hresumes
    rcases client.sendRequest_cases fun _ => .call index with hsend | ⟨child, hchild, hsend⟩
    · rw [hsend]
      exact ⟨h.timers, h.orderly.reject hcall (by simp [hplace]) (by simp [hplace]), h.promise⟩
    · rw [hsend]
      exact ⟨congrArg (· ++ _) h.timers, { h.orderly.sendCall hcall hplace with }, h.promise⟩
  · exact h

/-- A start is over, and the calls that await it are told. -/
theorem wake (h : Keeping client) {start : Nat} {old new : Start}
    (hown : client.starts[start]? = some old) (hold : old ≠ .initializing) (succeeded : Bool)
    (hinitializing : new ≠ .initializing) (hspawning : ∀ child, new ≠ .spawning child) :
    Keeping { client with
      starts := client.starts.set start new
      calls := client.calls.map (·.wake start succeeded) } := by
  refine ⟨h.timers, { (h.orderly.wake start succeeded).setStart hown hold hinitializing hspawning
    fun {index call} hget hawaits => ?_ with }, fun hpromise => ?_⟩
  · rw [List.getElem?_map] at hget
    obtain ⟨before, hbefore, rfl⟩ := Option.map_eq_some_iff.mp hget
    exact absurd rfl (Call.place_wake_eq_awaiting.mp hawaits).2
  · rw [List.length_set]
    exact h.promise hpromise

theorem continues (h : Keeping client) (start : Nat) : Keeping (client.continues start) := by
  unfold CodexAppServerClient.continues
  split
  next hspawned =>
    rcases client.sendRequest_cases (.start start) with hsend | ⟨child, hchild, hsend⟩
    · rw [hsend]
      refine ⟨h.timers, { h.orderly.setStart hspawned (by simp) (by simp) (by simp)
        (fun _ _ => ⟨by simp, by simp⟩) with }, fun hpromise => ?_⟩
      show _ < (client.starts.set _ _).length
      rw [List.length_set]
      exact h.promise hpromise
    · rw [hsend]
      refine ⟨congrArg (· ++ _) h.timers, { h.orderly.sendStart child hspawned with },
        fun hpromise => ?_⟩
      show _ < (client.starts.set _ _).length
      rw [List.length_set]
      exact h.promise hpromise
  next hreturns => exact h.wake hreturns (by simp) true (by simp) (by simp)
  next hthrows =>
    have hwoken : Keeping { client with
        starts := client.starts.set start .failed
        calls := client.calls.map (·.wake start false) } :=
      h.wake hthrows (by simp) false (by simp) (by simp)
    exact ⟨hwoken.timers, { hwoken.orderly with }, fun hpromise => by cases hpromise⟩
  · exact h

theorem receive (h : Keeping client) (event : ChildEvent) :
    Keeping (client.receive number parse event) := by
  unfold CodexAppServerClient.receive
  cases event with
  | spawns child =>
      dsimp only
      split
      · exact h.onSpawn child
      · exact h
  | fails child =>
      dsimp only
      split
      · exact h.onError child
      · exact h
  | closes child =>
      dsimp only
      split
      next hphase => exact h.onClose (by rcases hphase with hphase | hphase <;> simp [hphase])
      · exact h
  | data chunk => exact h.handleData chunk
  | timeout id => exact h.onTimeout id
  | writeFails id => exact h.onWriteError id
  | stdinEnds child => exact ⟨h.timers, { h.orderly with }, h.promise⟩

theorem step (h : Keeping client) (event : AppEvent) :
    Keeping (client.step number parse event) := by
  unfold CodexAppServerClient.step
  split
  · exact h
  · cases event with
    | request launches => exact h.request launches
    | resume index => exact h.resume index
    | continues start => exact h.continues start
    | outside event =>
        dsimp only
        split
        · exact h.receive event
        · exact h

end Keeping

/-! ## The law -/

/-- Every promise of `request` is settled once, and by a response only if it carries its id;
a promise that is not settled yet has something that will settle it. -/
structure PromisesKept (client : CodexAppServerClient) : Prop where
  once : ∀ call ∈ client.calls, call.settled.length = if call.place = .done then 1 else 0
  own : ∀ call ∈ client.calls, ∀ outcome ∈ call.settled, ∀ id, outcome.id? = some id →
    ∃ key, call.id = some key ∧ (key : Int) = id
  /-- No two calls have the same id. -/
  distinct : ∀ {index other id : Nat} {call otherCall : Call},
    client.calls[index]? = some call → client.calls[other]? = some otherCall →
    call.id = some id → otherCall.id = some id → index = other
  awaiting : ∀ {start : Nat}, ∀ call ∈ client.calls, call.place = .awaiting start →
    ∃ state : Start, client.starts[start]? = some state ∧ state.Alive
  /-- A request that was sent has its timer. -/
  sent : ∀ {index id : Nat} {call : Call}, client.calls[index]? = some call →
    call.place = .sent id → (id, .call index) ∈ client.timers
  initializing : ∀ {start : Nat}, client.starts[start]? = some Start.initializing →
    ∃ id child, (id, Owner.start start child) ∈ client.timers
  spawning : ∀ {start child : Nat}, client.starts[start]? = some (Start.spawning child) →
    client.phase child = .starting

theorem Keeping.promisesKept {client : CodexAppServerClient} (h : Keeping client) :
    PromisesKept client where
  once call hmem := by
    obtain ⟨index, hget⟩ := List.mem_iff_getElem?.mp hmem
    exact (h.orderly.kept hget).once
  own call hmem := by
    obtain ⟨index, hget⟩ := List.mem_iff_getElem?.mp hmem
    exact (h.orderly.kept hget).own
  distinct := h.orderly.distinct
  awaiting call hmem hplace := by
    obtain ⟨index, hget⟩ := List.mem_iff_getElem?.mp hmem
    exact h.orderly.awaiting hget hplace
  sent hget hplace := by
    rw [h.timers]
    exact h.orderly.sent.mpr ⟨_, hget, hplace⟩
  initializing hget := by
    rw [h.timers]
    exact h.orderly.initializing.mp hget
  spawning hget := (h.orderly.spawning hget).1

end Plugin
end MicroEmu
