import MicroEmu.Library.Runs
import MicroEmu.Plugin.Promises

/-!
# The handshake of the app-server client

Requests go to a child only behind a successful `initialize` on it.  The client keeps to
this as long as no request is made while there is a child without one and no start is
awaited, which is how a failed `initialize` leaves the client.
-/

namespace MicroEmu
namespace Plugin

open Json (Value)
open Library

/-! ## The law -/

/-- A request is written to a child only after `initialize` has succeeded on it. -/
def AfterInitialized (log : List Entry) : Prop :=
  ∀ before after child id index, log = before ++ .wrote child id (.call index) :: after →
    Entry.initialized child ∈ before

/-- A request that does not await a start finds a child that is initialized, or none. -/
def AwaitsStart (client : CodexAppServerClient) : AppEvent → Prop
  | .request _ => client.startPromise = none → ∀ child, client.child = some child →
      Entry.initialized child ∈ client.log
  | _ => True

namespace AfterInitialized

variable {log : List Entry}

theorem nil : AfterInitialized [] := by
  intro before after child id index h
  cases before <;> cases h

theorem append (h : AfterInitialized log) {entry : Entry}
    (hentry : ∀ child id index, entry = .wrote child id (.call index) →
      Entry.initialized child ∈ log) : AfterInitialized (log ++ [entry]) := by
  intro before after child id index hsplit
  rcases List.eq_nil_or_concat after with rfl | ⟨rest, last, rfl⟩
  · obtain ⟨hbefore, hlast⟩ := List.append_inj' hsplit rfl
    rw [← hbefore]
    exact hentry child id index (List.head_eq_of_cons_eq hlast)
  · rw [List.concat_eq_append, ← List.cons_append, ← List.append_assoc] at hsplit
    exact h before rest child id index (List.append_inj' hsplit rfl).1

end AfterInitialized

/-! ## The invariant -/

/-- The child is there and initialized. -/
def CodexAppServerClient.Ready (client : CodexAppServerClient) : Prop :=
  ∃ child, client.child = some child ∧ Entry.initialized child ∈ client.log

/-- Starts under way are for the child that is there, and what goes on behind a start finds it
initialized. -/
structure Shaken (requests : List (Nat × Owner)) (client : CodexAppServerClient) : Prop where
  log : AfterInitialized client.log
  promise : ∀ {start : Nat}, client.startPromise = some start →
    client.starts[start]? = some .done → client.Ready
  resumes : ∀ call ∈ client.calls, call.place = .resumes → client.Ready
  spawning : ∀ {child}, .spawning child ∈ client.starts → client.child = some child
  initialized : .initialized ∈ client.starts → client.Ready
  starts : ∀ {id start child}, (id, .start start child) ∈ requests → client.child = some child

namespace Shaken

variable {requests : List (Nat × Owner)} {client : CodexAppServerClient}

theorem new : Shaken [] .new := by
  constructor <;> simp [CodexAppServerClient.new, AfterInitialized.nil]

theorem subset (h : Shaken requests client) {others : List (Nat × Owner)}
    (hsubset : others ⊆ requests) : Shaken others client :=
  { h with starts := fun hmem => h.starts (hsubset hmem) }

/-- The promise of the first request is settled. -/
theorem settle {id : Nat} {owner : Owner} (h : Shaken ((id, owner) :: requests) client)
    (outcome : Outcome) : Shaken requests (client.settle owner outcome) := by
  have hrest := h.subset (List.subset_cons_self ..)
  cases owner with
  | call index =>
      refine { hrest with resumes := fun call hmem hplace => ?_ }
      obtain ⟨position, hget⟩ := List.mem_iff_getElem?.mp hmem
      obtain ⟨old, hold, rfl⟩ := getElem?_modify_eq_some.mp hget
      split at hplace
      · cases hplace
      · exact h.resumes old (List.mem_of_getElem? hold) hplace
  | start start child =>
      obtain ⟨succeeded, hsettle⟩ := client.exists_settle_eq start child outcome
      rw [hsettle]
      have hchild := h.starts List.mem_cons_self
      have hmem : ∀ {state}, state ∈ client.starts.modify start (·.settle succeeded) →
          state ∈ client.starts ∨ state = .failing ∨ succeeded = true ∧ state = .initialized := by
        intro state hmem
        obtain ⟨position, hget⟩ := List.mem_iff_getElem?.mp hmem
        obtain ⟨old, hold, rfl⟩ := getElem?_modify_eq_some.mp hget
        have hold := List.mem_of_getElem? hold
        unfold Start.settle
        split
        · split
          · cases succeeded <;> simp
          · exact .inl hold
        · exact .inl hold
      cases succeeded with
      | true =>
          have hready : ∃ other, client.child = some other ∧
              Entry.initialized other ∈ client.log ++ [.initialized child] :=
            ⟨child, hchild, by simp⟩
          refine ⟨h.log.append (by simp), fun _ _ => hready, fun _ _ _ => hready, ?_,
            fun _ => hready, hrest.starts⟩
          intro other hspawning
          rcases hmem hspawning with hold | heq | ⟨-, heq⟩
          · exact h.spawning hold
          · cases heq
          · cases heq
      | false =>
          simp only [Bool.false_eq_true, if_false, List.append_nil]
          refine { hrest with promise := ?_, spawning := ?_, initialized := ?_ }
          · intro other hpromise hget
            obtain ⟨old, hold, heq⟩ := getElem?_modify_eq_some.mp hget
            refine h.promise hpromise (hold.trans (congrArg some ?_))
            split at heq
            · unfold Start.settle at heq
              split at heq
              · cases heq
              · exact heq.symm
            · exact heq.symm
          · intro other hspawning
            rcases hmem hspawning with hold | heq | ⟨hnever, -⟩
            · exact h.spawning hold
            · cases heq
            · cases hnever
          · intro hinitialized
            rcases hmem hinitialized with hold | heq | ⟨hnever, -⟩
            · exact h.initialized hold
            · cases heq
            · cases hnever

/-- A request that is taken away is settled. -/
theorem delete (h : Shaken client.pending client) {key : Nat} {owner : Owner}
    (hmem : (key, owner) ∈ client.pending) (outcome : Outcome) :
    Shaken ((client.delete key).settle owner outcome).pending
      ((client.delete key).settle owner outcome) := by
  have hrest : Shaken ((key, owner) :: client.pending.filter (·.1 ≠ key)) (client.delete key) := by
    have hsubset : (key, owner) :: client.pending.filter (·.1 ≠ key) ⊆ client.pending :=
      List.cons_subset.mpr ⟨hmem, List.filter_subset_self _⟩
    exact { h.subset hsubset with }
  rw [(Settles.settle (client.delete key) owner outcome).pending]
  exact hrest.settle outcome

/-! ### Calls -/

theorem enter (h : Shaken requests client) {place : Place}
    (hready : place = .resumes → client.Ready) : Shaken requests (client.enter place) := by
  refine { h with resumes := fun call hmem hplace => ?_ }
  rcases List.mem_append.mp hmem with hmem | hmem
  · exact h.resumes call hmem hplace
  · rw [List.mem_singleton.mp hmem] at hplace
    exact hready hplace

/-- A start when there is no child. -/
theorem start (h : Shaken requests client) (hnone : client.child = none) (launches : Bool) :
    Shaken requests { client.start launches with startPromise := some client.starts.length } := by
  have hunready : ¬client.Ready := by
    rintro ⟨child, hchild, -⟩
    rw [hnone] at hchild
    cases hchild
  have hidle : ∀ {child}, client.child ≠ some child := by simp [hnone]
  unfold CodexAppServerClient.start
  split
  · constructor
    · exact h.log
    · rintro _ ⟨⟩ hget
      simp at hget
    · exact fun call hmem hplace => absurd (h.resumes call hmem hplace) hunready
    · intro child hmem
      rcases List.mem_append.mp hmem with hmem | hmem
      · exact absurd (h.spawning hmem) hidle
      · cases List.mem_singleton.mp hmem
        rfl
    · intro hmem
      rcases List.mem_append.mp hmem with hmem | hmem
      · exact absurd (h.initialized hmem) hunready
      · cases List.mem_singleton.mp hmem
    · exact fun hmem => absurd (h.starts hmem) hidle
  · constructor
    · exact h.log
    · rintro _ ⟨⟩ hget
      simp at hget
    · exact h.resumes
    · intro child hmem
      rcases List.mem_append.mp hmem with hmem | hmem
      · exact h.spawning hmem
      · cases List.mem_singleton.mp hmem
    · intro hmem
      rcases List.mem_append.mp hmem with hmem | hmem
      · exact h.initialized hmem
      · cases List.mem_singleton.mp hmem
    · exact h.starts

theorem request (h : Shaken client.pending client) {launches : Bool}
    (hawaits : AwaitsStart client (.request launches)) :
    Shaken (client.request launches).pending (client.request launches) := by
  unfold CodexAppServerClient.request
  split
  next start hstart =>
    split
    next hdone => exact h.enter fun _ => h.promise hstart hdone
    · refine { h with resumes := fun call hmem hplace => ?_ }
      rcases List.mem_append.mp hmem with hmem | hmem
      · exact h.resumes call hmem hplace
      · rw [List.mem_singleton.mp hmem] at hplace
        cases hplace
    · exact h.enter (by simp)
  next hnone =>
    split
    next hchild =>
      obtain ⟨child, hchild⟩ := Option.isSome_iff_exists.mp hchild
      exact h.enter fun _ => ⟨child, hchild, hawaits hnone child hchild⟩
    next hchild =>
      have hpending : (client.start launches).pending = client.pending := by
        unfold CodexAppServerClient.start
        split <;> rfl
      show Shaken (client.start launches).pending _
      rw [hpending]
      exact (h.start (by simpa using hchild) launches).enter (by simp)

/-- A request is written to the child; one of a call only if the child is initialized. -/
theorem write (h : Shaken requests client) {child : Nat} (hchild : client.child = some child)
    (owner : Owner) (hcall : ∀ index, owner = .call index → Entry.initialized child ∈ client.log)
    (hstart : ∀ start other, owner = .start start other → other = child) :
    Shaken (requests ++ [(client.nextId, owner)])
      { client with log := client.log ++ [.wrote child client.nextId owner] } := by
  have hready : client.Ready → ∃ other, client.child = some other ∧ Entry.initialized other ∈
      client.log ++ [.wrote child client.nextId owner] := by
    rintro ⟨other, hother, hlog⟩
    exact ⟨other, hother, List.mem_append_left _ hlog⟩
  constructor
  · refine h.log.append ?_
    rintro _ _ index ⟨⟩
    exact hcall index rfl
  · exact fun hpromise hdone => hready (h.promise hpromise hdone)
  · exact fun call hmem hplace => hready (h.resumes call hmem hplace)
  · exact h.spawning
  · exact fun hmem => hready (h.initialized hmem)
  · intro id start other hmem
    rcases List.mem_append.mp hmem with hmem | hmem
    · exact h.starts hmem
    · cases List.mem_singleton.mp hmem
      rw [hstart start other rfl]
      exact hchild

theorem resume (h : Shaken client.pending client) (index : Nat) :
    Shaken (client.resume index).pending (client.resume index) := by
  unfold CodexAppServerClient.resume
  split
  next hresumes =>
    obtain ⟨call, hcall, hplace⟩ := Option.map_eq_some_iff.mp hresumes
    have hready := h.resumes call (List.mem_of_getElem? hcall) hplace
    rcases client.sendRequest_cases fun _ => .call index with hsend | ⟨child, hchild, hsend⟩
    · rw [hsend]
      exact { h with resumes := fun _ _ _ => hready }
    · rw [hsend]
      obtain ⟨current, hcurrent, hlog⟩ := hready
      obtain rfl : child = current := Option.some.inj (hchild.symm.trans hcurrent)
      have hwritten := h.write hchild (.call index) (fun _ _ => hlog) (by simp)
      exact { hwritten with
        resumes := fun _ _ _ => ⟨child, hchild, List.mem_append_left _ hlog⟩ }
  · exact h

/-! ### Starts -/

/-- A start goes to a state that nothing depends on. -/
theorem setStart (h : Shaken requests client) (start : Nat) (state : Start)
    (hdone : state ≠ .done) (hspawning : ∀ child, state ≠ .spawning child)
    (hinitialized : state ≠ .initialized) :
    Shaken requests { client with starts := client.starts.set start state } := by
  refine { h with promise := ?_, spawning := ?_, initialized := ?_ }
  · intro other hpromise hget
    refine h.promise hpromise ?_
    rw [List.getElem?_set] at hget
    split at hget
    · split at hget
      · exact absurd (Option.some.inj hget) hdone
      · cases hget
    · exact hget
  · intro child hmem
    rcases List.mem_or_eq_of_mem_set hmem with hmem | heq
    · exact h.spawning hmem
    · exact absurd heq.symm (hspawning child)
  · intro hmem
    rcases List.mem_or_eq_of_mem_set hmem with hmem | heq
    · exact h.initialized hmem
    · exact absurd heq.symm hinitialized

theorem continues (h : Shaken client.pending client) (start : Nat) :
    Shaken (client.continues start).pending (client.continues start) := by
  unfold CodexAppServerClient.continues
  split
  next hspawned =>
    rcases client.sendRequest_cases (.start start) with hsend | ⟨child, hchild, hsend⟩
    · rw [hsend]
      exact h.setStart start .failing (by simp) (by simp) (by simp)
    · rw [hsend]
      have hwritten := h.write hchild (.start start child) (by simp)
        (by simp [eq_comm])
      exact { hwritten.setStart start .initializing (by simp) (by simp) (by simp) with }
  next hreturns =>
    have hready := h.initialized (List.mem_of_getElem? hreturns)
    refine ⟨h.log, fun _ _ => hready, fun _ _ _ => hready, ?_, fun _ => hready, h.starts⟩
    intro child hmem
    rcases List.mem_or_eq_of_mem_set hmem with hmem | heq
    · exact h.spawning hmem
    · cases heq
  next hthrows =>
    have hset : Shaken client.pending { client with
        starts := client.starts.set start .failed } :=
      h.setStart start .failed (by simp) (by simp) (by simp)
    refine { hset with promise := ?_, resumes := ?_ }
    · intro other hpromise
      cases hpromise
    · intro call hmem hplace
      obtain ⟨old, hold, rfl⟩ := List.mem_map.mp hmem
      refine h.resumes old hold ?_
      unfold Call.wake at hplace
      split at hplace
      · cases hplace
      · exact hplace
  · exact h

/-! ### Events from outside -/

theorem of_idle (h : client.idle = true) : (∀ call ∈ client.calls, call.place ≠ .resumes) ∧
    Start.initialized ∉ client.starts := by
  simp only [CodexAppServerClient.idle, Bool.and_eq_true, List.all_eq_true] at h
  refine ⟨fun call hmem => by simpa using h.2 call hmem, fun hmem => ?_⟩
  have hno := h.1 _ hmem
  cases hno

/-- Promises that fail leave no trace in the log, and nothing goes on behind them but `catch`. -/
theorem log_fail (client : CodexAppServerClient) (requests : List (Nat × Owner))
    (hcalls : ∀ call ∈ client.calls, call.place ≠ .resumes) :
    let after := requests.foldl (fun client request => client.settle request.2 .failed) client
    after.log = client.log ∧ (∀ call ∈ after.calls, call.place ≠ .resumes) ∧
      ∀ state ∈ after.starts, state ∈ client.starts ∨ state = .failing := by
  induction requests generalizing client with
  | nil => exact ⟨rfl, hcalls, fun state hmem => .inl hmem⟩
  | cons request requests ih =>
      obtain ⟨id, owner⟩ := request
      rw [List.foldl_cons]
      cases owner with
      | call index =>
          refine ih (client.settle (.call index) .failed) fun call hmem => ?_
          obtain ⟨position, hget⟩ := List.mem_iff_getElem?.mp hmem
          obtain ⟨old, hold, rfl⟩ := getElem?_modify_eq_some.mp hget
          split
          · simp [Call.settle]
          · exact hcalls old (List.mem_of_getElem? hold)
      | start start child =>
          obtain ⟨hlog, hplaces, hstates⟩ := ih (client.settle (.start start child) .failed) hcalls
          refine ⟨hlog, hplaces, fun state hmem => ?_⟩
          rcases hstates state hmem with hmem | hfailing
          · obtain ⟨position, hget⟩ := List.mem_iff_getElem?.mp hmem
            obtain ⟨old, hold, rfl⟩ := getElem?_modify_eq_some.mp hget
            unfold Start.settle
            split
            · split
              · exact .inr rfl
              · exact .inl (List.mem_of_getElem? hold)
            · exact .inl (List.mem_of_getElem? hold)
          · exact .inr hfailing

/-- The child is gone, and with it all that was for it. -/
theorem failChild (h : Shaken client.pending client) {child : Nat}
    (hcalls : ∀ call ∈ client.calls, call.place ≠ .resumes)
    (hinitialized : Start.initialized ∉ client.starts)
    (hspawning : Start.spawning child ∉ client.starts) :
    Shaken (client.failChild child).pending (client.failChild child) := by
  unfold CodexAppServerClient.failChild
  split
  next hchild =>
    have hfail := log_fail { client with child := none, startPromise := none } client.pending hcalls
    have hsettles := Settles.fail { client with child := none, startPromise := none }
      client.pending
    obtain ⟨hlog, hplaces, hstates⟩ := hfail
    constructor
    · exact (congrArg AfterInitialized hlog).mpr h.log
    · intro start hpromise
      have hnone := hsettles.startPromise.symm.trans hpromise
      cases hnone
    · exact fun call hmem hplace => absurd hplace (hplaces call hmem)
    · intro other hmem
      rcases hstates _ hmem with hmem | hfailing
      · have hother := h.spawning hmem
        obtain rfl : child = other := Option.some.inj (hchild.symm.trans hother)
        exact absurd hmem hspawning
      · cases hfailing
    · intro hmem
      rcases hstates _ hmem with hmem | hfailing
      · exact absurd hmem hinitialized
      · cases hfailing
    · exact fun hmem => absurd hmem List.not_mem_nil
  · exact h

/-- A child is no longer starting, and the starts that waited for it go on. -/
theorem leave (h : Shaken requests client) (child : Nat) (phase : ChildPhase) {next : Start}
    (hdone : next ≠ .done) (hspawning : ∀ other, next ≠ .spawning other)
    (hinitialized : next ≠ .initialized) :
    Shaken requests { client with
      phase := Function.update client.phase child phase
      starts := client.starts.map fun start =>
        if start = .spawning child then next else start } := by
  have hmem : ∀ {state : Start}, state ≠ next →
      state ∈ client.starts.map (fun start => if start = .spawning child then next else start) →
      state ∈ client.starts := by
    intro state hne hmem
    obtain ⟨old, hold, heq⟩ := List.mem_map.mp hmem
    split at heq
    · exact absurd heq.symm hne
    · exact heq ▸ hold
  refine { h with promise := ?_, spawning := ?_, initialized := ?_ }
  · intro start hpromise hget
    refine h.promise hpromise ?_
    rw [List.getElem?_map] at hget
    obtain ⟨old, hold, heq⟩ := Option.map_eq_some_iff.mp hget
    split at heq
    · exact absurd heq hdone
    · rw [hold, heq]
  · exact fun hstate => h.spawning (hmem (fun heq => hspawning _ heq.symm) hstate)
  · exact fun hstate => h.initialized (hmem (fun heq => hinitialized heq.symm) hstate)

theorem onSpawn (h : Shaken client.pending client) (child : Nat) :
    Shaken (client.onSpawn child).pending (client.onSpawn child) :=
  h.leave child .running (by simp) (by simp) (by simp)

theorem onError (h : Shaken client.pending client) (child : Nat) (hidle : client.idle = true) :
    Shaken (client.onError child).pending (client.onError child) := by
  obtain ⟨hcalls, hinitialized⟩ := of_idle hidle
  unfold CodexAppServerClient.onError
  refine (h.leave child _ (by simp) (by simp) (by simp)).failChild hcalls ?_ ?_
  · intro hmem
    obtain ⟨old, hold, heq⟩ := List.mem_map.mp hmem
    split at heq
    · cases heq
    · exact hinitialized (heq ▸ hold)
  · intro hmem
    obtain ⟨old, hold, heq⟩ := List.mem_map.mp hmem
    split at heq
    · cases heq
    next hne => exact hne heq

theorem onClose (h : Shaken client.pending client) (hkeeping : Keeping client) {child : Nat}
    (hidle : client.idle = true) (hphase : client.phase child ≠ .starting) :
    Shaken (client.onClose child).pending (client.onClose child) := by
  obtain ⟨hcalls, hinitialized⟩ := of_idle hidle
  have hclosed : Shaken client.pending { client with
      phase := Function.update client.phase child .closed } := { h with }
  refine hclosed.failChild hcalls hinitialized fun hmem => ?_
  obtain ⟨start, hget⟩ := List.mem_iff_getElem?.mp hmem
  exact hphase (hkeeping.orderly.spawning hget).1

theorem onTimeout (h : Shaken client.pending client) (hkeeping : Keeping client) (id : Nat) :
    Shaken (client.onTimeout id).pending (client.onTimeout id) := by
  unfold CodexAppServerClient.onTimeout
  split
  next key owner hfind =>
    have hmem := List.mem_of_find?_eq_some hfind
    rw [hkeeping.timers] at hmem
    exact h.delete hmem .failed
  · exact h

theorem onWriteError (h : Shaken client.pending client) (id : Nat) :
    Shaken (client.onWriteError id).pending (client.onWriteError id) := by
  unfold CodexAppServerClient.onWriteError
  split
  next key owner hfind => exact h.delete (List.mem_of_find?_eq_some hfind) .failed
  · exact h

variable {number : Option Value → Option Int} {parse : String → Option Value}

theorem handleMessage (h : Shaken client.pending client) (message : Value) :
    Shaken (client.handleMessage number message).pending
      (client.handleMessage number message) := by
  unfold CodexAppServerClient.handleMessage
  split
  · exact h
  · split
    · exact h
    · split
      · exact h
      next key owner hfind => exact h.delete (List.mem_of_find?_eq_some hfind) _

theorem handleData (h : Shaken client.pending client) (chunk : List Char) :
    Shaken (client.handleData number parse chunk).pending
      (client.handleData number parse chunk) := by
  have hline : ∀ {client : CodexAppServerClient} (line : List Char), Shaken client.pending client →
      Shaken (client.handleText number parse line).pending
        (client.handleText number parse line) := by
    intro client line h
    unfold CodexAppServerClient.handleText
    split
    · exact h
    · split
      · exact h
      · exact { h with }
      · exact h.handleMessage _
  exact { handleLines_invariant (fun client : CodexAppServerClient => Shaken client.pending client)
    hline h (client.buffer ++ chunk) with }

theorem receive (h : Shaken client.pending client) (hkeeping : Keeping client)
    (hidle : client.idle = true) (event : ChildEvent) :
    Shaken (client.receive number parse event).pending (client.receive number parse event) := by
  unfold CodexAppServerClient.receive
  cases event with
  | spawns child =>
      dsimp only
      split
      · exact h.onSpawn child
      · exact h
  | fails child =>
      dsimp only
      split
      · exact h.onError child hidle
      · exact h
  | closes child =>
      dsimp only
      split
      next hphase =>
        exact h.onClose hkeeping hidle (by rcases hphase with hphase | hphase <;> simp [hphase])
      · exact h
  | data chunk => exact h.handleData chunk
  | timeout id => exact h.onTimeout hkeeping id
  | writeFails id => exact h.onWriteError id
  | stdinEnds child => exact { h with }

theorem step (h : Shaken client.pending client) (hkeeping : Keeping client) {event : AppEvent}
    (hawaits : AwaitsStart client event) :
    Shaken (client.step number parse event).pending (client.step number parse event) := by
  unfold CodexAppServerClient.step
  split
  · exact h
  · cases event with
    | request launches => exact h.request hawaits
    | resume index => exact h.resume index
    | continues start => exact h.continues start
    | outside event =>
        dsimp only
        split
        next hidle => exact h.receive hkeeping hidle event
        · exact h

end Shaken

/-! ## The runs -/

/-- In every run the promises are kept.  If every request that does not await a start finds no
child or an initialized one, requests are written to initialized children only. -/
theorem promises_kept_and_handshake (number : Option Value → Option Int)
    (parse : String → Option Value) (events : List AppEvent) :
    PromisesKept (runFrom (CodexAppServerClient.step number parse) events .new) ∧
      (Along (CodexAppServerClient.step number parse) AwaitsStart events .new →
        AfterInitialized (runFrom (CodexAppServerClient.step number parse) events .new).log) := by
  constructor
  · have hkeeping : Keeping (runFrom (CodexAppServerClient.step number parse) events .new) :=
      runFrom_invariant Keeping (fun event h => h.step event) Keeping.new
    exact hkeeping.promisesKept
  · intro hawaits
    have hboth := hawaits.invariant
      (fun client => Keeping client ∧ Shaken client.pending client)
      (fun h hevent => ⟨h.1.step _, h.2.step h.1 hevent⟩) ⟨Keeping.new, Shaken.new⟩
    exact hboth.2.log

/-- The answer to the first request. -/
def initializeReply : String := "\x7b\"id\":1\x7d"

def initializeLine : List Char := initializeReply.toList ++ ['\n']

def parseInitialize (text : String) : Option Value :=
  if text = initializeReply then some (.object [("id", .ofNat 1)]) else none

def integer : Option Value → Option Int
  | some (.number (.posInt n)) => some n.toNat
  | _ => none

theorem handleData_initializeLine {client : CodexAppServerClient} {owner : Owner}
    (hbuffer : client.buffer = []) (hpending : client.pending = [(1, owner)]) :
    client.handleData integer parseInitialize initializeLine =
      { (client.delete 1).settle owner (.resolved 1 none) with buffer := [] } := by
  have hfirst : firstLine isNewline initializeLine = some (initializeLine, []) := by
    decide +kernel
  have htrim : trim initializeLine.dropLast = initializeReply := by decide +kernel
  have hblank : initializeReply ≠ "" := by decide
  have hparse : parseInitialize initializeReply = some (.object [("id", .ofNat 1)]) := if_pos rfl
  have htext : client.handleText integer parseInitialize initializeLine =
      (client.delete 1).settle owner (.resolved 1 none) := by
    unfold CodexAppServerClient.handleText
    rw [htrim, if_neg hblank, hparse]
    simp [CodexAppServerClient.handleMessage, CodexAppServerClient.outcomeOf, Value.get?,
      Value.asObject, List.lookup_cons, Value.ofNat, integer, hpending]
  have hnil : ∀ state, handleLines isNewline
      (fun client line => client.handleText integer parseInitialize line)
      CodexAppServerClient.crashed state [] = (state, []) := fun _ => handleLines_of_none rfl
  unfold CodexAppServerClient.handleData
  rw [hbuffer, List.nil_append, handleLines_of_some hfirst, htext, hnil, ite_self]

/-- A request that awaits a start is written behind the answer to `initialize`. -/
theorem promises_kept_and_handshake_initialized :
    let client := runFrom (CodexAppServerClient.step integer parseInitialize)
      [.request true, .outside (.spawns 0), .continues 0, .outside (.data initializeLine),
        .continues 0, .resume 0] .new
    client.log = [.wrote 0 1 (.start 0 0), .initialized 0, .wrote 0 2 (.call 0)] ∧
      PromisesKept client ∧ AfterInitialized client.log := by
  obtain ⟨hkept, hinitialized⟩ := promises_kept_and_handshake integer parseInitialize
    [.request true, .outside (.spawns 0), .continues 0, .outside (.data initializeLine),
      .continues 0, .resume 0]
  refine ⟨?_, hkept, hinitialized ⟨?_, trivial, trivial, trivial, trivial, trivial, trivial⟩⟩
  · simp only [runFrom, List.foldl]
    simp [CodexAppServerClient.step, CodexAppServerClient.new, CodexAppServerClient.request,
      CodexAppServerClient.start, CodexAppServerClient.enter, CodexAppServerClient.receive,
      CodexAppServerClient.onSpawn, CodexAppServerClient.continues,
      CodexAppServerClient.sendRequest, handleData_initializeLine,
      CodexAppServerClient.delete, CodexAppServerClient.settle, CodexAppServerClient.resume,
      CodexAppServerClient.idle, Start.settle, Start.goesOn, Call.wake]
  · intro _ child hchild
    cases hchild

/-- `initialize` is never answered; the request behind the timeout finds the child that was
left, and is written to it. -/
theorem not_handshake_timeout :
    let events := [AppEvent.request true, .outside (.spawns 0), .continues 0,
      .outside (.timeout 1), .continues 0, .request true, .resume 1]
    ¬AfterInitialized (runFrom (CodexAppServerClient.step integer parseInitialize) events
      .new).log := by
  intro events hlog
  have hrun : (runFrom (CodexAppServerClient.step integer parseInitialize) events .new).log =
      [.wrote 0 1 (.start 0 0), .wrote 0 2 (.call 1)] := by
    simp only [events, runFrom, List.foldl]
    simp [CodexAppServerClient.step, CodexAppServerClient.new, CodexAppServerClient.request,
      CodexAppServerClient.start, CodexAppServerClient.enter, CodexAppServerClient.receive,
      CodexAppServerClient.onSpawn, CodexAppServerClient.continues,
      CodexAppServerClient.sendRequest, CodexAppServerClient.onTimeout,
      CodexAppServerClient.delete, CodexAppServerClient.settle, CodexAppServerClient.resume,
      CodexAppServerClient.idle, Start.settle, Start.goesOn, Call.wake, Call.settle]
  have hbefore := hlog [.wrote 0 1 (.start 0 0)] [] 0 2 1 hrun
  simp at hbefore

end Plugin
end MicroEmu
