import Mathlib.Data.List.Basic

/-!
# A slot that keeps the latest request

A caller puts requests into a slot, where a later one takes the place of an earlier one.  A
worker sleeps until there is one, takes it, and attempts it a number of times.  It gives up a
request that has failed for a later one.  Where calls are numbered it also gives up one that is
no longer the latest, before an attempt or in the middle of it.

Whatever the turns of the two, requests are attempted in the order of their calls, each from
its first attempt on, and none is forgotten.  Once no call is under way the worker comes to
rest after a bounded number of turns, with the latest request ended.
-/

namespace MicroEmu
namespace Library

structure LatestRules where
  /-- How often a request is attempted. -/
  attempts : Nat
  attempts_pos : 0 < attempts
  /-- A call counts before its request is in the slot, and the worker looks at the count. -/
  numbered : Bool

/-- What the call of a number asks for.  Calls are numbered from one. -/
structure LatestRequest (α : Type) where
  number : Nat
  value : α
  deriving DecidableEq, Repr

/-- Where the worker is. -/
inductive WorkerPlace (α : Type) where
  /-- It sleeps until it is signalled. -/
  | asleep
  /-- It is about to look into the slot. -/
  | looking
  /-- It is about to attempt a request. -/
  | checking (request : LatestRequest α) (attempt : Nat)
  | running (request : LatestRequest α) (attempt : Nat)
  /-- It waits behind an attempt that has failed. -/
  | resting (request : LatestRequest α) (attempt : Nat)
  deriving DecidableEq, Repr

/-- An attempt, with the number of calls that had begun. -/
structure LatestAttempt (α : Type) where
  request : LatestRequest α
  attempt : Nat
  calls : Nat
  deriving DecidableEq, Repr

structure LatestSlot (α : Type) where
  calls : List α
  /-- How many calls have put their request into the slot. -/
  filed : Nat
  pending : Option (LatestRequest α)
  /-- The worker, once it was started. -/
  worker : Option (WorkerPlace α)
  /-- The number of the request that was taken last. -/
  taken : Nat
  /-- The attempts, the latest first. -/
  runs : List (LatestAttempt α)
  /-- The requests that have ended, the latest first: the last attempt, and whether it
  succeeded. -/
  ended : List (LatestRequest α × Nat × Bool)
  deriving DecidableEq, Repr

inductive LatestInput (α : Type) where
  /-- A call begins; the first one starts the worker. -/
  | call (value : α)
  /-- The call puts its request into the slot and signals the worker. -/
  | file
  /-- The worker wakes up although nobody has signalled it. -/
  | wake
  | look
  | check
  /-- The worker notices in the middle of an attempt that there is a later call. -/
  | cancel
  | finish (success : Bool)
  | rested
  deriving DecidableEq, Repr

/-- The worker's own turns. -/
def LatestInput.ofWorker {α : Type} : LatestInput α → Bool
  | .call _ | .file | .wake => false
  | _ => true

/-- A worker that sleeps is woken up. -/
def WorkerPlace.woken {α : Type} : WorkerPlace α → WorkerPlace α
  | .asleep => .looking
  | place => place

namespace LatestSlot

variable {α : Type}

def empty : LatestSlot α := ⟨[], 0, none, none, 0, [], []⟩

variable (rules : LatestRules) (slot : LatestSlot α)

/-- The latest call has not put its request into the slot. -/
def underWay : Bool := decide (slot.filed < slot.calls.length)

/-- The request is not the one of the latest call, and the worker can tell. -/
def overtaken (request : LatestRequest α) : Bool :=
  rules.numbered && slot.calls.length != request.number

/-- The worker drops the request in hand and looks into the slot again. -/
def lookAgain : LatestSlot α := { slot with worker := some .looking }

/-- One turn of the caller or of the worker; there is one call at a time. -/
def step : LatestInput α → LatestSlot α
  | .call value =>
      if slot.underWay then slot
      else
        { slot with
          calls := slot.calls ++ [value]
          worker := some (slot.worker.getD .looking) }
  | .file =>
      match slot.underWay, slot.calls.getLast? with
      | true, some value =>
          { slot with
            filed := slot.calls.length
            pending := some ⟨slot.calls.length, value⟩
            worker := slot.worker.map WorkerPlace.woken }
      | _, _ => slot
  | .wake => { slot with worker := slot.worker.map WorkerPlace.woken }
  | .look =>
      match slot.worker, slot.pending with
      | some .looking, none => { slot with worker := some .asleep }
      | some .looking, some request =>
          { slot with
            pending := none
            worker := some (.checking request 1)
            taken := request.number }
      | _, _ => slot
  | .check =>
      match slot.worker with
      | some (.checking request attempt) =>
          if slot.overtaken rules request then slot.lookAgain
          else
            { slot with
              worker := some (.running request attempt)
              runs := ⟨request, attempt, slot.calls.length⟩ :: slot.runs }
      | _ => slot
  | .cancel =>
      match slot.worker with
      | some (.running request _) =>
          if slot.overtaken rules request then slot.lookAgain else slot
      | _ => slot
  | .finish success =>
      match slot.worker with
      | some (.running request attempt) =>
          if success || decide (rules.attempts ≤ attempt) then
            { slot.lookAgain with ended := (request, attempt, success) :: slot.ended }
          else { slot with worker := some (.resting request attempt) }
      | _ => slot
  | .rested =>
      match slot.worker with
      | some (.resting request attempt) =>
          if slot.pending.isSome then slot.lookAgain
          else { slot with worker := some (.checking request (attempt + 1)) }
      | _ => slot

/-! ## What holds at every moment -/

/-- The request is the one of the call of its number. -/
structure Told (calls : List α) (request : LatestRequest α) : Prop where
  pos : 0 < request.number
  value : calls[request.number - 1]? = some request.value

/-- The request in hand, and how often it was attempted. -/
def inHand : Option (WorkerPlace α) → Option (LatestRequest α × Nat)
  | some (.checking request attempt) => some (request, attempt - 1)
  | some (.running request attempt) => some (request, attempt)
  | some (.resting request attempt) => some (request, attempt)
  | _ => none

/-- An attempt behind another one is of a later call, or a later one of the same call. -/
def Behind (later earlier : LatestAttempt α) : Prop :=
  earlier.request.number < later.request.number ∨
    earlier.request = later.request ∧ earlier.attempt < later.attempt

/-- The counts of the calls, and the request that waits. -/
structure Counted : Prop where
  filed_le : slot.filed ≤ slot.calls.length
  length_le : slot.calls.length ≤ slot.filed + 1
  started : slot.worker = none → slot.calls = []
  asleep : slot.worker = some .asleep → slot.pending = none
  waits : ∀ request, slot.pending = some request →
    Told slot.calls request ∧ request.number = slot.filed ∧ slot.taken < slot.filed
  idle : slot.pending = none → slot.taken = slot.filed

/-- The attempts that were made. -/
structure Tried : Prop where
  runs : ∀ run ∈ slot.runs, Told slot.calls run.request ∧ run.request.number ≤ slot.taken ∧
    0 < run.attempt ∧ run.attempt ≤ rules.attempts
  latest : rules.numbered = true → ∀ run ∈ slot.runs, run.calls = run.request.number
  ordered : slot.runs.Pairwise Behind
  prior : ∀ run ∈ slot.runs, 1 < run.attempt →
    ∃ before ∈ slot.runs, before.request = run.request ∧ before.attempt + 1 = run.attempt
  ended : ∀ last ∈ slot.ended,
    (∃ run ∈ slot.runs, run.request = last.1 ∧ run.attempt = last.2.1) ∧
      (∀ run ∈ slot.runs, run.request = last.1 → run.attempt ≤ last.2.1) ∧
      (last.2.2 = false → last.2.1 = rules.attempts)
  endedOrder : slot.ended.Pairwise fun later earlier => earlier.1.number < later.1.number

/-- What holds of the request in hand, when so many attempts were made. -/
structure Held (request : LatestRequest α) (made : Nat) : Prop where
  told : Told slot.calls request
  taken : request.number = slot.taken
  runs : ∀ run ∈ slot.runs, run.request.number = slot.taken →
    run.request = request ∧ run.attempt ≤ made
  made : 0 < made → ∃ run ∈ slot.runs, run.request = request ∧ run.attempt = made
  ended : ∀ last ∈ slot.ended, last.1.number < slot.taken

/-- The attempt in hand is one of those that are allowed. -/
def Within : Option (WorkerPlace α) → Prop
  | some (.checking _ attempt) => 0 < attempt ∧ attempt ≤ rules.attempts
  | some (.running _ attempt) => 0 < attempt ∧ attempt ≤ rules.attempts
  | some (.resting _ attempt) => 0 < attempt ∧ attempt < rules.attempts
  | _ => True

/-- The request taken last is in hand or has ended, or there is a later call. -/
def Kept : Prop :=
  slot.taken = 0 ∨ (∃ held, inHand slot.worker = some held) ∨
    (∃ last ∈ slot.ended, last.1.number = slot.taken) ∨
    slot.taken < slot.filed ∨ rules.numbered = true ∧ slot.taken < slot.calls.length

structure Valid : Prop extends Counted slot, Tried rules slot where
  held : ∀ request made, inHand slot.worker = some (request, made) → slot.Held request made
  within : Within rules slot.worker
  kept : slot.Kept rules

variable {rules slot}

theorem empty_valid : Valid rules (empty : LatestSlot α) where
  filed_le := Nat.le_refl 0
  length_le := Nat.zero_le 1
  started _ := rfl
  asleep h := by simp [empty] at h
  waits request h := by simp [empty] at h
  idle _ := rfl
  runs run h := by simp [empty] at h
  latest _ run h := by simp [empty] at h
  ordered := .nil
  prior run h := by simp [empty] at h
  ended last h := by simp [empty] at h
  endedOrder := .nil
  held request made h := by simp [empty, inHand] at h
  within := trivial
  kept := .inl rfl

theorem Told.append {calls : List α} {request : LatestRequest α} (h : Told calls request)
    (value : α) : Told (calls ++ [value]) request := by
  refine ⟨h.pos, ?_⟩
  have hlt : request.number - 1 < calls.length := (List.getElem?_eq_some_iff.mp h.value).1
  rw [List.getElem?_append_left hlt, h.value]

theorem Told.le_length {calls : List α} {request : LatestRequest α} (h : Told calls request) :
    request.number ≤ calls.length := by
  have hlt : request.number - 1 < calls.length := (List.getElem?_eq_some_iff.mp h.value).1
  omega

theorem Tried.ended_le (h : Tried rules slot) {last : LatestRequest α × Nat × Bool}
    (hlast : last ∈ slot.ended) : last.1.number ≤ slot.taken := by
  obtain ⟨⟨run, hrun, hrequest, -⟩, -⟩ := h.ended last hlast
  rw [← hrequest]
  exact (h.runs run hrun).2.1

/-- A request that has ended was attempted from the first time on to the last, once each. -/
theorem Tried.attempted_iff (h : Tried rules slot) {last : LatestRequest α × Nat × Bool}
    (hlast : last ∈ slot.ended) (attempt : Nat) :
    (∃ run ∈ slot.runs, run.request = last.1 ∧ run.attempt = attempt) ↔
      0 < attempt ∧ attempt ≤ last.2.1 := by
  obtain ⟨hmade, hlatest, -⟩ := h.ended last hlast
  constructor
  · rintro ⟨run, hrun, hrequest, rfl⟩
    exact ⟨(h.runs run hrun).2.2.1, hlatest run hrun hrequest⟩
  · rintro ⟨hpos, hle⟩
    -- from the last attempt down to the first
    obtain ⟨more, hmore⟩ := Nat.exists_eq_add_of_le hle
    induction more generalizing attempt with
    | zero =>
        obtain ⟨run, hrun, hrequest, hattempt⟩ := hmade
        exact ⟨run, hrun, hrequest, by omega⟩
    | succ more ih =>
        obtain ⟨run, hrun, hrequest, hattempt⟩ := ih (attempt + 1) (by omega) (by omega) (by omega)
        obtain ⟨before, hbefore, hsame, hprior⟩ := h.prior run hrun (by omega)
        exact ⟨before, hbefore, hsame.trans hrequest, by omega⟩

/-! ## What a turn can add -/

theorem step_calls (rules : LatestRules) (slot : LatestSlot α) (input : LatestInput α) :
    (slot.step rules input).calls = slot.calls ∨
      ∃ value, input = .call value ∧ (slot.step rules input).calls = slot.calls ++ [value] := by
  cases input with
  | call value =>
      rw [step]
      split
      · exact .inl rfl
      · exact .inr ⟨value, rfl, rfl⟩
  | wake => exact .inl rfl
  | file | look | cancel | finish | rested | check =>
      left
      rw [step]
      repeat' split
      all_goals rfl

theorem step_ended (rules : LatestRules) (slot : LatestSlot α) (input : LatestInput α) :
    (slot.step rules input).ended = slot.ended ∨
      ∃ request attempt success, slot.worker = some (.running request attempt) ∧
        input = .finish success ∧
        (slot.step rules input).ended = (request, attempt, success) :: slot.ended := by
  cases input with
  | finish success =>
      rw [step]
      split
      next request attempt hworker =>
        split
        · exact .inr ⟨request, attempt, success, hworker, rfl, rfl⟩
        · exact .inl rfl
      next => exact .inl rfl
  | wake => exact .inl rfl
  | call | file | look | cancel | rested | check =>
      left
      rw [step]
      repeat' split
      all_goals rfl

/-! ## The turns of the caller -/

theorem inHand_woken (worker : Option (WorkerPlace α)) :
    inHand (worker.map WorkerPlace.woken) = inHand worker := by
  rcases worker with - | place
  · rfl
  · cases place <;> rfl

theorem within_woken (worker : Option (WorkerPlace α)) :
    Within rules (worker.map WorkerPlace.woken) ↔ Within rules worker := by
  rcases worker with - | place
  · rfl
  · cases place <;> rfl

theorem woken_ne_asleep (worker : Option (WorkerPlace α)) :
    worker.map WorkerPlace.woken ≠ some .asleep := by
  rcases worker with - | place
  · simp
  · cases place <;> simp [WorkerPlace.woken]

theorem inHand_getD (worker : Option (WorkerPlace α)) :
    inHand (some (worker.getD .looking)) = inHand worker := by
  cases worker <;> rfl

theorem within_getD (worker : Option (WorkerPlace α)) :
    Within rules (some (worker.getD .looking)) ↔ Within rules worker := by
  cases worker <;> rfl

/-- A call keeps what holds: only what is known of the calls grows. -/
theorem Valid.call (h : Valid rules slot) (value : α) :
    Valid rules (slot.step rules (.call value)) := by
  rw [LatestSlot.step]
  by_cases hway : slot.underWay
  · simpa [hway] using h
  · have hfiled : slot.filed = slot.calls.length := by
      have hle := h.filed_le
      simp [underWay] at hway
      omega
    simp only [hway, Bool.false_eq_true, if_false]
    exact
      { h with
        filed_le := by simp; omega
        length_le := by simp; omega
        started := by simp
        asleep := fun hasleep => by
          cases hworker : slot.worker with
          | none => simp [hworker] at hasleep
          | some place =>
              refine h.asleep ?_
              simpa [hworker] using hasleep
        waits := fun request hpending => by
          obtain ⟨htold, hrest⟩ := h.waits request hpending
          exact ⟨htold.append value, hrest⟩
        runs := fun run hrun => by
          obtain ⟨htold, hrest⟩ := h.runs run hrun
          exact ⟨htold.append value, hrest⟩
        held := fun request made hhand => by
          rw [inHand_getD] at hhand
          have hheld := h.held request made hhand
          exact { hheld with told := hheld.told.append value }
        within := (within_getD _).mpr h.within
        kept := by
          have hkept := h.kept
          simp only [Kept, inHand_getD, List.length_append, List.length_singleton] at hkept ⊢
          rcases hkept with hzero | hhand | hended | hfiled | ⟨hnumbered, hlt⟩
          · exact .inl hzero
          · exact .inr (.inl hhand)
          · exact .inr (.inr (.inl hended))
          · exact .inr (.inr (.inr (.inl hfiled)))
          · exact .inr (.inr (.inr (.inr ⟨hnumbered, by omega⟩))) }

/-- The request of the latest call is put into the slot: it is later than the one taken. -/
theorem Valid.file (h : Valid rules slot) : Valid rules (slot.step rules .file) := by
  rw [LatestSlot.step]
  split
  next value hway hlast =>
    have hlt : slot.filed < slot.calls.length := by simpa [underWay] using hway
    have htaken : slot.taken ≤ slot.filed := by
      cases hpending : slot.pending with
      | none => exact Nat.le_of_eq (h.idle hpending)
      | some request => exact Nat.le_of_lt (h.waits request hpending).2.2
    exact
      { h with
        filed_le := Nat.le_refl _
        length_le := Nat.le_succ _
        started := fun hnone => h.started (by simpa using hnone)
        asleep := fun hasleep => absurd hasleep (woken_ne_asleep _)
        waits := fun request hrequest => by
          obtain rfl := Option.some.inj hrequest
          refine ⟨⟨by simp; omega, ?_⟩, rfl, by simp; omega⟩
          simpa [List.getLast?_eq_getElem?] using hlast
        idle := fun hnone => by simp at hnone
        held := fun request made hhand => by
          rw [inHand_woken] at hhand
          have hheld := h.held request made hhand
          exact { hheld with }
        within := (within_woken _).mpr h.within
        kept := .inr (.inr (.inr (.inl (by simp; omega)))) }
  next => exact h

theorem Valid.wake (h : Valid rules slot) : Valid rules (slot.step rules .wake) :=
  { h with
    started := fun hnone => h.started (by simpa [LatestSlot.step] using hnone)
    asleep := fun hasleep => absurd hasleep (woken_ne_asleep _)
    held := fun request made hhand => by
      rw [LatestSlot.step, inHand_woken] at hhand
      have hheld := h.held request made hhand
      exact { hheld with }
    within := (within_woken _).mpr h.within
    kept := by
      have hkept := h.kept
      simpa only [Kept, LatestSlot.step, inHand_woken] using hkept }

/-! ## The turns of the worker -/

/-- Dropping the request in hand keeps what holds if it has ended or a later one was called. -/
theorem Valid.lookAgain (h : Valid rules slot)
    (hkept : (∃ last ∈ slot.ended, last.1.number = slot.taken) ∨ slot.taken < slot.filed ∨
      rules.numbered = true ∧ slot.taken < slot.calls.length) :
    Valid rules slot.lookAgain :=
  { h with
    started := fun hnone => by simp [LatestSlot.lookAgain] at hnone
    asleep := fun hasleep => by simp [LatestSlot.lookAgain] at hasleep
    held := fun request made hhand => by simp [LatestSlot.lookAgain, inHand] at hhand
    within := trivial
    kept := .inr (.inr hkept) }

theorem Valid.look (h : Valid rules slot) : Valid rules (slot.step rules .look) := by
  rw [LatestSlot.step]
  split
  next hworker hpending =>
    exact
      { h with
        started := fun hnone => by simp at hnone
        asleep := fun _ => hpending
        held := fun request made hhand => by simp [inHand] at hhand
        within := trivial
        kept := by
          have hkept := h.kept
          simp only [Kept, hworker] at hkept ⊢
          simpa only [inHand] using hkept }
  next request hworker hpending =>
    obtain ⟨htold, hnumber, htaken⟩ := h.waits request hpending
    have hruns : ∀ run ∈ slot.runs, run.request.number < request.number := by
      intro run hrun
      have hle := (h.runs run hrun).2.1
      omega
    have hended : ∀ last ∈ slot.ended, last.1.number < request.number := by
      intro last hlast
      have hle := h.ended_le hlast
      omega
    exact
      { h with
        started := fun hnone => by simp at hnone
        asleep := fun hasleep => by simp at hasleep
        waits := fun other hnone => by simp at hnone
        idle := fun _ => hnumber
        runs := fun run hrun => by
          obtain ⟨hrunTold, -, hattempt⟩ := h.runs run hrun
          exact ⟨hrunTold, Nat.le_of_lt (hruns run hrun), hattempt⟩
        held := fun other made hhand => by
          obtain ⟨rfl, rfl⟩ : request = other ∧ 0 = made := by simpa [inHand] using hhand
          exact
            { told := htold
              taken := rfl
              runs := fun run hrun hsame => absurd hsame (Nat.ne_of_lt (hruns run hrun))
              made := fun hpos => absurd hpos (Nat.lt_irrefl 0)
              ended := hended }
        within := ⟨Nat.one_pos, rules.attempts_pos⟩
        kept := .inr (.inl ⟨(request, 0), rfl⟩) }
  next => exact h

/-- Behind a request that is overtaken there is a later call. -/
theorem Held.overtaken {request : LatestRequest α} {made : Nat} (h : slot.Held request made)
    (hover : slot.overtaken rules request = true) :
    rules.numbered = true ∧ slot.taken < slot.calls.length := by
  have hlater : rules.numbered = true ∧ slot.calls.length ≠ request.number := by
    simpa [LatestSlot.overtaken] using hover
  have hle : request.number ≤ slot.calls.length := h.told.le_length
  have hnumber := h.taken
  exact ⟨hlater.1, by omega⟩

/-- The worker begins an attempt behind all that were made. -/
theorem Valid.check (h : Valid rules slot) : Valid rules (slot.step rules .check) := by
  rw [LatestSlot.step]
  split
  next request attempt hworker =>
    have hheld : slot.Held request (attempt - 1) := h.held _ _ (by rw [hworker]; rfl)
    have hwithin : 0 < attempt ∧ attempt ≤ rules.attempts := by
      have hwithin := h.within
      rwa [hworker] at hwithin
    have hnumber := hheld.taken
    split
    next hover =>
      exact h.lookAgain (.inr (.inr (hheld.overtaken hover)))
    next hover =>
      have hnow : rules.numbered = true → slot.calls.length = request.number := by
        simpa [overtaken] using hover
      exact
        { h with
          started := fun hnone => by simp at hnone
          asleep := fun hasleep => by simp at hasleep
          runs := by
            simp only [List.forall_mem_cons]
            exact ⟨⟨hheld.told, Nat.le_of_eq hnumber, hwithin⟩, h.runs⟩
          latest := fun hnumbered => by
            simp only [List.forall_mem_cons]
            exact ⟨hnow hnumbered, h.latest hnumbered⟩
          ordered := by
            refine List.pairwise_cons.mpr ⟨fun run hrun => ?_, h.ordered⟩
            rcases Nat.lt_or_eq_of_le (h.runs run hrun).2.1 with hlt | heq
            · exact .inl (by simp only; omega)
            · obtain ⟨hsame, hle⟩ := hheld.runs run hrun heq
              exact .inr ⟨hsame, by simp only; omega⟩
          prior := by
            simp only [List.forall_mem_cons]
            refine ⟨fun hlt => ?_, fun run hrun hlt => ?_⟩
            · obtain ⟨before, hbefore, hrequest, hmade⟩ := hheld.made (by omega)
              exact ⟨before, List.mem_cons_of_mem _ hbefore, hrequest, by omega⟩
            · obtain ⟨before, hbefore, hrest⟩ := h.prior run hrun hlt
              exact ⟨before, List.mem_cons_of_mem _ hbefore, hrest⟩
          ended := fun last hlast => by
            obtain ⟨⟨run, hrun, hrest⟩, hlatest, hfailed⟩ := h.ended last hlast
            refine ⟨⟨run, List.mem_cons_of_mem _ hrun, hrest⟩, ?_, hfailed⟩
            simp only [List.forall_mem_cons]
            refine ⟨fun hsame => ?_, hlatest⟩
            have hlt := hheld.ended last hlast
            rw [← hsame] at hlt
            omega
          held := fun other made hhand => by
            obtain ⟨rfl, rfl⟩ : request = other ∧ attempt = made := by simpa [inHand] using hhand
            exact
              { told := hheld.told
                taken := hnumber
                runs := by
                  simp only [List.forall_mem_cons]
                  refine ⟨fun _ => ⟨trivial, Nat.le_refl _⟩, fun run hrun hsame => ?_⟩
                  obtain ⟨hrequest, hle⟩ := hheld.runs run hrun hsame
                  exact ⟨hrequest, by omega⟩
                made := fun _ => ⟨_, List.mem_cons_self, rfl, rfl⟩
                ended := hheld.ended }
          within := hwithin
          kept := .inr (.inl ⟨(request, attempt), rfl⟩) }
  next => exact h

theorem Valid.cancel (h : Valid rules slot) : Valid rules (slot.step rules .cancel) := by
  rw [LatestSlot.step]
  split
  next request attempt hworker =>
    split
    next hover =>
      have hheld : slot.Held request attempt := h.held _ _ (by rw [hworker]; rfl)
      exact h.lookAgain (.inr (.inr (hheld.overtaken hover)))
    next => exact h
  next => exact h

/-- A request ends with its last attempt. -/
theorem Valid.finish (h : Valid rules slot) (success : Bool) :
    Valid rules (slot.step rules (.finish success)) := by
  rw [LatestSlot.step]
  split
  next request attempt hworker =>
    have hheld : slot.Held request attempt := h.held _ _ (by rw [hworker]; rfl)
    have hwithin : 0 < attempt ∧ attempt ≤ rules.attempts := by
      have hwithin := h.within
      rwa [hworker] at hwithin
    split
    next hlast =>
      have hends : success = true ∨ rules.attempts ≤ attempt := by simpa using hlast
      exact
        { h with
          started := fun hnone => by simp [LatestSlot.lookAgain] at hnone
          asleep := fun hasleep => by simp [LatestSlot.lookAgain] at hasleep
          ended := by
            simp only [List.forall_mem_cons]
            refine ⟨⟨hheld.made hwithin.1, fun run hrun hsame => ?_, fun hfailed => ?_⟩, h.ended⟩
            · refine (hheld.runs run hrun ?_).2
              rw [hsame]
              exact hheld.taken
            · rcases hends with hsuccess | hle
              · rw [hfailed] at hsuccess
                cases hsuccess
              · exact Nat.le_antisymm hwithin.2 hle
          endedOrder := by
            refine List.pairwise_cons.mpr ⟨fun last hlast => ?_, h.endedOrder⟩
            rw [hheld.taken]
            exact hheld.ended last hlast
          held := fun other made hhand => by simp [LatestSlot.lookAgain, inHand] at hhand
          within := trivial
          kept := .inr (.inr (.inl ⟨_, List.mem_cons_self, hheld.taken⟩)) }
    next hlast =>
      have hlt : attempt < rules.attempts := by
        simp at hlast
        exact hlast.2
      exact
        { h with
          started := fun hnone => by simp at hnone
          asleep := fun hasleep => by simp at hasleep
          held := fun other made hhand => by
            obtain ⟨rfl, rfl⟩ : request = other ∧ attempt = made := by simpa [inHand] using hhand
            exact { hheld with }
          within := ⟨hwithin.1, hlt⟩
          kept := .inr (.inl ⟨(request, attempt), rfl⟩) }
  next => exact h

theorem Valid.rested (h : Valid rules slot) : Valid rules (slot.step rules .rested) := by
  rw [LatestSlot.step]
  split
  next request attempt hworker =>
    have hheld : slot.Held request attempt := h.held _ _ (by rw [hworker]; rfl)
    split
    next hpending =>
      obtain ⟨later, hlater⟩ := Option.isSome_iff_exists.mp hpending
      exact h.lookAgain (.inr (.inl (h.waits later hlater).2.2))
    next hpending =>
      have hwithin : 0 < attempt ∧ attempt < rules.attempts := by
        have hwithin := h.within
        rwa [hworker] at hwithin
      exact
        { h with
          started := fun hnone => by simp at hnone
          asleep := fun hasleep => by simp at hasleep
          held := fun other made hhand => by
            obtain ⟨rfl, rfl⟩ : request = other ∧ attempt = made := by simpa [inHand] using hhand
            exact { hheld with }
          within := ⟨Nat.succ_pos _, hwithin.2⟩
          kept := .inr (.inl ⟨(request, attempt), rfl⟩) }
  next => exact h

theorem Valid.step (h : Valid rules slot) (input : LatestInput α) :
    Valid rules (slot.step rules input) := by
  cases input with
  | call value => exact h.call value
  | file => exact h.file
  | wake => exact h.wake
  | look => exact h.look
  | check => exact h.check
  | cancel => exact h.cancel
  | finish success => exact h.finish success
  | rested => exact h.rested

/-! ## The worker comes to rest -/

/-- How many turns the worker can take, from its place, until it looks into an empty slot. -/
def turnsLeft (rules : LatestRules) : Option (WorkerPlace α) → Nat
  | some .looking => 1
  | some (.checking _ attempt) => 3 * (rules.attempts - attempt) + 3
  | some (.running _ attempt) => 3 * (rules.attempts - attempt) + 2
  | some (.resting _ attempt) => 3 * (rules.attempts - attempt) + 1
  | _ => 0

/-- How many more a request that waits allows it. -/
def turnsWaiting (rules : LatestRules) : Option (LatestRequest α) → Nat
  | none => 0
  | some _ => 3 * rules.attempts

def rank (rules : LatestRules) (slot : LatestSlot α) : Nat :=
  turnsLeft rules slot.worker + turnsWaiting rules slot.pending

theorem Valid.rank_le (h : Valid rules slot) : slot.rank rules ≤ 6 * rules.attempts := by
  have hpos := rules.attempts_pos
  have hturns : turnsLeft rules slot.worker ≤ 3 * rules.attempts := by
    have hwithin := h.within
    rcases hworker : slot.worker with - | place
    · simp [turnsLeft]
    · rw [hworker] at hwithin
      cases place <;> simp only [turnsLeft, Within] at hwithin ⊢ <;> omega
  have hwaiting : turnsWaiting rules slot.pending ≤ 3 * rules.attempts := by
    cases slot.pending <;> simp [turnsWaiting]
  rw [rank]
  omega

/-- A request that is dropped or has ended leaves fewer turns. -/
theorem rank_lookAgain {place : WorkerPlace α} (hworker : slot.worker = some place)
    (hplace : 1 < turnsLeft rules (some place)) :
    slot.lookAgain.rank rules < slot.rank rules := by
  rw [rank, rank, hworker]
  simp only [LatestSlot.lookAgain]
  have hlooking : turnsLeft rules (some (WorkerPlace.looking : WorkerPlace α)) = 1 := rfl
  omega

/-- A turn of the worker that does something brings it closer to rest. -/
theorem Valid.rank_step (h : Valid rules slot) {input : LatestInput α}
    (hturn : input.ofWorker = true) (hdoes : slot.step rules input ≠ slot) :
    (slot.step rules input).rank rules < slot.rank rules := by
  have hpos := rules.attempts_pos
  revert hdoes
  cases input with
  | call | file | wake => cases hturn
  | look =>
      rw [LatestSlot.step]
      split
      next hworker hpending =>
        intro _
        simp only [rank, turnsLeft, turnsWaiting, hworker, hpending]
        omega
      next request hworker hpending =>
        intro _
        simp only [rank, turnsLeft, turnsWaiting, hworker, hpending]
        omega
      next => exact fun hdoes => absurd rfl hdoes
  | check =>
      rw [LatestSlot.step]
      split
      next request attempt hworker =>
        split
        next => exact fun _ => rank_lookAgain hworker (by simp [turnsLeft])
        next =>
          intro _
          simp only [rank, turnsLeft, hworker]
          omega
      next => exact fun hdoes => absurd rfl hdoes
  | cancel =>
      rw [LatestSlot.step]
      split
      next request attempt hworker =>
        split
        next => exact fun _ => rank_lookAgain hworker (by simp [turnsLeft])
        next => exact fun hdoes => absurd rfl hdoes
      next => exact fun hdoes => absurd rfl hdoes
  | finish success =>
      rw [LatestSlot.step]
      split
      next request attempt hworker =>
        split
        next => exact fun _ => rank_lookAgain hworker (by simp [turnsLeft])
        next =>
          intro _
          simp only [rank, turnsLeft, hworker]
          omega
      next => exact fun hdoes => absurd rfl hdoes
  | rested =>
      rw [LatestSlot.step]
      split
      next request attempt hworker =>
        have hwithin := h.within
        rw [hworker] at hwithin
        have hlt : attempt < rules.attempts := hwithin.2
        split
        next =>
          refine fun _ => rank_lookAgain hworker ?_
          simp only [turnsLeft]
          omega
        next =>
          intro _
          simp only [rank, turnsLeft, hworker]
          omega
      next => exact fun hdoes => absurd rfl hdoes

/-- A worker that was started can take a turn unless it sleeps. -/
theorem asleep_of_turns (rules : LatestRules) {place : WorkerPlace α}
    (hworker : slot.worker = some place)
    (hlook : slot.step rules .look = slot) (hcheck : slot.step rules .check = slot)
    (hfinish : ∀ request attempt, place = .running request attempt →
      ∃ success, slot.step rules (.finish success) = slot)
    (hrested : slot.step rules .rested = slot) : place = .asleep := by
  have hlook := congrArg LatestSlot.worker hlook
  have hcheck := congrArg LatestSlot.worker hcheck
  have hrested := congrArg LatestSlot.worker hrested
  cases place with
  | asleep => rfl
  | looking =>
      cases hpending : slot.pending <;> simp [LatestSlot.step, hworker, hpending] at hlook
  | checking request attempt =>
      simp only [LatestSlot.step, hworker] at hcheck
      split at hcheck <;> simp [LatestSlot.lookAgain] at hcheck
  | running request attempt =>
      obtain ⟨success, hfinish⟩ := hfinish request attempt rfl
      have hfinish := congrArg LatestSlot.worker hfinish
      simp only [LatestSlot.step, hworker] at hfinish
      split at hfinish <;> simp [LatestSlot.lookAgain] at hfinish
  | resting request attempt =>
      simp only [LatestSlot.step, hworker] at hrested
      split at hrested <;> simp [LatestSlot.lookAgain] at hrested

/-- When the worker sleeps, the request of the latest call has ended once the call has
returned. -/
theorem Valid.ended_latest (h : Valid rules slot) (hasleep : slot.worker = some .asleep)
    (hreturned : slot.underWay = false) {value : α} (hlatest : slot.calls.getLast? = some value) :
    ∃ last ∈ slot.ended, last.1 = ⟨slot.calls.length, value⟩ := by
  have hcalls : slot.calls ≠ [] := by
    rintro hnil
    simp [hnil] at hlatest
  have hpending := h.asleep hasleep
  have hfiled : slot.filed = slot.calls.length := by
    have hle := h.filed_le
    simp [underWay] at hreturned
    omega
  have htaken : slot.taken = slot.calls.length := (h.idle hpending).trans hfiled
  have hpos : 0 < slot.calls.length := List.length_pos_of_ne_nil hcalls
  rcases h.kept with hzero | ⟨held, hheld⟩ | ⟨last, hlast, hnumber⟩ | hlt | ⟨-, hlt⟩
  · omega
  · simp [hasleep, inHand] at hheld
  · refine ⟨last, hlast, ?_⟩
    obtain ⟨⟨run, hrun, hrequest, -⟩, -⟩ := h.ended last hlast
    have htold := (h.runs run hrun).1
    rw [hrequest] at htold
    have hvalue := htold.value
    rw [hnumber, htaken, ← List.getLast?_eq_getElem?, hlatest] at hvalue
    have hcall : last.1.number = slot.calls.length := hnumber.trans htaken
    cases hrequested : last.1 with
    | mk number other =>
        rw [hrequested] at hcall hvalue
        rw [← hcall, Option.some.inj hvalue]
  · omega
  · omega

end LatestSlot

end Library
end MicroEmu
