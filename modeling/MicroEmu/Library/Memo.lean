import MicroEmu.Library.Positions
import MicroEmu.Library.Runs

/-!
# A memo that many callers share

A caller takes the time and looks into the memo under a lock.  Where nothing recent is kept, it
finds the value out with the lock released, and puts it in under the time it has taken.  Between
these turns other callers take theirs.  Still an answer is never older than the memo may keep
it, and as long as no two callers ask for the same at a time, what was found out is not found
out again before that time is over.
-/

namespace MicroEmu
namespace Library

universe u v

/-- A value, under the time that its caller had taken. -/
structure Memoed (κ : Type u) (ν : Type v) where
  key : κ
  takenAt : Nat
  value : ν

/-- Where a caller stands. -/
inductive MemoTurn (ν : Type v) where
  | looking
  | finding
  | found (value : ν)
  | done (value : ν)

structure MemoCaller (κ : Type u) (ν : Type v) where
  key : κ
  takenAt : Nat
  turn : MemoTurn ν

/-- A caller went to find a value out; the time that it had taken, and when that was. -/
structure Finding (κ : Type u) where
  key : κ
  takenAt : Nat
  foundAt : Nat

/-- The memo, the time and the callers; what was found out is kept to speak about. -/
structure MemoState (κ : Type u) (ν : Type v) where
  entries : List (Memoed κ ν)
  now : Nat
  callers : List (MemoCaller κ ν)
  findings : List (Finding κ)

inductive MemoInput (κ : Type u) where
  | pass (time : Nat)
  /-- A caller comes and takes the time. -/
  | enter (key : κ)
  /-- A caller takes its next turn. -/
  | advance (number : Nat)

def MemoTurn.isDone {ν : Type v} : MemoTurn ν → Bool
  | .done _ => true
  | _ => false

/-- The value is being found out, or is on its way into the memo. -/
def MemoTurn.isWorking {ν : Type v} : MemoTurn ν → Bool
  | .finding | .found _ => true
  | _ => false

namespace MemoState

variable {κ : Type u} {ν : Type v}

/-- Nothing is kept. -/
def empty : MemoState κ ν := ⟨[], 0, [], []⟩

/-- How long a value is kept, how many are before old ones are dropped, and what is found out
at which time. -/
structure Rules (κ : Type u) (ν : Type v) where
  span : Nat
  limit : Nat
  truth : κ → Nat → ν

variable (rules : Rules κ ν) (state : MemoState κ ν)

/-- A value is recent at a time. -/
def Rules.recent (now : Nat) (entry : Memoed κ ν) : Bool :=
  decide (now - entry.takenAt < rules.span)

/-- A full memo drops what is old. -/
def Rules.prune (now : Nat) (entries : List (Memoed κ ν)) : List (Memoed κ ν) :=
  if rules.limit < entries.length then entries.filter (rules.recent now) else entries

def withTurn (number : Nat) (turn : MemoTurn ν) : MemoState κ ν :=
  { state with callers := state.callers.modify number fun caller => { caller with turn := turn } }

/-- The look under the lock. -/
def look [DecidableEq κ] (number : Nat) (caller : MemoCaller κ ν) : MemoState κ ν :=
  match (state.entries.find? fun entry => entry.key = caller.key).filter
      (rules.recent caller.takenAt) with
  | some entry => state.withTurn number (.done entry.value)
  | none =>
      { state.withTurn number .finding with
        entries := rules.prune caller.takenAt state.entries
        findings := state.findings ++ [⟨caller.key, caller.takenAt, state.now⟩] }

/-- The value is put in, in the place of an older one. -/
def put [DecidableEq κ] (number : Nat) (caller : MemoCaller κ ν) (value : ν) : MemoState κ ν :=
  { state.withTurn number (.done value) with
    entries := ⟨caller.key, caller.takenAt, value⟩ ::
      state.entries.filter fun entry => entry.key ≠ caller.key }

/-- The next turn of a caller. -/
def advance [DecidableEq κ] (number : Nat) : MemoState κ ν :=
  match state.callers[number]? with
  | none => state
  | some caller =>
      match caller.turn with
      | .looking => state.look rules number caller
      | .finding => state.withTurn number (.found (rules.truth caller.key state.now))
      | .found value => state.put number caller value
      | .done _ => state

def step [DecidableEq κ] (state : MemoState κ ν) : MemoInput κ → MemoState κ ν
  | .pass time => { state with now := state.now + time }
  | .enter key => { state with callers := state.callers ++ [⟨key, state.now, .looking⟩] }
  | .advance number => state.advance rules number

/-! ## Answers -/

/-- The value was true at a time that is not too long ago. -/
def FoundSince (key : κ) (value : ν) (since now : Nat) : Prop :=
  ∃ time, since ≤ time ∧ time ≤ now ∧ rules.truth key time = value

/-- What a caller has found out, or been answered. -/
def TurnHolds (caller : MemoCaller κ ν) (now : Nat) : Prop :=
  match caller.turn with
  | .found value => FoundSince rules caller.key value caller.takenAt now
  | .done value => FoundSince rules caller.key value (caller.takenAt + 1 - rules.span) now
  | _ => True

structure Sound (state : MemoState κ ν) : Prop where
  entries : ∀ entry ∈ state.entries,
    FoundSince rules entry.key entry.value entry.takenAt state.now
  callers : ∀ caller ∈ state.callers, caller.takenAt ≤ state.now ∧
    TurnHolds rules caller state.now

variable {rules} {state}

theorem FoundSince.mono {key : κ} {value : ν} {since later now after : Nat}
    (h : FoundSince rules key value later now) (hsince : since ≤ later) (hnow : now ≤ after) :
    FoundSince rules key value since after := by
  obtain ⟨time, hafter, hbefore, htrue⟩ := h
  exact ⟨time, Nat.le_trans hsince hafter, Nat.le_trans hbefore hnow, htrue⟩

theorem TurnHolds.mono {caller : MemoCaller κ ν} {now after : Nat}
    (h : TurnHolds rules caller now) (hnow : now ≤ after) : TurnHolds rules caller after := by
  unfold TurnHolds at h ⊢
  split
  next hturn =>
    rw [hturn] at h
    exact h.mono (Nat.le_refl _) hnow
  next hturn =>
    rw [hturn] at h
    exact h.mono (Nat.le_refl _) hnow
  · trivial

theorem Sound.pass (h : Sound rules state) (time : Nat) :
    Sound rules { state with now := state.now + time } where
  entries entry hentry := (h.entries entry hentry).mono (Nat.le_refl _) (Nat.le_add_right _ _)
  callers caller hcaller :=
    ⟨Nat.le_add_right_of_le (h.callers caller hcaller).1,
      (h.callers caller hcaller).2.mono (Nat.le_add_right _ _)⟩

theorem Sound.enter (h : Sound rules state) (key : κ) :
    Sound rules { state with callers := state.callers ++ [⟨key, state.now, .looking⟩] } where
  entries := h.entries
  callers caller hcaller := by
    rcases List.mem_append.mp hcaller with hbefore | hlast
    · exact h.callers caller hbefore
    · rw [List.mem_singleton.mp hlast]
      exact ⟨Nat.le_refl _, trivial⟩

/-- A caller goes on with what it may hold. -/
theorem Sound.turned (h : Sound rules state) {number : Nat} {caller : MemoCaller κ ν}
    (hcaller : state.callers[number]? = some caller) {turn : MemoTurn ν}
    (hturn : TurnHolds rules { caller with turn := turn } state.now) :
    ∀ other ∈ (state.withTurn number turn).callers, other.takenAt ≤ state.now ∧
      TurnHolds rules other state.now := by
  intro other hother
  obtain ⟨position, hposition⟩ := List.mem_iff_getElem?.mp hother
  obtain ⟨before, hbefore, rfl⟩ := getElem?_modify_eq_some.mp hposition
  have hheld := h.callers before (List.mem_of_getElem? hbefore)
  split
  next hsame =>
    subst hsame
    obtain rfl : before = caller := Option.some.inj (hbefore.symm.trans hcaller)
    exact ⟨hheld.1, hturn⟩
  · exact hheld

theorem Sound.look [DecidableEq κ] (h : Sound rules state) {number : Nat} {caller : MemoCaller κ ν}
    (hcaller : state.callers[number]? = some caller) :
    Sound rules (state.look rules number caller) := by
  unfold MemoState.look
  split
  next entry hentry =>
    obtain ⟨hfound, hrecent⟩ := Option.filter_eq_some_iff.mp hentry
    have hkey : entry.key = caller.key := by simpa using List.find?_some hfound
    have hmem := List.mem_of_find?_eq_some hfound
    refine ⟨h.entries, h.turned hcaller ?_⟩
    have hage := of_decide_eq_true hrecent
    have hsince : caller.takenAt + 1 - rules.span ≤ entry.takenAt := by omega
    exact hkey ▸ (h.entries entry hmem).mono hsince (Nat.le_refl _)
  · refine ⟨fun entry hentry => h.entries entry ?_, h.turned hcaller trivial⟩
    change entry ∈ rules.prune caller.takenAt state.entries at hentry
    unfold Rules.prune at hentry
    split at hentry
    · exact List.mem_of_mem_filter hentry
    · exact hentry

theorem Sound.put [DecidableEq κ] (h : Sound rules state) (hspan : 0 < rules.span) {number : Nat}
    {caller : MemoCaller κ ν} (hcaller : state.callers[number]? = some caller) {value : ν}
    (hvalue : FoundSince rules caller.key value caller.takenAt state.now) :
    Sound rules (state.put number caller value) where
  entries entry hentry := by
    rcases List.mem_cons.mp hentry with rfl | hkept
    · exact hvalue
    · exact h.entries entry (List.mem_of_mem_filter hkept)
  callers := by
    have hsince : caller.takenAt + 1 - rules.span ≤ caller.takenAt := by omega
    exact h.turned hcaller (hvalue.mono hsince (Nat.le_refl _))

theorem Sound.advance [DecidableEq κ] (h : Sound rules state) (hspan : 0 < rules.span)
    (number : Nat) : Sound rules (state.advance rules number) := by
  unfold MemoState.advance
  split
  · exact h
  next caller hcaller =>
    have hheld := h.callers caller (List.mem_of_getElem? hcaller)
    split
    · exact h.look hcaller
    · exact ⟨h.entries, h.turned hcaller ⟨state.now, hheld.1, Nat.le_refl _, rfl⟩⟩
    next value hturn =>
      refine h.put hspan hcaller ?_
      have hfound := hheld.2
      unfold TurnHolds at hfound
      rwa [hturn] at hfound
    · exact h

/-- Every answer of every run was true less than a span before its caller took the time, or
later. -/
theorem sound_run [DecidableEq κ] (hspan : 0 < rules.span) (inputs : List (MemoInput κ)) :
    Sound rules (runFrom (step rules) inputs empty) := by
  refine runFrom_invariant (Sound rules) (fun input h => ?_)
    ⟨fun _ hentry => absurd hentry List.not_mem_nil, fun _ hcaller =>
      absurd hcaller List.not_mem_nil⟩
  cases input with
  | pass time => exact h.pass time
  | enter key => exact h.enter key
  | advance number => exact h.advance hspan number

/-! ## Findings -/

/-- Nobody asks for what another caller is still asking for. -/
def Alone (state : MemoState κ ν) : MemoInput κ → Prop
  | .enter key => ∀ caller ∈ state.callers, caller.key = key → caller.turn.isDone = true
  | _ => True

instance decidableAlone [DecidableEq κ] (state : MemoState κ ν) :
    (input : MemoInput κ) → Decidable (Alone state input)
  | .enter key =>
      inferInstanceAs (Decidable (∀ caller ∈ state.callers, caller.key = key → _))
  | .pass _ | .advance _ => .isTrue trivial

/-- A finding is over, or its value is in the memo, or on its way. -/
def Covered (rules : Rules κ ν) (state : MemoState κ ν) (finding : Finding κ) : Prop :=
  finding.takenAt + rules.span ≤ state.now ∨
    (∃ entry ∈ state.entries, entry.key = finding.key ∧ finding.takenAt ≤ entry.takenAt) ∨
      ∃ caller ∈ state.callers, caller.key = finding.key ∧ caller.turn.isWorking = true ∧
        finding.takenAt ≤ caller.takenAt

structure Spaced (rules : Rules κ ν) (state : MemoState κ ν) : Prop where
  /-- One caller for each key that is asked for. -/
  single : ∀ {first second : Nat} {caller other : MemoCaller κ ν},
    state.callers[first]? = some caller → state.callers[second]? = some other →
      caller.key = other.key → caller.turn.isDone = false → other.turn.isDone = false →
        first = second
  unique : (state.entries.map Memoed.key).Nodup
  taken : ∀ finding ∈ state.findings, finding.takenAt ≤ state.now
  behind : ∀ caller ∈ state.callers, caller.turn.isDone = false →
    caller.takenAt ≤ state.now ∧
      ∀ finding ∈ state.findings, finding.key = caller.key → finding.takenAt ≤ caller.takenAt
  covered : ∀ finding ∈ state.findings, Covered rules state finding
  apart : state.findings.Pairwise fun earlier later =>
    earlier.key = later.key → earlier.takenAt + rules.span ≤ later.foundAt

theorem MemoTurn.isDone_of_isWorking {turn : MemoTurn ν} (h : turn.isWorking = true) :
    turn.isDone = false := by
  cases turn with
  | finding => rfl
  | found value => rfl
  | looking => cases h
  | done value => cases h

/-- Where a caller that is not done takes another turn, the others are as before. -/
theorem mem_withTurn {number : Nat} {caller other : MemoCaller κ ν}
    (hcaller : state.callers[number]? = some caller) (turn : MemoTurn ν) {position : Nat}
    (hother : (state.withTurn number turn).callers[position]? = some other) :
    position = number ∧ other = { caller with turn := turn } ∨
      position ≠ number ∧ state.callers[position]? = some other := by
  obtain ⟨before, hbefore, rfl⟩ := getElem?_modify_eq_some.mp hother
  by_cases hsame : number = position
  · subst hsame
    obtain rfl : before = caller := Option.some.inj (hbefore.symm.trans hcaller)
    exact .inl ⟨rfl, if_pos rfl⟩
  · rw [if_neg hsame]
    exact .inr ⟨Ne.symm hsame, hbefore⟩

namespace Spaced

theorem pass (h : Spaced rules state) (time : Nat) :
    Spaced rules { state with now := state.now + time } where
  single := h.single
  unique := h.unique
  taken finding hfinding := Nat.le_add_right_of_le (h.taken finding hfinding)
  behind caller hcaller hbusy :=
    ⟨Nat.le_add_right_of_le (h.behind caller hcaller hbusy).1, (h.behind caller hcaller hbusy).2⟩
  covered finding hfinding :=
    (h.covered finding hfinding).imp_left Nat.le_add_right_of_le
  apart := h.apart

theorem enter (h : Spaced rules state) {key : κ}
    (halone : ∀ caller ∈ state.callers, caller.key = key → caller.turn.isDone = true) :
    Spaced rules { state with callers := state.callers ++ [⟨key, state.now, .looking⟩] } := by
  have hidle {position : Nat} {caller : MemoCaller κ ν}
      (hcaller : state.callers[position]? = some caller) (hkey : caller.key = key) :
      caller.turn.isDone ≠ false := by
    rw [halone caller (List.mem_of_getElem? hcaller) hkey]
    exact Bool.noConfusion
  refine ⟨fun hfirst hsecond hkey hbusy hother => ?_, h.unique, h.taken,
    fun caller hcaller hbusy => ?_, fun finding hfinding => ?_, h.apart⟩
  · rcases getElem?_concat_eq_some.mp hfirst with hcaller | ⟨rfl, rfl⟩
    · rcases getElem?_concat_eq_some.mp hsecond with hlater | ⟨-, rfl⟩
      · exact h.single hcaller hlater hkey hbusy hother
      · exact absurd hbusy (hidle hcaller hkey)
    · rcases getElem?_concat_eq_some.mp hsecond with hlater | ⟨rfl, -⟩
      · exact absurd hother (hidle hlater hkey.symm)
      · rfl
  · rcases List.mem_append.mp hcaller with hbefore | hlast
    · exact h.behind caller hbefore hbusy
    · rw [List.mem_singleton.mp hlast]
      exact ⟨Nat.le_refl _, fun finding hfinding _ => h.taken finding hfinding⟩
  · rcases h.covered finding hfinding with hover | hkept | ⟨caller, hcaller, hrest⟩
    · exact .inl hover
    · exact .inr (.inl hkept)
    · exact .inr (.inr ⟨caller, List.mem_append_left _ hcaller, hrest⟩)

variable {number : Nat} {caller : MemoCaller κ ν}

/-- What a caller that is not done may do without a look at the entries. -/
theorem single_withTurn (h : Spaced rules state)
    (hcaller : state.callers[number]? = some caller) (hbusy : caller.turn.isDone = false)
    {turn : MemoTurn ν} {first second : Nat} {one other : MemoCaller κ ν}
    (hfirst : (state.withTurn number turn).callers[first]? = some one)
    (hsecond : (state.withTurn number turn).callers[second]? = some other)
    (hkey : one.key = other.key) (hone : one.turn.isDone = false)
    (hother : other.turn.isDone = false) : first = second := by
  rcases mem_withTurn hcaller turn hfirst with ⟨rfl, rfl⟩ | ⟨-, hbefore⟩
  · rcases mem_withTurn hcaller turn hsecond with ⟨rfl, -⟩ | ⟨-, hlater⟩
    · rfl
    · exact h.single hcaller hlater hkey hbusy hother
  · rcases mem_withTurn hcaller turn hsecond with ⟨rfl, rfl⟩ | ⟨-, hlater⟩
    · exact h.single hbefore hcaller hkey hone hbusy
    · exact h.single hbefore hlater hkey hone hother

theorem behind_withTurn (h : Spaced rules state)
    (hcaller : state.callers[number]? = some caller) (hbusy : caller.turn.isDone = false)
    {turn : MemoTurn ν} {other : MemoCaller κ ν}
    (hother : other ∈ (state.withTurn number turn).callers) (hidle : other.turn.isDone = false) :
    other.takenAt ≤ state.now ∧
      ∀ finding ∈ state.findings, finding.key = other.key → finding.takenAt ≤ other.takenAt := by
  obtain ⟨position, hposition⟩ := List.mem_iff_getElem?.mp hother
  rcases mem_withTurn hcaller turn hposition with ⟨-, rfl⟩ | ⟨-, hbefore⟩
  · exact h.behind caller (List.mem_of_getElem? hcaller) hbusy
  · exact h.behind other (List.mem_of_getElem? hbefore) hidle

/-- A value on its way goes on, unless it is that of the caller. -/
theorem working_withTurn (hcaller : state.callers[number]? = some caller) (turn : MemoTurn ν)
    {worker : MemoCaller κ ν} (hworker : worker ∈ state.callers)
    (hturn : worker = caller → turn.isWorking = true) (hworking : worker.turn.isWorking = true) :
    ∃ other ∈ (state.withTurn number turn).callers, other.key = worker.key ∧
      other.turn.isWorking = true ∧ other.takenAt = worker.takenAt := by
  obtain ⟨position, hposition⟩ := List.mem_iff_getElem?.mp hworker
  refine ⟨_, List.mem_of_getElem? (getElem?_modify_eq_some.mpr ⟨worker, hposition, rfl⟩), ?_⟩
  split
  next hsame =>
    subst hsame
    obtain rfl : worker = caller := Option.some.inj (hposition.symm.trans hcaller)
    exact ⟨rfl, hturn rfl, rfl⟩
  · exact ⟨rfl, hworking, rfl⟩

/-- A value is on its way for a caller that is alone with its key. -/
theorem eq_of_working (h : Spaced rules state) (hcaller : state.callers[number]? = some caller)
    (hbusy : caller.turn.isDone = false) {worker : MemoCaller κ ν}
    (hworker : worker ∈ state.callers)
    (hkey : worker.key = caller.key) (hworking : worker.turn.isWorking = true) :
    worker = caller := by
  obtain ⟨position, hposition⟩ := List.mem_iff_getElem?.mp hworker
  obtain rfl := h.single hposition hcaller hkey (MemoTurn.isDone_of_isWorking hworking) hbusy
  exact Option.some.inj (hposition.symm.trans hcaller)

/-- The one value that is kept for a key. -/
theorem find_entry [DecidableEq κ] (h : Spaced rules state) {entry : Memoed κ ν}
    (hentry : entry ∈ state.entries) :
    state.entries.find? (fun other => other.key = entry.key) = some entry := by
  have hunique := h.unique
  generalize state.entries = entries at hentry hunique
  induction entries with
  | nil => cases hentry
  | cons first rest ih =>
      rw [List.map_cons, List.nodup_cons] at hunique
      by_cases hkey : first.key = entry.key
      · rw [List.find?_cons_of_pos (by simpa using hkey)]
        rcases List.mem_cons.mp hentry with rfl | hrest
        · rfl
        · exact absurd (List.mem_map.mpr ⟨entry, hrest, hkey.symm⟩) hunique.1
      · rw [List.find?_cons_of_neg (by simpa using hkey)]
        rcases List.mem_cons.mp hentry with rfl | hrest
        · exact absurd rfl hkey
        · exact ih hrest hunique.2

/-- A caller turns away: nothing that is on its way was its own. -/
theorem covered_withTurn (h : Spaced rules state)
    (hcaller : state.callers[number]? = some caller) {turn : MemoTurn ν}
    (hturn : caller.turn.isWorking = true → turn.isWorking = true) :
    ∀ finding ∈ state.findings, Covered rules (state.withTurn number turn) finding := by
  intro finding hfinding
  rcases h.covered finding hfinding with hover | hkept | ⟨worker, hworker, hkey, hworking, hafter⟩
  · exact .inl hover
  · exact .inr (.inl hkept)
  · obtain ⟨other, hother, hsame, hstill, htaken⟩ := working_withTurn hcaller turn hworker
      (fun heq => hturn (heq ▸ hworking)) hworking
    exact .inr (.inr ⟨other, hother, hsame.trans hkey, hstill, htaken ▸ hafter⟩)

theorem look [DecidableEq κ] (h : Spaced rules state) (hspan : 0 < rules.span)
    (hcaller : state.callers[number]? = some caller) (hlooking : caller.turn = .looking) :
    Spaced rules (state.look rules number caller) := by
  have hbusy : caller.turn.isDone = false := by rw [hlooking]; rfl
  have hnever : caller.turn.isWorking = true → False := by
    rw [hlooking]
    exact Bool.noConfusion
  obtain ⟨htaken, hbehind⟩ := h.behind caller (List.mem_of_getElem? hcaller) hbusy
  unfold MemoState.look
  split
  next entry _ =>
    exact ⟨h.single_withTurn hcaller hbusy, h.unique, h.taken,
      fun other => h.behind_withTurn hcaller hbusy,
      h.covered_withTurn hcaller fun hworking => (hnever hworking).elim, h.apart⟩
  next hmissed =>
    -- a finding whose value is not recent for the caller is over
    have hold {entry : Memoed κ ν} (hstale : rules.recent caller.takenAt entry = false) :
        entry.takenAt + rules.span ≤ state.now := by
      have hage := of_decide_eq_false hstale
      omega
    have hkept {entry : Memoed κ ν} (hentry : entry ∈ state.entries)
        (hrecent : rules.recent caller.takenAt entry = true) :
        entry ∈ rules.prune caller.takenAt state.entries := by
      unfold Rules.prune
      split
      · exact List.mem_filter.mpr ⟨hentry, hrecent⟩
      · exact hentry
    have hcovered : ∀ finding ∈ state.findings, Covered rules
        { state.withTurn number .finding with
          entries := rules.prune caller.takenAt state.entries
          findings := state.findings ++ [⟨caller.key, caller.takenAt, state.now⟩] } finding := by
      intro finding hfinding
      rcases h.covered_withTurn hcaller (fun hworking => (hnever hworking).elim) finding hfinding
        with hover | ⟨entry, hentry, hkey, hafter⟩ | hworking
      · exact .inl hover
      · cases hrecent : rules.recent caller.takenAt entry with
        | true => exact .inr (.inl ⟨entry, hkept hentry hrecent, hkey, hafter⟩)
        | false =>
            have hover := hold hrecent
            exact .inl (by simp only [withTurn]; omega)
      · exact .inr (.inr hworking)
    refine ⟨h.single_withTurn hcaller hbusy, ?_, fun finding hfinding => ?_,
      fun other hother hidle => ?_, fun finding hfinding => ?_, ?_⟩
    · change ((rules.prune caller.takenAt state.entries).map Memoed.key).Nodup
      unfold Rules.prune
      split
      · exact h.unique.sublist (List.filter_sublist.map _)
      · exact h.unique
    · rcases List.mem_append.mp hfinding with hbefore | hlast
      · exact h.taken finding hbefore
      · rw [List.mem_singleton.mp hlast]
        exact htaken
    · obtain ⟨hbefore, hfindings⟩ := h.behind_withTurn hcaller hbusy hother hidle
      refine ⟨hbefore, fun finding hfinding hkey => ?_⟩
      rcases List.mem_append.mp hfinding with hearlier | hlast
      · exact hfindings finding hearlier hkey
      · rw [List.mem_singleton.mp hlast] at hkey ⊢
        obtain ⟨position, hposition⟩ := List.mem_iff_getElem?.mp hother
        rcases mem_withTurn hcaller .finding hposition with ⟨-, rfl⟩ | ⟨hne, hold⟩
        · exact Nat.le_refl _
        · exact absurd (h.single hold hcaller hkey.symm hidle hbusy) hne
    · rcases List.mem_append.mp hfinding with hbefore | hlast
      · exact hcovered finding hbefore
      · rw [List.mem_singleton.mp hlast]
        exact .inr (.inr ⟨_, List.mem_of_getElem? (getElem?_modify_eq_some.mpr
          ⟨caller, hcaller, (if_pos rfl).symm⟩), rfl, rfl, Nat.le_refl _⟩)
    · refine List.pairwise_append.mpr ⟨h.apart, List.pairwise_singleton _ _,
        fun finding hfinding last hlast hkey => ?_⟩
      rw [List.mem_singleton.mp hlast] at hkey ⊢
      rcases h.covered finding hfinding with hover | ⟨entry, hentry, hentryKey, hafter⟩ |
        ⟨worker, hworker, hworkerKey, hworking, -⟩
      · exact hover
      · have hfound := h.find_entry hentry
        rw [hentryKey.trans hkey] at hfound
        rw [hfound, Option.filter_some] at hmissed
        have hstale : rules.recent caller.takenAt entry = false := by
          by_contra hrecent
          rw [if_pos (Bool.of_not_eq_false hrecent)] at hmissed
          cases hmissed
        have hover := hold hstale
        simp only
        omega
      · obtain rfl := h.eq_of_working hcaller hbusy hworker (hworkerKey.trans hkey) hworking
        exact (hnever hworking).elim

theorem put [DecidableEq κ] (h : Spaced rules state)
    (hcaller : state.callers[number]? = some caller) (hbusy : caller.turn.isDone = false)
    (value : ν) : Spaced rules (state.put number caller value) := by
  refine ⟨h.single_withTurn hcaller hbusy, ?_, h.taken,
    fun other => h.behind_withTurn hcaller hbusy, fun finding hfinding => ?_, h.apart⟩
  · change (List.map Memoed.key (_ :: _)).Nodup
    rw [List.map_cons, List.nodup_cons]
    refine ⟨fun hmem => ?_, h.unique.sublist (List.filter_sublist.map _)⟩
    obtain ⟨entry, hentry, hkey⟩ := List.mem_map.mp hmem
    exact of_decide_eq_true (List.mem_filter.mp hentry).2 hkey
  · by_cases hkey : finding.key = caller.key
    · exact .inr (.inl ⟨_, List.mem_cons_self, hkey.symm,
        (h.behind caller (List.mem_of_getElem? hcaller) hbusy).2 finding hfinding hkey⟩)
    · rcases h.covered finding hfinding with hover | ⟨entry, hentry, hentryKey, hafter⟩ |
        ⟨worker, hworker, hworkerKey, hworking, hafter⟩
      · exact .inl hover
      · refine .inr (.inl ⟨entry, List.mem_cons_of_mem _ (List.mem_filter.mpr ⟨hentry, ?_⟩),
          hentryKey, hafter⟩)
        exact decide_eq_true fun hsame => hkey (hentryKey.symm.trans hsame)
      · obtain ⟨other, hother, hsame, hstill, htaken⟩ := working_withTurn hcaller (.done value)
          hworker (fun heq => absurd (heq ▸ hworkerKey.symm) hkey) hworking
        exact .inr (.inr ⟨other, hother, hsame.trans hworkerKey, hstill, htaken ▸ hafter⟩)

theorem advance [DecidableEq κ] (h : Spaced rules state) (hspan : 0 < rules.span)
    (number : Nat) :
    Spaced rules (state.advance rules number) := by
  unfold MemoState.advance
  split
  · exact h
  next caller hcaller =>
    split
    next hlooking => exact h.look hspan hcaller hlooking
    next hfinding =>
      have hbusy : caller.turn.isDone = false := by rw [hfinding]; rfl
      exact ⟨h.single_withTurn hcaller hbusy, h.unique, h.taken,
        fun other => h.behind_withTurn hcaller hbusy, h.covered_withTurn hcaller fun _ => rfl,
        h.apart⟩
    next value hfound =>
      have hbusy : caller.turn.isDone = false := by rw [hfound]; rfl
      exact h.put hcaller hbusy value
    · exact h

end Spaced

/-- As long as nobody asks for what another caller is still asking for, what was found out for a
key is not found out again before the span of its caller's time is over. -/
theorem spaced_run [DecidableEq κ] (hspan : 0 < rules.span) {inputs : List (MemoInput κ)}
    (halone : Along (step rules) Alone inputs empty) :
    Spaced rules (runFrom (step rules) inputs empty) := by
  refine Along.invariant (Spaced rules) (fun {state input} h hinput => ?_) halone ?_
  · cases input with
    | pass time => exact h.pass time
    | enter key => exact h.enter hinput
    | advance number => exact h.advance hspan number
  · refine ⟨fun hfirst => ?_, List.nodup_nil, fun _ hmem => absurd hmem List.not_mem_nil,
      fun _ hmem => absurd hmem List.not_mem_nil, fun _ hmem => absurd hmem List.not_mem_nil,
      List.Pairwise.nil⟩
    cases hfirst

end MemoState
end Library
end MicroEmu
