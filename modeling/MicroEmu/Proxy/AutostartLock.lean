import MicroEmu.Library.NameLock
import MicroEmu.Library.Runs
import Mathlib.Data.Nat.Basic

/-!
# The autostart lock of the proxies

A proxy that finds no daemon starts one, unless another proxy is doing so.  The proxies
agree on who does by a lock file that is created exclusively.  A lock file more than ten
seconds old counts as stale: whoever finds it removes it and tries again.  A guard that is
dropped removes the lock file by its path.

A proxy goes through `acquire_lock` one file operation at a time, and the operations of
the proxies interleave in any order.  Any of them may be killed between two operations.

The age is judged before the file is removed, so a proxy may remove a lock file that is not
the one it judged.  Where that never happens to a file whose creator still owns it, at most
one proxy has a guard, and every drop removes the proxy's own file.
-/

namespace MicroEmu
namespace Proxy

open Library (NameLock Along runFrom)

/-! ## The model -/

/-- Age in nanoseconds beyond which a lock file is stale, and from which a guard is no longer
young. -/
def staleAge : Nat := 10 * 1000000000

/-- A lock file: the number of its creation, its creator (`none` for a file that was there
before), and its modification time. -/
structure LockFile (κ : Type) where
  number : Nat
  creator : Option κ
  modified : Nat

/-- Where a proxy is in `acquire_lock`, or that it holds a `LockGuard`. -/
inductive Place where
  | idle
  /-- Its file is created, the process id is not written yet. -/
  | opened (file : Nat)
  /-- The first creation was refused; the age of the file comes next. -/
  | refused
  /-- It has judged the file stale and is about to remove it. -/
  | judged
  /-- It has removed the file and tries a second creation. -/
  | cleared
  | holding (file since : Nat)
  deriving DecidableEq, Repr

/-- The file a proxy has created and not given up. -/
def Place.file : Place → Option Nat
  | .opened file | .holding file _ => some file
  | _ => none

/-- The clock, what stands at the path of the lock, how many files were created, and where
each proxy is. -/
structure LockState (κ : Type) where
  now : Nat
  path : Option (LockFile κ)
  created : Nat
  place : κ → Place

/-- The atomic operations.  A flag says whether the operation fails for reasons of its
own. -/
inductive LockOp (κ : Type) where
  | tick (elapsed : Nat)
  | create (proxy : κ) (fails : Bool)
  | writeId (proxy : κ) (fails : Bool)
  | readAge (proxy : κ) (readable : Bool)
  | remove (proxy : κ) (fails : Bool)
  | drop (proxy : κ) (fails : Bool)
  | kill (proxy : κ)

variable {κ : Type} [DecidableEq κ]

namespace LockState

variable (state : LockState κ)

/-- A proxy moves on. -/
def moved (proxy : κ) (place : Place) : LockState κ :=
  { state with place := Function.update state.place proxy place }

/-- A proxy creates the file. -/
def creates (proxy : κ) : LockState κ :=
  { state with
    path := some ⟨state.created, some proxy, state.now⟩
    created := state.created + 1
    place := Function.update state.place proxy (.opened state.created) }

omit [DecidableEq κ] in
/-- `OpenOptions::create_new` is refused where a file stands. -/
def isRefused (fails : Bool) : Bool := fails || state.path.isSome

omit [DecidableEq κ] in
/-- The metadata of the path say that the file is stale. -/
def looksStale (readable : Bool) : Bool :=
  readable && state.path.any fun file => decide (staleAge < state.now - file.modified)

omit [DecidableEq κ] in
/-- The removal of whatever stands at the path. -/
def removed (fails : Bool) : LockState κ :=
  if fails then state else { state with path := none }

omit [DecidableEq κ] in
/-- Writing to a file touches it, if it still stands at the path. -/
def touched (number : Nat) (fails : Bool) : LockState κ :=
  { state with path := state.path.map fun file =>
      if file.number = number && !fails then { file with modified := state.now } else file }

/-- One operation; an operation that is not the proxy's next one does nothing. -/
def step : LockOp κ → LockState κ
  | .tick elapsed => { state with now := state.now + elapsed }
  | .create proxy fails =>
      match state.place proxy with
      | .idle =>
          if state.isRefused fails then state.moved proxy .refused else state.creates proxy
      | .cleared =>
          -- the second creation is the last try
          if state.isRefused fails then state.moved proxy .idle else state.creates proxy
      | _ => state
  | .writeId proxy fails =>
      match state.place proxy with
      -- the guard is returned whether or not the process id could be written
      | .opened file => (state.touched file fails).moved proxy (.holding file state.now)
      | _ => state
  | .readAge proxy readable =>
      match state.place proxy with
      | .refused => state.moved proxy (if state.looksStale readable then .judged else .idle)
      | _ => state
  | .remove proxy fails =>
      match state.place proxy with
      | .judged => (state.removed fails).moved proxy .cleared
      | _ => state
  | .drop proxy fails =>
      match state.place proxy with
      | .holding _ _ => (state.removed fails).moved proxy .idle
      | _ => state
  | .kill proxy => state.moved proxy .idle

/-! ## Properties -/

/-- A proxy holds a guard less than ten seconds old. -/
def HoldsYoung (proxy : κ) : Prop :=
  ∃ file since, state.place proxy = .holding file since ∧ state.now - since < staleAge

/-- At most one proxy holds a young guard. -/
def MutuallyExclusive : Prop :=
  ∀ proxy other, state.HoldsYoung proxy → state.HoldsYoung other → proxy = other

/-- The next operation is no drop that removes a file of another proxy. -/
def DropsOwn : LockOp κ → Prop
  | .drop proxy false => ∀ guard since file, state.place proxy = .holding guard since →
      state.path = some file → file.creator = some proxy
  | _ => True

/-- The next operation is no removal of a file whose creator still owns it. -/
def SparesOwned : LockOp κ → Prop
  | .remove proxy false => ∀ file, state.place proxy = .judged → state.path = some file →
      ∀ other, (state.place other).file ≠ some file.number
  | _ => True

/-- No proxy is in `acquire_lock`; there may be a lock file of an earlier run. -/
def IsStart : Prop := ∀ proxy, state.place proxy = .idle

/-- The lock as a name: what stands there is a file of a proxy. -/
def lock : NameLock κ (Nat × Option κ) where
  name := state.path.map fun file => (file.number, file.creator)
  owner proxy := (state.place proxy).file.map fun number => (number, some proxy)

end LockState

/-! ## One step -/

variable {state : LockState κ} {proxy : κ}

/-- What a proxy's move changes is what it owns. -/
theorem owner_moved (state : LockState κ) (proxy : κ) (place : Place) :
    (state.moved proxy place).lock.owner =
      Function.update state.lock.owner proxy
        (place.file.map fun number => (number, some proxy)) := by
  funext other
  by_cases hother : other = proxy
  · subst hother
    simp [LockState.lock, LockState.moved]
  · simp [LockState.lock, LockState.moved, Function.update_of_ne hother]

/-- A proxy that keeps its file leaves the lock as it is. -/
theorem lock_moved_of_file_eq {place : Place} (h : (state.place proxy).file = place.file) :
    (state.moved proxy place).lock = state.lock := by
  have howner : (state.moved proxy place).lock.owner = state.lock.owner := by
    rw [owner_moved, ← h]
    exact Function.update_eq_self ..
  exact congrArg (NameLock.mk state.lock.name) howner

/-- A proxy that ends up without a file gives up what it owned. -/
theorem lock_moved_of_file_eq_none (state : LockState κ) (proxy : κ) {place : Place}
    (h : place.file = none) :
    (state.moved proxy place).lock = state.lock.forget proxy := by
  have howner : (state.moved proxy place).lock.owner = (state.lock.forget proxy).owner := by
    rw [owner_moved, h]
    rfl
  exact congrArg (NameLock.mk state.lock.name) howner

/-- A creation acquires the name. -/
theorem lock_creates (state : LockState κ) (proxy : κ) :
    (state.creates proxy).lock = state.lock.acquire proxy (state.created, some proxy) :=
  congrArg (NameLock.mk _) (owner_moved state proxy (.opened state.created))

omit [DecidableEq κ] in
/-- Writing to a file leaves the name as it is. -/
theorem lock_touched (state : LockState κ) (number : Nat) (fails : Bool) :
    (state.touched number fails).lock = state.lock := by
  have hfile (file : LockFile κ) :
      (((if file.number = number && !fails then { file with modified := state.now }
        else file) : LockFile κ).number,
        ((if file.number = number && !fails then { file with modified := state.now }
        else file) : LockFile κ).creator) = (file.number, file.creator) := by
    split <;> rfl
  simp only [LockState.lock, LockState.touched, Option.map_map]
  exact congrArg (NameLock.mk · _) (congrArg (Option.map · state.path) (funext hfile))

omit [DecidableEq κ] in
/-- A creation that is not refused finds nothing at the path. -/
theorem lock_name_of_isRefused {fails : Bool} (h : state.isRefused fails = false) :
    state.lock.name = none := by
  simp only [LockState.isRefused, Bool.or_eq_false_iff, Option.isSome_eq_false_iff,
    Option.isNone_iff_eq_none] at h
  simp [LockState.lock, h.2]

omit [DecidableEq κ] in
/-- The file at the path with a proxy's token is the file that proxy owns. -/
theorem exists_file_of_owner {token : Nat × Option κ} (howner : state.lock.owner proxy = some token)
    (hname : state.lock.name = some token) :
    ∃ file, state.path = some file ∧ (state.place proxy).file = some file.number ∧
      file.creator = some proxy := by
  obtain ⟨number, hnumber, rfl⟩ := Option.map_eq_some_iff.mp howner
  obtain ⟨file, hpath, hfile⟩ := Option.map_eq_some_iff.mp hname
  obtain ⟨rfl, hcreator⟩ := Prod.mk.inj hfile
  exact ⟨file, hpath, hnumber, hcreator⟩

/-- An attempt to create the file keeps one owner. -/
theorem exclusive_attempt (h : state.lock.Exclusive) (fails : Bool) {place : Place}
    (hplace : (state.place proxy).file = place.file) :
    (if state.isRefused fails then state.moved proxy place
      else state.creates proxy).lock.Exclusive := by
  cases hrefused : state.isRefused fails with
  | true => rwa [if_pos rfl, lock_moved_of_file_eq hplace]
  | false =>
      rw [if_neg Bool.false_ne_true, lock_creates]
      exact h.acquire (lock_name_of_isRefused hrefused) proxy _

/-- Every operation that spares what is owned keeps one owner, whose file stands at the
path. -/
theorem exclusive_step {op : LockOp κ} (h : state.lock.Exclusive) (hop : state.SparesOwned op) :
    (state.step op).lock.Exclusive := by
  cases op with
  | tick elapsed => exact h
  | create proxy fails =>
      simp only [LockState.step]
      split
      next hplace => exact exclusive_attempt h fails (by rw [hplace]; rfl)
      next hplace => exact exclusive_attempt h fails (by rw [hplace]; rfl)
      next => exact h
  | writeId proxy fails =>
      simp only [LockState.step]
      split
      next file hplace =>
          have hfile : ((state.touched file fails).place proxy).file =
              (Place.holding file state.now).file := by
            rw [LockState.touched, hplace]
            rfl
          rwa [lock_moved_of_file_eq hfile, lock_touched]
      next => exact h
  | readAge proxy readable =>
      simp only [LockState.step]
      split
      next hplace =>
          rwa [lock_moved_of_file_eq]
          rw [hplace]
          split <;> rfl
      next => exact h
  | remove proxy fails =>
      simp only [LockState.step]
      split
      next hplace =>
          rw [lock_moved_of_file_eq_none _ _ rfl]
          refine NameLock.Exclusive.forget ?_ proxy
          cases fails with
          | true => exact h
          | false =>
              -- nobody owns what the takeover removes
              refine h.clear fun other token howner hname => ?_
              obtain ⟨file, hpath, hfile, -⟩ := exists_file_of_owner howner hname
              exact hop file hplace hpath other hfile
      next => exact h
  | drop proxy fails =>
      simp only [LockState.step]
      split
      next file since hplace =>
          rw [lock_moved_of_file_eq_none _ _ rfl]
          cases fails with
          | true => exact h.forget proxy
          | false =>
              have howner : state.lock.owner proxy = some (file, some proxy) := by
                simp [LockState.lock, hplace, Place.file]
              exact h.release howner
      next => exact h
  | kill proxy =>
      rw [LockState.step, lock_moved_of_file_eq_none _ _ rfl]
      exact h.forget proxy

omit [DecidableEq κ] in
/-- While the file that is owned stands at the path, a drop removes the proxy's own file. -/
theorem dropsOwn_of_exclusive (h : state.lock.Exclusive) (op : LockOp κ) : state.DropsOwn op := by
  cases op with
  | drop proxy fails =>
      cases fails with
      | true => trivial
      | false =>
          intro guard since file hplace hpath
          have howner : state.lock.owner proxy = some (guard, some proxy) := by
            simp [LockState.lock, hplace, Place.file]
          obtain ⟨found, hfound, -, hcreator⟩ := exists_file_of_owner howner (h.named howner)
          rwa [Option.some.inj (hpath.symm.trans hfound)]
  | tick => trivial
  | create => trivial
  | writeId => trivial
  | readAge => trivial
  | remove => trivial
  | kill => trivial

omit [DecidableEq κ] in
/-- With one owner of the name there is one guard. -/
theorem mutuallyExclusive_of_exclusive (h : state.lock.Exclusive) : state.MutuallyExclusive := by
  rintro proxy other ⟨mine, mineSince, hmine, -⟩ ⟨theirs, theirsSince, htheirs, -⟩
  have howner {someone : κ} {number since : Nat}
      (hplace : state.place someone = .holding number since) :
      state.lock.owner someone = some (number, some someone) := by
    simp [LockState.lock, hplace, Place.file]
  exact h.eq_of_owner (howner hmine) (howner htheirs)

omit [DecidableEq κ] in
/-- Before anybody is in `acquire_lock` nothing is owned. -/
theorem exclusive_of_isStart (h : state.IsStart) : state.lock.Exclusive := by
  have howner (proxy : κ) : state.lock.owner proxy = none := by
    simp [LockState.lock, h proxy, Place.file]
  constructor
  · intro party token hparty
    rw [howner] at hparty
    cases hparty
  · intro party other token hparty
    rw [howner] at hparty
    cases hparty

/-! ## Whole runs -/

/-- After the operations at most one proxy holds a young guard, and no drop among them has
removed a lock file of another proxy. -/
def ExclusiveAlong (ops : List (LockOp κ)) (state : LockState κ) : Prop :=
  (runFrom (·.step ·) ops state).MutuallyExclusive ∧
    Along (·.step ·) LockState.DropsOwn ops state

/-- No takeover of a stale lock file removes one that its creator still owns. -/
def SparesOwnedAlong (ops : List (LockOp κ)) (state : LockState κ) : Prop :=
  Along (·.step ·) LockState.SparesOwned ops state

/-- A proxy whose file was taken from the path removes, when it drops its guard, the file
that stands there now. -/
theorem not_dropsOwn_of_creator_ne {other : κ} {number : Nat} {file : LockFile κ}
    (hother : (state.place other).file = some number) (hpath : state.path = some file)
    (hcreator : file.creator ≠ some other) :
    ¬(state.step (.writeId other false)).DropsOwn (.drop other false) := by
  intro hdrop
  cases hplace : state.place other with
  | opened guard =>
      rw [LockState.step, hplace] at hdrop
      have htouched := hdrop guard state.now _ (Function.update_self ..)
        (congrArg (Option.map _) hpath)
      dsimp only at htouched
      split at htouched <;> exact hcreator htouched
  | holding guard since =>
      rw [LockState.step, hplace] at hdrop
      exact hcreator (hdrop guard since file hplace hpath)
  | _ => simp [hplace, Place.file] at hother

/-- After a takeover that removes an owned file, its taker can create the file anew, which the
former owner's drop then removes. -/
theorem exists_not_exclusiveAlong {op : LockOp κ} (hop : ¬state.SparesOwned op) :
    ∃ later, ¬ExclusiveAlong (op :: later) state := by
  cases op with
  | remove proxy fails =>
      cases fails with
      | true => exact absurd trivial hop
      | false =>
          simp only [LockState.SparesOwned, not_forall, not_not] at hop
          obtain ⟨file, hplace, hpath, other, hother⟩ := hop
          have hne : other ≠ proxy := by
            rintro rfl
            rw [hplace] at hother
            cases hother
          have htaken : (state.step (.remove proxy false)).step (.create proxy false) =
              ((state.removed false).moved proxy .cleared).creates proxy := by
            simp [LockState.step, hplace, LockState.moved, LockState.removed,
              LockState.isRefused]
          have hstays : ((((state.removed false).moved proxy .cleared).creates proxy).place
              other).file = some file.number := by
            simpa [LockState.creates, LockState.moved, LockState.removed,
              Function.update_of_ne hne] using hother
          refine ⟨[.create proxy false, .writeId other false, .drop other false], fun h => ?_⟩
          have hdrop : (((state.step (.remove proxy false)).step (.create proxy false)).step
              (.writeId other false)).DropsOwn (.drop other false) := h.2.2.2.2.1
          rw [htaken] at hdrop
          exact not_dropsOwn_of_creator_ne hstays rfl
            (fun hsame => hne (Option.some.inj hsame).symm) hdrop
  | tick => exact absurd trivial hop
  | create => exact absurd trivial hop
  | writeId => exact absurd trivial hop
  | readAge => exact absurd trivial hop
  | drop => exact absurd trivial hop
  | kill => exact absurd trivial hop

theorem ExclusiveAlong.rest {before later : List (LockOp κ)}
    (h : ExclusiveAlong (before ++ later) state) :
    ExclusiveAlong later (runFrom (·.step ·) before state) :=
  ⟨Library.runFrom_append before later state ▸ h.1, (Library.along_append.mp h.2).2⟩

/-- As long as no takeover of a stale lock file removes one that its creator still owns, at
most one proxy holds a young guard, and every drop removes the proxy's own file.  The condition
leaves out no run that is safe whatever follows: one that makes such a takeover can go on to
break the rule. -/
theorem exclusiveAlong_of_sparesOwned (hstart : state.IsStart) (ops : List (LockOp κ)) :
    (SparesOwnedAlong ops state → ExclusiveAlong ops state) ∧
      ∀ op, ¬(runFrom (·.step ·) ops state).SparesOwned op →
        ∃ later, ¬ExclusiveAlong (ops ++ op :: later) state := by
  constructor
  · intro hspares
    have hexclusive := exclusive_of_isStart hstart
    constructor
    · exact mutuallyExclusive_of_exclusive
        (hspares.invariant (fun state => state.lock.Exclusive) exclusive_step hexclusive)
    · exact hspares.of_invariant (fun state => state.lock.Exclusive) exclusive_step
        (fun op hexclusive => dropsOwn_of_exclusive hexclusive op) hexclusive
  · intro op hremoves
    obtain ⟨later, hlater⟩ := exists_not_exclusiveAlong hremoves
    exact ⟨later, fun h => hlater h.rest⟩

/-- A lock file of an earlier run, twenty seconds old. -/
def staleStart : LockState Nat :=
  ⟨20 * 1000000000, some ⟨0, none, 0⟩, 1, fun _ => .idle⟩

/-- One proxy takes over the stale file, and another one follows when it is done. -/
def orderlyTakeover : List (LockOp Nat) :=
  [.create 0 false, .readAge 0 true, .remove 0 false, .create 0 false, .writeId 0 false,
    .create 1 false, .readAge 1 true, .drop 0 false, .create 1 false, .writeId 1 false]

theorem exclusiveAlong_orderlyTakeover : ExclusiveAlong orderlyTakeover staleStart := by
  refine (exclusiveAlong_of_sparesOwned (fun _ => rfl) orderlyTakeover).1 ?_
  refine ⟨trivial, trivial, ?_, trivial, trivial, trivial, trivial, trivial, trivial, trivial,
    trivial⟩
  intro file _ _ other
  by_cases hother : other = 0
  · subst hother
    exact nofun
  · simp [staleStart, LockState.step, LockState.moved, Function.update_of_ne hother,
      LockState.isRefused, LockState.looksStale, Place.file, staleAge]

/-- Two proxies judge the stale file; the second one removes the file that the first has
created meanwhile. -/
def racedTakeover : List (LockOp Nat) :=
  [.create 0 false, .create 1 false, .readAge 0 true, .readAge 1 true,
    .remove 0 false, .create 0 false, .writeId 0 false,
    .remove 1 false, .create 1 false, .writeId 1 false]

theorem not_exclusiveAlong_racedTakeover : ¬∀ (ops : List (LockOp Nat)) (state : LockState Nat),
    state.IsStart → ExclusiveAlong ops state := by
  intro h
  have hboth := (h racedTakeover staleStart fun _ => rfl).1
  have hsame : (0 : Nat) = 1 :=
    hboth 0 1 ⟨1, 20 * 1000000000, rfl, by decide⟩ ⟨2, 20 * 1000000000, rfl, by decide⟩
  exact absurd hsame (by decide)

end Proxy
end MicroEmu
