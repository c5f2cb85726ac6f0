import MicroEmu.Controllers.StreamDeck
import MicroEmu.Library.Rows
import MicroEmu.Library.Runs

/-!
# Status keys are painted in turn

What a device wants to show is what is pending, or what its keys show.  An update changes
what is wanted as it says, and a flush never changes it: it paints a key that shows
something else, the next one around the circle.  So a key that keeps showing something
else is painted within eight flushes, and after eight flushes without an update the keys
show what all updates together say.
-/

namespace MicroEmu
namespace Controllers

open Json (Value)
open Library (Along ahead ahead_lt ahead_next_lt lastWrite lastWrite_append nextFrom
  nextFrom_eq_none_iff nextFrom_eq_some runFrom runFrom_append)

/-- A call to the driver, with what its flush meets outside. -/
inductive Call where
  | applyThreadStatus (parameters : Value) (attempt : Attempt)
  | flushKeyStatus (attempt : Attempt)

/-- What an update makes of what is wanted. -/
def wantedAfter (keys : KeyStates) : Call → KeyStates
  | .applyThreadStatus parameters _ => (parameters.asArray.getD []).foldl applyEntry keys
  | .flushKeyStatus _ => keys

namespace StreamDeckDevice

/-- What the status keys are to show. -/
def wanted (device : StreamDeckDevice) : KeyStates :=
  device.pendingKeyStatus.getD device.lastKeys

/-- The device as the flush of a call meets it, with what that meets outside. -/
def flushedBy (device : StreamDeckDevice) : Call → Option (StreamDeckDevice × Attempt)
  | .applyThreadStatus parameters attempt =>
      parameters.asArray.map fun entries => (device.withStatus entries, attempt)
  | .flushKeyStatus attempt => some (device, attempt)

variable (encodeImage : Fin statusSlots → KeyStatus → Except String (List UInt8))

/-- A call. -/
def call (device : StreamDeckDevice) : Call → Flushed
  | .applyThreadStatus parameters attempt =>
      device.applyThreadStatus encodeImage attempt parameters
  | .flushKeyStatus attempt => device.flushKeyStatus encodeImage attempt

/-- The device after a call. -/
def afterCall (device : StreamDeckDevice) (call : Call) : StreamDeckDevice :=
  (device.call encodeImage call).device

/-- A flush that is not held back and does not fail. -/
def effective (device : StreamDeckDevice) (call : Call) : Bool :=
  match device.flushedBy call with
  | none => false
  | some (met, attempt) =>
      !(met.pendingKeyStatus.isSome && decide (met.rateLimited attempt)) &&
        (met.flushKeyStatus encodeImage attempt).result.isOk

/-- The images that calls write, in order. -/
def writes : List Call → StreamDeckDevice → List (Nat × List UInt8)
  | [], _ => []
  | call :: calls, device =>
      (device.call encodeImage call).write.toList ++
        writes calls (device.afterCall encodeImage call)

/-- The number of effective flushes of calls. -/
def effectiveFlushes : List Call → StreamDeckDevice → Nat
  | [], _ => 0
  | call :: calls, device =>
      (if device.effective encodeImage call = true then 1 else 0) +
        effectiveFlushes calls (device.afterCall encodeImage call)

/-- When the call flushes, the key shows something else than is wanted. -/
def Differs (key : Fin statusSlots) (device : StreamDeckDevice) (call : Call) : Prop :=
  ∀ met attempt, device.flushedBy call = some (met, attempt) →
    met.lastKeys.get key ≠ met.wanted.get key

variable {encodeImage} {device : StreamDeckDevice} {attempt : Attempt}

/-! ## One flush -/

theorem get_set_self (keys : KeyStates) (key : Fin statusSlots) (status : KeyStatus) :
    (keys.set key status key.isLt).get key = status := Vector.getElem_set_self key.isLt

/-- A flush does nothing, or it drops what is pending since all keys show it, or it writes
the image of one key. -/
theorem flushKeyStatus_cases (encodeImage : Fin statusSlots → KeyStatus →
    Except String (List UInt8)) (device : StreamDeckDevice) (attempt : Attempt) :
    (∃ result, device.flushKeyStatus encodeImage attempt = ⟨result, none, device⟩ ∧
        (device.pendingKeyStatus = none ∨ device.rateLimited attempt ∨ result ≠ .ok ())) ∨
      (∃ pending, device.pendingKeyStatus = some pending ∧ device.lastKeys = pending ∧
        device.flushKeyStatus encodeImage attempt =
          ⟨.ok (), none, { device with pendingKeyStatus := none }⟩) ∨
      ∃ pending index image, device.pendingKeyStatus = some pending ∧
        nextFrom device.nextKeyWriteIndex
          (fun index => device.lastKeys.get index != pending.get index) = some index ∧
        encodeImage index (pending.get index) = .ok image ∧
        device.flushKeyStatus encodeImage attempt = ⟨.ok (), some (index.val, image),
          { device with
            lastKeys := device.lastKeys.set index (pending.get index) index.isLt
            lastKeyWriteAt := some attempt.writtenAt
            nextKeyWriteIndex := Fin.ofNat statusSlots (index + 1) }⟩ := by
  cases hpending : device.pendingKeyStatus with
  | none =>
      refine .inl ⟨.ok (), ?_, .inl rfl⟩
      simp only [flushKeyStatus, hpending]
  | some pending =>
      by_cases hlimited : device.rateLimited attempt
      · refine .inl ⟨.ok (), ?_, .inr (.inl hlimited)⟩
        simp only [flushKeyStatus, hpending, if_pos hlimited]
      · cases hnext : nextFrom device.nextKeyWriteIndex
            (fun index => device.lastKeys.get index != pending.get index) with
        | none =>
            refine .inr (.inl ⟨pending, rfl, ?_, ?_⟩)
            · ext index hindex
              have hsame : device.lastKeys.get ⟨index, hindex⟩ = pending.get ⟨index, hindex⟩ := by
                simpa using nextFrom_eq_none_iff.mp hnext ⟨index, hindex⟩
              exact hsame
            · simp only [flushKeyStatus, hpending, if_neg hlimited, hnext]
        | some index =>
            cases hencode : encodeImage index (pending.get index) with
            | error error =>
                refine .inl ⟨.error error, ?_, .inr (.inr (by simp))⟩
                simp only [flushKeyStatus, hpending, if_neg hlimited, hnext, hencode]
            | ok image =>
                cases hwritten : attempt.written with
                | error error =>
                    refine .inl ⟨.error error, ?_, .inr (.inr (by simp))⟩
                    simp only [flushKeyStatus, hpending, if_neg hlimited, hnext, hencode, hwritten]
                | ok written =>
                    refine .inr (.inr ⟨pending, index, image, rfl, hnext, hencode, ?_⟩)
                    simp only [flushKeyStatus, hpending, if_neg hlimited, hnext, hencode, hwritten]

theorem wanted_flushKeyStatus (encodeImage : Fin statusSlots → KeyStatus →
    Except String (List UInt8)) (device : StreamDeckDevice) (attempt : Attempt) :
    (device.flushKeyStatus encodeImage attempt).device.wanted = device.wanted := by
  rcases device.flushKeyStatus_cases encodeImage attempt with ⟨result, hflush, -⟩ |
    ⟨pending, hpending, hsame, hflush⟩ | ⟨pending, index, image, hpending, -, -, hflush⟩
  · rw [hflush]
  · rw [hflush, wanted, wanted, hpending, Option.getD_some]
    exact hsame
  · rw [hflush, wanted, wanted]
    simp only [hpending, Option.getD_some]

/-- A flush that does not fail and is not held back brings the next write nearer to a key
that is not painted as it should be. -/
theorem flushKeyStatus_key (attempt : Attempt) {key : Fin statusSlots}
    (hkey : device.lastKeys.get key ≠ device.wanted.get key) :
    (∃ image, (device.flushKeyStatus encodeImage attempt).write = some (key.val, image) ∧
        (device.flushKeyStatus encodeImage attempt).device.lastKeys.get key =
          device.wanted.get key) ∨
      ((device.flushKeyStatus encodeImage attempt).device.nextKeyWriteIndex =
          device.nextKeyWriteIndex ∧
        (device.pendingKeyStatus = none ∨ device.rateLimited attempt ∨
          (device.flushKeyStatus encodeImage attempt).result ≠ .ok ())) ∨
      ahead (device.flushKeyStatus encodeImage attempt).device.nextKeyWriteIndex key <
        ahead device.nextKeyWriteIndex key := by
  rcases device.flushKeyStatus_cases encodeImage attempt with ⟨result, hflush, hidle⟩ |
    ⟨pending, hpending, hsame, hflush⟩ | ⟨pending, index, image, hpending, hnext, -, hflush⟩
  · rw [hflush]
    exact .inr (.inl ⟨rfl, hidle⟩)
  · rw [wanted, hpending, Option.getD_some, hsame] at hkey
    exact absurd rfl hkey
  · have hwanted : device.wanted = pending := by rw [wanted, hpending, Option.getD_some]
    rw [hwanted] at hkey ⊢
    rw [hflush]
    by_cases hindex : key = index
    · subst hindex
      exact .inl ⟨image, rfl, get_set_self ..⟩
    · have hneed : (device.lastKeys.get key != pending.get key) = true := by simpa using hkey
      exact .inr (.inr (ahead_next_lt hindex ((nextFrom_eq_some hnext).2 key hneed)))

/-- A key that shows what is wanted goes on showing it. -/
theorem shows_flushKeyStatus {key : Fin statusSlots}
    (hkey : device.lastKeys.get key = device.wanted.get key) :
    (device.flushKeyStatus encodeImage attempt).device.lastKeys.get key =
      device.wanted.get key := by
  rcases device.flushKeyStatus_cases encodeImage attempt with ⟨result, hflush, -⟩ |
    ⟨pending, hpending, hsame, hflush⟩ | ⟨pending, index, image, hpending, -, -, hflush⟩
  · rw [hflush]
    exact hkey
  · rw [hflush]
    exact hkey
  · have hwanted : device.wanted = pending := by rw [wanted, hpending, Option.getD_some]
    rw [hwanted] at hkey ⊢
    rw [hflush]
    by_cases hindex : key = index
    · subst hindex
      exact get_set_self ..
    · have hval : index.val ≠ key.val := fun h => hindex (Fin.ext h.symm)
      exact (Vector.getElem_set_ne index.isLt key.isLt hval).trans hkey

/-! ## One call -/

/-- Every call that flushes is an update of what is pending and a flush. -/
theorem call_eq (encodeImage : Fin statusSlots → KeyStatus → Except String (List UInt8))
    (device : StreamDeckDevice) (call : Call) :
    (∃ met attempt, device.flushedBy call = some (met, attempt) ∧
        device.call encodeImage call = met.flushKeyStatus encodeImage attempt ∧
        met.lastKeys = device.lastKeys ∧ met.nextKeyWriteIndex = device.nextKeyWriteIndex ∧
        met.wanted = wantedAfter device.wanted call) ∨
      (device.flushedBy call = none ∧ (device.call encodeImage call).write = none ∧
        device.afterCall encodeImage call = device ∧
        wantedAfter device.wanted call = device.wanted) := by
  cases call with
  | flushKeyStatus attempt => exact .inl ⟨device, attempt, rfl, rfl, rfl, rfl, rfl⟩
  | applyThreadStatus parameters attempt =>
      cases hentries : parameters.asArray with
      | none =>
          have hcall : device.call encodeImage (.applyThreadStatus parameters attempt) =
              ⟨.error "v.oai.thstatus parameters must be an array", none, device⟩ := by
            simp only [call, applyThreadStatus, hentries]
          refine .inr ⟨by simp only [flushedBy, hentries, Option.map_none], by rw [hcall], ?_, ?_⟩
          · rw [afterCall, hcall]
          · simp only [wantedAfter, hentries, Option.getD_none, List.foldl_nil]
      | some entries =>
          refine .inl ⟨device.withStatus entries, attempt,
            by simp only [flushedBy, hentries, Option.map_some], ?_, rfl, rfl, ?_⟩
          · simp only [call, applyThreadStatus, hentries]
          · simp only [wantedAfter, hentries, Option.getD_some]
            rfl

theorem wanted_afterCall (device : StreamDeckDevice) (call : Call) :
    (device.afterCall encodeImage call).wanted = wantedAfter device.wanted call := by
  rcases device.call_eq encodeImage call with ⟨met, attempt, -, hcall, -, -, hwanted⟩ |
    ⟨-, -, hafter, hwanted⟩
  · rw [afterCall, hcall, wanted_flushKeyStatus, hwanted]
  · rw [hafter, hwanted]

/-- A key that differs is held back only by a flush that has no effect. -/
theorem effective_eq_false {met : StreamDeckDevice} {key : Fin statusSlots} {call : Call}
    (hmet : device.flushedBy call = some (met, attempt))
    (hkey : met.lastKeys.get key ≠ met.wanted.get key)
    (hidle : met.pendingKeyStatus = none ∨ met.rateLimited attempt ∨
      (met.flushKeyStatus encodeImage attempt).result ≠ .ok ()) :
    device.effective encodeImage call = false := by
  have hpending : met.pendingKeyStatus ≠ none := by
    intro hnone
    refine hkey ?_
    rw [wanted, hnone, Option.getD_none]
  simp only [effective, hmet]
  rcases hidle with hnone | hlimited | herror
  · exact absurd hnone hpending
  · simp [hlimited, Option.isSome_iff_ne_none.mpr hpending]
  · cases hresult : (met.flushKeyStatus encodeImage attempt).result with
    | error error => simp [Except.isOk, Except.toBool]
    | ok written => exact absurd hresult herror

/-- The step lemma: a key that differs is painted as it should be, or an effective flush
brings the next write nearer to it. -/
theorem ahead_afterCall {key : Fin statusSlots} {call : Call} (hkey : device.Differs key call) :
    (∃ image, (device.call encodeImage call).write = some (key.val, image) ∧
        (device.afterCall encodeImage call).lastKeys.get key =
          (wantedAfter device.wanted call).get key) ∨
      (if device.effective encodeImage call = true then 1 else 0) +
          ahead (device.afterCall encodeImage call).nextKeyWriteIndex key ≤
        ahead device.nextKeyWriteIndex key := by
  rcases device.call_eq encodeImage call with ⟨met, attempt, hmet, hcall, -, hnext, hwanted⟩ |
    ⟨hmet, -, hafter, -⟩
  · rw [afterCall, hcall, ← hnext, ← hwanted]
    have hdiffers := hkey met attempt hmet
    rcases flushKeyStatus_key attempt hdiffers with hpainted | ⟨hsame, hidle⟩ | hnearer
    · exact .inl hpainted
    · rw [effective_eq_false hmet hdiffers hidle, hsame]
      exact .inr (Nat.le_of_eq (Nat.zero_add _))
    · refine .inr ?_
      split <;> omega
  · have hineffective : device.effective encodeImage call = false := by
      simp only [effective, hmet]
    rw [hineffective, hafter]
    exact .inr (Nat.le_of_eq (Nat.zero_add _))

/-! ## Runs -/

theorem mem_writes_cons {call : Call} {calls : List Call} {write : Nat × List UInt8} :
    write ∈ writes encodeImage (call :: calls) device ↔
      (device.call encodeImage call).write = some write ∨
        write ∈ writes encodeImage calls (device.afterCall encodeImage call) := by
  rw [writes, List.mem_append, Option.mem_toList]

/-- The run lemma: a key that differs is painted, or each effective flush brings the next
write nearer to it. -/
theorem ahead_run {key : Fin statusSlots} {calls : List Call}
    (hkey : Along (afterCall encodeImage) (Differs key) calls device) :
    (∃ image, (key.val, image) ∈ writes encodeImage calls device) ∨
      effectiveFlushes encodeImage calls device +
          ahead (runFrom (afterCall encodeImage) calls device).nextKeyWriteIndex key ≤
        ahead device.nextKeyWriteIndex key := by
  induction calls generalizing device with
  | nil => exact .inr (Nat.le_of_eq (Nat.zero_add _))
  | cons call calls ih =>
      rcases ahead_afterCall hkey.1 with ⟨image, hwrite, -⟩ | hnearer
      · exact .inl ⟨image, mem_writes_cons.mpr (.inl hwrite)⟩
      · rcases ih hkey.2 with ⟨image, hwrite⟩ | hrest
        · exact .inl ⟨image, mem_writes_cons.mpr (.inr hwrite)⟩
        · refine .inr ?_
          show (_ + effectiveFlushes encodeImage calls (device.afterCall encodeImage call)) +
            ahead (runFrom (afterCall encodeImage) calls
              (device.afterCall encodeImage call)).nextKeyWriteIndex key ≤ _
          omega

/-- A key that shows what is wanted shows it after more flushes. -/
theorem shows_run {key : Fin statusSlots} (hkey : device.lastKeys.get key = device.wanted.get key)
    (attempts : List Attempt) :
    (runFrom (afterCall encodeImage) (attempts.map .flushKeyStatus) device).lastKeys.get key =
      device.wanted.get key := by
  induction attempts generalizing device with
  | nil => exact hkey
  | cons attempt attempts ih =>
      have hwanted : (device.afterCall encodeImage (.flushKeyStatus attempt)).wanted =
          device.wanted := wanted_afterCall device (.flushKeyStatus attempt)
      have hafter : (device.afterCall encodeImage (.flushKeyStatus attempt)).lastKeys.get key =
          device.wanted.get key := shows_flushKeyStatus hkey
      rw [← hwanted] at hafter ⊢
      exact ih hafter

variable (encodeImage device) in
/-- Without an update, a key comes to show what is wanted, or each effective flush brings
the next write nearer to it. -/
theorem shows_or_ahead_run (key : Fin statusSlots) (attempts : List Attempt) :
    (runFrom (afterCall encodeImage) (attempts.map .flushKeyStatus) device).lastKeys.get key =
        device.wanted.get key ∨
      effectiveFlushes encodeImage (attempts.map .flushKeyStatus) device +
          ahead (runFrom (afterCall encodeImage) (attempts.map .flushKeyStatus)
            device).nextKeyWriteIndex key ≤
        ahead device.nextKeyWriteIndex key := by
  induction attempts generalizing device with
  | nil => exact .inr (Nat.le_of_eq (Nat.zero_add _))
  | cons attempt attempts ih =>
      by_cases hkey : device.lastKeys.get key = device.wanted.get key
      · exact .inl (shows_run hkey (attempt :: attempts))
      · have hwanted : (device.afterCall encodeImage (.flushKeyStatus attempt)).wanted =
            device.wanted := wanted_afterCall device (.flushKeyStatus attempt)
        have hdiffers : device.Differs key (.flushKeyStatus attempt) := by
          intro met attempt hmet
          obtain rfl := (Prod.mk.inj (Option.some.inj hmet)).1
          exact hkey
        rw [List.map_cons, ← hwanted]
        rcases ahead_afterCall hdiffers with ⟨image, -, hshows⟩ | hnearer
        · rw [← wanted_afterCall] at hshows
          exact .inl (shows_run hshows attempts)
        · refine (ih (device.afterCall encodeImage (.flushKeyStatus attempt))).imp id
            fun hrest => ?_
          show (_ + effectiveFlushes encodeImage (attempts.map .flushKeyStatus)
              (device.afterCall encodeImage (.flushKeyStatus attempt))) +
            ahead (runFrom (afterCall encodeImage) (attempts.map .flushKeyStatus)
              (device.afterCall encodeImage (.flushKeyStatus attempt))).nextKeyWriteIndex key ≤ _
          omega

/-- Eight effective flushes without an update paint every key as it should be. -/
theorem lastKeys_run {attempts : List Attempt} (h : statusSlots ≤
    effectiveFlushes encodeImage (attempts.map .flushKeyStatus) device) :
    (runFrom (afterCall encodeImage) (attempts.map .flushKeyStatus) device).lastKeys =
      device.wanted := by
  ext index hindex
  rcases shows_or_ahead_run encodeImage device ⟨index, hindex⟩ attempts with hshows | hahead
  · exact hshows
  · have hlt := ahead_lt device.nextKeyWriteIndex ⟨index, hindex⟩
    omega

theorem wanted_run (calls : List Call) :
    (runFrom (afterCall encodeImage) calls device).wanted =
      calls.foldl wantedAfter device.wanted := by
  induction calls generalizing device with
  | nil => rfl
  | cons call calls ih =>
      rw [List.foldl_cons, ← wanted_afterCall]
      exact ih

/-! ## Images -/

variable (encodeImage)

/-- The last image of every key is that of its state; a key without one is blank. -/
def Painted (images : List (Nat × List UInt8)) (keys : KeyStates) : Prop :=
  ∀ key : Fin statusSlots, (lastWrite images key.val).elim (keys.get key = .blank)
    fun image => encodeImage key (keys.get key) = .ok image

variable {encodeImage}

theorem painted_afterCall {images : List (Nat × List UInt8)} (call : Call)
    (h : Painted encodeImage images device.lastKeys) :
    Painted encodeImage (images ++ (device.call encodeImage call).write.toList)
      (device.afterCall encodeImage call).lastKeys := by
  rcases device.call_eq encodeImage call with ⟨met, attempt, -, hcall, hlast, -, -⟩ |
    ⟨-, hwrite, hafter, -⟩
  · rw [afterCall, hcall]
    rw [← hlast] at h
    rcases met.flushKeyStatus_cases encodeImage attempt with ⟨result, hflush, -⟩ |
      ⟨pending, -, -, hflush⟩ | ⟨pending, index, image, -, -, hencode, hflush⟩
    · rw [hflush, Option.toList_none, List.append_nil]
      exact h
    · rw [hflush, Option.toList_none, List.append_nil]
      exact h
    · rw [hflush, Option.toList_some]
      intro key
      rw [lastWrite_append]
      by_cases hindex : key = index
      · subst hindex
        rw [if_pos rfl, get_set_self]
        exact hencode
      · have hval : index.val ≠ key.val := fun heq => hindex (Fin.ext heq.symm)
        have hothers : (met.lastKeys.set index (pending.get index) index.isLt).get key =
            met.lastKeys.get key :=
          Vector.getElem_set_ne index.isLt key.isLt hval
        rw [if_neg hval, hothers]
        exact h key
  · rw [hwrite, hafter, Option.toList_none, List.append_nil]
    exact h

theorem painted_run {images : List (Nat × List UInt8)} (calls : List Call)
    (h : Painted encodeImage images device.lastKeys) :
    Painted encodeImage (images ++ writes encodeImage calls device)
      (runFrom (afterCall encodeImage) calls device).lastKeys := by
  induction calls generalizing device images with
  | nil => rwa [writes, List.append_nil]
  | cons call calls ih =>
      rw [writes, ← List.append_assoc]
      exact ih (painted_afterCall call h)

theorem painted_new (encodeImage : Fin statusSlots → KeyStatus → Except String (List UInt8))
    (profile : Profile) : Painted encodeImage [] (new profile).lastKeys := fun key =>
  Vector.getElem_replicate key.isLt

/-- From any run of a device, eight effective flushes without an update leave every key
with the image of what all updates say; and over any calls with eight effective flushes, a
key that shows something else all the time is painted. -/
theorem keyStatus_converges_and_is_fair
    (encodeImage : Fin statusSlots → KeyStatus → Except String (List UInt8)) (profile : Profile)
    (calls : List Call) :
    (∀ attempts : List Attempt,
      statusSlots ≤ effectiveFlushes encodeImage (attempts.map .flushKeyStatus)
        (runFrom (afterCall encodeImage) calls (new profile)) →
      (runFrom (afterCall encodeImage) (calls ++ attempts.map .flushKeyStatus)
          (new profile)).lastKeys =
        calls.foldl wantedAfter (Vector.replicate statusSlots .blank) ∧
      Painted encodeImage (writes encodeImage (calls ++ attempts.map .flushKeyStatus) (new profile))
        (calls.foldl wantedAfter (Vector.replicate statusSlots .blank))) ∧
    ∀ (later : List Call) (key : Fin statusSlots),
      Along (afterCall encodeImage) (Differs key) later
        (runFrom (afterCall encodeImage) calls (new profile)) →
      statusSlots ≤ effectiveFlushes encodeImage later
        (runFrom (afterCall encodeImage) calls (new profile)) →
      ∃ image, (key.val, image) ∈ writes encodeImage later
        (runFrom (afterCall encodeImage) calls (new profile)) := by
  constructor
  · intro attempts hflushes
    have hlast := lastKeys_run hflushes
    rw [← runFrom_append, wanted_run] at hlast
    have hpainted := painted_run (calls ++ attempts.map .flushKeyStatus)
      (painted_new encodeImage profile)
    rw [hlast] at hpainted
    exact ⟨hlast, hpainted⟩
  · intro later key hdiffers hflushes
    refine (ahead_run hdiffers).resolve_right fun hahead => ?_
    have hlt := ahead_lt
      (runFrom (afterCall encodeImage) calls (new profile)).nextKeyWriteIndex key
    omega

end StreamDeckDevice

end Controllers
end MicroEmu
