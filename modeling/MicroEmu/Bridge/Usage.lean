import MicroEmu.Bridge.Runtime
import MicroEmu.Library.Runs

/-!
# Fetching the usage figures

Each fetch runs in a thread of its own and answers over a channel of its own; the loop of the
daemon looks into the channels and stores what has come.  A fetch is only started while none of
its agent is running and the last figures of the agent are old.
-/

namespace MicroEmu
namespace Bridge

open Codex (UsageAgent)
open Json (Value F64 toF64 f64Round)

/-! ## What the services answer -/

/-- `remaining_from_used`. -/
def remainingFromUsed (usedPercent : F64) : Nat :=
  min (f64Round (toF64 (100 - usedPercent))).toNat 100

/-- `epoch_ms_to_secs`. -/
def epochMsToSecs (value : Nat) : Nat := if value > 1000000000000 then value / 1000 else value

/-- A window of `wham/usage`. -/
structure UsageWindow where
  seconds : Nat
  remaining : Nat
  resetAt : Option Nat

/-- The end of a window, `now` in seconds. -/
def windowResetAt (now : Nat) (window : Value) : Option Nat :=
  ((window.get? "reset_at").bind Value.asU64).or
    (((window.get? "reset_after_seconds").bind Value.asU64).map fun after =>
      min (now + after) (2 ^ 64 - 1))

/-- One turn of the loop in `parse_codex_usage` up to its last test. -/
def readWindow (now : Nat) (window : Value) : Option UsageWindow :=
  match (window.get? "limit_window_seconds").bind Value.asU64 with
  | none => none
  | some seconds =>
      if seconds = 0 then none
      else
        ((window.get? "used_percent").bind Value.asF64).map fun usedPercent =>
          ⟨seconds, remainingFromUsed usedPercent, windowResetAt now window⟩

namespace UsageSnapshot

/-- The last test: a short window, or a long one. -/
def withWindow (usage : UsageSnapshot) (window : UsageWindow) : UsageSnapshot :=
  if window.seconds ≤ 24 * 60 * 60 ∧ usage.fiveHourRemaining = none then
    { usage with
      fiveHourRemaining := some window.remaining
      fiveHourResetAt := window.resetAt }
  else if 3 * 24 * 60 * 60 ≤ window.seconds ∧ usage.weeklyRemaining = none then
    { usage with weeklyRemaining := some window.remaining, weeklyResetAt := window.resetAt }
  else usage

/-- One turn of the loop in `parse_zcode_quota`. -/
def withLimit (usage : UsageSnapshot) (limit : Value) : UsageSnapshot :=
  let used := (limit.get? "percentage").bind Value.asF64
  let remaining := (((limit.get? "remaining").bind Value.asF64).map fun remaining =>
    ⌊max 0 (min remaining 100)⌋.toNat).or (used.map remainingFromUsed)
  let resetAt := ((limit.get? "nextResetTime").bind Value.asU64).map epochMsToSecs
  match (limit.get? "type").bind Value.asStr with
  | some "TOKENS_LIMIT" =>
      if usage.fiveHourRemaining = none then
        { usage with fiveHourRemaining := remaining, fiveHourResetAt := resetAt }
      else usage
  | some "TIME_LIMIT" =>
      if usage.weeklyRemaining = none then
        { usage with weeklyRemaining := remaining, weeklyResetAt := resetAt }
      else usage
  | _ => usage

end UsageSnapshot

/-- The windows of a rate limit that can be read, in the order of the loop. -/
def readWindows (now : Nat) (rateLimit : Value) : List UsageWindow :=
  ["primary_window", "secondary_window"].filterMap fun key =>
    (rateLimit.get? key).bind (readWindow now)

/-- `parse_codex_usage`, `now` in seconds. -/
def parseCodexUsage (now : Nat) (body : Value) : UsageSnapshot :=
  match body.get? "rate_limit" with
  | none => {}
  | some rateLimit => (readWindows now rateLimit).foldl UsageSnapshot.withWindow {}

/-- `parse_zcode_quota`. -/
def parseZcodeQuota (body : Value) : UsageSnapshot :=
  match ((body.get? "data").bind (·.get? "limits")).bind Value.asArray with
  | none => {}
  | some limits => limits.foldl UsageSnapshot.withLimit {}

/-- `fetch_usage`, with the body of the answer, if there was one. -/
def fetchUsage (now : Nat) (body : Option Value) : UsageAgent → UsageSnapshot
  | .codex => (body.map (parseCodexUsage now)).getD {}
  | .zCode => (body.map parseZcodeQuota).getD {}

/-- Both figures are percentages. -/
structure UsageSnapshot.Percent (usage : UsageSnapshot) : Prop where
  fiveHour : ∀ value, usage.fiveHourRemaining = some value → value ≤ 100
  weekly : ∀ value, usage.weeklyRemaining = some value → value ≤ 100

theorem remainingFromUsed_le (usedPercent : F64) : remainingFromUsed usedPercent ≤ 100 :=
  Nat.min_le_right _ _

theorem readWindow_remaining {now : Nat} {value : Value} {window : UsageWindow}
    (h : readWindow now value = some window) : window.remaining ≤ 100 := by
  unfold readWindow at h
  split at h
  · cases h
  · split at h
    · cases h
    · obtain ⟨usedPercent, -, rfl⟩ := Option.map_eq_some_iff.mp h
      exact remainingFromUsed_le usedPercent

theorem UsageSnapshot.Percent.withWindow {usage : UsageSnapshot} (h : usage.Percent)
    {window : UsageWindow} (hwindow : window.remaining ≤ 100) :
    (usage.withWindow window).Percent := by
  unfold UsageSnapshot.withWindow
  split
  · exact ⟨fun value hvalue => Option.some.inj hvalue ▸ hwindow, h.weekly⟩
  · split
    · exact ⟨h.fiveHour, fun value hvalue => Option.some.inj hvalue ▸ hwindow⟩
    · exact h

theorem UsageSnapshot.Percent.withLimit {usage : UsageSnapshot} (h : usage.Percent)
    (limit : Value) : (usage.withLimit limit).Percent := by
  have hremaining (remaining used : Option F64) : ∀ value,
      ((remaining.map fun remaining => ⌊max 0 (min remaining 100)⌋.toNat).or
        (used.map remainingFromUsed)) = some value → value ≤ 100 := by
    intro value hvalue
    rcases Option.or_eq_some_iff.mp hvalue with hsome | ⟨-, hsome⟩
    · obtain ⟨given, -, rfl⟩ := Option.map_eq_some_iff.mp hsome
      have hle : max 0 (min given 100) ≤ (100 : F64) := max_le (by decide) (min_le_right _ _)
      have hfloor : ⌊max 0 (min given 100)⌋ ≤ 100 := Int.floor_le_iff.mpr (by
        refine lt_of_le_of_lt hle ?_
        norm_num)
      omega
    · obtain ⟨given, -, rfl⟩ := Option.map_eq_some_iff.mp hsome
      exact remainingFromUsed_le given
  unfold UsageSnapshot.withLimit
  simp only
  split
  · split
    · exact ⟨hremaining _ _, h.weekly⟩
    · exact h
  · split
    · exact ⟨h.fiveHour, hremaining _ _⟩
    · exact h
  · exact h

theorem percent_empty : UsageSnapshot.Percent {} where
  fiveHour _ h := by cases h
  weekly _ h := by cases h

theorem percent_foldl {α : Type} {add : UsageSnapshot → α → UsageSnapshot} {values : List α}
    {usage : UsageSnapshot} (husage : usage.Percent)
    (hadd : ∀ {usage}, usage.Percent → ∀ value ∈ values, (add usage value).Percent) :
    (values.foldl add usage).Percent := by
  induction values generalizing usage with
  | nil => exact husage
  | cons value values ih =>
      exact ih (hadd husage value List.mem_cons_self) fun h other hother =>
        hadd h other (List.mem_cons_of_mem _ hother)

/-- Whatever a service answers, the figures are percentages. -/
theorem percent_fetchUsage (now : Nat) (body : Option Value) (agent : UsageAgent) :
    (fetchUsage now body agent).Percent := by
  cases body with
  | none => cases agent <;> exact percent_empty
  | some body =>
      cases agent with
      | codex =>
          change (parseCodexUsage now body).Percent
          unfold parseCodexUsage
          split
          · exact percent_empty
          · refine percent_foldl percent_empty fun husage window hwindow => ?_
            obtain ⟨key, -, hread⟩ := List.mem_filterMap.mp hwindow
            obtain ⟨value, -, hvalue⟩ := Option.bind_eq_some_iff.mp hread
            exact husage.withWindow (readWindow_remaining hvalue)
      | zCode =>
          change (parseZcodeQuota body).Percent
          unfold parseZcodeQuota
          split
          · exact percent_empty
          · exact percent_foldl percent_empty fun husage limit _ => husage.withLimit limit

/-! ## The fetches -/

/-- What the channel of a fetch holds. -/
inductive Channel where
  | empty
  | ready (usage : UsageSnapshot)
  | disconnected
  deriving DecidableEq

/-- `try_recv`: a fetch that has ended without an answer counts as one without figures. -/
def Channel.answer : Channel → Option UsageSnapshot
  | .empty => none
  | .ready usage => some usage
  | .disconnected => some {}

/-- A fetch, with the time of its start and what was stored for it at which time. -/
structure Fetch where
  agent : UsageAgent
  startedAt : Nat
  channel : Channel
  stored : Option (UsageSnapshot × Nat)
  deriving DecidableEq

/-- `UsageCache` with its receivers, which are the numbers of the fetches. -/
structure FetchedUsage where
  codex : Option UsageSnapshot := none
  zcode : Option UsageSnapshot := none
  codexRefreshedAt : Option Nat := none
  zcodeRefreshedAt : Option Nat := none
  pending : List (UsageAgent × Nat) := []

namespace FetchedUsage

variable (usage : FetchedUsage)

/-- The cache as the bridge sees it, the receivers aside. -/
def cache : UsageCache where
  codex := usage.codex
  zcode := usage.zcode
  codexRefreshedAt := usage.codexRefreshedAt
  zcodeRefreshedAt := usage.zcodeRefreshedAt
  pending := usage.pending.map Prod.fst

def refreshedAt : UsageAgent → Option Nat
  | .codex => usage.codexRefreshedAt
  | .zCode => usage.zcodeRefreshedAt

/-- `store`: whether the figures have changed, too. -/
def store (agent : UsageAgent) (snapshot : UsageSnapshot) (now : Nat) : Bool × FetchedUsage :=
  (usage.cache.snapshot agent != some snapshot,
    match agent with
    | .codex => { usage with codex := some snapshot, codexRefreshedAt := some now }
    | .zCode => { usage with zcode := some snapshot, zcodeRefreshedAt := some now })

theorem refreshedWithin_eq (agent : UsageAgent) (maxAge now : Nat) :
    usage.cache.refreshedWithin agent maxAge now =
      (usage.refreshedAt agent).any fun time => decide (now - time < maxAge) := by
  cases agent <;> rfl

theorem snapshot_store (agent other : UsageAgent) (snapshot : UsageSnapshot) (now : Nat) :
    (usage.store agent snapshot now).2.cache.snapshot other =
      if other = agent then some snapshot else usage.cache.snapshot other := by
  cases agent <;> cases other <;> rfl

theorem refreshedAt_store (agent other : UsageAgent) (snapshot : UsageSnapshot) (now : Nat) :
    (usage.store agent snapshot now).2.refreshedAt other =
      if other = agent then some now else usage.refreshedAt other := by
  cases agent <;> cases other <;> rfl

theorem pending_store (agent : UsageAgent) (snapshot : UsageSnapshot) (now : Nat) :
    (usage.store agent snapshot now).2.pending = usage.pending := by
  cases agent <;> rfl

end FetchedUsage

/-- The cache, the time and all fetches that were started. -/
structure UsageFetches where
  usage : FetchedUsage
  now : Nat
  fetches : List Fetch

/-- What happens to the fetches. -/
inductive UsageInput where
  | pass (time : Nat)
  | request (agent : UsageAgent)
  /-- The thread of a fetch sends its figures, or ends without. -/
  | finish (fetch : Nat) (usage : Option UsageSnapshot)
  /-- The loop looks into the channels; time passes before each of them. -/
  | poll (passes : Nat → Nat)

namespace UsageFetches

variable (state : UsageFetches)

def start : UsageFetches := ⟨{}, 0, []⟩

/-- `request_refresh`. -/
def requestRefresh (agent : UsageAgent) : UsageFetches :=
  if state.usage.cache.wantsRefresh agent state.now then
    { state with
      usage := { state.usage with
        pending := state.usage.pending ++ [(agent, state.fetches.length)] }
      fetches := state.fetches ++ [⟨agent, state.now, .empty, none⟩] }
  else state

/-- A thread ends; it does so once. -/
def finish (fetch : Nat) (usage : Option UsageSnapshot) : UsageFetches :=
  { state with
    fetches := state.fetches.modify fetch fun running =>
      if running.channel = .empty then
        { running with channel := usage.elim .disconnected .ready }
      else running }

/-- The figures of a fetch are stored. -/
def settle (agent : UsageAgent) (fetch : Nat) (snapshot : UsageSnapshot) : Bool × UsageFetches :=
  let stored := state.usage.store agent snapshot state.now
  (stored.1, { state with
    usage := stored.2
    fetches := state.fetches.modify fetch fun settled =>
      { settled with stored := some (snapshot, state.now) } })

/-- What has come of a fetch. -/
def answerOf (fetch : Nat) : Option UsageSnapshot :=
  state.fetches[fetch]?.bind fun running => running.channel.answer

/-- The loop of `poll_ready` over the receivers it has taken. -/
def pollTurns (passes : Nat → Nat) :
    List (UsageAgent × Nat) → UsageFetches → Bool × UsageFetches
  | [], state => (false, state)
  | (agent, fetch) :: rest, state =>
      let seen := { state with now := state.now + passes fetch }
      match seen.answerOf fetch with
      | none => pollTurns passes rest { seen with
          usage := { seen.usage with pending := seen.usage.pending ++ [(agent, fetch)] } }
      | some snapshot =>
          let settled := seen.settle agent fetch snapshot
          let last := pollTurns passes rest settled.2
          (settled.1 || last.1, last.2)

/-- `poll_ready`: whether any figures have changed, too. -/
def pollReady (passes : Nat → Nat) : Bool × UsageFetches :=
  pollTurns passes state.usage.pending
    { state with usage := { state.usage with pending := [] } }

def step (state : UsageFetches) : UsageInput → UsageFetches
  | .pass time => { state with now := state.now + time }
  | .request agent => state.requestRefresh agent
  | .finish fetch usage => state.finish fetch usage
  | .poll passes => (state.pollReady passes).2

/-- The state after a list of inputs. -/
def run (inputs : List UsageInput) : UsageFetches := Library.runFrom step inputs start

end UsageFetches

/-- The bridge asks for what the fetches do: it keeps the agents of their receivers. -/
theorem usageCache_requestUsageRefresh {World : Type} (out : Outside World)
    (bridge : BridgeRuntime World) (state : UsageFetches) (agent : UsageAgent)
    (hcache : bridge.usageCache = state.usage.cache)
    (hnow : (out.instant bridge.world).1 = state.now) :
    (bridge.requestUsageRefresh out agent).usageCache =
      (state.requestRefresh agent).usage.cache := by
  have hwants : (bridge.call out.instant).2.usageCache.wantsRefresh agent
      (bridge.call out.instant).1 = state.usage.cache.wantsRefresh agent state.now := by
    rw [show (bridge.call out.instant).2.usageCache = bridge.usageCache from rfl, hcache,
      show (bridge.call out.instant).1 = state.now from hnow]
  unfold BridgeRuntime.requestUsageRefresh UsageFetches.requestRefresh
  simp only [hwants]
  split
  · simp only [FetchedUsage.cache, List.map_append]
    change { bridge.usageCache with pending := bridge.usageCache.pending ++ [agent] } = _
    rw [hcache]
    rfl
  · exact hcache

end Bridge
end MicroEmu
