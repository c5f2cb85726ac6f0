import MicroEmu.Bridge.Usage
import MicroEmu.Library.Positions

/-!
# No fetch is made twice

The fetches of an agent follow one another: each starts a while after the one before it was
stored, so there is never more than one to wait for, and the last one stored is what the cache
shows.  Every request, every answer and every look into the channels keeps this.
-/

namespace MicroEmu
namespace Bridge

open Codex (UsageAgent)
open Library (getElem?_concat_eq_some getElem?_modify_eq_some)

/-! ## The invariant -/

namespace UsageFetches

variable {state : UsageFetches}

/-- A fetch and its number. -/
abbrev At (state : UsageFetches) (number : Nat) (fetch : Fetch) : Prop :=
  state.fetches[number]? = some fetch

/-- The cache shows what was stored last for an agent, if anything was. -/
def Shows (state : UsageFetches) (agent : UsageAgent) : Prop :=
  (∃ number fetch usage time, state.At number fetch ∧ fetch.agent = agent ∧
      fetch.stored = some (usage, time) ∧ state.usage.cache.snapshot agent = some usage ∧
      state.usage.refreshedAt agent = some time ∧
      ∀ other later, state.At other later → later.agent = agent →
        later.stored ≠ none → other ≤ number) ∨
    (state.usage.cache.snapshot agent = none ∧ state.usage.refreshedAt agent = none ∧
      ∀ number fetch, state.At number fetch → fetch.agent = agent →
        fetch.stored = none)

/-- What holds of the fetches while those of a list wait for their answers. -/
structure Sound (state : UsageFetches) (waiting : List (UsageAgent × Nat)) : Prop where
  waits : ∀ agent number, (agent, number) ∈ waiting ↔ ∃ fetch,
    state.At number fetch ∧ fetch.agent = agent ∧ fetch.stored = none
  /-- One for each agent. -/
  single : (waiting.map Prod.fst).Nodup
  started : ∀ number fetch, state.At number fetch → fetch.startedAt ≤ state.now
  /-- What was stored is what the thread has answered. -/
  answered : ∀ number fetch usage time, state.At number fetch →
    fetch.stored = some (usage, time) →
      fetch.channel.answer = some usage ∧ fetch.startedAt ≤ time ∧ time ≤ state.now
  /-- A fetch starts only a while after the one before it was stored. -/
  apart : ∀ {number other first second}, number < other → state.At number first →
    state.At other second → first.agent = second.agent →
      ∃ usage time, first.stored = some (usage, time) ∧
        time + usageRefreshInterval ≤ second.startedAt
  shows : ∀ agent, state.Shows agent

theorem not_at_start {number : Nat} {fetch : Fetch} : ¬start.At number fetch := by
  simp [At, start]

theorem sound_start : Sound start [] where
  waits _ _ := iff_of_false List.not_mem_nil fun ⟨_, hat, _⟩ => not_at_start hat
  single := List.nodup_nil
  started _ _ h := absurd h not_at_start
  answered _ _ _ _ h := absurd h not_at_start
  apart _ h := absurd h not_at_start
  shows agent := by
    refine .inr ⟨?_, ?_, fun _ _ h => absurd h not_at_start⟩
    · cases agent <;> rfl
    · cases agent <;> rfl

variable {waiting : List (UsageAgent × Nat)}

theorem Sound.pass (h : Sound state waiting) (time : Nat) :
    Sound { state with now := state.now + time } waiting where
  waits := h.waits
  single := h.single
  started number fetch hfetch := Nat.le_add_right_of_le (h.started number fetch hfetch)
  answered number fetch usage stored hfetch hstored := by
    obtain ⟨hanswer, hafter, hbefore⟩ := h.answered number fetch usage stored hfetch hstored
    exact ⟨hanswer, hafter, Nat.le_add_right_of_le hbefore⟩
  apart := h.apart
  shows := h.shows

/-- The receivers are nothing that is shown. -/
theorem Sound.waitingFor (h : Sound state waiting) (pending : List (UsageAgent × Nat)) :
    Sound { state with usage := { state.usage with pending := pending } } waiting where
  waits := h.waits
  single := h.single
  started := h.started
  answered := h.answered
  apart := h.apart
  shows agent := by
    have hshows := h.shows agent
    cases agent <;> exact hshows

/-- All fetches of an agent but the last were stored. -/
theorem Sound.last (h : Sound state waiting) {number other : Nat} {running fetch : Fetch}
    (hrunning : state.fetches[number]? = some running) (hnone : running.stored = none)
    (hfetch : state.fetches[other]? = some fetch) (hagent : fetch.agent = running.agent) :
    other ≤ number := by
  by_contra hlater
  obtain ⟨usage, time, hstored, -⟩ := h.apart (Nat.lt_of_not_le hlater) hrunning hfetch
    hagent.symm
  rw [hnone] at hstored
  cases hstored

/-- Where a refresh is wanted, all fetches of the agent were stored a while ago. -/
theorem Sound.stored_of_wantsRefresh (h : Sound state state.usage.pending) {agent : UsageAgent}
    (hwants : state.usage.cache.wantsRefresh agent state.now = true) {number : Nat}
    {fetch : Fetch} (hfetch : state.At number fetch) (hagent : fetch.agent = agent) :
    ∃ usage time, fetch.stored = some (usage, time) ∧
      time + usageRefreshInterval ≤ state.now := by
  unfold UsageCache.wantsRefresh at hwants
  rw [FetchedUsage.refreshedWithin_eq, Bool.not_eq_true', Bool.or_eq_false_iff] at hwants
  obtain ⟨hidle, hold⟩ := hwants
  obtain ⟨⟨usage, time⟩, hstored⟩ : ∃ stored, fetch.stored = some stored := by
    by_contra hrunning
    have hnone := Option.eq_none_iff_forall_not_mem.mpr fun stored hstored =>
      hrunning ⟨stored, hstored⟩
    have hwaits := (h.waits agent number).mpr ⟨fetch, hfetch, hagent, hnone⟩
    exact Bool.false_ne_true (hidle.symm.trans
      (List.elem_iff.mpr (List.mem_map.mpr ⟨_, hwaits, rfl⟩)))
  refine ⟨usage, time, hstored, ?_⟩
  rcases h.shows agent with ⟨last, latest, _, recent, hlatest, hlatestAgent, hsettled, -,
    hrefreshed, hmost⟩ | ⟨-, -, hnone⟩
  · have hstale : recent + usageRefreshInterval ≤ state.now := by
      rw [hrefreshed, Option.any_some, decide_eq_false_iff_not] at hold
      have hbefore := (h.answered last latest _ recent hlatest hsettled).2.2
      omega
    have hle := hmost number fetch hfetch hagent (by simp [hstored])
    rcases Nat.eq_or_lt_of_le hle with rfl | hless
    · obtain rfl : fetch = latest := Option.some.inj (hfetch.symm.trans hlatest)
      obtain ⟨-, rfl⟩ := Prod.mk.inj (Option.some.inj (hstored.symm.trans hsettled))
      exact hstale
    · obtain ⟨_, _, hfirst, hbefore⟩ := h.apart hless hfetch hlatest
        (hagent.trans hlatestAgent.symm)
      obtain ⟨-, rfl⟩ := Prod.mk.inj (Option.some.inj (hstored.symm.trans hfirst))
      have hnow := h.started last latest hlatest
      omega
  · rw [hnone number fetch hfetch hagent] at hstored
    cases hstored

/-- A fetch is started when the last figures of the agent are old. -/
theorem Sound.requestRefresh (h : Sound state state.usage.pending) (agent : UsageAgent) :
    Sound (state.requestRefresh agent) (state.requestRefresh agent).usage.pending := by
  unfold UsageFetches.requestRefresh
  split
  next hwants =>
    have hnew {number : Nat} {fetch : Fetch} (hfetch : (state.fetches ++
        [⟨agent, state.now, .empty, none⟩])[number]? = some fetch) :
        state.At number fetch ∨
          number = state.fetches.length ∧ fetch = ⟨agent, state.now, .empty, none⟩ :=
      getElem?_concat_eq_some.mp hfetch
    have hkept {number : Nat} {fetch : Fetch} (hfetch : state.At number fetch) :
        (state.fetches ++ [⟨agent, state.now, .empty, none⟩])[number]? = some fetch :=
      getElem?_concat_eq_some.mpr (.inl hfetch)
    have hidle : agent ∉ state.usage.pending.map Prod.fst := by
      intro hmem
      obtain ⟨⟨_, number⟩, hwaits, rfl⟩ := List.mem_map.mp hmem
      obtain ⟨fetch, hfetch, hagent, hnone⟩ := (h.waits _ number).mp hwaits
      obtain ⟨_, _, hstored, -⟩ := h.stored_of_wantsRefresh hwants hfetch hagent
      rw [hnone] at hstored
      cases hstored
    refine ⟨fun other number => ?_, ?_, fun number fetch hfetch => ?_,
      fun number fetch usage time hfetch hsettled => ?_, fun hless hfirst hsecond hsame => ?_,
      fun other => ?_⟩
    · rw [List.mem_append, h.waits other number, List.mem_singleton]
      constructor
      · rintro (⟨fetch, hfetch, hrest⟩ | hlast)
        · exact ⟨fetch, hkept hfetch, hrest⟩
        · obtain ⟨rfl, rfl⟩ := Prod.mk.inj hlast
          exact ⟨_, List.getElem?_concat_length, rfl, rfl⟩
      · rintro ⟨fetch, hfetch, hagent, hnone⟩
        rcases hnew hfetch with hfetch | ⟨rfl, rfl⟩
        · exact .inl ⟨fetch, hfetch, hagent, hnone⟩
        · exact .inr (Prod.ext hagent.symm rfl)
    · rw [List.map_append, List.map_singleton, ← List.concat_eq_append]
      exact h.single.concat hidle
    · rcases hnew hfetch with hfetch | ⟨-, rfl⟩
      · exact h.started number fetch hfetch
      · exact Nat.le_refl _
    · rcases hnew hfetch with hfetch | ⟨-, rfl⟩
      · exact h.answered number fetch usage time hfetch hsettled
      · cases hsettled
    · rcases hnew hfirst with hfirst | ⟨rfl, rfl⟩
      · rcases hnew hsecond with hsecond | ⟨-, rfl⟩
        · exact h.apart hless hfirst hsecond hsame
        · exact h.stored_of_wantsRefresh hwants hfirst hsame
      · have hbound := (List.getElem?_eq_some_iff.mp hsecond).1
        rw [List.length_append, List.length_singleton] at hbound
        omega
    · have hsnapshot : (FetchedUsage.cache { state.usage with
          pending := state.usage.pending ++ [(agent, state.fetches.length)] }).snapshot other =
          state.usage.cache.snapshot other := by
        cases other <;> rfl
      have hrefreshed : FetchedUsage.refreshedAt { state.usage with
          pending := state.usage.pending ++ [(agent, state.fetches.length)] } other =
          state.usage.refreshedAt other := by
        cases other <;> rfl
      unfold Shows
      rw [hsnapshot, hrefreshed]
      rcases h.shows other with ⟨last, latest, usage, time, hlatest, hagent, hsettled, husage,
        htime, hmost⟩ | ⟨husage, htime, hnone⟩
      · refine .inl ⟨last, latest, usage, time, hkept hlatest, hagent, hsettled, husage, htime,
          fun number fetch hfetch hother hsome => ?_⟩
        rcases hnew hfetch with hfetch | ⟨-, rfl⟩
        · exact hmost number fetch hfetch hother hsome
        · exact absurd rfl hsome
      · refine .inr ⟨husage, htime, fun number fetch hfetch hother => ?_⟩
        rcases hnew hfetch with hfetch | ⟨-, rfl⟩
        · exact hnone number fetch hfetch hother
        · rfl
  · exact h

/-- A thread that ends leaves alone what was stored. -/
theorem Sound.finish (h : Sound state waiting) (number : Nat) (usage : Option UsageSnapshot) :
    Sound (state.finish number usage) waiting := by
  have hold {other : Nat} {fetch : Fetch} (hfetch : (state.finish number usage).At other fetch) :
      ∃ before, state.At other before ∧ fetch.agent = before.agent ∧
        fetch.startedAt = before.startedAt ∧ fetch.stored = before.stored ∧
          (before.channel ≠ .empty → fetch.channel = before.channel) := by
    obtain ⟨before, hbefore, rfl⟩ := getElem?_modify_eq_some.mp hfetch
    refine ⟨before, hbefore, ?_⟩
    split
    · split
      next hempty => exact ⟨rfl, rfl, rfl, fun hne => absurd hempty hne⟩
      · exact ⟨rfl, rfl, rfl, fun _ => rfl⟩
    · exact ⟨rfl, rfl, rfl, fun _ => rfl⟩
  have hnew {other : Nat} {before : Fetch} (hbefore : state.At other before) :
      ∃ fetch, (state.finish number usage).At other fetch ∧ fetch.agent = before.agent ∧
        fetch.stored = before.stored := by
    refine ⟨_, getElem?_modify_eq_some.mpr ⟨before, hbefore, rfl⟩, ?_⟩
    split
    · split <;> exact ⟨rfl, rfl⟩
    · exact ⟨rfl, rfl⟩
  refine ⟨fun agent other => ?_, h.single, fun other fetch hfetch => ?_,
    fun other fetch figures time hfetch hstored => ?_, fun hless hfirst hsecond hsame => ?_,
    fun agent => ?_⟩
  · rw [h.waits agent other]
    constructor
    · rintro ⟨before, hbefore, hagent, hnone⟩
      obtain ⟨fetch, hfetch, hsame, hstored⟩ := hnew hbefore
      exact ⟨fetch, hfetch, hsame.trans hagent, hstored.trans hnone⟩
    · rintro ⟨fetch, hfetch, hagent, hnone⟩
      obtain ⟨before, hbefore, hsame, -, hstored, -⟩ := hold hfetch
      exact ⟨before, hbefore, hsame.symm.trans hagent, hstored.symm.trans hnone⟩
  · obtain ⟨before, hbefore, -, hstarted, -⟩ := hold hfetch
    exact hstarted ▸ h.started other before hbefore
  · obtain ⟨before, hbefore, -, hstarted, hkept, hchannel⟩ := hold hfetch
    obtain ⟨hanswer, hafter, hnow⟩ :=
      h.answered other before figures time hbefore (hkept.symm.trans hstored)
    have hne : before.channel ≠ .empty := by
      intro hempty
      rw [hempty] at hanswer
      cases hanswer
    exact ⟨(congrArg Channel.answer (hchannel hne)).trans hanswer, hstarted ▸ hafter, hnow⟩
  · obtain ⟨before, hbefore, hfirstAgent, -, hfirstStored, -⟩ := hold hfirst
    obtain ⟨later, hlater, hlaterAgent, hlaterStarted, -⟩ := hold hsecond
    obtain ⟨figures, time, hstored, hwait⟩ := h.apart hless hbefore hlater
      (hfirstAgent.symm.trans (hsame.trans hlaterAgent))
    exact ⟨figures, time, hfirstStored.trans hstored, hlaterStarted ▸ hwait⟩
  · rcases h.shows agent with ⟨last, latest, figures, time, hlatest, hagent, hstored, husage,
      htime, hmost⟩ | ⟨husage, htime, hnone⟩
    · obtain ⟨fetch, hfetch, hsame, hkept⟩ := hnew hlatest
      refine .inl ⟨last, fetch, figures, time, hfetch, hsame.trans hagent, hkept.trans hstored,
        husage, htime, fun other later hlater hother hsome => ?_⟩
      obtain ⟨before, hbefore, hbeforeAgent, -, hbeforeStored, -⟩ := hold hlater
      exact hmost other before hbefore (hbeforeAgent.symm.trans hother)
        fun hnone => hsome (hbeforeStored.trans hnone)
    · refine .inr ⟨husage, htime, fun other fetch hfetch hother => ?_⟩
      obtain ⟨before, hbefore, hbeforeAgent, -, hbeforeStored, -⟩ := hold hfetch
      exact hbeforeStored.trans (hnone other before hbefore (hbeforeAgent.symm.trans hother))

/-- The figures of a fetch that waits are stored, and it waits no more. -/
theorem Sound.settle {front back : List (UsageAgent × Nat)} {agent : UsageAgent} {number : Nat}
    (h : Sound state (front ++ (agent, number) :: back)) {snapshot : UsageSnapshot}
    (hanswer : state.answerOf number = some snapshot) :
    Sound (state.settle agent number snapshot).2 (front ++ back) := by
  obtain ⟨running, hrunning, hagent, hnone⟩ := (h.waits agent number).mp
    (List.mem_append_right _ List.mem_cons_self)
  have hchannel : running.channel.answer = some snapshot := by
    unfold answerOf at hanswer
    rwa [hrunning, Option.bind_some] at hanswer
  have hsingle := h.single
  rw [List.map_append, List.map_cons] at hsingle
  obtain ⟨hother, hrest⟩ := List.nodup_cons.mp (List.nodup_middle.mp hsingle)
  rw [← List.map_append] at hother hrest
  have hold {other : Nat} {fetch : Fetch}
      (hfetch : (state.settle agent number snapshot).2.At other fetch) :
      other = number ∧ fetch = { running with stored := some (snapshot, state.now) } ∨
        other ≠ number ∧ state.At other fetch := by
    obtain ⟨before, hbefore, rfl⟩ := getElem?_modify_eq_some.mp hfetch
    by_cases heq : number = other
    · subst heq
      obtain rfl : before = running := Option.some.inj (hbefore.symm.trans hrunning)
      exact .inl ⟨rfl, if_pos rfl⟩
    · rw [if_neg heq]
      exact .inr ⟨Ne.symm heq, hbefore⟩
  have hnew {other : Nat} {fetch : Fetch} (hne : other ≠ number) (hfetch : state.At other fetch) :
      (state.settle agent number snapshot).2.At other fetch :=
    getElem?_modify_eq_some.mpr ⟨fetch, hfetch, (if_neg hne.symm).symm⟩
  have hsettled : (state.settle agent number snapshot).2.At number
      { running with stored := some (snapshot, state.now) } :=
    getElem?_modify_eq_some.mpr ⟨running, hrunning, (if_pos rfl).symm⟩
  refine ⟨fun asked other => ?_, hrest, fun other fetch hfetch => ?_,
    fun other fetch usage time hfetch hstored => ?_, fun hless hfirst hsecond hsame => ?_,
    fun asked => ?_⟩
  · constructor
    · intro hmem
      have hwaits : (asked, other) ∈ front ++ (agent, number) :: back := by
        rcases List.mem_append.mp hmem with hfront | hback
        · exact List.mem_append_left _ hfront
        · exact List.mem_append_right _ (List.mem_cons_of_mem _ hback)
      obtain ⟨fetch, hfetch, hasked, hstored⟩ := (h.waits asked other).mp hwaits
      have hne : other ≠ number := by
        rintro rfl
        obtain rfl : fetch = running := Option.some.inj (hfetch.symm.trans hrunning)
        exact hother (List.mem_map.mpr ⟨_, hmem, hasked.symm.trans hagent⟩)
      exact ⟨fetch, hnew hne hfetch, hasked, hstored⟩
    · rintro ⟨fetch, hfetch, hasked, hstored⟩
      rcases hold hfetch with ⟨-, rfl⟩ | ⟨hne, hfetch⟩
      · cases hstored
      · have hwaits := (h.waits asked other).mpr ⟨fetch, hfetch, hasked, hstored⟩
        rcases List.mem_append.mp hwaits with hfront | hback
        · exact List.mem_append_left _ hfront
        · rcases List.mem_cons.mp hback with heq | hback
          · exact absurd (Prod.mk.inj heq).2 hne
          · exact List.mem_append_right _ hback
  · rcases hold hfetch with ⟨-, rfl⟩ | ⟨-, hfetch⟩
    · exact h.started number running hrunning
    · exact h.started other fetch hfetch
  · rcases hold hfetch with ⟨-, rfl⟩ | ⟨-, hfetch⟩
    · obtain ⟨rfl, rfl⟩ := Prod.mk.inj (Option.some.inj hstored)
      exact ⟨hchannel, h.started number running hrunning, Nat.le_refl _⟩
    · exact h.answered other fetch usage time hfetch hstored
  · rcases hold hfirst with ⟨rfl, rfl⟩ | ⟨-, hearlier⟩
    · have hlater : state.At _ _ := (hold hsecond).elim
        (fun hsame => absurd hsame.1 (Nat.ne_of_gt hless)) And.right
      exact absurd (h.last hrunning hnone hlater hsame.symm) (Nat.not_le_of_lt hless)
    · rcases hold hsecond with ⟨rfl, rfl⟩ | ⟨-, hlater⟩
      · obtain ⟨usage, time, hstored, hwait⟩ := h.apart hless hearlier hrunning
          (show _ = running.agent from hsame)
        exact ⟨usage, time, hstored, hwait⟩
      · exact h.apart hless hearlier hlater hsame
  · unfold Shows
    change (∃ last latest usage time, _ ∧ _ ∧ _ ∧
      (state.usage.store agent snapshot state.now).2.cache.snapshot asked = some usage ∧
        (state.usage.store agent snapshot state.now).2.refreshedAt asked = some time ∧ _) ∨
      (state.usage.store agent snapshot state.now).2.cache.snapshot asked = none ∧
        (state.usage.store agent snapshot state.now).2.refreshedAt asked = none ∧ _
    rw [FetchedUsage.snapshot_store, FetchedUsage.refreshedAt_store]
    by_cases hasked : asked = agent
    · subst hasked
      rw [if_pos rfl, if_pos rfl]
      refine .inl ⟨number, _, snapshot, state.now, hsettled, hagent, rfl, rfl, rfl,
        fun other fetch hfetch hsame hsome => ?_⟩
      rcases hold hfetch with ⟨rfl, -⟩ | ⟨-, hfetch⟩
      · exact Nat.le_refl _
      · exact h.last hrunning hnone hfetch (hsame.trans hagent.symm)
    · rw [if_neg hasked, if_neg hasked]
      have hbefore {other : Nat} {fetch : Fetch}
          (hfetch : (state.settle agent number snapshot).2.At other fetch)
          (hsame : fetch.agent = asked) : state.At other fetch := by
        rcases hold hfetch with ⟨rfl, rfl⟩ | ⟨-, hfetch⟩
        · exact absurd (hsame.symm.trans hagent) hasked
        · exact hfetch
      rcases h.shows asked with ⟨last, latest, usage, time, hlatest, hlatestAgent, hstored,
        husage, htime, hmost⟩ | ⟨husage, htime, hfetches⟩
      · have hne : last ≠ number := by
          rintro rfl
          obtain rfl : latest = running := Option.some.inj (hlatest.symm.trans hrunning)
          exact hasked (hlatestAgent.symm.trans hagent)
        exact .inl ⟨last, latest, usage, time, hnew hne hlatest, hlatestAgent, hstored, husage,
          htime, fun other fetch hfetch hsame => hmost other fetch (hbefore hfetch hsame) hsame⟩
      · exact .inr ⟨husage, htime, fun other fetch hfetch hsame =>
          hfetches other fetch (hbefore hfetch hsame) hsame⟩

/-! ## A look into the channels -/

variable (passes : Nat → Nat)

theorem answerOf_settle (state : UsageFetches) (agent : UsageAgent) (number other : Nat)
    (snapshot : UsageSnapshot) :
    (state.settle agent number snapshot).2.answerOf other = state.answerOf other := by
  simp only [answerOf, settle, List.getElem?_modify]
  cases state.fetches[other]? with
  | none => rfl
  | some fetch =>
      simp only [Functor.map, Option.map_some, Option.bind_some]
      split <;> rfl

theorem Sound.pollTurns (rest : List (UsageAgent × Nat))
    (h : Sound state (state.usage.pending ++ rest)) :
    Sound (pollTurns passes rest state).2 (pollTurns passes rest state).2.usage.pending := by
  induction rest generalizing state with
  | nil => rwa [List.append_nil] at h
  | cons next rest ih =>
      obtain ⟨agent, number⟩ := next
      simp only [UsageFetches.pollTurns]
      split
      · refine ih ?_
        have hwaits := (h.pass (passes number)).waitingFor
          (state.usage.pending ++ [(agent, number)])
        rwa [← List.append_cons]
      next snapshot hanswer =>
        refine ih ?_
        have hsettled := (h.pass (passes number)).settle hanswer
        rwa [UsageFetches.settle, FetchedUsage.pending_store]

/-- What has no channel in the list is shown as before. -/
theorem snapshot_pollTurns {rest : List (UsageAgent × Nat)} {agent : UsageAgent}
    (h : agent ∉ rest.map Prod.fst) :
    (pollTurns passes rest state).2.usage.cache.snapshot agent =
      state.usage.cache.snapshot agent := by
  induction rest generalizing state with
  | nil => rfl
  | cons next rest ih =>
      obtain ⟨other, number⟩ := next
      rw [List.map_cons, List.mem_cons, not_or] at h
      obtain ⟨hne, hrest⟩ := h
      simp only [pollTurns]
      split
      · rw [ih hrest]
        cases agent <;> rfl
      · rw [ih hrest, settle, FetchedUsage.snapshot_store, if_neg hne]

/-- The loop says whether any figures have changed. -/
theorem changed_pollTurns {rest : List (UsageAgent × Nat)} (h : (rest.map Prod.fst).Nodup) :
    (pollTurns passes rest state).1 = true ↔ ∃ agent,
      (pollTurns passes rest state).2.usage.cache.snapshot agent ≠
        state.usage.cache.snapshot agent := by
  induction rest generalizing state with
  | nil =>
      constructor
      · intro hfalse
        cases hfalse
      · rintro ⟨_, hne⟩
        exact absurd rfl hne
  | cons next rest ih =>
      obtain ⟨agent, number⟩ := next
      rw [List.map_cons, List.nodup_cons] at h
      obtain ⟨hagent, hrest⟩ := h
      simp only [pollTurns]
      split
      · rw [ih hrest]
        refine exists_congr fun other => ?_
        cases other <;> exact Iff.rfl
      next snapshot _ =>
        let settled := settle { state with now := state.now + passes number } agent number snapshot
        have hsettled (other : UsageAgent) : settled.2.usage.cache.snapshot other =
            if other = agent then some snapshot else state.usage.cache.snapshot other :=
          FetchedUsage.snapshot_store _ agent other snapshot _
        have hfinal : (pollTurns passes rest settled.2).2.usage.cache.snapshot agent =
            some snapshot := by
          rw [snapshot_pollTurns passes hagent, hsettled, if_pos rfl]
        have hchanged : settled.1 = true ↔ state.usage.cache.snapshot agent ≠ some snapshot :=
          bne_iff_ne
        rw [Bool.or_eq_true, ih hrest]
        constructor
        · rintro (hown | ⟨other, hne⟩)
          · exact ⟨agent, fun hsame => hchanged.mp hown (hsame.symm.trans hfinal)⟩
          · refine ⟨other, fun hsame => hne (hsame.trans ?_)⟩
            have hother : other ≠ agent := by
              rintro rfl
              exact hne (hfinal.trans ((hsettled other).trans (if_pos rfl)).symm)
            exact ((hsettled other).trans (if_neg hother)).symm
        · rintro ⟨other, hne⟩
          by_cases hother : other = agent
          · subst hother
            exact .inl (hchanged.mpr fun hsame => hne (hfinal.trans hsame.symm))
          · exact .inr ⟨other, fun hsame => hne
              (hsame.trans ((hsettled other).trans (if_neg hother)))⟩

/-- What waits behind the loop has no answer yet. -/
theorem answerOf_pollTurns {rest : List (UsageAgent × Nat)}
    (h : ∀ waiting ∈ state.usage.pending, state.answerOf waiting.2 = none) :
    ∀ waiting ∈ (pollTurns passes rest state).2.usage.pending,
      (pollTurns passes rest state).2.answerOf waiting.2 = none := by
  induction rest generalizing state with
  | nil => exact h
  | cons next rest ih =>
      obtain ⟨agent, number⟩ := next
      simp only [pollTurns]
      split
      next hnone =>
        refine ih fun waiting hwaiting => ?_
        rcases List.mem_append.mp hwaiting with hbefore | hlast
        · exact h waiting hbefore
        · rw [List.mem_singleton.mp hlast]
          exact hnone
      next snapshot _ =>
        refine ih fun waiting hwaiting => ?_
        rw [answerOf_settle]
        rw [settle, FetchedUsage.pending_store] at hwaiting
        exact h waiting hwaiting

theorem Sound.pollReady (h : Sound state state.usage.pending) :
    Sound (state.pollReady passes).2 (state.pollReady passes).2.usage.pending :=
  Sound.pollTurns passes state.usage.pending (h.waitingFor [])

/-- After a look the fetches that wait are those that run. -/
theorem Sound.stored_iff_pollReady (h : Sound state state.usage.pending) {number : Nat}
    {fetch : Fetch} (hfetch : (state.pollReady passes).2.At number fetch) :
    fetch.stored = none ↔ fetch.channel = .empty := by
  have hsound := h.pollReady passes
  have hanswer : (state.pollReady passes).2.answerOf number = fetch.channel.answer := by
    unfold answerOf
    rw [hfetch, Option.bind_some]
  constructor
  · intro hnone
    have hwaits := (hsound.waits fetch.agent number).mpr ⟨fetch, hfetch, rfl, hnone⟩
    have hrunning := @answerOf_pollTurns
      { state with usage := { state.usage with pending := [] } } passes state.usage.pending
      (fun _ hmem => absurd hmem List.not_mem_nil) _ hwaits
    have hempty := hanswer.symm.trans hrunning
    cases hchannel : fetch.channel with
    | empty => rfl
    | ready usage =>
        rw [hchannel] at hempty
        cases hempty
    | disconnected =>
        rw [hchannel] at hempty
        cases hempty
  · intro hempty
    cases hstored : fetch.stored with
    | none => rfl
    | some stored =>
        have hdone := (hsound.answered number fetch stored.1 stored.2 hfetch hstored).1
        rw [hempty] at hdone
        cases hdone

/-! ## Runs -/

theorem Sound.step (h : Sound state state.usage.pending) (input : UsageInput) :
    Sound (state.step input) (state.step input).usage.pending := by
  cases input with
  | pass time => exact h.pass time
  | request agent => exact h.requestRefresh agent
  | finish number usage => exact h.finish number usage
  | poll passes => exact h.pollReady passes

theorem sound_run (inputs : List UsageInput) : Sound (run inputs) (run inputs).usage.pending :=
  Library.runFrom_invariant (fun state => Sound state state.usage.pending)
    (fun input h => Sound.step h input) sound_start

/-- A refresh is wanted exactly when all fetches of the agent were stored a while ago. -/
theorem Sound.wantsRefresh_iff (h : Sound state state.usage.pending) (agent : UsageAgent) :
    state.usage.cache.wantsRefresh agent state.now = true ↔
      ∀ number fetch, state.At number fetch → fetch.agent = agent → ∃ usage time,
        fetch.stored = some (usage, time) ∧ time + usageRefreshInterval ≤ state.now := by
  constructor
  · intro hwants number fetch hfetch hagent
    exact h.stored_of_wantsRefresh hwants hfetch hagent
  · intro hold
    unfold UsageCache.wantsRefresh
    rw [FetchedUsage.refreshedWithin_eq, Bool.not_eq_true', Bool.or_eq_false_iff]
    constructor
    · by_contra hbusy
      obtain ⟨⟨_, number⟩, hwaits, rfl⟩ :=
        List.mem_map.mp (List.elem_iff.mp (Bool.of_not_eq_false hbusy))
      obtain ⟨fetch, hfetch, hagent, hnone⟩ := (h.waits _ number).mp hwaits
      obtain ⟨_, _, hstored, -⟩ := hold number fetch hfetch hagent
      rw [hnone] at hstored
      cases hstored
    · rcases h.shows agent with ⟨last, latest, usage, time, hlatest, hagent, hstored, -, htime, -⟩ |
        ⟨-, htime, -⟩
      · obtain ⟨_, recent, hsettled, hstale⟩ := hold last latest hlatest hagent
        obtain ⟨-, rfl⟩ := Prod.mk.inj (Option.some.inj (hstored.symm.trans hsettled))
        rw [htime, Option.any_some, decide_eq_false_iff_not]
        omega
      · rw [htime]
        rfl

/-- The figures in the channels are percentages. -/
def Percents (state : UsageFetches) : Prop :=
  ∀ fetch ∈ state.fetches, ∀ usage, fetch.channel = .ready usage → usage.Percent

theorem Percents.modify (h : Percents state) {number : Nat} {change : Fetch → Fetch}
    (hchange : ∀ fetch ∈ state.fetches, ∀ usage, (change fetch).channel = .ready usage →
      usage.Percent) {usage : FetchedUsage} {now : Nat} :
    Percents ⟨usage, now, state.fetches.modify number change⟩ := by
  intro fetch hfetch
  obtain ⟨other, hother⟩ := List.mem_iff_getElem?.mp hfetch
  obtain ⟨before, hbefore, rfl⟩ := getElem?_modify_eq_some.mp hother
  have hmem := List.mem_of_getElem? hbefore
  split
  · exact hchange before hmem
  · exact h before hmem

theorem Percents.pollTurns (rest : List (UsageAgent × Nat)) (h : Percents state) :
    Percents (pollTurns passes rest state).2 := by
  induction rest generalizing state with
  | nil => exact h
  | cons next rest ih =>
      simp only [UsageFetches.pollTurns]
      split
      · exact ih h
      · refine ih (Percents.modify h ?_)
        exact fun fetch hfetch usage hready => h fetch hfetch usage hready

/-- What a thread sends it has fetched. -/
def Fetched : UsageInput → Prop
  | .finish _ (some usage) => ∃ now body agent, usage = fetchUsage now body agent
  | _ => True

theorem Percents.step (h : Percents state) {input : UsageInput} (hinput : Fetched input) :
    Percents (state.step input) := by
  cases input with
  | pass time => exact h
  | request agent =>
      change Percents (state.requestRefresh agent)
      unfold requestRefresh
      split
      · intro fetch hfetch usage hready
        rcases List.mem_append.mp hfetch with hbefore | hlast
        · exact h fetch hbefore usage hready
        · rw [List.mem_singleton.mp hlast] at hready
          cases hready
      · exact h
  | finish number figures =>
      refine h.modify fun fetch hfetch usage hready => ?_
      split at hready
      · cases figures with
        | none => cases hready
        | some sent =>
            obtain rfl := Channel.ready.inj hready
            obtain ⟨now, body, agent, rfl⟩ := hinput
            exact percent_fetchUsage now body agent
      · exact h fetch hfetch usage hready
  | poll passes => exact Percents.pollTurns passes _ h

theorem percents_run {inputs : List UsageInput} (h : ∀ input ∈ inputs, Fetched input)
    (hstate : Percents state) : Percents (Library.runFrom UsageFetches.step inputs state) := by
  induction inputs generalizing state with
  | nil => exact hstate
  | cons input inputs ih =>
      exact ih (fun later hlater => h later (List.mem_cons_of_mem _ hlater))
        (hstate.step (h input List.mem_cons_self))

theorem Sound.percent (h : Sound state waiting) (hpercents : Percents state) {agent : UsageAgent}
    {usage : UsageSnapshot} (hshown : state.usage.cache.snapshot agent = some usage) :
    usage.Percent := by
  rcases h.shows agent with ⟨number, fetch, figures, time, hfetch, -, hstored, hfigures, -⟩ |
    ⟨hnone, -⟩
  · obtain rfl := Option.some.inj (hshown.symm.trans hfigures)
    have hanswer := (h.answered number fetch usage time hfetch hstored).1
    cases hchannel : fetch.channel with
    | empty =>
        rw [hchannel] at hanswer
        cases hanswer
    | ready sent =>
        rw [hchannel] at hanswer
        obtain rfl := Option.some.inj hanswer
        exact hpercents fetch (List.mem_of_getElem? hfetch) sent hchannel
    | disconnected =>
        rw [hchannel] at hanswer
        obtain rfl := Option.some.inj hanswer
        exact percent_empty
  · rw [hnone] at hshown
    cases hshown

end UsageFetches

open UsageFetches

/-- Whatever the order of requests, answers and looks: no agent has two fetches at a time, and
the next one starts at the earliest a refresh interval after the one before it was stored; each
is stored once, with what its thread has sent, and the cache shows what was stored last, which
are percentages.  A request starts a fetch exactly when none of the agent runs and its figures
are that old.  A look stores all that has come and leaves waiting what still runs, and it says
whether any figures have changed. -/
theorem usage_fetched_once {inputs : List UsageInput} (hinputs : ∀ input ∈ inputs, Fetched input)
    {state : UsageFetches} (hstate : run inputs = state) :
    Sound state state.usage.pending ∧
      (∀ agent usage, state.usage.cache.snapshot agent = some usage → usage.Percent) ∧
      (∀ agent, state.usage.cache.wantsRefresh agent state.now = true ↔
        ∀ number fetch, state.At number fetch → fetch.agent = agent → ∃ usage time,
          fetch.stored = some (usage, time) ∧ time + usageRefreshInterval ≤ state.now) ∧
      ∀ passes, ((state.pollReady passes).1 = true ↔ ∃ agent,
          (state.pollReady passes).2.usage.cache.snapshot agent ≠
            state.usage.cache.snapshot agent) ∧
        ∀ number fetch, (state.pollReady passes).2.At number fetch →
          (fetch.stored = none ↔ fetch.channel = .empty) := by
  subst hstate
  have hsound := sound_run inputs
  have hpercents : Percents (run inputs) :=
    percents_run hinputs fun _ hfetch => absurd hfetch List.not_mem_nil
  refine ⟨hsound, fun agent usage hshown => hsound.percent hpercents hshown,
    hsound.wantsRefresh_iff, fun passes => ⟨?_, fun number fetch hfetch =>
      hsound.stored_iff_pollReady passes hfetch⟩⟩
  rw [pollReady, changed_pollTurns passes hsound.single]
  refine exists_congr fun agent => ?_
  cases agent <;> exact Iff.rfl

/-- A fetch behind one whose thread has died. -/
def sampleFetches : List UsageInput :=
  [.request .codex, .finish 0 none, .poll fun _ => 5, .pass 300000, .request .codex,
    .finish 1 (some (fetchUsage 0 none .codex)), .poll fun _ => 0]

theorem usage_fetched_once_sample :
    Sound (run sampleFetches) (run sampleFetches).usage.pending ∧
      (run sampleFetches).fetches.length = 2 := by
  refine ⟨(usage_fetched_once (fun input hinput => ?_) rfl).1, by decide +kernel⟩
  simp only [sampleFetches, List.mem_cons, List.not_mem_nil, or_false] at hinput
  rcases hinput with rfl | rfl | rfl | rfl | rfl | rfl | rfl
  all_goals first | trivial | exact ⟨0, none, .codex, rfl⟩

end Bridge
end MicroEmu
