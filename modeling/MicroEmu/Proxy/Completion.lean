import MicroEmu.Library.Runs
import MicroEmu.Proxy.Pump

/-!
# Completed requests

When the daemon has closed the connection and the proxy ends, every request that was
forwarded and is not answered should have its own error, and every line of the daemon
should have been passed on.  The error that the loop writes carries no id, so this holds
exactly if nothing is unanswered then, and no line is left behind by an end that is not
the notice of the reader thread.
-/

namespace MicroEmu
namespace Proxy

open Json (Value)
open Library

/-! ## Requests and answers -/

/-- The id of a request. -/
inductive RequestId where
  | number (n : Json.Number)
  | text (s : String)
  deriving DecidableEq, Repr

def RequestId.ofValue : Value → Option RequestId
  | .number n => some (.number n)
  | .string s => some (.text s)
  | _ => none

def idOf (value : Value) : Option RequestId := (value.get? "id").bind RequestId.ofValue

section

variable (parse : String → Option Value)

/-- A request has a method and an id; a notification has no id. -/
def requestId (line : String) : Option RequestId :=
  (parse line).bind fun value => if (value.get? "method").isSome then idOf value else none

def responseId (line : String) : Option RequestId :=
  (parse line).bind fun value => if (value.get? "method").isSome then none else idOf value

/-- The requests that wait for an answer, behind one more line. -/
def follow (ids : List RequestId) : Traffic → List RequestId
  | .forwarded line => ids ++ (requestId parse line).toList
  | .sent line =>
      match responseId parse line with
      | some id => ids.erase id
      | none => ids

/-- The requests that were forwarded and have not been answered. -/
def unanswered (traffic : List Traffic) : List RequestId := traffic.foldl (follow parse) []

end

/-- The lines of the daemon, blank ones aside. -/
def sentLines (traffic : List Traffic) : List String :=
  (traffic.filterMap fun
    | .sent line => some line
    | .forwarded _ => none).filter (!isBlank ·)

def passedLines (output : List Output) : List String :=
  output.filterMap fun
    | .passed line => some line
    | .composed _ => none

/-- The ids of the errors that the proxy has made up. -/
def errorIds (output : List Output) : List RequestId :=
  output.filterMap fun
    | .passed _ => none
    | .composed value => if (value.get? "error").isSome then idOf value else none

/-- Every line is passed on, once and in order, and every open request has its error. -/
def Completed (parse : String → Option Value) (pump : Pump) : Prop :=
  passedLines pump.output = sentLines pump.traffic ∧
    ∀ id ∈ unanswered parse pump.traffic,
      (errorIds pump.output).count id = (unanswered parse pump.traffic).count id

/-! ## Where the loop ends -/

def linesOf (items : List Item) : List String :=
  items.filterMap fun
    | .line line => some line
    | .closed => none
    | .failed _ => none

namespace Pump

/-- The lines of the daemon that are not passed on yet. -/
def left (pump : Pump) : List String :=
  linesOf pump.daemonChannel ++ pump.wire.filter (!isBlank ·)

/-- The next check ends the loop. -/
def stops (pump : Pump) (writes : Bool) : Bool :=
  match pump.next, pump.stdinChannel, pump.daemonChannel with
  | .stdin, .line _ :: _, _ => !writes
  | .stdin, [], _ => pump.stdinDone
  | .stdin, _, _ => true
  | .daemon, _, .line _ :: _ => !writes
  | .daemon, _, [] => pump.daemonDone
  | .daemon, _, _ => true

/-- The next check takes the notice that the daemon closed the connection. -/
def TakesNotice (pump : Pump) : Prop :=
  pump.next = .daemon ∧ pump.daemonChannel.head? = some .closed

end Pump

/-- A check that ends the loop behind a closed connection finds nothing unanswered, and
unless it takes the notice, nothing left to pass on. -/
def EndsClean (parse : String → Option Value) (pump : Pump) : PumpEvent → Prop
  | .check writes => pump.ended = none → pump.daemonClosed → pump.stops writes →
      unanswered parse pump.traffic = [] ∧ (pump.TakesNotice ∨ pump.left = [])
  | _ => True

/-! ## The steps -/

theorem sentLines_append (traffic later : List Traffic) :
    sentLines (traffic ++ later) = sentLines traffic ++ sentLines later := by
  simp [sentLines]

theorem passedLines_append (output later : List Output) :
    passedLines (output ++ later) = passedLines output ++ passedLines later := by
  simp [passedLines]

theorem errorIds_append (output later : List Output) :
    errorIds (output ++ later) = errorIds output ++ errorIds later := by
  simp [errorIds]

/-- The answer of the proxy carries no id. -/
theorem idOf_unavailable : idOf Pump.unavailable = none := by
  simp [Pump.unavailable, idOf, Value.get?, Value.asObject, List.lookup_cons]

/-- What holds of the proxy until its loop ends. -/
structure Pumping (pump : Pump) : Prop where
  /-- Every line of the daemon is passed on or still on its way, in order. -/
  balance : sentLines pump.traffic = passedLines pump.output ++ pump.left
  uncomposed : errorIds pump.output = []
  /-- The notice comes when all is read, and nothing comes behind it. -/
  notice : Item.closed ∈ pump.daemonChannel →
    pump.wire = [] ∧ pump.daemonDone ∧ pump.daemonClosed
  notice_last : Item.closed ∉ pump.daemonChannel.dropLast

namespace Pumping

theorem new : Pumping Pump.new where
  balance := rfl
  uncomposed := rfl
  notice := by simp [Pump.new]
  notice_last := by simp [Pump.new]

variable {pump : Pump}

theorem closed_notMem (h : Pumping pump) (hdone : ¬pump.daemonDone) :
    Item.closed ∉ pump.daemonChannel :=
  fun hmem => hdone (h.notice hmem).2.1

/-- Nothing is left behind the notice. -/
theorem left_of_takesNotice (h : Pumping pump) (htakes : pump.TakesNotice) : pump.left = [] := by
  obtain ⟨items, hchannel⟩ := List.head?_eq_some_iff.mp htakes.2
  have hwire := (h.notice (by simp [hchannel])).1
  have hlast := h.notice_last
  rw [hchannel] at hlast
  cases items with
  | nil => simp [Pump.left, hchannel, hwire, linesOf]
  | cons item items => exact absurd (List.mem_cons_self ..) hlast

theorem daemonSends (h : Pumping pump) (hopen : ¬pump.daemonClosed) (line : String) :
    Pumping { pump with traffic := pump.traffic ++ [.sent line], wire := pump.wire ++ [line] } where
  balance := by
    have hbalance := h.balance
    rw [sentLines_append, hbalance]
    simp [Pump.left, sentLines]
  uncomposed := h.uncomposed
  notice hmem := absurd (h.notice hmem).2.2 hopen
  notice_last := h.notice_last

theorem daemonCloses (h : Pumping pump) : Pumping { pump with daemonClosed := true } where
  balance := h.balance
  uncomposed := h.uncomposed
  notice hmem := ⟨(h.notice hmem).1, (h.notice hmem).2.1, rfl⟩
  notice_last := h.notice_last

theorem readDaemon (h : Pumping pump) : Pumping pump.readDaemon := by
  unfold Pump.readDaemon
  split
  · exact h
  next hdone =>
    have hnone := h.closed_notMem hdone
    have hbalance := h.balance
    split
    next line wire hwire =>
      rw [Pump.left, hwire] at hbalance
      by_cases hblank : isBlank line
      · refine ⟨?_, h.uncomposed, ?_, ?_⟩
        · simpa [Pump.left, hblank] using hbalance
        · simpa [hblank] using fun hmem => absurd hmem hnone
        · simpa [hblank] using h.notice_last
      · refine ⟨?_, h.uncomposed, ?_, ?_⟩
        · simpa [Pump.left, hblank, linesOf] using hbalance
        · simpa [hblank] using fun hmem => absurd hmem hnone
        · simpa [hblank] using hnone
    next hwire =>
      split
      next hclosed =>
        refine ⟨?_, h.uncomposed, fun _ => ⟨hwire, rfl, hclosed⟩, by simpa using hnone⟩
        simpa [Pump.left, linesOf] using hbalance
      · exact h

theorem failDaemon (h : Pumping pump) (error : String) : Pumping (pump.failDaemon error) := by
  unfold Pump.failDaemon
  split
  · exact h
  next hdone =>
    have hnone := h.closed_notMem hdone
    refine ⟨?_, h.uncomposed, ?_, by simpa using hnone⟩
    · have hbalance := h.balance
      simpa [Pump.left, linesOf] using hbalance
    · simpa using fun hmem => absurd hmem hnone

/-- The thread of the client does not touch the lines of the daemon. -/
theorem readStdin (h : Pumping pump) (line : String) : Pumping (pump.readStdin line) := by
  unfold Pump.readStdin
  split
  · exact h
  · exact ⟨h.balance, h.uncomposed, h.notice, h.notice_last⟩

theorem endStdin (h : Pumping pump) (error : Option String) : Pumping (pump.endStdin error) := by
  unfold Pump.endStdin
  split
  · exact h
  · exact ⟨h.balance, h.uncomposed, h.notice, h.notice_last⟩

/-- A check that goes on forwards a line, passes a line on or finds nothing. -/
theorem check (h : Pumping pump) {writes : Bool} (hgoes : ¬pump.stops writes) :
    Pumping (pump.check writes) := by
  have hbalance := h.balance
  unfold Pump.stops at hgoes
  unfold Pump.check
  cases hnext : pump.next with
  | stdin =>
      dsimp only
      unfold Pump.checkStdin
      cases hchannel : pump.stdinChannel with
      | nil =>
          have hopen : ¬pump.stdinDone := by simpa [hnext, hchannel] using hgoes
          rw [if_neg hopen]
          exact ⟨hbalance, h.uncomposed, h.notice, h.notice_last⟩
      | cons item items =>
          cases item with
          | line line =>
              have hwrites : writes = true := by simpa [hnext, hchannel] using hgoes
              dsimp only
              rw [if_pos hwrites]
              refine ⟨?_, h.uncomposed, h.notice, h.notice_last⟩
              rw [sentLines_append, hbalance]
              exact List.append_nil _
          | closed => simp [hnext, hchannel] at hgoes
          | failed error => simp [hnext, hchannel] at hgoes
  | daemon =>
      dsimp only
      unfold Pump.checkDaemon
      cases hchannel : pump.daemonChannel with
      | nil =>
          have hopen : ¬pump.daemonDone := by simpa [hnext, hchannel] using hgoes
          dsimp only
          rw [if_neg hopen]
          refine ⟨?_, h.uncomposed, by simp, by simp⟩
          rw [Pump.left, hchannel] at hbalance
          exact hbalance
      | cons item items =>
          cases item with
          | line line =>
              have hwrites : writes = true := by simpa [hnext, hchannel] using hgoes
              dsimp only
              rw [if_pos hwrites]
              refine ⟨?_, ?_, ?_, ?_⟩
              · rw [Pump.left, hchannel] at hbalance
                rw [passedLines_append, hbalance]
                simp [Pump.left, linesOf, passedLines]
              · rw [errorIds_append, h.uncomposed]
                rfl
              · exact fun hmem => h.notice (by simp [hchannel, hmem])
              · have hlast := h.notice_last
                rw [hchannel] at hlast
                cases items with
                | nil => simp
                | cons item items => exact fun hmem => hlast (List.mem_cons_of_mem _ hmem)
          | closed => simp [hnext, hchannel] at hgoes
          | failed error => simp [hnext, hchannel] at hgoes

end Pumping

/-! ## The end -/

variable {pump : Pump} {parse : String → Option Value}

/-- What the last check leaves: no line passed on, no error to a request. -/
structure Ends (pump after : Pump) : Prop where
  ended : after.ended.isSome
  traffic : after.traffic = pump.traffic
  passed : passedLines after.output = passedLines pump.output
  errors : errorIds after.output = errorIds pump.output
  closed : after.daemonClosed = pump.daemonClosed

theorem ends_check {writes : Bool} (hstops : pump.stops writes) :
    Ends pump (pump.check writes) := by
  unfold Pump.stops at hstops
  unfold Pump.check
  cases hnext : pump.next with
  | stdin =>
      dsimp only
      unfold Pump.checkStdin
      cases hchannel : pump.stdinChannel with
      | nil =>
          have hdone : pump.stdinDone = true := by simpa [hnext, hchannel] using hstops
          rw [if_pos hdone]
          exact ⟨rfl, rfl, rfl, rfl, rfl⟩
      | cons item items =>
          cases item with
          | line line =>
              have hfails : writes = false := by simpa [hnext, hchannel] using hstops
              simp only [hfails]
              exact ⟨rfl, rfl, rfl, rfl, rfl⟩
          | closed => exact ⟨rfl, rfl, rfl, rfl, rfl⟩
          | failed error => exact ⟨rfl, rfl, rfl, rfl, rfl⟩
  | daemon =>
      dsimp only
      unfold Pump.checkDaemon
      cases hchannel : pump.daemonChannel with
      | nil =>
          have hdone : pump.daemonDone = true := by simpa [hnext, hchannel] using hstops
          rw [if_pos hdone]
          exact ⟨rfl, rfl, rfl, rfl, rfl⟩
      | cons item items =>
          cases item with
          | line line =>
              have hfails : writes = false := by simpa [hnext, hchannel] using hstops
              simp only [hfails]
              exact ⟨rfl, rfl, rfl, rfl, rfl⟩
          | closed =>
              refine ⟨rfl, rfl, ?_, ?_, rfl⟩
              · rw [passedLines_append]
                cases writes <;> simp [passedLines]
              · rw [errorIds_append]
                cases writes <;> simp [errorIds, idOf_unavailable]
          | failed error => exact ⟨rfl, rfl, rfl, rfl, rfl⟩

theorem check_goes {writes : Bool} (hopen : pump.ended = none) (hgoes : ¬pump.stops writes) :
    (pump.check writes).ended = none := by
  unfold Pump.stops at hgoes
  unfold Pump.check Pump.checkStdin Pump.checkDaemon
  cases hnext : pump.next with
  | stdin =>
      cases hchannel : pump.stdinChannel with
      | nil => simp_all
      | cons item items => cases item <;> simp_all
  | daemon =>
      cases hchannel : pump.daemonChannel with
      | nil => simp_all
      | cons item items => cases item <;> simp_all

/-- The proxy ends in a completed state if nothing is unanswered or left. -/
theorem completed_iff_of_ends (h : Pumping pump) {after : Pump} (hends : Ends pump after) :
    Completed parse after ↔ unanswered parse pump.traffic = [] ∧ pump.left = [] := by
  unfold Completed
  rw [hends.passed, hends.traffic, hends.errors, h.balance, h.uncomposed, List.self_eq_append_right]
  constructor
  · rintro ⟨hleft, herrors⟩
    refine ⟨List.eq_nil_iff_forall_not_mem.mpr fun id hid => ?_, hleft⟩
    have hcount := herrors id hid
    rw [List.count_nil] at hcount
    exact List.count_eq_zero.mp hcount.symm hid
  · rintro ⟨hnone, hleft⟩
    exact ⟨hleft, by simp [hnone]⟩

/-! ## Whole runs -/

theorem step_of_ended (hended : pump.ended.isSome) (event : PumpEvent) :
    pump.step event = pump :=
  if_pos hended

theorem runFrom_of_ended (hended : pump.ended.isSome) (events : List PumpEvent) :
    runFrom Pump.step events pump = pump :=
  runFrom_invariant (· = pump) (fun {_} event h => h ▸ step_of_ended hended event) rfl

theorem along_of_ended (hended : pump.ended.isSome) (events : List PumpEvent) :
    Along Pump.step (EndsClean parse) events pump := by
  induction events with
  | nil => trivial
  | cons event events ih =>
      refine ⟨?_, by rwa [step_of_ended hended]⟩
      cases event with
      | check writes => exact fun hopen => by simp [hopen] at hended
      | _ => trivial

/-- One event, until the loop ends. -/
theorem Pumping.step (h : Pumping pump) (hopen : pump.ended = none) (event : PumpEvent)
    (hgoes : ∀ writes, event = .check writes → ¬pump.stops writes) :
    Pumping (pump.step event) ∧ (pump.step event).ended = none := by
  unfold Pump.step
  rw [if_neg (by simp [hopen])]
  cases event with
  | daemonSends line =>
      dsimp only
      split
      · exact ⟨h, hopen⟩
      next hclosed => exact ⟨h.daemonSends hclosed line, hopen⟩
  | daemonCloses => exact ⟨h.daemonCloses, hopen⟩
  | readDaemon =>
      refine ⟨h.readDaemon, ?_⟩
      dsimp only
      unfold Pump.readDaemon
      split
      · exact hopen
      · split
        · exact hopen
        · split <;> exact hopen
  | failDaemon error =>
      refine ⟨h.failDaemon error, ?_⟩
      dsimp only
      unfold Pump.failDaemon
      split <;> exact hopen
  | readStdin line =>
      refine ⟨h.readStdin line, ?_⟩
      dsimp only
      unfold Pump.readStdin
      split <;> exact hopen
  | endStdin error =>
      refine ⟨h.endStdin error, ?_⟩
      dsimp only
      unfold Pump.endStdin
      split <;> exact hopen
  | check writes =>
      exact ⟨h.check (hgoes writes rfl), check_goes hopen (hgoes writes rfl)⟩

/-- From a loop that goes on, the run completes exactly if it ends clean. -/
theorem Pumping.completed_run_iff (h : Pumping pump) (hopen : pump.ended = none)
    (events : List PumpEvent) :
    ((runFrom Pump.step events pump).ended.isSome →
        (runFrom Pump.step events pump).daemonClosed →
        Completed parse (runFrom Pump.step events pump)) ↔
      Along Pump.step (EndsClean parse) events pump := by
  induction events generalizing pump with
  | nil => exact iff_of_true (fun hended => by simp [runFrom, hopen] at hended) trivial
  | cons event events ih =>
      by_cases hstops : ∃ writes, event = .check writes ∧ pump.stops writes
      · obtain ⟨writes, rfl, hstops⟩ := hstops
        have hstep : pump.step (.check writes) = pump.check writes :=
          if_neg (by simp [hopen])
        have hends := ends_check hstops
        have hrun : runFrom Pump.step (.check writes :: events) pump = pump.check writes := by
          rw [runFrom, List.foldl_cons, hstep]
          exact runFrom_of_ended hends.ended events
        have hleft : pump.left = [] ↔ pump.TakesNotice ∨ pump.left = [] :=
          ⟨Or.inr, fun hor => hor.elim h.left_of_takesNotice id⟩
        rw [hrun, Along, hstep, and_iff_left (along_of_ended hends.ended events),
          completed_iff_of_ends h hends, hends.closed, hleft]
        exact ⟨fun hall _ hclosed _ => hall hends.ended hclosed,
          fun hclean _ hclosed => hclean hopen hclosed hstops⟩
      · have hgoes : ∀ writes, event = .check writes → ¬pump.stops writes :=
          fun writes hevent hends => hstops ⟨writes, hevent, hends⟩
        have hnext := h.step hopen event hgoes
        have hclean : EndsClean parse pump event := by
          cases event with
          | check writes => exact fun _ _ hends => absurd hends (hgoes writes rfl)
          | _ => trivial
        rw [Along, and_iff_right hclean]
        exact ih hnext.1 hnext.2

/-- When the loop ends behind a daemon that closed the connection, every line of the daemon
has been passed on and every open request has its own error, exactly if the loop ends with no
request unanswered, and by the notice or with no line left. -/
theorem completed_iff (parse : String → Option Value) (events : List PumpEvent) :
    ((runFrom Pump.step events .new).ended.isSome →
        (runFrom Pump.step events .new).daemonClosed →
        Completed parse (runFrom Pump.step events .new)) ↔
      Along Pump.step (EndsClean parse) events .new :=
  Pumping.new.completed_run_iff rfl events

/-- A request is forwarded and the daemon is gone: the error is for nobody. -/
theorem not_completed_abandoned :
    let request := "\x7b\"jsonrpc\":\"2.0\",\"id\":1,\"method\":\"ping\"\x7d"
    let parse := fun line => if line = request then some (.object [("jsonrpc", .string "2.0"),
      ("id", .ofNat 1), ("method", .string "ping")]) else none
    let pump := runFrom Pump.step [.readStdin request, .check true, .check true, .daemonCloses,
      .readDaemon, .check true, .check true] .new
    pump.ended.isSome ∧ pump.daemonClosed ∧ ¬Completed parse pump := by
  intro request parse pump
  have hblank : isBlank request = false := by decide +kernel
  have hpump : pump = { Pump.new with
      traffic := [.forwarded request]
      daemonClosed := true
      daemonDone := true
      next := .daemon
      output := [.composed Pump.unavailable]
      ended := some (.ok ()) } := by
    simp only [pump, runFrom, List.foldl]
    simp [Pump.step, Pump.readStdin, Pump.check, Pump.checkStdin, Pump.checkDaemon,
      Pump.readDaemon, Pump.new, hblank]
  have hopen : unanswered parse pump.traffic = [.number (.posInt 1)] := by
    rw [hpump]
    simp [unanswered, follow, requestId, parse, idOf, Value.get?, Value.asObject,
      List.lookup_cons, Value.ofNat, RequestId.ofValue]
  refine ⟨by simp [hpump], by simp [hpump], fun hdone => ?_⟩
  have hcount := hdone.2 (.number (.posInt 1)) (by simp [hopen])
  rw [hopen, hpump] at hcount
  simp [errorIds, idOf_unavailable] at hcount

end Proxy
end MicroEmu
