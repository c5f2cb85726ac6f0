import MicroEmu.Daemon.Plugins
import MicroEmu.Library.Backoff
import MicroEmu.Library.Runs
import MicroEmu.Serial

/-!
# The supervision of the serial port

In every round the daemon takes what the reader of the port has left, opens a port again that
was lost, and asks the board whether it is still there.  A port that cannot be opened is tried
again after a delay that doubles.  The trail of a run lists what was done about the port, the
latest first, between the events that were taken; the laws below say of each entry what came
before it.
-/

namespace MicroEmu
namespace Daemon

open Library (Backoff Along runFrom)
open Serial (SerialEvent)
open Wire (Frame FrameType)

/-! ## The health check -/

/-- `HEALTH_CHECK_INTERVAL`, in milliseconds. -/
def healthCheckInterval : Nat := 1000

/-- `HEALTH_CHECK_TIMEOUT`, in milliseconds. -/
def healthCheckTimeout : Nat := 1000

structure HealthCheck where
  nextProbeAt : Nat
  pendingDeadline : Option Nat
  deriving DecidableEq, Repr

namespace HealthCheck

def new (now : Nat) : HealthCheck := ⟨now + healthCheckInterval, none⟩

def dueAt (health : HealthCheck) (now : Nat) : Bool :=
  health.pendingDeadline.isNone && decide (health.nextProbeAt ≤ now)

def beginAt (health : HealthCheck) (now : Nat) : HealthCheck :=
  { health with pendingDeadline := some (now + healthCheckTimeout) }

def observeStatusAt (_ : HealthCheck) (now : Nat) : HealthCheck where
  pendingDeadline := none
  nextProbeAt := now + healthCheckInterval

def timedOutAt (health : HealthCheck) (now : Nat) : Bool :=
  health.pendingDeadline.any fun deadline => decide (deadline ≤ now)

end HealthCheck

/-! ## The state -/

/-- `SERIAL_RETRY_INITIAL_DELAY` and `DAEMON_SERIAL_RETRY_MAX_DELAY`, in milliseconds. -/
def serialRetry : Backoff := ⟨100, 10000, by decide⟩

/-- What `open_serial_runtime` has opened. -/
structure OpenedPort where
  firmware : String
  port : String
  sequence : Nat
  deriving DecidableEq, Repr

def OpenedPort.link (opened : OpenedPort) : SerialLink :=
  ⟨true, opened.firmware, opened.port, opened.sequence⟩

/-- A call of `open_serial_runtime`: when it is called, when it returns, and what it returns. -/
structure Opening where
  began : Nat
  ended : Nat
  outcome : Except String OpenedPort

/-- Why the port is opened again. -/
inductive RetryReason where
  | deviceEvent
  | portUnavailable
  | healthTimeout
  | healthWrite
  deriving DecidableEq, Repr

/-- Something the reader has left: the time when it is taken, and the error of writing an
answer to it. -/
structure TakenEvent where
  event : SerialEvent
  time : Nat
  answer : Option String

/-- An entry of the trail. -/
inductive Happening where
  /-- An event of the reader has been taken. -/
  | taken (event : TakenEvent)
  /-- A ping has been written, or could not be. -/
  | ping (frame : Frame) (time : Nat) (error : Option String)
  /-- `retry_serial_connection`. -/
  | retry (reason : RetryReason) (opening : Opening)

structure SerialState where
  link : SerialLink
  health : HealthCheck
  serialRetryAt : Option Nat
  serialRetryDelay : Nat
  trail : List Happening
  /-- The time of the last round. -/
  now : Nat
  /-- The latest time that was read. -/
  clock : Nat

/-- What a round meets.  An opening that the round does not ask for is not used. -/
structure RoundInput where
  /-- How many sequence numbers the rest of the daemon has taken. -/
  sent : Nat
  events : List TakenEvent
  deviceEvent : Opening
  now : Nat
  portUnavailable : Opening
  /-- The error of writing the ping. -/
  pingError : Option String
  health : Opening

namespace SerialState

/-! ## One round -/

/-- `next_sequence`, so many times. -/
def nextSequence (sent : Nat) (state : SerialState) : SerialState :=
  { state with link := { state.link with sequence := (state.link.sequence + sent) % 2 ^ 16 } }

/-- `replace_runtime`: the old port is closed in any case. -/
def replaceRuntime (port : String) (opening : Opening) (state : SerialState) :
    Except String Unit × SerialState :=
  if port = "none" then
    (.ok (), { state with link := .standalone, health := .new opening.ended })
  else
    match opening.outcome with
    | .ok opened => (.ok (), { state with link := opened.link, health := .new opening.ended })
    | .error error => (.error error, { state with link := { state.link with hasSerial := false } })

def retrySerialConnection (port : String) (reason : RetryReason) (opening : Opening)
    (state : SerialState) : SerialState :=
  let replaced := state.replaceRuntime port opening
  let noted := { replaced.2 with
    trail := .retry reason opening :: state.trail
    clock := opening.ended }
  match replaced.1 with
  | .ok () =>
      { noted with serialRetryAt := none, serialRetryDelay := serialRetry.initial }
  | .error _ =>
      { noted with
        serialRetryAt := some (opening.ended + state.serialRetryDelay)
        serialRetryDelay := serialRetry.next state.serialRetryDelay }

theorem retrySerialConnection_now {port : String} {reason : RetryReason} {opening : Opening}
    {state : SerialState} : (state.retrySerialConnection port reason opening).now = state.now := by
  obtain ⟨began, ended, outcome⟩ := opening
  by_cases hport : port = "none" <;> cases outcome <;>
    simp [retrySerialConnection, replaceRuntime, hport]

theorem retrySerialConnection_trail {port : String} {reason : RetryReason} {opening : Opening}
    {state : SerialState} :
    (state.retrySerialConnection port reason opening).trail =
      .retry reason opening :: state.trail := by
  obtain ⟨began, ended, outcome⟩ := opening
  by_cases hport : port = "none" <;> cases outcome <;>
    simp [retrySerialConnection, replaceRuntime, hport]

theorem retrySerialConnection_clock {port : String} {reason : RetryReason} {opening : Opening}
    {state : SerialState} :
    (state.retrySerialConnection port reason opening).clock = opening.ended := by
  obtain ⟨began, ended, outcome⟩ := opening
  by_cases hport : port = "none" <;> cases outcome <;>
    simp [retrySerialConnection, replaceRuntime, hport]

def observeStatus (time : Nat) (state : SerialState) : SerialState :=
  { state with
    health := state.health.observeStatusAt time
    clock := time }

/-- The event is noted in the trail. -/
def note (event : TakenEvent) (state : SerialState) : SerialState :=
  { state with trail := .taken event :: state.trail }

/-- The loop over the events; the error is that of a port that is lost.  An answer that cannot
be written does not end the loop. -/
def takeEvents : List TakenEvent → Option String → SerialState → Option String × SerialState
  | [], lost, state => (lost, state)
  | taken :: events, lost, state =>
      let noted := state.note taken
      match taken.event with
      | .frame frame =>
          match frame.frameType with
          | .codexOutputReport => takeEvents events (taken.answer.or lost) noted
          | .status => takeEvents events lost (noted.observeStatus taken.time)
          | _ => takeEvents events lost noted
      | .protocolError _ => takeEvents events lost noted
      -- what has come behind it is dropped
      | .disconnected error => (some error, noted)

/-- The events that are taken are noted. -/
theorem trail_takeEvents (events : List TakenEvent) (lost : Option String) (state : SerialState) :
    ∃ taken : List TakenEvent, (∀ event ∈ taken, event ∈ events) ∧
      (takeEvents events lost state).2.trail = taken.map .taken ++ state.trail := by
  induction events generalizing lost state with
  | nil => exact ⟨[], fun _ h => absurd h List.not_mem_nil, rfl⟩
  | cons event events ih =>
      have hrest {later : Option String} {next : SerialState}
          (hnext : next.trail = .taken event :: state.trail) :
          ∃ taken : List TakenEvent, (∀ other ∈ taken, other ∈ event :: events) ∧
            (takeEvents events later next).2.trail = taken.map .taken ++ state.trail := by
        obtain ⟨taken, hmem, htrail⟩ := ih later next
        refine ⟨taken ++ [event], fun other hother => ?_, ?_⟩
        · rcases List.mem_append.mp hother with hlater | hfirst
          · exact List.mem_cons_of_mem _ (hmem other hlater)
          · exact List.mem_singleton.mp hfirst ▸ List.mem_cons_self
        · rw [htrail, hnext, List.map_append, List.append_assoc]
          rfl
      unfold takeEvents
      simp only
      split
      · split <;> exact hrest rfl
      · exact hrest rfl
      · exact ⟨[event], fun other hother => List.mem_singleton.mp hother ▸ List.mem_cons_self, rfl⟩

def sendHealthPing (now : Nat) (pingError : Option String) (state : SerialState) :
    Except String Unit × SerialState :=
  if !state.health.dueAt now then (.ok (), state)
  else
    let sequenced := state.nextSequence 1
    match Frame.new .ping (UInt16.ofNat state.link.sequence) [] with
    | .error error => (.error (Serial.displayWireError error), sequenced)
    | .ok ping =>
        match pingError with
        | some error =>
            (.error error, { sequenced with trail := .ping ping now (some error) :: state.trail })
        | none =>
            (.ok (), { sequenced with
              health := state.health.beginAt now
              trail := .ping ping now none :: state.trail
              clock := now })

/-- The serial events of a round; a port that is lost is opened again. -/
def serveEvents (port : String) (input : RoundInput) (state : SerialState) : SerialState :=
  let taken := if state.link.hasSerial then takeEvents input.events none state else (none, state)
  match taken.1 with
  | some _ => taken.2.retrySerialConnection port .deviceEvent input.deviceEvent
  | none => taken.2

/-- A port that could not be opened, and is due. -/
def retryUnavailable (port : String) (input : RoundInput) (state : SerialState) : SerialState :=
  if !state.link.hasSerial && decide (port ≠ "none") &&
      state.serialRetryAt.any (fun retryAt => decide (retryAt ≤ input.now)) then
    state.retrySerialConnection port .portUnavailable input.portUnavailable
  else state

/-- The health check, with a port that is open. -/
def checkHealth (port : String) (input : RoundInput) (state : SerialState) : SerialState :=
  if state.link.hasSerial then
    if state.health.timedOutAt input.now then
      state.retrySerialConnection port .healthTimeout input.health
    else
      let pinged := state.sendHealthPing input.now input.pingError
      match pinged.1 with
      | .error _ => pinged.2.retrySerialConnection port .healthWrite input.health
      | .ok () => pinged.2
  else state

/-- What one round of `run_daemon` does about the port. -/
def round (port : String) (state : SerialState) (input : RoundInput) : SerialState :=
  let served := (state.nextSequence input.sent).serveEvents port input
  let checked := (served.retryUnavailable port input).checkHealth port input
  { checked with now := input.now, clock := input.health.ended }

/-- The daemon before its first round, with what `open_runtime` has opened at a time. -/
def start (port : String) (link : SerialLink) (opened started : Nat) : SerialState where
  link := link
  health := .new opened
  serialRetryAt := if !link.hasSerial && decide (port ≠ "none") then some started else none
  serialRetryDelay := serialRetry.initial
  trail := []
  now := opened
  clock := started

/-- The clock does not go back, and the rounds are not further apart than the gap. -/
def Timely (gap : Nat) (state : SerialState) (input : RoundInput) : Prop :=
  (state.clock :: input.events.map (·.time) ++
      [input.deviceEvent.began, input.deviceEvent.ended, input.now, input.portUnavailable.began,
        input.portUnavailable.ended, input.health.began, input.health.ended]).Pairwise
    (· ≤ ·) ∧
  input.now ≤ state.now + gap

end SerialState

/-! ## The laws of the trail -/

namespace TakenEvent

/-- The board has answered. -/
def isStatus (taken : TakenEvent) : Bool :=
  match taken.event with
  | .frame frame => frame.frameType == .status
  | _ => false

/-- Why the port is given up: it is gone, or an answer to a report could not be written. -/
def loss (taken : TakenEvent) : Option String :=
  match taken.event with
  | .frame frame => if frame.frameType = .codexOutputReport then taken.answer else none
  | .protocolError _ => none
  | .disconnected error => some error

end TakenEvent

/-- The entry says what the round has met. -/
def Happening.Met (input : RoundInput) : Happening → Prop
  | .taken event => event ∈ input.events
  | .ping _ time error => time = input.now ∧ error = input.pingError
  | .retry .deviceEvent opening => opening = input.deviceEvent
  | .retry .portUnavailable opening => opening = input.portUnavailable
  | .retry _ opening => opening = input.health

/-- How the daemon has started: whether the port was open, when it was opened, and when the
loop began. -/
structure Beginning where
  hasSerial : Bool
  opened : Nat
  started : Nat

namespace Beginning

variable (beginning : Beginning)

/-- The port is open. -/
def IsOpen : List Happening → Prop
  | [] => beginning.hasSerial = true
  | .retry _ opening :: _ => opening.outcome.isOk = true
  | _ :: _ => True

/-- When the board has last been heard of. -/
def lastSign : List Happening → Nat
  | [] => beginning.opened
  | .taken event :: trail => if event.isStatus then event.time else lastSign trail
  | .ping _ _ _ :: trail => lastSign trail
  | .retry _ ⟨_, ended, .ok _⟩ :: _ => ended
  | .retry _ ⟨_, _, .error _⟩ :: trail => lastSign trail

/-- How often the port could not be opened since it was last open. -/
def failures : List Happening → Nat
  | .retry _ ⟨_, _, .error _⟩ :: trail => failures trail + 1
  | _ => 0

/-- When a port that is not open is tried again. -/
def retryDue : List Happening → Nat
  | .retry _ opening :: trail => opening.ended + serialRetry.delay (failures trail)
  | _ => beginning.started

/-- When the ping was written that waits for an answer. -/
def pinged : List Happening → Option Nat
  | .taken event :: trail => if event.isStatus then none else pinged trail
  | .ping _ time none :: _ => some time
  | _ => none

/-- An event that was taken last says that the port is lost. -/
def Lost : List Happening → Prop
  | .taken event :: trail => event.loss.isSome = true ∨ Lost trail
  | _ => False

/-- The ping could not be written. -/
def Refused : List Happening → Prop
  | .ping _ _ error :: _ => error.isSome = true
  | _ => False

/-- What must have come before an entry. -/
def Allowed (trail : List Happening) : Happening → Prop
  | .taken _ => beginning.IsOpen trail
  | .ping _ time _ =>
      beginning.IsOpen trail ∧ ¬Lost trail ∧ pinged trail = none ∧
        beginning.lastSign trail + 1000 ≤ time
  | .retry .deviceEvent _ => Lost trail
  | .retry .healthWrite _ => Refused trail
  | .retry .healthTimeout opening =>
      ¬Lost trail ∧ ∃ asked, pinged trail = some asked ∧ asked + 1000 ≤ opening.began
  | .retry .portUnavailable opening =>
      ¬beginning.IsOpen trail ∧ beginning.retryDue trail ≤ opening.began

/-- No loss waits for the port to be opened again. -/
def Attended (trail : List Happening) : Prop := ¬Lost trail ∧ ¬Refused trail

/-- Every entry is allowed by those before it. -/
def Lawful : List Happening → Prop
  | [] => True
  | happening :: trail => beginning.Allowed trail happening ∧ Lawful trail

theorem failures_of_isOpen {trail : List Happening} (h : beginning.IsOpen trail) :
    failures trail = 0 := by
  cases trail with
  | nil => rfl
  | cons happening trail =>
      cases happening with
      | taken => rfl
      | ping => rfl
      | retry reason opening =>
          obtain ⟨began, ended, outcome⟩ := opening
          cases outcome with
          | ok => rfl
          | error => cases h

end Beginning

/-! ## What the loop keeps -/

/-- What the state says of the trail, with the gap between two rounds. -/
structure Tracked (port : String) (gap : Nat) (beginning : Beginning) (state : SerialState) :
    Prop where
  lawful : beginning.Lawful state.trail
  isOpen : state.link.hasSerial = true ↔ beginning.IsOpen state.trail
  named : port = "none" → state.link.hasSerial = false ∧ state.trail = []
  retryAt : state.serialRetryAt =
    if state.link.hasSerial = true ∨ port = "none" then none
    else some (beginning.retryDue state.trail)
  retryDelay : state.serialRetryDelay = serialRetry.delay (Beginning.failures state.trail)
  pending : state.link.hasSerial = true →
    state.health.pendingDeadline = (Beginning.pinged state.trail).map (· + 1000)
  probe : state.link.hasSerial = true → Beginning.pinged state.trail = none →
    state.health.nextProbeAt = beginning.lastSign state.trail + 1000
  /-- A sign that waits for no ping has been heard since the last round, or not long before. -/
  fresh : state.link.hasSerial = true → Beginning.pinged state.trail = none →
    state.now < beginning.lastSign state.trail + 1000
  asked : ∀ time, Beginning.pinged state.trail = some time →
    time < beginning.lastSign state.trail + 1000 + gap
  now_le : state.now ≤ state.clock

namespace Tracked

variable {port : String} {gap : Nat} {beginning : Beginning} {state : SerialState}

theorem start {link : SerialLink} {opened started : Nat}
    (hnamed : link.hasSerial = true → port ≠ "none") (hstarted : opened ≤ started) :
    Tracked port gap ⟨link.hasSerial, opened, started⟩
      (SerialState.start port link opened started) where
  lawful := trivial
  isOpen := Iff.rfl
  named := by
    intro hnone
    refine ⟨?_, rfl⟩
    rw [SerialState.start]
    by_contra hopen
    exact hnamed (by simpa using hopen) hnone
  retryAt := by
    by_cases hnone : port = "none" <;> cases hopen : link.hasSerial <;>
      simp [SerialState.start, Beginning.retryDue, hnone, hopen]
  retryDelay := serialRetry.delay_zero.symm
  pending := by
    intro _
    rfl
  probe := by
    intro _ _
    rfl
  fresh := by
    intro _ _
    simp only [SerialState.start, Beginning.lastSign]
    omega
  asked := by
    intro time hpinged
    cases hpinged
  now_le := hstarted

theorem nextSequence (h : Tracked port gap beginning state) (sent : Nat) :
    Tracked port gap beginning (state.nextSequence sent) :=
  ⟨h.lawful, h.isOpen, h.named, h.retryAt, h.retryDelay, h.pending, h.probe, h.fresh, h.asked,
    h.now_le⟩

/-- A port that is opened again, for a reason that the trail allows. -/
theorem retry (h : Tracked port gap beginning state) (hport : port ≠ "none")
    {reason : RetryReason} {opening : Opening} (hclock : state.clock ≤ opening.ended)
    (hallowed : beginning.Allowed state.trail (.retry reason opening)) :
    Tracked port gap beginning (state.retrySerialConnection port reason opening) := by
  obtain ⟨began, ended, outcome⟩ := opening
  have hnow := h.now_le
  simp only at hclock
  cases outcome with
  | ok opened =>
      simp only [SerialState.retrySerialConnection, SerialState.replaceRuntime, if_neg hport]
      exact {
        lawful := ⟨hallowed, h.lawful⟩
        isOpen := by simp [OpenedPort.link, Beginning.IsOpen, Except.isOk, Except.toBool]
        named := fun hnone => absurd hnone hport
        retryAt := by simp [OpenedPort.link]
        retryDelay := serialRetry.delay_zero.symm
        pending := fun _ => rfl
        probe := fun _ _ => rfl
        fresh := by
          intro _ _
          simp only [Beginning.lastSign]
          omega
        asked := fun _ hpinged => by cases hpinged
        now_le := by simp only; omega }
  | error error =>
      simp only [SerialState.retrySerialConnection, SerialState.replaceRuntime, if_neg hport]
      exact {
        lawful := ⟨hallowed, h.lawful⟩
        isOpen := by simp [Beginning.IsOpen, Except.isOk, Except.toBool]
        named := fun hnone => absurd hnone hport
        retryAt := by simp [hport, Beginning.retryDue, h.retryDelay]
        retryDelay := by
          simp only [Beginning.failures]
          rw [serialRetry.delay_succ, h.retryDelay]
        pending := fun hopen => by cases hopen
        probe := fun hopen => by cases hopen
        fresh := fun hopen => by cases hopen
        asked := fun _ hpinged => by cases hpinged
        now_le := by simp only; omega }

/-- Nothing waits for a port that is open. -/
theorem no_retryAt (h : Tracked port gap beginning state) (hopen : state.link.hasSerial = true) :
    state.serialRetryAt = none := by
  rw [h.retryAt, if_pos (Or.inl hopen)]

theorem not_named (h : Tracked port gap beginning state) (hopen : state.link.hasSerial = true) :
    port ≠ "none" := by
  intro hnone
  rw [(h.named hnone).1] at hopen
  cases hopen

theorem initial_retryDelay (h : Tracked port gap beginning state)
    (hopen : state.link.hasSerial = true) : state.serialRetryDelay = serialRetry.delay 0 := by
  rw [h.retryDelay, beginning.failures_of_isOpen (h.isOpen.mp hopen)]

/-- An entry under which an open port stays open.  What it makes of the pings and the signs of
the board is left to show. -/
theorem entry (h : Tracked port gap beginning state) (hopen : state.link.hasSerial = true)
    {happening : Happening} (hallowed : beginning.Allowed state.trail happening)
    (hkept : beginning.IsOpen (happening :: state.trail)) {health : HealthCheck} {clock : Nat}
    (hpending : health.pendingDeadline =
      (Beginning.pinged (happening :: state.trail)).map (· + 1000))
    (hprobe : Beginning.pinged (happening :: state.trail) = none →
      health.nextProbeAt = beginning.lastSign (happening :: state.trail) + 1000)
    (hfresh : Beginning.pinged (happening :: state.trail) = none →
      state.now < beginning.lastSign (happening :: state.trail) + 1000)
    (hasked : ∀ time, Beginning.pinged (happening :: state.trail) = some time →
      time < beginning.lastSign (happening :: state.trail) + 1000 + gap)
    (hclock : state.now ≤ clock) :
    Tracked port gap beginning
      { state with health := health, trail := happening :: state.trail, clock := clock } where
  lawful := ⟨hallowed, h.lawful⟩
  isOpen := ⟨fun _ => hkept, fun _ => hopen⟩
  named := fun hnone => absurd hnone (h.not_named hopen)
  retryAt := by
    rw [if_pos (Or.inl hopen)]
    exact h.no_retryAt hopen
  retryDelay := by
    rw [beginning.failures_of_isOpen hkept]
    exact h.initial_retryDelay hopen
  pending := fun _ => hpending
  probe := fun _ => hprobe
  fresh := fun _ => hfresh
  asked := hasked
  now_le := hclock

/-- A status frame that is taken. -/
theorem status (h : Tracked port gap beginning state) (hopen : state.link.hasSerial = true)
    {event : TakenEvent} (hstatus : event.isStatus = true) (hclock : state.clock ≤ event.time) :
    Tracked port gap beginning ((state.note event).observeStatus event.time) := by
  have hallowed : beginning.Allowed state.trail (.taken event) := h.isOpen.mp hopen
  have hnow := h.now_le.trans hclock
  have hsign : beginning.lastSign (.taken event :: state.trail) = event.time := by
    simp [Beginning.lastSign, hstatus]
  have hpinged : Beginning.pinged (.taken event :: state.trail) = none := by
    simp [Beginning.pinged, hstatus]
  refine h.entry hopen hallowed trivial ?_ ?_ ?_ ?_ hnow
  · rw [hpinged]
    rfl
  · rw [hsign]
    exact fun _ => rfl
  · rw [hsign]
    omega
  · rw [hpinged]
    exact fun _ hsome => nomatch hsome

/-- Another event that is taken. -/
theorem note (h : Tracked port gap beginning state) (hopen : state.link.hasSerial = true)
    {event : TakenEvent} (hother : event.isStatus = false) :
    Tracked port gap beginning (state.note event) := by
  have hallowed : beginning.Allowed state.trail (.taken event) := h.isOpen.mp hopen
  have hpinged : Beginning.pinged (.taken event :: state.trail) = Beginning.pinged state.trail := by
    simp [Beginning.pinged, hother]
  have hsign : beginning.lastSign (.taken event :: state.trail) =
      beginning.lastSign state.trail := by
    simp [Beginning.lastSign, hother]
  refine h.entry hopen hallowed trivial ?_ ?_ ?_ ?_ h.now_le
  · rw [hpinged]
    exact h.pending hopen
  · rw [hpinged, hsign]
    exact h.probe hopen
  · rw [hpinged, hsign]
    exact h.fresh hopen
  · rw [hpinged, hsign]
    exact h.asked

/-- What the events leave of the state: the port is kept, the clock stays below any bound on the
times of the events, and the error is there exactly if an event says that the port is lost. -/
theorem takeEvents (events : List TakenEvent) (lost : Option String)
    (h : Tracked port gap beginning state) (hopen : state.link.hasSerial = true)
    (hlost : lost.isSome = true ↔ Beginning.Lost state.trail)
    (hsorted : (state.clock :: events.map (·.time)).Pairwise (· ≤ ·)) {bound : Nat}
    (hclock : state.clock ≤ bound) (hbound : ∀ event ∈ events, event.time ≤ bound) :
    Tracked port gap beginning (SerialState.takeEvents events lost state).2 ∧
      (SerialState.takeEvents events lost state).2.link = state.link ∧
      (SerialState.takeEvents events lost state).2.now = state.now ∧
      (SerialState.takeEvents events lost state).2.clock ≤ bound ∧
      ((SerialState.takeEvents events lost state).1.isSome = true ↔
        Beginning.Lost (SerialState.takeEvents events lost state).2.trail) := by
  induction events generalizing lost state with
  | nil => exact ⟨h, rfl, rfl, hclock, hlost⟩
  | cons taken events ih =>
      obtain ⟨event, time, answer⟩ := taken
      obtain ⟨hfirst, hsorted⟩ := List.pairwise_cons.mp hsorted
      have hskipped : (state.clock :: events.map (·.time)).Pairwise (· ≤ ·) :=
        List.pairwise_cons.mpr ⟨fun later hlater => hfirst later (List.mem_cons_of_mem _ hlater),
          (List.pairwise_cons.mp hsorted).2⟩
      have hrest : ∀ event ∈ events, event.time ≤ bound :=
        fun event hevent => hbound event (List.mem_cons_of_mem _ hevent)
      -- an event that is no status frame is noted, and gives the port up if it says so
      have hnoted {taken : TakenEvent} (hother : taken.isStatus = false) {later : Option String}
          (hlater : later.isSome = true ↔ taken.loss.isSome = true ∨ lost.isSome = true) :=
        ih later (h.note hopen hother) hopen (hlater.trans (or_congr Iff.rfl hlost)) hskipped
          hclock hrest
      cases event with
      | protocolError error => exact hnoted rfl (by simp [TakenEvent.loss])
      | disconnected error =>
          exact ⟨h.note hopen rfl, rfl, rfl, hclock, iff_of_true rfl (Or.inl rfl)⟩
      | frame frame =>
          obtain ⟨frameType, sequence, payload⟩ := frame
          cases frameType with
          | codexOutputReport => exact hnoted rfl (by simp [TakenEvent.loss])
          | status =>
              have htime : state.clock ≤ time := hfirst time (List.mem_cons_self ..)
              have hlast : time ≤ bound := hbound _ (List.mem_cons_self ..)
              refine ih lost (h.status hopen rfl htime) hopen (hlost.trans ?_) hsorted hlast hrest
              simp [SerialState.observeStatus, SerialState.note, Beginning.Lost, TakenEvent.loss]
          | codexInputReport => exact hnoted rfl (by simp [TakenEvent.loss])
          | ping => exact hnoted rfl (by simp [TakenEvent.loss])
          | log => exact hnoted rfl (by simp [TakenEvent.loss])

/-- What a ping that is due says of the trail. -/
theorem due (h : Tracked port gap beginning state) (hopen : state.link.hasSerial = true)
    {now : Nat} (hdue : state.health.dueAt now = true) :
    Beginning.pinged state.trail = none ∧ beginning.lastSign state.trail + 1000 ≤ now := by
  rw [HealthCheck.dueAt, Bool.and_eq_true, decide_eq_true_eq, h.pending hopen] at hdue
  obtain ⟨hpinged, hprobe⟩ := hdue
  have hpinged : Beginning.pinged state.trail = none := by simpa using hpinged
  rw [h.probe hopen hpinged] at hprobe
  exact ⟨hpinged, hprobe⟩

/-- A ping that is written. -/
theorem ping (h : Tracked port gap beginning state) (hopen : state.link.hasSerial = true)
    (hfound : ¬Beginning.Lost state.trail) {now : Nat} (hnow : state.now ≤ now)
    (hgap : now ≤ state.now + gap) (hdue : state.health.dueAt now = true) (ping : Frame) :
    Tracked port gap beginning
      { state with
        health := state.health.beginAt now
        trail := .ping ping now none :: state.trail
        clock := now } := by
  obtain ⟨hpinged, hprobe⟩ := h.due hopen hdue
  have hfresh := h.fresh hopen hpinged
  have hallowed : beginning.Allowed state.trail (.ping ping now none) :=
    ⟨h.isOpen.mp hopen, hfound, hpinged, hprobe⟩
  refine h.entry hopen hallowed trivial rfl
    (fun hnone => nomatch hnone) (fun hnone => nomatch hnone) ?_ hnow
  intro time htime
  obtain rfl : now = time := Option.some.inj htime
  show now < beginning.lastSign state.trail + 1000 + gap
  omega

/-- A ping that could not be written. -/
theorem pingRefused (h : Tracked port gap beginning state) (hopen : state.link.hasSerial = true)
    (hfound : ¬Beginning.Lost state.trail) {now : Nat} (hdue : state.health.dueAt now = true)
    (ping : Frame) (error : String) :
    Tracked port gap beginning
      { state with trail := .ping ping now (some error) :: state.trail } := by
  obtain ⟨hpinged, hprobe⟩ := h.due hopen hdue
  have hallowed : beginning.Allowed state.trail (.ping ping now (some error)) :=
    ⟨h.isOpen.mp hopen, hfound, hpinged, hprobe⟩
  refine h.entry hopen hallowed trivial ?_
    (fun _ => h.probe hopen hpinged) (fun _ => h.fresh hopen hpinged) (fun _ hsome => nomatch hsome)
    h.now_le
  rw [h.pending hopen, hpinged]
  rfl

end Tracked

/-- At the time, an open port is neither due for a ping nor timed out, and one that is not open
is not due for a retry. -/
def Prompt (port : String) (beginning : Beginning) (state : SerialState) (now : Nat) : Prop :=
  (state.link.hasSerial = true →
    (Beginning.pinged state.trail = none → now < beginning.lastSign state.trail + 1000) ∧
    ∀ asked, Beginning.pinged state.trail = some asked → now < asked + 1000) ∧
  (state.link.hasSerial = false → port ≠ "none" → now < beginning.retryDue state.trail)

section

variable {port : String} {gap : Nat} {beginning : Beginning} {state : SerialState}

/-- A port that is opened again now needs nothing more at a time before. -/
theorem prompt_retry (hport : port ≠ "none") {reason : RetryReason} {opening : Opening}
    {now : Nat} (htime : now ≤ opening.ended) :
    Prompt port beginning (state.retrySerialConnection port reason opening) now := by
  obtain ⟨began, ended, outcome⟩ := opening
  simp only at htime
  cases outcome with
  | ok opened =>
      simp only [SerialState.retrySerialConnection, SerialState.replaceRuntime, if_neg hport]
      refine ⟨fun _ => ⟨fun _ => ?_, ?_⟩, ?_⟩
      · simp only [Beginning.lastSign]
        omega
      · intro asked hasked
        cases hasked
      · intro hclosed
        cases hclosed
  | error error =>
      have hpositive := serialRetry.initial_le_delay (Beginning.failures state.trail)
      have hinitial : serialRetry.initial = 100 := rfl
      simp only [SerialState.retrySerialConnection, SerialState.replaceRuntime, if_neg hport]
      refine ⟨?_, fun _ _ => ?_⟩
      · intro hopen
        cases hopen
      · simp only [Beginning.retryDue]
        omega

/-- The first case of a ping is that none is due, the second that it cannot be written, and the
last that it is. -/
theorem sendHealthPing_cases (now : Nat) (pingError : Option String) (state : SerialState) :
    (state.health.dueAt now = false ∧
        state.sendHealthPing now pingError = (.ok (), state)) ∨
      (state.health.dueAt now = true ∧ ∃ ping error, pingError = some error ∧
        state.sendHealthPing now pingError =
          (.error error, { state.nextSequence 1 with
            trail := .ping ping now (some error) :: state.trail })) ∨
      (state.health.dueAt now = true ∧ ∃ ping, pingError = none ∧
        state.sendHealthPing now pingError =
          (.ok (), { state.nextSequence 1 with
            health := state.health.beginAt now
            trail := .ping ping now none :: state.trail
            clock := now })) := by
  unfold SerialState.sendHealthPing
  cases hdue : state.health.dueAt now with
  | false => exact Or.inl ⟨rfl, rfl⟩
  | true =>
      cases pingError with
      | some error => exact Or.inr (Or.inl ⟨rfl, _, error, rfl, rfl⟩)
      | none => exact Or.inr (Or.inr ⟨rfl, _, rfl, rfl⟩)

/-- Opening the port again attends to every loss. -/
theorem attended_retry {reason : RetryReason} {opening : Opening} :
    Beginning.Attended (state.retrySerialConnection port reason opening).trail := by
  rw [SerialState.retrySerialConnection_trail]
  exact ⟨id, id⟩

/-- The events of a round, with the port opened again. -/
theorem serveEvents_spec (hport : port ≠ "none") (h : Tracked port gap beginning state)
    (hattended : Beginning.Attended state.trail) {input : RoundInput}
    (hsorted : (state.clock :: input.events.map (·.time)).Pairwise (· ≤ ·))
    (hclock : state.clock ≤ input.deviceEvent.ended)
    (hevents : ∀ event ∈ input.events, event.time ≤ input.deviceEvent.ended) :
    Tracked port gap beginning (state.serveEvents port input) ∧
      (state.serveEvents port input).now = state.now ∧
      (state.serveEvents port input).clock ≤ input.deviceEvent.ended ∧
      Beginning.Attended (state.serveEvents port input).trail := by
  unfold SerialState.serveEvents
  cases hopen : state.link.hasSerial with
  | false => exact ⟨h, rfl, hclock, hattended⟩
  | true =>
      obtain ⟨taken, -, htrail⟩ := SerialState.trail_takeEvents input.events none state
      obtain ⟨htaken, -, hnow, hlast, hlost⟩ :=
        h.takeEvents input.events none hopen (iff_of_false (by simp) hattended.1) hsorted hclock
          hevents
      simp only [if_true]
      split
      next hsome =>
        rw [hsome] at hlost
        refine ⟨htaken.retry hport hlast (hlost.mp rfl), ?_, ?_, attended_retry⟩
        · rw [SerialState.retrySerialConnection_now, hnow]
        · rw [SerialState.retrySerialConnection_clock]
      next hnone =>
        rw [hnone] at hlost
        refine ⟨htaken, hnow, hlast, ⟨fun hmem => absurd (hlost.mpr hmem) (by decide), ?_⟩⟩
        rw [htrail]
        cases taken with
        | nil => exact hattended.2
        | cons => exact id

/-- The port is tried when it is due, and else it is not due at the time of the round. -/
theorem retryUnavailable_spec (hport : port ≠ "none") (h : Tracked port gap beginning state)
    (hattended : Beginning.Attended state.trail) {input : RoundInput}
    (hclock : state.clock ≤ input.now)
    (htime : input.now ≤ input.portUnavailable.began)
    (hreopening : input.portUnavailable.began ≤ input.portUnavailable.ended) :
    Tracked port gap beginning (state.retryUnavailable port input) ∧
      (state.retryUnavailable port input).now = state.now ∧
      (state.retryUnavailable port input).clock ≤ input.portUnavailable.ended ∧
      Beginning.Attended (state.retryUnavailable port input).trail ∧
      ((state.retryUnavailable port input).link.hasSerial = false →
        Prompt port beginning (state.retryUnavailable port input) input.now) := by
  unfold SerialState.retryUnavailable
  split
  next hdue =>
    simp only [Bool.and_eq_true, Bool.not_eq_true', decide_eq_true_eq] at hdue
    obtain ⟨⟨hclosed, -⟩, hdue⟩ := hdue
    have hretryAt := h.retryAt
    rw [if_neg (by simp [hclosed, hport])] at hretryAt
    rw [hretryAt, Option.any_some, decide_eq_true_eq] at hdue
    have hnot : ¬beginning.IsOpen state.trail := by
      rw [← h.isOpen, hclosed]
      decide
    have hlater := htime.trans hreopening
    refine ⟨h.retry hport (hclock.trans hlater) ⟨hnot, hdue.trans htime⟩,
      SerialState.retrySerialConnection_now, ?_, attended_retry,
      fun _ => prompt_retry hport hlater⟩
    rw [SerialState.retrySerialConnection_clock]
  next hdue =>
    refine ⟨h, rfl, hclock.trans (htime.trans hreopening), hattended,
      fun hclosed => ⟨fun hopen => ?_, fun _ _ => ?_⟩⟩
    · rw [hclosed] at hopen
      cases hopen
    · have hretryAt := h.retryAt
      rw [if_neg (by simp [hclosed, hport])] at hretryAt
      simpa [hclosed, hport, hretryAt] using hdue

theorem checkOpen_spec (hport : port ≠ "none") (h : Tracked port gap beginning state)
    (hattended : Beginning.Attended state.trail) (hopen : state.link.hasSerial = true)
    {input : RoundInput} (hnow : state.now ≤ input.now) (hgap : input.now ≤ state.now + gap)
    (hclock : state.clock ≤ input.health.ended) (htime : input.now ≤ input.health.began)
    (hchecking : input.health.began ≤ input.health.ended) :
    Tracked port gap beginning (state.checkHealth port input) ∧
      Prompt port beginning (state.checkHealth port input) input.now ∧
      Beginning.Attended (state.checkHealth port input).trail := by
  rw [SerialState.checkHealth, if_pos hopen]
  cases htimed : state.health.timedOutAt input.now with
  | true =>
      rw [HealthCheck.timedOutAt, h.pending hopen, Option.any_map, Option.any_eq_true] at htimed
      obtain ⟨asked, hasked, hdeadline⟩ := htimed
      have hallowed : beginning.Allowed state.trail (.retry .healthTimeout input.health) :=
        ⟨hattended.1, asked, hasked, (of_decide_eq_true hdeadline).trans htime⟩
      exact ⟨h.retry hport hclock hallowed, prompt_retry hport (htime.trans hchecking),
        attended_retry⟩
  | false =>
      rw [HealthCheck.timedOutAt, h.pending hopen] at htimed
      simp only [Bool.false_eq_true, if_false]
      obtain ⟨hdue, hsent⟩ | ⟨hdue, ping, error, -, hsent⟩ | ⟨hdue, ping, -, hsent⟩ :=
        sendHealthPing_cases input.now input.pingError state
      · rw [hsent]
        refine ⟨h, ⟨fun _ => ⟨fun hpinged => ?_, fun asked hasked => ?_⟩, fun hclosed => ?_⟩,
          hattended⟩
        · rw [HealthCheck.dueAt, h.pending hopen, hpinged, h.probe hopen hpinged] at hdue
          simpa using hdue
        · rw [hasked] at htimed
          simpa using htimed
        · rw [hopen] at hclosed
          cases hclosed
      · rw [hsent]
        exact ⟨((h.nextSequence 1).pingRefused hopen hattended.1 hdue ping error).retry hport
          hclock rfl, prompt_retry hport (htime.trans hchecking), attended_retry⟩
      · rw [hsent]
        refine ⟨(h.nextSequence 1).ping hopen hattended.1 hnow hgap hdue ping,
          ⟨fun _ => ⟨?_, fun asked hasked => ?_⟩, fun hclosed => ?_⟩, id, fun h => by cases h⟩
        · intro hpinged
          cases hpinged
        · obtain rfl : input.now = asked := by simpa [Beginning.pinged] using hasked
          omega
        · have hstill : state.link.hasSerial = false := hclosed
          rw [hopen] at hstill
          cases hstill

theorem checkHealth_spec (hport : port ≠ "none") (h : Tracked port gap beginning state)
    (hattended : Beginning.Attended state.trail) {input : RoundInput}
    (hnow : state.now ≤ input.now) (hgap : input.now ≤ state.now + gap)
    (hclock : state.clock ≤ input.health.ended) (htime : input.now ≤ input.health.began)
    (hchecking : input.health.began ≤ input.health.ended)
    (hprompt : state.link.hasSerial = false → Prompt port beginning state input.now) :
    Tracked port gap beginning (state.checkHealth port input) ∧
      Prompt port beginning (state.checkHealth port input) input.now ∧
      Beginning.Attended (state.checkHealth port input).trail := by
  cases hopen : state.link.hasSerial with
  | false =>
      simp only [SerialState.checkHealth, hopen, Bool.false_eq_true, if_false]
      exact ⟨h, hprompt hopen, hattended⟩
  | true => exact checkOpen_spec hport h hattended hopen hnow hgap hclock htime hchecking

/-- The times of a round in their order. -/
theorem timely_order {input : RoundInput} (h : SerialState.Timely gap state input) :
    (state.clock :: input.events.map (·.time)).Pairwise (· ≤ ·) ∧
      (∀ time ∈ state.clock :: input.events.map (·.time), time ≤ input.deviceEvent.ended) ∧
      input.deviceEvent.ended ≤ input.now ∧ input.now ≤ input.portUnavailable.began ∧
      input.portUnavailable.began ≤ input.portUnavailable.ended ∧
      input.portUnavailable.ended ≤ input.health.began ∧
      input.health.began ≤ input.health.ended := by
  obtain ⟨hevents, hlater, hcross⟩ := List.pairwise_append.mp h.1
  simp only [List.pairwise_cons, List.mem_cons, List.not_mem_nil, or_false, forall_eq_or_imp,
    forall_eq] at hlater
  obtain ⟨⟨hopening, -⟩, ⟨hround, -⟩, ⟨hunavailable, -⟩, ⟨hreopening, -⟩, ⟨hhealth, -⟩, hchecking,
    -⟩ := hlater
  exact ⟨hevents,
    fun time htime => (hcross time htime _ (List.mem_cons_self ..)).trans hopening, hround,
    hunavailable, hreopening, hhealth, hchecking⟩

/-- A round ends at its time, when nothing is due any more. -/
theorem Tracked.finish (h : Tracked port gap beginning state) {now clock : Nat}
    (hprompt : Prompt port beginning state now) (hclock : now ≤ clock) :
    Tracked port gap beginning { state with now := now, clock := clock } where
  lawful := h.lawful
  isOpen := h.isOpen
  named := h.named
  retryAt := h.retryAt
  retryDelay := h.retryDelay
  pending := h.pending
  probe := h.probe
  fresh := fun hopen => (hprompt.1 hopen).1
  asked := h.asked
  now_le := hclock

theorem round_spec {input : RoundInput} (h : Tracked port gap beginning state)
    (hattended : Beginning.Attended state.trail) (htimely : SerialState.Timely gap state input) :
    Tracked port gap beginning (SerialState.round port state input) ∧
      Prompt port beginning (SerialState.round port state input) input.now ∧
      Beginning.Attended (SerialState.round port state input).trail := by
  obtain ⟨hevents, hdevice, hround, hunavailable, hreopening, hhealth, hchecking⟩ :=
    timely_order htimely
  have hnow : input.now ≤ input.health.began := by omega
  have hsequenced := h.nextSequence input.sent
  by_cases hport : port = "none"
  · have hclosed : state.link.hasSerial = false := (h.named hport).1
    have hkept : (((state.nextSequence input.sent).serveEvents port input).retryUnavailable
        port input).checkHealth port input = state.nextSequence input.sent := by
      simp [SerialState.serveEvents, SerialState.retryUnavailable, SerialState.checkHealth,
        SerialState.nextSequence, hclosed, hport]
    have hprompt : Prompt port beginning (state.nextSequence input.sent) input.now := by
      refine ⟨fun hopen => ?_, fun _ hnot => absurd hport hnot⟩
      rw [(hsequenced.named hport).1] at hopen
      cases hopen
    rw [SerialState.round]
    simp only [hkept]
    exact ⟨hsequenced.finish hprompt (hnow.trans hchecking), hprompt, hattended⟩
  · have hclock := hdevice _ (List.mem_cons_self ..)
    have htaken : ∀ event ∈ input.events, event.time ≤ input.deviceEvent.ended :=
      fun event hevent => hdevice _ (List.mem_cons_of_mem _ (List.mem_map_of_mem hevent))
    obtain ⟨hserved, hservedNow, hservedClock, hfound⟩ :=
      serveEvents_spec hport hsequenced hattended hevents hclock htaken
    obtain ⟨hretried, hretriedNow, hretriedClock, hstill, hclosed⟩ := retryUnavailable_spec hport
      hserved hfound (hservedClock.trans hround) hunavailable hreopening
    have hlast : state.now ≤ input.now := h.now_le.trans (hclock.trans hround)
    have hkept := hretriedNow.trans hservedNow
    obtain ⟨hchecked, hprompt, hafter⟩ := checkHealth_spec hport hretried hstill (hkept ▸ hlast)
      (hkept ▸ htimely.2) (hretriedClock.trans (hhealth.trans hchecking)) hnow hchecking hclosed
    exact ⟨hchecked.finish hprompt (hnow.trans hchecking), hprompt, hafter⟩

/-! ## What the trail says of the rounds -/

theorem met_serveEvents {input : RoundInput} {happening : Happening}
    (h : happening ∈ (state.serveEvents port input).trail) :
    happening ∈ state.trail ∨ happening.Met input := by
  have htaken (hmem : happening ∈ (SerialState.takeEvents input.events none state).2.trail) :
      happening ∈ state.trail ∨ happening.Met input := by
    obtain ⟨taken, hevents, htrail⟩ := SerialState.trail_takeEvents input.events none state
    rw [htrail] at hmem
    rcases List.mem_append.mp hmem with hnew | hold
    · obtain ⟨event, hevent, rfl⟩ := List.mem_map.mp hnew
      exact Or.inr (hevents event hevent)
    · exact Or.inl hold
  unfold SerialState.serveEvents at h
  cases hopen : state.link.hasSerial with
  | false =>
      simp only [hopen, Bool.false_eq_true, if_false] at h
      exact Or.inl h
  | true =>
      simp only [hopen, if_true] at h
      split at h
      · rw [SerialState.retrySerialConnection_trail] at h
        rcases List.mem_cons.mp h with rfl | hmem
        · exact Or.inr rfl
        · exact htaken hmem
      · exact htaken h

theorem met_retryUnavailable {input : RoundInput} {happening : Happening}
    (h : happening ∈ (state.retryUnavailable port input).trail) :
    happening ∈ state.trail ∨ happening.Met input := by
  unfold SerialState.retryUnavailable at h
  split at h
  · rw [SerialState.retrySerialConnection_trail] at h
    exact (List.mem_cons.mp h).symm.imp_right (by rintro rfl; rfl)
  · exact Or.inl h

theorem met_checkHealth {input : RoundInput} {happening : Happening}
    (h : happening ∈ (state.checkHealth port input).trail) :
    happening ∈ state.trail ∨ happening.Met input := by
  unfold SerialState.checkHealth at h
  split at h
  · split at h
    · rw [SerialState.retrySerialConnection_trail] at h
      exact (List.mem_cons.mp h).symm.imp_right (by rintro rfl; rfl)
    · obtain ⟨-, hsent⟩ | ⟨-, ping, error, herror, hsent⟩ | ⟨-, ping, herror, hsent⟩ :=
        sendHealthPing_cases input.now input.pingError state
      · rw [hsent] at h
        exact Or.inl h
      · rw [hsent] at h
        simp only [SerialState.retrySerialConnection_trail] at h
        rcases List.mem_cons.mp h with rfl | hmem
        · exact Or.inr rfl
        · rcases List.mem_cons.mp hmem with rfl | hold
          · exact Or.inr ⟨rfl, herror.symm⟩
          · exact Or.inl hold
      · rw [hsent] at h
        rcases List.mem_cons.mp h with rfl | hold
        · exact Or.inr ⟨rfl, herror.symm⟩
        · exact Or.inl hold
  · exact Or.inl h

/-- A round notes only what it has met. -/
theorem met_round {input : RoundInput} {happening : Happening}
    (h : happening ∈ (SerialState.round port state input).trail) :
    happening ∈ state.trail ∨ happening.Met input := by
  rcases met_checkHealth h with hretried | hmet
  · rcases met_retryUnavailable hretried with hserved | hmet
    · exact @met_serveEvents port (state.nextSequence input.sent) input happening hserved
    · exact Or.inr hmet
  · exact Or.inr hmet

theorem met_runFrom {inputs : List RoundInput} {happening : Happening}
    (h : happening ∈ (runFrom (SerialState.round port) inputs state).trail) :
    happening ∈ state.trail ∨ ∃ input ∈ inputs, happening.Met input := by
  induction inputs generalizing state with
  | nil => exact Or.inl h
  | cons input inputs ih =>
      rcases ih h with hround | ⟨later, hlater, hmet⟩
      · exact (met_round hround).imp_right fun hmet => ⟨input, List.mem_cons_self, hmet⟩
      · exact Or.inr ⟨later, List.mem_cons_of_mem _ hlater, hmet⟩

end

/-- A round in which nothing comes from the port. -/
def sampleRound (now : Nat) (events : List TakenEvent) (outcome : Except String OpenedPort) :
    RoundInput where
  sent := 0
  events := events
  deviceEvent := ⟨now, now, outcome⟩
  now := now
  portUnavailable := ⟨now, now + 20, outcome⟩
  pingError := none
  health := ⟨now + 20, now + 40, outcome⟩

/-- The board stops to answer, cannot be opened at first, is there again, and is pulled out. -/
def sampleRounds : List RoundInput :=
  [sampleRound 500 [] (.error "busy"), sampleRound 1200 [] (.error "busy"),
    sampleRound 2300 [] (.error "busy"), sampleRound 2400 [] (.error "busy"),
    sampleRound 2500 [] (.ok ⟨"1.2", "COM7", 2⟩),
    sampleRound 3500 [⟨.frame ⟨.status, 9, []⟩, 3400, none⟩] (.error "busy"),
    sampleRound 3600 [⟨.disconnected "gone", 3600, none⟩] (.ok ⟨"1.2", "COM7", 2⟩)]

end Daemon
end MicroEmu
