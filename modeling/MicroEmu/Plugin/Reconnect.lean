import MicroEmu.Library.Runs
import MicroEmu.Plugin.Waiters

/-!
# A client that comes back

A client that was started is always on its way to a connection: it has one, or a timer runs for
the one it makes, or a socket that it has given up is about to close, or the timer of the next
attempt runs.  No other socket of it is open.
-/

namespace MicroEmu
namespace Plugin

open Json (Value)
open Library (Along runFrom handleLines handleLines_invariant)

namespace DaemonClient

variable (parse : String → Option Value)

/-! ## What waits to happen -/

/-- An event that comes sooner or later unless another one is faster: the daemon accepts a
connection, a socket that was given up closes, or the timer of the next attempt fires. -/
def Due (client : DaemonClient) : ClientEvent → Prop
  | .connects socket => client.phase socket = .connecting
  | .closes socket => client.phase socket = .destroyed
  | .reconnectTimer => client.reconnectTimer = true
  | _ => False

/-- The client has a connection that the heartbeat watches. -/
def Online (client : DaemonClient) : Prop :=
  ∃ socket, client.socket = some socket ∧ client.phase socket = .connected ∧
    client.connected = true ∧ client.heartbeatTimer = some socket

/-- Where the client stands with its socket. -/
inductive Standing (client : DaemonClient) (socket : Nat) : Prop where
  | connecting (hphase : client.phase socket = .connecting) (hconnecting : client.connecting = true)
      (hconnected : client.connected = false) (htimer : client.connectTimer = some socket)
  | connected (hphase : client.phase socket = .connected) (hconnecting : client.connecting = false)
      (hconnected : client.connected = true) (htimer : client.heartbeatTimer = some socket)
  | destroyed (hphase : client.phase socket = .destroyed)
      (hbusy : client.connecting = !client.connected)

theorem Standing.busy {client : DaemonClient} {socket : Nat} (h : client.Standing socket) :
    client.connecting = !client.connected := by
  cases h with
  | connecting _ hconnecting hconnected => rw [hconnecting, hconnected, Bool.not_false]
  | connected _ hconnecting hconnected => rw [hconnecting, hconnected, Bool.not_true]
  | destroyed _ hbusy => exact hbusy

theorem Standing.not_closed {client : DaemonClient} {socket : Nat} (h : client.Standing socket) :
    client.phase socket ≠ .closed := by
  cases h with
  | connecting hphase => simp [hphase]
  | connected hphase => simp [hphase]
  | destroyed hphase => simp [hphase]

/-- No timer runs and no connection is made or held. -/
structure Quiet (client : DaemonClient) : Prop where
  connectTimer : client.connectTimer = none
  heartbeatTimer : client.heartbeatTimer = none
  connecting : client.connecting = false
  connected : client.connected = false

/-- What every event leaves true of a client. -/
structure Attached (client : DaemonClient) : Prop where
  unmade : ∀ {socket}, client.sockets ≤ socket → client.phase socket = .closed
  live : ∀ {socket}, client.phase socket = .connecting ∨ client.phase socket = .connected →
    client.socket = some socket
  stopped : client.stopped = true →
    client.socket = none ∧ client.reconnectTimer = false ∧ client.Quiet
  waiting : client.stopped = false → client.socket = none →
    client.reconnectTimer = true ∧ client.Quiet
  standing : ∀ {socket}, client.socket = some socket →
    client.reconnectTimer = false ∧ client.Standing socket

namespace Attached

variable {client : DaemonClient}

theorem new : Attached .new where
  unmade _ := rfl
  live hlive := by simp [DaemonClient.new] at hlive
  stopped _ := ⟨rfl, rfl, rfl, rfl, rfl, rfl⟩
  waiting hstopped := by cases hstopped
  standing hsocket := by cases hsocket

/-- A connection that is made when no socket is open. -/
theorem connect (hunmade : ∀ {socket}, client.sockets ≤ socket → client.phase socket = .closed)
    (hlive : ∀ socket, client.phase socket ≠ .connecting ∧ client.phase socket ≠ .connected)
    (hstopped : client.stopped = false) (hquiet : client.Quiet)
    (htimer : client.reconnectTimer = false) : Attached client.connect := by
  have hfree : ¬(client.stopped || client.connecting || client.connected) = true := by
    simp [hstopped, hquiet.connecting, hquiet.connected]
  rw [DaemonClient.connect, if_neg hfree]
  constructor
  · intro socket hle
    have hlt : client.sockets < socket := hle
    simpa [Function.update_of_ne (Nat.ne_of_gt hlt)] using hunmade (Nat.le_of_lt hlt)
  · intro socket hopen
    by_cases hsocket : socket = client.sockets
    · rw [hsocket]
    · simp only [Function.update_of_ne hsocket] at hopen
      exact absurd hopen (not_or.mpr (hlive socket))
  · intro hnow
    simp [hstopped] at hnow
  · intro _ hnone
    cases hnone
  · rintro socket ⟨⟩
    exact ⟨htimer, .connecting (by simp) rfl hquiet.connected rfl⟩

/-- Without a socket none is open. -/
theorem closed (h : Attached client) (hsocket : client.socket = none) (socket : Nat) :
    client.phase socket ≠ .connecting ∧ client.phase socket ≠ .connected := by
  rw [← not_or]
  intro hlive
  have hcurrent := h.live hlive
  rw [hsocket] at hcurrent
  cases hcurrent

end Attached

/-! ## What gives up a socket -/

/-- At most some sockets have been destroyed. -/
structure Severed (client after : DaemonClient) : Prop where
  socket : after.socket = client.socket
  reconnectTimer : after.reconnectTimer = client.reconnectTimer
  connectTimer : after.connectTimer = client.connectTimer
  heartbeatTimer : after.heartbeatTimer = client.heartbeatTimer
  connected : after.connected = client.connected
  connecting : after.connecting = client.connecting
  stopped : after.stopped = client.stopped
  sockets : after.sockets = client.sockets
  phase : ∀ socket, after.phase socket = client.phase socket ∨
    client.phase socket ≠ .closed ∧ after.phase socket = .destroyed

namespace Severed

theorem refl (client : DaemonClient) : Severed client client :=
  ⟨rfl, rfl, rfl, rfl, rfl, rfl, rfl, rfl, fun _ => .inl rfl⟩

theorem trans {client middle after : DaemonClient} (h : Severed client middle)
    (hafter : Severed middle after) : Severed client after where
  socket := hafter.socket.trans h.socket
  reconnectTimer := hafter.reconnectTimer.trans h.reconnectTimer
  connectTimer := hafter.connectTimer.trans h.connectTimer
  heartbeatTimer := hafter.heartbeatTimer.trans h.heartbeatTimer
  connected := hafter.connected.trans h.connected
  connecting := hafter.connecting.trans h.connecting
  stopped := hafter.stopped.trans h.stopped
  sockets := hafter.sockets.trans h.sockets
  phase socket := by
    rcases h.phase socket with hsame | ⟨hopen, hdestroyed⟩
    · rw [← hsame]
      exact hafter.phase socket
    · refine .inr ⟨hopen, ?_⟩
      rcases hafter.phase socket with hsame | ⟨-, hagain⟩
      · rw [hsame, hdestroyed]
      · exact hagain

theorem destroy (client : DaemonClient) (socket : Nat) :
    Severed client (client.destroy socket) := by
  refine ⟨rfl, rfl, rfl, rfl, rfl, rfl, rfl, rfl, fun other => ?_⟩
  by_cases hother : other = socket
  · subst hother
    by_cases hclosed : client.phase other = .closed <;> simp [DaemonClient.destroy, hclosed]
  · exact .inl (by simp [DaemonClient.destroy, Function.update_of_ne hother])

theorem requestZcodeNewTask (client : DaemonClient) :
    Severed client client.requestZcodeNewTask := by
  unfold DaemonClient.requestZcodeNewTask
  split
  · exact ⟨rfl, rfl, rfl, rfl, rfl, rfl, rfl, rfl, fun _ => .inl rfl⟩
  · unfold DaemonClient.send
    dsimp only
    split
    · split <;> exact ⟨rfl, rfl, rfl, rfl, rfl, rfl, rfl, rfl, fun _ => .inl rfl⟩
    · exact ⟨rfl, rfl, rfl, rfl, rfl, rfl, rfl, rfl, fun _ => .inl rfl⟩

theorem handleText (client : DaemonClient) (socket : Nat) (line : List Char) :
    Severed client (client.handleText parse socket line) := by
  unfold DaemonClient.handleText DaemonClient.handleLine DaemonClient.handleMessage
  split
  · exact refl client
  · split
    · exact refl client
    · exact ⟨rfl, rfl, rfl, rfl, rfl, rfl, rfl, rfl, fun _ => .inl rfl⟩
    · dsimp only
      split
      · split
        · exact destroy client _
        · exact refl client
      · split
        · unfold DaemonClient.shiftWaiter
          split <;> exact ⟨rfl, rfl, rfl, rfl, rfl, rfl, rfl, rfl, fun _ => .inl rfl⟩
        · exact refl client

theorem handleBuffer (client : DaemonClient) (socket : Nat) (buffer : List Char) :
    Severed client (client.handleBuffer parse socket buffer) := by
  have hlines : Severed client (handleLines isNewline
      (fun client line => client.handleText parse socket line) DaemonClient.crashed client
      buffer).1 :=
    handleLines_invariant (Severed client)
      (fun {_} line h => h.trans (handleText parse _ socket line)) (refl client) buffer
  exact { hlines with }

theorem quiet {client after : DaemonClient} (h : Severed client after) (hquiet : client.Quiet) :
    after.Quiet where
  connectTimer := h.connectTimer.trans hquiet.connectTimer
  heartbeatTimer := h.heartbeatTimer.trans hquiet.heartbeatTimer
  connecting := h.connecting.trans hquiet.connecting
  connected := h.connected.trans hquiet.connected

end Severed

variable {parse}

/-- A client stays attached whatever becomes of its sockets. -/
theorem Attached.severed {client after : DaemonClient} (h : Attached client)
    (hsevered : Severed client after) : Attached after where
  unmade hle := by
    rw [hsevered.sockets] at hle
    rcases hsevered.phase _ with hsame | ⟨hopen, -⟩
    · rw [hsame]
      exact h.unmade hle
    · exact absurd (h.unmade hle) hopen
  live := by
    intro socket hlive
    rw [hsevered.socket]
    rcases hsevered.phase socket with hsame | ⟨-, hdestroyed⟩
    · exact h.live (hsame ▸ hlive)
    · simp [hdestroyed] at hlive
  stopped hstopped := by
    rw [hsevered.stopped] at hstopped
    obtain ⟨hsocket, htimer, hquiet⟩ := h.stopped hstopped
    exact ⟨hsevered.socket.trans hsocket, hsevered.reconnectTimer.trans htimer,
      hsevered.quiet hquiet⟩
  waiting hstopped hsocket := by
    rw [hsevered.stopped] at hstopped
    rw [hsevered.socket] at hsocket
    obtain ⟨htimer, hquiet⟩ := h.waiting hstopped hsocket
    exact ⟨hsevered.reconnectTimer.trans htimer, hsevered.quiet hquiet⟩
  standing := by
    intro socket hsocket
    rw [hsevered.socket] at hsocket
    obtain ⟨htimer, hstanding⟩ := h.standing hsocket
    refine ⟨hsevered.reconnectTimer.trans htimer, ?_⟩
    rcases hsevered.phase socket with hsame | ⟨-, hdestroyed⟩
    · cases hstanding with
      | connecting hphase hconnecting hconnected hcurrent =>
          exact .connecting (hsame.trans hphase) (hsevered.connecting.trans hconnecting)
            (hsevered.connected.trans hconnected) (hsevered.connectTimer.trans hcurrent)
      | connected hphase hconnecting hconnected hcurrent =>
          exact .connected (hsame.trans hphase) (hsevered.connecting.trans hconnecting)
            (hsevered.connected.trans hconnected) (hsevered.heartbeatTimer.trans hcurrent)
      | destroyed hphase hbusy =>
          refine .destroyed (hsame.trans hphase) ?_
          rw [hsevered.connecting, hsevered.connected, hbusy]
    · refine .destroyed hdestroyed ?_
      rw [hsevered.connecting, hsevered.connected, hstanding.busy]

namespace Attached

variable {client : DaemonClient}

theorem not_stopped (h : Attached client) {socket : Nat} (hsocket : client.socket = some socket) :
    client.stopped = false := by
  by_contra hstopped
  have hnone := (h.stopped (by simpa using hstopped)).1
  rw [hsocket] at hnone
  cases hnone

/-- The socket is given up, whatever becomes of the timers: its "close" event comes. -/
theorem giveUp (h : Attached client) {socket : Nat} (hsocket : client.socket = some socket)
    (connectTimer heartbeatTimer : Option Nat) :
    Attached (({ client with
      reconnectTimer := false
      connectTimer := connectTimer
      heartbeatTimer := heartbeatTimer } : DaemonClient).destroy socket) := by
  have hstanding := (h.standing hsocket).2
  have hsevered := Severed.destroy client socket
  constructor
  · intro other hle
    rcases hsevered.phase other with hsame | ⟨hopen, -⟩
    · exact hsame.trans (h.unmade hle)
    · exact absurd (h.unmade hle) hopen
  · intro other hlive
    rcases hsevered.phase other with hsame | ⟨-, hdestroyed⟩
    · exact h.live (hsame ▸ hlive)
    · have hphase : (client.destroy socket).phase other = .connecting ∨
          (client.destroy socket).phase other = .connected := hlive
      simp [hdestroyed] at hphase
  · intro hstopped
    have hgoes := h.not_stopped hsocket
    exact absurd hgoes (by simpa [DaemonClient.destroy] using hstopped)
  · intro _ hnone
    have hnone : client.socket = none := hnone
    rw [hsocket] at hnone
    cases hnone
  · intro other hother
    have hother : client.socket = some other := hother
    obtain rfl : socket = other := by simpa [hsocket] using hother
    refine ⟨rfl, .destroyed ?_ hstanding.busy⟩
    simp [DaemonClient.destroy, hstanding.not_closed]

theorem start (h : Attached client) : Attached client.start := by
  unfold DaemonClient.start
  split
  next hstopped =>
    obtain ⟨hsocket, htimer, hquiet⟩ := h.stopped hstopped
    exact connect h.unmade (h.closed hsocket) rfl { hquiet with } htimer
  next => exact h

theorem reconnect (h : Attached client) : Attached client.reconnect := by
  unfold DaemonClient.reconnect
  split
  next => exact h
  next hgoes =>
    have hgoes : client.stopped = false := by simpa using hgoes
    dsimp only
    split
    next socket hsocket => exact h.giveUp hsocket none none
    next hsocket => exact connect h.unmade (h.closed hsocket) hgoes ⟨rfl, rfl, rfl, rfl⟩ rfl

/-- A client that has left its socket, with the timer of the next attempt unless it is
stopped. -/
theorem leave (hunmade : ∀ {socket}, client.sockets ≤ socket → client.phase socket = .closed)
    (hclosed : ∀ socket, client.phase socket ≠ .connecting ∧ client.phase socket ≠ .connected)
    (hsocket : client.socket = none) (hquiet : client.Quiet)
    (htimer : client.reconnectTimer = !client.stopped) : Attached client where
  unmade := hunmade
  live hlive := absurd hlive (not_or.mpr (hclosed _))
  stopped hstopped := ⟨hsocket, by rw [htimer, hstopped, Bool.not_true], hquiet⟩
  waiting hgoes _ := ⟨by rw [htimer, hgoes, Bool.not_false], hquiet⟩
  standing hcurrent := by
    rw [hsocket] at hcurrent
    cases hcurrent

/-- No socket is open but the current one. -/
theorem others_closed (h : Attached client) {socket other : Nat}
    (hsocket : client.socket = some socket) (hother : other ≠ socket) :
    client.phase other ≠ .connecting ∧ client.phase other ≠ .connected := by
  rw [← not_or]
  intro hlive
  have hcurrent := h.live hlive
  rw [hsocket] at hcurrent
  exact hother (Option.some.inj hcurrent).symm

theorem stop (h : Attached client) : Attached client.stop := by
  unfold DaemonClient.stop
  cases hsocket : client.socket with
  | none => exact leave h.unmade (h.closed hsocket) hsocket ⟨rfl, rfl, rfl, rfl⟩ rfl
  | some socket =>
      have hsevered := Severed.destroy client socket
      refine leave ?_ ?_ rfl ⟨rfl, rfl, rfl, rfl⟩ rfl
      · intro other hle
        rcases hsevered.phase other with hsame | ⟨hopen, -⟩
        · exact hsame.trans (h.unmade hle)
        · exact absurd (h.unmade hle) hopen
      · intro other
        show (client.destroy socket).phase other ≠ .connecting ∧
          (client.destroy socket).phase other ≠ .connected
        by_cases hother : other = socket
        · subst hother
          simp [DaemonClient.destroy, (h.standing hsocket).2.not_closed]
        · simpa [DaemonClient.destroy, Function.update_of_ne hother] using
            h.others_closed hsocket hother

theorem onConnect (h : Attached client) {socket : Nat}
    (hphase : client.phase socket = .connecting) :
    Attached (client.onConnect socket) := by
  have hsocket := h.live (.inl hphase)
  have hgoes := h.not_stopped hsocket
  obtain ⟨htimer, hstanding⟩ := h.standing hsocket
  have hwired : ¬(client.stopped || client.socket != some socket) = true := by
    simp [hgoes, hsocket]
  rw [DaemonClient.onConnect]
  dsimp only
  rw [if_neg hwired]
  constructor
  · intro other hle
    have hne : other ≠ socket := by
      rintro rfl
      have hclosed := h.unmade hle
      rw [hphase] at hclosed
      cases hclosed
    simpa [Function.update_of_ne hne] using h.unmade hle
  · intro other hlive
    by_cases hother : other = socket
    · rw [hother]
      exact hsocket
    · simp only [Function.update_of_ne hother] at hlive
      exact h.live hlive
  · intro hstopped
    rw [hgoes] at hstopped
    cases hstopped
  · intro _ hnone
    rw [hsocket] at hnone
    cases hnone
  · intro other hother
    obtain rfl : socket = other := by simpa [hsocket] using hother
    exact ⟨htimer, .connected (by simp) rfl rfl rfl⟩

theorem onClose (h : Attached client) {socket : Nat} (hphase : client.phase socket = .destroyed) :
    Attached (client.onClose socket) := by
  have hunmade : ∀ {other}, client.sockets ≤ other →
      Function.update client.phase socket .closed other = .closed := by
    intro other hle
    by_cases hother : other = socket
    · simp [hother]
    · rw [Function.update_of_ne hother]
      exact h.unmade hle
  unfold DaemonClient.onClose
  dsimp only
  split
  next hsocket =>
    have hgoes := h.not_stopped hsocket
    have htimer := (h.standing hsocket).1
    unfold DaemonClient.scheduleReconnect
    rw [if_neg (by simp [DaemonClient.failNewTaskWaiters, hgoes, htimer])]
    refine leave hunmade (fun other => ?_) rfl ⟨rfl, rfl, rfl, rfl⟩ ?_
    · show Function.update client.phase socket .closed other ≠ .connecting ∧
        Function.update client.phase socket .closed other ≠ .connected
      by_cases hother : other = socket
      · simp [hother]
      · rw [Function.update_of_ne hother]
        exact h.others_closed hsocket hother
    · show true = !client.stopped
      rw [hgoes, Bool.not_false]
  next hsocket =>
    have hkept : ∀ {other}, client.socket = some other →
        Function.update client.phase socket .closed other = client.phase other := by
      intro other hother
      refine Function.update_of_ne ?_ _ _
      rintro rfl
      exact hsocket hother
    refine ⟨hunmade, ?_, fun hstopped => ?_, fun hgoes hnone => ?_, ?_⟩
    · intro other hlive
      by_cases hother : other = socket
      · simp [hother] at hlive
      · simp only [Function.update_of_ne hother] at hlive
        exact h.live hlive
    · obtain ⟨hnone, htimer, hquiet⟩ := h.stopped hstopped
      exact ⟨hnone, htimer, { hquiet with }⟩
    · obtain ⟨htimer, hquiet⟩ := h.waiting hgoes hnone
      exact ⟨htimer, { hquiet with }⟩
    · intro other hother
      obtain ⟨htimer, hstanding⟩ := h.standing hother
      refine ⟨htimer, ?_⟩
      have hsame := hkept hother
      cases hstanding with
      | connecting hphase hconnecting hconnected hcurrent =>
          exact .connecting (hsame.trans hphase) hconnecting hconnected hcurrent
      | connected hphase hconnecting hconnected hcurrent =>
          exact .connected (hsame.trans hphase) hconnecting hconnected hcurrent
      | destroyed hphase hbusy => exact .destroyed (hsame.trans hphase) hbusy

theorem fireConnectTimer (h : Attached client) {socket : Nat}
    (hfired : client.connectTimer = some socket) :
    Attached (if client.socket = some socket ∧ client.connecting then
      ({ client with connectTimer := none } : DaemonClient).destroy socket
      else { client with connectTimer := none }) := by
  split
  next hcurrent =>
    have htimer := (h.standing hcurrent.1).1
    have hsame : ({ client with connectTimer := none } : DaemonClient) =
        { client with reconnectTimer := false, connectTimer := none } := by
      rw [← htimer]
    rw [hsame]
    exact h.giveUp hcurrent.1 none client.heartbeatTimer
  next hother =>
    refine ⟨h.unmade, h.live, fun hstopped => ?_, fun hgoes hsocket => ?_, ?_⟩
    · obtain ⟨hsocket, htimer, hquiet⟩ := h.stopped hstopped
      exact ⟨hsocket, htimer, { hquiet with connectTimer := rfl }⟩
    · obtain ⟨htimer, hquiet⟩ := h.waiting hgoes hsocket
      exact ⟨htimer, { hquiet with connectTimer := rfl }⟩
    · intro current hcurrent
      obtain ⟨htimer, hstanding⟩ := h.standing hcurrent
      refine ⟨htimer, ?_⟩
      cases hstanding with
      | connecting hphase hconnecting _ hown =>
          obtain rfl : current = socket := by simpa [hfired] using hown.symm
          exact absurd ⟨hcurrent, hconnecting⟩ hother
      | connected hphase hconnecting hconnected hbeat =>
          exact .connected hphase hconnecting hconnected hbeat
      | destroyed hphase hbusy => exact .destroyed hphase hbusy

/-- The timer of the next attempt runs only while there is nothing else to wait for. -/
theorem of_reconnectTimer (h : Attached client) (hset : client.reconnectTimer = true) :
    client.stopped = false ∧ client.socket = none ∧ client.Quiet := by
  have hsocket : client.socket = none := by
    cases hsocket : client.socket with
    | none => rfl
    | some socket =>
        have htimer := (h.standing hsocket).1
        rw [hset] at htimer
        cases htimer
  have hgoes : client.stopped = false := by
    by_contra hstopped
    have htimer := (h.stopped (by simpa using hstopped)).2.1
    rw [hset] at htimer
    cases htimer
  exact ⟨hgoes, hsocket, (h.waiting hgoes hsocket).2⟩

theorem fireReconnectTimer (h : Attached client) (hset : client.reconnectTimer = true) :
    Attached ({ client with reconnectTimer := false } : DaemonClient).connect := by
  obtain ⟨hgoes, hsocket, hquiet⟩ := h.of_reconnectTimer hset
  exact connect h.unmade (h.closed hsocket) hgoes { hquiet with } rfl

/-- One event. -/
theorem step (h : Attached client) (event : ClientEvent) : Attached (client.step parse event) := by
  unfold DaemonClient.step
  split
  · exact h
  · cases event with
    | start => exact h.start
    | stop => exact h.stop
    | reconnect => exact h.reconnect
    | requestZcodeNewTask => exact h.severed (Severed.requestZcodeNewTask client)
    | expires id =>
        exact h.severed ⟨rfl, rfl, rfl, rfl, rfl, rfl, rfl, rfl, fun _ => .inl rfl⟩
    | connects socket =>
        dsimp only
        split
        next hphase => exact h.onConnect hphase
        next => exact h
    | receives socket data =>
        dsimp only
        split
        next hphase =>
          unfold DaemonClient.onData
          dsimp only
          split
          · exact h.severed { Severed.handleBuffer parse _ socket _ with }
          · exact h.severed ⟨rfl, rfl, rfl, rfl, rfl, rfl, rfl, rfl, fun _ => .inl rfl⟩
        next => exact h
    | fails socket => exact h.severed (Severed.destroy client socket)
    | closes socket =>
        dsimp only
        split
        next hphase => exact h.onClose hphase
        next => exact h
    | reconnectTimer =>
        dsimp only
        split
        next hset => exact h.fireReconnectTimer hset
        next => exact h
    | connectTimer =>
        dsimp only
        split
        next socket hfired => exact h.fireConnectTimer hfired
        next => exact h
    | heartbeat idle =>
        dsimp only
        split
        next socket _ =>
          split
          · exact h.severed (Severed.destroy client socket)
          · exact h
        next => exact h

/-! ## The way to a connection -/

variable (parse)

theorem step_connects (h : Attached client) (hopen : client.crashed = false) {socket : Nat}
    (hphase : client.phase socket = .connecting) :
    (client.step parse (.connects socket)).Online := by
  have hsocket := h.live (.inl hphase)
  have hwired : ¬(client.stopped || client.socket != some socket) = true := by
    simp [h.not_stopped hsocket, hsocket]
  have hstep : client.step parse (.connects socket) = client.onConnect socket := by
    simp [DaemonClient.step, hopen, hphase]
  rw [hstep, DaemonClient.onConnect]
  dsimp only
  rw [if_neg hwired]
  exact ⟨socket, hsocket, by simp, rfl, rfl⟩

theorem step_reconnectTimer (h : Attached client) (hopen : client.crashed = false)
    (hset : client.reconnectTimer = true) :
    (client.step parse .reconnectTimer).crashed = false ∧
      (client.step parse .reconnectTimer).phase client.sockets = .connecting := by
  obtain ⟨hgoes, -, hquiet⟩ := h.of_reconnectTimer hset
  simp [DaemonClient.step, hopen, hset, DaemonClient.connect, hgoes, hquiet.connecting,
    hquiet.connected]

theorem step_closes (h : Attached client) (hopen : client.crashed = false) {socket : Nat}
    (hsocket : client.socket = some socket) (hphase : client.phase socket = .destroyed) :
    (client.step parse (.closes socket)).crashed = false ∧
      (client.step parse (.closes socket)).reconnectTimer = true := by
  have hgoes := h.not_stopped hsocket
  have htimer := (h.standing hsocket).1
  simp [DaemonClient.step, hopen, hphase, DaemonClient.onClose, hsocket,
    DaemonClient.scheduleReconnect, DaemonClient.failNewTaskWaiters, hgoes, htimer]

/-- From the timer of the next attempt to the connection. -/
theorem recovers_of_timer (h : Attached client) (hopen : client.crashed = false)
    (hset : client.reconnectTimer = true) :
    ∃ socket, Along (DaemonClient.step parse) Due [.reconnectTimer, .connects socket] client ∧
      (runFrom (DaemonClient.step parse) [.reconnectTimer, .connects socket] client).Online := by
  obtain ⟨hgoes, hphase⟩ := h.step_reconnectTimer parse hopen hset
  exact ⟨client.sockets, ⟨hset, hphase, trivial⟩,
    (h.step .reconnectTimer).step_connects parse hgoes hphase⟩

theorem recovers (h : Attached client) (hopen : client.crashed = false)
    (hgoes : client.stopped = false) :
    ∃ due : List ClientEvent, due.length ≤ 3 ∧ Along (DaemonClient.step parse) Due due client ∧
      (runFrom (DaemonClient.step parse) due client).Online := by
  cases hsocket : client.socket with
  | none =>
      obtain ⟨socket, hdue, honline⟩ := h.recovers_of_timer parse hopen (h.waiting hgoes hsocket).1
      exact ⟨[.reconnectTimer, .connects socket], Nat.le_succ 2, hdue, honline⟩
  | some socket =>
      obtain ⟨-, hstanding⟩ := h.standing hsocket
      cases hstanding with
      | connecting hphase =>
          exact ⟨[.connects socket], Nat.succ_le_succ (Nat.zero_le 2), ⟨hphase, trivial⟩,
            h.step_connects parse hopen hphase⟩
      | connected hphase _ hconnected hbeat =>
          exact ⟨[], Nat.zero_le 3, trivial, socket, hsocket, hphase, hconnected, hbeat⟩
      | destroyed hphase =>
          obtain ⟨hopen', hset⟩ := h.step_closes parse hopen hsocket hphase
          obtain ⟨next, hdue, honline⟩ :=
            (h.step (.closes socket)).recovers_of_timer parse hopen' hset
          exact ⟨[.closes socket, .reconnectTimer, .connects next], Nat.le_refl 3, ⟨hphase, hdue⟩,
            honline⟩

end Attached

end DaemonClient

/-- Over every run of events: no socket is open but the one the client holds, a client that is
stopped holds none and no timer of it runs, and one that was started and not stopped is on its
way.  It is connected with the heartbeat on, connects with the timer for that running, waits for
the socket it gave up to close, or for the timer of the next attempt; and at most three events
that are due then bring it to a connection. -/
theorem client_recovers (parse : String → Option Value) (events : List ClientEvent) :
    let client := runFrom (DaemonClient.step parse) events .new
    (∀ socket, client.phase socket = .connecting ∨ client.phase socket = .connected →
        client.socket = some socket) ∧
      (client.stopped = true →
        client.socket = none ∧ client.reconnectTimer = false ∧ client.connectTimer = none ∧
          client.heartbeatTimer = none) ∧
      (client.stopped = false →
        (∃ socket, client.socket = some socket ∧ client.Standing socket) ∨
          client.socket = none ∧ client.reconnectTimer = true) ∧
      (client.stopped = false → client.crashed = false →
        ∃ due : List ClientEvent, due.length ≤ 3 ∧
          Along (DaemonClient.step parse) DaemonClient.Due due client ∧
          (runFrom (DaemonClient.step parse) due client).Online) := by
  intro client
  have hattached : client.Attached :=
    Library.runFrom_invariant DaemonClient.Attached (fun event h => h.step event)
      DaemonClient.Attached.new
  refine ⟨fun _ => hattached.live, fun hstopped => ?_, fun hgoes => ?_, fun hgoes hopen =>
    hattached.recovers parse hopen hgoes⟩
  · obtain ⟨hsocket, htimer, hquiet⟩ := hattached.stopped hstopped
    exact ⟨hsocket, htimer, hquiet.connectTimer, hquiet.heartbeatTimer⟩
  · cases hsocket : client.socket with
    | none => exact .inr ⟨rfl, (hattached.waiting hgoes hsocket).1⟩
    | some socket => exact .inl ⟨socket, rfl, (hattached.standing hsocket).2⟩

end Plugin
end MicroEmu
