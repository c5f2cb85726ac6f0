import MicroEmu.Library.Pairing
import MicroEmu.Plugin.DaemonClient

/-!
# The waiters of the daemon client

One connection is live at a time, and the waiters are its requests without a reply, in the
order they were sent.  Losing the connection fails all of them, so nobody waits for a reply
on another one.
-/

namespace MicroEmu
namespace Plugin

open Json (Value)
open Library

variable (parse : String → Option Value)

/-! ## What was received -/

/-- The reply that a message is. -/
def replyIn (message : Value) : Option Bool :=
  if (message.get? "type").bind Value.asStr = some "new-task-result" then
    some ((message.get? "handled").bind Value.asBool = some true)
  else none

def replyOf (line : List Char) : Option Bool :=
  if trim line.dropLast = "" then none else (parse (trim line.dropLast)).bind replyIn

/-- The replies in the complete lines of a text. -/
def repliesIn (text : List Char) : List Bool :=
  (completeLines isNewline text).filterMap (replyOf parse)

variable {parse}

/-! ## Promises -/

/-- A promise is settled once, or its timer is set. -/
def Request.Settles (request : Request) : Prop :=
  request.settled = !request.timer ∧
    request.resolved.length = if request.timer then 0 else 1

namespace Request.Settles

variable {request : Request}

theorem finish (h : request.Settles) (handled : Bool) : (request.finish handled).Settles := by
  unfold Request.finish
  split
  · exact h
  next hopen =>
    have htimer : request.timer = true := by simpa [hopen] using h.1
    have hlength := h.2
    rw [if_pos htimer] at hlength
    exact ⟨rfl, by simp [hlength]⟩

theorem expire (h : request.Settles) : request.expire.Settles := by
  unfold Request.expire
  split
  next htimer =>
    have hopen : request.settled = false := by simpa [htimer] using h.1
    have hlength := h.2
    rw [if_pos htimer] at hlength
    simp [Request.finish, hopen, Request.Settles, hlength]
  · exact h

end Request.Settles

theorem mem_resolved_finish {request : Request} {handled value : Bool}
    (h : value ∈ (request.finish handled).resolved) :
    value ∈ request.resolved ∨ value = handled := by
  unfold Request.finish at h
  split at h
  · exact .inl h
  · simpa using h

theorem true_mem_of_expire {request : Request} (h : true ∈ request.expire.resolved) :
    true ∈ request.resolved := by
  unfold Request.expire at h
  split at h
  · exact (mem_resolved_finish h).resolve_right (by simp)
  · exact h

/-- Every promise settles once, and with `true` only if it was given that reply. -/
structure Settled (requests : List Request) (given : Nat → List (Nat × Bool)) : Prop where
  once : ∀ request ∈ requests, request.Settles
  own : ∀ {id request}, requests[id]? = some request → true ∈ request.resolved →
    ∃ socket, (id, true) ∈ given socket

namespace Settled

variable {requests : List Request} {given : Nat → List (Nat × Bool)}

theorem nil : Settled [] given := ⟨by simp, by simp⟩

/-- A new promise, which has its timer or is settled at once. -/
theorem push (h : Settled requests given) {request : Request} (hsettles : request.Settles)
    (hopen : true ∉ request.resolved) : Settled (requests ++ [request]) given where
  once other hmem := by
    rcases List.mem_append.mp hmem with hmem | hmem
    · exact h.once other hmem
    · rwa [List.mem_singleton.mp hmem]
  own {id other} hget hmem := by
    rw [List.getElem?_append] at hget
    split at hget
    · exact h.own hget hmem
    · have hother : other = request := by
        have := List.mem_of_getElem? hget
        simpa using this
      exact absurd (hother ▸ hmem) hopen

/-- One promise goes on, and learns `true` at most from a reply that it was given. -/
theorem modify (h : Settled requests given) (id : Nat) {change : Request → Request}
    (hchange : ∀ request, request.Settles → (change request).Settles)
    (hown : ∀ request, true ∈ (change request).resolved →
      true ∈ request.resolved ∨ ∃ socket, (id, true) ∈ given socket) :
    Settled (requests.modify id change) given where
  once other hmem := by
    obtain ⟨position, hget⟩ := List.mem_iff_getElem?.mp hmem
    rw [List.getElem?_modify] at hget
    obtain ⟨request, hrequest, rfl⟩ := Option.map_eq_some_iff.mp hget
    have hsettles := h.once request (List.mem_of_getElem? hrequest)
    split
    · exact hchange request hsettles
    · exact hsettles
  own {position other} hget hmem := by
    rw [List.getElem?_modify] at hget
    obtain ⟨request, hrequest, rfl⟩ := Option.map_eq_some_iff.mp hget
    split at hmem
    next hsame =>
      subst hsame
      exact (hown request hmem).elim (h.own hrequest) fun hgiven => hgiven
    · exact h.own hrequest hmem

/-- A reply that arrives at a waiter. -/
theorem mono {more : Nat → List (Nat × Bool)} (h : Settled requests given)
    (hmore : ∀ socket, given socket ⊆ more socket) : Settled requests more where
  once := h.once
  own hget hmem := (h.own hget hmem).imp fun socket hgiven => hmore socket hgiven

theorem fail (h : Settled requests given) (ids : List Nat) :
    Settled (ids.foldl (fun requests id => requests.modify id (·.finish false)) requests)
      given := by
  induction ids generalizing requests with
  | nil => exact h
  | cons id ids ih =>
      refine ih (h.modify id (fun request hsettles => hsettles.finish false) ?_)
      exact fun request hmem => .inl ((mem_resolved_finish hmem).resolve_right (by simp))

end Settled

/-! ## Connections -/

/-- Every request is sent at most once. -/
structure Filed (sent : Nat → List Nat) (count : Nat) : Prop where
  lt : ∀ {socket id}, id ∈ sent socket → id < count
  nodup : ∀ socket, (sent socket).Nodup
  apart : ∀ {socket other id}, id ∈ sent socket → id ∈ sent other → socket = other

namespace Filed

variable {sent : Nat → List Nat} {count : Nat}

theorem skip (h : Filed sent count) : Filed sent (count + 1) :=
  ⟨fun hmem => Nat.lt_succ_of_lt (h.lt hmem), h.nodup, h.apart⟩

/-- The next request goes out. -/
theorem send (h : Filed sent count) (socket : Nat) :
    Filed (Function.update sent socket (sent socket ++ [count])) (count + 1) := by
  have hmem : ∀ {other id},
      id ∈ Function.update sent socket (sent socket ++ [count]) other →
      id ∈ sent other ∨ other = socket ∧ id = count := by
    intro other id hid
    by_cases hother : other = socket
    · subst hother
      simpa using hid
    · rw [Function.update_of_ne hother] at hid
      exact .inl hid
  refine ⟨fun hid => ?_, fun other => ?_, fun hid hother => ?_⟩
  · rcases hmem hid with hold | ⟨-, rfl⟩
    · exact Nat.lt_succ_of_lt (h.lt hold)
    · exact Nat.lt_succ_self _
  · by_cases hother : other = socket
    · subst hother
      rw [Function.update_self]
      refine List.nodup_append.mpr ⟨h.nodup other, by simp, ?_⟩
      intro id hid last hlast heq
      exact absurd (h.lt hid) (by simp_all)
    · rw [Function.update_of_ne hother]
      exact h.nodup other
  · rcases hmem hid with hold | ⟨hsocket, hcount⟩ <;>
      rcases hmem hother with hold' | ⟨hsocket', hcount'⟩
    · exact h.apart hold hold'
    · exact absurd (h.lt hold) (by omega)
    · exact absurd (h.lt hold') (by omega)
    · rw [hsocket, hsocket']

end Filed

theorem DaemonClient.phase_destroy (client : DaemonClient) (socket : Nat) :
    (client.destroy socket).phase socket = .destroyed ∨
      (client.destroy socket).phase socket = .closed := by
  unfold DaemonClient.destroy
  by_cases hclosed : client.phase socket = .closed <;> simp [hclosed]

theorem DaemonClient.requestZcodeNewTask_eq {client : DaemonClient} {socket : Nat}
    (hsocket : client.socket = some socket) (hconnected : client.connected) :
    client.requestZcodeNewTask =
      { client with
        requests := client.requests ++ [Request.waiting]
        newTaskWaiters := client.newTaskWaiters ++ [client.requests.length]
        sent := Function.update client.sent socket
          (client.sent socket ++ [client.requests.length]) } := by
  unfold DaemonClient.requestZcodeNewTask
  rw [if_neg (not_not.mpr hconnected)]
  unfold DaemonClient.send
  dsimp only
  rw [hsocket]
  exact if_pos hconnected

theorem DaemonClient.requestZcodeNewTask_of_not {client : DaemonClient}
    (hconnected : ¬client.connected) : client.requestZcodeNewTask =
      { client with requests := client.requests ++ [.refused] } :=
  if_pos hconnected

/-- At most some promises have failed. -/
structure Kept (client after : DaemonClient) : Prop where
  requests : ∃ ids : List Nat, after.requests =
    ids.foldl (fun requests id => requests.modify id (·.finish false)) client.requests
  given : after.given = client.given
  sent : after.sent = client.sent
  received : after.received = client.received

/-- The client leaves its socket, and everyone who waits is told. -/
theorem DaemonClient.exists_stop_eq (client : DaemonClient) :
    ∃ phase, client.stop = { client with
      socket := none
      phase := phase
      stopped := true
      reconnectTimer := false
      connectTimer := none
      heartbeatTimer := none
      connected := false
      connecting := false }.failNewTaskWaiters := by
  unfold DaemonClient.stop
  split
  next socket hsocket => exact ⟨(client.destroy socket).phase, rfl⟩
  next hsocket =>
    refine ⟨client.phase, ?_⟩
    rw [← hsocket]

theorem DaemonClient.handleBuffer_of_none {client : DaemonClient} {socket : Nat}
    {buffer : List Char} (hline : firstLine isNewline buffer = none) :
    client.handleBuffer parse socket buffer = { client with buffer := buffer } := by
  rw [DaemonClient.handleBuffer, handleLines_of_none hline]

theorem DaemonClient.handleBuffer_of_some {client : DaemonClient} {socket : Nat}
    {buffer line rest : List Char} (hline : firstLine isNewline buffer = some (line, rest)) :
    client.handleBuffer parse socket buffer =
      if (client.handleText parse socket line).crashed then
        { client.handleText parse socket line with buffer := rest }
      else (client.handleText parse socket line).handleBuffer parse socket rest := by
  rw [DaemonClient.handleBuffer, handleLines_of_some hline]
  split <;> rfl

theorem DaemonClient.handleBuffer_nil {client : DaemonClient} {socket : Nat} :
    client.handleBuffer parse socket [] = { client with buffer := [] } :=
  handleBuffer_of_none rfl

/-- Only the timer changes. -/
theorem DaemonClient.exists_scheduleReconnect_eq (client : DaemonClient) :
    ∃ timer, client.scheduleReconnect = { client with reconnectTimer := timer } := by
  unfold DaemonClient.scheduleReconnect
  split
  · exact ⟨client.reconnectTimer, rfl⟩
  · exact ⟨true, rfl⟩

/-- What the handling of lines leaves alone, or as it should be. -/
structure Reads (client after : DaemonClient) : Prop where
  socket : after.socket = client.socket
  connected : after.connected = client.connected
  stopped : after.stopped = client.stopped
  sockets : after.sockets = client.sockets
  sent : after.sent = client.sent
  received : after.received = client.received
  length_requests : after.requests.length = client.requests.length
  settled : Settled client.requests client.given → Settled after.requests after.given

namespace Reads

theorem refl (client : DaemonClient) : Reads client client :=
  ⟨rfl, rfl, rfl, rfl, rfl, rfl, rfl, fun h => h⟩

theorem trans {client middle after : DaemonClient} (h : Reads client middle)
    (hafter : Reads middle after) : Reads client after where
  socket := hafter.socket.trans h.socket
  connected := hafter.connected.trans h.connected
  stopped := hafter.stopped.trans h.stopped
  sockets := hafter.sockets.trans h.sockets
  sent := hafter.sent.trans h.sent
  received := hafter.received.trans h.received
  length_requests := hafter.length_requests.trans h.length_requests
  settled := fun hsettled => hafter.settled (h.settled hsettled)

variable (client : DaemonClient) (socket : Nat)

theorem shiftWaiter (handled : Bool) : Reads client (client.shiftWaiter socket handled) := by
  unfold DaemonClient.shiftWaiter
  split
  · exact refl client
  next id waiters hwaiters =>
    refine ⟨rfl, rfl, rfl, rfl, rfl, rfl, List.length_modify .., fun h => ?_⟩
    have hmore : ∀ other, client.given other ⊆ Function.update client.given socket
        (client.given socket ++ [(id, handled)]) other := by
      intro other
      by_cases hother : other = socket
      · subst hother
        simp
      · rw [Function.update_of_ne hother]
        exact List.Subset.refl _
    refine (h.mono hmore).modify id (fun request hsettles => hsettles.finish handled) ?_
    intro request hmem
    refine (mem_resolved_finish hmem).imp_right fun hhandled => ⟨socket, ?_⟩
    simp [hhandled]

theorem handleMessage (message : Value) : Reads client (client.handleMessage socket message) := by
  unfold DaemonClient.handleMessage
  dsimp only
  split
  · split
    · exact ⟨rfl, rfl, rfl, rfl, rfl, rfl, rfl, fun h => h⟩
    · exact refl client
  · split
    · exact shiftWaiter client socket _
    · exact refl client

variable (parse) in
theorem handleText (line : List Char) : Reads client (client.handleText parse socket line) := by
  unfold DaemonClient.handleText
  split
  · exact refl client
  · unfold DaemonClient.handleLine
    split
    · exact refl client
    · exact ⟨rfl, rfl, rfl, rfl, rfl, rfl, rfl, fun h => h⟩
    · exact handleMessage client socket _

variable (parse) in
theorem handleBuffer (buffer : List Char) :
    Reads client (client.handleBuffer parse socket buffer) := by
  have hreads : Reads client (handleLines isNewline
      (fun client line => client.handleText parse socket line) DaemonClient.crashed client
      buffer).1 :=
    handleLines_invariant (Reads client)
      (fun {_} line hreads => hreads.trans (handleText parse _ socket line)) (refl client) buffer
  exact { hreads with }

end Reads

/-- One connection is live at a time, and the waiters are its requests without a reply. -/
structure Wired (replies : Nat → List Bool) (client : DaemonClient) : Prop where
  unmade : ∀ {socket}, client.sockets ≤ socket →
    client.phase socket = .closed ∧ client.sent socket = [] ∧ replies socket = []
  live : ∀ {socket}, client.phase socket = .connecting ∨ client.phase socket = .connected →
    client.socket = some socket
  made : ∀ {socket}, client.socket = some socket → socket < client.sockets
  busy : ∀ {socket}, client.socket = some socket → client.connecting ∨ client.connected
  opened : client.connected → ∃ socket, client.socket = some socket ∧
    client.phase socket ≠ .connecting
  unopened : ∀ {socket}, client.socket = some socket → ¬client.connected →
    client.phase socket ≠ .connected ∧ client.sent socket = [] ∧ replies socket = []
  idle : ¬client.connected → client.newTaskWaiters = []
  paired : ∀ socket, client.given socket = (client.sent socket).zip (replies socket)
  pairing : ∀ {socket}, client.connected → client.socket = some socket →
    Pairing (client.sent socket) client.newTaskWaiters (client.given socket) (replies socket)

namespace Wired

variable {replies : Nat → List Bool} {client : DaemonClient}

theorem destroy (h : Wired replies client) (socket : Nat) :
    Wired replies (client.destroy socket) := by
  have hphase : ∀ other, (client.destroy socket).phase other = client.phase other ∨
      (client.destroy socket).phase other = .destroyed := by
    intro other
    unfold DaemonClient.destroy
    by_cases hother : other = socket
    · subst hother
      by_cases hclosed : client.phase other = .closed <;> simp [hclosed]
    · simp [Function.update_of_ne hother]
  refine { h with unmade := ?_, live := ?_, opened := ?_, unopened := ?_ }
  · intro other hother
    have hunmade := h.unmade hother
    refine ⟨?_, hunmade.2⟩
    unfold DaemonClient.destroy
    by_cases hsocket : other = socket
    · subst hsocket
      simp [hunmade.1]
    · simpa [Function.update_of_ne hsocket] using hunmade.1
  · intro other hlive
    rcases hphase other with hsame | hdestroyed
    · exact h.live (hsame ▸ hlive)
    · simp [hdestroyed] at hlive
  · intro hconnected
    obtain ⟨current, hcurrent, hopen⟩ := h.opened hconnected
    refine ⟨current, hcurrent, ?_⟩
    rcases hphase current with hsame | hdestroyed
    · rwa [hsame]
    · simp [hdestroyed]
  · intro other hother hconnected
    have hunopened := h.unopened hother hconnected
    refine ⟨?_, hunopened.2⟩
    rcases hphase other with hsame | hdestroyed
    · rw [hsame]
      exact hunopened.1
    · simp [hdestroyed]

/-- A connection that is made when there is none. -/
theorem connect (h : Wired replies client) : Wired replies client.connect := by
  unfold DaemonClient.connect
  split
  · exact h
  next hfree =>
    simp only [Bool.or_eq_true, not_or] at hfree
    obtain ⟨⟨-, hconnecting⟩, hconnected⟩ := hfree
    have hnone : client.socket = none := by
      cases hsocket : client.socket with
      | none => rfl
      | some socket => exact absurd (h.busy hsocket) (not_or.mpr ⟨hconnecting, hconnected⟩)
    have hunmade := h.unmade (Nat.le_refl client.sockets)
    constructor
    · intro socket hle
      have hlt : client.sockets < socket := hle
      simpa [Function.update_of_ne (Nat.ne_of_gt hlt)] using h.unmade (Nat.le_of_lt hlt)
    · intro socket hlive
      by_cases hsocket : socket = client.sockets
      · rw [hsocket]
      · simp only [Function.update_of_ne hsocket] at hlive
        exact absurd (h.live hlive) (by simp [hnone])
    · rintro socket ⟨⟩
      exact Nat.lt_succ_self _
    · exact fun _ => .inl rfl
    · exact fun hnow => absurd hnow hconnected
    · rintro socket ⟨⟩ -
      exact ⟨by simp, hunmade.2⟩
    · exact h.idle
    · exact h.paired
    · exact fun hnow => absurd hnow hconnected

theorem not_connected (h : Wired replies client) {socket : Nat}
    (hphase : client.phase socket = .connecting) : ¬client.connected := by
  intro hconnected
  obtain ⟨current, hcurrent, hopen⟩ := h.opened hconnected
  rw [h.live (.inl hphase)] at hcurrent
  exact hopen (Option.some.inj hcurrent ▸ hphase)

theorem onConnect (h : Wired replies client) {socket : Nat}
    (hphase : client.phase socket = .connecting) : Wired replies (client.onConnect socket) := by
  have hsocket := h.live (.inl hphase)
  have hconnected := h.not_connected hphase
  unfold DaemonClient.onConnect
  dsimp only
  split
  · have hsame : ({ client with
        phase := Function.update client.phase socket .connected } : DaemonClient).destroy socket =
        client.destroy socket := by
      simp [DaemonClient.destroy, hphase]
    rw [hsame]
    exact h.destroy socket
  · obtain ⟨-, hsent, hreplies⟩ := h.unopened hsocket hconnected
    constructor
    · intro other hother
      have hne : other ≠ socket := Nat.ne_of_gt (Nat.lt_of_lt_of_le (h.made hsocket) hother)
      simpa [Function.update_of_ne hne] using h.unmade hother
    · intro other hlive
      by_cases hother : other = socket
      · rw [hother]
        exact hsocket
      · simp only [Function.update_of_ne hother] at hlive
        exact h.live hlive
    · exact h.made
    · exact fun _ => .inr rfl
    · exact fun _ => ⟨socket, hsocket, by simp⟩
    · exact fun _ hnow => absurd rfl hnow
    · exact fun hnow => absurd rfl hnow
    · exact h.paired
    · intro other _ hother
      obtain rfl : socket = other := Option.some.inj (hsocket.symm.trans hother)
      have hgiven := h.paired socket
      rw [hsent, hreplies] at hgiven
      show Pairing (client.sent socket) client.newTaskWaiters (client.given socket)
        (replies socket)
      rw [hsent, hreplies, hgiven, h.idle hconnected]
      exact Pairing.nil

/-- A socket that is not the one of the client is dead. -/
theorem dead (h : Wired replies client) {socket : Nat} (hsocket : client.socket ≠ some socket) :
    client.phase socket = .destroyed ∨ client.phase socket = .closed := by
  cases hphase : client.phase socket with
  | connecting => exact absurd (h.live (.inl hphase)) hsocket
  | connected => exact absurd (h.live (.inr hphase)) hsocket
  | destroyed => exact .inl rfl
  | closed => exact .inr rfl

/-- The client has left its connection, and nobody waits any more. -/
theorem disconnect (h : Wired replies client) {after : DaemonClient}
    (hsocket : after.socket = none) (hconnected : after.connected = false)
    (hwaiters : after.newTaskWaiters = []) (hsockets : after.sockets = client.sockets)
    (hsent : after.sent = client.sent) (hgiven : after.given = client.given)
    (hdead : ∀ socket, after.phase socket = .destroyed ∨ after.phase socket = .closed)
    (hclosed : ∀ socket, client.sockets ≤ socket → after.phase socket = .closed) :
    Wired replies after where
  unmade {socket} hle := by
    rw [hsockets] at hle
    rw [hsent]
    exact ⟨hclosed socket hle, (h.unmade hle).2⟩
  live {socket} hlive := by rcases hdead socket with hphase | hphase <;> simp [hphase] at hlive
  made hcurrent := by simp [hsocket] at hcurrent
  busy hcurrent := by simp [hsocket] at hcurrent
  opened hnow := by simp [hconnected] at hnow
  unopened hcurrent := by simp [hsocket] at hcurrent
  idle _ := hwaiters
  paired socket := by
    rw [hgiven, hsent]
    exact h.paired socket
  pairing hnow := by simp [hconnected] at hnow

theorem stop (h : Wired replies client) : Wired replies client.stop := by
  unfold DaemonClient.stop
  dsimp only
  cases hsocket : client.socket with
  | none =>
      refine h.disconnect hsocket rfl rfl rfl rfl rfl (fun socket => h.dead ?_) fun socket hle =>
        (h.unmade hle).1
      simp [hsocket]
  | some current =>
      have hafter := h.destroy current
      refine h.disconnect rfl rfl rfl rfl rfl rfl (fun socket => ?_) fun socket hle =>
        (hafter.unmade hle).1
      by_cases hother : socket = current
      · subst hother
        exact DaemonClient.phase_destroy client socket
      · refine hafter.dead fun hcurrent => hother ?_
        exact (Option.some.inj (hsocket.symm.trans hcurrent)).symm

theorem onClose (h : Wired replies client) {socket : Nat}
    (hphase : client.phase socket = .destroyed) : Wired replies (client.onClose socket) := by
  have hmade : ∀ {other}, client.sockets ≤ other → other ≠ socket := by
    rintro other hle rfl
    have hclosed := (h.unmade hle).1
    rw [hphase] at hclosed
    cases hclosed
  unfold DaemonClient.onClose
  dsimp only
  split
  next hsocket =>
    obtain ⟨timer, htimer⟩ := DaemonClient.exists_scheduleReconnect_eq
      ({ client with
        phase := Function.update client.phase socket .closed
        connectTimer := none
        heartbeatTimer := none
        connecting := false
        buffer := []
        connected := false
        socket := none } : DaemonClient).failNewTaskWaiters
    rw [htimer]
    refine h.disconnect rfl rfl rfl rfl rfl rfl (fun other => ?_) fun other hle => ?_
    · show Function.update client.phase socket .closed other = .destroyed ∨
        Function.update client.phase socket .closed other = .closed
      by_cases hother : other = socket
      · simp [hother]
      · rw [Function.update_of_ne hother]
        exact h.dead fun hcurrent =>
          hother (Option.some.inj (hsocket.symm.trans hcurrent)).symm
    · show Function.update client.phase socket .closed other = .closed
      rw [Function.update_of_ne (hmade hle)]
      exact (h.unmade hle).1
  next hsocket =>
    -- an old socket
    refine { h with unmade := ?_, live := ?_, opened := ?_, unopened := ?_ }
    · intro other hle
      simpa [Function.update_of_ne (hmade hle)] using h.unmade hle
    · intro other hlive
      by_cases hother : other = socket
      · simp [hother] at hlive
      · exact h.live (by simpa [Function.update_of_ne hother] using hlive)
    · intro hconnected
      obtain ⟨current, hcurrent, hopen⟩ := h.opened hconnected
      refine ⟨current, hcurrent, ?_⟩
      have hother : current ≠ socket := fun heq => hsocket (heq ▸ hcurrent)
      simpa [Function.update_of_ne hother] using hopen
    · intro other hcurrent hconnected
      have hother : other ≠ socket := fun heq => hsocket (heq ▸ hcurrent)
      simpa [Function.update_of_ne hother] using h.unopened hcurrent hconnected

/-- The open connection goes from one pairing to another. -/
theorem exchange (h : Wired replies client) {socket : Nat} (hsocket : client.socket = some socket)
    (hconnected : client.connected) {sent waiters : List Nat} {given : List (Nat × Bool)}
    {values : List Bool} (hpairing : Pairing sent waiters given values) :
    Wired (Function.update replies socket values)
      { client with
        newTaskWaiters := waiters
        sent := Function.update client.sent socket sent
        given := Function.update client.given socket given } := by
  refine { h with unmade := ?_, unopened := ?_, idle := ?_, paired := ?_, pairing := ?_ }
  · intro other hle
    have hother : other ≠ socket := Nat.ne_of_gt (Nat.lt_of_lt_of_le (h.made hsocket) hle)
    simpa [Function.update_of_ne hother] using h.unmade hle
  · exact fun _ hnow => absurd hconnected hnow
  · exact fun hnow => absurd hconnected hnow
  · intro other
    by_cases hother : other = socket
    · subst hother
      simpa using hpairing.given_eq
    · simpa [Function.update_of_ne hother] using h.paired other
  · intro other _ hother
    obtain rfl : socket = other := Option.some.inj (hsocket.symm.trans hother)
    simpa using hpairing

/-- A request on the open connection waits behind the others. -/
theorem requestZcodeNewTask (h : Wired replies client) :
    Wired replies client.requestZcodeNewTask := by
  by_cases hconnected : client.connected
  · obtain ⟨socket, hsocket, hopen⟩ := h.opened hconnected
    have hpairing := (h.pairing hconnected hsocket).send client.requests.length
    have hnext := h.exchange hsocket hconnected hpairing
    rw [Function.update_eq_self, Function.update_eq_self] at hnext
    rw [DaemonClient.requestZcodeNewTask_eq hsocket hconnected]
    exact { hnext with }
  · rw [DaemonClient.requestZcodeNewTask_of_not hconnected]
    exact { h with }

/-! ### Replies -/

/-- A reply on the open connection goes to the first waiter. -/
theorem shiftWaiter (h : Wired replies client) {socket : Nat}
    (hsocket : client.socket = some socket) (hconnected : client.connected)
    (hwaits : client.newTaskWaiters ≠ []) (handled : Bool) :
    Wired (Function.update replies socket (replies socket ++ [handled]))
      (client.shiftWaiter socket handled) := by
  have hpairing := h.pairing hconnected hsocket
  unfold DaemonClient.shiftWaiter
  cases hwaiters : client.newTaskWaiters with
  | nil => exact absurd hwaiters hwaits
  | cons id waiters =>
      rw [hwaiters] at hpairing
      have hnext := h.exchange hsocket hconnected (hpairing.reply handled)
      rw [Function.update_eq_self] at hnext
      exact { hnext with }

theorem handleMessage (h : Wired replies client) {socket : Nat}
    (hsocket : client.socket = some socket) (hconnected : client.connected) {message : Value}
    (hwaits : (replyIn message).isSome → client.newTaskWaiters ≠ []) :
    Wired (Function.update replies socket (replies socket ++ (replyIn message).toList))
      (client.handleMessage socket message) := by
  have hnothing : Function.update replies socket (replies socket ++ (none : Option Bool).toList) =
      replies := by simp
  unfold DaemonClient.handleMessage
  dsimp only
  by_cases hbye : (message.get? "type").bind Value.asStr = some "goodbye"
  · have hno : replyIn message = none := if_neg (by simp [hbye])
    rw [if_pos hbye, hno, hnothing, hsocket]
    exact h.destroy socket
  · rw [if_neg hbye]
    by_cases hreply : (message.get? "type").bind Value.asStr = some "new-task-result"
    · have hyes : replyIn message =
          some (decide ((message.get? "handled").bind Value.asBool = some true)) := if_pos hreply
      rw [if_pos hreply, hyes]
      exact h.shiftWaiter hsocket hconnected (hwaits (by simp [hyes])) _
    · have hno : replyIn message = none := if_neg hreply
      rw [if_neg hreply, hno, hnothing]
      exact h

theorem handleText (h : Wired replies client) {socket : Nat}
    (hsocket : client.socket = some socket) (hconnected : client.connected) {line : List Char}
    (hwaits : (replyOf parse line).isSome → client.newTaskWaiters ≠ []) :
    Wired (Function.update replies socket (replies socket ++ (replyOf parse line).toList))
      (client.handleText parse socket line) := by
  have hnothing : Function.update replies socket (replies socket ++ (none : Option Bool).toList) =
      replies := by simp
  unfold DaemonClient.handleText
  by_cases hblank : trim line.dropLast = ""
  · rw [if_pos hblank, replyOf, if_pos hblank, hnothing]
    exact h
  · rw [if_neg hblank]
    rw [replyOf, if_neg hblank] at hwaits ⊢
    unfold DaemonClient.handleLine
    cases hparse : parse (trim line.dropLast) with
    | none =>
        rw [Option.bind_none, hnothing]
        exact h
    | some message =>
        rw [hparse, Option.bind_some] at hwaits
        rw [Option.bind_some]
        have hmessage := h.handleMessage hsocket hconnected hwaits
        cases message with
        | null =>
            -- the process ends here, and `null` is no reply
            have hno : replyIn Value.null = none := if_neg (by simp [Value.get?, Value.asObject])
            rw [hno, hnothing]
            exact { h with }
        | _ => exact hmessage

/-- The loop handles the replies in the complete lines, all of them unless the process ends. -/
theorem handleBuffer (h : Wired replies client) {socket : Nat}
    (hsocket : client.socket = some socket) (hconnected : client.connected)
    (hopen : client.crashed = false) {buffer : List Char}
    (hroom : (repliesIn parse buffer).length ≤ client.newTaskWaiters.length) :
    ∃ handled, handled <+: repliesIn parse buffer ∧
      Wired (Function.update replies socket (replies socket ++ handled))
        (client.handleBuffer parse socket buffer) ∧
      ((client.handleBuffer parse socket buffer).crashed = false →
        handled = repliesIn parse buffer ∧ buffer = (completeLines isNewline buffer).flatten ++
          (client.handleBuffer parse socket buffer).buffer) := by
  induction buffer using lines_induction isNewline generalizing client replies with
  | none buffer hline =>
      have hnone : completeLines isNewline buffer = [] := completeLines_of_none hline
      have hno : repliesIn parse buffer = [] := by rw [repliesIn, hnone, List.filterMap_nil]
      rw [DaemonClient.handleBuffer_of_none hline, hnone, hno]
      refine ⟨[], List.nil_prefix, ?_, fun _ => ⟨rfl, rfl⟩⟩
      rw [List.append_nil, Function.update_eq_self]
      exact { h with }
  | line buffer line rest hline ih =>
      have hlines : completeLines isNewline buffer = line :: completeLines isNewline rest :=
        completeLines_of_some hline
      have hreplies : repliesIn parse buffer =
          (replyOf parse line).toList ++ repliesIn parse rest := by
        rw [repliesIn, hlines, List.filterMap_cons]
        cases replyOf parse line <;> rfl
      rw [hreplies, List.length_append] at hroom
      have hwaits : (replyOf parse line).isSome → client.newTaskWaiters ≠ [] := by
        intro hsome hnone
        obtain ⟨reply, hreply⟩ := Option.isSome_iff_exists.mp hsome
        simp [hreply, hnone] at hroom
      have hreads := Reads.handleText parse client socket line
      have hnext := h.handleText hsocket hconnected hwaits
      have hsocket' := hreads.socket.trans hsocket
      have hconnected' : (client.handleText parse socket line).connected := by
        rw [hreads.connected]
        exact hconnected
      rw [DaemonClient.handleBuffer_of_some hline, hlines, hreplies]
      split
      next hcrashed =>
        refine ⟨(replyOf parse line).toList, List.prefix_append .., { hnext with },
          fun hnow => ?_⟩
        rw [hcrashed] at hnow
        cases hnow
      next hgoes =>
        have hwaiting : (repliesIn parse rest).length ≤
            (client.handleText parse socket line).newTaskWaiters.length := by
          have hbefore := (h.pairing hconnected hsocket).length_eq
          have hafter := (hnext.pairing hconnected' hsocket').length_eq
          rw [hreads.sent, Function.update_self, List.length_append] at hafter
          omega
        obtain ⟨handled, hprefix, hwired, hrest⟩ :=
          ih hnext hsocket' hconnected' (by simpa using hgoes) hwaiting
        rw [Function.update_self, Function.update_idem, List.append_assoc] at hwired
        refine ⟨_, (List.prefix_append_right_inj _).mpr hprefix, hwired, fun hnow => ?_⟩
        obtain ⟨hhandled, hbuffer⟩ := hrest hnow
        refine ⟨by rw [hhandled], ?_⟩
        rw [List.flatten_cons, List.append_assoc, ← hbuffer]
        exact eq_append_of_firstLine hline

end Wired

end Plugin
end MicroEmu
