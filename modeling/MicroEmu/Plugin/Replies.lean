import MicroEmu.Library.Runs
import MicroEmu.Plugin.Waiters

/-!
# Replies to the requests for a new task

A reply belongs to the request at its position among those sent on the same connection,
whatever happened to that request in the meantime.  The client keeps to this as long as no
connection starts behind a piece of a line that a stopped one has left in the buffer.
-/

namespace MicroEmu
namespace Plugin

open Json (Value)
open Library

variable (parse : String → Option Value)

/-! ## The law -/

/-- The daemon answers a request at most once, and not before it is sent. -/
def AnswersRequests (client : DaemonClient) : ClientEvent → Prop
  | .receives socket data =>
      (repliesIn parse (client.received socket ++ data)).length ≤ (client.sent socket).length
  | _ => True

/-- No connection starts behind what is left of another one. -/
def StartsClean (client : DaemonClient) : ClientEvent → Prop
  | .start => client.stopped → client.buffer = []
  | _ => True

/-- Promises settle once, and replies go to the requests at their positions. -/
structure RepliesPaired (client : DaemonClient) : Prop where
  /-- A promise is settled once, or its timer is set. -/
  once : ∀ request ∈ client.requests,
    request.resolved.length = if request.timer then 0 else 1
  /-- The reply at a position is given to the request at this position, or to none. -/
  paired : ∀ socket, client.given socket <+:
    (client.sent socket).zip (repliesIn parse (client.received socket))
  complete : client.crashed = false → ∀ socket, client.given socket =
    (client.sent socket).zip (repliesIn parse (client.received socket))
  /-- A request is sent once, on one connection. -/
  nodup : ∀ socket, (client.sent socket).Nodup
  apart : ∀ {socket other id}, id ∈ client.sent socket → id ∈ client.sent other →
    socket = other
  /-- What a promise learns, it learns from its own reply. -/
  own : ∀ {id request}, client.requests[id]? = some request → true ∈ request.resolved →
    ∃ socket, (id, true) ∈ client.given socket

variable {parse}

/-! ## Texts -/

/-- The buffer holds what the open connection has received behind its last complete line. -/
structure Tidy (client : DaemonClient) : Prop where
  unmade : ∀ {socket}, client.sockets ≤ socket → client.received socket = []
  unopened : ∀ {socket}, client.socket = some socket → ¬client.connected →
    client.received socket = []
  buffered : ∀ {socket}, client.socket = some socket → client.connected →
    client.received socket =
      (completeLines isNewline (client.received socket)).flatten ++ client.buffer
  empty : client.stopped ∨ client.connected ∨ client.buffer = []

namespace Tidy

variable {client : DaemonClient}

theorem connect (h : Tidy client) : Tidy client.connect := by
  unfold DaemonClient.connect
  split
  · exact h
  next hfree =>
    simp only [Bool.or_eq_true, not_or] at hfree
    refine ⟨fun hle => h.unmade (Nat.le_of_succ_le hle), ?_, ?_, h.empty⟩
    · rintro socket ⟨⟩ -
      exact h.unmade (Nat.le_refl _)
    · exact fun _ hnow => absurd hnow hfree.2

/-- Without a connection the buffer counts only for a client that goes on. -/
theorem disconnect (h : Tidy client) {after : DaemonClient} (hsocket : after.socket = none)
    (hsockets : after.sockets = client.sockets) (hreceived : after.received = client.received)
    (hbuffer : after.stopped ∨ after.buffer = []) : Tidy after where
  unmade hle := by
    rw [hsockets] at hle
    rw [hreceived]
    exact h.unmade hle
  unopened hcurrent := by simp [hsocket] at hcurrent
  buffered hcurrent := by simp [hsocket] at hcurrent
  empty := hbuffer.imp_right .inr

theorem onConnect (h : Tidy client) {socket : Nat} (hconnected : ¬client.connected) :
    Tidy (client.onConnect socket) := by
  unfold DaemonClient.onConnect
  dsimp only
  split
  · exact { h with }
  next hgoes =>
    have hempty : client.buffer = [] := by
      rcases h.empty with hstopped | hnow | hempty
      · exact absurd (by simp [hstopped]) hgoes
      · exact absurd hnow hconnected
      · exact hempty
    refine ⟨h.unmade, fun _ hnow => absurd rfl hnow, ?_, .inr (.inl rfl)⟩
    intro other hother _
    have hreceived := h.unopened hother hconnected
    show client.received other =
      (completeLines isNewline (client.received other)).flatten ++ client.buffer
    rw [hreceived, hempty]
    rfl

theorem onClose (h : Tidy client) (socket : Nat) : Tidy (client.onClose socket) := by
  unfold DaemonClient.onClose
  dsimp only
  split
  · obtain ⟨timer, htimer⟩ := DaemonClient.exists_scheduleReconnect_eq
      ({ client with
        phase := Function.update client.phase socket .closed
        connectTimer := none
        heartbeatTimer := none
        connecting := false
        buffer := []
        connected := false
        socket := none } : DaemonClient).failNewTaskWaiters
    rw [htimer]
    exact h.disconnect rfl rfl rfl (.inr rfl)
  · exact { h with }

end Tidy

/-! ## The client -/

/-- What holds of a client whose process has not ended. -/
structure Sound (parse : String → Option Value) (client : DaemonClient) : Prop where
  settled : Settled client.requests client.given
  filed : Filed client.sent client.requests.length
  wired : Wired (fun socket => repliesIn parse (client.received socket)) client
  tidy : Tidy client

namespace Sound

variable {client : DaemonClient}

theorem new : Sound parse .new where
  settled := Settled.nil
  filed := ⟨by simp [DaemonClient.new], by simp [DaemonClient.new], by simp [DaemonClient.new]⟩
  wired := by
    constructor <;> simp [DaemonClient.new, repliesIn, completeLines]
  tidy := by
    constructor <;> simp [DaemonClient.new]

theorem of_kept (h : Sound parse client) {after : DaemonClient} (hkept : Kept client after)
    (hwired : Wired (fun socket => repliesIn parse (client.received socket)) after)
    (htidy : Tidy after) : Sound parse after := by
  obtain ⟨ids, hrequests⟩ := hkept.requests
  have hlength : ∀ (ids : List Nat) (requests : List Request), (ids.foldl
      (fun requests id => requests.modify id (·.finish false)) requests).length =
      requests.length := by
    intro ids
    induction ids with
    | nil => exact fun _ => rfl
    | cons id ids ih => exact fun requests => (ih _).trans (List.length_modify ..)
  refine ⟨?_, ?_, ?_, htidy⟩
  · rw [hrequests, hkept.given]
    exact h.settled.fail ids
  · rw [hrequests, hlength, hkept.sent]
    exact h.filed
  · rw [hkept.received]
    exact hwired

theorem connect (h : Sound parse client) : Sound parse client.connect := by
  refine h.of_kept ?_ h.wired.connect h.tidy.connect
  unfold DaemonClient.connect
  split <;> exact ⟨⟨[], rfl⟩, rfl, rfl, rfl⟩

theorem start (h : Sound parse client) (hclean : StartsClean client .start) :
    Sound parse client.start := by
  unfold DaemonClient.start
  split
  next hstopped =>
    refine connect ⟨h.settled, h.filed, { h.wired with }, { h.tidy with empty := ?_ }⟩
    exact .inr (.inr (hclean hstopped))
  · exact h

theorem destroy (h : Sound parse client) (socket : Nat) : Sound parse (client.destroy socket) :=
  h.of_kept ⟨⟨[], rfl⟩, rfl, rfl, rfl⟩ (h.wired.destroy socket) { h.tidy with }

theorem reconnect (h : Sound parse client) : Sound parse client.reconnect := by
  unfold DaemonClient.reconnect
  split
  · exact h
  · dsimp only
    have hcleared : Sound parse { client with
        reconnectTimer := false
        connectTimer := none
        heartbeatTimer := none } :=
      ⟨h.settled, h.filed, { h.wired with }, { h.tidy with }⟩
    split
    next socket hsocket => exact hcleared.destroy socket
    next hsocket =>
      have hconnected : ¬client.connected := by
        intro hconnected
        obtain ⟨socket, hcurrent, -⟩ := h.wired.opened hconnected
        simp [hsocket] at hcurrent
      refine connect ⟨h.settled, h.filed, ?_, ?_⟩
      · exact h.wired.disconnect hsocket rfl (h.wired.idle hconnected) rfl rfl rfl
          (fun socket => h.wired.dead (by simp [hsocket])) fun socket hle => (h.wired.unmade hle).1
      · exact h.tidy.disconnect hsocket rfl rfl (.inr rfl)

theorem stop (h : Sound parse client) : Sound parse client.stop := by
  have hwired := h.wired.stop
  obtain ⟨phase, hstop⟩ := DaemonClient.exists_stop_eq client
  rw [hstop] at hwired ⊢
  exact h.of_kept ⟨⟨client.newTaskWaiters, rfl⟩, rfl, rfl, rfl⟩ hwired
    (h.tidy.disconnect rfl rfl rfl (.inl rfl))

theorem onConnect (h : Sound parse client) {socket : Nat}
    (hphase : client.phase socket = .connecting) : Sound parse (client.onConnect socket) := by
  have hconnected := h.wired.not_connected hphase
  refine h.of_kept ?_ (h.wired.onConnect hphase) (h.tidy.onConnect hconnected)
  unfold DaemonClient.onConnect
  dsimp only
  split <;> exact ⟨⟨[], rfl⟩, rfl, rfl, rfl⟩

theorem onClose (h : Sound parse client) {socket : Nat}
    (hphase : client.phase socket = .destroyed) : Sound parse (client.onClose socket) := by
  refine h.of_kept ?_ (h.wired.onClose hphase) (h.tidy.onClose socket)
  unfold DaemonClient.onClose
  dsimp only
  split
  · unfold DaemonClient.scheduleReconnect
    split <;> exact ⟨⟨client.newTaskWaiters, rfl⟩, rfl, rfl, rfl⟩
  · exact ⟨⟨[], rfl⟩, rfl, rfl, rfl⟩

theorem requestZcodeNewTask (h : Sound parse client) :
    Sound parse client.requestZcodeNewTask := by
  have hwired := h.wired.requestZcodeNewTask
  by_cases hconnected : client.connected
  · obtain ⟨socket, hsocket, -⟩ := h.wired.opened hconnected
    rw [DaemonClient.requestZcodeNewTask_eq hsocket hconnected] at hwired ⊢
    refine ⟨h.settled.push ⟨rfl, rfl⟩ (by simp [Request.waiting]), ?_, hwired, { h.tidy with }⟩
    rw [List.length_append]
    exact h.filed.send socket
  · rw [DaemonClient.requestZcodeNewTask_of_not hconnected] at hwired ⊢
    refine ⟨h.settled.push ⟨rfl, rfl⟩ (by simp [Request.refused]), ?_, hwired, { h.tidy with }⟩
    rw [List.length_append]
    exact h.filed.skip

theorem expires (h : Sound parse client) (id : Nat) :
    Sound parse { client with requests := client.requests.modify id Request.expire } := by
  refine ⟨h.settled.modify id (fun request hsettles => hsettles.expire)
    (fun request hmem => .inl (true_mem_of_expire hmem)), ?_, { h.wired with }, { h.tidy with }⟩
  rw [List.length_modify]
  exact h.filed

end Sound

/-! ## Replies and whole runs -/

variable {client : DaemonClient}

/-- Replies that are handled in order are those at the positions of the requests. -/
theorem repliesPaired_of_wired {replies : Nat → List Bool}
    (hsettled : Settled client.requests client.given)
    (hfiled : Filed client.sent client.requests.length) (hwired : Wired replies client)
    (hfront : ∀ socket, replies socket <+: repliesIn parse (client.received socket))
    (hall : client.crashed = false →
      ∀ socket, replies socket = repliesIn parse (client.received socket)) :
    RepliesPaired parse client where
  once request hmem := (hsettled.once request hmem).2
  paired socket := by
    rw [hwired.paired socket]
    exact zip_prefix_zip _ (hfront socket)
  complete hgoes socket := by rw [hwired.paired socket, hall hgoes socket]
  nodup := hfiled.nodup
  apart := hfiled.apart
  own := hsettled.own

theorem Sound.repliesPaired (h : Sound parse client) : RepliesPaired parse client :=
  repliesPaired_of_wired h.settled h.filed h.wired (fun _ => List.prefix_refl _) fun _ _ => rfl

/-- Data on the open connection; only here can the process end. -/
theorem Sound.onData (h : Sound parse client) (hopen : client.crashed = false) {socket : Nat}
    (hphase : client.phase socket = .connected) (data : List Char)
    (hanswers : AnswersRequests parse client (.receives socket data)) :
    RepliesPaired parse (client.onData parse socket data) ∧
      ((client.onData parse socket data).crashed = false →
        Sound parse (client.onData parse socket data)) := by
  have hsocket := h.wired.live (.inr hphase)
  have hconnected : client.connected := by
    by_contra hno
    exact (h.wired.unopened hsocket hno).1 hphase
  have hbuffered := h.tidy.buffered hsocket hconnected
  have hlines := completeLines_append hbuffered data
  have hreplies : repliesIn parse (client.received socket ++ data) =
      repliesIn parse (client.received socket) ++ repliesIn parse (client.buffer ++ data) := by
    rw [repliesIn, hlines, List.filterMap_append]
    rfl
  have hroom : (repliesIn parse (client.buffer ++ data)).length ≤
      client.newTaskWaiters.length := by
    have hlength := (h.wired.pairing hconnected hsocket).length_eq
    have hanswers : (repliesIn parse (client.received socket ++ data)).length ≤
        (client.sent socket).length := hanswers
    rw [hreplies, List.length_append] at hanswers
    omega
  let before : DaemonClient := { client with
    received := Function.update client.received socket (client.received socket ++ data) }
  have hdata : client.onData parse socket data =
      before.handleBuffer parse socket (client.buffer ++ data) := if_pos hsocket
  have hbefore : Wired (fun socket => repliesIn parse (client.received socket)) before :=
    { h.wired with }
  obtain ⟨handled, hfront, hwired, hrest⟩ :=
    hbefore.handleBuffer hsocket hconnected hopen hroom
  have hreads := Reads.handleBuffer parse before socket (client.buffer ++ data)
  rw [hdata]
  generalize before.handleBuffer parse socket (client.buffer ++ data) = after at *
  have hsettled : Settled after.requests after.given := hreads.settled h.settled
  have hfiled : Filed after.sent after.requests.length := by
    rw [hreads.sent, hreads.length_requests]
    exact h.filed
  have hsame : ∀ {other}, other ≠ socket → after.received other = client.received other := by
    intro other hother
    rw [hreads.received]
    exact Function.update_of_ne hother ..
  have hmore : after.received socket = client.received socket ++ data := by
    rw [hreads.received]
    exact Function.update_self ..
  have hall : after.crashed = false → ∀ other,
      Function.update (fun socket => repliesIn parse (client.received socket)) socket
        (repliesIn parse (client.received socket) ++ handled) other =
        repliesIn parse (after.received other) := by
    intro hgoes other
    by_cases hother : other = socket
    · subst hother
      rw [Function.update_self, hmore, hreplies, (hrest hgoes).1]
    · rw [Function.update_of_ne hother, hsame hother]
  refine ⟨repliesPaired_of_wired hsettled hfiled hwired ?_ hall, fun hgoes => ?_⟩
  · intro other
    by_cases hother : other = socket
    · subst hother
      rw [Function.update_self, hmore, hreplies]
      exact (List.prefix_append_right_inj _).mpr hfront
    · rw [Function.update_of_ne hother, hsame hother]
  · refine ⟨hsettled, hfiled, ?_, ?_⟩
    · rw [← funext (hall hgoes)]
      exact hwired
    · have hcurrent : after.socket = some socket := hreads.socket.trans hsocket
      have hnow : after.connected := by
        rw [hreads.connected]
        exact hconnected
      refine ⟨?_, fun _ hno => absurd hnow hno, ?_, .inr (.inl hnow)⟩
      · intro other hle
        rw [hreads.sockets] at hle
        have hother : other ≠ socket :=
          Nat.ne_of_gt (Nat.lt_of_lt_of_le (h.wired.made hsocket) hle)
        rw [hsame hother]
        exact h.tidy.unmade hle
      · intro other hother _
        obtain rfl : socket = other := Option.some.inj (hcurrent.symm.trans hother)
        rw [hmore, hlines, List.flatten_append, List.append_assoc, ← (hrest hgoes).2,
          ← List.append_assoc, ← hbuffered]

/-- One event, behind which the process goes on with everything in order or has ended. -/
theorem Sound.step (h : Sound parse client) (hopen : client.crashed = false)
    {event : ClientEvent} (hanswers : AnswersRequests parse client event)
    (hclean : StartsClean client event) :
    RepliesPaired parse (client.step parse event) ∧
      ((client.step parse event).crashed = false → Sound parse (client.step parse event)) := by
  have hstep : ∀ {after}, Sound parse after →
      RepliesPaired parse after ∧ (after.crashed = false → Sound parse after) :=
    fun hafter => ⟨hafter.repliesPaired, fun _ => hafter⟩
  unfold DaemonClient.step
  rw [if_neg (by simp [hopen])]
  cases event with
  | start => exact hstep (h.start hclean)
  | stop => exact hstep h.stop
  | reconnect => exact hstep h.reconnect
  | requestZcodeNewTask => exact hstep h.requestZcodeNewTask
  | expires id => exact hstep (h.expires id)
  | connects socket =>
      dsimp only
      split
      next hphase => exact hstep (h.onConnect hphase)
      · exact hstep h
  | receives socket data =>
      dsimp only
      split
      next hphase => exact h.onData hopen hphase data hanswers
      · exact hstep h
  | fails socket => exact hstep (h.destroy socket)
  | closes socket =>
      dsimp only
      split
      next hphase => exact hstep (h.onClose hphase)
      · exact hstep h
  | reconnectTimer =>
      dsimp only
      split
      · exact hstep (connect ⟨h.settled, h.filed, { h.wired with }, { h.tidy with }⟩)
      · exact hstep h
  | connectTimer =>
      have hfired : Sound parse { client with connectTimer := none } :=
        ⟨h.settled, h.filed, { h.wired with }, { h.tidy with }⟩
      dsimp only
      split
      next socket _ =>
        split
        · exact hstep (hfired.destroy socket)
        · exact hstep hfired
      · exact hstep h
  | heartbeat idle =>
      dsimp only
      split
      next socket _ =>
        split
        · exact hstep (h.destroy socket)
        · exact hstep h
      · exact hstep h

/-- Over every run in which the daemon answers requests it was sent, each promise settles once,
and every reply is given to the request at its position on the same connection or to none, as
long as no connection starts behind what a stopped one has left in the buffer. -/
theorem replies_paired (parse : String → Option Value) (events : List ClientEvent)
    (hanswers : Along (DaemonClient.step parse) (AnswersRequests parse) events .new)
    (hclean : Along (DaemonClient.step parse) StartsClean events .new) :
    RepliesPaired parse (runFrom (DaemonClient.step parse) events .new) := by
  have hinv := (hanswers.and hclean).invariant
    (fun client => RepliesPaired parse client ∧ (client.crashed = false → Sound parse client))
    (fun {client event} hinv hevent => ?_) ⟨Sound.new.repliesPaired, fun _ => Sound.new⟩
  · exact hinv.1
  · cases hcrashed : client.crashed with
    | true =>
        have hstays : client.step parse event = client := if_pos hcrashed
        rw [hstays]
        exact hinv
    | false => exact (hinv.2 hcrashed).step hcrashed hevent.1 hevent.2

/-! ### Runs with replies -/

/-- The text of a reply. -/
def replyText (handled : Bool) : String :=
  if handled then "\x7b\"type\":\"new-task-result\",\"handled\":true\x7d"
  else "\x7b\"type\":\"new-task-result\",\"handled\":false\x7d"

def replyMessage (handled : Bool) : Value :=
  .object [("type", .string "new-task-result"), ("handled", .bool handled)]

def replyLine (handled : Bool) : List Char := (replyText handled).toList ++ ['\n']

/-- A parser that knows the replies. -/
def parseReply (text : String) : Option Value :=
  if text = replyText true then some (replyMessage true)
  else if text = replyText false then some (replyMessage false)
  else none

theorem firstLine_replyLine (handled : Bool) :
    firstLine isNewline (replyLine handled) = some (replyLine handled, []) := by
  cases handled <;> decide +kernel

theorem trim_replyLine (handled : Bool) :
    trim (replyLine handled).dropLast = replyText handled := by
  cases handled <;> decide +kernel

theorem parseReply_replyText (handled : Bool) :
    parseReply (replyText handled) = some (replyMessage handled) := by
  cases handled with
  | true => exact if_pos rfl
  | false => exact (if_neg (by decide)).trans (if_pos rfl)

theorem handleText_replyLine (socket : Nat) (handled : Bool) :
    client.handleText parseReply socket (replyLine handled) =
      client.shiftWaiter socket handled := by
  have hblank : replyText handled ≠ "" := by cases handled <;> decide
  unfold DaemonClient.handleText DaemonClient.handleLine
  rw [trim_replyLine, if_neg hblank, parseReply_replyText]
  simp [replyMessage, DaemonClient.handleMessage, Value.get?, Value.asObject, List.lookup_cons,
    Value.asStr, Value.asBool]

theorem repliesIn_replyLine (handled : Bool) (more : List Char) :
    repliesIn parseReply (replyLine handled ++ more) = handled :: repliesIn parseReply more := by
  have hblank : replyText handled ≠ "" := by cases handled <;> decide
  have hreply : replyOf parseReply (replyLine handled) = some handled := by
    rw [replyOf, trim_replyLine, if_neg hblank, parseReply_replyText]
    simp [replyIn, replyMessage, Value.get?, Value.asObject, List.lookup_cons, Value.asStr,
      Value.asBool]
  rw [repliesIn, completeLines_of_some (firstLine_append (firstLine_replyLine handled) more),
    List.filterMap_cons, hreply]
  rfl

theorem repliesIn_replyLine_self (handled : Bool) :
    repliesIn parseReply (replyLine handled) = [handled] := by
  rw [← List.append_nil (replyLine handled), repliesIn_replyLine]
  rfl

/-- A request and its reply. -/
theorem replies_paired_answered :
    let client := runFrom (DaemonClient.step parseReply) [.start, .connects 0,
      .requestZcodeNewTask, .receives 0 (replyLine true)] .new
    client.requests = [⟨true, false, [true]⟩] ∧ RepliesPaired parseReply client := by
  refine ⟨?_, replies_paired parseReply _ ?_ ?_⟩
  · simp only [runFrom, List.foldl]
    simp [DaemonClient.step, DaemonClient.new, DaemonClient.start, DaemonClient.connect,
      DaemonClient.onConnect, DaemonClient.onData, DaemonClient.requestZcodeNewTask,
      DaemonClient.send, DaemonClient.handleBuffer_of_some (firstLine_replyLine true),
      DaemonClient.handleBuffer_nil, handleText_replyLine, DaemonClient.shiftWaiter,
      Request.waiting, Request.finish]
  · refine ⟨trivial, trivial, trivial, ?_, trivial⟩
    show (repliesIn parseReply ([] ++ replyLine true)).length ≤ [0].length
    rw [List.nil_append, repliesIn_replyLine_self]
    exact Nat.le_refl 1
  · exact ⟨fun _ => rfl, trivial, trivial, trivial, trivial⟩

/-- The first reply is lost behind a piece that a stopped connection has left, and the second
one goes to the first request. -/
theorem not_replies_paired_restarted :
    let events := [ClientEvent.start, .connects 0, .receives 0 ['\x7b'], .stop, .start, .connects 1,
      .requestZcodeNewTask, .requestZcodeNewTask, .receives 1 (replyLine true),
      .receives 1 (replyLine false)]
    Along (DaemonClient.step parseReply) (AnswersRequests parseReply) events .new ∧
      ¬RepliesPaired parseReply (runFrom (DaemonClient.step parseReply) events .new) := by
  intro events
  let torn := '\x7b' :: replyLine true
  have htorn : firstLine isNewline torn = some (torn, []) := by decide +kernel
  have hpiece : firstLine isNewline ['\x7b'] = none := rfl
  have hlost : ∀ (client : DaemonClient) socket,
      client.handleText parseReply socket torn = client := by
    intro client socket
    have hbad : parseReply (trim torn.dropLast) = none := by
      have hyes : trim torn.dropLast ≠ replyText true := by decide +kernel
      have hno : trim torn.dropLast ≠ replyText false := by decide +kernel
      exact (if_neg hyes).trans (if_neg hno)
    unfold DaemonClient.handleText DaemonClient.handleLine
    rw [hbad]
    exact ite_self ..
  let client := runFrom (DaemonClient.step parseReply) [.start, .connects 0,
    .receives 0 ['\x7b'], .stop, .start, .connects 1, .requestZcodeNewTask,
    .requestZcodeNewTask] .new
  have hclient : client.phase 1 = .connected ∧ client.socket = some 1 ∧ client.crashed = false ∧
      client.buffer = ['\x7b'] ∧ client.newTaskWaiters = [0, 1] ∧ client.sent 1 = [0, 1] ∧
      client.received 1 = [] ∧ client.given 1 = [] := by
    simp only [client, runFrom, List.foldl]
    simp [DaemonClient.step, DaemonClient.new, DaemonClient.start, DaemonClient.connect,
      DaemonClient.onConnect, DaemonClient.onData, DaemonClient.handleBuffer_of_none hpiece,
      DaemonClient.stop, DaemonClient.destroy, DaemonClient.failNewTaskWaiters,
      DaemonClient.requestZcodeNewTask, DaemonClient.send]
  obtain ⟨hphase, hsocket, hopen, hbuffer, hwaiters, hsent, hreceived, hgiven⟩ := hclient
  -- the first reply is lost behind the piece
  let later := client.step parseReply (.receives 1 (replyLine true))
  have hlater : later = { client with
      buffer := []
      received := Function.update client.received 1 (replyLine true) } := by
    simp only [later, DaemonClient.step, hopen, hphase, DaemonClient.onData, hsocket, hbuffer,
      hreceived, List.nil_append, if_true, Bool.false_eq_true, if_false, List.singleton_append]
    rw [DaemonClient.handleBuffer_of_some htorn, hlost]
    simp [DaemonClient.handleBuffer_nil]
  let last := later.step parseReply (.receives 1 (replyLine false))
  have hlast : last = { client with
      buffer := []
      newTaskWaiters := [1]
      requests := client.requests.modify 0 (·.finish false)
      received := Function.update client.received 1 (replyLine true ++ replyLine false)
      given := Function.update client.given 1 [(0, false)] } := by
    simp only [last, hlater, DaemonClient.step, hopen, hphase, DaemonClient.onData, hsocket,
      List.nil_append, if_true, Bool.false_eq_true, if_false,
      DaemonClient.handleBuffer_of_some (firstLine_replyLine false), handleText_replyLine]
    simp [DaemonClient.shiftWaiter, hwaiters, hgiven, DaemonClient.handleBuffer_nil]
  have hreplies : repliesIn parseReply (replyLine true ++ replyLine false) = [true, false] := by
    rw [repliesIn_replyLine, repliesIn_replyLine_self]
  refine ⟨?_, fun hpaired => ?_⟩
  · refine ⟨trivial, trivial, Nat.zero_le _, trivial, trivial, trivial, trivial, trivial, ?_, ?_,
      trivial⟩
    · show (repliesIn parseReply (client.received 1 ++ replyLine true)).length ≤
        (client.sent 1).length
      rw [hreceived, hsent, List.nil_append, repliesIn_replyLine_self]
      decide
    · show (repliesIn parseReply (later.received 1 ++ replyLine false)).length ≤
        (later.sent 1).length
      simp [hlater, hsent, hreplies]
  · have hrun : runFrom (DaemonClient.step parseReply) events .new = last := rfl
    have hwrong := hpaired.paired 1
    rw [hrun, hlast] at hwrong
    simp [hsent, hreplies] at hwrong

end Plugin
end MicroEmu
