import MicroEmu.Plugin.DaemonClient

/-!
# The client of the Codex app-server

The plugin runs the app-server as a child process and talks JSON-RPC to it.  The first
request starts a child and initializes it; the others wait for that.  Events are the calls of
`request`, what the children report, and the timers.  What goes on behind an `await` runs in
any order, but before the next event from outside.
-/

namespace MicroEmu
namespace Plugin

open Json (Value)
open Library

/-! ## Promises -/

/-- Whom the answer to a written request is for. -/
inductive Owner where
  | call (call : Nat)
  /-- `initialize`, sent by a start to a child. -/
  | start (start child : Nat)
  deriving DecidableEq, Repr

/-- How a promise is settled. -/
inductive Outcome where
  /-- By the response with this id. -/
  | resolved (id : Int) (result : Option Value)
  | rejected (id : Int) (error : Value)
  /-- By a timer, a write error, or the end of the child. -/
  | failed

/-- Where a call of `request` is. -/
inductive Place where
  /-- It awaits `startPromise`. -/
  | awaiting (start : Nat)
  /-- It is to go on with `sendRequest`. -/
  | resumes
  | sent (id : Nat)
  | done
  deriving DecidableEq, Repr

/-- The promise of a call of `request`. -/
structure Call where
  place : Place
  /-- The id of its request. -/
  id : Option Nat
  /-- Every outcome that it was settled with. -/
  settled : List Outcome

namespace Call

variable (call : Call)

def settle (outcome : Outcome) : Call :=
  { call with place := .done, settled := call.settled ++ [outcome] }

/-- What the call does when the start that it awaits has succeeded or not. -/
def wake (start : Nat) (succeeded : Bool) : Call :=
  if call.place = .awaiting start then
    if succeeded then { call with place := .resumes } else call.settle .failed
  else call

end Call

/-- Where a call of `start` is. -/
inductive Start where
  /-- It waits for the "spawn" event of its child. -/
  | spawning (child : Nat)
  /-- It is to go on with `initialize`. -/
  | spawned
  /-- It waits for the answer. -/
  | initializing
  /-- It is to return. -/
  | initialized
  /-- It has thrown, and the handler of `catch` is to run. -/
  | failing
  | done
  | failed
  deriving DecidableEq, Repr

/-- It is to go on behind an `await`. -/
def Start.goesOn : Start → Bool
  | .spawned => true
  | .initialized => true
  | .failing => true
  | _ => false

/-- `initialize` is answered. -/
def Start.settle (start : Start) (succeeded : Bool) : Start :=
  if start = .initializing then if succeeded then .initialized else .failing else start

/-! ## The client -/

inductive ChildPhase where
  | starting
  | running
  /-- It could not be started. -/
  | failed
  | closed
  deriving DecidableEq, Repr

/-- What happens to the children, in order. -/
inductive Entry where
  | wrote (child id : Nat) (owner : Owner)
  /-- `initialize` has succeeded on the child. -/
  | initialized (child : Nat)
  deriving DecidableEq, Repr

/-- `CodexAppServerClient`, its promises and its children. -/
structure CodexAppServerClient where
  /-- `killed` is left out: nothing kills a child. -/
  child : Option Nat
  startPromise : Option Nat
  buffer : List Char
  nextId : Nat
  pending : List (Nat × Owner)
  /-- The timers that are set, with the promises that they reject. -/
  timers : List (Nat × Owner)
  calls : List Call
  starts : List Start
  /-- How many children were started. -/
  children : Nat
  phase : Nat → ChildPhase
  /-- `stdin.writable`. -/
  writable : Nat → Bool
  log : List Entry
  /-- An exception has ended the process. -/
  crashed : Bool

namespace CodexAppServerClient

/-- The constructor. -/
def new : CodexAppServerClient where
  child := none
  startPromise := none
  buffer := []
  nextId := 1
  pending := []
  timers := []
  calls := []
  starts := []
  children := 0
  phase _ := .closed
  writable _ := false
  log := []
  crashed := false

variable (client : CodexAppServerClient)

/-- A promise is resolved or rejected. -/
def settle (owner : Owner) (outcome : Outcome) : CodexAppServerClient :=
  match owner, outcome with
  | .call call, outcome => { client with calls := client.calls.modify call (·.settle outcome) }
  | .start start child, .resolved _ _ =>
      { client with
        starts := client.starts.modify start (·.settle true)
        log := client.log ++ [.initialized child] }
  | .start start _, _ => { client with starts := client.starts.modify start (·.settle false) }

/-- A pending request and its timer are taken away. -/
def delete (id : Nat) : CodexAppServerClient :=
  { client with
    pending := client.pending.filter (·.1 ≠ id)
    timers := client.timers.filter (·.1 ≠ id) }

/-! ### Requests -/

/-- `sendRequest`; without an id it is rejected. -/
def sendRequest (owner : Nat → Owner) : CodexAppServerClient × Option Nat :=
  match client.child with
  | none => (client, none)
  | some child =>
      if client.writable child then
        ({ client with
          nextId := client.nextId + 1
          pending := client.pending ++ [(client.nextId, owner child)]
          timers := client.timers ++ [(client.nextId, owner child)]
          log := client.log ++ [.wrote child client.nextId (owner child)] }, some client.nextId)
      else (client, none)

/-- `start` up to its first `await`; `launches` says whether the child can be launched. -/
def start (launches : Bool) : CodexAppServerClient :=
  if launches then
    { client with
      child := some client.children
      buffer := []
      starts := client.starts ++ [.spawning client.children]
      children := client.children + 1
      phase := Function.update client.phase client.children .starting
      writable := Function.update client.writable client.children true }
  else { client with starts := client.starts ++ [.failing] }

/-- A call of `request`, which is somewhere at first. -/
def enter (place : Place) : CodexAppServerClient :=
  { client with calls := client.calls ++ [⟨place, none, []⟩] }

/-- `request` up to its first `await`, with `ensureStarted`. -/
def request (launches : Bool) : CodexAppServerClient :=
  match client.startPromise with
  | some start =>
      match client.starts[start]? with
      | some .done => client.enter .resumes
      | some .failed =>
          { client with calls := client.calls ++ [⟨.done, none, [.failed]⟩] }
      | _ => client.enter (.awaiting start)
  | none =>
      if client.child.isSome then client.enter .resumes
      else
        { client.start launches with startPromise := some client.starts.length }.enter
          (.awaiting client.starts.length)

/-- A call goes on behind `ensureStarted`. -/
def resume (call : Nat) : CodexAppServerClient :=
  if (client.calls[call]?).map (·.place) = some .resumes then
    match client.sendRequest fun _ => .call call with
    | (client, some id) =>
        { client with
          calls := client.calls.modify call fun call => { call with place := .sent id, id := id } }
    | (client, none) => client.settle (.call call) .failed
  else client

/-- A start goes on behind an `await`, or its `catch` is reached. -/
def continues (start : Nat) : CodexAppServerClient :=
  match client.starts[start]? with
  | some .spawned =>
      match client.sendRequest (.start start) with
      | (client, some _) => { client with starts := client.starts.set start .initializing }
      | (client, none) => { client with starts := client.starts.set start .failing }
  | some .initialized =>
      { client with
        starts := client.starts.set start .done
        calls := client.calls.map (·.wake start true) }
  | some .failing =>
      { client with
        starts := client.starts.set start .failed
        startPromise := none
        calls := client.calls.map (·.wake start false) }
  | _ => client

/-- `failChild`. -/
def failChild (child : Nat) : CodexAppServerClient :=
  if client.child = some child then
    { client.pending.foldl (fun client request => client.settle request.2 .failed)
        { client with child := none, startPromise := none } with
      pending := []
      timers := client.timers.filter fun timer => !client.pending.any (·.1 == timer.1) }
  else client

/-! ### Answers -/

variable (number : Option Value → Option Int) (parse : String → Option Value)

/-- How a response settles the request with its id. -/
def outcomeOf (id : Int) (message : Value) : Outcome :=
  match message.get? "error" with
  | some (.object fields) => .rejected id (.object fields)
  | _ => .resolved id (message.get? "result")

/-- A message; requests of the server are only answered.  `number` is `Number`, where that
is an integer. -/
def handleMessage (message : Value) : CodexAppServerClient :=
  if ((message.get? "method").bind Value.asStr).isSome then client
  else
    match number (message.get? "id") with
    | none => client
    | some id =>
        match client.pending.find? (fun request => (request.1 : Int) = id) with
        | none => client
        | some (key, owner) => (client.delete key).settle owner (outcomeOf id message)

/-- A line with its terminator; `null` has no `method`, and reading it throws. -/
def handleText (line : List Char) : CodexAppServerClient :=
  if trim line.dropLast = "" then client
  else
    match parse (trim line.dropLast) with
    | none => client
    | some .null => { client with crashed := true }
    | some message => client.handleMessage number message

/-- `handleData`. -/
def handleData (chunk : List Char) : CodexAppServerClient :=
  let handled := handleLines isNewline (fun client line => client.handleText number parse line)
    crashed client (client.buffer ++ chunk)
  { handled.1 with buffer := handled.2 }

/-! ### Events of a child and timers -/

/-- "spawn". -/
def onSpawn (child : Nat) : CodexAppServerClient :=
  { client with
    phase := Function.update client.phase child .running
    starts := client.starts.map fun start =>
      if start = .spawning child then .spawned else start }

/-- "error": a start that waits for the child throws, and the child has failed. -/
def onError (child : Nat) : CodexAppServerClient :=
  let phase : ChildPhase :=
    if client.phase child = .starting then .failed else client.phase child
  { client with
    phase := Function.update client.phase child phase
    starts := client.starts.map fun start =>
      if start = Start.spawning child then .failing else start }.failChild child

/-- "close". -/
def onClose (child : Nat) : CodexAppServerClient :=
  { client with phase := Function.update client.phase child .closed }.failChild child

/-- The timer of a request. -/
def onTimeout (id : Nat) : CodexAppServerClient :=
  match client.timers.find? (·.1 = id) with
  | some (key, owner) => (client.delete key).settle owner .failed
  | none => client

/-- The callback of a write, with an error. -/
def onWriteError (id : Nat) : CodexAppServerClient :=
  match client.pending.find? (·.1 = id) with
  | some (key, owner) => (client.delete key).settle owner .failed
  | none => client

/-- Nothing waits to go on. -/
def idle : Bool :=
  client.starts.all (fun start => !start.goesOn) &&
    client.calls.all (fun call => call.place != .resumes)

end CodexAppServerClient

/-! ## Events -/

/-- What comes from outside. -/
inductive ChildEvent where
  | spawns (child : Nat)
  | fails (child : Nat)
  | closes (child : Nat)
  | data (chunk : List Char)
  | timeout (id : Nat)
  | writeFails (id : Nat)
  | stdinEnds (child : Nat)

inductive AppEvent where
  | request (launches : Bool)
  | resume (call : Nat)
  | continues (start : Nat)
  | outside (event : ChildEvent)

namespace CodexAppServerClient

variable (number : Option Value → Option Int) (parse : String → Option Value)

/-- A child is started, then it runs or has failed, then it is closed. -/
def receive (client : CodexAppServerClient) : ChildEvent → CodexAppServerClient
  | .spawns child => if client.phase child = .starting then client.onSpawn child else client
  | .fails child =>
      if client.phase child = .starting ∨ client.phase child = .running then
        client.onError child
      else client
  | .closes child =>
      if client.phase child = .running ∨ client.phase child = .failed then
        client.onClose child
      else client
  | .data chunk => client.handleData number parse chunk
  | .timeout id => client.onTimeout id
  | .writeFails id => client.onWriteError id
  | .stdinEnds child =>
      { client with writable := Function.update client.writable child false }

/-- One event; nothing happens any more in a process that has ended. -/
def step (client : CodexAppServerClient) (event : AppEvent) : CodexAppServerClient :=
  if client.crashed then client
  else
    match event with
    | .request launches => client.request launches
    | .resume call => client.resume call
    | .continues start => client.continues start
    | .outside event => if client.idle then client.receive number parse event else client

end CodexAppServerClient

end Plugin
end MicroEmu
