import MicroEmu.Json

/-!
# The Codex Micro protocol

The physical controls of a controller, the messages they become on the Codex
HID device, and the reports a message is cut into.  Turning an encoder is
relative: the radial state remembers the level and the direction of each axis.
-/

namespace MicroEmu
namespace Codex

open Json (Value)

def reportId : UInt8 := 6

def reportBytes : Nat := 64

def opcodeData : UInt8 := 2

def maxChunkBytes : Nat := 61

/-- One report: id, opcode, chunk length, the chunk, and zeros to the end. -/
def report (chunk : List UInt8) : List UInt8 :=
  let head := [reportId, opcodeData, UInt8.ofNat chunk.length] ++ chunk
  head ++ List.replicate (reportBytes - head.length) 0

/-- `frame_json`: the reports of one message.  `toVec` is the serialisation of a
JSON value. -/
def frameJson (toVec : Value → List UInt8) (message : Value) :
    Except String (List (List UInt8)) :=
  match message with
  | .object _ => .ok (((toVec message ++ [13, 10]).toChunks maxChunkBytes).map report)
  | _ => .error "Codex JSON message must be an object"

/-! ## Physical events -/

/-- Stable logical commands exposed by the Stream Deck Action Button catalog. -/
inductive CatalogAction where
  | taskPrevious
  | taskNext
  | taskFirst
  | taskLast
  | taskOpen
  | taskRetry
  | taskInterrupt
  | taskFork
  | taskArchive
  | taskPin
  | taskUnpin
  | taskApprove
  | taskReject
  | taskCopyPrompt
  | taskCopyResponse
  | taskCopyPath
  | agentNewTask
  | agentSearch
  | agentReviewChanges
  | agentRunTests
  | agentOpenTerminal
  | agentOpenBrowser
  | agentOpenEditor
  | agentCompactContext
  | agentSettings
  deriving DecidableEq, Repr

def CatalogAction.asStr : CatalogAction → String
  | .taskPrevious => "task.previous"
  | .taskNext => "task.next"
  | .taskFirst => "task.first"
  | .taskLast => "task.last"
  | .taskOpen => "task.open"
  | .taskRetry => "task.retry"
  | .taskInterrupt => "task.interrupt"
  | .taskFork => "task.fork"
  | .taskArchive => "task.archive"
  | .taskPin => "task.pin"
  | .taskUnpin => "task.unpin"
  | .taskApprove => "task.approve"
  | .taskReject => "task.reject"
  | .taskCopyPrompt => "task.copy-prompt"
  | .taskCopyResponse => "task.copy-response"
  | .taskCopyPath => "task.copy-path"
  | .agentNewTask => "agent.new-task"
  | .agentSearch => "agent.search"
  | .agentReviewChanges => "agent.review-changes"
  | .agentRunTests => "agent.run-tests"
  | .agentOpenTerminal => "agent.open-terminal"
  | .agentOpenBrowser => "agent.open-browser"
  | .agentOpenEditor => "agent.open-editor"
  | .agentCompactContext => "agent.compact-context"
  | .agentSettings => "agent.settings"

def CatalogAction.parse : String → Option CatalogAction
  | "task.previous" => some .taskPrevious
  | "task.next" => some .taskNext
  | "task.first" => some .taskFirst
  | "task.last" => some .taskLast
  | "task.open" => some .taskOpen
  | "task.retry" => some .taskRetry
  | "task.interrupt" => some .taskInterrupt
  | "task.fork" => some .taskFork
  | "task.archive" => some .taskArchive
  | "task.pin" => some .taskPin
  | "task.unpin" => some .taskUnpin
  | "task.approve" => some .taskApprove
  | "task.reject" => some .taskReject
  | "task.copy-prompt" => some .taskCopyPrompt
  | "task.copy-response" => some .taskCopyResponse
  | "task.copy-path" => some .taskCopyPath
  | "agent.new-task" => some .agentNewTask
  | "agent.search" => some .agentSearch
  | "agent.review-changes" => some .agentReviewChanges
  | "agent.run-tests" => some .agentRunTests
  | "agent.open-terminal" => some .agentOpenTerminal
  | "agent.open-browser" => some .agentOpenBrowser
  | "agent.open-editor" => some .agentOpenEditor
  | "agent.compact-context" => some .agentCompactContext
  | "agent.settings" => some .agentSettings
  | _ => none

/-- Agent whose usage limits are reported on the strip. -/
inductive UsageAgent where
  | codex
  | zCode
  deriving DecidableEq, Repr

def UsageAgent.asStr : UsageAgent → String
  | .codex => "codex"
  | .zCode => "zcode"

def UsageAgent.parse (value : String) : Option UsageAgent :=
  match Json.toAsciiLowercase (Json.trim value) with
  | "codex" => some .codex
  | "zcode" => some .zCode
  | _ => none

inductive PhysicalEvent where
  | button (index : Nat) (pressed : Bool)
  /-- Explicit task-card control from a virtual controller. -/
  | taskButton (index : Nat) (pressed : Bool) (taskId : Option String)
  /-- Long-press request to show or minimize the window of a task. -/
  | taskToggle (index : Nat) (taskId : Option String)
  | taskAction (index gesture : Nat) (taskId : Option String)
  /-- Explicit physical Micro command that bypasses task-card routing. -/
  | microButton (index : Nat) (pressed : Bool)
  | catalogAction (action : CatalogAction)
  | modelCycle
  | usageSelect (agent : UsageAgent)
  | encoderTurn (index : Nat) (delta : Int)
  | encoderButton (index : Nat) (pressed : Bool)
  deriving DecidableEq, Repr

/-! ## Messages -/

/-- The message of a key: `act` is one at a press and zero at a release, and
two for one detent of an encoder. -/
def hidMessage (key : String) (act : Nat) (agent : Option Nat) : Value :=
  .object [("m", .string "v.oai.hid"),
    ("p", .object ([("k", .string key), ("act", .ofNat act)] ++
      (agent.map fun index => ("ag", Value.ofNat index)).toList))]

/-- `radial_message`. -/
def radialMessage (angle distance : Json.F64) : Value :=
  .object [("m", .string "v.oai.rad"),
    ("p", .object [("a", .number (.float angle)),
      ("d", .number (.float (max 0 (min 1 distance))))])]

/-- Level and direction of one radial axis. -/
structure RadialAxis where
  level : Nat := 0
  direction : Int := 0
  deriving DecidableEq, Repr

/-- `RadialState`: axis zero is the left dial, axis one the right one. -/
structure RadialState where
  left : RadialAxis := {}
  right : RadialAxis := {}
  deriving DecidableEq, Repr

/-- `radial_turn` on one axis: a change of direction starts again at the first
level, and the second level is the last. -/
def RadialAxis.turn (axis : RadialAxis) (delta : Int) : RadialAxis :=
  let level := if axis.direction = delta.sign then axis.level else 0
  ⟨min (level + 1) 2, delta.sign⟩

/-- The message of an axis that has just been turned. -/
def RadialAxis.message (axis : RadialAxis) (angle : Json.F64) : Value :=
  radialMessage angle (axis.level / 2)

namespace RadialState

/-- The key message of a Micro position: six agent keys, then three action
keys; there is nothing past them. -/
def buttonMessage (index : Nat) (pressed : Bool) : Option Value :=
  if index ≤ 5 then
    some (hidMessage ("AG0" ++ toString index) pressed.toNat (some index))
  else if index ≤ 8 then
    some (hidMessage ("ACT0" ++ toString index) pressed.toNat none)
  else
    none

/-- The key of an encoder button. -/
def encoderKey : Nat → Option String
  | 0 => some "ACT12"
  | 1 => some "ENC_CLK"
  | 2 => some "ACT10"
  | _ => none

variable (state : RadialState)

/-- `event`: the message of a physical event, if it has one. -/
def event : PhysicalEvent → Option Value × RadialState
  | .button index pressed => (buttonMessage index pressed, state)
  | .microButton index pressed => (buttonMessage index pressed, state)
  | .encoderTurn 0 delta =>
      if delta = 0 then (none, state)
      else
        let axis := state.left.turn delta
        (some (axis.message (if delta > 0 then 0 else 1 / 2)), { state with left := axis })
  | .encoderTurn 2 delta =>
      if delta = 0 then (none, state)
      else
        let axis := state.right.turn delta
        (some (axis.message (if delta > 0 then 1 / 4 else 3 / 4)), { state with right := axis })
  | .encoderTurn 1 delta =>
      if delta > 0 then (some (hidMessage "ENC_CW" 2 none), state)
      else if delta < 0 then (some (hidMessage "ENC_CC" 2 none), state)
      else (none, state)
  | .encoderButton index pressed =>
      ((encoderKey index).map fun key => hidMessage key pressed.toNat none, state)
  | _ => (none, state)

end RadialState

/-- `message_for_physical_event`. -/
def messageForPhysicalEvent (event : PhysicalEvent) : Option Value :=
  (RadialState.event {} event).1

/-- The physical events a synthetic key stands for. -/
def syntheticEvents : String → Option (List PhysicalEvent)
  | "AG00" => some [.button 0 true, .button 0 false]
  | "AG01" => some [.button 1 true, .button 1 false]
  | "AG02" => some [.button 2 true, .button 2 false]
  | "AG03" => some [.button 3 true, .button 3 false]
  | "AG04" => some [.button 4 true, .button 4 false]
  | "AG05" => some [.button 5 true, .button 5 false]
  | "ACT06" => some [.button 6 true, .button 6 false]
  | "ACT07" => some [.button 7 true, .button 7 false]
  | "ACT08" => some [.button 8 true, .button 8 false]
  | "ENC_CW" => some [.encoderTurn 0 1]
  | "ENC_CC" => some [.encoderTurn 0 (-1)]
  | "ENC_CLK" => some [.encoderButton 0 true, .encoderButton 0 false]
  | _ => none

/-- `messages_for_synthetic_key`. -/
def messagesForSyntheticKey (key : String) : Except String (List Value) :=
  match syntheticEvents key with
  | none => .error ("unsupported synthetic key " ++ key ++
      "; use AG00-AG05, ACT06-ACT08, ENC_CW, ENC_CC, or ENC_CLK")
  | some events => .ok (events.filterMap messageForPhysicalEvent)

end Codex
end MicroEmu
