import MicroEmu.Bridge.Runtime
import MicroEmu.Library.Sweep
import MicroEmu.Wire.Frame

/-!
# Stream Decks

A Stream Deck on USB reports bitmaps of its keys and encoders, turns of the encoders, and
touches of its window; the driver makes events of what has changed.  The states of the
first eight keys are painted one key at a time, from the newest complete state.
-/

namespace MicroEmu
namespace Controllers

open Bridge (ControllerKind)
open Codex (PhysicalEvent)
open Json (Value)
open Wire (fromLeBytes)

/-- `STATUS_SLOTS`. -/
def statusSlots : Nat := 8

instance : NeZero statusSlots := ⟨by decide⟩

/-- `HID_KEY_MIN_INTERVAL`, in milliseconds. -/
def hidKeyMinInterval : Nat := 100

inductive DisplayMode where
  | context
  | usage
  deriving DecidableEq, Repr

/-- A model of Stream Deck. -/
structure Profile where
  kind : ControllerKind
  keyCount : Nat
  encoderCount : Nat
  window : Option (Nat × Nat)
  deriving DecidableEq, Repr

/-- `PLUS`. -/
def Profile.plus : Profile := ⟨.streamDeckPlus, 8, 4, some (800, 100)⟩

/-- `XL`. -/
def Profile.xl : Profile := ⟨.streamDeckXl, 32, 0, none⟩

/-- `PLUS_XL`. -/
def Profile.plusXl : Profile := ⟨.streamDeckPlusXl, 36, 6, some (1200, 100)⟩

/-- What a key shows: the colour with its brightness, and the agent. -/
structure KeyStatus where
  color : Option (Nat × Nat)
  agent : Option String
  deriving DecidableEq, Repr

/-- A key that shows nothing. -/
def KeyStatus.blank : KeyStatus := ⟨none, none⟩

/-- What the status keys show, `colors` with `agents`. -/
abbrev KeyStates : Type := Vector KeyStatus statusSlots

/-- `StreamDeckDevice`. -/
structure StreamDeckDevice where
  profile : Profile
  pressedKeys : List Bool
  pressedEncoders : List Bool
  /-- There is one entry for each key and each encoder. -/
  keysFit : pressedKeys.length = profile.keyCount
  encodersFit : pressedEncoders.length = profile.encoderCount
  displayMode : DisplayMode
  /-- `last_colors` with `last_agents`. -/
  lastKeys : KeyStates
  pendingKeyStatus : Option KeyStates
  lastKeyWriteAt : Option Nat
  nextKeyWriteIndex : Fin statusSlots

namespace StreamDeckDevice

/-- The device as `connect` makes it. -/
def new (profile : Profile) : StreamDeckDevice where
  profile := profile
  pressedKeys := List.replicate profile.keyCount false
  pressedEncoders := List.replicate profile.encoderCount false
  keysFit := List.length_replicate
  encodersFit := List.length_replicate
  displayMode := .context
  lastKeys := Vector.replicate statusSlots .blank
  pendingKeyStatus := none
  lastKeyWriteAt := none
  nextKeyWriteIndex := 0

end StreamDeckDevice

/-! ## Reports -/

/-- `virtual_key_event`: some keys of an XL stand for encoders. -/
def virtualKeyEvent (kind : ControllerKind) (index : Nat) (pressed : Bool) :
    Option PhysicalEvent :=
  if kind ≠ .streamDeckXl ∨ index < 9 then none
  else
    match index, pressed with
    | 11, true => some (.encoderTurn 2 1)
    | 27, true => some (.encoderTurn 2 (-1))
    | 18, true => some (.encoderTurn 0 (-1))
    | 20, true => some (.encoderTurn 0 1)
    | 29, true => some (.encoderTurn 1 (-1))
    | 31, true => some (.encoderTurn 1 1)
    | 19, pressed => some (.encoderButton 0 pressed)
    | 14, pressed => some (.encoderButton 2 pressed)
    | 30, pressed => some (.encoderButton 1 pressed)
    | _, _ => none

/-- The events of a key that has changed. -/
def keyEvent (kind : ControllerKind) (index : Nat) (pressed : Bool) : List PhysicalEvent :=
  match virtualKeyEvent kind index pressed with
  | some event => [event]
  | none =>
      if kind ≠ .streamDeckXl ∨ index < 9 then [.button index pressed] else []

/-- The loop over a bitmap, from an index on: the entries that have changed, and what is
held then. -/
def changes (held : List Bool) : Nat → List UInt8 → List (Nat × Bool) × List Bool
  | _, [] => ([], held)
  | index, state :: values =>
      let pressed := state != 0
      if pressed = held.getD index false then changes held (index + 1) values
      else
        let last := changes (held.set index pressed) (index + 1) values
        ((index, pressed) :: last.1, last.2)

theorem length_changes (held : List Bool) (index : Nat) (values : List UInt8) :
    (changes held index values).2.length = held.length := by
  induction values generalizing held index with
  | nil => rfl
  | cons state values ih =>
      simp only [changes]
      split
      · exact ih held (index + 1)
      · exact (ih _ (index + 1)).trans List.length_set

/-- `raw as i8`. -/
def asI8 (raw : UInt8) : Int := if raw.toNat < 128 then raw.toNat else raw.toNat - 256

namespace StreamDeckDevice

variable (device : StreamDeckDevice)

/-- `key_events`. -/
def keyEvents (payload : List UInt8) : List PhysicalEvent × StreamDeckDevice :=
  let changed := changes device.pressedKeys 0 (payload.take device.profile.keyCount)
  (changed.1.flatMap fun change => keyEvent device.profile.kind change.1 change.2,
    { device with
      pressedKeys := changed.2
      keysFit := (length_changes _ _ _).trans device.keysFit })

/-- The turns of an encoder, one event for each detent. -/
def turns (index : Nat) (raw : UInt8) : List PhysicalEvent :=
  List.replicate (asI8 raw).natAbs (.encoderTurn index (asI8 raw).sign)

/-- `encoder_events`. -/
def encoderEvents (payload : List UInt8) : List PhysicalEvent × StreamDeckDevice :=
  match payload with
  | [] => ([], device)
  | eventType :: values =>
      let values := values.take device.profile.encoderCount
      if eventType = 0x00 then
        let changed := changes device.pressedEncoders 0 values
        (changed.1.map fun change => .encoderButton change.1 change.2,
          { device with
            pressedEncoders := changed.2
            encodersFit := (length_changes _ _ _).trans device.encodersFit })
      else if eventType = 0x01 then
        (values.zipIdx.flatMap fun value => turns value.2 value.1, device)
      else ([], device)

/-- The mode that `touch_events` switches to, from a flick over the window. -/
def touchEvents (payload : List UInt8) : StreamDeckDevice :=
  if device.profile.window = none ∨ payload.length < 10 ∨ payload.getD 0 0 ≠ 0x03 then device
  else
    let word (index : Nat) : Nat :=
      (fromLeBytes (payload.getD index 0) (payload.getD (index + 1) 0)).toNat
    let horizontal := max (word 6) (word 2) - min (word 6) (word 2)
    let vertical := max (word 8) (word 4) - min (word 8) (word 4)
    if horizontal = 0 ∨ min (horizontal * 2) 65535 < vertical then device
    else { device with displayMode := if word 6 < word 2 then .usage else .context }

/-- `events_from_report`. -/
def eventsFromReport (report : List UInt8) : List PhysicalEvent × StreamDeckDevice :=
  if report.length < 4 ∨ report.getD 0 0 ≠ 0x01 then ([], device)
  else
    let length := (fromLeBytes (report.getD 2 0) (report.getD 3 0)).toNat
    let payload := (report.drop 4).take length
    if report.getD 1 0 = 0x00 then device.keyEvents payload
    else if report.getD 1 0 = 0x02 then ([], device.touchEvents payload)
    else if report.getD 1 0 = 0x03 ∧ device.profile.encoderCount > 0 then
      device.encoderEvents payload
    else ([], device)

/-- The events of reports, one after another. -/
def eventsFromReports (device : StreamDeckDevice) :
    List (List UInt8) → List PhysicalEvent × StreamDeckDevice
  | [] => ([], device)
  | report :: reports =>
      let first := device.eventsFromReport report
      let last := first.2.eventsFromReports reports
      (first.1 ++ last.1, last.2)

end StreamDeckDevice

/-! ## Status keys -/

/-- What a flush meets outside: the time, and what came of the write of an image. -/
structure Attempt where
  now : Nat
  written : Except String Unit
  writtenAt : Nat

/-- What a flush or an update comes to, with the image it has written to a key. -/
structure Flushed where
  result : Except String Unit
  write : Option (Nat × List UInt8)
  device : StreamDeckDevice

/-- `b`, from none to all of the brightness. -/
def brightnessOf (entry : Value) : Json.F64 :=
  max 0 (min 1 (((entry.get? "b").bind Value.asF64).getD 1))

/-- What an entry says about its key. -/
def statusOf (entry : Value) : KeyStatus :=
  let color := ((entry.get? "c").bind Value.asU64).getD 0 % 2 ^ 32
  let brightness := brightnessOf entry
  if (entry.get? "e").bind Value.asU64 = some 0 ∨ brightness ≤ Json.f64Epsilon then .blank
  else
    ⟨some (color &&& 0x00ffffff, ⌊Json.toF64 (brightness * 100)⌋.toNat),
      (entry.get? "agent").bind Value.asStr⟩

/-- One entry of an update. -/
def applyEntry (keys : KeyStates) (entry : Value) : KeyStates :=
  match (entry.get? "id").bind Value.asU64 with
  | none => keys
  | some id => if h : id < statusSlots then keys.set id (statusOf entry) h else keys

namespace StreamDeckDevice

variable (encodeImage : Fin statusSlots → KeyStatus → Except String (List UInt8))
  (device : StreamDeckDevice) (attempt : Attempt)

/-- The last image was written a moment ago. -/
def rateLimited : Prop :=
  ∃ writtenAt, device.lastKeyWriteAt = some writtenAt ∧
    attempt.now - writtenAt < hidKeyMinInterval

instance : Decidable (device.rateLimited attempt) :=
  match h : device.lastKeyWriteAt with
  | none => .isFalse (fun ⟨_, hsome, _⟩ => by rw [h] at hsome; cases hsome)
  | some writtenAt =>
      decidable_of_iff (attempt.now - writtenAt < hidKeyMinInterval)
        ⟨fun hless => ⟨writtenAt, h, hless⟩, fun ⟨other, hsome, hless⟩ => by
          obtain rfl := Option.some.inj (h.symm.trans hsome)
          exact hless⟩

/-- `flush_key_status`, with the encoder of images; at most one image is written. -/
def flushKeyStatus : Flushed :=
  match device.pendingKeyStatus with
  | none => ⟨.ok (), none, device⟩
  | some pending =>
      if device.rateLimited attempt then ⟨.ok (), none, device⟩
      else
        match Library.nextFrom device.nextKeyWriteIndex
            fun index => device.lastKeys.get index != pending.get index with
        | none => ⟨.ok (), none, { device with pendingKeyStatus := none }⟩
        | some index =>
            match encodeImage index (pending.get index) with
            | .error error => ⟨.error error, none, device⟩
            | .ok image =>
                match attempt.written with
                | .error error => ⟨.error error, none, device⟩
                | .ok () =>
                    ⟨.ok (), some (index.val, image),
                      { device with
                        lastKeys := device.lastKeys.set index (pending.get index) index.isLt
                        lastKeyWriteAt := some attempt.writtenAt
                        nextKeyWriteIndex := Fin.ofNat statusSlots (index + 1) }⟩

/-- The state that `apply_thread_status` leaves pending. -/
def withStatus (entries : List Value) : StreamDeckDevice :=
  { device with
    pendingKeyStatus :=
      some (entries.foldl applyEntry (device.pendingKeyStatus.getD device.lastKeys)) }

/-- `apply_thread_status`. -/
def applyThreadStatus (parameters : Value) : Flushed :=
  match parameters.asArray with
  | none => ⟨.error "v.oai.thstatus parameters must be an array", none, device⟩
  | some entries => (device.withStatus entries).flushKeyStatus encodeImage attempt

end StreamDeckDevice

end Controllers
end MicroEmu
