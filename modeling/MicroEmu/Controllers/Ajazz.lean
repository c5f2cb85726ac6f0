import MicroEmu.Codex

/-!
# The AJAZZ controller

An AJAZZ controller reports codes.  The code of a control toggles it, and one code releases
all buttons; the driver keeps what is pressed.
-/

namespace MicroEmu
namespace Controllers

open Codex (PhysicalEvent)

/-- `AjazzDevice`. -/
structure AjazzDevice where
  /-- A set, in no order. -/
  pressedButtons : List Nat
  nodup : pressedButtons.Nodup
  pressedEncoders : Vector Bool 3

/-- The order in which a set of buttons is drained. -/
structure DrainOrder where
  walk : List Nat → List Nat
  perm : ∀ buttons, (walk buttons).Perm buttons

/-- The button of a code. -/
def buttonOf (code : UInt8) : Option Nat :=
  if 1 ≤ code.toNat ∧ code.toNat ≤ 6 then some (code.toNat - 1)
  else if code = 0x25 then some 6
  else if code = 0x30 then some 7
  else if code = 0x31 then some 8
  else none

/-- The turn of a code, the encoder and its direction. -/
def turnOf (code : UInt8) : Option (Nat × Int) :=
  if code = 0x90 then some (0, -1)
  else if code = 0x91 then some (0, 1)
  else if code = 0x50 then some (1, -1)
  else if code = 0x51 then some (1, 1)
  else if code = 0x60 then some (2, -1)
  else if code = 0x61 then some (2, 1)
  else none

/-- The encoder button of a code. -/
def encoderOf (code : UInt8) : Option (Fin 3) :=
  if code = 0x33 then some 0
  else if code = 0x35 then some 1
  else if code = 0x34 then some 2
  else none

namespace AjazzDevice

/-- The device as `connect` makes it. -/
def new : AjazzDevice := ⟨[], List.nodup_nil, Vector.replicate 3 false⟩

variable (device : AjazzDevice)

/-- A button that is pressed is released, any other is pressed. -/
def toggle (index : Nat) : Bool × AjazzDevice :=
  if h : index ∈ device.pressedButtons then
    (false, { device with
      pressedButtons := device.pressedButtons.erase index
      nodup := device.nodup.erase index })
  else
    (true, { device with
      pressedButtons := index :: device.pressedButtons
      nodup := List.nodup_cons.mpr ⟨h, device.nodup⟩ })

/-- `events_from_code`. -/
def eventsFromCode (order : DrainOrder) (code : UInt8) : List PhysicalEvent × AjazzDevice :=
  if code = 0 then
    ((order.walk device.pressedButtons).map fun index => .button index false,
      { device with pressedButtons := [], nodup := List.nodup_nil })
  else
    match buttonOf code with
    | some index =>
        let toggled := device.toggle index
        ([.button index toggled.1], toggled.2)
    | none =>
        match turnOf code with
        | some turn => ([.encoderTurn turn.1 turn.2], device)
        | none =>
            match encoderOf code with
            | some index =>
                let pressed := !device.pressedEncoders[index]
                ([.encoderButton index pressed],
                  { device with pressedEncoders := device.pressedEncoders.set index pressed })
            | none => ([], device)

/-- The events of codes, one after another. -/
def eventsFromCodes (device : AjazzDevice) :
    List (DrainOrder × UInt8) → List PhysicalEvent × AjazzDevice
  | [] => ([], device)
  | code :: codes =>
      let first := device.eventsFromCode code.1 code.2
      let last := first.2.eventsFromCodes codes
      (first.1 ++ last.1, last.2)

end AjazzDevice

end Controllers
end MicroEmu
