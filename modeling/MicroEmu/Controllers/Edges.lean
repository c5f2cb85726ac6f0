import MicroEmu.Controllers.Ajazz
import MicroEmu.Controllers.StreamDeck
import MicroEmu.Library.Edges
import Mathlib.Data.List.GetD

/-!
# Presses and releases alternate

A Stream Deck has keys and encoders that are held or not, and each change of one of them is
at most one press or release of one control; an XL gives some of its keys to encoders.  An
AJAZZ keeps the controls themselves.  So the record of the events tracks what is held, and
the presses and releases of every control alternate, from a press on.
-/

namespace MicroEmu
namespace Controllers

open Bridge (ControllerKind)
open Codex (PhysicalEvent)
open Library (Alternates Tracks edgesOf)
open Wire (fromLeBytes)

/-- What an event may press or release. -/
inductive Control where
  | button (index : Nat)
  | encoderButton (index : Nat)
  deriving DecidableEq, Repr

/-- The press or release that an event is, if it is one. -/
def edge : PhysicalEvent → Option (Control × Bool)
  | .button index pressed => some (.button index, pressed)
  | .encoderButton index pressed => some (.encoderButton index, pressed)
  | _ => none

/-- The presses and releases of a control among events. -/
def edges (events : List PhysicalEvent) (control : Control) : List Bool :=
  edgesOf (events.filterMap edge) control

/-! ## Stream Decks -/

/-- What is held on a Stream Deck. -/
inductive Switch where
  | key (index : Nat)
  | encoder (index : Nat)
  deriving DecidableEq, Repr

/-- The control that a switch is reported as. -/
def controlOf (kind : ControllerKind) : Switch → Option Control
  | .key index =>
      if kind ≠ .streamDeckXl ∨ index < 9 then some (.button index)
      else if index = 19 then some (.encoderButton 0)
      else if index = 30 then some (.encoderButton 1)
      else if index = 14 then some (.encoderButton 2)
      else none
  | .encoder index => if kind ≠ .streamDeckXl then some (.encoderButton index) else none

/-- The switch that is reported as a control. -/
def switchOf (kind : ControllerKind) : Control → Option Switch
  | .button index => if kind ≠ .streamDeckXl ∨ index < 9 then some (.key index) else none
  | .encoderButton index =>
      if kind ≠ .streamDeckXl then some (.encoder index)
      else if index = 0 then some (.key 19)
      else if index = 1 then some (.key 30)
      else if index = 2 then some (.key 14)
      else none

/-- No two switches are reported as one control. -/
theorem controlOf_eq_some_iff {kind : ControllerKind} (switch : Switch) (control : Control) :
    controlOf kind switch = some control ↔ switchOf kind control = some switch := by
  by_cases hkind : kind = .streamDeckXl
  · subst hkind
    cases switch <;> cases control <;> simp only [controlOf, switchOf] <;> grind
  · cases switch <;> cases control <;> simp only [controlOf, switchOf] <;> grind

/-- A key of an XL that stands for an encoder has its edges. -/
theorem filterMap_virtualKeyEvent {kind : ControllerKind} {index : Nat}
    (h : ¬(kind ≠ .streamDeckXl ∨ index < 9)) (pressed : Bool) :
    (virtualKeyEvent kind index pressed).toList.filterMap edge =
      ((controlOf kind (.key index)).map (·, pressed)).toList := by
  simp only [virtualKeyEvent, controlOf, if_neg h]
  split <;> simp_all [edge]

/-- The event of a key is the edge of its control. -/
theorem filterMap_keyEvent (kind : ControllerKind) (index : Nat) (pressed : Bool) :
    (keyEvent kind index pressed).filterMap edge =
      ((controlOf kind (.key index)).map (·, pressed)).toList := by
  by_cases hreal : kind ≠ .streamDeckXl ∨ index < 9
  · have hnone : virtualKeyEvent kind index pressed = none := if_pos hreal
    simp only [keyEvent, hnone, controlOf, if_pos hreal]
    rfl
  · have hvirtual : keyEvent kind index pressed = (virtualKeyEvent kind index pressed).toList := by
      rw [keyEvent]
      cases virtualKeyEvent kind index pressed with
      | some event => rfl
      | none => exact if_neg hreal
    rw [hvirtual, filterMap_virtualKeyEvent hreal]

theorem getD_replicate_false (count index : Nat) :
    (List.replicate count false).getD index false = false := by
  rw [List.getD_eq_getElem?_getD]
  exact List.getElem?_getD_replicate_default_eq false count index

/-- The loop over a bitmap records the changes of what is held. -/
theorem tracks_changes {held : List Bool} {index : Nat} {values : List UInt8}
    (hfits : index + values.length ≤ held.length) :
    Tracks (fun place => held.getD place false) (changes held index values).1
      (fun place => (changes held index values).2.getD place false) := by
  induction values generalizing held index with
  | nil => exact .refl _
  | cons state values ih =>
      rw [List.length_cons] at hfits
      simp only [changes]
      split
      · exact ih (by omega)
      next hchange =>
        have hlast := ih (show index + 1 + values.length ≤ (held.set index (state != 0)).length by
          rw [List.length_set]; omega)
        have hfirst : Tracks (fun place => held.getD place false) [(index, state != 0)]
            (fun place => (held.set index (state != 0)).getD place false) := by
          refine .change hchange ?_ fun other hother => ?_
          · simp [List.getD_eq_getElem?_getD, show index < held.length by omega]
          · simp [List.getD_eq_getElem?_getD, Ne.symm hother]
        exact hfirst.trans hlast

namespace StreamDeckDevice

/-- Whether a switch is held. -/
def held (device : StreamDeckDevice) : Switch → Bool
  | .key index => device.pressedKeys.getD index false
  | .encoder index => device.pressedEncoders.getD index false

/-- Whether the switch of a control is held. -/
def holds (device : StreamDeckDevice) (control : Control) : Bool :=
  (switchOf device.profile.kind control).elim false device.held

variable {device : StreamDeckDevice}

/-- Changes of switches are edges of their controls. -/
theorem tracks_holds {after : StreamDeckDevice} {switches : List (Switch × Bool)}
    (h : Tracks device.held switches after.held)
    (hprofile : after.profile = device.profile) : Tracks device.holds
      (switches.filterMap fun change => (controlOf device.profile.kind change.1).map (·, change.2))
      after.holds := by
  have hafter : after.holds = fun control =>
      (switchOf device.profile.kind control).elim false after.held := by
    funext control
    rw [holds, hprofile]
  rw [hafter]
  exact h.rename controlOf_eq_some_iff

theorem tracks_keyEvents (payload : List UInt8) : Tracks device.holds
    ((device.keyEvents payload).1.filterMap edge) (device.keyEvents payload).2.holds := by
  have hfits : 0 + (payload.take device.profile.keyCount).length ≤ device.pressedKeys.length := by
    rw [device.keysFit, List.length_take, Nat.zero_add]
    exact Nat.min_le_left _ _
  have hkeys : Tracks device.held
      ((changes device.pressedKeys 0 (payload.take device.profile.keyCount)).1.map
        fun change => (Switch.key change.1, change.2)) (device.keyEvents payload).2.held := by
    refine (tracks_changes hfits).embed (fun _ _ heq => Switch.key.inj heq) (fun _ => rfl)
      (fun _ => rfl) fun other hother => ?_
    cases other with
    | key index => exact absurd rfl (hother index)
    | encoder index => rfl
  have hcontrols := tracks_holds hkeys rfl
  rw [List.filterMap_map] at hcontrols
  rw [keyEvents, List.filterMap_flatMap]
  simp only [filterMap_keyEvent]
  rwa [← List.filterMap_eq_flatMap_toList]

theorem filterMap_turns (index : Nat) (raw : UInt8) : (turns index raw).filterMap edge = [] := by
  refine List.filterMap_eq_nil_iff.mpr fun event hevent => ?_
  rw [List.eq_of_mem_replicate hevent]
  rfl

/-- The buttons of encoders, on a device whose encoders are its own. -/
theorem tracks_encoderEvents (hkind : device.profile.kind ≠ .streamDeckXl)
    (payload : List UInt8) : Tracks device.holds
      ((device.encoderEvents payload).1.filterMap edge) (device.encoderEvents payload).2.holds := by
  cases payload with
  | nil => exact .refl _
  | cons eventType values =>
      have hfits : 0 + (values.take device.profile.encoderCount).length ≤
          device.pressedEncoders.length := by
        rw [device.encodersFit, List.length_take, Nat.zero_add]
        exact Nat.min_le_left _ _
      rw [encoderEvents]
      split
      · rename_i hbuttons
        have hencoders : Tracks device.held
            ((changes device.pressedEncoders 0 (values.take device.profile.encoderCount)).1.map
              fun change => (Switch.encoder change.1, change.2))
            (device.encoderEvents (eventType :: values)).2.held := by
          rw [encoderEvents, if_pos hbuttons]
          refine (tracks_changes hfits).embed (fun _ _ heq => Switch.encoder.inj heq)
            (fun _ => rfl) (fun _ => rfl) fun other hother => ?_
          cases other with
          | key index => rfl
          | encoder index => exact absurd rfl (hother index)
        rw [encoderEvents, if_pos hbuttons] at hencoders
        have hcontrols := tracks_holds hencoders rfl
        have hown : ∀ index, controlOf device.profile.kind (.encoder index) =
            some (.encoderButton index) := fun index => if_pos hkind
        simp only [List.filterMap_map, Function.comp_def, hown, Option.map_some] at hcontrols
        simp only [List.filterMap_map, Function.comp_def, edge]
        exact hcontrols
      · split
        · simp only [List.filterMap_flatMap, filterMap_turns]
          rw [List.flatMap_eq_nil_iff.mpr fun _ _ => rfl]
          exact .refl _
        · exact .refl _

theorem profile_encoderEvents (payload : List UInt8) :
    (device.encoderEvents payload).2.profile = device.profile := by
  cases payload with
  | nil => rfl
  | cons eventType values =>
      rw [encoderEvents]
      split
      · rfl
      · split <;> rfl

/-- A touch of the window changes the mode, and neither the profile nor what is held. -/
theorem touchEvents_eq (payload : List UInt8) :
    (device.touchEvents payload).profile = device.profile ∧
      (device.touchEvents payload).holds = device.holds := by
  rw [touchEvents]
  split
  · exact ⟨rfl, rfl⟩
  · simp only
    split <;> exact ⟨rfl, rfl⟩

/-- The step lemma: the events of a report track what is held. -/
theorem tracks_eventsFromReport
    (hown : device.profile.encoderCount > 0 → device.profile.kind ≠ .streamDeckXl)
    (report : List UInt8) :
    Tracks device.holds ((device.eventsFromReport report).1.filterMap edge)
        (device.eventsFromReport report).2.holds ∧
      (device.eventsFromReport report).2.profile = device.profile := by
  rw [eventsFromReport]
  split
  · exact ⟨.refl _, rfl⟩
  · simp only
    split
    · exact ⟨tracks_keyEvents _, rfl⟩
    · split
      · obtain ⟨hprofile, hholds⟩ := device.touchEvents_eq
          ((report.drop 4).take (fromLeBytes (report.getD 2 0) (report.getD 3 0)).toNat)
        refine ⟨?_, hprofile⟩
        rw [hholds]
        exact .refl _
      · split
        next hencoders =>
          exact ⟨tracks_encoderEvents (hown hencoders.2) _, profile_encoderEvents _⟩
        · exact ⟨.refl _, rfl⟩

/-- The run lemma. -/
theorem tracks_eventsFromReports
    (hown : device.profile.encoderCount > 0 → device.profile.kind ≠ .streamDeckXl)
    (reports : List (List UInt8)) :
    Tracks device.holds ((device.eventsFromReports reports).1.filterMap edge)
      (device.eventsFromReports reports).2.holds := by
  induction reports generalizing device with
  | nil => exact .refl _
  | cons report reports ih =>
      obtain ⟨hfirst, hprofile⟩ := tracks_eventsFromReport hown report
      rw [eventsFromReports, List.filterMap_append]
      rw [← hprofile] at hown
      exact hfirst.trans (ih hown)

/-- Nothing is held on a new device. -/
theorem holds_new (profile : Profile) (control : Control) :
    (new profile).holds control = false := by
  rw [holds]
  cases switchOf (new profile).profile.kind control with
  | none => rfl
  | some switch =>
      cases switch with
      | key index => exact getD_replicate_false _ index
      | encoder index => exact getD_replicate_false _ index

end StreamDeckDevice

/-! ## AJAZZ -/

namespace AjazzDevice

/-- Whether a control is held. -/
def holds (device : AjazzDevice) : Control → Bool
  | .button index => decide (index ∈ device.pressedButtons)
  | .encoderButton index => device.pressedEncoders.toList.getD index false

variable {device : AjazzDevice}

/-- The code that releases all buttons. -/
theorem tracks_drain (order : DrainOrder) : Tracks device.holds
    (((order.walk device.pressedButtons).map
      fun index => PhysicalEvent.button index false).filterMap edge)
    ({ device with pressedButtons := [], nodup := List.nodup_nil } : AjazzDevice).holds := by
  have hperm := order.perm device.pressedButtons
  have hedges : ((order.walk device.pressedButtons).map
      fun index => PhysicalEvent.button index false).filterMap edge =
        ((order.walk device.pressedButtons).map Control.button).map (·, false) := by
    rw [List.filterMap_map, List.map_map, ← List.filterMap_eq_map]
    rfl
  rw [hedges]
  refine .release ((hperm.nodup_iff.mpr device.nodup).map fun _ _ heq => Control.button.inj heq)
    (fun control hcontrol => ?_) fun control => ?_
  · obtain ⟨index, hindex, rfl⟩ := List.mem_map.mp hcontrol
    exact decide_eq_true (hperm.mem_iff.mp hindex)
  · cases control with
    | button index => simp [holds, hperm.mem_iff]
    | encoderButton index => simp [holds]

theorem tracks_toggle (index : Nat) : Tracks device.holds
    [(.button index, (device.toggle index).1)] (device.toggle index).2.holds := by
  rw [toggle]
  split
  next hpressed =>
    refine .change (by simp [holds, hpressed]) (by simp [holds, device.nodup.mem_erase_iff])
      fun other hother => ?_
    cases other with
    | button other =>
        have hne : other ≠ index := fun heq => hother (heq ▸ rfl)
        simp [holds, List.mem_erase_of_ne hne]
    | encoderButton other => rfl
  next hpressed =>
    refine .change (by simp [holds, hpressed]) (by simp [holds]) fun other hother => ?_
    cases other with
    | button other =>
        have hne : other ≠ index := fun heq => hother (heq ▸ rfl)
        simp [holds, hne]
    | encoderButton other => rfl

/-- The step lemma: the events of a code track what is held. -/
theorem tracks_eventsFromCode (order : DrainOrder) (code : UInt8) :
    Tracks device.holds ((device.eventsFromCode order code).1.filterMap edge)
      (device.eventsFromCode order code).2.holds := by
  rw [eventsFromCode]
  split
  · exact tracks_drain order
  · cases buttonOf code with
    | some index => exact tracks_toggle index
    | none =>
        cases turnOf code with
        | some turn => exact .refl _
        | none =>
            cases encoderOf code with
            | none => exact .refl _
            | some index =>
                refine .change ?_ ?_ fun other hother => ?_
                · simp [holds, List.getD_eq_getElem?_getD]
                · simp [holds, List.getD_eq_getElem?_getD]
                · cases other with
                  | button other => rfl
                  | encoderButton other =>
                      have hne : index.val ≠ other := fun heq => hother (heq ▸ rfl)
                      simp [holds, List.getD_eq_getElem?_getD, hne]

/-- The run lemma. -/
theorem tracks_eventsFromCodes (codes : List (DrainOrder × UInt8)) :
    Tracks device.holds ((device.eventsFromCodes codes).1.filterMap edge)
      (device.eventsFromCodes codes).2.holds := by
  induction codes generalizing device with
  | nil => exact .refl _
  | cons code codes ih =>
      rw [eventsFromCodes, List.filterMap_append]
      exact (tracks_eventsFromCode code.1 code.2).trans ih

theorem holds_new (control : Control) : new.holds control = false := by
  cases control with
  | button index => rfl
  | encoderButton index =>
      rw [holds, new, Vector.toList_replicate]
      exact getD_replicate_false _ index

end AjazzDevice

/-- The Stream Decks that are known. -/
def profiles : List Profile := [.plus, .xl, .plusXl]

/-- Whatever is reported, the presses and releases of each control alternate and begin with
a press. -/
theorem edges_alternate :
    (∀ profile ∈ profiles, ∀ reports control, Alternates false
      (edges ((StreamDeckDevice.new profile).eventsFromReports reports).1 control)) ∧
    ∀ codes control,
      Alternates false (edges (AjazzDevice.new.eventsFromCodes codes).1 control) := by
  constructor
  · intro profile hprofile reports control
    have hown : profile.encoderCount > 0 → profile.kind ≠ .streamDeckXl := by
      revert profile
      decide
    have htracks : Tracks (StreamDeckDevice.new profile).holds _ _ :=
      StreamDeckDevice.tracks_eventsFromReports hown reports
    rw [← StreamDeckDevice.holds_new profile control]
    exact htracks.alternates control
  · intro codes control
    rw [← AjazzDevice.holds_new control]
    exact (AjazzDevice.tracks_eventsFromCodes codes).alternates control

end Controllers
end MicroEmu
