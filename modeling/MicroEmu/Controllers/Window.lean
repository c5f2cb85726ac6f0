import MicroEmu.Controllers.StreamDeck
import MicroEmu.Controllers.Transfer

/-!
# The window of a Stream Deck

Behind the keys some Stream Decks have a window.  It shows the display context or the usage
of the agents, and a flick over it switches between the two.  What it should show waits until
the last image is a moment old; a flick does not wait.  An image that could not be written
stays to be written.
-/

namespace MicroEmu
namespace Controllers

open Bridge (DisplayContext)
open Codex (PhysicalEvent)
open Json (Value)
open Library (assemble assemble_append)
open Wire (fromLeBytes)

/-- `HID_WINDOW_MIN_INTERVAL`, in milliseconds. -/
def hidWindowMinInterval : Nat := 100

/-- `PartialEq` of the snapshots of all agents. -/
def sameUsage : Option Value → Option Value → Bool
  | none, none => true
  | some usage, some other => usage.same other
  | _, _ => false

/-- `PartialEq` of `DisplayContext`. -/
def sameContext (context other : DisplayContext) : Bool :=
  context.project == other.project && context.task == other.task &&
    context.model == other.model && context.effort == other.effort &&
    context.status == other.status && context.progress == other.progress &&
    context.taskId == other.taskId && context.weeklyRemaining == other.weeklyRemaining &&
    context.fiveHourRemaining == other.fiveHourRemaining &&
    context.weeklyResetAt == other.weeklyResetAt &&
    context.fiveHourResetAt == other.fiveHourResetAt && context.usageAgent == other.usageAgent &&
    sameUsage context.agentsUsage other.agentsUsage &&
    context.waitReason == other.waitReason && context.prompt == other.prompt &&
    context.interactionId == other.interactionId && context.shortAction == other.shortAction &&
    context.longAction == other.longAction && context.pendingWaitCount == other.pendingWaitCount

/-- `StreamDeckDevice` with its window and the reports it has written. -/
structure StreamDeckScreen extends StreamDeckDevice where
  lastDisplayContext : Option DisplayContext
  displayContext : Option DisplayContext
  lastDisplayMode : Option DisplayMode
  pendingDisplayContext : Option DisplayContext
  pendingDisplayMode : Option DisplayMode
  lastDisplayWriteAt : Option Nat
  port : HidPort

/-- The time that a flush sees, and the time behind its write. -/
structure Moment where
  now : Nat
  writtenAt : Nat

/-- The times of the flushes of one poll. -/
structure PollMoments where
  first : Moment
  touch : Moment
  keys : Moment
  last : Moment

/-- What the driver paints with and writes to. -/
structure Painting where
  /-- The encoded image of a key. -/
  encodeImage : Fin statusSlots → KeyStatus → Except String (List UInt8)
  /-- `render_window_image` and `render_usage_image` for the window of the profile. -/
  renderWindow : DisplayMode → DisplayContext → Nat × Nat → Except String (List UInt8)
  /-- What the device answers to each write. -/
  device : Nat → Except String Nat

/-- Every image can be sent. -/
structure Painting.Sendable (painting : Painting) : Prop where
  keys : ∀ {index status image}, painting.encodeImage index status = .ok image →
    Controllers.Sendable image
  window : ∀ {mode context size image}, painting.renderWindow mode context size = .ok image →
    Controllers.Sendable image

namespace StreamDeckScreen

/-- The device as `connect` makes it. -/
def new (profile : Profile) : StreamDeckScreen where
  toStreamDeckDevice := .new profile
  lastDisplayContext := none
  displayContext := none
  lastDisplayMode := none
  pendingDisplayContext := none
  pendingDisplayMode := none
  lastDisplayWriteAt := none
  port := .new

variable (painting : Painting) (screen : StreamDeckScreen)

/-- Nothing waits to be shown. -/
def settle : StreamDeckScreen :=
  { screen with pendingDisplayContext := none, pendingDisplayMode := none }

/-- The context has been shown in the mode. -/
def showing (context : DisplayContext) (mode : DisplayMode) : StreamDeckScreen :=
  { screen.settle with lastDisplayContext := some context, lastDisplayMode := some mode }

/-- The context waits to be shown in the mode of the moment. -/
def waiting (context : DisplayContext) : StreamDeckScreen :=
  { screen with
    pendingDisplayContext := some context
    pendingDisplayMode := some screen.displayMode }

/-- The context in the mode was shown last. -/
def shows (context : DisplayContext) (mode : DisplayMode) : Bool :=
  (screen.lastDisplayContext.any fun last => sameContext last context) &&
    screen.lastDisplayMode == some mode

/-- The last image of the window is a moment old. -/
def windowRested (now : Nat) : Bool :=
  screen.lastDisplayWriteAt.all fun writtenAt => decide (hidWindowMinInterval ≤ now - writtenAt)

/-- The image of the window in `flush_display_context`. -/
def paintWindow (context : DisplayContext) (mode : DisplayMode) (moment : Moment) :
    Except String Unit × StreamDeckScreen :=
  match screen.profile.window with
  | none => (.ok (), screen.showing context mode)
  | some size =>
      match painting.renderWindow mode context size with
      | .error error => (.error error, screen)
      | .ok image =>
          let sent := writeWindowImage painting.device image screen.port
          match sent.1 with
          | .error error => (.error error, { screen with port := sent.2 })
          | .ok () =>
              (.ok (), { screen.showing context mode with
                port := sent.2
                lastDisplayWriteAt := some moment.writtenAt })

/-- `flush_display_context`. -/
def flushDisplayContext (force : Bool) (moment : Moment) :
    Except String Unit × StreamDeckScreen :=
  match screen.pendingDisplayContext with
  | none => (.ok (), screen)
  | some context =>
      let mode := screen.pendingDisplayMode.getD screen.displayMode
      if screen.shows context mode then (.ok (), screen.settle)
      else if !force && !screen.windowRested moment.now then (.ok (), screen)
      else screen.paintWindow painting context mode moment

/-- `events_from_report`; a flick that switches the mode is shown at once, and whether that
has worked is not told. -/
def eventsFromReport (report : List UInt8) (moment : Moment) :
    List PhysicalEvent × StreamDeckScreen :=
  let seen := screen.toStreamDeckDevice.eventsFromReport report
  let after := { screen with toStreamDeckDevice := seen.2 }
  if seen.2.displayMode = screen.displayMode then (seen.1, after)
  else
    (seen.1, ((after.waiting (screen.displayContext.getD {})).flushDisplayContext painting true
      moment).2)

/-- `flush_key_status`: the image that a flush would write is written, and what came of it
decides about the flush. -/
def flushKeys (moment : Moment) : Except String Unit × StreamDeckScreen :=
  let flush (written : Except String Unit) : Flushed :=
    screen.toStreamDeckDevice.flushKeyStatus painting.encodeImage
      ⟨moment.now, written, moment.writtenAt⟩
  match (flush (.ok ())).write with
  | none => ((flush (.ok ())).result, { screen with toStreamDeckDevice := (flush (.ok ())).device })
  | some (key, image) =>
      let sent := writeKeyImage painting.device key image screen.port
      ((flush sent.1).result, { screen with
        toStreamDeckDevice := (flush sent.1).device
        port := sent.2 })

/-- `poll`, with what is read from the device. -/
def poll (read : Except String (List UInt8)) (moments : PollMoments) :
    Except String (List PhysicalEvent) × StreamDeckScreen :=
  let first := screen.flushDisplayContext painting false moments.first
  match first.1 with
  | .error error => (.error error, first.2)
  | .ok () =>
      match read with
      | .error error => (.error error, first.2)
      | .ok report =>
          let seen := first.2.eventsFromReport painting report moments.touch
          let keys := seen.2.flushKeys painting moments.keys
          match keys.1 with
          | .error error => (.error error, keys.2)
          | .ok () =>
              let last := keys.2.flushDisplayContext painting false moments.last
              (last.1.map fun _ => seen.1, last.2)

/-- `apply_thread_status`. -/
def applyThreadStatus (parameters : Value) (moment : Moment) :
    Except String Unit × StreamDeckScreen :=
  match parameters.asArray with
  | none => (.error "v.oai.thstatus parameters must be an array", screen)
  | some entries =>
      { screen with toStreamDeckDevice := screen.toStreamDeckDevice.withStatus entries
        : StreamDeckScreen }.flushKeys painting moment

/-- `apply_display_context`. -/
def applyDisplayContext (context : DisplayContext) (moment : Moment) :
    Except String Unit × StreamDeckScreen :=
  let asked := { screen with displayContext := some context }
  if asked.shows context asked.displayMode ∧ asked.pendingDisplayContext.isNone then (.ok (), asked)
  else (asked.waiting context).flushDisplayContext painting false moment

end StreamDeckScreen

/-! ## Runs -/

/-- A call of the driver. -/
inductive ScreenCall where
  | poll (read : Except String (List UInt8)) (moments : PollMoments)
  | applyThreadStatus (parameters : Value) (moment : Moment)
  | applyDisplayContext (context : DisplayContext) (moment : Moment)

namespace StreamDeckScreen

/-- What a call leaves behind. -/
def call (painting : Painting) (screen : StreamDeckScreen) : ScreenCall → StreamDeckScreen
  | .poll read moments => (screen.poll painting read moments).2
  | .applyThreadStatus parameters moment =>
      (screen.applyThreadStatus painting parameters moment).2
  | .applyDisplayContext context moment =>
      (screen.applyDisplayContext painting context moment).2

/-- The context that the window should show. -/
def current (screen : StreamDeckScreen) : DisplayContext := screen.displayContext.getD {}

/-- The report that a call reads: a poll of which the first flush has failed reads none. -/
def reportRead (painting : Painting) (screen : StreamDeckScreen) :
    ScreenCall → Option (List UInt8)
  | .poll (.ok report) moments =>
      if (screen.flushDisplayContext painting false moments.first).1.toBool then some report
      else none
  | _ => none

/-- The reports that calls read, one after another. -/
def reportsRead (painting : Painting) : StreamDeckScreen → List ScreenCall → List (List UInt8)
  | _, [] => []
  | screen, call :: calls =>
      (screen.reportRead painting call).toList ++
        reportsRead painting (screen.call painting call) calls

end StreamDeckScreen

/-- The mode that a flick asks for that goes from one point of the window to another and is at
most twice as high as it is wide: to the left the usage, to the right the context. -/
def flickMode (x y x' y' : Nat) : Option DisplayMode :=
  if x' ≠ x ∧ ((y' : Int) - y).natAbs ≤ 2 * ((x' : Int) - x).natAbs then
    some (if x' < x then .usage else .context)
  else none

/-- The mode that a report asks for, when it tells of a flick over the window: the points where
it starts and ends are in the bytes 6 to 13. -/
def flickOf (profile : Profile) (report : List UInt8) : Option DisplayMode :=
  let word (index : Nat) : Nat :=
    (fromLeBytes (report.getD index 0) (report.getD (index + 1) 0)).toNat
  if profile.window.isSome ∧ 14 ≤ report.length ∧ report.getD 0 0 = 0x01 ∧
      report.getD 1 0 = 0x02 ∧ 10 ≤ word 2 ∧ report.getD 4 0 = 0x03 then
    flickMode (word 6) (word 8) (word 10) (word 12)
  else none

/-- The image of the window, as the device puts it together. -/
def windowImage (port : HidPort) : Option (List UInt8) :=
  (((shownImages port).filter fun shown => shown.1 = .window).getLast?).map Prod.snd

/-! ## What is written -/

variable {device : Nat → Except String Nat} {painting : Painting}

/-- An image that was sent is shown behind the others; one that was not changes nothing. -/
theorem shownImages_writeImage {send : Surface × List UInt8} (h : Sendable send.2)
    (port : HidPort) :
    shownImages (writeImage device send port).2 =
      shownImages port ++ if (writeImage device send port).1.toBool then [send] else [] := by
  obtain ⟨reports, htaken, -, houtcome⟩ := writeImage_spec device h port
  rw [shownImages, htaken, List.filterMap_append, assemble_append]
  rcases houtcome with ⟨hok, hone⟩ | ⟨count, error, herror, -, hnone⟩
  · rw [hone, hok]
    rfl
  · rw [hnone, herror]
    rfl

/-- A key does not show in the window. -/
theorem windowImage_writeKeyImage {image : List UInt8} (h : Sendable image) (key : Nat)
    (port : HidPort) : windowImage (writeKeyImage device key image port).2 = windowImage port := by
  have htarget : UInt8.ofNat (UInt8.ofNat key).toNat = UInt8.ofNat key := UInt8.ofNat_toNat
  have hsend : writeKeyImage device key image port =
      writeImage device (.key (UInt8.ofNat key), image) port := by
    simp only [writeImage, writeKeyImage, htarget]
  rw [windowImage, windowImage, hsend, shownImages_writeImage h, List.filter_append]
  split <;> simp

theorem windowImage_writeWindowImage {image : List UInt8} (h : Sendable image)
    (port : HidPort) :
    windowImage (writeWindowImage device image port).2 =
      if (writeWindowImage device image port).1.toBool then some image else windowImage port := by
  have hsend : writeWindowImage device image port = writeImage device (.window, image) port := rfl
  rw [windowImage, windowImage, hsend, shownImages_writeImage h, List.filter_append]
  split <;> simp

/-- A device that takes one of any five writes takes every image. -/
theorem writeWindowImage_of_takes
    (htakes : ∀ first, ∃ attempt ≤ 4, shortfall 1024 (device (first + attempt)) = none)
    {image : List UInt8} (h : Sendable image) (port : HidPort) :
    (writeWindowImage device image port).1 = .ok () := by
  have hsend : writeWindowImage device image port = writeImage device (.window, image) port := rfl
  obtain ⟨reports, -, -, houtcome⟩ :=
    @writeImage_spec device (.window, image) h port
  rcases houtcome with ⟨hok, -⟩ | ⟨count, error, -, hgiven, -⟩
  · exact hsend ▸ hok
  · obtain ⟨attempt, hattempt, hnone⟩ := htakes _
    have hsome := hgiven.refused.1 attempt hattempt
    rw [show outputReportBytes = 1024 from rfl, hnone] at hsome
    cases hsome

/-! ## What the keys leave alone -/

namespace StreamDeckDevice

/-- The part of the device that its keys do not change. -/
def panel (device : StreamDeckDevice) : Profile × DisplayMode :=
  (device.profile, device.displayMode)

theorem panel_flushKeyStatus (encodeImage : Fin statusSlots → KeyStatus →
      Except String (List UInt8)) (device : StreamDeckDevice) (attempt : Attempt) :
    (device.flushKeyStatus encodeImage attempt).device.panel = device.panel := by
  unfold flushKeyStatus
  split
  · rfl
  · split
    · rfl
    · split
      · rfl
      · split
        · rfl
        · split <;> rfl

/-- What a flush writes was encoded. -/
theorem encoded_of_flushKeyStatus {encodeImage : Fin statusSlots → KeyStatus →
      Except String (List UInt8)} {device : StreamDeckDevice} {attempt : Attempt} {key : Nat}
    {image : List UInt8}
    (h : (device.flushKeyStatus encodeImage attempt).write = some (key, image)) :
    ∃ index status, encodeImage index status = .ok image := by
  unfold flushKeyStatus at h
  split at h
  · cases h
  · split at h
    · cases h
    · split at h
      · cases h
      · split at h
        · cases h
        next hencoded =>
          split at h
          · cases h
          · cases h
            exact ⟨_, _, hencoded⟩

theorem profile_eventsFromReport (device : StreamDeckDevice) (report : List UInt8) :
    (device.eventsFromReport report).2.profile = device.profile := by
  unfold eventsFromReport
  split
  · rfl
  · simp only
    split
    · rfl
    · split
      · unfold touchEvents
        split
        · rfl
        · simp only
          split <;> rfl
      · split
        · unfold encoderEvents
          split
          · rfl
          · simp only
            split
            · rfl
            · split <;> rfl
        · rfl

theorem getD_payload {report : List UInt8} {index length : Nat} (h : index < length) :
    ((report.drop 4).take length).getD index 0 = report.getD (index + 4) 0 := by
  simp [h, Nat.add_comm]

/-- The doubled width saturates above every height. -/
theorem flick_iff {x y x' y' : Nat} (hy : y < 2 ^ 16) (hy' : y' < 2 ^ 16) :
    (max x' x - min x' x = 0 ∨
        min ((max x' x - min x' x) * 2) 65535 < max y' y - min y' y) ↔
      ¬(x' ≠ x ∧ ((y' : Int) - y).natAbs ≤ 2 * ((x' : Int) - x).natAbs) := by
  omega

theorem displayMode_touchEvents (device : StreamDeckDevice) (payload : List UInt8) :
    let word (index : Nat) : Nat :=
      (fromLeBytes (payload.getD index 0) (payload.getD (index + 1) 0)).toNat
    (device.touchEvents payload).displayMode =
      (if device.profile.window.isSome ∧ 10 ≤ payload.length ∧ payload.getD 0 0 = 0x03 then
        flickMode (word 2) (word 4) (word 6) (word 8)
      else none).getD device.displayMode := by
  intro word
  have hflick := @flick_iff (word 2) (word 4) (word 6) (word 8) (UInt16.toNat_lt _)
    (UInt16.toNat_lt _)
  by_cases htouch : device.profile.window = none ∨ payload.length < 10 ∨ payload.getD 0 0 ≠ 0x03
  · rw [touchEvents, if_pos htouch, if_neg]
    · rfl
    · rintro ⟨hwindow, hlong, hkind⟩
      rcases htouch with hnone | hshort | hother
      · rw [hnone] at hwindow
        cases hwindow
      · omega
      · exact hother hkind
  · have hall := htouch
    simp only [not_or, not_not, not_lt] at hall
    obtain ⟨hwindow, hlong, hkind⟩ := hall
    have hsome : device.profile.window.isSome = true := Option.isSome_iff_ne_none.mpr hwindow
    rw [@if_pos _ _ ⟨hsome, hlong, hkind⟩, touchEvents, if_neg htouch, flickMode]
    by_cases hmode : max (word 6) (word 2) - min (word 6) (word 2) = 0 ∨
        min ((max (word 6) (word 2) - min (word 6) (word 2)) * 2) 65535 <
          max (word 8) (word 4) - min (word 8) (word 4)
    · rw [@if_neg _ _ (hflick.mp hmode)]
      exact congrArg displayMode (if_pos hmode)
    · rw [@if_pos _ _ (not_not.mp (mt hflick.mpr hmode))]
      exact congrArg displayMode (if_neg hmode)

/-- A touch report switches to the mode that it asks for. -/
theorem displayMode_touchReport (device : StreamDeckDevice) {report : List UInt8}
    (htouch : report.getD 0 0 = 0x01) (hkind : report.getD 1 0 = 0x02) :
    (device.touchEvents ((report.drop 4).take
        (fromLeBytes (report.getD 2 0) (report.getD 3 0)).toNat)).displayMode =
      (flickOf device.profile report).getD device.displayMode := by
  rw [displayMode_touchEvents, flickOf]
  generalize hlength : (fromLeBytes (report.getD 2 0) (report.getD 3 0)).toNat = length
  have hwhole : 10 ≤ ((report.drop 4).take length).length ↔ 14 ≤ report.length ∧ 10 ≤ length := by
    simp only [List.length_take, List.length_drop]
    omega
  by_cases hfull : 14 ≤ report.length ∧ 10 ≤ length
  · have hbyte (index : Nat) (hindex : index < 10) :
        ((report.drop 4).take length).getD index 0 = report.getD (index + 4) 0 :=
      getD_payload (hindex.trans_le hfull.2)
    simp only [hbyte 0 (by decide), hbyte 2 (by decide), hbyte 3 (by decide), hbyte 4 (by decide),
      hbyte 5 (by decide), hbyte 6 (by decide), hbyte 7 (by decide), hbyte 8 (by decide),
      hbyte 9 (by decide), Nat.reduceAdd, hwhole, hlength, hfull, htouch, hkind, true_and]
  · rw [if_neg fun h => hfull (hwhole.mp h.2.1), if_neg fun h => hfull ⟨h.2.1, ?_⟩]
    exact hlength ▸ h.2.2.2.2.1

/-- A report switches to the mode that it asks for. -/
theorem displayMode_eventsFromReport (device : StreamDeckDevice) (report : List UInt8) :
    (device.eventsFromReport report).2.displayMode =
      (flickOf device.profile report).getD device.displayMode := by
  have hother (h : ¬(4 ≤ report.length ∧ report.getD 0 0 = 0x01 ∧ report.getD 1 0 = 0x02)) :
      flickOf device.profile report = none :=
    if_neg fun hflick => h ⟨by omega, hflick.2.2.1, hflick.2.2.2.1⟩
  unfold eventsFromReport
  split
  next hforeign =>
    -- too short, or under another number
    rw [hother fun h => hforeign.elim (fun hshort => by omega) (fun hne => hne h.2.1)]
    rfl
  next hreport =>
    obtain ⟨hlong, hfirst⟩ := not_or.mp hreport
    simp only
    split
    next hkeys =>
      rw [hother fun h => by rw [h.2.2] at hkeys; cases hkeys]
      rfl
    · split
      next htouch =>
        exact device.displayMode_touchReport (not_not.mp hfirst) htouch
      next hnot =>
        rw [hother fun h => hnot h.2.2]
        split
        · unfold encoderEvents
          split
          · rfl
          · simp only
            split
            · rfl
            · split <;> rfl
        · rfl

end StreamDeckDevice

/-! ## The invariant -/

namespace StreamDeckScreen

/-- The image of what was shown last. -/
def lastImage (painting : Painting) (screen : StreamDeckScreen) : Option (List UInt8) :=
  match screen.lastDisplayContext, screen.lastDisplayMode, screen.profile.window with
  | some context, some mode, some size => (painting.renderWindow mode context size).toOption
  | _, _, _ => none

/-- What was shown last is what should be shown, or nothing has been asked for yet. -/
def UpToDate (screen : StreamDeckScreen) : Prop :=
  (∃ last, screen.lastDisplayContext = some last ∧
      screen.lastDisplayMode = some screen.displayMode ∧
      (last = screen.current ∨ sameContext last screen.current = true)) ∨
    (screen.displayContext = none ∧ screen.lastDisplayContext = none ∧
      screen.displayMode = .context)

theorem exists_of_shows {screen : StreamDeckScreen} {context : DisplayContext}
    {mode : DisplayMode} (h : screen.shows context mode = true) :
    ∃ last, screen.lastDisplayContext = some last ∧ screen.lastDisplayMode = some mode ∧
      sameContext last context = true := by
  obtain ⟨hlast, hmode⟩ := Bool.and_eq_true_iff.mp h
  cases hsome : screen.lastDisplayContext with
  | none =>
      rw [hsome] at hlast
      cases hlast
  | some last =>
      rw [hsome] at hlast
      exact ⟨last, rfl, beq_iff_eq.mp hmode, hlast⟩

/-- The window shows what the driver holds for shown, and what waits is what it should show. -/
structure Faithful (painting : Painting) (screen : StreamDeckScreen) : Prop where
  image : screen.profile.window.isSome → windowImage screen.port = screen.lastImage painting
  pending : ∀ context, screen.pendingDisplayContext = some context →
    context = screen.current ∧ screen.pendingDisplayMode = some screen.displayMode
  settled : screen.pendingDisplayContext = none → screen.UpToDate

variable {screen : StreamDeckScreen}

/-- The keys have changed what they may change. -/
def KeysOnly (screen after : StreamDeckScreen) : Prop :=
  ∃ keys : StreamDeckDevice, ∃ port : HidPort, keys.panel = screen.panel ∧
    windowImage port = windowImage screen.port ∧
    after = { screen with toStreamDeckDevice := keys, port := port }

theorem KeysOnly.faithful {after : StreamDeckScreen} (h : KeysOnly screen after)
    (hscreen : Faithful painting screen) : Faithful painting after := by
  obtain ⟨keys, port, hpanel, himage, rfl⟩ := h
  obtain ⟨hprofile, hmode⟩ := Prod.mk.inj hpanel
  refine ⟨fun hwindow => ?_, fun context hcontext => ?_, fun hnone => ?_⟩
  · have hold := hscreen.image (hprofile ▸ hwindow)
    simp only [lastImage] at hold ⊢
    rw [himage, hold, hprofile]
  · obtain ⟨hcurrent, hpending⟩ := hscreen.pending context hcontext
    exact ⟨hcurrent, hpending.trans (congrArg some hmode.symm)⟩
  · have hold := hscreen.settled hnone
    simp only [UpToDate] at hold ⊢
    rw [hmode]
    exact hold

theorem KeysOnly.settled {after : StreamDeckScreen} (h : KeysOnly screen after)
    (hscreen : screen.pendingDisplayContext = none) : after.pendingDisplayContext = none := by
  obtain ⟨keys, port, -, -, rfl⟩ := h
  exact hscreen

theorem keysOnly_flushKeys (hsendable : painting.Sendable) (moment : Moment) :
    KeysOnly screen (screen.flushKeys painting moment).2 := by
  unfold flushKeys
  simp only
  split
  · exact ⟨_, _, StreamDeckDevice.panel_flushKeyStatus _ _ _, rfl, rfl⟩
  next key image hwrite =>
    obtain ⟨index, status, hencoded⟩ := StreamDeckDevice.encoded_of_flushKeyStatus hwrite
    exact ⟨_, _, StreamDeckDevice.panel_flushKeyStatus _ _ _,
      windowImage_writeKeyImage (hsendable.keys hencoded) key screen.port, rfl⟩

/-- The current context is painted, or nothing has changed but the reports. -/
theorem Faithful.paint (hsendable : painting.Sendable) (h : Faithful painting screen)
    (moment : Moment) :
    Faithful painting (screen.paintWindow painting screen.current screen.displayMode moment).2 := by
  have hshown {after : StreamDeckScreen} (hpending : after.pendingDisplayContext = none)
      (hlast : after.lastDisplayContext = some screen.current)
      (hcurrent : after.current = screen.current)
      (hmode : after.lastDisplayMode = some after.displayMode)
      (himage : after.profile.window.isSome →
        windowImage after.port = after.lastImage painting) : Faithful painting after :=
    ⟨himage, fun _ hsome => (by rw [hpending] at hsome; cases hsome),
      fun _ => .inl ⟨screen.current, hlast, hmode, .inl hcurrent.symm⟩⟩
  unfold paintWindow
  split
  next hnone =>
    refine hshown rfl rfl rfl rfl fun hwindow => ?_
    have hsame : (screen.showing screen.current screen.displayMode).profile.window = none := hnone
    rw [hsame] at hwindow
    cases hwindow
  next size hsize =>
    split
    · exact h
    next image himage =>
      have hsend := @windowImage_writeWindowImage painting.device image
        (hsendable.window himage) screen.port
      simp only
      split
      next error herror =>
        rw [herror] at hsend
        exact ⟨fun hwindow => hsend.trans (h.image hwindow), h.pending, h.settled⟩
      next hok =>
        rw [hok] at hsend
        refine hshown rfl rfl rfl rfl fun _ => ?_
        simp only [lastImage, showing, settle, hsize, himage]
        exact hsend

theorem flush_of_settled (h : screen.pendingDisplayContext = none) {force : Bool}
    {moment : Moment} :
    screen.flushDisplayContext painting force moment = (.ok (), screen) := by
  rw [flushDisplayContext, h]

/-- What waits is shown, or goes on waiting. -/
theorem Faithful.flush (hsendable : painting.Sendable) (h : Faithful painting screen)
    (force : Bool) (moment : Moment) :
    Faithful painting (screen.flushDisplayContext painting force moment).2 := by
  unfold flushDisplayContext
  split
  · exact h
  next context hcontext =>
    obtain ⟨rfl, hmode⟩ := h.pending context hcontext
    simp only [hmode, Option.getD_some]
    split
    next hshows =>
      obtain ⟨last, hlast, hlastMode, hsame⟩ := exists_of_shows hshows
      refine ⟨h.image, fun _ hsome => ?_, fun _ => .inl ⟨last, hlast, hlastMode, .inr hsame⟩⟩
      cases hsome
    · split
      · exact h
      · exact h.paint hsendable moment

/-- The current context waits in the mode of the moment. -/
theorem faithful_waiting
    (h : screen.profile.window.isSome → windowImage screen.port = screen.lastImage painting) :
    Faithful painting (screen.waiting screen.current) where
  image := h
  pending _ hcontext := ⟨(Option.some.inj hcontext).symm, rfl⟩
  settled hnone := by cases hnone

theorem Faithful.events (hsendable : painting.Sendable) (h : Faithful painting screen)
    (report : List UInt8) (moment : Moment) :
    Faithful painting (screen.eventsFromReport painting report moment).2 := by
  have hprofile := screen.toStreamDeckDevice.profile_eventsFromReport report
  unfold eventsFromReport
  simp only
  split
  next hmode =>
    exact KeysOnly.faithful ⟨_, _, Prod.ext hprofile hmode, rfl, rfl⟩ h
  · refine Faithful.flush hsendable (faithful_waiting fun hwindow => ?_) true moment
    have hold := h.image (hprofile ▸ hwindow)
    simp only [lastImage] at hold ⊢
    rw [hold, hprofile]

theorem Faithful.poll (hsendable : painting.Sendable) (h : Faithful painting screen)
    (read : Except String (List UInt8)) (moments : PollMoments) :
    Faithful painting (screen.poll painting read moments).2 := by
  have hfirst := h.flush hsendable false moments.first
  unfold StreamDeckScreen.poll
  simp only
  split
  · exact hfirst
  · split
    · exact hfirst
    next report =>
      have hkeys := (keysOnly_flushKeys hsendable moments.keys).faithful
        (hfirst.events hsendable report moments.touch)
      split
      · exact hkeys
      · exact hkeys.flush hsendable false moments.last

theorem Faithful.call (hsendable : painting.Sendable) (h : Faithful painting screen)
    (call : ScreenCall) : Faithful painting (screen.call painting call) := by
  cases call with
  | poll read moments => exact h.poll hsendable read moments
  | applyThreadStatus parameters moment =>
      unfold StreamDeckScreen.call StreamDeckScreen.applyThreadStatus
      simp only
      split
      · exact h
      next entries _ =>
        have hstatus : KeysOnly screen { screen with
            toStreamDeckDevice := screen.toStreamDeckDevice.withStatus entries } :=
          ⟨screen.toStreamDeckDevice.withStatus entries, screen.port, rfl, rfl, rfl⟩
        exact (keysOnly_flushKeys hsendable moment).faithful (hstatus.faithful h)
  | applyDisplayContext context moment =>
      unfold StreamDeckScreen.call StreamDeckScreen.applyDisplayContext
      simp only
      split
      next hshows =>
        obtain ⟨hshown, hnone⟩ := hshows
        obtain ⟨last, hlast, hlastMode, hsame⟩ := exists_of_shows hshown
        refine ⟨h.image, fun other hother => ?_, fun _ => .inl ⟨last, hlast, hlastMode, .inr hsame⟩⟩
        have hpending : screen.pendingDisplayContext = some other := hother
        rw [hpending] at hnone
        cases hnone
      · exact Faithful.flush hsendable (@faithful_waiting painting
          { screen with displayContext := some context } h.image) false moment

theorem faithful_new (profile : Profile) : Faithful painting (.new profile) where
  image _ := rfl
  pending _ hcontext := by cases hcontext
  settled _ := .inr ⟨rfl, rfl, rfl⟩

/-! ## What the driver is asked to show -/

/-- A flush of the window leaves the keys, the mode and the context alone. -/
theorem frame_paintWindow (context : DisplayContext) (mode : DisplayMode) (moment : Moment) :
    let after := (screen.paintWindow painting context mode moment).2
    after.toStreamDeckDevice = screen.toStreamDeckDevice ∧
      after.displayContext = screen.displayContext := by
  unfold paintWindow
  split
  · exact ⟨rfl, rfl⟩
  · split
    · exact ⟨rfl, rfl⟩
    · simp only
      split <;> exact ⟨rfl, rfl⟩

theorem frame_flush (force : Bool) (moment : Moment) :
    let after := (screen.flushDisplayContext painting force moment).2
    after.toStreamDeckDevice = screen.toStreamDeckDevice ∧
      after.displayContext = screen.displayContext := by
  unfold flushDisplayContext
  split
  · exact ⟨rfl, rfl⟩
  · simp only
    split
    · exact ⟨rfl, rfl⟩
    · split
      · exact ⟨rfl, rfl⟩
      · exact frame_paintWindow _ _ moment

/-- A report switches the mode and leaves the model and the context. -/
theorem frame_events (painting : Painting) (report : List UInt8) (moment : Moment) :
    let after := (screen.eventsFromReport painting report moment).2
    after.panel = (screen.profile, (flickOf screen.profile report).getD screen.displayMode) ∧
      after.displayContext = screen.displayContext := by
  have hpanel : (screen.toStreamDeckDevice.eventsFromReport report).2.panel =
      (screen.profile, (flickOf screen.profile report).getD screen.displayMode) :=
    Prod.ext (screen.profile_eventsFromReport report) (screen.displayMode_eventsFromReport report)
  unfold eventsFromReport
  simp only
  split
  · exact ⟨hpanel, rfl⟩
  · obtain ⟨hdevice, hcontext⟩ := frame_flush true moment
    exact ⟨(congrArg StreamDeckDevice.panel hdevice).trans hpanel, hcontext⟩

theorem frame_flushKeys (moment : Moment) :
    let after := (screen.flushKeys painting moment).2
    after.panel = screen.panel ∧ after.displayContext = screen.displayContext := by
  unfold flushKeys
  simp only
  split <;> exact ⟨StreamDeckDevice.panel_flushKeyStatus _ _ _, rfl⟩

/-- A poll leaves the model and the context, and switches to the mode of the report it reads. -/
theorem frame_poll (read : Except String (List UInt8)) (moments : PollMoments) :
    let after := (screen.poll painting read moments).2
    after.panel = (screen.profile,
        ((screen.reportRead painting (.poll read moments)).bind
          (flickOf screen.profile)).getD screen.displayMode) ∧
      after.displayContext = screen.displayContext := by
  obtain ⟨hdevice, hcontext⟩ := @frame_flush painting screen false moments.first
  have hpanel := congrArg StreamDeckDevice.panel hdevice
  unfold StreamDeckScreen.poll
  simp only
  split
  next error herror =>
    -- a poll whose first flush fails reads nothing
    have hnone : screen.reportRead painting (.poll read moments) = none := by
      unfold reportRead
      split
      next heq =>
        cases heq
        rw [herror]
        rfl
      · rfl
    rw [hnone]
    exact ⟨hpanel, hcontext⟩
  next hok =>
    split
    · exact ⟨hpanel, hcontext⟩
    next report =>
      have hread : screen.reportRead painting (.poll (.ok report) moments) = some report := by
        unfold reportRead
        simp only [hok]
        rfl
      obtain ⟨hseen, hseenContext⟩ := @frame_events
        (screen.flushDisplayContext painting false moments.first).2 painting report moments.touch
      obtain ⟨hkeys, hkeysContext⟩ := @frame_flushKeys painting
        ((screen.flushDisplayContext painting false moments.first).2.eventsFromReport painting
          report moments.touch).2 moments.keys
      rw [hdevice] at hseen
      have hwhole := hkeys.trans hseen
      have hwholeContext := hkeysContext.trans (hseenContext.trans hcontext)
      rw [hread]
      split
      · exact ⟨hwhole, hwholeContext⟩
      · obtain ⟨hlast, hlastContext⟩ := frame_flush false moments.last
        exact ⟨(congrArg StreamDeckDevice.panel hlast).trans hwhole,
          hlastContext.trans hwholeContext⟩

end StreamDeckScreen

/-- Every image can be painted and sent, and the device takes one of any five writes. -/
structure Painting.Reliable (painting : Painting) : Prop where
  sendable : painting.Sendable
  paints : ∀ mode context size, ∃ image, painting.renderWindow mode context size = .ok image
  takes : ∀ first, ∃ attempt ≤ 4, shortfall 1024 (painting.device (first + attempt)) = none

/-- The context of a call. -/
def ScreenCall.context? : ScreenCall → Option DisplayContext
  | .applyDisplayContext context _ => some context
  | _ => none

namespace StreamDeckScreen

variable {screen : StreamDeckScreen}

/-- A call leaves the model; it applies its context and switches to the mode of what it reads. -/
theorem frame_call (call : ScreenCall) :
    (screen.call painting call).panel = (screen.profile,
        ((screen.reportRead painting call).bind (flickOf screen.profile)).getD
          screen.displayMode) ∧
      (screen.call painting call).displayContext = call.context?.or screen.displayContext := by
  cases call with
  | poll read moments => exact frame_poll read moments
  | applyThreadStatus parameters moment =>
      unfold StreamDeckScreen.call StreamDeckScreen.applyThreadStatus
      simp only
      split
      · exact ⟨rfl, rfl⟩
      · exact frame_flushKeys moment
  | applyDisplayContext context moment =>
      unfold StreamDeckScreen.call StreamDeckScreen.applyDisplayContext
      simp only
      split
      · exact ⟨rfl, rfl⟩
      · obtain ⟨hdevice, hcontext⟩ := frame_flush false moment
        exact ⟨congrArg StreamDeckDevice.panel hdevice, hcontext⟩

/-- The driver holds the context that was applied last and the mode of the last flick. -/
theorem frame_calls (calls : List ScreenCall) :
    (calls.foldl (call painting) screen).panel = (screen.profile,
        (((reportsRead painting screen calls).filterMap
          (flickOf screen.profile)).getLast?).getD screen.displayMode) ∧
      (calls.foldl (call painting) screen).displayContext =
        ((calls.filterMap ScreenCall.context?).getLast?).or screen.displayContext := by
  induction calls generalizing screen with
  | nil => exact ⟨rfl, rfl⟩
  | cons first calls ih =>
      obtain ⟨hpanel, hcontext⟩ := @frame_call painting screen first
      obtain ⟨hprofile, hmode⟩ := Prod.mk.inj hpanel
      obtain ⟨hrest, hrestContext⟩ := @ih (screen.call painting first)
      rw [List.foldl_cons]
      -- a flick or a context of a later call hides the one of the first
      refine ⟨hrest.trans (Prod.ext hprofile ?_), hrestContext.trans ?_⟩
      · rw [hprofile, hmode, reportsRead, List.filterMap_append, List.getLast?_append]
        cases hread : screen.reportRead painting first with
        | none => simp
        | some report =>
            cases hflick : flickOf screen.profile report with
            | none => simp [hflick]
            | some mode =>
                cases (List.filterMap (flickOf screen.profile)
                  (reportsRead painting (screen.call painting first) calls)).getLast? <;>
                    simp [hflick]
      · rw [hcontext]
        cases hfirst : first.context? with
        | none => rw [List.filterMap_cons_none hfirst, Option.none_or]
        | some context =>
            rw [List.filterMap_cons_some hfirst, List.getLast?_cons]
            cases (calls.filterMap ScreenCall.context?).getLast? <;> rfl

theorem faithful_calls (hsendable : painting.Sendable) (h : Faithful painting screen)
    (calls : List ScreenCall) : Faithful painting (calls.foldl (call painting) screen) := by
  induction calls generalizing screen with
  | nil => exact h
  | cons first calls ih => exact ih (h.call hsendable first)

/-! ## What waits is shown -/

/-- A reliable device shows what is painted. -/
theorem paintWindow_of_reliable (hreliable : painting.Reliable) (context : DisplayContext)
    (mode : DisplayMode) (moment : Moment) :
    (screen.paintWindow painting context mode moment).1 = .ok () ∧
      (screen.paintWindow painting context mode moment).2.pendingDisplayContext = none := by
  unfold paintWindow
  split
  · exact ⟨rfl, rfl⟩
  next size _ =>
    split
    next error herror =>
      obtain ⟨image, himage⟩ := hreliable.paints mode context size
      rw [himage] at herror
      cases herror
    next image himage =>
      have hok := writeWindowImage_of_takes hreliable.takes
        (hreliable.sendable.window himage) screen.port
      simp only [hok]
      exact ⟨trivial, rfl⟩

theorem flush_ok (hreliable : painting.Reliable) (force : Bool) (moment : Moment) :
    (screen.flushDisplayContext painting force moment).1 = .ok () := by
  unfold flushDisplayContext
  split
  · rfl
  · simp only
    split
    · rfl
    · split
      · rfl
      · exact (paintWindow_of_reliable hreliable _ _ moment).1

theorem settled_flush (hreliable : painting.Reliable) (force : Bool) (moment : Moment)
    (hnow : force = true ∨ screen.windowRested moment.now = true) :
    (screen.flushDisplayContext painting force moment).2.pendingDisplayContext = none := by
  unfold flushDisplayContext
  split
  next hnone => exact hnone
  · simp only
    split
    · rfl
    · split
      next hlate =>
        rcases hnow with hforce | hrested
        · rw [hforce] at hlate
          cases hlate
        · rw [hrested, Bool.not_true, Bool.and_false] at hlate
          cases hlate
      · exact (paintWindow_of_reliable hreliable _ _ moment).2

theorem settled_events (hreliable : painting.Reliable) (report : List UInt8) (moment : Moment)
    (h : screen.pendingDisplayContext = none) :
    (screen.eventsFromReport painting report moment).2.pendingDisplayContext = none := by
  unfold eventsFromReport
  simp only
  split
  · exact h
  · exact settled_flush hreliable true moment (.inl rfl)

/-- A poll at rest leaves nothing waiting. -/
theorem settled_poll (hreliable : painting.Reliable) (read : Except String (List UInt8))
    {moments : PollMoments} (hrested : screen.windowRested moments.first.now = true) :
    (screen.poll painting read moments).2.pendingDisplayContext = none := by
  have hfirst := settled_flush hreliable false moments.first (.inr hrested)
  unfold StreamDeckScreen.poll
  simp only
  split
  · exact hfirst
  · split
    · exact hfirst
    next report =>
      have hseen := settled_events hreliable report moments.touch hfirst
      have hkeys := (keysOnly_flushKeys hreliable.sendable moments.keys).settled hseen
      split
      · exact hkeys
      · rw [flush_of_settled hkeys]
        exact hkeys

end StreamDeckScreen

open StreamDeckScreen

/-- Whatever calls the driver has served, and whatever came of their writes: the window shows the
image of the context and the mode that the driver holds for shown, the driver holds the context
that was applied last and the mode of the last flick it has read, what waits is that context in
that mode, and where nothing waits that is what was shown, if anything has been asked for.  With
a device that takes one of any five writes the next poll behind a moment of rest leaves nothing
waiting, in the mode of a flick that it reads. -/
theorem window_follows (hsendable : painting.Sendable) (profile : Profile)
    (calls : List ScreenCall) {screen : StreamDeckScreen}
    (hscreen : calls.foldl (call painting) (.new profile) = screen) :
    Faithful painting screen ∧
      screen.displayContext = (calls.filterMap ScreenCall.context?).getLast? ∧
      screen.displayMode = (((reportsRead painting (.new profile) calls).filterMap
        (flickOf profile)).getLast?).getD .context ∧
      (painting.Reliable → ∀ read moments, screen.windowRested moments.first.now = true →
        ∀ after, (screen.poll painting read moments).2 = after →
          after.pendingDisplayContext = none ∧ after.UpToDate ∧
            (after.profile.window.isSome → windowImage after.port = after.lastImage painting) ∧
            after.displayContext = screen.displayContext ∧
            after.displayMode =
              (read.toOption.bind (flickOf profile)).getD screen.displayMode) := by
  have hfaithful : Faithful painting screen :=
    hscreen ▸ faithful_calls hsendable (faithful_new profile) calls
  obtain ⟨hpanel, hcontext⟩ := @frame_calls painting (.new profile) calls
  rw [hscreen] at hpanel hcontext
  obtain ⟨hprofile, hmode⟩ := Prod.mk.inj hpanel
  refine ⟨hfaithful, hcontext.trans Option.or_none, hmode, ?_⟩
  rintro hreliable read moments hrested after rfl
  have hpoll := hfaithful.poll hsendable read moments
  have hsettled := settled_poll hreliable read hrested
  obtain ⟨hafter, hafterContext⟩ := @frame_poll painting screen read moments
  have hread : screen.reportRead painting (.poll read moments) = read.toOption := by
    cases read with
    | error error => rfl
    | ok report =>
        unfold reportRead
        simp only [flush_ok hreliable]
        rfl
  rw [hread, hprofile] at hafter
  exact ⟨hsettled, hpoll.settled hsettled, hpoll.image, hafterContext, congrArg Prod.snd hafter⟩

/-- Every image is one byte, and the device takes what it gets. -/
def plainPainting : Painting where
  encodeImage _ _ := .ok [1]
  renderWindow mode _ _ := .ok [if mode = .context then 2 else 3]
  device _ := .ok 1024

theorem plainPainting_reliable : plainPainting.Reliable where
  sendable := {
    keys := fun himage => by
      obtain rfl := Except.ok.inj himage
      exact ⟨List.cons_ne_nil _ _, by decide⟩
    window := fun himage => by
      obtain rfl := Except.ok.inj himage
      exact ⟨List.cons_ne_nil _ _, Nat.le_trans (Nat.le_refl 1) (by decide)⟩ }
  paints _ _ _ := ⟨_, rfl⟩
  takes _ := ⟨0, Nat.zero_le 4, rfl⟩

/-- A context that comes right behind another one waits for the next poll. -/
def sampleCalls : List ScreenCall :=
  [.applyDisplayContext { status := some "READY" } ⟨0, 0⟩,
    .applyDisplayContext { status := some "BUSY" } ⟨50, 50⟩]

/-- A flick to the left. -/
def flickLeft : List UInt8 := [1, 2, 10, 0, 3, 0, 100, 0, 50, 0, 20, 0, 50, 0]

/-- The next poll shows the context, in the mode of the flick that it reads. -/
theorem window_follows_sample :
    let after := ((sampleCalls.foldl (call plainPainting) (.new .plus)).poll plainPainting
      (.ok flickLeft) ⟨⟨100, 100⟩, ⟨100, 100⟩, ⟨100, 100⟩, ⟨100, 100⟩⟩).2
    after.pendingDisplayContext = none ∧ after.UpToDate ∧ after.displayMode = .usage := by
  obtain ⟨hsettled, hshown, -, -, hmode⟩ :=
    (window_follows plainPainting_reliable.sendable .plus sampleCalls rfl).2.2.2
      plainPainting_reliable (.ok flickLeft) ⟨⟨100, 100⟩, ⟨100, 100⟩, ⟨100, 100⟩, ⟨100, 100⟩⟩
      (by decide +kernel) _ rfl
  exact ⟨hsettled, hshown, hmode⟩

end Controllers
end MicroEmu
