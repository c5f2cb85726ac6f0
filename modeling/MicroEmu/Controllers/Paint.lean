import MicroEmu.Bridge.Contexts
import MicroEmu.Controllers.Window
import MicroEmu.Library.Raster

/-!
# What is painted in the window of a Stream Deck

Texts are cut at the edges of the image, but the bars are not: a bar is as long as its
percentage says, and a pixel outside of the image ends the driver.  So each painter comes to
an end exactly for the percentages that fit.
-/

namespace MicroEmu
namespace Controllers

open Bridge (DisplayContext)
open Library (Dot Raster rectangle rectangle_inside_iff bind_eq_ok pure_eq_ok)

/-- `Rgb`. -/
abbrev Rgb : Type := UInt8 × UInt8 × UInt8

/-- `RgbImage`. -/
abbrev RgbImage : Type := Raster Rgb

/-! ## Texts -/

/-- `normalize_char`. -/
def normalizeChar (value : Char) : Char :=
  if value = 'á' ∨ value = 'Á' then 'A'
  else if value = 'é' ∨ value = 'É' then 'E'
  else if value = 'í' ∨ value = 'Í' then 'I'
  else if value = 'ó' ∨ value = 'Ó' then 'O'
  else if value = 'ú' ∨ value = 'Ú' ∨ value = 'ü' ∨ value = 'Ü' then 'U'
  else if value = 'ñ' ∨ value = 'Ñ' then 'N'
  else if value.toNat < 128 then value.toUpper
  else '?'

/-- `glyph`: the columns of a character, the lowest bit on top. -/
def glyph : Char → List Nat
  | 'A' => [0x7e, 0x09, 0x09, 0x09, 0x7e]
  | 'B' => [0x7f, 0x49, 0x49, 0x49, 0x36]
  | 'C' => [0x3e, 0x41, 0x41, 0x41, 0x22]
  | 'D' => [0x7f, 0x41, 0x41, 0x22, 0x1c]
  | 'E' => [0x7f, 0x49, 0x49, 0x49, 0x41]
  | 'F' => [0x7f, 0x09, 0x09, 0x09, 0x01]
  | 'G' => [0x3e, 0x41, 0x49, 0x49, 0x7a]
  | 'H' => [0x7f, 0x08, 0x08, 0x08, 0x7f]
  | 'I' => [0x00, 0x41, 0x7f, 0x41, 0x00]
  | 'J' => [0x20, 0x40, 0x41, 0x3f, 0x01]
  | 'K' => [0x7f, 0x08, 0x14, 0x22, 0x41]
  | 'L' => [0x7f, 0x40, 0x40, 0x40, 0x40]
  | 'M' => [0x7f, 0x02, 0x0c, 0x02, 0x7f]
  | 'N' => [0x7f, 0x04, 0x08, 0x10, 0x7f]
  | 'O' => [0x3e, 0x41, 0x41, 0x41, 0x3e]
  | 'P' => [0x7f, 0x09, 0x09, 0x09, 0x06]
  | 'Q' => [0x3e, 0x41, 0x51, 0x21, 0x5e]
  | 'R' => [0x7f, 0x09, 0x19, 0x29, 0x46]
  | 'S' => [0x46, 0x49, 0x49, 0x49, 0x31]
  | 'T' => [0x01, 0x01, 0x7f, 0x01, 0x01]
  | 'U' => [0x3f, 0x40, 0x40, 0x40, 0x3f]
  | 'V' => [0x1f, 0x20, 0x40, 0x20, 0x1f]
  | 'W' => [0x7f, 0x20, 0x18, 0x20, 0x7f]
  | 'X' => [0x63, 0x14, 0x08, 0x14, 0x63]
  | 'Y' => [0x07, 0x08, 0x70, 0x08, 0x07]
  | 'Z' => [0x61, 0x51, 0x49, 0x45, 0x43]
  | '0' => [0x3e, 0x45, 0x49, 0x51, 0x3e]
  | '1' => [0x00, 0x41, 0x7f, 0x40, 0x00]
  | '2' => [0x42, 0x61, 0x51, 0x49, 0x46]
  | '3' => [0x21, 0x41, 0x45, 0x4b, 0x31]
  | '4' => [0x18, 0x14, 0x12, 0x7f, 0x10]
  | '5' => [0x27, 0x45, 0x45, 0x45, 0x39]
  | '6' => [0x3c, 0x4a, 0x49, 0x49, 0x30]
  | '7' => [0x01, 0x71, 0x09, 0x05, 0x03]
  | '8' => [0x36, 0x49, 0x49, 0x49, 0x36]
  | '9' => [0x06, 0x49, 0x49, 0x29, 0x1e]
  | '-' => [0x08, 0x08, 0x08, 0x08, 0x08]
  | '/' => [0x20, 0x10, 0x08, 0x04, 0x02]
  | ':' => [0x00, 0x36, 0x36, 0x00, 0x00]
  | '.' => [0x00, 0x40, 0x60, 0x00, 0x00]
  | '_' => [0x40, 0x40, 0x40, 0x40, 0x40]
  | '%' => [0x63, 0x13, 0x08, 0x64, 0x63]
  | '?' => [0x02, 0x01, 0x51, 0x09, 0x06]
  | ' ' => [0, 0, 0, 0, 0]
  | _ => [0x7f, 0x41, 0x5d, 0x41, 0x7f]

/-- The dots of one bit of a glyph; those outside of the image are left out. -/
def drawBit (width height left top scale : Nat) (color : Rgb) : List (Dot Rgb) :=
  (List.range scale).flatMap fun dy => (List.range scale).filterMap fun dx =>
    if left + dx < width ∧ top + dy < height then some ⟨left + dx, top + dy, color⟩ else none

/-- The dots of a character. -/
def drawChar (width height : Nat) (value : Char) (originX y scale : Nat) (color : Rgb) :
    List (Dot Rgb) :=
  (glyph (normalizeChar value)).zipIdx.flatMap fun column =>
    (List.range 7).flatMap fun row =>
      if column.1.testBit row then
        drawBit width height (originX + column.2 * scale) (y + row * scale) scale color
      else []

/-- `draw_text`. -/
def drawText (width height : Nat) (text : String) (x y scale : Nat) (color : Rgb) :
    List (Dot Rgb) :=
  let scale := max scale 1
  let maxChars := (width - x) / (6 * scale)
  (text.toList.take maxChars).zipIdx.flatMap fun value =>
    drawChar width height value.1 (x + value.2 * 6 * scale) y scale color

/-! ## The context -/

/-- The question of a card that waits, and what a tap and a hold do. -/
def drawPrompt (context : DisplayContext) (width height : Nat) : List (Dot Rgb) :=
  match context.prompt with
  | none => []
  | some prompt =>
      drawText width height
          (context.waitReason.getD "WAITING" ++ ": " ++ Json.takeChars 80 prompt) 16 80 1
          (245, 175, 65) ++
        drawText width height
          ("TAP " ++ context.shortAction.getD "—" ++ "  HOLD " ++ context.longAction.getD "—") 16
          (height - 18) 1 (255, 210, 120)

/-- The bar of the progress, and what of it is filled. -/
def drawProgress (width height progress : Nat) : List (Dot Rgb) :=
  let barWidth := width - 32
  rectangle 16 (16 + barWidth) (height - 14) (height - 6) (20, 32, 48) ++
    rectangle 16 (16 + barWidth * progress / 100) (height - 14) (height - 6) (65, 190, 125)

/-- The dots of `render_window_image`. -/
def windowDots (context : DisplayContext) (width height : Nat) : List (Dot Rgb) :=
  let project := context.project.getD "MICRO-EMU"
  let model := context.model.getD "CODEX"
  let effort := context.effort.getD "DEFAULT"
  let progressLabel := match context.progress with
    | none => ""
    | some progress => "  " ++ toString progress ++ "%"
  drawText width height (context.task.getD "WAITING FOR TASK") 16 8 2 (230, 235, 245) ++
    drawText width height (project ++ "  |  " ++ model ++ "  |  " ++ effort) 16 38 1
      (112, 205, 255) ++
    drawPrompt context width height ++
    drawText width height (context.status.getD "READY" ++ progressLabel) 16 62 1
      (160, 225, 190) ++
    (context.progress.map (drawProgress width height)).getD []

/-- The image that `render_window_image` turns and encodes; `none` is a pixel outside. -/
def renderWindowImage (context : DisplayContext) (width height : Nat) : Option RgbImage :=
  (Raster.blank width height (5, 8, 15)).draw (windowDots context width height)

/-! ## The usage -/

/-- `draw_usage_meter`. -/
def drawUsageMeter (width height : Nat) (label : String) (remaining : Option Nat)
    (x y meterWidth : Nat) : List (Dot Rgb) :=
  let value := match remaining with
    | none => "NOT SET"
    | some value => toString value ++ "%"
  let valueScale := if remaining.isSome then 4 else 2
  let barWidth := meterWidth - 180
  let filled := match remaining with
    | none => []
    | some value =>
        let color : Rgb :=
          if value < 20 then (220, 85, 85) else if value < 50 then (245, 175, 65)
          else (65, 190, 125)
        rectangle (x + 180) (x + 180 + barWidth * value / 100) (y + 2) (y + 2 + 14) color
  drawText width height label x y 1 (112, 205, 255) ++
    drawText width height value (x + 78) (y - 1) valueScale (230, 235, 245) ++
    rectangle (x + 180) (x + 180 + barWidth) (y + 2) (y + 2 + 14) (20, 32, 48) ++ filled

/-- The label of the agent that the limits belong to. -/
def limitsLabel : Option String → String
  | some "zcode" => "LIMITS ZCODE"
  | some "codex" => "LIMITS CODEX"
  | _ => "LIMITS"

/-- The width of a meter. -/
def columnWidth (width : Nat) : Nat := (width - (32 + 24)) / 2

/-- The limits, or that there are none. -/
def drawLimits (context : DisplayContext) (width height : Nat) : List (Dot Rgb) :=
  if context.weeklyRemaining = none ∧ context.fiveHourRemaining = none then
    let progress := match context.progress with
      | none => ""
      | some value => "  |  PROGRESS " ++ toString value ++ "%"
    drawText width height "USAGE LIMIT DATA NOT PUBLISHED" 16 40 1 (245, 175, 65) ++
      drawText width height ("STATUS " ++ context.status.getD "READY" ++ progress) 16 64 1
        (160, 225, 190)
  else
    drawUsageMeter width height "WEEKLY" context.weeklyRemaining 16 38 (columnWidth width) ++
      drawUsageMeter width height "5-HOUR" context.fiveHourRemaining
        (16 + columnWidth width + 24) 38 (columnWidth width)

/-- The dots of `render_usage_image`. -/
def usageDots (context : DisplayContext) (width height : Nat) : List (Dot Rgb) :=
  drawText width height
      (limitsLabel context.usageAgent ++ "  |  " ++ context.task.getD "ACTIVE TASK") 16 6 2
      (230, 235, 245) ++
    drawPrompt context width height ++ drawLimits context width height

/-- The image that `render_usage_image` turns and encodes; `none` is a pixel outside. -/
def renderUsageImage (context : DisplayContext) (width height : Nat) : Option RgbImage :=
  (Raster.blank width height (5, 8, 15)).draw (usageDots context width height)

/-! ## What stays inside -/

/-- All dots are inside an image of this size. -/
def Inside (width height : Nat) (dots : List (Dot Rgb)) : Prop :=
  ∀ dot ∈ dots, dot.x < width ∧ dot.y < height

theorem inside_append {width height : Nat} {first second : List (Dot Rgb)} :
    Inside width height (first ++ second) ↔
      Inside width height first ∧ Inside width height second := List.forall_mem_append

theorem inside_drawBit {width height left top scale : Nat} {color : Rgb} :
    Inside width height (drawBit width height left top scale color) := by
  intro dot hdot
  obtain ⟨dy, -, hrow⟩ := List.mem_flatMap.mp hdot
  obtain ⟨dx, -, hsome⟩ := List.mem_filterMap.mp hrow
  split at hsome
  next hinside =>
    obtain rfl := Option.some.inj hsome
    exact hinside
  · cases hsome

/-- A text is cut at the edges. -/
theorem inside_drawText {width height : Nat} {text : String} {x y scale : Nat} {color : Rgb} :
    Inside width height (drawText width height text x y scale color) := by
  intro dot hdot
  obtain ⟨value, -, hchar⟩ := List.mem_flatMap.mp hdot
  obtain ⟨column, -, hcolumn⟩ := List.mem_flatMap.mp hchar
  obtain ⟨row, -, hbit⟩ := List.mem_flatMap.mp hcolumn
  split at hbit
  · exact inside_drawBit dot hbit
  · exact absurd hbit List.not_mem_nil

theorem inside_drawPrompt {context : DisplayContext} {width height : Nat} :
    Inside width height (drawPrompt context width height) := by
  unfold drawPrompt
  split
  · exact fun _ h => absurd h List.not_mem_nil
  · exact inside_append.mpr ⟨inside_drawText, inside_drawText⟩

/-- A bar with a row is inside exactly when its end is. -/
theorem inside_rectangle_iff {width height left right top bottom : Nat} {color : Rgb}
    (hrow : top < bottom) (hbottom : bottom ≤ height) (hleft : left ≤ width) :
    Inside width height (rectangle left right top bottom color) ↔ right ≤ width :=
  @rectangle_inside_iff _ (Raster.blank width height color) _ _ _ _ _ hrow hbottom hleft

theorem inside_drawProgress_iff {width height : Nat} (hwidth : 32 ≤ width) (hheight : 14 ≤ height)
    (progress : Nat) :
    Inside width height (drawProgress width height progress) ↔
      16 + (width - 32) * progress / 100 ≤ width := by
  have hrow : height - 14 < height - 6 := by omega
  rw [drawProgress, inside_append, inside_rectangle_iff hrow (by omega) (by omega),
    inside_rectangle_iff hrow (by omega) (by omega)]
  exact ⟨fun h => h.2, fun h => ⟨by omega, h⟩⟩

/-- A percentage fits a bar that starts at a place. -/
def Fits (width start barWidth : Nat) (percentage : Option Nat) : Prop :=
  ∀ value, percentage = some value → start + barWidth * value / 100 ≤ width

theorem inside_drawUsageMeter_iff {width height x y meterWidth : Nat} (label : String)
    (hmeter : 180 ≤ meterWidth) (hwidth : x + meterWidth ≤ width) (hheight : y + 16 ≤ height)
    (remaining : Option Nat) :
    Inside width height (drawUsageMeter width height label remaining x y meterWidth) ↔
      Fits width (x + 180) (meterWidth - 180) remaining := by
  have hrow : y + 2 < y + 2 + 14 := by omega
  simp only [drawUsageMeter, inside_append]
  rw [inside_rectangle_iff hrow (by omega) (by omega)]
  have hbar : x + 180 + (meterWidth - 180) ≤ width := by omega
  cases remaining with
  | none =>
      constructor
      · rintro - value hvalue
        cases hvalue
      · intro _
        exact ⟨⟨⟨inside_drawText, inside_drawText⟩, hbar⟩, fun _ h => absurd h List.not_mem_nil⟩
  | some value =>
      rw [inside_rectangle_iff hrow (by omega) (by omega)]
      constructor
      · rintro ⟨-, hfill⟩ other hother
        obtain rfl := Option.some.inj hother
        exact hfill
      · intro hfits
        exact ⟨⟨⟨inside_drawText, inside_drawText⟩, hbar⟩, hfits value rfl⟩

theorem inside_windowDots_iff {width height : Nat} (hwidth : 32 ≤ width) (hheight : 14 ≤ height)
    (context : DisplayContext) :
    Inside width height (windowDots context width height) ↔
      Fits width 16 (width - 32) context.progress := by
  rw [windowDots]
  simp only [inside_append]
  have htexts := @inside_drawPrompt context width height
  constructor
  · rintro ⟨-, hbar⟩ value hvalue
    rw [hvalue] at hbar
    exact (inside_drawProgress_iff hwidth hheight value).mp hbar
  · intro hfits
    refine ⟨⟨⟨⟨inside_drawText, inside_drawText⟩, htexts⟩, inside_drawText⟩, ?_⟩
    cases hprogress : context.progress with
    | none => exact fun _ h => absurd h List.not_mem_nil
    | some value => exact (inside_drawProgress_iff hwidth hheight value).mpr (hfits value hprogress)

theorem inside_usageDots_iff {width height : Nat} (hwidth : 416 ≤ width) (hheight : 54 ≤ height)
    (context : DisplayContext) :
    Inside width height (usageDots context width height) ↔
      Fits width 196 (columnWidth width - 180) context.weeklyRemaining ∧
        Fits width (220 + columnWidth width) (columnWidth width - 180)
          context.fiveHourRemaining := by
  have hcolumn : 180 ≤ columnWidth width ∧ 2 * columnWidth width + 56 ≤ width := by
    unfold columnWidth
    omega
  have hfive : 16 + columnWidth width + 24 + 180 = 220 + columnWidth width := by omega
  rw [usageDots, inside_append, inside_append, drawLimits]
  split
  next hnone =>
    obtain ⟨hweekly, hfiveHour⟩ := hnone
    refine ⟨fun _ => ⟨fun _ h => ?_, fun _ h => ?_⟩, fun _ => ⟨⟨inside_drawText,
      inside_drawPrompt⟩, inside_append.mpr ⟨inside_drawText, inside_drawText⟩⟩⟩
    · rw [hweekly] at h
      cases h
    · rw [hfiveHour] at h
      cases h
  · rw [inside_append, inside_drawUsageMeter_iff "WEEKLY" hcolumn.1 (by omega) (by omega),
      inside_drawUsageMeter_iff "5-HOUR" hcolumn.1 (by omega) (by omega), hfive]
    exact ⟨fun h => h.2, fun h => ⟨⟨inside_drawText, inside_drawPrompt⟩, h⟩⟩

theorem renderWindowImage_isSome_iff {width height : Nat} (hwidth : 32 ≤ width)
    (hheight : 14 ≤ height) (context : DisplayContext) :
    (renderWindowImage context width height).isSome = true ↔
      Fits width 16 (width - 32) context.progress :=
  Raster.draw_isSome_iff.trans (inside_windowDots_iff hwidth hheight context)

theorem renderUsageImage_isSome_iff {width height : Nat} (hwidth : 416 ≤ width)
    (hheight : 54 ≤ height) (context : DisplayContext) :
    (renderUsageImage context width height).isSome = true ↔
      Fits width 196 (columnWidth width - 180) context.weeklyRemaining ∧
        Fits width (220 + columnWidth width) (columnWidth width - 180)
          context.fiveHourRemaining :=
  Raster.draw_isSome_iff.trans (inside_usageDots_iff hwidth hheight context)

/-! ## The models -/

/-- What is painted in a mode. -/
def paint (context : DisplayContext) (size : Nat × Nat) : DisplayMode → Option RgbImage
  | .context => renderWindowImage context size.1 size.2
  | .usage => renderUsageImage context size.1 size.2

/-- Each mode of the window can be painted. -/
def Paintable (profile : Profile) (context : DisplayContext) : Prop :=
  ∀ size, profile.window = some size → ∀ mode, (paint context size mode).isSome = true

/-- The window has room for two meters. -/
def Profile.Roomy (profile : Profile) : Prop :=
  ∀ size, profile.window = some size → 416 ≤ size.1 ∧ 54 ≤ size.2

/-- A context fits a window of a width. -/
structure FitsWindow (width : Nat) (context : DisplayContext) : Prop where
  progress : Fits width 16 (width - 32) context.progress
  weekly : Fits width 196 (columnWidth width - 180) context.weeklyRemaining
  fiveHour : Fits width (220 + columnWidth width) (columnWidth width - 180)
    context.fiveHourRemaining

theorem Profile.Roomy.paintable_fits {profile : Profile} (h : profile.Roomy)
    (context : DisplayContext) :
    Paintable profile context ↔
      ∀ size, profile.window = some size → FitsWindow size.1 context := by
  constructor
  · intro hpaintable size hsize
    obtain ⟨hwidth, hheight⟩ := h size hsize
    have hcontext := (renderWindowImage_isSome_iff (by omega) (by omega) context).mp
      (hpaintable size hsize .context)
    have husage := (renderUsageImage_isSome_iff hwidth hheight context).mp
      (hpaintable size hsize .usage)
    exact ⟨hcontext, husage.1, husage.2⟩
  · intro hfits size hsize mode
    obtain ⟨hwidth, hheight⟩ := h size hsize
    have hcontext := hfits size hsize
    cases mode with
    | context => exact (renderWindowImage_isSome_iff (by omega) (by omega) context).mpr hcontext.1
    | usage =>
        exact (renderUsageImage_isSome_iff hwidth hheight context).mpr ⟨hcontext.2, hcontext.3⟩

/-- The models that there are. -/
def models : List Profile := [.plus, .xl, .plusXl]

theorem roomy_of_mem_models {profile : Profile} (h : profile ∈ models) : profile.Roomy := by
  intro size hsize
  simp only [models, List.mem_cons, List.not_mem_nil, or_false] at h
  rcases h with rfl | rfl | rfl
  · obtain rfl := Option.some.inj hsize
    decide
  · cases hsize
  · obtain rfl := Option.some.inj hsize
    decide

/-- A percentage is at most this, where there is one. -/
def Within (limit : Nat) (percentage : Option Nat) : Prop :=
  ∀ value, percentage = some value → value ≤ limit

theorem within_none {limit : Nat} : Within limit none := fun _ hvalue => by cases hvalue

theorem fits_iff_within {width start barWidth limit : Nat} (percentage : Option Nat)
    (h : ∀ value, start + barWidth * value / 100 ≤ width ↔ value ≤ limit) :
    Fits width start barWidth percentage ↔ Within limit percentage :=
  forall_congr' fun value => imp_congr_right fun _ => h value

theorem fitsWindow_plus_iff (context : DisplayContext) :
    FitsWindow 800 context ↔ Within 102 context.progress ∧
      Within 315 context.weeklyRemaining ∧ Within 108 context.fiveHourRemaining := by
  have hprogress : Fits 800 16 768 context.progress ↔ Within 102 context.progress :=
    fits_iff_within _ fun _ => by omega
  have hweekly : Fits 800 196 192 context.weeklyRemaining ↔ Within 315 context.weeklyRemaining :=
    fits_iff_within _ fun _ => by omega
  have hfiveHour : Fits 800 592 192 context.fiveHourRemaining ↔
      Within 108 context.fiveHourRemaining := fits_iff_within _ fun _ => by omega
  rw [← hprogress, ← hweekly, ← hfiveHour]
  exact ⟨fun h => ⟨h.progress, h.weekly, h.fiveHour⟩, fun h => ⟨h.1, h.2.1, h.2.2⟩⟩

theorem fitsWindow_plusXl_iff (context : DisplayContext) :
    FitsWindow 1200 context ↔ Within 101 context.progress ∧
      Within 256 context.weeklyRemaining ∧ Within 104 context.fiveHourRemaining := by
  have hprogress : Fits 1200 16 1168 context.progress ↔ Within 101 context.progress :=
    fits_iff_within _ fun _ => by omega
  have hweekly : Fits 1200 196 392 context.weeklyRemaining ↔ Within 256 context.weeklyRemaining :=
    fits_iff_within _ fun _ => by omega
  have hfiveHour : Fits 1200 792 392 context.fiveHourRemaining ↔
      Within 104 context.fiveHourRemaining := fits_iff_within _ fun _ => by omega
  rw [← hprogress, ← hweekly, ← hfiveHour]
  exact ⟨fun h => ⟨h.progress, h.weekly, h.fiveHour⟩, fun h => ⟨h.1, h.2.1, h.2.2⟩⟩

/-- What each model can paint: the bar of the progress and the meter of the five hours go beyond
the right edge soon behind a hundred, and the meter of the week much later. -/
theorem paintable_iff (context : DisplayContext) :
    (Paintable .plus context ↔ Within 102 context.progress ∧
        Within 315 context.weeklyRemaining ∧ Within 108 context.fiveHourRemaining) ∧
      (Paintable .plusXl context ↔ Within 101 context.progress ∧
        Within 256 context.weeklyRemaining ∧ Within 104 context.fiveHourRemaining) ∧
      Paintable .xl context := by
  have hwindow {size : Nat × Nat} :
      (∀ window, some size = some window → FitsWindow window.1 context) ↔
        FitsWindow size.1 context := by
    simp only [Option.some.injEq, forall_eq']
  refine ⟨?_, ?_, fun _ hsize => by cases hsize⟩
  · rw [← fitsWindow_plus_iff, (roomy_of_mem_models (by decide)).paintable_fits]
    exact hwindow
  · rw [← fitsWindow_plusXl_iff, (roomy_of_mem_models (by decide)).paintable_fits]
    exact hwindow

/-! ## Contexts that have been checked -/

theorem within_of_percentageField {fields : List (String × Json.Value)} {name label : String}
    {percentage : Option Nat}
    (h : DisplayContext.percentageField fields name label = .ok percentage) :
    Within 100 percentage := by
  unfold DisplayContext.percentageField at h
  split at h
  · obtain rfl := Except.ok.inj h
    exact within_none
  · obtain rfl := Except.ok.inj h
    exact within_none
  · split at h
    · cases h
    · split at h
      · cases h
      next hle =>
        obtain rfl := Except.ok.inj h
        intro value hvalue
        obtain rfl := Option.some.inj hvalue
        omega
  · cases h

/-- The percentages of a context are percentages. -/
structure Percentages (context : DisplayContext) : Prop where
  progress : Within 100 context.progress
  weekly : Within 100 context.weeklyRemaining
  fiveHour : Within 100 context.fiveHourRemaining

theorem percentages_of_fromValue {value : Json.Value} {context : DisplayContext}
    (h : DisplayContext.fromValue value = .ok context) : Percentages context := by
  unfold DisplayContext.fromValue at h
  split at h
  · cases h
  split at h
  · cases h
  obtain ⟨_, -, h⟩ := bind_eq_ok.mp h
  obtain ⟨_, hweekly, h⟩ := bind_eq_ok.mp h
  obtain ⟨_, hfiveHour, h⟩ := bind_eq_ok.mp h
  obtain ⟨_, -, h⟩ := bind_eq_ok.mp h
  obtain ⟨_, -, h⟩ := bind_eq_ok.mp h
  obtain ⟨_, -, h⟩ := bind_eq_ok.mp h
  obtain ⟨_, hprogress, h⟩ := bind_eq_ok.mp h
  obtain ⟨_, -, h⟩ := bind_eq_ok.mp h
  obtain ⟨_, -, h⟩ := bind_eq_ok.mp h
  obtain ⟨_, -, h⟩ := bind_eq_ok.mp h
  obtain ⟨_, -, h⟩ := bind_eq_ok.mp h
  obtain ⟨_, -, h⟩ := bind_eq_ok.mp h
  obtain ⟨_, -, h⟩ := bind_eq_ok.mp h
  obtain ⟨_, -, h⟩ := bind_eq_ok.mp h
  obtain ⟨_, -, h⟩ := bind_eq_ok.mp h
  obtain ⟨_, -, h⟩ := bind_eq_ok.mp h
  obtain ⟨_, -, h⟩ := bind_eq_ok.mp h
  obtain rfl := pure_eq_ok.mp h
  exact ⟨within_of_percentageField hprogress, within_of_percentageField hweekly,
    within_of_percentageField hfiveHour⟩

theorem Percentages.fits {context : DisplayContext} (h : Percentages context) {width : Nat}
    (hwidth : 416 ≤ width) : FitsWindow width context := by
  have hfits {start barWidth : Nat} {percentage : Option Nat} (hwithin : Within 100 percentage)
      (hbar : start + barWidth ≤ width) : Fits width start barWidth percentage := by
    intro value hvalue
    have hle := Nat.mul_le_mul_left barWidth (hwithin value hvalue)
    omega
  have hcolumn : columnWidth width = (width - (32 + 24)) / 2 := rfl
  exact ⟨hfits h.progress (by omega), hfits h.weekly (by omega), hfits h.fiveHour (by omega)⟩

theorem Percentages.paintable {context : DisplayContext} (h : Percentages context)
    {profile : Profile} (hroomy : profile.Roomy) : Paintable profile context :=
  (hroomy.paintable_fits context).mpr fun size hsize => h.fits (hroomy size hsize).1

/-! ## Runs of the driver -/

/-- Two paintings that are alike but for what becomes of a drawing that leaves the image. -/
structure Painting.Agrees (profile : Profile) (painting other : Painting) : Prop where
  keys : other.encodeImage = painting.encodeImage
  device : other.device = painting.device
  window : ∀ mode context size, profile.window = some size →
    (paint context size mode).isSome = true →
      other.renderWindow mode context size = painting.renderWindow mode context size

namespace StreamDeckScreen

variable {profile : Profile} {painting other : Painting} {screen : StreamDeckScreen}

/-- All that the driver may paint can be painted. -/
structure Holds (profile : Profile) (screen : StreamDeckScreen) : Prop where
  model : screen.profile = profile
  applied : ∀ context, screen.displayContext = some context → Paintable profile context
  pending : ∀ context, screen.pendingDisplayContext = some context → Paintable profile context

theorem Holds.settle (h : Holds profile screen) : Holds profile screen.settle :=
  ⟨h.model, h.applied, fun _ hcontext => by cases hcontext⟩

theorem Holds.paint (h : Holds profile screen) (context : DisplayContext) (mode : DisplayMode)
    (moment : Moment) :
    Holds profile (screen.paintWindow painting context mode moment).2 := by
  unfold paintWindow
  split
  · exact ⟨h.model, h.applied, h.settle.pending⟩
  · split
    · exact h
    · simp only
      split
      · exact ⟨h.model, h.applied, h.pending⟩
      · exact ⟨h.model, h.applied, h.settle.pending⟩

theorem Holds.flush (h : Holds profile screen) (force : Bool) (moment : Moment) :
    Holds profile (screen.flushDisplayContext painting force moment).2 := by
  unfold flushDisplayContext
  split
  · exact h
  · simp only
    split
    · exact h.settle
    · split
      · exact h
      · exact h.paint _ _ moment

theorem Holds.current (h : Holds profile screen) (hroomy : profile.Roomy) :
    Paintable profile screen.current := by
  cases hcontext : screen.displayContext with
  | none =>
      have hnone : Percentages {} := ⟨within_none, within_none, within_none⟩
      rw [StreamDeckScreen.current, hcontext]
      exact hnone.paintable hroomy
  | some context =>
      rw [StreamDeckScreen.current, hcontext]
      exact h.applied context hcontext

theorem Holds.seen (h : Holds profile screen) (report : List UInt8) :
    Holds profile { screen with
      toStreamDeckDevice := (screen.toStreamDeckDevice.eventsFromReport report).2 } :=
  ⟨(screen.toStreamDeckDevice.profile_eventsFromReport report).trans h.model, h.applied,
    h.pending⟩

theorem Holds.waiting (h : Holds profile screen) {context : DisplayContext}
    (hcontext : Paintable profile context) : Holds profile (screen.waiting context) :=
  ⟨h.model, h.applied, fun _ hpending => Option.some.inj hpending ▸ hcontext⟩

theorem Holds.events (h : Holds profile screen) (hroomy : profile.Roomy) (report : List UInt8)
    (moment : Moment) : Holds profile (screen.eventsFromReport painting report moment).2 := by
  unfold eventsFromReport
  simp only
  split
  · exact h.seen report
  · exact ((h.seen report).waiting (h.current hroomy)).flush true moment

theorem Holds.keys (h : Holds profile screen) (moment : Moment) :
    Holds profile (screen.flushKeys painting moment).2 := by
  have hprofile (attempt : Attempt) : (screen.toStreamDeckDevice.flushKeyStatus
      painting.encodeImage attempt).device.profile = profile :=
    (congrArg Prod.fst (StreamDeckDevice.panel_flushKeyStatus _ _ attempt)).trans h.model
  unfold flushKeys
  simp only
  split
  · exact ⟨hprofile _, h.applied, h.pending⟩
  · exact ⟨hprofile _, h.applied, h.pending⟩

/-! What the two paintings make of the same state. -/

theorem flush_congr (hagree : painting.Agrees profile other) (h : Holds profile screen)
    (force : Bool) (moment : Moment) :
    screen.flushDisplayContext other force moment =
      screen.flushDisplayContext painting force moment := by
  unfold flushDisplayContext
  split
  · rfl
  next context hcontext =>
    simp only
    split
    · rfl
    · split
      · rfl
      · unfold paintWindow
        split
        · rfl
        next size hsize =>
          have hwindow : profile.window = some size := h.model ▸ hsize
          rw [hagree.window _ context size hwindow (h.pending context hcontext size hwindow _),
            hagree.device]

theorem flushKeys_congr (hagree : painting.Agrees profile other) (moment : Moment) :
    screen.flushKeys other moment = screen.flushKeys painting moment := by
  unfold flushKeys
  rw [hagree.keys, hagree.device]

theorem events_congr (hagree : painting.Agrees profile other) (h : Holds profile screen)
    (hroomy : profile.Roomy) (report : List UInt8) (moment : Moment) :
    screen.eventsFromReport other report moment =
      screen.eventsFromReport painting report moment := by
  unfold eventsFromReport
  simp only
  split
  · rfl
  · have hflush := flush_congr hagree ((h.seen report).waiting (h.current hroomy)) true moment
    exact congrArg _ (congrArg Prod.snd hflush)

theorem poll_congr (hagree : painting.Agrees profile other) (h : Holds profile screen)
    (hroomy : profile.Roomy) (read : Except String (List UInt8)) (moments : PollMoments) :
    screen.poll other read moments = screen.poll painting read moments ∧
      Holds profile (screen.poll painting read moments).2 := by
  have hfirst : Holds profile (screen.flushDisplayContext painting false moments.first).2 :=
    h.flush false moments.first
  unfold StreamDeckScreen.poll
  simp only [flush_congr hagree h]
  split
  · exact ⟨rfl, hfirst⟩
  · split
    · exact ⟨rfl, hfirst⟩
    next report =>
      have hseen : Holds profile ((screen.flushDisplayContext painting false
          moments.first).2.eventsFromReport painting report moments.touch).2 :=
        hfirst.events hroomy report moments.touch
      have hkeys := @Holds.keys profile painting _ hseen moments.keys
      simp only [events_congr hagree hfirst hroomy, flushKeys_congr hagree]
      split
      · exact ⟨rfl, hkeys⟩
      · rw [flush_congr hagree hkeys]
        exact ⟨rfl, hkeys.flush false moments.last⟩

theorem call_congr (hagree : painting.Agrees profile other) (h : Holds profile screen)
    (hroomy : profile.Roomy) (call : ScreenCall)
    (hcall : ∀ context, call.context? = some context → Paintable profile context) :
    screen.call other call = screen.call painting call ∧
      Holds profile (screen.call painting call) := by
  cases call with
  | poll read moments =>
      obtain ⟨hsame, hafter⟩ := poll_congr hagree h hroomy read moments
      exact ⟨congrArg Prod.snd hsame, hafter⟩
  | applyThreadStatus parameters moment =>
      unfold StreamDeckScreen.call StreamDeckScreen.applyThreadStatus
      simp only
      split
      · exact ⟨rfl, h⟩
      next entries _ =>
        have hstatus : Holds profile { screen with
            toStreamDeckDevice := screen.toStreamDeckDevice.withStatus entries } :=
          ⟨h.model, h.applied, h.pending⟩
        exact ⟨congrArg Prod.snd (flushKeys_congr hagree moment), hstatus.keys moment⟩
  | applyDisplayContext context moment =>
      have hcontext := hcall context rfl
      have hasked : Holds profile { screen with displayContext := some context } :=
        ⟨h.model, fun _ hsome => Option.some.inj hsome ▸ hcontext, h.pending⟩
      unfold StreamDeckScreen.call StreamDeckScreen.applyDisplayContext
      simp only
      split
      · exact ⟨rfl, hasked⟩
      · have hwaiting := hasked.waiting hcontext
        exact ⟨congrArg Prod.snd (flush_congr hagree hwaiting false moment),
          hwaiting.flush false moment⟩

theorem calls_congr (hagree : painting.Agrees profile other) (h : Holds profile screen)
    (hroomy : profile.Roomy) (calls : List ScreenCall)
    (hcalls : ∀ context ∈ calls.filterMap ScreenCall.context?, Paintable profile context) :
    calls.foldl (call other) screen = calls.foldl (call painting) screen := by
  induction calls generalizing screen with
  | nil => rfl
  | cons first calls ih =>
      obtain ⟨hsame, hafter⟩ := call_congr hagree h hroomy first fun context hcontext =>
        hcalls context (List.mem_filterMap.mpr ⟨first, List.mem_cons_self, hcontext⟩)
      rw [List.foldl_cons, List.foldl_cons, hsame]
      exact ih hafter fun context hcontext => by
        obtain ⟨later, hlater, hsome⟩ := List.mem_filterMap.mp hcontext
        exact hcalls context (List.mem_filterMap.mpr ⟨later, List.mem_cons_of_mem _ hlater, hsome⟩)

end StreamDeckScreen

open StreamDeckScreen

/-- A driver never paints beyond its window while each context it is given has been checked by
the validator of contexts or fits the window: what would become of a drawing that leaves the
image makes no difference to any run. -/
theorem painted_within {profile : Profile} (hprofile : profile ∈ models)
    {painting other : Painting} (hagree : painting.Agrees profile other) (calls : List ScreenCall)
    (hcalls : ∀ context ∈ calls.filterMap ScreenCall.context?,
      (∃ value, DisplayContext.fromValue value = .ok context) ∨
        ∀ size, profile.window = some size → FitsWindow size.1 context) :
    calls.foldl (call other) (.new profile) = calls.foldl (call painting) (.new profile) := by
  have hroomy := roomy_of_mem_models hprofile
  have hnew : Holds profile (.new profile) := by
    refine ⟨rfl, fun _ hcontext => ?_, fun _ hcontext => ?_⟩
    · cases hcontext
    · cases hcontext
  refine calls_congr hagree hnew hroomy calls fun context hcontext => ?_
  rcases hcalls context hcontext with ⟨value, haccepted⟩ | hfits
  · exact (percentages_of_fromValue haccepted).paintable hroomy
  · exact (hroomy.paintable_fits context).mpr hfits

/-- A painting that refuses to leave the image. -/
def carefulPainting : Painting :=
  { plainPainting with
    renderWindow := fun mode context size =>
      if (paint context size mode).isSome then plainPainting.renderWindow mode context size
      else .error "outside of the image" }

/-- A context that a Stream Deck + can just paint. -/
def fullContext : DisplayContext := { progress := some 102 }

theorem painted_within_plus :
    [ScreenCall.applyDisplayContext fullContext ⟨0, 0⟩].foldl (call carefulPainting)
        (.new .plus) =
      [ScreenCall.applyDisplayContext fullContext ⟨0, 0⟩].foldl (call plainPainting)
        (.new .plus) := by
  have hagree : plainPainting.Agrees .plus carefulPainting := by
    refine ⟨rfl, rfl, fun mode context size _ hinside => ?_⟩
    unfold carefulPainting
    exact if_pos hinside
  have hprogress : Within 102 fullContext.progress := by
    intro value hvalue
    obtain rfl := Option.some.inj hvalue
    decide
  have hfits : FitsWindow 800 fullContext :=
    (fitsWindow_plus_iff fullContext).mpr ⟨hprogress, within_none, within_none⟩
  exact @painted_within .plus (by decide) plainPainting carefulPainting hagree
    [.applyDisplayContext fullContext ⟨0, 0⟩] fun context hcontext => by
      obtain rfl : context = fullContext := List.mem_singleton.mp hcontext
      refine .inr fun size hsize => ?_
      obtain rfl := Option.some.inj hsize
      exact hfits

end Controllers
end MicroEmu
