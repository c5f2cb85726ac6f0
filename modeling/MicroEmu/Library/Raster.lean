import Mathlib.Data.List.Basic

/-!
# Images as pixels that are set one by one

Setting a pixel that is not there fails, and so does the drawing it belongs to.  So a drawing
succeeds exactly when each of its pixels is inside the image.
-/

namespace MicroEmu
namespace Library

universe u

/-- An image; what is outside its bounds means nothing. -/
structure Raster (γ : Type u) where
  width : Nat
  height : Nat
  pixel : Nat → Nat → γ

/-- A pixel that is set. -/
structure Dot (γ : Type u) where
  x : Nat
  y : Nat
  color : γ

variable {γ : Type u}

namespace Raster

/-- An image of one colour. -/
def blank (width height : Nat) (color : γ) : Raster γ := ⟨width, height, fun _ _ => color⟩

/-- The dot is inside. -/
def Holds (image : Raster γ) (dot : Dot γ) : Prop := dot.x < image.width ∧ dot.y < image.height

instance (image : Raster γ) (dot : Dot γ) : Decidable (image.Holds dot) :=
  inferInstanceAs (Decidable (_ ∧ _))

/-- Set a pixel. -/
def put (image : Raster γ) (dot : Dot γ) : Option (Raster γ) :=
  if image.Holds dot then
    some { image with
      pixel := fun x y => if x = dot.x ∧ y = dot.y then dot.color else image.pixel x y }
  else none

/-- Set pixels, one after another. -/
def draw (image : Raster γ) : List (Dot γ) → Option (Raster γ)
  | [] => some image
  | dot :: dots =>
      match image.put dot with
      | none => none
      | some image => image.draw dots

theorem put_of_holds {image : Raster γ} {dot : Dot γ} (h : image.Holds dot) :
    ∃ next, image.put dot = some next ∧ next.width = image.width ∧
      next.height = image.height := ⟨_, if_pos h, rfl, rfl⟩

/-- A drawing succeeds when and only when all of it is inside. -/
theorem draw_isSome_iff {image : Raster γ} {dots : List (Dot γ)} :
    (image.draw dots).isSome = true ↔ ∀ dot ∈ dots, image.Holds dot := by
  induction dots generalizing image with
  | nil => exact ⟨fun _ _ h => absurd h List.not_mem_nil, fun _ => rfl⟩
  | cons dot dots ih =>
      rw [draw, List.forall_mem_cons]
      by_cases h : image.Holds dot
      · obtain ⟨next, hput, hwidth, hheight⟩ := put_of_holds h
        have hsame (other : Dot γ) : next.Holds other ↔ image.Holds other := by
          rw [Holds, Holds, hwidth, hheight]
        simp only [hput, ih, hsame, h, true_and]
      · rw [put, if_neg h]
        constructor
        · intro hsome
          cases hsome
        · intro hall
          exact absurd hall.1 h

end Raster

/-- The dots of a rectangle, row by row. -/
def rectangle (left right top bottom : Nat) (color : γ) : List (Dot γ) :=
  (List.range' top (bottom - top)).flatMap fun y =>
    (List.range' left (right - left)).map fun x => ⟨x, y, color⟩

theorem mem_rectangle {left right top bottom : Nat} {color : γ} {dot : Dot γ} :
    dot ∈ rectangle left right top bottom color ↔
      left ≤ dot.x ∧ dot.x < right ∧ top ≤ dot.y ∧ dot.y < bottom ∧ dot.color = color := by
  obtain ⟨x, y, color'⟩ := dot
  simp only [rectangle, List.mem_flatMap, List.mem_map, List.mem_range'_1, Dot.mk.injEq]
  constructor
  · rintro ⟨row, hrow, column, hcolumn, rfl, rfl, rfl⟩
    refine ⟨by omega, by omega, by omega, by omega, rfl⟩
  · rintro ⟨hleft, hright, htop, hbottom, rfl⟩
    refine ⟨y, by omega, x, by omega, rfl, rfl, rfl⟩

/-- A rectangle with a row is inside when its right end is, or when it has no columns. -/
theorem rectangle_inside_iff {image : Raster γ} {left right top bottom : Nat} {color : γ}
    (hrow : top < bottom) (hbottom : bottom ≤ image.height) (hleft : left ≤ image.width) :
    (∀ dot ∈ rectangle left right top bottom color, image.Holds dot) ↔ right ≤ image.width := by
  constructor
  · intro h
    by_contra hwide
    have hmem : (⟨image.width, top, color⟩ : Dot γ) ∈
        rectangle left right top bottom color := mem_rectangle.mpr (by
      simp only [and_true]
      omega)
    exact Nat.lt_irrefl _ (h _ hmem).1
  · intro hright dot hdot
    obtain ⟨-, hx, -, hy, -⟩ := mem_rectangle.mp hdot
    exact ⟨by omega, by omega⟩

end Library
end MicroEmu
