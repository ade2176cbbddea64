/-!
# Bitmaps

An image in a few colours, as the rows of its pixels from top to bottom. What is
drawn beyond its edges leaves no mark, so shapes need no clipping.
-/

namespace BenchReport

/-- A colour of an image. -/
inductive Ink where
  /-- The colour of what nothing is drawn on. -/
  | white
  /-- The colour of frames. -/
  | black
  /-- The colour of lines. -/
  | blue
deriving DecidableEq, Repr

/-- A pixel, counted from the upper left corner. -/
structure Pixel where
  /-- The distance from the left edge. -/
  x : Nat
  /-- The distance from the upper edge. -/
  y : Nat
deriving DecidableEq, Repr

/-- An image. -/
structure Bitmap where
  /-- The number of pixels in a row. -/
  width : Nat
  /-- The number of rows. -/
  height : Nat
  /-- The colours, row after row. -/
  inks : Array Ink
  /-- Each pixel has a colour. -/
  size_inks : inks.size = width * height

namespace Bitmap

/-- An image without anything drawn. -/
def blank (width height : Nat) : Bitmap where
  width
  height
  inks := .replicate (width * height) .white
  size_inks := by simp

/-- Colours a pixel. -/
def mark (ink : Ink) (image : Bitmap) (p : Pixel) : Bitmap :=
  if p.x < image.width then
    { width := image.width
      height := image.height
      inks := image.inks.setIfInBounds (p.y * image.width + p.x) ink
      size_inks := by simp [image.size_inks] }
  else image

/-- The number that lies `i` steps of `n` on the way from `a` to `b`. -/
def between (a b n i : Nat) : Nat :=
  (2 * (a * (n - i) + b * i) + n) / (2 * n)

/-- The pixels on the straight way from one to another, neighbours all
of them. -/
def way (p q : Pixel) : List Pixel :=
  let steps :=
    max 1 (max (max p.x q.x - min p.x q.x) (max p.y q.y - min p.y q.y))
  (List.range (steps + 1)).map fun i =>
    ⟨between p.x q.x steps i, between p.y q.y steps i⟩

/-- Draws the straight line between two pixels. -/
def segment (ink : Ink) (image : Bitmap) (p q : Pixel) : Bitmap :=
  (way p q).foldl (mark ink) image

/-- The pixels that are at most `radius` away from one. -/
def near (radius : Nat) (p : Pixel) : List Pixel :=
  let offsets := List.range (2 * radius + 1)
  offsets.flatMap fun (i : Nat) => offsets.filterMap fun (j : Nat) =>
    let dx : Int := i - radius
    let dy : Int := j - radius
    if dx * dx + dy * dy ≤ radius * radius ∧ radius ≤ p.x + i ∧
      radius ≤ p.y + j then
      some ⟨p.x + i - radius, p.y + j - radius⟩
    else none

/-- Draws a filled circle. -/
def disc (ink : Ink) (radius : Nat) (image : Bitmap) (p : Pixel) : Bitmap :=
  (near radius p).foldl (mark ink) image

/-- Draws the edges of the rectangle between two opposite corners. -/
def frame (ink : Ink) (image : Bitmap) (p q : Pixel) : Bitmap :=
  [(p, ⟨q.x, p.y⟩), (⟨q.x, p.y⟩, q), (q, ⟨p.x, q.y⟩), (⟨p.x, q.y⟩, p)].foldl
    (fun image (a, b) => image.segment ink a b) image

end Bitmap

end BenchReport
