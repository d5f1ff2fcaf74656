import WindowHost.Checked

/-! Rectangles in display pixels. Coordinates are signed words, and a corner that is not a word
is an overflow. -/
namespace WindowHost

structure Rect where
  x : Int32
  y : Int32
  width : Int32
  height : Int32
  deriving DecidableEq

namespace Rect

def zero : Rect := ⟨0, 0, 0, 0⟩

instance : Inhabited Rect := ⟨zero⟩

def isEmpty (r : Rect) : Bool := r.width ≤ 0 || r.height ≤ 0

/-- The first coordinate past `start` and `size`. -/
def ending (start size : Int32) : Except Overflow Int32 := Checked.addSigned start size

/-- Whether `other` lies in `r`. The right edges are compared only when the upper left corner
is inside, the bottom edges only when the right edge is, and of two edges the inner rectangle's
comes first: an edge that is never compared cannot overflow. -/
def contains (r other : Rect) : Except Overflow Bool := do
  if other.x < r.x || other.y < r.y then
    return false
  let innerRight ← ending other.x other.width
  let outerRight ← ending r.x r.width
  if outerRight < innerRight then
    return false
  let innerBottom ← ending other.y other.height
  let outerBottom ← ending r.y r.height
  return innerBottom ≤ outerBottom

/-- The left half, which is the narrower one when the width is odd. -/
def leftHalf (r : Rect) : Rect := { r with width := r.width / 2 }

/-- What the left half leaves over. -/
def rightHalf (r : Rect) : Except Overflow Rect := do
  let half := r.width / 2
  let x ← Checked.addSigned r.x half
  return { r with x := x, width := r.width - half }

def toText (r : Rect) : String :=
  s!"[{r.x.toInt},{r.y.toInt} {r.width.toInt}x{r.height.toInt}]"

end Rect
end WindowHost
