/-
  Places and extents on the canvas, in narrow numbers.
-/

import Dataflow.Numeric.Width

namespace Dataflow

/-- A place. -/
structure Point where
  x : Float32
  y : Float32
deriving Inhabited

/-- An extent. -/
structure Size where
  width : Float32
  height : Float32
deriving Inhabited

/-- A rectangle by its top left corner and its extent. -/
structure Rect where
  x : Float32
  y : Float32
  width : Float32
  height : Float32
deriving Inhabited

/-- Whether a place is strictly inside. -/
def Rect.holds (r : Rect) (p : Point) : Bool :=
  r.x < p.x && p.x < r.x + r.width && r.y < p.y && p.y < r.y + r.height

/-- A rectangle made larger on every side. -/
def Rect.grown (r : Rect) (margin : Float32) : Rect :=
  ⟨r.x - margin, r.y - margin, r.width + 2.0 * margin, r.height + 2.0 * margin⟩

/-- The middle of a rectangle. -/
def Rect.centre (r : Rect) : Point := ⟨r.x + r.width * 0.5, r.y + r.height * 0.5⟩

end Dataflow
