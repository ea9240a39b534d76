/-
  Titled frames drawn behind nodes.  They have no effect on what a graph computes.
-/

import Dataflow.Geometry

namespace Dataflow

/-- A titled frame. -/
structure Group where
  title : String
  frame : Rect
  color : Option String
  font : Float32
deriving Inhabited

namespace Group

/-- The size of a title when nothing else is said. -/
def defaultFont : Float32 := 24.0

/-- A group with the frame that new groups get. -/
def new (title : String) : Group := ⟨title, ⟨10.0, 10.0, 140.0, 80.0⟩, none, defaultFont⟩

/-- Whether a place is inside the frame, made larger by a margin. -/
def holds (g : Group) (p : Point) (margin : Float32) : Bool := (g.frame.grown margin).holds p

end Group

end Dataflow
