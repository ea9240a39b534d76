/-
  What can be set about a graph and about a run of it.

  A setting that is a number may be undefined.  Arithmetic on floating point numbers does not tell
  one undefined number from another, but settings are written back with the sign that they were
  given, so the sign is kept beside the numbers.
-/

namespace Dataflow

/-- A number in the settings; an undefined one has a sign and nothing else. -/
inductive Quantity (α : Type) where
  | number (x : α)
  | undefined (minus : Bool)
deriving Inhabited

/-- The wide number to compute with. -/
def Quantity.toFloat : Quantity Float → Float
  | .number x => x
  | .undefined _ => 0.0 / 0.0

/-- The narrow number to compute with. -/
def Quantity.toFloat32 : Quantity Float32 → Float32
  | .number x => x
  | .undefined _ => 0.0 / 0.0

/-- The settings of a graph. -/
structure Settings where
  /-- How many nodes the graph takes. -/
  maxNodes : Nat
  /-- How far the simulation time advances in one pass. -/
  fixedTimeLapse : Quantity Float
  /-- Whether a tick keeps the failure of a node to itself. -/
  catchErrors : Bool
  /-- Whether nodes are moved to the grid when they are added. -/
  alignToGrid : Bool
  /-- The spacing of the grid. -/
  gridSize : Quantity Float32
deriving Inhabited

/-- The settings of a graph when nothing is said. -/
def Settings.default : Settings :=
  { maxNodes := 1000, fixedTimeLapse := .number 0.01, catchErrors := true, alignToGrid := false
    gridSize := .number 10.0 }

/-- The settings of a run. -/
structure RunSettings where
  graph : Settings
  /-- How many steps to run. -/
  ticks : Nat
  /-- The file of the snapshot to load, else the demonstration is built. -/
  snapshot : Option String
deriving Inhabited

/-- The settings of a run when nothing is said. -/
def RunSettings.default : RunSettings := ⟨.default, 1, none⟩

end Dataflow
