/-
  Nodes that give shapes and work out the shapes behind layers.
-/

import Dataflow.Body
import Dataflow.Shape.Rule

namespace Dataflow.Catalog

variable {B σ : Type}

/-- The attributes of a node are its properties. -/
def attributesOf (g : Graph B) (id : NodeId) : Attributes := g.property? id

/-- The shape in the properties of a source; no dimension may be empty. -/
def sourceShape (rank : Nat) (attrs : Attributes) : Except NodeError (List Int) := do
  let shape ← attrs.integers "size" rank
  if shape.any (· < 1) then throw (.invalidProperty "size" (.emptyDimension shape))
  return shape

/-- Gives the shape in its properties. -/
def giveShape (rank : Nat) (id : NodeId) : Body B σ Ending := do
  let g ← Body.graph
  Body.after (sourceShape rank (attributesOf g id)) fun shape => Body.write id 0 (.ofInts shape)

/-- The shape behind a layer for a value in front of it. -/
def layerShape (rule : Shape.Rule) (attrs : Attributes) (value : Value) :
    Except NodeError (List Int) :=
  match Shape.ofValue value with
  | .error m => .error (.invalidInput "in" (.misfit m))
  | .ok shape => rule.output shape attrs

/-- Gives the shape behind a layer, once there is one in front of it. -/
def mapShape (rule : Shape.Rule) (id : NodeId) : Body B σ Ending := do
  let g ← Body.graph
  match g.inputData? id 0 with
  | none => return .ok ()
  | some value =>
    Body.after (layerShape rule (attributesOf g id) value) fun shape =>
      Body.write id 0 (.ofInts shape)

end Dataflow.Catalog
