/-
  Nodes that give a number, add two of them, and show what they are fed.
-/

import Dataflow.Body
import Dataflow.Shape.Attributes

namespace Dataflow.Catalog

variable {B σ : Type}

/-- The number in a value that may be missing; a missing one is zero. -/
def numberOr0 (name : String) : Option Value → Except NodeError Float
  | some v => v.number name
  | none => .ok 0.0

/-- Gives the number in its property. -/
def giveConstant (id : NodeId) : Body B σ Ending := do
  let g ← Body.graph
  Body.after (numberOr0 "value" (g.property? id "value")) fun x => Body.write id 0 (.ofFloat x)

/-- The sum of the numbers at the two inputs of a node, or in its properties where nothing comes
in. -/
def total (g : Graph B) (id : NodeId) : Except NodeError Float := do
  let a ← numberOr0 "A" (g.inputOrProperty? id "A")
  let b ← numberOr0 "B" (g.inputOrProperty? id "B")
  return 0.0 + a + b

/-- Gives the sum of two numbers. -/
def giveSum (id : NodeId) : Body B σ Ending := do
  let g ← Body.graph
  Body.after (total g id) fun x => Body.write id 0 (.ofFloat x)

/-- Whether a property is there and has a value. -/
def holdsAlready (old : Option Value) (value : Value) : Bool := old.any fun v => v.same value

/-- Keeps in a property what comes in, writing only what is new. -/
def showInput (id : NodeId) : Body B σ Unit := do
  let g ← Body.graph
  let value := (g.inputData? id 0).getD .null
  if !holdsAlready (g.property? id "value") value then
    Body.edit (.storeProperty id "value" value)

end Dataflow.Catalog
