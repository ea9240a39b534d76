/-
  Nodes that carry values across the boundary of a graph.

  A bridge keeps one terminal in step with the properties of its node: the property `name` names
  the terminal, the property `type` its type.  The bridge remembers the name it registered, so
  that a new name renames the terminal instead of adding another.
-/

import Dataflow.Body

namespace Dataflow.Catalog

variable {B σ : Type}

/-- The name and the type that the properties of a node ask for. -/
def wanted? (g : Graph B) (id : NodeId) : Option (String × SlotType) := do
  let n ← g.nodes.get? id
  let name := ((n.property? "name").bind Value.str?).getD ""
  let type := (((n.property? "type").bind Value.str?).map SlotType.ofName).getD .any
  return (name, type)

/-- The name of the terminal of a node that asks for none. -/
def defaultName (d : Direction) (id : NodeId) : String :=
  match d with
  | .input => "input_" ++ natText id.number
  | .output => "output_" ++ natText id.number

/-- The side of the node on which the value of a terminal appears. -/
def inside : Direction → Direction
  | .input => .output
  | .output => .input

/-- Gives a node without a name its default one. -/
def settleName (d : Direction) (id : NodeId) (name : String) : Body B σ String :=
  if name.isEmpty then do
    let name := defaultName d id
    Body.edit (.storeProperty id "name" (.str name))
    return name
  else return name

/-- Brings a terminal in step with its node; answers the name registered then. -/
def sync (d : Direction) (registered : Option String) (id : NodeId) :
    Body B σ (Option String) := do
  match wanted? (← Body.graph) id with
  | none => return registered
  | some (asked, type) =>
    let name ← settleName d id asked
    match registered with
    | some old => if old ≠ name then let _ ← Body.edit (.renameTerminal d old name)
    | none => pure ()
    if !((← Body.graph).terminals d).contains name then
      Body.edit (.addTerminal d name type none)
    let _ ← Body.edit (.retypeTerminal d name type)
    Body.edit (.renameSlot (inside d) id 0 name)
    return some name

/-- Carries the value of a terminal into the graph, or out of it. -/
def carry (d : Direction) (name : String) (id : NodeId) : Body B σ Unit := do
  let g ← Body.graph
  match d with
  | .input =>
    match g.terminalValue? .input name with
    | some v => Body.write id 0 v
    | none => return ()
  | .output =>
    match g.inputData? id 0 with
    | some v => let _ ← Body.edit (.setTerminalValue .output name v)
    | none => return ()

/-- Brings a terminal in step with its node and carries its value; answers the name registered
then. -/
def syncAndCarry (d : Direction) (registered : Option String) (id : NodeId) :
    Body B σ (Option String) := do
  let registered ← sync d registered id
  match registered with
  | some name => carry d name id
  | none => pure ()
  return registered

end Dataflow.Catalog
