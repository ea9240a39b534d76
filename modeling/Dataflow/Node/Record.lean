/-
  Nodes and their records.

  A record is applied field by field: what it says replaces what the node has, and a behaviour
  may insist on the old value of a property.  A stand-in answers with the record it was made
  from, in which only its identity and its links are brought up to date.
-/

import Dataflow.Node.Basic

namespace Dataflow.Node

variable {B : Type} [Kind B]

/-! ## From a record -/

/-- Offers a property to the behaviour and writes it, unless the behaviour keeps the old one. -/
def offerProperty (n : Node B) (name : String) (value : Value) : Node B × List (Event B) :=
  let kept := n.behavior.any fun b => Kind.keepsOld b name value
  let (n, events) := n.tell (.propertyOffered name value)
  (if kept then n else n.setProperty name value, events)

/-- Offers properties, first to last. -/
def offerProperties (n : Node B) : List (String × Value) → Node B × List (Event B)
  | [] => (n, [])
  | (name, value) :: rest =>
    let (n, events) := n.offerProperty name value
    let (n, more) := n.offerProperties rest
    (n, events ++ more)

/-- The node with the state of a record.  The links named in the record are taken as they are. -/
def applyRecord (n : Node B) (r : NodeRecord) : Node B × List (Event B) :=
  let (n, events) := n.offerProperties r.properties.entries
  let n := { n with
    inputs := r.inputs.getD n.inputs
    outputs := r.outputs.getD n.outputs
    flags := r.flags
    mode := r.mode.getD n.mode
    title := r.title.getD ""
    pos := r.pos.getD n.pos }
  let size :=
    match r.size with
    | some size => size
    | none => if r.inputs.isSome || r.outputs.isSome then n.fittingSize else n.size
  ({ n with
    size, color := r.color, background := r.background, shape := r.shape
    ownPriority := r.priority }, events)

/-! ## To a record -/

/-- An output as it is recorded: without the value last written to it. -/
def forgetData (s : Output) : Output := { s with data := none }

/-- The recorded inputs of a stand-in with the links they have now. -/
def liveInputs (live : List Input) (recorded : List Input) : List Input :=
  recorded.mapIdx fun slot s => { s with link := (live[slot]?).bind Input.link }

/-- The recorded outputs of a stand-in with the links they have now. -/
def liveOutputs (live : List Output) (recorded : List Output) : List Output :=
  recorded.mapIdx fun slot s => { s with links := ((live[slot]?).map Output.links).getD [] }

/-- The title worth recording: one that differs from the title of the type. -/
def recordedTitle (n : Node B) : Option String :=
  if n.title.isEmpty || n.title == n.typeTitle then none else some n.title

/-- The record of the node. -/
def record (n : Node B) : NodeRecord :=
  match n.standsFor with
  | some r =>
    { r with
      id := if n.id.isSome then n.id else r.id
      inputs := r.inputs.map (liveInputs n.inputs)
      outputs := r.outputs.map (liveOutputs n.outputs) }
  | none =>
    let r : NodeRecord :=
      { id := n.id, type := n.type, pos := some n.pos, size := some n.size, flags := n.flags
        mode := some n.mode, inputs := some n.inputs, outputs := some (n.outputs.map forgetData)
        title := n.recordedTitle, properties := n.properties, color := n.color
        background := n.background, shape := n.shape, priority := n.ownPriority, extra := ∅ }
    match n.behavior with
    | some b => Kind.annotate b r
    | none => r

end Dataflow.Node
