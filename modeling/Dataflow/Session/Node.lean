/-
  Changing nodes that belong to a graph.

  Most changes touch one node and count as one change of the structure.  Removing a slot moves
  the later slots down, and with them the ends of their links; removing a node breaks its links
  first.
-/

import Dataflow.Node.Record
import Dataflow.Registry
import Dataflow.Session.Link

namespace Dataflow

/-! ## Changes of one node -/

/-- A change of one node that concerns neither links nor properties. -/
inductive NodeChange where
  | moved (pos : Point)
  | resized (size : Size)
  | titled (title : String)
  | timed (mode : Mode)
  | collapsed (on : Bool)
  | pinned (on : Bool)
  | colored (title body : Option String)
  | prioritized (priority : Option Int)

namespace NodeChange

/-- The node after the change. -/
def apply {B : Type} (c : NodeChange) (n : Node B) : Node B :=
  match c with
  | moved pos => { n with pos }
  | resized size => { n with size }
  | titled title => { n with title }
  | timed mode => { n with mode }
  | collapsed on => { n with flags := { n.flags with collapsed := on } }
  | pinned on => { n with flags := { n.flags with pinned := on } }
  | colored title body => { n with color := title, background := body }
  | prioritized p => { n with ownPriority := p }

/-- Whether the change can move the node in the order of execution. -/
def reorders : NodeChange → Bool
  | prioritized _ => true
  | _ => false

end NodeChange

/-! ## Copies of nodes -/

/-- A record without identity and links. -/
def NodeRecord.detached (r : NodeRecord) : NodeRecord :=
  { r with
    id := none
    inputs := r.inputs.map fun ss => ss.map fun s => { s with link := none }
    outputs := r.outputs.map fun ss => ss.map fun s => { s with links := [] } }

/-- A copy of a node, made from its record without identity and links. -/
def Node.copy {B : Type} [Kind B] (n : Node B) (registry : Registry B) : Node B × List (Event B) :=
  let r := n.record.detached
  let fresh := registry.createOrStandIn r.type none
  let fresh := if fresh.hasErrors then .placeholder r else fresh
  let (copy, offered) := fresh.applyRecord r
  let (copy, told) := copy.tell (.configured r)
  (copy, offered ++ told)

/-! ## Changes of the graph -/

namespace Graph

variable {B : Type}

/-- The graph without an input; the later inputs of the node, and their links, move down. -/
def eraseInput (g : Graph B) (id : NodeId) (slot : Nat) : Graph B :=
  match g.nodes.get? id with
  | some n =>
    let moved := (n.inputs.drop (slot + 1)).filterMap Input.link
    let g := g.modifyLinks moved fun l => { l with targetSlot := l.targetSlot - 1 }
    g.modifyNode id fun n => ({ n with inputs := n.inputs.eraseIdx slot } : Node B).fit
  | none => g

/-- The graph without an output; the later outputs of the node, and their links, move down. -/
def eraseOutput (g : Graph B) (id : NodeId) (slot : Nat) : Graph B :=
  match g.nodes.get? id with
  | some n =>
    let moved := (n.outputs.drop (slot + 1)).flatMap Output.links
    let g := g.modifyLinks moved fun l => { l with originSlot := l.originSlot - 1 }
    g.modifyNode id fun n => ({ n with outputs := n.outputs.eraseIdx slot } : Node B).fit
  | none => g

/-- The graph with a property of a node written. -/
def setProperty (g : Graph B) (id : NodeId) (name : String) (value : Value) : Graph B :=
  g.modifyNode id fun n => n.setProperty name value

/-- The graph with a value written to an output and to the links that leave it. -/
def setOutputData (g : Graph B) (id : NodeId) (slot : Nat) (value : Value) : Graph B :=
  match g.output? id slot with
  | some s =>
    let g := g.modifyLinks s.links fun l => { l with data := some value }
    g.modifyNode id fun n => n.modifyOutput slot fun s => { s with data := some value }
  | none => g

/-- The graph in which some links that leave an output have forgotten the events that went
through them: all of them, or the one named. -/
def clearTriggered (g : Graph B) (id : NodeId) (slot : Nat) (only : Option LinkId) : Graph B :=
  match g.output? id slot with
  | some s =>
    g.modifyLinks (s.links.filter fun l => only.all (· = l)) fun l => { l with triggered := false }
  | none => g

/-- The graph in which every link has forgotten the events that went through it. -/
def clearAllTriggered (g : Graph B) : Graph B :=
  { g with links := g.links.mapValues fun _ l => { l with triggered := false } }

end Graph

namespace Session

variable {B σ : Type}

/-- Changes a node; says whether it exists. -/
def change (s : Session B σ) (id : NodeId) (c : NodeChange) : Bool × Session B σ :=
  if s.graph.nodes.contains id then
    let s := s.restructure fun g => g.modifyNode id c.apply
    (true, if c.reorders then s.invalidate else s)
  else (false, s)

/-! ## Slots -/

/-- Adds an input; answers its place. -/
def addInput (s : Session B σ) (id : NodeId) (name : String) (type : SlotType) :
    Option Nat × Session B σ :=
  match s.graph.nodes.get? id with
  | some n =>
    (some n.inputs.length, s.restructure fun g => g.modifyNode id (·.addInput name type))
  | none => (none, s)

/-- Adds an output; answers its place. -/
def addOutput (s : Session B σ) (id : NodeId) (name : String) (type : SlotType) :
    Option Nat × Session B σ :=
  match s.graph.nodes.get? id with
  | some n =>
    (some n.outputs.length, s.restructure fun g => g.modifyNode id (·.addOutput name type))
  | none => (none, s)

/-- Removes an input with its link; says whether it existed. -/
def removeInput [Kind B] (s : Session B σ) (id : NodeId) (slot : Nat) : Bool × Session B σ :=
  match s.graph.input? id slot with
  | some _ =>
    let (_, s) := s.beginBatch.disconnectInput id slot
    let s := s.edit fun g => (g.eraseInput id slot).bump
    (true, s.markStale.endBatch.changed)
  | none => (false, s)

/-- Removes an output with its links; says whether it existed. -/
def removeOutput [Kind B] (s : Session B σ) (id : NodeId) (slot : Nat) : Bool × Session B σ :=
  match s.graph.output? id slot with
  | some _ =>
    let (_, s) := s.beginBatch.disconnectOutput id slot none
    let s := s.edit fun g => (g.eraseOutput id slot).bump
    (true, s.markStale.endBatch.changed)
  | none => (false, s)

/-- Names a slot anew, without counting that as a change. -/
def renameSlot (s : Session B σ) (d : Direction) (id : NodeId) (slot : Nat) (name : String) :
    Session B σ :=
  s.edit fun g => g.modifyNode id fun n =>
    match d with
    | .input => n.modifyInput slot fun i => { i with name }
    | .output => n.modifyOutput slot fun o => { o with name }

/-! ## Properties -/

/-- Writes a property, if the node exists. -/
def storeProperty (s : Session B σ) (id : NodeId) (name : String) (value : Value) : Session B σ :=
  if s.graph.nodes.contains id then s.restructure fun g => g.setProperty id name value else s

/-- Writes a property, unless the behaviour of the node keeps the old value; says whether the
node exists. -/
def setProperty [Kind B] (s : Session B σ) (id : NodeId) (name : String) (value : Value) :
    Bool × Session B σ :=
  if s.graph.nodes.contains id then
    let kept := (s.graph.behavior? id).any fun b => Kind.keepsOld b name value
    let s := s.tell id (.propertyOffered name value)
    (true, if kept then s else s.storeProperty id name value)
  else (false, s)

/-- Declares a property on a node, without counting that as a change; says whether the node
exists. -/
def declareProperty (s : Session B σ) (id : NodeId) (info : PropertyInfo) : Bool × Session B σ :=
  (s.graph.nodes.contains id, s.edit fun g => g.modifyNode id (·.declareProperty info))

/-! ## Data -/

/-- Writes a value to an output; says whether it exists. -/
def setOutputData (s : Session B σ) (id : NodeId) (slot : Nat) (value : Value) :
    Bool × Session B σ :=
  ((s.graph.output? id slot).isSome, s.edit fun g => g.setOutputData id slot value)

/-! ## Taking nodes away -/

/-- The places of the inputs that a link feeds. -/
def linkedInputs (n : Node B) : List Nat :=
  (List.range n.inputs.length).filter fun slot => (n.inputs[slot]?).any Input.isConnected

/-- The places of the outputs that a link leaves. -/
def linkedOutputs (n : Node B) : List Nat :=
  (List.range n.outputs.length).filter fun slot => (n.outputs[slot]?).any Output.isConnected

variable [Kind B]

/-- Breaks every link of a node. -/
def isolate (s : Session B σ) (id : NodeId) (n : Node B) : Session B σ :=
  let s := (linkedInputs n).foldl (fun s slot => (s.disconnectInput id slot).2) s
  (linkedOutputs n).foldl (fun s slot => (s.disconnectOutput id slot none).2) s

/-- Takes a node out, after telling its behaviour; its links are left to the caller. -/
def extract (s : Session B σ) (id : NodeId) : Option (Node B) × Session B σ :=
  let s := s.tell id .removed
  match s.graph.nodes.get? id with
  | some n =>
    (some { n with id := none }, s.edit fun g => { g with nodes := g.nodes.erase id }.bump)
  | none => (none, s)

/-- Removes a node and its links; answers the node. -/
def remove (s : Session B σ) (id : NodeId) : Option (Node B) × Session B σ :=
  match s.graph.nodes.get? id with
  | some n =>
    let (n, s) := (s.beginBatch.isolate id n).extract id
    (n, (s.markStale.endBatch.log (.nodeRemoved id)).changed)
  | none => (none, s)

/-- Removes everything and starts counting anew; settings, registered types and open batches
stay. -/
def clear (s : Session B σ) : Session B σ :=
  let s := s.stop
  let s := s.tellAll s.graph.nodes.keys .removed
  s.restructure fun g =>
    { Graph.empty g.registry g.settings with version := g.version, batchDepth := g.batchDepth }

/-! ## Copies -/

/-- An unattached copy of a node, without links; the copy's behaviour is told its record. -/
def cloneNode (s : Session B σ) (id : NodeId) : Option (Node B) × Session B σ :=
  match s.graph.nodes.get? id with
  | some n =>
    let (copy, events) := n.copy s.graph.registry
    (some copy, s.logAll events)
  | none => (none, s)

end Session

end Dataflow
