/-
  Making and breaking links.

  A link is made only after every check has passed, so a refused link leaves the graph as it
  was.  Breaking a link clears it from the three places that know it.
-/

import Dataflow.Fault
import Dataflow.Session.Basic

namespace Dataflow

/-! ## What happens to the graph -/

namespace Graph

variable {B : Type}

/-- The graph without a link. -/
def dropLink (g : Graph B) (id : LinkId) (l : Link) : Graph B :=
  let g := { g with links := g.links.erase id }
  let g := g.modifyNode l.target fun n =>
    n.modifyInput l.targetSlot fun s => if s.link = some id then { s with link := none } else s
  let g := g.modifyNode l.origin fun n =>
    n.modifyOutput l.originSlot fun s => { s with links := s.links.filter (· ≠ id) }
  { g with stale := true }

/-- The graph with a new link. -/
def addLink (g : Graph B) (l : Link) : Graph B :=
  let g := { g with links := g.links.insert l.id l, nextLink := l.id.number + 1 }
  let g := g.modifyNode l.origin fun n =>
    n.modifyOutput l.originSlot fun s => { s with links := s.links ++ [l.id] }
  g.modifyNode l.target fun n =>
    n.modifyInput l.targetSlot fun s => { s with link := some l.id }

/-- The name of a slot. -/
def slotName? (g : Graph B) (d : Direction) (id : NodeId) (slot : Nat) : Option String :=
  match d with
  | .input => (g.input? id slot).map Input.name
  | .output => (g.output? id slot).map Output.name

/-- The slots that a link would join, if nothing but a behaviour or a type can object. -/
def endpoints? (g : Graph B) (origin : NodeId) (originSlot : Nat) (target : NodeId)
    (targetSlot : Nat) : Except ConnectionError (Output × Input) := do
  let some source := g.nodes.get? origin | throw (.nodeNotFound origin)
  let some sink := g.nodes.get? target | throw (.nodeNotFound target)
  let some output := source.outputs[originSlot]? | throw (.outputNotFound origin originSlot)
  let some input := sink.inputs[targetSlot]? | throw (.inputNotFound target targetSlot)
  if origin = target then throw .selfLoop
  return (output, input)

/-- Whether the behaviour of a node lets a link in; one that is running does not object. -/
def acceptsLink [Kind B] (g : Graph B) (id : NodeId) (slot : Nat) (type : SlotType) : Bool :=
  (g.behavior? id).all fun b => Kind.acceptsLink b slot type

/-- The places of an output and an input given by name. -/
def slotsNamed? (g : Graph B) (origin : NodeId) (output : String) (target : NodeId)
    (input : String) : Except ConnectionError (Nat × Nat) := do
  let some source := g.nodes.get? origin | throw (.nodeNotFound origin)
  let some originSlot := source.findOutput? output | throw (.slotNameNotFound origin output)
  let some sink := g.nodes.get? target | throw (.nodeNotFound target)
  let some targetSlot := sink.findInput? input | throw (.slotNameNotFound target input)
  return (originSlot, targetSlot)

end Graph

namespace Session

variable {B σ : Type} [Kind B]

/-! ## Telling the ends -/

/-- Tells a node that a link at one of its slots was made or broken. -/
def tellEnd (s : Session B σ) (d : Direction) (id : NodeId) (slot : Nat) (connected : Bool)
    (link : Link) : Session B σ :=
  match s.graph.slotName? d id slot with
  | some name => s.tell id (.connection ⟨d, slot, name, connected, link⟩)
  | none => s

/-- Tells the target, the origin and the observers of a link that it was made or broken. -/
def announce (s : Session B σ) (link : Link) (connected : Bool) : Session B σ :=
  let s := s.tellEnd .input link.target link.targetSlot connected link
  let s := s.tellEnd .output link.origin link.originSlot connected link
  s.log (.linkChanged link connected)

/-! ## Breaking links -/

/-- Breaks a link, if it exists; the order is left to the caller. -/
def unlink (s : Session B σ) (id : LinkId) : Session B σ :=
  match s.graph.links.get? id with
  | some l => (s.edit fun g => (g.dropLink id l).bump).announce l false
  | none => s

/-- Breaks the link that feeds an input; says whether there was one. -/
def disconnectInput (s : Session B σ) (id : NodeId) (slot : Nat) : Bool × Session B σ :=
  match (s.graph.input? id slot).bind Input.link with
  | some l => (true, (s.unlink l).invalidate.changed)
  | none => (false, s)

/-- The links that leave an output, or those of them that lead to one node. -/
def leaving (g : Graph B) (id : NodeId) (slot : Nat) (target : Option NodeId) : List LinkId :=
  match g.output? id slot, target with
  | none, _ => []
  | some o, none => o.links
  | some o, some target => o.links.filter fun l => (g.links.get? l).any (·.target = target)

/-- Breaks the links that leave an output, or those of them that lead to one node; says whether
there were any. -/
def disconnectOutput (s : Session B σ) (id : NodeId) (slot : Nat) (target : Option NodeId) :
    Bool × Session B σ :=
  match leaving s.graph id slot target with
  | [] => (false, s)
  | ls => (true, (ls.foldl unlink s).invalidate.changed)

/-- Breaks a link; says whether it existed. -/
def removeLink (s : Session B σ) (id : LinkId) : Bool × Session B σ :=
  if s.graph.links.contains id then (true, (s.unlink id).invalidate.changed) else (false, s)

/-! ## Making links -/

/-- Makes a link between two slots that fit, in the place of the one that fed the input. -/
def link (s : Session B σ) (origin : NodeId) (originSlot : Nat) (target : NodeId)
    (targetSlot : Nat) (input : Input) : LinkId × Session B σ :=
  let s :=
    match input.link with
    | some replaced => s.unlink replaced
    | none => s
  let l := Link.new ⟨s.graph.nextLink⟩ input.type origin originSlot target targetSlot
  (l.id, ((s.edit fun g => (g.addLink l).bump).announce l true).invalidate.changed)

/-- Makes a link, unless something speaks against it. -/
def tryConnect (s : Session B σ) (origin : NodeId) (originSlot : Nat) (target : NodeId)
    (targetSlot : Nat) : Except ConnectionError LinkId × Session B σ :=
  match s.graph.endpoints? origin originSlot target targetSlot with
  | .error e => (.error e, s)
  | .ok (output, input) =>
    let accepted := s.graph.acceptsLink target targetSlot output.type
    let s := s.tell target (.linkOffered targetSlot output.type)
    if !accepted then (.error (.vetoed target), s)
    else if !output.type.feeds input.type then
      (.error (.typeMismatch output.type input.type), s)
    else
      let (l, s) := s.link origin originSlot target targetSlot input
      (.ok l, s)

/-- Makes a link between slots given by name, unless something speaks against it. -/
def connectByName (s : Session B σ) (origin : NodeId) (output : String) (target : NodeId)
    (input : String) : Except ConnectionError LinkId × Session B σ :=
  match s.graph.slotsNamed? origin output target input with
  | .error e => (.error e, s)
  | .ok (originSlot, targetSlot) => s.tryConnect origin originSlot target targetSlot

end Session

end Dataflow
