/-
  A graph: nodes, links, frames, terminals, and the order of execution last computed.

  A link is known in three places: the link map, the input it feeds and the output it leaves.
  The operations of later modules keep the three in step.  `order` and `executable` are a cache;
  `stale` tells that the graph has changed since they were computed, and while a batch is open
  they may stay behind.
-/

import Dataflow.Registry
import Dataflow.Settings.Basic

namespace Dataflow

/-- A named value that crosses the boundary of a graph. -/
structure Terminal where
  name : String
  type : SlotType
  value : Option Value
deriving Inhabited

/-- A graph of nodes with behaviours in `B`. -/
structure Graph (B : Type) where
  registry : Registry B
  settings : Settings
  nodes : Assoc NodeId (Node B)
  links : Assoc LinkId Link
  groups : List Group
  /-- Where the search for a free node number starts. -/
  nextNode : Nat
  /-- Where the search for a free link number starts. -/
  nextLink : Nat
  /-- How often the structure has changed. -/
  version : Nat
  order : List NodeId
  /-- The nodes of the order that have a body. -/
  executable : List NodeId
  stale : Bool
  /-- How many batches are open. -/
  batchDepth : Nat
  inlets : Assoc String Terminal
  outlets : Assoc String Terminal
  running : Bool
  fixedTime : Float
  /-- How many steps were run. -/
  iteration : Nat
  /-- Whether the last step that kept its failure to itself had one. -/
  failed : Bool
  config : Assoc String Value

namespace Graph

variable {B : Type}

/-- The graph without nodes. -/
def empty (registry : Registry B) (settings : Settings) : Graph B :=
  { registry, settings, nodes := ∅, links := ∅, groups := [], nextNode := 1, nextLink := 1
    version := 0, order := [], executable := [], stale := false, batchDepth := 0, inlets := ∅
    outlets := ∅, running := false, fixedTime := 0.0, iteration := 0, failed := false, config := ∅ }

/-! ## Looking things up -/

/-- The input at a place. -/
def input? (g : Graph B) (id : NodeId) (slot : Nat) : Option Input := do
  let n ← g.nodes.get? id
  n.inputs[slot]?

/-- The output at a place. -/
def output? (g : Graph B) (id : NodeId) (slot : Nat) : Option Output := do
  let n ← g.nodes.get? id
  n.outputs[slot]?

/-- The behaviour of a node, unless its body is running. -/
def behavior? (g : Graph B) (id : NodeId) : Option B := (g.nodes.get? id).bind Node.behavior

theorem behavior_of_node {g : Graph B} {id : NodeId} {n : Node B} (hn : g.nodes.get? id = some n) :
    g.behavior? id = n.behavior := by
  unfold behavior?
  rw [hn]
  rfl

/-- The link that feeds an input. -/
def inputLink? (g : Graph B) (id : NodeId) (slot : Nat) : Option Link := do
  let s ← g.input? id slot
  let l ← s.link
  g.links.get? l

/-- The links that leave an output. -/
def outputLinks (g : Graph B) (id : NodeId) (slot : Nat) : List Link :=
  match g.output? id slot with
  | some s => s.links.filterMap g.links.get?
  | none => []

/-- The node that feeds an input. -/
def inputNode? (g : Graph B) (id : NodeId) (slot : Nat) : Option (Node B) := do
  let l ← g.inputLink? id slot
  g.nodes.get? l.origin

/-- The links at a node. -/
def linksFor (g : Graph B) (id : NodeId) : List Link := g.links.values.filter (·.touches id)

/-- The nodes of a type. -/
def ofType (g : Graph B) (type : String) : List (Node B) := g.nodes.values.filter (·.type = type)

/-- The nodes that show a title. -/
def titled (g : Graph B) (title : String) : List (Node B) :=
  g.nodes.values.filter (·.displayTitle = title)

/-- The property of a node. -/
def property? (g : Graph B) (id : NodeId) (name : String) : Option Value :=
  (g.nodes.get? id).bind (·.property? name)

theorem property_of_node {g : Graph B} {id : NodeId} {n : Node B} (hn : g.nodes.get? id = some n)
    (name : String) : g.property? id name = n.property? name := by
  unfold property?
  rw [hn]
  rfl

/-! ## Data -/

/-- The value that last came in at an input. -/
def inputData? (g : Graph B) (id : NodeId) (slot : Nat) : Option Value :=
  (g.inputLink? id slot).bind Link.data

/-- The value that last came in at the input of that name, else the property of that name. -/
def inputOrProperty? (g : Graph B) (id : NodeId) (name : String) : Option Value := do
  let n ← g.nodes.get? id
  ((n.findInput? name).bind (g.inputData? id)).or (n.property? name)

/-- The value last written to an output. -/
def outputData? (g : Graph B) (id : NodeId) (slot : Nat) : Option Value :=
  (g.output? id slot).bind Output.data

/-! ## Terminals -/

/-- The terminals of one direction. -/
def terminals (g : Graph B) : Direction → Assoc String Terminal
  | .input => g.inlets
  | .output => g.outlets

/-- The graph with other terminals of one direction. -/
def withTerminals (g : Graph B) (d : Direction) (ts : Assoc String Terminal) : Graph B :=
  match d with
  | .input => { g with inlets := ts }
  | .output => { g with outlets := ts }

/-- The value at a terminal. -/
def terminalValue? (g : Graph B) (d : Direction) (name : String) : Option Value :=
  ((g.terminals d).get? name).bind Terminal.value

/-! ## The canvas -/

/-- The topmost node at a place. -/
def nodeAt? (g : Graph B) (p : Point) (margin : Float32) : Option NodeId := do
  let n ← g.nodes.values.reverse.find? (·.holds p margin)
  n.id

/-- The topmost group at a place. -/
def groupAt? (g : Graph B) (p : Point) : Option Nat :=
  (g.groups.reverse.findIdx? (·.holds p 2.0)).map fun i => g.groups.length - 1 - i

/-- The nodes whose middle lies in a group. -/
def nodesIn (g : Graph B) (group : Nat) : List NodeId :=
  match g.groups[group]? with
  | some frame => (g.nodes.filter fun _ n => frame.holdsNode n).keys
  | none => []

/-! ## Changing parts -/

/-- Changes one node. -/
def modifyNode (g : Graph B) (id : NodeId) (f : Node B → Node B) : Graph B :=
  { g with nodes := g.nodes.modify id f }

/-- Changes one link. -/
def modifyLink (g : Graph B) (id : LinkId) (f : Link → Link) : Graph B :=
  { g with links := g.links.modify id f }

/-- Changes some links. -/
def modifyLinks (g : Graph B) (ids : List LinkId) (f : Link → Link) : Graph B :=
  ids.foldl (fun g id => g.modifyLink id f) g

/-- Counts one change of the structure. -/
def bump (g : Graph B) : Graph B := { g with version := g.version + 1 }

end Graph

end Dataflow
