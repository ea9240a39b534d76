/-
  Loading links, and putting a loaded graph in order.

  The links of a snapshot name nodes as they were recorded; loading gives them the identities
  that the nodes have now, and fresh identities of their own where theirs are taken.  After the
  nodes have taken over their recorded slots, three passes make links and slots agree: links
  that cannot stand are dropped and the others entered at both ends, then every slot forgets the
  links that do not exist, and at last those that belong elsewhere.
-/

import Dataflow.Session.Node

namespace Dataflow

/-- What a load had to change. -/
structure LoadReport where
  /-- Whether anything was replaced, dropped or repaired. -/
  hadErrors : Bool
  /-- The types that stand-ins were made for. -/
  missingTypes : List String
  /-- The links that were dropped. -/
  prunedLinks : List LinkId
deriving Inhabited

/-- The report of a load without incidents. -/
def LoadReport.clean : LoadReport := ⟨false, [], []⟩

/-- The recorded identities of what was loaded, with those of now. -/
abbrev Renaming (κ : Type) := Assoc κ κ

/-! ## Links of a snapshot -/

/-- A graph into which links are being loaded. -/
structure LinkLoad (B : Type) where
  graph : Graph B
  table : Renaming LinkId
  pruned : List LinkId

/-- The first number from `n` on that no link has; `n` itself when `fuel` runs out. -/
def freeLinkFrom (links : Assoc LinkId Link) : Nat → Nat → Nat
  | 0, n => n
  | fuel + 1, n => if links.contains ⟨n⟩ then freeLinkFrom links fuel (n + 1) else n

/-- A number that no link has: among the numbers from `n` on, one more than there are links
suffices. -/
def freeLink (links : Assoc LinkId Link) (n : Nat) : Nat := freeLinkFrom links links.size n

namespace LinkLoad

variable {B : Type}

/-- The identity that a recorded link gets, and the next number to try. -/
def claim (load : LinkLoad B) (recorded : LinkId) : LinkId × Nat :=
  let g := load.graph
  match load.table.get? recorded with
  | some id => (id, g.nextLink)
  | none =>
    if g.links.contains recorded then
      let n := freeLink g.links g.nextLink
      (⟨n⟩, n + 1)
    else (recorded, g.nextLink)

/-- Loads a link, unless one of its nodes was not loaded. -/
def add (nodes : Renaming NodeId) (load : LinkLoad B) (r : LinkRecord) : LinkLoad B :=
  match nodes.get? r.origin, nodes.get? r.target with
  | some origin, some target =>
    let (id, next) := load.claim r.id
    let l : Link := { r.toLink with id, origin, target }
    { load with
      graph := { load.graph with
        links := load.graph.links.insert id l, nextLink := max next (afterId id.number) }
      table := load.table.insert r.id id }
  | _, _ => { load with pruned := load.pruned ++ [r.id] }

end LinkLoad

/-- The graph with the links of a snapshot. -/
def Graph.mergeLinks {B : Type} (g : Graph B) (nodes : Renaming NodeId)
    (records : List LinkRecord) : LinkLoad B :=
  records.foldl (LinkLoad.add nodes) ⟨g, ∅, []⟩

/-! ## Links named in slots -/

namespace Node

variable {B : Type}

/-- The node with every link named in a slot passed through a map; what the map does not know is
forgotten. -/
def relink (n : Node B) (f : Direction → Nat → LinkId → Option LinkId) : Node B :=
  { n with
    inputs := n.inputs.mapIdx fun slot s => { s with link := s.link.bind (f .input slot) }
    outputs := n.outputs.mapIdx fun slot s =>
      { s with links := s.links.filterMap (f .output slot) } }

/-- Whether `relink` forgets anything. -/
def losesLinks (n : Node B) (f : Direction → Nat → LinkId → Option LinkId) : Bool :=
  (n.inputs.zipIdx.any fun e => e.1.link.any fun l => (f .input e.2 l).isNone)
    || n.outputs.zipIdx.any fun e => e.1.links.any fun l => (f .output e.2 l).isNone

end Node

namespace Graph

variable {B : Type}

/-! ## The three passes -/

/-- A graph under repair. -/
structure Repair (B : Type) where
  graph : Graph B
  pruned : List LinkId
  repaired : Bool

/-- Whether a link can stand: both its slots exist on different nodes, and its input is free or
names it. -/
def canStand (g : Graph B) (id : LinkId) (l : Link) : Bool :=
  (g.output? l.origin l.originSlot).isSome
    && (g.input? l.target l.targetSlot).any (fun s => s.link.all (· = id))
    && l.origin ≠ l.target

/-- Enters a link at both its ends. -/
def enter (g : Graph B) (id : LinkId) (l : Link) : Graph B :=
  let g := g.modifyNode l.target fun n =>
    n.modifyInput l.targetSlot fun s => { s with link := some (s.link.getD id) }
  g.modifyNode l.origin fun n =>
    n.modifyOutput l.originSlot fun s =>
      if id ∈ s.links then s else { s with links := s.links ++ [id] }

/-- Whether a link is entered at both its ends. -/
def isEntered (g : Graph B) (id : LinkId) (l : Link) : Bool :=
  (g.input? l.target l.targetSlot).any (·.link.isSome)
    && (g.output? l.origin l.originSlot).any fun s => id ∈ s.links

/-- Drops a link that cannot stand, and enters one that can. -/
def settle (r : Repair B) (id : LinkId) : Repair B :=
  match r.graph.links.get? id with
  | none => r
  | some l =>
    if r.graph.canStand id l then
      { r with
        graph := r.graph.enter id l, repaired := r.repaired || !r.graph.isEntered id l }
    else
      { graph := { r.graph with links := r.graph.links.erase id }
        pruned := r.pruned ++ [id], repaired := true }

/-- Passes every link named in a slot of a node through a map that may know the node. -/
def relinkAll (g : Graph B) (f : NodeId → Direction → Nat → LinkId → Option LinkId) : Graph B :=
  { g with nodes := g.nodes.mapValues fun id n => n.relink (f id) }

/-- Whether `relinkAll` makes a slot forget anything. -/
def losesLinks (g : Graph B) (f : NodeId → Direction → Nat → LinkId → Option LinkId) : Bool :=
  g.nodes.entries.any fun e => e.2.losesLinks (f e.1)

/-- Keeps the links that exist. -/
def live (g : Graph B) (_ : NodeId) (_ : Direction) (_ : Nat) (l : LinkId) : Option LinkId :=
  if g.links.contains l then some l else none

/-- Whether an end of a link is at a slot. -/
def endsAt (l : Link) (id : NodeId) (d : Direction) (slot : Nat) : Bool :=
  match d with
  | .input => l.target = id && l.targetSlot = slot
  | .output => l.origin = id && l.originSlot = slot

/-- Keeps the links that end at the slot that names them. -/
def owned (g : Graph B) (id : NodeId) (d : Direction) (slot : Nat) (l : LinkId) : Option LinkId :=
  if (g.links.get? l).any fun link => endsAt link id d slot then some l else none

/-- Makes links and slots agree. -/
def repair (g : Graph B) (pruned : List LinkId) : Repair B :=
  let r := g.links.keys.foldl settle ⟨g, pruned, false⟩
  let g := r.graph
  let kept := g.relinkAll g.live
  { graph := kept.relinkAll kept.owned
    pruned := r.pruned
    repaired := r.repaired || g.losesLinks g.live || kept.losesLinks kept.owned }

/-! ## Links to tell a loaded node about -/

/-- The links at the slots of a node, inputs first. -/
def slotLinks (g : Graph B) (n : Node B) : List (Direction × Nat × Link) :=
  (n.inputs.zipIdx.filterMap fun e =>
    (e.1.link.bind g.links.get?).map fun l => (.input, e.2, l))
    ++ n.outputs.zipIdx.flatMap fun e =>
      (e.1.links.filterMap g.links.get?).map fun l => (.output, e.2, l)

end Graph

namespace Session

variable {B σ : Type} [Kind B]

/-! ## Loaded nodes -/

/-- Gives a loaded node the state of its record; says whether it named links that were not
loaded. -/
def adopt (s : Session B σ) (table : Renaming LinkId) (id : NodeId) (r : NodeRecord) :
    Bool × Session B σ :=
  match s.graph.nodes.get? id with
  | some n =>
    let (n, events) := n.applyRecord r
    let known (_ : Direction) (_ : Nat) (l : LinkId) : Option LinkId := table.get? l
    (n.losesLinks known, (s.edit fun g => g.modifyNode id fun _ => n.relink known).logAll events)
  | none => (false, s)

/-- Tells a loaded node about the links at its slots, and then about its record. -/
def introduce (s : Session B σ) (id : NodeId) (r : NodeRecord) : Session B σ :=
  let links := ((s.graph.nodes.get? id).map s.graph.slotLinks).getD []
  let s := links.foldl (fun s e => s.tellEnd e.1 id e.2.1 true e.2.2) s
  s.tell id (.configured r)

/-- Completes a load after its nodes were added: links, records, repair, notices. -/
def settleLoad (s : Session B σ) (snapshot : Snapshot) (placed : List (NodeId × NodeRecord))
    (nodes : Renaming NodeId) (report : LoadReport) : LoadReport × Session B σ :=
  let load := s.graph.mergeLinks nodes snapshot.links
  let s := s.edit fun _ =>
    { load.graph with nextLink := max load.graph.nextLink snapshot.nextLink }
  let (lost, s) := placed.foldl (fun (lost, s) (id, r) =>
    let (l, s) := s.adopt load.table id r
    (lost || l, s)) (false, s)
  let repair := s.graph.repair (report.prunedLinks ++ load.pruned)
  let s := s.edit fun _ => repair.graph
  let s := placed.foldl (fun s e => s.introduce e.1 e.2) s
  let s := (s.edit fun g => { g with
    groups := snapshot.groups, nextNode := max g.nextNode snapshot.nextNode }).markStale.endBatch
  let report := { report with
    hadErrors := report.hadErrors || !load.pruned.isEmpty || lost || repair.repaired
    prunedLinks := repair.pruned }
  (report, s.restructure id)

end Session

namespace Graph

variable {B : Type} [Kind B]

/-! ## Recording a graph -/

/-- The snapshot with nodes in a given order. -/
def snapshotOf (g : Graph B) (order : List NodeId) : Snapshot :=
  { nextNode := g.nextNode, nextLink := g.nextLink
    nodes := (order.filterMap g.nodes.get?).map Node.record
    links := g.links.values.map LinkRecord.ofLink, groups := g.groups, config := g.config }

/-- The snapshot with nodes in storage order. -/
def snapshot (g : Graph B) : Snapshot := g.snapshotOf g.nodes.keys

/-- The snapshot with nodes in order of execution. -/
def snapshotInOrder (g : Graph B) : Snapshot :=
  g.snapshotOf (if g.stale then g.computeOrder else g.order)

end Graph

end Dataflow
