/-
  What links and the order of execution depend on.

  The `wiring` of a graph is the part in which its links are known: which link each slot names,
  which slots each link joins, the identities, the counters that give new ones, and the types
  that new nodes are made of.  Its `skeleton` adds what the cached order depends on: priorities,
  which nodes have a body, and the cache itself.  Titles, places, properties, values, behaviours
  and terminals are in neither.

  Most operations change nothing but such things.  For each of them this file says that the
  skeleton stays the same (`skeleton_…`), so that a property of the skeleton never has to be
  proved again for them.
-/

import Dataflow.Proofs.Assoc
import Dataflow.Edit

namespace Dataflow

variable {B σ : Type}

/-! ## Parts of nodes and links -/

/-- What of a node takes part in links: its identity and the links named in its slots. -/
structure Pins where
  id : Option NodeId
  inputs : List (Option LinkId)
  outputs : List (List LinkId)

/-- What of a node takes part in the order of execution, its links aside. -/
structure Rank where
  priority : Int
  canExecute : Bool
  order : Nat

/-- The identity of a link and the slots it joins. -/
structure Ends where
  id : LinkId
  origin : NodeId
  originSlot : Nat
  target : NodeId
  targetSlot : Nat

def Node.pins (n : Node B) : Pins := ⟨n.id, n.inputs.map Input.link, n.outputs.map Output.links⟩

def Node.rank (n : Node B) : Rank := ⟨n.priority, n.canExecute, n.order⟩

def Link.ends (l : Link) : Ends := ⟨l.id, l.origin, l.originSlot, l.target, l.targetSlot⟩

/-! ## Parts of graphs -/

/-- The part of a graph in which its links are known. -/
structure Wiring (B : Type) where
  registry : Registry B
  nodes : Assoc NodeId Pins
  links : Assoc LinkId Ends
  nextNode : Nat
  nextLink : Nat

/-- The part of a graph that its links and its cached order depend on. -/
structure Skeleton (B : Type) where
  wiring : Wiring B
  ranks : Assoc NodeId Rank
  order : List NodeId
  executable : List NodeId
  stale : Bool
  batchDepth : Nat

namespace Graph

def wiring (g : Graph B) : Wiring B :=
  ⟨g.registry, g.nodes.mapValues fun _ n => n.pins, g.links.mapValues fun _ l => l.ends, g.nextNode,
    g.nextLink⟩

def skeleton (g : Graph B) : Skeleton B :=
  ⟨g.wiring, g.nodes.mapValues fun _ n => n.rank, g.order, g.executable, g.stale, g.batchDepth⟩

theorem wiring_of_skeleton {g g' : Graph B} (h : g'.skeleton = g.skeleton) :
    g'.wiring = g.wiring := congrArg Skeleton.wiring h

theorem registry_of_wiring {g g' : Graph B} (h : g'.wiring = g.wiring) :
    g'.registry = g.registry := congrArg Wiring.registry h

/-! ## Changes of one node or link -/

theorem wiring_modifyNode {g : Graph B} {id : NodeId} {f : Node B → Node B}
    (hp : ∀ n, g.nodes.get? id = some n → (f n).pins = n.pins) :
    (g.modifyNode id f).wiring = g.wiring := by
  have hn : (g.nodes.modify id f).mapValues (fun _ n => n.pins) = g.nodes.mapValues fun _ n => n.pins :=
    Assoc.mapValues_modify hp
  show (⟨_, _, _, _, _⟩ : Wiring B) = ⟨_, _, _, _, _⟩
  rw [← hn]
  rfl

theorem skeleton_modifyNode {g : Graph B} {id : NodeId} {f : Node B → Node B}
    (hp : ∀ n, g.nodes.get? id = some n → (f n).pins = n.pins)
    (hr : ∀ n, g.nodes.get? id = some n → (f n).rank = n.rank) :
    (g.modifyNode id f).skeleton = g.skeleton := by
  have hn : (g.nodes.modify id f).mapValues (fun _ n => n.rank) = g.nodes.mapValues fun _ n => n.rank :=
    Assoc.mapValues_modify hr
  show (⟨_, _, _, _, _, _⟩ : Skeleton B) = ⟨_, _, _, _, _, _⟩
  rw [← wiring_modifyNode hp, ← hn]
  rfl

theorem skeleton_modifyLink {g : Graph B} {id : LinkId} {f : Link → Link}
    (h : ∀ l, (f l).ends = l.ends) : (g.modifyLink id f).skeleton = g.skeleton := by
  have hl : (g.links.modify id f).mapValues (fun _ l => l.ends) = g.links.mapValues fun _ l => l.ends :=
    Assoc.mapValues_modify fun l _ => h l
  show (⟨⟨_, _, (g.links.modify id f).mapValues _, _, _⟩, _, _, _, _, _⟩ : Skeleton B) = _
  rw [hl]
  rfl

theorem skeleton_modifyLinks {f : Link → Link} (h : ∀ l, (f l).ends = l.ends) (ids : List LinkId)
    (g : Graph B) : (g.modifyLinks ids f).skeleton = g.skeleton := by
  induction ids generalizing g with
  | nil => rfl
  | cons id ids ih => exact (ih _).trans (skeleton_modifyLink h)

/-- Changes of links are changes of nothing else. -/
theorem modifyLinks_eq (f : Link → Link) (ids : List LinkId) (g : Graph B) :
    g.modifyLinks ids f = { g with links := (g.modifyLinks ids f).links } := by
  induction ids generalizing g with
  | nil => rfl
  | cons id ids ih => exact ih (g.modifyLink id f)

theorem nodes_modifyLinks (f : Link → Link) (ids : List LinkId) (g : Graph B) :
    (g.modifyLinks ids f).nodes = g.nodes := by
  rw [modifyLinks_eq]

section Layout

variable {P : Graph B → Prop}
  (hmove : ∀ (g : Graph B) (id : NodeId) (p : Point), P g → P (g.modifyNode id fun n => { n with pos := p }))
include hmove

/-- What moving one node keeps is kept when nodes are put below one another. -/
theorem stack_keeps (margin x : Float32) (ids : List NodeId) {g : Graph B} (hg : P g)
    (y widest : Float32) : P (stack margin x g ids y widest).1 := by
  induction ids generalizing g y widest with
  | nil => exact hg
  | cons id ids ih =>
    unfold stack
    split
    · exact ih (hmove g id _ hg) _ _
    · exact ih hg y widest

/-- What moving one node keeps is kept when all nodes are laid out in columns. -/
theorem arrange_keeps {g : Graph B} (hg : P g) (margin : Float32) : P (g.arrange margin) := by
  have hspread : ∀ (columns : List (List NodeId)) (g : Graph B) (x : Float32), P g →
      P (spread margin g columns x) := by
    intro columns
    induction columns with
    | nil => exact fun _ _ h => h
    | cons column columns ih =>
      exact fun g x h => ih _ _ (stack_keeps hmove margin x column h margin 100.0)
  exact hspread g.columns g margin hg

end Layout

/-- What noting places and renewing the cache keep is kept when the order is brought up to date. -/
theorem updateOrder_keeps {P : Graph B → Prop}
    (hplace : ∀ (g : Graph B) (id : NodeId) (k : Nat), P g →
      P (g.modifyNode id fun n => { n with order := k }))
    (hcache : ∀ (g : Graph B) (order executable : List NodeId), P g →
      P { g with order, executable, stale := false })
    {g : Graph B} (hg : P g) : P g.updateOrder := by
  refine hcache _ g.computeOrder _ ?_
  exact List.foldlRecOn g.computeOrder.zipIdx _ hg fun g h e _ => hplace g e.1 e.2 h

/-- What taking in one link keeps is kept when the links of a snapshot are taken in. -/
theorem mergeLinks_keeps {P : Graph B → Prop}
    (hinsert : ∀ (g : Graph B) (r : LinkRecord) (id : LinkId) (origin target : NodeId) (next : Nat),
      P g → P { g with
        links := g.links.insert id { r.toLink with id, origin, target }, nextLink := next })
    {g : Graph B} (hg : P g) (nodes : Renaming NodeId) (records : List LinkRecord) :
    P (g.mergeLinks nodes records).graph := by
  refine List.foldlRecOn (motive := fun load : LinkLoad B => P load.graph) records
    (LinkLoad.add nodes) hg fun load h r _ => ?_
  unfold LinkLoad.add
  split
  · exact hinsert load.graph r _ _ _ _ h
  · exact h

section Repair

variable {P : Graph B → Prop}
  (henter : ∀ (g : Graph B) (k : LinkId) (l : Link), P g → P (g.enter k l))
  (herase : ∀ (g : Graph B) (k : LinkId), P g → P { g with links := g.links.erase k })
include henter herase

/-- What entering and dropping one link keep is kept when links are settled. -/
theorem settles_keep (ks : List LinkId) {r : Repair B} (h : P r.graph) :
    P (ks.foldl settle r).graph := by
  refine List.foldlRecOn (motive := fun r : Repair B => P r.graph) ks settle h fun r h k _ => ?_
  unfold settle
  split
  · exact h
  · split
    · exact henter r.graph k _ h
    · exact herase r.graph k h

theorem repaired_keeps
    (hrelink : ∀ (g : Graph B) (f : NodeId → Direction → Nat → LinkId → Option LinkId), P g →
      P (g.relinkAll f))
    {g : Graph B} (h : P g) (pruned : List LinkId) : P (g.repair pruned).graph := by
  have hsettled := settles_keep henter herase g.links.keys (r := ⟨g, pruned, false⟩) h
  exact hrelink _ _ (hrelink _ _ hsettled)

end Repair

@[simp] theorem skeleton_withTerminals (g : Graph B) (d : Direction) (ts : Assoc String Terminal) :
    (g.withTerminals d ts).skeleton = g.skeleton := by
  cases d <;> rfl

end Graph

/-! ## Changes of a node that its pins and its rank do not show -/

/-- A change of one element does not show in what stays. -/
theorem map_modify {α β : Type} {p : α → β} {f : α → α} (h : ∀ a, p (f a) = p a) (as : List α)
    (i : Nat) : (as.modify i f).map p = as.map p := by
  apply List.ext_getElem?
  intro j
  rw [List.getElem?_map, List.getElem?_map, List.getElem?_modify]
  cases as[j]? with
  | none => rfl
  | some a =>
    show some (p (ite _ (f a) a)) = some (p a)
    split
    · rw [h]
    · rfl

namespace Node

theorem pins_modifyInput {n : Node B} {slot : Nat} {f : Input → Input}
    (h : ∀ s, (f s).link = s.link) : (n.modifyInput slot f).pins = n.pins := by
  show (⟨_, (n.inputs.modify slot f).map _, _⟩ : Pins) = _
  rw [map_modify h]
  rfl

theorem pins_modifyOutput {n : Node B} {slot : Nat} {f : Output → Output}
    (h : ∀ s, (f s).links = s.links) : (n.modifyOutput slot f).pins = n.pins := by
  show (⟨_, _, (n.outputs.modify slot f).map _⟩ : Pins) = _
  rw [map_modify h]
  rfl

theorem tell_eq [Kind B] (n : Node B) (notice : Notice) :
    ∃ b, (n.tell notice).1 = { n with behavior := b } := by
  unfold tell
  split
  · exact ⟨_, rfl⟩
  · exact ⟨n.behavior, rfl⟩

theorem alignToGrid_eq (n : Node B) (grid : Float32) :
    ∃ p, n.alignToGrid grid = { n with pos := p } := by
  unfold alignToGrid
  split
  · exact ⟨n.pos, rfl⟩
  · exact ⟨_, rfl⟩

end Node

theorem NodeChange.pins_apply (c : NodeChange) (n : Node B) : (c.apply n).pins = n.pins := by
  cases c <;> rfl

theorem NodeChange.rank_apply {c : NodeChange} (h : c.reorders = false) (n : Node B) :
    (c.apply n).rank = n.rank := by
  cases c with
  | prioritized p => cases h
  | _ => rfl

end Dataflow
