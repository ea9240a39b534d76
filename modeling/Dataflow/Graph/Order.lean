/-
  The order of execution.

  A sweep places nodes one by one.  At the start those are ready whose inputs are all free; each
  other node waits for as many links as feed it.  Placing a node follows its links: every link
  counts once, raises the level of its target above the level of its origin, and releases the
  target when it was the last link awaited.  Nodes on a cycle or behind one are never released.
  They come last, in storage order, at level zero.  The order of execution is the result sorted
  by priority, where nodes of equal priority stay as they were placed.

  A sweep ends because every node is placed at most once: following a link never adds to the
  number of nodes that are ready or waiting (`follow_size`).
-/

import Dataflow.Graph.Basic

namespace Dataflow

/-! ## The sweep -/

/-- The state of a sweep. -/
structure Sweep where
  /-- How many links each unreleased node still waits for. -/
  waiting : Assoc NodeId Nat
  /-- The levels known so far. -/
  levels : Assoc NodeId Nat
  /-- The nodes to place next, first come first served. -/
  ready : List NodeId
  /-- The links already followed. -/
  followed : List LinkId
  /-- The nodes placed, in order. -/
  placed : List NodeId

namespace Sweep

/-- The number of nodes still to be placed, if all goes well. -/
def size (s : Sweep) : Nat := s.ready.length + s.waiting.size

/-- Raises the level of a node. -/
def raise (s : Sweep) (id : NodeId) (level : Nat) : Sweep :=
  { s with levels := s.levels.insert id (max ((s.levels.get? id).getD 0) level) }

/-- One of the links that a node waits for has been followed. -/
def arrive (s : Sweep) (id : NodeId) : Sweep :=
  match s.waiting.get? id with
  | none => s
  | some n =>
    if n ≤ 1 then { s with waiting := s.waiting.erase id, ready := s.ready ++ [id] }
    else { s with waiting := s.waiting.insert id (n - 1) }

variable {B : Type}

/-- Follows a link that leaves a node of some level, unless that was done before. -/
def follow (g : Graph B) (level : Nat) (s : Sweep) (l : LinkId) : Sweep :=
  if l ∈ s.followed then s
  else
    let s := { s with followed := l :: s.followed }
    match g.links.get? l with
    | none => s
    | some link =>
      if g.nodes.contains link.target then (s.raise link.target (level + 1)).arrive link.target
      else s

/-- The links that leave a node, slot by slot. -/
def linksLeaving (g : Graph B) (id : NodeId) : List LinkId :=
  match g.nodes.get? id with
  | some n => n.outputs.flatMap Output.links
  | none => []

/-- Places a node, after which `rest` is ready, and follows its links. -/
def place (g : Graph B) (s : Sweep) (id : NodeId) (rest : List NodeId) : Sweep :=
  let level := (s.levels.get? id).getD 1
  (linksLeaving g id).foldl (follow g level) { s with ready := rest, placed := s.placed ++ [id] }

/-! ## Why it ends -/

theorem raise_size (s : Sweep) (id : NodeId) (level : Nat) : (s.raise id level).size = s.size := rfl

theorem arrive_size (s : Sweep) (id : NodeId) : (s.arrive id).size ≤ s.size := by
  unfold arrive
  split
  · exact Nat.le_refl _
  · next n h =>
    have hk := Assoc.mem_keys_of_get? h
    split
    · have := s.waiting.size_erase_of_mem hk
      simp only [size, List.length_append, List.length_cons, List.length_nil]
      omega
    · simp only [size, s.waiting.size_insert_of_mem hk]
      exact Nat.le_refl _

theorem follow_size (g : Graph B) (level : Nat) (s : Sweep) (l : LinkId) :
    (s.follow g level l).size ≤ s.size := by
  unfold follow
  split
  · exact Nat.le_refl _
  · simp only
    split
    · exact Nat.le_refl _
    · split
      · exact Nat.le_trans (arrive_size _ _) (Nat.le_of_eq (raise_size _ _ _))
      · exact Nat.le_refl _

theorem follows_size (g : Graph B) (level : Nat) (ls : List LinkId) (s : Sweep) :
    (ls.foldl (follow g level) s).size ≤ s.size := by
  induction ls generalizing s with
  | nil => exact Nat.le_refl _
  | cons l ls ih => exact Nat.le_trans (ih _) (follow_size g level s l)

theorem place_size (g : Graph B) (s : Sweep) (id : NodeId) (rest : List NodeId)
    (h : s.ready = id :: rest) : (s.place g id rest).size < s.size := by
  refine Nat.lt_of_le_of_lt (follows_size g _ _ _) ?_
  simp only [size, h, List.length_cons]
  omega

/-- Places nodes until none is ready. -/
def run (g : Graph B) (s : Sweep) : Sweep :=
  match _h : s.ready with
  | [] => s
  | id :: rest => run g (s.place g id rest)
termination_by s.size
decreasing_by exact place_size g s id rest _h

/-- How many links feed a node. -/
def awaited (n : Node B) : Nat := n.inputs.countP Input.isConnected

/-- The sweep before the first node is placed. -/
def start (g : Graph B) : Sweep :=
  let awaits := g.nodes.mapValues fun _ n => awaited n
  let free := awaits.filter fun _ k => k = 0
  { waiting := awaits.filter fun _ k => k ≠ 0, levels := free.mapValues fun _ _ => 1
    ready := free.keys, followed := [], placed := [] }

end Sweep

namespace Graph

variable {B : Type}

/-! ## Order and levels -/

/-- The nodes that a sweep of the graph leaves out. -/
def unplaced (g : Graph B) (s : Sweep) : List NodeId := g.nodes.keys.filter (· ∉ s.placed)

/-- The priority of a node. -/
def priority (g : Graph B) (id : NodeId) : Int := ((g.nodes.get? id).map Node.priority).getD 0

/-- The order of execution as the graph is now. -/
def computeOrder (g : Graph B) : List NodeId :=
  let s := (Sweep.start g).run g
  (s.placed ++ g.unplaced s).mergeSort fun a b => g.priority a ≤ g.priority b

/-- The level of a node after a sweep; zero for a node left out. -/
def levelAfter (s : Sweep) (id : NodeId) : Nat :=
  if id ∈ s.placed then (s.levels.get? id).getD 0 else 0

/-- The level of every node, in storage order. -/
def levels (g : Graph B) : List (NodeId × Nat) :=
  let s := (Sweep.start g).run g
  g.nodes.keys.map fun id => (id, levelAfter s id)

/-- Numbers the nodes of an order. -/
def number (g : Graph B) (order : List NodeId) : Graph B :=
  order.zipIdx.foldl (fun g e => g.modifyNode e.1 fun n => { n with order := e.2 }) g

/-- Whether a node has a body. -/
def hasBody (g : Graph B) (id : NodeId) : Bool := (g.nodes.get? id).any Node.canExecute

/-- The graph with its order brought up to date. -/
def updateOrder (g : Graph B) : Graph B :=
  let order := g.computeOrder
  { g.number order with order, executable := order.filter g.hasBody, stale := false }

/-! ## Columns -/

/-- Puts nodes below one another, and says how wide the widest is. -/
def stack (margin x : Float32) : Graph B → List NodeId → Float32 → Float32 → Graph B × Float32
  | g, [], _, widest => (g, widest)
  | g, id :: ids, y, widest =>
    match g.nodes.get? id with
    | some n =>
      stack margin x (g.modifyNode id fun n => { n with pos := ⟨x, y⟩ }) ids
        (y + (n.size.height + margin)) (Numeric.larger widest n.size.width)
    | none => stack margin x g ids y widest

/-- Puts columns next to one another. -/
def spread (margin : Float32) : Graph B → List (List NodeId) → Float32 → Graph B
  | g, [], _ => g
  | g, column :: columns, x =>
    let (g, widest) := stack margin x g column margin 100.0
    spread margin g columns (x + (widest + margin))

/-- The nodes by level, lowest first; level zero shares the column of level one. -/
def columns (g : Graph B) : List (List NodeId) :=
  let s := (Sweep.start g).run g
  let column (id : NodeId) : Nat := max (levelAfter s id) 1
  let order := g.computeOrder
  ((order.map column).eraseDups.mergeSort fun a b => a ≤ b).map fun k =>
    order.filter fun id => column id = k

/-- Lays the nodes out in columns by level. -/
def arrange (g : Graph B) (margin : Float32) : Graph B := spread margin g g.columns margin

end Graph

/-! ## Ancestors -/

/-- The state of a search against the direction of links. -/
structure Search where
  /-- The nodes whose inputs are still to be looked at. -/
  pending : List NodeId
  /-- The nodes not reached so far. -/
  unseen : List NodeId
  /-- The nodes reached, in order. -/
  found : List NodeId

namespace Search

variable {B : Type}

/-- The number of nodes that may still be looked at. -/
def size (s : Search) : Nat := s.pending.length + s.unseen.length

/-- Reaches a node, unless that was done before. -/
def visit (s : Search) (id : NodeId) : Search :=
  if id ∈ s.unseen then
    { pending := s.pending ++ [id], unseen := s.unseen.erase id, found := s.found ++ [id] }
  else s

/-- The nodes that feed a node, input by input. -/
def feeders (g : Graph B) (id : NodeId) : List NodeId :=
  match g.nodes.get? id with
  | some n => n.inputs.filterMap fun s => (s.link.bind g.links.get?).map Link.origin
  | none => []

theorem visit_size (s : Search) (id : NodeId) : (s.visit id).size = s.size := by
  unfold visit
  split
  · next h =>
    have := List.length_erase_of_mem h
    have := List.length_pos_of_mem h
    simp only [size, List.length_append, List.length_cons, List.length_nil]
    omega
  · rfl

theorem visits_size (s : Search) (ids : List NodeId) : (ids.foldl visit s).size = s.size := by
  induction ids generalizing s with
  | nil => rfl
  | cons id ids ih => exact (ih _).trans (visit_size s id)

/-- Looks at pending nodes until there are none. -/
def run (g : Graph B) (s : Search) : Search :=
  match _h : s.pending with
  | [] => s
  | id :: rest => run g ((feeders g id).foldl visit { s with pending := rest })
termination_by s.size
decreasing_by
  rw [visits_size]
  simp only [size, _h, List.length_cons]
  omega

end Search

/-- The nodes from which links lead to a node, in the order of execution last computed. -/
def Graph.ancestors {B : Type} (g : Graph B) (id : NodeId) : List NodeId :=
  let s := Search.run g ⟨[id], g.nodes.keys.filter (· ≠ id), []⟩
  let place (id : NodeId) : Nat := ((g.nodes.get? id).map Node.order).getD 0
  s.found.mergeSort fun a b => place a ≤ place b

end Dataflow
