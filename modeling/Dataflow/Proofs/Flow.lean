/-
  What the order of execution depends on.

  A sweep asks three things of a graph: how many links each node awaits, which links leave it,
  and where each link leads.  They make up the `flow` of a graph.  Two graphs with the same flow
  and the same priorities have the same order of execution (`computeOrder_of_flow`).

  The `timing` of a graph adds the cache and what is remembered of it in the nodes.  It is less
  than the skeleton: a new slot changes the skeleton of a graph but not its timing.
-/

import Dataflow.Proofs.Sweep

namespace Dataflow

variable {B : Type}

/-! ## Flow and timing -/

/-- The links that a node awaits, and those that leave it. -/
structure Course where
  awaits : Nat
  leaving : List LinkId

/-- What a sweep asks of a graph. -/
structure Flow where
  nodes : Assoc NodeId Course
  targets : Assoc LinkId NodeId

/-- What the cached order is judged by. -/
structure Timing where
  flow : Flow
  ranks : Assoc NodeId Rank
  order : List NodeId
  executable : List NodeId
  stale : Bool
  batchDepth : Nat

def Node.course (n : Node B) : Course := ⟨Sweep.awaited n, n.outputs.flatMap Output.links⟩

/-- The course of a node as seen in its pins. -/
def Pins.course (p : Pins) : Course := ⟨p.inputs.countP Option.isSome, p.outputs.flatten⟩

theorem Node.course_pins (n : Node B) : n.pins.course = n.course := by
  have hi : (n.inputs.map Input.link).countP Option.isSome = n.inputs.countP Input.isConnected := by
    rw [List.countP_map]
    rfl
  show (⟨_, (n.outputs.map Output.links).flatten⟩ : Course) = ⟨_, _⟩
  rw [← List.flatMap_def]
  exact congrArg (Course.mk · _) hi

namespace Graph

def flow (g : Graph B) : Flow :=
  ⟨g.nodes.mapValues fun _ n => n.course, g.links.mapValues fun _ l => l.target⟩

def ranks (g : Graph B) : Assoc NodeId Rank := g.nodes.mapValues fun _ n => n.rank

def timing (g : Graph B) : Timing :=
  ⟨g.flow, g.ranks, g.order, g.executable, g.stale, g.batchDepth⟩

/-- The flow of a graph as seen in its wiring. -/
theorem flow_eq_wiring (g : Graph B) : g.flow =
    ⟨g.wiring.nodes.mapValues fun _ p => p.course, g.wiring.links.mapValues fun _ e => e.target⟩ := by
  unfold flow wiring
  simp only [Assoc.mapValues_mapValues, Node.course_pins]
  rfl

variable {g g' : Graph B}

theorem flow_of_wiring (h : g'.wiring = g.wiring) : g'.flow = g.flow := by
  rw [flow_eq_wiring, flow_eq_wiring, h]

theorem timing_of_skeleton (h : g'.skeleton = g.skeleton) : g'.timing = g.timing := by
  have hf := flow_of_wiring (wiring_of_skeleton h)
  have hr : g'.ranks = g.ranks := congrArg Skeleton.ranks h
  unfold timing
  rw [hf, hr, show g'.order = g.order from congrArg Skeleton.order h,
    show g'.executable = g.executable from congrArg Skeleton.executable h,
    show g'.stale = g.stale from congrArg Skeleton.stale h,
    show g'.batchDepth = g.batchDepth from congrArg Skeleton.batchDepth h]

theorem timing_modifyNode (g : Graph B) (id : NodeId) {f : Node B → Node B}
    (hc : ∀ n, (f n).course = n.course) (hr : ∀ n, (f n).rank = n.rank) :
    (g.modifyNode id f).timing = g.timing := by
  have hn : (g.nodes.modify id f).mapValues (fun _ n => n.course) =
      g.nodes.mapValues fun _ n => n.course := Assoc.mapValues_modify fun n _ => hc n
  have hk : (g.nodes.modify id f).mapValues (fun _ n => n.rank) =
      g.nodes.mapValues fun _ n => n.rank := Assoc.mapValues_modify fun n _ => hr n
  -- the two projections are all that the timing sees of nodes
  unfold timing flow ranks
  rw [← hn, ← hk]
  rfl

/-! ## A sweep sees the flow only -/

section Congruence

variable {C : Type} {g : Graph B} {g' : Graph C} (h : g'.flow = g.flow)
include h

theorem keys_of_flow : g'.nodes.keys = g.nodes.keys := by
  have hk := congrArg (fun f : Flow => f.nodes.keys) h
  simpa [flow] using hk

theorem contains_of_flow (id : NodeId) : g'.nodes.contains id = g.nodes.contains id := by
  rw [Bool.eq_iff_iff, Assoc.contains_iff, Assoc.contains_iff, keys_of_flow h]

theorem target_of_flow (k : LinkId) :
    (g'.links.get? k).map Link.target = (g.links.get? k).map Link.target := by
  have hk := congrArg (fun f : Flow => f.targets.get? k) h
  simpa [flow] using hk

theorem linksLeaving_of_flow (id : NodeId) :
    Sweep.linksLeaving g' id = Sweep.linksLeaving g id := by
  have hl : ∀ {D : Type} (g : Graph D), Sweep.linksLeaving g id =
      ((g.flow.nodes.get? id).map Course.leaving).getD [] := by
    intro D g
    unfold Sweep.linksLeaving
    rw [show g.flow.nodes.get? id = (g.nodes.get? id).map Node.course from Assoc.get?_mapValues ..]
    cases g.nodes.get? id with
    | none => rfl
    | some n => rfl
  rw [hl, hl, h]

theorem follow_of_flow (level : Nat) (s : Sweep) (k : LinkId) :
    s.follow g' level k = s.follow g level k := by
  have ht := target_of_flow h k
  unfold Sweep.follow
  cases hl : g.links.get? k with
  | none =>
    rw [hl] at ht
    rw [Option.map_eq_none_iff.1 ht]
  | some l =>
    rw [hl] at ht
    obtain ⟨l', hl', he⟩ := Option.map_eq_some_iff.1 ht
    simp only [hl', he, contains_of_flow h]

theorem place_of_flow (s : Sweep) (id : NodeId) (rest : List NodeId) :
    s.place g' id rest = s.place g id rest := by
  unfold Sweep.place
  rw [linksLeaving_of_flow h, show Sweep.follow g' = Sweep.follow g from
    funext fun level => funext fun s => funext fun k => follow_of_flow h level s k]

theorem start_of_flow : Sweep.start g' = Sweep.start g := by
  have hs : ∀ {D : Type} (g : Graph D), (g.nodes.mapValues fun _ n => Sweep.awaited n) =
      g.flow.nodes.mapValues fun _ c => c.awaits := by
    intro D g
    unfold flow
    simp only [Assoc.mapValues_mapValues]
    rfl
  unfold Sweep.start
  rw [hs, hs, h]

theorem run_of_flow (s : Sweep) : s.run g' = s.run g := by
  induction s using Sweep.run.induct g with
  | case1 s hr => rw [Sweep.run_of_nil hr, Sweep.run_of_nil hr]
  | case2 s id rest hr ih => rw [Sweep.run_of_cons hr, Sweep.run_of_cons hr, place_of_flow h, ih]

theorem computeOrder_of_flow (hp : ∀ id, g'.priority id = g.priority id) :
    g'.computeOrder = g.computeOrder := by
  unfold computeOrder unplaced
  rw [start_of_flow h, run_of_flow h, keys_of_flow h]
  simp only [hp]

end Congruence

/-! ## Ranks -/

theorem rank_eq (g : Graph B) (id : NodeId) : g.ranks.get? id = (g.nodes.get? id).map Node.rank :=
  Assoc.get?_mapValues ..

theorem priority_eq (g : Graph B) (id : NodeId) :
    g.priority id = ((g.ranks.get? id).map Rank.priority).getD 0 := by
  rw [rank_eq, Option.map_map]
  rfl

theorem hasBody_eq (g : Graph B) (id : NodeId) :
    g.hasBody id = (g.ranks.get? id).any Rank.canExecute := by
  rw [rank_eq]
  unfold hasBody
  cases g.nodes.get? id with
  | none => rfl
  | some n => rfl

end Graph

end Dataflow
