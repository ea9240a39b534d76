/-
  Sessions that operations lead to.

  A session is reachable when it starts with an empty graph and only the operations of the engine
  have changed the graph since.  Every call counts as one operation, with all that the bodies it
  runs do in the middle of it; the bodies are not restricted in any way.

  At the end of each operation the cached order can be trusted.  Adding a node and loading need
  no assumption about what bodies did meanwhile, for both end by flagging the cache and bringing
  it up to date; every other call keeps the trust by the laws of steady properties.
-/

import Dataflow.Catalog
import Dataflow.Proofs.Cache
import Dataflow.Proofs.Run

namespace Dataflow

variable {B σ α : Type}

/-! ## Every call keeps the trust -/

theorem steady_trusted : Steady (Graph.Trusted (B := B)) where
  frame _ _ h _ hg := hg.of_skeleton h
  update g _ := g.trusted_updateOrder

/-- Bodies may make every call, and rely on nothing. -/
def trusting (B : Type) : Contract B := ⟨Graph.Trusted, fun _ => True, fun _ _ => True⟩

theorem Body.obeys_trusting (p : Body B σ α) : p.Obeys (trusting B) := by
  induction p with
  | done a => trivial
  | look next ih => exact fun g h _ => ih g h
  | keep change next ih => exact ih
  | note remark next ih => exact ih
  | call c next ih => exact ⟨trivial, fun a _ => ih a⟩

namespace Engine

variable [Behavior B σ] {run : Runner B σ}

theorem trusted_insertNode (n : Node B) {s : Session B σ} (hs : s.graph.Trusted) :
    Ensures (insertNode run n true) s fun _ s' => s'.graph.Trusted := by
  refine ensures_insertNode (fun _ _ => hs) fun _ => ?_
  -- nothing is known about the graph when the body of the new node has run
  intro ending t _ u hu
  rw [hu]
  exact Session.trusted_invalidate t

theorem trusted_load (snapshot : Snapshot) (keepOld : Bool) (s : Session B σ) :
    Ensures (load run snapshot keepOld) s fun _ s' => s'.graph.Trusted := by
  apply Ensures.modify_bind
  apply Ensures.bind
  intro p s' _
  exact Ensures.total (Session.trusted_settleLoad s' snapshot p.placed p.nodes p.report)

theorem lawful_trusting : Lawful (σ := σ) (trusting B) := by
  intro run hrun c _ s hs
  have hI := steady_trusted (B := B)
  cases c with
  | edit e =>
    apply Ensures.total
    exact ⟨trivial, Edit.trusted_apply hs e⟩
  | add n => exact (trusted_insertNode n hs).mono fun _ _ h => ⟨trivial, h⟩
  | load snapshot keepOld => exact (trusted_load snapshot keepOld s).mono fun _ _ h => ⟨trivial, h⟩
  | _ => exact (keeps_perform hI hrun (by trivial) s hs).mono fun _ _ h => ⟨trivial, h⟩

end Engine

/-! ## Reachable sessions -/

/-- A session that operations lead to from an empty graph.  The host may do as it likes with what
it keeps and with the events. -/
inductive Reachable [Behavior B σ] : Session B σ → Prop where
  | start (registry : Registry B) (settings : Settings) (events : List (Event B)) (host : σ) :
    Reachable ⟨Graph.empty registry settings, events, host⟩
  | call {s s' : Session B σ} {c : Call B} {a : c.Answer} (depth : Nat) (hs : Reachable s)
    (hr : Engine.perform (Engine.runner depth) c s = some (a, s')) : Reachable s'
  | aside {s : Session B σ} (events : List (Event B)) (host : σ) (hs : Reachable s) :
    Reachable { s with events, host }

/-- What a program makes of a reachable session is reachable: its calls are operations, and the
rest of it touches the host and the events only. -/
theorem Reachable.exec [Behavior B σ] {depth : Nat} (p : Body B σ α) {s s' : Session B σ} {a : α}
    (hs : Reachable s) (hr : Engine.exec depth p s = some (a, s')) : Reachable s' := by
  induction p generalizing s with
  | done a =>
    cases hr
    exact hs
  | look next ih => exact ih s.graph s.host hs hr
  | keep change next ih => exact ih (hs.aside s.events (change s.host)) hr
  | note remark next ih => exact ih (hs.aside (.note remark :: s.events) s.host) hr
  | call c next ih =>
    obtain ⟨⟨answer, t⟩, hc, hn⟩ := Option.bind_eq_some_iff.1 hr
    exact ih answer (hs.call depth hc) hn

theorem Reachable.trusted [Behavior B σ] {s : Session B σ} (h : Reachable s) : s.graph.Trusted := by
  induction h with
  | start registry settings events host => exact Graph.trusted_of_empty rfl rfl rfl rfl
  | call depth _ hr ih =>
    have hc := Engine.honoured_runner (Engine.lawful_trusting (B := B))
      (fun b id task => Body.obeys_trusting (Behavior.body b id task)) depth
    exact (hc _ trivial _ ih _ _ hr).2
  | aside events host _ ih => exact ih

/-- A snapshot of existing nodes has their records one for one. -/
theorem Graph.records_of_order [Kind B] (g : Graph B) {order : List NodeId}
    (h : ∀ id ∈ order, id ∈ g.nodes.keys) :
    List.Forall₂ (fun id r => ∃ n, g.nodes.get? id = some n ∧ r = n.record) order
      (g.snapshotOf order).nodes := by
  show List.Forall₂ _ order ((order.filterMap g.nodes.get?).map Node.record)
  induction order with
  | nil => exact .nil
  | cons id order ih =>
    obtain ⟨n, hn⟩ := Assoc.mem_keys_iff.1 (h id (List.mem_cons_self ..))
    rw [List.filterMap_cons_some hn, List.map_cons]
    exact .cons ⟨n, hn, rfl⟩ (ih fun i hi => h i (List.mem_cons_of_mem id hi))

/-- A snapshot in order is taken in the order of execution. -/
theorem Graph.Trusted.snapshotInOrder [Kind B] {g : Graph B} (h : g.Trusted) :
    g.snapshotInOrder = g.snapshotOf g.computeOrder := by
  unfold Graph.snapshotInOrder
  cases hs : g.stale with
  | true => rfl
  | false => rw [if_neg Bool.false_ne_true, (h.current hs).order]

/-- Between operations the cached order, the list of executable nodes and the places noted in the
nodes are right unless flagged, and flagged only while a batch is open.  So a snapshot in order
lists every node once, in the order of execution. -/
theorem Reachable.cache_right [Behavior B σ] {s : Session B σ} (h : Reachable s) :
    (s.graph.stale = false →
        s.graph.order = s.graph.computeOrder ∧
          s.graph.executable = s.graph.computeOrder.filter s.graph.hasBody ∧
          ∀ id n, s.graph.nodes.get? id = some n → s.graph.order[n.order]? = some id) ∧
      (s.graph.batchDepth = 0 → s.graph.stale = false) ∧
      (s.graph.computeOrder.Nodup ∧ s.graph.computeOrder.Perm s.graph.nodes.keys) ∧
      List.Forall₂ (fun id r => ∃ n, s.graph.nodes.get? id = some n ∧ r = n.record)
        s.graph.computeOrder s.graph.snapshotInOrder.nodes := by
  have ht := h.trusted
  have hperm := s.graph.computeOrder_perm
  refine ⟨fun hs => ?_, ht.settled, ⟨s.graph.nodup_computeOrder, hperm⟩, ?_⟩
  · obtain ⟨ho, he, hp⟩ := ht.current hs
    exact ⟨ho, he, hp⟩
  · rw [ht.snapshotInOrder]
    exact s.graph.records_of_order fun id hid => hperm.mem_iff.1 hid

/-- A node added outside batches takes its place at once. -/
theorem added_cache_right : ∃ s', Engine.perform (Engine.runner 1) (.add (Node.new "source"))
      (⟨Graph.empty ∅ .default, [], ()⟩ : Session Catalog Unit) = some (.ok ⟨1⟩, s') ∧
    s'.graph.stale = false ∧ s'.graph.order = s'.graph.computeOrder := by
  have hs : Reachable (⟨Graph.empty ∅ .default, [], ()⟩ : Session Catalog Unit) := .start ..
  obtain ⟨s', hr, hf⟩ : ∃ s', Engine.perform (Engine.runner 1) (.add (Node.new "source"))
      (⟨Graph.empty ∅ .default, [], ()⟩ : Session Catalog Unit) = some (.ok ⟨1⟩, s') ∧
    s'.graph.stale = false := ⟨_, rfl, rfl⟩
  exact ⟨s', hr, hf, ((hs.call 1 hr).cache_right.1 hf).1⟩

end Dataflow
