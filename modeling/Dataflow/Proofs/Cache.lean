/-
  The cached order is never silently wrong.

  The cache of a graph is `Current` when it is what bringing it up to date would make it.  It is
  `Trusted` when it is current unless flagged as stale, and not stale unless a batch is open.
  Both depend on the timing of the graph only.

  An operation on a session either keeps the timing, or ends by bringing the cache up to date as
  far as open batches let it (`trusted_invalidate`, `trusted_endBatch`), whatever went on before
  that.  In between the cache may be wrong: a node is added before the order is brought up to
  date, and its body may look at the graph meanwhile.
-/

import Dataflow.Proofs.Editing
import Dataflow.Proofs.Flow
import Dataflow.Proofs.Order

namespace Dataflow

variable {B σ : Type}

namespace Graph

/-! ## Caches -/

/-- The cache says what the order of execution is as the graph is now. -/
structure Current (g : Graph B) : Prop where
  order : g.order = g.computeOrder
  executable : g.executable = g.computeOrder.filter g.hasBody
  places : ∀ id n, g.nodes.get? id = some n → g.order[n.order]? = some id

/-- The cache is current unless it is flagged, and not flagged unless a batch is open. -/
structure Trusted (g : Graph B) : Prop where
  current : g.stale = false → g.Current
  settled : g.batchDepth = 0 → g.stale = false

section Transfer

variable {g g' : Graph B}

theorem Current.transfer (hf : g'.flow = g.flow) (hr : g'.ranks = g.ranks)
    (ho : g'.order = g.order) (he : g'.executable = g.executable) (hg : g.Current) :
    g'.Current := by
  have hc : g'.computeOrder = g.computeOrder := by
    apply computeOrder_of_flow hf
    intro id
    rw [priority_eq, priority_eq, hr]
  have hb : g'.hasBody = g.hasBody := by
    funext id
    rw [hasBody_eq, hasBody_eq, hr]
  constructor
  · rw [ho, hc]
    exact hg.order
  · rw [he, hc, hb]
    exact hg.executable
  · intro id n hn
    have hk := g'.rank_eq id
    rw [hr, rank_eq, hn] at hk
    obtain ⟨m, hm, hrank⟩ := Option.map_eq_some_iff.1 hk
    rw [ho, ← show m.order = n.order from congrArg Rank.order hrank]
    exact hg.places id m hm

theorem Trusted.of_timing (h : g'.timing = g.timing) (hg : g.Trusted) : g'.Trusted := by
  have hs : g'.stale = g.stale := congrArg Timing.stale h
  have hd : g'.batchDepth = g.batchDepth := congrArg Timing.batchDepth h
  constructor
  · intro hfresh
    exact (hg.current (hs ▸ hfresh)).transfer (congrArg Timing.flow h) (congrArg Timing.ranks h)
      (congrArg Timing.order h) (congrArg Timing.executable h)
  · intro hz
    rw [hs]
    exact hg.settled (hd ▸ hz)

theorem Trusted.of_skeleton (h : g'.skeleton = g.skeleton) (hg : g.Trusted) : g'.Trusted :=
  hg.of_timing (timing_of_skeleton h)

end Transfer

/-! ## Numbering -/

/-- What is done to the nodes of an order one after the other, each with its place in the order,
is done to each of them once. -/
theorem get?_foldl_zipIdx (f : Node B → Nat → Node B) (id : NodeId) {order : List NodeId}
    (hn : order.Nodup) (k : Nat) (g : Graph B) :
    ((order.zipIdx k).foldl (fun g e => g.modifyNode e.1 fun n => f n e.2) g).nodes.get? id =
      (g.nodes.get? id).map fun n => if id ∈ order then f n (k + order.idxOf id) else n := by
  induction order generalizing k g with
  | nil => simp
  | cons a order ih =>
    obtain ⟨ha, hn⟩ := List.nodup_cons.1 hn
    rw [List.zipIdx_cons, List.foldl_cons, ih hn, get?_modifyNode]
    by_cases h : id = a
    · subst h
      rw [if_pos rfl, Option.map_map]
      congr 1
      funext n
      simp [ha]
    · rw [if_neg h]
      congr 1
      funext n
      rw [List.idxOf_cons_ne order (Ne.symm h), Nat.succ_eq_add_one, Nat.add_right_comm,
        Nat.add_assoc k]
      simp [h]

theorem get?_number {order : List NodeId} (hn : order.Nodup) (g : Graph B) (id : NodeId) :
    (g.number order).nodes.get? id =
      (g.nodes.get? id).map fun n =>
        if id ∈ order then { n with order := order.idxOf id } else n := by
  have h := get?_foldl_zipIdx (fun n i => { n with order := i }) id hn 0 g
  rw [Nat.zero_add] at h
  exact h

/-- Bringing the cache up to date makes it current. -/
theorem current_updateOrder (g : Graph B) : g.updateOrder.Current := by
  have hnode : ∀ id, g.updateOrder.nodes.get? id = (g.nodes.get? id).map fun n =>
      if id ∈ g.computeOrder then { n with order := g.computeOrder.idxOf id } else n :=
    get?_number g.nodup_computeOrder g
  -- the places noted in the nodes matter neither to the order nor to who has a body
  have hc : g.updateOrder.computeOrder = g.computeOrder := by
    apply computeOrder_of_flow (flow_of_wiring g.wiring_updateOrder)
    intro id
    unfold priority
    rw [hnode, Option.map_map]
    congr 2
    funext n
    show (ite _ _ _ : Node B).priority = _
    split <;> rfl
  have hb : g.updateOrder.hasBody = g.hasBody := by
    funext id
    unfold hasBody
    rw [hnode]
    cases g.nodes.get? id with
    | none => rfl
    | some n =>
      show (ite _ _ _ : Node B).canExecute = _
      split <;> rfl
  constructor
  · rw [hc]
    rfl
  · rw [hc, hb]
    rfl
  · intro id n hn
    rw [hnode] at hn
    obtain ⟨m, hm, rfl⟩ := Option.map_eq_some_iff.1 hn
    have hmem : id ∈ g.computeOrder := g.computeOrder_perm.mem_iff.2 (Assoc.mem_keys_of_get? hm)
    rw [if_pos hmem]
    exact List.getElem?_idxOf hmem

theorem trusted_updateOrder (g : Graph B) : g.updateOrder.Trusted :=
  ⟨fun _ => g.current_updateOrder, fun _ => rfl⟩

theorem trusted_of_empty {g : Graph B} (hn : g.nodes = ∅) (ho : g.order = [])
    (he : g.executable = []) (hs : g.stale = false) : g.Trusted := by
  have hc : g.computeOrder = [] := by
    apply List.Perm.eq_nil
    have hp := g.computeOrder_perm
    rw [hn] at hp
    exact hp
  refine ⟨fun _ => ⟨ho.trans hc.symm, by rw [he, hc]; rfl, fun id n h => ?_⟩, fun _ => hs⟩
  rw [hn] at h
  cases h

end Graph

namespace Session

/-! ## Ends of operations -/

/-- If the cache is current unless flagged, it can be trusted after a refresh. -/
theorem trusted_refresh {s : Session B σ} (h : s.graph.stale = false → s.graph.Current) :
    s.refresh.graph.Trusted := by
  unfold refresh
  split
  · exact s.graph.trusted_updateOrder
  · next hc =>
    -- not brought up to date: it was not flagged, or a batch is open
    refine ⟨h, fun hd => ?_⟩
    cases hs : s.graph.stale with
    | false => rfl
    | true => simp [hs, hd] at hc

theorem trusted_invalidate (s : Session B σ) : s.invalidate.graph.Trusted :=
  trusted_refresh fun h => by cases h

/-- Closing a batch around a change leaves a cache to be trusted. -/
theorem trusted_markStale_endBatch (s : Session B σ) : s.markStale.endBatch.graph.Trusted :=
  trusted_refresh fun h => by cases h

theorem trusted_endBatch {s : Session B σ} (h : s.graph.Trusted) : s.endBatch.graph.Trusted := by
  apply trusted_refresh
  intro hs
  refine Graph.Current.transfer ?_ ?_ ?_ ?_ (h.current hs) <;> rfl

theorem trusted_beginBatch {s : Session B σ} (h : s.graph.Trusted) : s.beginBatch.graph.Trusted := by
  constructor
  · intro hs
    refine Graph.Current.transfer ?_ ?_ ?_ ?_ (h.current hs) <;> rfl
  · intro hd
    cases hd

/-! ## Operations that make or break something -/

theorem timing_addInput (s : Session B σ) (id : NodeId) (name : String) (type : SlotType) :
    (s.addInput id name type).2.graph.timing = s.graph.timing := by
  unfold addInput
  split
  · refine Graph.timing_modifyNode s.graph id (fun n => ?_) fun n => rfl
    show (⟨(n.inputs ++ [Input.new name type]).countP _, _⟩ : Course) = _
    rw [List.countP_append]
    rfl
  · rfl

theorem timing_addOutput (s : Session B σ) (id : NodeId) (name : String) (type : SlotType) :
    (s.addOutput id name type).2.graph.timing = s.graph.timing := by
  unfold addOutput
  split
  · refine Graph.timing_modifyNode s.graph id (fun n => ?_) fun n => rfl
    show (⟨_, (n.outputs ++ [Output.new name type]).flatMap Output.links⟩ : Course) = _
    rw [List.flatMap_append]
    show (⟨_, _ ++ ([] ++ [])⟩ : Course) = _
    rw [List.append_nil, List.append_nil]
    rfl
  · rfl

theorem trusted_change {s : Session B σ} (hs : s.graph.Trusted) (id : NodeId) (c : NodeChange) :
    (s.change id c).2.graph.Trusted := by
  unfold change
  split
  · show (ite _ _ _ : Session B σ).graph.Trusted
    split
    · exact trusted_invalidate _
    · -- any change but that of the priority leaves the rank alone
      next hc =>
      have hk : (s.graph.modifyNode id c.apply).skeleton = s.graph.skeleton :=
        Graph.skeleton_modifyNode (fun n _ => c.pins_apply n)
          fun n _ => NodeChange.rank_apply (Bool.eq_false_iff.2 hc) n
      exact hs.of_skeleton hk
  · exact hs

variable [Kind B]

theorem trusted_disconnectInput {s : Session B σ} (hs : s.graph.Trusted) (id : NodeId)
    (slot : Nat) : (s.disconnectInput id slot).2.graph.Trusted := by
  unfold disconnectInput
  split
  · exact trusted_invalidate _
  · exact hs

theorem trusted_disconnectOutput {s : Session B σ} (hs : s.graph.Trusted) (id : NodeId)
    (slot : Nat) (target : Option NodeId) :
    (s.disconnectOutput id slot target).2.graph.Trusted := by
  unfold disconnectOutput
  split
  · exact hs
  · exact trusted_invalidate _

theorem trusted_removeLink {s : Session B σ} (hs : s.graph.Trusted) (k : LinkId) :
    (s.removeLink k).2.graph.Trusted := by
  unfold removeLink
  split
  · exact trusted_invalidate _
  · exact hs

theorem trusted_tryConnect {s : Session B σ} (hs : s.graph.Trusted) (origin : NodeId)
    (originSlot : Nat) (target : NodeId) (targetSlot : Nat) :
    (s.tryConnect origin originSlot target targetSlot).2.graph.Trusted := by
  unfold tryConnect
  split
  · exact hs
  · next output input _ =>
    have ht := hs.of_skeleton (skeleton_tell s target (.linkOffered targetSlot output.type))
    simp only
    split
    · exact ht
    · split
      · exact ht
      · exact trusted_invalidate _

theorem trusted_connectByName {s : Session B σ} (hs : s.graph.Trusted) (origin : NodeId)
    (output : String) (target : NodeId) (input : String) :
    (s.connectByName origin output target input).2.graph.Trusted := by
  unfold connectByName
  split
  · exact hs
  · exact trusted_tryConnect hs ..

theorem trusted_removeInput {s : Session B σ} (hs : s.graph.Trusted) (id : NodeId) (slot : Nat) :
    (s.removeInput id slot).2.graph.Trusted := by
  unfold removeInput
  split
  · exact trusted_markStale_endBatch _
  · exact hs

theorem trusted_removeOutput {s : Session B σ} (hs : s.graph.Trusted) (id : NodeId) (slot : Nat) :
    (s.removeOutput id slot).2.graph.Trusted := by
  unfold removeOutput
  split
  · exact trusted_markStale_endBatch _
  · exact hs

theorem trusted_remove {s : Session B σ} (hs : s.graph.Trusted) (id : NodeId) :
    (s.remove id).2.graph.Trusted := by
  unfold remove
  split
  · exact trusted_markStale_endBatch _
  · exact hs

theorem trusted_settleLoad (s : Session B σ) (snapshot : Snapshot)
    (placed : List (NodeId × NodeRecord)) (nodes : Renaming NodeId) (report : LoadReport) :
    (s.settleLoad snapshot placed nodes report).2.graph.Trusted := by
  have hend : ∀ s : Session B σ, ((s.markStale.endBatch).restructure id).graph.Trusted := by
    intro s
    refine Graph.Trusted.of_timing ?_ (trusted_markStale_endBatch s)
    rfl
  exact hend _

end Session

theorem Edit.trusted_apply [Kind B] {s : Session B σ} (hs : s.graph.Trusted) (e : Edit) :
    (e.apply s).2.graph.Trusted := by
  cases e with
  | remove id => exact Session.trusted_remove hs id
  | clear => exact Graph.trusted_of_empty rfl rfl rfl rfl
  | tryConnect origin originSlot target targetSlot =>
    exact Session.trusted_tryConnect hs origin originSlot target targetSlot
  | connectByName origin output target input =>
    exact Session.trusted_connectByName hs origin output target input
  | disconnectInput id slot => exact Session.trusted_disconnectInput hs id slot
  | disconnectOutput id slot target => exact Session.trusted_disconnectOutput hs id slot target
  | removeLink id => exact Session.trusted_removeLink hs id
  | addInput id name type => exact hs.of_timing (Session.timing_addInput s id name type)
  | addOutput id name type => exact hs.of_timing (Session.timing_addOutput s id name type)
  | removeInput id slot => exact Session.trusted_removeInput hs id slot
  | removeOutput id slot => exact Session.trusted_removeOutput hs id slot
  | change id c => exact Session.trusted_change hs id c
  | beginBatch => exact Session.trusted_beginBatch hs
  | endBatch => exact Session.trusted_endBatch hs
  | updateOrder => exact s.graph.trusted_updateOrder
  | _ => exact hs.of_skeleton (Edit.skeleton_apply rfl s)

end Dataflow
