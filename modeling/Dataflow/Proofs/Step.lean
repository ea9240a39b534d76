/-
  One step computes what the graph means.

  Firing a node changes the data at its output, or a property that nothing reads, so the graph
  stays `Alike`: it has the same meaning afterwards.  A node `Carries` a value when it stands in
  its outputs and on the links that leave them.

  1. Firing a node makes it carry its value and takes nothing away from the others.
  2. If all feeders of a node carry what they mean, the node gives what it means.
  3. A pass goes through the nodes in an order in which every feeder has been before.  By
     induction along it, the nodes passed carry what they mean, whatever was on their links
     before; and the pass fails exactly where the meaning of a node is an error.
  4. In a second step nothing is new: every output is written with the value it has, and no watch
     writes at all.
-/

import Dataflow.Proofs.Agreement
import Dataflow.Proofs.Cache
import Dataflow.Proofs.Firing
import Dataflow.Proofs.Reachable

namespace Dataflow

namespace Graph

/-! ## What firing does to the data -/

/-- A value stands in every output of a node and on every link that leaves it. -/
def Carries (g : Graph Catalog) (id : NodeId) (v : Value) : Prop :=
  (∀ slot o, g.output? id slot = some o → o.data = some v) ∧
    ∀ k l, g.links.get? k = some l → l.origin = id → l.data = some v

/-- If a node is a watch, it shows a value. -/
def Displays (g : Graph Catalog) (id : NodeId) (v : Value) : Prop :=
  g.behavior? id = some .watch → ∃ w, g.property? id "value" = some w ∧ w.same v = true

section SetOutputData

variable {g : Graph Catalog} (id : NodeId) (slot : Nat) (v : Value)

theorem output?_setOutputData (id' : NodeId) (slot' : Nat) :
    (g.setOutputData id slot v).output? id' slot' = (g.output? id' slot').map fun o =>
      if id' = id ∧ slot' = slot then { o with data := some v } else o := by
  unfold setOutputData
  cases ho : g.output? id slot with
  | none =>
    show g.output? id' slot' = _
    cases ho' : g.output? id' slot' with
    | none => rfl
    | some o' =>
      have hne : ¬(id' = id ∧ slot' = slot) := by
        rintro ⟨rfl, rfl⟩
        cases ho.symm.trans ho'
      rw [Option.map_some, if_neg hne]
  | some o =>
    show ((Graph.modifyLinks _ _ _).modifyNode id _).output? id' slot' = _
    rw [output?_modifyOutput]
    show (((Graph.modifyLinks _ _ _).nodes.get? id').bind _).map _ = _
    rw [nodes_modifyLinks]
    rfl

/-- In a consistent graph the links written to are those that leave the output. -/
theorem get?_links_setOutputData (hg : g.Consistent) (k : LinkId) :
    (g.setOutputData id slot v).links.get? k = (g.links.get? k).map fun l =>
      if l.origin = id ∧ l.originSlot = slot then { l with data := some v } else l := by
  have hlists : ∀ l, g.links.get? k = some l →
      (g.Lists id slot k ↔ l.origin = id ∧ l.originSlot = slot) := by
    intro l hl
    rw [hg.outputs]
    constructor
    · rintro ⟨l', hl', h⟩
      cases Option.some.inj (hl.symm.trans hl')
      exact h
    · exact fun h => ⟨l, hl, h⟩
  unfold setOutputData
  cases ho : g.output? id slot with
  | none =>
    show g.links.get? k = _
    cases hl : g.links.get? k with
    | none => rfl
    | some l =>
      have hne : ¬(l.origin = id ∧ l.originSlot = slot) := by
        rw [← hlists l hl]
        rintro ⟨o, ho', -⟩
        cases ho.symm.trans ho'
      show some l = some (ite _ _ _)
      rw [if_neg hne]
  | some o =>
    show (Graph.modifyLinks _ _ _).links.get? k = _
    rw [get?_links_modifyLinks (hg.once id slot o ho)]
    cases hl : g.links.get? k with
    | none => rfl
    | some l =>
      have hmem : k ∈ o.links ↔ l.origin = id ∧ l.originSlot = slot := by
        rw [← hlists l hl]
        constructor
        · exact fun h => ⟨o, ho, h⟩
        · rintro ⟨o', ho', h⟩
          cases Option.some.inj (ho.symm.trans ho')
          exact h
      show some (ite _ _ _) = some (ite _ _ _)
      simp only [hmem]

theorem get?_setOutputData_of_ne {id' : NodeId} (h : id' ≠ id) :
    (g.setOutputData id slot v).nodes.get? id' = g.nodes.get? id' := by
  unfold setOutputData
  split
  · rw [get?_modifyNode, if_neg h, nodes_modifyLinks]
  · rfl

theorem roles_setOutputData : (g.setOutputData id slot v).roles = g.roles := by
  unfold setOutputData
  split
  · refine (roles_modifyNode ?_).trans ?_
    · exact fun n _ => rfl
    · unfold roles
      rw [nodes_modifyLinks]
  · rfl

theorem version_setOutputData : (g.setOutputData id slot v).version = g.version := by
  unfold setOutputData
  split
  · rw [modifyLinks_eq]
    rfl
  · rfl

end SetOutputData

section Fire

variable {g : Graph Catalog} {id : NodeId} {n : Node Catalog} {b : Catalog} {v : Value}

/-- What does not change when a node is fired: everything but data and one property. -/
theorem alike_fire (hn : g.nodes.get? id = some n) (hb : n.behavior = some b) :
    g.Alike (g.fire b id v) := by
  have hset : g.Alike (g.setOutputData id 0 v) :=
    ⟨wiring_of_skeleton (g.skeleton_setOutputData id 0 v), g.roles_setOutputData id 0 v⟩
  cases b with
  | watch =>
    show g.Alike (ite _ _ _)
    split
    · exact .refl g
    · refine ⟨wiring_of_skeleton (g.skeleton_setProperty id "value" v), ?_⟩
      refine roles_modifyNode fun m hm => ?_
      cases Option.some.inj (hn.symm.trans hm)
      unfold Node.role Node.setProperty
      simp only [hb]
  | _ => exact hset

theorem cache_fire : (g.fire b id v).executable = g.executable ∧ (g.fire b id v).stale = g.stale := by
  have hs : (g.fire b id v).skeleton = g.skeleton := by
    cases b with
    | watch =>
      show (ite _ _ _ : Graph Catalog).skeleton = _
      split
      · rfl
      · exact g.skeleton_setProperty id "value" v
    | _ => exact g.skeleton_setOutputData id 0 v
  exact ⟨congrArg Skeleton.executable hs, congrArg Skeleton.stale hs⟩

theorem get?_fire_of_ne {id' : NodeId} (h : id' ≠ id) :
    (g.fire b id v).nodes.get? id' = g.nodes.get? id' := by
  cases b with
  | watch =>
    show (ite _ _ _ : Graph Catalog).nodes.get? id' = _
    split
    · rfl
    · exact (get?_modifyNode ..).trans (if_neg h)
  | _ => exact get?_setOutputData_of_ne id 0 v h

theorem get?_links_fire (hg : g.Consistent) (k : LinkId) :
    (g.fire b id v).links.get? k = (g.links.get? k).map fun l =>
      if l.origin = id ∧ l.originSlot < b.results then { l with data := some v } else l := by
  have hset : (g.setOutputData id 0 v).links.get? k = (g.links.get? k).map fun l =>
      if l.origin = id ∧ l.originSlot < 1 then { l with data := some v } else l := by
    simp only [Nat.lt_one_iff]
    exact get?_links_setOutputData id 0 v hg k
  cases b with
  | watch =>
    have hl : (g.fire .watch id v).links = g.links := by
      show (ite _ _ _ : Graph Catalog).links = _
      split <;> rfl
    have hz : ∀ l : Link, ¬(l.origin = id ∧ l.originSlot < Catalog.results .watch) :=
      fun l h => Nat.not_lt_zero _ h.2
    simp only [hl, hz, if_false, Option.map_id']
  | _ => exact hset

/-- Firing a node makes it carry the value. -/
theorem carries_fire (hg : g.Consistent) (hn : g.nodes.get? id = some n) (hc : n.Computes b) :
    (g.fire b id v).Carries id v := by
  have halike : g.Alike (g.fire b id v) := alike_fire hn hc.behavior
  have hg' := hg.of_wiring halike.wiring
  -- the node has no output at all, or just the one that is written to
  have hslot : ∀ slot o, (g.fire b id v).output? id slot = some o → slot < b.results := by
    intro slot o ho
    obtain ⟨n', hn', hs⟩ := node_of_output ho
    obtain ⟨m, hm, hp, hr⟩ := halike.node hn'
    cases Option.some.inj (hn.symm.trans hm)
    have hlt := (List.getElem?_eq_some_iff.1 hs).1
    rwa [(hc.transfer hp hr).outputs] at hlt
  constructor
  · intro slot o ho
    have hlt := hslot slot o ho
    have hf : g.fire b id v = g.setOutputData id 0 v ∧ slot = 0 := by
      cases b with
      | watch => exact absurd hlt (Nat.not_lt_zero _)
      | _ => exact ⟨rfl, Nat.lt_one_iff.1 hlt⟩
    obtain ⟨hf, rfl⟩ := hf
    rw [hf, output?_setOutputData] at ho
    obtain ⟨o', -, rfl⟩ := Option.map_eq_some_iff.1 ho
    rw [if_pos ⟨rfl, rfl⟩]
  · intro k l hl ho
    obtain ⟨o, hout, -⟩ := hg'.origin_exists hl
    have hlt := hslot l.originSlot o (ho ▸ hout)
    rw [get?_links_fire hg] at hl
    obtain ⟨l', -, rfl⟩ := Option.map_eq_some_iff.1 hl
    by_cases h : l'.origin = id ∧ l'.originSlot < b.results
    · rw [if_pos h]
    · rw [if_neg h] at ho hlt
      exact absurd ⟨ho, hlt⟩ h

/-- Firing one node takes nothing away from another. -/
theorem Carries.fire {u : NodeId} {w : Value} (h : g.Carries u w) (hg : g.Consistent) (hu : u ≠ id) :
    (g.fire b id v).Carries u w := by
  constructor
  · intro slot o ho
    refine h.1 slot o ?_
    rw [← ho]
    show (g.nodes.get? u).bind _ = ((g.fire b id v).nodes.get? u).bind _
    rw [get?_fire_of_ne hu]
  · intro k l hl ho
    rw [get?_links_fire hg] at hl
    obtain ⟨l', hl', rfl⟩ := Option.map_eq_some_iff.1 hl
    by_cases hw : l'.origin = id ∧ l'.originSlot < b.results
    · rw [if_pos hw] at ho
      exact absurd (ho.symm.trans hw.1) hu
    · rw [if_neg hw] at ho ⊢
      exact h.2 k l' hl' ho

theorem Displays.fire {u : NodeId} {w : Value} (h : g.Displays u w) (hu : u ≠ id) :
    (g.fire b id v).Displays u w := by
  unfold Displays behavior? property?
  rw [get?_fire_of_ne hu]
  exact h

/-- Firing a watch makes it show the value. -/
theorem displays_fire (hn : g.nodes.get? id = some n) (hb : n.behavior = some b)
    (hv : v.same v = true) : (g.fire b id v).Displays id v := by
  intro hw
  rw [((alike_fire hn hb).sameAt id).behavior] at hw
  have hbw : b = .watch := by
    rw [behavior_of_node hn] at hw
    exact Option.some.inj (hb.symm.trans hw)
  subst hbw
  show ∃ w, (ite _ _ _ : Graph Catalog).property? id "value" = some w ∧ _
  split
  · next h =>
    unfold Catalog.holdsAlready at h
    exact (Option.any_eq_true _ _).1 h
  · refine ⟨v, ?_, hv⟩
    show ((g.modifyNode id _).nodes.get? id).bind _ = _
    rw [get?_modifyNode, if_pos rfl, hn]
    exact Assoc.get?_insert_self ..

/-- A watch that shows the value already does nothing. -/
theorem version_fire (h : g.Displays id v) (hn : g.nodes.get? id = some n)
    (hb : n.behavior = some b) : (g.fire b id v).version = g.version := by
  cases b with
  | watch =>
    have hw : g.behavior? id = some .watch := (behavior_of_node hn).trans hb
    have hold : Catalog.holdsAlready (g.property? id "value") v = true :=
      (Option.any_eq_true _ _).2 (h hw)
    show (ite _ _ _ : Graph Catalog).version = _
    rw [if_pos hold]
  | _ => exact version_setOutputData id 0 v

end Fire

/-! ## A pass so far -/

variable {base : Graph Catalog}

/-- The graph in the midst of a pass over `base`: the nodes passed carry what they mean. -/
structure Progress (base : Graph Catalog) (wf : WellFounded base.Draws) (done : List NodeId)
    (g : Graph Catalog) : Prop where
  alike : base.Alike g
  passed : ∀ u ∈ done, ∃ v, base.eval wf u = .ok v ∧ g.Carries u v ∧ g.Displays u v

/-- What a node gives is what it means, if what it reads is what its feeders mean. -/
theorem Progress.result {wf : WellFounded base.Draws} {done : List NodeId} {g : Graph Catalog}
    (hp : base.Progress wf done g) (hg : g.Joined) {id : NodeId} {b : Catalog}
    (hb : g.behavior? id = some b) (hfed : ∀ u, g.Feeds u id → u ∈ done) :
    g.result b id = base.eval wf id ∧
      ∀ slot l, g.inputLink? id slot = some l → (g.inputData? id slot).isSome = true := by
  have hdraws : ∀ u v, g.Draws u v → base.Draws u v := by
    rintro u v ⟨slot, l, hl, rfl⟩
    have ho := (hp.alike.sameAt v).origins slot
    rw [hl] at ho
    obtain ⟨l', hl', he⟩ := Option.map_eq_some_iff.1 ho.symm
    exact ⟨slot, l', hl', he⟩
  have wf' : WellFounded g.Draws := Subrelation.wf (hdraws _ _) wf
  -- what comes in at a slot is what the feeder means
  have hin : ∀ slot l, g.inputLink? id slot = some l →
      ∃ v, base.eval wf l.origin = .ok v ∧ g.inputData? id slot = some v := by
    intro slot l hl
    obtain ⟨v, hv, hc, -⟩ := hp.passed _ (hfed l.origin (Draws.feeds hg ⟨slot, l, hl, rfl⟩))
    have hk : ∃ k, g.links.get? k = some l := by
      obtain ⟨s, -, hs⟩ := Option.bind_eq_some_iff.1 hl
      obtain ⟨k, -, hk⟩ := Option.bind_eq_some_iff.1 hs
      exact ⟨k, hk⟩
    obtain ⟨k, hk⟩ := hk
    refine ⟨v, hv, ?_⟩
    unfold inputData?
    rw [hl]
    exact hc.2 k l hk rfl
  refine ⟨?_, fun slot l hl => ?_⟩
  · rw [← eval_congr wf wf' hp.alike.sameAt, eval_eq, hb]
    show b.value _ _ = b.value _ _
    congr 1
    funext slot
    cases hl : g.inputLink? id slot with
    | none =>
      unfold inputData?
      rw [hl]
      rfl
    | some l =>
      obtain ⟨v, hv, hd⟩ := hin slot l hl
      rw [hd, Option.map_some, Option.map_some, eval_congr wf wf' hp.alike.sameAt, hv]
  · obtain ⟨v, -, hd⟩ := hin slot l hl
    rw [hd]
    rfl

theorem Progress.fire {wf : WellFounded base.Draws} {done : List NodeId} {g : Graph Catalog}
    (hp : base.Progress wf done g) (hg : g.Consistent) {id : NodeId} {n : Node Catalog} {b : Catalog}
    {v : Value} (hid : id ∉ done) (hn : g.nodes.get? id = some n) (hc : n.Computes b)
    (hv : base.eval wf id = .ok v) : base.Progress wf (done ++ [id]) (g.fire b id v) where
  alike := hp.alike.trans (alike_fire hn hc.behavior)
  passed u hu := by
    rcases List.mem_append.1 hu with hu | hu
    · obtain ⟨w, hw, hcw, hdw⟩ := hp.passed u hu
      have hne : u ≠ id := fun he => hid (he ▸ hu)
      exact ⟨w, hw, hcw.fire hg hne, hdw.fire hne⟩
    · rw [List.mem_singleton.1 hu]
      exact ⟨v, hv, carries_fire hg hn hc, displays_fire hn hc.behavior (same_eval wf hv)⟩

end Graph

/-! ## A whole pass -/

namespace Engine

open Dataflow.Graph

/-- How a pass ends: without an error if and only if no node means one.  Then all nodes carry what
they mean; and a pass that finds every watch showing that already counts no change. -/
structure Outlook (base : Graph Catalog) (wf : WellFounded base.Draws) (done rest : List NodeId)
    (g g' : Graph Catalog) (r : Except GraphError Unit) : Prop where
  alike : base.Alike g'
  executable : g'.executable = g.executable
  stale : g'.stale = g.stale
  succeeds : r = .ok () ↔ ∀ id ∈ rest, ∃ v, base.eval wf id = .ok v
  progress : r = .ok () → base.Progress wf (done ++ rest) g'
  calm : r = .ok () → (∀ id ∈ rest, ∀ v, base.eval wf id = .ok v → g.Displays id v) →
    g'.version = g.version

variable {base : Graph Catalog}

/-- What stands in front of an element in a list without duplicates is in the part before it. -/
theorem mem_of_pair_sublist {u v : NodeId} {done rest : List NodeId}
    (h : [u, v].Sublist (done ++ v :: rest)) (hn : (done ++ v :: rest).Nodup) : u ∈ done := by
  have hv := (List.nodup_cons.1 (List.nodup_append.1 hn).2.1).1
  obtain ⟨xs, ys, he, hx, hy⟩ := List.sublist_append_iff.1 h
  cases xs with
  | cons x xs =>
    obtain ⟨rfl, -⟩ := List.cons.inj he
    exact hx.subset (List.mem_cons_self ..)
  | nil =>
    rw [List.nil_append] at he
    subst he
    cases hy with
    | cons _ hy => exact absurd (hy.subset (by simp)) hv
    | cons_cons _ hy => exact absurd (hy.subset (List.mem_cons_self ..)) hv

theorem runNodes_computes (depth : Nat) (hbase : base.Ready) (wf : WellFounded base.Draws)
    {rest done : List NodeId} {s : Session Catalog Unit} (hp : base.Progress wf done s.graph)
    (hn : (done ++ rest).Nodup) (hk : ∀ id ∈ rest, id ∈ base.nodes.keys)
    (ho : ∀ u v, base.Feeds u v → v ∈ rest → [u, v].Sublist (done ++ rest)) :
    ∃ r s', runNodes (runner (depth + 1)) rest s = some (r, s') ∧
      Outlook base wf done rest s.graph s'.graph r := by
  induction rest generalizing done s with
  | nil =>
    refine ⟨.ok (), s, rfl, hp.alike, rfl, rfl, ?_, fun _ => ?_, fun _ _ => rfl⟩
    · exact iff_of_true rfl fun id hid => nomatch hid
    · rw [List.append_nil]
      exact hp
  | cons id rest ih =>
    have hready := hbase.alike hp.alike
    obtain ⟨n, hnode⟩ := Assoc.mem_keys_iff.1 (hp.alike.keys ▸ hk id (List.mem_cons_self ..))
    obtain ⟨b, hc⟩ := hready.computes id n hnode
    have hb : s.graph.behavior? id = some b := (Graph.behavior_of_node hnode).trans hc.behavior
    have hfed : ∀ u, s.graph.Feeds u id → u ∈ done := fun u hu =>
      mem_of_pair_sublist (ho u id (hp.alike.feeds hu) (List.mem_cons_self ..)) hn
    obtain ⟨hres, hdata⟩ := hp.result hready.consistent.toJoined hb hfed
    have hlayer : ∀ rule, b = .layer rule → (s.graph.inputData? id 0).isSome = true := by
      rintro rule rfl
      obtain ⟨l, hl⟩ := Option.isSome_iff_exists.1 (hready.fed id rule hb)
      exact hdata 0 l hl
    obtain ⟨t, hrun, ht⟩ := runBody_fires depth hnode hc hlayer
    have hturn : isAlways s.graph id = true := by
      unfold isAlways
      rw [hnode]
      exact decide_eq_true hc.turn
    rw [hres] at hrun ht
    rw [runNodes_cons hturn rest hrun]
    cases hv : base.eval wf id with
    | error e =>
      rw [hv] at hrun ht
      -- the step ends here, and the node that fails is the reason
      have hgraph : t.graph = s.graph := ht
      refine ⟨.error (.execution id e), t, rfl, hgraph ▸ hp.alike, by rw [hgraph], by rw [hgraph],
        ?_, (fun h => nomatch h), (fun h => nomatch h)⟩
      refine iff_of_false (fun h => nomatch h) fun h => ?_
      obtain ⟨v, hok⟩ := h id (List.mem_cons_self ..)
      cases hv.symm.trans hok
    | ok v =>
      rw [hv] at hrun ht
      -- the node has fired; the rest runs on what that leaves
      have hgraph : t.graph = s.graph.fire b id v := ht
      have hid : id ∉ done := fun h =>
        (List.nodup_append.1 hn).2.2 id h id (List.mem_cons_self ..) rfl
      have hp' : base.Progress wf (done ++ [id]) t.graph :=
        hgraph ▸ hp.fire hready.consistent hid hnode hc hv
      have hsplit : done ++ id :: rest = done ++ [id] ++ rest := by simp
      obtain ⟨r, s', hr, out⟩ := ih hp' (hsplit ▸ hn) (fun i hi => hk i (List.mem_cons_of_mem id hi))
        fun u w hf hw => hsplit ▸ ho u w hf (List.mem_cons_of_mem id hw)
      have hcache : (s.graph.fire b id v).executable = s.graph.executable ∧
          (s.graph.fire b id v).stale = s.graph.stale := cache_fire
      refine ⟨r, s', hr, out.alike, ?_, ?_, ?_, fun h => hsplit ▸ out.progress h, fun h hd => ?_⟩
      · rw [out.executable, hgraph, hcache.1]
      · rw [out.stale, hgraph, hcache.2]
      · rw [out.succeeds, List.forall_mem_cons]
        exact (and_iff_right ⟨v, hv⟩).symm
      · have hshown := hd id (List.mem_cons_self ..) v hv
        rw [out.calm h fun u hu w hw => ?_, hgraph, version_fire hshown hnode hc.behavior]
        have hne : u ≠ id := by
          rintro rfl
          exact (List.nodup_cons.1 (List.nodup_append.1 hn).2.1).1 hu
        rw [hgraph]
        exact (hd u (List.mem_cons_of_mem id hu) w hw).fire hne

end Engine

/-! ## Graphs of standard nodes -/

/-- A node of a type, with the behaviour and the slots of the type. -/
structure Node.IsOf {B : Type} [Kind B] (n : Node B) (t : NodeType B) : Prop where
  type : n.type = t.id
  behavior : n.behavior = some t.behavior
  runs : n.canExecute = Kind.canExecute t.behavior
  inputs : n.inputs.map (fun s => (s.name, s.type)) = t.inputs.map fun s => (s.name, s.type)
  outputs : n.outputs.map (fun s => (s.name, s.type)) = t.outputs.map fun s => (s.name, s.type)

namespace Catalog

/-- The standard types that deal in numbers and shapes. -/
def dataTypes : List (NodeType Catalog) :=
  (types id).filter fun t => t.category ∈ ["basic", "tensor", "layer"]

/-- Whether the nodes of a type compute. -/
def suits (t : NodeType Catalog) : Bool :=
  t.behavior.computes && Kind.canExecute t.behavior && t.outputs.length == t.behavior.results &&
    match t.behavior with
    | .sum => t.inputs.map Input.name == ["A", "B"]
    | _ => true

theorem suits_dataTypes : ∀ t ∈ dataTypes, suits t = true := by
  have h : dataTypes.all suits = true := by decide +kernel
  exact List.all_eq_true.1 h

/-- Nodes of these types compute while it is always their turn. -/
theorem computes_of_isOf {n : Node Catalog} {t : NodeType Catalog} (ht : t ∈ dataTypes)
    (hn : n.IsOf t) (hm : n.mode = .always) : n.Computes t.behavior := by
  have hs := suits_dataTypes t ht
  unfold suits at hs
  simp only [Bool.and_eq_true, beq_iff_eq] at hs
  obtain ⟨⟨⟨hc, hx⟩, ho⟩, hi⟩ := hs
  refine ⟨hn.behavior, hc, hn.runs.trans hx, hm, fun hb => ?_, ?_⟩
  · rw [hb] at hi
    have hnames : n.inputs.map Input.name = ["A", "B"] := by
      have h := congrArg (List.map Prod.fst) hn.inputs
      rw [List.map_map, List.map_map] at h
      exact h.trans (beq_iff_eq.1 hi)
    have hfind : ∀ name, n.findInput? name = ["A", "B"].findIdx? (· = name) := by
      intro name
      rw [← hnames, List.findIdx?_map]
      rfl
    rw [hfind, hfind]
    decide
  · have h := congrArg List.length hn.outputs
    rw [List.length_map, List.length_map] at h
    exact h.trans ho

end Catalog

/-- A consistent graph of such nodes in which data flows forward only: it has no cycles, it is the
turn of every node in every pass, no link leads to a node of smaller priority, and every layer is
linked. -/
structure Graph.Straight (g : Graph Catalog) : Prop where
  consistent : g.Consistent
  acyclic : ∀ id, ¬g.Cyclic id
  standard : ∀ id n, g.nodes.get? id = some n → n.mode = .always ∧ ∃ t ∈ Catalog.dataTypes, n.IsOf t
  ordered : ∀ u v, g.Feeds u v → g.priority u ≤ g.priority v
  fed : ∀ id rule, g.behavior? id = some (.layer rule) → (g.inputLink? id 0).isSome = true

namespace Graph.Straight

variable {g : Graph Catalog} (hg : g.Straight)
include hg

theorem ready : g.Ready where
  consistent := hg.consistent
  computes id n hn := by
    obtain ⟨hm, t, ht, ho⟩ := hg.standard id n hn
    exact ⟨t.behavior, Catalog.computes_of_isOf ht ho hm⟩
  fed := hg.fed

theorem wellFounded : WellFounded g.Draws := wellFounded_draws hg.consistent.toJoined hg.acyclic

theorem forward {u v : NodeId} (hf : g.Feeds u v) : [u, v].Sublist g.computeOrder :=
  computeOrder_forward hg.consistent.toJoined hf (fun ⟨w, hw, _⟩ => hg.acyclic w hw)
    (hg.ordered u v hf)

/-- What a node means. -/
def meaning (id : NodeId) : Except NodeError Value := g.eval hg.wellFounded id

/-- A step runs all nodes, in the order of execution. -/
theorem executable (ht : g.Trusted) :
    (if g.stale then g.updateOrder else g).executable = g.computeOrder := by
  have hall : g.computeOrder.filter g.hasBody = g.computeOrder := by
    refine List.filter_eq_self.2 fun id hid => ?_
    obtain ⟨n, hn⟩ := Assoc.mem_keys_iff.1 (g.computeOrder_perm.mem_iff.1 hid)
    obtain ⟨b, hc⟩ := hg.ready.computes id n hn
    unfold hasBody
    rw [hn]
    exact hc.runs
  split
  · exact hall
  · next hs => exact (ht.current (Bool.eq_false_iff.2 hs)).executable.trans hall

end Graph.Straight

namespace Engine

open Dataflow.Graph

/-- A step from a graph that is alike and has passed no node yet: how it ends, and that the next one
starts from such a graph, too. -/
theorem runStep_computes (depth : Nat) {base : Graph Catalog} (hb : base.Straight)
    {s : Session Catalog Unit} (ha : base.Alike s.graph)
    (hx : (if s.graph.stale then s.edit Graph.updateOrder else s).graph.executable =
      base.computeOrder) :
    ∃ r s', runStep (runner (depth + 1)) 1 true s = some (r, s') ∧ s'.graph.stale = false ∧
      Outlook base hb.wellFounded [] base.computeOrder
        (if s.graph.stale then s.edit Graph.updateOrder else s).graph s'.graph r := by
  have halike : base.Alike (if s.graph.stale then s.edit Graph.updateOrder else s).graph := by
    split
    · exact ha.trans s.graph.alike_updateOrder
    · exact ha
  have hfresh : (if s.graph.stale then s.edit Graph.updateOrder else s).graph.stale = false := by
    split
    · rfl
    · next h => exact Bool.eq_false_iff.2 h
  have hkeys : ∀ id ∈ base.computeOrder, id ∈ base.nodes.keys := fun id hid =>
    base.computeOrder_perm.mem_iff.1 hid
  have hstart : base.Progress hb.wellFounded []
      (if s.graph.stale then s.edit Graph.updateOrder else s).graph :=
    ⟨halike, fun u hu => nomatch hu⟩
  have hnodup : ([] ++ base.computeOrder).Nodup := base.nodup_computeOrder
  obtain ⟨r, t, hr, out⟩ := runNodes_computes depth hb.ready hb.wellFounded hstart hnodup hkeys
    fun u v hf _ => hb.forward hf
  rw [← hx] at hr
  obtain ⟨s', hs', time, i, hg⟩ := runStep_once hr
  refine ⟨r, s', hs', ?_, ?_⟩
  · rw [hg]
    exact out.stale.trans hfresh
  · -- what the step counts is not looked at
    rw [hg]
    exact ⟨⟨out.alike.wiring, out.alike.roles⟩, out.executable, out.stale, out.succeeds,
      fun h => ⟨⟨out.alike.wiring, out.alike.roles⟩, (out.progress h).passed⟩, out.calm⟩

/-- Two graphs that are alike and in which all nodes carry what they mean have the same data in
their outputs. -/
theorem outputData?_eq {base g g' : Graph Catalog} {wf : WellFounded base.Draws}
    {ids : List NodeId} (hids : ∀ id ∈ base.nodes.keys, id ∈ ids)
    (hp : base.Progress wf ids g) (hp' : base.Progress wf ids g') (id : NodeId) (slot : Nat) :
    g'.outputData? id slot = g.outputData? id slot := by
  have hfan := fan_of_wiring (hp'.alike.wiring.trans hp.alike.wiring.symm) id slot
  unfold outputData?
  cases ho : g.output? id slot with
  | none =>
    rw [ho, Option.map_none, Option.map_eq_none_iff] at hfan
    rw [hfan]
  | some o =>
    rw [ho] at hfan
    obtain ⟨o', ho', -⟩ := Option.map_eq_some_iff.1 hfan
    obtain ⟨n, hn, -⟩ := node_of_output ho
    have hid : id ∈ ids := hids id (hp.alike.keys ▸ Assoc.mem_keys_of_get? hn)
    obtain ⟨v, hv, hc, -⟩ := hp.passed id hid
    obtain ⟨v', hv', hc', -⟩ := hp'.passed id hid
    cases hv.symm.trans hv'
    rw [ho']
    show o'.data = o.data
    rw [hc.1 slot o ho, hc'.1 slot o' ho']

/-- Whatever the properties, the data left on the links and the history, one step works out the
meaning of a graph.  It succeeds if and only if no node means an error.  Then every output and
every link that leaves it carries what its node means, and every watch shows what its feeder means,
or a null when it has none.  Another step changes no output and does not count as a change. -/
theorem step_evaluates {s : Session Catalog Unit} (hr : Reachable s) (hg : s.graph.Straight)
    (depth : Nat) :
    ∃ r s', perform (runner (depth + 1)) (.runStep 1 true) s = some (r, s') ∧
      (r = .ok () ↔ ∀ id ∈ s.graph.nodes.keys, ∃ v, hg.meaning id = .ok v) ∧
      (r = .ok () →
        (∀ id ∈ s.graph.nodes.keys, ∃ v, hg.meaning id = .ok v ∧ s'.graph.Carries id v) ∧
        (∀ id, s.graph.behavior? id = some .watch → ∃ v w,
          (s.graph.inputLink? id 0).elim (.ok .null) (fun l => hg.meaning l.origin) = .ok v ∧
            s'.graph.property? id "value" = some w ∧ w.same v = true) ∧
        ∃ s'', perform (runner (depth + 1)) (.runStep 1 true) s' = some (.ok (), s'') ∧
          (∀ id slot, s''.graph.outputData? id slot = s'.graph.outputData? id slot) ∧
          s''.graph.version = s'.graph.version) := by
  have hmem : ∀ {id}, id ∈ s.graph.computeOrder ↔ id ∈ s.graph.nodes.keys := fun {id} =>
    s.graph.computeOrder_perm.mem_iff
  have hx : (if s.graph.stale then s.edit Graph.updateOrder else s).graph.executable =
      s.graph.computeOrder := by
    rw [← hg.executable hr.trusted]
    split <;> rfl
  obtain ⟨r, s', hrun, hfresh, out⟩ := runStep_computes depth hg (.refl s.graph) hx
  refine ⟨r, s', hrun, ?_, fun hok => ?_⟩
  · refine out.succeeds.trans (forall_congr' fun id => ?_)
    rw [hmem]
    rfl
  have hp : s.graph.Progress hg.wellFounded s.graph.computeOrder s'.graph := out.progress hok
  refine ⟨fun id hid => ?_, fun id hw => ?_, ?_⟩
  · obtain ⟨v, hv, hc, -⟩ := hp.passed id (hmem.2 hid)
    exact ⟨v, hv, hc⟩
  · obtain ⟨n, hn, -⟩ := Option.bind_eq_some_iff.1 hw
    obtain ⟨v, hv, -, hd⟩ := hp.passed id (hmem.2 (Assoc.mem_keys_of_get? hn))
    obtain ⟨w, hshown, hsame⟩ := hd ((hp.alike.sameAt id).behavior.trans hw)
    refine ⟨v, w, ?_, hshown, hsame⟩
    rw [eval_eq, hw] at hv
    rw [← hv]
    show _ = ((s.graph.inputLink? id 0).map _).getD (Except.ok Value.null)
    cases s.graph.inputLink? id 0 <;> rfl
  · have hstay : (if s'.graph.stale then s'.edit Graph.updateOrder else s') = s' := by
      rw [hfresh]
      rfl
    obtain ⟨r', s'', hrun', -, out'⟩ := runStep_computes depth hg hp.alike (s := s') (by
      rw [hstay]
      exact out.executable.trans hx)
    have hok' : r' = .ok () := out'.succeeds.2 (out.succeeds.1 hok)
    subst hok'
    refine ⟨s'', hrun', fun id slot => ?_, ?_⟩
    · exact outputData?_eq (fun id hid => hmem.2 hid) hp (out'.progress rfl) id slot
    · rw [out'.calm rfl fun id hid v hv => ?_, hstay]
      rw [hstay]
      obtain ⟨v', hv', -, hd⟩ := hp.passed id hid
      cases hv.symm.trans hv'
      exact hd

end Engine

/-- Links a constant to a watch, in a batch that stays open. -/
def watched : Body Catalog Unit (Except ConnectionError LinkId) := do
  Body.edit .beginBatch
  let _ ← Body.perform (.add { (Catalog.constantType id).instantiate none with
    properties := .ofList [("value", .float 2.0)] })
  let _ ← Body.perform (.add ((Catalog.watchType id).instantiate none))
  Body.edit (.tryConnect ⟨1⟩ 0 ⟨2⟩ 0)

theorem watched_obeys (r : Registry Catalog) : watched.Obeys (linking r) := by
  have hc : (Catalog.constantType id : NodeType Catalog).Unlinked := of_decide_eq_true rfl
  have hw : (Catalog.watchType id : NodeType Catalog).Unlinked := of_decide_eq_true rfl
  have hsource : ({ (Catalog.constantType id).instantiate none with
      properties := .ofList [("value", .float 2.0)] } : Node Catalog).Loose :=
    (Node.loose_instantiate hc none).of_slots rfl rfl rfl
  refine ⟨trivial, fun _ _ => ⟨hsource, fun _ _ => ⟨Node.loose_instantiate hw none, fun _ _ => ?_⟩⟩⟩
  exact ⟨trivial, fun _ _ => trivial⟩

/-- What it leaves: one link, from a constant to a watch. -/
structure Watching (g : Graph Catalog) (source target : Node Catalog) : Prop where
  nodes : g.nodes.entries = [(⟨1⟩, source), (⟨2⟩, target)]
  links : g.links.entries = [(⟨1⟩, Link.new ⟨1⟩ .any ⟨1⟩ 0 ⟨2⟩ 0)]
  input : g.inputLink? ⟨2⟩ 0 = some (Link.new ⟨1⟩ .any ⟨1⟩ 0 ⟨2⟩ 0)
  constant : source.IsOf (Catalog.constantType id)
  watch : target.IsOf (Catalog.watchType id)
  modes : source.mode = .always ∧ target.mode = .always
  priorities : source.priority = 0 ∧ target.priority = 0
  value : source.property? "value" = some (.float 2.0)

namespace Watching

variable {g : Graph Catalog} {source target : Node Catalog} (h : Watching g source target)
include h

theorem get? (id : NodeId) : g.nodes.get? id =
    if id = ⟨1⟩ then some source else if id = ⟨2⟩ then some target else none := by
  show g.nodes.entries.lookup id = _
  rw [h.nodes, List.lookup_cons, List.lookup_cons]
  by_cases h1 : id = ⟨1⟩
  · rw [beq_iff_eq.2 h1, if_pos h1]
  · rw [beq_eq_false_iff_ne.2 h1, if_neg h1]
    by_cases h2 : id = ⟨2⟩
    · rw [beq_iff_eq.2 h2, if_pos h2]
    · rw [beq_eq_false_iff_ne.2 h2, if_neg h2]
      rfl

theorem node {id : NodeId} {n : Node Catalog} (hn : g.nodes.get? id = some n) :
    n = source ∨ n = target := by
  rw [h.get?] at hn
  split at hn
  · cases hn
    exact .inl rfl
  · split at hn
    · cases hn
      exact .inr rfl
    · cases hn

theorem ends {u v : NodeId} (hf : g.Feeds u v) : u = ⟨1⟩ ∧ v = ⟨2⟩ := by
  obtain ⟨k, l, hl, rfl, rfl⟩ := hf
  have hl' := (Assoc.get?_eq_some_iff ..).1 hl
  rw [h.links] at hl'
  cases List.mem_singleton.1 hl'
  exact ⟨rfl, rfl⟩

theorem behavior_source : g.behavior? ⟨1⟩ = some .constant :=
  (Graph.behavior_of_node (h.get? ⟨1⟩)).trans h.constant.behavior

theorem behavior_target : g.behavior? ⟨2⟩ = some .watch :=
  (Graph.behavior_of_node (h.get? ⟨2⟩)).trans h.watch.behavior

theorem straight (hg : g.Consistent) : g.Straight where
  consistent := hg
  acyclic u hu := by
    -- only the constant feeds a node, and nothing feeds it
    obtain ⟨w, hw, -⟩ := Relation.TransGen.head'_iff.1 hu
    obtain ⟨w', -, hw'⟩ := Relation.TransGen.tail'_iff.1 hu
    have he := (h.ends hw).1
    rw [(h.ends hw').2] at he
    exact absurd he (by decide)
  standard id n hn := by
    rcases h.node hn with rfl | rfl
    · exact ⟨h.modes.1, _, List.mem_cons_self .., h.constant⟩
    · exact ⟨h.modes.2, _, List.mem_cons_of_mem _ (List.mem_cons_self ..), h.watch⟩
  ordered u v hf := by
    obtain ⟨rfl, rfl⟩ := h.ends hf
    unfold Graph.priority
    rw [h.get?, h.get?]
    exact (h.priorities.1.trans h.priorities.2.symm).le
  fed id rule hb := by
    obtain ⟨n, hn, hb⟩ := Option.bind_eq_some_iff.1 hb
    rcases h.node hn with rfl | rfl
    · exact absurd (h.constant.behavior.symm.trans hb) nofun
    · exact absurd (h.watch.behavior.symm.trans hb) nofun

theorem meaning_source (hg : g.Straight) : hg.meaning ⟨1⟩ = .ok (.ofFloat 2.0) := by
  have hvalue : g.property? ⟨1⟩ "value" = some (.float 2.0) := by
    show (g.nodes.get? ⟨1⟩).bind _ = _
    rw [h.get?]
    exact h.value
  unfold Graph.Straight.meaning
  rw [Graph.eval_eq, h.behavior_source]
  show (Catalog.numberOr0 "value" (g.property? ⟨1⟩ "value")).map _ = _
  rw [hvalue]
  rfl

theorem meaning_target (hg : g.Straight) : hg.meaning ⟨2⟩ = .ok (.ofFloat 2.0) := by
  refine Eq.trans ?_ (h.meaning_source hg)
  unfold Graph.Straight.meaning
  rw [Graph.eval_eq, h.behavior_target]
  show ((g.inputLink? ⟨2⟩ 0).map _).getD _ = _
  rw [h.input]
  rfl

theorem meaning (hg : g.Straight) {id : NodeId} (hid : id ∈ g.nodes.keys) :
    hg.meaning id = .ok (.ofFloat 2.0) := by
  replace hid : id ∈ g.nodes.entries.map Prod.fst := hid
  rw [h.nodes] at hid
  obtain rfl | hid := List.mem_cons.1 hid
  · exact h.meaning_source hg
  · cases List.mem_singleton.1 hid
    exact h.meaning_target hg

end Watching

theorem watched_runs : ∃ s' source target, Engine.exec 1 watched
      (⟨Graph.empty ∅ .default, [], ()⟩ : Session Catalog Unit) = some (.ok ⟨1⟩, s') ∧
    s'.graph.stale = true ∧ Watching s'.graph source target := by
  refine ⟨_, _, _, rfl, rfl, rfl, rfl, rfl, ?_, ?_, ⟨rfl, rfl⟩, ⟨rfl, rfl⟩, rfl⟩
  · exact ⟨rfl, rfl, rfl, rfl, rfl⟩
  · exact ⟨rfl, rfl, rfl, rfl, rfl⟩

/-- The constant is shown after one step, though the batch has kept the order from being brought
up to date. -/
theorem watched_shows : ∃ s s' : Session Catalog Unit, Reachable s ∧ s.graph.stale = true ∧
    Engine.perform (Engine.runner 1) (.runStep 1 true) s = some (.ok (), s') ∧
    ∃ w, s'.graph.property? ⟨2⟩ "value" = some w ∧ w.same (.float 2.0) = true := by
  obtain ⟨s, source, target, hrun, hstale, hw⟩ := watched_runs
  have hs : Reachable s := Reachable.exec watched
    (Reachable.start ∅ .default [] () : Reachable (⟨Graph.empty ∅ .default, [], ()⟩ :
      Session Catalog Unit)) hrun
  have htidy : (Graph.empty ∅ .default : Graph Catalog).Tidy ∅ :=
    ⟨Graph.consistent_of_empty rfl rfl, rfl⟩
  have hg : s.graph.Straight := hw.straight (Engine.keeps_exec (Engine.lawful_linking ∅)
    (Catalog.obeys_linking ∅) (watched_obeys ∅) 1 ⟨Graph.empty ∅ .default, [], ()⟩ htidy _ s hrun).1
  obtain ⟨r, s', hr, hok, hall⟩ := Engine.step_evaluates hs hg 0
  have hrok : r = .ok () := hok.2 fun id hid => ⟨_, hw.meaning hg hid⟩
  subst hrok
  obtain ⟨-, hwatch, -⟩ := hall rfl
  obtain ⟨v, w, hmean, hshown, hsame⟩ := hwatch ⟨2⟩ hw.behavior_target
  rw [hw.input] at hmean
  have hv : v = .ofFloat 2.0 := Except.ok.inj (hmean.symm.trans (hw.meaning_source hg))
  subst hv
  refine ⟨s, s', hs, hstale, hr, w, hshown, ?_⟩
  exact hsame

end Dataflow
