/-
  Nodes that come and go.

  A node that names no link can be added under a free identity, and a node that no link touches
  can be taken out.  Removing a node from a session first breaks its links, slot by slot; the
  main lemma on that is that afterwards no link is left at the node (`isolated`).
-/

import Dataflow.Proofs.Reshaping
import Dataflow.Engine

namespace Dataflow

variable {B σ : Type}

/-- A node that may join a graph: its slots name no links, and the identity it asks for, if any,
is not the last there is. -/
structure Node.Loose (n : Node B) : Prop where
  inputs : ∀ s ∈ n.inputs, s.link = none
  outputs : ∀ s ∈ n.outputs, s.links = []
  id : ∀ id, n.id = some id → id.number < idLimit

namespace Graph

/-! ## Taking a node out -/

/-- A node that no link touches is loose without its identity. -/
theorem loose_of_untouched {g : Graph B} (hg : g.Joined) {id : NodeId} {n : Node B}
    (hn : g.nodes.get? id = some n) (hin : ∀ k slot, ¬g.Arrives k id slot)
    (hout : ∀ k slot, ¬g.Leaves k id slot) : ({ n with id := none } : Node B).Loose := by
  constructor
  · intro i hi
    obtain ⟨slot, hslot⟩ := List.getElem?_of_mem hi
    cases hk : i.link with
    | none => rfl
    | some k =>
      have hh : g.Holds id slot k := ⟨i, (input_of_node hn slot).trans hslot, hk⟩
      exact absurd ((hg.inputs id slot k).1 hh) (hin k slot)
  · intro o ho
    obtain ⟨slot, hslot⟩ := List.getElem?_of_mem ho
    cases hk : o.links with
    | nil => rfl
    | cons k ks =>
      have hh : g.Lists id slot k :=
        ⟨o, (output_of_node hn slot).trans hslot, by rw [hk]; exact List.mem_cons_self ..⟩
      exact absurd ((hg.outputs id slot k).1 hh) (hout k slot)
  · intro id' h
    cases h

theorem consistent_eraseNode {g : Graph B} (hg : g.Consistent) {id : NodeId}
    (hin : ∀ k slot, ¬g.Arrives k id slot) (hout : ∀ k slot, ¬g.Leaves k id slot) :
    ({ g with nodes := g.nodes.erase id } : Graph B).Consistent := by
  have hnode : ∀ id', ({ g with nodes := g.nodes.erase id } : Graph B).nodes.get? id' =
      if id' = id then none else g.nodes.get? id' := Assoc.get?_erase g.nodes id
  have hinput : ∀ id' slot, ({ g with nodes := g.nodes.erase id } : Graph B).input? id' slot =
      if id' = id then none else g.input? id' slot := by
    intro id' slot
    show (Assoc.get? _ id').bind _ = if _ then _ else (g.nodes.get? id').bind _
    rw [hnode]
    split <;> rfl
  have houtput : ∀ id' slot, ({ g with nodes := g.nodes.erase id } : Graph B).output? id' slot =
      if id' = id then none else g.output? id' slot := by
    intro id' slot
    show (Assoc.get? _ id').bind _ = if _ then _ else (g.nodes.get? id').bind _
    rw [hnode]
    split <;> rfl
  apply hg.of_claims
  case hl =>
    rfl
  case hin =>
    intro id' slot k
    by_cases h : id' = id
    · subst h
      constructor
      · rintro ⟨s, hs, -⟩
        rw [hinput, if_pos rfl] at hs
        cases hs
      · exact fun hh => absurd ((hg.inputs id' slot k).1 hh) (hin k slot)
    · unfold Holds
      rw [hinput, if_neg h]
  case hout =>
    intro id' slot k
    by_cases h : id' = id
    · subst h
      constructor
      · rintro ⟨s, hs, -⟩
        rw [houtput, if_pos rfl] at hs
        cases hs
      · exact fun hh => absurd ((hg.outputs id' slot k).1 hh) (hout k slot)
    · unfold Lists
      rw [houtput, if_neg h]
  case once =>
    intro id' slot s hs
    rw [houtput] at hs
    split at hs
    · cases hs
    · exact hg.once id' slot s hs
  case hnode =>
    intro id' n hn
    rw [hnode] at hn
    split at hn
    · cases hn
    · exact ⟨n, hn, rfl⟩
  case hnextNode =>
    rfl
  case hnextLink =>
    rfl

/-! ## Putting a node in -/

theorem place_eq (g : Graph B) (n : Node B) (id : NodeId) (next : Nat) :
    ∃ p, g.place n id next =
      ({ g with nodes := g.nodes.insert id { n with id := some id, pos := p }, nextNode := next } :
        Graph B).bump := by
  unfold place
  by_cases h : g.settings.alignToGrid = true
  · obtain ⟨p, hp⟩ := Node.alignToGrid_eq { n with id := some id } g.settings.gridSize.toFloat32
    refine ⟨p, ?_⟩
    simp only [if_pos h, hp]
  · refine ⟨n.pos, ?_⟩
    simp only [if_neg h]

theorem consistent_insertNode {g : Graph B} (hg : g.Consistent) {n : Node B} {id : NodeId}
    {next : Nat} (hi : ∀ s ∈ n.inputs, s.link = none) (ho : ∀ s ∈ n.outputs, s.links = [])
    (hid : n.id = some id) (hfree : g.nodes.get? id = none) (hbelow : id.number < next)
    (hnext : g.nextNode ≤ next) :
    ({ g with nodes := g.nodes.insert id n, nextNode := next } : Graph B).Consistent := by
  have hnode : ∀ id', (g.nodes.insert id n).get? id' =
      if id' = id then some n else g.nodes.get? id' := fun id' => Assoc.get?_insert ..
  exact {
    apart := hg.apart
    inputs := by
      -- the links are as before, and the slots of the new node name none
      intro id' slot k
      refine Iff.trans ?_ (hg.inputs id' slot k)
      refine Assoc.exists_bind_insert hfree (fun s hs hk => ?_) id'
      rw [hi s (List.mem_of_getElem? hs)] at hk
      cases hk
    outputs := by
      intro id' slot k
      refine Iff.trans ?_ (hg.outputs id' slot k)
      refine Assoc.exists_bind_insert hfree (fun s hs hk => ?_) id'
      rw [ho s (List.mem_of_getElem? hs)] at hk
      cases hk
    once := by
      intro id' slot s hs
      change ((g.nodes.insert id n).get? id').bind _ = some s at hs
      rw [hnode] at hs
      split at hs
      · rw [ho s (List.mem_of_getElem? hs)]
        exact List.nodup_nil
      · exact hg.once id' slot s hs
    nodeOwn := by
      intro id' m hm
      change (g.nodes.insert id n).get? id' = some m at hm
      rw [hnode] at hm
      split at hm
      · next h =>
        cases hm
        rw [hid, h]
      · exact hg.nodeOwn id' m hm
    linkOwn := hg.linkOwn
    nodeBelow := by
      intro id' m hm
      change (g.nodes.insert id n).get? id' = some m at hm
      rw [hnode] at hm
      split at hm
      · next h => exact h ▸ hbelow
      · exact Nat.lt_of_lt_of_le (hg.nodeBelow id' m hm) hnext
    linkBelow := hg.linkBelow }

theorem freeNodeFrom_of_free {nodes : Assoc NodeId (Node B)} {n : Nat}
    (h : nodes.get? ⟨n⟩ = none) (fuel : Nat) : freeNodeFrom nodes fuel n = n := by
  cases fuel with
  | zero => rfl
  | succ fuel =>
    unfold freeNodeFrom
    rw [Assoc.contains_eq_isSome, h]
    rfl

/-- In a consistent graph the identity that a node gets is free, and the counter moves past it. -/
theorem claimNode_free {g : Graph B} (hg : g.Consistent) {requested : Option NodeId}
    (hr : ∀ id, requested = some id → id.number < idLimit) :
    g.nodes.get? (g.claimNode requested).1 = none ∧
      (g.claimNode requested).1.number < (g.claimNode requested).2 ∧
      g.nextNode ≤ (g.claimNode requested).2 := by
  have hfree : g.nodes.get? ⟨g.nextNode⟩ = none := by
    cases h : g.nodes.get? ⟨g.nextNode⟩ with
    | none => rfl
    | some n => exact absurd (hg.nodeBelow _ n h) (Nat.lt_irrefl _)
  have hn := freeNodeFrom_of_free hfree g.nodes.size
  unfold claimNode
  rw [hn]
  cases requested with
  | none => exact ⟨hfree, Nat.lt_succ_self _, Nat.le_succ _⟩
  | some id =>
    by_cases hc : g.nodes.contains id = true
    · -- the identity asked for is taken, so the next one is given
      simp only [if_pos hc]
      exact ⟨hfree, Nat.lt_succ_self _, Nat.le_succ _⟩
    · simp only [if_neg hc]
      have hlt := hr id rfl
      refine ⟨Option.isNone_iff_eq_none.1 (by simpa [Assoc.contains_eq_isSome] using hc), ?_,
        Nat.le_max_left _ _⟩
      unfold afterId
      omega

theorem tidy_place {r : Registry B} {g : Graph B} (hg : g.Tidy r) {n : Node B} (hn : n.Loose) :
    (g.place n (g.claimNode n.id).1 (g.claimNode n.id).2).Tidy r := by
  obtain ⟨hfree, hbelow, hnext⟩ := claimNode_free hg.1 hn.id
  obtain ⟨p, hp⟩ := place_eq g n (g.claimNode n.id).1 (g.claimNode n.id).2
  rw [hp]
  have hc := consistent_insertNode hg.1 (n := { n with id := some (g.claimNode n.id).1, pos := p })
    hn.inputs hn.outputs rfl hfree hbelow hnext
  refine Tidy.of_wiring ?_ ⟨hc, hg.2⟩
  rfl

/-! ## The graph without anything -/

theorem consistent_of_empty {g : Graph B} (hn : g.nodes = ∅) (hl : g.links = ∅) :
    g.Consistent := by
  have hnode : ∀ id, g.nodes.get? id = none := fun id => by rw [hn]; rfl
  have hlink : ∀ k, g.links.get? k = none := fun k => by rw [hl]; rfl
  have hin : ∀ id slot, g.input? id slot = none := fun id slot => by
    show (g.nodes.get? id).bind _ = none
    rw [hnode]
    rfl
  have hout : ∀ id slot, g.output? id slot = none := fun id slot => by
    show (g.nodes.get? id).bind _ = none
    rw [hnode]
    rfl
  constructor
  case toJoined =>
    constructor
    · intro k l h
      rw [hlink] at h
      cases h
    · intro id slot k
      unfold Holds Arrives
      rw [hin, hlink]
      simp
    · intro id slot k
      unfold Lists Leaves
      rw [hout, hlink]
      simp
  case once =>
    intro id slot s h
    rw [hout] at h
    cases h
  case nodeOwn =>
    intro id n h
    rw [hnode] at h
    cases h
  case linkOwn =>
    intro k l h
    rw [hlink] at h
    cases h
  case nodeBelow =>
    intro id n h
    rw [hnode] at h
    cases h
  case linkBelow =>
    intro k l h
    rw [hlink] at h
    cases h

theorem tidy_empty (r : Registry B) (settings : Settings) : (empty r settings).Tidy r :=
  ⟨consistent_of_empty rfl rfl, rfl⟩

theorem registry_eraseInput (g : Graph B) (id : NodeId) (slot : Nat) :
    (g.eraseInput id slot).registry = g.registry := by
  unfold eraseInput
  split
  · exact (counters_modifyLinks _ _ g).2.2
  · rfl

theorem registry_eraseOutput (g : Graph B) (id : NodeId) (slot : Nat) :
    (g.eraseOutput id slot).registry = g.registry := by
  unfold eraseOutput
  split
  · exact (counters_modifyLinks _ _ g).2.2
  · rfl

end Graph

/-- Being consistent is kept up by edits. -/
theorem upkeep_tidy (r : Registry B) : Upkeep (Graph.Tidy r) where
  joined h := h.1.toJoined
  wiring h hg := hg.of_wiring h
  dropLink h hl := ⟨Graph.consistent_dropLink h.1 hl, h.2⟩
  addLink h _ hl := ⟨Graph.consistent_addLink h.1 hl, h.2⟩
  newInput h id name type := ⟨Graph.consistent_addInput h.1 id name type, h.2⟩
  newOutput h id name type := ⟨Graph.consistent_addOutput h.1 id name type, h.2⟩
  eraseInput h hfree := ⟨Graph.consistent_eraseInput h.1 hfree, (Graph.registry_eraseInput ..).trans h.2⟩
  eraseOutput h hfree :=
    ⟨Graph.consistent_eraseOutput h.1 hfree, (Graph.registry_eraseOutput ..).trans h.2⟩
  eraseNode h hin hout := ⟨Graph.consistent_eraseNode h.1 hin hout, h.2⟩
  reset h _ _ := ⟨Graph.consistent_of_empty rfl rfl, h.2⟩

namespace Session

variable [Kind B] {I : Graph B → Prop} (hI : Upkeep I)
include hI

/-! ## Breaking the links of a node -/

theorem disconnectInputs_spec (id : NodeId) (slots : List Nat) {s : Session B σ}
    (hs : I s.graph) :
    let s' := slots.foldl (fun s slot => (s.disconnectInput id slot).2) s
    I s'.graph ∧ s'.graph.Within s.graph ∧
      ∀ slot ∈ slots, ∀ k, ¬s'.graph.Arrives k id slot := by
  induction slots generalizing s with
  | nil => exact ⟨hs, .refl _, fun _ h => by cases h⟩
  | cons slot slots ih =>
    obtain ⟨ht, hw, hc⟩ := ih (upkeep_disconnectInput hI hs id slot)
    refine ⟨ht, hw.trans (disconnectInput_within s id slot), ?_⟩
    intro slot' hm k ha
    rcases List.mem_cons.1 hm with rfl | hm
    · exact not_arrives_disconnectInput (hI.joined hs) id slot' k (hw.arrives ha)
    · exact hc slot' hm k ha

theorem disconnectOutputs_spec (id : NodeId) (slots : List Nat) {s : Session B σ}
    (hs : I s.graph) :
    let s' := slots.foldl (fun s slot => (s.disconnectOutput id slot none).2) s
    I s'.graph ∧ s'.graph.Within s.graph ∧
      ∀ slot ∈ slots, ∀ k, ¬s'.graph.Leaves k id slot := by
  induction slots generalizing s with
  | nil => exact ⟨hs, .refl _, fun _ h => by cases h⟩
  | cons slot slots ih =>
    obtain ⟨ht, hw, hc⟩ := ih (upkeep_disconnectOutput hI hs id slot none)
    refine ⟨ht, hw.trans (disconnectOutput_within s id slot none), ?_⟩
    intro slot' hm k ha
    rcases List.mem_cons.1 hm with rfl | hm
    · exact not_leaves_disconnectOutput (hI.joined hs) id slot' k (hw.leaves ha)
    · exact hc slot' hm k ha

/-- After all links of a node were broken, none is left there. -/
theorem isolated {s : Session B σ} (hs : I s.graph) {id : NodeId} {n : Node B}
    (hn : s.graph.nodes.get? id = some n) :
    I (s.isolate id n).graph ∧ (∀ k slot, ¬(s.isolate id n).graph.Arrives k id slot) ∧
      ∀ k slot, ¬(s.isolate id n).graph.Leaves k id slot := by
  obtain ⟨ht, hw, hc⟩ := disconnectInputs_spec hI id (linkedInputs n) hs
  obtain ⟨ht', hw', hc'⟩ := disconnectOutputs_spec hI id (linkedOutputs n) ht
  refine ⟨ht', fun k slot ha => ?_, fun k slot ha => ?_⟩
  · -- a link left there would have been there at first, at one of the inputs that were cleared
    have ha' := hw'.arrives ha
    obtain ⟨i, hi, hk⟩ := ((hI.joined hs).inputs id slot k).2 (hw.arrives ha')
    rw [Graph.input_of_node hn] at hi
    refine hc slot (List.mem_filter.2 ⟨?_, ?_⟩) k ha'
    · exact List.mem_range.2 (List.getElem?_eq_some_iff.1 hi).1
    · rw [hi, Option.any_some, Input.isConnected, hk]
      rfl
  · obtain ⟨o, ho, hk⟩ := ((hI.joined hs).outputs id slot k).2 (hw.leaves (hw'.leaves ha))
    rw [Graph.output_of_node hn] at ho
    refine hc' slot (List.mem_filter.2 ⟨?_, ?_⟩) k ha
    · exact List.mem_range.2 (List.getElem?_eq_some_iff.1 ho).1
    · rw [ho, Option.any_some, Output.isConnected]
      cases hl : o.links with
      | nil => rw [hl] at hk; cases hk
      | cons k' ks => rfl

/-! ## Removing a node -/

/-- A node that no link touches is loose when it has been taken out. -/
theorem upkeep_extract {s : Session B σ} (hs : I s.graph) {id : NodeId}
    (hin : ∀ k slot, ¬s.graph.Arrives k id slot) (hout : ∀ k slot, ¬s.graph.Leaves k id slot) :
    I (s.extract id).2.graph ∧ ∀ n ∈ (s.extract id).1, n.Loose := by
  have hw : (s.tell id .removed).graph.wiring = s.graph.wiring :=
    Graph.wiring_of_skeleton (skeleton_tell ..)
  have ht := hI.wiring hw hs
  have hin' : ∀ k slot, ¬(s.tell id .removed).graph.Arrives k id slot :=
    fun k slot ha => hin k slot (Graph.arrives_of_wiring hw ha)
  have hout' : ∀ k slot, ¬(s.tell id .removed).graph.Leaves k id slot :=
    fun k slot ha => hout k slot (Graph.leaves_of_wiring hw ha)
  unfold extract
  revert ht hin' hout'
  generalize s.tell id .removed = s'
  intro ht hin' hout'
  simp only
  cases hn : s'.graph.nodes.get? id with
  | none => exact ⟨ht, fun n h => by cases h⟩
  | some n =>
    have hc : I { s'.graph with nodes := s'.graph.nodes.erase id } := hI.eraseNode ht hin' hout'
    refine ⟨hI.wiring ?_ hc, ?_⟩
    · rfl
    · intro m hm
      cases hm
      exact Graph.loose_of_untouched (hI.joined ht) hn hin' hout'

theorem upkeep_remove {s : Session B σ} (hs : I s.graph) (id : NodeId) :
    I (s.remove id).2.graph ∧ ∀ n ∈ (s.remove id).1, n.Loose := by
  unfold remove
  cases hn : s.graph.nodes.get? id with
  | none => exact ⟨hs, fun n h => by cases h⟩
  | some n =>
    have hb : I s.beginBatch.graph := hI.wiring (wiring_beginBatch s) hs
    obtain ⟨ht, hin, hout⟩ := isolated hI hb hn
    obtain ⟨he, hl⟩ := upkeep_extract hI ht hin hout
    revert he hl
    simp only
    generalize (s.beginBatch.isolate id n).extract id = taken
    intro he hl
    have hw : taken.2.markStale.endBatch.graph.wiring = taken.2.graph.wiring :=
      wiring_endBatch taken.2.markStale
    exact ⟨hI.wiring hw he, hl⟩

theorem upkeep_clear {s : Session B σ} (hs : I s.graph) : I s.clear.graph := by
  have hw : (s.stop.tellAll s.stop.graph.nodes.keys .removed).graph.wiring = s.graph.wiring :=
    Graph.wiring_of_skeleton ((skeleton_tellAll ..).trans (skeleton_stop s))
  exact hI.reset (hI.wiring hw hs) _ _

/-! ## Adding and removing slots -/

omit [Kind B] in
theorem upkeep_addInput {s : Session B σ} (hs : I s.graph) (id : NodeId) (name : String)
    (type : SlotType) : I (s.addInput id name type).2.graph := by
  unfold addInput
  split
  · have ht : I (s.graph.modifyNode id (·.addInput name type)) := hI.newInput hs id name type
    refine hI.wiring ?_ ht
    rfl
  · exact hs

omit [Kind B] in
theorem upkeep_addOutput {s : Session B σ} (hs : I s.graph) (id : NodeId) (name : String)
    (type : SlotType) : I (s.addOutput id name type).2.graph := by
  unfold addOutput
  split
  · have ht : I (s.graph.modifyNode id (·.addOutput name type)) := hI.newOutput hs id name type
    refine hI.wiring ?_ ht
    rfl
  · exact hs

theorem upkeep_removeInput {s : Session B σ} (hs : I s.graph) (id : NodeId) (slot : Nat) :
    I (s.removeInput id slot).2.graph := by
  have hb : I s.beginBatch.graph := hI.wiring (wiring_beginBatch s) hs
  have he := hI.eraseInput (upkeep_disconnectInput hI hb id slot)
    (not_arrives_disconnectInput (hI.joined hb) id slot)
  unfold removeInput
  split
  · revert he
    simp only
    generalize (s.beginBatch.disconnectInput id slot).2 = s'
    intro he
    refine hI.wiring ?_ he
    exact wiring_endBatch (s'.edit fun g => (g.eraseInput id slot).bump).markStale
  · exact hs

theorem upkeep_removeOutput {s : Session B σ} (hs : I s.graph) (id : NodeId) (slot : Nat) :
    I (s.removeOutput id slot).2.graph := by
  have hb : I s.beginBatch.graph := hI.wiring (wiring_beginBatch s) hs
  have he := hI.eraseOutput (upkeep_disconnectOutput hI hb id slot none)
    (not_leaves_disconnectOutput (hI.joined hb) id slot)
  unfold removeOutput
  split
  · revert he
    simp only
    generalize (s.beginBatch.disconnectOutput id slot none).2 = s'
    intro he
    refine hI.wiring ?_ he
    exact wiring_endBatch (s'.edit fun g => (g.eraseOutput id slot).bump).markStale
  · exact hs

end Session

end Dataflow
