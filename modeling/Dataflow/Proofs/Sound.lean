/-
  Graphs whose counters may have come to their end.

  The counters of a consistent graph are above all identities in use.  After a load that need not
  be so: a snapshot can use the last identity there is, and then the counter for it stops there.
  A `Sound` graph is consistent but for that.  With other counters it would be consistent
  (`Sound.consistent`), so the steps by which edits change links and nodes keep it sound for the
  reasons that they keep a graph consistent.  Only where a link is made the counter matters; as
  long as the counter can still move, it is above all links (`Sound.linksBelow`).
-/

import Dataflow.Proofs.Editing
import Dataflow.Proofs.Landing

namespace Dataflow

variable {B σ : Type}

namespace Graph

/-! ## Counters -/

/-- The graph with other counters. -/
def recount (g : Graph B) (nextNode nextLink : Nat) : Graph B := { g with nextNode, nextLink }

/-- The counters have been moved past every identity in use, unless there is none behind it. -/
structure Counted (g : Graph B) : Prop where
  node : ∀ id ∈ g.nodes.keys, afterId id.number ≤ g.nextNode
  link : ∀ k ∈ g.links.keys, afterId k.number ≤ g.nextLink
  nodeStart : 1 ≤ g.nextNode
  linkStart : 1 ≤ g.nextLink

/-- Fewer identities and higher counters. -/
theorem Counted.mono {g g' : Graph B} (hg : g.Counted) (hn : ∀ id ∈ g'.nodes.keys, id ∈ g.nodes.keys)
    (hl : ∀ k ∈ g'.links.keys, k ∈ g.links.keys) (hnode : g.nextNode ≤ g'.nextNode)
    (hlink : g.nextLink ≤ g'.nextLink) : g'.Counted where
  node id hid := Nat.le_trans (hg.node id (hn id hid)) hnode
  link k hk := Nat.le_trans (hg.link k (hl k hk)) hlink
  nodeStart := Nat.le_trans hg.nodeStart hnode
  linkStart := Nat.le_trans hg.linkStart hlink

theorem keys_nodes_of_wiring {g g' : Graph B} (h : g'.wiring = g.wiring) :
    g'.nodes.keys = g.nodes.keys := by
  have hk := congrArg (fun w : Wiring B => w.nodes.keys) h
  simpa only [wiring, Assoc.keys_mapValues] using hk

theorem keys_links_of_wiring {g g' : Graph B} (h : g'.wiring = g.wiring) :
    g'.links.keys = g.links.keys := by
  have hk := congrArg (fun w : Wiring B => w.links.keys) h
  simpa only [wiring, Assoc.keys_mapValues] using hk

theorem Counted.of_wiring {g g' : Graph B} (h : g'.wiring = g.wiring) (hg : g.Counted) : g'.Counted :=
  hg.mono (fun _ hid => keys_nodes_of_wiring h ▸ hid) (fun _ hk => keys_links_of_wiring h ▸ hk)
    (Nat.le_of_eq (congrArg Wiring.nextNode h).symm) (Nat.le_of_eq (congrArg Wiring.nextLink h).symm)

/-! ## Soundness -/

/-- A graph over given types that is in order, its links aside. -/
structure Orderly (r : Registry B) (g : Graph B) : Prop where
  once : ∀ id slot s, g.output? id slot = some s → s.links.Nodup
  nodeOwn : ∀ id n, g.nodes.get? id = some n → n.id = some id
  linkOwn : ∀ k l, g.links.get? k = some l → l.id = k
  counted : g.Counted
  registry : g.registry = r

/-- A graph over given types that is consistent but for its counters. -/
structure Sound (r : Registry B) (g : Graph B) : Prop extends Joined g, Orderly r g

variable {r : Registry B} {g g' : Graph B}

theorem Consistent.sound {a b : Nat} (h : (g.recount a b).Consistent) (hc : g.Counted)
    (hr : g.registry = r) : g.Sound r where
  apart := h.apart
  inputs := h.inputs
  outputs := h.outputs
  once := h.once
  nodeOwn := h.nodeOwn
  linkOwn := h.linkOwn
  counted := hc
  registry := hr

theorem exists_above (ns : List Nat) : ∃ a, ∀ n ∈ ns, n < a := by
  induction ns with
  | nil => exact ⟨0, fun _ hn => nomatch hn⟩
  | cons m ns ih =>
    obtain ⟨a, ha⟩ := ih
    refine ⟨max a (m + 1), fun n hn => ?_⟩
    rcases List.mem_cons.1 hn with rfl | hn
    · exact Nat.lt_of_lt_of_le (Nat.lt_succ_self n) (Nat.le_max_right ..)
    · exact Nat.lt_of_lt_of_le (ha n hn) (Nat.le_max_left ..)

/-- A sound graph is consistent with counters that are high enough, and the counter for links can
be its own if it is above all links. -/
theorem Sound.consistent (hg : g.Sound r) : ∃ a b, (g.recount a b).Consistent ∧
    (g.LinksBelow → (g.recount a g.nextLink).Consistent) := by
  obtain ⟨a, ha⟩ := exists_above (g.nodes.keys.map NodeId.number)
  obtain ⟨b, hb⟩ := exists_above (g.links.keys.map LinkId.number)
  have hnode : ∀ id n, g.nodes.get? id = some n → id.number < a :=
    fun id n hn => ha _ (List.mem_map_of_mem (Assoc.mem_keys_of_get? hn))
  have hlink : ∀ k l, g.links.get? k = some l → k.number < b :=
    fun k l hl => hb _ (List.mem_map_of_mem (Assoc.mem_keys_of_get? hl))
  have hjoined : ∀ b, (g.recount a b).Joined := fun _ => ⟨hg.apart, hg.inputs, hg.outputs⟩
  exact ⟨a, b, ⟨hjoined b, hg.once, hg.nodeOwn, hg.linkOwn, hnode, hlink⟩,
    fun hbelow => ⟨hjoined _, hg.once, hg.nodeOwn, hg.linkOwn, hnode, hbelow⟩⟩

/-- As long as the counter for links has not come to its end, it is above all links. -/
theorem Sound.linksBelow (hg : g.Sound r) (h : g.nextLink < idLimit) : g.LinksBelow := by
  intro k l hl
  have hk := hg.counted.link k (Assoc.mem_keys_of_get? hl)
  unfold afterId at hk
  omega

theorem Sound.of_wiring (h : g'.wiring = g.wiring) (hg : g.Sound r) : g'.Sound r := by
  obtain ⟨a, b, hc, -⟩ := hg.consistent
  have hw : (g'.recount a b).wiring = (g.recount a b).wiring := by
    show (⟨g'.wiring.registry, g'.wiring.nodes, g'.wiring.links, a, b⟩ : Wiring B) = _
    rw [h]
    rfl
  exact (hc.of_wiring hw).sound (hg.counted.of_wiring h) ((registry_of_wiring h).trans hg.registry)

/-! ## What edits do -/

theorem keys_links_modifyLinks (f : Link → Link) (ks : List LinkId) (g : Graph B) :
    (g.modifyLinks ks f).links.keys = g.links.keys := by
  induction ks generalizing g with
  | nil => rfl
  | cons k ks ih => exact (ih _).trans (Assoc.keys_modify ..)

theorem recount_modifyLinks (a b : Nat) (f : Link → Link) (ks : List LinkId) (g : Graph B) :
    (g.recount a b).modifyLinks ks f = (g.modifyLinks ks f).recount a b := by
  induction ks generalizing g with
  | nil => rfl
  | cons k ks ih => exact ih (g.modifyLink k f)

theorem recount_eraseInput (a b : Nat) (g : Graph B) (id : NodeId) (slot : Nat) :
    (g.recount a b).eraseInput id slot = (g.eraseInput id slot).recount a b := by
  unfold eraseInput
  have hnodes : (g.recount a b).nodes = g.nodes := rfl
  rw [hnodes]
  cases g.nodes.get? id with
  | none => rfl
  | some n =>
    simp only [recount_modifyLinks]
    rfl

theorem recount_eraseOutput (a b : Nat) (g : Graph B) (id : NodeId) (slot : Nat) :
    (g.recount a b).eraseOutput id slot = (g.eraseOutput id slot).recount a b := by
  unfold eraseOutput
  have hnodes : (g.recount a b).nodes = g.nodes := rfl
  rw [hnodes]
  cases g.nodes.get? id with
  | none => rfl
  | some n =>
    simp only [recount_modifyLinks]
    rfl

theorem Counted.eraseInput (hg : g.Counted) (id : NodeId) (slot : Nat) :
    (g.eraseInput id slot).Counted := by
  unfold Graph.eraseInput
  cases g.nodes.get? id with
  | none => exact hg
  | some n =>
    obtain ⟨hnode, hlink, -⟩ := counters_modifyLinks
      (fun l => { l with targetSlot := l.targetSlot - 1 })
      ((n.inputs.drop (slot + 1)).filterMap Input.link) g
    refine hg.mono (fun i hi => ?_) (fun k hk => ?_) (Nat.le_of_eq hnode.symm) (Nat.le_of_eq hlink.symm)
    · change i ∈ ((g.modifyLinks _ _).nodes.modify id _).keys at hi
      rwa [Assoc.keys_modify, nodes_modifyLinks] at hi
    · change k ∈ (g.modifyLinks _ _).links.keys at hk
      rwa [keys_links_modifyLinks] at hk

theorem Counted.eraseOutput (hg : g.Counted) (id : NodeId) (slot : Nat) :
    (g.eraseOutput id slot).Counted := by
  unfold Graph.eraseOutput
  cases g.nodes.get? id with
  | none => exact hg
  | some n =>
    obtain ⟨hnode, hlink, -⟩ := counters_modifyLinks
      (fun l => { l with originSlot := l.originSlot - 1 })
      ((n.outputs.drop (slot + 1)).flatMap Output.links) g
    refine hg.mono (fun i hi => ?_) (fun k hk => ?_) (Nat.le_of_eq hnode.symm) (Nat.le_of_eq hlink.symm)
    · change i ∈ ((g.modifyLinks _ _).nodes.modify id _).keys at hi
      rwa [Assoc.keys_modify, nodes_modifyLinks] at hi
    · change k ∈ (g.modifyLinks _ _).links.keys at hk
      rwa [keys_links_modifyLinks] at hk

theorem Counted.modifyNode (hg : g.Counted) (id : NodeId) (f : Node B → Node B) :
    (g.modifyNode id f).Counted := by
  have hk : (g.modifyNode id f).nodes.keys = g.nodes.keys := Assoc.keys_modify ..
  exact hg.mono (fun i hi => hk ▸ hi) (fun _ hk => hk) (Nat.le_refl _) (Nat.le_refl _)

theorem Counted.dropLink (hg : g.Counted) (k : LinkId) (l : Link) : (g.dropLink k l).Counted := by
  have hk : (g.dropLink k l).nodes.keys = g.nodes.keys :=
    (Assoc.keys_modify ..).trans (Assoc.keys_modify ..)
  exact hg.mono (fun i hi => hk ▸ hi) (fun _ hi => Assoc.mem_keys_of_erase hi) (Nat.le_refl _) (Nat.le_refl _)

theorem Counted.addLink (hg : g.Counted) {l : Link} (hl : l.id = ⟨g.nextLink⟩) :
    (g.addLink l).Counted := by
  have ha : ({ g with links := g.links.insert l.id l, nextLink := l.id.number + 1 } : Graph B).Counted := by
    have hnext : g.nextLink ≤ l.id.number + 1 := by
      rw [hl]
      exact Nat.le_succ _
    refine ⟨hg.node, fun k hk => ?_, hg.nodeStart, Nat.le_trans hg.linkStart hnext⟩
    change k ∈ (g.links.insert l.id l).keys at hk
    obtain ⟨m, hm⟩ := Assoc.mem_keys_iff.1 hk
    rw [Assoc.get?_insert] at hm
    split at hm
    · next h =>
      rw [h]
      exact Nat.min_le_left ..
    · exact Nat.le_trans (hg.link k (Assoc.mem_keys_of_get? hm)) hnext
  exact (ha.modifyNode l.origin _).modifyNode l.target _

theorem sound_empty (r : Registry B) (settings : Settings) : (Graph.empty r settings).Sound r := by
  have hn : (Graph.empty r settings).nodes.keys = [] := rfl
  have hl : (Graph.empty r settings).links.keys = [] := rfl
  have hc : (Graph.empty r settings).Counted := by
    refine ⟨fun id hid => ?_, fun k hk => ?_, Nat.le_refl 1, Nat.le_refl 1⟩
    · rw [hn] at hid
      cases hid
    · rw [hl] at hk
      cases hk
  exact Consistent.sound (a := 1) (b := 1) (consistent_of_empty rfl rfl) hc rfl

/-- Being sound is kept up by edits. -/
theorem upkeep_sound (r : Registry B) : Upkeep (Sound r) where
  joined h := h.toJoined
  wiring h hg := hg.of_wiring h
  dropLink hg hl := by
    obtain ⟨a, b, hc, -⟩ := hg.consistent
    exact Consistent.sound (a := a) (b := b) (consistent_dropLink hc hl) (hg.counted.dropLink _ _)
      hg.registry
  addLink {g l} hg hbelow hl := by
    obtain ⟨a, b, -, hc⟩ := hg.consistent
    have hfits : (g.recount a g.nextLink).Fits l := ⟨hl.next, hl.apart, hl.source, hl.free⟩
    exact Consistent.sound (a := a) (b := l.id.number + 1) (consistent_addLink (hc hbelow) hfits)
      (hg.counted.addLink hl.next) hg.registry
  newInput hg id name type := by
    obtain ⟨a, b, hc, -⟩ := hg.consistent
    exact Consistent.sound (a := a) (b := b) (consistent_addInput hc id name type)
      (hg.counted.modifyNode id _) hg.registry
  newOutput hg id name type := by
    obtain ⟨a, b, hc, -⟩ := hg.consistent
    exact Consistent.sound (a := a) (b := b) (consistent_addOutput hc id name type)
      (hg.counted.modifyNode id _) hg.registry
  eraseInput {g id slot} hg hfree := by
    obtain ⟨a, b, hc, -⟩ := hg.consistent
    have he : ((g.recount a b).eraseInput id slot).Consistent := consistent_eraseInput hc hfree
    rw [recount_eraseInput] at he
    exact he.sound (hg.counted.eraseInput id slot) ((registry_eraseInput ..).trans hg.registry)
  eraseOutput {g id slot} hg hfree := by
    obtain ⟨a, b, hc, -⟩ := hg.consistent
    have he : ((g.recount a b).eraseOutput id slot).Consistent := consistent_eraseOutput hc hfree
    rw [recount_eraseOutput] at he
    exact he.sound (hg.counted.eraseOutput id slot) ((registry_eraseOutput ..).trans hg.registry)
  eraseNode hg hin hout := by
    obtain ⟨a, b, hc, -⟩ := hg.consistent
    exact Consistent.sound (a := a) (b := b) (consistent_eraseNode hc hin hout)
      (hg.counted.mono (fun _ hid => Assoc.mem_keys_of_erase hid) (fun _ hk => hk) (Nat.le_refl _)
        (Nat.le_refl _)) hg.registry
  reset {g} hg version batchDepth := by
    have he := sound_empty g.registry g.settings
    have hr : Sound g.registry
        { Graph.empty g.registry g.settings with version, batchDepth } := by
      refine he.of_wiring ?_
      rfl
    rw [hg.registry] at hr ⊢
    exact hr

/-! ## New nodes -/

theorem claimNode_counts (g : Graph B) (requested : Option NodeId) :
    afterId (g.claimNode requested).1.number ≤ (g.claimNode requested).2 ∧
      g.nextNode ≤ (g.claimNode requested).2 := by
  have hfree : g.nextNode ≤ freeNodeFrom g.nodes g.nodes.size g.nextNode := by
    rw [freeNodeFrom_eq]
    exact le_firstFree ..
  unfold claimNode
  cases requested with
  | none => exact ⟨Nat.min_le_left .., Nat.le_trans hfree (Nat.le_succ _)⟩
  | some id =>
    simp only
    split
    · exact ⟨Nat.min_le_left .., Nat.le_trans hfree (Nat.le_succ _)⟩
    · exact ⟨Nat.le_max_right .., Nat.le_max_left ..⟩

/-- A node that names no links can be added, whatever identity it asks for. -/
theorem Sound.place (hg : g.Sound r) {n : Node B} (hi : ∀ s ∈ n.inputs, s.link = none)
    (ho : ∀ s ∈ n.outputs, s.links = []) (hfree : (g.claimNode n.id).1 ∉ g.nodes.keys) :
    (g.place n (g.claimNode n.id).1 (g.claimNode n.id).2).Sound r := by
  obtain ⟨hafter, hnext⟩ := g.claimNode_counts n.id
  obtain ⟨p, hp⟩ := place_eq g n (g.claimNode n.id).1 (g.claimNode n.id).2
  obtain ⟨a, b, hc, -⟩ := hg.consistent
  generalize (g.claimNode n.id).1 = id at hfree hafter hp ⊢
  generalize (g.claimNode n.id).2 = next at hafter hnext hp ⊢
  let m : Node B := { n with id := some id, pos := p }
  let g' : Graph B := { g with nodes := g.nodes.insert id m, nextNode := next }
  have hins : (g'.recount (max a (id.number + 1)) b).Consistent :=
    consistent_insertNode hc (n := m) hi ho rfl ((Assoc.get?_eq_none_iff ..).2 hfree)
      (Nat.lt_of_lt_of_le (Nat.lt_succ_self _) (Nat.le_max_right ..)) (Nat.le_max_left ..)
  have hcount : g'.Counted := by
    refine ⟨fun i hi => ?_, hg.counted.link, Nat.le_trans hg.counted.nodeStart hnext, hg.counted.linkStart⟩
    change i ∈ (g.nodes.insert id m).keys at hi
    rw [Assoc.keys_insert, if_neg hfree] at hi
    rcases List.mem_append.1 hi with hi | hi
    · exact Nat.le_trans (hg.counted.node i hi) hnext
    · exact List.mem_singleton.1 hi ▸ hafter
  have hs : g'.Sound r := hins.sound hcount hg.registry
  rw [hp]
  refine hs.of_wiring ?_
  rfl

end Graph

end Dataflow
