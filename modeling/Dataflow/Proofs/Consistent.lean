/-
  When slots and links agree.

  A link is recorded three times: in the link map, in the input it feeds and in the output it
  leaves.  `Holds` and `Lists` say what the slots claim, `Arrives` and `Leaves` what the link map
  claims.  A graph is `Joined` when the claims are the same and no link goes from a node to
  itself.  Both sides speak about existing slots only, so in a joined graph every link has an
  existing slot at both ends, and no slot names a link that is not there.

  A graph is `Consistent` when moreover no output names a link twice, nodes and links are stored
  under their own identities, and the counters are above all identities in use.

  All of it depends on the wiring of the graph only (`Consistent.of_wiring`).
-/

import Dataflow.Proofs.Frame

namespace Dataflow

variable {B : Type}

namespace Graph

/-! ## What slots and links claim -/

/-- An input of a node names a link. -/
def Holds (g : Graph B) (id : NodeId) (slot : Nat) (k : LinkId) : Prop :=
  ∃ s, g.input? id slot = some s ∧ s.link = some k

/-- An output of a node names a link. -/
def Lists (g : Graph B) (id : NodeId) (slot : Nat) (k : LinkId) : Prop :=
  ∃ s, g.output? id slot = some s ∧ k ∈ s.links

/-- A link exists and has its target at a slot. -/
def Arrives (g : Graph B) (k : LinkId) (id : NodeId) (slot : Nat) : Prop :=
  ∃ l, g.links.get? k = some l ∧ l.target = id ∧ l.targetSlot = slot

/-- A link exists and has its origin at a slot. -/
def Leaves (g : Graph B) (k : LinkId) (id : NodeId) (slot : Nat) : Prop :=
  ∃ l, g.links.get? k = some l ∧ l.origin = id ∧ l.originSlot = slot

/-- Slots and links claim the same, and every link joins two different nodes. -/
structure Joined (g : Graph B) : Prop where
  apart : ∀ k l, g.links.get? k = some l → l.origin ≠ l.target
  inputs : ∀ id slot k, g.Holds id slot k ↔ g.Arrives k id slot
  outputs : ∀ id slot k, g.Lists id slot k ↔ g.Leaves k id slot

/-- Slots and links agree, outputs name links once, and identities are in order. -/
structure Consistent (g : Graph B) : Prop extends Joined g where
  once : ∀ id slot s, g.output? id slot = some s → s.links.Nodup
  nodeOwn : ∀ id n, g.nodes.get? id = some n → n.id = some id
  linkOwn : ∀ k l, g.links.get? k = some l → l.id = k
  nodeBelow : ∀ id n, g.nodes.get? id = some n → id.number < g.nextNode
  linkBelow : ∀ k l, g.links.get? k = some l → k.number < g.nextLink

/-! ## Links of a joined graph -/

theorem Joined.target_exists {g : Graph B} (hg : g.Joined) {k : LinkId} {l : Link}
    (h : g.links.get? k = some l) : ∃ s, g.input? l.target l.targetSlot = some s ∧ s.link = some k :=
  (hg.inputs _ _ _).2 ⟨l, h, rfl, rfl⟩

theorem Joined.origin_exists {g : Graph B} (hg : g.Joined) {k : LinkId} {l : Link}
    (h : g.links.get? k = some l) : ∃ s, g.output? l.origin l.originSlot = some s ∧ k ∈ s.links :=
  (hg.outputs _ _ _).2 ⟨l, h, rfl, rfl⟩

theorem Joined.of_input {g : Graph B} (hg : g.Joined) {id : NodeId} {slot : Nat} {s : Input}
    {k : LinkId} (h : g.input? id slot = some s) (hk : s.link = some k) :
    ∃ l, g.links.get? k = some l ∧ l.target = id ∧ l.targetSlot = slot :=
  (hg.inputs _ _ _).1 ⟨s, h, hk⟩

theorem Joined.of_output {g : Graph B} (hg : g.Joined) {id : NodeId} {slot : Nat} {s : Output}
    {k : LinkId} (h : g.output? id slot = some s) (hk : k ∈ s.links) :
    ∃ l, g.links.get? k = some l ∧ l.origin = id ∧ l.originSlot = slot :=
  (hg.outputs _ _ _).1 ⟨s, h, hk⟩

theorem node_of_input {g : Graph B} {id : NodeId} {slot : Nat} {s : Input}
    (h : g.input? id slot = some s) : ∃ n, g.nodes.get? id = some n ∧ n.inputs[slot]? = some s :=
  Option.bind_eq_some_iff.1 h

theorem node_of_output {g : Graph B} {id : NodeId} {slot : Nat} {s : Output}
    (h : g.output? id slot = some s) : ∃ n, g.nodes.get? id = some n ∧ n.outputs[slot]? = some s :=
  Option.bind_eq_some_iff.1 h

theorem input_of_node {g : Graph B} {id : NodeId} {n : Node B} (h : g.nodes.get? id = some n)
    (slot : Nat) : g.input? id slot = n.inputs[slot]? := by
  show (g.nodes.get? id).bind _ = _
  rw [h]
  rfl

theorem output_of_node {g : Graph B} {id : NodeId} {n : Node B} (h : g.nodes.get? id = some n)
    (slot : Nat) : g.output? id slot = n.outputs[slot]? := by
  show (g.nodes.get? id).bind _ = _
  rw [h]
  rfl

/-- No link is named by two inputs of a node: it has one target slot only. -/
theorem Joined.nodup_named {g : Graph B} (hg : g.Joined) {id : NodeId} {n : Node B}
    (hn : g.nodes.get? id = some n) : (n.inputs.filterMap Input.link).Nodup := by
  rw [List.Nodup, List.pairwise_filterMap, List.pairwise_iff_getElem]
  intro i j hi hj hij k hk k' hk' he
  subst he
  have hsi := (input_of_node hn i).trans (List.getElem?_eq_getElem hi)
  have hsj := (input_of_node hn j).trans (List.getElem?_eq_getElem hj)
  obtain ⟨l, hl, -, hts⟩ := hg.of_input hsi hk
  obtain ⟨l', hl', -, hts'⟩ := hg.of_input hsj hk'
  cases Option.some.inj (hl.symm.trans hl')
  omega

/-! ## Slots and links as seen in the wiring -/

theorem feed_eq (g : Graph B) (id : NodeId) (slot : Nat) :
    (g.input? id slot).map Input.link =
      (g.wiring.nodes.get? id).bind fun p => p.inputs[slot]? := by
  show ((g.nodes.get? id).bind _).map _ = ((g.nodes.mapValues fun _ n => n.pins).get? id).bind _
  rw [Assoc.get?_mapValues]
  cases g.nodes.get? id with
  | none => rfl
  | some n => exact List.getElem?_map.symm

theorem fan_eq (g : Graph B) (id : NodeId) (slot : Nat) :
    (g.output? id slot).map Output.links =
      (g.wiring.nodes.get? id).bind fun p => p.outputs[slot]? := by
  show ((g.nodes.get? id).bind _).map _ = ((g.nodes.mapValues fun _ n => n.pins).get? id).bind _
  rw [Assoc.get?_mapValues]
  cases g.nodes.get? id with
  | none => rfl
  | some n => exact List.getElem?_map.symm

theorem get?_wiring_links (g : Graph B) (k : LinkId) :
    g.wiring.links.get? k = (g.links.get? k).map Link.ends := Assoc.get?_mapValues ..

theorem get?_wiring_nodes (g : Graph B) (id : NodeId) :
    g.wiring.nodes.get? id = (g.nodes.get? id).map Node.pins := Assoc.get?_mapValues ..

theorem holds_iff (g : Graph B) (id : NodeId) (slot : Nat) (k : LinkId) :
    g.Holds id slot k ↔ (g.input? id slot).map Input.link = some (some k) :=
  Option.map_eq_some_iff.symm

theorem lists_iff (g : Graph B) (id : NodeId) (slot : Nat) (k : LinkId) :
    g.Lists id slot k ↔ ∃ ks, (g.output? id slot).map Output.links = some ks ∧ k ∈ ks := by
  constructor
  · rintro ⟨s, hs, hk⟩
    exact ⟨s.links, by rw [hs]; rfl, hk⟩
  · rintro ⟨ks, hks, hk⟩
    obtain ⟨s, hs, rfl⟩ := Option.map_eq_some_iff.1 hks
    exact ⟨s, hs, hk⟩

section Transfer

variable {g g' : Graph B}

theorem feed_of_wiring (h : g'.wiring = g.wiring) (id : NodeId) (slot : Nat) :
    (g'.input? id slot).map Input.link = (g.input? id slot).map Input.link := by
  rw [feed_eq, feed_eq, h]

theorem fan_of_wiring (h : g'.wiring = g.wiring) (id : NodeId) (slot : Nat) :
    (g'.output? id slot).map Output.links = (g.output? id slot).map Output.links := by
  rw [fan_eq, fan_eq, h]

/-- Under one wiring, a link of one graph is a link of the other with the same ends. -/
theorem link_of_wiring (h : g'.wiring = g.wiring) {k : LinkId} {l : Link}
    (hl : g'.links.get? k = some l) : ∃ l', g.links.get? k = some l' ∧ l'.ends = l.ends := by
  have hk := get?_wiring_links g' k
  rw [h, get?_wiring_links, hl] at hk
  exact Option.map_eq_some_iff.1 hk

theorem node_of_wiring (h : g'.wiring = g.wiring) {id : NodeId} {n : Node B}
    (hn : g'.nodes.get? id = some n) : ∃ n', g.nodes.get? id = some n' ∧ n'.pins = n.pins := by
  have hk := get?_wiring_nodes g' id
  rw [h, get?_wiring_nodes, hn] at hk
  exact Option.map_eq_some_iff.1 hk

theorem arrives_of_wiring (h : g'.wiring = g.wiring) {k : LinkId} {id : NodeId} {slot : Nat}
    (ha : g'.Arrives k id slot) : g.Arrives k id slot := by
  obtain ⟨l, hl, rfl, rfl⟩ := ha
  obtain ⟨l', hl', he⟩ := link_of_wiring h hl
  exact ⟨l', hl', congrArg Ends.target he, congrArg Ends.targetSlot he⟩

theorem leaves_of_wiring (h : g'.wiring = g.wiring) {k : LinkId} {id : NodeId} {slot : Nat}
    (ha : g'.Leaves k id slot) : g.Leaves k id slot := by
  obtain ⟨l, hl, rfl, rfl⟩ := ha
  obtain ⟨l', hl', he⟩ := link_of_wiring h hl
  exact ⟨l', hl', congrArg Ends.origin he, congrArg Ends.originSlot he⟩

theorem Joined.of_wiring (h : g'.wiring = g.wiring) (hg : g.Joined) : g'.Joined where
  apart k l hl := by
    obtain ⟨l', hl', he⟩ := link_of_wiring h hl
    have ho : l'.origin = l.origin := congrArg Ends.origin he
    have ht : l'.target = l.target := congrArg Ends.target he
    exact ho ▸ ht ▸ hg.apart k l' hl'
  inputs id slot k := by
    rw [holds_iff, feed_of_wiring h, ← holds_iff, hg.inputs]
    exact ⟨arrives_of_wiring h.symm, arrives_of_wiring h⟩
  outputs id slot k := by
    rw [lists_iff, fan_of_wiring h, ← lists_iff, hg.outputs]
    exact ⟨leaves_of_wiring h.symm, leaves_of_wiring h⟩

theorem Consistent.of_wiring (h : g'.wiring = g.wiring) (hg : g.Consistent) : g'.Consistent where
  toJoined := hg.toJoined.of_wiring h
  once id slot s hs := by
    have hf := fan_of_wiring h id slot
    rw [hs] at hf
    obtain ⟨s', hs', he⟩ := Option.map_eq_some_iff.1 hf.symm
    exact he ▸ hg.once id slot s' hs'
  nodeOwn id n hn := by
    obtain ⟨n', hn', hp⟩ := node_of_wiring h hn
    exact (congrArg Pins.id hp).symm.trans (hg.nodeOwn id n' hn')
  linkOwn k l hl := by
    obtain ⟨l', hl', he⟩ := link_of_wiring h hl
    exact (congrArg Ends.id he).symm.trans (hg.linkOwn k l' hl')
  nodeBelow id n hn := by
    obtain ⟨n', hn', -⟩ := node_of_wiring h hn
    have hc : g'.nextNode = g.nextNode := congrArg Wiring.nextNode h
    exact hc ▸ hg.nodeBelow id n' hn'
  linkBelow k l hl := by
    obtain ⟨l', hl', -⟩ := link_of_wiring h hl
    have hc : g'.nextLink = g.nextLink := congrArg Wiring.nextLink h
    exact hc ▸ hg.linkBelow k l' hl'

end Transfer

/-- A consistent graph over given types of nodes. -/
def Tidy (r : Registry B) (g : Graph B) : Prop := g.Consistent ∧ g.registry = r

theorem Tidy.of_wiring {r : Registry B} {g g' : Graph B} (h : g'.wiring = g.wiring)
    (hg : g.Tidy r) : g'.Tidy r := ⟨hg.1.of_wiring h, (registry_of_wiring h).trans hg.2⟩

theorem Tidy.of_skeleton {r : Registry B} {g g' : Graph B} (h : g'.skeleton = g.skeleton)
    (hg : g.Tidy r) : g'.Tidy r := hg.of_wiring (wiring_of_skeleton h)

end Graph

end Dataflow
