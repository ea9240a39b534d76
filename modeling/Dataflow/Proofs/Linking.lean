/-
  Making and breaking links keeps a graph consistent.

  Breaking a link takes it out of all four claims; since slots and links agreed before, a slot
  elsewhere cannot have named it.  Making a link adds it to all four; since its number is new and
  its input is free, nothing else is touched.  The operations on sessions are built from these
  two steps.
-/

import Dataflow.Proofs.Slots

namespace Dataflow

variable {B σ : Type}

namespace Graph

/-! ## Breaking a link -/

theorem get?_links_dropLink (g : Graph B) (k : LinkId) (l : Link) (k' : LinkId) :
    (g.dropLink k l).links.get? k' = if k' = k then none else g.links.get? k' :=
  Assoc.get?_erase ..

theorem input?_dropLink (g : Graph B) (k : LinkId) (l : Link) (id : NodeId) (slot : Nat) :
    (g.dropLink k l).input? id slot = (g.input? id slot).map fun s =>
      if id = l.target ∧ slot = l.targetSlot then
        if s.link = some k then { s with link := none } else s
      else s := by
  show (Graph.modifyNode _ _ _).input? id slot = _
  rw [input?_modifyOutput, input?_modifyInput]
  rfl

theorem output?_dropLink (g : Graph B) (k : LinkId) (l : Link) (id : NodeId) (slot : Nat) :
    (g.dropLink k l).output? id slot = (g.output? id slot).map fun s =>
      if id = l.origin ∧ slot = l.originSlot then
        { s with links := s.links.filter (· ≠ k) }
      else s := by
  show (Graph.modifyNode _ _ _).output? id slot = _
  rw [output?_modifyOutput, output?_modifyInput]
  rfl

section Drop

variable {g : Graph B} {k : LinkId} {l : Link}

theorem holds_dropLink (hg : g.Joined) (hl : g.links.get? k = some l) (id : NodeId) (slot : Nat)
    (k' : LinkId) : (g.dropLink k l).Holds id slot k' ↔ k' ≠ k ∧ g.Holds id slot k' := by
  unfold Holds
  simp only [input?_dropLink, Option.map_eq_some_iff]
  constructor
  · rintro ⟨_, ⟨s, hs, rfl⟩, hk⟩
    by_cases hp : id = l.target ∧ slot = l.targetSlot
    · rw [if_pos hp] at hk
      by_cases hsk : s.link = some k
      · rw [if_pos hsk] at hk
        cases hk
      · rw [if_neg hsk] at hk
        exact ⟨fun h => hsk (h ▸ hk), s, hs, hk⟩
    · rw [if_neg hp] at hk
      refine ⟨?_, s, hs, hk⟩
      -- a slot elsewhere that named the link would be the target of the link
      rintro rfl
      obtain ⟨l', hl', ht, hts⟩ := hg.of_input hs hk
      have he : l = l' := Option.some.inj (hl.symm.trans hl')
      exact hp ⟨he ▸ ht.symm, he ▸ hts.symm⟩
  · rintro ⟨hne, s, hs, hk⟩
    refine ⟨_, ⟨s, hs, rfl⟩, ?_⟩
    have hsk : s.link ≠ some k := fun h => hne (Option.some.inj (hk.symm.trans h))
    rw [if_neg hsk, ite_self]
    exact hk

theorem lists_dropLink (hg : g.Joined) (hl : g.links.get? k = some l) (id : NodeId) (slot : Nat)
    (k' : LinkId) : (g.dropLink k l).Lists id slot k' ↔ k' ≠ k ∧ g.Lists id slot k' := by
  unfold Lists
  simp only [output?_dropLink, Option.map_eq_some_iff]
  constructor
  · rintro ⟨_, ⟨s, hs, rfl⟩, hk⟩
    by_cases hp : id = l.origin ∧ slot = l.originSlot
    · rw [if_pos hp] at hk
      obtain ⟨hm, hne⟩ := List.mem_filter.1 hk
      exact ⟨of_decide_eq_true hne, s, hs, hm⟩
    · rw [if_neg hp] at hk
      refine ⟨?_, s, hs, hk⟩
      rintro rfl
      obtain ⟨l', hl', ho, hos⟩ := hg.of_output hs hk
      have he : l = l' := Option.some.inj (hl.symm.trans hl')
      exact hp ⟨he ▸ ho.symm, he ▸ hos.symm⟩
  · rintro ⟨hne, s, hs, hk⟩
    refine ⟨_, ⟨s, hs, rfl⟩, ?_⟩
    split
    · exact List.mem_filter.2 ⟨hk, decide_eq_true hne⟩
    · exact hk

theorem arrives_dropLink (g : Graph B) (k : LinkId) (l : Link) (k' : LinkId) (id : NodeId)
    (slot : Nat) : (g.dropLink k l).Arrives k' id slot ↔ k' ≠ k ∧ g.Arrives k' id slot := by
  unfold Arrives
  rw [get?_links_dropLink]
  by_cases h : k' = k
  · simp [h]
  · simp [h]

theorem leaves_dropLink (g : Graph B) (k : LinkId) (l : Link) (k' : LinkId) (id : NodeId)
    (slot : Nat) : (g.dropLink k l).Leaves k' id slot ↔ k' ≠ k ∧ g.Leaves k' id slot := by
  unfold Leaves
  rw [get?_links_dropLink]
  by_cases h : k' = k
  · simp [h]
  · simp [h]

theorem get?_nodes_dropLink (g : Graph B) (k : LinkId) (l : Link) {id : NodeId} {n : Node B}
    (h : (g.dropLink k l).nodes.get? id = some n) :
    ∃ n', g.nodes.get? id = some n' ∧ n.id = n'.id := by
  unfold dropLink at h
  obtain ⟨m, hm, he⟩ := node_of_modifyNode (by intro m; rfl) h
  obtain ⟨m', hm', he'⟩ := node_of_modifyNode (by intro m; rfl) hm
  exact ⟨m', hm', he.trans he'⟩

theorem joined_dropLink (hg : g.Joined) (hl : g.links.get? k = some l) :
    (g.dropLink k l).Joined where
  apart k' l' hl' := by
    rw [get?_links_dropLink] at hl'
    split at hl'
    · cases hl'
    · exact hg.apart k' l' hl'
  inputs id slot k' := by rw [holds_dropLink hg hl, arrives_dropLink, hg.inputs]
  outputs id slot k' := by rw [lists_dropLink hg hl, leaves_dropLink, hg.outputs]

theorem consistent_dropLink (hg : g.Consistent) (hl : g.links.get? k = some l) :
    (g.dropLink k l).Consistent where
  toJoined := joined_dropLink hg.toJoined hl
  once id slot s hs := by
    rw [output?_dropLink] at hs
    obtain ⟨s', hs', rfl⟩ := Option.map_eq_some_iff.1 hs
    have hn := hg.once id slot s' hs'
    split
    · exact hn.filter _
    · exact hn
  nodeOwn id n hn := by
    obtain ⟨n', hn', he⟩ := get?_nodes_dropLink g k l hn
    exact he.trans (hg.nodeOwn id n' hn')
  linkOwn k' l' hl' := by
    rw [get?_links_dropLink] at hl'
    split at hl'
    · cases hl'
    · exact hg.linkOwn k' l' hl'
  nodeBelow id n hn := by
    obtain ⟨n', hn', -⟩ := get?_nodes_dropLink g k l hn
    exact hg.nodeBelow id n' hn'
  linkBelow k' l' hl' := by
    rw [get?_links_dropLink] at hl'
    split at hl'
    · cases hl'
    · exact hg.linkBelow k' l' hl'

end Drop

/-! ## Making a link -/

/-- A link can be made: its slots exist on different nodes, its input is free, and its number is
the next one. -/
structure Fits (g : Graph B) (l : Link) : Prop where
  next : l.id = ⟨g.nextLink⟩
  apart : l.origin ≠ l.target
  source : (g.output? l.origin l.originSlot).isSome
  free : (g.input? l.target l.targetSlot).map Input.link = some none

theorem get?_links_addLink (g : Graph B) (l : Link) (k : LinkId) :
    (g.addLink l).links.get? k = if k = l.id then some l else g.links.get? k :=
  Assoc.get?_insert ..

theorem input?_addLink (g : Graph B) (l : Link) (id : NodeId) (slot : Nat) :
    (g.addLink l).input? id slot = (g.input? id slot).map fun s =>
      if id = l.target ∧ slot = l.targetSlot then { s with link := some l.id } else s := by
  show (Graph.modifyNode _ _ _).input? id slot = _
  rw [input?_modifyInput, input?_modifyOutput]
  rfl

theorem output?_addLink (g : Graph B) (l : Link) (id : NodeId) (slot : Nat) :
    (g.addLink l).output? id slot = (g.output? id slot).map fun s =>
      if id = l.origin ∧ slot = l.originSlot then { s with links := s.links ++ [l.id] } else s := by
  show (Graph.modifyNode _ _ _).output? id slot = _
  rw [output?_modifyInput, output?_modifyOutput]
  rfl

section Add

variable {g : Graph B} {l : Link}

/-- The next number is not in use. -/
theorem Fits.fresh (hl : g.Fits l) (hg : g.Consistent) : g.links.get? l.id = none := by
  cases h : g.links.get? l.id with
  | none => rfl
  | some l' =>
    have hlt := hg.linkBelow l.id l' h
    rw [hl.next] at hlt
    exact absurd hlt (Nat.lt_irrefl _)

theorem holds_addLink (hl : g.Fits l) (id : NodeId) (slot : Nat) (k : LinkId) :
    (g.addLink l).Holds id slot k ↔
      (k = l.id ∧ l.target = id ∧ l.targetSlot = slot) ∨ g.Holds id slot k := by
  obtain ⟨s0, hs0, hfree⟩ := Option.map_eq_some_iff.1 hl.free
  unfold Holds
  simp only [input?_addLink, Option.map_eq_some_iff]
  constructor
  · rintro ⟨_, ⟨s, hs, rfl⟩, hk⟩
    by_cases hp : id = l.target ∧ slot = l.targetSlot
    · rw [if_pos hp] at hk
      exact .inl ⟨(Option.some.inj hk).symm, hp.1.symm, hp.2.symm⟩
    · rw [if_neg hp] at hk
      exact .inr ⟨s, hs, hk⟩
  · rintro (⟨rfl, rfl, rfl⟩ | ⟨s, hs, hk⟩)
    · exact ⟨_, ⟨s0, hs0, rfl⟩, by rw [if_pos ⟨rfl, rfl⟩]⟩
    · refine ⟨_, ⟨s, hs, rfl⟩, ?_⟩
      -- the input that the link is made to was free, so this is another one
      have hp : ¬(id = l.target ∧ slot = l.targetSlot) := by
        rintro ⟨rfl, rfl⟩
        rw [hs0] at hs
        cases hs
        rw [hfree] at hk
        cases hk
      rw [if_neg hp]
      exact hk

theorem lists_addLink (hl : g.Fits l) (id : NodeId) (slot : Nat) (k : LinkId) :
    (g.addLink l).Lists id slot k ↔
      (k = l.id ∧ l.origin = id ∧ l.originSlot = slot) ∨ g.Lists id slot k := by
  obtain ⟨s0, hs0⟩ := Option.isSome_iff_exists.1 hl.source
  unfold Lists
  simp only [output?_addLink, Option.map_eq_some_iff]
  constructor
  · rintro ⟨_, ⟨s, hs, rfl⟩, hk⟩
    by_cases hp : id = l.origin ∧ slot = l.originSlot
    · rw [if_pos hp] at hk
      rcases List.mem_append.1 hk with hm | hm
      · exact .inr ⟨s, hs, hm⟩
      · exact .inl ⟨List.mem_singleton.1 hm, hp.1.symm, hp.2.symm⟩
    · rw [if_neg hp] at hk
      exact .inr ⟨s, hs, hk⟩
  · rintro (⟨rfl, rfl, rfl⟩ | ⟨s, hs, hk⟩)
    · refine ⟨_, ⟨s0, hs0, rfl⟩, ?_⟩
      rw [if_pos ⟨rfl, rfl⟩]
      exact List.mem_append_right _ (List.mem_singleton.2 rfl)
    · refine ⟨_, ⟨s, hs, rfl⟩, ?_⟩
      split
      · exact List.mem_append_left _ hk
      · exact hk

theorem arrives_addLink (hnew : g.links.get? l.id = none) (k : LinkId) (id : NodeId) (slot : Nat) :
    (g.addLink l).Arrives k id slot ↔
      (k = l.id ∧ l.target = id ∧ l.targetSlot = slot) ∨ g.Arrives k id slot := by
  unfold Arrives
  rw [get?_links_addLink]
  by_cases h : k = l.id
  · simp [h, hnew]
  · simp [h]

theorem leaves_addLink (hnew : g.links.get? l.id = none) (k : LinkId) (id : NodeId) (slot : Nat) :
    (g.addLink l).Leaves k id slot ↔
      (k = l.id ∧ l.origin = id ∧ l.originSlot = slot) ∨ g.Leaves k id slot := by
  unfold Leaves
  rw [get?_links_addLink]
  by_cases h : k = l.id
  · simp [h, hnew]
  · simp [h]

theorem get?_nodes_addLink (g : Graph B) (l : Link) {id : NodeId} {n : Node B}
    (h : (g.addLink l).nodes.get? id = some n) : ∃ n', g.nodes.get? id = some n' ∧ n.id = n'.id := by
  unfold addLink at h
  obtain ⟨m, hm, he⟩ := node_of_modifyNode (by intro m; rfl) h
  obtain ⟨m', hm', he'⟩ := node_of_modifyNode (by intro m; rfl) hm
  exact ⟨m', hm', he.trans he'⟩

theorem consistent_addLink (hg : g.Consistent) (hl : g.Fits l) : (g.addLink l).Consistent where
  apart k l' hl' := by
    rw [get?_links_addLink] at hl'
    split at hl'
    · exact Option.some.inj hl' ▸ hl.apart
    · exact hg.apart k l' hl'
  inputs id slot k := by
    rw [holds_addLink hl, arrives_addLink (hl.fresh hg), hg.inputs]
  outputs id slot k := by
    rw [lists_addLink hl, leaves_addLink (hl.fresh hg), hg.outputs]
  once id slot s hs := by
    rw [output?_addLink] at hs
    obtain ⟨s', hs', rfl⟩ := Option.map_eq_some_iff.1 hs
    have hn := hg.once id slot s' hs'
    split
    · -- a link that an output lists exists, and the new one did not
      have hnew : l.id ∉ s'.links := by
        intro hm
        obtain ⟨l', hl', -⟩ := hg.of_output hs' hm
        rw [hl.fresh hg] at hl'
        cases hl'
      exact List.nodup_append.2 ⟨hn, List.pairwise_singleton .., by
        intro a ha b hb hab
        rw [List.mem_singleton.1 hb] at hab
        exact hnew (hab ▸ ha)⟩
    · exact hn
  nodeOwn id n hn := by
    obtain ⟨n', hn', he⟩ := get?_nodes_addLink g l hn
    exact he.trans (hg.nodeOwn id n' hn')
  linkOwn k l' hl' := by
    rw [get?_links_addLink] at hl'
    split at hl'
    · next hk => rw [← Option.some.inj hl', hk]
    · exact hg.linkOwn k l' hl'
  nodeBelow id n hn := by
    obtain ⟨n', hn', -⟩ := get?_nodes_addLink g l hn
    exact hg.nodeBelow id n' hn'
  linkBelow k l' hl' := by
    rw [get?_links_addLink] at hl'
    show k.number < l.id.number + 1
    split at hl'
    · next hk =>
      rw [hk]
      exact Nat.lt_succ_self _
    · have hlt := hg.linkBelow k l' hl'
      rw [hl.next]
      exact Nat.lt_succ_of_lt hlt

end Add

end Graph

end Dataflow
