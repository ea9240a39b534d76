/-
  Adding and removing slots and nodes keeps a graph consistent.

  A new slot names no link.  A removed slot is disconnected first; the slots behind it move down
  by one, and so do the ends of the links there, each exactly once, because no link is named by
  two slots.  A removed node is disconnected first as well, so that no link misses it.
-/

import Mathlib.Data.List.Flatten
import Mathlib.Data.List.Nodup
import Dataflow.Proofs.Disconnecting

namespace Dataflow

variable {B σ : Type}

namespace Graph

/-! ## The same links and nodes, perhaps at other slots -/

theorem Consistent.rebuild {g g' : Graph B} (hg : g.Consistent)
    (hlink : ∀ k l, g'.links.get? k = some l → ∃ l', g.links.get? k = some l' ∧ l.id = l'.id ∧
      l.origin = l'.origin ∧ l.target = l'.target)
    (hin : ∀ id slot k, g'.Holds id slot k ↔ g'.Arrives k id slot)
    (hout : ∀ id slot k, g'.Lists id slot k ↔ g'.Leaves k id slot)
    (once : ∀ id slot s, g'.output? id slot = some s → s.links.Nodup)
    (hnode : ∀ id n, g'.nodes.get? id = some n → ∃ m, g.nodes.get? id = some m ∧ n.id = m.id)
    (hnextNode : g'.nextNode = g.nextNode) (hnextLink : g'.nextLink = g.nextLink) :
    g'.Consistent where
  apart k l hl := by
    obtain ⟨l', hl', -, ho, ht⟩ := hlink k l hl
    rw [ho, ht]
    exact hg.apart k l' hl'
  inputs := hin
  outputs := hout
  once := once
  nodeOwn id n hn := by
    obtain ⟨m, hm, he⟩ := hnode id n hn
    exact he.trans (hg.nodeOwn id m hm)
  linkOwn k l hl := by
    obtain ⟨l', hl', he, -, -⟩ := hlink k l hl
    exact he.trans (hg.linkOwn k l' hl')
  nodeBelow id n hn := by
    obtain ⟨m, hm, -⟩ := hnode id n hn
    exact hnextNode ▸ hg.nodeBelow id m hm
  linkBelow k l hl := by
    obtain ⟨l', hl', -⟩ := hlink k l hl
    exact hnextLink ▸ hg.linkBelow k l' hl'

theorem Consistent.of_claims {g g' : Graph B} (hg : g.Consistent) (hl : g'.links = g.links)
    (hin : ∀ id slot k, g'.Holds id slot k ↔ g.Holds id slot k)
    (hout : ∀ id slot k, g'.Lists id slot k ↔ g.Lists id slot k)
    (once : ∀ id slot s, g'.output? id slot = some s → s.links.Nodup)
    (hnode : ∀ id n, g'.nodes.get? id = some n → ∃ m, g.nodes.get? id = some m ∧ n.id = m.id)
    (hnextNode : g'.nextNode = g.nextNode) (hnextLink : g'.nextLink = g.nextLink) :
    g'.Consistent := by
  refine hg.rebuild ?_ ?_ ?_ once hnode hnextNode hnextLink
  · intro k l h
    exact ⟨l, hl ▸ h, rfl, rfl, rfl⟩
  · intro id slot k
    rw [hin, hg.inputs]
    unfold Arrives
    rw [hl]
  · intro id slot k
    rw [hout, hg.outputs]
    unfold Leaves
    rw [hl]

/-! ## New slots -/

/-- What stands at a place of a list with one more item stood there, or is that item. -/
theorem getElem?_concat_or {α : Type} (xs : List α) (x : α) (i : Nat) :
    (xs ++ [x])[i]? = xs[i]? ∨ (xs ++ [x])[i]? = some x ∧ xs[i]? = none := by
  rcases Nat.lt_trichotomy i xs.length with h | rfl | h
  · exact .inl (List.getElem?_append_left h)
  · exact .inr ⟨List.getElem?_concat_length, List.getElem?_eq_none (Nat.le_refl _)⟩
  · refine .inl ?_
    rw [List.getElem?_eq_none (Nat.le_of_lt h), List.getElem?_eq_none]
    rw [List.length_append, List.length_singleton]
    omega

/-- A part of a node after a change of one node that keeps the part or supplies it. -/
theorem bind_modifyNode_or {α : Type} {g : Graph B} {id : NodeId} {f : Node B → Node B}
    {part : Node B → Option α} {a : α}
    (h : ∀ n, part (f n) = part n ∨ part (f n) = some a ∧ part n = none) (id' : NodeId) :
    ((g.modifyNode id f).nodes.get? id').bind part = (g.nodes.get? id').bind part ∨
      ((g.modifyNode id f).nodes.get? id').bind part = some a ∧
        (g.nodes.get? id').bind part = none := by
  rw [get?_modifyNode]
  split
  · cases g.nodes.get? id' with
    | none => exact .inl rfl
    | some n => exact h n
  · exact .inl rfl

theorem input?_addInput (g : Graph B) (id : NodeId) (name : String) (type : SlotType)
    (id' : NodeId) (slot : Nat) :
    (g.modifyNode id (·.addInput name type)).input? id' slot = g.input? id' slot ∨
      (g.modifyNode id (·.addInput name type)).input? id' slot = some (.new name type) ∧
        g.input? id' slot = none :=
  bind_modifyNode_or (fun n => getElem?_concat_or n.inputs _ slot) id'

theorem output?_addOutput (g : Graph B) (id : NodeId) (name : String) (type : SlotType)
    (id' : NodeId) (slot : Nat) :
    (g.modifyNode id (·.addOutput name type)).output? id' slot = g.output? id' slot ∨
      (g.modifyNode id (·.addOutput name type)).output? id' slot = some (.new name type) ∧
        g.output? id' slot = none :=
  bind_modifyNode_or (fun n => getElem?_concat_or n.outputs _ slot) id'

theorem consistent_addInput {g : Graph B} (hg : g.Consistent) (id : NodeId) (name : String)
    (type : SlotType) : (g.modifyNode id (·.addInput name type)).Consistent := by
  have hout : ∀ id' slot, (g.modifyNode id (·.addInput name type)).output? id' slot =
      g.output? id' slot := output?_modifyNode fun _ => rfl
  apply hg.of_claims
  case hl =>
    rfl
  case hin =>
    intro id' slot k
    unfold Holds
    rcases input?_addInput g id name type id' slot with h | ⟨h, h'⟩
    · rw [h]
    · rw [h, h']
      constructor
      · rintro ⟨s, hs, hk⟩
        cases hs
        cases hk
      · rintro ⟨s, hs, -⟩
        cases hs
  case hout =>
    intro id' slot k
    unfold Lists
    rw [hout]
  case once =>
    intro id' slot s hs
    exact hg.once id' slot s (hout id' slot ▸ hs)
  case hnode =>
    intro id' n hn
    exact node_of_modifyNode (by intro m; rfl) hn
  case hnextNode =>
    rfl
  case hnextLink =>
    rfl

theorem consistent_addOutput {g : Graph B} (hg : g.Consistent) (id : NodeId) (name : String)
    (type : SlotType) : (g.modifyNode id (·.addOutput name type)).Consistent := by
  have hin : ∀ id' slot, (g.modifyNode id (·.addOutput name type)).input? id' slot =
      g.input? id' slot := input?_modifyNode fun _ => rfl
  apply hg.of_claims
  case hl =>
    rfl
  case hin =>
    intro id' slot k
    unfold Holds
    rw [hin]
  case hout =>
    intro id' slot k
    unfold Lists
    rcases output?_addOutput g id name type id' slot with h | ⟨h, h'⟩
    · rw [h]
    · rw [h, h']
      constructor
      · rintro ⟨s, hs, hk⟩
        cases hs
        cases hk
      · rintro ⟨s, hs, -⟩
        cases hs
  case once =>
    intro id' slot s hs
    rcases output?_addOutput g id name type id' slot with h | ⟨h, -⟩
    · exact hg.once id' slot s (h ▸ hs)
    · rw [h] at hs
      cases hs
      exact List.nodup_nil
  case hnode =>
    intro id' n hn
    exact node_of_modifyNode (by intro m; rfl) hn
  case hnextNode =>
    rfl
  case hnextLink =>
    rfl

/-! ## Links whose slots move down -/

theorem get?_links_modifyLinks {f : Link → Link} {ks : List LinkId} (hks : ks.Nodup) (g : Graph B)
    (k : LinkId) : (g.modifyLinks ks f).links.get? k =
      (g.links.get? k).map fun l => if k ∈ ks then f l else l := by
  induction ks generalizing g with
  | nil =>
    show g.links.get? k = _
    cases g.links.get? k <;> rfl
  | cons k' ks ih =>
    obtain ⟨hk', hks⟩ := List.nodup_cons.1 hks
    show ((g.modifyLink k' f).modifyLinks ks f).links.get? k = _
    rw [ih hks]
    show ((g.links.modify k' f).get? k).map _ = _
    rw [Assoc.get?_modify]
    by_cases h : k = k'
    · subst h
      rw [if_pos rfl]
      cases g.links.get? k with
      | none => rfl
      | some l => simp [hk']
    · rw [if_neg h]
      cases g.links.get? k with
      | none => rfl
      | some l => simp [h]

theorem counters_modifyLinks (f : Link → Link) (ks : List LinkId) (g : Graph B) :
    (g.modifyLinks ks f).nextNode = g.nextNode ∧ (g.modifyLinks ks f).nextLink = g.nextLink ∧
      (g.modifyLinks ks f).registry = g.registry := by
  rw [modifyLinks_eq]
  exact ⟨rfl, rfl, rfl⟩

/-- Where the slot that is at a place now was before the one at `gap` was removed. -/
def placeBefore (gap place : Nat) : Nat := if place < gap then place else place + 1

theorem getElem?_eraseIdx_placeBefore {α : Type} (l : List α) (gap i : Nat) :
    (l.eraseIdx gap)[i]? = l[placeBefore gap i]? := by
  rw [List.getElem?_eraseIdx]
  unfold placeBefore
  split <;> rfl

/-- Moving down behind the gap undoes `placeBefore`. -/
theorem moved_eq_iff {gap i j : Nat} (h : i ≠ gap) :
    (if gap < i then i - 1 else i) = j ↔ i = placeBefore gap j := by
  unfold placeBefore
  split <;> split <;> omega

/-! ## Removing an input -/

section EraseInput

variable {g : Graph B} {id : NodeId} {n : Node B}

/-- The links behind an input are those that arrive at a later one. -/
theorem mem_links_behind_input (hg : g.Joined) (hn : g.nodes.get? id = some n) (slot : Nat)
    {k : LinkId} {l : Link} (hl : g.links.get? k = some l) :
    k ∈ (n.inputs.drop (slot + 1)).filterMap Input.link ↔ l.target = id ∧ slot < l.targetSlot := by
  rw [List.mem_filterMap]
  constructor
  · rintro ⟨s, hs, hk⟩
    obtain ⟨i, hi⟩ := List.getElem?_of_mem hs
    rw [List.getElem?_drop] at hi
    obtain ⟨l', hl', ht, hts⟩ := hg.of_input ((input_of_node hn _).trans hi) hk
    cases Option.some.inj (hl.symm.trans hl')
    exact ⟨ht, by omega⟩
  · rintro ⟨ht, hts⟩
    obtain ⟨s, hs, hk⟩ := hg.target_exists hl
    rw [ht, input_of_node hn] at hs
    refine ⟨s, ?_, hk⟩
    apply @List.mem_of_getElem? _ _ (l.targetSlot - (slot + 1))
    rw [List.getElem?_drop, ← hs]
    congr 1
    omega

theorem nodup_links_behind_input (hg : g.Joined) (hn : g.nodes.get? id = some n) (slot : Nat) :
    ((n.inputs.drop (slot + 1)).filterMap Input.link).Nodup :=
  (hg.nodup_named hn).sublist ((List.drop_sublist _ _).filterMap _)

theorem get?_links_eraseInput (hg : g.Joined) (hn : g.nodes.get? id = some n) (slot : Nat)
    (k : LinkId) : (g.eraseInput id slot).links.get? k = (g.links.get? k).map fun l =>
      if l.target = id ∧ slot < l.targetSlot then { l with targetSlot := l.targetSlot - 1 }
      else l := by
  unfold eraseInput
  rw [hn]
  show (Graph.modifyLinks _ _ _).links.get? k = _
  rw [get?_links_modifyLinks (nodup_links_behind_input hg hn slot)]
  cases hl : g.links.get? k with
  | none => rfl
  | some l => simp only [Option.map_some, mem_links_behind_input hg hn slot hl]

theorem input?_eraseInput (hn : g.nodes.get? id = some n) (slot : Nat) (id' : NodeId) (i : Nat) :
    (g.eraseInput id slot).input? id' i =
      g.input? id' (if id' = id then placeBefore slot i else i) := by
  unfold eraseInput
  rw [hn]
  show ((Graph.modifyNode _ id _).nodes.get? id').bind _ = (g.nodes.get? id').bind _
  rw [get?_modifyNode, nodes_modifyLinks]
  by_cases h : id' = id
  · rw [if_pos h, if_pos h, h, hn]
    exact getElem?_eraseIdx_placeBefore n.inputs slot i
  · rw [if_neg h, if_neg h]

theorem output?_eraseInput (hn : g.nodes.get? id = some n) (slot : Nat) (id' : NodeId) (i : Nat) :
    (g.eraseInput id slot).output? id' i = g.output? id' i := by
  unfold eraseInput
  rw [hn]
  refine (output?_modifyNode (by intro m; rfl) id' i).trans ?_
  show ((Graph.modifyLinks _ _ _).nodes.get? id').bind _ = (g.nodes.get? id').bind _
  rw [nodes_modifyLinks]

theorem arrives_eraseInput (hg : g.Joined) (hn : g.nodes.get? id = some n) {slot : Nat}
    (hfree : ∀ k, ¬g.Arrives k id slot) (k : LinkId) (id' : NodeId) (i : Nat) :
    (g.eraseInput id slot).Arrives k id' i ↔
      g.Arrives k id' (if id' = id then placeBefore slot i else i) := by
  unfold Arrives
  rw [get?_links_eraseInput hg hn]
  cases hl : g.links.get? k with
  | none => simp
  | some l =>
    simp only [Option.map_some, Option.some.injEq, exists_eq_left']
    by_cases hid : id' = id
    · subst hid
      rw [if_pos rfl]
      by_cases ht : l.target = id'
      · -- nothing arrives in the gap itself
        have hgap : l.targetSlot ≠ slot := fun h => hfree k ⟨l, hl, ht, h⟩
        rw [← moved_eq_iff hgap]
        by_cases hlt : slot < l.targetSlot
        · simp [ht, hlt]
        · simp [ht, hlt]
      · simp [ht]
    · rw [if_neg hid]
      by_cases ht : l.target = id
      · have hne : l.target ≠ id' := fun h => hid (h.symm.trans ht)
        split <;> simp [hne]
      · simp [ht]

theorem leaves_eraseInput (hg : g.Joined) (hn : g.nodes.get? id = some n) (slot : Nat) (k : LinkId)
    (id' : NodeId) (i : Nat) : (g.eraseInput id slot).Leaves k id' i ↔ g.Leaves k id' i := by
  unfold Leaves
  rw [get?_links_eraseInput hg hn]
  cases hl : g.links.get? k with
  | none => simp
  | some l =>
    simp only [Option.map_some, Option.some.injEq, exists_eq_left']
    split <;> rfl

theorem consistent_eraseInput (hg : g.Consistent) {slot : Nat}
    (hfree : ∀ k, ¬g.Arrives k id slot) : (g.eraseInput id slot).Consistent := by
  cases hn : g.nodes.get? id with
  | none =>
    unfold eraseInput
    rw [hn]
    exact hg
  | some n =>
    apply hg.rebuild
    case hlink =>
      intro k l hl
      rw [get?_links_eraseInput hg.toJoined hn] at hl
      obtain ⟨l', hl', rfl⟩ := Option.map_eq_some_iff.1 hl
      refine ⟨l', hl', ?_⟩
      split <;> exact ⟨rfl, rfl, rfl⟩
    case hin =>
      intro id' i k
      rw [arrives_eraseInput hg.toJoined hn hfree, ← hg.inputs]
      unfold Holds
      rw [input?_eraseInput hn]
    case hout =>
      intro id' i k
      rw [leaves_eraseInput hg.toJoined hn, ← hg.outputs]
      unfold Lists
      rw [output?_eraseInput hn]
    case once =>
      intro id' i s hs
      rw [output?_eraseInput hn] at hs
      exact hg.once id' i s hs
    case hnode =>
      intro id' m hm
      unfold eraseInput at hm
      rw [hn] at hm
      obtain ⟨m', hm', he⟩ := node_of_modifyNode (by intro m; rfl) hm
      rw [nodes_modifyLinks] at hm'
      exact ⟨m', hm', he⟩
    case hnextNode =>
      unfold eraseInput
      rw [hn]
      exact (counters_modifyLinks _ _ g).1
    case hnextLink =>
      unfold eraseInput
      rw [hn]
      exact (counters_modifyLinks _ _ g).2.1

end EraseInput

/-! ## Removing an output -/

section EraseOutput

variable {g : Graph B} {id : NodeId} {n : Node B}

/-- The links behind an output are those that leave a later one. -/
theorem mem_links_behind_output (hg : g.Joined) (hn : g.nodes.get? id = some n) (slot : Nat)
    {k : LinkId} {l : Link} (hl : g.links.get? k = some l) :
    k ∈ (n.outputs.drop (slot + 1)).flatMap Output.links ↔
      l.origin = id ∧ slot < l.originSlot := by
  rw [List.mem_flatMap]
  constructor
  · rintro ⟨s, hs, hk⟩
    obtain ⟨i, hi⟩ := List.getElem?_of_mem hs
    rw [List.getElem?_drop] at hi
    obtain ⟨l', hl', ho, hos⟩ := hg.of_output ((output_of_node hn _).trans hi) hk
    cases Option.some.inj (hl.symm.trans hl')
    exact ⟨ho, by omega⟩
  · rintro ⟨ho, hos⟩
    obtain ⟨s, hs, hk⟩ := hg.origin_exists hl
    rw [ho, output_of_node hn] at hs
    refine ⟨s, ?_, hk⟩
    apply @List.mem_of_getElem? _ _ (l.originSlot - (slot + 1))
    rw [List.getElem?_drop, ← hs]
    congr 1
    omega

/-- No link is named twice by the outputs of a node. -/
theorem nodup_links_behind_output (hg : g.Consistent) (hn : g.nodes.get? id = some n) (slot : Nat) :
    ((n.outputs.drop (slot + 1)).flatMap Output.links).Nodup := by
  have hd : (n.outputs.flatMap Output.links).Nodup := by
    rw [List.nodup_flatMap]
    constructor
    · intro s hs
      obtain ⟨i, hi⟩ := List.getElem?_of_mem hs
      exact hg.once id i s ((output_of_node hn i).trans hi)
    · rw [List.pairwise_iff_getElem]
      intro i j hi hj hij k hk hk'
      have hsi := (output_of_node hn i).trans (List.getElem?_eq_getElem hi)
      have hsj := (output_of_node hn j).trans (List.getElem?_eq_getElem hj)
      obtain ⟨l, hl, -, hos⟩ := hg.of_output hsi hk
      obtain ⟨l', hl', -, hos'⟩ := hg.of_output hsj hk'
      cases Option.some.inj (hl.symm.trans hl')
      omega
  have hsub : ((n.outputs.drop (slot + 1)).flatMap Output.links).Sublist
      (n.outputs.flatMap Output.links) := by
    rw [List.flatMap_def, List.flatMap_def]
    exact ((List.drop_sublist _ _).map _).flatten
  exact hd.sublist hsub

theorem get?_links_eraseOutput (hg : g.Consistent) (hn : g.nodes.get? id = some n) (slot : Nat)
    (k : LinkId) : (g.eraseOutput id slot).links.get? k = (g.links.get? k).map fun l =>
      if l.origin = id ∧ slot < l.originSlot then { l with originSlot := l.originSlot - 1 }
      else l := by
  unfold eraseOutput
  rw [hn]
  show (Graph.modifyLinks _ _ _).links.get? k = _
  rw [get?_links_modifyLinks (nodup_links_behind_output hg hn slot)]
  cases hl : g.links.get? k with
  | none => rfl
  | some l => simp only [Option.map_some, mem_links_behind_output hg.toJoined hn slot hl]

theorem output?_eraseOutput (hn : g.nodes.get? id = some n) (slot : Nat) (id' : NodeId) (i : Nat) :
    (g.eraseOutput id slot).output? id' i =
      g.output? id' (if id' = id then placeBefore slot i else i) := by
  unfold eraseOutput
  rw [hn]
  show ((Graph.modifyNode _ id _).nodes.get? id').bind _ = (g.nodes.get? id').bind _
  rw [get?_modifyNode, nodes_modifyLinks]
  by_cases h : id' = id
  · rw [if_pos h, if_pos h, h, hn]
    exact getElem?_eraseIdx_placeBefore n.outputs slot i
  · rw [if_neg h, if_neg h]

theorem input?_eraseOutput (hn : g.nodes.get? id = some n) (slot : Nat) (id' : NodeId) (i : Nat) :
    (g.eraseOutput id slot).input? id' i = g.input? id' i := by
  unfold eraseOutput
  rw [hn]
  refine (input?_modifyNode (by intro m; rfl) id' i).trans ?_
  show ((Graph.modifyLinks _ _ _).nodes.get? id').bind _ = (g.nodes.get? id').bind _
  rw [nodes_modifyLinks]

theorem leaves_eraseOutput (hg : g.Consistent) (hn : g.nodes.get? id = some n) {slot : Nat}
    (hfree : ∀ k, ¬g.Leaves k id slot) (k : LinkId) (id' : NodeId) (i : Nat) :
    (g.eraseOutput id slot).Leaves k id' i ↔
      g.Leaves k id' (if id' = id then placeBefore slot i else i) := by
  unfold Leaves
  rw [get?_links_eraseOutput hg hn]
  cases hl : g.links.get? k with
  | none => simp
  | some l =>
    simp only [Option.map_some, Option.some.injEq, exists_eq_left']
    by_cases hid : id' = id
    · subst hid
      rw [if_pos rfl]
      by_cases ho : l.origin = id'
      · have hgap : l.originSlot ≠ slot := fun h => hfree k ⟨l, hl, ho, h⟩
        rw [← moved_eq_iff hgap]
        by_cases hlt : slot < l.originSlot
        · simp [ho, hlt]
        · simp [ho, hlt]
      · simp [ho]
    · rw [if_neg hid]
      by_cases ho : l.origin = id
      · have hne : l.origin ≠ id' := fun h => hid (h.symm.trans ho)
        split <;> simp [hne]
      · simp [ho]

theorem arrives_eraseOutput (hg : g.Consistent) (hn : g.nodes.get? id = some n) (slot : Nat)
    (k : LinkId) (id' : NodeId) (i : Nat) :
    (g.eraseOutput id slot).Arrives k id' i ↔ g.Arrives k id' i := by
  unfold Arrives
  rw [get?_links_eraseOutput hg hn]
  cases hl : g.links.get? k with
  | none => simp
  | some l =>
    simp only [Option.map_some, Option.some.injEq, exists_eq_left']
    split <;> rfl

theorem consistent_eraseOutput (hg : g.Consistent) {slot : Nat}
    (hfree : ∀ k, ¬g.Leaves k id slot) : (g.eraseOutput id slot).Consistent := by
  cases hn : g.nodes.get? id with
  | none =>
    unfold eraseOutput
    rw [hn]
    exact hg
  | some n =>
    apply hg.rebuild
    case hlink =>
      intro k l hl
      rw [get?_links_eraseOutput hg hn] at hl
      obtain ⟨l', hl', rfl⟩ := Option.map_eq_some_iff.1 hl
      refine ⟨l', hl', ?_⟩
      split <;> exact ⟨rfl, rfl, rfl⟩
    case hin =>
      intro id' i k
      rw [arrives_eraseOutput hg hn, ← hg.inputs]
      unfold Holds
      rw [input?_eraseOutput hn]
    case hout =>
      intro id' i k
      rw [leaves_eraseOutput hg hn hfree, ← hg.outputs]
      unfold Lists
      rw [output?_eraseOutput hn]
    case once =>
      intro id' i s hs
      rw [output?_eraseOutput hn] at hs
      exact hg.once id' _ s hs
    case hnode =>
      intro id' m hm
      unfold eraseOutput at hm
      rw [hn] at hm
      obtain ⟨m', hm', he⟩ := node_of_modifyNode (by intro m; rfl) hm
      rw [nodes_modifyLinks] at hm'
      exact ⟨m', hm', he⟩
    case hnextNode =>
      unfold eraseOutput
      rw [hn]
      exact (counters_modifyLinks _ _ g).1
    case hnextLink =>
      unfold eraseOutput
      rw [hn]
      exact (counters_modifyLinks _ _ g).2.1

end EraseOutput

end Graph

end Dataflow
