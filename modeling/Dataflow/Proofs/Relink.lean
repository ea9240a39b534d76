/-
  Links named in the slots of a node, and what passing them through a map does.

  `relink` looks only at links that are named (`relink_congr`), and doing it twice is doing it once
  with both maps (`relink_relink`), so renaming links and forgetting some are the same thing to
  reason about.

  Where every link stands and every slot names only links that end there, a repair has nothing to
  do: its first pass enters links where they are entered already, and in the others no slot
  forgets anything.  `repair_joined` says this of a joined graph; a load repairs one when a
  snapshot was taken of such a graph.
-/

import Mathlib.Data.List.Basic
import Dataflow.Proofs.Repair

namespace Dataflow

variable {B : Type}

/-- Changing one slot to what it is changes nothing. -/
theorem modify_slot_self {α : Type} {slots : List α} {slot : Nat} {f : α → α}
    (h : ∀ s, slots[slot]? = some s → f s = s) : slots.modify slot f = slots := by
  apply List.ext_getElem?
  intro i
  rw [List.getElem?_modify]
  cases hs : slots[i]? with
  | none => rfl
  | some s =>
    show some (if slot = i then f s else s) = some s
    split
    · next he => rw [h s (he ▸ hs)]
    · rfl

namespace Node

/-! ## Names -/

/-- A slot of a node names a link. -/
def Names (n : Node B) : Direction → Nat → LinkId → Prop
  | .input, slot, k => ∃ s, n.inputs[slot]? = some s ∧ s.link = some k
  | .output, slot, k => ∃ s, n.outputs[slot]? = some s ∧ k ∈ s.links

variable {n : Node B} {f g : Direction → Nat → LinkId → Option LinkId}

/-- Only what the map does to the links that are named matters. -/
theorem relink_congr (h : ∀ d slot k, n.Names d slot k → f d slot k = g d slot k) :
    n.relink f = n.relink g := by
  have hi : n.inputs.mapIdx (fun slot s => { s with link := s.link.bind (f .input slot) }) =
      n.inputs.mapIdx fun slot s => { s with link := s.link.bind (g .input slot) } := by
    apply List.ext_getElem?
    intro slot
    rw [List.getElem?_mapIdx, List.getElem?_mapIdx]
    cases hs : n.inputs[slot]? with
    | none => rfl
    | some s =>
      have hl : s.link.bind (f .input slot) = s.link.bind (g .input slot) := by
        apply Option.bind_congr
        intro k hk
        exact h .input slot k ⟨s, hs, hk⟩
      rw [Option.map_some, Option.map_some, hl]
  have ho : n.outputs.mapIdx (fun slot s => { s with links := s.links.filterMap (f .output slot) }) =
      n.outputs.mapIdx fun slot s => { s with links := s.links.filterMap (g .output slot) } := by
    apply List.ext_getElem?
    intro slot
    rw [List.getElem?_mapIdx, List.getElem?_mapIdx]
    cases hs : n.outputs[slot]? with
    | none => rfl
    | some s =>
      have hl : s.links.filterMap (f .output slot) = s.links.filterMap (g .output slot) := by
        apply List.filterMap_congr
        intro k hk
        exact h .output slot k ⟨s, hs, hk⟩
      rw [Option.map_some, Option.map_some, hl]
  unfold relink
  rw [hi, ho]

/-- A node stays the same when every link it names goes to itself. -/
theorem relink_self (h : ∀ d slot k, n.Names d slot k → f d slot k = some k) : n.relink f = n := by
  rw [relink_congr h]
  have hi : n.inputs.mapIdx (fun _ s => { s with link := s.link.bind some }) = n.inputs := by
    apply List.ext_getElem?
    intro slot
    rw [List.getElem?_mapIdx]
    cases n.inputs[slot]? with
    | none => rfl
    | some s => rw [Option.map_some, Option.bind_fun_some]
  have ho : n.outputs.mapIdx (fun _ s => { s with links := s.links.filterMap some }) = n.outputs := by
    apply List.ext_getElem?
    intro slot
    rw [List.getElem?_mapIdx]
    cases n.outputs[slot]? with
    | none => rfl
    | some s => rw [Option.map_some, List.filterMap_some]
  unfold relink
  rw [hi, ho]

theorem relink_relink (n : Node B) (f g : Direction → Nat → LinkId → Option LinkId) :
    (n.relink f).relink g = n.relink fun d slot k => (f d slot k).bind (g d slot) := by
  unfold relink
  simp only [List.mapIdx_mapIdx, Function.comp_def, Option.bind_assoc, List.filterMap_filterMap]

/-- What is named after relinking was named before. -/
theorem names_relink {d : Direction} {slot : Nat} {k : LinkId} :
    (n.relink f).Names d slot k ↔ ∃ i, n.Names d slot i ∧ f d slot i = some k := by
  cases d with
  | input =>
    show (∃ s, (n.inputs.mapIdx _)[slot]? = some s ∧ _) ↔ _
    rw [List.getElem?_mapIdx]
    exact Graph.exists_relinked_input ..
  | output =>
    show (∃ s, (n.outputs.mapIdx _)[slot]? = some s ∧ _) ↔ _
    rw [List.getElem?_mapIdx]
    exact Graph.exists_relinked_output ..

/-- A relinking that forgets nothing is not noticed as one that does. -/
theorem losesLinks_eq_false (h : ∀ d slot k, n.Names d slot k → (f d slot k).isSome = true) :
    n.losesLinks f = false := by
  unfold losesLinks
  rw [Bool.or_eq_false_iff, List.any_eq_false, List.any_eq_false]
  constructor
  · rintro ⟨s, slot⟩ hs
    rw [Option.any_eq_true]
    rintro ⟨k, hk, hn⟩
    have hm := h .input slot k ⟨s, List.mk_mem_zipIdx_iff_getElem?.1 hs, hk⟩
    rw [Option.isNone_iff_eq_none.1 hn] at hm
    cases hm
  · rintro ⟨s, slot⟩ hs
    rw [List.any_eq_true]
    rintro ⟨k, hk, hn⟩
    have hm := h .output slot k ⟨s, List.mk_mem_zipIdx_iff_getElem?.1 hs, hk⟩
    rw [Option.isNone_iff_eq_none.1 hn] at hm
    cases hm

end Node

namespace Graph

variable {g : Graph B}

theorem holds_of_names {id : NodeId} {n : Node B} (hn : g.nodes.get? id = some n) {slot : Nat}
    {k : LinkId} (h : n.Names .input slot k) : g.Holds id slot k := by
  obtain ⟨s, hs, hk⟩ := h
  exact ⟨s, (input_of_node hn slot).trans hs, hk⟩

theorem lists_of_names {id : NodeId} {n : Node B} (hn : g.nodes.get? id = some n) {slot : Nat}
    {k : LinkId} (h : n.Names .output slot k) : g.Lists id slot k := by
  obtain ⟨s, hs, hk⟩ := h
  exact ⟨s, (output_of_node hn slot).trans hs, hk⟩

/-- In a joined graph a link that a slot names ends there. -/
theorem Joined.of_names (hg : g.Joined) {id : NodeId} {n : Node B} (hn : g.nodes.get? id = some n)
    {d : Direction} {slot : Nat} {k : LinkId} (h : n.Names d slot k) :
    ∃ l, g.links.get? k = some l ∧ endsAt l id d slot = true := by
  cases d with
  | input =>
    obtain ⟨l, hl, ht, hs⟩ := (hg.inputs id slot k).1 (holds_of_names hn h)
    exact ⟨l, hl, Bool.and_eq_true_iff.2 ⟨decide_eq_true ht, decide_eq_true hs⟩⟩
  | output =>
    obtain ⟨l, hl, ho, hs⟩ := (hg.outputs id slot k).1 (lists_of_names hn h)
    exact ⟨l, hl, Bool.and_eq_true_iff.2 ⟨decide_eq_true ho, decide_eq_true hs⟩⟩

/-! ## Repairing what needs no repair -/

theorem Joined.stands (hg : g.Joined) {k : LinkId} {l : Link} (hl : g.links.get? k = some l) :
    g.Stands k l where
  apart := hg.apart k l hl
  held := (hg.inputs _ _ k).2 ⟨l, hl, rfl, rfl⟩
  listed := (hg.outputs _ _ k).2 ⟨l, hl, rfl, rfl⟩

theorem enter_of_stands {k : LinkId} {l : Link} (h : g.Stands k l) : g.enter k l = g := by
  obtain ⟨i, hi, hk⟩ := h.held
  obtain ⟨o, ho, hm⟩ := h.listed
  have hin : g.nodes.modify l.target (fun n => n.modifyInput l.targetSlot fun s =>
      { s with link := some (s.link.getD k) }) = g.nodes := by
    apply Assoc.modify_eq_self
    intro n hn
    have he : n.inputs.modify l.targetSlot (fun s => { s with link := some (s.link.getD k) }) =
        n.inputs := by
      apply modify_slot_self
      intro s hs
      cases Option.some.inj (hs.symm.trans ((input_of_node hn _).symm.trans hi))
      rw [hk, Option.getD_some, ← hk]
    unfold Node.modifyInput
    rw [he]
  have hout : g.nodes.modify l.origin (fun n => n.modifyOutput l.originSlot fun s =>
      if k ∈ s.links then s else { s with links := s.links ++ [k] }) = g.nodes := by
    apply Assoc.modify_eq_self
    intro n hn
    have he : n.outputs.modify l.originSlot (fun s =>
        if k ∈ s.links then s else { s with links := s.links ++ [k] }) = n.outputs := by
      apply modify_slot_self
      intro s hs
      cases Option.some.inj (hs.symm.trans ((output_of_node hn _).symm.trans ho))
      exact if_pos hm
    unfold Node.modifyOutput
    rw [he]
  unfold enter modifyNode
  simp only [hin, hout]

/-- The first pass does nothing to a link that stands. -/
theorem settle_of_stands {r : Repair B} {k : LinkId} {l : Link}
    (hl : r.graph.links.get? k = some l) (h : r.graph.Stands k l) : settle r k = r := by
  obtain ⟨i, hi, hk⟩ := h.held
  obtain ⟨o, ho, hm⟩ := h.listed
  have hc : r.graph.canStand k l = true := by
    unfold canStand
    rw [hi, ho, Option.any_some, hk, Option.all_some, decide_eq_true h.apart]
    simp
  have he : r.graph.isEntered k l = true := by
    unfold isEntered
    rw [hi, ho, Option.any_some, Option.any_some, hk]
    simpa using hm
  unfold settle
  simp only [hl, hc, if_true, enter_of_stands h, he, Bool.not_true, Bool.or_false]

theorem settles_of_stands {r : Repair B} {ks : List LinkId}
    (h : ∀ k ∈ ks, ∃ l, r.graph.links.get? k = some l ∧ r.graph.Stands k l) :
    ks.foldl settle r = r := by
  induction ks with
  | nil => rfl
  | cons k ks ih =>
    obtain ⟨l, hl, hs⟩ := h k (List.mem_cons_self ..)
    rw [List.foldl_cons, settle_of_stands hl hs]
    exact ih fun i hi => h i (List.mem_cons_of_mem k hi)

theorem Joined.live_of_names (hg : g.Joined) {id : NodeId} {n : Node B}
    (hn : g.nodes.get? id = some n) {d : Direction} {slot : Nat} {k : LinkId}
    (h : n.Names d slot k) : g.live id d slot k = some k := by
  obtain ⟨l, hl, -⟩ := hg.of_names hn h
  exact (live_eq_some g).2 ⟨rfl, Option.isSome_of_eq_some hl⟩

theorem Joined.owned_of_names (hg : g.Joined) {id : NodeId} {n : Node B}
    (hn : g.nodes.get? id = some n) {d : Direction} {slot : Nat} {k : LinkId}
    (h : n.Names d slot k) : g.owned id d slot k = some k := by
  obtain ⟨l, hl, he⟩ := hg.of_names hn h
  exact (owned_eq_some g).2 ⟨rfl, l, hl, he⟩

/-- A relinking that keeps every name keeps the graph. -/
theorem relinkAll_self {f : NodeId → Direction → Nat → LinkId → Option LinkId}
    (h : ∀ id n, g.nodes.get? id = some n → ∀ d slot k, n.Names d slot k → f id d slot k = some k) :
    g.relinkAll f = g ∧ g.losesLinks f = false := by
  have hget : ∀ e ∈ g.nodes.entries, g.nodes.get? e.1 = some e.2 := fun e he =>
    (Assoc.get?_eq_some_iff g.nodes e.1 e.2).2 he
  constructor
  · have hm : g.nodes.mapValues (fun id n => n.relink (f id)) = g.nodes := by
      rw [Assoc.mapValues_congr (g := fun _ n => n) fun e he => Node.relink_self (h e.1 e.2 (hget e he))]
      apply Assoc.ext_entries
      exact List.map_id _
    unfold relinkAll
    rw [hm]
  · unfold losesLinks
    rw [List.any_eq_false]
    intro e he
    rw [Bool.not_eq_true]
    apply Node.losesLinks_eq_false
    intro d slot k hk
    rw [h e.1 e.2 (hget e he) d slot k hk]
    rfl

/-- Repairing a joined graph does nothing. -/
theorem repair_joined (hg : g.Joined) (pruned : List LinkId) : g.repair pruned = ⟨g, pruned, false⟩ := by
  have hs : g.links.keys.foldl settle ⟨g, pruned, false⟩ = ⟨g, pruned, false⟩ := by
    apply settles_of_stands
    intro k hk
    obtain ⟨l, hl⟩ := Assoc.mem_keys_iff.1 hk
    exact ⟨l, hl, hg.stands hl⟩
  obtain ⟨hlive, hlost⟩ := relinkAll_self fun id n hn d slot k hk => hg.live_of_names hn hk
  obtain ⟨howned, hstray⟩ := relinkAll_self fun id n hn d slot k hk => hg.owned_of_names hn hk
  unfold repair
  simp only [hs, hlive, howned, hlost, hstray, Bool.or_false]

end Graph

end Dataflow
