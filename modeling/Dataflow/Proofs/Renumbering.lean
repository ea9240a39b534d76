/-
  Removing slots.

  A slot is removed in three steps: its links are broken, the later slots of the node close the gap,
  and the links that end at those slots are told their new places.  Inputs and outputs do so alike
  (`Session.removeSlot`).  Nothing else changes: the other slots keep what they hold, the links that
  are left keep all but one place, and the other nodes lose the broken links only
  (`Graph.SlotRemoved`).

  A place is lowered once for each link that ends behind the gap.  The link map cannot tell whether
  that goes below the first place, for a natural number stays at zero; so the same is done again
  with a subtraction that may fail (`Graph.dropSlot?`), and it does not fail.
-/

import Dataflow.Proofs.Abreast
import Dataflow.Proofs.Removing

namespace Dataflow

variable {B σ : Type}

/-! ## Both directions -/

/-- The node at one end of a link. -/
def Link.nodeAt (d : Direction) (l : Link) : NodeId :=
  match d with
  | .input => l.target
  | .output => l.origin

/-- The slot at one end of a link. -/
def Link.slotAt (d : Direction) (l : Link) : Nat :=
  match d with
  | .input => l.targetSlot
  | .output => l.originSlot

/-- The link with one end a place lower. -/
def Link.lowered (d : Direction) (l : Link) : Link :=
  match d with
  | .input => { l with targetSlot := l.targetSlot - 1 }
  | .output => { l with originSlot := l.originSlot - 1 }

/-- The links that end behind a slot. -/
def Node.behind (d : Direction) (slot : Nat) (n : Node B) : List LinkId :=
  match d with
  | .input => (n.inputs.drop (slot + 1)).filterMap Input.link
  | .output => (n.outputs.drop (slot + 1)).flatMap Output.links

/-- The node without a slot. -/
def Node.losing (d : Direction) (slot : Nat) (n : Node B) : Node B :=
  match d with
  | .input => ({ n with inputs := n.inputs.eraseIdx slot } : Node B).fit
  | .output => ({ n with outputs := n.outputs.eraseIdx slot } : Node B).fit

namespace Graph

/-- Whether a link ends at a slot. -/
def endingAt (g : Graph B) (d : Direction) (id : NodeId) (slot : Nat) (k : LinkId) : Bool :=
  (g.links.get? k).any fun l => decide (l.nodeAt d = id ∧ l.slotAt d = slot)

/-- The graph without a slot; later slots of the node, and their links, move down. -/
def dropSlot (d : Direction) (g : Graph B) (id : NodeId) (slot : Nat) : Graph B :=
  match d with
  | .input => g.eraseInput id slot
  | .output => g.eraseOutput id slot

/-- The graph with one end of a link a place lower, unless it is at the first place already. -/
def lower? (d : Direction) (g : Graph B) (k : LinkId) : Option (Graph B) :=
  if (g.links.get? k).all fun l => decide (0 < l.slotAt d) then some (g.modifyLink k (Link.lowered d))
  else none

/-- The graph without a slot, unless that would lower an end that is at the first place. -/
def dropSlot? (d : Direction) (g : Graph B) (id : NodeId) (slot : Nat) : Option (Graph B) :=
  match g.nodes.get? id with
  | some n => ((n.behind d slot).foldlM (lower? d) g).map (·.modifyNode id (Node.losing d slot))
  | none => some g

end Graph

namespace Session

variable [Kind B]

/-- Breaks the links at a slot. -/
def clearSlot (d : Direction) (s : Session B σ) (id : NodeId) (slot : Nat) : Session B σ :=
  match d with
  | .input => (s.disconnectInput id slot).2
  | .output => (s.disconnectOutput id slot none).2

/-- Removes a slot with its links; says whether it existed. -/
def removeSlot (d : Direction) (s : Session B σ) (id : NodeId) (slot : Nat) : Bool × Session B σ :=
  match d with
  | .input => s.removeInput id slot
  | .output => s.removeOutput id slot

end Session

namespace Graph

variable {g : Graph B} {id : NodeId} {n : Node B} {d : Direction} {slot : Nat}

/-! ## Closing the gap -/

theorem dropSlot_eq (hn : g.nodes.get? id = some n) : g.dropSlot d id slot =
    (g.modifyLinks (n.behind d slot) (Link.lowered d)).modifyNode id (Node.losing d slot) := by
  cases d with
  | input =>
    unfold dropSlot eraseInput
    rw [hn]
    rfl
  | output =>
    unfold dropSlot eraseOutput
    rw [hn]
    rfl

theorem nodup_behind (hg : g.Consistent) (hn : g.nodes.get? id = some n) :
    (n.behind d slot).Nodup := by
  cases d with
  | input => exact nodup_links_behind_input hg.toJoined hn slot
  | output => exact nodup_links_behind_output hg hn slot

theorem mem_behind (hg : g.Joined) (hn : g.nodes.get? id = some n) {k : LinkId} {l : Link}
    (hl : g.links.get? k = some l) :
    k ∈ n.behind d slot ↔ l.nodeAt d = id ∧ slot < l.slotAt d := by
  cases d with
  | input => exact mem_links_behind_input hg hn slot hl
  | output => exact mem_links_behind_output hg hn slot hl

theorem links_dropSlot (hg : g.Consistent) (hn : g.nodes.get? id = some n) :
    (g.dropSlot d id slot).links = g.links.mapValues fun _ l =>
      if l.nodeAt d = id ∧ slot < l.slotAt d then l.lowered d else l := by
  have hkeys : ∀ (ks : List LinkId) (g : Graph B),
      (g.modifyLinks ks (Link.lowered d)).links.keys = g.links.keys := by
    intro ks
    induction ks with
    | nil => exact fun _ => rfl
    | cons k ks ih => exact fun g => (ih _).trans (Assoc.keys_modify ..)
  rw [dropSlot_eq hn]
  apply Assoc.ext_view
  · rw [Assoc.keys_mapValues]
    exact hkeys _ g
  · intro k
    rw [Assoc.get?_mapValues]
    refine (get?_links_modifyLinks (nodup_behind hg hn) g k).trans ?_
    cases hl : g.links.get? k with
    | none => rfl
    | some l => simp only [Option.map_some, mem_behind hg.toJoined hn hl]

theorem nodes_dropSlot (hn : g.nodes.get? id = some n) :
    (g.dropSlot d id slot).nodes = g.nodes.modify id (Node.losing d slot) := by
  rw [dropSlot_eq hn]
  show (modifyLinks _ _ _).nodes.modify _ _ = _
  rw [nodes_modifyLinks]

theorem rest_dropSlot (g : Graph B) (d : Direction) (id : NodeId) (slot : Nat) :
    g.dropSlot d id slot = { g with
      nodes := (g.dropSlot d id slot).nodes, links := (g.dropSlot d id slot).links } := by
  cases hn : g.nodes.get? id with
  | none => cases d <;> simp only [dropSlot, eraseInput, eraseOutput, hn]
  | some n =>
    rw [dropSlot_eq hn, modifyLinks_eq]
    rfl

/-! ## Subtractions that may fail -/

/-- Places that are not the first one are lowered one after the other without failing. -/
theorem lower?_all {ks : List LinkId} (hks : ks.Nodup)
    (h : ∀ k ∈ ks, ∀ l, g.links.get? k = some l → 0 < l.slotAt d) :
    ks.foldlM (lower? d) g = some (g.modifyLinks ks (Link.lowered d)) := by
  induction ks generalizing g with
  | nil => rfl
  | cons k ks ih =>
    obtain ⟨hk, hks⟩ := List.nodup_cons.1 hks
    have hone : lower? d g k = some (g.modifyLink k (Link.lowered d)) := by
      unfold lower?
      rw [if_pos]
      cases hl : g.links.get? k with
      | none => rfl
      | some l => exact decide_eq_true (h k (List.mem_cons_self ..) l hl)
    rw [List.foldlM_cons, hone]
    refine ih hks fun i hi l hl => ?_
    -- the link just lowered is not among the others
    have hne : i ≠ k := fun he => hk (he ▸ hi)
    have hl' : (g.links.modify k (Link.lowered d)).get? i = some l := hl
    rw [Assoc.get?_modify, if_neg hne] at hl'
    exact h i (List.mem_cons_of_mem k hi) l hl'

/-- Closing a gap lowers no place below the first one. -/
theorem dropSlot?_eq (hg : g.Consistent) : g.dropSlot? d id slot = some (g.dropSlot d id slot) := by
  unfold dropSlot?
  cases hn : g.nodes.get? id with
  | none => cases d <;> simp only [dropSlot, eraseInput, eraseOutput, hn]
  | some n =>
    have hbehind : (n.behind d slot).Nodup := nodup_behind hg hn
    have hall := lower?_all (d := d) hbehind fun k hk l hl =>
      Nat.zero_lt_of_lt ((mem_behind hg.toJoined hn hl).1 hk).2
    simp only [hall, dropSlot_eq hn]
    rfl

/-! ## The slots that stay -/

theorem endingAt_of_get? {k : LinkId} {l : Link} (hl : g.links.get? k = some l) :
    g.endingAt d id slot k = decide (l.nodeAt d = id ∧ l.slotAt d = slot) := by
  unfold endingAt
  rw [hl]
  rfl

theorem lacking_input_eq (hg : g.Joined) (hn : g.nodes.get? id = some n) {j : Nat} {s : Input}
    (hs : n.inputs[j]? = some s) (h : d = .output ∨ j ≠ slot) :
    s.lacking (g.endingAt d id slot) = s := by
  refine (Input.lacking_congr fun k hk => ?_).trans s.lacking_false
  obtain ⟨l, hl, ht, hts⟩ := hg.of_input ((input_of_node hn j).trans hs) hk
  rw [endingAt_of_get? hl]
  refine decide_eq_false fun ⟨hnode, hslot⟩ => ?_
  cases d with
  | input => exact h.elim nofun fun h => h (hts.symm.trans hslot)
  | output => exact hg.apart k l hl (hnode.trans ht.symm)

theorem lacking_output_eq (hg : g.Joined) (hn : g.nodes.get? id = some n) {j : Nat} {s : Output}
    (hs : n.outputs[j]? = some s) (h : d = .input ∨ j ≠ slot) :
    s.lacking (g.endingAt d id slot) = s := by
  refine (Output.lacking_congr fun k hk => ?_).trans s.lacking_false
  obtain ⟨l, hl, ho, hos⟩ := hg.of_output ((output_of_node hn j).trans hs) hk
  rw [endingAt_of_get? hl]
  refine decide_eq_false fun ⟨hnode, hslot⟩ => ?_
  cases d with
  | input => exact hg.apart k l hl (ho.trans hnode.symm)
  | output => exact h.elim nofun fun h => h (hos.symm.trans hslot)

/-- A list that is changed at one place only is the same without that place. -/
theorem eraseIdx_map_eq {α : Type} {l : List α} {i : Nat} {f : α → α}
    (h : ∀ (j : Nat) a, j ≠ i → l[j]? = some a → f a = a) : (l.map f).eraseIdx i = l.eraseIdx i := by
  apply List.ext_getElem?
  intro j
  rw [getElem?_eraseIdx_placeBefore, getElem?_eraseIdx_placeBefore, List.getElem?_map]
  have hne : placeBefore i j ≠ i := by
    unfold placeBefore
    split <;> omega
  cases ha : l[placeBefore i j]? with
  | none => rfl
  | some a => rw [Option.map_some, h _ a hne ha]

/-- With the links at a slot, its node loses nothing that the slot itself does not take along. -/
theorem losing_lacking (hg : g.Joined) (hn : g.nodes.get? id = some n) :
    (n.lacking (g.endingAt d id slot)).losing d slot = n.losing d slot := by
  cases d with
  | input =>
    have hin : (n.inputs.map (Input.lacking (g.endingAt .input id slot))).eraseIdx slot =
        n.inputs.eraseIdx slot :=
      eraseIdx_map_eq fun j s hj hs => lacking_input_eq hg hn hs (.inr hj)
    have hout : n.outputs.map (Output.lacking (g.endingAt .input id slot)) = n.outputs :=
      map_eq_self fun j s hs => lacking_output_eq hg hn hs (.inl rfl)
    unfold Node.losing Node.lacking
    simp only [hin, hout]
  | output =>
    have hin : n.inputs.map (Input.lacking (g.endingAt .output id slot)) = n.inputs :=
      map_eq_self fun j s hs => lacking_input_eq hg hn hs (.inl rfl)
    have hout : (n.outputs.map (Output.lacking (g.endingAt .output id slot))).eraseIdx slot =
        n.outputs.eraseIdx slot :=
      eraseIdx_map_eq fun j s hj hs => lacking_output_eq hg hn hs (.inr hj)
    unfold Node.losing Node.lacking
    simp only [hin, hout]

/-! ## Behaviours and the order -/

theorem hushed_dropSlot [Kind B] (g : Graph B) (d : Direction) (id : NodeId) (slot : Nat) :
    (g.dropSlot d id slot).hushed = g.hushed.dropSlot d id slot := by
  have hlinks : ∀ (ks : List LinkId) (g : Graph B), (g.modifyLinks ks (Link.lowered d)).hushed =
      g.hushed.modifyLinks ks (Link.lowered d) := by
    intro ks
    induction ks with
    | nil => exact fun _ => rfl
    | cons k ks ih => exact fun g => ih (g.modifyLink k (Link.lowered d))
  have hget := g.get?_hushed id
  cases hn : g.nodes.get? id with
  | none =>
    rw [hn] at hget
    cases d <;> simp only [dropSlot, eraseInput, eraseOutput, hn, hget, Option.map_none]
  | some n =>
    rw [hn] at hget
    rw [dropSlot_eq hn, dropSlot_eq hget, hushed_modifyNode fun n => by cases d <;> rfl, hlinks]
    cases d <;> rfl

theorem dropSlot_under (g : Graph B) (c : Schedule) (d : Direction) (id : NodeId) (slot : Nat) :
    (g.under c).dropSlot d id slot = (g.dropSlot d id slot).under c := by
  cases d with
  | input => exact g.eraseInput_under c id slot
  | output => exact g.eraseOutput_under c id slot

/-- Under one schedule, it does not matter which one there was before a slot was removed. -/
theorem bump_dropSlot_under {g g' : Graph B} (h : ∃ b, g' = g.under b) (c : Schedule)
    (d : Direction) (id : NodeId) (slot : Nat) :
    (g'.dropSlot d id slot).bump.under c = (g.dropSlot d id slot).bump.under c := by
  obtain ⟨b, rfl⟩ := h
  rw [dropSlot_under]
  exact under_under (g.dropSlot d id slot).bump b c

end Graph

/-! ## Removing a slot -/

namespace Session

/-- Closing a batch after a change gives the graph another schedule. -/
theorem closing_under (t : Session B σ) : ∃ c, t.markStale.endBatch.graph = t.graph.under c := by
  obtain ⟨c, -, hc⟩ := t.rescheduled_markStale
  obtain ⟨e, -, he⟩ := t.markStale.rescheduled_batches (· - 1)
  obtain ⟨f, -, hf⟩ :=
    (t.markStale.edit fun g => { g with batchDepth := g.batchDepth - 1 }).rescheduled_refresh
  refine ⟨f, ?_⟩
  show (refresh _).graph = _
  rw [hf, he, hc, under_under, under_under]
  rfl

variable [Kind B] {s : Session B σ} {d : Direction} {id : NodeId} {slot : Nat}

theorem clearSlot_severs (hb : s.graph.batchDepth ≠ 0) (hs : s.graph.Joined) :
    (s.graph.severed (s.graph.endingAt d id slot)).UpToMemory (s.clearSlot d id slot).graph.flagged := by
  cases d with
  | input =>
    rw [Graph.severed_congr hs (q := fun k => (s.graph.input? id slot).bind Input.link = some k)]
    · exact disconnectInput_severs hb hs id slot
    intro k l hl
    have hholds : (s.graph.input? id slot).bind Input.link = some k ↔ s.graph.Holds id slot k :=
      Option.bind_eq_some_iff
    rw [Graph.endingAt_of_get? hl, decide_eq_decide, hholds, hs.inputs]
    unfold Graph.Arrives
    rw [hl]
    simp only [Option.some.injEq, exists_eq_left']
    rfl
  | output =>
    rw [Graph.severed_congr hs (q := (· ∈ leaving s.graph id slot none))]
    · exact disconnectOutput_severs hb hs id slot
    intro k l hl
    rw [Graph.endingAt_of_get? hl, decide_eq_decide, mem_leaving, hs.outputs]
    unfold Graph.Leaves
    rw [hl]
    simp only [Option.some.injEq, exists_eq_left']
    rfl

theorem removeSlot_eq (hslot : (s.graph.slotName? d id slot).isSome) : s.removeSlot d id slot =
    (true, ((s.beginBatch.clearSlot d id slot).edit fun g =>
      (g.dropSlot d id slot).bump).markStale.endBatch.changed) := by
  cases d with
  | input =>
    obtain ⟨i, hi⟩ := Option.isSome_iff_exists.1 ((Option.isSome_map ..).symm.trans hslot)
    unfold removeSlot removeInput
    rw [hi]
    rfl
  | output =>
    obtain ⟨o, ho⟩ := Option.isSome_iff_exists.1 ((Option.isSome_map ..).symm.trans hslot)
    unfold removeSlot removeOutput
    rw [ho]
    rfl

/-- Removing a slot takes its links out and closes the gap; the rest is a matter of the schedule. -/
theorem removeSlot_spec (hs : s.graph.Consistent) (hslot : (s.graph.slotName? d id slot).isSome) :
    ∃ c, ((((s.graph.severed (s.graph.endingAt d id slot)).dropSlot d id slot).bump).under
      c).UpToMemory (s.removeSlot d id slot).2.graph := by
  have hopen : s.beginBatch.graph.Joined := hs.toJoined.of_wiring (wiring_beginBatch s)
  have hclear : (s.beginBatch.graph.severed
      (s.beginBatch.graph.endingAt d id slot)).UpToMemory (s.beginBatch.clearSlot d id slot).graph.flagged :=
    clearSlot_severs (Nat.succ_ne_zero _) hopen
  rw [removeSlot_eq hslot]
  obtain ⟨c, hc⟩ := closing_under ((s.beginBatch.clearSlot d id slot).edit fun g =>
    (g.dropSlot d id slot).bump)
  refine ⟨c, ?_⟩
  show Graph.UpToMemory _ (Session.markStale _).endBatch.graph
  rw [hc]
  have hdrop := (((hclear.map fun g => g.hushed_dropSlot d id slot).map (f := Graph.bump)
    fun _ => rfl).map (f := (·.under c)) fun g => g.hushed_under c)
  -- neither the open batch nor the flag makes a difference to what is left
  have hbatch : ∃ b, s.beginBatch.graph.severed (s.beginBatch.graph.endingAt d id slot) =
      (s.graph.severed (s.graph.endingAt d id slot)).under b :=
    ⟨_, ((s.graph.severed (s.graph.endingAt d id slot)).under_places s.graph.order
      s.graph.executable true (s.graph.batchDepth + 1)).symm⟩
  have hflag : ∃ b, (s.beginBatch.clearSlot d id slot).graph.flagged =
      (s.beginBatch.clearSlot d id slot).graph.under b :=
    ⟨_, (Graph.under_places _ _ _ true _).symm⟩
  rw [Graph.bump_dropSlot_under hbatch c, Graph.bump_dropSlot_under hflag c] at hdrop
  exact hdrop

end Session

/-! ## What is left without a slot -/

/-- What is left of a graph when a slot of a node was removed. -/
structure Graph.SlotRemoved [Kind B] (d : Direction) (g : Graph B) (id : NodeId) (slot : Nat)
    (g' : Graph B) : Prop where
  /-- The links at the slot are gone; the others are as they were, in the same sequence, but that
  those behind the slot end a place lower. -/
  links : g'.links = (g.links.filter fun _ l => !decide (l.nodeAt d = id ∧ l.slotAt d = slot)).mapValues
    fun _ l => if l.nodeAt d = id ∧ slot < l.slotAt d then l.lowered d else l
  /-- A link of the node that is left ends where the slot is now at which it ended before. -/
  place : ∀ k l, g.links.get? k = some l → l.nodeAt d = id → l.slotAt d ≠ slot →
    ∃ m, g'.links.get? k = some m ∧ l.slotAt d = placeBefore slot (m.slotAt d)
  keys : g'.nodes.keys = g.nodes.keys
  /-- The node has lost the slot and nothing else; its size fits again. -/
  node : ∀ n, g.nodes.get? id = some n → ∃ m, g'.nodes.get? id = some m ∧
    m.hushed = ((n.losing d slot).noting m.order).hushed
  /-- The other nodes have lost the links at the slot and nothing else. -/
  nodes : ∀ i n, i ≠ id → g.nodes.get? i = some n → ∃ m, g'.nodes.get? i = some m ∧
    m.hushed = ((n.lacking (g.endingAt d id slot)).noting m.order).hushed
  /-- Behaviours are as they were when they forget what they are told. -/
  exact : (∀ (b : B) notice, Kind.told b notice = b) → ∀ i n, g.nodes.get? i = some n →
    ∃ m, g'.nodes.get? i = some m ∧ m =
      (if i = id then n.losing d slot else n.lacking (g.endingAt d id slot)).noting m.order
  version : g'.version = g.version + (g.links.filter fun k _ => g.endingAt d id slot k).size + 1
  rest : g' = { g with
    nodes := g'.nodes, links := g'.links, version := g'.version, order := g'.order
    executable := g'.executable, stale := g'.stale, batchDepth := g'.batchDepth }

namespace Graph

variable {g g' : Graph B} {d : Direction} {id : NodeId} {n : Node B} {slot : Nat}

theorem links_losing (hg : g.Consistent) (hn : g.nodes.get? id = some n) :
    ((g.severed (g.endingAt d id slot)).dropSlot d id slot).links =
      (g.links.filter fun _ l => !decide (l.nodeAt d = id ∧ l.slotAt d = slot)).mapValues
        fun _ l => if l.nodeAt d = id ∧ slot < l.slotAt d then l.lowered d else l := by
  have hleft : (g.severed (g.endingAt d id slot)).links =
      g.links.filter fun _ l => !decide (l.nodeAt d = id ∧ l.slotAt d = slot) := by
    show (g.links.filter fun k _ => !g.endingAt d id slot k) = _
    exact Assoc.filter_congr fun k l hl => by rw [endingAt_of_get? hl]
  rw [links_dropSlot (consistent_severed hg _) (node_severed hn), hleft]

theorem get?_losing (hg : g.Joined) (hn : g.nodes.get? id = some n) (i : NodeId) :
    ((g.severed (g.endingAt d id slot)).dropSlot d id slot).nodes.get? i =
      (g.nodes.get? i).map fun n =>
        if i = id then n.losing d slot else n.lacking (g.endingAt d id slot) := by
  rw [nodes_dropSlot (node_severed hn), Assoc.get?_modify]
  by_cases hi : i = id
  · rw [if_pos hi, hi, node_severed hn, hn]
    simp only [Option.map_some, if_true, losing_lacking hg hn]
  · simp only [if_neg hi]
    exact g.get?_severed _ i

theorem keys_losing (hn : g.nodes.get? id = some n) :
    ((g.severed (g.endingAt d id slot)).dropSlot d id slot).nodes.keys = g.nodes.keys := by
  rw [nodes_dropSlot (node_severed hn), Assoc.keys_modify]
  exact Assoc.keys_mapValues ..

theorem slotAt_lowered (d : Direction) (l : Link) : (l.lowered d).slotAt d = l.slotAt d - 1 := by
  cases d <;> rfl

variable [Kind B]

theorem slotRemoved_of_severed (hg : g.Consistent) (hn : g.nodes.get? id = some n) {c : Schedule}
    (h : ((((g.severed (g.endingAt d id slot)).dropSlot d id slot).bump).under c).UpToMemory g') :
    g.SlotRemoved d id slot g' := by
  have hlinks : g'.links = _ := h.links.trans (links_losing hg hn)
  have hnode : ∀ i n, g.nodes.get? i = some n →
      ((((g.severed (g.endingAt d id slot)).dropSlot d id slot).bump).under c).nodes.get? i =
        some ((if i = id then n.losing d slot else n.lacking (g.endingAt d id slot)).noting
          (c.place i)) := by
    intro i m hm
    rw [get?_under]
    show (((g.severed (g.endingAt d id slot)).dropSlot d id slot).nodes.get? i).map _ = _
    rw [get?_losing hg.toJoined hn, hm]
    rfl
  have hplace : ∀ {m m' : Node B} {k : Nat}, m.hushed = (m'.noting k).hushed →
      m.hushed = (m'.noting m.order).hushed := by
    intro m m' k hm
    have ho : m.order = k := congrArg Node.order hm
    rw [ho]
    exact hm
  -- up to what behaviours remember, each node is what the removal makes of it
  have hhushed : ∀ i n, g.nodes.get? i = some n → ∃ m, g'.nodes.get? i = some m ∧
      m.hushed = ((if i = id then n.losing d slot else n.lacking (g.endingAt d id slot)).noting
        m.order).hushed := by
    intro i n hi
    have hm := h.node i
    rw [hnode i n hi] at hm
    obtain ⟨m, hm, he⟩ := Option.map_eq_some_iff.1 hm
    exact ⟨m, hm, hplace he⟩
  refine ⟨hlinks, fun k l hl hid hne => ?place, ?keys, fun n hn => ?node, fun i n hi hn => ?nodes,
    fun hf i n hi => ?exact, ?version, ?rest⟩
  case place =>
    have hget : g'.links.get? k = some (if l.nodeAt d = id ∧ slot < l.slotAt d then l.lowered d else l) := by
      rw [hlinks, Assoc.get?_mapValues, Assoc.get?_filter, hl]
      simp [hne]
    refine ⟨_, hget, (moved_eq_iff hne).1 ?_⟩
    by_cases hlt : slot < l.slotAt d
    · rw [if_pos hlt, if_pos ⟨hid, hlt⟩, slotAt_lowered]
    · rw [if_neg hlt, if_neg fun h => hlt h.2]
  case keys =>
    rw [h.keys, keys_under]
    exact keys_losing hn
  case node =>
    obtain ⟨m, hm, he⟩ := hhushed id n hn
    rw [if_pos rfl] at he
    exact ⟨m, hm, he⟩
  case nodes =>
    obtain ⟨m, hm, he⟩ := hhushed i n hn
    rw [if_neg hi] at he
    exact ⟨m, hm, he⟩
  case exact =>
    rw [h.exact hf]
    exact ⟨_, hnode i n hi, rfl⟩
  case version =>
    rw [h.version, rest_dropSlot]
    rfl
  case rest =>
    rw [h.rest, rest_dropSlot]
    rfl

end Graph

/-- Removing a slot that exists removes its links and closes the gap behind it, and nothing else is
lost or moved.  Lowering the links behind the gap never goes below the first place: the same
removal with subtractions that may fail does not fail. -/
theorem Session.slot_removal_exact [Kind B] {s : Session B σ} (hs : s.graph.Consistent)
    (d : Direction) (id : NodeId) (slot : Nat) (hslot : (s.graph.slotName? d id slot).isSome) :
    (s.removeSlot d id slot).1 = true ∧
      s.graph.SlotRemoved d id slot (s.removeSlot d id slot).2.graph ∧
      ∃ dropped c, (s.beginBatch.clearSlot d id slot).graph.dropSlot? d id slot = some dropped ∧
        (s.removeSlot d id slot).2.graph = dropped.bump.under c := by
  have hnode : ∃ n, s.graph.nodes.get? id = some n := by
    cases d with
    | input =>
      obtain ⟨i, hi⟩ := Option.isSome_iff_exists.1 ((Option.isSome_map ..).symm.trans hslot)
      exact (Graph.node_of_input hi).imp fun _ h => h.1
    | output =>
      obtain ⟨o, ho⟩ := Option.isSome_iff_exists.1 ((Option.isSome_map ..).symm.trans hslot)
      exact (Graph.node_of_output ho).imp fun _ h => h.1
  obtain ⟨n, hn⟩ := hnode
  have hclear : (s.beginBatch.clearSlot d id slot).graph.Consistent := by
    have htidy : s.beginBatch.graph.Tidy s.graph.registry :=
      Graph.Tidy.of_wiring (wiring_beginBatch s) ⟨hs, rfl⟩
    cases d with
    | input => exact (upkeep_disconnectInput (upkeep_tidy _) htidy id slot).1
    | output => exact (upkeep_disconnectOutput (upkeep_tidy _) htidy id slot none).1
  obtain ⟨c, hspec⟩ := removeSlot_spec hs hslot
  obtain ⟨e, he⟩ := closing_under ((s.beginBatch.clearSlot d id slot).edit fun g =>
    (g.dropSlot d id slot).bump)
  refine ⟨?_, Graph.slotRemoved_of_severed hs hn hspec, _, e, Graph.dropSlot?_eq hclear, ?_⟩
  · rw [removeSlot_eq hslot]
  · rw [removeSlot_eq hslot]
    exact he

/-! ## Two links behind one another -/

/-- Links a source to both inputs of a sink, in a batch that stays open. -/
def doublyFed : Body Catalog Unit (Except ConnectionError LinkId) := do
  Body.edit .beginBatch
  let _ ← Body.perform (.add { Node.new "source" with outputs := [.new "out" .any] })
  let _ ← Body.perform (.add { Node.new "sink" with inputs := [.new "one" .any, .new "two" .any] })
  let _ ← Body.edit (.tryConnect ⟨1⟩ 0 ⟨2⟩ 0)
  Body.edit (.tryConnect ⟨1⟩ 0 ⟨2⟩ 1)

theorem doublyFed_obeys (r : Registry Catalog) : doublyFed.Obeys (linking r) := by
  have hsource : ({ Node.new "source" with outputs := [.new "out" .any] } : Node Catalog).Loose :=
    ⟨by simp [Node.new], by simp [Output.new], by simp [Node.new]⟩
  have hsink : ({ Node.new "sink" with
      inputs := [.new "one" .any, .new "two" .any] } : Node Catalog).Loose :=
    ⟨by simp [Input.new], by simp [Node.new], by simp [Node.new]⟩
  refine ⟨trivial, fun _ _ => ⟨hsource, fun _ _ => ⟨hsink, fun _ _ => ?_⟩⟩⟩
  exact ⟨trivial, fun _ _ => ⟨trivial, fun _ _ => trivial⟩⟩

theorem doublyFed_evaluates : ((Engine.exec 1 doublyFed
      (⟨Graph.empty ∅ .default, [], ()⟩ : Session Catalog Unit)).any fun e =>
    (e.2.graph.slotName? .input ⟨2⟩ 0).isSome &&
      (e.2.graph.links.get? ⟨2⟩).any fun l => decide (l.target = ⟨2⟩ ∧ l.targetSlot = 1)) = true := by
  decide +kernel

/-- When the first input is removed, the link to the second one ends at the first place. -/
theorem doublyFed_renumbered : ∃ s : Session Catalog Unit, s.graph.Consistent ∧
    s.graph.SlotRemoved .input ⟨2⟩ 0 (s.removeInput ⟨2⟩ 0).2.graph ∧
    ∃ m, (s.removeInput ⟨2⟩ 0).2.graph.links.get? ⟨2⟩ = some m ∧ m.targetSlot = 0 := by
  obtain ⟨⟨answer, s⟩, hr, hfacts⟩ := (Option.any_eq_true _ _).1 doublyFed_evaluates
  simp only [Bool.and_eq_true] at hfacts
  obtain ⟨hslot, hlink⟩ := hfacts
  obtain ⟨l, hl, hends⟩ := (Option.any_eq_true _ _).1 hlink
  obtain ⟨htarget, hplace⟩ := of_decide_eq_true hends
  have hs : s.graph.Consistent :=
    (Engine.keeps_exec (Engine.lawful_linking ∅) (Catalog.obeys_linking ∅) (doublyFed_obeys ∅) 1
      ⟨Graph.empty ∅ .default, [], ()⟩ (Graph.tidy_empty ∅ .default) _ s hr).1
  have hremoved := (Session.slot_removal_exact hs .input ⟨2⟩ 0 hslot).2.1
  have hne : l.slotAt .input ≠ 0 := by
    show l.targetSlot ≠ 0
    rw [hplace]
    exact Nat.one_ne_zero
  obtain ⟨m, hm, hat⟩ := hremoved.place ⟨2⟩ l hl htarget hne
  refine ⟨s, hs, hremoved, m, hm, ?_⟩
  have hat : l.targetSlot = Graph.placeBefore 0 m.targetSlot := hat
  rw [hplace] at hat
  unfold Graph.placeBefore at hat
  split at hat <;> omega

end Dataflow
