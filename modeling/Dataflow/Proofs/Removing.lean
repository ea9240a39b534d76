/-
  Removing nodes.

  A node is removed in steps: its inputs are cleared one by one, then its outputs, with the links of
  each slot looked up when it is cleared; then the node is taken out.  What comes of it can be said
  at once (`Graph.removing`): the links that touch the node are gone, the node is gone, and the order
  is computed anew.  Links are lost at this node only (`Session.Sheds`), and none is left there.

  Said so, removals do not depend on their sequence (`Graph.removing_comm`): the links that go with
  one node or another are those that touch either, and only the last order computed is kept.
-/

import Dataflow.Proofs.Agreement
import Dataflow.Proofs.Merge
import Dataflow.Proofs.Schedule
import Dataflow.Proofs.Severing

namespace Dataflow

variable {B σ : Type}

/-! ## Graphs without a node -/

theorem Assoc.erase_comm {κ α : Type} [DecidableEq κ] (m : Assoc κ α) (k i : κ) :
    (m.erase k).erase i = (m.erase i).erase k := by
  refine (Assoc.filter_filter ..).trans (Eq.trans ?_ (Assoc.filter_filter ..).symm)
  exact Assoc.filter_congr fun _ _ _ => Bool.and_comm ..

namespace Graph

/-- Whether a link touches a node. -/
def touching (g : Graph B) (id : NodeId) (k : LinkId) : Bool := (g.links.get? k).any (·.touches id)

/-- The graph without a node. -/
def eraseNode (g : Graph B) (id : NodeId) : Graph B := { g with nodes := g.nodes.erase id }

/-- The graph without a node and its links, its order still to be computed. -/
def excised (g : Graph B) (id : NodeId) : Graph B :=
  ((g.severed (g.touching id)).eraseNode id).bump

/-- The graph after a node was removed, if it was there. -/
def removing (g : Graph B) (id : NodeId) : Graph B :=
  if g.nodes.contains id then (g.excised id).updateOrder else g

variable (g : Graph B)

/-! ### The order computed last -/

/-- Bringing the order up to date notes the place that each node has in it. -/
theorem updateOrder_places : g.updateOrder = g.under
    ⟨fun id => g.computeOrder.idxOf id, g.computeOrder, g.computeOrder.filter g.hasBody, false,
      g.batchDepth⟩ := by
  have hn : g.updateOrder.nodes =
      g.nodes.mapValues fun id n => n.noting (g.computeOrder.idxOf id) := by
    apply Assoc.ext_view
    · rw [Assoc.keys_mapValues, g.reordered_updateOrder.keys]
    · intro id
      refine (get?_number g.nodup_computeOrder g id).trans ?_
      rw [Assoc.get?_mapValues]
      cases hm : g.nodes.get? id with
      | none => rfl
      | some n =>
        have hid : id ∈ g.computeOrder := g.computeOrder_perm.mem_iff.2 (Assoc.mem_keys_of_get? hm)
        rw [Option.map_some, if_pos hid]
        rfl
  obtain ⟨place, h⟩ := g.updateOrder_eq
  have hwhole : g.updateOrder = { g with
      nodes := g.updateOrder.nodes, order := g.computeOrder
      executable := g.computeOrder.filter g.hasBody, stale := false } := by
    rw [h]
    rfl
  rw [hwhole, hn]
  rfl

/-- The order is computed from the rest, whatever it was before. -/
theorem updateOrder_under {c : Schedule} (hc : c.batchDepth = g.batchDepth) :
    (g.under c).updateOrder = g.updateOrder := by
  rw [updateOrder_places, updateOrder_places, under_under, computeOrder_under,
    funext (g.hasBody_under c), ← hc]
  rfl

/-! ### One removal -/

theorem severed_under (c : Schedule) (gone : LinkId → Bool) :
    (g.under c).severed gone = (g.severed gone).under { c with stale := true } := by
  have hn : (g.under c).nodes.mapValues (fun _ n => n.lacking gone) =
      (g.severed gone).nodes.mapValues fun id n => n.noting (c.place id) := by
    refine (Assoc.mapValues_mapValues g.nodes (fun id n => n.noting (c.place id))
      fun _ n => n.lacking gone).trans ?_
    exact (Assoc.mapValues_mapValues g.nodes (fun _ n => n.lacking gone)
      fun id n => n.noting (c.place id)).symm
  exact congrArg (fun nodes : Assoc NodeId (Node B) =>
    ({ g.severed gone with
      nodes, order := c.order, executable := c.executable, batchDepth := c.batchDepth } : Graph B)) hn

theorem excised_under (c : Schedule) (id : NodeId) :
    (g.under c).excised id = (g.excised id).under { c with stale := true } := by
  have hs := g.severed_under c (g.touching id)
  have he := (g.severed (g.touching id)).eraseNode_under { c with stale := true } id
  show (((g.under c).severed (g.touching id)).eraseNode id).bump = _
  rw [hs]
  exact congrArg bump he

theorem severed_eraseNode (gone : LinkId → Bool) (id : NodeId) :
    (g.eraseNode id).severed gone = (g.severed gone).eraseNode id := by
  have hn := g.nodes.mapValues_erase (fun _ n => n.lacking gone) id
  unfold severed eraseNode
  rw [hn]

theorem severed_bump (gone : LinkId → Bool) : g.bump.severed gone = (g.severed gone).bump := by
  have hv : g.version + 1 + (g.links.filter fun k _ => gone k).size =
      g.version + (g.links.filter fun k _ => gone k).size + 1 := Nat.add_right_comm ..
  exact congrArg (fun version => ({ g.severed gone with version } : Graph B)) hv

/-! ### Two removals -/

/-- What is lost with one node, and then with another one. -/
theorem excised_excised (a b : NodeId) : (g.excised a).excised b =
    (((g.severed fun k => g.touching a k || g.touching b k).eraseNode a).eraseNode b).bump.bump := by
  have hrest : ∀ k, (g.touching a k || (g.excised a).touching b k) =
      (g.touching a k || g.touching b k) := by
    intro k
    have hk : (g.excised a).links.get? k = if g.touching a k then none else g.links.get? k :=
      g.get?_links_severed (g.touching a) k
    unfold touching at hk ⊢
    rw [hk]
    cases (g.links.get? k).any (·.touches a) <;> rfl
  have hs : (g.excised a).severed ((g.excised a).touching b) =
      ((g.severed fun k => g.touching a k || g.touching b k).eraseNode a).bump := by
    rw [show (g.excised a).severed ((g.excised a).touching b) = _ from severed_bump _ _,
      severed_eraseNode, severed_severed, funext hrest]
  show (((g.excised a).severed ((g.excised a).touching b)).eraseNode b).bump = _
  rw [hs]
  rfl

theorem excised_comm (a b : NodeId) : (g.excised a).excised b = (g.excised b).excised a := by
  have hcomm : ∀ g : Graph B, (g.eraseNode a).eraseNode b = (g.eraseNode b).eraseNode a := by
    intro g
    have hn := g.nodes.erase_comm a b
    unfold eraseNode
    rw [hn]
  have hor : (fun k => g.touching a k || g.touching b k) =
      fun k => g.touching b k || g.touching a k := funext fun k => Bool.or_comm ..
  rw [excised_excised, excised_excised, hcomm, hor]

theorem contains_excised {a b : NodeId} (hne : b ≠ a) :
    (g.excised a).nodes.contains b = g.nodes.contains b := by
  rw [Assoc.contains_eq_isSome, Assoc.contains_eq_isSome]
  have hn : (g.excised a).nodes.get? b = (g.severed (g.touching a)).nodes.get? b := by
    refine (Assoc.get?_erase ..).trans (if_neg hne)
  rw [hn, get?_severed, Option.isSome_map]

theorem contains_updateOrder (id : NodeId) :
    g.updateOrder.nodes.contains id = g.nodes.contains id := by
  rw [updateOrder_places, contains_under]

/-- The sequence in which two nodes are removed does not matter. -/
theorem removing_comm (a b : NodeId) : (g.removing a).removing b = (g.removing b).removing a := by
  have hboth : ∀ a b : NodeId, a ≠ b → g.nodes.contains a = true → g.nodes.contains b = true →
      (g.removing a).removing b = ((g.excised a).excised b).updateOrder := by
    intro a b hne ha hb
    have hb' : (g.excised a).updateOrder.nodes.contains b = true := by
      rw [contains_updateOrder, contains_excised g hne.symm, hb]
    unfold removing
    rw [if_pos ha, if_pos hb', (g.excised a).updateOrder_places, excised_under, updateOrder_under]
    rfl
  have habsent : ∀ a b : NodeId, g.nodes.contains a = false →
      (g.removing a).removing b = (g.removing b).removing a := by
    intro a b ha
    have ha' : (g.removing b).nodes.contains a = false := by
      unfold removing
      split
      · next hb =>
        have hne : a ≠ b := fun h => by simp [h, hb] at ha
        rw [contains_updateOrder, contains_excised g hne, ha]
      · exact ha
    have hstay : ∀ {g : Graph B}, g.nodes.contains a = false → g.removing a = g := by
      intro g h
      unfold removing
      rw [if_neg (Bool.eq_false_iff.1 h)]
    rw [hstay ha, hstay ha']
  by_cases hne : a = b
  · rw [hne]
  · cases ha : g.nodes.contains a with
    | false => exact habsent a b ha
    | true =>
      cases hb : g.nodes.contains b with
      | false => exact (habsent b a hb).symm
      | true => rw [hboth a b hne ha hb, hboth b a (Ne.symm hne) hb ha, excised_comm]

/-! ### Removals and behaviours -/

section Memory

variable [Kind B]

theorem hushed_under (c : Schedule) : (g.under c).hushed = g.hushed.under c := by
  have hn : (g.under c).hush = g.hush.mapValues fun id n => n.noting (c.place id) := by
    refine (Assoc.mapValues_mapValues g.nodes (fun id n => n.noting (c.place id))
      fun _ n => n.hushed).trans ?_
    exact (Assoc.mapValues_mapValues g.nodes (fun _ n => n.hushed)
      fun id n => n.noting (c.place id)).symm
  unfold hushed
  rw [hn]
  rfl

theorem computeOrder_hushed : g.hushed.computeOrder = g.computeOrder := by
  apply computeOrder_of_flow (flow_of_wiring (wiring_of_skeleton g.skeleton_hushed))
  intro id
  unfold priority
  rw [get?_hushed]
  cases g.nodes.get? id <;> rfl

theorem hasBody_hushed : g.hushed.hasBody = g.hasBody := by
  funext id
  unfold hasBody
  rw [get?_hushed]
  cases g.nodes.get? id <;> rfl

theorem hushed_updateOrder : g.updateOrder.hushed = g.hushed.updateOrder := by
  rw [updateOrder_places, hushed_under, updateOrder_places, computeOrder_hushed, hasBody_hushed]
  rfl

theorem hushed_eraseNode (id : NodeId) : (g.eraseNode id).hushed = g.hushed.eraseNode id := by
  have hn : (g.eraseNode id).hush = g.hush.erase id := g.nodes.mapValues_erase (fun _ n => n.hushed) id
  unfold hushed
  rw [hn]
  rfl

theorem hushed_excised (id : NodeId) : (g.excised id).hushed = g.hushed.excised id := by
  have hs := (g.severed (g.touching id)).hushed_eraseNode id
  rw [hushed_severed] at hs
  exact congrArg bump hs

theorem hushed_removing (id : NodeId) : (g.removing id).hushed = g.hushed.removing id := by
  have hc : g.hushed.nodes.contains id = g.nodes.contains id := Assoc.contains_mapValues ..
  unfold removing
  rw [hc]
  split
  · rw [hushed_updateOrder, hushed_excised]
  · rfl

end Memory

end Graph

/-! ## Isolating a node -/

namespace Session

variable [Kind B]

/-- A session is another one that has lost some links of a node. -/
def Sheds (id : NodeId) (s t : Session B σ) : Prop :=
  ∃ gone : LinkId → Bool,
    (∀ k l, s.graph.links.get? k = some l → gone k = true → l.touches id = true) ∧
      (s.graph.severed gone).UpToMemory t.graph.flagged

namespace Sheds

variable {id : NodeId} {s t u : Session B σ}

theorem refl (id : NodeId) (s : Session B σ) : Sheds id s s :=
  ⟨fun _ => false, fun _ _ _ h => Bool.noConfusion h, s.graph.severed_false ▸ .refl _⟩

theorem trans (h : Sheds id s t) (h' : Sheds id t u) : Sheds id s u := by
  obtain ⟨p, hp, hst⟩ := h
  obtain ⟨q, hq, htu⟩ := h'
  have hlinks : t.graph.links = (s.graph.severed p).links := hst.links
  refine ⟨fun k => p k || q k, fun k l hl (hk : (p k || q k) = true) => ?_, ?_⟩
  · cases hpk : p k with
    | true => exact hp k l hl hpk
    | false =>
      -- a link that the first session has kept is lost by the second
      have hqk : q k = true := by rwa [hpk, Bool.false_or] at hk
      refine hq k l ?_ hqk
      rw [hlinks, Graph.get?_links_severed, hpk]
      exact hl
  · rw [← Graph.severed_severed]
    exact (hst.severed q).trans htu

theorem batchDepth (h : Sheds id s t) : t.graph.batchDepth = s.graph.batchDepth := by
  obtain ⟨gone, -, hst⟩ := h
  exact congrArg Skeleton.batchDepth hst.skeleton

end Sheds

variable {s : Session B σ}

theorem sheds_disconnectInput (hs : s.graph.Joined) (hb : s.graph.batchDepth ≠ 0) (id : NodeId)
    (slot : Nat) : Sheds id s (s.disconnectInput id slot).2 := by
  refine ⟨_, fun k l hl hk => ?_, disconnectInput_severs hb hs id slot⟩
  obtain ⟨i, hi, hik⟩ := Option.bind_eq_some_iff.1 (of_decide_eq_true hk)
  obtain ⟨m, hm, ht, -⟩ := hs.of_input hi hik
  cases Option.some.inj (hl.symm.trans hm)
  exact Bool.or_eq_true_iff.2 (.inr (decide_eq_true ht))

theorem sheds_disconnectOutput (hs : s.graph.Joined) (hb : s.graph.batchDepth ≠ 0) (id : NodeId)
    (slot : Nat) : Sheds id s (s.disconnectOutput id slot none).2 := by
  refine ⟨_, fun k l hl hk => ?_, disconnectOutput_severs hb hs id slot⟩
  obtain ⟨m, hm, ho, -⟩ := (hs.outputs id slot k).1 (mem_leaving.1 (of_decide_eq_true hk))
  cases Option.some.inj (hl.symm.trans hm)
  exact Bool.or_eq_true_iff.2 (.inl (decide_eq_true ho))

/-- What sheds links of a node does so slot by slot. -/
theorem sheds_foldl {I : Graph B → Prop} {id : NodeId} {f : Session B σ → Nat → Session B σ}
    (hI : ∀ s slot, I s.graph → I (f s slot).graph)
    (hf : ∀ s slot, I s.graph → s.graph.batchDepth ≠ 0 → Sheds id s (f s slot)) (slots : List Nat)
    (hs : I s.graph) (hb : s.graph.batchDepth ≠ 0) : Sheds id s (slots.foldl f s) := by
  induction slots generalizing s with
  | nil => exact .refl id s
  | cons slot slots ih =>
    have hone := hf s slot hs hb
    exact hone.trans (ih (hI s slot hs) (hone.batchDepth ▸ hb))

/-- Isolating a node in a batch breaks the links that touch it, and no other. -/
theorem isolate_severs (hs : s.graph.Consistent) (hb : s.graph.batchDepth ≠ 0) {id : NodeId}
    {n : Node B} (hn : s.graph.nodes.get? id = some n) :
    (s.graph.severed (s.graph.touching id)).UpToMemory (s.isolate id n).graph.flagged := by
  have hup : Upkeep (Graph.Tidy s.graph.registry) := upkeep_tidy _
  have htidy : s.graph.Tidy s.graph.registry := ⟨hs, rfl⟩
  obtain ⟨hmid, -⟩ := disconnectInputs_spec hup id (linkedInputs n) htidy
  have hin : Sheds id s ((linkedInputs n).foldl (fun s slot => (s.disconnectInput id slot).2) s) :=
    sheds_foldl (fun s slot h => upkeep_disconnectInput hup h id slot)
      (fun s slot h hb => sheds_disconnectInput (hup.joined h) hb id slot) _ htidy hb
  have hout : Sheds id _ (s.isolate id n) :=
    sheds_foldl (fun s slot h => upkeep_disconnectOutput hup h id slot none)
      (fun s slot h hb => sheds_disconnectOutput (hup.joined h) hb id slot) _ hmid
      (hin.batchDepth ▸ hb)
  obtain ⟨gone, hgone, hsev⟩ := hin.trans hout
  obtain ⟨-, hfree, hfree'⟩ := isolated hup htidy hn
  rw [Graph.severed_congr hs.toJoined (q := gone)]
  · exact hsev
  intro k l hl
  have hk : s.graph.touching id k = l.touches id := by
    unfold Graph.touching
    rw [hl]
    rfl
  rw [hk]
  have hleft : (s.isolate id n).graph.links.get? k = if gone k then none else some l := by
    rw [show (s.isolate id n).graph.links = (s.graph.severed gone).links from hsev.links,
      Graph.get?_links_severed, hl]
  cases hg : gone k with
  | true => exact hgone k l hl hg
  | false =>
    -- a link that is left does not touch the node, for none is left there
    rw [hg] at hleft
    refine Bool.or_eq_false_iff.2 ⟨decide_eq_false fun ho => ?_, decide_eq_false fun ht => ?_⟩
    · exact hfree' k l.originSlot ⟨l, hleft, ho, rfl⟩
    · exact hfree k l.targetSlot ⟨l, hleft, ht, rfl⟩

/-! ## Removing a node -/

/-- A graph after an isolated node was taken out and the batch closed, the order not yet computed. -/
def withoutNode (g : Graph B) (id : NodeId) : Graph B :=
  { (g.flagged.eraseNode id).bump with batchDepth := g.batchDepth - 1 }

theorem hushed_withoutNode (g : Graph B) (id : NodeId) :
    (withoutNode g id).hushed = withoutNode g.hushed id :=
  congrArg (fun g' : Graph B => { g'.flagged.bump with batchDepth := g.batchDepth - 1 })
    (g.hushed_eraseNode id)

/-- What is removed is the node as it is without its links, and the graph is as `removing` says. -/
theorem remove_spec (hs : s.graph.Consistent) (h0 : s.graph.batchDepth = 0) {id : NodeId}
    {n : Node B} (hn : s.graph.nodes.get? id = some n) :
    (∃ m : Node B, (s.remove id).1 = some { m with id := none } ∧
      m.hushed = (n.lacking (s.graph.touching id)).hushed) ∧
    ((s.graph.excised id).updateOrder).UpToMemory (s.remove id).2.graph := by
  have hopen : s.beginBatch.graph.Consistent := hs.of_wiring (wiring_beginBatch s)
  have hdepth : s.beginBatch.graph.batchDepth = 1 := congrArg (· + 1) h0
  -- the links go first, one at a time
  have hiso := isolate_severs hopen (by rw [hdepth]; exact Nat.one_ne_zero) hn
  have htold := hiso.trans ((upToMemory_tell (s.beginBatch.isolate id n) id .removed).flagged)
  unfold remove extract
  rw [hn]
  dsimp only
  revert htold
  generalize (s.beginBatch.isolate id n).tell id .removed = told
  intro htold
  -- being told, the node may change its memory, and nothing else
  have hnode : (told.graph.nodes.get? id).map Node.hushed =
      some (n.lacking (s.graph.touching id)).hushed := by
    have h := htold.node id
    rw [Graph.get?_severed] at h
    refine h.trans ?_
    show ((s.graph.nodes.get? id).map _).map _ = _
    rw [hn]
    rfl
  obtain ⟨m, hm, hquiet⟩ := Option.map_eq_some_iff.1 hnode
  have hone : told.graph.batchDepth = 1 := (congrArg Skeleton.batchDepth htold.skeleton).trans hdepth
  rw [hm]
  refine ⟨⟨m, rfl, hquiet⟩, ?_⟩
  -- the batch is the only one, so the order is brought up to date when it closes
  have hend : ((told.edit fun g => { g with nodes := g.nodes.erase id }.bump).markStale.endBatch).graph =
      (withoutNode told.graph id).updateOrder := by
    unfold endBatch refresh
    rw [if_pos]
    · rfl
    · refine Bool.and_eq_true_iff.2 ⟨decide_eq_true ?_, rfl⟩
      exact congrArg (· - 1) hone
  show Graph.UpToMemory _ ((told.edit fun g =>
    { g with nodes := g.nodes.erase id }.bump).markStale.endBatch).graph
  rw [hend]
  have hwithout := (htold.map fun g => hushed_withoutNode g id).map fun g => g.hushed_updateOrder
  refine Graph.UpToMemory.trans (.of_eq ?_) hwithout
  rfl

/-- Removing what is not there changes nothing. -/
theorem remove_absent {id : NodeId} (h : s.graph.nodes.contains id = false) : (s.remove id).2 = s := by
  have hn : s.graph.nodes.get? id = none :=
    Option.isNone_iff_eq_none.1 (by rw [← Option.isSome_eq_false_iff]; exact h)
  unfold remove
  rw [hn]

theorem remove_removing (hs : s.graph.Consistent) (h0 : s.graph.batchDepth = 0) (id : NodeId) :
    (s.graph.removing id).UpToMemory (s.remove id).2.graph := by
  unfold Graph.removing
  cases hc : s.graph.nodes.contains id with
  | false => rw [remove_absent hc]; exact .refl _
  | true =>
    obtain ⟨n, hn⟩ := Option.isSome_iff_exists.1 hc
    exact (remove_spec hs h0 hn).2

/-- Nodes removed one after the other. -/
def removeAll (s : Session B σ) (ids : List NodeId) : Session B σ :=
  ids.foldl (fun s id => (s.remove id).2) s

theorem removeAll_removing (ids : List NodeId) (hs : s.graph.Consistent)
    (h0 : s.graph.batchDepth = 0) :
    (ids.foldl Graph.removing s.graph).UpToMemory (s.removeAll ids).graph := by
  induction ids generalizing s with
  | nil => exact .refl _
  | cons id ids ih =>
    have hone := remove_removing hs h0 id
    have hrest : ∀ ids : List NodeId, ∀ g : Graph B,
        (ids.foldl Graph.removing g).hushed = ids.foldl Graph.removing g.hushed := by
      intro ids
      induction ids with
      | nil => exact fun _ => rfl
      | cons id ids ih => exact fun g => (ih (g.removing id)).trans (by rw [g.hushed_removing]; rfl)
    have hs' : (s.remove id).2.graph.Consistent :=
      ((upkeep_remove (upkeep_tidy s.graph.registry) ⟨hs, rfl⟩ id).1).1
    have h0' : (s.remove id).2.graph.batchDepth = 0 := by
      refine (congrArg Skeleton.batchDepth hone.skeleton).trans ?_
      show (s.graph.removing id).batchDepth = 0
      unfold Graph.removing
      split
      · rw [Graph.updateOrder_places]
        exact h0
      · exact h0
    exact (hone.map (hrest ids)).trans (ih hs' h0')

end Session

/-! ## What a removal leaves -/

/-- What is left of a graph when a node was removed. -/
structure Graph.Removed [Kind B] (g : Graph B) (id : NodeId) (g' : Graph B) : Prop where
  /-- The links that touch the node are gone, the others as they were, in the same sequence. -/
  links : g'.links = g.links.filter fun _ l => !l.touches id
  keys : g'.nodes.keys = g.nodes.keys.filter (· ≠ id)
  /-- Every other node has lost the links that are gone, and notes its place in the order, what its
  behaviour remembers aside. -/
  nodes : ∀ i n, i ≠ id → g.nodes.get? i = some n → ∃ m, g'.nodes.get? i = some m ∧
    m.hushed = ((n.lacking (g.touching id)).noting (g'.order.idxOf i)).hushed
  /-- Behaviours are as they were when they forget what they are told. -/
  exact : (∀ (b : B) notice, Kind.told b notice = b) → ∀ i n, i ≠ id → g.nodes.get? i = some n →
    g'.nodes.get? i = some ((n.lacking (g.touching id)).noting (g'.order.idxOf i))
  current : g'.Current
  /-- Every broken link counts as a change, and the removal as one more. -/
  version : g'.version = g.version + (g.linksFor id).length + 1
  rest : g' = { g with
    nodes := g'.nodes, links := g'.links, version := g'.version, order := g'.order
    executable := g'.executable, stale := false }

namespace Graph

variable [Kind B] {g g' : Graph B} {id : NodeId}

omit [Kind B] in
theorem get?_excised {i : NodeId} (hi : i ≠ id) :
    (g.excised id).nodes.get? i = (g.nodes.get? i).map (Node.lacking (g.touching id)) :=
  ((Assoc.get?_erase ..).trans (if_neg hi)).trans (g.get?_severed (g.touching id) i)

omit [Kind B] in
theorem touching_of_get? {k : LinkId} {l : Link} (hl : g.links.get? k = some l) :
    g.touching id k = l.touches id := by
  unfold touching
  rw [hl]
  rfl

theorem removed_of_excised (h : ((g.excised id).updateOrder).UpToMemory g') : g.Removed id g' := by
  have hplaces := (g.excised id).updateOrder_places
  have hnode : ∀ i n, i ≠ id → g.nodes.get? i = some n → (g.excised id).updateOrder.nodes.get? i =
      some ((n.lacking (g.touching id)).noting ((g.excised id).updateOrder.order.idxOf i)) := by
    intro i n hi hn
    rw [hplaces, get?_under, get?_excised hi, hn]
    rfl
  have horder : g'.order = (g.excised id).updateOrder.order := congrArg Skeleton.order h.skeleton
  have htrusted : g'.Trusted := (g.excised id).trusted_updateOrder.of_skeleton h.skeleton
  have hfresh : g'.stale = false := congrArg Skeleton.stale h.skeleton
  refine ⟨?links, ?keys, fun i n hi hn => ?nodes, fun hf i n hi hn => ?exact,
    htrusted.current hfresh, ?version, ?rest⟩
  case links =>
    rw [h.links, hplaces]
    show (g.links.filter fun k _ => !g.touching id k) = _
    exact Assoc.filter_congr fun k l hl => by rw [touching_of_get? hl]
  case keys =>
    rw [h.keys, hplaces, keys_under]
    refine (Assoc.keys_erase ..).trans ?_
    rw [show (g.severed (g.touching id)).nodes.keys = g.nodes.keys from Assoc.keys_mapValues ..]
  case nodes =>
    have hm := h.node i
    rw [hnode i n hi hn] at hm
    rw [horder]
    exact Option.map_eq_some_iff.1 hm
  case exact =>
    rw [horder, h.exact hf]
    exact hnode i n hi hn
  case version =>
    have hcount : (g.links.filter fun k _ => g.touching id k).size = (g.linksFor id).length := by
      rw [Assoc.filter_congr (q := fun _ l => l.touches id) fun k l hl => touching_of_get? hl]
      show (g.links.entries.filter _).length = ((g.links.entries.map Prod.snd).filter _).length
      rw [List.filter_map, List.length_map]
      rfl
    rw [h.version, hplaces, ← hcount]
    rfl
  case rest =>
    rw [h.rest, hplaces]
    rfl

end Graph

/-- Removing a node removes its links and nothing else: they are gone from the other nodes, whose
places in the order are noted anew, and the node that is given back has no identity and no links.
So nodes may be removed in any sequence. -/
theorem Session.removal_exact [Kind B] :
    (∀ (s : Session B σ) (id : NodeId) (n : Node B), s.graph.Consistent → s.graph.batchDepth = 0 →
      s.graph.nodes.get? id = some n →
      (∃ m, (s.remove id).1 = some m ∧ m.id = none ∧ (∀ i ∈ m.inputs, i.link = none) ∧
        (∀ o ∈ m.outputs, o.links = []) ∧
        m.hushed = ({ n.lacking (s.graph.touching id) with id := none } : Node B).hushed) ∧
      s.graph.Removed id (s.remove id).2.graph) ∧
    ∀ (s : Session B σ) (ids ids' : List NodeId), s.graph.Consistent → s.graph.batchDepth = 0 →
      ids.Perm ids' → (s.removeAll ids).graph.UpToMemory (s.removeAll ids').graph := by
  refine ⟨fun s id n hs h0 hn => ?_, fun s ids ids' hs h0 hperm => ?_⟩
  · obtain ⟨⟨m, hm, hquiet⟩, hgraph⟩ := remove_spec hs h0 hn
    have hloose : ({ m with id := none } : Node B).Loose :=
      (upkeep_remove (upkeep_tidy s.graph.registry) ⟨hs, rfl⟩ id).2 _ hm
    refine ⟨⟨_, hm, rfl, hloose.inputs, hloose.outputs, ?_⟩, Graph.removed_of_excised hgraph⟩
    exact congrArg (fun n : Node B => { n with id := none }) hquiet
  · have : RightCommutative (Graph.removing (B := B)) := ⟨fun g a b => g.removing_comm a b⟩
    have hsame : ids.foldl Graph.removing s.graph = ids'.foldl Graph.removing s.graph :=
      hperm.foldl_eq s.graph
    exact (removeAll_removing ids hs h0).symm.trans (hsame ▸ removeAll_removing ids' hs h0)

/-! ## Three nodes -/

/-- Links two nodes both ways and one of them to a third, in a batch that stays open. -/
def entangled : Body Catalog Unit (Except ConnectionError LinkId) := do
  let joint : Node Catalog :=
    { Node.new "joint" with inputs := [.new "in" .any], outputs := [.new "out" .any] }
  Body.edit .beginBatch
  let _ ← Body.perform (.add joint)
  let _ ← Body.perform (.add joint)
  let _ ← Body.perform (.add joint)
  let _ ← Body.edit (.tryConnect ⟨1⟩ 0 ⟨2⟩ 0)
  let _ ← Body.edit (.tryConnect ⟨2⟩ 0 ⟨1⟩ 0)
  Body.edit (.tryConnect ⟨1⟩ 0 ⟨3⟩ 0)

theorem entangled_obeys (r : Registry Catalog) : entangled.Obeys (linking r) := by
  have hjoint : ({ Node.new "joint" with
      inputs := [.new "in" .any], outputs := [.new "out" .any] } : Node Catalog).Loose :=
    ⟨by simp [Input.new], by simp [Output.new], by simp [Node.new]⟩
  refine ⟨trivial, fun _ _ => ⟨hjoint, fun _ _ => ⟨hjoint, fun _ _ => ⟨hjoint, fun _ _ => ?_⟩⟩⟩⟩
  exact ⟨trivial, fun _ _ => ⟨trivial, fun _ _ => ⟨trivial, fun _ _ => trivial⟩⟩⟩

theorem entangled_evaluates : ((Engine.exec 1 entangled
      (⟨Graph.empty ∅ .default, [], ()⟩ : Session Catalog Unit)).any fun e =>
    decide (e.2.graph.links.keys = [⟨1⟩, ⟨2⟩, ⟨3⟩]) &&
      decide ((e.2.graph.links.filter fun _ l => !l.touches ⟨2⟩).keys = [⟨3⟩]) &&
      e.2.graph.nodes.contains ⟨2⟩) = true := by
  decide +kernel

/-- With the second node go the two links between it and the first, and the first two nodes may be
removed in either sequence. -/
theorem entangled_removed : ∃ s : Session Catalog Unit, s.graph.Consistent ∧
    s.graph.batchDepth = 0 ∧ s.graph.links.keys = [⟨1⟩, ⟨2⟩, ⟨3⟩] ∧
    s.graph.Removed ⟨2⟩ (s.remove ⟨2⟩).2.graph ∧ (s.remove ⟨2⟩).2.graph.links.keys = [⟨3⟩] ∧
    (s.removeAll [⟨1⟩, ⟨2⟩]).graph = (s.removeAll [⟨2⟩, ⟨1⟩]).graph := by
  obtain ⟨⟨answer, s⟩, hr, hfacts⟩ := (Option.any_eq_true _ _).1 entangled_evaluates
  simp only [Bool.and_eq_true, decide_eq_true_eq] at hfacts
  obtain ⟨⟨hkeys, hleft⟩, hnode⟩ := hfacts
  obtain ⟨n, hn⟩ := Option.isSome_iff_exists.1 hnode
  have hs : s.graph.Consistent :=
    (Engine.keeps_exec (Engine.lawful_linking ∅) (Catalog.obeys_linking ∅) (entangled_obeys ∅) 1
      ⟨Graph.empty ∅ .default, [], ()⟩ (Graph.tidy_empty ∅ .default) _ s hr).1
  let closed : Session Catalog Unit := s.edit fun g => { g with batchDepth := 0 }
  have hc : closed.graph.Consistent := by
    refine hs.of_wiring ?_
    rfl
  have hremoved := (Session.removal_exact.1 closed ⟨2⟩ n hc rfl hn).2
  have hsame := Session.removal_exact.2 closed [⟨1⟩, ⟨2⟩] [⟨2⟩, ⟨1⟩] hc rfl (.swap ..)
  refine ⟨closed, hc, rfl, hkeys, hremoved, ?_, ?_⟩
  · rw [hremoved.links]
    exact hleft
  · exact (hsame.exact fun _ _ => rfl).symm

end Dataflow
