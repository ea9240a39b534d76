/-
  What happens to identities, step by step.

  The engine changes a graph in small steps (`Graph.Step`): an edit, a node that is placed, a link
  of a snapshot that is merged, a behaviour that leaves its node or returns, a pass that is counted.
  The `Stroke` of a step says whether it gave an identity to a node or a link, whether that was the
  one asked for, and whether everything was removed.  A run is a path of such steps
  (`Graph.Path`), with the graph after each of them.  An edit is one step; whatever lives in the
  middle of it lives before it or after it.

  Of each step it is enough to know what it does to the identities in use and to the two counters:
  the `Ledger` of the graph.  A step that hands out nothing is frugal: nothing comes to live, and no
  counter goes down (`Ledger.Frugal`).  `Ledger.Tally` says the same for all strokes.
-/

import Dataflow.Proofs.Report
import Dataflow.Proofs.Sound

namespace Dataflow

variable {B σ : Type}

/-! ## Strokes -/

/-- What a step does with identities. -/
inductive Stroke where
  /-- Everything was removed. -/
  | cleared
  /-- A node asked for no identity, or for one that was taken, and got this one. -/
  | nodeIssued (id : NodeId)
  /-- A node got the free identity that it asked for. -/
  | nodeGranted (id : NodeId)
  /-- A new link got this identity, or a link of a snapshot whose own was taken. -/
  | linkIssued (id : LinkId)
  /-- A link of a snapshot kept its identity. -/
  | linkGranted (id : LinkId)
  /-- A link of a snapshot took the place of another one, recorded with the same identity in the
  same snapshot; `before` are the links that were there when the snapshot's were not yet. -/
  | linkRenewed (id : LinkId) (before : List LinkId)
  | quiet

namespace Stroke

/-- The identity that a node got. -/
def node? : Stroke → Option NodeId
  | nodeIssued id | nodeGranted id => some id
  | _ => none

/-- The identity that a link got. -/
def link? : Stroke → Option LinkId
  | linkIssued id | linkGranted id | linkRenewed id _ => some id
  | _ => none

end Stroke

/-- What an attempt to make a link does with identities, by its answer. -/
def connecting : Except ConnectionError LinkId → Stroke
  | .ok id => .linkIssued id
  | .error _ => .quiet

/-- What an edit does with identities, by its answer. -/
def Edit.stroke : (e : Edit) → e.Answer B → Stroke
  | .clear, _ => .cleared
  | .tryConnect .., answer => connecting answer
  | .connectByName .., answer => connecting answer
  | _, _ => .quiet

/-- What placing a node does with identities. -/
def Graph.placing (g : Graph B) (requested : Option NodeId) : Stroke :=
  if requested.any fun id => !g.nodes.contains id then .nodeGranted (g.claimNode requested).1
  else .nodeIssued (g.claimNode requested).1

/-- What merging a link of a snapshot does with identities. -/
def LinkLoad.stroke (nodes : Renaming NodeId) (before : List LinkId) (load : LinkLoad B)
    (r : LinkRecord) : Stroke :=
  if (nodes.get? r.origin).isNone || (nodes.get? r.target).isNone then .quiet
  else if load.table.contains r.id then .linkRenewed (load.claim r.id).1 before
  else if load.graph.links.contains r.id then .linkIssued (load.claim r.id).1
  else .linkGranted (load.claim r.id).1

/-! ## Steps -/

namespace Graph

/-- The steps by which the engine changes a graph. -/
inductive Step [Kind B] : Graph B → Stroke → Graph B → Prop where
  | edited {σ : Type} (s : Session B σ) (e : Edit) :
    Step s.graph (e.stroke (e.apply s).1) (e.apply s).2.graph
  | placed (g : Graph B) (n : Node B) :
    Step g (g.placing n.id) (g.place n (g.claimNode n.id).1 (g.claimNode n.id).2)
  /-- A behaviour leaves its node, or returns. -/
  | exchanged (g : Graph B) (id : NodeId) (b : Option B) :
    Step g .quiet (g.modifyNode id fun n => { n with behavior := b })
  | told {σ : Type} (s : Session B σ) (id : NodeId) (notice : Notice) :
    Step s.graph .quiet (s.tell id notice).graph
  | marked (g : Graph B) (k : LinkId) :
    Step g .quiet (g.modifyLink k fun l => { l with triggered := true })
  | counted (g : Graph B) (fixedTime : Float) (iteration : Nat) (failed : Bool) :
    Step g .quiet { g with fixedTime, iteration, failed }
  | staled (g : Graph B) : Step g .quiet { g with stale := true }
  | bumped (g : Graph B) : Step g .quiet g.bump
  | configured (g : Graph B) (entries : List (String × Value)) :
    Step g .quiet { g with config := g.config.insertAll entries }
  /-- One more link of a snapshot is merged into what was the graph `g`. -/
  | merged (g : Graph B) (nodes : Renaming NodeId) (records : List LinkRecord) (r : LinkRecord) :
    Step (g.mergeLinks nodes records).graph
      ((g.mergeLinks nodes records).stroke nodes g.links.keys r)
      (g.mergeLinks nodes (records ++ [r])).graph
  | adopted {σ : Type} (s : Session B σ) (table : Renaming LinkId) (id : NodeId) (r : NodeRecord) :
    Step s.graph .quiet (s.adopt table id r).2.graph
  | repaired (g : Graph B) (pruned : List LinkId) : Step g .quiet (g.repair pruned).graph
  /-- The counter for links is at least the one of a snapshot. -/
  | raised (g : Graph B) (nextLink : Nat) :
    Step g .quiet { g with nextLink := max g.nextLink nextLink }
  /-- The frames of a snapshot come, and the counter for nodes is at least its own. -/
  | framed (g : Graph B) (groups : List Group) (nextNode : Nat) :
    Step g .quiet { g with groups, nextNode := max g.nextNode nextNode }

/-- A step that was taken, and the graph after it. -/
structure Moment (B : Type) where
  stroke : Stroke
  graph : Graph B

/-- A path of steps from one graph to another, first to last. -/
def Path [Kind B] : Graph B → List (Moment B) → Graph B → Prop
  | g, [], g' => g' = g
  | g, m :: c, g' => Step g m.stroke m.graph ∧ Path m.graph c g'

namespace Path

variable [Kind B] {g g' g'' : Graph B}

theorem append_iff {c d : List (Moment B)} :
    Path g (c ++ d) g'' ↔ ∃ g', Path g c g' ∧ Path g' d g'' := by
  induction c generalizing g with
  | nil => simp [Path]
  | cons m c ih => simp only [List.cons_append, Path, ih, exists_and_left, and_assoc]

theorem append {c d : List (Moment B)} (h : Path g c g') (h' : Path g' d g'') :
    Path g (c ++ d) g'' := append_iff.2 ⟨g', h, h'⟩

end Path

end Graph

/-! ## Ledgers -/

/-- The identities in use, and where the searches for free ones start. -/
structure Ledger where
  nodes : List NodeId
  links : List LinkId
  nextNode : Nat
  nextLink : Nat

def Graph.ledger (g : Graph B) : Ledger := ⟨g.nodes.keys, g.links.keys, g.nextNode, g.nextLink⟩

theorem Graph.ledger_of_wiring {g g' : Graph B} (h : g'.wiring = g.wiring) : g'.ledger = g.ledger := by
  show (⟨_, _, g'.wiring.nextNode, g'.wiring.nextLink⟩ : Ledger) = _
  rw [keys_nodes_of_wiring h, keys_links_of_wiring h, h]
  rfl

theorem Graph.ledger_modifyNode (g : Graph B) (id : NodeId) (f : Node B → Node B) :
    (g.modifyNode id f).ledger = g.ledger := by
  show (⟨(g.nodes.modify id f).keys, _, _, _⟩ : Ledger) = _
  rw [Assoc.keys_modify]
  rfl

theorem Graph.ledger_modifyLinks (g : Graph B) (ks : List LinkId) (f : Link → Link) :
    (g.modifyLinks ks f).ledger = g.ledger := by
  obtain ⟨hnode, hlink, -⟩ := counters_modifyLinks f ks g
  unfold ledger
  rw [nodes_modifyLinks, keys_links_modifyLinks, hnode, hlink]

theorem Assoc.mem_keys_insert {κ α : Type} [DecidableEq κ] {m : Assoc κ α} {k : κ} {v : α} {i : κ} :
    i ∈ (m.insert k v).keys ↔ i ∈ m.keys ∨ i = k := by
  rw [keys_insert]
  split
  · next hmem => exact ⟨.inl, fun h => h.elim id fun he => he ▸ hmem⟩
  · rw [List.mem_append, List.mem_singleton]

namespace Ledger

/-- Nothing comes to live, and no counter goes down. -/
structure Frugal (a b : Ledger) : Prop where
  nodes : ∀ id ∈ b.nodes, id ∈ a.nodes
  links : ∀ k ∈ b.links, k ∈ a.links
  nextNode : a.nextNode ≤ b.nextNode
  nextLink : a.nextLink ≤ b.nextLink

variable {a b c : Ledger}

theorem Frugal.refl (a : Ledger) : a.Frugal a :=
  ⟨fun _ h => h, fun _ h => h, Nat.le_refl _, Nat.le_refl _⟩

theorem Frugal.of_eq (h : b = a) : a.Frugal b := h ▸ .refl a

theorem Frugal.trans (h : a.Frugal b) (h' : b.Frugal c) : a.Frugal c :=
  ⟨fun id hid => h.nodes id (h'.nodes id hid), fun k hk => h.links k (h'.links k hk),
    Nat.le_trans h.nextNode h'.nextNode, Nat.le_trans h.nextLink h'.nextLink⟩

/-- What a stroke does to a ledger. -/
structure Tally (a : Ledger) (stroke : Stroke) (b : Ledger) : Prop where
  nodes : ∀ id ∈ b.nodes, id ∈ a.nodes ∨ stroke.node? = some id
  links : ∀ k ∈ b.links, k ∈ a.links ∨ stroke.link? = some k
  floor : stroke ≠ .cleared → a.nextNode ≤ b.nextNode ∧ a.nextLink ≤ b.nextLink
  cleared : stroke = .cleared → b = ⟨[], [], 1, 1⟩
  node : ∀ id, stroke.node? = some id →
    id ∉ a.nodes ∧ id ∈ b.nodes ∧ afterId id.number ≤ b.nextNode
  link : ∀ k, stroke.link? = some k → k ∈ b.links ∧ afterId k.number ≤ b.nextLink
  nodeIssued : ∀ id, stroke = .nodeIssued id → a.nextNode ≤ id.number
  linkIssued : ∀ k, stroke = .linkIssued k → a.nextLink ≤ k.number
  linkGranted : ∀ k, stroke = .linkGranted k → k ∉ a.links
  linkRenewed : ∀ k before, stroke = .linkRenewed k before → k ∉ before

theorem Frugal.tally (h : a.Frugal b) : a.Tally .quiet b where
  nodes id hid := .inl (h.nodes id hid)
  links k hk := .inl (h.links k hk)
  floor _ := ⟨h.nextNode, h.nextLink⟩
  cleared h := nomatch h
  node _ h := nomatch h
  link _ h := nomatch h
  nodeIssued _ h := nomatch h
  linkIssued _ h := nomatch h
  linkGranted _ h := nomatch h
  linkRenewed _ _ h := nomatch h

/-- Everything was removed, and counting starts anew. -/
theorem Tally.clear (a : Ledger) : a.Tally .cleared ⟨[], [], 1, 1⟩ where
  nodes _ h := nomatch h
  links _ h := nomatch h
  floor h := absurd rfl h
  cleared _ := rfl
  node _ h := nomatch h
  link _ h := nomatch h
  nodeIssued _ h := nomatch h
  linkIssued _ h := nomatch h
  linkGranted _ h := nomatch h
  linkRenewed _ _ h := nomatch h

/-- A link is issued after identities and counters were treated frugally. -/
theorem Tally.after {k : LinkId} (h : a.Frugal b) (ht : b.Tally (.linkIssued k) c) :
    a.Tally (.linkIssued k) c where
  nodes id hid := (ht.nodes id hid).imp_left (h.nodes id)
  links k' hk' := (ht.links k' hk').imp_left (h.links k')
  floor hne :=
    ⟨Nat.le_trans h.nextNode (ht.floor hne).1, Nat.le_trans h.nextLink (ht.floor hne).2⟩
  cleared h := nomatch h
  node _ h := nomatch h
  link := ht.link
  nodeIssued _ h := nomatch h
  linkIssued k' hk' := Nat.le_trans h.nextLink (ht.linkIssued k' hk')
  linkGranted _ h := nomatch h
  linkRenewed _ _ h := nomatch h

section Link

variable {k : LinkId} (hnodes : b.nodes = a.nodes) (hlinks : ∀ i, i ∈ b.links ↔ i ∈ a.links ∨ i = k)
  (hnode : b.nextNode = a.nextNode) (hfloor : a.nextLink ≤ b.nextLink)
  (hafter : afterId k.number ≤ b.nextLink)
include hnodes hlinks hnode hfloor hafter

/-- A link came under an identity that the counter has passed since. -/
theorem Tally.of_link {stroke : Stroke} (hstroke : stroke.link? = some k)
    (hissued : stroke = .linkIssued k → a.nextLink ≤ k.number)
    (hgranted : stroke = .linkGranted k → k ∉ a.links)
    (hrenewed : ∀ before, stroke = .linkRenewed k before → k ∉ before) : a.Tally stroke b := by
  have hnot : stroke.node? = none := by
    cases stroke <;> first | rfl | cases hstroke
  exact {
    nodes := fun i hi => .inl (hnodes ▸ hi)
    links := by
      intro i hi
      refine ((hlinks i).1 hi).imp_right ?_
      rintro rfl
      exact hstroke
    floor := fun _ => ⟨Nat.le_of_eq hnode.symm, hfloor⟩
    cleared := by
      rintro rfl
      cases hstroke
    node := by
      intro id hid
      rw [hnot] at hid
      cases hid
    link := by
      intro i hi
      cases Option.some.inj (hi.symm.trans hstroke)
      exact ⟨(hlinks k).2 (.inr rfl), hafter⟩
    nodeIssued := by
      rintro id rfl
      cases hnot
    linkIssued := by
      rintro i rfl
      cases hstroke
      exact hissued rfl
    linkGranted := by
      rintro i rfl
      cases hstroke
      exact hgranted rfl
    linkRenewed := by
      rintro i before rfl
      cases hstroke
      exact hrenewed before rfl }

theorem Tally.issue (h : a.nextLink ≤ k.number) : a.Tally (.linkIssued k) b := by
  refine .of_link hnodes hlinks hnode hfloor hafter rfl (fun _ => h) ?_ fun _ => ?_
  all_goals rintro ⟨⟩

theorem Tally.grant (h : k ∉ a.links) : a.Tally (.linkGranted k) b := by
  refine .of_link hnodes hlinks hnode hfloor hafter rfl ?_ (fun _ => h) fun _ => ?_
  all_goals rintro ⟨⟩

theorem Tally.renew {before : List LinkId} (h : k ∉ before) : a.Tally (.linkRenewed k before) b := by
  refine .of_link hnodes hlinks hnode hfloor hafter rfl ?_ ?_ fun _ => ?_
  all_goals rintro ⟨⟩
  exact h

end Link

end Ledger

/-! ## Edits -/

theorem Graph.tally_of_wiring {g g' : Graph B} (h : g'.wiring = g.wiring) :
    g.ledger.Tally .quiet g'.ledger := (Ledger.Frugal.of_eq (ledger_of_wiring h)).tally

/-- A link under the next number. -/
theorem Graph.tally_addLink (g : Graph B) {l : Link} (hl : l.id = ⟨g.nextLink⟩) :
    g.ledger.Tally (.linkIssued l.id) (g.addLink l).ledger := by
  have hnodes : (g.addLink l).nodes.keys = g.nodes.keys :=
    (Assoc.keys_modify ..).trans (Assoc.keys_modify ..)
  have hnext : g.nextLink ≤ l.id.number := by rw [hl]
  exact .issue hnodes (fun k => Assoc.mem_keys_insert ..) rfl (Nat.le_trans hnext (Nat.le_succ _))
    (Nat.min_le_left ..) hnext

namespace Session

open Ledger (Frugal)

variable [Kind B] (s : Session B σ)

theorem frugal_unlink (k : LinkId) : s.graph.ledger.Frugal (s.unlink k).graph.ledger := by
  cases hl : s.graph.links.get? k with
  | none =>
    rw [unlink_of_none hl]
    exact .refl _
  | some l =>
    rw [Graph.ledger_of_wiring (wiring_unlink hl)]
    have hnodes : (s.graph.dropLink k l).ledger.nodes = s.graph.ledger.nodes :=
      (Assoc.keys_modify ..).trans (Assoc.keys_modify ..)
    exact ⟨fun id hid => hnodes ▸ hid, fun _ hk => Assoc.mem_keys_of_erase hk, Nat.le_refl _,
      Nat.le_refl _⟩

theorem frugal_unlinks (ks : List LinkId) :
    s.graph.ledger.Frugal (ks.foldl unlink s).graph.ledger := by
  induction ks generalizing s with
  | nil => exact .refl _
  | cons k ks ih => exact (s.frugal_unlink k).trans (ih _)

theorem frugal_disconnectInput (id : NodeId) (slot : Nat) :
    s.graph.ledger.Frugal (s.disconnectInput id slot).2.graph.ledger := by
  rcases s.disconnectInput_wiring id slot with ⟨-, he⟩ | ⟨k, -, hw⟩
  · rw [he]
    exact .refl _
  · rw [Graph.ledger_of_wiring hw]
    exact s.frugal_unlink k

theorem frugal_disconnectOutput (id : NodeId) (slot : Nat) (target : Option NodeId) :
    s.graph.ledger.Frugal (s.disconnectOutput id slot target).2.graph.ledger := by
  rw [Graph.ledger_of_wiring (s.disconnectOutput_wiring id slot target)]
  exact s.frugal_unlinks _

theorem frugal_removeLink (k : LinkId) :
    s.graph.ledger.Frugal (s.removeLink k).2.graph.ledger := by
  unfold removeLink
  split
  · exact (s.frugal_unlink k).trans (.of_eq (Graph.ledger_of_wiring (wiring_invalidate _)))
  · exact .refl _

omit [Kind B] in
theorem ledger_addInput (id : NodeId) (name : String) (type : SlotType) :
    (s.addInput id name type).2.graph.ledger = s.graph.ledger := by
  unfold addInput
  split
  · exact Graph.ledger_modifyNode ..
  · rfl

omit [Kind B] in
theorem ledger_addOutput (id : NodeId) (name : String) (type : SlotType) :
    (s.addOutput id name type).2.graph.ledger = s.graph.ledger := by
  unfold addOutput
  split
  · exact Graph.ledger_modifyNode ..
  · rfl

theorem frugal_removeInput (id : NodeId) (slot : Nat) :
    s.graph.ledger.Frugal (s.removeInput id slot).2.graph.ledger := by
  have hcut := s.beginBatch.frugal_disconnectInput id slot
  unfold removeInput
  split
  · revert hcut
    simp only
    generalize (s.beginBatch.disconnectInput id slot).2 = cut
    intro hcut
    refine Frugal.trans hcut (.of_eq ?_)
    refine (Graph.ledger_of_wiring (wiring_endBatch (markStale _))).trans ?_
    show (cut.graph.eraseInput id slot).ledger = _
    unfold Graph.eraseInput
    split
    · exact (Graph.ledger_modifyNode ..).trans (Graph.ledger_modifyLinks ..)
    · rfl
  · exact .refl _

theorem frugal_removeOutput (id : NodeId) (slot : Nat) :
    s.graph.ledger.Frugal (s.removeOutput id slot).2.graph.ledger := by
  have hcut := s.beginBatch.frugal_disconnectOutput id slot none
  unfold removeOutput
  split
  · revert hcut
    simp only
    generalize (s.beginBatch.disconnectOutput id slot none).2 = cut
    intro hcut
    refine Frugal.trans hcut (.of_eq ?_)
    refine (Graph.ledger_of_wiring (wiring_endBatch (markStale _))).trans ?_
    show (cut.graph.eraseOutput id slot).ledger = _
    unfold Graph.eraseOutput
    split
    · exact (Graph.ledger_modifyNode ..).trans (Graph.ledger_modifyLinks ..)
    · rfl
  · exact .refl _

theorem frugal_isolate (id : NodeId) (n : Node B) :
    s.graph.ledger.Frugal (s.isolate id n).graph.ledger := by
  have hin : ∀ (slots : List Nat) (s : Session B σ), s.graph.ledger.Frugal
      (slots.foldl (fun s slot => (s.disconnectInput id slot).2) s).graph.ledger := by
    intro slots
    induction slots with
    | nil => exact fun s => .refl _
    | cons slot slots ih => exact fun s => (s.frugal_disconnectInput id slot).trans (ih _)
  have hout : ∀ (slots : List Nat) (s : Session B σ), s.graph.ledger.Frugal
      (slots.foldl (fun s slot => (s.disconnectOutput id slot none).2) s).graph.ledger := by
    intro slots
    induction slots with
    | nil => exact fun s => .refl _
    | cons slot slots ih => exact fun s => (s.frugal_disconnectOutput id slot none).trans (ih _)
  exact (hin _ s).trans (hout _ _)

theorem frugal_extract (id : NodeId) :
    s.graph.ledger.Frugal (s.extract id).2.graph.ledger := by
  have ht : (s.tell id .removed).graph.ledger = s.graph.ledger :=
    Graph.ledger_of_wiring (Graph.wiring_of_skeleton (skeleton_tell s id .removed))
  refine .trans (.of_eq ht) ?_
  unfold extract
  simp only
  split
  · exact ⟨fun _ hid => Assoc.mem_keys_of_erase hid, fun _ hk => hk, Nat.le_refl _, Nat.le_refl _⟩
  · exact .refl _

theorem frugal_remove (id : NodeId) : s.graph.ledger.Frugal (s.remove id).2.graph.ledger := by
  unfold remove
  split
  · next n _ =>
    have hgone := (s.beginBatch.frugal_isolate id n).trans (frugal_extract _ id)
    revert hgone
    simp only
    generalize (s.beginBatch.isolate id n).extract id = taken
    intro hgone
    exact Frugal.trans hgone (.of_eq (Graph.ledger_of_wiring (wiring_endBatch taken.2.markStale)))
  · exact .refl _

/-- A link that is made gets the next number, and the one that it replaces goes. -/
theorem tally_link (origin : NodeId) (originSlot : Nat) (target : NodeId) (targetSlot : Nat)
    (input : Input) : s.graph.ledger.Tally
      (.linkIssued (s.link origin originSlot target targetSlot input).1)
      (s.link origin originSlot target targetSlot input).2.graph.ledger := by
  have hroom : s.graph.ledger.Frugal (s.makeRoom input).graph.ledger := by
    unfold makeRoom
    split
    · exact s.frugal_unlink _
    · exact .refl _
  let l := Link.new ⟨(s.makeRoom input).graph.nextLink⟩ input.type origin originSlot target targetSlot
  have hafter : (s.link origin originSlot target targetSlot input).2.graph.ledger =
      ((s.makeRoom input).graph.addLink l).ledger :=
    (Graph.ledger_of_wiring (wiring_invalidate _)).trans (Graph.ledger_of_wiring
      (Graph.wiring_of_skeleton (skeleton_announce ((s.makeRoom input).edit _) _ _)))
  rw [hafter]
  exact Ledger.Tally.after hroom (Graph.tally_addLink _ (l := l) rfl)

theorem tally_tryConnect (origin : NodeId) (originSlot : Nat) (target : NodeId) (targetSlot : Nat) :
    s.graph.ledger.Tally (connecting (s.tryConnect origin originSlot target targetSlot).1)
      (s.tryConnect origin originSlot target targetSlot).2.graph.ledger := by
  unfold tryConnect
  split
  · exact (Frugal.refl _).tally
  · next output input _ =>
    let t := s.tell target (.linkOffered targetSlot output.type)
    have ht : t.graph.ledger = s.graph.ledger :=
      Graph.ledger_of_wiring (Graph.wiring_of_skeleton (skeleton_tell s target _))
    simp only
    split
    · exact (Frugal.of_eq ht).tally
    · split
      · exact (Frugal.of_eq ht).tally
      · have hlink := t.tally_link origin originSlot target targetSlot input
        rw [ht] at hlink
        exact hlink

theorem tally_connectByName (origin : NodeId) (output : String) (target : NodeId) (input : String) :
    s.graph.ledger.Tally (connecting (s.connectByName origin output target input).1)
      (s.connectByName origin output target input).2.graph.ledger := by
  unfold connectByName
  split
  · exact (Frugal.refl _).tally
  · exact s.tally_tryConnect ..

end Session

namespace Edit

open Ledger (Frugal)

variable [Kind B]

theorem tally_apply (s : Session B σ) (e : Edit) :
    s.graph.ledger.Tally (e.stroke (e.apply s).1) (e.apply s).2.graph.ledger := by
  cases e with
  | clear => exact .clear _
  | tryConnect origin originSlot target targetSlot => exact s.tally_tryConnect ..
  | connectByName origin output target input => exact s.tally_connectByName ..
  | remove id => exact (s.frugal_remove id).tally
  | disconnectInput id slot => exact (s.frugal_disconnectInput id slot).tally
  | disconnectOutput id slot target => exact (s.frugal_disconnectOutput id slot target).tally
  | removeLink id => exact (s.frugal_removeLink id).tally
  | addInput id name type => exact (Frugal.of_eq (s.ledger_addInput id name type)).tally
  | addOutput id name type => exact (Frugal.of_eq (s.ledger_addOutput id name type)).tally
  | removeInput id slot => exact (s.frugal_removeInput id slot).tally
  | removeOutput id slot => exact (s.frugal_removeOutput id slot).tally
  | change id c => exact Graph.tally_of_wiring (s.wiring_change id c)
  | beginBatch => exact (Frugal.refl s.graph.ledger).tally
  | endBatch => exact Graph.tally_of_wiring s.wiring_endBatch
  | updateOrder => exact Graph.tally_of_wiring s.graph.wiring_updateOrder
  | _ => exact Graph.tally_of_wiring (Graph.wiring_of_skeleton (skeleton_apply rfl s))

end Edit

/-! ## Nodes that are placed -/

namespace Graph

theorem le_nextNode_issued (g : Graph B) : g.nextNode ≤ freeNodeFrom g.nodes g.nodes.size g.nextNode := by
  rw [freeNodeFrom_eq]
  exact le_firstFree ..

/-- The identity that a node did not ask for is at or above the counter. -/
theorem issued_placing {g : Graph B} {requested : Option NodeId} {id : NodeId}
    (h : g.placing requested = .nodeIssued id) : g.nextNode ≤ id.number := by
  have hfree := g.le_nextNode_issued
  unfold placing at h
  split at h
  · cases h
  · next hno =>
    cases h
    unfold claimNode
    cases requested with
    | none => exact hfree
    | some asked =>
      have hc : g.nodes.contains asked = true := by simpa using hno
      simp only [if_pos hc]
      exact hfree

theorem node?_placing (g : Graph B) (requested : Option NodeId) :
    (g.placing requested).node? = some (g.claimNode requested).1 ∧
      (g.placing requested).link? = none ∧ g.placing requested ≠ .cleared := by
  unfold placing
  split
  · refine ⟨rfl, rfl, ?_⟩
    rintro ⟨⟩
  · refine ⟨rfl, rfl, ?_⟩
    rintro ⟨⟩

theorem tally_place (g : Graph B) (n : Node B) : g.ledger.Tally (g.placing n.id)
    (g.place n (g.claimNode n.id).1 (g.claimNode n.id).2).ledger := by
  obtain ⟨hnode, hlink, hclear⟩ := g.node?_placing n.id
  obtain ⟨hafter, hnext⟩ := g.claimNode_counts n.id
  have hfresh := g.claimNode_fresh n.id
  have hissued : ∀ id, g.placing n.id = .nodeIssued id → g.nextNode ≤ id.number :=
    fun _ h => issued_placing h
  have hnolink : ∀ k, (g.placing n.id).link? ≠ some k := by
    intro k hk
    rw [hlink] at hk
    cases hk
  rw [g.place_snapped]
  generalize (g.claimNode n.id).1 = id at hnode hafter hfresh ⊢
  generalize (g.claimNode n.id).2 = next at hafter hnext ⊢
  generalize g.placing n.id = stroke at hnode hlink hclear hissued hnolink ⊢
  exact {
    nodes := by
      intro i hi
      refine (Assoc.mem_keys_insert.1 hi).imp_right ?_
      rintro rfl
      exact hnode
    links := fun k hk => .inl hk
    floor := fun _ => ⟨hnext, Nat.le_refl _⟩
    cleared := fun h => absurd h hclear
    node := by
      intro i hi
      cases Option.some.inj (hi.symm.trans hnode)
      exact ⟨hfresh, Assoc.mem_keys_insert.2 (.inr rfl), hafter⟩
    link := fun k hk => absurd hk (hnolink k)
    nodeIssued := hissued
    linkIssued := by
      rintro k rfl
      exact absurd rfl (hnolink k)
    linkGranted := by
      rintro k rfl
      exact absurd rfl (hnolink k)
    linkRenewed := by
      rintro k before rfl
      exact absurd rfl (hnolink k) }

end Graph

/-! ## Links that are merged -/

namespace LinkLoad

theorem claim_issued {load : LinkLoad B} {i : LinkId} (h : load.table.get? i = none)
    (hc : load.graph.links.contains i = true) : load.graph.nextLink ≤ (load.claim i).1.number := by
  unfold claim
  rw [h]
  simp only [if_pos hc]
  show _ ≤ freeLink load.graph.links load.graph.nextLink
  exact le_freeLink ..

/-- Merging one more link. -/
theorem tally_add {nodes : Renaming NodeId} {g : Graph B} {records : List LinkRecord}
    {load : LinkLoad B} (hload : Tells nodes g records load) (r : LinkRecord) :
    load.graph.ledger.Tally (load.stroke nodes g.links.keys r) (load.add nodes r).graph.ledger := by
  unfold stroke add
  cases ho : nodes.get? r.origin with
  | none => exact (Ledger.Frugal.refl _).tally
  | some origin =>
  cases ht : nodes.get? r.target with
  | none => exact (Ledger.Frugal.refl _).tally
  | some target =>
  have hfloor := load.le_claim r.id
  have hissued : load.table.get? r.id = none → load.graph.links.contains r.id = true →
      load.graph.nextLink ≤ (load.claim r.id).1.number := claim_issued
  have hfresh : load.table.get? r.id = none → (load.claim r.id).1 ∉ load.graph.links.keys := claim_fresh
  obtain ⟨hold, -, -⟩ := hload.claim r.id
  simp only [Option.isNone_some, Bool.or_self, Bool.false_eq_true, if_false]
  generalize (load.claim r.id).1 = id at hissued hfresh hold ⊢
  generalize (load.claim r.id).2 = next at hfloor ⊢
  have hkeys : ∀ {l : Link} i, i ∈ (load.graph.links.insert id l).keys ↔
      i ∈ load.graph.links.keys ∨ i = id := fun i => Assoc.mem_keys_insert
  have hraised : load.graph.nextLink ≤ max next (afterId id.number) :=
    Nat.le_trans hfloor (Nat.le_max_left ..)
  have hpast : afterId id.number ≤ max next (afterId id.number) := Nat.le_max_right ..
  by_cases hknown : load.table.contains r.id = true
  · rw [if_pos hknown]
    refine .renew ?_ hkeys ?_ hraised hpast hold <;> rfl
  · have hnone : load.table.get? r.id = none := by
      rwa [Assoc.get?_eq_none_iff, ← Assoc.contains_iff]
    rw [if_neg hknown]
    by_cases htaken : load.graph.links.contains r.id = true
    · rw [if_pos htaken]
      refine .issue ?_ hkeys ?_ hraised hpast (hissued hnone htaken) <;> rfl
    · rw [if_neg htaken]
      refine .grant ?_ hkeys ?_ hraised hpast (hfresh hnone) <;> rfl

end LinkLoad

theorem Graph.mergeLinks_snoc (g : Graph B) (nodes : Renaming NodeId) (records : List LinkRecord)
    (r : LinkRecord) :
    g.mergeLinks nodes (records ++ [r]) = (g.mergeLinks nodes records).add nodes r :=
  List.foldl_concat ..

/-! ## All steps -/

namespace Graph

open Ledger (Frugal)

/-- What each step does to the ledger. -/
theorem Step.tally [Kind B] {g g' : Graph B} {stroke : Stroke} (h : Step g stroke g') :
    g.ledger.Tally stroke g'.ledger := by
  cases h with
  | edited s e => exact e.tally_apply s
  | placed _ n => exact g.tally_place n
  | exchanged =>
    apply tally_of_wiring
    exact wiring_modifyNode fun _ _ => rfl
  | told s id notice => exact tally_of_wiring (wiring_of_skeleton (s.skeleton_tell id notice))
  | marked =>
    apply tally_of_wiring
    exact wiring_of_skeleton (skeleton_modifyLink fun _ => rfl)
  | counted fixedTime iteration failed => exact (Frugal.refl g.ledger).tally
  | staled => exact (Frugal.refl g.ledger).tally
  | bumped => exact (Frugal.refl g.ledger).tally
  | configured entries => exact (Frugal.refl g.ledger).tally
  | merged g nodes records r =>
    rw [mergeLinks_snoc]
    exact LinkLoad.tally_add (g.mergeLinks_tells nodes records) r
  | adopted s table id r =>
    rw [s.graph_adopt]
    exact (Frugal.of_eq (ledger_modifyNode ..)).tally
  | repaired _ pruned =>
    have hmends := g.mends_repair pruned
    have hnode : (g.repair pruned).graph.nextNode = g.nextNode := by rw [hmends.rest]
    have hlink : (g.repair pruned).graph.nextLink = g.nextLink := by rw [hmends.rest]
    refine Frugal.tally ⟨fun id hid => ?_, fun k hk => ?_, Nat.le_of_eq hnode.symm, Nat.le_of_eq hlink.symm⟩
    · have hkeys : (g.repair pruned).graph.ledger.nodes = g.ledger.nodes := hmends.keys
      exact hkeys ▸ hid
    · obtain ⟨l, hl⟩ := Assoc.mem_keys_iff.1 hk
      exact Assoc.mem_keys_of_get? (hmends.links k l hl)
  | raised =>
    exact Frugal.tally ⟨fun _ h => h, fun _ h => h, Nat.le_refl _, Nat.le_max_left ..⟩
  | framed =>
    exact Frugal.tally ⟨fun _ h => h, fun _ h => h, Nat.le_max_left .., Nat.le_refl _⟩

end Graph

end Dataflow
