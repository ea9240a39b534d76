/-
  Which links a load could have kept.

  The repair looks at the links in the order of their storage, and drops one that finds its input
  taken.  An input may name a link for two reasons.  A link was entered there that was looked at
  before; it stands, and stands in the end.  Or the input has named its link from the start, because
  the record of its node did.  Nobody has asked by then whether that link ends there, or whether it
  can stand at all; the passes that make a slot forget such a link come too late for the one that
  was dropped for it (`misledLink_lost`).

  So a recorded link is missing after a load into an empty graph for exactly three kinds of reasons
  (`Engine.load_spares`): it has no place among the loaded nodes (`LinkRecord.Homeless`), a link that
  is there feeds its input (`LinkRecord.Displaced`), or the record of its target misled the repair
  (`LinkRecord.Misled`).  What records say about outputs never costs a link.
-/

import Dataflow.Proofs.Report

namespace Dataflow

variable {B σ : Type}

namespace Graph

/-! ## Slots that stay -/

/-- Two graphs have the same slots, whatever these name. -/
structure SameSlots (g g' : Graph B) : Prop where
  inputs : ∀ id slot, (g'.input? id slot).isSome = (g.input? id slot).isSome
  outputs : ∀ id slot, (g'.output? id slot).isSome = (g.output? id slot).isSome

namespace SameSlots

variable {g g' g'' : Graph B}

theorem refl (g : Graph B) : g.SameSlots g := ⟨fun _ _ => rfl, fun _ _ => rfl⟩

theorem trans (h : g.SameSlots g') (h' : g'.SameSlots g'') : g.SameSlots g'' where
  inputs id slot := (h'.inputs id slot).trans (h.inputs id slot)
  outputs id slot := (h'.outputs id slot).trans (h.outputs id slot)

theorem of_wiring (h : g'.wiring = g.wiring) : g.SameSlots g' where
  inputs id slot := by
    have hfeed := congrArg Option.isSome (feed_of_wiring h id slot)
    rwa [Option.isSome_map, Option.isSome_map] at hfeed
  outputs id slot := by
    have hfan := congrArg Option.isSome (fan_of_wiring h id slot)
    rwa [Option.isSome_map, Option.isSome_map] at hfan

theorem hasSlots (h : g.SameSlots g') (l : Link) : g'.hasSlots l = g.hasSlots l := by
  unfold Graph.hasSlots
  rw [h.outputs, h.inputs]

end SameSlots

theorem sameSlots_settle (r : Repair B) (k : LinkId) : r.graph.SameSlots (settle r k).graph := by
  unfold settle
  cases r.graph.links.get? k with
  | none => exact .refl _
  | some l =>
    simp only
    split
    · constructor
      · intro id slot
        rw [input?_enter, Option.isSome_map]
      · intro id slot
        rw [output?_enter, Option.isSome_map]
    · exact ⟨fun _ _ => rfl, fun _ _ => rfl⟩

theorem sameSlots_settles (ks : List LinkId) (r : Repair B) :
    r.graph.SameSlots (ks.foldl settle r).graph := by
  induction ks generalizing r with
  | nil => exact .refl _
  | cons k ks ih => exact (sameSlots_settle r k).trans (ih _)

theorem sameSlots_relinkAll (g : Graph B)
    (f : NodeId → Direction → Nat → LinkId → Option LinkId) : g.SameSlots (g.relinkAll f) where
  inputs id slot := by rw [input?_relinkAll, Option.isSome_map]
  outputs id slot := by rw [output?_relinkAll, Option.isSome_map]

/-- A repair makes no slot and takes none. -/
theorem sameSlots_repair (g : Graph B) (pruned : List LinkId) :
    g.SameSlots (g.repair pruned).graph :=
  ((sameSlots_settles g.links.keys ⟨g, pruned, false⟩).trans (sameSlots_relinkAll ..)).trans
    (sameSlots_relinkAll ..)

/-! ## What takes an input -/

/-- A link stands at an input. -/
def Occupies (g : Graph B) (k : LinkId) (id : NodeId) (slot : Nat) : Prop :=
  ∃ l, g.links.get? k = some l ∧ g.Stands k l ∧ l.target = id ∧ l.targetSlot = slot

theorem Repair.Tells.occupies {r r' : Repair B} (h : r.Tells r') {k : LinkId} {id : NodeId}
    {slot : Nat} (hk : r.graph.Occupies k id slot) : r'.graph.Occupies k id slot := by
  obtain ⟨l, hl, hstands, hends⟩ := hk
  obtain ⟨hl', hstands'⟩ := h.stands k l hl hstands
  exact ⟨l, hl', hstands', hends⟩

/-- What an input names after a step it has named before, or it was entered there and stands. -/
theorem holds_settle (r : Repair B) (k : LinkId) {id : NodeId} {slot : Nat} {i : LinkId}
    (h : (settle r k).graph.Holds id slot i) :
    r.graph.Holds id slot i ∨ (settle r k).graph.Occupies i id slot := by
  unfold settle at h ⊢
  cases hl : r.graph.links.get? k with
  | none =>
    rw [hl] at h
    exact .inl h
  | some l =>
    simp only [hl] at h ⊢
    split at h
    · next hc =>
      rw [if_pos hc]
      rcases r.graph.holds_enter k l h with hold | ⟨rfl, rfl, rfl⟩
      · exact .inl hold
      · exact .inr ⟨l, hl, stands_enter r.graph _ l hc, rfl, rfl⟩
    · exact .inl h

/-- The same after some steps: a link that was entered stands to the end. -/
theorem holds_settles (ks : List LinkId) (r : Repair B) {id : NodeId} {slot : Nat} {i : LinkId}
    (h : (ks.foldl settle r).graph.Holds id slot i) :
    r.graph.Holds id slot i ∨ (ks.foldl settle r).graph.Occupies i id slot := by
  induction ks generalizing r with
  | nil => exact .inl h
  | cons k ks ih =>
    rcases ih (settle r k) h with hmid | hdone
    · rcases holds_settle r k hmid with hstart | hentered
      · exact .inl hstart
      · exact .inr ((settles_tell ks (settle r k)).occupies hentered)
    · exact .inr hdone

/-! ## Which links survive -/

theorem get?_settle_of_ne (r : Repair B) {k i : LinkId} (h : i ≠ k) :
    (settle r k).graph.links.get? i = r.graph.links.get? i := by
  unfold settle
  cases r.graph.links.get? k with
  | none => rfl
  | some l =>
    simp only
    split
    · rfl
    · exact (Assoc.get?_erase ..).trans (if_neg h)

/-- A step decides about its own link only. -/
theorem get?_settles_of_notMem {ks : List LinkId} {i : LinkId} (h : i ∉ ks) (r : Repair B) :
    (ks.foldl settle r).graph.links.get? i = r.graph.links.get? i := by
  induction ks generalizing r with
  | nil => rfl
  | cons k ks ih =>
    rw [List.mem_cons, not_or] at h
    exact (ih h.2 (settle r k)).trans (get?_settle_of_ne r h.1)

/-- A link can stand if it has its slots, on two nodes, and no other link is named at its input. -/
theorem canStand_iff {g : Graph B} {k : LinkId} {l : Link} : g.canStand k l = true ↔
    g.hasSlots l = true ∧ l.origin ≠ l.target ∧
      ∀ j, g.Holds l.target l.targetSlot j → j = k := by
  unfold canStand hasSlots
  rw [Bool.and_eq_true, Bool.and_eq_true, Bool.and_eq_true, decide_eq_true_iff]
  cases hs : g.input? l.target l.targetSlot with
  | none => simp
  | some s =>
    have hheld : (∀ j, g.Holds l.target l.targetSlot j → j = k) ↔
        s.link.all (fun i => decide (i = k)) = true := by
      constructor
      · intro h
        cases hi : s.link with
        | none => rfl
        | some i => exact decide_eq_true (h i ⟨s, hs, hi⟩)
      · rintro h j ⟨s', hs', hj⟩
        cases Option.some.inj (hs.symm.trans hs')
        rw [hj] at h
        exact of_decide_eq_true h
    rw [hheld, Option.any_some]
    simp only [Option.isSome_some, and_true]
    exact and_assoc.trans (and_congr_right fun _ => and_comm)

theorem settle_of_canStand {r : Repair B} {k : LinkId} {l : Link}
    (hl : r.graph.links.get? k = some l) (hc : r.graph.canStand k l = true) :
    (settle r k).graph.links.get? k = some l ∧ (settle r k).graph.Stands k l := by
  have hgraph : (settle r k).graph = r.graph.enter k l := by
    unfold settle
    simp only [hl, hc, if_true]
  rw [hgraph]
  exact ⟨hl, stands_enter r.graph k l hc⟩

theorem settle_of_not_canStand {r : Repair B} {k : LinkId} {l : Link}
    (hl : r.graph.links.get? k = some l) (hc : r.graph.canStand k l = false) :
    (settle r k).graph.links.get? k = none := by
  unfold settle
  simp only [hl, hc, Bool.false_eq_true, if_false]
  exact (Assoc.get?_erase ..).trans (if_pos rfl)

/-- The repair keeps a link if it has its slots, on two nodes, if from the start no other link was
named at its input, and if no other link feeds that input in the end; and no link else. -/
theorem repair_keeps (g : Graph B) (pruned : List LinkId) {k : LinkId} {l : Link}
    (hl : g.links.get? k = some l) : (g.repair pruned).graph.links.get? k = some l ↔
      g.hasSlots l = true ∧ l.origin ≠ l.target ∧
        (∀ j, g.Holds l.target l.targetSlot j → j = k) ∧
        ∀ j, (g.repair pruned).graph.Arrives j l.target l.targetSlot → j = k := by
  obtain ⟨before, after, hsplit⟩ := List.append_of_mem (Assoc.mem_keys_of_get? hl)
  have hnodup := g.links.nodup_keys
  rw [hsplit, List.nodup_append, List.nodup_cons] at hnodup
  -- the links before this one, this one, and those after it
  let start : Repair B := ⟨g, pruned, false⟩
  let met := before.foldl settle start
  let decided := settle met k
  let done := after.foldl settle decided
  have hdone : g.links.keys.foldl settle start = done := by
    rw [hsplit, List.foldl_append, List.foldl_cons]
  have hlinks : (g.repair pruned).graph.links = done.graph.links := congrArg (·.graph.links) hdone
  have hslots := (sameSlots_settles before start).hasSlots l
  -- until its turn the link stays as it is
  have hmet : met.graph.links.get? k = some l := by
    refine (get?_settles_of_notMem (fun hk => ?_) start).trans hl
    exact hnodup.2.2 k hk k (List.mem_cons_self ..) rfl
  -- a decision is final
  have hlater : decided.Tells done := settles_tell after decided
  rw [hlinks]
  constructor
  · intro hkept
    have hcan : met.graph.canStand k l = true := by
      by_contra hc
      have hgone := settle_of_not_canStand hmet (Bool.eq_false_iff.2 hc)
      cases hgone.symm.trans (hlater.links k l hkept)
    obtain ⟨hhas, hapart, hheld⟩ := canStand_iff.1 hcan
    refine ⟨hslots ▸ hhas, hapart, fun j hj => hheld j ?_, ?_⟩
    · exact (settles_spec before start).1.inputs _ _ j hj
    · -- two links that stand at one input are one
      rintro j ⟨l', hl', ht, hs⟩
      rw [hlinks] at hl'
      obtain ⟨s, hs₁, hk⟩ := (hdone ▸ stands_settled g pruned (hdone.symm ▸ hkept)).held
      obtain ⟨s', hs₂, hj⟩ := (hdone ▸ stands_settled g pruned (hdone.symm ▸ hl')).held
      rw [ht, hs] at hs₂
      cases Option.some.inj (hs₁.symm.trans hs₂)
      exact Option.some.inj (hj.symm.trans hk)
  · rintro ⟨hhas, hapart, hnamed, hfed⟩
    have hcan : met.graph.canStand k l = true := by
      refine canStand_iff.2 ⟨hslots.trans hhas, hapart, fun j hj => ?_⟩
      rcases holds_settles before start hj with hstart | hentered
      · exact hnamed j hstart
      · obtain ⟨l', hl', -, hends⟩ :=
          ((settle_tells met k).trans hlater).occupies hentered
        exact hfed j ⟨l', hlinks ▸ hl', hends⟩
    obtain ⟨hl', hstands⟩ := settle_of_canStand hmet hcan
    exact (hlater.stands k l hl' hstands).1

end Graph

/-! ## What inputs name before the repair -/

/-- A record says that an input names a link. -/
def NodeRecord.Names (r : NodeRecord) (slot : Nat) (k : LinkId) : Prop :=
  ∃ inputs s, r.inputs = some inputs ∧ inputs[slot]? = some s ∧ s.link = some k

/-- No input of a graph names a link. -/
def Graph.Unfed (g : Graph B) : Prop := ∀ id slot k, ¬g.Holds id slot k

theorem Graph.Unfed.of_wiring {g g' : Graph B} (h : g'.wiring = g.wiring) (hg : g.Unfed) :
    g'.Unfed := by
  intro id slot k
  rw [holds_iff, feed_of_wiring h, ← holds_iff]
  exact hg id slot k

theorem Graph.Unfed.place {g : Graph B} (hg : g.Unfed) {n : Node B}
    (hn : ∀ s ∈ n.inputs, s.link = none) (id : NodeId) (next : Nat) : (g.place n id next).Unfed := by
  rintro i slot k ⟨s, hs, hk⟩
  obtain ⟨m, hm, hslot⟩ := node_of_input hs
  rcases node_of_place hm with ⟨-, pos, rfl⟩ | ⟨-, hm⟩
  · cases (hn s (List.mem_of_getElem? hslot)).symm.trans hk
  · exact hg i slot k ⟨s, (input_of_node hm slot).trans hslot, hk⟩

/-- Nodes that are made for records name no links yet. -/
theorem Engine.placeAll_unfed [Behavior B σ] {r : Registry B} (hr : r.Fresh) {run : Runner B σ}
    (hrun : AddsQuietly run) {records : List NodeRecord} {p : Placing} {s : Session B σ}
    (hs : s.graph.registry = r ∧ s.graph.Unfed) :
    Ensures (placeAll run records p) s fun _ s' => s'.graph.registry = r ∧ s'.graph.Unfed := by
  induction records generalizing p s with
  | nil => exact Ensures.pure hs
  | cons record records ih =>
    apply placeAll_step
    rw [hs.1]
    let made : Node B := { (madeOf r record).1 with id := record.id }
    have haloof : Aloof fun h : Graph B =>
        h.wiring = (placing s.graph made).wiring ∧ h.settings = (placing s.graph made).settings := by
      refine fun h i b hh => ⟨Eq.trans ?_ hh.1, hh.2⟩
      exact Graph.wiring_modifyNode fun _ _ => rfl
    have hplaced : (placing s.graph made).registry = r ∧ (placing s.graph made).Unfed := by
      refine ⟨?_, hs.2.place (unlinked_madeOf hr record).1 _ _⟩
      unfold placing
      rw [Graph.place_snapped]
      exact hs.1
    refine (insertNode_spec haloof false ⟨rfl, rfl⟩ fun b _ => hrun b _ _ _).mono ?_
    rintro answer s' (⟨-, ⟨e, he⟩, rfl⟩ | ⟨-, hok, t, ⟨hw, -⟩, hs'⟩)
    · exact ⟨fun _ _ => ih hs, fun _ _ => ih hs⟩
    · have hw' : s'.graph.wiring = (placing s.graph made).wiring := by
        rw [hs']
        exact hw
      have hkept : s'.graph.registry = r ∧ s'.graph.Unfed :=
        ⟨(Graph.registry_of_wiring hw').trans hplaced.1, hplaced.2.of_wiring hw'⟩
      exact ⟨fun _ _ => ih hkept, fun _ _ => ih hkept⟩

/-- After the nodes have taken over their records, their inputs name what the records say, as far as
the table knows it. -/
theorem Graph.holds_adopted [Kind B] {g : Graph B} (hg : g.Unfed) (table : Renaming LinkId)
    {placed : List (NodeId × NodeRecord)} (hids : (placed.map Prod.fst).Nodup)
    (hkeys : g.nodes.keys = placed.map Prod.fst) {id : NodeId} {slot : Nat} {k : LinkId} :
    (g.adopted table placed).Holds id slot k ↔ ∃ record i,
      (id, record) ∈ placed ∧ record.Names slot i ∧ table.get? i = some k := by
  constructor
  · rintro ⟨s', hs', hk⟩
    obtain ⟨n', hn', hslot⟩ := node_of_input hs'
    have hid : id ∈ placed.map Prod.fst := by
      rw [← hkeys, ← (keys_adopted table placed g).1]
      exact Assoc.mem_keys_of_get? hn'
    obtain ⟨⟨i, record⟩, he, rfl⟩ := List.mem_map.1 hid
    rw [get?_adopted table hids he] at hn'
    obtain ⟨n, hn, rfl⟩ := Option.map_eq_some_iff.1 hn'
    change ((n.applyRecord record).1.inputs.mapIdx _)[slot]? = some s' at hslot
    rw [List.getElem?_mapIdx, Node.inputs_applyRecord] at hslot
    obtain ⟨s, hs, rfl⟩ := Option.map_eq_some_iff.1 hslot
    obtain ⟨j, hj, hjk⟩ := Option.bind_eq_some_iff.1 hk
    cases hinputs : record.inputs with
    | some inputs =>
      rw [hinputs] at hs
      exact ⟨record, j, he, ⟨inputs, s, hinputs, hs, hj⟩, hjk⟩
    | none =>
      -- the node has kept the inputs that it was made with
      rw [hinputs] at hs
      exact absurd ⟨s, (input_of_node hn slot).trans hs, hj⟩ (hg i slot j)
  · rintro ⟨record, i, he, ⟨inputs, s, hinputs, hs, hi⟩, hik⟩
    obtain ⟨n, hn⟩ := Assoc.mem_keys_iff.1 (hkeys ▸ List.mem_map_of_mem he : id ∈ g.nodes.keys)
    have hn' : (g.adopted table placed).nodes.get? id = some
        ((n.applyRecord record).1.relink fun _ _ k => table.get? k) := by
      rw [get?_adopted table hids he, hn]
      rfl
    refine ⟨{ s with link := s.link.bind table.get? }, (input_of_node hn' slot).trans ?_, ?_⟩
    · show ((n.applyRecord record).1.inputs.mapIdx _)[slot]? = _
      rw [List.getElem?_mapIdx, Node.inputs_applyRecord, hinputs, Option.getD_some, hs]
      rfl
    · show s.link.bind table.get? = some k
      rw [hi]
      exact hik

/-! ## Why a recorded link is missing -/

namespace LinkRecord

/-- A recorded link is there, between the nodes that were loaded for its ends. -/
def Kept (g : Graph B) (find : NodeId → Option NodeId) (r : LinkRecord) : Prop :=
  ∃ l, r.linkAt find r.id = some l ∧ g.links.get? r.id = some l

/-- Two recorded links lead to the same input. -/
def Meets (r r' : LinkRecord) : Prop := r'.target = r.target ∧ r'.targetSlot = r.targetSlot

/-- A recorded link has no place among the loaded nodes. -/
inductive Homeless (g : Graph B) (find : NodeId → Option NodeId) (r : LinkRecord) : Prop
  /-- One of its nodes was not loaded. -/
  | unreached (h : r.reaches find = false)
  /-- The node that it leaves has no such output. -/
  | noOutput (id : NodeId) (h : find r.origin = some id) (hslot : g.output? id r.originSlot = none)
  /-- The node that it leads to has no such input. -/
  | noInput (id : NodeId) (h : find r.target = some id) (hslot : g.input? id r.targetSlot = none)
  /-- It returns to its own node. -/
  | loop (h : r.origin = r.target)

/-- Another recorded link is there that feeds the same input. -/
def Displaced (g : Graph B) (find : NodeId → Option NodeId) (records : List LinkRecord)
    (r : LinkRecord) : Prop :=
  ∃ r' ∈ records, r'.id ≠ r.id ∧ r'.Kept g find ∧ r.Meets r'

/-- The record of the node that a link leads to says that the input names another recorded link.
The nodes of that one were loaded, but it does not come to feed the input. -/
def Misled (g : Graph B) (placed : List (NodeId × NodeRecord)) (records : List LinkRecord)
    (r : LinkRecord) : Prop :=
  ∃ id record, landed placed r.target = some id ∧ (id, record) ∈ placed ∧
    ∃ r' ∈ records, r'.id ≠ r.id ∧ record.Names r.targetSlot r'.id ∧
      r'.reaches (landed placed) = true ∧ ¬(r'.Kept g (landed placed) ∧ r.Meets r')

end LinkRecord

/-- No two identities have landed at one node. -/
theorem landed_injective {placed : List (NodeId × NodeRecord)} (hids : (placed.map Prod.fst).Nodup)
    {i j id : NodeId} (hi : landed placed i = some id) (hj : landed placed j = some id) : i = j := by
  have hfound : ∀ {i}, landed placed i = some id → ∃ record, (id, record) ∈ placed ∧
      record.id = some i := by
    intro i h
    obtain ⟨⟨id', record⟩, he, rfl⟩ := Option.map_eq_some_iff.1 h
    have hid := List.find?_some he
    exact ⟨record, List.mem_of_find?_eq_some he, of_decide_eq_true hid⟩
  obtain ⟨record, hmem, hid⟩ := hfound hi
  obtain ⟨record', hmem', hid'⟩ := hfound hj
  cases List.inj_on_of_nodup_map hids hmem hmem' rfl
  exact Option.some.inj (hid.symm.trans hid')

theorem LinkRecord.linkAt_spec {find : NodeId → Option NodeId} {r : LinkRecord} {k : LinkId}
    {l : Link} (h : r.linkAt find k = some l) : find r.origin = some l.origin ∧ find r.target = some l.target ∧
      l.originSlot = r.originSlot ∧ l.targetSlot = r.targetSlot := by
  obtain ⟨origin, ho, h⟩ := Option.bind_eq_some_iff.1 h
  obtain ⟨target, ht, rfl⟩ := Option.map_eq_some_iff.1 h
  exact ⟨ho, ht, rfl, rfl⟩

/-- A link is kept if it is there as it was taken in. -/
theorem LinkRecord.kept_iff {g : Graph B} {find : NodeId → Option NodeId} {r : LinkRecord} {l : Link}
    (hl : r.linkAt find r.id = some l) : r.Kept g find ↔ g.links.get? r.id = some l := by
  constructor
  · rintro ⟨l', hl', hget⟩
    cases Option.some.inj (hl.symm.trans hl')
    exact hget
  · exact fun hget => ⟨l, hl, hget⟩

/-- A graph `a` was made of the records of a snapshot, and `g` is what the repair left of it. -/
structure Reassembled (placed : List (NodeId × NodeRecord)) (records : List LinkRecord)
    (a g : Graph B) : Prop where
  ids : (placed.map Prod.fst).Nodup
  nodes : g.nodes.keys = placed.map Prod.fst
  taken : ∀ r ∈ records, ∀ l, r.linkAt (landed placed) r.id = some l → a.links.get? r.id = some l
  recorded : ∀ k l, a.links.get? k = some l →
    ∃ r ∈ records, r.id = k ∧ r.linkAt (landed placed) k = some l
  named : ∀ id slot k, a.Holds id slot k ↔ ∃ record, (id, record) ∈ placed ∧ record.Names slot k ∧
    ∃ r ∈ records, r.id = k ∧ r.reaches (landed placed) = true
  slots : a.SameSlots g
  links : ∃ pruned, g.links = (a.repair pruned).graph.links

namespace Reassembled

variable {placed : List (NodeId × NodeRecord)} {records : List LinkRecord} {a g : Graph B}
  (h : Reassembled placed records a g) {r r' : LinkRecord} {l l' : Link}
include h

/-- Two links lead to the same input exactly if their records do. -/
theorem meets_iff (hl : r.linkAt (landed placed) r.id = some l)
    (hl' : r'.linkAt (landed placed) r'.id = some l') :
    l'.target = l.target ∧ l'.targetSlot = l.targetSlot ↔ r.Meets r' := by
  obtain ⟨-, ht, -, hs⟩ := LinkRecord.linkAt_spec hl
  obtain ⟨-, ht', -, hs'⟩ := LinkRecord.linkAt_spec hl'
  unfold LinkRecord.Meets
  rw [hs, hs']
  refine and_congr_left fun _ => ⟨fun he => landed_injective h.ids (he ▸ ht') ht, fun he => ?_⟩
  rw [he, ht] at ht'
  exact (Option.some.inj ht').symm

/-- What leads to an input in the end is a link that was recorded and kept. -/
theorem arrives_iff (hl : r.linkAt (landed placed) r.id = some l) {k : LinkId} :
    g.Arrives k l.target l.targetSlot ↔
      ∃ r' ∈ records, r'.id = k ∧ r'.Kept g (landed placed) ∧ r.Meets r' := by
  obtain ⟨pruned, hlinks⟩ := h.links
  constructor
  · rintro ⟨l', hget, hends⟩
    obtain ⟨r', hr', rfl, hl'⟩ := h.recorded k l' ((a.repair_tells pruned).1 k l' (hlinks ▸ hget))
    exact ⟨r', hr', rfl, ⟨l', hl', hget⟩, (h.meets_iff hl hl').1 hends⟩
  · rintro ⟨r', -, rfl, ⟨l', hl', hget⟩, hmeets⟩
    exact ⟨l', hget, (h.meets_iff hl hl').2 hmeets⟩

/-- The slots of a recorded link, on two nodes. -/
theorem homeless_iff (hl : r.linkAt (landed placed) r.id = some l) :
    r.Homeless g (landed placed) ↔ ¬(a.hasSlots l = true ∧ l.origin ≠ l.target) := by
  obtain ⟨ho, ht, hos, hts⟩ := LinkRecord.linkAt_spec hl
  rw [← h.slots.hasSlots l, not_and_or, not_not]
  unfold Graph.hasSlots
  rw [Bool.and_eq_true, not_and_or, Bool.not_eq_true, Bool.not_eq_true, Option.isSome_eq_false_iff,
    Option.isSome_eq_false_iff, Option.isNone_iff_eq_none, Option.isNone_iff_eq_none, hos, hts]
  constructor
  · rintro (hmissing | ⟨id, hid, hslot⟩ | ⟨id, hid, hslot⟩ | hloop)
    · rw [(LinkRecord.reaches_iff r.id).2 ⟨l, hl⟩] at hmissing
      cases hmissing
    · cases Option.some.inj (ho.symm.trans hid)
      exact .inl (.inl hslot)
    · cases Option.some.inj (ht.symm.trans hid)
      exact .inl (.inr hslot)
    · rw [hloop, ht] at ho
      exact .inr (Option.some.inj ho).symm
  · rintro ((hslot | hslot) | hloop)
    · exact .noOutput l.origin ho hslot
    · exact .noInput l.target ht hslot
    · exact .loop (landed_injective h.ids ho (hloop ▸ ht))

/-- A recorded link is missing in the end for one of three reasons. -/
theorem missing_iff (hr : r ∈ records) : ¬r.Kept g (landed placed) ↔
    r.Homeless g (landed placed) ∨ r.Displaced g (landed placed) records ∨
      r.Misled g placed records := by
  cases hreach : r.reaches (landed placed) with
  | false =>
    refine ⟨fun _ => .inl (.unreached hreach), fun _ => ?_⟩
    rintro ⟨l, hl, -⟩
    rw [(LinkRecord.reaches_iff r.id).2 ⟨l, hl⟩] at hreach
    cases hreach
  | true =>
    obtain ⟨l, hl⟩ := (LinkRecord.reaches_iff r.id).1 hreach
    obtain ⟨pruned, hlinks⟩ := h.links
    obtain ⟨-, ht, -, hts⟩ := LinkRecord.linkAt_spec hl
    have hkeeps := a.repair_keeps pruned (h.taken r hr l hl)
    have harrives : ∀ j, (a.repair pruned).graph.Arrives j l.target l.targetSlot ↔
        g.Arrives j l.target l.targetSlot := by
      intro j
      unfold Graph.Arrives
      rw [hlinks]
    rw [← hlinks, ← LinkRecord.kept_iff hl] at hkeeps
    rw [hkeeps, h.homeless_iff hl]
    constructor
    · intro hlost
      by_contra hnone
      rw [not_or, not_or, not_not] at hnone
      obtain ⟨hhome, hdisplaced, hmisled⟩ := hnone
      refine hlost ⟨hhome.1, hhome.2, fun j hj => ?_, fun j hj => ?_⟩
      · -- what was named there is kept there, or has misled
        by_contra hne
        obtain ⟨record, he, hnames, r', hr', rfl, hreach'⟩ := (h.named _ _ j).1 hj
        by_cases hfeeds : r'.Kept g (landed placed) ∧ r.Meets r'
        · exact hdisplaced ⟨r', hr', hne, hfeeds⟩
        · exact hmisled ⟨l.target, record, ht, he, r', hr', hne, hts ▸ hnames, hreach', hfeeds⟩
      · by_contra hne
        obtain ⟨r', hr', rfl, hfeeds⟩ := (h.arrives_iff hl).1 ((harrives j).1 hj)
        exact hdisplaced ⟨r', hr', hne, hfeeds⟩
    · rintro (hhome | ⟨r', hr', hne, hfeeds⟩ | ⟨id, record, hid, he, r', hr', hne, hnames, hmet, -⟩)
      · exact fun hall => hhome ⟨hall.1, hall.2.1⟩
      · rintro ⟨-, -, -, hfed⟩
        exact hne (hfed r'.id ((harrives _).2 ((h.arrives_iff hl).2 ⟨r', hr', rfl, hfeeds⟩)))
      · rintro ⟨-, -, hnamed, -⟩
        cases Option.some.inj (ht.symm.trans hid)
        exact hne (hnamed r'.id ((h.named ..).2 ⟨record, he, hts ▸ hnames, r', hr', rfl, hmet⟩))

end Reassembled

/-! ### Making the graph of the records -/

section Records

variable {nodes : Renaming NodeId} {g : Graph B} {records : List LinkRecord} {load : LinkLoad B}
  (h : load.Tells nodes g records) (hnone : g.links.keys = [])
include h hnone

/-- What a graph without links has taken over comes from a record. -/
theorem LinkLoad.Tells.recorded {k : LinkId} {l : Link} (hl : load.graph.links.get? k = some l) :
    ∃ r ∈ records, r.id = k ∧ r.linkAt nodes.get? k = some l := by
  rcases h.new k (Assoc.mem_keys_of_get? hl) with hold | ⟨i, hi⟩
  · rw [hnone] at hold
    cases hold
  · obtain ⟨r, hr⟩ := h.known i k hi
    obtain ⟨hmem, hid, -⟩ := LinkRecord.counting_spec hr
    obtain ⟨k', l', hk', hl', hget⟩ := h.counted i r hr
    cases Option.some.inj (hi.symm.trans hk')
    cases Option.some.inj (hl.symm.trans hget)
    exact ⟨r, hmem, hid.trans (h.own hnone i k hi).symm, hl'⟩

variable (hdistinct : (records.map LinkRecord.id).Nodup)
include hdistinct

/-- A graph without links takes over what was recorded, under the same identities. -/
theorem LinkLoad.Tells.taken {r : LinkRecord} (hr : r ∈ records) {l : Link}
    (hl : r.linkAt nodes.get? r.id = some l) : load.graph.links.get? r.id = some l := by
  have hreach : r.reaches nodes.get? = true := (LinkRecord.reaches_iff r.id).2 ⟨l, hl⟩
  obtain ⟨k, l', hk, hl', hget⟩ :=
    h.counted r.id r (LinkRecord.counting_of_nodup hdistinct hr hreach)
  cases h.own hnone _ _ hk
  cases Option.some.inj (hl.symm.trans hl')
  exact hget

/-- A record has given its identity to a link exactly if its nodes were loaded. -/
theorem LinkLoad.Tells.table_iff {i k : LinkId} : load.table.get? i = some k ↔
    i = k ∧ ∃ r ∈ records, r.id = k ∧ r.reaches nodes.get? = true := by
  constructor
  · intro hk
    have hown := h.own hnone _ _ hk
    obtain ⟨r, hr⟩ := h.known i k hk
    obtain ⟨hmem, hid, hreach⟩ := LinkRecord.counting_spec hr
    exact ⟨hown.symm, r, hmem, hid.trans hown.symm, hreach⟩
  · rintro ⟨rfl, r, hr, rfl, hreach⟩
    obtain ⟨k, l, hk, -⟩ := h.counted r.id r (LinkRecord.counting_of_nodup hdistinct hr hreach)
    exact h.own hnone _ _ hk ▸ hk

end Records

/-- Once the nodes of a snapshot were added to a graph that was empty, the rest of the load makes a
graph of the records and repairs it. -/
theorem Session.settleLoad_reassembles [Kind B] {old : Graph B} (hnodes : old.nodes.keys = [])
    (hlinks : old.links.keys = []) {snapshot : Snapshot}
    (hdistinct : (snapshot.links.map LinkRecord.id).Nodup) {p : Engine.Placing} {s : Session B σ}
    (hp : p.Tells old snapshot.nodes s.graph) (hunfed : s.graph.Unfed) :
    ∃ a, Reassembled p.placed snapshot.links a
      (s.settleLoad snapshot p.placed p.nodes p.report).2.graph := by
  let load := s.graph.mergeLinks p.nodes snapshot.links
  let merged : Graph B := { load.graph with nextLink := max load.graph.nextLink snapshot.nextLink }
  let adopted := merged.adopted load.table p.placed
  have hload : load.Tells p.nodes s.graph snapshot.links := s.graph.mergeLinks_tells ..
  have hfind : p.nodes.get? = landed p.placed := funext hp.table
  have hnone : s.graph.links.keys = [] := hp.links.trans hlinks
  have hkeys : merged.nodes.keys = p.placed.map Prod.fst := by
    rw [show merged.nodes = s.graph.nodes from hload.kept, hp.keys, hnodes]
    rfl
  have hids : (p.placed.map Prod.fst).Nodup := hkeys ▸ merged.nodes.nodup_keys
  have hbare : merged.Unfed := by
    rintro id slot k ⟨i, hi, hk⟩
    obtain ⟨n, hn, hslot⟩ := Graph.node_of_input hi
    rw [show merged.nodes = s.graph.nodes from hload.kept] at hn
    exact hunfed id slot k ⟨i, (Graph.input_of_node hn slot).trans hslot, hk⟩
  have hadopted : adopted.links = load.graph.links := (Graph.keys_adopted ..).2
  obtain ⟨told, htold, heq⟩ := s.settleLoad_eq snapshot p.placed p.nodes p.report
  rw [heq]
  refine ⟨adopted, hids, ?_, fun r hr l hl => ?_, fun k l hl => ?_, fun id slot k => ?_, ?_,
    p.report.prunedLinks ++ load.pruned, ?_⟩
  · refine (htold.finished snapshot).2.trans ((adopted.keys_repair _).trans ?_)
    exact (Graph.keys_adopted ..).1.trans hkeys
  · rw [hadopted]
    rw [← hfind] at hl
    exact hload.taken hnone hdistinct hr hl
  · rw [hadopted] at hl
    rw [← hfind]
    exact hload.recorded hnone hl
  · rw [Graph.holds_adopted hbare load.table hids hkeys, ← hfind]
    constructor
    · rintro ⟨record, i, he, hnames, hik⟩
      obtain ⟨rfl, hr⟩ := (hload.table_iff hnone hdistinct).1 hik
      exact ⟨record, he, hnames, hr⟩
    · rintro ⟨record, he, hnames, hr⟩
      exact ⟨record, k, he, hnames, (hload.table_iff hnone hdistinct).2 ⟨rfl, hr⟩⟩
  · have hrepair := adopted.sameSlots_repair (p.report.prunedLinks ++ load.pruned)
    refine (hrepair.trans (.of_wiring (Graph.wiring_of_skeleton htold.skeleton))).trans ?_
    obtain ⟨hw, -⟩ := told.finishLoad_spec snapshot
    -- moving the counter for nodes leaves all slots alone
    let raised : Graph B := { told.graph with nextNode := max told.graph.nextNode snapshot.nextNode }
    have hraised : told.graph.SameSlots raised := ⟨fun _ _ => rfl, fun _ _ => rfl⟩
    exact hraised.trans (.of_wiring (hw.trans rfl))
  · exact (htold.finished snapshot).1

/-! ## A load into an empty graph -/

/-- A snapshot whose links have distinct identities is loaded into an empty graph, or in the place of
any graph, and nodes that are added do not edit the graph.  A recorded link is missing afterwards
exactly if it has no place among the loaded nodes, if a recorded link that is there feeds its input,
or if the record of its target names another link there that was loaded and does not come to feed
that input.  Nodes whose identities are distinct keep them.  The load answers if the bodies do that
run when nodes are added. -/
theorem Engine.load_spares [Behavior B σ] {run : Runner B σ} (hrun : AddsQuietly run)
    {snapshot : Snapshot} (hdistinct : (snapshot.links.map LinkRecord.id).Nodup) (keepOld : Bool)
    {s : Session B σ} (hs : s.graph.registry.Fresh)
    (hempty : keepOld = true → s.graph.nodes.keys = [] ∧ s.graph.links.keys = []) :
    ((∀ b id, Answers (run (Behavior.body b id .added))) →
        ∃ report t, load run snapshot keepOld s = some (report, t)) ∧
      ∀ report t, load run snapshot keepOld s = some (report, t) →
        ∃ placed, (placed.map Prod.snd).Sublist snapshot.nodes ∧
          t.graph.nodes.keys = placed.map Prod.fst ∧
          ((∀ r ∈ snapshot.nodes, r.id.isSome) → (snapshot.nodes.map NodeRecord.id).Nodup →
            ∀ e ∈ placed, e.2.id = some e.1) ∧
          ∀ r ∈ snapshot.links, ¬r.Kept t.graph (landed placed) ↔
            r.Homeless t.graph (landed placed) ∨ r.Displaced t.graph (landed placed) snapshot.links ∨
              r.Misled t.graph placed snapshot.links := by
  refine ⟨fun hanswers => answers_load hanswers snapshot keepOld s, ?_⟩
  have hremains : (s.remains keepOld).nodes.keys = [] ∧ (s.remains keepOld).links.keys = [] ∧
      (s.remains keepOld).registry = s.graph.registry := by
    cases keepOld with
    | true => exact ⟨(hempty rfl).1, (hempty rfl).2, rfl⟩
    | false => exact ⟨rfl, rfl, s.clear_spec.1⟩
  obtain ⟨hnodes, hlinks, hregistry⟩ := hremains
  let opened := (((if keepOld then s else s.clear).edit fun g =>
    { g with config := g.config.insertAll snapshot.config.entries }).beginBatch)
  have hstart : Placing.Tells (s.remains keepOld) [] ⟨.clean, [], ∅⟩ opened.graph := .start rfl
  have hunfed : opened.graph.Unfed := by
    rintro id slot k ⟨i, hi, -⟩
    obtain ⟨n, hn, -⟩ := Graph.node_of_input hi
    have hmem : id ∈ (s.remains keepOld).nodes.keys := Assoc.mem_keys_of_get? hn
    rw [hnodes] at hmem
    cases hmem
  show Ensures (load run snapshot keepOld) s _
  apply Ensures.modify_bind
  apply Ensures.bind
  intro p t hplaced
  have hp := placeAll_tells hrun hstart p t hplaced
  have hbare := (placeAll_unfed hs hrun (s := opened) ⟨hregistry, hunfed⟩ p t hplaced).2
  apply Ensures.total
  obtain ⟨a, hmade⟩ := t.settleLoad_reassembles hnodes hlinks hdistinct hp hbare
  refine ⟨p.placed, hp.placed, hmade.nodes, fun hids hn => ?_, fun r hr => hmade.missing_iff hr⟩
  have hnodup : (p.placed.map fun e => e.2.id).Nodup := by
    have hsub := hp.placed.map NodeRecord.id
    rw [List.map_map] at hsub
    exact hn.sublist hsub
  refine hp.asked.own (fun i hmem => ?_) (fun e he => ?_) hnodup
  · rw [hnodes] at hmem
    cases hmem
  · exact hids e.2 (hp.placed.subset (List.mem_map_of_mem he))

/-- A source and two sinks.  The record of the first sink names the link to the second one. -/
def misleading : Snapshot :=
  let source : NodeRecord := { NodeRecord.new "basic/const_number" with id := some ⟨1⟩ }
  let sink (id : Nat) (link : Option LinkId) : NodeRecord :=
    { NodeRecord.new "basic/watch" with
      id := some ⟨id⟩, inputs := some [⟨"value", .any, link, none⟩] }
  { nextNode := 4, nextLink := 3, nodes := [source, sink 2 (some ⟨2⟩), sink 3 none]
    links := [⟨⟨1⟩, ⟨1⟩, 0, ⟨2⟩, 0, .any⟩, ⟨⟨2⟩, ⟨1⟩, 0, ⟨3⟩, 0, .any⟩], groups := [], config := ∅ }

/-- An empty graph of standard types in which a batch is open. -/
def waiting : Session Catalog Unit :=
  (⟨Graph.empty (Catalog.registry id) .default, [], ()⟩ : Session Catalog Unit).beginBatch

theorem misleading_evaluates : ((Engine.load (Engine.runner 1) misleading false waiting).any
    fun e => decide (e.2.graph.nodes.keys = [⟨1⟩, ⟨2⟩, ⟨3⟩]) &&
      decide (e.2.graph.links.keys = [⟨2⟩]) &&
      e.2.graph.links.values.all (fun l => decide (l.target ≠ ⟨2⟩)) &&
      (e.2.graph.output? ⟨1⟩ 0).isSome && (e.2.graph.input? ⟨2⟩ 0).isSome) = true := by
  decide +kernel

/-- Its first link is missing, and the other one is kept. -/
theorem misleading_spared : ∃ report t placed, Engine.load (Engine.runner 1) misleading false waiting =
      some (report, t) ∧
    t.graph.links.keys = [⟨2⟩] ∧ (∀ e ∈ placed, e.2.id = some e.1) ∧
    ∀ r ∈ misleading.links, ¬r.Kept t.graph (landed placed) ↔
      r.Homeless t.graph (landed placed) ∨ r.Displaced t.graph (landed placed) misleading.links ∨
        r.Misled t.graph placed misleading.links := by
  obtain ⟨⟨report, t⟩, hload, hfacts⟩ := (Option.any_eq_true _ _).1 misleading_evaluates
  simp only [Bool.and_eq_true, decide_eq_true_eq] at hfacts
  obtain ⟨⟨⟨⟨-, hkeys⟩, -⟩, -⟩, -⟩ := hfacts
  have hfresh : waiting.graph.registry.Fresh := by
    simp only [waiting, Session.beginBatch, Session.edit, Graph.empty]
    exact Catalog.fresh_registry id
  have hdistinct : (misleading.links.map LinkRecord.id).Nodup := by decide
  obtain ⟨-, hall⟩ := Engine.load_spares (Catalog.addsQuietly 1) hdistinct false hfresh
    fun h => nomatch h
  obtain ⟨placed, -, -, hids, hlinks⟩ := hall report t hload
  have hidentified : ∀ r ∈ misleading.nodes, r.id.isSome := by simp [misleading]
  exact ⟨report, t, placed, hload, hkeys, hids hidentified (by decide), hlinks⟩

/-- Both nodes of the first link were loaded, both its slots are there, it is no self-loop, and
nothing feeds its input; and yet it was dropped, for a link that feeds another input. -/
theorem misledLink_lost : ∃ report t, Engine.load (Engine.runner 1) misleading false waiting =
      some (report, t) ∧
    (misleading.nodes.map NodeRecord.id).Nodup ∧ (misleading.links.map LinkRecord.id).Nodup ∧
    ∃ r ∈ misleading.links, r.origin ∈ t.graph.nodes.keys ∧ r.target ∈ t.graph.nodes.keys ∧
      r.origin ≠ r.target ∧ (t.graph.output? r.origin r.originSlot).isSome = true ∧
      (t.graph.input? r.target r.targetSlot).isSome = true ∧ t.graph.links.get? r.id = none ∧
      ∀ k, ¬t.graph.Arrives k r.target r.targetSlot := by
  obtain ⟨⟨report, t⟩, hload, hfacts⟩ := (Option.any_eq_true _ _).1 misleading_evaluates
  simp only [Bool.and_eq_true, decide_eq_true_eq] at hfacts
  obtain ⟨⟨⟨⟨hnodes, hkeys⟩, hends⟩, hout⟩, hin⟩ := hfacts
  refine ⟨report, t, hload, by decide, by decide, _, List.mem_cons_self .., ?_, ?_, by decide, hout,
    hin, ?_, ?_⟩
  · rw [hnodes]
    decide
  · rw [hnodes]
    decide
  · rw [← Option.not_isSome_iff_eq_none, Assoc.get?_isSome, hkeys]
    decide
  · rintro k ⟨l, hl, htarget, -⟩
    exact of_decide_eq_true (List.all_eq_true.1 hends l (Assoc.mem_values_of_get? hl)) htarget

end Dataflow
