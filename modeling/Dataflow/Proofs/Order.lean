/-
  The order of execution is right.

  The nodes on a cycle of links, or behind one, are `Tangled`.  They are the ones that a sweep
  leaves out: a placed node stands behind all its feeders, so no cycle can lead to it, and a node
  that was left out is fed by another one, so going backwards through finitely many nodes must
  run into a cycle.

  Sorting by priority keeps every pair that is in order of priority already.  So a link still
  points forward when its target is not tangled and its priority is not the smaller one, and
  among equals the tangled nodes come last, as they are stored.
-/

import Mathlib.Data.Fintype.Card
import Mathlib.Data.Set.Finite.List
import Mathlib.Logic.Relation
import Dataflow.Proofs.Sweep

namespace Dataflow.Graph

variable {B : Type}

/-! ## Cycles -/

/-- A node can be reached from itself. -/
def Cyclic (g : Graph B) (id : NodeId) : Prop := Relation.TransGen g.Feeds id id

/-- A node is on a cycle or behind one. -/
def Tangled (g : Graph B) (id : NodeId) : Prop :=
  ∃ u, g.Cyclic u ∧ Relation.ReflTransGen g.Feeds u id

theorem Cyclic.tangled {g : Graph B} {id : NodeId} (h : g.Cyclic id) : g.Tangled id := ⟨id, h, .refl⟩

theorem Tangled.step {g : Graph B} {u v : NodeId} (h : g.Tangled u) (hf : g.Feeds u v) :
    g.Tangled v := by
  obtain ⟨w, hw, hr⟩ := h
  exact ⟨w, hw, hr.tail hf⟩

/-- The nodes that a sweep of the graph places, in order. -/
def swept (g : Graph B) : List NodeId := ((Sweep.start g).run g).placed

theorem swept_subset (g : Graph B) {id : NodeId} (h : id ∈ g.swept) : id ∈ g.nodes.keys :=
  (Sweep.placed_or_waiting g).mem_iff.1 (List.mem_append_left _ h)

theorem nodup_swept (g : Graph B) : g.swept.Nodup :=
  (List.nodup_append.1 ((Sweep.placed_or_waiting g).nodup_iff.2 g.nodes.nodup_keys)).1

theorem idxOf_lt_of_pair {l : List NodeId} (hl : l.Nodup) {u v : NodeId} (h : [u, v].Sublist l) :
    l.idxOf u < l.idxOf v := by
  induction l with
  | nil => cases h
  | cons a l ih =>
    obtain ⟨ha, hl⟩ := List.nodup_cons.1 hl
    cases h with
    | cons _ h =>
      have hu : a ≠ u := fun he => ha (he ▸ h.subset (List.mem_cons_self ..))
      have hv : a ≠ v := fun he => ha (he ▸ h.subset (List.mem_cons_of_mem u (List.mem_cons_self ..)))
      rw [List.idxOf_cons_ne l hu, List.idxOf_cons_ne l hv]
      exact Nat.succ_lt_succ (ih hl h)
    | cons_cons _ h =>
      have hv : u ≠ v := fun he => ha (he ▸ h.subset (List.mem_cons_self ..))
      rw [List.idxOf_cons_self, List.idxOf_cons_ne l hv]
      exact Nat.succ_pos _

section Swept

variable {g : Graph B} (hg : g.Joined)
include hg

theorem swept_feeder {u v : NodeId} (hf : g.Feeds u v) (hv : v ∈ g.swept) :
    u ∈ g.swept ∧ g.swept.idxOf u < g.swept.idxOf v := by
  have h : [u, v].Sublist g.swept := Sweep.placed_behind hg hf hv
  exact ⟨h.subset (List.mem_cons_self ..), idxOf_lt_of_pair g.nodup_swept h⟩

/-- Whatever leads to a placed node stands in front of it. -/
theorem swept_ancestor {u v : NodeId} (h : Relation.TransGen g.Feeds u v) (hv : v ∈ g.swept) :
    u ∈ g.swept ∧ g.swept.idxOf u < g.swept.idxOf v := by
  induction h with
  | single hf => exact swept_feeder hg hf hv
  | tail _ hf ih =>
    obtain ⟨hw, hlt⟩ := swept_feeder hg hf hv
    obtain ⟨hu, hlt'⟩ := ih hw
    exact ⟨hu, Nat.lt_trans hlt' hlt⟩

theorem not_tangled_of_swept {id : NodeId} (h : id ∈ g.swept) : ¬g.Tangled id := by
  rintro ⟨u, hu, hr⟩
  have hs : u ∈ g.swept := by
    rcases Relation.reflTransGen_iff_eq_or_transGen.1 hr with rfl | ht
    · exact h
    · exact (swept_ancestor hg ht h).1
  exact Nat.lt_irrefl _ (swept_ancestor hg hu hs).2

/-- A node that is not tangled is placed: induction along the links, which end somewhere among
finitely many nodes without a cycle. -/
theorem swept_of_not_tangled {id : NodeId} (hid : id ∈ g.nodes.keys) (h : ¬g.Tangled id) :
    id ∈ g.swept := by
  let Node := {id : NodeId // id ∈ g.nodes.keys ∧ ¬g.Tangled id}
  have hfin : Finite Node :=
    Set.Finite.to_subtype (g.nodes.keys.finite_toSet.subset fun _ h => h.1)
  let before (a b : Node) : Prop := Relation.TransGen g.Feeds a.1 b.1
  have htrans : IsTrans Node before := ⟨fun _ _ _ hab hbc => hab.trans hbc⟩
  have hirrefl : Std.Irrefl before := ⟨fun a ha => a.2.2 (Cyclic.tangled ha)⟩
  -- a path from a node back to itself would be a cycle
  have hwf : WellFounded before := Finite.wellFounded_of_trans_of_irrefl before
  suffices hall : ∀ a : Node, a.1 ∈ g.swept from hall ⟨id, hid, h⟩
  intro a
  induction a using hwf.induction with
  | _ a ih =>
    by_contra hn
    -- left out, it is fed by another node that was left out, to which the hypothesis applies
    obtain ⟨u, hf, hu⟩ := Sweep.exists_unplaced hg a.2.1 hn
    have hnt : ¬g.Tangled u := fun ht => a.2.2 (ht.step hf)
    exact hu (ih ⟨u, hf.origin_mem hg, hnt⟩ (.single hf))

end Swept

/-! ## The order before sorting -/

/-- The nodes placed, and then those left out. -/
def unsorted (g : Graph B) : List NodeId := g.swept ++ g.unplaced ((Sweep.start g).run g)

theorem mem_unplaced (g : Graph B) {id : NodeId} :
    id ∈ g.unplaced ((Sweep.start g).run g) ↔ id ∈ g.nodes.keys ∧ id ∉ g.swept := by
  unfold unplaced swept
  rw [List.mem_filter]
  simp

theorem unsorted_perm (g : Graph B) : g.unsorted.Perm g.nodes.keys := by
  have hn : g.unsorted.Nodup := by
    refine g.nodup_swept.append (g.nodes.nodup_keys.filter _) ?_
    intro id hs hu
    exact (g.mem_unplaced.1 hu).2 hs
  apply (List.perm_ext_iff_of_nodup hn g.nodes.nodup_keys).2
  intro id
  rw [unsorted, List.mem_append, mem_unplaced]
  constructor
  · rintro (hs | hu)
    · exact g.swept_subset hs
    · exact hu.1
  · intro hk
    by_cases hs : id ∈ g.swept
    · exact .inl hs
    · exact .inr ⟨hk, hs⟩

/-! ## The order after sorting -/

theorem priority_trans (g : Graph B) (a b c : NodeId)
    (hab : decide (g.priority a ≤ g.priority b) = true)
    (hbc : decide (g.priority b ≤ g.priority c) = true) :
    decide (g.priority a ≤ g.priority c) = true :=
  decide_eq_true (Int.le_trans (of_decide_eq_true hab) (of_decide_eq_true hbc))

theorem priority_total (g : Graph B) (a b : NodeId) :
    (decide (g.priority a ≤ g.priority b) || decide (g.priority b ≤ g.priority a)) = true := by
  rw [Bool.or_eq_true, decide_eq_true_iff, decide_eq_true_iff]
  exact Int.le_total _ _

/-- A pair in order of priority stays in order. -/
theorem computeOrder_keeps {g : Graph B} {u v : NodeId} (h : [u, v].Sublist g.unsorted)
    (hp : g.priority u ≤ g.priority v) : [u, v].Sublist g.computeOrder :=
  List.pair_sublist_mergeSort g.priority_trans g.priority_total (decide_eq_true hp) h

/-- Every node is listed once. -/
theorem computeOrder_perm (g : Graph B) : g.computeOrder.Perm g.nodes.keys :=
  (List.mergeSort_perm ..).trans g.unsorted_perm

theorem nodup_computeOrder (g : Graph B) : g.computeOrder.Nodup :=
  g.computeOrder_perm.nodup_iff.2 g.nodes.nodup_keys

theorem computeOrder_sorted (g : Graph B) :
    g.computeOrder.Pairwise fun u v => g.priority u ≤ g.priority v := by
  have h := List.pairwise_mergeSort g.priority_trans g.priority_total g.unsorted
  exact h.imp fun hab => of_decide_eq_true hab

/-- A link whose target is not tangled points forward unless the priorities forbid it. -/
theorem computeOrder_forward {g : Graph B} (hg : g.Joined) {u v : NodeId} (hf : g.Feeds u v)
    (ht : ¬g.Tangled v) (hp : g.priority u ≤ g.priority v) : [u, v].Sublist g.computeOrder := by
  refine computeOrder_keeps ?_ hp
  have hv := swept_of_not_tangled hg (hf.target_mem hg) ht
  exact (Sweep.placed_behind hg hf hv).trans (List.sublist_append_left ..)

/-- The order of execution lists every node once, by priority.  A link whose target is not on or
behind a cycle points forward unless the priorities forbid it.  Among nodes of equal priority,
those on or behind cycles come after all others, in the order in which they are stored. -/
theorem computeOrder_correct {g : Graph B} (hg : g.Joined) :
    (g.computeOrder.Nodup ∧ g.computeOrder.Perm g.nodes.keys) ∧
      g.computeOrder.Pairwise (fun u v => g.priority u ≤ g.priority v) ∧
      (∀ u v, g.Feeds u v → ¬g.Tangled v → g.priority u ≤ g.priority v →
        [u, v].Sublist g.computeOrder) ∧
      (∀ u ∈ g.nodes.keys, ∀ v ∈ g.nodes.keys, ¬g.Tangled u → g.Tangled v →
        g.priority u = g.priority v → [u, v].Sublist g.computeOrder) ∧
      ∀ u v, [u, v].Sublist g.nodes.keys → g.Tangled u → g.Tangled v →
        g.priority u = g.priority v → [u, v].Sublist g.computeOrder := by
  -- the tangled nodes are behind all others before sorting already
  have hout : ∀ id, id ∈ g.nodes.keys → g.Tangled id →
      id ∈ g.unplaced ((Sweep.start g).run g) := fun id hid ht =>
    g.mem_unplaced.2 ⟨hid, fun hs => not_tangled_of_swept hg hs ht⟩
  refine ⟨⟨g.nodup_computeOrder, g.computeOrder_perm⟩, g.computeOrder_sorted, ?_, ?_, ?_⟩
  · intro u v hf ht hp
    refine computeOrder_keeps ?_ hp
    have hv := swept_of_not_tangled hg (hf.target_mem hg) ht
    exact (Sweep.placed_behind hg hf hv).trans (List.sublist_append_left ..)
  · intro u hu v hv hnt ht hp
    refine computeOrder_keeps ?_ (Int.le_of_eq hp)
    have hl : [u].Sublist g.swept := List.singleton_sublist.2 (swept_of_not_tangled hg hu hnt)
    exact hl.append (List.singleton_sublist.2 (hout v hv ht))
  · intro u v hk htu htv hp
    refine computeOrder_keeps ?_ (Int.le_of_eq hp)
    -- both survive the filter that makes the list of nodes left out
    have hmem := fun id (hid : id ∈ [u, v]) => hout id (hk.subset hid)
      (by rcases List.mem_cons.1 hid with rfl | hid
          · exact htu
          · exact List.mem_singleton.1 hid ▸ htv)
    have hfix : [u, v].filter (· ∉ ((Sweep.start g).run g).placed) = [u, v] :=
      List.filter_eq_self.2 fun id hid => (List.mem_filter.1 (hmem id hid)).2
    have hsub := hk.filter (· ∉ ((Sweep.start g).run g).placed)
    rw [hfix] at hsub
    exact hsub.trans (List.sublist_append_right ..)

/-- Two nodes, and a link from the second of them to the first. -/
def backward : Graph Unit :=
  let sink : Node Unit := { (default : Node Unit) with inputs := [⟨"in", .any, some ⟨1⟩, none⟩] }
  let source : Node Unit :=
    { (default : Node Unit) with outputs := [⟨"out", .any, [⟨1⟩], none, none⟩] }
  { Graph.empty ∅ .default with
    nodes := Assoc.insert (Assoc.insert ∅ ⟨1⟩ sink) ⟨2⟩ source
    links := Assoc.insert ∅ ⟨1⟩ (Link.new ⟨1⟩ .any ⟨2⟩ 0 ⟨1⟩ 0) }

theorem backward_input? (id : NodeId) (slot : Nat) : backward.input? id slot =
    if id = ⟨1⟩ ∧ slot = 0 then some ⟨"in", .any, some ⟨1⟩, none⟩ else none := by
  show (Assoc.get? (Assoc.insert (Assoc.insert ∅ _ _) _ _) id).bind _ = _
  rw [Assoc.get?_insert, Assoc.get?_insert, Assoc.get?_empty]
  by_cases h2 : id = ⟨2⟩
  · subst h2
    rfl
  · by_cases h1 : id = ⟨1⟩
    · subst h1
      cases slot <;> rfl
    · simp [h1, h2]

theorem backward_output? (id : NodeId) (slot : Nat) : backward.output? id slot =
    if id = ⟨2⟩ ∧ slot = 0 then some ⟨"out", .any, [⟨1⟩], none, none⟩ else none := by
  show (Assoc.get? (Assoc.insert (Assoc.insert ∅ _ _) _ _) id).bind _ = _
  rw [Assoc.get?_insert, Assoc.get?_insert, Assoc.get?_empty]
  by_cases h2 : id = ⟨2⟩
  · subst h2
    cases slot <;> rfl
  · by_cases h1 : id = ⟨1⟩
    · subst h1
      rfl
    · simp [h1, h2]

theorem backward_links (k : LinkId) : backward.links.get? k =
    if k = ⟨1⟩ then some (Link.new ⟨1⟩ .any ⟨2⟩ 0 ⟨1⟩ 0) else none := Assoc.get?_insert ..

theorem backward_joined : backward.Joined where
  apart k l h := by
    rw [backward_links] at h
    split at h
    · cases h
      decide
    · cases h
  inputs id slot k := by
    unfold Holds Arrives
    rw [backward_input?, backward_links]
    constructor
    · rintro ⟨s, hs, hk⟩
      split at hs
      · next h =>
        cases hs
        cases hk
        exact ⟨_, if_pos rfl, h.1.symm, h.2.symm⟩
      · cases hs
    · rintro ⟨l, hl, rfl, rfl⟩
      split at hl
      · next h =>
        cases hl
        exact ⟨_, if_pos ⟨rfl, rfl⟩, h ▸ rfl⟩
      · cases hl
  outputs id slot k := by
    unfold Lists Leaves
    rw [backward_output?, backward_links]
    constructor
    · rintro ⟨s, hs, hk⟩
      split at hs
      · next h =>
        cases hs
        rw [List.mem_singleton.1 hk]
        exact ⟨_, if_pos rfl, h.1.symm, h.2.symm⟩
      · cases hs
    · rintro ⟨l, hl, rfl, rfl⟩
      split at hl
      · next h =>
        cases hl
        exact ⟨_, if_pos ⟨rfl, rfl⟩, List.mem_singleton.2 h⟩
      · cases hl

/-- The node stored last runs first, for it feeds the other. -/
theorem backward_order : backward.Feeds ⟨2⟩ ⟨1⟩ ∧ [⟨2⟩, ⟨1⟩].Sublist backward.computeOrder := by
  have hends : ∀ {u v}, backward.Feeds u v → u = ⟨2⟩ ∧ v = ⟨1⟩ := by
    rintro u v ⟨k, l, hl, rfl, rfl⟩
    rw [backward_links] at hl
    split at hl
    · cases hl
      exact ⟨rfl, rfl⟩
    · cases hl
  have hf : backward.Feeds ⟨2⟩ ⟨1⟩ := ⟨⟨1⟩, _, backward_links ⟨1⟩, rfl, rfl⟩
  refine ⟨hf, (computeOrder_correct backward_joined).2.2.1 _ _ hf ?_ (by decide)⟩
  rintro ⟨u, hu, -⟩
  obtain ⟨w, hw, -⟩ := Relation.TransGen.head'_iff.1 hu
  obtain ⟨w', -, hw'⟩ := Relation.TransGen.tail'_iff.1 hu
  have h2 := (hends hw).1
  rw [(hends hw').2] at h2
  exact absurd h2 (by decide)

end Dataflow.Graph
