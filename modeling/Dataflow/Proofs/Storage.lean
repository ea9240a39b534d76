/-
  What the order of storage decides.

  Two graphs that hold the same nodes and links, but store the nodes in another order, may be swept
  differently.  The order of storage enters at two places only: it is the order of the `sources`, the
  nodes that await no link and are ready at the start, and the order of the nodes that a sweep leaves
  out.  Everything between follows the links (`run_alike`).

  So when the nodes are stored in their order of execution, the next sweep finds the nodes left out as
  the last one left them, and the sources sorted by priority.  If they were sorted before (`Staged`),
  nothing changes, for sorting keeps what is in order (`computeOrder_stored`).  If they were not, the
  next sweep may release the nodes behind them in another order; but then they are sorted for good
  (`staged_stored`).
-/

import Dataflow.Proofs.Order

namespace Dataflow

variable {B : Type}

/-! ## Pairs of a list -/

section Pairs

variable {l l' : List NodeId} {u v : NodeId}

/-- Of two members one comes first. -/
theorem pair_sublist_or (hu : u ∈ l) (hv : v ∈ l) (hne : u ≠ v) :
    [u, v].Sublist l ∨ [v, u].Sublist l := by
  obtain ⟨a, b, rfl⟩ := List.append_of_mem hu
  rcases List.mem_append.1 hv with hv | hv
  · exact .inr ((List.singleton_sublist.2 hv).append (List.singleton_sublist.2 List.mem_cons_self))
  · rcases List.mem_cons.1 hv with rfl | hv
    · exact absurd rfl hne
    · exact .inl (((List.singleton_sublist.2 hv).cons_cons u).trans (List.sublist_append_right ..))

theorem pair_sublist_append (h : [u, v].Sublist (l ++ l')) :
    [u, v].Sublist l ∨ (u ∈ l ∧ v ∈ l') ∨ [u, v].Sublist l' := by
  obtain ⟨front, back, heq, hfront, hback⟩ := List.sublist_append_iff.1 h
  match front, back, heq with
  | [], _, rfl => exact .inr (.inr hback)
  | [_], [_], rfl => exact .inr (.inl ⟨List.singleton_sublist.1 hfront, List.singleton_sublist.1 hback⟩)
  | [_, _], [], rfl => exact .inl hfront

/-- Without repetitions only one of two members comes first. -/
theorem pair_sublist_asymm (hl : l.Nodup) (huv : [u, v].Sublist l) : ¬[v, u].Sublist l := fun hvu =>
  Nat.lt_asymm (Graph.idxOf_lt_of_pair hl huv) (Graph.idxOf_lt_of_pair hl hvu)

/-- A list is determined by its members and by which of two comes first. -/
theorem eq_of_pairs (hp : l'.Perm l) (hl : l.Nodup)
    (h : ∀ u v, [u, v].Sublist l' → [u, v].Sublist l) : l' = l := by
  have hpairs : ∀ {m : List NodeId}, (∀ u v, [u, v].Sublist m → [u, v].Sublist l) →
      m.Pairwise fun u v => [u, v].Sublist l := fun h =>
    List.pairwise_iff_forall_sublist.2 fun huv => h _ _ huv
  refine List.Perm.eq_of_pairwise ?_ (hpairs h) (hpairs fun _ _ huv => huv) hp
  intro u v _ _ huv hvu
  exact absurd hvu (pair_sublist_asymm hl huv)

end Pairs

/-! ## The same graph, stored in another order -/

/-- The two graphs have the same nodes and links, each under its own identity. -/
structure Graph.Restacked (g g' : Graph B) : Prop where
  node : ∀ id, g'.nodes.get? id = g.nodes.get? id
  link : ∀ k, g'.links.get? k = g.links.get? k

namespace Graph.Restacked

variable {g g' : Graph B}

theorem mem_keys (h : g.Restacked g') (id : NodeId) : id ∈ g'.nodes.keys ↔ id ∈ g.nodes.keys := by
  rw [Assoc.mem_keys_iff, Assoc.mem_keys_iff, h.node]

theorem keys_perm (h : g.Restacked g') : g'.nodes.keys.Perm g.nodes.keys :=
  (List.perm_ext_iff_of_nodup g'.nodes.nodup_keys g.nodes.nodup_keys).2 h.mem_keys

theorem priority (h : g.Restacked g') (id : NodeId) : g'.priority id = g.priority id := by
  unfold Graph.priority
  rw [h.node]

theorem linksLeaving (h : g.Restacked g') (id : NodeId) :
    Sweep.linksLeaving g' id = Sweep.linksLeaving g id := by
  unfold Sweep.linksLeaving
  rw [h.node]

theorem contains (h : g.Restacked g') (id : NodeId) :
    g'.nodes.contains id = g.nodes.contains id := by
  rw [Assoc.contains_eq_isSome, Assoc.contains_eq_isSome, h.node]

end Graph.Restacked

/-! ## Two sweeps side by side -/

namespace Sweep

/-- The two sweeps have come equally far.  Levels do not matter, and neither does the order in which
the waiting nodes are kept. -/
structure Alike (s s' : Sweep) : Prop where
  waiting : ∀ id, s'.waiting.get? id = s.waiting.get? id
  ready : s'.ready = s.ready
  followed : s'.followed = s.followed
  placed : s'.placed = s.placed

variable {g g' : Graph B} {s s' : Sweep}

theorem Alike.arrive (h : s.Alike s') (id : NodeId) : (s.arrive id).Alike (s'.arrive id) := by
  unfold Sweep.arrive
  rw [h.waiting]
  cases s.waiting.get? id with
  | none => exact h
  | some n =>
    by_cases hn : n ≤ 1
    · simp only [if_pos hn]
      refine ⟨fun i => ?_, congrArg (· ++ [id]) h.ready, h.followed, h.placed⟩
      simp only [Assoc.get?_erase, h.waiting]
    · simp only [if_neg hn]
      refine ⟨fun i => ?_, h.ready, h.followed, h.placed⟩
      simp only [Assoc.get?_insert, h.waiting]

theorem Alike.follow (hg : g.Restacked g') (h : s.Alike s') (level level' : Nat) (k : LinkId) :
    (s.follow g level k).Alike (s'.follow g' level' k) := by
  unfold Sweep.follow
  rw [h.followed, hg.link]
  by_cases hk : k ∈ s.followed
  · simp only [if_pos hk]
    exact h
  · simp only [if_neg hk]
    cases g.links.get? k with
    | none => exact ⟨h.waiting, h.ready, rfl, h.placed⟩
    | some l =>
      simp only [hg.contains]
      split
      · apply Alike.arrive
        exact ⟨h.waiting, h.ready, rfl, h.placed⟩
      · exact ⟨h.waiting, h.ready, rfl, h.placed⟩

theorem Alike.follows (hg : g.Restacked g') (level level' : Nat) (ks : List LinkId)
    (h : s.Alike s') :
    (ks.foldl (Sweep.follow g level) s).Alike (ks.foldl (Sweep.follow g' level') s') := by
  induction ks generalizing s s' with
  | nil => exact h
  | cons k ks ih => exact ih (h.follow hg level level' k)

theorem Alike.place (hg : g.Restacked g') (h : s.Alike s') (id : NodeId) (rest : List NodeId) :
    (s.place g id rest).Alike (s'.place g' id rest) := by
  unfold Sweep.place
  rw [hg.linksLeaving]
  apply Alike.follows hg
  exact ⟨h.waiting, rfl, h.followed, congrArg (· ++ [id]) h.placed⟩

theorem run_alike (hg : g.Restacked g') (h : s.Alike s') : (s.run g).Alike (s'.run g') := by
  induction s using Sweep.run.induct g generalizing s' with
  | case1 s hr =>
    rw [run_of_nil hr, run_of_nil (h.ready.trans hr)]
    exact h
  | case2 s id rest hr ih =>
    rw [run_of_cons hr, run_of_cons (h.ready.trans hr)]
    exact ih (h.place hg id rest)

/-! ## A sweep begins with the sources -/

theorem released_arrive (s : Sweep) (id : NodeId) : s.released <+: (s.arrive id).released := by
  unfold arrive
  split
  · exact List.prefix_rfl
  · split
    · refine ⟨[id], ?_⟩
      show s.placed ++ s.ready ++ [id] = s.placed ++ (s.ready ++ [id])
      rw [List.append_assoc]
    · exact List.prefix_rfl

theorem released_follow (g : Graph B) (level : Nat) (s : Sweep) (k : LinkId) :
    s.released <+: (s.follow g level k).released := by
  unfold follow
  split
  · exact List.prefix_rfl
  · simp only
    split
    · exact List.prefix_rfl
    · split
      · exact released_arrive (s := { s with followed := k :: s.followed, levels := _ }) _
      · exact List.prefix_rfl

theorem released_follows (g : Graph B) (level : Nat) (ks : List LinkId) (s : Sweep) :
    s.released <+: (ks.foldl (follow g level) s).released := by
  induction ks generalizing s with
  | nil => exact List.prefix_rfl
  | cons k ks ih => exact (released_follow g level s k).trans (ih _)

/-- Placing a node moves it from the front of those that are ready; the released nodes stay in front
of those that it releases. -/
theorem released_place (g : Graph B) {s : Sweep} {id : NodeId} {rest : List NodeId}
    (hr : s.ready = id :: rest) : s.released <+: (s.place g id rest).released := by
  have hl : ({ s with ready := rest, placed := s.placed ++ [id] } : Sweep).released = s.released := by
    show s.placed ++ [id] ++ rest = s.placed ++ s.ready
    rw [List.append_assoc, hr]
    rfl
  rw [← hl]
  exact released_follows g _ _ _

end Sweep

namespace Graph

/-- The nodes that await no link, as they are stored. -/
def sources (g : Graph B) : List NodeId := (Sweep.start g).ready

/-- A node is there and awaits no link. -/
def isSource (g : Graph B) (id : NodeId) : Bool :=
  (g.nodes.get? id).any fun n => Sweep.awaited n = 0

theorem sources_eq (g : Graph B) : g.sources = g.nodes.keys.filter g.isSource := by
  show ((g.nodes.entries.map fun e => (e.1, Sweep.awaited e.2)).filter fun e => e.2 = 0).map Prod.fst
    = (g.nodes.entries.map Prod.fst).filter _
  rw [List.filter_map, List.filter_map, List.map_map]
  apply congrArg (List.map Prod.fst)
  apply List.filter_congr
  intro e he
  show decide (Sweep.awaited e.2 = 0) = g.isSource e.1
  unfold isSource
  rw [(Assoc.get?_eq_some_iff g.nodes e.1 e.2).2 he]
  rfl

theorem sources_prefix (g : Graph B) : g.sources <+: g.swept := by
  have h := (Sweep.run_keeps (P := fun s => g.sources <+: s.released)
    (fun _ _ _ hr h => h.trans (Sweep.released_place g hr)) (Sweep.start g) List.prefix_rfl).1
  rwa [Sweep.released_run] at h

/-- The nodes that await no link are stored by priority. -/
def Staged (g : Graph B) : Prop := g.sources.Pairwise fun u v => g.priority u ≤ g.priority v

instance (g : Graph B) : Decidable g.Staged :=
  inferInstanceAs (Decidable (List.Pairwise _ _))

/-- Sorting by priority keeps the sources as they are. -/
theorem Staged.sublist {g : Graph B} (h : g.Staged) : g.sources.Sublist g.computeOrder := by
  have hs : g.sources.Sublist g.unsorted :=
    g.sources_prefix.sublist.trans (List.sublist_append_left ..)
  exact List.sublist_mergeSort g.priority_trans g.priority_total (h.imp decide_eq_true) hs

variable {g g' : Graph B}

namespace Restacked

theorem isSource (h : g.Restacked g') (id : NodeId) : g'.isSource id = g.isSource id := by
  unfold Graph.isSource
  rw [h.node]

/-- With the sources in the same order, the same nodes are placed in the same order. -/
theorem swept (h : g.Restacked g') (hs : g'.sources = g.sources) : g'.swept = g.swept := by
  have hstart : (Sweep.start g).Alike (Sweep.start g') := by
    refine ⟨fun id => ?_, hs, rfl, rfl⟩
    show ((g'.nodes.mapValues _).filter _).get? id = ((g.nodes.mapValues _).filter _).get? id
    rw [Assoc.get?_filter, Assoc.get?_filter, Assoc.get?_mapValues, Assoc.get?_mapValues, h.node]
  exact (Sweep.run_alike h hstart).placed

/-- The order of execution is the same if nodes of equal priority come in the same order. -/
theorem computeOrder_eq (h : g.Restacked g')
    (hp : ∀ u v, g.priority u = g.priority v → [u, v].Sublist g'.unsorted →
      [u, v].Sublist g.computeOrder) : g'.computeOrder = g.computeOrder := by
  have hperm : g'.computeOrder.Perm g.computeOrder :=
    (g'.computeOrder_perm.trans h.keys_perm).trans g.computeOrder_perm.symm
  refine eq_of_pairs hperm g.nodup_computeOrder fun u v huv => ?_
  have hu : u ∈ g'.computeOrder := huv.subset (List.mem_cons_self ..)
  have hv : v ∈ g'.computeOrder := huv.subset (List.mem_cons_of_mem u (List.mem_cons_self ..))
  have hne : u ≠ v := by
    rintro rfl
    exact pair_sublist_asymm g'.nodup_computeOrder huv huv
  have hle : g.priority u ≤ g.priority v := by
    have hle := List.pairwise_iff_forall_sublist.1 g'.computeOrder_sorted huv
    rwa [h.priority, h.priority] at hle
  rcases Int.lt_or_eq_of_le hle with hlt | heq
  · -- sorting puts the smaller priority first
    refine (pair_sublist_or (hperm.mem_iff.1 hu) (hperm.mem_iff.1 hv) hne).resolve_right fun hvu => ?_
    exact absurd (List.pairwise_iff_forall_sublist.1 g.computeOrder_sorted hvu) (Int.not_le.2 hlt)
  · -- sorting keeps the two as they were
    have hsorted : g'.computeOrder.Perm g'.unsorted := List.mergeSort_perm ..
    refine hp u v heq ((pair_sublist_or (hsorted.mem_iff.1 hu) (hsorted.mem_iff.1 hv) hne).resolve_right
      fun hvu => pair_sublist_asymm g'.nodup_computeOrder huv (computeOrder_keeps hvu ?_))
    rw [h.priority, h.priority, heq]

end Restacked

/-! ## Stored in the order of execution -/

section Stored

variable (h : g.Restacked g') (hk : g'.nodes.keys = g.computeOrder)
include h hk

theorem sources_stored : g'.sources = g.computeOrder.filter g.isSource := by
  rw [sources_eq, hk]
  exact List.filter_congr fun id _ => h.isSource id

/-- Stored in the order of execution, the sources are stored by priority. -/
theorem staged_stored : g'.Staged := by
  unfold Staged
  rw [sources_stored h hk]
  refine (g.computeOrder_sorted.sublist List.filter_sublist).imp fun huv => ?_
  rwa [h.priority, h.priority]

/-- If the sources were stored by priority before, they are as they were. -/
theorem Staged.sources_stored (hs : g.Staged) : g'.sources = g.sources := by
  have hsub : g.sources.Sublist g'.sources := by
    have hf := hs.sublist.filter g.isSource
    rw [← Graph.sources_stored h hk] at hf
    rwa [List.filter_eq_self.2 fun id hid => ?_] at hf
    rw [sources_eq] at hid
    exact (List.mem_filter.1 hid).2
  have hlen : g.sources.length = g'.sources.length := by
    rw [Graph.sources_stored h hk, sources_eq]
    exact ((g.computeOrder_perm.filter _).length_eq).symm
  exact (hsub.eq_of_length hlen).symm

/-- If the sources were stored by priority before, the order of execution is as it was: what a sweep
places does not depend on how the other nodes are stored, and what it leaves out is stored in the
order in which sorting left it. -/
theorem Staged.computeOrder_stored (hs : g.Staged) : g'.computeOrder = g.computeOrder := by
  have hswept : g'.swept = g.swept := h.swept (hs.sources_stored h hk)
  apply h.computeOrder_eq
  intro u v hp huv
  have hunsorted : g'.unsorted = g.swept ++ g.computeOrder.filter (· ∉ g.swept) := by
    show g'.swept ++ g'.nodes.keys.filter (· ∉ g'.swept) = _
    rw [hswept, hk]
  rw [hunsorted] at huv
  rcases pair_sublist_append huv with huv | ⟨hu, hv⟩ | huv
  · exact computeOrder_keeps (huv.trans (List.sublist_append_left ..)) (Int.le_of_eq hp)
  · -- a node that was placed comes before one that was left out
    obtain ⟨hv, hout⟩ := List.mem_filter.1 hv
    have hout' := g.mem_unplaced.2 ⟨g.computeOrder_perm.mem_iff.1 hv, of_decide_eq_true hout⟩
    exact computeOrder_keeps ((List.singleton_sublist.2 hu).append (List.singleton_sublist.2 hout'))
      (Int.le_of_eq hp)
  · exact huv.trans List.filter_sublist

end Stored

end Graph

end Dataflow
