/-
  The search for ancestors.

  A search looks at one pending node after another and reaches the nodes that feed it.  All that it
  has reached leads to the node where it started (`Upstream.leads`), and a node reached whose
  feeders were not all reached is still pending (`Upstream.closed`).  So in the end just those
  nodes were reached from which links lead to the start.  It looks at each of them once, so cycles
  do not keep it busy.

  The nodes reached are sorted by the places noted in them.  While the cache is current these are
  the places in the order of execution, so the result is a part of that order.
-/

import Dataflow.Proofs.Connecting

namespace Dataflow

variable {B σ : Type}

namespace Search

/-! ## One look -/

/-- Looks at a pending node, after which `rest` is pending. -/
def look (g : Graph B) (s : Search) (id : NodeId) (rest : List NodeId) : Search :=
  (feeders g id).foldl visit { s with pending := rest }

theorem feeders_eq (g : Graph B) (id : NodeId) :
    feeders g id = (g.incoming id).filterMap fun k => (g.links.get? k).map Link.origin := by
  unfold feeders Graph.incoming
  cases g.nodes.get? id with
  | none => rfl
  | some n =>
    show n.inputs.filterMap _ = (n.inputs.filterMap Input.link).filterMap _
    rw [List.filterMap_filterMap]
    congr 1
    funext i
    cases i.link <;> rfl

theorem mem_feeders {g : Graph B} (hg : g.Joined) {u id : NodeId} :
    u ∈ feeders g id ↔ g.Feeds u id := by
  rw [feeders_eq, List.mem_filterMap]
  constructor
  · rintro ⟨k, hk, ho⟩
    obtain ⟨l, hl, ht⟩ := (Graph.mem_incoming hg).1 hk
    rw [hl] at ho
    exact ⟨k, l, hl, Option.some.inj ho, ht⟩
  · rintro ⟨k, l, hl, rfl, ht⟩
    refine ⟨k, (Graph.mem_incoming hg).2 ⟨l, hl, ht⟩, ?_⟩
    rw [hl]
    rfl

/-- What visiting nodes does: the fresh ones are reached and are looked at later. -/
structure Visits (ids : List NodeId) (s s' : Search) (fresh : List NodeId) : Prop where
  found : s'.found = s.found ++ fresh
  pending : s'.pending = s.pending ++ fresh
  unseen : (fresh ++ s'.unseen).Perm s.unseen
  named : ∀ u ∈ fresh, u ∈ ids
  every : ∀ u ∈ ids, u ∈ s.unseen → u ∈ fresh

theorem visits_foldl (ids : List NodeId) (s : Search) :
    ∃ fresh, Visits ids s (ids.foldl visit s) fresh := by
  induction ids generalizing s with
  | nil =>
    refine ⟨[], (List.append_nil _).symm, (List.append_nil _).symm, .refl _, ?_, ?_⟩
    · intro u hu
      cases hu
    · intro u hu
      cases hu
  | cons id ids ih =>
    rw [List.foldl_cons]
    by_cases hid : id ∈ s.unseen
    · have hvisit : s.visit id = ⟨s.pending ++ [id], s.unseen.erase id, s.found ++ [id]⟩ :=
        if_pos hid
      rw [hvisit]
      obtain ⟨fresh, h⟩ := ih ⟨s.pending ++ [id], s.unseen.erase id, s.found ++ [id]⟩
      refine ⟨id :: fresh, ?found, ?pending, ?unseen, ?named, ?every⟩
      case found =>
        rw [h.found, List.append_assoc]
        rfl
      case pending =>
        rw [h.pending, List.append_assoc]
        rfl
      case unseen =>
        exact (h.unseen.cons id).trans (List.perm_cons_erase hid).symm
      case named =>
        intro u hu
        rcases List.mem_cons.1 hu with rfl | hu
        · exact List.mem_cons_self ..
        · exact List.mem_cons_of_mem id (h.named u hu)
      case every =>
        intro u hu hunseen
        by_cases he : u = id
        · exact he ▸ List.mem_cons_self ..
        · have hlater : u ∈ ids := (List.mem_cons.1 hu).resolve_left he
          exact List.mem_cons_of_mem id (h.every u hlater ((List.mem_erase_of_ne he).2 hunseen))
    · have hvisit : s.visit id = s := if_neg hid
      rw [hvisit]
      obtain ⟨fresh, h⟩ := ih s
      refine ⟨fresh, h.found, h.pending, h.unseen, ?_, ?_⟩
      · intro u hu
        exact List.mem_cons_of_mem id (h.named u hu)
      · intro u hu hunseen
        rcases List.mem_cons.1 hu with rfl | hu
        · exact absurd hunseen hid
        · exact h.every u hu hunseen

/-! ## Whole searches -/

theorem run_of_nil {g : Graph B} {s : Search} (h : s.pending = []) : s.run g = s := by
  rw [run]
  split
  · rfl
  · next h' =>
    rw [h] at h'
    cases h'

theorem run_of_cons {g : Graph B} {s : Search} {id : NodeId} {rest : List NodeId}
    (h : s.pending = id :: rest) : s.run g = (s.look g id rest).run g := by
  rw [run]
  split
  · next h' =>
    rw [h] at h'
    cases h'
  · next h' =>
    obtain ⟨rfl, rfl⟩ := List.cons.inj (h.symm.trans h')
    rfl

/-- Looks at up to `n` nodes. -/
def advance (g : Graph B) : Nat → Search → Search
  | 0, s => s
  | n + 1, s =>
    match s.pending with
    | [] => s
    | id :: rest => advance g n (s.look g id rest)

theorem advance_of_cons {g : Graph B} {s : Search} {id : NodeId} {rest : List NodeId}
    (h : s.pending = id :: rest) (n : Nat) : s.advance g (n + 1) = (s.look g id rest).advance g n := by
  rw [advance, h]

/-- What one look keeps, a whole search keeps; and at its end nothing is pending. -/
theorem run_keeps {g : Graph B} {P : Search → Prop}
    (hp : ∀ s id rest, s.pending = id :: rest → P s → P (s.look g id rest)) (s : Search) (h : P s) :
    P (s.run g) ∧ (s.run g).pending = [] := by
  induction s using Search.run.induct g with
  | case1 s hr =>
    rw [run_of_nil hr]
    exact ⟨h, hr⟩
  | case2 s id rest hr ih =>
    rw [run_of_cons hr]
    exact ih (hp s id rest hr h)

/-- A search takes one look for every pending node and for every node that it reaches. -/
theorem run_looks (g : Graph B) (s : Search) : ∃ n, s.run g = s.advance g n ∧
    n + s.found.length = s.pending.length + (s.run g).found.length := by
  induction s using Search.run.induct g with
  | case1 s hr =>
    refine ⟨0, run_of_nil hr, ?_⟩
    rw [run_of_nil hr, hr]
    rfl
  | case2 s id rest hr ih =>
    obtain ⟨n, hn, hlooks⟩ := ih
    obtain ⟨fresh, h⟩ := visits_foldl (feeders g id) { s with pending := rest }
    refine ⟨n + 1, ?_, ?_⟩
    · rw [run_of_cons hr, advance_of_cons hr]
      exact hn
    · rw [run_of_cons hr, hr, List.length_cons]
      rw [h.found, h.pending, List.length_append, List.length_append] at hlooks
      unfold look
      dsimp only at hlooks
      omega

/-! ## Upstream of a node -/

/-- The search for what leads to a node, before the first look. -/
def start (g : Graph B) (id : NodeId) : Search := ⟨[id], g.nodes.keys.filter (· ≠ id), []⟩

/-- All that was reached leads to the start, and the feeders of what is not pending were reached. -/
structure Upstream (g : Graph B) (id : NodeId) (s : Search) : Prop where
  covers : (s.found ++ s.unseen).Perm (g.nodes.keys.filter (· ≠ id))
  leads : ∀ u ∈ s.found, Relation.TransGen g.Feeds u id
  queued : ∀ u ∈ s.pending, u = id ∨ u ∈ s.found
  closed : ∀ u, u = id ∨ u ∈ s.found → u ∉ s.pending → ∀ w, g.Feeds w u → w = id ∨ w ∈ s.found

theorem upstream_start (g : Graph B) (id : NodeId) : (start g id).Upstream g id where
  covers := .refl _
  leads u hu := by cases hu
  queued u hu := .inl (List.mem_singleton.1 hu)
  closed u hu hn := by
    rcases hu with rfl | hu
    · exact absurd (List.mem_singleton_self u) hn
    · cases hu

section Joined

variable {g : Graph B} (hg : g.Joined)
include hg

theorem Upstream.look {id i : NodeId} {rest : List NodeId} {s : Search} (h : s.Upstream g id)
    (hr : s.pending = i :: rest) : (s.look g i rest).Upstream g id := by
  obtain ⟨fresh, hv⟩ := visits_foldl (feeders g i) { s with pending := rest }
  have hi : i = id ∨ i ∈ s.found := h.queued i (hr ▸ List.mem_cons_self ..)
  have hfound : ∀ u, u ∈ (s.look g i rest).found ↔ u ∈ s.found ∨ u ∈ fresh := by
    intro u
    rw [Search.look, hv.found, List.mem_append]
  have hpending : ∀ u, u ∈ (s.look g i rest).pending ↔ u ∈ rest ∨ u ∈ fresh := by
    intro u
    rw [Search.look, hv.pending, List.mem_append]
  have hcovers : ((s.look g i rest).found ++ (s.look g i rest).unseen).Perm
      (g.nodes.keys.filter (· ≠ id)) := by
    rw [Search.look, hv.found, List.append_assoc]
    exact (List.Perm.append_left s.found hv.unseen).trans h.covers
  refine ⟨hcovers, fun u hu => ?_, fun u hu => ?_, fun u hu hn w hw => ?_⟩
  · rcases (hfound u).1 hu with hu | hu
    · exact h.leads u hu
    · have hf : g.Feeds u i := (mem_feeders hg).1 (hv.named u hu)
      rcases hi with rfl | hi
      · exact .single hf
      · exact .head hf (h.leads i hi)
  · rcases (hpending u).1 hu with hu | hu
    · have := h.queued u (hr ▸ List.mem_cons_of_mem i hu)
      exact this.imp_right fun hu => (hfound u).2 (.inl hu)
    · exact .inr ((hfound u).2 (.inr hu))
  · have hrest : u ∉ rest := fun hm => hn ((hpending u).2 (.inl hm))
    have hfresh : u ∉ fresh := fun hm => hn ((hpending u).2 (.inr hm))
    have hold : u = id ∨ u ∈ s.found := hu.imp_right fun hm =>
      ((hfound u).1 hm).resolve_right hfresh
    by_cases hui : u = i
    · -- the node looked at: whatever feeds it was found before or is fresh now
      rw [hui] at hw
      by_cases hwid : w = id
      · exact .inl hwid
      · have hkey : w ∈ g.nodes.keys.filter (· ≠ id) :=
          List.mem_filter.2 ⟨hw.origin_mem hg, decide_eq_true hwid⟩
        rcases List.mem_append.1 (h.covers.mem_iff.2 hkey) with hm | hm
        · exact .inr ((hfound w).2 (.inl hm))
        · exact .inr ((hfound w).2 (.inr (hv.every w ((mem_feeders hg).2 hw) hm)))
    · have hwait : u ∉ s.pending := by
        rw [hr]
        exact fun hm => (List.mem_cons.1 hm).elim hui hrest
      exact (h.closed u hold hwait w hw).imp_right fun hm => (hfound w).2 (.inl hm)

theorem upstream_run (id : NodeId) :
    ((start g id).run g).Upstream g id ∧ ((start g id).run g).pending = [] :=
  run_keeps (fun _ _ _ hr h => Upstream.look hg h hr) (start g id) (upstream_start g id)

/-- The nodes reached are those from which links lead to the start, less itself. -/
theorem mem_found_iff {id u : NodeId} :
    u ∈ ((start g id).run g).found ↔ u ≠ id ∧ Relation.TransGen g.Feeds u id := by
  obtain ⟨h, hdone⟩ := upstream_run hg id
  constructor
  · intro hu
    have hkey := h.covers.mem_iff.1 (List.mem_append_left _ hu)
    exact ⟨of_decide_eq_true (List.mem_filter.1 hkey).2, h.leads u hu⟩
  · rintro ⟨hne, hlead⟩
    have hall : ∀ w, Relation.ReflTransGen g.Feeds w id →
        w = id ∨ w ∈ ((start g id).run g).found := by
      intro w hw
      induction hw using Relation.ReflTransGen.head_induction_on with
      | refl => exact .inl rfl
      | head hf _ ih =>
        refine h.closed _ ih ?_ _ hf
        rw [hdone]
        exact List.not_mem_nil
    exact (hall u hlead.to_reflTransGen).resolve_left hne

theorem nodup_found (id : NodeId) : ((start g id).run g).found.Nodup := by
  have h := (upstream_run hg id).1.covers.nodup_iff.2 (g.nodes.nodup_keys.filter _)
  exact (List.nodup_append.1 h).1

end Joined

end Search

namespace Graph

/-! ## In the order of execution -/

/-- The place noted in a node. -/
def placeOf (g : Graph B) (id : NodeId) : Nat := ((g.nodes.get? id).map Node.order).getD 0

theorem ancestors_perm (g : Graph B) (id : NodeId) :
    (g.ancestors id).Perm ((Search.start g id).run g).found := List.mergeSort_perm ..

theorem ancestors_sorted (g : Graph B) (id : NodeId) :
    (g.ancestors id).Pairwise fun u v => g.placeOf u ≤ g.placeOf v := by
  have htrans : ∀ a b c : NodeId, decide (g.placeOf a ≤ g.placeOf b) →
      decide (g.placeOf b ≤ g.placeOf c) → decide (g.placeOf a ≤ g.placeOf c) := by
    intro a b c hab hbc
    exact decide_eq_true (Nat.le_trans (of_decide_eq_true hab) (of_decide_eq_true hbc))
  have htotal : ∀ a b : NodeId,
      decide (g.placeOf a ≤ g.placeOf b) || decide (g.placeOf b ≤ g.placeOf a) := by
    intro a b
    rw [Bool.or_eq_true, decide_eq_true_iff, decide_eq_true_iff]
    exact Nat.le_total ..
  have h := List.pairwise_mergeSort htrans htotal ((Search.start g id).run g).found
  exact h.imp fun huv => of_decide_eq_true huv

variable {g : Graph B}

/-- A node stands at the place noted in it. -/
theorem Current.getElem?_placeOf (h : g.Current) {id : NodeId} (hid : id ∈ g.nodes.keys) :
    g.order[g.placeOf id]? = some id := by
  obtain ⟨n, hn⟩ := Assoc.mem_keys_iff.1 hid
  rw [placeOf, hn]
  exact h.places id n hn

theorem Current.mem_order (h : g.Current) {id : NodeId} : id ∈ g.order ↔ id ∈ g.nodes.keys := by
  rw [h.order]
  exact g.computeOrder_perm.mem_iff

theorem Current.order_sorted (h : g.Current) :
    g.order.Pairwise fun u v => g.placeOf u ≤ g.placeOf v := by
  have hn : g.order.Nodup := h.order ▸ g.nodup_computeOrder
  have hplace : ∀ i (hi : i < g.order.length), g.placeOf g.order[i] = i := by
    intro i hi
    have hkey := h.mem_order.1 (List.getElem_mem hi)
    have hget := h.getElem?_placeOf hkey
    obtain ⟨hlt, heq⟩ := List.getElem?_eq_some_iff.1 hget
    exact (hn.getElem_inj_iff).1 heq
  rw [List.pairwise_iff_getElem]
  intro i j hi hj hij
  rw [hplace, hplace]
  exact Nat.le_of_lt hij

/-- Sorting by the places noted keeps the order of execution. -/
theorem ancestors_sublist (hg : g.Joined) (h : g.Current) (id : NodeId) :
    (g.ancestors id).Sublist g.order := by
  let found := ((Search.start g id).run g).found
  have hkeys : ∀ u ∈ found, u ∈ g.order := by
    intro u hu
    obtain ⟨w, hw, -⟩ := Relation.TransGen.head'_iff.1 ((Search.mem_found_iff hg).1 hu).2
    exact h.mem_order.2 (hw.origin_mem hg)
  have hn : g.order.Nodup := h.order ▸ g.nodup_computeOrder
  have hperm : (g.ancestors id).Perm (g.order.filter (· ∈ found)) := by
    refine (g.ancestors_perm id).trans ?_
    refine (List.perm_ext_iff_of_nodup (Search.nodup_found hg id) (hn.filter _)).2 fun u => ?_
    rw [List.mem_filter, decide_eq_true_iff]
    exact ⟨fun hu => ⟨hkeys u hu, hu⟩, And.right⟩
  have heq : g.ancestors id = g.order.filter (· ∈ found) := by
    refine List.Perm.eq_of_pairwise ?_ (g.ancestors_sorted id) (h.order_sorted.filter _) hperm
    -- two nodes at the same place are the same
    intro u v hu hv huv hvu
    have hu' := h.mem_order.1 (List.mem_of_mem_filter (hperm.mem_iff.1 hu))
    have hv' := h.mem_order.1 (List.mem_of_mem_filter hv)
    have hplace := h.getElem?_placeOf hu'
    rw [Nat.le_antisymm huv hvu, h.getElem?_placeOf hv'] at hplace
    exact (Option.some.inj hplace).symm
  rw [heq]
  exact List.filter_sublist

end Graph

/-- Outside batches the ancestors of a node are the other nodes from which links lead to it, each
once and as they stand in the order of execution.  They are found in one look at each of them and
at the node itself, whatever cycles there are; a node that does not exist has none. -/
theorem Reachable.ancestors_upstream [Behavior B σ] {s : Session B σ} (h : Reachable s)
    (hg : s.graph.Consistent) (h0 : s.graph.batchDepth = 0) (id : NodeId) :
    ((s.graph.ancestors id).Sublist s.graph.order ∧ (s.graph.ancestors id).Nodup) ∧
      (∀ u, u ∈ s.graph.ancestors id ↔ u ≠ id ∧ Relation.TransGen s.graph.Feeds u id) ∧
      (let looked := (Search.start s.graph id).advance s.graph ((s.graph.ancestors id).length + 1);
        looked.pending = [] ∧ looked.found.Perm (s.graph.ancestors id)) ∧
      (id ∉ s.graph.nodes.keys → s.graph.ancestors id = []) := by
  have hj := hg.toJoined
  have hcurrent := h.trusted.current (h.trusted.settled h0)
  have hperm := s.graph.ancestors_perm id
  have hmem : ∀ u, u ∈ s.graph.ancestors id ↔ u ≠ id ∧ Relation.TransGen s.graph.Feeds u id :=
    fun u => hperm.mem_iff.trans (Search.mem_found_iff hj)
  refine ⟨⟨Graph.ancestors_sublist hj hcurrent id, ?_⟩, hmem, ?_, fun hid => ?_⟩
  · exact hperm.nodup_iff.2 (Search.nodup_found hj id)
  · obtain ⟨n, hrun, hlooks⟩ := (Search.start s.graph id).run_looks s.graph
    have hn : n = (s.graph.ancestors id).length + 1 := by
      rw [hperm.length_eq]
      have hpending : (Search.start s.graph id).pending.length = 1 := rfl
      have hfound : (Search.start s.graph id).found.length = 0 := rfl
      omega
    rw [← hn, ← hrun]
    exact ⟨(Search.upstream_run hj id).2, hperm.symm⟩
  · rw [List.eq_nil_iff_forall_not_mem]
    intro u hu
    obtain ⟨w, -, hw⟩ := Relation.TransGen.tail'_iff.1 ((hmem u).1 hu).2
    exact hid (hw.target_mem hj)

theorem Graph.Feeds.of_wiring {g g' : Graph B} (h : g'.wiring = g.wiring) {u v : NodeId}
    (hf : g.Feeds u v) : g'.Feeds u v := by
  obtain ⟨k, l, hl, rfl, rfl⟩ := hf
  obtain ⟨l', hl', hends⟩ := link_of_wiring h.symm hl
  exact ⟨k, l', hl', congrArg Ends.origin hends, congrArg Ends.target hends⟩

theorem entangled_ends : ((Engine.exec 1 entangled
      (⟨Graph.empty ∅ .default, [], ()⟩ : Session Catalog Unit)).any fun e =>
    let ends (k : Nat) := (e.2.graph.links.get? ⟨k⟩).map fun l => (l.origin, l.target)
    decide (e.2.graph.batchDepth = 1) && decide (ends 1 = some (⟨1⟩, ⟨2⟩)) &&
      decide (ends 2 = some (⟨2⟩, ⟨1⟩)) && decide (ends 3 = some (⟨1⟩, ⟨3⟩)) &&
      decide (e.2.graph.nodes.keys = [⟨1⟩, ⟨2⟩, ⟨3⟩])) = true := by
  decide +kernel

/-- Behind a cycle both nodes of it are ancestors; on it, just the other one is. -/
theorem entangled_ancestors : ∃ s : Session Catalog Unit, Reachable s ∧ s.graph.Consistent ∧
    s.graph.batchDepth = 0 ∧
    (s.graph.ancestors ⟨3⟩).Sublist s.graph.order ∧ (s.graph.ancestors ⟨3⟩).Perm [⟨1⟩, ⟨2⟩] ∧
    ⟨2⟩ ∈ s.graph.ancestors ⟨1⟩ ∧ ⟨1⟩ ∉ s.graph.ancestors ⟨1⟩ ∧ s.graph.ancestors ⟨4⟩ = [] := by
  obtain ⟨⟨answer, t⟩, hrun, hfacts⟩ := (Option.any_eq_true _ _).1 entangled_ends
  simp only [Bool.and_eq_true, decide_eq_true_eq] at hfacts
  obtain ⟨⟨⟨⟨hdepth, hfirst⟩, hsecond⟩, hthird⟩, hkeys⟩ := hfacts
  let s := t.endBatch
  have hwiring : s.graph.wiring = t.graph.wiring := Session.wiring_endBatch t
  have hr : Reachable s :=
    ((Reachable.start ∅ .default [] ()).exec entangled hrun).call (c := .edit .endBatch) 1 rfl
  have hc : s.graph.Consistent :=
    (Engine.keeps_exec (Engine.lawful_linking ∅) (Catalog.obeys_linking ∅) (entangled_obeys ∅) 1
      ⟨Graph.empty ∅ .default, [], ()⟩ (Graph.tidy_empty ∅ .default) _ t hrun).1.of_wiring hwiring
  have h0 : s.graph.batchDepth = 0 :=
    (show t.Abreast 1 0 s from
      Session.Abreast.close_right ⟨hdepth, hdepth, _, t.under_schedule.symm⟩).right
  -- every link of the open batch is there when it is closed
  have hfeeds : ∀ {k : Nat} {u v : NodeId},
      ((t.graph.links.get? ⟨k⟩).map fun l => (l.origin, l.target)) = some (u, v) →
      s.graph.Feeds u v := by
    intro k u v h
    obtain ⟨l, hl, he⟩ := Option.map_eq_some_iff.1 h
    cases he
    exact Graph.Feeds.of_wiring hwiring ⟨⟨k⟩, l, hl, rfl, rfl⟩
  have hnodes : s.graph.nodes.keys = [⟨1⟩, ⟨2⟩, ⟨3⟩] :=
    (Graph.keys_nodes_of_wiring hwiring).trans hkeys
  -- two nodes feed each other, so each is an ancestor of the other, and none of itself
  have hback := hfeeds hsecond
  obtain ⟨⟨hsub, hnodup⟩, hmem, -, -⟩ := hr.ancestors_upstream hc h0 ⟨3⟩
  have hcycle := (hr.ancestors_upstream hc h0 ⟨1⟩).2.1
  have hnone := (hr.ancestors_upstream hc h0 ⟨4⟩).2.2.2
  refine ⟨s, hr, hc, h0, hsub, ?_, ?_, ?_, ?_⟩
  · refine (List.perm_ext_iff_of_nodup hnodup (by decide)).2 fun u => ?_
    rw [hmem]
    constructor
    · rintro ⟨hne, hlead⟩
      obtain ⟨w, hw, -⟩ := Relation.TransGen.head'_iff.1 hlead
      have hu := hw.origin_mem hc.toJoined
      rw [hnodes] at hu
      simp only [List.mem_cons, List.not_mem_nil, or_false] at hu ⊢
      rcases hu with hu | hu | hu
      · exact .inl hu
      · exact .inr hu
      · exact absurd hu hne
    · intro hu
      simp only [List.mem_cons, List.not_mem_nil, or_false] at hu
      rcases hu with rfl | rfl
      · exact ⟨by decide, .single (hfeeds hthird)⟩
      · exact ⟨by decide, .head hback (.single (hfeeds hthird))⟩
  · exact (hcycle ⟨2⟩).2 ⟨by decide, .single hback⟩
  · exact fun h => ((hcycle ⟨1⟩).1 h).1 rfl
  · refine hnone ?_
    rw [hnodes]
    decide

end Dataflow
