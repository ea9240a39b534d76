/-
  What a sweep does.

  At every moment each node is placed, ready or waiting, and just one of the three (`Covers`).
  That needs nothing of the graph.

  When slots and links agree, a sweep moreover keeps account of the links (`Accounted`): a waiting
  node waits for as many links as lead to it and were not followed, a released one has none left,
  and a link is followed only once its origin is placed.  So a node is released behind all nodes
  that feed it, and one that is never released is fed by another of the same kind.
-/

import Mathlib.Data.List.Perm.Basic
import Dataflow.Graph.Order
import Dataflow.Proofs.Consistent

namespace Dataflow

variable {B : Type}

namespace Sweep

/-! ## Placed, ready or waiting -/

/-- The nodes released so far, in order of release. -/
def released (s : Sweep) : List NodeId := s.placed ++ s.ready

/-- Every node is released or waiting, and not both. -/
def Covers (g : Graph B) (s : Sweep) : Prop := (s.released ++ s.waiting.keys).Perm g.nodes.keys

theorem covers_start (g : Graph B) : (start g).Covers g := by
  let awaits := g.nodes.mapValues fun _ n => awaited n
  have hk : awaits.keys = g.nodes.keys := Assoc.keys_mapValues ..
  show ((awaits.filter fun _ k => k = 0).keys ++ (awaits.filter fun _ k => k ≠ 0).keys).Perm _
  rw [← hk]
  show ((awaits.entries.filter _).map _ ++ (awaits.entries.filter _).map _).Perm (awaits.entries.map _)
  rw [← List.map_append]
  apply List.Perm.map
  have hp := List.filter_append_perm (fun e : NodeId × Nat => decide (e.2 = 0)) awaits.entries
  simpa using hp

theorem Covers.arrive {g : Graph B} {s : Sweep} (h : s.Covers g) (id : NodeId) :
    (s.arrive id).Covers g := by
  unfold Sweep.arrive
  split
  · exact h
  · next n hn =>
    have hk := Assoc.mem_keys_of_get? hn
    split
    · refine List.Perm.trans ?_ h
      show (s.placed ++ (s.ready ++ [id]) ++ (s.waiting.erase id).keys).Perm _
      have he : (s.waiting.erase id).keys = s.waiting.keys.erase id := by
        rw [Assoc.keys_erase, s.waiting.nodup_keys.erase_eq_filter]
        exact List.filter_congr fun a _ => by by_cases ha : a = id <;> simp [ha]
      rw [he, ← List.append_assoc, List.append_assoc]
      exact List.Perm.append_left _ (List.perm_cons_erase hk).symm
    · show (s.released ++ (s.waiting.insert id (n - 1)).keys).Perm _
      rw [Assoc.keys_insert, if_pos hk]
      exact h

theorem Covers.follow {g : Graph B} {s : Sweep} (h : s.Covers g) (level : Nat) (k : LinkId) :
    (s.follow g level k).Covers g := by
  unfold Sweep.follow
  split
  · exact h
  · simp only
    split
    · exact h
    · split
      · apply Covers.arrive
        exact h
      · exact h

theorem Covers.follows {g : Graph B} (level : Nat) (ks : List LinkId) {s : Sweep}
    (h : s.Covers g) : (ks.foldl (Sweep.follow g level) s).Covers g := by
  induction ks generalizing s with
  | nil => exact h
  | cons k ks ih => exact ih (h.follow level k)

theorem Covers.place {g : Graph B} {s : Sweep} (h : s.Covers g) {id : NodeId} {rest : List NodeId}
    (hr : s.ready = id :: rest) : (s.place g id rest).Covers g := by
  apply Covers.follows
  have hl : (s.placed ++ [id]) ++ rest = s.released := by
    rw [List.append_assoc, released, hr]
    rfl
  show (((s.placed ++ [id]) ++ rest) ++ s.waiting.keys).Perm _
  rw [hl]
  exact h

/-! ## Whole sweeps -/

theorem run_of_nil {g : Graph B} {s : Sweep} (h : s.ready = []) : s.run g = s := by
  rw [run]
  split
  · rfl
  · next h' => rw [h] at h'; cases h'

theorem run_of_cons {g : Graph B} {s : Sweep} {id : NodeId} {rest : List NodeId}
    (h : s.ready = id :: rest) : s.run g = (s.place g id rest).run g := by
  rw [run]
  split
  · next h' => rw [h] at h'; cases h'
  · next h' =>
    obtain ⟨rfl, rfl⟩ := List.cons.inj (h.symm.trans h')
    rfl

/-- Places up to `n` nodes. -/
def advance (g : Graph B) : Nat → Sweep → Sweep
  | 0, s => s
  | n + 1, s =>
    match s.ready with
    | [] => s
    | id :: rest => advance g n (s.place g id rest)

/-- If no node is ready after some steps, they were the whole sweep. -/
theorem run_eq_advance {g : Graph B} {n : Nat} {s : Sweep} (h : (s.advance g n).ready = []) :
    s.run g = s.advance g n := by
  induction n generalizing s with
  | zero => exact run_of_nil h
  | succ n ih =>
    unfold advance at h ⊢
    cases hr : s.ready with
    | nil => exact run_of_nil hr
    | cons id rest =>
      simp only [hr] at h
      exact (run_of_cons hr).trans (ih h)

/-- What placing a node keeps, a whole sweep keeps; and at its end no node is ready. -/
theorem run_keeps {g : Graph B} {P : Sweep → Prop}
    (hp : ∀ s id rest, s.ready = id :: rest → P s → P (s.place g id rest)) (s : Sweep) (h : P s) :
    P (s.run g) ∧ (s.run g).ready = [] := by
  induction s using Sweep.run.induct g with
  | case1 s hr =>
    rw [run_of_nil hr]
    exact ⟨h, hr⟩
  | case2 s id rest hr ih =>
    rw [run_of_cons hr]
    exact ih (hp s id rest hr h)

theorem covers_run (g : Graph B) : ((start g).run g).Covers g :=
  (run_keeps (fun _ _ _ hr h => h.place hr) (start g) (covers_start g)).1

theorem ready_run (g : Graph B) : ((start g).run g).ready = [] :=
  (run_keeps (fun _ _ _ hr h => Covers.place h hr) (start g) (covers_start g)).2

/-- A node is placed or left waiting in the end, and not both. -/
theorem placed_or_waiting (g : Graph B) :
    (((start g).run g).placed ++ ((start g).run g).waiting.keys).Perm g.nodes.keys := by
  have h := covers_run g
  unfold Covers released at h
  rw [ready_run, List.append_nil] at h
  exact h

end Sweep

namespace Graph

/-! ## Links of a graph whose slots agree with them -/

/-- The links that lead to a node, input by input. -/
def incoming (g : Graph B) (id : NodeId) : List LinkId :=
  match g.nodes.get? id with
  | some n => n.inputs.filterMap Input.link
  | none => []

/-- A link leads from one node to another. -/
def Feeds (g : Graph B) (u v : NodeId) : Prop :=
  ∃ k l, g.links.get? k = some l ∧ l.origin = u ∧ l.target = v

variable {g : Graph B}

theorem mem_incoming (hg : g.Joined) {k : LinkId} {id : NodeId} :
    k ∈ g.incoming id ↔ ∃ l, g.links.get? k = some l ∧ l.target = id := by
  unfold incoming
  constructor
  · cases hn : g.nodes.get? id with
    | none =>
      intro h
      cases h
    | some n =>
      intro h
      obtain ⟨s, hs, hk⟩ := List.mem_filterMap.1 h
      obtain ⟨slot, hslot⟩ := List.getElem?_of_mem hs
      obtain ⟨l, hl, ht, -⟩ := hg.of_input ((input_of_node hn slot).trans hslot) hk
      exact ⟨l, hl, ht⟩
  · rintro ⟨l, hl, rfl⟩
    obtain ⟨s, hs, hk⟩ := hg.target_exists hl
    obtain ⟨n, hn, hslot⟩ := node_of_input hs
    rw [hn]
    exact List.mem_filterMap.2 ⟨s, List.mem_of_getElem? hslot, hk⟩

theorem nodup_incoming (hg : g.Joined) (id : NodeId) : (g.incoming id).Nodup := by
  unfold incoming
  cases hn : g.nodes.get? id with
  | none => exact List.nodup_nil
  | some n => exact hg.nodup_named hn

theorem mem_linksLeaving (hg : g.Joined) {k : LinkId} {id : NodeId} :
    k ∈ Sweep.linksLeaving g id ↔ ∃ l, g.links.get? k = some l ∧ l.origin = id := by
  unfold Sweep.linksLeaving
  constructor
  · cases hn : g.nodes.get? id with
    | none =>
      intro h
      cases h
    | some n =>
      intro h
      obtain ⟨s, hs, hk⟩ := List.mem_flatMap.1 h
      obtain ⟨slot, hslot⟩ := List.getElem?_of_mem hs
      obtain ⟨l, hl, ho, -⟩ := hg.of_output ((output_of_node hn slot).trans hslot) hk
      exact ⟨l, hl, ho⟩
  · rintro ⟨l, hl, rfl⟩
    obtain ⟨s, hs, hk⟩ := hg.origin_exists hl
    obtain ⟨n, hn, hslot⟩ := node_of_output hs
    rw [hn]
    exact List.mem_flatMap.2 ⟨s, List.mem_of_getElem? hslot, hk⟩

theorem awaited_eq_length {id : NodeId} {n : Node B} (hn : g.nodes.get? id = some n) :
    Sweep.awaited n = (g.incoming id).length := by
  unfold incoming
  rw [hn]
  show n.inputs.countP _ = (n.inputs.filterMap _).length
  rw [List.length_filterMap_eq_countP]
  rfl

theorem Feeds.origin_mem (hg : g.Joined) {u v : NodeId} (h : g.Feeds u v) : u ∈ g.nodes.keys := by
  obtain ⟨k, l, hl, rfl, -⟩ := h
  obtain ⟨s, hs, -⟩ := hg.origin_exists hl
  obtain ⟨n, hn, -⟩ := node_of_output hs
  exact Assoc.mem_keys_of_get? hn

theorem Feeds.target_mem (hg : g.Joined) {u v : NodeId} (h : g.Feeds u v) : v ∈ g.nodes.keys := by
  obtain ⟨k, l, hl, -, rfl⟩ := h
  obtain ⟨s, hs, -⟩ := hg.target_exists hl
  obtain ⟨n, hn, -⟩ := node_of_input hs
  exact Assoc.mem_keys_of_get? hn

end Graph

namespace Sweep

/-! ## Keeping account of links -/

/-- How many links lead to a node and were not followed. -/
def pending (g : Graph B) (followed : List LinkId) (id : NodeId) : Nat :=
  (g.incoming id).countP fun k => k ∉ followed

/-- A sweep has followed the links that it should have. -/
structure Accounted (g : Graph B) (s : Sweep) : Prop where
  covers : s.Covers g
  waits : ∀ id n, s.waiting.get? id = some n → n = pending g s.followed id ∧ 0 < n
  free : ∀ id ∈ s.released, ∀ k ∈ g.incoming id, k ∈ s.followed
  origin : ∀ k ∈ s.followed, ∀ l, g.links.get? k = some l → l.origin ∈ s.placed
  behind : ∀ u v, g.Feeds u v → v ∈ s.released → [u, v].Sublist s.released

/-- Following one more link of a list leaves one fewer to follow. -/
theorem countP_notMem_cons {ks : List LinkId} (hn : ks.Nodup) {k : LinkId} (hk : k ∈ ks)
    {followed : List LinkId} (hf : k ∉ followed) :
    (ks.countP fun i => i ∉ followed) = (ks.countP fun i => i ∉ k :: followed) + 1 := by
  induction ks with
  | nil => cases hk
  | cons i ks ih =>
    obtain ⟨hi, hn⟩ := List.nodup_cons.1 hn
    rw [List.countP_cons, List.countP_cons]
    by_cases hik : i = k
    · subst hik
      have hsame : (ks.countP fun j => j ∉ i :: followed) = ks.countP fun j => j ∉ followed := by
        apply List.countP_congr
        intro j hj
        have hji : j ≠ i := fun h => hi (h ▸ hj)
        simp [hji]
      rw [hsame]
      simp [hf]
    · rcases List.mem_cons.1 hk with h | h
      · exact absurd h.symm hik
      · have := ih hn h
        simp only [List.mem_cons, hik, false_or] at this ⊢
        omega

theorem pending_cons_self {g : Graph B} (hg : g.Joined) {k : LinkId} {l : Link}
    (hl : g.links.get? k = some l) {followed : List LinkId} (hf : k ∉ followed) :
    pending g followed l.target = pending g (k :: followed) l.target + 1 :=
  countP_notMem_cons (Graph.nodup_incoming hg _) ((Graph.mem_incoming hg).2 ⟨l, hl, rfl⟩) hf

theorem pending_cons_of_ne {g : Graph B} (hg : g.Joined) {k : LinkId} {l : Link}
    (hl : g.links.get? k = some l) (followed : List LinkId) {id : NodeId} (h : id ≠ l.target) :
    pending g (k :: followed) id = pending g followed id := by
  apply List.countP_congr
  intro i hi
  have hik : i ≠ k := by
    rintro rfl
    obtain ⟨l', hl', rfl⟩ := (Graph.mem_incoming hg).1 hi
    rw [hl] at hl'
    cases hl'
    exact h rfl
  simp [hik]

theorem mem_followed_of_pending {g : Graph B} {followed : List LinkId} {id : NodeId}
    (h : pending g followed id = 0) {k : LinkId} (hk : k ∈ g.incoming id) : k ∈ followed := by
  have := List.countP_eq_zero.1 h k hk
  simpa using this

theorem accounted_start {g : Graph B} (hg : g.Joined) : (start g).Accounted g := by
  -- a node waits at first for all links that lead to it, and none lead to a ready one
  have hwait : ∀ id n, (start g).waiting.get? id = some n → n = (g.incoming id).length ∧ 0 < n := by
    intro id n h
    change ((g.nodes.mapValues fun _ n => awaited n).filter fun _ k => k ≠ 0).get? id = some n at h
    rw [Assoc.get?_filter, Option.filter_eq_some_iff, Assoc.get?_mapValues] at h
    obtain ⟨hm, hpos⟩ := h
    obtain ⟨m, hnode, rfl⟩ := Option.map_eq_some_iff.1 hm
    refine ⟨Graph.awaited_eq_length hnode, ?_⟩
    simpa [Nat.pos_iff_ne_zero] using hpos
  have hready : ∀ id ∈ (start g).released, g.incoming id = [] := by
    intro id h
    change id ∈ ((g.nodes.mapValues fun _ n => awaited n).filter fun _ k => k = 0).keys at h
    obtain ⟨n, hn⟩ := Assoc.mem_keys_iff.1 h
    rw [Assoc.get?_filter, Option.filter_eq_some_iff, Assoc.get?_mapValues] at hn
    obtain ⟨hm, hzero⟩ := hn
    obtain ⟨m, hnode, rfl⟩ := Option.map_eq_some_iff.1 hm
    rw [Graph.awaited_eq_length hnode] at hzero
    simpa using hzero
  exact {
    covers := covers_start g
    waits := by
      intro id n h
      obtain ⟨hn, hpos⟩ := hwait id n h
      refine ⟨hn.trans ?_, hpos⟩
      symm
      apply List.countP_eq_length.2
      intro k _
      rfl
    free := by
      intro id h k hk
      rw [hready id h] at hk
      cases hk
    origin := by
      intro k hk
      cases hk
    behind := by
      rintro u v ⟨k, l, hl, rfl, rfl⟩ hv
      have hk := (Graph.mem_incoming hg).2 ⟨l, hl, rfl⟩
      rw [hready l.target hv] at hk
      cases hk }

section Follow

variable {g : Graph B} (hg : g.Joined) {s : Sweep} (h : s.Accounted g) {k : LinkId} {l : Link}
  (hl : g.links.get? k = some l)
include hg h hl

/-- The target of a link that was not followed waits for it, for all links into a released node
were followed. -/
theorem Accounted.awaits_target (hk : k ∉ s.followed) :
    ∃ n, s.waiting.get? l.target = some n ∧ n = pending g (k :: s.followed) l.target + 1 := by
  have hm : l.target ∈ s.released ++ s.waiting.keys :=
    h.covers.mem_iff.2 (Graph.Feeds.target_mem hg ⟨k, l, hl, rfl, rfl⟩)
  rcases List.mem_append.1 hm with hm | hm
  · exact absurd (h.free _ hm k ((Graph.mem_incoming hg).2 ⟨l, hl, rfl⟩)) hk
  · obtain ⟨n, hn⟩ := Assoc.mem_keys_iff.1 hm
    exact ⟨n, hn, (h.waits _ n hn).1.trans (pending_cons_self hg hl hk)⟩

omit hg in
theorem Accounted.origin_cons (ho : l.origin ∈ s.placed) :
    ∀ i ∈ k :: s.followed, ∀ l', g.links.get? i = some l' → l'.origin ∈ s.placed := by
  intro i hi l' hl'
  rcases List.mem_cons.1 hi with rfl | hi
  · rw [hl] at hl'
    cases hl'
    exact ho
  · exact h.origin i hi l' hl'

/-- The last link awaited was followed: its target is released, behind all nodes that feed it. -/
theorem Accounted.release (ho : l.origin ∈ s.placed)
    (hnone : pending g (k :: s.followed) l.target = 0) {s' : Sweep} (hc : s'.Covers g)
    (hf : s'.followed = k :: s.followed) (hp : s'.placed = s.placed)
    (hr : s'.ready = s.ready ++ [l.target]) (hw : s'.waiting = s.waiting.erase l.target) :
    s'.Accounted g := by
  have hreleased : s'.released = s.released ++ [l.target] := by
    rw [released, released, hp, hr, List.append_assoc]
  have horigin := h.origin_cons hl ho
  constructor
  case covers =>
    exact hc
  case waits =>
    intro id m hm
    rw [hw, Assoc.get?_erase] at hm
    rw [hf]
    split at hm
    · cases hm
    · next hne =>
      rw [pending_cons_of_ne hg hl _ hne]
      exact h.waits id m hm
  case free =>
    intro id hid i hi
    rw [hreleased] at hid
    rw [hf]
    rcases List.mem_append.1 hid with hid | hid
    · exact List.mem_cons_of_mem k (h.free id hid i hi)
    · rw [List.mem_singleton.1 hid] at hi
      exact mem_followed_of_pending hnone hi
  case origin =>
    rw [hf, hp]
    exact horigin
  case behind =>
    intro u v huv hv
    rw [hreleased] at hv ⊢
    rcases List.mem_append.1 hv with hv | hv
    · exact (h.behind u v huv hv).trans (List.sublist_append_left ..)
    · -- all links into the target were followed, so whatever feeds it is placed
      obtain ⟨i, l', hl', rfl, rfl⟩ := huv
      have hi : i ∈ k :: s.followed :=
        mem_followed_of_pending (List.mem_singleton.1 hv ▸ hnone)
          ((Graph.mem_incoming hg).2 ⟨l', hl', rfl⟩)
      have hu : l'.origin ∈ s.released := List.mem_append_left _ (horigin i hi l' hl')
      rw [List.mem_singleton.1 hv]
      exact (List.singleton_sublist.2 hu).append (List.Sublist.refl [l.target])

/-- A link was followed that is not the last one awaited: its target waits for one link fewer. -/
theorem Accounted.wait (ho : l.origin ∈ s.placed)
    (hsome : 0 < pending g (k :: s.followed) l.target) {s' : Sweep} (hc : s'.Covers g)
    (hf : s'.followed = k :: s.followed) (hp : s'.placed = s.placed) (hr : s'.ready = s.ready)
    (hw : s'.waiting = s.waiting.insert l.target (pending g (k :: s.followed) l.target)) :
    s'.Accounted g := by
  have hreleased : s'.released = s.released := by rw [released, released, hp, hr]
  constructor
  case covers =>
    exact hc
  case waits =>
    intro id m hm
    rw [hw, Assoc.get?_insert] at hm
    rw [hf]
    split at hm
    · next he =>
      cases hm
      rw [he]
      exact ⟨rfl, hsome⟩
    · next hne =>
      rw [pending_cons_of_ne hg hl _ hne]
      exact h.waits id m hm
  case free =>
    intro id hid i hi
    rw [hreleased] at hid
    rw [hf]
    exact List.mem_cons_of_mem k (h.free id hid i hi)
  case origin =>
    rw [hf, hp]
    exact h.origin_cons hl ho
  case behind =>
    rw [hreleased]
    exact h.behind

/-- Following a link for the first time keeps the account. -/
theorem Accounted.arrive (ho : l.origin ∈ s.placed) (hk : k ∉ s.followed)
    (levels : Assoc NodeId Nat) :
    (({ s with followed := k :: s.followed, levels := levels } : Sweep).arrive l.target).Accounted
      g := by
  have hc : (({ s with followed := k :: s.followed, levels := levels } : Sweep).arrive
      l.target).Covers g := by
    apply Covers.arrive
    exact h.covers
  obtain ⟨n, hn, hcount⟩ := h.awaits_target hg hl hk
  unfold Sweep.arrive at hc ⊢
  simp only [hn] at hc ⊢
  by_cases hone : n ≤ 1
  · rw [if_pos hone] at hc ⊢
    have hnone : pending g (k :: s.followed) l.target = 0 := by omega
    exact h.release hg hl ho hnone hc rfl rfl rfl rfl
  · rw [if_neg hone] at hc ⊢
    have hsome : 0 < pending g (k :: s.followed) l.target := by omega
    refine h.wait hg hl ho hsome hc rfl rfl rfl ?_
    rw [hcount, Nat.add_sub_cancel]

theorem Accounted.follow (ho : l.origin ∈ s.placed) (level : Nat) :
    (s.follow g level k).Accounted g := by
  unfold Sweep.follow
  split
  · exact h
  · next hk =>
    simp only [hl]
    split
    · exact h.arrive hg hl ho hk _
    · next hc =>
      refine absurd ((Assoc.contains_iff _ _).2 ?_) hc
      exact Graph.Feeds.target_mem hg ⟨k, l, hl, rfl, rfl⟩

end Follow

theorem arrive_placed (s : Sweep) (id : NodeId) : (s.arrive id).placed = s.placed := by
  unfold arrive
  split
  · rfl
  · split <;> rfl

theorem arrive_followed (s : Sweep) (id : NodeId) : (s.arrive id).followed = s.followed := by
  unfold arrive
  split
  · rfl
  · split <;> rfl

theorem follow_placed (g : Graph B) (level : Nat) (s : Sweep) (k : LinkId) :
    (s.follow g level k).placed = s.placed := by
  unfold follow
  split
  · rfl
  · simp only
    split
    · rfl
    · split
      · exact arrive_placed _ _
      · rfl

theorem mem_followed_follow (g : Graph B) (level : Nat) (s : Sweep) (k : LinkId) {i : LinkId} :
    i ∈ (s.follow g level k).followed ↔ i = k ∨ i ∈ s.followed := by
  unfold follow
  split
  · next hk =>
    constructor
    · exact .inr
    · rintro (rfl | hi)
      · exact hk
      · exact hi
  · simp only
    split
    · exact List.mem_cons
    · split
      · rw [arrive_followed]
        exact List.mem_cons
      · exact List.mem_cons

/-- Following the links of a placed node keeps the account, and leaves them all followed. -/
theorem Accounted.follows {g : Graph B} (hg : g.Joined) (level : Nat) (ks : List LinkId)
    {s : Sweep} (h : s.Accounted g)
    (hks : ∀ k ∈ ks, ∃ l, g.links.get? k = some l ∧ l.origin ∈ s.placed) :
    let s' := ks.foldl (Sweep.follow g level) s
    s'.Accounted g ∧ s'.placed = s.placed ∧ ∀ i, i ∈ s'.followed ↔ i ∈ ks ∨ i ∈ s.followed := by
  induction ks generalizing s with
  | nil => exact ⟨h, rfl, fun i => ⟨.inr, fun hi => hi.resolve_left (List.not_mem_nil)⟩⟩
  | cons k ks ih =>
    obtain ⟨l, hl, ho⟩ := hks k (List.mem_cons_self ..)
    have hp := follow_placed g level s k
    obtain ⟨ha, hpl, hf⟩ := ih (h.follow hg hl ho level) fun i hi => by
      rw [hp]
      exact hks i (List.mem_cons_of_mem k hi)
    refine ⟨ha, hpl.trans hp, fun i => ?_⟩
    rw [List.foldl_cons, hf i, mem_followed_follow, List.mem_cons]
    exact or_left_comm.trans or_assoc.symm

/-- All links that leave placed nodes were followed. -/
structure Settled (g : Graph B) (s : Sweep) : Prop extends Accounted g s where
  done : ∀ id ∈ s.placed, ∀ k ∈ linksLeaving g id, k ∈ s.followed

/-- Moving the first of the ready nodes to the placed ones changes nothing that was released. -/
theorem Accounted.advance {g : Graph B} {s : Sweep} (h : s.Accounted g) {id : NodeId}
    {rest : List NodeId} (hr : s.ready = id :: rest) :
    ({ s with ready := rest, placed := s.placed ++ [id] } : Sweep).Accounted g := by
  have hl : (s.placed ++ [id]) ++ rest = s.released := by
    rw [List.append_assoc, released, hr]
    rfl
  constructor
  case covers =>
    show (((s.placed ++ [id]) ++ rest) ++ s.waiting.keys).Perm _
    rw [hl]
    exact h.covers
  case waits =>
    exact h.waits
  case free =>
    intro i hi
    change i ∈ (s.placed ++ [id]) ++ rest at hi
    rw [hl] at hi
    exact h.free i hi
  case origin =>
    intro k hk l hkl
    exact List.mem_append_left _ (h.origin k hk l hkl)
  case behind =>
    intro u v hf hv
    change v ∈ (s.placed ++ [id]) ++ rest at hv
    show [u, v].Sublist ((s.placed ++ [id]) ++ rest)
    rw [hl] at hv ⊢
    exact h.behind u v hf hv

theorem exists_origin {g : Graph B} (hg : g.Joined) {id : NodeId} (placed : List NodeId) :
    ∀ k ∈ linksLeaving g id, ∃ l, g.links.get? k = some l ∧ l.origin ∈ placed ++ [id] := by
  intro k hk
  obtain ⟨l, hkl, ho⟩ := (Graph.mem_linksLeaving hg).1 hk
  exact ⟨l, hkl, List.mem_append_right _ (List.mem_singleton.2 ho)⟩

theorem Settled.place {g : Graph B} (hg : g.Joined) {s : Sweep} (h : s.Settled g) {id : NodeId}
    {rest : List NodeId} (hr : s.ready = id :: rest) : (s.place g id rest).Settled g := by
  obtain ⟨hs, hp, hf⟩ := (h.advance hr).follows hg ((s.levels.get? id).getD 1)
    (linksLeaving g id) (exists_origin hg s.placed)
  refine ⟨hs, fun i hi k hk => (hf k).2 ?_⟩
  change i ∈ Sweep.placed (List.foldl _ _ _) at hi
  rw [hp] at hi
  rcases List.mem_append.1 hi with hi | hi
  · exact .inr (h.done i hi k hk)
  · exact .inl (List.mem_singleton.1 hi ▸ hk)

/-! ## What a whole sweep places -/

section Whole

variable {g : Graph B} (hg : g.Joined)
include hg

theorem settled_run : ((start g).run g).Settled g := by
  refine (run_keeps (fun _ _ _ hr h => Settled.place hg h hr) (start g) ?_).1
  refine ⟨accounted_start hg, ?_⟩
  intro id hid
  cases hid

omit hg in
theorem released_run : ((start g).run g).released = ((start g).run g).placed := by
  rw [released, ready_run, List.append_nil]

/-- A placed node stands behind all nodes that feed it. -/
theorem placed_behind {u v : NodeId} (hf : g.Feeds u v) (hv : v ∈ ((start g).run g).placed) :
    [u, v].Sublist ((start g).run g).placed := by
  have h := (settled_run hg).behind u v hf
  rw [released_run] at h
  exact h hv

/-- A node that is not placed is fed by another such node. -/
theorem exists_unplaced {v : NodeId} (hv : v ∈ g.nodes.keys) (hn : v ∉ ((start g).run g).placed) :
    ∃ u, g.Feeds u v ∧ u ∉ ((start g).run g).placed := by
  have h := settled_run hg
  have hw : v ∈ ((start g).run g).waiting.keys :=
    (List.mem_append.1 ((placed_or_waiting g).mem_iff.2 hv)).resolve_left hn
  obtain ⟨n, hget⟩ := Assoc.mem_keys_iff.1 hw
  obtain ⟨hcount, hpos⟩ := h.waits v n hget
  obtain ⟨k, hk, hopen⟩ := List.countP_pos_iff.1 (hcount ▸ hpos)
  obtain ⟨l, hl, ht⟩ := (Graph.mem_incoming hg).1 hk
  refine ⟨l.origin, ⟨k, l, hl, rfl, ht⟩, fun hp => ?_⟩
  have := h.done l.origin hp k ((Graph.mem_linksLeaving hg).2 ⟨l, hl, rfl⟩)
  simp [this] at hopen

end Whole

end Sweep

end Dataflow
