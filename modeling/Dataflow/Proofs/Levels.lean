/-
  Levels are longest paths.

  A `Route` goes along links from node to node.  Routes into a node on a cycle, or behind one, have
  no longest; into any other node they pass no node twice.

  Every level that a sweep has written down is the length of some route (`Levelled.reached`), and
  a link once followed goes up (`Levelled.raised`).  The second is kept because the level of a
  node is final before its links are followed: its links are followed when it is placed, and only
  the target of a link not yet followed is raised, which was not even released.
-/

import Dataflow.Proofs.Agreement
import Dataflow.Proofs.Order

namespace Dataflow

variable {B : Type}

namespace Graph

/-! ## Routes -/

/-- A way along links that ends in some node, with the nodes that it passes. -/
inductive Route (g : Graph B) : List NodeId → NodeId → Prop
  | single (id : NodeId) : Route g [id] id
  | snoc {route : List NodeId} {u v : NodeId} (h : Route g route u) (hf : g.Feeds u v) :
      Route g (route ++ [v]) v

variable {g : Graph B} {route : List NodeId} {u v : NodeId}

/-- From all nodes of a route its end can be reached. -/
theorem Route.leads (h : g.Route route v) (hu : u ∈ route) : Relation.ReflTransGen g.Feeds u v := by
  induction h with
  | single id =>
    rw [List.mem_singleton.1 hu]
  | snoc h hf ih =>
    rcases List.mem_append.1 hu with hu | hu
    · exact (ih hu).tail hf
    · rw [List.mem_singleton.1 hu]

/-- A route passes a node twice only behind a cycle. -/
theorem Route.nodup (h : g.Route route v) (ht : ¬g.Tangled v) : route.Nodup := by
  induction h with
  | single id => exact List.nodup_singleton id
  | @snoc route u v h hf ih =>
    refine List.nodup_append.2 ⟨ih fun hu => ht (hu.step hf), List.nodup_singleton v, ?_⟩
    intro a ha b hb hab
    rw [List.mem_singleton.1 hb] at hab
    have hback : Relation.ReflTransGen g.Feeds v u := h.leads (hab ▸ ha)
    exact ht (Cyclic.tangled (.tail' hback hf))

end Graph

namespace Sweep

/-! ## The levels in the course of a sweep -/

/-- The level of a node so far; zero for a node of which nothing is known. -/
def levelOf (s : Sweep) (id : NodeId) : Nat := (s.levels.get? id).getD 0

theorem get?_of_levelOf {s : Sweep} {id : NodeId} (h : 0 < s.levelOf id) :
    s.levels.get? id = some (s.levelOf id) := by
  unfold levelOf at h ⊢
  cases hn : s.levels.get? id with
  | none =>
    rw [hn] at h
    exact absurd h (Nat.lt_irrefl 0)
  | some n => rfl

/-- Levels are lengths of routes, and links once followed go up. -/
structure Levelled (g : Graph B) (s : Sweep) : Prop extends Accounted g s where
  reached : ∀ id n, s.levels.get? id = some n → ∃ route, g.Route route id ∧ route.length = n
  raised : ∀ k ∈ s.followed, ∀ l, g.links.get? k = some l → s.levelOf l.origin < s.levelOf l.target
  known : ∀ id ∈ s.released, 0 < s.levelOf id

theorem arrive_levels (s : Sweep) (id : NodeId) : (s.arrive id).levels = s.levels := by
  unfold arrive
  split
  · rfl
  · split <;> rfl

theorem mem_released_arrive (s : Sweep) {id i : NodeId} (h : i ∈ (s.arrive id).released) :
    i ∈ s.released ∨ i = id := by
  unfold arrive at h
  split at h
  · exact .inl h
  · split at h
    · rw [released, ← List.append_assoc] at h
      rcases List.mem_append.1 h with h | h
      · exact .inl h
      · exact .inr (List.mem_singleton.1 h)
    · exact .inl h

section Follow

variable {g : Graph B} (hg : g.Joined) {s : Sweep} {k : LinkId} {l : Link}
  (hl : g.links.get? k = some l)
include hg hl

theorem follow_eq (hk : k ∉ s.followed) (level : Nat) : s.follow g level k =
    (({ s with followed := k :: s.followed } : Sweep).raise l.target (level + 1)).arrive
      l.target := by
  unfold follow
  rw [if_neg hk]
  simp only [hl]
  exact if_pos ((Assoc.contains_iff _ _).2 (Graph.Feeds.target_mem hg ⟨k, l, hl, rfl, rfl⟩))

theorem levels_follow (hk : k ∉ s.followed) (level : Nat) (id : NodeId) :
    (s.follow g level k).levels.get? id =
      if id = l.target then some (max (s.levelOf l.target) (level + 1))
      else s.levels.get? id := by
  rw [follow_eq hg hl hk, arrive_levels]
  exact Assoc.get?_insert ..

/-- What was released before a link was followed keeps its level, for all links into it were
followed already. -/
theorem Accounted.levelOf_follow (h : s.Accounted g) (level : Nat) {id : NodeId}
    (hid : id ∈ s.released) : (s.follow g level k).levelOf id = s.levelOf id := by
  by_cases hk : k ∈ s.followed
  · rw [Sweep.follow, if_pos hk]
  · have hne : id ≠ l.target := by
      rintro rfl
      exact hk (h.free _ hid k ((Graph.mem_incoming hg).2 ⟨l, hl, rfl⟩))
    unfold levelOf
    rw [levels_follow hg hl hk, if_neg hne]

theorem Levelled.follow (h : s.Levelled g) (ho : l.origin ∈ s.placed) :
    (s.follow g (s.levelOf l.origin) k).Levelled g := by
  by_cases hk : k ∈ s.followed
  · rw [Sweep.follow, if_pos hk]
    exact h
  have hreleased : l.origin ∈ s.released := List.mem_append_left _ ho
  have hlevels := levels_follow hg hl hk (s.levelOf l.origin)
  have htarget : (s.follow g (s.levelOf l.origin) k).levelOf l.target =
      max (s.levelOf l.target) (s.levelOf l.origin + 1) := by
    show ((s.follow g (s.levelOf l.origin) k).levels.get? l.target).getD 0 = _
    rw [hlevels, if_pos rfl]
    rfl
  have hgrows : ∀ id, s.levelOf id ≤ (s.follow g (s.levelOf l.origin) k).levelOf id := by
    intro id
    by_cases hid : id = l.target
    · rw [hid, htarget]
      omega
    · show s.levelOf id ≤ ((s.follow g (s.levelOf l.origin) k).levels.get? id).getD 0
      rw [hlevels, if_neg hid]
      exact Nat.le_refl _
  have hfeeds : g.Feeds l.origin l.target := ⟨k, l, hl, rfl, rfl⟩
  refine ⟨h.toAccounted.follow hg hl ho _, fun id n hn => ?_, fun i hi l' hl' => ?_, fun id hid => ?_⟩
  · rw [hlevels] at hn
    split at hn
    · next hid =>
      cases hn
      rw [hid]
      -- the greater of both levels is the old one, or comes from the route into the origin
      by_cases hmax : s.levelOf l.origin + 1 ≤ s.levelOf l.target
      · rw [Nat.max_eq_left hmax]
        exact h.reached _ _ (get?_of_levelOf (by omega))
      · obtain ⟨route, hroute, hlength⟩ := h.reached _ _ (get?_of_levelOf (h.known _ hreleased))
        refine ⟨route ++ [l.target], hroute.snoc hfeeds, ?_⟩
        rw [List.length_append, List.length_singleton, hlength]
        omega
    · exact h.reached id n hn
  · rcases (mem_followed_follow ..).1 hi with rfl | hi
    · rw [hl] at hl'
      cases hl'
      rw [h.levelOf_follow hg hl _ hreleased, htarget]
      omega
    · have hplaced : l'.origin ∈ s.released := List.mem_append_left _ (h.origin i hi l' hl')
      rw [h.levelOf_follow hg hl _ hplaced]
      exact Nat.lt_of_lt_of_le (h.raised i hi l' hl') (hgrows _)
  · rw [follow_eq hg hl hk] at hid
    rcases mem_released_arrive _ hid with hid | rfl
    · exact Nat.lt_of_lt_of_le (h.known id hid) (hgrows id)
    · rw [htarget]
      omega

end Follow

/-- The links of a placed node are followed one by one, and its level stays all the while. -/
theorem Levelled.follows {g : Graph B} (hg : g.Joined) {id : NodeId} (ks : List LinkId) {s : Sweep}
    (h : s.Levelled g) (hid : id ∈ s.placed)
    (hks : ∀ k ∈ ks, ∃ l, g.links.get? k = some l ∧ l.origin = id) :
    (ks.foldl (Sweep.follow g (s.levelOf id)) s).Levelled g := by
  induction ks generalizing s with
  | nil => exact h
  | cons k ks ih =>
    obtain ⟨l, hl, rfl⟩ := hks k (List.mem_cons_self ..)
    have hstays := h.levelOf_follow hg hl (s.levelOf l.origin) (List.mem_append_left _ hid)
    have hrest := ih (h.follow hg hl hid) (by rwa [follow_placed])
      fun i hi => hks i (List.mem_cons_of_mem k hi)
    rwa [hstays] at hrest

theorem Levelled.place {g : Graph B} (hg : g.Joined) {s : Sweep} (h : s.Levelled g) {id : NodeId}
    {rest : List NodeId} (hr : s.ready = id :: rest) : (s.place g id rest).Levelled g := by
  let s' : Sweep := { s with ready := rest, placed := s.placed ++ [id] }
  have hsame : s'.released = s.released := by
    rw [released, released, hr, List.append_assoc]
    rfl
  have hlevelled : s'.Levelled g :=
    ⟨h.advance hr, h.reached, h.raised, fun i hi => h.known i (hsame ▸ hi)⟩
  have hready : id ∈ s.released := by
    rw [released, hr]
    exact List.mem_append_right _ (List.mem_cons_self ..)
  have hlevel : (s.levels.get? id).getD 1 = s'.levelOf id := by
    rw [get?_of_levelOf (h.known id hready)]
    rfl
  show ((linksLeaving g id).foldl (Sweep.follow g ((s.levels.get? id).getD 1)) s').Levelled g
  rw [hlevel]
  refine hlevelled.follows hg _ (List.mem_append_right _ (List.mem_singleton_self id)) ?_
  exact fun k hk => (Graph.mem_linksLeaving hg).1 hk

theorem levelled_start {g : Graph B} (hg : g.Joined) : (start g).Levelled g := by
  -- whoever is ready at first is at level one, and nobody else has a level
  have hlevels : ∀ id, (start g).levels.get? id = if id ∈ (start g).ready then some 1 else none := by
    intro id
    refine (Assoc.get?_mapValues ..).trans ?_
    split
    · next h =>
      obtain ⟨n, hn⟩ := Assoc.mem_keys_iff.1 h
      rw [hn]
      rfl
    · next h =>
      rw [(Assoc.get?_eq_none_iff _ id).2 h]
      rfl
  refine ⟨accounted_start hg, fun id n hn => ?_, fun k hk => ?_, fun id hid => ?_⟩
  · rw [hlevels] at hn
    split at hn
    · cases hn
      exact ⟨[id], .single id, rfl⟩
    · cases hn
  · cases hk
  · have hready : id ∈ (start g).ready := hid
    unfold levelOf
    rw [hlevels, if_pos hready]
    exact Nat.one_pos

theorem levelled_run {g : Graph B} (hg : g.Joined) : ((start g).run g).Levelled g :=
  (run_keeps (fun _ _ _ hr h => Levelled.place hg h hr) (start g) (levelled_start hg)).1

end Sweep

namespace Graph

/-! ## The levels in the end -/

theorem levelAfter_of_swept {g : Graph B} {id : NodeId} (h : id ∈ g.swept) :
    levelAfter ((Sweep.start g).run g) id = ((Sweep.start g).run g).levelOf id := if_pos h

theorem levelAfter_of_not_swept {g : Graph B} {id : NodeId} (h : id ∉ g.swept) :
    levelAfter ((Sweep.start g).run g) id = 0 := if_neg h

theorem mem_levels {g : Graph B} {id : NodeId} {level : Nat} :
    (id, level) ∈ g.levels ↔ id ∈ g.nodes.keys ∧ level = levelAfter ((Sweep.start g).run g) id := by
  unfold levels
  rw [List.mem_map]
  constructor
  · rintro ⟨i, hi, he⟩
    cases he
    exact ⟨hi, rfl⟩
  · rintro ⟨hid, rfl⟩
    exact ⟨id, hid, rfl⟩

section Longest

variable {g : Graph B} (hg : g.Joined)
include hg

/-- The placed nodes are those that are not tangled. -/
theorem mem_swept_iff {id : NodeId} (hid : id ∈ g.nodes.keys) : id ∈ g.swept ↔ ¬g.Tangled id :=
  ⟨not_tangled_of_swept hg, swept_of_not_tangled hg hid⟩

theorem level_pos {id : NodeId} (h : id ∈ g.swept) : 0 < ((Sweep.start g).run g).levelOf id :=
  (Sweep.levelled_run hg).known id (List.mem_append_left _ h)

/-- A link into a placed node was followed, and so it goes up. -/
theorem level_lt {u v : NodeId} (hf : g.Feeds u v) (hv : v ∈ g.swept) :
    ((Sweep.start g).run g).levelOf u < ((Sweep.start g).run g).levelOf v := by
  have hu := (swept_feeder hg hf hv).1
  obtain ⟨k, l, hl, rfl, rfl⟩ := hf
  have hk := (Sweep.settled_run hg).done l.origin hu k ((mem_linksLeaving hg).2 ⟨l, hl, rfl⟩)
  exact (Sweep.levelled_run hg).raised k hk l hl

/-- No route into a placed node is longer than its level: each link of it goes up by one at least. -/
theorem Route.length_le {route : List NodeId} {id : NodeId} (h : g.Route route id)
    (hid : id ∈ g.swept) : route.length ≤ ((Sweep.start g).run g).levelOf id := by
  induction h with
  | single id => exact level_pos hg hid
  | @snoc route u v h hf ih =>
    have hu := ih (swept_feeder hg hf hid).1
    have huv := level_lt hg hf hid
    rw [List.length_append, List.length_singleton]
    omega

/-- Every node has a level, in the order in which nodes are stored.  It is zero just for the nodes
on a cycle of links or behind one.  For any other node it is the number of nodes on the longest
path into it, so links into such nodes go up. -/
theorem levels_longest :
    g.levels.map Prod.fst = g.nodes.keys ∧
      (∀ id level, (id, level) ∈ g.levels →
        (level = 0 ↔ g.Tangled id) ∧
          (¬g.Tangled id →
            (∃ route, g.Route route id ∧ route.Nodup ∧ route.length = level) ∧
              ∀ route, g.Route route id → route.length ≤ level)) ∧
      ∀ u v a b, g.Feeds u v → (u, a) ∈ g.levels → (v, b) ∈ g.levels → b ≠ 0 → a < b := by
  refine ⟨?_, fun id level h => ?_, fun u v a b hf hu hv hb => ?_⟩
  · rw [levels, List.map_map]
    exact List.map_id _
  · obtain ⟨hid, rfl⟩ := mem_levels.1 h
    by_cases ht : g.Tangled id
    · have hn : id ∉ g.swept := fun hs => (mem_swept_iff hg hid).1 hs ht
      exact ⟨⟨fun _ => ht, fun _ => levelAfter_of_not_swept hn⟩, fun hnot => absurd ht hnot⟩
    · have hs := (mem_swept_iff hg hid).2 ht
      have hpos := level_pos hg hs
      obtain ⟨route, hroute, hlength⟩ :=
        (Sweep.levelled_run hg).reached id _ (Sweep.get?_of_levelOf hpos)
      rw [levelAfter_of_swept hs]
      refine ⟨⟨fun hzero => ?_, fun h => absurd h ht⟩, fun _ => ⟨?_, fun route hr => ?_⟩⟩
      · omega
      · exact ⟨route, hroute, hroute.nodup ht, hlength⟩
      · exact hr.length_le hg hs
  · obtain ⟨-, rfl⟩ := mem_levels.1 hu
    obtain ⟨-, rfl⟩ := mem_levels.1 hv
    have hs : v ∈ g.swept := by
      by_contra hn
      exact hb (levelAfter_of_not_swept hn)
    rw [levelAfter_of_swept hs, levelAfter_of_swept (swept_feeder hg hf hs).1]
    exact level_lt hg hf hs

end Longest

end Graph

/-! ## Two ways up and a cycle -/

/-- Links the first node to the third directly and by way of the second, and the third to the first
of two nodes that feed each other. -/
def terraced : Body Catalog Unit (Except ConnectionError LinkId) := do
  let terrace : Node Catalog := { Node.new "terrace" with
    inputs := [.new "in" .any, .new "more" .any], outputs := [.new "out" .any] }
  Body.edit .beginBatch
  let _ ← Body.perform (.add terrace)
  let _ ← Body.perform (.add terrace)
  let _ ← Body.perform (.add terrace)
  let _ ← Body.perform (.add terrace)
  let _ ← Body.perform (.add terrace)
  let _ ← Body.edit (.tryConnect ⟨1⟩ 0 ⟨3⟩ 1)
  let _ ← Body.edit (.tryConnect ⟨1⟩ 0 ⟨2⟩ 0)
  let _ ← Body.edit (.tryConnect ⟨2⟩ 0 ⟨3⟩ 0)
  let _ ← Body.edit (.tryConnect ⟨3⟩ 0 ⟨4⟩ 0)
  let _ ← Body.edit (.tryConnect ⟨4⟩ 0 ⟨5⟩ 0)
  Body.edit (.tryConnect ⟨5⟩ 0 ⟨4⟩ 1)

theorem terraced_obeys (r : Registry Catalog) : terraced.Obeys (linking r) := by
  have hterrace : ({ Node.new "terrace" with
      inputs := [.new "in" .any, .new "more" .any], outputs := [.new "out" .any] } :
      Node Catalog).Loose := ⟨by simp [Input.new], by simp [Output.new], by simp [Node.new]⟩
  refine ⟨trivial, fun _ _ => ⟨hterrace, fun _ _ => ⟨hterrace, fun _ _ => ⟨hterrace, fun _ _ =>
    ⟨hterrace, fun _ _ => ⟨hterrace, fun _ _ => ?_⟩⟩⟩⟩⟩⟩
  exact ⟨trivial, fun _ _ => ⟨trivial, fun _ _ => ⟨trivial, fun _ _ => ⟨trivial, fun _ _ =>
    ⟨trivial, fun _ _ => ⟨trivial, fun _ _ => trivial⟩⟩⟩⟩⟩⟩

/-- The first three nodes are placed one after another, and nothing is ready then. -/
theorem terraced_evaluates : ((Engine.exec 1 terraced
      (⟨Graph.empty ∅ .default, [], ()⟩ : Session Catalog Unit)).any fun e =>
    let swept := (Sweep.start e.2.graph).advance e.2.graph 3
    decide (swept.ready = []) &&
      decide ((e.2.graph.nodes.keys.map fun id => (id, Graph.levelAfter swept id)) =
        [(⟨1⟩, 1), (⟨2⟩, 2), (⟨3⟩, 3), (⟨4⟩, 0), (⟨5⟩, 0)])) = true := by
  decide +kernel

/-- The longer way counts for the third node, and the cycle behind it has no level, although links
from above lead into it. -/
theorem terraced_levels : ∃ g : Graph Catalog, g.Joined ∧
    g.levels = [(⟨1⟩, 1), (⟨2⟩, 2), (⟨3⟩, 3), (⟨4⟩, 0), (⟨5⟩, 0)] ∧
    (∃ route, g.Route route ⟨3⟩ ∧ route.Nodup ∧ route.length = 3) ∧
    (∀ route, g.Route route ⟨3⟩ → route.length ≤ 3) ∧ g.Tangled ⟨4⟩ ∧ g.Tangled ⟨5⟩ := by
  obtain ⟨⟨answer, s⟩, hr, hfacts⟩ := (Option.any_eq_true _ _).1 terraced_evaluates
  simp only [Bool.and_eq_true, decide_eq_true_eq] at hfacts
  obtain ⟨hready, hkeys⟩ := hfacts
  have hs : s.graph.Joined :=
    (Engine.keeps_exec (Engine.lawful_linking ∅) (Catalog.obeys_linking ∅) (terraced_obeys ∅) 1
      ⟨Graph.empty ∅ .default, [], ()⟩ (Graph.tidy_empty ∅ .default) _ s hr).1.toJoined
  have hlevels : s.graph.levels = [(⟨1⟩, 1), (⟨2⟩, 2), (⟨3⟩, 3), (⟨4⟩, 0), (⟨5⟩, 0)] := by
    unfold Graph.levels
    rw [Sweep.run_eq_advance hready]
    exact hkeys
  obtain ⟨-, hlongest, -⟩ := Graph.levels_longest hs
  rw [hlevels] at hlongest
  have hthird := hlongest ⟨3⟩ 3 (by decide)
  have hroutes := hthird.2 fun ht => absurd (hthird.1.2 ht) (by decide)
  have hfourth := (hlongest ⟨4⟩ 0 (by decide)).1.1 rfl
  have hfifth := (hlongest ⟨5⟩ 0 (by decide)).1.1 rfl
  exact ⟨s.graph, hs, hlevels, hroutes.1, hroutes.2, hfourth, hfifth⟩

end Dataflow
