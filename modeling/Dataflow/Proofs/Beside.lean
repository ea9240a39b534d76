/-
  Repairing a graph that has another one beside it.

  A joined graph and, behind it, a renamed copy of a graph in any state (`Beside`).  A repair
  treats a link and its copy alike: whether it can stand depends on its own slots only, and these
  name copies of what the originals name.  The links of the joined graph stand already, and its
  slots name no other links.  So after the repair the one graph is still beside a copy of the
  other, and unchanged (`beside_repair`).

  Slots may name links that were loaded but dropped again.  So `D`, the links that can be named,
  stays fixed while links disappear, and the renaming is injective on all of `D`.
-/

import Dataflow.Proofs.Copies

namespace Dataflow

variable {B : Type}

/-! ## Slots of a copy -/

namespace Node.Copied

variable {K : Type} {kind : B → K} {D : LinkId → Prop} {h : LinkId → LinkId} {id : NodeId}
  {n n' : Node B}

theorem inputs (hn : n.Copied kind D h id n') (slot : Nat) :
    n'.inputs[slot]? = n.inputs[slot]?.map fun s => { s with link := s.link.map h } := by
  obtain ⟨order, behavior, -, rfl⟩ := hn.same
  show (n.inputs.mapIdx _)[slot]? = _
  rw [List.getElem?_mapIdx]
  cases n.inputs[slot]? with
  | none => rfl
  | some s =>
    rw [Option.map_some, Option.map_some, Option.map_eq_bind]
    rfl

theorem outputs (hn : n.Copied kind D h id n') (slot : Nat) :
    n'.outputs[slot]? = n.outputs[slot]?.map fun s => { s with links := s.links.map h } := by
  obtain ⟨order, behavior, -, rfl⟩ := hn.same
  show (n.outputs.mapIdx _)[slot]? = _
  rw [List.getElem?_mapIdx]
  cases n.outputs[slot]? with
  | none => rfl
  | some s =>
    rw [Option.map_some, Option.map_some, ← List.filterMap_eq_map]
    rfl

/-- A change of an input and the same change of its copy. -/
theorem modifyInput (hn : n.Copied kind D h id n') {slot : Nat} {u u' : Input → Input}
    (hu : ∀ s, u' { s with link := s.link.map h } = { u s with link := (u s).link.map h })
    (hD : ∀ s k, (u s).link = some k → s.link = some k ∨ D k) :
    (n.modifyInput slot u).Copied kind D h id (n'.modifyInput slot u') where
  names d i k hk := by
    cases d with
    | output => exact hn.names .output i k hk
    | input =>
      obtain ⟨s', hs', hk⟩ := hk
      change (n.inputs.modify slot u)[i]? = some s' at hs'
      rw [List.getElem?_modify] at hs'
      obtain ⟨s, hs, he⟩ := Option.map_eq_some_iff.1 hs'
      by_cases hi : slot = i
      · rw [if_pos hi] at he
        obtain hold | hnew := hD s k (he ▸ hk)
        · exact hn.names .input i k ⟨s, hs, hold⟩
        · exact hnew
      · rw [if_neg hi] at he
        exact hn.names .input i k ⟨s, hs, he ▸ hk⟩
  same := by
    obtain ⟨order, behavior, hk, rfl⟩ := hn.same
    refine ⟨order, behavior, hk, ?_⟩
    have hi : (n.inputs.mapIdx fun _ s => { s with link := s.link.bind fun k => some (h k) }).modify
        slot u' = (n.inputs.modify slot u).mapIdx fun _ s =>
          { s with link := s.link.bind fun k => some (h k) } := by
      apply List.ext_getElem?
      intro i
      rw [List.getElem?_modify, List.getElem?_mapIdx, List.getElem?_mapIdx, List.getElem?_modify]
      cases n.inputs[i]? with
      | none => rfl
      | some s =>
        show some (ite _ _ _) = some _
        split
        · have hs := hu s
          rw [Option.map_eq_bind, Option.map_eq_bind] at hs
          exact congrArg some hs
        · rfl
    exact congrArg (fun inputs => ({ n.rename h with id := some id, inputs, order, behavior } : Node B)) hi

/-- A change of an output and the same change of its copy. -/
theorem modifyOutput (hn : n.Copied kind D h id n') {slot : Nat} {u u' : Output → Output}
    (hu : ∀ s, (∀ k ∈ s.links, D k) →
      u' { s with links := s.links.map h } = { u s with links := (u s).links.map h })
    (hD : ∀ s k, k ∈ (u s).links → k ∈ s.links ∨ D k) :
    (n.modifyOutput slot u).Copied kind D h id (n'.modifyOutput slot u') where
  names d i k hk := by
    cases d with
    | input => exact hn.names .input i k hk
    | output =>
      obtain ⟨s', hs', hk⟩ := hk
      change (n.outputs.modify slot u)[i]? = some s' at hs'
      rw [List.getElem?_modify] at hs'
      obtain ⟨s, hs, he⟩ := Option.map_eq_some_iff.1 hs'
      by_cases hi : slot = i
      · rw [if_pos hi] at he
        obtain hold | hnew := hD s k (he ▸ hk)
        · exact hn.names .output i k ⟨s, hs, hold⟩
        · exact hnew
      · rw [if_neg hi] at he
        exact hn.names .output i k ⟨s, hs, he ▸ hk⟩
  same := by
    obtain ⟨order, behavior, hk, rfl⟩ := hn.same
    refine ⟨order, behavior, hk, ?_⟩
    have ho : (n.outputs.mapIdx fun _ s =>
        { s with links := s.links.filterMap fun k => some (h k) }).modify slot u' =
        (n.outputs.modify slot u).mapIdx fun _ s =>
          { s with links := s.links.filterMap fun k => some (h k) } := by
      apply List.ext_getElem?
      intro i
      rw [List.getElem?_modify, List.getElem?_mapIdx, List.getElem?_mapIdx, List.getElem?_modify]
      cases hs : n.outputs[i]? with
      | none => rfl
      | some s =>
        show some (ite _ _ _) = some _
        split
        · have hs := hu s fun k hk => hn.names .output i k ⟨s, hs, hk⟩
          rw [← List.filterMap_eq_map] at hs
          exact congrArg some hs
        · rfl
    exact congrArg (fun outputs => ({ n.rename h with id := some id, outputs, order, behavior } : Node B)) ho

end Node.Copied

namespace Graph

/-- A graph unchanged, and behind it a copy of another whose slots name links in `D` only. -/
structure Beside {K : Type} (kind : B → K) (f : NodeId → NodeId) (h : LinkId → LinkId)
    (D : LinkId → Prop) (g a m : Graph B) : Prop where
  nodes : Assoc.Union f (fun id n n' => n.Copied kind D h (f id) n') g.nodes a.nodes m.nodes
  links : Assoc.Union h (fun k l l' => l.id = k ∧ l.origin ∈ a.nodes.keys ∧
    l.target ∈ a.nodes.keys ∧ l' = l.rename f h) g.links a.links m.links
  loaded : ∀ k ∈ a.links.keys, D k
  injective : ∀ i k, D i → D k → h i = h k → i = k
  apart : ∀ k, D k → h k ∉ g.links.keys

namespace Beside

variable {K : Type} {kind : B → K} {f : NodeId → NodeId} {h : LinkId → LinkId}
  {D : LinkId → Prop} {g a m : Graph B}
  (hb : g.Beside kind f h D a m)
include hb

/-! ## Looking things up in a copy -/

theorem link? {k : LinkId} (hk : D k) :
    m.links.get? (h k) = (a.links.get? k).map (Link.rename f h) := by
  cases hl : a.links.get? k with
  | some l =>
    obtain ⟨l', hl', -, -, -, rfl⟩ := hb.links.rest k l hl
    exact hl'
  | none =>
    rw [Option.map_none, Assoc.get?_eq_none_iff, hb.links.keys, List.mem_append, not_or]
    refine ⟨hb.apart k hk, fun hm => ?_⟩
    obtain ⟨i, hi, he⟩ := List.mem_map.1 hm
    cases hb.injective i k (hb.loaded i hi) hk he
    exact (Assoc.get?_eq_none_iff ..).1 hl hi

theorem input? {id : NodeId} (hid : id ∈ a.nodes.keys) (slot : Nat) :
    m.input? (f id) slot = (a.input? id slot).map fun s => { s with link := s.link.map h } := by
  obtain ⟨n, hn⟩ := Assoc.mem_keys_iff.1 hid
  obtain ⟨n', hn', hc⟩ := hb.nodes.rest id n hn
  rw [input_of_node hn', input_of_node hn, hc.inputs]

theorem output? {id : NodeId} (hid : id ∈ a.nodes.keys) (slot : Nat) :
    m.output? (f id) slot = (a.output? id slot).map fun s => { s with links := s.links.map h } := by
  obtain ⟨n, hn⟩ := Assoc.mem_keys_iff.1 hid
  obtain ⟨n', hn', hc⟩ := hb.nodes.rest id n hn
  rw [output_of_node hn', output_of_node hn, hc.outputs]

theorem named {id : NodeId} {slot : Nat} {k : LinkId} (hk : a.Holds id slot k) : D k := by
  obtain ⟨s, hs, hk⟩ := hk
  obtain ⟨n, hn, hs⟩ := node_of_input hs
  obtain ⟨n', -, hc⟩ := hb.nodes.rest id n hn
  exact hc.names .input slot k ⟨s, hs, hk⟩

/-! ## The first pass -/

theorem canStand {k : LinkId} {l : Link} (hl : a.links.get? k = some l) :
    m.canStand (h k) (l.rename f h) = a.canStand k l := by
  obtain ⟨l', -, -, ho, ht, -⟩ := hb.links.rest k l hl
  have hk := hb.loaded k (Assoc.mem_keys_of_get? hl)
  have hout : (m.output? (f l.origin) l.originSlot).isSome = (a.output? l.origin l.originSlot).isSome := by
    rw [hb.output? ho, Option.isSome_map]
  have hin : ((m.input? (f l.target) l.targetSlot).any fun s => s.link.all (· = h k)) =
      (a.input? l.target l.targetSlot).any fun s => s.link.all (· = k) := by
    rw [hb.input? ht]
    cases hs : a.input? l.target l.targetSlot with
    | none => rfl
    | some s =>
      show (s.link.map h).all _ = s.link.all _
      cases hi : s.link with
      | none => rfl
      | some i =>
        show decide (h i = h k) = decide (i = k)
        rw [decide_eq_decide]
        exact ⟨hb.injective i k (hb.named ⟨s, hs, hi⟩) hk, congrArg h⟩
  have hne : decide (f l.origin ≠ f l.target) = decide (l.origin ≠ l.target) := by
    rw [decide_eq_decide]
    exact not_congr ⟨hb.nodes.injective ho ht, congrArg f⟩
  show ((m.output? (f l.origin) l.originSlot).isSome && _ && decide (f l.origin ≠ f l.target)) = _
  rw [hout, hne]
  exact congrArg (fun b => _ && b && _) hin

/-- A link is entered on both sides. -/
theorem enter {k : LinkId} {l : Link} (hl : a.links.get? k = some l) :
    g.Beside kind f h D (a.enter k l) (m.enter (h k) (l.rename f h)) := by
  obtain ⟨l', -, -, ho, ht, -⟩ := hb.links.rest k l hl
  have hk := hb.loaded k (Assoc.mem_keys_of_get? hl)
  -- the target names the link, unless it names another one already
  have hin : Assoc.Union f (fun id n n' => n.Copied kind D h (f id) n') g.nodes
      (a.nodes.modify l.target fun n => n.modifyInput l.targetSlot fun s =>
        { s with link := some (s.link.getD k) })
      (m.nodes.modify (f l.target) fun n => n.modifyInput l.targetSlot fun s =>
        { s with link := some (s.link.getD (h k)) }) := by
    refine hb.nodes.modify ht (fun n n' _ hc => hc.modifyInput (fun s => ?_) fun s i hi => ?_)
      fun _ _ _ _ hc => hc
    · cases s.link <;> rfl
    · cases hs : s.link with
      | none =>
        rw [hs] at hi
        cases hi
        exact .inr hk
      | some j =>
        rw [hs] at hi
        exact .inl hi
  -- the origin lists it, unless it does already
  have hout : Assoc.Union f (fun id n n' => n.Copied kind D h (f id) n') g.nodes
      (a.enter k l).nodes (m.enter (h k) (l.rename f h)).nodes := by
    refine hin.modify ?_ (fun n n' _ hc => hc.modifyOutput (fun s hs => ?_) fun s i hi => ?_)
      fun _ _ _ _ hc => hc
    · rw [Assoc.keys_modify]
      exact ho
    · -- the copy is listed exactly where the link is
      have hm : h k ∈ s.links.map h ↔ k ∈ s.links := by
        rw [List.mem_map]
        constructor
        · rintro ⟨i, hi, he⟩
          cases hb.injective i k (hs i hi) hk he
          exact hi
        · exact fun hi => ⟨k, hi, rfl⟩
      simp only [hm]
      split
      · rfl
      · rw [List.map_append]
        rfl
    · change i ∈ (if k ∈ s.links then s else { s with links := s.links ++ [k] }).links at hi
      split at hi
      · exact .inl hi
      · obtain hi | hi := List.mem_append.1 hi
        · exact .inl hi
        · exact .inr (List.mem_singleton.1 hi ▸ hk)
  have hkeys : (a.enter k l).nodes.keys = a.nodes.keys :=
    (Assoc.keys_modify ..).trans (Assoc.keys_modify ..)
  refine ⟨hout, ?_, hb.loaded, hb.injective, hb.apart⟩
  rw [hkeys]
  exact hb.links

/-- A link is dropped on both sides. -/
theorem drop {k : LinkId} (hk : k ∈ a.links.keys) :
    g.Beside kind f h D { a with links := a.links.erase k } { m with links := m.links.erase (h k) } where
  nodes := hb.nodes
  links := hb.links.erase hk
  loaded i hi := by
    change i ∈ (a.links.erase k).keys at hi
    rw [Assoc.keys_erase] at hi
    exact hb.loaded i (List.mem_of_mem_filter hi)
  injective := hb.injective
  apart := hb.apart

end Beside

/-- A repair takes no node away. -/
theorem keys_repair (g : Graph B) (pruned : List LinkId) :
    (g.repair pruned).graph.nodes.keys = g.nodes.keys := by
  refine repaired_keeps (P := fun g' => g'.nodes.keys = g.nodes.keys) (fun _ _ _ h => ?_)
    (fun _ _ h => h) (fun _ _ h => (Assoc.keys_mapValues ..).trans h) rfl pruned
  refine Eq.trans ?_ h
  exact (Assoc.keys_modify ..).trans (Assoc.keys_modify ..)

theorem beside_settle {K : Type} {kind : B → K} {f : NodeId → NodeId} {h : LinkId → LinkId}
    {D : LinkId → Prop} {g : Graph B} {r r' : Repair B} (hb : g.Beside kind f h D r.graph r'.graph)
    {k : LinkId} (hk : D k) : g.Beside kind f h D (settle r k).graph (settle r' (h k)).graph := by
  have hlink := hb.link? hk
  unfold settle
  cases hl : r.graph.links.get? k with
  | none =>
    rw [hl, Option.map_none] at hlink
    rw [hlink]
    exact hb
  | some l =>
    rw [hl, Option.map_some] at hlink
    rw [hlink]
    simp only [hb.canStand hl]
    split
    · exact hb.enter hl
    · exact hb.drop (Assoc.mem_keys_of_get? hl)

theorem beside_settles {K : Type} {kind : B → K} {f : NodeId → NodeId} {h : LinkId → LinkId}
    {D : LinkId → Prop} {g : Graph B} (r r' : Repair B) (hb : g.Beside kind f h D r.graph r'.graph)
    {ks : List LinkId} (hks : ∀ k ∈ ks, D k) :
    g.Beside kind f h D (ks.foldl settle r).graph ((ks.map h).foldl settle r').graph := by
  induction ks generalizing r r' with
  | nil => exact hb
  | cons k ks ih =>
    exact ih _ _ (beside_settle hb (hks k (List.mem_cons_self ..))) fun i hi =>
      hks i (List.mem_cons_of_mem k hi)

section Repair

variable {K : Type} {kind : B → K} {f : NodeId → NodeId} {h : LinkId → LinkId}
  {D : LinkId → Prop} {g a m : Graph B}
  (hb : g.Beside kind f h D a m)
include hb

/-! ## The passes in which slots forget -/

/-- Passing named links through maps that keep what the joined graph names, and treat a link and
its copy alike. -/
theorem beside_relinkAll {u u' : NodeId → Direction → Nat → LinkId → Option LinkId}
    (hold : ∀ id n, g.nodes.get? id = some n → ∀ d slot k, n.Names d slot k →
      u' id d slot k = some k)
    (hcopy : ∀ id ∈ a.nodes.keys, ∀ d slot k, D k → u' (f id) d slot (h k) = (u id d slot k).map h)
    (hsub : ∀ id d slot k i, u id d slot k = some i → D i) :
    g.Beside kind f h D (a.relinkAll u) (m.relinkAll u') := by
  have hkeys : (a.relinkAll u).nodes.keys = a.nodes.keys := Assoc.keys_mapValues ..
  refine ⟨?_, ?_, hb.loaded, hb.injective, hb.apart⟩
  · show Assoc.Union f _ g.nodes (a.nodes.mapValues fun id n => n.relink (u id))
      (m.nodes.mapValues fun id n => n.relink (u' id))
    refine hb.nodes.mapValues (fun id n hn => ?_) fun id n n' hn hc => ?_
    · exact Node.relink_self fun d slot k hk => hold id n hn d slot k hk
    · refine hc.relink (fun d slot k hk => ?_) (hsub id)
      exact hcopy id (Assoc.mem_keys_of_get? hn) d slot k (hc.names d slot k hk)
  · rw [hkeys]
    exact hb.links

theorem old_link? {k : LinkId} {l : Link} (hl : g.links.get? k = some l) :
    m.links.get? k = some l := (hb.links.first k (Assoc.mem_keys_of_get? hl)).trans hl

theorem beside_live (hg : g.Joined) : g.Beside kind f h D (a.relinkAll a.live) (m.relinkAll m.live) := by
  refine beside_relinkAll hb (fun id n hn d slot k hk => ?_) (fun id hid d slot k hk => ?_) ?_
  · obtain ⟨l, hl, -⟩ := hg.of_names hn hk
    exact (live_eq_some m).2 ⟨rfl, Option.isSome_of_eq_some (old_link? hb hl)⟩
  · unfold live
    rw [Assoc.contains_eq_isSome, Assoc.contains_eq_isSome, hb.link? hk, Option.isSome_map]
    split <;> rfl
  · intro id d slot k i hi
    obtain ⟨rfl, hl⟩ := (live_eq_some a).1 hi
    exact hb.loaded k ((Assoc.get?_isSome ..).1 hl)

theorem beside_owned (hg : g.Joined) : g.Beside kind f h D (a.relinkAll a.owned) (m.relinkAll m.owned) := by
  refine beside_relinkAll hb (fun id n hn d slot k hk => ?_) (fun id hid d slot k hk => ?_) ?_
  · obtain ⟨l, hl, he⟩ := hg.of_names hn hk
    exact (owned_eq_some m).2 ⟨rfl, l, old_link? hb hl, he⟩
  · unfold owned
    rw [hb.link? hk]
    cases hl : a.links.get? k with
    | none => rfl
    | some l =>
      obtain ⟨l', -, -, ho, ht, -⟩ := hb.links.rest k l hl
      -- the copy ends at the copy of a node where the link ends at the node
      have he : endsAt (l.rename f h) (f id) d slot = endsAt l id d slot := by
        have hid' : ∀ {i}, i ∈ a.nodes.keys → decide (f i = f id) = decide (i = id) := fun hi => by
          rw [decide_eq_decide]
          exact ⟨hb.nodes.injective hi hid, congrArg f⟩
        cases d with
        | input => exact congrArg (· && _) (hid' ht)
        | output => exact congrArg (· && _) (hid' ho)
      show (if endsAt (l.rename f h) (f id) d slot = true then some (h k) else none) = _
      rw [he]
      show _ = Option.map h (if endsAt l id d slot = true then some k else none)
      split <;> rfl
  · intro id d slot k i hi
    obtain ⟨rfl, l, hl, -⟩ := (owned_eq_some a).1 hi
    exact hb.loaded k (Assoc.mem_keys_of_get? hl)

/-- Old links stand in the larger graph as they do in the old one. -/
theorem stands_old {k : LinkId} {l : Link} (hs : g.Stands k l) : m.Stands k l := by
  have hnode : ∀ id n, g.nodes.get? id = some n → m.nodes.get? id = some n := fun id n hn =>
    (hb.nodes.first id (Assoc.mem_keys_of_get? hn)).trans hn
  refine ⟨hs.apart, ?_, ?_⟩
  · obtain ⟨s, hs, hk⟩ := hs.held
    obtain ⟨n, hn, hs⟩ := node_of_input hs
    exact ⟨s, (input_of_node (hnode _ n hn) _).trans hs, hk⟩
  · obtain ⟨s, hs, hk⟩ := hs.listed
    obtain ⟨n, hn, hs⟩ := node_of_output hs
    exact ⟨s, (output_of_node (hnode _ n hn) _).trans hs, hk⟩

/-- Repairing both sides leaves a repaired copy beside the joined graph, which is unchanged. -/
theorem beside_repair (hg : g.Joined) (pruned pruned' : List LinkId) :
    g.Beside kind f h D (a.repair pruned).graph (m.repair pruned').graph := by
  have hfirst : m.links.keys.foldl settle ⟨m, pruned', false⟩ =
      (a.links.keys.map h).foldl settle ⟨m, pruned', false⟩ := by
    rw [hb.links.keys, List.foldl_append]
    congr 1
    apply settles_of_stands
    intro k hk
    obtain ⟨l, hl⟩ := Assoc.mem_keys_iff.1 hk
    exact ⟨l, old_link? hb hl, stands_old hb (hg.stands hl)⟩
  have hsettled := beside_settles ⟨a, pruned, false⟩ ⟨m, pruned', false⟩ hb hb.loaded
  have hlive := beside_live hsettled hg
  have howned := beside_owned hlive hg
  show g.Beside kind f h D _ (((m.links.keys.foldl settle ⟨m, pruned', false⟩).graph.relinkAll _).relinkAll _)
  rw [hfirst]
  exact howned

end Repair

end Graph

end Dataflow
