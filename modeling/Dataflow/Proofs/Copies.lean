/-
  Links and records of a snapshot, loaded twice.

  The links of a snapshot are loaded into two graphs whose nodes correspond by a renaming.  A link
  may get different identities in the two, which fixes how links are renamed (`Linked`): a recorded
  identity that was met before goes where it went before, and any other goes to one that is free.

  Then the nodes take over their records, and the links named in their slots are renamed by the
  table of each load.  After that each node of the larger graph is a copy of a node of the smaller
  one (`Copied`): the same but for its identity, its links, its place in the order, and its
  behaviour, which may have been told different things.
-/

import Dataflow.Proofs.Landing

namespace Dataflow

variable {B σ : Type}

/-! ## Links that are loaded -/

namespace LinkLoad

theorem freeLinkFrom_eq (links : Assoc LinkId Link) (fuel n : Nat) :
    freeLinkFrom links fuel n = firstFree (fun i => links.contains ⟨i⟩) fuel n := by
  induction fuel generalizing n with
  | zero => rfl
  | succ fuel ih =>
    unfold freeLinkFrom firstFree
    rw [ih]

theorem freeLink_fresh (links : Assoc LinkId Link) (n : Nat) :
    (⟨freeLink links n⟩ : LinkId) ∉ links.keys := by
  have htaken : ∀ i, links.contains ⟨i⟩ = true → i ∈ links.keys.map LinkId.number :=
    fun i hi => List.mem_map_of_mem ((Assoc.contains_iff ..).1 hi)
  have hfuel : ((links.keys.map LinkId.number).filter (n ≤ ·)).length ≤ links.size := by
    rw [Assoc.size_eq_length_keys, ← List.length_map (f := LinkId.number)]
    exact List.length_filter_le ..
  unfold freeLink
  rw [← Assoc.contains_iff, freeLinkFrom_eq, Bool.not_eq_true]
  exact firstFree_free htaken links.size n hfuel

theorem le_freeLink (links : Assoc LinkId Link) (n : Nat) : n ≤ freeLink links n := by
  unfold freeLink
  rw [freeLinkFrom_eq]
  exact le_firstFree ..

/-- The counter does not go back when a recorded link gets its identity. -/
theorem le_claim (load : LinkLoad B) (recorded : LinkId) :
    load.graph.nextLink ≤ (load.claim recorded).2 := by
  unfold claim
  cases load.table.get? recorded with
  | some id => exact Nat.le_refl _
  | none =>
    simp only
    split
    · exact Nat.le_trans (le_freeLink ..) (Nat.le_succ _)
    · exact Nat.le_refl _

/-- A recorded link that is met again keeps its identity. -/
theorem claim_known {load : LinkLoad B} {recorded id : LinkId} (h : load.table.get? recorded = some id) :
    (load.claim recorded).1 = id := by
  unfold claim
  rw [h]

/-- A recorded link that is met for the first time gets one that is free. -/
theorem claim_fresh {load : LinkLoad B} {recorded : LinkId} (h : load.table.get? recorded = none) :
    (load.claim recorded).1 ∉ load.graph.links.keys := by
  unfold claim
  rw [h]
  by_cases hc : load.graph.links.contains recorded = true
  · simp only [if_pos hc]
    exact freeLink_fresh _ _
  · simp only [if_neg hc]
    rwa [← Assoc.contains_iff]

theorem add_of_known {nodes : Renaming NodeId} (load : LinkLoad B) {r : LinkRecord}
    {origin target : NodeId} (ho : nodes.get? r.origin = some origin)
    (ht : nodes.get? r.target = some target) :
    (add nodes load r).graph.nodes = load.graph.nodes ∧
      (add nodes load r).graph.links = load.graph.links.insert (load.claim r.id).1
        { r.toLink with id := (load.claim r.id).1, origin, target } ∧
      (add nodes load r).table = load.table.insert r.id (load.claim r.id).1 := by
  unfold add
  rw [ho, ht]
  exact ⟨rfl, rfl, rfl⟩

/-- A link that is left out is listed and nothing else. -/
theorem add_of_missing {nodes : Renaming NodeId} (load : LinkLoad B) {r : LinkRecord}
    (h : nodes.get? r.origin = none ∨ nodes.get? r.target = none) :
    (add nodes load r).graph = load.graph ∧ (add nodes load r).table = load.table := by
  unfold add
  rcases h with h | h
  · rw [h]
    exact ⟨rfl, rfl⟩
  · rw [h]
    cases nodes.get? r.origin <;> exact ⟨rfl, rfl⟩

theorem nodes_add (load : LinkLoad B) (nodes : Renaming NodeId) (r : LinkRecord) :
    (add nodes load r).graph.nodes = load.graph.nodes := by
  unfold add
  split <;> rfl

end LinkLoad

/-- A link under another identity, between nodes under other identities. -/
def Link.rename (f : NodeId → NodeId) (h : LinkId → LinkId) (l : Link) : Link :=
  { l with id := h l.id, origin := f l.origin, target := f l.target }

/-- After the same links were loaded into a graph and into a larger one. -/
structure LinkLoad.Linked (f : NodeId → NodeId) (h : LinkId → LinkId) (old : Assoc LinkId Link)
    (load load' : LinkLoad B) : Prop where
  links : Assoc.Union h (fun k l l' => l.id = k ∧ l.origin ∈ load.graph.nodes.keys ∧
    l.target ∈ load.graph.nodes.keys ∧ l' = l.rename f h) old load.graph.links load'.graph.links
  table : ∀ r, load'.table.get? r = (load.table.get? r).map h
  known : ∀ r k, load.table.get? r = some k → k ∈ load.graph.links.keys

namespace LinkLoad.Linked

variable {f : NodeId → NodeId} {h : LinkId → LinkId} {old : Assoc LinkId Link}
  {load load' : LinkLoad B} {nodes nodes' : Renaming NodeId}

section Added

variable {next next' : LinkLoad B} {recorded k k' : LinkId} {l : Link}

/-- A link that is left out on both sides. -/
theorem skip (hl : Linked f h old load load') (hn : next.graph = load.graph ∧ next.table = load.table)
    (hn' : next'.graph = load'.graph ∧ next'.table = load'.table) : Linked f h old next next' := by
  obtain ⟨hgraph, htable⟩ := hn
  obtain ⟨hgraph', htable'⟩ := hn'
  refine ⟨?_, fun i => ?_, fun i j hj => ?_⟩
  · rw [hgraph, hgraph']
    exact hl.links
  · rw [htable, htable']
    exact hl.table i
  · rw [hgraph]
    rw [htable] at hj
    exact hl.known i j hj

/-- A recorded link that is met again takes the place of the one that it was. -/
theorem again (hl : Linked f h old load load') (hr : load.table.get? recorded = some k)
    (hid : l.id = k) (horigin : l.origin ∈ load.graph.nodes.keys)
    (htarget : l.target ∈ load.graph.nodes.keys) (hnodes : next.graph.nodes = load.graph.nodes)
    (hlinks : next.graph.links = load.graph.links.insert k l)
    (htable : next.table = load.table.insert recorded k)
    (hlinks' : next'.graph.links = load'.graph.links.insert (h k) (l.rename f h))
    (htable' : next'.table = load'.table.insert recorded (h k)) : Linked f h old next next' := by
  have hk := hl.known _ k hr
  refine ⟨?_, fun i => ?_, fun i j hj => ?_⟩
  · rw [hlinks, hlinks', hnodes]
    exact hl.links.insert_known hk ⟨hid, horigin, htarget, rfl⟩
  · rw [htable, htable', Assoc.get?_insert, Assoc.get?_insert, hl.table]
    split <;> rfl
  · rw [hlinks, Assoc.keys_insert, if_pos hk]
    rw [htable, Assoc.get?_insert] at hj
    split at hj
    · cases hj
      exact hk
    · exact hl.known i j hj

/-- A recorded link that is met for the first time comes last, under identities that were free. -/
theorem first (hl : Linked f h old load load') (hfresh : k ∉ load.graph.links.keys)
    (hfresh' : k' ∉ load'.graph.links.keys) (hid : l.id = k)
    (horigin : l.origin ∈ load.graph.nodes.keys) (htarget : l.target ∈ load.graph.nodes.keys)
    (hnodes : next.graph.nodes = load.graph.nodes)
    (hlinks : next.graph.links = load.graph.links.insert k l)
    (htable : next.table = load.table.insert recorded k)
    (hlinks' : next'.graph.links = load'.graph.links.insert k'
      { l with id := k', origin := f l.origin, target := f l.target })
    (htable' : next'.table = load'.table.insert recorded k') :
    Linked f (Function.update h k k') old next next' := by
  have hold : ∀ i ∈ load.graph.links.keys, Function.update h k k' i = h i := fun i hi =>
    Function.update_of_ne (ne_of_mem_of_not_mem hi hfresh) k' h
  refine ⟨?_, fun i => ?_, fun i j hj => ?_⟩
  · rw [hlinks, hlinks', hnodes]
    refine hl.links.insert_new hfresh hfresh' ⟨hid, horigin, htarget, ?_⟩ ?_
    · unfold Link.rename
      rw [hid, Function.update_self]
    · rintro i l l' hi ⟨hid, horigin, htarget, rfl⟩
      refine ⟨hid, horigin, htarget, ?_⟩
      unfold Link.rename
      rw [hold l.id (hid ▸ hi)]
  · rw [htable, htable', Assoc.get?_insert, Assoc.get?_insert, hl.table]
    split
    · rw [Option.map_some, Function.update_self]
    · apply Option.map_congr
      intro j hj
      exact (hold j (hl.known i j hj)).symm
  · rw [hlinks, Assoc.keys_insert, if_neg hfresh]
    rw [htable, Assoc.get?_insert] at hj
    split at hj
    · cases hj
      exact List.mem_append_right _ (List.mem_singleton.2 rfl)
    · exact List.mem_append_left _ (hl.known i j hj)

end Added

/-- One more link on both sides. -/
theorem add (hl : Linked f h old load load') (ht : ∀ r, nodes'.get? r = (nodes.get? r).map f)
    (hk : ∀ r id, nodes.get? r = some id → id ∈ load.graph.nodes.keys) (r : LinkRecord) :
    ∃ h', Linked f h' old (LinkLoad.add nodes load r) (LinkLoad.add nodes' load' r) := by
  have hmissing : ∀ i, nodes.get? i = none → nodes'.get? i = none := by
    intro i hi
    rw [ht, hi, Option.map_none]
  have hfound : ∀ {i id}, nodes.get? i = some id → nodes'.get? i = some (f id) := by
    intro i id hi
    rw [ht, hi, Option.map_some]
  cases ho : nodes.get? r.origin with
  | none =>
    exact ⟨h, hl.skip (add_of_missing load (.inl ho)) (add_of_missing load' (.inl (hmissing _ ho)))⟩
  | some origin =>
  cases hg : nodes.get? r.target with
  | none =>
    exact ⟨h, hl.skip (add_of_missing load (.inr hg)) (add_of_missing load' (.inr (hmissing _ hg)))⟩
  | some target =>
  obtain ⟨hn, hlinks, htable⟩ := add_of_known load ho hg
  obtain ⟨-, hlinks', htable'⟩ := add_of_known load' (hfound ho) (hfound hg)
  cases hr : load.table.get? r.id with
  | some k =>
    have hr' : load'.table.get? r.id = some (h k) := by rw [hl.table, hr, Option.map_some]
    rw [claim_known hr] at hlinks htable
    rw [claim_known hr'] at hlinks' htable'
    exact ⟨h, hl.again hr rfl (hk _ _ ho) (hk _ _ hg) hn hlinks htable hlinks' htable'⟩
  | none =>
    have hr' : load'.table.get? r.id = none := by rw [hl.table, hr, Option.map_none]
    exact ⟨_, hl.first (claim_fresh hr) (claim_fresh hr') rfl (hk _ _ ho) (hk _ _ hg) hn hlinks htable
      hlinks' htable'⟩

/-- All links of a snapshot on both sides. -/
theorem addAll (hl : Linked f h old load load') (ht : ∀ r, nodes'.get? r = (nodes.get? r).map f)
    (hk : ∀ r id, nodes.get? r = some id → id ∈ load.graph.nodes.keys) (records : List LinkRecord) :
    ∃ h', Linked f h' old (records.foldl (LinkLoad.add nodes) load)
        (records.foldl (LinkLoad.add nodes') load') ∧
      (records.foldl (LinkLoad.add nodes) load).graph.nodes = load.graph.nodes ∧
      (records.foldl (LinkLoad.add nodes') load').graph.nodes = load'.graph.nodes := by
  induction records generalizing h load load' with
  | nil => exact ⟨h, hl, rfl, rfl⟩
  | cons r records ih =>
    have hn := load.nodes_add nodes r
    have hn' := load'.nodes_add nodes' r
    obtain ⟨h₁, hl₁⟩ := hl.add ht hk r
    obtain ⟨h₂, hl₂, hm, hm'⟩ := ih hl₁ (hn.symm ▸ hk)
    exact ⟨h₂, hl₂, hm.trans hn, hm'.trans hn'⟩

end LinkLoad.Linked

/-! ## Nodes that take over their records -/

/-- The node with its links renamed. -/
def Node.rename (h : LinkId → LinkId) (n : Node B) : Node B := n.relink fun _ _ k => some (h k)

/-- A node, which names links of some set only, and the same node with these links renamed, under
another identity. -/
structure Node.Copied {K : Type} (kind : B → K) (D : LinkId → Prop) (h : LinkId → LinkId)
    (id : NodeId) (n n' : Node B) : Prop where
  names : ∀ d slot k, n.Names d slot k → D k
  same : ∃ order behavior, behavior.map kind = n.behavior.map kind ∧
    n' = { n.rename h with id := some id, order, behavior }

namespace Node

variable {K : Type} {kind : B → K} {D : LinkId → Prop} {h : LinkId → LinkId} {id : NodeId}
  {n n' : Node B}

/-- Maps that treat a link and its copy alike keep the one node a copy of the other. -/
theorem Copied.relink (hn : n.Copied kind D h id n') {f f' : Direction → Nat → LinkId → Option LinkId}
    (hf : ∀ d slot k, n.Names d slot k → f' d slot (h k) = (f d slot k).map h)
    (hD : ∀ d slot k i, f d slot k = some i → D i) : (n.relink f).Copied kind D h id (n'.relink f') where
  names d slot k hk := by
    obtain ⟨i, -, hi⟩ := names_relink.1 hk
    exact hD d slot i k hi
  same := by
    obtain ⟨order, behavior, hk, rfl⟩ := hn.same
    refine ⟨order, behavior, hk, ?_⟩
    show ({ (n.rename h).relink f' with id := some id, order, behavior } : Node B) = _
    have he : (n.rename h).relink f' = (n.relink f).rename h := by
      unfold rename
      rw [relink_relink, relink_relink]
      apply relink_congr
      intro d slot k hk
      show f' d slot (h k) = (f d slot k).bind fun i => some (h i)
      rw [hf d slot k hk]
      cases f d slot k <;> rfl
    rw [he]

/-- What behaviours remember does not matter as long as they are of the same kind. -/
theorem Copied.behave (hn : n.Copied kind D h id n') {b b' : Option B}
    (hb : b.map kind = n.behavior.map kind) (hb' : b'.map kind = n'.behavior.map kind) :
    ({ n with behavior := b } : Node B).Copied kind D h id { n' with behavior := b' } where
  names d slot k hk := by
    apply hn.names d slot k
    cases d <;> exact hk
  same := by
    obtain ⟨order, behavior, hk, rfl⟩ := hn.same
    exact ⟨order, b', (hb'.trans hk).trans hb.symm, rfl⟩

section Docile

variable [Behavior B σ] {run : Runner B σ} {tame : K → Prop} (hd : Docile run kind tame)
include hd

/-- All properties on offer are written. -/
theorem offerProperties_docile {n : Node B} {b : B} (hb : n.behavior = some b) (hg : tame (kind b))
    (ps : List (String × Value)) : ∃ b', kind b' = kind b ∧ (n.offerProperties ps).1 =
      { n with properties := n.properties.insertAll ps, behavior := some b' } := by
  induction ps generalizing n b with
  | nil => exact ⟨b, rfl, by rw [← hb]; rfl⟩
  | cons e ps ih =>
    have htold := hd.told b (.propertyOffered e.1 e.2)
    have he : (n.offerProperty e.1 e.2).1 = { n with
        properties := n.properties.insert e.1 e.2
        behavior := some (Kind.told b (.propertyOffered e.1 e.2)) } := by
      unfold offerProperty tell
      rw [hb]
      simp only [Option.any_some, hd.yields b e.1 e.2 hg]
      rfl
    obtain ⟨b', hb', hps⟩ := ih (n := (n.offerProperty e.1 e.2).1) (by rw [he]) (htold ▸ hg)
    refine ⟨b', hb'.trans htold, ?_⟩
    show ((n.offerProperty e.1 e.2).1.offerProperties ps).1 = _
    rw [hps, he]
    rfl

/-- A record makes the same of the same node under another identity. -/
theorem applyRecord_twin {n n' : Node B} (hn : n.Twin kind tame id n') (r : NodeRecord) :
    ∃ behavior, behavior.map kind = (n.applyRecord r).1.behavior.map kind ∧
      (n'.applyRecord r).1 = { (n.applyRecord r).1 with id := some id, behavior } := by
  obtain ⟨b, b', hg, hk, hb, rfl⟩ := hn
  obtain ⟨c, hkc, hc⟩ := offerProperties_docile hd hb hg r.properties.entries
  obtain ⟨c', hkc', hc'⟩ := offerProperties_docile hd
    (n := { n with id := some id, behavior := some b' }) rfl (hk ▸ hg) r.properties.entries
  refine ⟨some c', ?_, ?_⟩
  · show _ = (n.offerProperties r.properties.entries).1.behavior.map kind
    rw [hc, Option.map_some, Option.map_some, hkc, hkc', hk]
  · unfold applyRecord
    simp only [hc, hc']
    rfl

/-- A node that takes over a record becomes a copy of one that takes over the same record. -/
theorem copied_applyRecord {n n' : Node B} (hn : n.Twin kind tame id n') (r : NodeRecord)
    {table table' : Renaming LinkId} (ht : ∀ k, table'.get? k = (table.get? k).map h)
    (hD : ∀ k i, table.get? k = some i → D i) :
    ((n.applyRecord r).1.relink fun _ _ k => table.get? k).Copied kind D h id
      ((n'.applyRecord r).1.relink fun _ _ k => table'.get? k) where
  names d slot k hk := by
    obtain ⟨i, -, hi⟩ := names_relink.1 hk
    exact hD i k hi
  same := by
    obtain ⟨behavior, hk, he⟩ := applyRecord_twin hd hn r
    rw [he]
    refine ⟨(n.applyRecord r).1.order, behavior, hk, ?_⟩
    have hr : ((n.applyRecord r).1.relink fun _ _ k => table'.get? k) =
        ((n.applyRecord r).1.relink fun _ _ k => table.get? k).rename h := by
      unfold rename
      rw [relink_relink]
      apply relink_congr
      intro d slot k _
      rw [ht]
      cases table.get? k <;> rfl
    exact congrArg (fun m : Node B => { m with id := some id, behavior }) hr

end Docile

end Node

/-! ## All records -/

namespace Graph

variable [Kind B]

/-- The graph after some nodes took over their records, with links renamed by a table. -/
def adopted (g : Graph B) (table : Renaming LinkId) (placed : List (NodeId × NodeRecord)) : Graph B :=
  placed.foldl (fun g e => g.modifyNode e.1 fun n =>
    (n.applyRecord e.2).1.relink fun _ _ k => table.get? k) g

theorem keys_adopted (table : Renaming LinkId) (placed : List (NodeId × NodeRecord)) (g : Graph B) :
    (g.adopted table placed).nodes.keys = g.nodes.keys ∧ (g.adopted table placed).links = g.links := by
  induction placed generalizing g with
  | nil => exact ⟨rfl, rfl⟩
  | cons e placed ih =>
    obtain ⟨hk, hl⟩ := ih (g.modifyNode e.1 _)
    exact ⟨hk.trans (Assoc.keys_modify ..), hl⟩

end Graph

namespace Session

variable [Kind B]

theorem graph_adopt (s : Session B σ) (table : Renaming LinkId) (id : NodeId) (r : NodeRecord) :
    (s.adopt table id r).2.graph = s.graph.modifyNode id fun n =>
      (n.applyRecord r).1.relink fun _ _ k => table.get? k := by
  unfold adopt
  cases hn : s.graph.nodes.get? id with
  | none =>
    show s.graph = _
    unfold Graph.modifyNode
    rw [Assoc.modify_eq_self fun v hv => by rw [hn] at hv; cases hv]
  | some n =>
    have hm : (s.graph.nodes.modify id fun _ => (n.applyRecord r).1.relink fun _ _ k => table.get? k) =
        s.graph.nodes.modify id fun n => (n.applyRecord r).1.relink fun _ _ k => table.get? k := by
      apply Assoc.modify_congr
      intro v hv
      cases Option.some.inj (hv.symm.trans hn)
      rfl
    exact congrArg (fun nodes => ({ s.graph with nodes } : Graph B)) hm

theorem graph_adopts (table : Renaming LinkId) (placed : List (NodeId × NodeRecord)) (lost : Bool)
    (s : Session B σ) :
    (placed.foldl (fun (lost, s) (id, r) =>
      let (l, s) := s.adopt table id r
      (lost || l, s)) (lost, s)).2.graph = s.graph.adopted table placed := by
  induction placed generalizing lost s with
  | nil => rfl
  | cons e placed ih =>
    refine (ih _ (s.adopt table e.1 e.2).2).trans ?_
    rw [graph_adopt]
    rfl

end Session

theorem Graph.copied_adopted [Behavior B σ] {run : Runner B σ} {K : Type}
    {kind : B → K} {tame : K → Prop} (hd : Docile run kind tame) {f : NodeId → NodeId}
    {h : LinkId → LinkId} {D : LinkId → Prop}
    {table table' : Renaming LinkId} (ht : ∀ k, table'.get? k = (table.get? k).map h)
    (hD : ∀ k i, table.get? k = some i → D i) {old : Assoc NodeId (Node B)}
    {placed : List (NodeId × NodeRecord)} (hp : (placed.map Prod.fst).Nodup) {g g' : Graph B}
    (hmem : ∀ id ∈ placed.map Prod.fst, id ∈ g.nodes.keys)
    (hn : Assoc.Union f (fun id n n' => if id ∈ placed.map Prod.fst then n.Twin kind tame (f id) n'
      else n.Copied kind D h (f id) n') old g.nodes g'.nodes) :
    Assoc.Union f (fun id n n' => n.Copied kind D h (f id) n') old (g.adopted table placed).nodes
      (g'.adopted table' (placed.map fun e => (f e.1, e.2))).nodes := by
  induction placed generalizing g g' with
  | nil => exact hn.imp fun id n n' _ hc => by simpa using hc
  | cons e placed ih =>
    obtain ⟨id, r⟩ := e
    rw [List.map_cons, List.nodup_cons] at hp
    simp only [List.map_cons] at hn
    have hid : id ∈ g.nodes.keys := hmem id (List.mem_cons_self ..)
    refine ih hp.2 (g := g.modifyNode id _) (fun i hi => ?_) ?_
    · show i ∈ (g.nodes.modify id _).keys
      rw [Assoc.keys_modify]
      exact hmem i (List.mem_cons_of_mem id hi)
    · show Assoc.Union f _ old
        (g.nodes.modify id fun n => (n.applyRecord r).1.relink fun _ _ k => table.get? k)
        (g'.nodes.modify (f id) fun n => (n.applyRecord r).1.relink fun _ _ k => table'.get? k)
      refine hn.modify hid (fun n n' _ hc => ?_) fun i n n' hne hc => ?_
      · rw [if_pos (List.mem_cons_self ..)] at hc
        rw [if_neg hp.1]
        exact Node.copied_applyRecord hd hc r ht hD
      · have hi : i ∈ id :: placed.map Prod.fst ↔ i ∈ placed.map Prod.fst := by
          rw [List.mem_cons, or_iff_right hne]
        simpa only [hi] using hc

end Dataflow
