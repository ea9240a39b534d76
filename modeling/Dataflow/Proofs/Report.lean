/-
  What a load reports, and what it did.

  Records are lost in four places: there may be no room for a node, a link may name a node that was
  not loaded, it may have to give way to a later record of the same identity, and the repair drops
  the links that cannot stand.  Phase by phase the losses are counted (`Placing.Tells`,
  `LinkLoad.Tells`, `Repair.Tells`), and `Engine.load_reports` adds them up.

  The report does not tell everything.  A link that was lost before it was loaded is listed under
  the identity in its record, one that the repair dropped under the identity that it had been given.
  So beside the graph that was there, a link can be listed that the snapshot does not have
  (`renamedLink_listed`).  And a record that gives way to a later one of the same identity is not
  mentioned at all (`repeated`).
-/

import Dataflow.Proofs.Pruning

namespace Dataflow

variable {B σ : Type}

/-! ## Losses among nodes -/

/-- The node that was loaded from the first record of an identity for whose node there was room. -/
def landed (placed : List (NodeId × NodeRecord)) (i : NodeId) : Option NodeId :=
  (placed.find? fun e => decide (e.2.id = some i)).map Prod.fst

/-- A node has the identity in its record, unless the record has none or an older node has it. -/
def Asked (old : NodeId → Prop) (placed : List (NodeId × NodeRecord)) : Prop :=
  ∀ before id r after, placed = before ++ (id, r) :: after →
    ∀ i, r.id = some i → ¬old i → i ∉ before.map Prod.fst → id = i

theorem Asked.append {old : NodeId → Prop} {placed : List (NodeId × NodeRecord)} (h : Asked old placed)
    {id : NodeId} {r : NodeRecord}
    (hid : ∀ i, r.id = some i → ¬old i → i ∉ placed.map Prod.fst → id = i) :
    Asked old (placed ++ [(id, r)]) := by
  intro before id' r' after hsplit
  rcases List.eq_nil_or_concat after with rfl | ⟨after', e, rfl⟩
  · obtain ⟨rfl, he⟩ := List.append_inj' hsplit rfl
    cases he
    exact hid
  · rw [List.concat_eq_append, ← List.cons_append, ← List.append_assoc] at hsplit
    exact h before id' r' after' (List.append_inj' hsplit rfl).1

/-- If the records have identities, no two the same, and no older nodes are there, all nodes have
the identities in their records. -/
theorem Asked.own {old : NodeId → Prop} (hold : ∀ i, ¬old i) {placed : List (NodeId × NodeRecord)}
    (h : Asked old placed) (hids : ∀ e ∈ placed, e.2.id.isSome) (hn : (placed.map fun e => e.2.id).Nodup) :
    ∀ e ∈ placed, e.2.id = some e.1 := by
  induction placed using List.reverseRecOn with
  | nil => exact fun e he => nomatch he
  | append_singleton placed e ih =>
    rw [List.map_append, List.nodup_append] at hn
    have hfirst : ∀ e ∈ placed, e.2.id = some e.1 := by
      refine ih (fun before id r after hsplit => ?_)
        (fun e he => hids e (List.mem_append_left _ he)) hn.1
      exact h before id r (after ++ [_]) (by rw [hsplit, List.append_assoc]; rfl)
    intro e' he'
    rcases List.mem_append.1 he' with he' | he'
    · exact hfirst e' he'
    · rw [List.mem_singleton.1 he']
      obtain ⟨i, hi⟩ := Option.isSome_iff_exists.1 (hids e (List.mem_append_right _ (List.mem_singleton_self e)))
      -- an older node with that identity would have it from its own record
      have hfree : i ∉ placed.map Prod.fst := by
        rintro hmem
        obtain ⟨e₀, he₀, rfl⟩ := List.mem_map.1 hmem
        exact hn.2.2 _ (List.mem_map_of_mem he₀) _ (List.mem_singleton_self _)
          ((hfirst e₀ he₀).trans hi.symm)
      rw [h placed e.1 e.2 [] rfl i hi (hold i) hfree]
      exact hi

/-- A graph whose nodes are all in another one, with the same pins. -/
theorem Graph.Retains.of_pins {g g' : Graph B} (h : ∀ id n, g.nodes.get? id = some n →
    ∃ n', g'.nodes.get? id = some n' ∧ n'.pins = n.pins) : g'.Retains g where
  inputs id slot k hk := by
    obtain ⟨s, hs, hk⟩ := hk
    obtain ⟨n, hn, hs⟩ := Graph.node_of_input hs
    obtain ⟨n', hn', hp⟩ := h id n hn
    exact Graph.holds_of_names hn' (Node.names_of_pins hp.symm (d := .input) ⟨s, hs, hk⟩)
  outputs id slot k hk := by
    obtain ⟨s, hs, hk⟩ := hk
    obtain ⟨n, hn, hs⟩ := Graph.node_of_output hs
    obtain ⟨n', hn', hp⟩ := h id n hn
    exact Graph.lists_of_names hn' (Node.names_of_pins hp.symm (d := .output) ⟨s, hs, hk⟩)

namespace Engine.Placing

/-- Records of nodes were loaded beside the nodes and links of a graph, under identities that were
free; the report says whether any were left out. -/
structure Tells (old : Graph B) (records : List NodeRecord) (p : Placing) (h : Graph B) : Prop where
  keys : h.nodes.keys = old.nodes.keys ++ p.placed.map Prod.fst
  nodes : ∀ id n, old.nodes.get? id = some n → ∃ n', h.nodes.get? id = some n' ∧ n'.pins = n.pins
  links : h.links.keys = old.links.keys
  ends : ∀ k l, h.links.get? k = some l → ∃ l', old.links.get? k = some l' ∧ l'.ends = l.ends
  placed : (p.placed.map Prod.snd).Sublist records
  table : ∀ i, p.nodes.get? i = landed p.placed i
  asked : Asked (· ∈ old.nodes.keys) p.placed
  clean : p.report.hadErrors = false → p.placed.map Prod.snd = records
  pruned : p.report.prunedLinks = []

theorem landed_append (placed : List (NodeId × NodeRecord)) (id : NodeId) (r : NodeRecord) (i : NodeId) :
    landed (placed ++ [(id, r)]) i = (landed placed i).or (if r.id = some i then some id else none) := by
  unfold landed
  rw [List.find?_append, Option.map_or]
  congr 1
  rw [List.find?_singleton]
  split
  · next h => rw [if_pos (of_decide_eq_true h)]; rfl
  · next h => rw [if_neg (of_decide_eq_false (Bool.eq_false_iff.2 h))]; rfl

/-- The table has for an identity the first node that was loaded for it. -/
theorem landed_note {p : Placing} (h : ∀ i, p.nodes.get? i = landed p.placed i) (missing : List String)
    (r : NodeRecord) (id i : NodeId) :
    (p.note missing r id).nodes.get? i = landed (p.note missing r id).placed i := by
  show _ = landed (p.placed ++ [(id, r)]) i
  rw [landed_append, ← h]
  exact p.get?_note ..

namespace Tells

variable {old h h' : Graph B} {records : List NodeRecord} {p : Placing}

theorem start {old h : Graph B} (hw : h.wiring = old.wiring) : Tells old [] ⟨.clean, [], ∅⟩ h where
  keys := (Graph.keys_nodes_of_wiring hw).trans (List.append_nil _).symm
  nodes _ _ hn := Graph.node_of_wiring hw.symm hn
  links := Graph.keys_links_of_wiring hw
  ends _ _ hl := Graph.link_of_wiring hw hl
  placed := .refl _
  table _ := rfl
  asked _ _ _ _ hsplit := by simp at hsplit
  clean _ := rfl
  pruned := rfl

/-- A record for whose node there was room. -/
theorem note (ht : Tells old records p h) {n : Node B} {r : NodeRecord} (hn : n.id = r.id)
    (hw : h'.wiring = (placing h n).wiring) (missing : List String) :
    Tells old (records ++ [r]) (p.note missing r (h.claimNode r.id).1) h' := by
  have hfresh := h.claimNode_fresh r.id
  have hasked : ∀ i, r.id = some i → i ∉ h.nodes.keys → (h.claimNode r.id).1 = i := by
    intro i hi hfree
    rw [hi, Graph.claimNode_absent hfree]
  unfold placing at hw
  rw [hn] at hw
  -- only this matters: the identity was free, and it is the one asked for if that was free
  generalize (h.claimNode r.id).1 = id at hw hfresh hasked ⊢
  have hold : ∀ i, i ∈ old.nodes.keys ∨ i ∈ p.placed.map Prod.fst ↔ i ∈ h.nodes.keys := by
    intro i
    rw [ht.keys, List.mem_append]
  constructor
  case keys =>
    show _ = old.nodes.keys ++ (p.placed ++ [(id, r)]).map Prod.fst
    rw [Graph.keys_nodes_of_wiring hw, Graph.keys_place hfresh, ht.keys, List.append_assoc,
      List.map_append]
    rfl
  case nodes =>
    intro i m hm
    obtain ⟨m', hm', hpins⟩ := ht.nodes i m hm
    have hne : i ≠ id := by
      rintro rfl
      exact hfresh (Assoc.mem_keys_of_get? hm')
    have hplaced : (h.place n id (h.claimNode r.id).2).nodes.get? i = some m' := by
      rw [Graph.get?_place, if_neg hne]
      exact hm'
    obtain ⟨m'', hm'', hpins'⟩ := Graph.node_of_wiring hw.symm hplaced
    exact ⟨m'', hm'', hpins'.trans hpins⟩
  case links =>
    rw [Graph.keys_links_of_wiring hw, Graph.place_snapped]
    exact ht.links
  case ends =>
    intro k l hl
    obtain ⟨l', hl', he'⟩ := Graph.link_of_wiring hw hl
    rw [Graph.place_snapped] at hl'
    obtain ⟨l'', hl'', he''⟩ := ht.ends k l' hl'
    exact ⟨l'', hl'', he''.trans he'⟩
  case placed =>
    show (List.map Prod.snd (p.placed ++ [(id, r)])).Sublist _
    rw [List.map_append]
    exact ht.placed.append (.refl _)
  case table => exact landed_note ht.table missing r id
  case asked =>
    refine ht.asked.append fun i hi hnew hfree => hasked i hi ?_
    rw [← hold, not_or]
    exact ⟨hnew, hfree⟩
  case clean =>
    intro hclean
    show List.map Prod.snd (p.placed ++ [(id, r)]) = _
    rw [List.map_append, ht.clean (Bool.or_eq_false_iff.1 hclean).1]
    rfl
  case pruned => exact ht.pruned

/-- A record for whose node there was none. -/
theorem skip (ht : Tells old records p h) (r : NodeRecord) (missing : List String) :
    Tells old (records ++ [r]) (p.skip missing) h :=
  ⟨ht.keys, ht.nodes, ht.links, ht.ends, ht.placed.trans (List.sublist_append_left ..), ht.table,
    ht.asked, fun hclean => Bool.noConfusion hclean, ht.pruned⟩

end Tells

end Engine.Placing

/-- The nodes of a snapshot are added. -/
theorem Engine.placeAll_tells [Behavior B σ] {run : Runner B σ} (hrun : AddsQuietly run)
    {old : Graph B} {records rest : List NodeRecord} {p : Placing} {s : Session B σ}
    (ht : p.Tells old records s.graph) :
    Ensures (placeAll run rest p) s fun p s' => p.Tells old (records ++ rest) s'.graph := by
  induction rest generalizing records p s with
  | nil =>
    rw [List.append_nil]
    exact Ensures.pure ht
  | cons r rest ih =>
    rw [← List.singleton_append, ← List.append_assoc]
    apply placeAll_step
    let made : Node B := { (madeOf s.graph.registry r).1 with id := r.id }
    have haloof : Aloof fun h : Graph B =>
        h.wiring = (placing s.graph made).wiring ∧ h.settings = (placing s.graph made).settings := by
      refine fun h i b hh => ⟨Eq.trans ?_ hh.1, hh.2⟩
      exact Graph.wiring_modifyNode fun _ _ => rfl
    refine (insertNode_spec haloof false ⟨rfl, rfl⟩ fun b _ => hrun b _ _ _).mono ?_
    rintro answer s' (⟨-, ⟨e, he⟩, rfl⟩ | ⟨-, hok, t, ⟨hw, -⟩, hs'⟩)
    · refine ⟨fun id hid => ?_, fun _ _ => ih (ht.skip r _)⟩
      rw [he] at hid
      cases hid
    · refine ⟨fun id hid => ?_, fun e he => ?_⟩
      · rw [hok] at hid
        cases hid
        refine ih (ht.note (n := made) rfl ?_ _)
        rw [hs']
        exact hw
      · rw [hok] at he
        cases he

/-! ## Losses among links -/

/-- The link that a record describes, between the nodes that were loaded for its ends. -/
def LinkRecord.linkAt (find : NodeId → Option NodeId) (r : LinkRecord) (k : LinkId) : Option Link :=
  (find r.origin).bind fun origin => (find r.target).map fun target =>
    { r.toLink with id := k, origin, target }

/-- Whether both nodes that a record names were loaded. -/
def LinkRecord.reaches (find : NodeId → Option NodeId) (r : LinkRecord) : Bool :=
  (find r.origin).isSome && (find r.target).isSome

theorem LinkRecord.reaches_iff {find : NodeId → Option NodeId} {r : LinkRecord} (k : LinkId) :
    r.reaches find = true ↔ ∃ l, r.linkAt find k = some l := by
  unfold reaches linkAt
  cases find r.origin <;> cases find r.target <;> simp

/-- The record that counts for an identity: of those whose nodes were loaded, the last one. -/
def LinkRecord.counting (find : NodeId → Option NodeId) (records : List LinkRecord) (i : LinkId) :
    Option LinkRecord :=
  records.reverse.find? fun r => decide (r.id = i) && r.reaches find

/-- A link is in the graph for a record, and joins the nodes that were loaded for its ends. -/
def Graph.Represents (g : Graph B) (find : NodeId → Option NodeId) (names : Renaming LinkId)
    (r : LinkRecord) : Prop :=
  ∃ k l, names.get? r.id = some k ∧ r.linkAt find k = some l ∧ g.links.get? k = some l

namespace LinkRecord

variable {find : NodeId → Option NodeId} {records : List LinkRecord} {r : LinkRecord} {i : LinkId}

theorem counting_append (find : NodeId → Option NodeId) (records : List LinkRecord) (r : LinkRecord)
    (i : LinkId) : counting find (records ++ [r]) i =
      if r.id = i ∧ r.reaches find = true then some r else counting find records i := by
  unfold counting
  rw [List.reverse_append, List.reverse_singleton, List.singleton_append, List.find?_cons]
  by_cases h : r.id = i ∧ r.reaches find = true
  · rw [if_pos h, decide_eq_true h.1, h.2]
    rfl
  · rw [if_neg h]
    have hp : (decide (r.id = i) && r.reaches find) = false := by
      rw [Bool.and_eq_false_iff, decide_eq_false_iff_not, ← Bool.not_eq_true]
      exact not_and_or.1 h
    rw [hp]

theorem counting_spec (h : counting find records i = some r) :
    r ∈ records ∧ r.id = i ∧ r.reaches find = true := by
  have hp := List.find?_some h
  rw [Bool.and_eq_true, decide_eq_true_iff] at hp
  exact ⟨List.mem_reverse.1 (List.mem_of_find?_eq_some h), hp⟩

/-- Some record counts for the identity of every record whose nodes were loaded. -/
theorem counting_isSome (h : r ∈ records) (hr : r.reaches find = true) :
    ∃ r', counting find records r.id = some r' := by
  apply Option.isSome_iff_exists.1
  unfold counting
  rw [List.find?_isSome]
  exact ⟨r, List.mem_reverse.2 h, by rw [hr, decide_eq_true rfl]; rfl⟩

/-- If no identity is repeated, every record whose nodes were loaded counts. -/
theorem counting_of_nodup (hn : (records.map id).Nodup) (h : r ∈ records)
    (hr : r.reaches find = true) : counting find records r.id = some r := by
  obtain ⟨r', hr'⟩ := counting_isSome h hr
  obtain ⟨hmem, hid, -⟩ := counting_spec hr'
  rw [hr', List.inj_on_of_nodup_map hn hmem h hid]

end LinkRecord

namespace LinkLoad

theorem add_of_unreached {nodes : Renaming NodeId} (load : LinkLoad B) {r : LinkRecord}
    (h : r.reaches nodes.get? = false) :
    add nodes load r = { load with pruned := load.pruned ++ [r.id] } := by
  unfold LinkRecord.reaches at h
  unfold add
  cases ho : nodes.get? r.origin with
  | none => rfl
  | some o =>
    cases ht : nodes.get? r.target with
    | none => rfl
    | some t =>
      rw [ho, ht] at h
      cases h

/-- A recorded link that is met for the first time keeps its identity if that is free. -/
theorem claim_absent {load : LinkLoad B} {recorded : LinkId} (h : load.table.get? recorded = none)
    (hk : recorded ∉ load.graph.links.keys) : (load.claim recorded).1 = recorded := by
  unfold claim
  rw [h]
  show (if load.graph.links.contains recorded = true then _ else _ : LinkId × Nat).1 = recorded
  rw [if_neg fun hc => hk ((Assoc.contains_iff ..).1 hc)]

/-- One link more: a record was loaded, and has got an identity. -/
structure Takes (load load' : LinkLoad B) (recorded k : LinkId) (l : Link) : Prop where
  nodes : load'.graph.nodes = load.graph.nodes
  named : load'.table.get? recorded = some k
  others : ∀ i, i ≠ recorded → load'.table.get? i = load.table.get? i
  link : load'.graph.links.get? k = some l
  kept : ∀ i, i ≠ k → load'.graph.links.get? i = load.graph.links.get? i
  pruned : load'.pruned = load.pruned

theorem add_takes {nodes : Renaming NodeId} (load : LinkLoad B) {r : LinkRecord} {l : Link}
    (hl : r.linkAt nodes.get? (load.claim r.id).1 = some l) :
    load.Takes (load.add nodes r) r.id (load.claim r.id).1 l := by
  obtain ⟨origin, ho, hl⟩ := Option.bind_eq_some_iff.1 hl
  obtain ⟨target, ht, rfl⟩ := Option.map_eq_some_iff.1 hl
  obtain ⟨hnodes, hlinks, htable⟩ := load.add_of_known ho ht
  refine ⟨hnodes, ?named, fun i hi => ?others, ?link, fun i hi => ?kept, ?pruned⟩
  case named =>
    rw [htable, Assoc.get?_insert_self]
  case others =>
    rw [htable, Assoc.get?_insert_of_ne _ _ hi]
  case link =>
    rw [hlinks, Assoc.get?_insert_self]
  case kept =>
    rw [hlinks, Assoc.get?_insert_of_ne _ _ hi]
  case pruned =>
    unfold add
    rw [ho, ht]

theorem Takes.lookup {load load' : LinkLoad B} {recorded k : LinkId} {l : Link}
    (h : load.Takes load' recorded k l) {i i' : LinkId} (hi : load'.table.get? i = some i') :
    (i = recorded ∧ i' = k) ∨ (i ≠ recorded ∧ load.table.get? i = some i') := by
  by_cases he : i = recorded
  · subst he
    exact .inl ⟨rfl, Option.some.inj (hi.symm.trans h.named)⟩
  · exact .inr ⟨he, (h.others i he).symm.trans hi⟩

/-- Records of links were loaded into a graph: those that count are in it, under identities that
were free, and those whose nodes are missing are listed. -/
structure Tells (nodes : Renaming NodeId) (g : Graph B) (records : List LinkRecord)
    (load : LinkLoad B) : Prop where
  kept : load.graph.nodes = g.nodes
  old : ∀ k l, g.links.get? k = some l → load.graph.links.get? k = some l
  new : ∀ k ∈ load.graph.links.keys, k ∈ g.links.keys ∨ ∃ i, load.table.get? i = some k
  fresh : ∀ i k, load.table.get? i = some k → k ∉ g.links.keys
  injective : ∀ i j k, load.table.get? i = some k → load.table.get? j = some k → i = j
  own : g.links.keys = [] → ∀ i k, load.table.get? i = some k → k = i
  counted : ∀ i r, LinkRecord.counting nodes.get? records i = some r →
    ∃ k l, load.table.get? i = some k ∧ r.linkAt nodes.get? k = some l ∧
      load.graph.links.get? k = some l
  known : ∀ i k, load.table.get? i = some k →
    ∃ r, LinkRecord.counting nodes.get? records i = some r
  pruned : ∀ k, k ∈ load.pruned ↔ ∃ r ∈ records, r.reaches nodes.get? = false ∧ k = r.id

namespace Tells

variable {nodes : Renaming NodeId} {g : Graph B} {records : List LinkRecord} {load : LinkLoad B}

theorem start (nodes : Renaming NodeId) (g : Graph B) : Tells nodes g [] ⟨g, ∅, []⟩ where
  kept := rfl
  old _ _ hl := hl
  new _ hk := .inl hk
  fresh _ _ h := nomatch h
  injective _ _ _ h := nomatch h
  own _ _ _ h := nomatch h
  counted _ _ h := nomatch h
  known _ _ h := nomatch h
  pruned _ := ⟨fun h => (nomatch h), fun ⟨_, h, _⟩ => (nomatch h)⟩

/-- What the table knows is in the graph. -/
theorem present (h : Tells nodes g records load) {i k : LinkId} (hk : load.table.get? i = some k) :
    k ∈ load.graph.links.keys := by
  obtain ⟨r, hr⟩ := h.known i k hk
  obtain ⟨k', l, hk', -, hl⟩ := h.counted i r hr
  cases Option.some.inj (hk.symm.trans hk')
  exact Assoc.mem_keys_of_get? hl

/-- A record whose nodes are missing. -/
theorem skip (h : Tells nodes g records load) {r : LinkRecord} (hr : r.reaches nodes.get? = false) :
    Tells nodes g (records ++ [r]) (load.add nodes r) := by
  have hcount : ∀ i, LinkRecord.counting nodes.get? (records ++ [r]) i =
      LinkRecord.counting nodes.get? records i := by
    intro i
    rw [LinkRecord.counting_append, if_neg]
    rw [hr]
    exact fun hc => nomatch hc.2
  rw [add_of_unreached load hr]
  refine ⟨h.kept, h.old, h.new, h.fresh, h.injective, h.own, fun i => ?_, fun i k hk => ?_,
    fun k => ?_⟩
  · rw [hcount]
    exact h.counted i
  · rw [hcount]
    exact h.known i k hk
  · show k ∈ load.pruned ++ [r.id] ↔ _
    simp only [List.mem_append, h.pruned, List.mem_singleton, or_and_right, exists_or]
    refine or_congr_right ⟨?_, ?_⟩
    · rintro rfl
      exact ⟨r, rfl, hr, rfl⟩
    · rintro ⟨r', rfl, -, rfl⟩
      rfl

/-- The identity that a record gets was free, or is the one that an earlier record of its identity
got. -/
theorem claim (h : Tells nodes g records load) (i : LinkId) :
    (load.claim i).1 ∉ g.links.keys ∧
      (∀ j, load.table.get? j = some (load.claim i).1 → j = i) ∧
      (g.links.keys = [] → (load.claim i).1 = i) := by
  cases hk : load.table.get? i with
  | some k =>
    rw [claim_known hk]
    exact ⟨h.fresh i k hk, fun j hj => h.injective j i k hj hk, fun he => h.own he i k hk⟩
  | none =>
    have hfree := claim_fresh hk
    refine ⟨fun hold => ?_, fun j hj => absurd (h.present hj) hfree, fun hempty => ?_⟩
    · obtain ⟨l, hl⟩ := Assoc.mem_keys_iff.1 hold
      exact hfree (Assoc.mem_keys_of_get? (h.old _ l hl))
    · refine claim_absent hk fun hmem => ?_
      rcases h.new i hmem with hold | ⟨j, hj⟩
      · rw [hempty] at hold
        cases hold
      · cases h.own hempty j i hj
        cases hk.symm.trans hj

/-- A record whose nodes were loaded. -/
theorem take (h : Tells nodes g records load) {r : LinkRecord} (hr : r.reaches nodes.get? = true) :
    Tells nodes g (records ++ [r]) (load.add nodes r) := by
  obtain ⟨l, hl⟩ := (LinkRecord.reaches_iff (load.claim r.id).1).1 hr
  have ht := load.add_takes hl
  obtain ⟨hfresh, hother, hown⟩ := h.claim r.id
  have hsame : ∀ k, load.table.get? r.id = some k → k = (load.claim r.id).1 :=
    fun k hk => (claim_known hk).symm
  generalize (load.claim r.id).1 = k at hl ht hfresh hother hown hsame
  have hlast : LinkRecord.counting nodes.get? (records ++ [r]) r.id = some r := by
    rw [LinkRecord.counting_append, if_pos ⟨rfl, hr⟩]
  have hcount : ∀ i, i ≠ r.id → LinkRecord.counting nodes.get? (records ++ [r]) i =
      LinkRecord.counting nodes.get? records i := by
    intro i hi
    rw [LinkRecord.counting_append, if_neg fun hc => hi hc.1.symm]
  -- each fact is shown for the identity in the record, and holds as before for all others
  constructor
  case kept => exact ht.nodes.trans h.kept
  case old =>
    intro i l' hl'
    have hne : i ≠ k := by
      rintro rfl
      exact hfresh (Assoc.mem_keys_of_get? hl')
    exact (ht.kept i hne).trans (h.old i l' hl')
  case new =>
    intro i hi
    by_cases hik : i = k
    · exact .inr ⟨r.id, hik ▸ ht.named⟩
    · rw [← Assoc.get?_isSome, ht.kept i hik, Assoc.get?_isSome] at hi
      refine (h.new i hi).imp_right ?_
      rintro ⟨j, hj⟩
      have hjr : j ≠ r.id := by
        rintro rfl
        exact hik (hsame i hj)
      exact ⟨j, (ht.others j hjr).trans hj⟩
  case fresh =>
    intro i k' hi
    rcases ht.lookup hi with ⟨-, rfl⟩ | ⟨-, hi⟩
    · exact hfresh
    · exact h.fresh i k' hi
  case injective =>
    intro i j k' hi hj
    rcases ht.lookup hi with ⟨hir, rfl⟩ | ⟨-, hi⟩
    · rcases ht.lookup hj with ⟨hjr, -⟩ | ⟨-, hj⟩
      · exact hir.trans hjr.symm
      · exact hir.trans (hother j hj).symm
    · rcases ht.lookup hj with ⟨hjr, rfl⟩ | ⟨-, hj⟩
      · exact (hother i hi).trans hjr.symm
      · exact h.injective i j k' hi hj
  case own =>
    intro hempty i k' hi
    rcases ht.lookup hi with ⟨hir, rfl⟩ | ⟨-, hi⟩
    · exact (hown hempty).trans hir.symm
    · exact h.own hempty i k' hi
  case counted =>
    intro i r' hr'
    by_cases hir : i = r.id
    · subst hir
      cases Option.some.inj (hlast.symm.trans hr')
      exact ⟨k, l, ht.named, hl, ht.link⟩
    · obtain ⟨k', l', hk', hl', hget⟩ := h.counted i r' ((hcount i hir).symm.trans hr')
      have hne : k' ≠ k := by
        rintro rfl
        exact hir (hother i hk')
      exact ⟨k', l', (ht.others i hir).trans hk', hl', (ht.kept k' hne).trans hget⟩
  case known =>
    intro i k' hi
    rcases ht.lookup hi with ⟨rfl, -⟩ | ⟨hir, hi⟩
    · exact ⟨r, hlast⟩
    · rw [hcount i hir]
      exact h.known i k' hi
  case pruned =>
    intro i
    rw [ht.pruned, h.pruned]
    constructor
    · rintro ⟨r', hmem, hr'⟩
      exact ⟨r', List.mem_append_left _ hmem, hr'⟩
    · rintro ⟨r', hmem, hr'⟩
      rcases List.mem_append.1 hmem with hmem | hmem
      · exact ⟨r', hmem, hr'⟩
      · rw [List.mem_singleton.1 hmem, hr] at hr'
        cases hr'.1

theorem addAll (h : Tells nodes g records load) (rest : List LinkRecord) :
    Tells nodes g (records ++ rest) (rest.foldl (LinkLoad.add nodes) load) := by
  induction rest generalizing records load with
  | nil => rwa [List.append_nil]
  | cons r rest ih =>
    rw [← List.singleton_append, ← List.append_assoc]
    cases hr : r.reaches nodes.get? with
    | false => exact ih (h.skip hr)
    | true => exact ih (h.take hr)

end Tells

end LinkLoad

theorem Graph.mergeLinks_tells (g : Graph B) (nodes : Renaming NodeId) (records : List LinkRecord) :
    LinkLoad.Tells nodes g records (g.mergeLinks nodes records) :=
  (LinkLoad.Tells.start nodes g).addAll records

/-! ## Losses in the repair -/

namespace Graph

/-- From one stage of a repair to a later one, the links that have gone are those that were listed,
and a link that stands stays. -/
structure Repair.Tells (r r' : Repair B) : Prop where
  links : ∀ k l, r'.graph.links.get? k = some l → r.graph.links.get? k = some l
  pruned : ∀ k, k ∈ r'.pruned ↔
    k ∈ r.pruned ∨ (k ∈ r.graph.links.keys ∧ k ∉ r'.graph.links.keys)
  repaired : r'.repaired = false → r.repaired = false ∧ r'.pruned = r.pruned
  stands : ∀ k l, r.graph.links.get? k = some l → r.graph.Stands k l →
    r'.graph.links.get? k = some l ∧ r'.graph.Stands k l

theorem Stands.of_ends {g : Graph B} {k : LinkId} {l l' : Link} (h : g.Stands k l)
    (he : l.ends = l'.ends) : g.Stands k l' := by
  have ho : l.origin = l'.origin := congrArg Ends.origin he
  have hos : l.originSlot = l'.originSlot := congrArg Ends.originSlot he
  have ht : l.target = l'.target := congrArg Ends.target he
  have hts : l.targetSlot = l'.targetSlot := congrArg Ends.targetSlot he
  refine ⟨ho ▸ ht ▸ h.apart, ?_, ?_⟩
  · exact ht ▸ hts ▸ h.held
  · exact ho ▸ hos ▸ h.listed

namespace Repair.Tells

theorem keys {r r' : Repair B} (h : r.Tells r') {k : LinkId} (hk : k ∈ r'.graph.links.keys) :
    k ∈ r.graph.links.keys := by
  obtain ⟨l, hl⟩ := Assoc.mem_keys_iff.1 hk
  exact Assoc.mem_keys_of_get? (h.links k l hl)

theorem refl (r : Repair B) : r.Tells r where
  links _ _ hl := hl
  pruned _ := ⟨.inl, fun h => h.elim id fun hk => absurd hk.1 hk.2⟩
  repaired h := ⟨h, rfl⟩
  stands _ _ hl hs := ⟨hl, hs⟩

theorem trans {r r' r'' : Repair B} (h : r.Tells r') (h' : r'.Tells r'') : r.Tells r'' where
  links k l hl := h.links k l (h'.links k l hl)
  pruned k := by
    rw [h'.pruned, h.pruned]
    constructor
    · rintro ((hk | ⟨hk, hgone⟩) | ⟨hk, hgone⟩)
      · exact .inl hk
      · exact .inr ⟨hk, fun hk' => hgone (h'.keys hk')⟩
      · exact .inr ⟨h.keys hk, hgone⟩
    · rintro (hk | ⟨hk, hgone⟩)
      · exact .inl (.inl hk)
      · -- it went in the first stage or in the second
        by_cases hmid : k ∈ r'.graph.links.keys
        · exact .inr ⟨hmid, hgone⟩
        · exact .inl (.inr ⟨hk, hmid⟩)
  repaired hr := by
    obtain ⟨hr', hp'⟩ := h'.repaired hr
    obtain ⟨hr, hp⟩ := h.repaired hr'
    exact ⟨hr, hp'.trans hp⟩
  stands k l hl hs := by
    obtain ⟨hl', hs'⟩ := h.stands k l hl hs
    exact h'.stands k l hl' hs'

end Repair.Tells

/-- One link is settled. -/
theorem settle_tells (r : Repair B) (k : LinkId) : r.Tells (settle r k) := by
  obtain ⟨hretains, hlinks, -⟩ := settle_spec r k
  cases hl : r.graph.links.get? k with
  | none =>
    have hsame : settle r k = r := by
      unfold settle
      rw [hl]
    rw [hsame]
    exact .refl r
  | some l =>
    cases hc : r.graph.canStand k l with
    | true =>
      have hsettle : settle r k = { r with
          graph := r.graph.enter k l, repaired := r.repaired || !r.graph.isEntered k l } := by
        unfold settle
        simp only [hl, hc, if_true]
      rw [hsettle] at hretains hlinks ⊢
      refine ⟨hlinks, fun i => ⟨.inl, fun h => h.elim id fun hi => absurd hi.1 hi.2⟩, ?_, ?_⟩
      · intro h
        exact ⟨(Bool.or_eq_false_iff.1 h).1, rfl⟩
      · exact fun i l' hl' hs => ⟨hl', hs.retained hretains⟩
    | false =>
      have hsettle : settle r k = { graph := { r.graph with links := r.graph.links.erase k }
                                    pruned := r.pruned ++ [k], repaired := true } := by
        unfold settle
        simp only [hl, hc, Bool.false_eq_true, if_false]
      rw [hsettle] at hretains hlinks ⊢
      refine ⟨hlinks, fun i => ?_, fun h => Bool.noConfusion h, fun i l' hl' hs =>
        ⟨?_, hs.retained hretains⟩⟩
      · show i ∈ r.pruned ++ [k] ↔ i ∈ r.pruned ∨ (_ ∧ i ∉ (r.graph.links.erase k).keys)
        rw [List.mem_append, List.mem_singleton, Assoc.keys_erase, List.mem_filter,
          decide_eq_true_iff, not_and, not_not]
        refine or_congr_right ⟨?_, fun hi => hi.2 hi.1⟩
        rintro rfl
        exact ⟨Assoc.mem_keys_of_get? hl, fun _ => rfl⟩
      · -- a link that stands is not the one that was dropped
        have hne : i ≠ k := by
          rintro rfl
          have hstays := settle_of_stands hl' hs
          rw [hsettle] at hstays
          have hp := congrArg (fun r : Repair B => r.pruned.length) hstays
          simp at hp
        exact (Assoc.get?_erase ..).trans ((if_neg hne).trans hl')

theorem settles_tell (ks : List LinkId) (r : Repair B) : r.Tells (ks.foldl settle r) := by
  induction ks generalizing r with
  | nil => exact .refl r
  | cons k ks ih => exact (settle_tells r k).trans (ih (settle r k))

/-- A repair lists exactly the links that it drops; links that stand are not among them. -/
theorem repair_tells (g : Graph B) (pruned : List LinkId) :
    (∀ k l, (g.repair pruned).graph.links.get? k = some l → g.links.get? k = some l) ∧
      (∀ k, k ∈ (g.repair pruned).pruned ↔
        k ∈ pruned ∨ (k ∈ g.links.keys ∧ k ∉ (g.repair pruned).graph.links.keys)) ∧
      ((g.repair pruned).repaired = false → (g.repair pruned).pruned = pruned) ∧
      ∀ k l, g.links.get? k = some l → g.Stands k l →
        (g.repair pruned).graph.links.get? k = some l := by
  have h : (⟨g, pruned, false⟩ : Repair B).Tells (g.links.keys.foldl settle ⟨g, pruned, false⟩) :=
    settles_tell ..
  refine ⟨h.links, h.pruned, fun hr => ?_, fun k l hl hs => (h.stands k l hl hs).1⟩
  exact (h.repaired (Bool.or_eq_false_iff.1 (Bool.or_eq_false_iff.1 hr).1).1).2

end Graph

/-- Links were loaded beside some that stand, and repaired.  The old ones stay, and those are listed
that were loaded for records and are not there any more. -/
theorem LinkLoad.Tells.settled {nodes : Renaming NodeId} {g a : Graph B} {records : List LinkRecord}
    {load : LinkLoad B} (h : load.Tells nodes g records) (ha : a.links = load.graph.links)
    (hstands : ∀ k l, g.links.get? k = some l → a.Stands k l) (pruned : List LinkId) :
    (∀ k l, g.links.get? k = some l → (a.repair pruned).graph.links.get? k = some l) ∧
      ∀ k, k ∈ (a.repair pruned).pruned ↔ k ∈ pruned ∨
        ∃ r, LinkRecord.counting nodes.get? records r.id = some r ∧ load.table.get? r.id = some k ∧
          ¬(a.repair pruned).graph.Represents nodes.get? load.table r := by
  obtain ⟨hlinks, hpruned, -, hstay⟩ := a.repair_tells pruned
  rw [ha] at hlinks hpruned hstay
  have hold : ∀ k l, g.links.get? k = some l → (a.repair pruned).graph.links.get? k = some l :=
    fun k l hl => hstay k l (h.old k l hl) (hstands k l hl)
  refine ⟨hold, fun k => (hpruned k).trans (or_congr_right ⟨?_, ?_⟩)⟩
  · rintro ⟨hk, hgone⟩
    rcases h.new k hk with hk | ⟨i, hi⟩
    · obtain ⟨l, hl⟩ := Assoc.mem_keys_iff.1 hk
      exact absurd (Assoc.mem_keys_of_get? (hold k l hl)) hgone
    · obtain ⟨r, hr⟩ := h.known i k hi
      obtain ⟨-, rfl, -⟩ := LinkRecord.counting_spec hr
      refine ⟨r, hr, hi, ?_⟩
      rintro ⟨k', l, hk', -, hl⟩
      cases Option.some.inj (hi.symm.trans hk')
      exact hgone (Assoc.mem_keys_of_get? hl)
  · rintro ⟨r, hr, hk, hlost⟩
    obtain ⟨k', l, hk', hat, hl⟩ := h.counted r.id r hr
    cases Option.some.inj (hk.symm.trans hk')
    refine ⟨Assoc.mem_keys_of_get? hl, fun hmem => hlost ?_⟩
    -- what is left of a link is what was loaded
    obtain ⟨l', hl'⟩ := Assoc.mem_keys_iff.1 hmem
    cases Option.some.inj (hl.symm.trans (hlinks k l' hl'))
    exact ⟨k, l, hk, hat, hl'⟩

/-! ## The report -/

/-- What a report says of a load into a graph.  The nodes that were added are listed with their
records, and the links have their new names. -/
structure LoadReport.Tells (report : LoadReport) (snapshot : Snapshot) (old g : Graph B)
    (placed : List (NodeId × NodeRecord)) (names : Renaming LinkId) : Prop where
  /-- Every record has a node of its own, unless it was left out. -/
  records : (placed.map Prod.snd).Sublist snapshot.nodes
  distinct : (placed.map Prod.fst).Nodup
  live : ∀ e ∈ placed, e.1 ∈ g.nodes.keys
  apart : ∀ e ∈ placed, e.1 ∉ old.nodes.keys
  asked : Asked (· ∈ old.nodes.keys) placed
  /-- The old links are still there, and no others have their names. -/
  kept : ∀ k l, old.links.get? k = some l → ∃ l', g.links.get? k = some l' ∧ l'.ends = l.ends
  fresh : ∀ i k, names.get? i = some k → k ∉ old.links.keys
  injective : ∀ i j k, names.get? i = some k → names.get? j = some k → i = j
  own : old.links.keys = [] → ∀ i k, names.get? i = some k → k = i
  named : ∀ i, (∃ k, names.get? i = some k) ↔
    ∃ r, LinkRecord.counting (landed placed) snapshot.links i = some r
  /-- Listed are the links whose nodes were left out, under the names in their records, and those
  that were loaded and dropped, under the names that they were loaded with. -/
  pruned : ∀ k, k ∈ report.prunedLinks ↔
    (∃ r ∈ snapshot.links, r.reaches (landed placed) = false ∧ k = r.id) ∨
    ∃ r, LinkRecord.counting (landed placed) snapshot.links r.id = some r ∧
      names.get? r.id = some k ∧ ¬g.Represents (landed placed) names r
  clean : report.hadErrors = false → report.prunedLinks = [] ∧ placed.map Prod.snd = snapshot.nodes

namespace LoadReport.Tells

variable {report : LoadReport} {snapshot : Snapshot} {old g : Graph B}
  {placed : List (NodeId × NodeRecord)} {names : Renaming LinkId}
  (h : report.Tells snapshot old g placed names)
include h

/-- After a load without errors, there is a link for every record that counts. -/
theorem represented (hclean : report.hadErrors = false) {r : LinkRecord}
    (hr : LinkRecord.counting (landed placed) snapshot.links r.id = some r) :
    g.Represents (landed placed) names r := by
  obtain ⟨k, hk⟩ := (h.named r.id).2 ⟨r, hr⟩
  by_contra hlost
  have hlisted := (h.pruned k).2 (.inr ⟨r, hr, hk, hlost⟩)
  rw [(h.clean hclean).1] at hlisted
  cases hlisted

/-- After a load without errors, the nodes of all links were loaded. -/
theorem reached (hclean : report.hadErrors = false) {r : LinkRecord} (hr : r ∈ snapshot.links) :
    r.reaches (landed placed) = true := by
  by_contra hmissing
  have hlisted := (h.pruned r.id).2 (.inl ⟨r, hr, Bool.eq_false_iff.2 hmissing, rfl⟩)
  rw [(h.clean hclean).1] at hlisted
  cases hlisted

/-- If no identity is repeated among the links, those are listed that are not there, under the names
that they were loaded with if they were. -/
theorem lists (hn : (snapshot.links.map LinkRecord.id).Nodup) (k : LinkId) :
    k ∈ report.prunedLinks ↔ ∃ r ∈ snapshot.links,
      ¬g.Represents (landed placed) names r ∧ k = (names.get? r.id).getD r.id := by
  have hunnamed : ∀ r ∈ snapshot.links, r.reaches (landed placed) = false →
      (names.get? r.id).getD r.id = r.id := by
    intro r hr hmissing
    cases hk : names.get? r.id with
    | none => rfl
    | some k =>
      obtain ⟨r', hr'⟩ := (h.named r.id).1 ⟨k, hk⟩
      obtain ⟨hmem, hid, hreach⟩ := LinkRecord.counting_spec hr'
      rw [List.inj_on_of_nodup_map hn hmem hr hid, hmissing] at hreach
      cases hreach
  rw [h.pruned]
  constructor
  · rintro (⟨r, hr, hmissing, rfl⟩ | ⟨r, hr, hk, hlost⟩)
    · refine ⟨r, hr, ?_, (hunnamed r hr hmissing).symm⟩
      rintro ⟨k, l, -, hl, -⟩
      rw [(LinkRecord.reaches_iff k).2 ⟨l, hl⟩] at hmissing
      cases hmissing
    · exact ⟨r, (LinkRecord.counting_spec hr).1, hlost, by rw [hk]; rfl⟩
  · rintro ⟨r, hr, hlost, rfl⟩
    cases hreach : r.reaches (landed placed) with
    | false => exact .inl ⟨r, hr, hreach, hunnamed r hr hreach⟩
    | true =>
      have hcounts := LinkRecord.counting_of_nodup hn hr hreach
      obtain ⟨k, hk⟩ := (h.named r.id).2 ⟨r, hcounts⟩
      exact .inr ⟨r, hcounts, by rw [hk]; rfl, hlost⟩

end LoadReport.Tells

/-- Once the nodes of a snapshot were added, the rest of the load tells what becomes of its links. -/
theorem Session.settleLoad_tells [Kind B] {old : Graph B} (hjoined : old.Joined) {snapshot : Snapshot}
    {p : Engine.Placing} {s : Session B σ} (hp : p.Tells old snapshot.nodes s.graph) :
    (s.settleLoad snapshot p.placed p.nodes p.report).1.Tells snapshot old
      (s.settleLoad snapshot p.placed p.nodes p.report).2.graph p.placed
      (s.graph.mergeLinks p.nodes snapshot.links).table := by
  let load := s.graph.mergeLinks p.nodes snapshot.links
  let merged : Graph B := { load.graph with nextLink := max load.graph.nextLink snapshot.nextLink }
  let adopted := merged.adopted load.table p.placed
  let repair := adopted.repair (p.report.prunedLinks ++ load.pruned)
  have hload : load.Tells p.nodes s.graph snapshot.links := s.graph.mergeLinks_tells ..
  have hfind : p.nodes.get? = landed p.placed := funext hp.table
  obtain ⟨told, htold, heq⟩ := s.settleLoad_eq snapshot p.placed p.nodes p.report
  obtain ⟨hadopted, hkept⟩ := Graph.keys_adopted load.table p.placed merged
  obtain ⟨hlinks, hnodes⟩ := htold.finished snapshot
  change _ = repair.graph.links at hlinks
  replace hnodes : (told.finishLoad snapshot).graph.nodes.keys = s.graph.nodes.keys :=
    hnodes.trans ((adopted.keys_repair _).trans (hadopted.trans (congrArg Assoc.keys hload.kept)))
  have hnodup : (old.nodes.keys ++ p.placed.map Prod.fst).Nodup := hp.keys ▸ s.graph.nodes.nodup_keys
  have happart : ∀ id ∈ p.placed.map Prod.fst, id ∉ old.nodes.keys := fun id hid hmem =>
    (List.nodup_append.1 hnodup).2.2 id hmem id hid rfl
  -- the nodes that were there keep their pins, so their links stand
  have hretains : adopted.Retains old := .of_pins fun id n hn => by
    obtain ⟨n', hn', hpins⟩ := hp.nodes id n hn
    refine ⟨n', ?_, hpins⟩
    rw [Graph.get?_adopted_of_notMem load.table fun hmem => happart id hmem (Assoc.mem_keys_of_get? hn)]
    exact (congrArg (fun nodes => nodes.get? id) hload.kept).trans hn'
  have hstands : ∀ k l, s.graph.links.get? k = some l → adopted.Stands k l := by
    intro k l hl
    obtain ⟨l', hl', hends⟩ := hp.ends k l hl
    exact ((hjoined.stands hl').of_ends hends).retained hretains
  obtain ⟨hold, hlisted⟩ := hload.settled hkept hstands (p.report.prunedLinks ++ load.pruned)
  rw [heq]
  constructor
  case records => exact hp.placed
  case distinct => exact (List.nodup_append.1 hnodup).2.1
  case live =>
    intro e he
    rw [hnodes, hp.keys]
    exact List.mem_append_right _ (List.mem_map_of_mem he)
  case apart => exact fun e he => happart e.1 (List.mem_map_of_mem he)
  case asked => exact hp.asked
  case kept =>
    intro k l hl
    obtain ⟨l', hl'⟩ := Assoc.mem_keys_iff.1 (hp.links ▸ Assoc.mem_keys_of_get? hl)
    obtain ⟨l₀, hl₀, hends⟩ := hp.ends k l' hl'
    cases Option.some.inj (hl.symm.trans hl₀)
    rw [hlinks]
    exact ⟨l', hold k l' hl', hends.symm⟩
  case fresh => exact fun i k hk => hp.links ▸ hload.fresh i k hk
  case injective => exact hload.injective
  case own => exact fun hempty => hload.own (hp.links.trans hempty)
  case named =>
    intro i
    rw [← hfind]
    constructor
    · rintro ⟨k, hk⟩
      exact hload.known i k hk
    · rintro ⟨r, hr⟩
      obtain ⟨k, -, hk, -⟩ := hload.counted i r hr
      exact ⟨k, hk⟩
  case pruned =>
    intro k
    refine (hlisted k).trans (or_congr ?_ ?_)
    · rw [hp.pruned, List.nil_append, hload.pruned, hfind]
    · unfold Graph.Represents
      rw [hfind, hlinks]
  case clean =>
    intro h
    obtain ⟨h, hrepaired⟩ := Bool.or_eq_false_iff.1 h
    obtain ⟨h, -⟩ := Bool.or_eq_false_iff.1 h
    obtain ⟨hreport, hempty⟩ := Bool.or_eq_false_iff.1 h
    have hnone : load.pruned = [] := by simpa using hempty
    refine ⟨?_, hp.clean hreport⟩
    obtain ⟨-, -, hclean, -⟩ := adopted.repair_tells (p.report.prunedLinks ++ load.pruned)
    refine (hclean hrepaired).trans ?_
    rw [hp.pruned, hnone]
    rfl

/-- What is left of a graph when a snapshot comes. -/
def Session.remains [Kind B] (s : Session B σ) (keepOld : Bool) : Graph B :=
  (if keepOld then s else s.clear).graph

theorem Session.joined_remains [Kind B] {s : Session B σ} (hs : s.graph.Joined) (keepOld : Bool) :
    (s.remains keepOld).Joined := by
  cases keepOld with
  | true => exact hs
  | false => exact (Graph.consistent_of_empty rfl rfl).toJoined

/-- A snapshot is loaded, in the place of a joined graph or beside it, and nodes that are added do
not edit the graph.  The report tells what became of every record, up to two things.  A link that
was loaded and dropped is listed under the name that it was loaded with; that is the name in its
record if nothing else was there.  And of several links with one identity only the last one counts;
the others are not mentioned.  A snapshot in which no identity is repeated is loaded without errors
only if nothing is lost.  The load answers if the bodies do that run when nodes are added. -/
theorem Engine.load_reports [Behavior B σ] {run : Runner B σ} (hrun : AddsQuietly run)
    (snapshot : Snapshot) (keepOld : Bool) {s : Session B σ} (hs : s.graph.Joined) :
    ((∀ b id, Answers (run (Behavior.body b id .added))) →
        ∃ report t, load run snapshot keepOld s = some (report, t)) ∧
      ∀ report t, load run snapshot keepOld s = some (report, t) →
        ∃ placed names, report.Tells snapshot (s.remains keepOld) t.graph placed names ∧
          ((snapshot.links.map LinkRecord.id).Nodup →
            (∀ k, k ∈ report.prunedLinks ↔ ∃ r ∈ snapshot.links,
              ¬t.graph.Represents (landed placed) names r ∧ k = (names.get? r.id).getD r.id) ∧
            (report.hadErrors = false → ∀ r ∈ snapshot.links, t.graph.Represents (landed placed) names r)) ∧
          (keepOld = false → (∀ k, (names.get? k).getD k = k) ∧
            ((∀ r ∈ snapshot.nodes, r.id.isSome) → (snapshot.nodes.map NodeRecord.id).Nodup →
              ∀ e ∈ placed, e.2.id = some e.1)) := by
  refine ⟨fun hanswers => answers_load hanswers snapshot keepOld s, ?_⟩
  show Ensures (load run snapshot keepOld) s _
  apply Ensures.modify_bind
  apply Ensures.bind
  have hstart : Placing.Tells (s.remains keepOld) [] ⟨.clean, [], ∅⟩
      (((if keepOld then s else s.clear).edit fun g =>
        { g with config := g.config.insertAll snapshot.config.entries }).beginBatch).graph := .start rfl
  refine (placeAll_tells hrun hstart).mono fun p t hp => Ensures.total ?_
  have htells := t.settleLoad_tells (Session.joined_remains hs keepOld) hp
  refine ⟨p.placed, _, htells, fun hn => ⟨htells.lists hn, fun hclean r hr => ?_⟩, ?_⟩
  · exact htells.represented hclean (LinkRecord.counting_of_nodup hn hr (htells.reached hclean hr))
  · rintro rfl
    refine ⟨fun k => ?_, fun hids hn => ?_⟩
    · cases hk : (t.graph.mergeLinks p.nodes snapshot.links).table.get? k with
      | none => rfl
      | some i => exact htells.own rfl k i hk
    · have hnodup : (p.placed.map fun e => e.2.id).Nodup := by
        have hsub := htells.records.map NodeRecord.id
        rw [List.map_map] at hsub
        exact hn.sublist hsub
      refine htells.asked.own (fun _ hmem => nomatch hmem) (fun e he => ?_) hnodup
      exact hids e.2 (htells.records.subset (List.mem_map_of_mem he))

/-- A snapshot with a link at a slot that its node does not have. -/
def astray : Snapshot :=
  { nextNode := 3, nextLink := 2
    nodes := [{ NodeRecord.new "basic/const_number" with id := some ⟨1⟩ },
      { NodeRecord.new "basic/watch" with id := some ⟨2⟩ }]
    links := [⟨⟨1⟩, ⟨1⟩, 5, ⟨2⟩, 0, .any⟩], groups := [], config := ∅ }

theorem astray_evaluates : ((Engine.exec 1 watched
      (⟨Graph.empty pairTypes .default, [], ()⟩ : Session Catalog Unit)).any fun e =>
    decide (e.2.graph.links.keys = [⟨1⟩]) &&
      (Engine.load (Engine.runner 1) astray true e.2).any fun e =>
        decide (e.1.prunedLinks = [⟨2⟩])) = true := by
  decide +kernel

/-- The snapshot is loaded beside a link that has the identity of its link. -/
theorem astray_runs : ∃ answer s report t, Engine.exec 1 watched
      (⟨Graph.empty pairTypes .default, [], ()⟩ : Session Catalog Unit) = some (answer, s) ∧
    s.graph.links.keys = [⟨1⟩] ∧ Engine.load (Engine.runner 1) astray true s = some (report, t) ∧
    report.prunedLinks = [⟨2⟩] := by
  obtain ⟨⟨answer, s⟩, hexec, hfacts⟩ := (Option.any_eq_true _ _).1 astray_evaluates
  obtain ⟨hlinks, hfacts⟩ := Bool.and_eq_true_iff.1 hfacts
  obtain ⟨⟨report, t⟩, hload, hlisted⟩ := (Option.any_eq_true _ _).1 hfacts
  exact ⟨answer, s, report, t, hexec, of_decide_eq_true hlinks, hload, of_decide_eq_true hlisted⟩

theorem watched_consistent {s : Session Catalog Unit} {answer : Except ConnectionError LinkId}
    (h : Engine.exec 1 watched ⟨Graph.empty pairTypes .default, [], ()⟩ = some (answer, s)) :
    s.graph.Consistent := by
  have htidy : (Graph.empty pairTypes .default : Graph Catalog).Tidy pairTypes :=
    ⟨Graph.consistent_of_empty rfl rfl, rfl⟩
  exact (Engine.keeps_exec (Engine.lawful_linking pairTypes) (Catalog.obeys_linking pairTypes)
    (watched_obeys pairTypes) 1 ⟨Graph.empty pairTypes .default, [], ()⟩ htidy _ s h).1

/-- Beside a link with its identity, a link that cannot stand is listed under its new name. -/
theorem astray_reported : ∃ answer s report t placed names, Engine.exec 1 watched
      (⟨Graph.empty pairTypes .default, [], ()⟩ : Session Catalog Unit) = some (answer, s) ∧
    Engine.load (Engine.runner 1) astray true s = some (report, t) ∧
    report.Tells astray s.graph t.graph placed names ∧ names.get? ⟨1⟩ = some ⟨2⟩ ∧
    ∀ r ∈ astray.links, ¬t.graph.Represents (landed placed) names r := by
  obtain ⟨answer, s, report, t, hexec, -, hload, hlisted⟩ := astray_runs
  have hs : s.graph.Joined := (watched_consistent hexec).toJoined
  obtain ⟨-, hall⟩ := Engine.load_reports (Catalog.addsQuietly 1) astray true hs
  obtain ⟨placed, names, htells, hexact, -⟩ := hall report t hload
  obtain ⟨r, hr, hlost, hk⟩ := ((hexact (List.nodup_singleton _)).1 ⟨2⟩).1
    (hlisted ▸ List.mem_singleton_self _)
  have hname : names.get? ⟨1⟩ = some ⟨2⟩ := by
    rw [List.mem_singleton.1 hr] at hk
    cases hget : names.get? (⟨1⟩ : LinkId) with
    | none =>
      rw [hget] at hk
      exact absurd hk (by decide)
    | some k =>
      rw [hget] at hk
      exact congrArg some hk.symm
  refine ⟨answer, s, report, t, placed, names, hexec, hload, htells, hname, fun r' hr' => ?_⟩
  rw [List.mem_singleton.1 hr', ← List.mem_singleton.1 hr]
  exact hlost

/-- A link is listed that the snapshot does not have, and the one that was lost is not. -/
theorem renamedLink_listed : ∃ answer s report t, Engine.exec 1 watched
      (⟨Graph.empty pairTypes .default, [], ()⟩ : Session Catalog Unit) = some (answer, s) ∧
    s.graph.Consistent ∧ s.graph.links.keys = [⟨1⟩] ∧
    Engine.load (Engine.runner 1) astray true s = some (report, t) ∧
    astray.links.map LinkRecord.id = [⟨1⟩] ∧ report.prunedLinks = [⟨2⟩] := by
  obtain ⟨answer, s, report, t, hexec, hlinks, hload, hlisted⟩ := astray_runs
  exact ⟨answer, s, report, t, hexec, watched_consistent hexec, hlinks, hload, rfl, hlisted⟩

/-- A snapshot in which two links have one identity. -/
def repeated : Snapshot :=
  let source : NodeRecord :=
    { NodeRecord.new "basic/const_number" with
      id := some ⟨1⟩, outputs := some [⟨"value", .any, [⟨1⟩], none, none⟩] }
  let sink (id : Nat) (link : Option LinkId) : NodeRecord :=
    { NodeRecord.new "basic/watch" with
      id := some ⟨id⟩, inputs := some [⟨"value", .any, link, none⟩] }
  { nextNode := 4, nextLink := 2, nodes := [source, sink 2 (some ⟨1⟩), sink 3 none]
    links := [⟨⟨1⟩, ⟨1⟩, 0, ⟨3⟩, 0, .any⟩, ⟨⟨1⟩, ⟨1⟩, 0, ⟨2⟩, 0, .any⟩], groups := [], config := ∅ }

/-- The first of them is lost, and the report does not mention it. -/
example : ((Engine.load (Engine.runner 1) repeated false
      (⟨Graph.empty pairTypes .default, [], ()⟩ : Session Catalog Unit).beginBatch).any fun e =>
    !e.1.hadErrors && e.1.prunedLinks.isEmpty &&
      decide (e.2.graph.links.values.map Link.target = [⟨2⟩])) = true := by
  decide +kernel

end Dataflow
