/-
  Loading a snapshot beside what is there.

  The same snapshot is loaded into an empty graph and beside the nodes of another one.  Both loads
  go through the same phases, and after each phase the larger graph is the old one with a renamed
  copy of the smaller one behind it.

    1. The nodes are added, which fixes how nodes are renamed (`Landed`).
    2. The links are added, which fixes how links are renamed (`Linked`).
    3. The nodes take over their records (`Copied`).
    4. Links and slots are made to agree (`Beside`).
    5. Behaviours are told what happened, and the order is brought up to date.  Neither changes
       anything else (`Hears`, `Reordered`).

  Nothing is assumed of the snapshot: its identities may be taken or occur twice, and its links
  may lead anywhere.
-/

import Dataflow.Proofs.Beside
import Dataflow.Proofs.Cache
import Dataflow.Proofs.Step

namespace Dataflow

variable {B σ : Type}

namespace Graph

/-! ## Changes of behaviours and places only -/

/-- Nothing has changed but what some behaviours remember. -/
def Hears {K : Type} (kind : B → K) (ids : List NodeId) (g g' : Graph B) : Prop :=
  ∃ u : NodeId → Node B → Node B,
    (∀ id n, ∃ b, b.map kind = n.behavior.map kind ∧ u id n = { n with behavior := b }) ∧
    (∀ id, id ∉ ids → ∀ n, u id n = n) ∧ g' = { g with nodes := g.nodes.mapValues u }

/-- Nodes and links are the same, but for the places of the nodes in the order. -/
structure Reordered (g g' : Graph B) : Prop where
  keys : g'.nodes.keys = g.nodes.keys
  nodes : ∀ id n, g.nodes.get? id = some n → ∃ order, g'.nodes.get? id = some { n with order }
  links : g'.links = g.links

variable {K : Type} {kind : B → K} {ids : List NodeId} {g g' g'' : Graph B}

theorem Hears.refl (kind : B → K) (ids : List NodeId) (g : Graph B) : g.Hears kind ids g := by
  refine ⟨fun _ n => n, fun _ n => ⟨n.behavior, rfl, rfl⟩, fun _ _ _ => rfl, ?_⟩
  have hm : (g.nodes.mapValues fun _ n => n) = g.nodes := Assoc.ext_entries (List.map_id _)
  rw [hm]

theorem Hears.trans (h : g.Hears kind ids g') (h' : g'.Hears kind ids g'') : g.Hears kind ids g'' := by
  obtain ⟨u, hu, ho, rfl⟩ := h
  obtain ⟨u', hu', ho', rfl⟩ := h'
  refine ⟨fun id n => u' id (u id n), fun id n => ?_, fun id hid n => ?_, ?_⟩
  · obtain ⟨b, hk, hb⟩ := hu id n
    obtain ⟨b', hk', hb'⟩ := hu' id (u id n)
    rw [hb] at hk'
    refine ⟨b', hk'.trans hk, ?_⟩
    show u' id (u id n) = _
    rw [hb', hb]
  · show u' id (u id n) = n
    rw [ho id hid, ho' id hid]
  · show ({ g with nodes := (g.nodes.mapValues u).mapValues u' } : Graph B) = _
    rw [Assoc.mapValues_mapValues]

theorem Reordered.refl (g : Graph B) : g.Reordered g :=
  ⟨rfl, fun _ n hn => ⟨n.order, hn⟩, rfl⟩

/-- Noting places in the order changes nodes only. -/
theorem number_eq (order : List NodeId) (g : Graph B) :
    g.number order = { g with nodes := (g.number order).nodes } := by
  unfold number
  generalize order.zipIdx = places
  induction places generalizing g with
  | nil => rfl
  | cons e places ih =>
    rw [List.foldl_cons, ih]
    rfl

theorem reordered_updateOrder (g : Graph B) : g.Reordered g.updateOrder where
  keys := by
    have hw := congrArg (fun w : Wiring B => w.nodes.keys) g.wiring_updateOrder
    simpa only [wiring, Assoc.keys_mapValues] using hw
  nodes id n hn := by
    have h : g.updateOrder.nodes.get? id = _ := get?_number g.nodup_computeOrder g id
    rw [h, hn, Option.map_some]
    split
    · exact ⟨_, rfl⟩
    · exact ⟨n.order, rfl⟩
  links := (congrArg Graph.links (g.number_eq g.computeOrder)).trans rfl

end Graph

namespace Session

variable [Kind B] {K : Type} {kind : B → K}

section Told

variable (ht : ∀ b notice, kind (Kind.told b notice) = kind b)
include ht

theorem tell_kind (n : Node B) (notice : Notice) : ∃ b, b.map kind = n.behavior.map kind ∧
    (n.tell notice).1 = { n with behavior := b } := by
  unfold Node.tell
  cases hn : n.behavior with
  | none =>
    refine ⟨none, rfl, ?_⟩
    show n = { n with behavior := none }
    rw [← hn]
  | some b => exact ⟨some (Kind.told b notice), congrArg some (ht b notice), rfl⟩

theorem hears_tell (s : Session B σ) {ids : List NodeId} {id : NodeId} (hid : id ∈ ids)
    (notice : Notice) : s.graph.Hears kind ids (s.tell id notice).graph := by
  unfold tell
  cases hn : s.graph.nodes.get? id with
  | none => exact .refl kind ids _
  | some n =>
    refine ⟨fun i m => if i = id then (m.tell notice).1 else m, fun i m => ?_,
      fun i hi m => if_neg (ne_of_mem_of_not_mem hid hi).symm, ?_⟩
    · show ∃ b, _ ∧ (ite _ _ _ : Node B) = _
      split
      · exact tell_kind ht m notice
      · exact ⟨m.behavior, rfl, rfl⟩
    · have hm : (s.graph.nodes.modify id fun _ => (n.tell notice).1) =
          s.graph.nodes.modify id fun m => (m.tell notice).1 := by
        apply Assoc.modify_congr
        intro m hm
        cases Option.some.inj (hm.symm.trans hn)
        rfl
      exact congrArg (fun nodes => ({ s.graph with nodes } : Graph B)) hm

theorem hears_introduce (s : Session B σ) {ids : List NodeId} {id : NodeId} (hid : id ∈ ids)
    (r : NodeRecord) : s.graph.Hears kind ids (s.introduce id r).graph := by
  have hlinks : ∀ (links : List (Direction × Nat × Link)) (s : Session B σ), s.graph.Hears kind ids
      (links.foldl (fun s e => s.tellEnd e.1 id e.2.1 true e.2.2) s).graph := by
    intro links
    induction links with
    | nil => exact fun s => .refl kind ids _
    | cons e links ih =>
      intro s
      have htell : s.graph.Hears kind ids (s.tellEnd e.1 id e.2.1 true e.2.2).graph := by
        unfold tellEnd
        split
        · exact hears_tell ht s hid _
        · exact .refl kind ids _
      exact htell.trans (ih _)
  exact (hlinks _ s).trans (hears_tell ht _ hid _)

theorem hears_introduceAll {ids : List NodeId} (placed : List (NodeId × NodeRecord))
    (hids : ∀ e ∈ placed, e.1 ∈ ids) (s : Session B σ) :
    s.graph.Hears kind ids (placed.foldl (fun s e => s.introduce e.1 e.2) s).graph := by
  induction placed generalizing s with
  | nil => exact .refl kind ids _
  | cons e placed ih =>
    refine (hears_introduce ht s (hids e (List.mem_cons_self ..)) e.2).trans ?_
    exact ih (fun i hi => hids i (List.mem_cons_of_mem e hi)) _

end Told

omit [Kind B] in
theorem reordered_refresh (s : Session B σ) : s.graph.Reordered s.refresh.graph := by
  unfold refresh
  split
  · exact s.graph.reordered_updateOrder
  · exact .refl _

/-- What a load makes of the nodes that were placed, stage by stage. -/
theorem settleLoad_stages (ht : ∀ b notice, kind (Kind.told b notice) = kind b) (s : Session B σ)
    (snapshot : Snapshot) (placed : List (NodeId × NodeRecord)) (nodes : Renaming NodeId)
    (report : LoadReport) :
    ∃ pruned nextLink g, Graph.Hears kind (placed.map Prod.fst)
      ((({ (s.graph.mergeLinks nodes snapshot.links).graph with nextLink } : Graph B).adopted
        (s.graph.mergeLinks nodes snapshot.links).table placed).repair pruned).graph g ∧
      g.Reordered (s.settleLoad snapshot placed nodes report).2.graph := by
  let load := s.graph.mergeLinks nodes snapshot.links
  let merged := s.edit fun _ =>
    { load.graph with nextLink := max load.graph.nextLink snapshot.nextLink }
  let adopted := (placed.foldl (fun x e =>
    (x.1 || (x.2.adopt load.table e.1 e.2).1, (x.2.adopt load.table e.1 e.2).2)) (false, merged)).2
  let repaired := adopted.edit fun g => (g.repair (report.prunedLinks ++ load.pruned)).graph
  let told := placed.foldl (fun s e => s.introduce e.1 e.2) repaired
  have hadopted : adopted.graph = merged.graph.adopted load.table placed :=
    graph_adopts load.table placed false merged
  have htold : repaired.graph.Hears kind (placed.map Prod.fst) told.graph :=
    hears_introduceAll ht placed (fun e he => List.mem_map_of_mem he) repaired
  have hlast := reordered_refresh ((told.edit fun g => { g with
    groups := snapshot.groups, nextNode := max g.nextNode snapshot.nextNode }).markStale.edit
      fun g => { g with batchDepth := g.batchDepth - 1 })
  refine ⟨report.prunedLinks ++ load.pruned, max load.graph.nextLink snapshot.nextLink, told.graph,
    ?_, ⟨hlast.keys, hlast.nodes, hlast.links⟩⟩
  change (adopted.graph.repair _).graph.Hears kind _ _ at htold
  rw [hadopted] at htold
  exact htold

end Session

/-! ## Merging -/

/-- One graph is another with a copy of a third behind it: what was there is as it was, its places
in the order aside, and the new nodes and links are those of the third graph under other
identities. -/
structure Graph.Merges {K : Type} (kind : B → K) (f : NodeId → NodeId) (h : LinkId → LinkId)
    (g a g' : Graph B) : Prop where
  nodes : g'.nodes.keys = g.nodes.keys ++ a.nodes.keys.map f
  links : g'.links.keys = g.links.keys ++ a.links.keys.map h
  oldNode : ∀ id n, g.nodes.get? id = some n → ∃ order, g'.nodes.get? id = some { n with order }
  oldLink : ∀ k l, g.links.get? k = some l → g'.links.get? k = some l
  newNode : ∀ id n, a.nodes.get? id = some n → ∃ order behavior,
    behavior.map kind = n.behavior.map kind ∧
    g'.nodes.get? (f id) = some { n.rename h with id := some (f id), order, behavior }
  newLink : ∀ k l, a.links.get? k = some l → g'.links.get? (h k) = some (l.rename f h)

namespace Graph

variable {K : Type} {kind : B → K} {f : NodeId → NodeId} {h : LinkId → LinkId}
  {D : LinkId → Prop} {g a m a' m' a'' m'' : Graph B}

/-- What behaviours hear, and how nodes are put in order, does not matter. -/
theorem Beside.merges (hb : g.Beside kind f h D a m) {ids : List NodeId}
    (hids : ∀ id ∈ ids, id ∈ a.nodes.keys) (ha : a.Hears kind ids a') (hm : m.Hears kind (ids.map f) m')
    (ha' : a'.Reordered a'') (hm' : m'.Reordered m'') : g.Merges kind f h a'' m'' := by
  obtain ⟨u, hu, -, rfl⟩ := ha
  obtain ⟨u', hu', ho, rfl⟩ := hm
  have hold : ∀ id ∈ g.nodes.keys, id ∉ ids.map f := fun id hid hm => by
    obtain ⟨i, hi, rfl⟩ := List.mem_map.1 hm
    exact hb.nodes.fresh (hids i hi) hid
  have hnodes : Assoc.Union f (fun id n n' => n.Copied kind D h (f id) n') g.nodes
      (a.nodes.mapValues u) (m.nodes.mapValues u') := by
    refine hb.nodes.mapValues (fun id n hn => ?_) fun id n n' _ hc => ?_
    · exact ho id (hold id (Assoc.mem_keys_of_get? hn)) n
    · obtain ⟨b, hk, hb⟩ := hu id n
      obtain ⟨b', hk', hb'⟩ := hu' (f id) n'
      rw [hb, hb']
      exact hc.behave hk hk'
  constructor
  case nodes =>
    rw [hm'.keys, ha'.keys]
    exact hnodes.keys
  case links =>
    rw [hm'.links, ha'.links]
    exact hb.links.keys
  case oldNode =>
    intro id n hn
    exact hm'.nodes id n ((hnodes.first id (Assoc.mem_keys_of_get? hn)).trans hn)
  case oldLink =>
    intro k l hl
    rw [hm'.links]
    exact (hb.links.first k (Assoc.mem_keys_of_get? hl)).trans hl
  case newNode =>
    intro id n hn
    have hid : id ∈ (a.nodes.mapValues u).keys := ha'.keys ▸ Assoc.mem_keys_of_get? hn
    obtain ⟨n₀, hn₀⟩ := Assoc.mem_keys_iff.1 hid
    obtain ⟨order, hn'⟩ := ha'.nodes id n₀ hn₀
    cases Option.some.inj (hn'.symm.trans hn)
    obtain ⟨m₀, hm₀, hc⟩ := hnodes.rest id n₀ hn₀
    obtain ⟨order', hm₁⟩ := hm'.nodes (f id) m₀ hm₀
    obtain ⟨order₀, behavior, hk, rfl⟩ := hc.same
    exact ⟨order', behavior, hk, hm₁⟩
  case newLink =>
    intro k l hl
    rw [ha'.links] at hl
    rw [hm'.links]
    obtain ⟨l', hl', -, -, -, rfl⟩ := hb.links.rest k l hl
    exact hl'

end Graph

namespace Engine

variable [Behavior B σ] {run : Runner B σ} {K : Type} {kind : B → K} {tame : K → Prop}

/-- A load, once its nodes were added. -/
theorem load_eq {snapshot : Snapshot} {keepOld : Bool} {s t : Session B σ} {p : Placing}
    (h : placeAll run snapshot.nodes ⟨.clean, [], ∅⟩ (((if keepOld then s else s.clear).edit
      fun g => { g with config := g.config.insertAll snapshot.config.entries }).beginBatch) =
        some (p, t)) :
    load run snapshot keepOld s = some (t.settleLoad snapshot p.placed p.nodes p.report) := by
  show (placeAll run snapshot.nodes _ _).bind _ = _
  rw [h]
  rfl

/-- Once links are loaded on both sides, the records make copies of nodes. -/
theorem beside_adopted (hd : Docile run kind tame) {f : NodeId → NodeId} {h : LinkId → LinkId}
    {g : Graph B} {load load' : LinkLoad B} (hl : LinkLoad.Linked f h g.links load load')
    {placed : List (NodeId × NodeRecord)} (hids : placed.map Prod.fst = load.graph.nodes.keys)
    (hn : Assoc.Union f (fun id n n' => n.Twin kind tame (f id) n') g.nodes load.graph.nodes
      load'.graph.nodes) (next next' : Nat) :
    g.Beside kind f h (· ∈ load.graph.links.keys)
      (({ load.graph with nextLink := next } : Graph B).adopted load.table placed)
      (({ load'.graph with nextLink := next' } : Graph B).adopted load'.table
        (placed.map fun e => (f e.1, e.2))) := by
  have hnodup : (placed.map Prod.fst).Nodup := hids ▸ load.graph.nodes.nodup_keys
  -- every node is one that was placed, so every node takes over a record
  have htwins : Assoc.Union f (fun id n n' => if id ∈ placed.map Prod.fst
      then n.Twin kind tame (f id) n' else n.Copied kind (· ∈ load.graph.links.keys) h (f id) n') g.nodes
      load.graph.nodes load'.graph.nodes := by
    refine hn.imp fun id n n' hid hc => ?_
    rw [if_pos (hids ▸ Assoc.mem_keys_of_get? hid)]
    exact hc
  have hcopies : Assoc.Union f (fun id n n' => n.Copied kind (· ∈ load.graph.links.keys) h (f id) n')
      g.nodes (({ load.graph with nextLink := next } : Graph B).adopted load.table placed).nodes
      (({ load'.graph with nextLink := next' } : Graph B).adopted load'.table
        (placed.map fun e => (f e.1, e.2))).nodes :=
    Graph.copied_adopted hd hl.table hl.known hnodup (fun id hid => hids ▸ hid) htwins
  obtain ⟨hkeys, hlinks⟩ :=
    Graph.keys_adopted load.table placed ({ load.graph with nextLink := next } : Graph B)
  obtain ⟨-, hlinks'⟩ := Graph.keys_adopted load'.table (placed.map fun e => (f e.1, e.2))
    ({ load'.graph with nextLink := next' } : Graph B)
  refine ⟨hcopies, ?_, ?_, fun i k hi hk => hl.links.injective hi hk, fun k => hl.links.fresh⟩
  · rw [hkeys, hlinks, hlinks']
    exact hl.links
  · rw [hlinks]
    exact fun k hk => hk

/-- The stages of a load keep a copy of what the snapshot alone gives beside a joined graph. -/
theorem settleLoad_merges (hd : Docile run kind tame) {f : NodeId → NodeId} {g : Graph B}
    (hg : g.Joined) {p q : Placing} {s t : Session B σ}
    (h : Landed kind tame f g.nodes p q s.graph t.graph) (hs : s.graph.links.keys = [])
    (ht : t.graph.links = g.links) (snapshot : Snapshot) :
    ∃ r, g.Merges kind f r (s.settleLoad snapshot p.placed p.nodes p.report).2.graph
      (t.settleLoad snapshot q.placed q.nodes q.report).2.graph := by
  have hstart : LinkLoad.Linked f id g.links ⟨s.graph, ∅, []⟩ ⟨t.graph, ∅, []⟩ := by
    refine ⟨?_, fun _ => rfl, fun _ _ hk => nomatch hk⟩
    show Assoc.Union id _ g.links s.graph.links t.graph.links
    rw [ht]
    exact .start id _ g.links hs
  obtain ⟨r, hl, hn, hn'⟩ := hstart.addAll h.table h.known snapshot.links
  change LinkLoad.Linked f r g.links (s.graph.mergeLinks p.nodes snapshot.links)
    (t.graph.mergeLinks q.nodes snapshot.links) at hl
  change (s.graph.mergeLinks p.nodes snapshot.links).graph.nodes = s.graph.nodes at hn
  change (t.graph.mergeLinks q.nodes snapshot.links).graph.nodes = t.graph.nodes at hn'
  obtain ⟨pruned, next, a, ha, ha'⟩ := s.settleLoad_stages hd.told snapshot p.placed p.nodes p.report
  obtain ⟨pruned', next', m, hm, hm'⟩ := t.settleLoad_stages hd.told snapshot q.placed q.nodes q.report
  have hids : p.placed.map Prod.fst = (s.graph.mergeLinks p.nodes snapshot.links).graph.nodes.keys := by
    rw [hn]
    exact h.ids
  have hbeside := beside_adopted hd hl hids (by rw [hn, hn']; exact h.nodes) next next'
  rw [← h.placed] at hbeside
  have hplaced : (p.placed.map Prod.fst).map f = q.placed.map Prod.fst := by
    rw [h.placed, List.map_map, List.map_map]
    rfl
  rw [← hplaced] at hm
  refine ⟨r, (Graph.beside_repair hbeside hg pruned pruned').merges (fun id hid => ?_) ha hm ha' hm'⟩
  rw [Graph.keys_repair, (Graph.keys_adopted ..).1]
  exact hids ▸ hid

/-- Merging a snapshot is a disjoint union.  A snapshot is loaded into an empty graph and beside
the nodes and links of a joined one, where there is room for all its nodes.  Then identities can be
renamed, without confusing any two, to some that were not in use, such that the larger graph is the
old one with a renamed copy of the smaller one behind it. -/
theorem load_merges (hd : Docile run kind tame) {s : Session B σ} (hs : s.graph.Joined)
    (htypes : ∀ name t, s.graph.registry.get? name = some t → tame (kind t.behavior))
    {snapshot : Snapshot}
    (hroom : s.graph.nodes.size + snapshot.nodes.length ≤ s.graph.settings.maxNodes)
    (keepOld : Bool) (events : List (Event B)) (host : σ) :
    ∃ alone a report s', load run snapshot keepOld
        ⟨Graph.empty s.graph.registry s.graph.settings, events, host⟩ = some (alone, a) ∧
      load run snapshot true s = some (report, s') ∧
      ∃ (f : NodeId → NodeId) (h : LinkId → LinkId),
        (∀ i ∈ a.graph.nodes.keys, f i ∉ s.graph.nodes.keys ∧
          ∀ j ∈ a.graph.nodes.keys, f i = f j → i = j) ∧
        (∀ i ∈ a.graph.links.keys, h i ∉ s.graph.links.keys ∧
          ∀ j ∈ a.graph.links.keys, h i = h j → i = j) ∧
        s.graph.Merges kind f h a.graph s'.graph := by
  let prepare (s : Session B σ) : Session B σ :=
    (s.edit fun g => { g with config := g.config.insertAll snapshot.config.entries }).beginBatch
  let empty : Session B σ := ⟨Graph.empty s.graph.registry s.graph.settings, events, host⟩
  let e := prepare (if keepOld then empty else empty.clear)
  let t := prepare s
  obtain ⟨hen, hel, her, hes⟩ : e.graph.nodes.keys = [] ∧ e.graph.links.keys = [] ∧
      e.graph.registry = s.graph.registry ∧ e.graph.settings = s.graph.settings := by
    cases keepOld <;> exact ⟨rfl, rfl, rfl, rfl⟩
  have hstart : Landed kind tame id s.graph.nodes ⟨.clean, [], ∅⟩ ⟨.clean, [], ∅⟩ e.graph t.graph := by
    refine ⟨.start id _ _ hen, her.symm, hes.symm, ?_, hen.symm, rfl, fun _ => rfl,
      fun _ _ h => nomatch h⟩
    rw [her]
    exact htypes
  obtain ⟨p, a, q, s', f, hp, hq, hland, hla, hls⟩ := placeAll_lands hd hstart hroom
  obtain ⟨h, hm⟩ := settleLoad_merges hd hs hland (hla ▸ hel) hls snapshot
  refine ⟨_, _, _, _, load_eq hp, load_eq hq, f, h, ?_, ?_, hm⟩
  · exact fun i hi => Assoc.renamed_of_nodup (hm.nodes ▸ Assoc.nodup_keys _) hi
  · exact fun i hi => Assoc.renamed_of_nodup (hm.links ▸ Assoc.nodup_keys _) hi

end Engine

/-- Only bridges touch the graph when they are added. -/
def Catalog.IsTame : Catalog → Prop
  | bridge .. => False
  | _ => True

instance : DecidablePred Catalog.IsTame
  | .bridge .. => isFalse id
  | .inert | .constant | .watch | .sum | .emitter | .counter | .recorder | .source _ | .layer _ =>
    isTrue trivial

/-- The behaviours of the catalog remember nothing that they are told. -/
theorem Catalog.docile (depth : Nat) :
    Docile (σ := Unit) (Engine.runner (depth + 1)) (fun b : Catalog => b) IsTame where
  inert := trivial
  told _ _ := rfl
  added b id s hb := by
    cases b with
    | bridge d registered => exact hb.elim
    | _ => exact ⟨_, _, rfl, rfl, rfl⟩
  yields _ _ _ _ := rfl

/-- Two types without bridges. -/
def pairTypes : Registry Catalog :=
  (Registry.register ∅ (Catalog.constantType id)).register (Catalog.watchType id)

theorem pair_runs : ∃ s, Engine.exec 1 watched
      (⟨Graph.empty pairTypes .default, [], ()⟩ : Session Catalog Unit) = some (.ok ⟨1⟩, s) ∧
    s.graph.registry = pairTypes ∧ s.graph.settings = .default ∧ s.graph.nodes.size = 2 ∧
    s.graph.snapshot.nodes.map NodeRecord.id = [some ⟨1⟩, some ⟨2⟩] ∧
    s.graph.nodes.keys = [⟨1⟩, ⟨2⟩] := ⟨_, rfl, rfl, rfl, rfl, rfl, rfl⟩

/-- A graph merged with its own snapshot, in which every identity is taken. -/
theorem pair_merges : ∃ s alone a report s', Engine.exec 1 watched
      (⟨Graph.empty pairTypes .default, [], ()⟩ : Session Catalog Unit) = some (.ok ⟨1⟩, s) ∧
    s.graph.nodes.keys = [⟨1⟩, ⟨2⟩] ∧
    s.graph.snapshot.nodes.map NodeRecord.id = [some ⟨1⟩, some ⟨2⟩] ∧
    Engine.load (Engine.runner 1) s.graph.snapshot false
      ⟨Graph.empty pairTypes .default, [], ()⟩ = some (alone, a) ∧
    Engine.load (Engine.runner 1) s.graph.snapshot true s = some (report, s') ∧
    ∃ f h, s.graph.Merges (fun b => b) f h a.graph s'.graph := by
  obtain ⟨s, hrun, hr, hset, hsize, hids, hkeys⟩ := pair_runs
  have htidy : (Graph.empty pairTypes .default : Graph Catalog).Tidy pairTypes :=
    ⟨Graph.consistent_of_empty rfl rfl, rfl⟩
  have hs : s.graph.Joined :=
    (Engine.keeps_exec (Engine.lawful_linking pairTypes) (Catalog.obeys_linking pairTypes)
      (watched_obeys pairTypes) 1 ⟨Graph.empty pairTypes .default, [], ()⟩ htidy _ s hrun).1.toJoined
  have htypes : ∀ name t, s.graph.registry.get? name = some t → t.behavior.IsTame := by
    intro name t ht
    rw [hr] at ht
    unfold pairTypes Registry.register at ht
    rw [Assoc.get?_insert, Assoc.get?_insert] at ht
    split at ht
    · cases ht
      exact trivial
    · split at ht
      · cases ht
        exact trivial
      · cases ht
  have hroom : s.graph.nodes.size + s.graph.snapshot.nodes.length ≤ s.graph.settings.maxNodes := by
    have hlen := congrArg List.length hids
    rw [List.length_map] at hlen
    rw [hsize, hlen, hset]
    decide
  obtain ⟨alone, a, report, s', halone, hmerge, f, h, -, -, hm⟩ :=
    Engine.load_merges (Catalog.docile 0) hs htypes hroom false [] ()
  rw [hr, hset] at halone
  exact ⟨s, alone, a, report, s', hrun, hkeys, hids, halone, hmerge, f, h, hm⟩

end Dataflow
