/-
  A snapshot loaded in the place of whatever was there.

  A sound graph of faithful nodes is recorded, and the snapshot is loaded into a graph with the same
  types, which was cleared and has room.  Phase by phase the first graph comes back.  Every node
  gets its own identity, because no other node has it (`Restoring`).  So does every link
  (`Rejoining`).  The nodes take over their records (`Ready.revived`), after which slots and links
  agree as they did in the first graph, so that there is nothing to repair (`restored`).
-/

import Dataflow.Proofs.Reviving

namespace Dataflow

variable {r : Registry Catalog} {g h h' : Graph Catalog}

/-! ## Nodes -/

/-- A requested identity that no node has is granted. -/
theorem Graph.claimNode_absent {B : Type} {g : Graph B} {id : NodeId} (h : id ∉ g.nodes.keys) :
    g.claimNode (some id) = (id, max g.nextNode (afterId id.number)) := by
  unfold claimNode
  simp only
  rw [if_neg (fun hc => h ((Assoc.contains_iff ..).1 hc))]

/-- A recorded identity that is granted is noted as itself. -/
theorem Engine.Placing.table_note {p : Placing} {ids : List NodeId}
    (h : ∀ i, p.nodes.get? i = if i ∈ ids then some i else none) {id : NodeId} (hid : id ∉ ids)
    {record : NodeRecord} (hr : record.id = some id) (missing : List String) (i : NodeId) :
    (p.note missing record id).nodes.get? i = if i ∈ ids ++ [id] then some i else none := by
  have hnone : p.nodes.contains id = false := by
    rw [Assoc.contains_eq_isSome, h, if_neg hid]
    rfl
  unfold note
  simp only [hr, hnone]
  exact Assoc.get?_insert_identity h id i

/-- Some nodes of a graph were made anew in another one that has nothing else in it. -/
structure Restoring (r : Registry Catalog) (g : Graph Catalog) (settings : Settings)
    (done : List (NodeId × Node Catalog)) (p : Engine.Placing) (h : Graph Catalog) : Prop where
  keys : h.nodes.keys = done.map Prod.fst
  ready : ∀ e ∈ done, ∀ n, h.nodes.get? e.1 = some n → n.Ready r e.1 e.2.record
  links : h.links.keys = []
  placed : p.placed = done.map fun e => (e.1, e.2.record)
  table : ∀ i, p.nodes.get? i = if i ∈ done.map Prod.fst then some i else none
  nextNode : h.nextNode ≤ g.nextNode
  nextLink : h.nextLink ≤ g.nextLink
  registry : h.registry = r
  settings : h.settings = settings
  config : h.config = g.config
  pruned : p.report.prunedLinks = []
  errors : p.report.hadErrors = true → ∃ e ∈ done, r.get? e.2.record.type = none

namespace Restoring

variable {settings : Settings} {done : List (NodeId × Node Catalog)} {p : Engine.Placing}

/-- One node more. -/
theorem note (hd : Restoring r g settings done p h) {id : NodeId} {m n : Node Catalog}
    (hid : id ∉ done.map Prod.fst) (hm : m.record.id = some id) (hn : n.id = some id)
    (hready : ∀ pos, Node.Ready r id m.record { n with id := some id, pos })
    (hnames : ∀ b ∈ n.behavior, ¬b.IsTame → "name" ∈ n.properties.keys)
    (hcount : afterId id.number ≤ g.nextNode) (hs : Engine.Settled h n h') {missing : List String}
    (hmissing : missing ≠ [] → r.get? m.record.type = none) :
    Restoring r g settings (done ++ [(id, m)]) (p.note missing m.record id) h' := by
  have habsent : id ∉ h.nodes.keys := hd.keys ▸ hid
  have hclaim : h.claimNode n.id = (id, max h.nextNode (afterId id.number)) := by
    rw [hn, Graph.claimNode_absent habsent]
  have hplacing : Engine.placing h n = h.place n id (max h.nextNode (afterId id.number)) := by
    unfold Engine.placing
    rw [hclaim]
  have hw := hs.trails.wiring
  rw [hplacing, Graph.place_snapped] at hw
  have hdone : (done ++ [(id, m)]).map Prod.fst = done.map Prod.fst ++ [id] := List.map_append
  constructor
  case keys =>
    rw [Engine.keys_of_trails hs.trails, hclaim, hd.keys, hdone]
  case ready =>
    intro e he n' hn'
    obtain ⟨n₀, hn₀, hf⟩ := hs.trails.nodes e.1 n' hn'
    have hk := Graph.names_of_propertyNames (hs.names hnames) hn₀ hn'
    rw [hplacing] at hn₀
    rcases Graph.node_of_place hn₀ with ⟨hi, pos, rfl⟩ | ⟨hi, hn₀⟩
    · rcases List.mem_append.1 he with he | he
      · exact absurd (hi ▸ List.mem_map_of_mem he) hid
      · rw [List.mem_singleton.1 he] at hn' ⊢
        exact (hready pos).follows hf hk
    · rcases List.mem_append.1 he with he | he
      · exact (hd.ready e he n₀ hn₀).follows hf hk
      · rw [List.mem_singleton.1 he] at hi
        exact absurd rfl hi
  case links =>
    rw [Graph.keys_links_of_wiring hs.trails.wiring, hplacing, Graph.place_snapped]
    exact hd.links
  case placed =>
    show p.placed ++ [(id, m.record)] = _
    rw [hd.placed, List.map_append]
    rfl
  case table =>
    intro i
    rw [hdone]
    exact Engine.Placing.table_note hd.table hid hm missing i
  case nextNode =>
    have hnext : h'.nextNode = max h.nextNode (afterId id.number) := congrArg Wiring.nextNode hw
    rw [hnext]
    exact Nat.max_le.2 ⟨hd.nextNode, hcount⟩
  case nextLink =>
    have hnext : h'.nextLink = h.nextLink := congrArg Wiring.nextLink hw
    rw [hnext]
    exact hd.nextLink
  case registry =>
    exact (congrArg Wiring.registry hw).trans hd.registry
  case settings =>
    exact hs.settings.trans hd.settings
  case config =>
    exact hs.config.trans hd.config
  case pruned =>
    exact hd.pruned
  case errors =>
    intro herr
    rcases Bool.or_eq_true_iff.1 (show (p.report.hadErrors || !missing.isEmpty) = true from herr) with
      herr | herr
    · obtain ⟨e, he, ht⟩ := hd.errors herr
      exact ⟨e, List.mem_append_left _ he, ht⟩
    · refine ⟨(id, m), List.mem_append_right _ (List.mem_singleton.2 rfl), hmissing ?_⟩
      rintro rfl
      cases herr

end Restoring

/-- The nodes of a recorded graph are made anew. -/
theorem Engine.placeAll_restores (hkeyed : r.Keyed) (hnamed : r.Named) (hg : g.Sound r)
    (hf : g.Faithful r) (depth : Nat) {done rest : List (NodeId × Node Catalog)}
    (hsplit : g.nodes.entries = done ++ rest) {settings : Settings}
    (hroom : g.nodes.size ≤ settings.maxNodes) {p : Placing} {s : Session Catalog Unit}
    (hd : Restoring r g settings done p s.graph) :
    Ensures (placeAll (runner depth) (rest.map fun e => e.2.record) p) s fun p s' =>
      Restoring r g settings g.nodes.entries p s'.graph := by
  induction rest generalizing done p s with
  | nil =>
    rw [List.append_nil] at hsplit
    rw [hsplit]
    exact Ensures.pure hd
  | cons e rest ih =>
    obtain ⟨id, m⟩ := e
    have hm : g.nodes.get? id = some m := Assoc.get?_of_split hsplit
    have hid := Node.id_record (hg.nodeOwn id m hm)
    have hfresh : id ∉ done.map Prod.fst := Assoc.notMem_of_split hsplit
    rw [List.map_cons]
    apply placeAll_step
    rw [hd.registry, hid]
    refine (insertNode_settles depth _ s).mono ?_
    rintro answer s' (⟨hfull, -⟩ | ⟨-, hok, hs⟩)
    · -- there is room for one more
      have hsize : s.graph.nodes.size = done.length := by
        rw [Assoc.size_eq_length_keys, hd.keys, List.length_map]
      have hmore := Assoc.length_lt_of_split hsplit
      rw [hd.settings, hsize] at hfull
      omega
    · have habsent : id ∉ s.graph.nodes.keys := hd.keys ▸ hfresh
      rw [Graph.claimNode_absent habsent] at hok
      refine ⟨fun i hi => ?_, fun e he => ?_⟩
      · rw [hok] at hi
        cases hi
        have hnote := hd.note (n := { (madeOf r m.record).1 with id := some id }) hfresh hid rfl
          (ready_madeOf hkeyed (hf id m hm)) (named_madeOf hnamed m.record)
          (hg.counted.node id (Assoc.mem_keys_of_get? hm)) hs (missing_madeOf m.record)
        exact ih (by rw [hsplit, List.append_assoc]; rfl) hnote
      · rw [hok] at he
        cases he

/-! ## Links -/

section Links

variable {B : Type} {r : Registry B} {g h : Graph B}

/-- The link as it is recorded: it has carried nothing yet. -/
def Link.emptied (l : Link) : Link := (LinkRecord.ofLink l).toLink

/-- Some links of a graph were loaded into another one, under their own identities. -/
structure Rejoining (g h : Graph B) (done : List (LinkId × Link)) (load : LinkLoad B) : Prop where
  rest : load.graph = { h with links := load.graph.links, nextLink := load.graph.nextLink }
  links : load.graph.links.entries = done.map fun e => (e.1, e.2.emptied)
  table : ∀ i, load.table.get? i = if i ∈ done.map Prod.fst then some i else none
  nextLink : load.graph.nextLink ≤ g.nextLink
  pruned : load.pruned = []

namespace Rejoining

variable {done : List (LinkId × Link)} {load : LinkLoad B}

theorem keys (hd : Rejoining g h done load) : load.graph.links.keys = done.map Prod.fst := by
  show load.graph.links.entries.map Prod.fst = _
  rw [hd.links, List.map_map]
  rfl

/-- One link more. -/
theorem add (hd : Rejoining g h done load) {k : LinkId} {l : Link} (hk : k ∉ done.map Prod.fst)
    (hl : l.id = k) (hcount : afterId k.number ≤ g.nextLink) {nodes : Renaming NodeId}
    (ho : nodes.get? l.origin = some l.origin) (ht : nodes.get? l.target = some l.target) :
    Rejoining g h (done ++ [(k, l)]) (LinkLoad.add nodes load (.ofLink l)) := by
  subst hl
  have habsent : l.id ∉ load.graph.links.keys := hd.keys ▸ hk
  have hclaim : load.claim l.id = (l.id, load.graph.nextLink) := by
    unfold LinkLoad.claim
    rw [hd.table, if_neg hk]
    show (if load.graph.links.contains l.id = true then _ else _) = _
    rw [if_neg fun hc => habsent ((Assoc.contains_iff ..).1 hc)]
  have hadd : LinkLoad.add nodes load (.ofLink l) = { load with
      graph := { load.graph with
        links := load.graph.links.insert l.id l.emptied
        nextLink := max load.graph.nextLink (afterId l.id.number) }
      table := load.table.insert l.id l.id } := by
    have ho' : nodes.get? (LinkRecord.ofLink l).origin = some l.origin := ho
    have ht' : nodes.get? (LinkRecord.ofLink l).target = some l.target := ht
    have hclaim' : load.claim (LinkRecord.ofLink l).id = (l.id, load.graph.nextLink) := hclaim
    unfold LinkLoad.add
    rw [ho', ht', hclaim']
    rfl
  have hdone : (done ++ [(l.id, l)]).map Prod.fst = done.map Prod.fst ++ [l.id] := List.map_append
  rw [hadd]
  constructor
  case rest =>
    show ({ load.graph with links := _, nextLink := _ } : Graph B) = _
    rw [hd.rest]
  case links =>
    show (load.graph.links.insert l.id l.emptied).entries = _
    rw [Assoc.entries_insert_of_notMem _ habsent, hd.links, List.map_append]
    rfl
  case table =>
    intro i
    rw [hdone]
    exact Assoc.get?_insert_identity hd.table l.id i
  case nextLink =>
    exact Nat.max_le.2 ⟨hd.nextLink, hcount⟩
  case pruned =>
    exact hd.pruned

theorem addAll (hg : g.Sound r) {nodes : Renaming NodeId}
    (hnodes : ∀ i ∈ g.nodes.keys, nodes.get? i = some i) {rest : List (LinkId × Link)}
    (hsplit : g.links.entries = done ++ rest) (hd : Rejoining g h done load) :
    Rejoining g h g.links.entries
      ((rest.map fun e => LinkRecord.ofLink e.2).foldl (LinkLoad.add nodes) load) := by
  induction rest generalizing done load with
  | nil =>
    rw [List.append_nil] at hsplit
    rw [hsplit]
    exact hd
  | cons e rest ih =>
    obtain ⟨k, l⟩ := e
    have hl : g.links.get? k = some l := Assoc.get?_of_split hsplit
    have hfresh : k ∉ done.map Prod.fst := Assoc.notMem_of_split hsplit
    -- both ends of the link are nodes
    obtain ⟨o, ho, -⟩ := hg.origin_exists hl
    obtain ⟨source, hsource, -⟩ := Graph.node_of_output ho
    obtain ⟨i, hi, -⟩ := hg.target_exists hl
    obtain ⟨sink, hsink, -⟩ := Graph.node_of_input hi
    refine ih (by rw [hsplit, List.append_assoc]; rfl) (hd.add hfresh (hg.linkOwn k l hl) ?_ ?_ ?_)
    · exact hg.counted.link k (Assoc.mem_keys_of_get? hl)
    · exact hnodes _ (Assoc.mem_keys_of_get? hsource)
    · exact hnodes _ (Assoc.mem_keys_of_get? hsink)

end Rejoining

/-- The links of a recorded graph are loaded. -/
theorem Graph.mergeLinks_rejoins [Kind B] (hg : g.Sound r) {nodes : Renaming NodeId}
    (hnodes : ∀ i ∈ g.nodes.keys, nodes.get? i = some i) (hlinks : h.links.keys = [])
    (hnext : h.nextLink ≤ g.nextLink) :
    Rejoining g h g.links.entries (h.mergeLinks nodes g.snapshot.links) := by
  have hrecords : g.snapshot.links = g.links.entries.map fun e => LinkRecord.ofLink e.2 := by
    show (g.links.entries.map Prod.snd).map LinkRecord.ofLink = _
    rw [List.map_map]
    rfl
  have hempty : h.links.entries = [] := List.map_eq_nil_iff.1 hlinks
  have hstart : Rejoining g h [] ⟨h, ∅, []⟩ := ⟨rfl, hempty, fun _ => rfl, hnext, rfl⟩
  rw [hrecords]
  exact hstart.addAll hg hnodes rfl

end Links

/-! ## Records -/

theorem Graph.nodes_snapshot {B : Type} [Kind B] (g : Graph B) :
    g.snapshot.nodes = g.nodes.values.map Node.record := by
  show (g.nodes.keys.filterMap g.nodes.get?).map Node.record = _
  rw [Assoc.filterMap_keys]

theorem Graph.records_snapshot {B : Type} [Kind B] (g : Graph B) :
    g.snapshot.nodes = g.nodes.entries.map fun e => e.2.record := by
  rw [nodes_snapshot]
  show (g.nodes.entries.map Prod.snd).map Node.record = _
  rw [List.map_map]
  rfl

/-- The nodes of two graphs are alike, identity by identity. -/
structure Graph.Resembles (g g' : Graph Catalog) : Prop where
  keys : g'.nodes.keys = g.nodes.keys
  nodes : ∀ id m n, g.nodes.get? id = some m → g'.nodes.get? id = some n → m.Alike n

namespace Graph.Resembles

variable {g g' g'' : Graph Catalog}

/-- What does not tell apart nodes that are alike is the same in both graphs. -/
theorem mapValues {γ : Type} (h : g.Resembles g') {f : Node Catalog → γ}
    (hf : ∀ m n, m.Alike n → f n = f m) :
    g'.nodes.mapValues (fun _ n => f n) = g.nodes.mapValues fun _ n => f n := by
  apply Assoc.ext_view
  · rw [Assoc.keys_mapValues, Assoc.keys_mapValues, h.keys]
  · intro id
    rw [Assoc.get?_mapValues, Assoc.get?_mapValues]
    cases hn : g'.nodes.get? id with
    | none =>
      have hid : id ∉ g.nodes.keys := h.keys ▸ (Assoc.get?_eq_none_iff ..).1 hn
      rw [(Assoc.get?_eq_none_iff ..).2 hid]
    | some n =>
      obtain ⟨m, hm⟩ := Assoc.mem_keys_iff.1 (h.keys ▸ Assoc.mem_keys_of_get? hn)
      rw [hm, Option.map_some, Option.map_some, hf m n (h.nodes id m n hm hn)]

theorem records (h : g.Resembles g') :
    g'.nodes.values.map Node.record = g.nodes.values.map Node.record := by
  have hr := congrArg Assoc.values (h.mapValues (f := Node.record) fun _ _ hn => hn.record)
  have hvalues : ∀ g : Graph Catalog, (g.nodes.mapValues fun _ n => n.record).values =
      g.nodes.values.map Node.record := by
    intro g
    show (g.nodes.entries.map _).map Prod.snd = (g.nodes.entries.map Prod.snd).map Node.record
    rw [List.map_map, List.map_map]
    rfl
  rwa [hvalues, hvalues] at hr

theorem priority (h : g.Resembles g') (id : NodeId) : g'.priority id = g.priority id := by
  have hp := congrArg (fun ps : Assoc NodeId Int => (ps.get? id).getD 0)
    (h.mapValues (f := Node.priority) fun _ _ hn => hn.priority)
  simp only [Assoc.get?_mapValues] at hp
  exact hp

/-- With the same links the graphs are wired the same, whatever their counters are. -/
theorem wiring (h : g.Resembles g') (hr : g'.registry = g.registry)
    (hl : g'.links = g.links.mapValues fun _ l => l.emptied) :
    (g'.recount g.nextNode g.nextLink).wiring = g.wiring := by
  have hn := h.mapValues (f := Node.pins) fun _ _ hn => hn.pins
  have hends : (g'.links.mapValues fun _ l => l.ends) = g.links.mapValues fun _ l => l.ends := by
    rw [hl, Assoc.mapValues_mapValues]
    rfl
  show (⟨g'.registry, g'.nodes.mapValues _, g'.links.mapValues _, _, _⟩ : Wiring Catalog) = _
  rw [hr, hn, hends]
  rfl

theorem of_still (h : g.Resembles g') (hw : g''.wiring = g'.wiring) (hs : g''.still = g'.still) :
    g.Resembles g'' := by
  refine ⟨(Graph.keys_nodes_of_wiring hw).trans h.keys, fun id m n hm hn => ?_⟩
  obtain ⟨n', hn', he⟩ := Graph.node_of_still hs hn
  exact (h.nodes id m n' hm hn').of_still he.symm

theorem reordered (h : g.Resembles g') (hr : g'.Reordered g'') : g.Resembles g'' := by
  refine ⟨hr.keys.trans h.keys, fun id m n hm hn => ?_⟩
  obtain ⟨n', hn'⟩ := Assoc.mem_keys_iff.1 (hr.keys ▸ Assoc.mem_keys_of_get? hn)
  obtain ⟨order, ho⟩ := hr.nodes id n' hn'
  cases Option.some.inj (ho.symm.trans hn)
  exact (h.nodes id m n' hm hn').reordered order

end Graph.Resembles

namespace Restoring

variable {settings : Settings} {p : Engine.Placing}

/-- The nodes take over their records. -/
theorem resembles (hd : Restoring r g settings g.nodes.entries p h) (hg : g.Sound r)
    (hf : g.Faithful r) {table : Renaming LinkId}
    (htable : ∀ k ∈ g.links.keys, table.get? k = some k) (hnodes : h'.nodes = h.nodes) :
    g.Resembles (h'.adopted table p.placed) ∧
      ∀ e ∈ p.placed, ∀ n, h.nodes.get? e.1 = some n →
        (n.applyRecord e.2).1.losesLinks (fun _ _ k => table.get? k) = false := by
  have hrevived : ∀ id m n, g.nodes.get? id = some m → h.nodes.get? id = some n →
      (∀ d slot k, m.Names d slot k → table.get? k = some k) ∧
      (n.applyRecord m.record).1.relink (fun _ _ k => table.get? k) = (n.applyRecord m.record).1 ∧
      m.Alike (n.applyRecord m.record).1 := by
    intro id m n hm hn
    have hready := hd.ready (id, m) ((Assoc.get?_eq_some_iff ..).1 hm) n hn
    have hnames : ∀ d slot k, m.Names d slot k → table.get? k = some k := by
      intro d slot k hk
      obtain ⟨l, hl, -⟩ := hg.toJoined.of_names hm hk
      exact htable k (Assoc.mem_keys_of_get? hl)
    exact ⟨hnames, hready.revived (hf id m hm) (hg.nodeOwn id m hm) hnames⟩
  constructor
  · refine ⟨?_, fun id m n hm hn => ?_⟩
    · rw [(Graph.keys_adopted ..).1, hnodes, hd.keys]
      rfl
    · have hids : (p.placed.map Prod.fst).Nodup := by
        rw [hd.placed, List.map_map]
        exact g.nodes.nodup
      have he : (id, m.record) ∈ p.placed := by
        rw [hd.placed]
        exact List.mem_map_of_mem ((Assoc.get?_eq_some_iff ..).1 hm)
      rw [Graph.get?_adopted table hids he, hnodes] at hn
      obtain ⟨n₀, hn₀, rfl⟩ := Option.map_eq_some_iff.1 hn
      obtain ⟨-, hrelink, halike⟩ := hrevived id m n₀ hm hn₀
      rw [hrelink]
      exact halike
  · intro e he n hn
    rw [hd.placed] at he
    obtain ⟨⟨id, m⟩, hm, rfl⟩ := List.mem_map.1 he
    obtain ⟨hnames, -, halike⟩ := hrevived id m n ((Assoc.get?_eq_some_iff ..).2 hm) hn
    apply Node.losesLinks_eq_false
    intro d slot k hk
    rw [hnames d slot k (Node.names_of_pins halike.pins hk)]
    rfl

end Restoring

/-- Nodes that take over their records and lose no links by it. -/
theorem Session.adopts_lossless {B σ : Type} [Kind B] {table : Renaming LinkId}
    {placed : List (NodeId × NodeRecord)} (hids : (placed.map Prod.fst).Nodup) {s : Session B σ}
    (hkept : ∀ e ∈ placed, ∀ n, s.graph.nodes.get? e.1 = some n →
      (n.applyRecord e.2).1.losesLinks (fun _ _ k => table.get? k) = false) :
    (placed.foldl (fun (lost, s) (id, r) =>
      let (l, s) := s.adopt table id r
      (lost || l, s)) (false, s)).1 = false := by
  induction placed generalizing s with
  | nil => rfl
  | cons e placed ih =>
    rw [List.map_cons, List.nodup_cons] at hids
    have hlost : (s.adopt table e.1 e.2).1 = false := by
      unfold adopt
      cases hn : s.graph.nodes.get? e.1 with
      | none => rfl
      | some n => exact hkept e (List.mem_cons_self ..) n hn
    show (placed.foldl _ (false || (s.adopt table e.1 e.2).1, (s.adopt table e.1 e.2).2)).1 = false
    rw [hlost]
    refine ih hids.2 fun e' he' n hn => hkept e' (List.mem_cons_of_mem e he') n ?_
    -- the nodes that are left were not touched
    have hne : e'.1 ≠ e.1 := ne_of_mem_of_not_mem (List.mem_map_of_mem he') hids.1
    rwa [graph_adopt, Graph.get?_modifyNode, if_neg hne] at hn

/-! ## The graph as it was -/

/-- A graph cannot be told from another one by what is recorded of it or by what its order of
execution depends on. -/
structure Graph.Restored (g g' : Graph Catalog) : Prop where
  snapshot : g'.snapshot = g.snapshot
  flow : g'.flow = g.flow
  priority : ∀ id, g'.priority id = g.priority id

theorem Graph.Restored.computeOrder {g g' : Graph Catalog} (h : g.Restored g') :
    g'.computeOrder = g.computeOrder := computeOrder_of_flow h.flow h.priority

/-- A snapshot was loaded without loss: no link was pruned, and there were errors only if a type was
not known. -/
structure LoadReport.Lossless (r : Registry Catalog) (snapshot : Snapshot) (report : LoadReport) :
    Prop where
  prunedLinks : report.prunedLinks = []
  hadErrors : report.hadErrors = true → ∃ record ∈ snapshot.nodes, r.get? record.type = none

/-- A graph has come back in another one, but for its groups and its counter for nodes. -/
structure Graph.Recovers (g g' : Graph Catalog) : Prop extends g.Resembles g' where
  links : g'.links = g.links.mapValues fun _ l => l.emptied
  registry : g'.registry = g.registry
  config : g'.config = g.config
  nextNode : g'.nextNode ≤ g.nextNode
  nextLink : g'.nextLink = g.nextLink

namespace Graph.Recovers

/-- There is nothing to repair. -/
theorem repair (h : g.Recovers h') (hg : g.Sound r) (pruned : List LinkId) :
    h'.repair pruned = ⟨h', pruned, false⟩ := by
  have hj := hg.toJoined.of_wiring (h.wiring h.registry h.links)
  have hjoined : h'.Joined := ⟨hj.apart, hj.inputs, hj.outputs⟩
  exact repair_joined hjoined pruned

/-- What a load ends with brings back the rest. -/
theorem finish {s : Session Catalog Unit} (h : g.Recovers s.graph) :
    g.Restored (s.finishLoad g.snapshot).graph := by
  obtain ⟨hw, hlast, hgroups, hconfig, -⟩ := s.finishLoad_spec g.snapshot
  have hresembles := h.toResembles.reordered hlast
  generalize (s.finishLoad g.snapshot).graph = t at hw hlast hgroups hconfig hresembles
  have hlinks : t.links = g.links.mapValues fun _ l => l.emptied := hlast.links.trans h.links
  have hregistry : t.registry = g.registry := (congrArg Wiring.registry hw).trans h.registry
  have hflow := flow_of_wiring (hresembles.wiring hregistry hlinks)
  refine ⟨?_, show t.flow = g.flow from hflow, hresembles.priority⟩
  have hnextNode : t.nextNode = g.nextNode :=
    (congrArg Wiring.nextNode hw).trans (Nat.max_eq_right h.nextNode)
  have hnextLink : t.nextLink = g.nextLink := (congrArg Wiring.nextLink hw).trans h.nextLink
  have hrecords : t.links.values.map LinkRecord.ofLink = g.links.values.map LinkRecord.ofLink := by
    rw [hlinks]
    show ((g.links.entries.map _).map Prod.snd).map LinkRecord.ofLink =
      (g.links.entries.map Prod.snd).map LinkRecord.ofLink
    rw [List.map_map, List.map_map, List.map_map]
    rfl
  show (⟨t.nextNode, t.nextLink, t.snapshot.nodes, t.links.values.map LinkRecord.ofLink, t.groups,
    t.config⟩ : Snapshot) = _
  rw [hnextNode, hnextLink, nodes_snapshot, hresembles.records, ← nodes_snapshot, hrecords, hgroups,
    hconfig, h.config]
  rfl

end Graph.Recovers

namespace Session

/-- Behaviours are told about it. -/
theorem Told.recovers {s t : Session Catalog Unit} (ht : s.Told t) (h : g.Recovers s.graph) :
    g.Recovers t.graph where
  toResembles := h.toResembles.of_still (Graph.wiring_of_skeleton ht.skeleton) ht.still
  links := (congrArg Graph.links ht.rest).trans h.links
  registry := (congrArg Graph.registry ht.rest).trans h.registry
  config := (congrArg Graph.config ht.rest).trans h.config
  nextNode := Nat.le_trans (Nat.le_of_eq (congrArg Graph.nextNode ht.rest)) h.nextNode
  nextLink := (congrArg Graph.nextLink ht.rest).trans h.nextLink

/-- After the nodes were made anew, the rest of the load brings the graph back. -/
theorem settleLoad_restores (hg : g.Sound r) (hf : g.Faithful r) {settings : Settings}
    {p : Engine.Placing} {s : Session Catalog Unit}
    (hd : Restoring r g settings g.nodes.entries p s.graph) :
    LoadReport.Lossless r g.snapshot (s.settleLoad g.snapshot p.placed p.nodes p.report).1 ∧
      g.Restored (s.settleLoad g.snapshot p.placed p.nodes p.report).2.graph := by
  let load := s.graph.mergeLinks p.nodes g.snapshot.links
  let merged := s.edit fun _ =>
    { load.graph with nextLink := max load.graph.nextLink g.snapshot.nextLink }
  let adopted := merged.graph.adopted load.table p.placed
  -- every link gets its own identity again
  have hload : Rejoining g s.graph g.links.entries load := by
    refine Graph.mergeLinks_rejoins hg (fun i hi => ?_) hd.links hd.nextLink
    rw [hd.table]
    exact if_pos hi
  have htable : ∀ k ∈ g.links.keys, load.table.get? k = some k := by
    intro k hk
    rw [hload.table]
    exact if_pos hk
  have hnodes : merged.graph.nodes = s.graph.nodes := (congrArg Graph.nodes hload.rest).trans rfl
  -- the nodes take over their records
  obtain ⟨hresembles, hkept⟩ := hd.resembles hg hf htable hnodes
  -- so the graph is the recorded one before it is repaired
  have hrecovers : g.Recovers adopted := by
    have hlinks : adopted.links = load.graph.links := (Graph.keys_adopted ..).2
    have hadopted : adopted = { s.graph with
        nodes := adopted.nodes, links := load.graph.links, nextLink := g.nextLink } := by
      have hnext : max load.graph.nextLink g.nextLink = g.nextLink := Nat.max_eq_right hload.nextLink
      refine (Graph.adopted_eq ..).trans ?_
      show ({ load.graph with
        nodes := adopted.nodes, nextLink := max load.graph.nextLink g.nextLink } : Graph Catalog) = _
      rw [hnext, hload.rest]
    refine ⟨hresembles, ?_, ?_, ?_, ?_, (congrArg Graph.nextLink hadopted).trans rfl⟩
    · apply Assoc.ext_entries
      rw [hlinks]
      exact hload.links
    · exact (congrArg Graph.registry hadopted).trans (hd.registry.trans hg.registry.symm)
    · exact (congrArg Graph.config hadopted).trans hd.config
    · exact Nat.le_trans (Nat.le_of_eq (congrArg Graph.nextNode hadopted)) hd.nextNode
  -- and there is nothing to repair
  have hrepair : adopted.repair (p.report.prunedLinks ++ load.pruned) = ⟨adopted, [], false⟩ := by
    rw [hrecovers.repair hg, hd.pruned, hload.pruned]
    rfl
  have hids : (p.placed.map Prod.fst).Nodup := by
    rw [hd.placed, List.map_map]
    exact g.nodes.nodup
  have hlost := adopts_lossless (s := merged) hids fun e he n hn => hkept e he n (hnodes ▸ hn)
  obtain ⟨told, htold, heq⟩ := s.settleLoad_eq g.snapshot p.placed p.nodes p.report
  rw [heq]
  refine ⟨⟨congrArg (·.pruned) hrepair, fun herr => ?_⟩, (htold.recovers ?_).finish⟩
  · change (p.report.hadErrors || !load.pruned.isEmpty || _ ||
      (adopted.repair (p.report.prunedLinks ++ load.pruned)).repaired) = true at herr
    rw [hrepair, hload.pruned, hlost] at herr
    simp only [List.isEmpty_nil, Bool.not_true, Bool.or_false] at herr
    obtain ⟨e, he, ht⟩ := hd.errors herr
    refine ⟨e.2.record, ?_, ht⟩
    rw [Graph.records_snapshot]
    exact List.mem_map_of_mem he
  · show g.Recovers (adopted.repair (p.report.prunedLinks ++ load.pruned)).graph
    rw [hrepair]
    exact hrecovers

end Session

/-- A recorded graph is loaded in the place of another one. -/
theorem Engine.load_restores (hkeyed : r.Keyed) (hnamed : r.Named) (hg : g.Sound r)
    (hf : g.Faithful r) (depth : Nat) {s : Session Catalog Unit} (hs : s.graph.registry = r)
    (hroom : g.nodes.size ≤ s.graph.settings.maxNodes) :
    ∃ report s', load (runner (depth + 1)) g.snapshot false s = some (report, s') ∧
      report.Lossless r g.snapshot ∧ g.Restored s'.graph := by
  obtain ⟨hregistry, hsettings⟩ := s.clear_spec
  let opened := (s.clear.edit fun h =>
    { h with config := h.config.insertAll g.snapshot.config.entries }).beginBatch
  have hstart : Restoring r g s.graph.settings [] ⟨.clean, [], ∅⟩ opened.graph := by
    have hconfig : (∅ : Assoc String Value).insertAll g.config.entries = g.config :=
      Assoc.insertAll_entries List.nil_prefix
    exact ⟨rfl, fun _ he => (nomatch he), rfl, rfl, fun _ => rfl, hg.counted.nodeStart,
      hg.counted.linkStart, hregistry.trans hs, hsettings, hconfig, rfl, fun he => (nomatch he)⟩
  have hrestores : Ensures (load (runner (depth + 1)) g.snapshot false) s fun report s' =>
      report.Lossless r g.snapshot ∧ g.Restored s'.graph := by
    apply Ensures.modify_bind
    apply Ensures.bind
    rw [Graph.records_snapshot]
    refine (placeAll_restores hkeyed hnamed hg hf _ rfl hroom hstart).mono fun p t hd => ?_
    exact Ensures.total (Session.settleLoad_restores hg hf hd)
  obtain ⟨report, s', hload⟩ :=
    answers_load (Catalog.answers_added depth) g.snapshot false s
  exact ⟨report, s', hload, hrestores report s' hload⟩

end Dataflow
