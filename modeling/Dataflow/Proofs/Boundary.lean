/-
  The terminals of a graph that was saved and loaded.

  The nodes on the boundary of a graph are recorded with the names of their terminals, and the
  terminals themselves are not recorded.  A load declares terminals under default names, and one
  step later every bridge has claimed the name that its node asks for.  Whether the terminals are
  then called as the nodes ask depends on the order in which they claim (`bridges_reload`): a node
  may ask for the default name of one that runs later.  Then its terminal is renamed to nothing,
  for that name is taken, unless the terminals trade names among themselves.
-/

import Dataflow.Proofs.Anchoring
import Dataflow.Proofs.Resaving
import Dataflow.Proofs.Spelling

namespace Dataflow

open Naming (claims)

/-! ## Default names -/

theorem natText_injective {m n : Nat} (h : natText m = natText n) : m = n := by
  have hchars : (Numeric.Numeral.ofInt m).chars = (Numeric.Numeral.ofInt n).chars := by
    have hl := congrArg String.toList h
    unfold natText Numeric.Numeral.text at hl
    rwa [String.toList_ofList, String.toList_ofList] at hl
  have hread := congrArg Json.Token.numeral? hchars
  rw [Json.Token.numeral?_chars, Json.Token.numeral?_chars] at hread
  exact congrArg Numeric.Numeral.whole (Option.some.inj hread)

/-- Different nodes have different default names. -/
theorem Catalog.defaultName_injective {d : Direction} {i j : NodeId}
    (h : defaultName d i = defaultName d j) : i = j := by
  have hnumber : i.number = j.number := by
    cases d <;> exact natText_injective (String.append_right_inj _ |>.1 h)
  cases i
  cases j
  exact congrArg NodeId.mk hnumber

/-! ## What nodes ask for -/

/-- Two records are not both those of bridges of a direction that ask for the same name. -/
def NodeRecord.Unlike (d : Direction) (r r' : NodeRecord) : Prop :=
  r.type = Catalog.bridgeType d → r'.type = Catalog.bridgeType d →
    r.properties.get? "name" ≠ r'.properties.get? "name"

theorem NodeRecord.Unlike.symm {d : Direction} {r r' : NodeRecord} (h : r.Unlike d r') :
    r'.Unlike d r := fun ht ht' hname => h ht' ht hname.symm

namespace Graph

variable {d : Direction} {g : Graph Catalog}

/-- The nodes of the type of a bridge, in the order of execution. -/
def bridges (d : Direction) (g : Graph Catalog) : List NodeId :=
  g.computeOrder.filter fun id => (g.nodes.get? id).any fun n => n.type = Catalog.bridgeType d

theorem nodup_defaultNames (d : Direction) (g : Graph Catalog) :
    ((g.bridges d).map (Catalog.defaultName d)).Nodup :=
  (g.nodup_computeOrder.filter _).map fun _ _ he => Catalog.defaultName_injective he

/-- The name that a node asks for. -/
def asked (g : Graph Catalog) (id : NodeId) : String :=
  ((g.nodes.get? id).bind fun n => (n.property? "name").bind Value.str?).getD ""

/-- The nodes that are recorded as bridges of a direction run in every pass, and every one asks for
a name of its own.  A node that stands in for no other one is recorded with its own type, mode and
properties. -/
structure Berths (d : Direction) (g : Graph Catalog) : Prop where
  asks : ∀ id n, g.nodes.get? id = some n → n.record.type = Catalog.bridgeType d →
    n.record.mode = some .always ∧
      ∃ name, n.record.properties.get? "name" = some (.str name) ∧ name ≠ ""
  apart : ∀ i j n m, g.nodes.get? i = some n → g.nodes.get? j = some m →
    n.record.type = Catalog.bridgeType d → m.record.type = Catalog.bridgeType d →
    n.record.properties.get? "name" = m.record.properties.get? "name" → i = j

theorem Berths.asks_snapshot (h : g.Berths d) {r : NodeRecord} (hr : r ∈ g.snapshot.nodes)
    (ht : r.type = Catalog.bridgeType d) : r.mode = some .always ∧
      ∃ name, r.properties.get? "name" = some (.str name) ∧ name ≠ "" := by
  obtain ⟨n, hn, rfl⟩ := List.mem_map.1 hr
  obtain ⟨id, -, hid⟩ := List.mem_filterMap.1 hn
  exact h.asks id n hid ht

theorem Berths.apart_snapshot (h : g.Berths d) : g.snapshot.nodes.Pairwise (·.Unlike d ·) := by
  show ((g.nodes.keys.filterMap g.nodes.get?).map Node.record).Pairwise _
  rw [List.pairwise_map, List.pairwise_filterMap]
  refine g.nodes.nodup_keys.imp fun {i j} hne n hn m hm htn htm hname => ?_
  exact hne (h.apart i j n m hn hm htn htm hname)

theorem asked_of_post? {id : NodeId} {p : Post} (hp : g.post? id = some p) :
    g.asked id = (p.name.bind Value.str?).getD "" := by
  obtain ⟨n, hn, rfl⟩ := node_of_post? hp
  unfold asked
  rw [hn]
  rfl

theorem Anchored.mem_bridges (h : g.Anchored d) {id : NodeId} :
    id ∈ g.bridges d ↔ (g.bridge? d id).isSome = true := by
  unfold bridges
  rw [List.mem_filter, h.serves, g.computeOrder_perm.mem_iff]
  unfold post?
  cases hn : g.nodes.get? id with
  | none => exact ⟨fun h => (nomatch h.2), fun h => (nomatch h)⟩
  | some n =>
    rw [Option.any_some, decide_eq_true_eq, Option.map_map, Option.map_some, Option.some_inj]
    exact and_iff_right (Assoc.mem_keys_of_get? hn)

theorem Anchored.bridges_eq (h : g.Anchored d) :
    g.bridges d = g.computeOrder.filter fun id => (g.bridge? d id).isSome := by
  apply List.filter_congr
  intro id hid
  have hmem : id ∈ g.bridges d ↔ _ := h.mem_bridges
  unfold bridges at hmem
  rw [List.mem_filter, and_iff_right hid] at hmem
  rw [Bool.eq_iff_iff]
  exact hmem

/-- The node of a bridge, after something that leaves types and names alone. -/
theorem Asks.node {g' : Graph Catalog} (h : g.Asks d g') {id : NodeId} {p : Post}
    (hp : g.bridge? d id = some p) : ∃ n, g'.nodes.get? id = some n ∧ n.type = p.type ∧
      n.property? "name" = p.name := by
  have hname := h.names id
  rw [hp] at hname
  obtain ⟨q, hq, hqname⟩ := Option.map_eq_some_iff.1 hname
  obtain ⟨hpost, -⟩ := bridge?_eq_some.1 hq
  have htype := h.types id
  rw [hpost, (bridge?_eq_some.1 hp).1] at htype
  obtain ⟨n, hn, rfl⟩ := node_of_post? hpost
  exact ⟨n, hn, Option.some.inj htype, hqname⟩

/-- The bridges are under their default names, run in every pass and ask for different names. -/
structure Berthed (d : Direction) (g : Graph Catalog) : Prop where
  anchored : g.Anchored d
  asks : ∀ id p, g.bridge? d id = some p → p.mode = .always ∧
    p.name = some (.str (g.asked id)) ∧ g.asked id ≠ ""
  apart : ∀ i ∈ g.bridges d, ∀ j ∈ g.bridges d, g.asked i = g.asked j → i = j

namespace Berthed

variable (h : g.Berthed d)
include h

/-- They wait for their turns in the order of execution. -/
theorem queue : g.Queue d (Catalog.defaultName d) g.asked g.computeOrder where
  deaf id p hp := ⟨(h.asks id p hp).1, (h.anchored.manned id p hp).2.2⟩
  executes id p hp := (h.anchored.manned id p hp).2.1
  asks id p hp := (h.asks id p hp).2
  registered id _ p hp := (h.anchored.manned id p hp).1

/-- After something that leaves types and names alone, the names of the nodes are those that the
bridges ask for. -/
theorem names_iff {g' : Graph Catalog} (hg' : g.Asks d g') (x : String) :
    (∃ id n, g'.nodes.get? id = some n ∧ n.type = Catalog.bridgeType d ∧
      n.property? "name" = some (.str x)) ↔ ∃ i ∈ g.bridges d, x = g.asked i := by
  constructor
  · rintro ⟨id, n, hn, htype, hname⟩
    have hserves : (g.post? id).map Post.type = some (Catalog.bridgeType d) := by
      rw [← hg'.types]
      unfold post?
      rw [hn, ← htype]
      rfl
    obtain ⟨p, hp⟩ := Option.isSome_iff_exists.1 ((h.anchored.serves id).2 hserves)
    obtain ⟨m, hm, -, hmname⟩ := hg'.node hp
    cases hn.symm.trans hm
    rw [(h.asks id p hp).2.1, hname] at hmname
    refine ⟨id, h.anchored.mem_bridges.2 (Option.isSome_of_eq_some hp), ?_⟩
    injection Option.some.inj hmname
  · rintro ⟨i, hi, rfl⟩
    have hserves := h.anchored.mem_bridges.1 hi
    obtain ⟨p, hp⟩ := Option.isSome_iff_exists.1 hserves
    obtain ⟨n, hn, htype, hname⟩ := hg'.node hp
    have hptype := (h.anchored.serves i).1 hserves
    rw [(bridge?_eq_some.1 hp).1] at hptype
    exact ⟨i, n, hn, htype.trans (Option.some.inj hptype), hname.trans (h.asks i p hp).2.1⟩

/-- The names of the terminals are those that the bridges have registered. -/
theorem terminals_iff (x : String) :
    x ∈ g.terminalNames d ↔ ∃ i ∈ g.bridges d, x = Catalog.defaultName d i := by
  rw [h.anchored.names]
  exact exists_congr fun i => and_congr_left fun _ => h.anchored.mem_bridges.symm

theorem nodup_wanted : ((g.bridges d).map g.asked).Nodup :=
  (g.nodup_computeOrder.filter _).map_on fun i hi j hj => h.apart i hi j hj

end Berthed

namespace Moored

variable {placed : List (NodeId × NodeRecord)} (h : g.Moored d placed)
include h

/-- A node asks for the name of its record. -/
theorem asked_eq {e : NodeId × NodeRecord} (he : e ∈ placed) {name : String}
    (hname : e.2.properties.get? "name" = some (.str name)) : g.asked e.1 = name := by
  obtain ⟨q, -, hq⟩ := h.posts e he
  rw [asked_of_post? hq]
  show (((e.2.properties.get? "name").or q.name).bind Value.str?).getD "" = name
  rw [hname]
  rfl

/-- The node for the record of a bridge is a bridge. -/
theorem isSome_bridge? {e : NodeId × NodeRecord} (he : e ∈ placed)
    (htype : e.2.type = Catalog.bridgeType d) : (g.bridge? d e.1).isSome = true := by
  obtain ⟨q, hq, hpost⟩ := h.posts e he
  rw [h.anchored.serves, hpost]
  exact congrArg some (hq.trans htype)

/-- A bridge has taken over the record of a bridge. -/
theorem record {id : NodeId} {p : Post} (hp : g.bridge? d id = some p) :
    ∃ (record : NodeRecord) (q : Post), (id, record) ∈ placed ∧
      record.type = Catalog.bridgeType d ∧ p = q.adopting record := by
  obtain ⟨hpost, -⟩ := bridge?_eq_some.1 hp
  obtain ⟨n, hn, -⟩ := node_of_post? hpost
  have hid : id ∈ placed.map Prod.fst := h.keys ▸ Assoc.mem_keys_of_get? hn
  obtain ⟨⟨i, record⟩, he, rfl⟩ := List.mem_map.1 hid
  obtain ⟨q, hq, hadopting⟩ := h.posts _ he
  have hadopted : p = q.adopting record := Option.some.inj (hpost.symm.trans hadopting)
  have hserves := (h.anchored.serves i).1 (Option.isSome_of_eq_some hp)
  rw [hpost, hadopted] at hserves
  exact ⟨record, q, he, hq.symm.trans (Option.some.inj hserves), hadopted⟩

/-- Bridges that were recorded with different names ask for these. -/
theorem berthed {g' : Graph Catalog} (hg' : g'.Berths d)
    (hsub : (placed.map Prod.snd).Sublist g'.snapshot.nodes) : g.Berthed d := by
  -- every bridge has taken over a record of the snapshot, which asks for a name
  have hbridge : ∀ id p, g.bridge? d id = some p → ∃ record, (id, record) ∈ placed ∧
      record.type = Catalog.bridgeType d ∧ p.mode = .always ∧
      record.properties.get? "name" = some (.str (g.asked id)) ∧
      p.name = some (.str (g.asked id)) ∧ g.asked id ≠ "" := by
    intro id p hp
    obtain ⟨record, q, he, htype, rfl⟩ := h.record hp
    have hrecord : record ∈ g'.snapshot.nodes := hsub.subset (List.mem_map_of_mem he)
    obtain ⟨hmode, name, hname, hne⟩ := hg'.asks_snapshot hrecord htype
    cases h.asked_eq he hname
    refine ⟨record, he, htype, ?_, hname, ?_, hne⟩
    · show record.mode.getD q.mode = .always
      rw [hmode]
      rfl
    · show (record.properties.get? "name").or q.name = _
      rw [hname]
      rfl
  refine ⟨h.anchored, fun id p hp => ?_, fun i hi j hj hij => ?_⟩
  · obtain ⟨record, -, -, hmode, -, hname, hne⟩ := hbridge id p hp
    exact ⟨hmode, hname, hne⟩
  · obtain ⟨p, hp⟩ := Option.isSome_iff_exists.1 (h.anchored.mem_bridges.1 hi)
    obtain ⟨q, hq⟩ := Option.isSome_iff_exists.1 (h.anchored.mem_bridges.1 hj)
    obtain ⟨r, hr, htr, -, hname, -⟩ := hbridge i p hp
    obtain ⟨r', hr', htr', -, hname', -⟩ := hbridge j q hq
    by_contra hne
    -- two bridges with one name would have come from two records with one name
    have hsymm : Std.Symm fun e e' : NodeId × NodeRecord => e.2.Unlike d e'.2 :=
      ⟨fun _ _ h => h.symm⟩
    have hpairs := List.pairwise_map.1 (hg'.apart_snapshot.sublist hsub)
    refine hpairs.forall hr hr' (fun he => hne (congrArg Prod.fst he)) htr htr' ?_
    rw [hname, hname', hij]

end Moored

end Graph

namespace Engine

variable {d : Direction}

/-- A step of one pass, with the bridges under their default names before it.  The terminals are
then called as the nodes ask, unless a node asks for the default name of one that runs later; and
even so if it belongs to a group of nodes that ask for the default names of that group. -/
theorem runStep_names (depth : Nat) {s : Session Catalog Unit} (ht : s.graph.Trusted)
    (hb : s.graph.Berthed d) :
    Ensures (runStep (runner depth) 1 true) s fun answer u => answer = .ok () →
      ((∀ x, x ∈ (u.graph.terminals d).keys ↔ ∃ id n, u.graph.nodes.get? id = some n ∧
          n.type = Catalog.bridgeType d ∧ n.property? "name" = some (.str x)) ↔
        ∀ i j, [i, j].Sublist (s.graph.bridges d) →
          s.graph.asked i = Catalog.defaultName d j →
          Naming.Exchanges (Catalog.defaultName d) s.graph.asked (s.graph.bridges d) i) := by
  refine (runStep_claims depth ht hb.queue).mono fun answer u h hok => ?_
  obtain ⟨hkept, hnames⟩ := h hok
  have hstart : (· ∈ s.graph.terminalNames d) =
      fun x => ∃ i ∈ s.graph.bridges d, x = Catalog.defaultName d i :=
    funext fun x => propext (hb.terminals_iff x)
  rw [← hb.anchored.bridges_eq, hstart] at hnames
  rw [← Naming.claims_right (s.graph.nodup_defaultNames d) hb.nodup_wanted]
  refine forall_congr' fun x => ?_
  rw [hb.names_iff hkept]
  exact iff_congr (hnames x) Iff.rfl

end Engine

/-- A graph is saved, and loaded into an empty graph over the same types, and that takes a step of
one pass.  If the bridges of a direction run in every pass and ask for different names, the
terminals are called as the nodes of the loaded graph ask exactly if no node asks for the default
name of one that runs later, groups apart that ask for the default names of the group. -/
theorem bridges_reload (d : Direction) {g : Graph Catalog} (hr : g.registry = Catalog.registry id)
    (hg : g.Berths d) (keepOld : Bool) (events : List (Event Catalog)) (depth : Nat) :
    ∃ report t, Engine.perform (Engine.runner (depth + 1)) (.load g.snapshot keepOld)
        ⟨Graph.empty g.registry g.settings, events, ()⟩ = some (report, t) ∧
      ∀ room u, Engine.perform (Engine.runner room) (.runStep 1 true) t = some (.ok (), u) →
        ((∀ x, x ∈ (u.graph.terminals d).keys ↔ ∃ id n, u.graph.nodes.get? id = some n ∧
            n.type = Catalog.bridgeType d ∧ n.property? "name" = some (.str x)) ↔
          ∀ i j, [i, j].Sublist (t.graph.bridges d) →
            t.graph.asked i = Catalog.defaultName d j →
            Naming.Exchanges (Catalog.defaultName d) t.graph.asked (t.graph.bridges d) i) := by
  obtain ⟨report, t, hload⟩ := Engine.answers_load (Catalog.answers_added depth) g.snapshot keepOld
    ⟨Graph.empty g.registry g.settings, events, ()⟩
  obtain ⟨placed, hmoored, hsub⟩ := Engine.load_anchors (d := d) (depth + 1) g.snapshot keepOld hr
    g.settings events report t hload
  have ht : t.graph.Trusted := Engine.trusted_load g.snapshot keepOld _ report t hload
  refine ⟨report, t, hload, fun room u hstep => ?_⟩
  exact Engine.runStep_names room ht (hmoored.berthed hg hsub) _ u hstep rfl

/-! ## Two inlets -/

/-- Two inlets with names. -/
def inletPair (first second : String) : Snapshot :=
  let inlet (id : Nat) (name : String) : NodeRecord :=
    { NodeRecord.new "graph/input" with
      id := some ⟨id⟩, properties := .ofList [("name", .str name)] }
  { nextNode := 3, nextLink := 1, nodes := [inlet 1 first, inlet 2 second], links := []
    groups := [], config := ∅ }

theorem inletPair_plain (first second : String) : (inletPair first second).Plain := by
  intro record hr outputs ho
  simp only [inletPair, NodeRecord.new, List.mem_cons, List.not_mem_nil, or_false] at hr
  rcases hr with rfl | rfl
  · cases ho
  · cases ho

/-- They are loaded while a batch is open, and run in the order of their identities. -/
theorem inletPair_loads {first second : String}
    (h : first = "left" ∧ second = "right" ∨ first = "input_2" ∧ second = "x") :
    (Engine.perform (Engine.runner 1) (.load (inletPair first second) false)
      (⟨Graph.empty (Catalog.registry id) .default, [], ()⟩ : Session Catalog Unit).beginBatch).any
      fun e =>
        let g := e.2.graph
        let sweep := (Sweep.start g).advance g 2
        g.nextLink ≤ idLimit && g.nodes.keys = [⟨1⟩, ⟨2⟩] && g.nodes.size ≤ g.settings.maxNodes &&
          g.priority ⟨1⟩ = 0 && g.priority ⟨2⟩ = 0 && sweep.ready = [] &&
          sweep.placed = [⟨1⟩, ⟨2⟩] &&
          (g.nodes.values.all fun n =>
            n.record.type = "graph/input" && n.record.mode = some .always) &&
          (g.nodes.values.map fun n => (n.record.properties.get? "name").bind Value.str?) =
            [some first, some second] := by
  rcases h with ⟨rfl, rfl⟩ | ⟨rfl, rfl⟩
  · decide +kernel
  · decide +kernel

/-- A session that two inlets were loaded into. -/
structure Session.Paired (first second : String) (s : Session Catalog Unit) : Prop where
  grown : Grown (Catalog.registry id) s []
  room : s.graph.nodes.size ≤ s.graph.settings.maxNodes
  nodes : ∃ n m : Node Catalog, s.graph.nodes.entries = [(⟨1⟩, n), (⟨2⟩, m)] ∧
    (n.record.type = "graph/input" ∧ n.record.mode = some .always ∧
      n.record.properties.get? "name" = some (.str first)) ∧
    m.record.type = "graph/input" ∧ m.record.mode = some .always ∧
      m.record.properties.get? "name" = some (.str second)
  order : s.graph.computeOrder = [⟨1⟩, ⟨2⟩]

theorem inletPair_paired {first second : String}
    (h : first = "left" ∧ second = "right" ∨ first = "input_2" ∧ second = "x") :
    ∃ s : Session Catalog Unit, s.Paired first second := by
  let start : Session Catalog Unit := ⟨Graph.empty (Catalog.registry id) .default, [], ()⟩
  obtain ⟨⟨report, s⟩, hload, hfacts⟩ := (Option.any_eq_true _ _).1 (inletPair_loads h)
  simp only [Bool.and_eq_true, decide_eq_true_eq] at hfacts
  obtain ⟨⟨⟨⟨⟨⟨⟨⟨hcount, hkeys⟩, hroom⟩, hone⟩, htwo⟩, hready⟩, hplaced⟩, hrecords⟩, hnames⟩ := hfacts
  have hbatch : Grown (Catalog.registry id) start.beginBatch [] :=
    Grown.call (c := .edit .beginBatch) 1 (.start .default []) (fun _ _ _ _ h => h) rfl (by decide)
  have hgrown := Grown.call (c := .load _ _) 1 hbatch (inletPair_plain first second) hload hcount
  refine ⟨s, hgrown, hroom, ?_, ?_⟩
  · obtain ⟨e, rest, he, hi, hrest⟩ := List.map_eq_cons_iff.1 hkeys
    obtain ⟨e', rest', rfl, hj, hnil⟩ := List.map_eq_cons_iff.1 hrest
    cases List.map_eq_nil_iff.1 hnil
    obtain ⟨i, n⟩ := e
    obtain ⟨j, m⟩ := e'
    cases hi
    cases hj
    unfold Assoc.values at hrecords hnames
    simp only [he, List.map_cons, List.map_nil, List.all_cons, List.all_nil, Bool.and_true,
      Bool.and_eq_true, decide_eq_true_eq, List.cons.injEq, and_true] at hrecords hnames
    obtain ⟨⟨hn, hnmode⟩, hm, hmmode⟩ := hrecords
    exact ⟨n, m, he, ⟨hn, hnmode, Value.eq_of_str? hnames.1⟩, hm, hmmode, Value.eq_of_str? hnames.2⟩
  · rw [Graph.computeOrder_of_advance (fun i hi => hkeys ▸ hi) hready hplaced]
    simp [List.mergeSort, List.MergeSort.Internal.splitInTwo, hone, htwo]

namespace Session.Paired

variable {first second : String} {s : Session Catalog Unit} (h : s.Paired first second)
  (hfirst : first ≠ "") (hsecond : second ≠ "") (hne : first ≠ second)
include h hfirst hsecond hne

theorem berths : s.graph.Berths .input := by
  obtain ⟨n, m, he, ⟨-, hnmode, hn⟩, -, hmmode, hm⟩ := h.nodes
  have hnode : ∀ i k, s.graph.nodes.get? i = some k → i = ⟨1⟩ ∧ k = n ∨ i = ⟨2⟩ ∧ k = m := by
    intro i k hk
    rw [Assoc.get?_eq_some_iff, he, List.mem_cons, List.mem_singleton, Prod.mk.injEq,
      Prod.mk.injEq] at hk
    exact hk
  constructor
  · intro i k hk _
    rcases hnode i k hk with ⟨-, rfl⟩ | ⟨-, rfl⟩
    · exact ⟨hnmode, first, hn, hfirst⟩
    · exact ⟨hmmode, second, hm, hsecond⟩
  · intro i j k l hk hl _ _ hname
    rcases hnode i k hk with ⟨rfl, rfl⟩ | ⟨rfl, rfl⟩ <;> rcases hnode j l hl with ⟨rfl, rfl⟩ | ⟨rfl, rfl⟩
    · rfl
    · rw [hn, hm] at hname
      exact absurd (Value.str.inj (Option.some.inj hname)) hne
    · rw [hn, hm] at hname
      exact absurd (Value.str.inj (Option.some.inj hname)).symm hne
    · rfl

/-- Both nodes are loaded again, and a step runs one after the other. -/
theorem reloads {report : LoadReport} {t : Session Catalog Unit}
    (hload : Engine.load (Engine.runner 1) s.graph.snapshot false
      ⟨Graph.empty s.graph.registry s.graph.settings, [], ()⟩ = some (report, t)) :
    t.graph.Trusted ∧ t.graph.Berthed .input ∧ t.graph.bridges .input = [⟨1⟩, ⟨2⟩] ∧
      t.graph.asked ⟨1⟩ = first ∧ t.graph.asked ⟨2⟩ = second ∧ ∃ u, Engine.runStep (Engine.runner 1) 1 true t = some (.ok (), u) := by
  obtain ⟨hsound, hfaithful, -⟩ := h.grown.sound Catalog.keyed_registry (Catalog.fresh_registry id)
  obtain ⟨report', t', hload', -, hrestored⟩ := Engine.load_restores Catalog.keyed_registry
    Catalog.named_registry hsound hfaithful 0
    (s := ⟨Graph.empty s.graph.registry s.graph.settings, [], ()⟩) hsound.registry h.room
  cases hload.symm.trans hload'
  obtain ⟨n, m, he, ⟨htn, -, hn⟩, htm, -, hm⟩ := h.nodes
  have hkeys : t.graph.nodes.keys = [⟨1⟩, ⟨2⟩] := by
    rw [Graph.keys_of_flow hrestored.flow]
    unfold Assoc.keys
    rw [he]
    rfl
  have hrecords : s.graph.snapshot.nodes = [n.record, m.record] := by
    rw [Graph.nodes_snapshot]
    unfold Assoc.values
    rw [he]
    rfl
  obtain ⟨placed, hmoored, hsub⟩ := Engine.load_anchors (d := .input) 1 s.graph.snapshot false
    hsound.registry s.graph.settings [] report t hload
  have hb : t.graph.Berthed .input := hmoored.berthed (h.berths hfirst hsecond hne) hsub
  -- no record was left out, and so each node has its own one
  have hsame : placed.map Prod.snd = [n.record, m.record] := by
    rw [hrecords] at hsub
    apply hsub.eq_of_length
    rw [List.length_map, ← List.length_map (f := Prod.fst), hmoored.keys, hkeys]
    rfl
  have hids := hmoored.keys.trans hkeys
  have hpairs : placed = [(⟨1⟩, n.record), (⟨2⟩, m.record)] := List.zip_of_prod hids hsame
  have horder : t.graph.computeOrder = [⟨1⟩, ⟨2⟩] := hrestored.computeOrder.trans h.order
  have hone : (⟨1⟩, n.record) ∈ placed := by simp [hpairs]
  have htwo : (⟨2⟩, m.record) ∈ placed := by simp [hpairs]
  have hall : ∀ id ∈ t.graph.nodes.keys, (t.graph.bridge? .input id).isSome = true := by
    intro id hid
    rw [hkeys, List.mem_cons, List.mem_singleton] at hid
    rcases hid with rfl | rfl
    · exact hmoored.isSome_bridge? hone htn
    · exact hmoored.isSome_bridge? htwo htm
  have ht : t.graph.Trusted := Engine.trusted_load _ false _ report t hload
  refine ⟨ht, hb, ?_, hmoored.asked_eq hone hn, hmoored.asked_eq htwo hm, ?_⟩
  · rw [hb.anchored.bridges_eq, horder, List.filter_eq_self]
    intro id hid
    exact hall id (hkeys ▸ hid)
  · exact Engine.runStep_bridges 0 ht hb.queue hall

end Session.Paired

/-- Two inlets that ask for other names than the default ones come back with their terminals. -/
theorem leftRight_reload : ∃ (s : Session Catalog Unit) (report : LoadReport)
    (t u : Session Catalog Unit),
    Grown (Catalog.registry id) s [] ∧ s.graph.registry = Catalog.registry id ∧
    s.graph.Berths .input ∧
    Engine.perform (Engine.runner 1) (.load s.graph.snapshot false)
      ⟨Graph.empty s.graph.registry s.graph.settings, [], ()⟩ = some (report, t) ∧
    Engine.perform (Engine.runner 1) (.runStep 1 true) t = some (.ok (), u) ∧
    t.graph.asked ⟨1⟩ = "left" ∧ t.graph.asked ⟨2⟩ = "right" ∧
    ∀ x, x ∈ (u.graph.terminals .input).keys ↔ ∃ id n, u.graph.nodes.get? id = some n ∧
      n.type = Catalog.bridgeType .input ∧ n.property? "name" = some (.str x) := by
  obtain ⟨s, hs⟩ := inletPair_paired (.inl ⟨rfl, rfl⟩)
  have hb := hs.berths (by decide) (by decide) (by decide)
  have hr := (hs.grown.sound Catalog.keyed_registry (Catalog.fresh_registry id)).1.registry
  obtain ⟨report, t, hload, hnames⟩ := bridges_reload .input hr hb false [] 0
  obtain ⟨-, -, hbridges, hleft, hright, u, hstep⟩ :=
    hs.reloads (by decide) (by decide) (by decide) hload
  refine ⟨s, report, t, u, hs.grown, hr, hb, hload, hstep, hleft, hright, (hnames 1 u hstep).2 ?_⟩
  -- nobody asks for a default name
  have hfree : ∀ i ∈ t.graph.bridges .input, ∀ j ∈ t.graph.bridges .input,
      t.graph.asked i ≠ Catalog.defaultName .input j := by
    simp only [hbridges, List.mem_cons, List.not_mem_nil, or_false, forall_eq_or_imp, forall_eq,
      hleft, hright]
    decide
  intro i j hij he
  exact absurd he (hfree i (hij.subset (by simp)) j (hij.subset (by simp)))

/-- The first of two inlets asks for the default name of the second one.  It is refused, and the
second one gives the name up after that. -/
theorem tradedName_lost : ∃ (s : Session Catalog Unit) (report : LoadReport)
    (t u : Session Catalog Unit),
    Grown (Catalog.registry id) s [] ∧ s.graph.registry = Catalog.registry id ∧
    s.graph.Berths .input ∧
    Engine.perform (Engine.runner 1) (.load s.graph.snapshot false)
      ⟨Graph.empty s.graph.registry s.graph.settings, [], ()⟩ = some (report, t) ∧
    Engine.perform (Engine.runner 1) (.runStep 1 true) t = some (.ok (), u) ∧
    t.graph.asked ⟨1⟩ = "input_2" ∧ t.graph.asked ⟨2⟩ = "x" ∧
    ¬∀ x, x ∈ (u.graph.terminals .input).keys ↔ ∃ id n, u.graph.nodes.get? id = some n ∧
      n.type = Catalog.bridgeType .input ∧ n.property? "name" = some (.str x) := by
  obtain ⟨s, hs⟩ := inletPair_paired (.inr ⟨rfl, rfl⟩)
  have hb := hs.berths (by decide) (by decide) (by decide)
  have hr := (hs.grown.sound Catalog.keyed_registry (Catalog.fresh_registry id)).1.registry
  obtain ⟨report, t, hload⟩ := Engine.answers_load (Catalog.answers_added 0) s.graph.snapshot false
    ⟨Graph.empty s.graph.registry s.graph.settings, [], ()⟩
  obtain ⟨ht, hberthed, hbridges, hfirst, hsecond, u, hstep⟩ :=
    hs.reloads (by decide) (by decide) (by decide) hload
  refine ⟨s, report, t, u, hs.grown, hr, hb, hload, hstep, hfirst, hsecond, fun hnames => ?_⟩
  have hexchange := (Engine.runStep_names 1 ht hberthed _ u hstep rfl).1 hnames ⟨1⟩ ⟨2⟩
    (by rw [hbridges]) (by rw [hfirst]; decide)
  -- the second inlet is in the group of the first one, but nobody holds the name that it asks for
  obtain ⟨j, hj, hjname⟩ := hexchange.holder
  obtain ⟨k, hk, hkname⟩ := hj.holder
  have hj' := hj.mem
  have hk' := hk.mem
  rw [hbridges, List.mem_cons, List.mem_singleton] at hj' hk'
  rcases hj' with rfl | rfl
  · rw [hfirst] at hjname
    exact absurd hjname (by decide)
  · rw [hsecond] at hkname
    rcases hk' with rfl | rfl
    · exact absurd hkname (by decide)
    · exact absurd hkname (by decide)

end Dataflow
