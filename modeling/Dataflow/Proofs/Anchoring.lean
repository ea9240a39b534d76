/-
  How a load leaves the bridges.

  When the node of a bridge is added, it says no name yet, because it takes over its record only
  later.  So the bridge declares a terminal under the default name, which the identity of the node
  gives it, and registers that.  Nothing that is done to the nodes afterwards runs the body of a
  bridge; so at the end of a load all bridges still have their default names registered, and these
  are the names of the terminals (`Graph.Anchored`), whatever the records ask for.
-/

import Dataflow.Proofs.Grown
import Dataflow.Proofs.Mooring
import Dataflow.Proofs.Report

namespace Dataflow

/-! ## The nodes of bridges -/

namespace Catalog

/-- The type of the bridges of a direction. -/
def bridgeType : Direction → String
  | .input => "graph/input"
  | .output => "graph/output"

/-- A bridge that has registered nothing yet. -/
def isUnmoored (d : Direction) : Catalog → Bool
  | bridge d' none => d' = d
  | _ => false

theorem isUnmoored_iff {d : Direction} {b : Catalog} : b.isUnmoored d = true ↔ b = .bridge d none := by
  constructor
  · intro h
    unfold isUnmoored at h
    split at h
    · rw [of_decide_eq_true h]
    · cases h
  · rintro rfl
    exact decide_eq_true rfl

/-- The types of the catalog make bridges of a direction where they should, without a name. -/
theorem types_unmoored (d : Direction) : ∀ t ∈ (types id : List (NodeType Catalog)),
    if t.id = bridgeType d then
      t.behavior.isUnmoored d = true ∧ t.mode = .always ∧
        (t.initialProperties.get? "name").bind Value.str? = some ""
    else t.behavior.direction ≠ some d := by
  cases d <;> decide +kernel

theorem told_eq (b : Catalog) (notice : Notice) : id (Kind.told b notice) = id b := rfl

theorem known_bridgeType (d : Direction) :
    ((registry id : Registry Catalog).get? (bridgeType d)).isSome = true := by
  cases d <;> decide +kernel

/-- What is made of a record is of its type, and it is a bridge exactly if that is the type of
one. -/
theorem post_madeOf (d : Direction) (record : NodeRecord) :
    let p := (Engine.madeOf (registry id) record).1.post
    p.type = record.type ∧
      if record.type = bridgeType d then
        p.behavior = some (.bridge d none) ∧ p.mode = .always ∧ p.canExecute = true ∧
          p.acceptsActions = false ∧ (p.name.bind Value.str?).getD "" = ""
      else p.serves d = false := by
  unfold Engine.madeOf Registry.create
  cases ht : (registry id).get? record.type with
  | none =>
    refine ⟨rfl, ?_⟩
    rw [if_neg]
    · rfl
    · intro h
      have hknown := known_bridgeType d
      rw [← h, ht] at hknown
      cases hknown
  | some t =>
    have htype : t.id = record.type := keyed_registry _ _ ht
    have hfacts := types_unmoored d t ((Registry.mem_of_registerAll ht).resolve_right nofun)
    obtain ⟨size, pos, he⟩ := (t.instantiate record.title).attachDefaults_eq t
    simp only [he]
    rw [htype] at hfacts
    refine ⟨htype, ?_⟩
    split
    · next h =>
      rw [if_pos h] at hfacts
      obtain ⟨hb, hmode, hname⟩ := hfacts
      rw [isUnmoored_iff] at hb
      refine ⟨congrArg some hb, hmode, ?_, ?_, ?_⟩
      · show hasBody t.behavior = true
        rw [hb]
        rfl
      · show handlesEvents t.behavior = false
        rw [hb]
        rfl
      · show ((t.initialProperties.get? "name").bind Value.str?).getD "" = ""
        rw [hname]
        rfl
    · next h =>
      rw [if_neg h] at hfacts
      exact decide_eq_false hfacts

end Catalog

/-! ## Bridges under their default names -/

/-- The nodes of the type of a bridge are bridges, all of them have their default names registered,
and there are terminals for those and no others. -/
structure Graph.Anchored (d : Direction) (g : Graph Catalog) : Prop where
  serves : ∀ id, (g.bridge? d id).isSome = true ↔
    (g.post? id).map Post.type = some (Catalog.bridgeType d)
  manned : ∀ id p, g.bridge? d id = some p →
    p.behavior = some (.bridge d (some (Catalog.defaultName d id))) ∧ p.canExecute = true ∧
      p.acceptsActions = false
  names : ∀ x, x ∈ g.terminalNames d ↔
    ∃ id, (g.bridge? d id).isSome = true ∧ x = Catalog.defaultName d id

namespace Graph.Anchored

variable {d : Direction} {g g' : Graph Catalog}

theorem bypasses (h : g.Anchored d) (hb : g.Bypasses d g') : g'.Anchored d := by
  refine ⟨fun id => ?_, fun id p hp => ?_, fun x => ?_⟩
  · rw [hb.bridges, hb.types]
    exact h.serves id
  · rw [hb.bridges] at hp
    exact h.manned id p hp
  · simp only [hb.names, hb.bridges]
    exact h.names x

/-- A graph without nodes and terminals. -/
theorem empty (hnodes : g.nodes = ∅) (hnames : g.terminalNames d = []) : g.Anchored d := by
  have hpost : ∀ id, g.post? id = none := by
    intro id
    unfold Graph.post?
    rw [hnodes]
    rfl
  have hbridge : ∀ id, g.bridge? d id = none := by
    intro id
    unfold Graph.bridge?
    rw [hpost]
    rfl
  refine ⟨fun id => ?_, fun id p hp => ?_, fun x => ?_⟩
  · rw [hbridge, hpost]
    exact ⟨fun h => (nomatch h), fun h => (nomatch h)⟩
  · cases (hbridge id).symm.trans hp
  · rw [hnames]
    refine ⟨fun h => (nomatch h), fun ⟨id, h, _⟩ => ?_⟩
    rw [hbridge] at h
    cases h

/-- A node more, which is a bridge under its default name if it is of the type of one. -/
theorem fill {id : NodeId} {q : Post} (h : g.Anchored d) (hvacant : g.bridge? d id = none)
    (hposts : ∀ i, g'.post? i = if i = id then some q else g.post? i)
    (hserves : q.serves d = true ↔ q.type = Catalog.bridgeType d)
    (hmanned : q.serves d = true → q.behavior = some (.bridge d (some (Catalog.defaultName d id))) ∧
      q.canExecute = true ∧ q.acceptsActions = false)
    (hnames : ∀ x, x ∈ g'.terminalNames d ↔
      q.serves d = true ∧ x = Catalog.defaultName d id ∨ x ∈ g.terminalNames d) :
    g'.Anchored d := by
  -- the vacant place is taken, by a bridge or by a node that is none
  have hnew : g'.bridge? d id = if q.serves d = true then some q else none := by
    unfold Graph.bridge?
    rw [hposts, if_pos rfl]
    exact Option.filter_some
  -- all other places are as before
  have hold : ∀ i, i ≠ id → g'.bridge? d i = g.bridge? d i :=
    fun i hi => Graph.bridge?_congr ((hposts i).trans (if_neg hi))
  refine ⟨fun i => ?_, fun i p hp => ?_, fun x => ?_⟩
  · by_cases hi : i = id
    · rw [hi, hnew, hposts, if_pos rfl, Option.map_some, Option.some_inj, ← hserves]
      split <;> simp_all
    · rw [hold i hi, hposts, if_neg hi]
      exact h.serves i
  · by_cases hi : i = id
    · rw [hi, hnew] at hp
      split at hp
      · next hs =>
        cases hp
        rw [hi]
        exact hmanned hs
      · cases hp
    · rw [hold i hi] at hp
      exact h.manned i p hp
  · rw [hnames, h.names]
    constructor
    · rintro (⟨hs, rfl⟩ | ⟨i, hi, rfl⟩)
      · exact ⟨id, by rw [hnew, if_pos hs]; rfl, rfl⟩
      · have hne : i ≠ id := by
          rintro rfl
          rw [hvacant] at hi
          cases hi
        exact ⟨i, (hold i hne).symm ▸ hi, rfl⟩
    · rintro ⟨i, hi, rfl⟩
      by_cases he : i = id
      · rw [he, hnew] at hi
        split at hi
        · next hs => exact .inl ⟨hs, by rw [he]⟩
        · cases hi
      · rw [hold i he] at hi
        exact .inr ⟨i, hi, rfl⟩

end Graph.Anchored

namespace Engine

variable {d : Direction}

/-- A bridge that is added without a name declares a terminal under its default name. -/
theorem ensures_added {s : Session Catalog Unit} {id : NodeId} {p : Post}
    (hp : s.graph.post? id = some p) (hb : p.behavior = some (.bridge d none))
    (hname : (p.name.bind Value.str?).getD "" = "") (depth : Nat) :
    Ensures (enter (runner depth) id .added) s fun _ s' =>
      (∀ i, s'.graph.post? i =
        if i = id then some { p with
          name := some (.str (Catalog.defaultName d id))
          behavior := some (.bridge d (some (Catalog.defaultName d id))) }
        else s.graph.post? i) ∧
      ∀ x, x ∈ s'.graph.terminalNames d ↔
        x = Catalog.defaultName d id ∨ x ∈ s.graph.terminalNames d := by
  have hbehavior := (behavior?_of_post? hp).trans hb
  have hout := post?_detach hp
  obtain ⟨m, hm, hasked⟩ := asked_detached hp
  refine ensures_entered hbehavior fun depth => ?_
  refine .of_eq (runner_bridge Catalog.hosted_id depth hm .added nofun) ?_
  let u := (s.edit fun g => g.detach id).log (.began id (.bridge d none) .added)
  have hclaimed := u.claimed_bridged d none id m .added
  have hempty : (Catalog.askedName m).isEmpty = true := by
    rw [hasked, hname]
    decide
  have hterminal : Catalog.terminalName d id m = Catalog.defaultName d id := if_pos hempty
  have hsettled : u.settled d id (Catalog.askedName m) =
      u.storeProperty id "name" (.str (Catalog.defaultName d id)) := if_pos hempty
  rw [hsettled, hterminal] at hclaimed
  have hposts : ∀ i, (u.bridged d none id m .added).graph.post? i = if i = id then
      some { p with name := some (.str (Catalog.defaultName d id)), behavior := none }
      else s.graph.post? i := by
    intro i
    rw [hclaimed.posts, Session.post?_storeProperty]
    show (if i = id then ((s.graph.detach id).post? i).map _ else (s.graph.detach id).post? i) = _
    rw [hout]
    split
    · simp
    · rfl
  refine ⟨fun i => ?_, fun x => ?_⟩
  · refine (post?_restore (t := (u.bridged d none id m .added).log _)
      ((hposts id).trans (if_pos rfl)) rfl _ i).trans ?_
    rw [hterminal]
    split
    · rfl
    · next hi => exact (hposts i).trans (if_neg hi)
  · have hnames : (u.storeProperty id "name" (.str (Catalog.defaultName d id))).graph.terminalNames
        d = s.graph.terminalNames d := by
      refine (congrArg Assoc.keys (u.terminals_storeProperty id "name" _ d)).trans ?_
      cases d <;> rfl
    rw [terminalNames_restore]
    refine (hclaimed.names x).trans ?_
    rw [hnames]
    exact or_congr_right ⟨And.left, fun hx => ⟨hx, fun h => nomatch h⟩⟩

section Placing

variable {n : Node Catalog} {g : Graph Catalog}

theorem post?_placing (g : Graph Catalog) (n : Node Catalog) (i : NodeId) :
    (placing g n).post? i = if i = (g.claimNode n.id).1 then some n.post else g.post? i := by
  unfold Graph.post? placing
  rw [Graph.get?_place]
  split
  · obtain ⟨pos, hpos⟩ := n.snapped_eq g.settings
    rw [hpos]
    rfl
  · rfl

theorem terminalNames_placing (g : Graph Catalog) (n : Node Catalog) :
    (placing g n).terminalNames d = g.terminalNames d := by
  unfold placing
  rw [Graph.place_snapped]
  cases d <;> rfl

/-- The identity that a node gets belongs to no bridge. -/
theorem bridge?_claimNode (g : Graph Catalog) (requested : Option NodeId) :
    g.bridge? d (g.claimNode requested).1 = none := by
  unfold Graph.bridge? Graph.post?
  rw [(Assoc.get?_eq_none_iff ..).2 (g.claimNode_fresh requested)]
  rfl

/-- A node that is no bridge changes nothing about the bridges when it is added. -/
theorem bypasses_placing (hn : n.post.serves d = false) (i : NodeId) :
    (placing g n).bridge? d i = g.bridge? d i := by
  by_cases hi : i = (g.claimNode n.id).1
  · rw [hi, bridge?_claimNode]
    unfold Graph.bridge?
    rw [post?_placing, if_pos rfl, Option.filter_some, hn]
    rfl
  · exact Graph.bridge?_congr ((post?_placing g n i).trans (if_neg hi))

end Placing

/-- The bridges are under their default names, no event runs one, and the nodes have the types that
they have in another graph. -/
structure Berthing (d : Direction) (g g' : Graph Catalog) : Prop where
  anchored : g'.Anchored d
  deaf : g'.Deaf d
  types : ∀ i, (g'.post? i).map Post.type = (g.post? i).map Post.type

theorem Berthing.bypasses {g g' g'' : Graph Catalog} (h : Berthing d g g')
    (hb : g'.Bypasses d g'') : Berthing d g g'' where
  anchored := h.anchored.bypasses hb
  deaf i p hp := h.deaf i p ((hb.bridges i).symm.trans hp)
  types i := (hb.types i).trans (h.types i)

section Enter

variable {record : NodeRecord} {n : Node Catalog} {s : Session Catalog Unit}
  (ha : s.graph.Anchored d) (hd : s.graph.Deaf d)
include ha hd

/-- A bridge has been added, and its body has run. -/
theorem enter_bridge (depth : Nat) (htype : n.post.type = Catalog.bridgeType d)
    (hb : n.post.behavior = some (.bridge d none)) (hmode : n.post.mode = .always)
    (hx : n.post.canExecute = true) (hactions : n.post.acceptsActions = false)
    (hname : (n.post.name.bind Value.str?).getD "" = "") :
    Ensures (enter (runner depth) (s.graph.claimNode n.id).1 .added)
      { s with graph := placing s.graph n } fun _ t =>
        Berthing d (placing s.graph n) t.graph := by
  let id := (s.graph.claimNode n.id).1
  have hplaced := post?_placing s.graph n
  have hadded := ensures_added (s := { s with graph := placing s.graph n })
    ((hplaced id).trans (if_pos rfl)) hb hname depth
  refine hadded.mono fun _ t h => ?_
  obtain ⟨hposts, hnames⟩ := h
  let moored := { n.post with
    name := some (.str (Catalog.defaultName d id))
    behavior := some (.bridge d (some (Catalog.defaultName d id))) }
  have ht : ∀ i, t.graph.post? i = if i = id then some moored else s.graph.post? i := by
    intro i
    rw [hposts]
    split
    · rfl
    · next hi => exact (hplaced i).trans (if_neg hi)
  have hserves : moored.serves d = true := decide_eq_true rfl
  refine ⟨ha.fill (bridge?_claimNode s.graph n.id) ht ?_ ?_ fun x => ?_, fun i p hp => ?_, fun i => ?_⟩
  · exact ⟨fun _ => htype, fun _ => hserves⟩
  · exact fun _ => ⟨rfl, hx, hactions⟩
  · refine (hnames x).trans (or_congr ⟨fun h => ⟨hserves, h⟩, And.right⟩ ?_)
    rw [← terminalNames_placing s.graph n]
  · obtain ⟨hp, hs⟩ := Graph.bridge?_eq_some.1 hp
    rw [ht] at hp
    split at hp
    · cases hp
      exact ⟨hmode, hactions⟩
    · exact hd i p (Graph.bridge?_eq_some.2 ⟨hp, hs⟩)
  · rw [ht, hplaced]
    split <;> rfl

/-- A node that is no bridge has been added, and its body has run. -/
theorem enter_other (depth : Nat) (htype : n.post.type ≠ Catalog.bridgeType d)
    (hn : n.post.serves d = false) :
    Ensures (enter (runner depth) (s.graph.claimNode n.id).1 .added)
      { s with graph := placing s.graph n } fun _ t =>
        Berthing d (placing s.graph n) t.graph := by
  have hvacant := bridge?_claimNode (d := d) s.graph n.id
  have hplaced : (placing s.graph n).Anchored d := by
    refine ha.fill hvacant (post?_placing s.graph n) ?_ ?_ fun x => ?_
    · rw [hn]
      exact ⟨fun h => (nomatch h), fun h => absurd h htype⟩
    · intro h
      rw [hn] at h
      cases h
    · rw [hn, terminalNames_placing]
      exact ⟨.inr, fun h => h.resolve_left fun h => nomatch h.1⟩
  have hdeaf : (placing s.graph n).Deaf d := fun i p hp => hd i p (bypasses_placing hn i ▸ hp)
  have hid := (bypasses_placing hn (s.graph.claimNode n.id).1).trans hvacant
  have hkeeps := bypasses_enter (skirts_runner hdeaf depth) hid .added
  refine (hkeeps _ (.refl d _)).mono fun _ t ht => ?_
  exact ⟨hplaced.bypasses ht, fun i p hp => hdeaf i p ((ht.bridges i).symm.trans hp), ht.types⟩

/-- A node of a snapshot has been added to a graph in which the bridges are under their default
names, and its body has run. -/
theorem enter_anchors (depth : Nat)
    (hn : n.post = (madeOf (Catalog.registry id) record).1.post) :
    Ensures (enter (runner depth) (s.graph.claimNode n.id).1 .added)
      { s with graph := placing s.graph n } fun _ t =>
        Berthing d (placing s.graph n) t.graph := by
  obtain ⟨htype, hpost⟩ := Catalog.post_madeOf d record
  rw [← hn] at htype hpost
  by_cases hr : record.type = Catalog.bridgeType d
  · rw [if_pos hr] at hpost
    obtain ⟨hb, hmode, hx, hactions, hname⟩ := hpost
    exact enter_bridge ha hd depth (htype.trans hr) hb hmode hx hactions hname
  · rw [if_neg hr] at hpost
    exact enter_other ha hd depth (htype ▸ hr) hpost

theorem insertNode_anchors (depth : Nat)
    (hn : n.post = (madeOf (Catalog.registry id) record).1.post) :
    Ensures (insertNode (runner depth) n false) s fun answer s' =>
      (∃ e, answer = .error e) ∧ s' = s ∨
        answer = .ok (s.graph.claimNode n.id).1 ∧ Berthing d (placing s.graph n) s'.graph := by
  refine ensures_insertNode (fun _ e => .inl ⟨⟨e, rfl⟩, rfl⟩) fun _ => ?_
  refine (enter_anchors ha hd depth hn).mono fun _ t ht u hu => .inr ⟨rfl, ht.bypasses ?_⟩
  rw [hu]
  exact .of_posts (fun _ => rfl) (by cases d <;> rfl)

end Enter

/-- Nodes of a snapshot were added for their records, and the bridges are under their default
names. -/
structure Placing.Anchors (d : Direction) (p : Placing) (g : Graph Catalog) : Prop where
  registry : g.registry = Catalog.registry id
  anchored : g.Anchored d
  deaf : g.Deaf d
  types : ∀ e ∈ p.placed, (g.post? e.1).map Post.type = some e.2.type

theorem placeAll_anchors (depth : Nat) {records : List NodeRecord} {p : Placing}
    {s : Session Catalog Unit} (h : p.Anchors d s.graph) :
    Ensures (placeAll (runner depth) records p) s fun q t => q.Anchors d t.graph := by
  induction records generalizing p s with
  | nil => exact Ensures.pure h
  | cons record records ih =>
    apply placeAll_step
    let n : Node Catalog := { (madeOf s.graph.registry record).1 with id := record.id }
    have hn : n.post = (madeOf (Catalog.registry id) record).1.post := by
      rw [← h.registry]
      rfl
    have hinserted := insertNode_anchors h.anchored h.deaf depth hn
    have htrails := insertNode_trails depth n false s
    intro answer s' hrun
    have hregistry : s'.graph.registry = Catalog.registry id := by
      rcases htrails answer s' hrun with ⟨-, rfl⟩ | ⟨-, ht⟩
      · exact h.registry
      · refine (Graph.registry_of_wiring ht.wiring).trans (Eq.trans ?_ h.registry)
        unfold placing
        rw [Graph.place_snapped]
        rfl
    rcases hinserted answer s' hrun with ⟨⟨e, rfl⟩, rfl⟩ | ⟨rfl, hs'⟩
    · exact ⟨fun id hid => (nomatch hid), fun _ _ => ih ⟨h.registry, h.anchored, h.deaf, h.types⟩⟩
    · refine ⟨fun id hid => ?_, fun e he => nomatch he⟩
      apply ih
      refine ⟨hregistry, hs'.anchored, hs'.deaf, fun e he => ?_⟩
      rw [hs'.types, post?_placing]
      cases hid
      rcases List.mem_append.1 he with he | he
      · -- the identity of the new node is none of those that were given out before
        have hold := h.types e he
        rw [if_neg, hold]
        intro hi
        rw [hi] at hold
        have hfresh := (Assoc.get?_eq_none_iff ..).2 (s.graph.claimNode_fresh n.id)
        unfold Graph.post? at hold
        rw [hfresh] at hold
        cases hold
      · rw [List.mem_singleton.1 he, if_pos rfl]
        obtain ⟨htype, -⟩ := Catalog.post_madeOf d record
        rw [← hn] at htype
        exact congrArg some htype

end Engine

/-! ## Taking over the records -/

/-- The post of a node that has taken over a record. -/
def Post.adopting (p : Post) (r : NodeRecord) : Post :=
  { p with name := (r.properties.get? "name").or p.name, mode := r.mode.getD p.mode }

theorem Node.post_adopting (n : Node Catalog) (r : NodeRecord)
    (f : Direction → Nat → LinkId → Option LinkId) :
    ((n.applyRecord r).1.relink f).post = n.post.adopting r := by
  obtain ⟨size, -, hr⟩ := n.applyRecord_catalog r
  rw [hr]
  have hname : (n.properties.insertAll r.properties.entries).get? "name" =
      (r.properties.get? "name").or (n.properties.get? "name") := by
    cases h : r.properties.get? "name" with
    | none =>
      rw [Assoc.get?_eq_none_iff] at h
      exact Assoc.get?_insertAll_of_notMem h _
    | some v =>
      rw [Assoc.get?_eq_some_iff] at h
      exact Assoc.get?_insertAll r.properties.nodup h _
  exact congrArg (fun name => ({ n.post with name, mode := r.mode.getD n.mode } : Post)) hname

namespace Graph

variable (g : Graph Catalog)

theorem post?_mapNodes {f : NodeId → Node Catalog → Node Catalog}
    (h : ∀ i n, (f i n).post = n.post) (id : NodeId) :
    ({ g with nodes := g.nodes.mapValues f } : Graph Catalog).post? id = g.post? id := by
  unfold post?
  rw [Assoc.get?_mapValues, Option.map_map]
  exact congrArg (fun f => (g.nodes.get? id).map f) (funext fun n => h id n)

theorem post?_relinkAll (f : NodeId → Direction → Nat → LinkId → Option LinkId) (id : NodeId) :
    (g.relinkAll f).post? id = g.post? id :=
  g.post?_mapNodes (f := fun i n => n.relink (f i)) (fun _ _ => rfl) id

/-- A repair is about slots and links. -/
theorem post?_repair (pruned : List LinkId) (id : NodeId) :
    (g.repair pruned).graph.post? id = g.post? id := by
  refine repaired_keeps (P := fun g' => g'.post? id = g.post? id) (fun g' _ _ h => Eq.trans ?_ h)
    (fun _ _ h => h) (fun g' f h => (g'.post?_relinkAll f id).trans h) rfl pruned
  refine (post?_modifyNode_of_post ?_ id).trans (post?_modifyNode_of_post ?_ id)
  · exact fun n => rfl
  · exact fun n => rfl

/-- Behaviours of the catalog make nothing of what they hear. -/
theorem post?_hears {g g' : Graph Catalog} {ids : List NodeId} (h : g.Hears id ids g')
    (i : NodeId) : g'.post? i = g.post? i := by
  obtain ⟨u, hu, -, rfl⟩ := h
  refine g.post?_mapNodes (fun j n => ?_) i
  obtain ⟨b, hb, hn⟩ := hu j n
  rw [Option.map_id_fun, id_eq, id_eq] at hb
  rw [hn, hb]

end Graph

section Settled

variable (s : Session Catalog Unit) (snapshot : Snapshot) (p : Engine.Placing)

/-- At the end of a load every node has taken over its record, and it has the behaviour that it
had. -/
theorem Session.post?_settleLoad (hids : (p.placed.map Prod.fst).Nodup) {e : NodeId × NodeRecord}
    (he : e ∈ p.placed) :
    (s.settleLoad snapshot p.placed p.nodes p.report).2.graph.post? e.1 =
      (s.graph.post? e.1).map (·.adopting e.2) := by
  obtain ⟨pruned, next, g, hheard, hlast⟩ :=
    s.settleLoad_stages Catalog.told_eq snapshot p.placed p.nodes p.report
  rw [Graph.post?_reordered hlast, Graph.post?_hears hheard, Graph.post?_repair]
  unfold Graph.post?
  rw [Graph.get?_adopted _ hids he, Option.map_map]
  show ((s.graph.mergeLinks p.nodes snapshot.links).graph.nodes.get? e.1).map _ = _
  rw [(s.graph.mergeLinks_tells p.nodes snapshot.links).kept, Option.map_map]
  exact congrArg (fun f => (s.graph.nodes.get? e.1).map f) (funext fun n => n.post_adopting e.2 _)

theorem Session.keys_settleLoad :
    (s.settleLoad snapshot p.placed p.nodes p.report).2.graph.nodes.keys = s.graph.nodes.keys := by
  obtain ⟨pruned, next, g, ⟨u, -, -, rfl⟩, hlast⟩ :=
    s.settleLoad_stages Catalog.told_eq snapshot p.placed p.nodes p.report
  rw [hlast.keys]
  refine (Assoc.keys_mapValues ..).trans ((Graph.keys_repair ..).trans ?_)
  refine (Graph.keys_adopted ..).1.trans ?_
  exact congrArg Assoc.keys (s.graph.mergeLinks_tells p.nodes snapshot.links).kept

end Settled

/-! ## Loads -/

/-- What a record does not change of a post. -/
def Post.hull (p : Post) : Post := { p with name := none, mode := .always }

/-- Whether bridges are under their default names does not depend on what their nodes ask for. -/
theorem Graph.Anchored.of_hulls {d : Direction} {g g' : Graph Catalog} (h : g.Anchored d)
    (hposts : ∀ id, (g'.post? id).map Post.hull = (g.post? id).map Post.hull)
    (hnames : g'.terminalNames d = g.terminalNames d) : g'.Anchored d := by
  have htypes : ∀ id, (g'.post? id).map Post.type = (g.post? id).map Post.type := by
    intro id
    have hh := congrArg (Option.map Post.type) (hposts id)
    rwa [Option.map_map, Option.map_map] at hh
  -- a node is a bridge because of its behaviour, and the hull has that
  have hhull : ∀ (h : Graph Catalog) id, (h.bridge? d id).map Post.hull =
      ((h.post? id).map Post.hull).filter (·.serves d) := by
    intro h id
    unfold bridge?
    cases h.post? id with
    | none => rfl
    | some p =>
      rw [Option.filter_some, Option.map_some, Option.filter_some]
      show _ = if p.serves d = true then _ else _
      split <;> rfl
  have hbridges : ∀ id, (g'.bridge? d id).map Post.hull = (g.bridge? d id).map Post.hull := by
    intro id
    rw [hhull, hhull, hposts]
  have hsome : ∀ id, (g'.bridge? d id).isSome = (g.bridge? d id).isSome := by
    intro id
    have hh := congrArg Option.isSome (hbridges id)
    rwa [Option.isSome_map, Option.isSome_map] at hh
  refine ⟨fun id => ?_, fun id p hp => ?_, fun x => ?_⟩
  · rw [hsome, htypes]
    exact h.serves id
  · have hh := hbridges id
    rw [hp] at hh
    obtain ⟨q, hq, he⟩ := Option.map_eq_some_iff.1 hh.symm
    obtain ⟨hb, hx, ha⟩ := h.manned id q hq
    have hb' : p.behavior = q.behavior := (congrArg Post.behavior he).symm
    have hx' : p.canExecute = q.canExecute := (congrArg Post.canExecute he).symm
    have ha' : p.acceptsActions = q.acceptsActions := (congrArg Post.acceptsActions he).symm
    exact ⟨hb'.trans hb, hx'.trans hx, ha'.trans ha⟩
  · simp only [hnames, hsome]
    exact h.names x

/-- Nodes were loaded for records, have their types and have taken them over, and the bridges are
under their default names. -/
structure Graph.Moored (d : Direction) (placed : List (NodeId × NodeRecord)) (g : Graph Catalog) :
    Prop where
  anchored : g.Anchored d
  keys : placed.map Prod.fst = g.nodes.keys
  posts : ∀ e ∈ placed, ∃ p : Post, p.type = e.2.type ∧ g.post? e.1 = some (p.adopting e.2)

/-- So it is at the end of a load. -/
theorem Engine.Placing.Anchors.settle {d : Direction} {p : Placing} {s : Session Catalog Unit}
    (h : p.Anchors d s.graph) (hkeys : p.placed.map Prod.fst = s.graph.nodes.keys)
    (snapshot : Snapshot) :
    (s.settleLoad snapshot p.placed p.nodes p.report).2.graph.Moored d p.placed := by
  have hids : (p.placed.map Prod.fst).Nodup := by
    rw [hkeys]
    exact Assoc.nodup_keys _
  have hlast := s.keys_settleLoad snapshot p
  refine ⟨h.anchored.of_hulls (fun id => ?_) ?_, hkeys.trans hlast.symm, fun e he => ?_⟩
  · by_cases hid : id ∈ p.placed.map Prod.fst
    · obtain ⟨e, he, rfl⟩ := List.mem_map.1 hid
      rw [s.post?_settleLoad snapshot p hids he, Option.map_map]
      rfl
    · -- there is no such node, before or after
      have hnone : ∀ g : Graph Catalog, g.nodes.keys = s.graph.nodes.keys → g.post? id = none := by
        intro g hg
        unfold Graph.post?
        rw [(Assoc.get?_eq_none_iff ..).2 (by rwa [hg, ← hkeys])]
        rfl
      rw [hnone s.graph rfl, hnone _ hlast]
  · exact congrArg Assoc.keys (Graph.terminals_of_shore (s.shore_settleLoad ..) d)
  · obtain ⟨q, hq, htype⟩ := Option.map_eq_some_iff.1 (h.types e he)
    refine ⟨q, htype, ?_⟩
    rw [s.post?_settleLoad snapshot p hids he, hq]
    rfl

/-- A snapshot is loaded into an empty graph.  Then all bridges are under their default names. -/
theorem Engine.load_anchors {d : Direction} (depth : Nat) (snapshot : Snapshot) (keepOld : Bool)
    {r : Registry Catalog} (hr : r = Catalog.registry id) (settings : Settings)
    (events : List (Event Catalog)) :
    Ensures (load (runner depth) snapshot keepOld) ⟨Graph.empty r settings, events, ()⟩ fun _ t =>
      ∃ placed, t.graph.Moored d placed ∧ (placed.map Prod.snd).Sublist snapshot.nodes := by
  let empty : Session Catalog Unit := ⟨Graph.empty r settings, events, ()⟩
  let start := ((if keepOld then empty else empty.clear).edit fun g =>
    { g with config := g.config.insertAll snapshot.config.entries }).beginBatch
  have hregistry : start.graph.registry = r := by cases keepOld <;> rfl
  have hnodes : start.graph.nodes = ∅ := by cases keepOld <;> rfl
  have hnames : start.graph.terminalNames d = [] := by cases keepOld <;> cases d <;> rfl
  have hanchored : start.graph.Anchored d := .empty hnodes hnames
  have hdeaf : start.graph.Deaf d := by
    intro id p hp
    have hpost := (Graph.bridge?_eq_some.1 hp).1
    unfold Graph.post? at hpost
    rw [hnodes] at hpost
    cases hpost
  have hanchors : Placing.Anchors d ⟨.clean, [], ∅⟩ start.graph :=
    ⟨hregistry.trans hr, hanchored, hdeaf, fun e he => nomatch he⟩
  have hstart : Placing.Tells start.graph [] ⟨.clean, [], ∅⟩ start.graph := .start rfl
  apply Ensures.modify_bind
  apply Ensures.bind
  intro p t hrun
  have ha := placeAll_anchors depth hanchors p t hrun
  have hp := placeAll_tells (Catalog.addsQuietly depth) hstart p t hrun
  have hkeys : p.placed.map Prod.fst = t.graph.nodes.keys := by
    rw [hp.keys, hnodes]
    rfl
  apply Ensures.total
  exact ⟨p.placed, ha.settle hkeys snapshot, hp.placed⟩

end Dataflow
