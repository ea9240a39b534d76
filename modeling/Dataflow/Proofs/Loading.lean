/-
  What a load makes of a graph of standard nodes.

  A load adds nodes that have yet to take over their records (`Pending`), to a graph of nodes that
  are faithful.  Once they have, all nodes are faithful; and once links were repaired, slots and
  links agree.  So a load leaves a sound graph of faithful nodes, whatever the snapshot, if only it
  does not repeat a link within one output (`load_sound`).
-/

import Dataflow.Proofs.Mending

namespace Dataflow

/-! ## One node more -/

theorem Node.snapped_eq {B : Type} (n : Node B) (settings : Settings) :
    ∃ pos, n.snapped settings = { n with pos } := by
  unfold snapped
  split
  · exact n.alignToGrid_eq _
  · exact ⟨n.pos, rfl⟩

namespace Graph

variable {B : Type} {r : Registry B} {g : Graph B} {n : Node B} {id : NodeId} {next : Nat}

theorem get?_place (g : Graph B) (n : Node B) (id : NodeId) (next : Nat) (i : NodeId) :
    (g.place n id next).nodes.get? i =
      if i = id then some { n.snapped g.settings with id := some id } else g.nodes.get? i := by
  rw [g.place_snapped]
  exact Assoc.get?_insert ..

theorem keys_place (hid : id ∉ g.nodes.keys) : (g.place n id next).nodes.keys = g.nodes.keys ++ [id] := by
  rw [g.place_snapped]
  exact (Assoc.keys_insert ..).trans (if_neg hid)

/-- A node that was just added is the one that was given, with an identity and perhaps moved. -/
theorem node_of_place {i : NodeId} {m : Node B} (h : (g.place n id next).nodes.get? i = some m) :
    (i = id ∧ ∃ pos, m = { n with id := some id, pos }) ∨ i ≠ id ∧ g.nodes.get? i = some m := by
  rw [get?_place] at h
  split at h
  · next hi =>
    obtain ⟨pos, hp⟩ := n.snapped_eq g.settings
    rw [hp] at h
    cases h
    exact .inl ⟨hi, pos, rfl⟩
  · next hi => exact .inr ⟨hi, h⟩

end Graph

/-- A place on the canvas does not matter to a node that is waiting for its record. -/
theorem Node.Pending.placed {B : Type} {r : Registry B} {record : NodeRecord} {n : Node B}
    (h : n.Pending r record) (id : Option NodeId) (pos : Point) :
    ({ n with id, pos } : Node B).Pending r record :=
  (h.identified id).follows (.of_lasts (.of_eq rfl rfl rfl))

theorem Node.Faithful.placed {B : Type} {r : Registry B} {n : Node B} (h : n.Faithful r)
    (id : Option NodeId) (pos : Point) : ({ n with id, pos } : Node B).Faithful r :=
  (h.identified id).follows (.of_lasts (.of_eq rfl rfl rfl))

namespace Engine

/-- The graph with a node added, before its body has run. -/
def placing {B : Type} (g : Graph B) (n : Node B) : Graph B :=
  g.place n (g.claimNode n.id).1 (g.claimNode n.id).2

/-- A node of a graph to which one was added is what has become of that one or of an older one. -/
theorem node_of_trails {B : Type} {g g' : Graph B} {n : Node B} (h : g'.Trails (placing g n))
    {i : NodeId} {n' : Node B} (hn' : g'.nodes.get? i = some n') :
    (i = (g.claimNode n.id).1 ∧ ∃ pos, Node.Follows { n with id := some i, pos } n') ∨
      i ≠ (g.claimNode n.id).1 ∧ ∃ m, g.nodes.get? i = some m ∧ m.Follows n' := by
  obtain ⟨m, hm, hf⟩ := h.nodes i n' hn'
  rcases Graph.node_of_place hm with ⟨hi, pos, rfl⟩ | ⟨hi, hm⟩
  · exact .inl ⟨hi, pos, hi ▸ hf⟩
  · exact .inr ⟨hi, m, hm, hf⟩

theorem keys_of_trails {B : Type} {g g' : Graph B} {n : Node B} (h : g'.Trails (placing g n)) :
    g'.nodes.keys = g.nodes.keys ++ [(g.claimNode n.id).1] :=
  (Graph.keys_nodes_of_wiring h.wiring).trans (Graph.keys_place (g.claimNode_fresh n.id))

/-- Whatever its body does, adding a standard node adds just that node. -/
theorem insertNode_trails (depth : Nat) (n : Node Catalog) (refresh : Bool)
    (s : Session Catalog Unit) : Ensures (insertNode (runner depth) n refresh) s fun answer s' =>
      ((∃ e, answer = .error e) ∧ s' = s) ∨
        (answer = .ok (s.graph.claimNode n.id).1 ∧ s'.graph.Trails (placing s.graph n)) := by
  have hI := aloof_of_steady (placing s.graph n).steady_trails
  refine (insertNode_spec hI refresh (.refl _) fun b _ => keeps_trails depth _ b _ _).mono ?_
  rintro answer s' (⟨-, herr, hs'⟩ | ⟨-, hok, t, ht, hs'⟩)
  · exact .inl ⟨herr, hs'⟩
  · refine .inr ⟨hok, ?_⟩
    rw [hs']
    cases refresh with
    | false => exact t.trails_markStale.trans ht
    | true => exact (t.markStale.trails_refresh.trans t.trails_markStale).trans ht

/-- What adding a node of a snapshot leaves alone besides.  No property is new if bridges have a
name from the start. -/
structure Settled (g : Graph Catalog) (n : Node Catalog) (g' : Graph Catalog) : Prop where
  trails : g'.Trails (placing g n)
  settings : g'.settings = g.settings
  config : g'.config = g.config
  names : (∀ b ∈ n.behavior, ¬b.IsTame → "name" ∈ n.properties.keys) →
    g'.propertyNames = (placing g n).propertyNames

theorem aloof_settled (g : Graph Catalog) (n : Node Catalog) : Aloof (Settled g n) := by
  intro g' id b h
  refine ⟨aloof_of_steady (placing g n).steady_trails g' id b h.trails, h.settings, h.config,
    fun hn => ?_⟩
  rw [Graph.propertyNames_modifyNode fun n _ => by rfl]
  exact h.names hn

theorem Settled.synced {g g₁ g₂ : Graph Catalog} {n : Node Catalog} {b : Catalog}
    (hb : n.behavior = some b) (hbridge : ¬b.IsTame) (h : Settled g n g₁)
    (hs : g₁.Synced (g.claimNode n.id).1 g₂) (ht : g₂.Trails g₁) : Settled g n g₂ := by
  obtain ⟨hset, hconfig⟩ := hs.apart
  refine ⟨ht.trans h.trails, hset.trans h.settings, hconfig.trans h.config, fun hn => ?_⟩
  refine (hs.propertyNames fun m hm => ?_).trans (h.names hn)
  -- the node has the properties that it was added with
  obtain ⟨pos, hp⟩ := n.snapped_eq g.settings
  have hm' : (placing g n).nodes.get? (g.claimNode n.id).1 =
      some { n with id := some (g.claimNode n.id).1, pos } := by
    unfold placing
    rw [Graph.get?_place, if_pos rfl, hp]
  rw [Graph.names_of_propertyNames (h.names hn) hm' hm]
  exact hn b hb hbridge

theorem insertNode_settles (depth : Nat) (n : Node Catalog) (s : Session Catalog Unit) :
    Ensures (insertNode (runner depth) n false) s fun answer s' =>
      (s.graph.settings.maxNodes ≤ s.graph.nodes.size ∧ (∃ e, answer = .error e) ∧ s' = s) ∨
      (s.graph.nodes.size < s.graph.settings.maxNodes ∧
        answer = .ok (s.graph.claimNode n.id).1 ∧ Settled s.graph n s'.graph) := by
  have hplaced : Settled s.graph n (placing s.graph n) := by
    refine ⟨.refl _, ?_, ?_, fun _ => rfl⟩
    · unfold placing
      rw [Graph.place_snapped]
      rfl
    · unfold placing
      rw [Graph.place_snapped]
      rfl
  refine (insertNode_spec (aloof_settled s.graph n) false hplaced fun b hb => ?_).mono ?_
  · refine keeps_added (fun hbridge e he t ht => ?_) depth
    exact ht.synced hb hbridge (he.synced t) (he.body.trails t)
  · rintro answer s' (hfull | ⟨hroom, hok, t, ht, hs'⟩)
    · exact .inl hfull
    · refine .inr ⟨hroom, hok, ?_⟩
      rw [hs']
      exact ⟨t.trails_markStale.trans ht.trails, ht.settings, ht.config, ht.names⟩

end Engine

/-! ## All nodes of a snapshot -/

/-- A node that was made for a record names no links. -/
theorem Engine.unlinked_madeOf {B : Type} [Kind B] {r : Registry B} (hr : r.Fresh)
    (record : NodeRecord) : (∀ s ∈ (madeOf r record).1.inputs, s.link = none) ∧
      ∀ s ∈ (madeOf r record).1.outputs, s.links = [] := by
  unfold madeOf Registry.create
  cases ht : r.get? record.type with
  | none =>
    have hl := Node.loose_placeholder (B := B) record
    exact ⟨hl.inputs, hl.outputs⟩
  | some t =>
    have hl := (Node.loose_instantiate (hr record.type t ht) record.title).attachDefaults t
    exact ⟨hl.inputs, hl.outputs⟩

/-- What is noted about a record for whose node there was no room. -/
def Engine.Placing.skip (p : Placing) (missing : List String) : Placing :=
  { p with report := { p.report with
      hadErrors := true, missingTypes := p.report.missingTypes ++ missing } }

/-- Adding the nodes of a snapshot, one after the other. -/
theorem Engine.placeAll_step {B σ : Type} [Behavior B σ] {run : Runner B σ} {r : NodeRecord}
    {rest : List NodeRecord} {p : Placing} {s : Session B σ} {Q : Placing → Session B σ → Prop}
    (h : Ensures (insertNode run { (madeOf s.graph.registry r).1 with id := r.id } false) s
      fun answer s' =>
        (∀ id, answer = .ok id →
          Ensures (placeAll run rest (p.note (madeOf s.graph.registry r).2 r id)) s' Q) ∧
        ∀ e, answer = .error e →
          Ensures (placeAll run rest (p.skip (madeOf s.graph.registry r).2)) s' Q) :
    Ensures (placeAll run (r :: rest) p) s Q := by
  apply Ensures.get_bind
  apply Ensures.bind
  refine h.mono fun answer s' h => ?_
  cases answer with
  | ok id => exact h.1 id rfl
  | error e => exact h.2 e rfl

/-- Nodes of a snapshot were added to a sound graph of faithful nodes. -/
structure Laid (r : Registry Catalog) (size : Nat) (p : Engine.Placing) (g : Graph Catalog) : Prop where
  sound : g.Sound r
  ids : (p.placed.map Prod.fst).Nodup
  known : ∀ id ∈ p.placed.map Prod.fst, id ∈ g.nodes.keys
  pending : ∀ e ∈ p.placed, ∀ n, g.nodes.get? e.1 = some n → n.Pending r e.2
  faithful : ∀ id n, id ∉ p.placed.map Prod.fst → g.nodes.get? id = some n → n.Faithful r
  plain : ∀ e ∈ p.placed, e.2.Plain
  room : g.nodes.size ≤ max size g.settings.maxNodes

namespace Laid

variable {r : Registry Catalog} {size : Nat} {p : Engine.Placing} {g g' : Graph Catalog}

/-- One node more. -/
theorem note (h : Laid r size p g) {n : Node Catalog} {record : NodeRecord}
    (hn : n.Pending r record) (hi : ∀ s ∈ n.inputs, s.link = none)
    (ho : ∀ s ∈ n.outputs, s.links = []) (hplain : record.Plain)
    (hroom : g.nodes.size < g.settings.maxNodes) (hs : Engine.Settled g n g')
    (missing : List String) : Laid r size (p.note missing record (g.claimNode n.id).1) g' := by
  have hfresh := g.claimNode_fresh n.id
  have hkeys := Engine.keys_of_trails hs.trails
  have hsound : g'.Sound r := .of_wiring hs.trails.wiring (h.sound.place hi ho hfresh)
  have hnode := fun {i n'} (hn : g'.nodes.get? i = some n') => Engine.node_of_trails hs.trails hn
  -- of the identity only this matters: it was free
  generalize (g.claimNode n.id).1 = id at hfresh hkeys hnode ⊢
  have hplaced : (p.note missing record id).placed.map Prod.fst = p.placed.map Prod.fst ++ [id] :=
    List.map_append
  have hnew : id ∉ p.placed.map Prod.fst := fun hid => hfresh (h.known id hid)
  constructor
  case sound =>
    exact hsound
  case ids =>
    rw [hplaced]
    refine List.nodup_append.2 ⟨h.ids, List.nodup_singleton id, fun i hi j hj => ?_⟩
    rw [List.mem_singleton.1 hj]
    exact ne_of_mem_of_not_mem hi hnew
  case known =>
    intro i hi
    rw [hplaced] at hi
    rw [hkeys]
    rcases List.mem_append.1 hi with hi | hi
    · exact List.mem_append_left _ (h.known i hi)
    · exact List.mem_append_right _ hi
  case pending =>
    intro e he n' hn'
    rcases List.mem_append.1 he with he | he
    · have hid : e.1 ∈ p.placed.map Prod.fst := List.mem_map_of_mem he
      rcases hnode hn' with ⟨hi, -⟩ | ⟨-, m, hm, hf⟩
      · exact absurd (hi ▸ hid) hnew
      · exact (h.pending e he m hm).follows hf
    · rw [List.mem_singleton.1 he] at hn' ⊢
      rcases hnode hn' with ⟨-, pos, hf⟩ | ⟨hi, -⟩
      · exact (hn.placed (some id) pos).follows hf
      · exact absurd rfl hi
  case faithful =>
    intro i n' hi hn'
    rw [hplaced, List.mem_append, not_or, List.mem_singleton] at hi
    rcases hnode hn' with ⟨he, -⟩ | ⟨-, m, hm, hf⟩
    · exact absurd he hi.2
    · exact (h.faithful i m hi.1 hm).follows hf
  case plain =>
    intro e he
    rcases List.mem_append.1 he with he | he
    · exact h.plain e he
    · rw [List.mem_singleton.1 he]
      exact hplain
  case room =>
    rw [hs.settings, Assoc.size_eq_length_keys, hkeys, List.length_append,
      ← Assoc.size_eq_length_keys]
    exact Nat.le_trans hroom (Nat.le_max_right ..)

/-- No room for a node. -/
theorem skip (h : Laid r size p g) (missing : List String) : Laid r size (p.skip missing) g :=
  ⟨h.sound, h.ids, h.known, h.pending, h.faithful, h.plain, h.room⟩

end Laid

/-- The nodes of a snapshot are added to a sound graph of faithful nodes. -/
theorem Engine.placeAll_laid {r : Registry Catalog} (hkeyed : r.Keyed) (hfresh : r.Fresh)
    (depth : Nat) {size : Nat} {records : List NodeRecord} (hplain : ∀ r ∈ records, r.Plain)
    {p : Placing} {s : Session Catalog Unit} (h : Laid r size p s.graph) :
    Ensures (placeAll (runner depth) records p) s fun p s' => Laid r size p s'.graph := by
  induction records generalizing p s with
  | nil => exact Ensures.pure h
  | cons record records ih =>
    have hrest : ∀ r ∈ records, r.Plain := fun r hr => hplain r (List.mem_cons_of_mem record hr)
    have hr := h.sound.registry
    have hn : Node.Pending r record { (madeOf r record).1 with id := record.id } :=
      (pending_madeOf hkeyed record).identified record.id
    obtain ⟨hi, ho⟩ := unlinked_madeOf hfresh record
    apply placeAll_step
    rw [hr]
    refine (insertNode_settles depth _ s).mono ?_
    rintro answer s' (⟨-, ⟨e, he⟩, rfl⟩ | ⟨hroom, hok, hs⟩)
    · refine ⟨fun id hid => ?_, fun e' _ => ih hrest (h.skip _)⟩
      rw [he] at hid
      cases hid
    · refine ⟨fun id hid => ?_, fun e he => ?_⟩
      · rw [hok] at hid
        cases hid
        exact ih hrest (h.note hn hi ho (hplain record (List.mem_cons_self ..)) hroom hs _)
      · rw [hok] at he
        cases he

/-! ## The phases after that -/

namespace Graph

variable {B : Type} {r : Registry B}

theorem Reordered.descends {T : NodeId → Prop} {g g' : Graph B} (h : g.Reordered g') :
    g'.Descends T g := by
  intro id n' hn'
  obtain ⟨n, hn⟩ := Assoc.mem_keys_iff.1 (h.keys ▸ Assoc.mem_keys_of_get? hn')
  obtain ⟨order, ho⟩ := h.nodes id n hn
  cases Option.some.inj (ho.symm.trans hn')
  exact ⟨n, hn, .of_eq rfl rfl rfl⟩

/-- The counter for nodes may be moved up. -/
theorem Sound.raised {g : Graph B} (hg : g.Sound r) (next : Nat) :
    Sound r { g with nextNode := max g.nextNode next } :=
  ⟨⟨hg.apart, hg.inputs, hg.outputs⟩, hg.once, hg.nodeOwn, hg.linkOwn,
    ⟨fun id hid => Nat.le_trans (hg.counted.node id hid) (Nat.le_max_left ..), hg.counted.link,
      Nat.le_trans hg.counted.nodeStart (Nat.le_max_left ..), hg.counted.linkStart⟩, hg.registry⟩

end Graph

theorem Laid.adopted {r : Registry Catalog} {size : Nat} {p : Engine.Placing} {g g' : Graph Catalog}
    (h : Laid r size p g) (hg : g'.nodes = g.nodes) (table : Renaming LinkId) :
    (g'.adopted table p.placed).Faithful r := by
  intro id n' hn'
  by_cases hid : id ∈ p.placed.map Prod.fst
  · obtain ⟨⟨i, record⟩, he, rfl⟩ := List.mem_map.1 hid
    rw [Graph.get?_adopted table h.ids he, hg] at hn'
    obtain ⟨n, hn, rfl⟩ := Option.map_eq_some_iff.1 hn'
    have hf : (n.applyRecord record).1.Faithful r := (h.pending _ he n hn).adopts
    exact hf.follows (.of_lasts (Node.lasts_relink ..))
  · rw [Graph.get?_adopted_of_notMem table hid, hg] at hn'
    exact h.faithful id n' hid hn'

namespace Session

/-- What a load ends with keeps the links and the nodes. -/
theorem Told.finished {B σ : Type} {s t : Session B σ} (h : s.Told t) (snapshot : Snapshot) :
    (t.finishLoad snapshot).graph.links = s.graph.links ∧
      (t.finishLoad snapshot).graph.nodes.keys = s.graph.nodes.keys := by
  obtain ⟨-, hlast, -⟩ := t.finishLoad_spec snapshot
  constructor
  · rw [hlast.links, h.rest]
  · rw [hlast.keys]
    exact Graph.keys_nodes_of_wiring (Graph.wiring_of_skeleton h.skeleton)

/-- What a load ends with leaves a graph sound and its nodes faithful. -/
theorem grown_finishLoad {B σ : Type} {r : Registry B} {s : Session B σ} (hs : s.graph.Sound r)
    (hf : s.graph.Faithful r) (snapshot : Snapshot) :
    (s.finishLoad snapshot).graph.Sound r ∧ (s.finishLoad snapshot).graph.Faithful r := by
  obtain ⟨hw, hlast, -⟩ := s.finishLoad_spec snapshot
  refine ⟨?_, hf.descends (T := fun _ => False) hlast.descends fun _ _ _ _ h => h⟩
  refine (hs.raised snapshot.nextNode).of_wiring ?_
  rw [hw]
  rfl

theorem settleLoad_laid {r : Registry Catalog} {size : Nat} {p : Engine.Placing}
    {s : Session Catalog Unit} (h : Laid r size p s.graph) (snapshot : Snapshot) :
    let g := (s.settleLoad snapshot p.placed p.nodes p.report).2.graph
    g.Sound r ∧ g.Faithful r ∧ g.nodes.size ≤ max size g.settings.maxNodes := by
  obtain ⟨told, htold, heq⟩ := s.settleLoad_eq snapshot p.placed p.nodes p.report
  rw [heq]
  let load := s.graph.mergeLinks p.nodes snapshot.links
  let merged : Graph Catalog :=
    { load.graph with nextLink := max load.graph.nextLink snapshot.nextLink }
  let adopted := merged.adopted load.table p.placed
  let mended := (adopted.repair (p.report.prunedLinks ++ load.pruned)).graph
  have hload : load.InOrder s.graph := h.sound.toOrderly.inOrder p.nodes snapshot.links
  have hnodes : merged.nodes = s.graph.nodes := (congrArg Graph.nodes hload.rest).trans rfl
  have hadopted : adopted.Orderly r :=
    (h.sound.toOrderly.merged hload _).adopted hload.injective h.plain
  have hmends : adopted.Mends mended := adopted.mends_repair _
  have hmended : mended.Sound r := ⟨adopted.joined_repair _, hmends.orderly hadopted⟩
  have hfaithful : mended.Faithful r :=
    (h.adopted hnodes load.table).descends hmends.nodes fun _ _ _ _ h => h
  -- telling the nodes leaves all this as it is
  have hsound : told.graph.Sound r := hmended.of_wiring (Graph.wiring_of_skeleton htold.skeleton)
  have htrails : told.graph.Trails mended :=
    .of_still (Graph.wiring_of_skeleton htold.skeleton) htold.still
  obtain ⟨hs, hf⟩ := grown_finishLoad hsound (fun id n hn => by
    obtain ⟨m, hm, hl⟩ := htrails.nodes id n hn
    exact (hfaithful id m hm).follows hl) snapshot
  refine ⟨hs, hf, ?_⟩
  obtain ⟨-, hlast, -, -, hset⟩ := told.finishLoad_spec snapshot
  have hkeys : (told.finishLoad snapshot).graph.nodes.keys = s.graph.nodes.keys := by
    rw [hlast.keys, Graph.keys_nodes_of_wiring htrails.wiring, hmends.keys,
      (Graph.keys_adopted ..).1, hnodes]
  have hsettings : (told.finishLoad snapshot).graph.settings = s.graph.settings := by
    rw [hset, htold.rest]
    show mended.settings = _
    rw [hmends.rest]
    show adopted.settings = _
    unfold adopted
    rw [Graph.adopted_eq]
    exact (congrArg Graph.settings hload.rest).trans rfl
  rw [Assoc.size_eq_length_keys, hkeys, ← Assoc.size_eq_length_keys, hsettings]
  exact h.room

end Session

/-! ## Loads -/

/-- A load leaves a sound graph of faithful nodes, and no more of them than there is room for if it
took the place of what was there.  Then it does not matter what that was. -/
theorem Engine.load_sound {r : Registry Catalog} (hkeyed : r.Keyed) (hfresh : r.Fresh) (depth : Nat)
    {snapshot : Snapshot} (hplain : snapshot.Plain) (keepOld : Bool) {s : Session Catalog Unit}
    (hr : s.graph.registry = r) (hs : keepOld = true → s.graph.Sound r ∧ s.graph.Faithful r) :
    Ensures (load (runner depth) snapshot keepOld) s fun _ s' =>
      s'.graph.Sound r ∧ s'.graph.Faithful r ∧
        (keepOld = false → s'.graph.nodes.size ≤ s'.graph.settings.maxNodes) := by
  let start := if keepOld then s else s.clear
  let size := if keepOld then s.graph.nodes.size else 0
  let opened := (start.edit fun g =>
    { g with config := g.config.insertAll snapshot.config.entries }).beginBatch
  have hstart : start.graph.Sound r ∧ start.graph.Faithful r ∧ start.graph.nodes.size = size := by
    cases keepOld with
    | true => exact ⟨(hs rfl).1, (hs rfl).2, rfl⟩
    | false =>
      refine ⟨(Graph.sound_empty r s.graph.settings).of_wiring ?_, fun id n hn => ?_, rfl⟩
      · show (⟨s.clear.graph.registry, ∅, ∅, 1, 1⟩ : Wiring Catalog) = _
        rw [s.clear_spec.1, hr]
        rfl
      · cases hn
  have hopened : opened.graph.Sound r := by
    refine hstart.1.of_wiring ?_
    rfl
  have hlaid : Laid r size ⟨.clean, [], ∅⟩ opened.graph := by
    refine ⟨hopened, List.nodup_nil, fun _ h => (nomatch h), fun _ h => (nomatch h),
      fun id n _ hn => hstart.2.1 id n hn, fun _ h => (nomatch h), ?_⟩
    exact Nat.le_trans (Nat.le_of_eq hstart.2.2) (Nat.le_max_left ..)
  apply Ensures.modify_bind
  apply Ensures.bind
  refine (placeAll_laid hkeyed hfresh depth hplain hlaid).mono fun p t ht => ?_
  apply Ensures.total
  obtain ⟨hsound, hfaithful, hroom⟩ := t.settleLoad_laid ht snapshot
  refine ⟨hsound, hfaithful, fun hk => ?_⟩
  have hsize : size = 0 := by
    unfold size
    rw [hk]
    rfl
  rwa [hsize, Nat.zero_max] at hroom

end Dataflow
