/-
  Copies of nodes.

  A copy is made of the type that the node was recorded with, and takes over that record without
  identity and links.  What a record leaves out the type fills in; so a node can be copied faithfully
  if what is not recorded of it is as its type says (`Node.Native`).  Nodes made by a registry are
  so from birth, and stay so whatever is done to their graph.

  The body that runs when a copy is added edits the node of the copy and terminals only, so the
  other nodes and the links stay what they were (`Graph.Admits`).
-/

import Dataflow.Proofs.Birthright
import Dataflow.Proofs.Bridging

namespace Dataflow

/-! ## Nodes of a registry -/

/-- What is not recorded of a node is as its type says.  A stand-in stands for a node of an unknown
type, and does nothing. -/
inductive Node.Native (r : Registry Catalog) (n : Node Catalog) : Prop where
  | regular (t : NodeType Catalog) (known : r.get? n.type = some t) (itself : n.standsFor = none)
    (title : n.typeTitle = t.title) (executes : n.canExecute = Kind.canExecute t.behavior)
    (acts : n.acceptsActions = Kind.acceptsActions t.behavior)
    (properties : t.initialProperties.keys <+: n.properties.keys)
  | standIn (record : NodeRecord) (unknown : r.get? record.type = none)
    (other : n.standsFor = some record) (executes : n.canExecute = false)
    (acts : n.acceptsActions = false)

variable {r : Registry Catalog}

namespace Node

theorem innate_native (r : Registry Catalog) : Innate (Native r) := by
  intro n n' h hn
  have htype : n'.type = n.type := congrArg Birth.type h.birth
  have htitle : n'.typeTitle = n.typeTitle := congrArg Birth.typeTitle h.birth
  have hstands : n'.standsFor = n.standsFor := congrArg Birth.standsFor h.birth
  have hexecutes : n'.canExecute = n.canExecute := congrArg Birth.canExecute h.birth
  have hacts : n'.acceptsActions = n.acceptsActions := congrArg Birth.acceptsActions h.birth
  rcases hn with ⟨t, known, itself, title, executes, acts, properties⟩ |
    ⟨record, unknown, other, executes, acts⟩
  · exact .regular t (htype ▸ known) (hstands.trans itself) (htitle.trans title)
      (hexecutes.trans executes) (hacts.trans acts) (properties.trans h.properties)
  · exact .standIn record unknown (hstands.trans other) (hexecutes.trans executes)
      (hacts.trans acts)

theorem native_placeholder {record : NodeRecord} (h : r.get? record.type = none) :
    (placeholder record : Node Catalog).Native r := .standIn record h rfl rfl rfl

end Node

/-- A node that was made of a type has what the type says, and nothing more. -/
structure NodeType.Makes (t : NodeType Catalog) (n : Node Catalog) : Prop where
  id : n.id = none
  type : n.type = t.id
  itself : n.standsFor = none
  sane : n.hasErrors = false
  title : n.typeTitle = t.title
  executes : n.canExecute = Kind.canExecute t.behavior
  acts : n.acceptsActions = Kind.acceptsActions t.behavior
  properties : n.properties = t.initialProperties

theorem NodeType.makes (t : NodeType Catalog) (title : Option String) :
    t.Makes ((t.instantiate title).attachDefaults t) := by
  obtain ⟨size, pos, he⟩ := (t.instantiate title).attachDefaults_eq t
  rw [he]
  exact ⟨rfl, rfl, rfl, rfl, rfl, rfl, rfl, rfl⟩

theorem NodeType.Makes.native {t : NodeType Catalog} {n : Node Catalog} (h : t.Makes n)
    (hr : r.Keyed) {type : String} (ht : r.get? type = some t) : n.Native r := by
  have hknown : r.get? n.type = some t := by
    rw [h.type, hr type t ht]
    exact ht
  exact .regular t hknown h.itself h.title h.executes h.acts (h.properties ▸ List.prefix_rfl)

theorem Registry.native_createOrStandIn (hr : r.Keyed) (type : String) (title : Option String) :
    (r.createOrStandIn type title).Native r := by
  unfold Registry.createOrStandIn Registry.create
  cases ht : r.get? type with
  | none => exact Node.native_placeholder ht
  | some t => exact (t.makes title).native hr ht

theorem Engine.native_madeOf (hr : r.Keyed) (record : NodeRecord) :
    (Engine.madeOf r record).1.Native r := by
  unfold Engine.madeOf Registry.create
  cases ht : r.get? record.type with
  | none => exact Node.native_placeholder ht
  | some t => exact (t.makes record.title).native hr ht

/-! ## The copy of a node -/

/-- The node that takes over the record of another one. -/
def Registry.blank (r : Registry Catalog) (record : NodeRecord) : Node Catalog :=
  match r.get? record.type with
  | some t => (t.instantiate none).attachDefaults t
  | none => .placeholder record

theorem Registry.makes_blank {record : NodeRecord} {t : NodeType Catalog}
    (h : r.get? record.type = some t) : t.Makes (r.blank record) := by
  unfold blank
  rw [h]
  exact t.makes none

theorem Registry.blank_unknown {record : NodeRecord} (h : r.get? record.type = none) :
    r.blank record = .placeholder record := by
  unfold blank
  rw [h]

namespace Node

theorem copy_eq (n : Node Catalog) (r : Registry Catalog) :
    (n.copy r).1 = ((r.blank n.record.detached).applyRecord n.record.detached).1 := by
  unfold copy Registry.createOrStandIn Registry.create Registry.blank
  simp only [tell_catalog]
  cases r.get? n.record.detached.type with
  | none => rfl
  | some t =>
    simp only [(t.makes none).sane]
    rfl

theorem native_copy (hr : r.Keyed) (n : Node Catalog) : (n.copy r).1.Native r := by
  rw [copy_eq]
  refine innate_native r _ _ (grows_applyRecord ..) ?_
  cases ht : r.get? n.record.detached.type with
  | none =>
    rw [Registry.blank_unknown ht]
    exact native_placeholder ht
  | some t => exact (Registry.makes_blank ht).native hr ht

/-- A node that tells the record of another, without its identity and its links, and can do the
same. -/
structure Copies (n copy : Node Catalog) : Prop where
  id : copy.id = none
  loose : copy.Loose
  record : copy.record = n.record.detached
  executes : copy.canExecute = n.canExecute
  acts : copy.acceptsActions = n.acceptsActions

theorem complete_detached {record : NodeRecord} {title : String} (h : record.Complete title) :
    record.detached.Complete title := by
  obtain ⟨outputs, houtputs, hforgotten⟩ := h.outputs
  refine ⟨h.pos, h.size, h.mode, ?_, ⟨outputs.map fun s => { s with links := [] }, ?_, ?_⟩, h.title,
    h.extra⟩
  · exact (Option.isSome_map ..).trans h.inputs
  · show record.outputs.map _ = _
    rw [houtputs]
    rfl
  · conv_rhs => rw [← hforgotten]
    rw [List.map_map, List.map_map]
    rfl

/-- The copy of a node that was made by a registry tells the same as that node, and can do the
same. -/
theorem Native.copies (hr : r.Keyed) (hfresh : r.Fresh) {n : Node Catalog} (hn : n.Native r) :
    n.Copies (n.copy r).1 := by
  have hloose := hfresh.loose_copy n
  rw [copy_eq] at hloose ⊢
  have hborn := ((r.blank n.record.detached).grows_applyRecord n.record.detached).birth
  have hid : ((r.blank n.record.detached).applyRecord n.record.detached).1.id =
      (r.blank n.record.detached).id := by
    obtain ⟨size, -, hw⟩ := (r.blank n.record.detached).applyRecord_catalog n.record.detached
    rw [hw]
  rcases hn with ⟨t, known, itself, title, executes, acts, properties⟩ |
    ⟨record, unknown, other, executes, acts⟩
  · -- the node that takes over the record has the same type
    have hrecord := record_regular itself
    have htype : n.record.detached.type = n.type := congrArg NodeRecord.type hrecord
    have hnames : n.record.detached.properties = n.properties :=
      congrArg NodeRecord.properties hrecord
    have hmade : t.Makes (r.blank n.record.detached) := Registry.makes_blank (htype ▸ known)
    refine ⟨hid.trans hmade.id, hloose, ?_, ?_, ?_⟩
    · have hcomplete : n.record.detached.Complete (r.blank n.record.detached).typeTitle := by
        rw [hmade.title, ← title]
        exact complete_detached (complete_record itself)
      refine (record_applyRecord_regular hcomplete hmade.itself ?_ ?_).trans ?_
      · exact (hmade.type.trans (hr _ t known)).trans htype.symm
      · rw [hmade.properties, hnames]
        exact properties
      · rw [hmade.id]
        rfl
    · exact ((congrArg Birth.canExecute hborn).trans hmade.executes).trans executes.symm
    · exact ((congrArg Birth.acceptsActions hborn).trans hmade.acts).trans acts.symm
  · -- it stands for the record that it takes over
    have htype : n.record.detached.type = record.type :=
      congrArg (fun record => record.detached.type) (record_standIn other)
    have hmade : r.blank n.record.detached = placeholder n.record.detached :=
      Registry.blank_unknown (htype ▸ unknown)
    rw [hmade] at hloose hborn hid ⊢
    refine ⟨hid, hloose, ?_, ?_, ?_⟩
    · exact record_applyRecord_standIn rfl rfl rfl
    · exact (congrArg Birth.canExecute hborn).trans executes.symm
    · exact (congrArg Birth.acceptsActions hborn).trans acts.symm

end Node

/-! ## Adding a node -/

namespace Graph

variable {B : Type}

/-- Of nodes and links only one node differs. -/
structure Confined (id : NodeId) (g g' : Graph B) : Prop where
  keys : g'.nodes.keys = g.nodes.keys
  others : ∀ i, i ≠ id → g'.nodes.get? i = g.nodes.get? i
  links : g'.links = g.links

/-- There is one node more.  The others are the same, but for their places in the order, and so are
the links. -/
structure Admits (id : NodeId) (g g' : Graph B) : Prop where
  fresh : id ∉ g.nodes.keys
  keys : g'.nodes.keys = g.nodes.keys ++ [id]
  nodes : ∀ i n, g.nodes.get? i = some n → ∃ order, g'.nodes.get? i = some { n with order }
  links : g'.links = g.links

namespace Confined

variable {id : NodeId} {g g' g'' : Graph B}

theorem refl (id : NodeId) (g : Graph B) : g.Confined id g := ⟨rfl, fun _ _ => rfl, rfl⟩

theorem trans (h : g.Confined id g') (h' : g'.Confined id g'') : g.Confined id g'' :=
  ⟨h'.keys.trans h.keys, fun i hi => (h'.others i hi).trans (h.others i hi), h'.links.trans h.links⟩

theorem of_ashore (h : g.Ashore g') : g.Confined id g' := by
  refine ⟨congrArg Assoc.keys h.nodes, fun i _ => ?_, h.links⟩
  rw [h.nodes]

theorem modifyNode (id : NodeId) (f : Node B → Node B) (g : Graph B) :
    g.Confined id (g.modifyNode id f) := by
  refine ⟨Assoc.keys_modify .., fun i hi => ?_, rfl⟩
  rw [get?_modifyNode, if_neg hi]

/-- A node was added, and then only that node changed, and the order. -/
theorem admits {n : Node B} {next : Nat} {g₁ : Graph B} (hfresh : id ∉ g.nodes.keys)
    (h : (g.place n id next).Confined id g₁) (hr : g₁.Reordered g') : g.Admits id g' where
  fresh := hfresh
  keys := (hr.keys.trans h.keys).trans (keys_place hfresh)
  nodes i m hm := by
    have hi : i ≠ id := by
      rintro rfl
      exact hfresh (Assoc.mem_keys_of_get? hm)
    refine hr.nodes i m ?_
    rw [h.others i hi, get?_place, if_neg hi]
    exact hm
  links := by
    rw [hr.links, h.links, place_snapped]
    rfl

end Confined

end Graph

namespace Session

variable {B σ : Type} (s : Session B σ) (d : Direction) (registered : Option String) (id : NodeId)

theorem confined_settled (asked : String) :
    s.graph.Confined id (s.settled d id asked).graph := by
  unfold settled storeProperty
  split
  · split
    · exact (Graph.Confined.modifyNode id _ s.graph).trans (.of_ashore ⟨_, _, _, rfl⟩)
    · exact .refl ..
  · exact .refl ..

theorem confined_docked (name : String) (type : SlotType) :
    s.graph.Confined id (s.docked d registered id name type).graph := by
  obtain ⟨u, hu, heq⟩ := s.docked_eq d registered id name type
  rw [heq]
  exact (Graph.Confined.of_ashore hu).trans (.modifyNode ..)

end Session

namespace Engine

/-- The body that runs when a standard node is added comes to its end, and it edits no other node
and no link. -/
theorem runner_added (depth : Nat) (b : Catalog) {id : NodeId} {s : Session Catalog Unit}
    {n : Node Catalog} (hn : s.graph.nodes.get? id = some n) :
    ∃ out t, runner (depth + 1) (Behavior.body b id .added) s = some (out, t) ∧
      s.graph.Confined id t.graph := by
  cases b with
  | bridge d registered =>
    refine ⟨_, _, runner_bridge Catalog.hosted_id depth hn .added nofun, ?_⟩
    exact (s.confined_settled d id _).trans (Session.confined_docked ..)
  | _ => exact ⟨_, s, rfl, .refl ..⟩

theorem enter_added (depth : Nat) (id : NodeId) (s : Session Catalog Unit) :
    ∃ ending s', enter (runner (depth + 1)) id .added s = some (ending, s') ∧
      s.graph.Confined id s'.graph := by
  cases hb : s.graph.behavior? id with
  | none => exact ⟨none, s, enter_busy hb _, .refl ..⟩
  | some b =>
    obtain ⟨n, hn, -⟩ := Option.bind_eq_some_iff.1 hb
    let u := (s.edit fun g => g.detach id).log (.began id b .added)
    have hm : u.graph.nodes.get? id = some { n with behavior := none } := Graph.get?_detach hn
    obtain ⟨out, t, hrun, ht⟩ := runner_added depth b hm
    refine ⟨_, _, enter_idle hb hrun, ?_⟩
    have htaken : s.graph.Confined id t.graph := (Graph.Confined.modifyNode id _ s.graph).trans ht
    unfold restore
    split
    · exact htaken.trans (.modifyNode ..)
    · exact htaken

/-- Adding a standard node comes to its end.  It fails if there is no room, and nothing changes then;
else just that node is new. -/
theorem add_admits (depth : Nat) (n : Node Catalog) (s : Session Catalog Unit) :
    ∃ answer s', perform (runner (depth + 1)) (.add n) s = some (answer, s') ∧
      (s.graph.settings.maxNodes ≤ s.graph.nodes.size ∧
          answer = .error (.nodeLimitExceeded s.graph.settings.maxNodes) ∧ s' = s ∨
        s.graph.nodes.size < s.graph.settings.maxNodes ∧
          answer = .ok (s.graph.claimNode n.id).1 ∧
          s.graph.Admits (s.graph.claimNode n.id).1 s'.graph) := by
  by_cases hroom : s.graph.settings.maxNodes ≤ s.graph.nodes.size
  · refine ⟨_, s, ?_, .inl ⟨hroom, rfl, rfl⟩⟩
    show (if s.graph.settings.maxNodes ≤ s.graph.nodes.size then _ else _ : Act Catalog Unit _) s = _
    rw [if_pos hroom]
    rfl
  · let id := (s.graph.claimNode n.id).1
    let u := s.edit fun g => g.place n id (s.graph.claimNode n.id).2
    obtain ⟨ending, t, henter, ht⟩ := enter_added depth id u
    refine ⟨.ok id, ((t.markStale.refresh).log (.nodeAdded id)).changed, ?_,
      .inr ⟨Nat.lt_of_not_le hroom, rfl, ?_⟩⟩
    · show (if s.graph.settings.maxNodes ≤ s.graph.nodes.size then _ else _ : Act Catalog Unit _) s = _
      rw [if_neg hroom]
      show (enter (runner (depth + 1)) id .added u).bind _ = _
      rw [henter]
      rfl
    · have hordered := Session.reordered_refresh t.markStale
      exact ht.admits (s.graph.claimNode_fresh n.id)
        ⟨hordered.keys, hordered.nodes, hordered.links⟩

end Engine

/-! ## Graphs of standard nodes -/

/-- What is asked of a call: nodes that are added are among those at hand. -/
def Call.Draws (held : List (Node Catalog)) : Call Catalog → Prop
  | .add n => n ∈ held
  | _ => True

/-- A session whose nodes are made by the registry of the standard nodes, or in the course of a load.
Those at hand may be changed in all that they do not have from birth before they are added, and those
that the graph hands out may come back. -/
inductive Bred : Session Catalog Unit → List (Node Catalog) → Prop where
  | start (settings : Settings) (events : List (Event Catalog)) :
    Bred ⟨Graph.empty (Catalog.registry id) settings, events, ()⟩ []
  | create {s : Session Catalog Unit} {held : List (Node Catalog)} (type : String)
    (title : Option String) (hs : Bred s held) :
    Bred s ((Catalog.registry id).createOrStandIn type title :: held)
  | alter {s : Session Catalog Unit} {held : List (Node Catalog)} {n n' : Node Catalog}
    (hn : n ∈ held) (h : n.Grows n') (hs : Bred s held) : Bred s (n' :: held)
  | call {s s' : Session Catalog Unit} {held : List (Node Catalog)} {c : Call Catalog} {a : c.Answer}
    (depth : Nat) (hs : Bred s held) (hc : c.Draws held)
    (hr : Engine.perform (Engine.runner depth) c s = some (a, s')) :
    Bred s' ((c.handed a).toList ++ held)
  | aside {s : Session Catalog Unit} {held : List (Node Catalog)} (events : List (Event Catalog))
    (hs : Bred s held) : Bred { s with events } held

variable {held : List (Node Catalog)} {s : Session Catalog Unit}

theorem Bred.native (h : Bred s held) :
    s.graph.Peopled (Catalog.registry id) (Node.Native (Catalog.registry id)) ∧
      ∀ n ∈ held, n.Native (Catalog.registry id) := by
  have hkeyed := Catalog.keyed_registry
  induction h with
  | start settings events => exact ⟨Graph.peopled_empty _ settings, fun n hn => (nomatch hn)⟩
  | create type title _ ih =>
    have hmade := Registry.native_createOrStandIn hkeyed type title
    exact ⟨ih.1, List.forall_mem_cons.2 ⟨hmade, ih.2⟩⟩
  | alter hn h _ ih =>
    exact ⟨ih.1, List.forall_mem_cons.2 ⟨Node.innate_native _ _ _ h (ih.2 _ hn), ih.2⟩⟩
  | @call s s' held c a depth _ hc hr ih =>
    have hperform := Engine.peopled_perform (Node.innate_native _) ih.1
      (fun n _ => n.native_copy hkeyed) (c := c) ?_
      (fun snapshot _ _ record _ => Engine.native_madeOf hkeyed record) depth
    · obtain ⟨hs', hhanded⟩ := hperform _ _ hr
      refine ⟨hs', List.forall_mem_append.2 ⟨fun n hn => ?_, ih.2⟩⟩
      exact hhanded n (Option.mem_toList.1 hn)
    · rintro n rfl
      exact ih.2 n hc
  | aside events _ ih => exact ⟨⟨ih.1.registry, ih.1.nodes⟩, ih.2⟩

/-- A copy is faithful and detached.  In a graph of standard nodes every node can be copied, stand-ins
included, and the graph is the same then.  The copy has no identity and names no link; it tells the
record of the node without identity and links, and can do what the node can do.  Wherever it is
added, the nodes that are there stay as they are, but for their places in the order, and so do the
links. -/
theorem Bred.clone_faithful (h : Bred s held) {id : NodeId} {n : Node Catalog}
    (hn : s.graph.nodes.get? id = some n) :
    ∃ copy t, s.cloneNode id = (some copy, t) ∧ t.graph = s.graph ∧ n.Copies copy ∧
      ∀ (u : Session Catalog Unit) (depth : Nat),
        ∃ answer u', Engine.perform (Engine.runner (depth + 1)) (.add copy) u = some (answer, u') ∧
          (u.graph.settings.maxNodes ≤ u.graph.nodes.size ∧
              answer = .error (.nodeLimitExceeded u.graph.settings.maxNodes) ∧ u' = u ∨
            ∃ new, answer = .ok new ∧ u.graph.Admits new u'.graph) := by
  obtain ⟨hpeopled, -⟩ := h.native
  have hcopies := (hpeopled.nodes id n hn).copies Catalog.keyed_registry (Catalog.fresh_registry _)
  rw [← hpeopled.registry] at hcopies
  refine ⟨(n.copy s.graph.registry).1, s.logAll (n.copy s.graph.registry).2, ?_, rfl, hcopies,
    fun u depth => ?_⟩
  · unfold Session.cloneNode
    rw [hn]
  · obtain ⟨answer, u', hrun, hfull | ⟨-, hok, hadmits⟩⟩ := Engine.add_admits depth _ u
    · exact ⟨answer, u', hrun, .inl hfull⟩
    · exact ⟨answer, u', hrun, .inr ⟨_, hok, hadmits⟩⟩

theorem faultySnapshot_stands :
    let s : Session Catalog Unit := ⟨Graph.empty (Catalog.registry id) .default, [], ()⟩
    (Engine.perform (Engine.runner 1) (.load faultySnapshot true) s.beginBatch).any fun e =>
      (e.2.graph.nodes.get? ⟨1⟩).any (·.standsFor.isSome) &&
        (e.2.graph.nodes.get? ⟨3⟩).any (·.type = "basic/const_number") := by
  decide +kernel

/-- A stand-in and a number are copied. -/
theorem ghost_cloned : ∃ (s : Session Catalog Unit) (ghost number : Node Catalog), Bred s [] ∧
    s.graph.nodes.get? ⟨1⟩ = some ghost ∧ ghost.standsFor.isSome ∧
    s.graph.nodes.get? ⟨3⟩ = some number ∧ number.type = "basic/const_number" ∧
    (∃ copy t, s.cloneNode ⟨1⟩ = (some copy, t) ∧ ghost.Copies copy) ∧
    ∃ copy t, s.cloneNode ⟨3⟩ = (some copy, t) ∧ number.Copies copy := by
  obtain ⟨⟨report, s⟩, hload, hfacts⟩ := (Option.any_eq_true _ _).1 faultySnapshot_stands
  simp only [Bool.and_eq_true, Option.any_eq_true, decide_eq_true_eq] at hfacts
  obtain ⟨⟨ghost, hghost, hstands⟩, ⟨number, hnumber, htype⟩⟩ := hfacts
  have hbatch : Bred (Session.beginBatch ⟨Graph.empty (Catalog.registry id) .default, [], ()⟩) [] :=
    Bred.call (c := .edit .beginBatch) 1 (.start .default []) trivial rfl
  have hbred : Bred s [] := Bred.call (c := .load faultySnapshot true) 1 hbatch trivial hload
  obtain ⟨copy₁, t₁, hclone₁, -, hcopies₁, -⟩ := hbred.clone_faithful hghost
  obtain ⟨copy₃, t₃, hclone₃, -, hcopies₃, -⟩ := hbred.clone_faithful hnumber
  exact ⟨s, ghost, number, hbred, hghost, hstands, hnumber, htype, ⟨copy₁, t₁, hclone₁, hcopies₁⟩,
    copy₃, t₃, hclone₃, hcopies₃⟩

end Dataflow
