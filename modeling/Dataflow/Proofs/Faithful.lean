/-
  Nodes that their records tell all about.

  A record leaves out what comes with the type of a node: the title and the priority of the type,
  and which properties there are at first.  So a node can be made anew from its record if these are
  still those of its type.  A node that stands in for another is recorded as that other node was,
  so its slots and its priority must still be those of the record it was made from.  Such nodes
  are `Faithful`.

  Nodes are faithful when they are made by a registry, copied, or loaded; and edits keep them so,
  unless they give a stand-in other slots or another priority.
-/

import Dataflow.Proofs.Lasting
import Dataflow.Proofs.Landing

namespace Dataflow

variable {B σ : Type}

/-- Types are registered under their names. -/
def Registry.Keyed (r : Registry B) : Prop := ∀ name t, r.get? name = some t → t.id = name

theorem Registry.Keyed.registerAll {ts : List (NodeType B)} {r : Registry B} (hr : r.Keyed) :
    (ts.foldl Registry.register r).Keyed := by
  induction ts generalizing r with
  | nil => exact hr
  | cons t ts ih =>
    apply ih
    intro name t' h
    have he : (r.register t).get? name = if name = t.id then some t else r.get? name :=
      Assoc.get?_insert ..
    rw [he] at h
    split at h
    · next hn =>
      cases h
      exact hn.symm
    · exact hr name t' h

namespace Node

/-! ## What becomes of a node -/

/-- A node is what another has become, its behaviour aside, which may have been taken out. -/
def Follows (n n' : Node B) : Prop := n.still.Lasts False n'.still

namespace Follows

variable {n n' n'' : Node B}

theorem of_still (h : n'.still = n.still) : n.Follows n' := by
  unfold Follows
  rw [h]
  exact .refl _

theorem trans (h : n.Follows n') (h' : n'.Follows n'') : n.Follows n'' := Lasts.trans h h'

theorem of_lasts (h : n.Lasts False n') : n.Follows n' where
  make := by
    have hm := h.make
    show ({ n'.make with idle := false } : Make) = { n.make with idle := false }
    rw [hm]
  build hp := h.build hp
  properties := h.properties

end Follows

/-! ## Faithful nodes -/

/-- What a record does not say of a node is as its type says, or as the record says that the node
stands for. -/
inductive Faithful (r : Registry B) (n : Node B) : Prop where
  | regular (t : NodeType B) (known : r.get? n.type = some t) (itself : n.standsFor = none)
    (title : n.typeTitle = t.title) (priority : n.typePriority = t.priority)
    (properties : t.initialProperties.keys <+: n.properties.keys)
  | standIn (record : NodeRecord) (unknown : r.get? record.type = none)
    (other : n.standsFor = some record)
    (inputs : n.inputs.length = (record.inputs.getD []).length)
    (outputs : n.outputs.length = (record.outputs.getD []).length)
    (own : n.ownPriority = record.priority) (priority : n.typePriority = 0)

variable {r : Registry B} {n n' : Node B}

/-- Only the slots and the priority of a stand-in must stay. -/
theorem Faithful.lasts {p : Prop} (hn : n.Faithful r) (h : n.Lasts p n')
    (hp : n.standsFor.isSome = true → ¬p) : n'.Faithful r := by
  have htype : n'.type = n.type := congrArg Make.type h.make
  have htitle : n'.typeTitle = n.typeTitle := congrArg Make.typeTitle h.make
  have hpriority : n'.typePriority = n.typePriority := congrArg Make.typePriority h.make
  have hstands : n'.standsFor = n.standsFor := congrArg Make.standsFor h.make
  cases hn with
  | regular t known itself title priority properties =>
    exact .regular t (htype ▸ known) (hstands.trans itself) (htitle.trans title)
      (hpriority.trans priority) (properties.trans h.properties)
  | standIn record unknown other inputs outputs own priority =>
    have hb := h.build (hp (Option.isSome_of_eq_some other))
    exact .standIn record unknown (hstands.trans other) ((congrArg Build.inputs hb).trans inputs)
      ((congrArg Build.outputs hb).trans outputs) ((congrArg Build.priority hb).trans own)
      (hpriority.trans priority)

/-- The behaviour is not among what matters. -/
theorem faithful_still : n.still.Faithful r ↔ n.Faithful r := by
  constructor
  · rintro (⟨t, known, itself, title, priority, properties⟩ |
      ⟨record, unknown, other, inputs, outputs, own, priority⟩)
    · exact .regular t known itself title priority properties
    · exact .standIn record unknown other inputs outputs own priority
  · rintro (⟨t, known, itself, title, priority, properties⟩ |
      ⟨record, unknown, other, inputs, outputs, own, priority⟩)
    · exact .regular t known itself title priority properties
    · exact .standIn record unknown other inputs outputs own priority

theorem Faithful.follows (hn : n.Faithful r) (h : n.Follows n') : n'.Faithful r :=
  faithful_still.1 ((faithful_still.2 hn).lasts h fun _ hp => hp)

/-- The identity is not among what matters. -/
theorem Faithful.identified (hn : n.Faithful r) (id : Option NodeId) :
    ({ n with id } : Node B).Faithful r := by
  rcases hn with ⟨t, known, itself, title, priority, properties⟩ |
    ⟨record, unknown, other, inputs, outputs, own, priority⟩
  · exact .regular t known itself title priority properties
  · exact .standIn record unknown other inputs outputs own priority

/-! ## Nodes that take over a record -/

/-- A node was made for a record that it has yet to take over. -/
inductive Pending (r : Registry B) (record : NodeRecord) (n : Node B) : Prop where
  | regular (itself : n.standsFor = none) (faithful : n.Faithful r)
  | standIn (unknown : r.get? record.type = none) (other : n.standsFor = some record)
    (inputs : n.inputs.length = 0) (outputs : n.outputs.length = 0) (priority : n.typePriority = 0)

variable {record : NodeRecord}

theorem Pending.follows (hn : n.Pending r record) (h : n.Follows n') : n'.Pending r record := by
  have hstands : n'.standsFor = n.standsFor := congrArg Make.standsFor h.make
  cases hn with
  | regular itself faithful => exact .regular (hstands.trans itself) (faithful.follows h)
  | standIn unknown other inputs outputs priority =>
    have hb := h.build fun hp => hp
    have hpriority : n'.typePriority = n.typePriority := congrArg Make.typePriority h.make
    exact .standIn unknown (hstands.trans other) ((congrArg Build.inputs hb).trans inputs)
      ((congrArg Build.outputs hb).trans outputs) (hpriority.trans priority)

theorem Pending.identified (hn : n.Pending r record) (id : Option NodeId) :
    ({ n with id } : Node B).Pending r record := by
  rcases hn with ⟨itself, faithful⟩ | ⟨unknown, other, inputs, outputs, priority⟩
  · exact .regular itself (faithful.identified id)
  · exact .standIn unknown other inputs outputs priority

section Kind

variable [Kind B]

theorem Pending.adopts (hn : n.Pending r record) : (n.applyRecord record).1.Faithful r := by
  have ho : n.Lasts False (n.offerProperties record.properties.entries).1 := n.lasts_offerProperties _
  have hp := hn.follows (.of_lasts ho)
  revert hp
  unfold applyRecord
  generalize n.offerProperties record.properties.entries = offered
  rintro (⟨itself, faithful⟩ | ⟨unknown, other, inputs, outputs, priority⟩)
  · cases faithful with
    | regular t known _ title priority properties =>
      exact .regular t known itself title priority properties
    | standIn record _ other =>
      rw [itself] at other
      cases other
  · refine .standIn record unknown other ?_ ?_ rfl priority
    · show (record.inputs.getD offered.1.inputs).length = _
      rw [List.eq_nil_of_length_eq_zero inputs]
    · show (record.outputs.getD offered.1.outputs).length = _
      rw [List.eq_nil_of_length_eq_zero outputs]

end Kind

end Node

/-! ## Nodes that are made -/

section Made

variable [Kind B] {r : Registry B}

theorem NodeType.faithful_made {t : NodeType B} {type : String} (hr : r.Keyed)
    (ht : r.get? type = some t) (title : Option String) :
    ((t.instantiate title).attachDefaults t).standsFor = none ∧
      ((t.instantiate title).attachDefaults t).hasErrors = false ∧
      ((t.instantiate title).attachDefaults t).Faithful r := by
  obtain ⟨size, pos, he⟩ := (t.instantiate title).attachDefaults_eq t
  rw [he]
  refine ⟨rfl, rfl, .regular t ?_ rfl rfl rfl List.prefix_rfl⟩
  show r.get? t.id = some t
  rw [hr type t ht]
  exact ht

theorem Registry.faithful_createOrStandIn (hr : r.Keyed) (type : String) (title : Option String) :
    (r.createOrStandIn type title).Faithful r := by
  unfold Registry.createOrStandIn Registry.create
  cases ht : r.get? type with
  | none => exact .standIn { NodeRecord.new type with title } ht rfl rfl rfl rfl rfl
  | some t => exact (NodeType.faithful_made hr ht title).2.2

theorem Engine.pending_madeOf (hr : r.Keyed) (record : NodeRecord) :
    (Engine.madeOf r record).1.Pending r record := by
  unfold Engine.madeOf Registry.create
  cases ht : r.get? record.type with
  | none => exact .standIn ht rfl rfl rfl rfl
  | some t =>
    obtain ⟨itself, -, faithful⟩ := NodeType.faithful_made hr ht record.title
    exact .regular itself faithful

theorem Node.faithful_copy (hr : r.Keyed) (n : Node B) : (n.copy r).1.Faithful r := by
  unfold Node.copy
  extract_lets record fresh made
  have hmade : made.Pending r record := by
    show (if fresh.hasErrors = true then Node.placeholder record else fresh).Pending r record
    unfold fresh Registry.createOrStandIn Registry.create
    cases ht : r.get? record.type with
    | none => exact .standIn ht rfl rfl rfl rfl
    | some t =>
      obtain ⟨itself, sane, faithful⟩ := NodeType.faithful_made hr ht none
      simp only [sane]
      exact .regular itself faithful
  exact hmade.adopts.follows (.of_lasts (lasts_tell ..))

end Made

/-! ## Graphs of faithful nodes -/

/-- All nodes of a graph are faithful. -/
def Graph.Faithful (r : Registry B) (g : Graph B) : Prop :=
  ∀ id n, g.nodes.get? id = some n → n.Faithful r

variable {r : Registry B}

theorem Graph.Faithful.descends {T : NodeId → Prop} {g g' : Graph B} (hg : g.Faithful r)
    (h : g'.Descends T g)
    (hT : ∀ id n, g.nodes.get? id = some n → n.standsFor.isSome = true → ¬T id) : g'.Faithful r := by
  intro id n' hn'
  obtain ⟨n, hn, hl⟩ := h id n' hn'
  exact (hg id n hn).lasts hl (hT id n hn)

namespace Edit

variable [Kind B] {s : Session B σ}

/-- Edits that leave the slots and the priority of stand-ins alone keep nodes faithful. -/
theorem faithful_apply (hs : s.graph.Faithful r) (e : Edit)
    (he : ∀ id n, s.graph.nodes.get? id = some n → n.standsFor.isSome = true → ¬e.Reshapes id) :
    (e.apply s).2.graph.Faithful r :=
  hs.descends (quiet_apply s e).nodes he

/-- A node that was taken out is what it was, without its identity. -/
theorem lasts_removed (s : Session B σ) (id : NodeId) : ∀ n ∈ (s.remove id).1,
    ∃ m m', s.graph.nodes.get? id = some m ∧ m.Lasts False m' ∧ n = { m' with id := none } := by
  intro n hn
  unfold Session.remove at hn
  cases hm : s.graph.nodes.get? id with
  | none =>
    rw [hm] at hn
    cases hn
  | some m =>
    rw [hm] at hn
    have hquiet : s.Quiet (fun _ => False) ((s.beginBatch.isolate id m).tell id .removed) :=
      (s.quiet_beginBatch.trans (Session.quiet_isolate ..)).trans (Session.quiet_tell ..)
    have hnodes := hquiet.nodes
    change n ∈ ((s.beginBatch.isolate id m).extract id).1 at hn
    unfold Session.extract at hn
    revert hnodes hn
    generalize (s.beginBatch.isolate id m).tell id .removed = t
    simp only
    intro hnodes hn
    cases ht : t.graph.nodes.get? id with
    | none =>
      rw [ht] at hn
      cases hn
    | some n' =>
      rw [ht] at hn
      cases hn
      obtain ⟨m', hm', hl⟩ := hnodes id n' ht
      cases hm.symm.trans hm'
      exact ⟨m, n', rfl, hl, rfl⟩

/-- So it is as faithful as it was. -/
theorem faithful_removed (hs : s.graph.Faithful r) (id : NodeId) :
    ∀ n ∈ (s.remove id).1, n.Faithful r := by
  intro n hn
  obtain ⟨m, m', hm, hl, rfl⟩ := lasts_removed s id n hn
  exact ((hs id m hm).lasts hl fun _ h => h).identified none

end Edit

end Dataflow
