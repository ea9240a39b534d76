/-
  Nodes made anew from their records.

  A node is recorded, another one is made of the type named in the record, the body that runs when
  it is added does its work, and the node takes over the record.  It is recorded as the first one
  was, it names the same links, and it has the same priority (`revived`).

  What the record leaves out comes from the type, and that is where faithfulness is needed.  What
  the new node had before is overwritten by the record; only a property that the record does not
  mention would be left over, and there is none, because the properties of a new node are those
  that the first one had at first.
-/

import Dataflow.Proofs.Loading

namespace Dataflow

variable {r : Registry Catalog}

/-! ## Types with bridges -/

/-- Bridges have a name from the start. -/
def Registry.Named (r : Registry Catalog) : Prop :=
  ∀ name t, r.get? name = some t → ¬t.behavior.IsTame → "name" ∈ t.initialProperties.keys

namespace Node

/-! ## Standard nodes and records -/

theorem tell_catalog (n : Node Catalog) (notice : Notice) : (n.tell notice).1 = n := by
  unfold tell
  cases h : n.behavior with
  | none => rfl
  | some b =>
    show ({ n with behavior := some b } : Node Catalog) = n
    rw [← h]

/-- A standard node takes every property. -/
theorem offerProperties_catalog (n : Node Catalog) (ps : List (String × Value)) :
    (n.offerProperties ps).1 = { n with properties := n.properties.insertAll ps } := by
  induction ps generalizing n with
  | nil => rfl
  | cons e ps ih =>
    have hoffer : (n.offerProperty e.1 e.2).1 = n.setProperty e.1 e.2 := by
      unfold offerProperty
      simp only [n.tell_catalog]
      cases n.behavior <;> rfl
    show ((n.offerProperty e.1 e.2).1.offerProperties ps).1 = _
    rw [ih, hoffer]
    rfl

/-- What a record makes of a standard node. -/
theorem applyRecord_catalog (n : Node Catalog) (r : NodeRecord) : ∃ size,
    (∀ s ∈ r.size, size = s) ∧ (n.applyRecord r).1 = { n with
      properties := n.properties.insertAll r.properties.entries
      inputs := r.inputs.getD n.inputs
      outputs := r.outputs.getD n.outputs
      flags := r.flags
      mode := r.mode.getD n.mode
      title := r.title.getD ""
      pos := r.pos.getD n.pos
      size, color := r.color, background := r.background, shape := r.shape
      ownPriority := r.priority } := by
  unfold applyRecord
  simp only [offerProperties_catalog]
  refine ⟨_, fun s hs => ?_, rfl⟩
  cases hs' : r.size with
  | none =>
    rw [hs'] at hs
    cases hs
  | some size =>
    rw [hs'] at hs
    exact Option.some.inj hs

/-- What a standard node is recorded as does not depend on its behaviour. -/
theorem record_regular {n : Node Catalog} (h : n.standsFor = none) : n.record =
    { id := n.id, type := n.type, pos := some n.pos, size := some n.size, flags := n.flags
      mode := some n.mode, inputs := some n.inputs, outputs := some (n.outputs.map forgetData)
      title := n.recordedTitle, properties := n.properties, color := n.color
      background := n.background, shape := n.shape, priority := n.ownPriority, extra := ∅ } := by
  unfold record
  rw [h]
  cases n.behavior <;> rfl

theorem record_standIn {B : Type} [Kind B] {n : Node B} {record : NodeRecord}
    (h : n.standsFor = some record) :
    n.record = { record with
      id := if n.id.isSome then n.id else record.id
      inputs := record.inputs.map (liveInputs n.inputs)
      outputs := record.outputs.map (liveOutputs n.outputs) } := by
  unfold Node.record
  rw [h]

theorem record_still (n : Node Catalog) : n.still.record = n.record := by
  cases h : n.standsFor with
  | none =>
    rw [record_regular h, record_regular (n := n.still) h]
    rfl
  | some record =>
    rw [record_standIn h, record_standIn (n := n.still) h]
    rfl

theorem record_reordered (n : Node Catalog) (order : Nat) :
    ({ n with order } : Node Catalog).record = n.record := rfl

/-! ## Slots -/

theorem liveInputs_self (inputs : List Input) : liveInputs inputs inputs = inputs := by
  apply List.ext_getElem?
  intro slot
  unfold liveInputs
  rw [List.getElem?_mapIdx]
  cases h : inputs[slot]? with
  | none => rfl
  | some s => rfl

theorem liveOutputs_self (outputs : List Output) : liveOutputs outputs outputs = outputs := by
  apply List.ext_getElem?
  intro slot
  unfold liveOutputs
  rw [List.getElem?_mapIdx]
  cases h : outputs[slot]? with
  | none => rfl
  | some s => rfl

/-- Slots that take over something from those at the same places have it in common with these. -/
theorem map_mapIdx_taken {α β : Type} {part : α → β} {t : Option α → α → α}
    (ht : ∀ s r, part (t (some s) r) = part s) {live recorded : List α}
    (h : live.length = recorded.length) :
    (recorded.mapIdx fun i r => t live[i]? r).map part = live.map part := by
  apply List.ext_getElem?
  intro i
  rw [List.getElem?_map, List.getElem?_mapIdx, List.getElem?_map]
  by_cases hi : i < live.length
  · rw [List.getElem?_eq_getElem hi, List.getElem?_eq_getElem (h ▸ hi)]
    exact congrArg some (ht ..)
  · rw [List.getElem?_eq_none (Nat.le_of_not_lt hi), List.getElem?_eq_none (h ▸ Nat.le_of_not_lt hi)]
    rfl

theorem link_liveInputs {live recorded : List Input} (h : live.length = recorded.length) :
    (liveInputs live recorded).map Input.link = live.map Input.link :=
  map_mapIdx_taken (t := fun s r => { r with link := s.bind Input.link }) (fun _ _ => rfl) h

theorem links_liveOutputs {live recorded : List Output} (h : live.length = recorded.length) :
    (liveOutputs live recorded).map Output.links = live.map Output.links :=
  map_mapIdx_taken (t := fun s r => { r with links := (s.map Output.links).getD [] }) (fun _ _ => rfl) h

theorem forgetData_map (outputs : List Output) :
    (outputs.map forgetData).map forgetData = outputs.map forgetData := by
  rw [List.map_map]
  rfl

/-- Which links a node names is seen in its pins. -/
theorem names_of_pins {B : Type} {n n' : Node B} (h : n'.pins = n.pins) {d : Direction}
    {slot : Nat} {k : LinkId} (hk : n'.Names d slot k) : n.Names d slot k := by
  cases d with
  | input =>
    obtain ⟨s, hs, hk⟩ := hk
    have hi : (n'.inputs.map Input.link)[slot]? = (n.inputs.map Input.link)[slot]? :=
      congrArg (fun p : Pins => p.inputs[slot]?) h
    rw [List.getElem?_map, List.getElem?_map, hs] at hi
    obtain ⟨s', hs', he⟩ := Option.map_eq_some_iff.1 hi.symm
    exact ⟨s', hs', he.trans hk⟩
  | output =>
    obtain ⟨s, hs, hk⟩ := hk
    have ho : (n'.outputs.map Output.links)[slot]? = (n.outputs.map Output.links)[slot]? :=
      congrArg (fun p : Pins => p.outputs[slot]?) h
    rw [List.getElem?_map, List.getElem?_map, hs] at ho
    obtain ⟨s', hs', he⟩ := Option.map_eq_some_iff.1 ho.symm
    exact ⟨s', hs', he ▸ hk⟩

/-- The record of a node has its identity. -/
theorem id_record {m : Node Catalog} {id : NodeId} (h : m.id = some id) : m.record.id = some id := by
  cases hm : m.standsFor with
  | none => rw [record_regular hm, h]
  | some record =>
    rw [record_standIn hm]
    show (if m.id.isSome = true then m.id else record.id) = _
    rw [h]
    rfl

end Node

/-! ## Records that are taken over -/

/-- A record leaves nothing to the type of its node but the title. -/
structure NodeRecord.Complete (typeTitle : String) (record : NodeRecord) : Prop where
  pos : record.pos.isSome = true
  size : record.size.isSome = true
  mode : record.mode.isSome = true
  inputs : record.inputs.isSome = true
  outputs : ∃ outputs, record.outputs = some outputs ∧ outputs.map Node.forgetData = outputs
  title : ∀ title ∈ record.title, title ≠ "" ∧ title ≠ typeTitle
  extra : record.extra = ∅

namespace Node

theorem complete_record {m : Node Catalog} (h : m.standsFor = none) :
    m.record.Complete m.typeTitle := by
  rw [record_regular h]
  refine ⟨rfl, rfl, rfl, rfl, ⟨_, rfl, forgetData_map m.outputs⟩, fun title ht => ?_, rfl⟩
  change title ∈ m.recordedTitle at ht
  unfold recordedTitle at ht
  split at ht
  · cases ht
  · next hr =>
    cases ht
    rw [Bool.or_eq_true, String.isEmpty_iff, beq_iff_eq] at hr
    exact not_or.1 hr

/-- A regular node that takes over a complete record is recorded like that, under its own identity,
if the record names its properties first. -/
theorem record_applyRecord_regular {n : Node Catalog} {record : NodeRecord}
    (h : record.Complete n.typeTitle) (itself : n.standsFor = none) (htype : n.type = record.type)
    (hnames : n.properties.keys <+: record.properties.keys) :
    (n.applyRecord record).1.record = { record with id := n.id } := by
  obtain ⟨size, hsize, hw⟩ := n.applyRecord_catalog record
  generalize (n.applyRecord record).1 = w at hw ⊢
  obtain ⟨pos, hpos⟩ := Option.isSome_iff_exists.1 h.pos
  obtain ⟨recorded, hrecorded⟩ := Option.isSome_iff_exists.1 h.size
  obtain ⟨mode, hmode⟩ := Option.isSome_iff_exists.1 h.mode
  obtain ⟨inputs, hinputs⟩ := Option.isSome_iff_exists.1 h.inputs
  obtain ⟨outputs, houtputs, hforgotten⟩ := h.outputs
  rw [hpos, hmode, hinputs, houtputs, Assoc.insertAll_entries hnames] at hw
  have hself : w.standsFor = none := by rw [hw, itself]
  have htitle : w.recordedTitle = record.title := by
    unfold recordedTitle
    rw [hw]
    simp only
    cases ht : record.title with
    | none => rfl
    | some title =>
      obtain ⟨hsome, hother⟩ := h.title title ht
      refine if_neg ?_
      rw [Bool.or_eq_true, String.isEmpty_iff, beq_iff_eq]
      exact not_or.2 ⟨hsome, hother⟩
  rw [record_regular hself, htitle, hw]
  simp only [Option.getD_some, hforgotten, htype]
  rw [← hsize recorded hrecorded] at hrecorded
  rw [← hpos, ← hrecorded, ← hmode, ← hinputs, ← houtputs, ← h.extra]

/-- A stand-in without slots that takes over the record that it stands for gives that back. -/
theorem record_applyRecord_standIn {n : Node Catalog} {record : NodeRecord}
    (other : n.standsFor = some record) (inputs : n.inputs = []) (outputs : n.outputs = []) :
    (n.applyRecord record).1.record =
      { record with id := if n.id.isSome then n.id else record.id } := by
  obtain ⟨size, -, hw⟩ := n.applyRecord_catalog record
  generalize (n.applyRecord record).1 = w at hw ⊢
  rw [inputs, outputs] at hw
  have hin : record.inputs.map (liveInputs w.inputs) = record.inputs := by
    rw [hw]
    cases record.inputs with
    | none => rfl
    | some inputs => exact congrArg some (liveInputs_self inputs)
  have hout : record.outputs.map (liveOutputs w.outputs) = record.outputs := by
    rw [hw]
    cases record.outputs with
    | none => rfl
    | some outputs => exact congrArg some (liveOutputs_self outputs)
  have hother : w.standsFor = some record := by rw [hw, other]
  rw [record_standIn hother, hin, hout, hw]

/-! ## Nodes that wait for the record of another -/

/-- A node was made for the record of another, under its identity, and has no property that the
record does not mention. -/
structure Ready (r : Registry Catalog) (id : NodeId) (record : NodeRecord) (n : Node Catalog) :
    Prop where
  pending : n.Pending r record
  id : n.id = some id
  type : n.type = record.type
  names : n.properties.keys <+: record.properties.keys

theorem Ready.follows {id : NodeId} {record : NodeRecord} {n n' : Node Catalog}
    (h : n.Ready r id record) (hf : n.Follows n') (hk : n'.properties.keys = n.properties.keys) :
    n'.Ready r id record where
  pending := h.pending.follows hf
  id := (congrArg Make.id hf.make).trans h.id
  type := (congrArg Make.type hf.make).trans h.type
  names := hk ▸ h.names

/-- Two nodes cannot be told apart by their records, their links and their priorities. -/
structure Alike (n n' : Node Catalog) : Prop where
  record : n'.record = n.record
  pins : n'.pins = n.pins
  priority : n'.priority = n.priority

theorem Alike.of_still {n n' m : Node Catalog} (h : n.Alike n') (hs : m.still = n'.still) :
    n.Alike m where
  record := by rw [← record_still, hs, record_still, h.record]
  pins := (congrArg (fun n : Node Catalog => n.pins) hs).trans h.pins
  priority := (congrArg (fun n : Node Catalog => n.priority) hs).trans h.priority

theorem Alike.reordered {n n' : Node Catalog} (h : n.Alike n') (order : Nat) :
    n.Alike { n' with order } :=
  ⟨(n'.record_reordered order).trans h.record, h.pins, h.priority⟩

/-- The node that takes over the record of a regular node. -/
theorem alike_regular {id : NodeId} {m n : Node Catalog} (hm : m.id = some id) {t t' : NodeType Catalog}
    (known : r.get? m.type = some t) (itself : m.standsFor = none) (title : m.typeTitle = t.title)
    (priority : m.typePriority = t.priority) (hn : n.Ready r id m.record)
    (known' : r.get? n.type = some t') (itself' : n.standsFor = none)
    (title' : n.typeTitle = t'.title) (priority' : n.typePriority = t'.priority) :
    m.Alike (n.applyRecord m.record).1 := by
  have hrecord := record_regular itself
  have htype : n.type = m.type := by rw [hn.type, hrecord]
  have ht : t' = t := by
    rw [htype] at known'
    exact Option.some.inj (known'.symm.trans known)
  have htitle : n.typeTitle = m.typeTitle := by rw [title', title, ht]
  have hpriority : n.typePriority = m.typePriority := by rw [priority', priority, ht]
  have htaken : (n.applyRecord m.record).1.record = { m.record with id := n.id } :=
    record_applyRecord_regular (htitle ▸ complete_record itself) itself' hn.type hn.names
  obtain ⟨size, -, hw⟩ := n.applyRecord_catalog m.record
  generalize (n.applyRecord m.record).1 = w at hw htaken ⊢
  rw [hrecord] at hw
  constructor
  · rw [htaken, hn.id, ← id_record hm]
  · rw [hw]
    show (⟨n.id, _, (m.outputs.map forgetData).map Output.links⟩ : Pins) = ⟨m.id, _, _⟩
    rw [List.map_map, hn.id, hm]
    rfl
  · rw [hw]
    show m.ownPriority.getD n.typePriority = m.ownPriority.getD m.typePriority
    rw [hpriority]

/-- The node that takes over the record of a stand-in. -/
theorem alike_standIn {id : NodeId} {m n : Node Catalog} (hm : m.id = some id) {record : NodeRecord}
    (other : m.standsFor = some record) (inputs : m.inputs.length = (record.inputs.getD []).length)
    (outputs : m.outputs.length = (record.outputs.getD []).length)
    (own : m.ownPriority = record.priority) (priority : m.typePriority = 0)
    (hn : n.Ready r id m.record) (other' : n.standsFor = some m.record)
    (inputs' : n.inputs.length = 0) (outputs' : n.outputs.length = 0)
    (priority' : n.typePriority = 0) : m.Alike (n.applyRecord m.record).1 := by
  have hrecord := record_standIn other
  have inputs' := List.eq_nil_of_length_eq_zero inputs'
  have outputs' := List.eq_nil_of_length_eq_zero outputs'
  have htaken := record_applyRecord_standIn other' inputs' outputs'
  -- the slots of the new node are those of the record
  obtain ⟨size, -, hw⟩ := n.applyRecord_catalog m.record
  generalize (n.applyRecord m.record).1 = w at hw htaken ⊢
  rw [inputs', outputs'] at hw
  have hwid : w.id = some id := by rw [hw, hn.id]
  have hwin : w.inputs = m.record.inputs.getD [] := by rw [hw]
  have hwout : w.outputs = m.record.outputs.getD [] := by rw [hw]
  constructor
  · rw [htaken, hn.id, Option.isSome_some, if_pos rfl, ← id_record hm]
  · have hin : w.inputs.map Input.link = m.inputs.map Input.link := by
      rw [hwin, hrecord]
      show ((record.inputs.map (liveInputs m.inputs)).getD []).map Input.link = _
      cases hr : record.inputs with
      | none =>
        rw [hr] at inputs
        rw [List.eq_nil_of_length_eq_zero inputs]
        rfl
      | some recorded =>
        rw [hr] at inputs
        exact link_liveInputs inputs
    have hout : w.outputs.map Output.links = m.outputs.map Output.links := by
      rw [hwout, hrecord]
      show ((record.outputs.map (liveOutputs m.outputs)).getD []).map Output.links = _
      cases hr : record.outputs with
      | none =>
        rw [hr] at outputs
        rw [List.eq_nil_of_length_eq_zero outputs]
        rfl
      | some recorded =>
        rw [hr] at outputs
        exact links_liveOutputs outputs
    show (⟨w.id, w.inputs.map Input.link, w.outputs.map Output.links⟩ : Pins) = ⟨m.id, _, _⟩
    rw [hwid, hm, hin, hout]
  · rw [hw]
    show m.record.priority.getD n.typePriority = m.ownPriority.getD m.typePriority
    rw [hrecord, priority', priority, own]

/-- A node that takes over the record of a faithful one becomes like it, if its links are passed
through a map that keeps those of the faithful one. -/
theorem Ready.revived {id : NodeId} {m n : Node Catalog} (hn : n.Ready r id m.record)
    (hm : m.Faithful r) (hid : m.id = some id) {f : Direction → Nat → LinkId → Option LinkId}
    (hf : ∀ d slot k, m.Names d slot k → f d slot k = some k) :
    (n.applyRecord m.record).1.relink f = (n.applyRecord m.record).1 ∧
      m.Alike (n.applyRecord m.record).1 := by
  have halike : m.Alike (n.applyRecord m.record).1 := by
    rcases hm with ⟨t, known, itself, title, priority, -⟩ |
      ⟨record, unknown, other, inputs, outputs, own, priority⟩
    · have hknown : r.get? m.record.type = some t := by rw [record_regular itself, known]
      rcases hn.pending with ⟨itself', ⟨t', known', -, title', priority', -⟩ | ⟨_, _, other', _⟩⟩ |
        ⟨unknown', _⟩
      · exact alike_regular hid known itself title priority hn known' itself' title' priority'
      · rw [itself'] at other'
        cases other'
      · rw [hknown] at unknown'
        cases unknown'
    · have hunknown : r.get? m.record.type = none := by rw [record_standIn other, unknown]
      rcases hn.pending with ⟨itself', ⟨t', known', _⟩ | ⟨_, _, other', _⟩⟩ |
        ⟨-, other', inputs', outputs', priority'⟩
      · rw [hn.type, hunknown] at known'
        cases known'
      · rw [itself'] at other'
        cases other'
      · exact alike_standIn hid other inputs outputs own priority hn other' inputs' outputs' priority'
  refine ⟨relink_self fun d slot k hk => ?_, halike⟩
  exact hf d slot k (names_of_pins halike.pins hk)

end Node

/-! ## Nodes that are made for records -/

namespace Engine

/-- A node that is made for the record of a faithful one is ready to take it over. -/
theorem ready_madeOf (hkeyed : r.Keyed) {m : Node Catalog} (hm : m.Faithful r) {id : NodeId}
    (pos : Point) : Node.Ready r id m.record { (madeOf r m.record).1 with id := some id, pos } where
  pending := (pending_madeOf hkeyed m.record).placed (some id) pos
  id := rfl
  type := by
    show (madeOf r m.record).1.type = _
    unfold madeOf Registry.create
    cases ht : r.get? m.record.type with
    | none => rfl
    | some t =>
      obtain ⟨size, pos, he⟩ := (t.instantiate m.record.title).attachDefaults_eq t
      show ((t.instantiate m.record.title).attachDefaults t).type = _
      rw [he]
      exact hkeyed _ t ht
  names := by
    show (madeOf r m.record).1.properties.keys <+: _
    unfold madeOf Registry.create
    cases ht : r.get? m.record.type with
    | none => exact List.nil_prefix
    | some t =>
      obtain ⟨size, pos, he⟩ := (t.instantiate m.record.title).attachDefaults_eq t
      show ((t.instantiate m.record.title).attachDefaults t).properties.keys <+: _
      rw [he]
      show t.initialProperties.keys <+: _
      -- the node that was recorded has the properties of that type first
      rcases hm with ⟨t', known, itself, -, -, properties⟩ | ⟨record, unknown, other, -⟩
      · rw [Node.record_regular itself] at ht ⊢
        cases Option.some.inj (known.symm.trans ht)
        exact properties
      · rw [Node.record_standIn other, unknown] at ht
        cases ht

theorem named_madeOf (hnamed : r.Named) (record : NodeRecord) :
    ∀ b ∈ (madeOf r record).1.behavior, ¬b.IsTame →
      "name" ∈ (madeOf r record).1.properties.keys := by
  unfold madeOf Registry.create
  cases ht : r.get? record.type with
  | none =>
    intro b hb htame
    cases hb
    exact absurd trivial htame
  | some t =>
    obtain ⟨size, pos, he⟩ := (t.instantiate record.title).attachDefaults_eq t
    show ∀ b ∈ ((t.instantiate record.title).attachDefaults t).behavior, ¬b.IsTame →
      "name" ∈ ((t.instantiate record.title).attachDefaults t).properties.keys
    rw [he]
    intro b hb htame
    cases hb
    exact hnamed _ t ht htame

/-- Only types that are not registered are missing. -/
theorem missing_madeOf (record : NodeRecord) (h : (madeOf r record).2 ≠ []) :
    r.get? record.type = none := by
  unfold madeOf Registry.create at h
  cases ht : r.get? record.type with
  | none => rfl
  | some t =>
    rw [ht] at h
    exact absurd rfl h

end Engine

end Dataflow
