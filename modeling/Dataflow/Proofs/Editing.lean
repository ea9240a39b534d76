/-
  Every edit keeps links and slots in agreement.

  Most edits keep the skeleton or the wiring of the graph, and for those nothing remains to be
  shown.  The others were looked at one by one in the modules before this one.  A node that an
  edit hands out names no links, so it may be added again: one that was removed has lost its
  links, and a copy is made from a record without them.
-/

import Dataflow.Proofs.Membership

namespace Dataflow

variable {B σ : Type}

/-! ## Nodes without links -/

/-- The slots that a type gives to its nodes name no links. -/
def NodeType.Unlinked (t : NodeType B) : Prop :=
  (∀ s ∈ t.inputs, s.link = none) ∧ ∀ s ∈ t.outputs, s.links = []

instance (t : NodeType B) : Decidable t.Unlinked := inferInstanceAs (Decidable (_ ∧ _))

/-- The slots of every registered type name no links. -/
def Registry.Fresh (r : Registry B) : Prop := ∀ type, ∀ t ∈ r.get? type, t.Unlinked

theorem Registry.Fresh.register {r : Registry B} (hr : r.Fresh) {t : NodeType B}
    (ht : t.Unlinked) : (r.register t).Fresh := by
  intro type t' h
  have he : (r.register t).get? type = if type = t.id then some t else r.get? type :=
    Assoc.get?_insert ..
  rw [he] at h
  split at h
  · cases h
    exact ht
  · exact hr type t' h

theorem Registry.Fresh.registerAll {ts : List (NodeType B)} (ht : ∀ t ∈ ts, t.Unlinked)
    {r : Registry B} (hr : r.Fresh) : (ts.foldl Registry.register r).Fresh := by
  induction ts generalizing r with
  | nil => exact hr
  | cons t ts ih =>
    apply ih
    · exact fun t' h => ht t' (List.mem_cons_of_mem t h)
    · exact hr.register (ht t (List.mem_cons_self ..))

namespace Node

/-- Looseness is a matter of slots and identity. -/
theorem Loose.of_slots {n n' : Node B} (h : n.Loose) (hi : n'.inputs = n.inputs)
    (ho : n'.outputs = n.outputs) (hid : n'.id = n.id) : n'.Loose :=
  ⟨by rw [hi]; exact h.inputs, by rw [ho]; exact h.outputs, by rw [hid]; exact h.id⟩

theorem Loose.attachDefaults {n : Node B} (h : n.Loose) (t : NodeType B) :
    (n.attachDefaults t).Loose := by
  unfold Node.attachDefaults
  extract_lets named sized placed
  have hn : named.Loose := h.of_slots rfl rfl rfl
  have hs : sized.Loose := by
    show (ite _ _ _ : Node B).Loose
    split
    · exact hn.of_slots rfl rfl rfl
    · exact hn
  have hp : placed.Loose := by
    show (ite _ _ _ : Node B).Loose
    split
    · exact hs.of_slots rfl rfl rfl
    · exact hs
  exact hp.of_slots rfl rfl rfl

variable [Kind B]

theorem loose_placeholder (r : NodeRecord) : (placeholder r : Node B).Loose where
  inputs s hs := by cases hs
  outputs s hs := by cases hs
  id id h := by cases h

theorem loose_instantiate {t : NodeType B} (ht : t.Unlinked) (title : Option String) :
    (t.instantiate title).Loose where
  inputs := ht.1
  outputs := ht.2
  id id h := by cases h

theorem Loose.tell {n : Node B} (h : n.Loose) (notice : Notice) : (n.tell notice).1.Loose := by
  obtain ⟨b, hb⟩ := n.tell_eq notice
  rw [hb]
  exact ⟨h.inputs, h.outputs, h.id⟩

theorem Loose.offerProperties {n : Node B} (h : n.Loose) (es : List (String × Value)) :
    (n.offerProperties es).1.Loose := by
  induction es generalizing n with
  | nil => exact h
  | cons e es ih =>
    show (Node.offerProperties (n.offerProperty e.1 e.2).1 es).1.Loose
    apply ih
    unfold offerProperty
    simp only
    split
    · exact h.tell _
    · exact (h.tell _).of_slots rfl rfl rfl

/-- A record without links leaves a node without links. -/
theorem Loose.applyRecord {n : Node B} (h : n.Loose) (r : NodeRecord) :
    (n.applyRecord r.detached).1.Loose := by
  have ho := h.offerProperties r.detached.properties.entries
  constructor
  · show ∀ s ∈ r.detached.inputs.getD (n.offerProperties r.detached.properties.entries).1.inputs, _
    cases hr : r.inputs with
    | none =>
      rw [show r.detached.inputs = none by simp [NodeRecord.detached, hr]]
      exact ho.inputs
    | some inputs =>
      rw [show r.detached.inputs = some (inputs.map fun s => { s with link := none }) by
        simp [NodeRecord.detached, hr]]
      intro s hs
      obtain ⟨s', -, rfl⟩ := List.mem_map.1 hs
      rfl
  · show ∀ s ∈ r.detached.outputs.getD (n.offerProperties r.detached.properties.entries).1.outputs, _
    cases hr : r.outputs with
    | none =>
      rw [show r.detached.outputs = none by simp [NodeRecord.detached, hr]]
      exact ho.outputs
    | some outputs =>
      rw [show r.detached.outputs = some (outputs.map fun s => { s with links := [] }) by
        simp [NodeRecord.detached, hr]]
      intro s hs
      obtain ⟨s', -, rfl⟩ := List.mem_map.1 hs
      rfl
  · exact ho.id

end Node

section Made

variable [Kind B] {r : Registry B}

theorem Registry.loose_createOrStandIn {type : String} (hr : ∀ t ∈ r.get? type, t.Unlinked)
    (title : Option String) : (r.createOrStandIn type title).Loose := by
  unfold Registry.createOrStandIn Registry.create
  cases ht : r.get? type with
  | none => exact Node.loose_placeholder _
  | some t => exact (Node.loose_instantiate (hr t ht) title).attachDefaults t

theorem Registry.Fresh.loose_copy (hr : r.Fresh) (n : Node B) : (n.copy r).1.Loose := by
  unfold Node.copy
  -- the record of the node goes without its links, so only the new slots matter
  simp only
  apply Node.Loose.tell
  apply Node.Loose.applyRecord
  split
  · exact Node.loose_placeholder _
  · exact Registry.loose_createOrStandIn (hr _) none

end Made

/-! ## All edits -/

namespace Edit

variable [Kind B] {s : Session B σ}

/-- Edits keep up what survives their steps; where an edit makes a link, its number must be new. -/
theorem upkeep_apply {I : Graph B → Prop} (hI : Upkeep I) (hs : I s.graph) (e : Edit)
    (hbelow : s.graph.nextLink < (e.apply s).2.graph.nextLink → s.graph.LinksBelow) :
    I (e.apply s).2.graph := by
  cases e with
  | remove id => exact (Session.upkeep_remove hI hs id).1
  | clear => exact Session.upkeep_clear hI hs
  | tryConnect origin originSlot target targetSlot =>
    exact Session.upkeep_tryConnect hI hs origin originSlot target targetSlot hbelow
  | connectByName origin output target input =>
    exact Session.upkeep_connectByName hI hs origin output target input hbelow
  | disconnectInput id slot => exact Session.upkeep_disconnectInput hI hs id slot
  | disconnectOutput id slot target => exact Session.upkeep_disconnectOutput hI hs id slot target
  | removeLink id => exact Session.upkeep_removeLink hI hs id
  | addInput id name type => exact Session.upkeep_addInput hI hs id name type
  | addOutput id name type => exact Session.upkeep_addOutput hI hs id name type
  | removeInput id slot => exact Session.upkeep_removeInput hI hs id slot
  | removeOutput id slot => exact Session.upkeep_removeOutput hI hs id slot
  | change id c => exact hI.wiring (Session.wiring_change s id c) hs
  | beginBatch => exact hI.wiring (Session.wiring_beginBatch s) hs
  | endBatch => exact hI.wiring (Session.wiring_endBatch s) hs
  | updateOrder => exact hI.wiring (Graph.wiring_updateOrder s.graph) hs
  | _ => exact hI.wiring (Graph.wiring_of_skeleton (skeleton_apply rfl s)) hs

theorem tidy_apply {r : Registry B} (hs : s.graph.Tidy r) (e : Edit) :
    (e.apply s).2.graph.Tidy r :=
  upkeep_apply (upkeep_tidy r) hs e fun _ => hs.1.linkBelow

end Edit

end Dataflow
