/-
  The terminals of a graph, and what the operations on a session make of them.

  Writing the terminals of one direction leaves those of the other alone, and what is done to nodes
  and links leaves all of them alone.  Six edits handle terminals; every other one is `Edit.Inland`
  and leaves the `shore` of the graph, its types and its terminals, as it was.  The types are never
  changed by an edit.
-/

import Dataflow.Proofs.Phases
import Dataflow.Session.Terminal

namespace Dataflow

namespace Graph

variable {B : Type} (g : Graph B) (ts : Assoc String Terminal)

theorem terminals_withTerminals (d : Direction) : (g.withTerminals d ts).terminals d = ts := by
  cases d <;> rfl

theorem terminals_withTerminals_of_ne {d d' : Direction} (h : d' ≠ d) :
    (g.withTerminals d' ts).terminals d = g.terminals d := by
  cases d <;> cases d' <;> first | rfl | exact absurd rfl h

end Graph

namespace Session

variable {B σ : Type} (s : Session B σ) {d : Direction}

theorem terminals_setTerminals (d : Direction) (ts : Assoc String Terminal)
    (events : List (Event B)) : (s.setTerminals d ts events).graph.terminals d = ts :=
  Eq.trans (by cases d <;> rfl) (s.graph.terminals_withTerminals ts d)

theorem terminals_setTerminals_of_ne {d' : Direction} (h : d' ≠ d)
    (ts : Assoc String Terminal) (events : List (Event B)) :
    (s.setTerminals d' ts events).graph.terminals d = s.graph.terminals d :=
  Eq.trans (by cases d <;> rfl) (s.graph.terminals_withTerminals_of_ne ts h)

theorem terminals_storeProperty (id : NodeId) (name : String) (value : Value)
    (d : Direction) : (s.storeProperty id name value).graph.terminals d = s.graph.terminals d := by
  unfold storeProperty
  split
  · cases d <;> rfl
  · rfl

theorem terminals_renameSlot (side : Direction) (id : NodeId) (slot : Nat) (name : String)
    (d : Direction) : (s.renameSlot side id slot name).graph.terminals d = s.graph.terminals d := by
  cases d <;> rfl

theorem terminals_renameTerminal_of_ne {d' : Direction} (h : d' ≠ d) (old new : String) :
    (s.renameTerminal d' old new).2.graph.terminals d = s.graph.terminals d := by
  unfold renameTerminal
  simp only
  split
  · exact s.terminals_setTerminals_of_ne h ..
  · rfl

theorem terminals_retypeTerminal_of_ne {d' : Direction} (h : d' ≠ d) (name : String)
    (type : SlotType) :
    (s.retypeTerminal d' name type).2.graph.terminals d = s.graph.terminals d := by
  unfold retypeTerminal
  simp only
  split
  · split
    · rfl
    · exact s.terminals_setTerminals_of_ne h ..
  · rfl

section Retyped

variable (d : Direction) (name : String) (type : SlotType)

/-- A terminal whose type is shown like the new one stays as it is. -/
theorem retypeTerminal_kept {old : Terminal} (h : (s.graph.terminals d).get? name = some old)
    (hreads : old.type.readsAs type = true) : s.retypeTerminal d name type = (false, s) := by
  unfold retypeTerminal
  simp only [h, hreads, if_true]

/-- Any other terminal gets the new type, and nothing else of it changes. -/
theorem retypeTerminal_changed {old : Terminal} (h : (s.graph.terminals d).get? name = some old)
    (hreads : old.type.readsAs type = false) : s.retypeTerminal d name type =
      (true, s.setTerminals d ((s.graph.terminals d).insert name { old with type })
        [.terminalRetyped d name type]) := by
  unfold retypeTerminal
  simp only [h, hreads, Bool.false_eq_true, if_false]

end Retyped

end Session

/-! ## Operations inland -/

/-- The types that a graph knows, and its terminals of both directions. -/
def Graph.shore {B : Type} (g : Graph B) :
    Registry B × Assoc String Terminal × Assoc String Terminal := (g.registry, g.inlets, g.outlets)

/-- The edits that do not handle terminals. -/
def Edit.Inland : Edit → Prop
  | clear | addTerminal .. | setTerminalValue .. | renameTerminal .. | retypeTerminal ..
  | removeTerminal .. => False
  | _ => True

namespace Graph

variable {B : Type} (g : Graph B)

theorem registry_of_shore {g g' : Graph B} (h : g'.shore = g.shore) : g'.registry = g.registry :=
  congrArg Prod.fst h

theorem terminals_of_shore {g g' : Graph B} (h : g'.shore = g.shore) (d : Direction) :
    g'.terminals d = g.terminals d := by
  cases d with
  | input => exact congrArg (fun p => p.2.1) h
  | output => exact congrArg (fun p => p.2.2) h

theorem shore_modifyLinks (ks : List LinkId) (f : Link → Link) :
    (g.modifyLinks ks f).shore = g.shore := by
  rw [modifyLinks_eq]
  rfl

theorem shore_updateOrder : g.updateOrder.shore = g.shore := by
  show (g.number g.computeOrder).shore = _
  rw [number_eq]
  rfl

theorem shore_setOutputData (id : NodeId) (slot : Nat) (value : Value) :
    (g.setOutputData id slot value).shore = g.shore := by
  unfold setOutputData
  split
  · exact g.shore_modifyLinks _ _
  · rfl

theorem terminals_setOutputData {d : Direction} (id : NodeId) (slot : Nat) (value : Value) :
    (g.setOutputData id slot value).terminals d = g.terminals d :=
  terminals_of_shore (g.shore_setOutputData id slot value) d

theorem shore_clearTriggered (id : NodeId) (slot : Nat) (only : Option LinkId) :
    (g.clearTriggered id slot only).shore = g.shore := by
  unfold clearTriggered
  split
  · exact g.shore_modifyLinks _ _
  · rfl

theorem shore_eraseInput (id : NodeId) (slot : Nat) : (g.eraseInput id slot).shore = g.shore := by
  unfold eraseInput
  split
  · exact g.shore_modifyLinks _ _
  · rfl

theorem shore_eraseOutput (id : NodeId) (slot : Nat) : (g.eraseOutput id slot).shore = g.shore := by
  unfold eraseOutput
  split
  · exact g.shore_modifyLinks _ _
  · rfl

theorem shore_arrange (margin : Float32) : (g.arrange margin).shore = g.shore :=
  arrange_keeps (P := fun g' => g'.shore = g.shore) (fun _ _ _ h => h) rfl margin

theorem shore_mergeLinks (nodes : Renaming NodeId) (records : List LinkRecord) :
    (g.mergeLinks nodes records).graph.shore = g.shore :=
  mergeLinks_keeps (P := fun g' => g'.shore = g.shore) (fun _ _ _ _ _ _ h => h) rfl nodes records

theorem shore_repair (pruned : List LinkId) : (g.repair pruned).graph.shore = g.shore :=
  repaired_keeps (P := fun g' => g'.shore = g.shore) (fun _ _ _ h => h) (fun _ _ h => h)
    (fun _ _ h => h) rfl pruned

end Graph

namespace Session

variable {B σ : Type} (s : Session B σ)

@[simp] theorem shore_log (e : Event B) : (s.log e).graph.shore = s.graph.shore := rfl

@[simp] theorem shore_changed : s.changed.graph.shore = s.graph.shore := rfl

@[simp] theorem shore_markStale : s.markStale.graph.shore = s.graph.shore := rfl

@[simp] theorem shore_beginBatch : s.beginBatch.graph.shore = s.graph.shore := rfl

@[simp] theorem shore_refresh : s.refresh.graph.shore = s.graph.shore := by
  unfold refresh
  split
  · exact s.graph.shore_updateOrder
  · rfl

@[simp] theorem shore_invalidate : s.invalidate.graph.shore = s.graph.shore := by
  unfold invalidate
  rw [shore_refresh, shore_markStale]

@[simp] theorem shore_endBatch : s.endBatch.graph.shore = s.graph.shore := by
  unfold endBatch
  rw [shore_refresh]
  rfl

theorem shore_foldl {α : Type} {f : Session B σ → α → Session B σ}
    (h : ∀ s a, (f s a).graph.shore = s.graph.shore) (as : List α) (s : Session B σ) :
    (as.foldl f s).graph.shore = s.graph.shore := by
  induction as generalizing s with
  | nil => rfl
  | cons a as ih => exact (ih _).trans (h s a)

theorem shore_change (id : NodeId) (c : NodeChange) :
    (s.change id c).2.graph.shore = s.graph.shore := by
  unfold change
  split
  · simp only
    split
    · rw [shore_invalidate]
      rfl
    · rfl
  · rfl

theorem shore_storeProperty (id : NodeId) (name : String) (value : Value) :
    (s.storeProperty id name value).graph.shore = s.graph.shore := by
  unfold storeProperty
  split <;> rfl

variable [Kind B]

@[simp] theorem shore_tell (id : NodeId) (notice : Notice) :
    (s.tell id notice).graph.shore = s.graph.shore := by
  unfold tell
  split <;> rfl

theorem shore_tellAll (ids : List NodeId) (notice : Notice) :
    (s.tellAll ids notice).graph.shore = s.graph.shore :=
  shore_foldl (fun s id => s.shore_tell id notice) ids s

theorem shore_start : s.start.graph.shore = s.graph.shore := by
  unfold start
  split
  · rfl
  · exact shore_tellAll _ _ _

theorem shore_stop : s.stop.graph.shore = s.graph.shore := by
  unfold stop
  split
  · exact shore_tellAll _ _ _
  · rfl

@[simp] theorem shore_announce (link : Link) (connected : Bool) :
    (s.announce link connected).graph.shore = s.graph.shore := by
  have hend : ∀ (s : Session B σ) (d : Direction) (id : NodeId) (slot : Nat),
      (s.tellEnd d id slot connected link).graph.shore = s.graph.shore := by
    intro s d id slot
    unfold tellEnd
    split
    · exact s.shore_tell _ _
    · rfl
  exact (hend _ .output _ _).trans (hend s .input _ _)

@[simp] theorem shore_unlink (k : LinkId) : (s.unlink k).graph.shore = s.graph.shore := by
  unfold unlink
  split
  · rw [shore_announce]
    rfl
  · rfl

@[simp] theorem shore_disconnectInput (id : NodeId) (slot : Nat) :
    (s.disconnectInput id slot).2.graph.shore = s.graph.shore := by
  unfold disconnectInput
  split
  · simp
  · rfl

@[simp] theorem shore_disconnectOutput (id : NodeId) (slot : Nat) (target : Option NodeId) :
    (s.disconnectOutput id slot target).2.graph.shore = s.graph.shore := by
  unfold disconnectOutput
  split
  · rfl
  · rw [shore_changed, shore_invalidate]
    exact shore_foldl (fun s k => s.shore_unlink k) _ s

theorem shore_removeLink (k : LinkId) : (s.removeLink k).2.graph.shore = s.graph.shore := by
  unfold removeLink
  split
  · simp
  · rfl

theorem shore_link (origin : NodeId) (originSlot : Nat) (target : NodeId) (targetSlot : Nat)
    (input : Input) :
    (s.link origin originSlot target targetSlot input).2.graph.shore = s.graph.shore := by
  unfold link
  simp only [shore_changed, shore_invalidate, shore_announce]
  cases input.link with
  | none => rfl
  | some replaced => exact s.shore_unlink replaced

theorem shore_tryConnect (origin : NodeId) (originSlot : Nat) (target : NodeId) (targetSlot : Nat) :
    (s.tryConnect origin originSlot target targetSlot).2.graph.shore = s.graph.shore := by
  unfold tryConnect
  split
  · rfl
  · simp only
    split
    · rw [shore_tell]
    · split
      · rw [shore_tell]
      · rw [shore_link, shore_tell]

theorem shore_connectByName (origin : NodeId) (output : String) (target : NodeId) (input : String) :
    (s.connectByName origin output target input).2.graph.shore = s.graph.shore := by
  unfold connectByName
  split
  · rfl
  · exact s.shore_tryConnect _ _ _ _

theorem shore_removeInput (id : NodeId) (slot : Nat) :
    (s.removeInput id slot).2.graph.shore = s.graph.shore := by
  unfold removeInput
  split
  · simp only [shore_changed, shore_endBatch, shore_markStale]
    refine (Graph.shore_eraseInput _ id slot).trans ?_
    rw [shore_disconnectInput, shore_beginBatch]
  · rfl

theorem shore_removeOutput (id : NodeId) (slot : Nat) :
    (s.removeOutput id slot).2.graph.shore = s.graph.shore := by
  unfold removeOutput
  split
  · simp only [shore_changed, shore_endBatch, shore_markStale]
    refine (Graph.shore_eraseOutput _ id slot).trans ?_
    rw [shore_disconnectOutput, shore_beginBatch]
  · rfl

theorem shore_setProperty (id : NodeId) (name : String) (value : Value) :
    (s.setProperty id name value).2.graph.shore = s.graph.shore := by
  unfold setProperty
  split
  · simp only
    split
    · rw [shore_tell]
    · rw [shore_storeProperty, shore_tell]
  · rfl

theorem shore_remove (id : NodeId) : (s.remove id).2.graph.shore = s.graph.shore := by
  have hisolate : ∀ (s : Session B σ) (n : Node B),
      (s.isolate id n).graph.shore = s.graph.shore := fun s n =>
    (shore_foldl (fun s slot => s.shore_disconnectOutput id slot none) _ _).trans
      (shore_foldl (fun s slot => s.shore_disconnectInput id slot) _ _)
  have hextract : ∀ s : Session B σ, (s.extract id).2.graph.shore = s.graph.shore := by
    intro s
    unfold extract
    simp only
    split <;> exact s.shore_tell id .removed
  unfold remove
  split
  · simp only [shore_changed, shore_log, shore_endBatch, shore_markStale, hextract, hisolate,
      shore_beginBatch]
  · rfl

/-- Edits inland leave the terminals as they are. -/
theorem shore_apply {e : Edit} (h : e.Inland) : (e.apply s).2.graph.shore = s.graph.shore := by
  cases e with
  | clear => exact h.elim
  | addTerminal => exact h.elim
  | setTerminalValue => exact h.elim
  | renameTerminal => exact h.elim
  | retypeTerminal => exact h.elim
  | removeTerminal => exact h.elim
  | remove id => exact s.shore_remove id
  | tryConnect => exact s.shore_tryConnect ..
  | connectByName => exact s.shore_connectByName ..
  | disconnectInput id slot => exact s.shore_disconnectInput id slot
  | disconnectOutput id slot target => exact s.shore_disconnectOutput id slot target
  | removeLink k => exact s.shore_removeLink k
  | addInput id name type =>
    show (s.addInput id name type).2.graph.shore = _
    unfold addInput
    split <;> rfl
  | addOutput id name type =>
    show (s.addOutput id name type).2.graph.shore = _
    unfold addOutput
    split <;> rfl
  | removeInput id slot => exact s.shore_removeInput id slot
  | removeOutput id slot => exact s.shore_removeOutput id slot
  | setProperty id name value => exact s.shore_setProperty id name value
  | storeProperty id name value => exact s.shore_storeProperty id name value
  | change id c => exact s.shore_change id c
  | setOutputData id slot value => exact s.graph.shore_setOutputData id slot value
  | clearTriggered id slot only => exact s.graph.shore_clearTriggered id slot only
  | removeGroup i =>
    show (Edit.apply s (.removeGroup i)).2.graph.shore = _
    simp only [Edit.apply]
    split <;> rfl
  | arrange margin => exact s.graph.shore_arrange margin
  | endBatch => exact shore_refresh _
  | updateOrder => exact s.graph.shore_updateOrder
  | start => exact s.shore_start
  | stop => exact s.shore_stop
  | cloneNode id =>
    show (s.cloneNode id).2.graph.shore = _
    unfold cloneNode
    split <;> rfl
  | renameSlot | declareProperty | align | clearAllTriggered | addGroup | beginBatch | setConfig
  | removeConfig | setSettings => rfl

omit [Kind B] in
theorem registry_setTerminals (d : Direction) (ts : Assoc String Terminal)
    (events : List (Event B)) : (s.setTerminals d ts events).graph.registry = s.graph.registry := by
  cases d <;> rfl

/-- No edit changes the types that a graph knows. -/
theorem registry_apply (e : Edit) : (e.apply s).2.graph.registry = s.graph.registry := by
  cases e with
  | clear =>
    show (s.stop.tellAll s.stop.graph.nodes.keys .removed).graph.registry = _
    exact Graph.registry_of_shore ((s.stop.shore_tellAll _ .removed).trans s.shore_stop)
  | addTerminal d => exact s.registry_setTerminals d ..
  | setTerminalValue d name value =>
    show (s.setTerminalValue d name value).2.graph.registry = _
    cases d <;> rfl
  | renameTerminal d old new =>
    show (s.renameTerminal d old new).2.graph.registry = _
    unfold renameTerminal
    simp only
    split
    · exact s.registry_setTerminals ..
    · rfl
  | retypeTerminal d name type =>
    show (s.retypeTerminal d name type).2.graph.registry = _
    unfold retypeTerminal
    simp only
    split
    · split
      · rfl
      · exact s.registry_setTerminals ..
    · rfl
  | removeTerminal d name =>
    show (s.removeTerminal d name).2.graph.registry = _
    unfold removeTerminal
    simp only
    split
    · exact s.registry_setTerminals ..
    · rfl
  | _ => exact Graph.registry_of_shore (s.shore_apply trivial)

/-- At the end of a load no terminal comes or goes. -/
theorem shore_settleLoad (snapshot : Snapshot) (placed : List (NodeId × NodeRecord))
    (nodes : Renaming NodeId) (report : LoadReport) :
    (s.settleLoad snapshot placed nodes report).2.graph.shore = s.graph.shore := by
  obtain ⟨told, htold, heq⟩ := s.settleLoad_eq snapshot placed nodes report
  rw [heq]
  let load := s.graph.mergeLinks nodes snapshot.links
  let merged : Graph B := { load.graph with nextLink := max load.graph.nextLink snapshot.nextLink }
  let adopted := merged.adopted load.table placed
  have hadopted : adopted.shore = merged.shore := by
    unfold adopted
    rw [Graph.adopted_eq]
    rfl
  have htold' : told.graph.shore = s.graph.shore := by
    rw [← s.graph.shore_mergeLinks nodes snapshot.links]
    show _ = merged.shore
    rw [← hadopted, ← adopted.shore_repair (report.prunedLinks ++ load.pruned), htold.rest]
    rfl
  exact ((shore_refresh _).trans rfl).trans htold'

end Session

end Dataflow
