/-
  What the operations of a session leave alone.

  Telling behaviours something, writing values, moving nodes, renaming and the like keep the
  skeleton of the graph.  Opening and closing batches, and bringing the order up to date, keep
  its wiring.  What remains are the operations that make or break links, slots and nodes; later
  modules look at those one by one.
-/

import Dataflow.Proofs.Skeleton

namespace Dataflow

variable {B σ : Type}

namespace Graph

/-! ## Graphs: the skeleton stays -/

theorem skeleton_setProperty (g : Graph B) (id : NodeId) (name : String) (value : Value) :
    (g.setProperty id name value).skeleton = g.skeleton :=
  skeleton_modifyNode (fun _ _ => rfl) fun _ _ => rfl

theorem skeleton_align (g : Graph B) (id : NodeId) (grid : Float32) :
    (g.modifyNode id (·.alignToGrid grid)).skeleton = g.skeleton := by
  apply skeleton_modifyNode
  · intro n _
    obtain ⟨p, hp⟩ := n.alignToGrid_eq grid
    rw [hp]
    rfl
  · intro n _
    obtain ⟨p, hp⟩ := n.alignToGrid_eq grid
    rw [hp]
    rfl

theorem skeleton_setOutputData (g : Graph B) (id : NodeId) (slot : Nat) (value : Value) :
    (g.setOutputData id slot value).skeleton = g.skeleton := by
  unfold setOutputData
  split
  · refine (skeleton_modifyNode ?_ ?_).trans (skeleton_modifyLinks ?_ _ g)
    · exact fun n _ => Node.pins_modifyOutput fun _ => rfl
    · exact fun n _ => rfl
    · exact fun l => rfl
  · rfl

theorem skeleton_clearTriggered (g : Graph B) (id : NodeId) (slot : Nat) (only : Option LinkId) :
    (g.clearTriggered id slot only).skeleton = g.skeleton := by
  unfold clearTriggered
  split
  · apply skeleton_modifyLinks
    exact fun l => rfl
  · rfl

theorem skeleton_clearAllTriggered (g : Graph B) : g.clearAllTriggered.skeleton = g.skeleton := by
  have hl : (g.links.mapValues fun _ l => { l with triggered := false }).mapValues
      (fun _ l => l.ends) = g.links.mapValues fun _ l => l.ends := by
    rw [Assoc.mapValues_mapValues]
    rfl
  unfold skeleton wiring clearAllTriggered
  rw [hl]

theorem skeleton_arrange (g : Graph B) (margin : Float32) :
    (g.arrange margin).skeleton = g.skeleton := by
  refine arrange_keeps (P := fun g' => g'.skeleton = g.skeleton) (fun g' id p h => ?_) rfl margin
  refine Eq.trans ?_ h
  exact skeleton_modifyNode (fun _ _ => rfl) fun _ _ => rfl

/-! ## Graphs: the wiring stays -/

theorem wiring_updateOrder (g : Graph B) : g.updateOrder.wiring = g.wiring := by
  refine updateOrder_keeps (P := fun g' => g'.wiring = g.wiring) (fun _ _ _ h => ?_)
    (fun _ _ _ h => h) rfl
  refine Eq.trans ?_ h
  exact wiring_modifyNode fun _ _ => rfl

end Graph

namespace Session

/-! ## Sessions: the skeleton stays -/

section Tell

variable [Kind B]

@[simp] theorem skeleton_tell (s : Session B σ) (id : NodeId) (notice : Notice) :
    (s.tell id notice).graph.skeleton = s.graph.skeleton := by
  unfold tell
  split
  · next n hn =>
    obtain ⟨b, hb⟩ := n.tell_eq notice
    show (s.graph.modifyNode id fun _ => (n.tell notice).1).skeleton = _
    rw [hb]
    apply Graph.skeleton_modifyNode
    · intro m hm
      rw [Option.some.inj (hn.symm.trans hm)]
      rfl
    · intro m hm
      rw [Option.some.inj (hn.symm.trans hm)]
      rfl
  · rfl

@[simp] theorem skeleton_tellAll (ids : List NodeId) (notice : Notice) (s : Session B σ) :
    (s.tellAll ids notice).graph.skeleton = s.graph.skeleton := by
  unfold tellAll
  induction ids generalizing s with
  | nil => rfl
  | cons id ids ih => exact (ih _).trans (skeleton_tell s id notice)

@[simp] theorem skeleton_tellEnd (s : Session B σ) (d : Direction) (id : NodeId) (slot : Nat)
    (connected : Bool) (link : Link) :
    (s.tellEnd d id slot connected link).graph.skeleton = s.graph.skeleton := by
  unfold tellEnd
  split
  · exact skeleton_tell s id _
  · rfl

@[simp] theorem skeleton_announce (s : Session B σ) (link : Link) (connected : Bool) :
    (s.announce link connected).graph.skeleton = s.graph.skeleton := by
  show (Session.tellEnd _ _ _ _ _ _).graph.skeleton = _
  rw [skeleton_tellEnd, skeleton_tellEnd]

@[simp] theorem skeleton_start (s : Session B σ) : s.start.graph.skeleton = s.graph.skeleton := by
  unfold start
  split
  · rfl
  · exact skeleton_tellAll _ _ _

@[simp] theorem skeleton_stop (s : Session B σ) : s.stop.graph.skeleton = s.graph.skeleton := by
  unfold stop
  split
  · exact skeleton_tellAll _ _ _
  · rfl

theorem skeleton_introduce (s : Session B σ) (id : NodeId) (r : NodeRecord) :
    (s.introduce id r).graph.skeleton = s.graph.skeleton := by
  unfold introduce
  generalize ((s.graph.nodes.get? id).map s.graph.slotLinks).getD [] = links
  rw [skeleton_tell]
  induction links generalizing s with
  | nil => rfl
  | cons e links ih => exact (ih _).trans (skeleton_tellEnd ..)

/-- A node that cloning hands out is a copy of a node of the graph. -/
theorem exists_of_cloneNode {s : Session B σ} {id : NodeId} {n : Node B}
    (h : n ∈ (s.cloneNode id).1) :
    ∃ m, s.graph.nodes.get? id = some m ∧ n = (m.copy s.graph.registry).1 := by
  unfold cloneNode at h
  cases hm : s.graph.nodes.get? id with
  | none =>
    rw [hm] at h
    cases h
  | some m =>
    rw [hm] at h
    cases h
    exact ⟨m, rfl, rfl⟩

@[simp] theorem skeleton_cloneNode (s : Session B σ) (id : NodeId) :
    (s.cloneNode id).2.graph.skeleton = s.graph.skeleton := by
  unfold cloneNode
  split <;> rfl

end Tell

@[simp] theorem skeleton_storeProperty (s : Session B σ) (id : NodeId) (name : String)
    (value : Value) : (s.storeProperty id name value).graph.skeleton = s.graph.skeleton := by
  unfold storeProperty
  split
  · exact Graph.skeleton_setProperty s.graph id name value
  · rfl

@[simp] theorem skeleton_setProperty [Kind B] (s : Session B σ) (id : NodeId) (name : String)
    (value : Value) : (s.setProperty id name value).2.graph.skeleton = s.graph.skeleton := by
  unfold setProperty
  split
  · show (ite _ _ _ : Session B σ).graph.skeleton = _
    split
    · exact skeleton_tell s id _
    · rw [skeleton_storeProperty, skeleton_tell]
  · rfl

@[simp] theorem skeleton_declareProperty (s : Session B σ) (id : NodeId) (info : PropertyInfo) :
    (s.declareProperty id info).2.graph.skeleton = s.graph.skeleton :=
  Graph.skeleton_modifyNode (fun _ _ => rfl) fun _ _ => rfl

@[simp] theorem skeleton_renameSlot (s : Session B σ) (d : Direction) (id : NodeId) (slot : Nat)
    (name : String) : (s.renameSlot d id slot name).graph.skeleton = s.graph.skeleton := by
  cases d with
  | input =>
    exact Graph.skeleton_modifyNode (fun _ _ => Node.pins_modifyInput fun _ => rfl) fun _ _ => rfl
  | output =>
    exact Graph.skeleton_modifyNode (fun _ _ => Node.pins_modifyOutput fun _ => rfl) fun _ _ => rfl

@[simp] theorem skeleton_setOutputData (s : Session B σ) (id : NodeId) (slot : Nat) (value : Value) :
    (s.setOutputData id slot value).2.graph.skeleton = s.graph.skeleton :=
  Graph.skeleton_setOutputData s.graph id slot value

@[simp] theorem skeleton_setTerminalValue (s : Session B σ) (d : Direction) (name : String)
    (value : Value) : (s.setTerminalValue d name value).2.graph.skeleton = s.graph.skeleton :=
  Graph.skeleton_withTerminals ..

@[simp] theorem skeleton_addTerminal (s : Session B σ) (d : Direction) (name : String)
    (type : SlotType) (value : Option Value) :
    (s.addTerminal d name type value).graph.skeleton = s.graph.skeleton :=
  Graph.skeleton_withTerminals ..

@[simp] theorem skeleton_renameTerminal (s : Session B σ) (d : Direction) (old new : String) :
    (s.renameTerminal d old new).2.graph.skeleton = s.graph.skeleton := by
  unfold renameTerminal
  simp only
  split
  · exact Graph.skeleton_withTerminals ..
  · rfl

@[simp] theorem skeleton_retypeTerminal (s : Session B σ) (d : Direction) (name : String)
    (type : SlotType) : (s.retypeTerminal d name type).2.graph.skeleton = s.graph.skeleton := by
  unfold retypeTerminal
  simp only
  split
  · split
    · rfl
    · exact Graph.skeleton_withTerminals ..
  · rfl

@[simp] theorem skeleton_removeTerminal (s : Session B σ) (d : Direction) (name : String) :
    (s.removeTerminal d name).2.graph.skeleton = s.graph.skeleton := by
  unfold removeTerminal
  simp only
  split
  · exact Graph.skeleton_withTerminals ..
  · rfl

/-! ## Sessions: the wiring stays -/

@[simp] theorem wiring_markStale (s : Session B σ) : s.markStale.graph.wiring = s.graph.wiring := rfl

@[simp] theorem wiring_refresh (s : Session B σ) : s.refresh.graph.wiring = s.graph.wiring := by
  unfold refresh
  split
  · exact Graph.wiring_updateOrder s.graph
  · rfl

@[simp] theorem wiring_invalidate (s : Session B σ) : s.invalidate.graph.wiring = s.graph.wiring :=
  wiring_refresh s.markStale

@[simp] theorem wiring_beginBatch (s : Session B σ) : s.beginBatch.graph.wiring = s.graph.wiring :=
  rfl

@[simp] theorem wiring_endBatch (s : Session B σ) : s.endBatch.graph.wiring = s.graph.wiring :=
  wiring_refresh _

@[simp] theorem wiring_change (s : Session B σ) (id : NodeId) (c : NodeChange) :
    (s.change id c).2.graph.wiring = s.graph.wiring := by
  have hw : (s.restructure fun g => g.modifyNode id c.apply).graph.wiring = s.graph.wiring := by
    show (s.graph.modifyNode id c.apply).wiring = _
    exact Graph.wiring_modifyNode fun n _ => c.pins_apply n
  unfold change
  split
  · show (ite _ _ _ : Session B σ).graph.wiring = _
    split
    · rw [wiring_invalidate, hw]
    · exact hw
  · rfl

end Session

/-! ## Edits that leave the skeleton alone -/

namespace Edit

/-- Whether neither links nor the order of execution notice an edit. -/
def light : Edit → Bool
  | remove _ | clear | tryConnect .. | connectByName .. | disconnectInput .. | disconnectOutput ..
  | removeLink _ | addInput .. | addOutput .. | removeInput .. | removeOutput .. | change ..
  | beginBatch | endBatch | updateOrder => false
  | _ => true

variable [Kind B]

theorem skeleton_removeGroup (s : Session B σ) (i : Nat) :
    (apply s (removeGroup i)).2.graph.skeleton = s.graph.skeleton := by
  unfold apply
  cases h : takeGroup s.graph.groups i with
  | none => simp only [h]
  | some taken => simp only [h]; rfl

theorem skeleton_apply {e : Edit} (h : e.light = true) (s : Session B σ) :
    (e.apply s).2.graph.skeleton = s.graph.skeleton := by
  cases e with
  | renameSlot d id slot name => exact Session.skeleton_renameSlot s d id slot name
  | setProperty id name value => exact Session.skeleton_setProperty s id name value
  | storeProperty id name value => exact Session.skeleton_storeProperty s id name value
  | declareProperty id info => exact Session.skeleton_declareProperty s id info
  | align id grid => exact Graph.skeleton_align s.graph id grid
  | setOutputData id slot value => exact Session.skeleton_setOutputData s id slot value
  | clearTriggered id slot only => exact Graph.skeleton_clearTriggered s.graph id slot only
  | clearAllTriggered => exact Graph.skeleton_clearAllTriggered s.graph
  | addGroup group => rfl
  | removeGroup i => exact skeleton_removeGroup s i
  | arrange margin => exact Graph.skeleton_arrange s.graph margin
  | start => exact Session.skeleton_start s
  | stop => exact Session.skeleton_stop s
  | addTerminal d name type value => exact Session.skeleton_addTerminal s d name type value
  | setTerminalValue d name value => exact Session.skeleton_setTerminalValue s d name value
  | renameTerminal d old new => exact Session.skeleton_renameTerminal s d old new
  | retypeTerminal d name type => exact Session.skeleton_retypeTerminal s d name type
  | removeTerminal d name => exact Session.skeleton_removeTerminal s d name
  | setConfig key value => rfl
  | removeConfig key => rfl
  | setSettings settings => rfl
  | cloneNode id => exact Session.skeleton_cloneNode s id
  | _ => cases h

end Edit

end Dataflow
