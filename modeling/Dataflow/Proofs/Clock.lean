/-
  What a graph does not do by itself.

  Time is counted by steps: a step adds up the time of its passes and counts itself.  Nothing else
  touches the clock, except for what clears the graph and sets it back.  The list of nodes to run is
  left as it is or computed anew, so it never comes to name a node twice.

  Both are said at once by one relation between graphs, `Graph.Calm`.  It is reflexive and
  transitive, so an operation is calm because its parts are.
-/

import Dataflow.Proofs.Mending
import Dataflow.Proofs.Phases

namespace Dataflow

variable {B σ : Type}

/-! ## Changes of a graph -/

/-- One graph follows on another without a tick: the clock stands, and the list of nodes to run
repeats none if it did not before. -/
structure Graph.Calm (g g' : Graph B) : Prop where
  time : g'.fixedTime = g.fixedTime
  count : g'.iteration = g.iteration
  once : g.executable.Nodup → g'.executable.Nodup

namespace Graph

namespace Calm

variable {g g' g'' : Graph B}

theorem refl (g : Graph B) : g.Calm g := ⟨rfl, rfl, id⟩

theorem trans (h : g.Calm g') (h' : g'.Calm g'') : g.Calm g'' :=
  ⟨h'.time.trans h.time, h'.count.trans h.count, fun ho => h'.once (h.once ho)⟩

/-- A change of other parts of the graph. -/
theorem aside (ht : g'.fixedTime = g.fixedTime) (hc : g'.iteration = g.iteration)
    (hx : g'.executable = g.executable) : g.Calm g' := ⟨ht, hc, fun ho => hx ▸ ho⟩

/-- A change of the nodes. -/
theorem of_nodes (h : g' = { g with nodes := g'.nodes }) : g.Calm g' := by
  rw [h]
  exact .aside rfl rfl rfl

end Calm

variable (g : Graph B)

theorem calm_modifyLinks (ks : List LinkId) (f : Link → Link) : g.Calm (g.modifyLinks ks f) := by
  rw [modifyLinks_eq]
  exact .aside rfl rfl rfl

theorem calm_updateOrder : g.Calm g.updateOrder := by
  have hnumber : g.Calm (g.number g.computeOrder) := .of_nodes (g.number_eq _)
  exact ⟨hnumber.time, hnumber.count, fun _ => g.nodup_computeOrder.filter _⟩

theorem calm_eraseInput (id : NodeId) (slot : Nat) : g.Calm (g.eraseInput id slot) := by
  unfold eraseInput
  split
  · exact (g.calm_modifyLinks ..).trans (.aside rfl rfl rfl)
  · exact .refl g

theorem calm_eraseOutput (id : NodeId) (slot : Nat) : g.Calm (g.eraseOutput id slot) := by
  unfold eraseOutput
  split
  · exact (g.calm_modifyLinks ..).trans (.aside rfl rfl rfl)
  · exact .refl g

theorem calm_setOutputData (id : NodeId) (slot : Nat) (value : Value) :
    g.Calm (g.setOutputData id slot value) := by
  unfold setOutputData
  split
  · exact (g.calm_modifyLinks ..).trans (.aside rfl rfl rfl)
  · exact .refl g

theorem calm_clearTriggered (id : NodeId) (slot : Nat) (only : Option LinkId) :
    g.Calm (g.clearTriggered id slot only) := by
  unfold clearTriggered
  split
  · exact g.calm_modifyLinks ..
  · exact .refl g

theorem calm_withTerminals (d : Direction) (ts : Assoc String Terminal) :
    g.Calm (g.withTerminals d ts) := by
  cases d <;> exact .aside rfl rfl rfl

theorem calm_arrange (margin : Float32) : g.Calm (g.arrange margin) :=
  arrange_keeps (P := g.Calm) (fun _ _ _ h => h.trans (.aside rfl rfl rfl)) (.refl g) margin

/-! ### Loaded links -/

/-- Taking in links changes nothing else. -/
theorem mergeLinks_rest (nodes : Renaming NodeId) (records : List LinkRecord) :
    ∃ links nextLink, (g.mergeLinks nodes records).graph = { g with links, nextLink } := by
  refine mergeLinks_keeps (P := fun g' => ∃ links nextLink, g' = { g with links, nextLink }) ?_
    ⟨_, _, rfl⟩ nodes records
  rintro _ r id origin target next ⟨links, nextLink, rfl⟩
  exact ⟨_, _, rfl⟩

theorem calm_mergeLinks (nodes : Renaming NodeId) (records : List LinkRecord) :
    g.Calm (g.mergeLinks nodes records).graph := by
  obtain ⟨links, nextLink, h⟩ := g.mergeLinks_rest nodes records
  rw [h]
  exact .aside rfl rfl rfl

theorem calm_repair (pruned : List LinkId) : g.Calm (g.repair pruned).graph := by
  rw [(g.mends_repair pruned).rest]
  exact .aside rfl rfl rfl

end Graph

/-! ## Changes of a session -/

namespace Session

/-- One session follows on another without a tick. -/
def Calm (s s' : Session B σ) : Prop := s.graph.Calm s'.graph

namespace Calm

variable {s s' s'' : Session B σ}

theorem refl (s : Session B σ) : s.Calm s := Graph.Calm.refl s.graph

theorem trans (h : s.Calm s') (h' : s'.Calm s'') : s.Calm s'' := Graph.Calm.trans h h'

theorem edit {f : Graph B → Graph B} (h : s.graph.Calm (f s.graph)) : s.Calm (s.edit f) := h

theorem aside {f : Graph B → Graph B} (ht : (f s.graph).fixedTime = s.graph.fixedTime)
    (hc : (f s.graph).iteration = s.graph.iteration)
    (hx : (f s.graph).executable = s.graph.executable) : s.Calm (s.edit f) :=
  Graph.Calm.aside ht hc hx

theorem log (e : Event B) : s.Calm (s.log e) := refl s

theorem logAll (es : List (Event B)) : s.Calm (s.logAll es) := refl s

theorem restructure {f : Graph B → Graph B} (h : s.graph.Calm (f s.graph)) :
    s.Calm (s.restructure f) :=
  ⟨h.time, h.count, h.once⟩

theorem foldl {α : Type} {f : Session B σ → α → Session B σ} (h : ∀ s a, Calm s (f s a))
    (as : List α) (s : Session B σ) : s.Calm (as.foldl f s) := by
  induction as generalizing s with
  | nil => exact .refl s
  | cons a as ih => exact (h s a).trans (ih _)

end Calm

variable (s : Session B σ)

/-! ### The cached order -/

theorem calm_refresh : s.Calm s.refresh := by
  unfold refresh
  split
  · exact .edit s.graph.calm_updateOrder
  · exact .refl s

theorem calm_invalidate : s.Calm s.invalidate :=
  (Calm.aside rfl rfl rfl).trans s.markStale.calm_refresh

theorem calm_beginBatch : s.Calm s.beginBatch := .aside rfl rfl rfl

theorem calm_endBatch : s.Calm s.endBatch := .trans (.aside rfl rfl rfl) (calm_refresh _)

/-- What making or breaking something ends with. -/
theorem calm_settled : s.Calm s.invalidate.changed := s.calm_invalidate.trans (.log _)

/-- What taking something away ends with. -/
theorem calm_close : s.Calm s.markStale.endBatch :=
  (Calm.aside rfl rfl rfl).trans s.markStale.calm_endBatch

/-! ### Slots, properties, terminals -/

theorem calm_addInput (id : NodeId) (name : String) (type : SlotType) :
    s.Calm (s.addInput id name type).2 := by
  unfold addInput
  split
  · exact .restructure (.aside rfl rfl rfl)
  · exact .refl s

theorem calm_addOutput (id : NodeId) (name : String) (type : SlotType) :
    s.Calm (s.addOutput id name type).2 := by
  unfold addOutput
  split
  · exact .restructure (.aside rfl rfl rfl)
  · exact .refl s

theorem calm_change (id : NodeId) (c : NodeChange) : s.Calm (s.change id c).2 := by
  unfold change
  split
  · have hc : s.Calm (s.restructure fun g => g.modifyNode id c.apply) :=
      .restructure (.aside rfl rfl rfl)
    show Calm s (ite _ _ _)
    split
    · exact hc.trans (calm_invalidate _)
    · exact hc
  · exact .refl s

theorem calm_storeProperty (id : NodeId) (name : String) (value : Value) :
    s.Calm (s.storeProperty id name value) := by
  unfold storeProperty
  split
  · exact .restructure (.aside rfl rfl rfl)
  · exact .refl s

theorem calm_setTerminals (d : Direction) (ts : Assoc String Terminal) (events : List (Event B)) :
    s.Calm (s.setTerminals d ts events) := by
  have hset := s.graph.calm_withTerminals d ts
  exact ⟨hset.time, hset.count, hset.once⟩

theorem calm_renameTerminal (d : Direction) (old new : String) :
    s.Calm (s.renameTerminal d old new).2 := by
  unfold renameTerminal
  simp only
  split
  · exact s.calm_setTerminals ..
  · exact .refl s

theorem calm_retypeTerminal (d : Direction) (name : String) (type : SlotType) :
    s.Calm (s.retypeTerminal d name type).2 := by
  unfold retypeTerminal
  simp only
  split
  · split
    · exact .refl s
    · exact s.calm_setTerminals ..
  · exact .refl s

theorem calm_removeTerminal (d : Direction) (name : String) : s.Calm (s.removeTerminal d name).2 := by
  unfold removeTerminal
  simp only
  split
  · exact s.calm_setTerminals ..
  · exact .refl s

variable [Kind B]

/-! ### Telling -/

omit [Kind B] in
theorem calm_of_told {s s' : Session B σ} (h : s.Told s') : s.Calm s' := Graph.Calm.of_nodes h.rest

theorem calm_tell (id : NodeId) (notice : Notice) : s.Calm (s.tell id notice) :=
  calm_of_told (told_tell s id notice)

theorem calm_tellAll (ids : List NodeId) (notice : Notice) : s.Calm (s.tellAll ids notice) :=
  calm_of_told (told_tellAll ids notice s)

theorem calm_tellEnd (d : Direction) (id : NodeId) (slot : Nat) (connected : Bool) (link : Link) :
    s.Calm (s.tellEnd d id slot connected link) := by
  unfold tellEnd
  split
  · exact s.calm_tell id _
  · exact .refl s

theorem calm_announce (link : Link) (connected : Bool) : s.Calm (s.announce link connected) :=
  ((s.calm_tellEnd ..).trans (calm_tellEnd _ ..)).trans (.log _)

theorem calm_start : s.Calm s.start := by
  unfold start
  split
  · exact .refl s
  · have hr : s.Calm ((s.edit fun g => { g with running := true }).log .started) :=
      .trans (.aside rfl rfl rfl) (.log _)
    exact hr.trans (calm_tellAll _ _ _)

theorem calm_stop : s.Calm s.stop := by
  unfold stop
  split
  · have hr : s.Calm ((s.edit fun g => { g with running := false }).log .stopped) :=
      .trans (.aside rfl rfl rfl) (.log _)
    exact hr.trans (calm_tellAll _ _ _)
  · exact .refl s

theorem calm_setProperty (id : NodeId) (name : String) (value : Value) :
    s.Calm (s.setProperty id name value).2 := by
  unfold setProperty
  split
  · show Calm s (ite _ _ _)
    split
    · exact s.calm_tell id _
    · exact (s.calm_tell id _).trans (calm_storeProperty _ id name value)
  · exact .refl s

/-! ### Links -/

theorem calm_unlink (k : LinkId) : s.Calm (s.unlink k) := by
  unfold unlink
  split
  · exact .trans (.aside rfl rfl rfl) (calm_announce _ _ false)
  · exact .refl s

theorem calm_disconnectInput (id : NodeId) (slot : Nat) : s.Calm (s.disconnectInput id slot).2 := by
  unfold disconnectInput
  split
  · exact (s.calm_unlink _).trans (calm_settled _)
  · exact .refl s

theorem calm_disconnectOutput (id : NodeId) (slot : Nat) (target : Option NodeId) :
    s.Calm (s.disconnectOutput id slot target).2 := by
  unfold disconnectOutput
  split
  · exact .refl s
  · exact (Calm.foldl (fun s k => s.calm_unlink k) _ s).trans (calm_settled _)

theorem calm_removeLink (k : LinkId) : s.Calm (s.removeLink k).2 := by
  unfold removeLink
  split
  · exact (s.calm_unlink k).trans (calm_settled _)
  · exact .refl s

theorem calm_link (origin : NodeId) (originSlot : Nat) (target : NodeId) (targetSlot : Nat)
    (input : Input) : s.Calm (s.link origin originSlot target targetSlot input).2 := by
  unfold link
  refine Calm.trans ?_ (calm_settled _)
  refine Calm.trans (Calm.trans ?_ (.aside rfl rfl rfl)) (calm_announce _ _ true)
  -- the link that fed the input goes
  split
  · exact s.calm_unlink _
  · exact .refl s

theorem calm_tryConnect (origin : NodeId) (originSlot : Nat) (target : NodeId) (targetSlot : Nat) :
    s.Calm (s.tryConnect origin originSlot target targetSlot).2 := by
  unfold tryConnect
  split
  · exact .refl s
  · next output input _ =>
    have ht := s.calm_tell target (.linkOffered targetSlot output.type)
    simp only
    split
    · exact ht
    · split
      · exact ht
      · exact ht.trans (calm_link ..)

theorem calm_connectByName (origin : NodeId) (output : String) (target : NodeId) (input : String) :
    s.Calm (s.connectByName origin output target input).2 := by
  unfold connectByName
  split
  · exact .refl s
  · exact s.calm_tryConnect ..

/-! ### Slots and nodes that go -/

theorem calm_removeInput (id : NodeId) (slot : Nat) : s.Calm (s.removeInput id slot).2 := by
  unfold removeInput
  split
  · have hd := s.calm_beginBatch.trans (calm_disconnectInput _ id slot)
    have he := hd.trans (.edit (f := fun g => (g.eraseInput id slot).bump)
      ((Graph.calm_eraseInput _ id slot).trans (.aside rfl rfl rfl)))
    exact (he.trans (calm_close _)).trans (.log _)
  · exact .refl s

theorem calm_removeOutput (id : NodeId) (slot : Nat) : s.Calm (s.removeOutput id slot).2 := by
  unfold removeOutput
  split
  · have hd := s.calm_beginBatch.trans (calm_disconnectOutput _ id slot none)
    have he := hd.trans (.edit (f := fun g => (g.eraseOutput id slot).bump)
      ((Graph.calm_eraseOutput _ id slot).trans (.aside rfl rfl rfl)))
    exact (he.trans (calm_close _)).trans (.log _)
  · exact .refl s

theorem calm_isolate (id : NodeId) (n : Node B) : s.Calm (s.isolate id n) :=
  .trans (.foldl (fun s slot => s.calm_disconnectInput id slot) _ s)
    (.foldl (fun s slot => s.calm_disconnectOutput id slot none) _ _)

theorem calm_extract (id : NodeId) : s.Calm (s.extract id).2 := by
  refine (s.calm_tell id .removed).trans ?_
  unfold extract
  simp only
  split
  · exact .aside rfl rfl rfl
  · exact .refl _

theorem calm_remove (id : NodeId) : s.Calm (s.remove id).2 := by
  unfold remove
  split
  · next n _ =>
    have he := (s.calm_beginBatch.trans (calm_isolate _ id n)).trans (calm_extract _ id)
    exact ((he.trans (calm_close _)).trans (.log _)).trans (.log _)
  · exact .refl s

theorem calm_cloneNode (id : NodeId) : s.Calm (s.cloneNode id).2 := by
  unfold cloneNode
  split
  · exact .logAll _
  · exact .refl s

/-! ### Loads -/

omit [Kind B] in
theorem calm_finishLoad (snapshot : Snapshot) : s.Calm (s.finishLoad snapshot) :=
  (Calm.trans (.aside rfl rfl rfl) (calm_close _)).trans (.restructure (.refl _))

end Session

/-! ## Edits -/

/-- No edit but the one that clears the graph touches the clock. -/
theorem Edit.calm_apply [Kind B] (s : Session B σ) {e : Edit} (h : e ≠ clear) :
    s.Calm (e.apply s).2 := by
  cases e with
  | clear => exact absurd rfl h
  | remove id => exact s.calm_remove id
  | tryConnect origin originSlot target targetSlot => exact s.calm_tryConnect ..
  | connectByName origin output target input => exact s.calm_connectByName ..
  | disconnectInput id slot => exact s.calm_disconnectInput id slot
  | disconnectOutput id slot target => exact s.calm_disconnectOutput id slot target
  | removeLink id => exact s.calm_removeLink id
  | addInput id name type => exact s.calm_addInput id name type
  | addOutput id name type => exact s.calm_addOutput id name type
  | removeInput id slot => exact s.calm_removeInput id slot
  | removeOutput id slot => exact s.calm_removeOutput id slot
  | setProperty id name value => exact s.calm_setProperty id name value
  | storeProperty id name value => exact s.calm_storeProperty id name value
  | change id c => exact s.calm_change id c
  | setOutputData id slot value => exact .edit (s.graph.calm_setOutputData id slot value)
  | clearTriggered id slot only => exact .edit (s.graph.calm_clearTriggered id slot only)
  | removeGroup i =>
    unfold apply
    cases hg : takeGroup s.graph.groups i with
    | none => simp only [hg]; exact .refl s
    | some taken => simp only [hg]; exact .restructure (.aside rfl rfl rfl)
  | arrange margin => exact .restructure (s.graph.calm_arrange margin)
  | endBatch => exact s.calm_endBatch
  | updateOrder => exact .edit s.graph.calm_updateOrder
  | start => exact s.calm_start
  | stop => exact s.calm_stop
  | addTerminal d name type value => exact s.calm_setTerminals ..
  | setTerminalValue d name value => exact .edit (s.graph.calm_withTerminals d _)
  | renameTerminal d old new => exact s.calm_renameTerminal d old new
  | retypeTerminal d name type => exact s.calm_retypeTerminal d name type
  | removeTerminal d name => exact s.calm_removeTerminal d name
  | cloneNode id => exact s.calm_cloneNode id
  | addGroup group => exact .restructure (.aside rfl rfl rfl)
  | _ => exact .aside rfl rfl rfl

end Dataflow
