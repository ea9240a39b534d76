/-
  What edits do to the values on links.

  A value that is written to an output is copied into the links that leave it.  Almost no edit
  touches either copy: links come and go, slots get names, nodes move, but a link that carries a
  value has carried it before, from the same output, and what was written to an output is still
  there (`Graph.Ferries`).  The relation is reflexive and transitive, so an operation ferries
  because its parts do.

  The exceptions are few: a value is written, an output is removed and those behind it move, a node
  goes with its outputs, everything goes.  In a sound graph the lists of the outputs are right, and
  then these edits too leave every link with the value of the output that it leaves
  (`Edit.honest_apply`).
-/

import Dataflow.Proofs.Unrepeated

namespace Dataflow

variable {B σ : Type}

/-! ## Nodes -/

namespace Node

/-- The value last written to an output of the node. -/
def outputData? (n : Node B) (slot : Nat) : Option Value := (n.outputs[slot]?).bind Output.data

/-- What was written to the outputs of a node is still there. -/
def Retains (n' n : Node B) : Prop :=
  ∀ slot v, n.outputData? slot = some v → n'.outputData? slot = some v

variable {n n' n'' : Node B}

theorem Retains.of_outputs (h : n'.outputs = n.outputs) : n'.Retains n := by
  intro slot v hv
  unfold outputData? at hv ⊢
  rwa [h]

theorem Retains.refl (n : Node B) : n.Retains n := .of_outputs rfl

theorem retains_modifyOutput (n : Node B) (slot : Nat) {f : Output → Output}
    (h : ∀ o, (f o).data = o.data) : (n.modifyOutput slot f).Retains n := by
  intro i v hv
  show ((n.outputs.modify slot f)[i]?).bind Output.data = _
  rw [List.getElem?_modify]
  unfold outputData? at hv
  cases ho : n.outputs[i]? with
  | none =>
    rw [ho] at hv
    cases hv
  | some o =>
    rw [ho] at hv
    show (ite _ (f o) o).data = some v
    split
    · exact (h o).trans hv
    · exact hv

theorem retains_addOutput (n : Node B) (name : String) (type : SlotType) :
    (n.addOutput name type).Retains n := by
  intro slot v hv
  obtain ⟨o, ho, hd⟩ := Option.bind_eq_some_iff.1 hv
  show ((n.outputs ++ [Output.new name type])[slot]?).bind _ = _
  rw [List.getElem?_append_left (List.getElem?_eq_some_iff.1 ho).1, ho]
  exact hd

theorem retains_relink (n : Node B) (f : Direction → Nat → LinkId → Option LinkId) :
    (n.relink f).Retains n := by
  intro slot v hv
  obtain ⟨o, ho, hd⟩ := Option.bind_eq_some_iff.1 hv
  show ((n.outputs.mapIdx _)[slot]?).bind _ = _
  rw [List.getElem?_mapIdx, ho]
  exact hd

theorem retains_tell [Kind B] (n : Node B) (notice : Notice) : (n.tell notice).1.Retains n := by
  obtain ⟨b, hb⟩ := n.tell_eq notice
  exact .of_outputs (by rw [hb])

theorem retains_change (n : Node B) (c : NodeChange) : (c.apply n).Retains n :=
  .of_outputs (by cases c <;> rfl)

end Node

/-! ## Graphs -/

/-- The value on a link, and where it comes from. -/
structure Cargo where
  origin : NodeId
  originSlot : Nat
  data : Option Value

def Link.cargo (l : Link) : Cargo := ⟨l.origin, l.originSlot, l.data⟩

namespace Graph

theorem outputData?_eq_bind (g : Graph B) (id : NodeId) (slot : Nat) :
    g.outputData? id slot = (g.nodes.get? id).bind (·.outputData? slot) := Option.bind_assoc ..

/-- What a link carries is what was last written to the output that it leaves. -/
def Honest (g : Graph B) : Prop := ∀ k l v, g.links.get? k = some l → l.data = some v →
  g.outputData? l.origin l.originSlot = some v

/-- No link that carries something leaves one of some nodes. -/
def Unladen (ids : List NodeId) (g : Graph B) : Prop :=
  ∀ k l v, g.links.get? k = some l → l.data = some v → l.origin ∉ ids

/-- Links that carry something have carried it before, and what was written to outputs is still
there. -/
structure Ferries (g g' : Graph B) : Prop where
  links : ∀ k l', g'.links.get? k = some l' →
    l'.data = none ∨ ∃ l, g.links.get? k = some l ∧ l'.cargo = l.cargo
  outputs : ∀ id slot v, g.outputData? id slot = some v → g'.outputData? id slot = some v

variable {g g' g'' : Graph B}

/-- A link that carries something now carried it before, from the same output. -/
theorem Ferries.link (h : g.Ferries g') {k : LinkId} {l' : Link} {v : Value}
    (hl' : g'.links.get? k = some l') (hv : l'.data = some v) :
    ∃ l, g.links.get? k = some l ∧ l.data = some v ∧ l.origin = l'.origin ∧
      l.originSlot = l'.originSlot := by
  obtain hnone | ⟨l, hl, hcargo⟩ := h.links k l' hl'
  · rw [hnone] at hv
    cases hv
  · exact ⟨l, hl, (congrArg Cargo.data hcargo).symm.trans hv, (congrArg Cargo.origin hcargo).symm,
      (congrArg Cargo.originSlot hcargo).symm⟩

theorem Honest.ferries (hg : g.Honest) (h : g.Ferries g') : g'.Honest := by
  intro k l' v hl' hv
  obtain ⟨l, hl, hd, ho, hs⟩ := h.link hl' hv
  rw [← ho, ← hs]
  exact h.outputs _ _ v (hg k l v hl hd)

theorem Unladen.ferries {ids : List NodeId} (hg : g.Unladen ids) (h : g.Ferries g') :
    g'.Unladen ids := by
  intro k l' v hl' hv
  obtain ⟨l, hl, hd, ho, -⟩ := h.link hl' hv
  rw [← ho]
  exact hg k l v hl hd

namespace Ferries

/-- Links carry what they carried, and every node is there with what was written to it. -/
theorem of_nodes (hl : g'.links = g.links) (hn : ∀ id n, g.nodes.get? id = some n →
    ∃ n', g'.nodes.get? id = some n' ∧ n'.Retains n) : g.Ferries g' where
  links k l' h := .inr ⟨l', hl ▸ h, rfl⟩
  outputs id slot v hv := by
    rw [outputData?_eq_bind] at hv ⊢
    obtain ⟨n, hget, hv⟩ := Option.bind_eq_some_iff.1 hv
    obtain ⟨n', hget', hret⟩ := hn id n hget
    rw [hget']
    exact hret slot v hv

/-- The nodes stay, and links change in what does not matter here. -/
theorem of_links (hn : g'.nodes = g.nodes) (hl : ∀ k l', g'.links.get? k = some l' →
    l'.data = none ∨ ∃ l, g.links.get? k = some l ∧ l'.cargo = l.cargo) : g.Ferries g' where
  links := hl
  outputs id slot v hv := by
    rw [outputData?_eq_bind] at hv ⊢
    rwa [hn]

theorem aside (hn : g'.nodes = g.nodes) (hl : g'.links = g.links) : g.Ferries g' :=
  .of_links hn fun _ l' h => .inr ⟨l', hl ▸ h, rfl⟩

theorem refl (g : Graph B) : g.Ferries g := .aside rfl rfl

theorem trans (h : g.Ferries g') (h' : g'.Ferries g'') : g.Ferries g'' where
  links k l'' hl'' := by
    obtain hnone | ⟨l', hl', hc'⟩ := h'.links k l'' hl''
    · exact .inl hnone
    · obtain hnone | ⟨l, hl, hc⟩ := h.links k l' hl'
      · exact .inl ((congrArg Cargo.data hc').trans hnone)
      · exact .inr ⟨l, hl, hc'.trans hc⟩
  outputs id slot v hv := h'.outputs id slot v (h.outputs id slot v hv)

theorem foldl {α : Type} {f : Graph B → α → Graph B} (h : ∀ (g : Graph B) a, g.Ferries (f g a)) (as : List α)
    (g : Graph B) : g.Ferries (as.foldl f g) := by
  induction as generalizing g with
  | nil => exact .refl g
  | cons a as ih => exact (h g a).trans (ih _)

end Ferries

theorem ferries_modifyNode {id : NodeId} {f : Node B → Node B}
    (h : ∀ n, g.nodes.get? id = some n → (f n).Retains n) : g.Ferries (g.modifyNode id f) := by
  refine .of_nodes rfl fun i n hn => ?_
  rw [get?_modifyNode]
  split
  · next hi => exact ⟨f n, by rw [hn]; rfl, h n (hi ▸ hn)⟩
  · exact ⟨n, hn, .refl n⟩

theorem ferries_modifyLink (g : Graph B) (k : LinkId) {f : Link → Link}
    (h : ∀ l, (f l).cargo = l.cargo) : g.Ferries (g.modifyLink k f) := by
  refine .of_links rfl fun i l' hl' => .inr ?_
  obtain ⟨-, hl⟩ | ⟨rfl, l, hl, rfl⟩ := Assoc.exists_of_get?_modify hl'
  · exact ⟨l', hl, rfl⟩
  · exact ⟨l, hl, h l⟩

theorem ferries_modifyLinks (g : Graph B) (ks : List LinkId) {f : Link → Link}
    (h : ∀ l, (f l).cargo = l.cargo) : g.Ferries (g.modifyLinks ks f) :=
  .foldl (fun g k => g.ferries_modifyLink k h) ks g

theorem ferries_eraseLink (g : Graph B) (k : LinkId) :
    g.Ferries { g with links := g.links.erase k } := by
  exact .of_links rfl fun i l' hl' => .inr ⟨l', Assoc.get?_of_get?_erase hl', rfl⟩

/-- A link that carries nothing yet takes the place of another one, or of none. -/
theorem ferries_insertLink (g : Graph B) (k : LinkId) {l : Link} (h : l.data = none) (next : Nat) :
    g.Ferries { g with links := g.links.insert k l, nextLink := next } := by
  refine .of_links rfl fun i l' hl' => ?_
  have hi : (if i = k then some l else g.links.get? i) = some l' :=
    (Assoc.get?_insert ..).symm.trans hl'
  split at hi
  · exact .inl (Option.some.inj hi ▸ h)
  · exact .inr ⟨l', hi, rfl⟩

theorem ferries_relinkAll (g : Graph B)
    (f : NodeId → Direction → Nat → LinkId → Option LinkId) : g.Ferries (g.relinkAll f) := by
  refine .of_nodes rfl fun id n hn => ⟨n.relink (f id), ?_, n.retains_relink _⟩
  show (g.nodes.mapValues _).get? id = _
  rw [Assoc.get?_mapValues, hn]
  rfl

theorem ferries_dropLink (g : Graph B) (k : LinkId) (l : Link) : g.Ferries (g.dropLink k l) := by
  have hin : ∀ g : Graph B, g.Ferries (g.modifyNode l.target fun n => n.modifyInput l.targetSlot fun s =>
      if s.link = some k then { s with link := none } else s) :=
    fun g => ferries_modifyNode fun n _ => .of_outputs rfl
  have hout : ∀ g : Graph B, g.Ferries (g.modifyNode l.origin fun n => n.modifyOutput l.originSlot fun s =>
      { s with links := s.links.filter (· ≠ k) }) :=
    fun g => ferries_modifyNode fun n _ => n.retains_modifyOutput _ fun _ => rfl
  exact (g.ferries_eraseLink k).trans ((hin _).trans ((hout _).trans (.aside rfl rfl)))

theorem ferries_addLink (g : Graph B) {l : Link} (h : l.data = none) : g.Ferries (g.addLink l) := by
  have hout : ∀ g : Graph B, g.Ferries (g.modifyNode l.origin fun n => n.modifyOutput l.originSlot fun s =>
      { s with links := s.links ++ [l.id] }) :=
    fun g => ferries_modifyNode fun n _ => n.retains_modifyOutput _ fun _ => rfl
  have hin : ∀ g : Graph B, g.Ferries (g.modifyNode l.target fun n => n.modifyInput l.targetSlot fun s =>
      { s with link := some l.id }) :=
    fun g => ferries_modifyNode fun n _ => .of_outputs rfl
  exact (g.ferries_insertLink l.id h _).trans ((hout _).trans (hin _))

theorem ferries_updateOrder (g : Graph B) : g.Ferries g.updateOrder :=
  updateOrder_keeps (P := g.Ferries)
    (fun _ _ _ h => h.trans (ferries_modifyNode fun _ _ => .of_outputs rfl))
    (fun _ _ _ h => h.trans (.aside rfl rfl)) (.refl g)

theorem ferries_eraseInput (g : Graph B) (id : NodeId) (slot : Nat) :
    g.Ferries (g.eraseInput id slot) := by
  unfold eraseInput
  split
  · refine Ferries.trans (g.ferries_modifyLinks _ ?_) (ferries_modifyNode ?_)
    · exact fun _ => rfl
    · exact fun n _ => .of_outputs rfl
  · exact .refl g

theorem ferries_clearTriggered (g : Graph B) (id : NodeId) (slot : Nat) (only : Option LinkId) :
    g.Ferries (g.clearTriggered id slot only) := by
  unfold clearTriggered
  split
  · exact g.ferries_modifyLinks _ fun _ => rfl
  · exact .refl g

theorem ferries_clearAllTriggered (g : Graph B) : g.Ferries g.clearAllTriggered := by
  refine .of_links rfl fun k l' hl' => .inr ?_
  have hm : (g.links.get? k).map (fun l => { l with triggered := false }) = some l' :=
    (Assoc.get?_mapValues ..).symm.trans hl'
  obtain ⟨l, hl, rfl⟩ := Option.map_eq_some_iff.1 hm
  exact ⟨l, hl, rfl⟩

theorem ferries_arrange (g : Graph B) (margin : Float32) : g.Ferries (g.arrange margin) := by
  refine arrange_keeps (P := g.Ferries) (fun g' id p h => h.trans ?_) (.refl g) margin
  exact ferries_modifyNode fun n _ => .of_outputs rfl

theorem ferries_withTerminals (g : Graph B) (d : Direction) (ts : Assoc String Terminal) :
    g.Ferries (g.withTerminals d ts) := by
  cases d <;> exact .aside rfl rfl

end Graph

/-! ## Sessions -/

namespace Session

/-- One session follows on another, and its graph ferries what the graph of the other had. -/
structure Ferries (s s' : Session B σ) : Prop where
  graph : s.graph.Ferries s'.graph

namespace Ferries

variable {s s' s'' : Session B σ}

theorem refl (s : Session B σ) : s.Ferries s := ⟨.refl s.graph⟩

theorem trans (h : s.Ferries s') (h' : s'.Ferries s'') : s.Ferries s'' := ⟨h.graph.trans h'.graph⟩

theorem edit {f : Graph B → Graph B} (h : s.graph.Ferries (f s.graph)) : s.Ferries (s.edit f) := ⟨h⟩

/-- A change of the graph that leaves nodes and links alone. -/
theorem aside {f : Graph B → Graph B} (hn : (f s.graph).nodes = s.graph.nodes)
    (hl : (f s.graph).links = s.graph.links) : s.Ferries (s.edit f) := ⟨.aside hn hl⟩

theorem log {e : Event B} : s.Ferries (s.log e) := ⟨.refl s.graph⟩

theorem logAll {es : List (Event B)} : s.Ferries (s.logAll es) := ⟨.refl s.graph⟩

theorem restructure {f : Graph B → Graph B} (h : s.graph.Ferries (f s.graph)) :
    s.Ferries (s.restructure f) := ⟨h.trans (.aside rfl rfl)⟩

theorem foldl {α : Type} {f : Session B σ → α → Session B σ} (h : ∀ s a, Ferries s (f s a))
    (as : List α) (s : Session B σ) : s.Ferries (as.foldl f s) := by
  induction as generalizing s with
  | nil => exact .refl s
  | cons a as ih => exact (h s a).trans (ih _)

end Ferries

variable (s : Session B σ)

theorem ferries_refresh : s.Ferries s.refresh := by
  unfold refresh
  split
  · exact .edit s.graph.ferries_updateOrder
  · exact .refl s

theorem ferries_markStale : s.Ferries s.markStale := .aside rfl rfl

theorem ferries_invalidate : s.Ferries s.invalidate :=
  s.ferries_markStale.trans (ferries_refresh _)

/-- What making or breaking something ends with. -/
theorem ferries_settled : s.Ferries s.invalidate.changed := s.ferries_invalidate.trans .log

theorem ferries_endBatch : s.Ferries s.endBatch :=
  .trans (.aside rfl rfl) (ferries_refresh _)

theorem ferries_addInput (id : NodeId) (name : String) (type : SlotType) :
    s.Ferries (s.addInput id name type).2 := by
  unfold addInput
  split
  · exact .restructure (Graph.ferries_modifyNode fun n _ => .of_outputs rfl)
  · exact .refl s

theorem ferries_addOutput (id : NodeId) (name : String) (type : SlotType) :
    s.Ferries (s.addOutput id name type).2 := by
  unfold addOutput
  split
  · exact .restructure (Graph.ferries_modifyNode fun n _ => n.retains_addOutput name type)
  · exact .refl s

theorem ferries_change (id : NodeId) (c : NodeChange) :
    s.Ferries (s.change id c).2 := by
  unfold change
  split
  · have hc : s.Ferries (s.restructure fun g => g.modifyNode id c.apply) :=
      .restructure (Graph.ferries_modifyNode fun n _ => n.retains_change c)
    show s.Ferries (ite _ _ _)
    split
    · exact hc.trans (ferries_invalidate _)
    · exact hc
  · exact .refl s

theorem ferries_renameSlot (d : Direction) (id : NodeId) (slot : Nat) (name : String) :
    s.Ferries (s.renameSlot d id slot name) := by
  refine .edit (Graph.ferries_modifyNode fun n _ => ?_)
  cases d with
  | input => exact .of_outputs rfl
  | output => exact n.retains_modifyOutput slot fun _ => rfl

theorem ferries_storeProperty (id : NodeId) (name : String) (value : Value) :
    s.Ferries (s.storeProperty id name value) := by
  unfold storeProperty
  split
  · exact .restructure (Graph.ferries_modifyNode fun n _ => .of_outputs rfl)
  · exact .refl s

theorem ferries_setTerminals (d : Direction) (ts : Assoc String Terminal) (events : List (Event B)) :
    s.Ferries (s.setTerminals d ts events) :=
  ⟨(s.graph.ferries_withTerminals d ts).trans (.aside rfl rfl)⟩

theorem ferries_renameTerminal (d : Direction) (old new : String) :
    s.Ferries (s.renameTerminal d old new).2 := by
  unfold renameTerminal
  simp only
  split
  · exact s.ferries_setTerminals d _ _
  · exact .refl s

theorem ferries_retypeTerminal (d : Direction) (name : String) (type : SlotType) :
    s.Ferries (s.retypeTerminal d name type).2 := by
  unfold retypeTerminal
  simp only
  split
  · split
    · exact .refl s
    · exact s.ferries_setTerminals d _ _
  · exact .refl s

theorem ferries_removeTerminal (d : Direction) (name : String) :
    s.Ferries (s.removeTerminal d name).2 := by
  unfold removeTerminal
  simp only
  split
  · exact s.ferries_setTerminals d _ _
  · exact .refl s

section Kind

variable [Kind B]

theorem ferries_tell (id : NodeId) (notice : Notice) : s.Ferries (s.tell id notice) := by
  unfold tell
  split
  · next n hn =>
    refine .trans (.edit (Graph.ferries_modifyNode fun m hm => ?_)) .logAll
    rw [Option.some.inj (hm.symm.trans hn)]
    exact n.retains_tell notice
  · exact .refl s

theorem ferries_tellAll (ids : List NodeId) (notice : Notice) :
    s.Ferries (s.tellAll ids notice) :=
  .foldl (fun s id => s.ferries_tell id notice) ids s

theorem ferries_tellEnd (d : Direction) (id : NodeId) (slot : Nat) (connected : Bool) (link : Link) :
    s.Ferries (s.tellEnd d id slot connected link) := by
  unfold tellEnd
  split
  · exact s.ferries_tell id _
  · exact .refl s

theorem ferries_announce (link : Link) (connected : Bool) :
    s.Ferries (s.announce link connected) :=
  ((s.ferries_tellEnd ..).trans (ferries_tellEnd ..)).trans .log

theorem ferries_start : s.Ferries s.start := by
  unfold start
  split
  · exact .refl s
  · exact .trans (.trans (.aside rfl rfl) .log) (ferries_tellAll _ _ _)

theorem ferries_stop : s.Ferries s.stop := by
  unfold stop
  split
  · exact .trans (.trans (.aside rfl rfl) .log) (ferries_tellAll _ _ _)
  · exact .refl s

theorem ferries_setProperty (id : NodeId) (name : String) (value : Value) :
    s.Ferries (s.setProperty id name value).2 := by
  unfold setProperty
  split
  · show s.Ferries (ite _ _ _)
    split
    · exact s.ferries_tell id _
    · exact (s.ferries_tell id _).trans (ferries_storeProperty _ id name value)
  · exact .refl s

theorem ferries_cloneNode (id : NodeId) : s.Ferries (s.cloneNode id).2 := by
  unfold cloneNode
  split
  · exact .logAll
  · exact .refl s

/-! ### Links -/

theorem ferries_unlink (k : LinkId) : s.Ferries (s.unlink k) := by
  unfold unlink
  split
  · next l _ =>
    refine .trans (.edit ?_) (ferries_announce _ l false)
    exact (s.graph.ferries_dropLink k l).trans (.aside rfl rfl)
  · exact .refl s

theorem ferries_disconnectInput (id : NodeId) (slot : Nat) :
    s.Ferries (s.disconnectInput id slot).2 := by
  unfold disconnectInput
  split
  · exact (s.ferries_unlink _).trans (ferries_settled _)
  · exact .refl s

theorem ferries_disconnectOutput (id : NodeId) (slot : Nat) (target : Option NodeId) :
    s.Ferries (s.disconnectOutput id slot target).2 := by
  unfold disconnectOutput
  split
  · exact .refl s
  · exact (Ferries.foldl (fun s k => s.ferries_unlink k) _ s).trans (ferries_settled _)

theorem ferries_removeLink (k : LinkId) : s.Ferries (s.removeLink k).2 := by
  unfold removeLink
  split
  · exact (s.ferries_unlink k).trans (ferries_settled _)
  · exact .refl s

theorem ferries_link (origin : NodeId) (originSlot : Nat) (target : NodeId) (targetSlot : Nat)
    (input : Input) : s.Ferries (s.link origin originSlot target targetSlot input).2 := by
  unfold link
  refine Ferries.trans ?_ (ferries_settled _)
  refine Ferries.trans (Ferries.trans ?_ (.edit ?_)) (ferries_announce _ _ true)
  · -- the link that fed the input goes
    split
    · exact s.ferries_unlink _
    · exact .refl s
  · exact (Graph.ferries_addLink _ rfl).trans (.aside rfl rfl)

theorem ferries_tryConnect (origin : NodeId) (originSlot : Nat) (target : NodeId)
    (targetSlot : Nat) :
    s.Ferries (s.tryConnect origin originSlot target targetSlot).2 := by
  unfold tryConnect
  split
  · exact .refl s
  · next output input _ =>
    have ht : s.Ferries (s.tell target (.linkOffered targetSlot output.type)) :=
      s.ferries_tell target _
    simp only
    split
    · exact ht
    · split
      · exact ht
      · exact ht.trans (ferries_link ..)

theorem ferries_connectByName (origin : NodeId) (output : String) (target : NodeId)
    (input : String) : s.Ferries (s.connectByName origin output target input).2 := by
  unfold connectByName
  split
  · exact .refl s
  · exact s.ferries_tryConnect ..

theorem ferries_removeInput (id : NodeId) (slot : Nat) :
    s.Ferries (s.removeInput id slot).2 := by
  unfold removeInput
  split
  · have hcut : s.Ferries (s.beginBatch.disconnectInput id slot).2 :=
      .trans (.aside rfl rfl) (ferries_disconnectInput _ id slot)
    have hgone := hcut.trans (.edit (f := fun g => (g.eraseInput id slot).bump)
      ((Graph.ferries_eraseInput _ id slot).trans (.aside rfl rfl)))
    exact (hgone.trans (ferries_markStale _)).trans (.trans (ferries_endBatch _) .log)
  · exact .refl s

theorem ferries_isolate (id : NodeId) (n : Node B) : s.Ferries (s.isolate id n) :=
  (Ferries.foldl (fun s slot => s.ferries_disconnectInput id slot) _ s).trans
    (.foldl (fun s slot => s.ferries_disconnectOutput id slot none) _ _)

end Kind

end Session

/-! ## Values, outputs and nodes that go -/

namespace Graph

variable {r : Registry B} {g : Graph B}

theorem outputData?_setOutputData {id : NodeId} {slot : Nat} {o : Output}
    (ho : g.output? id slot = some o) (value : Value) (id' : NodeId) (slot' : Nat) :
    (g.setOutputData id slot value).outputData? id' slot' =
      if id' = id ∧ slot' = slot then some value else g.outputData? id' slot' := by
  have hout : (g.setOutputData id slot value).output? id' slot' =
      (g.output? id' slot').map fun s =>
        if id' = id ∧ slot' = slot then { s with data := some value } else s := by
    unfold setOutputData
    rw [ho]
    refine (output?_modifyOutput ..).trans ?_
    show (((g.modifyLinks o.links _).nodes.get? id').bind _).map _ = _
    rw [nodes_modifyLinks]
    rfl
  unfold outputData?
  rw [hout]
  by_cases h : id' = id ∧ slot' = slot
  · rw [if_pos h, h.1, h.2, ho]
    simp
  · simp only [if_neg h, Option.map_id']

/-- A value is written to an output and to the links that leave it, and to nothing else. -/
theorem Sound.links_setOutputData (hs : g.Sound r) {id : NodeId} {slot : Nat} {o : Output}
    (ho : g.output? id slot = some o) (value : Value) (k : LinkId) :
    (g.setOutputData id slot value).links.get? k = (g.links.get? k).map fun l =>
      if l.origin = id ∧ l.originSlot = slot then { l with data := some value } else l := by
  have hlinks : (g.setOutputData id slot value).links =
      (g.modifyLinks o.links fun l => { l with data := some value }).links := by
    unfold setOutputData
    rw [ho]
    rfl
  rw [hlinks, get?_links_modifyLinks (hs.once id slot o ho)]
  cases hl : g.links.get? k with
  | none => rfl
  | some l => simp only [Option.map_some, hs.mem_links_iff ho hl]

theorem Sound.honest_setOutputData (hs : g.Sound r) (hg : g.Honest) (id : NodeId) (slot : Nat)
    (value : Value) : (g.setOutputData id slot value).Honest := by
  cases ho : g.output? id slot with
  | none =>
    unfold setOutputData
    rw [ho]
    exact hg
  | some o =>
    intro k l' v hl' hv
    rw [hs.links_setOutputData ho] at hl'
    obtain ⟨l, hl, rfl⟩ := Option.map_eq_some_iff.1 hl'
    rw [outputData?_setOutputData ho]
    split at hv
    · next hend =>
      rw [if_pos hend]
      rw [if_pos hend]
      exact hv
    · next hend =>
      rw [if_neg hend]
      rw [if_neg hend]
      exact hg k l v hl hv

/-- Moving down and looking up where one was before. -/
theorem placeBefore_moved {gap i : Nat} (h : i ≠ gap) :
    placeBefore gap (if gap < i then i - 1 else i) = i := ((moved_eq_iff h).1 rfl).symm

/-- When an output goes that no link leaves, the others keep their values, and links move with
them. -/
theorem Sound.honest_eraseOutput (hs : g.Sound r) (hg : g.Honest) {id : NodeId} {slot : Nat}
    (hfree : ∀ k, ¬g.Leaves k id slot) : (g.eraseOutput id slot).Honest := by
  cases hn : g.nodes.get? id with
  | none =>
    unfold eraseOutput
    rw [hn]
    exact hg
  | some n =>
    intro k l' v hl' hv
    rw [hs.links_eraseOutput] at hl'
    obtain ⟨l, hl, rfl⟩ := Option.map_eq_some_iff.1 hl'
    have hdata : l.data = some v := by
      split at hv <;> exact hv
    unfold outputData?
    rw [output?_eraseOutput hn]
    have hold := hg k l v hl hdata
    by_cases ho : l.origin = id
    · have hgap : l.originSlot ≠ slot := fun h => hfree k ⟨l, hl, ho, h⟩
      have hplace := placeBefore_moved hgap
      by_cases hb : slot < l.originSlot
      · rw [if_pos hb] at hplace
        rw [if_pos ⟨ho, hb⟩, if_pos ho]
        show (g.output? l.origin (placeBefore slot (l.originSlot - 1))).bind _ = _
        rw [hplace]
        exact hold
      · rw [if_neg hb] at hplace
        rw [if_neg fun h => hb h.2, if_pos ho, hplace]
        exact hold
    · rw [if_neg fun h => ho h.1, if_neg ho]
      exact hold

/-- When a node goes that no link leaves, the others keep their values. -/
theorem honest_eraseNode (hg : g.Honest) {id : NodeId} (hfree : ∀ k slot, ¬g.Leaves k id slot) :
    ({ g with nodes := g.nodes.erase id } : Graph B).Honest := by
  intro k l v hl hv
  have hne : l.origin ≠ id := fun h => hfree k l.originSlot ⟨l, hl, h, rfl⟩
  rw [outputData?_eq_bind]
  show ((g.nodes.erase id).get? l.origin).bind _ = _
  rw [Assoc.get?_erase, if_neg hne, ← outputData?_eq_bind]
  exact hg k l v hl hv

theorem honest_of_linkless (h : g.links = ∅) : g.Honest := by
  intro k l v hl
  rw [h] at hl
  cases hl

end Graph

/-! ## All edits -/

namespace Session

variable [Kind B] {r : Registry B} {s : Session B σ}

theorem honest_removeOutput (hs : s.graph.Sound r) (hg : s.graph.Honest) (id : NodeId) (slot : Nat) :
    (s.removeOutput id slot).2.graph.Honest := by
  have hbatch : s.beginBatch.graph.Sound r := hs.of_wiring s.wiring_beginBatch
  have hcut : s.Ferries (s.beginBatch.disconnectOutput id slot none).2 :=
    .trans (.aside rfl rfl) (ferries_disconnectOutput _ id slot none)
  have hsound := upkeep_disconnectOutput (Graph.upkeep_sound r) hbatch id slot none
  have hfree := not_leaves_disconnectOutput hbatch.toJoined id slot
  unfold removeOutput
  cases s.graph.output? id slot with
  | none => exact hg
  | some o =>
    revert hcut hsound hfree
    simp only
    generalize (s.beginBatch.disconnectOutput id slot none).2 = cut
    intro hcut hsound hfree
    let erased := (cut.edit fun g => (g.eraseOutput id slot).bump).markStale
    have hgone : erased.graph.Honest :=
      (hsound.honest_eraseOutput (hg.ferries hcut.graph) hfree).ferries (.aside rfl rfl)
    exact hgone.ferries (ferries_endBatch erased).graph

theorem honest_extract {id : NodeId} (hg : s.graph.Honest)
    (hfree : ∀ k slot, ¬s.graph.Leaves k id slot) : (s.extract id).2.graph.Honest := by
  have ht : (s.tell id .removed).graph.Honest := hg.ferries (s.ferries_tell id .removed).graph
  have hw : (s.tell id .removed).graph.wiring = s.graph.wiring :=
    Graph.wiring_of_skeleton (skeleton_tell s id .removed)
  unfold extract
  simp only
  split
  · refine (Graph.honest_eraseNode ht fun k slot => ?_).ferries (.aside rfl rfl)
    rw [Graph.leaves_iff_wiring, hw, ← Graph.leaves_iff_wiring]
    exact hfree k slot
  · exact ht

theorem honest_remove (hs : s.graph.Sound r) (hg : s.graph.Honest) (id : NodeId) :
    (s.remove id).2.graph.Honest := by
  unfold remove
  cases hn : s.graph.nodes.get? id with
  | none => exact hg
  | some n =>
    have hbatch : s.beginBatch.graph.Sound r := hs.of_wiring s.wiring_beginBatch
    obtain ⟨-, -, hfree⟩ := isolated (Graph.upkeep_sound r) hbatch hn
    have hisolated : s.Ferries (s.beginBatch.isolate id n) :=
      .trans (.aside rfl rfl) (ferries_isolate _ id n)
    have hgone := honest_extract (hg.ferries hisolated.graph) hfree
    revert hgone
    simp only
    generalize (s.beginBatch.isolate id n).extract id = taken
    intro hgone
    exact (hgone.ferries (taken.2.ferries_markStale).graph).ferries (ferries_endBatch _).graph

end Session

namespace Edit

/-- Whether an edit neither writes a value nor takes away an output that may have one. -/
def ferrying : Edit → Bool
  | remove _ | clear | removeOutput .. | setOutputData .. => false
  | _ => true

variable [Kind B]

theorem ferries_removeGroup (s : Session B σ) (i : Nat) : s.Ferries (apply s (removeGroup i)).2 := by
  unfold apply
  cases h : takeGroup s.graph.groups i with
  | none => simp only [h]; exact .refl s
  | some taken => simp only [h]; exact .restructure (.aside rfl rfl)

theorem ferries_apply {e : Edit} (h : e.ferrying = true) (s : Session B σ) :
    s.Ferries (e.apply s).2 := by
  cases e with
  | tryConnect origin originSlot target targetSlot => exact s.ferries_tryConnect ..
  | connectByName origin output target input => exact s.ferries_connectByName ..
  | disconnectInput id slot => exact s.ferries_disconnectInput id slot
  | disconnectOutput id slot target => exact s.ferries_disconnectOutput id slot target
  | removeLink id => exact s.ferries_removeLink id
  | addInput id name type => exact s.ferries_addInput id name type
  | addOutput id name type => exact s.ferries_addOutput id name type
  | removeInput id slot => exact s.ferries_removeInput id slot
  | renameSlot d id slot name => exact s.ferries_renameSlot d id slot name
  | setProperty id name value => exact s.ferries_setProperty id name value
  | storeProperty id name value => exact s.ferries_storeProperty id name value
  | declareProperty id info => exact ⟨Graph.ferries_modifyNode fun n _ => .of_outputs rfl⟩
  | change id c => exact s.ferries_change id c
  | align id grid =>
    refine ⟨Graph.ferries_modifyNode fun n _ => ?_⟩
    obtain ⟨p, hp⟩ := n.alignToGrid_eq grid
    rw [hp]
    exact .of_outputs rfl
  | clearTriggered id slot only => exact ⟨s.graph.ferries_clearTriggered id slot only⟩
  | clearAllTriggered => exact ⟨s.graph.ferries_clearAllTriggered⟩
  | addGroup group => exact .restructure (.aside rfl rfl)
  | removeGroup i => exact ferries_removeGroup s i
  | arrange margin => exact .restructure (s.graph.ferries_arrange margin)
  | beginBatch => exact ⟨.aside rfl rfl⟩
  | endBatch => exact s.ferries_endBatch
  | updateOrder => exact ⟨s.graph.ferries_updateOrder⟩
  | start => exact s.ferries_start
  | stop => exact s.ferries_stop
  | addTerminal d name type value => exact s.ferries_setTerminals d _ _
  | setTerminalValue d name value => exact ⟨s.graph.ferries_withTerminals d _⟩
  | renameTerminal d old new => exact s.ferries_renameTerminal d old new
  | retypeTerminal d name type => exact s.ferries_retypeTerminal d name type
  | removeTerminal d name => exact s.ferries_removeTerminal d name
  | setConfig key value => exact ⟨.aside rfl rfl⟩
  | removeConfig key => exact ⟨.aside rfl rfl⟩
  | setSettings settings => exact ⟨.aside rfl rfl⟩
  | cloneNode id => exact s.ferries_cloneNode id
  | _ => cases h

/-- In a sound graph, edits leave links with what was last written to the outputs that they leave. -/
theorem honest_apply {r : Registry B} {s : Session B σ} (hs : s.graph.Sound r)
    (hg : s.graph.Honest) (e : Edit) : (e.apply s).2.graph.Honest := by
  cases e with
  | remove id => exact Session.honest_remove hs hg id
  | clear => exact Graph.honest_of_linkless rfl
  | removeOutput id slot => exact Session.honest_removeOutput hs hg id slot
  | setOutputData id slot value => exact hs.honest_setOutputData hg id slot value
  | _ => exact hg.ferries (ferries_apply rfl s).graph

end Edit

end Dataflow
