/-
  Links between slots whose types fit.

  A link is made only between an output and an input whose types fit, and takes the type of the
  input.  Types are never changed afterwards: slots get names, move with the slots in front of them,
  and go with their nodes, but an edit that leaves a slot leaves its type, and an edit that leaves a
  link leaves its type and its ends (`Graph.Upholds`).  The relation is reflexive and transitive, so
  an edit upholds types because its parts do.

  Four edits are left.  Two make a link.  Two remove a slot, and move links down with the slots behind
  it; in a sound graph it is exactly the links at those slots that move.  So in a sound graph every
  edit leaves links between slots that fit, if they were between such before (`Edit.fitted_apply`).
-/

import Dataflow.Proofs.Cargo
import Dataflow.Proofs.Sparing

namespace Dataflow

variable {B σ : Type}

/-! ## Lists -/

theorem map_mapIdx {α β : Type} {p : α → β} {f : Nat → α → α} (h : ∀ i a, p (f i a) = p a)
    {as : List α} : (as.mapIdx f).map p = as.map p := by
  apply List.ext_getElem?
  intro j
  rw [List.getElem?_map, List.getElem?_map, List.getElem?_mapIdx]
  cases as[j]? with
  | none => rfl
  | some a => exact congrArg some (h j a)

/-! ## Nodes -/

/-- The types of the slots of a node. -/
structure Face where
  inputs : List SlotType
  outputs : List SlotType

/-- The types of some slots are those of others, with new ones behind. -/
structure Face.Grows (a b : Face) : Prop where
  inputs : a.inputs <+: b.inputs
  outputs : a.outputs <+: b.outputs

theorem Face.Grows.refl (a : Face) : a.Grows a := ⟨List.prefix_rfl, List.prefix_rfl⟩

theorem Face.Grows.trans {a b c : Face} (h : a.Grows b) (h' : b.Grows c) : a.Grows c :=
  ⟨h.inputs.trans h'.inputs, h.outputs.trans h'.outputs⟩

namespace Node

def face (n : Node B) : Face := ⟨n.inputs.map Input.type, n.outputs.map Output.type⟩

variable (n : Node B)

theorem face_of_slots {n n' : Node B} (hi : n'.inputs = n.inputs) (ho : n'.outputs = n.outputs) :
    n'.face = n.face := by
  unfold face
  rw [hi, ho]

theorem face_modifyInput (slot : Nat) {f : Input → Input} (h : ∀ i, (f i).type = i.type) :
    (n.modifyInput slot f).face = n.face := by
  have hm : (n.inputs.modify slot f).map Input.type = n.inputs.map Input.type := map_modify h ..
  show (⟨(n.inputs.modify slot f).map _, _⟩ : Face) = _
  rw [hm]
  rfl

theorem face_modifyOutput (slot : Nat) {f : Output → Output} (h : ∀ o, (f o).type = o.type) :
    (n.modifyOutput slot f).face = n.face := by
  have hm : (n.outputs.modify slot f).map Output.type = n.outputs.map Output.type := map_modify h ..
  show (⟨_, (n.outputs.modify slot f).map _⟩ : Face) = _
  rw [hm]
  rfl

theorem face_relink (f : Direction → Nat → LinkId → Option LinkId) :
    (n.relink f).face = n.face := by
  have hi : (n.relink f).inputs.map Input.type = n.inputs.map Input.type := by
    refine map_mapIdx ?_
    intros
    rfl
  have ho : (n.relink f).outputs.map Output.type = n.outputs.map Output.type := by
    refine map_mapIdx ?_
    intros
    rfl
  unfold face
  rw [hi, ho]

theorem face_tell [Kind B] (notice : Notice) : (n.tell notice).1.face = n.face := by
  obtain ⟨b, hb⟩ := n.tell_eq notice
  rw [hb]
  rfl

theorem face_change (c : NodeChange) : (c.apply n).face = n.face := by
  cases c <;> rfl

theorem grows_addInput (name : String) (type : SlotType) :
    n.face.Grows (n.addInput name type).face where
  inputs := by
    show n.inputs.map _ <+: (n.inputs ++ [Input.new name type]).map _
    rw [List.map_append]
    exact List.prefix_append _ _
  outputs := List.prefix_rfl

theorem grows_addOutput (name : String) (type : SlotType) :
    n.face.Grows (n.addOutput name type).face where
  inputs := List.prefix_rfl
  outputs := by
    show n.outputs.map _ <+: (n.outputs ++ [Output.new name type]).map _
    rw [List.map_append]
    exact List.prefix_append _ _

end Node

/-! ## Graphs -/

/-- The ends of a link, and its type. -/
structure Cable where
  ends : Ends
  type : SlotType

def Link.cable (l : Link) : Cable := ⟨l.ends, l.type⟩

namespace Graph

/-- Links join slots whose types fit, and have the type of the input that they feed. -/
def Fitted (g : Graph B) : Prop := ∀ k l o i, g.links.get? k = some l →
  g.output? l.origin l.originSlot = some o → g.input? l.target l.targetSlot = some i →
    o.type.feeds i.type = true ∧ l.type = i.type

/-- The nodes and links of a graph were in another one, with their types; nodes may have got slots
behind those they had. -/
structure Upholds (g g' : Graph B) : Prop where
  nodes : ∀ id n', g'.nodes.get? id = some n' →
    ∃ n, g.nodes.get? id = some n ∧ n.face.Grows n'.face
  links : ∀ k l', g'.links.get? k = some l' → ∃ l, g.links.get? k = some l ∧ l'.cable = l.cable

variable {g g' g'' : Graph B}

theorem fitted_of_linkless (h : g.links = ∅) : g.Fitted := by
  intro k l o i hl
  rw [h] at hl
  cases hl

theorem type_of_output {id : NodeId} {slot : Nat} {o : Output} (h : g.output? id slot = some o) :
    ∃ n, g.nodes.get? id = some n ∧ n.face.outputs[slot]? = some o.type := by
  obtain ⟨n, hn, hslot⟩ := node_of_output h
  refine ⟨n, hn, ?_⟩
  show (n.outputs.map Output.type)[slot]? = _
  rw [List.getElem?_map, hslot]
  rfl

theorem type_of_input {id : NodeId} {slot : Nat} {i : Input} (h : g.input? id slot = some i) :
    ∃ n, g.nodes.get? id = some n ∧ n.face.inputs[slot]? = some i.type := by
  obtain ⟨n, hn, hslot⟩ := node_of_input h
  refine ⟨n, hn, ?_⟩
  show (n.inputs.map Input.type)[slot]? = _
  rw [List.getElem?_map, hslot]
  rfl

/-- The type of an output that was there. -/
theorem Upholds.output (h : g.Upholds g') {id : NodeId} {slot : Nat} {o o' : Output}
    (ho : g.output? id slot = some o) (ho' : g'.output? id slot = some o') : o'.type = o.type := by
  obtain ⟨n', hn', hnow⟩ := type_of_output ho'
  obtain ⟨n, hn, hold⟩ := type_of_output ho
  obtain ⟨m, hm, hgrows⟩ := h.nodes id n' hn'
  cases Option.some.inj (hn.symm.trans hm)
  obtain ⟨new, hnew⟩ := hgrows.outputs
  rw [← hnew, List.getElem?_append_left (List.getElem?_eq_some_iff.1 hold).1, hold] at hnow
  exact (Option.some.inj hnow).symm

/-- The type of an input that was there. -/
theorem Upholds.input (h : g.Upholds g') {id : NodeId} {slot : Nat} {i i' : Input}
    (hi : g.input? id slot = some i) (hi' : g'.input? id slot = some i') : i'.type = i.type := by
  obtain ⟨n', hn', hnow⟩ := type_of_input hi'
  obtain ⟨n, hn, hold⟩ := type_of_input hi
  obtain ⟨m, hm, hgrows⟩ := h.nodes id n' hn'
  cases Option.some.inj (hn.symm.trans hm)
  obtain ⟨new, hnew⟩ := hgrows.inputs
  rw [← hnew, List.getElem?_append_left (List.getElem?_eq_some_iff.1 hold).1, hold] at hnow
  exact (Option.some.inj hnow).symm

/-- A link still fits if its slots were there before. -/
theorem Fitted.kept (hg : g.Fitted) (h : g.Upholds g') {k : LinkId} {l' : Link} {o' : Output}
    {i' : Input} (hl' : g'.links.get? k = some l')
    (ho' : g'.output? l'.origin l'.originSlot = some o')
    (hi' : g'.input? l'.target l'.targetSlot = some i')
    (hslots : (g.output? l'.origin l'.originSlot).isSome ∧ (g.input? l'.target l'.targetSlot).isSome) :
    o'.type.feeds i'.type = true ∧ l'.type = i'.type := by
  obtain ⟨l, hl, hcable⟩ := h.links k l' hl'
  have hends : l'.ends = l.ends := congrArg Cable.ends hcable
  obtain ⟨o, ho⟩ := Option.isSome_iff_exists.1 hslots.1
  obtain ⟨i, hi⟩ := Option.isSome_iff_exists.1 hslots.2
  rw [h.output ho ho', h.input hi hi', show l'.type = l.type from congrArg Cable.type hcable]
  rw [show l'.origin = l.origin from congrArg Ends.origin hends,
    show l'.originSlot = l.originSlot from congrArg Ends.originSlot hends] at ho
  rw [show l'.target = l.target from congrArg Ends.target hends,
    show l'.targetSlot = l.targetSlot from congrArg Ends.targetSlot hends] at hi
  exact hg k l o i hl ho hi

/-- In a graph whose links have both ends, links fit as long as types are upheld. -/
theorem Fitted.upholds (hg : g.Fitted) (hj : g.Joined) (h : g.Upholds g') : g'.Fitted := by
  intro k l' o' i' hl' ho' hi'
  refine hg.kept h hl' ho' hi' ?_
  obtain ⟨l, hl, hcable⟩ := h.links k l' hl'
  have hends : l'.ends = l.ends := congrArg Cable.ends hcable
  obtain ⟨o, ho, -⟩ := hj.origin_exists hl
  obtain ⟨i, hi, -⟩ := hj.target_exists hl
  rw [show l'.origin = l.origin from congrArg Ends.origin hends,
    show l'.originSlot = l.originSlot from congrArg Ends.originSlot hends,
    show l'.target = l.target from congrArg Ends.target hends,
    show l'.targetSlot = l.targetSlot from congrArg Ends.targetSlot hends, ho, hi]
  exact ⟨rfl, rfl⟩

/-- Links also fit as long as types are upheld if there are no new slots. -/
theorem Fitted.sameSlots (hg : g.Fitted) (hs : g.SameSlots g') (h : g.Upholds g') : g'.Fitted := by
  intro k l' o' i' hl' ho' hi'
  refine hg.kept h hl' ho' hi' ?_
  rw [← hs.outputs, ← hs.inputs, ho', hi']
  exact ⟨rfl, rfl⟩

namespace Upholds

/-- Links stay, and nodes keep the types of their slots. -/
theorem of_nodes (hl : g'.links = g.links) (hn : ∀ id n', g'.nodes.get? id = some n' →
    ∃ n, g.nodes.get? id = some n ∧ n.face.Grows n'.face) : g.Upholds g' :=
  ⟨hn, fun _ l' h => ⟨l', hl ▸ h, rfl⟩⟩

/-- Nodes stay, and links keep their types and ends. -/
theorem of_links (hn : g'.nodes = g.nodes) (hl : ∀ k l', g'.links.get? k = some l' →
    ∃ l, g.links.get? k = some l ∧ l'.cable = l.cable) : g.Upholds g' :=
  ⟨fun _ n' h => ⟨n', hn ▸ h, .refl _⟩, hl⟩

theorem aside (hn : g'.nodes = g.nodes) (hl : g'.links = g.links) : g.Upholds g' :=
  .of_links hn fun _ l' h => ⟨l', hl ▸ h, rfl⟩

theorem refl (g : Graph B) : g.Upholds g := .aside rfl rfl

theorem trans (h : g.Upholds g') (h' : g'.Upholds g'') : g.Upholds g'' where
  nodes id n'' hn'' := by
    obtain ⟨n', hn', hg'⟩ := h'.nodes id n'' hn''
    obtain ⟨n, hn, hg⟩ := h.nodes id n' hn'
    exact ⟨n, hn, hg.trans hg'⟩
  links k l'' hl'' := by
    obtain ⟨l', hl', hc'⟩ := h'.links k l'' hl''
    obtain ⟨l, hl, hc⟩ := h.links k l' hl'
    exact ⟨l, hl, hc'.trans hc⟩

theorem foldl {α : Type} {f : Graph B → α → Graph B} (h : ∀ (g : Graph B) a, g.Upholds (f g a))
    (as : List α) (g : Graph B) : g.Upholds (as.foldl f g) := by
  induction as generalizing g with
  | nil => exact .refl g
  | cons a as ih => exact (h g a).trans (ih _)

end Upholds

theorem upholds_modifyNode {id : NodeId} {f : Node B → Node B}
    (h : ∀ n, g.nodes.get? id = some n → n.face.Grows (f n).face) : g.Upholds (g.modifyNode id f) := by
  refine .of_nodes rfl fun i n' hn' => ?_
  obtain ⟨-, hn⟩ | ⟨rfl, n, hn, rfl⟩ := Assoc.exists_of_get?_modify hn'
  · exact ⟨n', hn, .refl _⟩
  · exact ⟨n, hn, h n hn⟩

/-- A node changes in something else than the types of its slots. -/
theorem upholds_modifyFace {id : NodeId} {f : Node B → Node B}
    (h : ∀ n, g.nodes.get? id = some n → (f n).face = n.face) : g.Upholds (g.modifyNode id f) :=
  upholds_modifyNode fun n hn => h n hn ▸ .refl _

theorem upholds_modifyLink (g : Graph B) (k : LinkId) {f : Link → Link}
    (h : ∀ l, (f l).cable = l.cable) : g.Upholds (g.modifyLink k f) := by
  refine .of_links rfl fun i l' hl' => ?_
  obtain ⟨-, hl⟩ | ⟨rfl, l, hl, rfl⟩ := Assoc.exists_of_get?_modify hl'
  · exact ⟨l', hl, rfl⟩
  · exact ⟨l, hl, h l⟩

theorem upholds_modifyLinks (g : Graph B) (ks : List LinkId) {f : Link → Link}
    (h : ∀ l, (f l).cable = l.cable) : g.Upholds (g.modifyLinks ks f) :=
  .foldl (fun g k => g.upholds_modifyLink k h) ks g

theorem upholds_eraseLink (g : Graph B) (k : LinkId) :
    g.Upholds { g with links := g.links.erase k } := by
  exact .of_links rfl fun i l' hl' => ⟨l', Assoc.get?_of_get?_erase hl', rfl⟩

theorem upholds_eraseNode (g : Graph B) (id : NodeId) :
    g.Upholds { g with nodes := g.nodes.erase id } := by
  exact .of_nodes rfl fun i n' hn' => ⟨n', Assoc.get?_of_get?_erase hn', .refl _⟩

theorem upholds_relinkAll (g : Graph B)
    (f : NodeId → Direction → Nat → LinkId → Option LinkId) : g.Upholds (g.relinkAll f) := by
  refine .of_nodes rfl fun id n' hn' => ?_
  have hm : (g.nodes.get? id).map (fun n => n.relink (f id)) = some n' :=
    (Assoc.get?_mapValues ..).symm.trans hn'
  obtain ⟨n, hn, rfl⟩ := Option.map_eq_some_iff.1 hm
  exact ⟨n, hn, n.face_relink (f id) ▸ .refl _⟩

theorem upholds_dropLink (g : Graph B) (k : LinkId) (l : Link) : g.Upholds (g.dropLink k l) := by
  have hin : ∀ g : Graph B, g.Upholds (g.modifyNode l.target fun n => n.modifyInput l.targetSlot fun s =>
      if s.link = some k then { s with link := none } else s) :=
    fun g => upholds_modifyFace fun n _ => n.face_modifyInput _ fun s => by split <;> rfl
  have hout : ∀ g : Graph B, g.Upholds (g.modifyNode l.origin fun n => n.modifyOutput l.originSlot fun s =>
      { s with links := s.links.filter (· ≠ k) }) :=
    fun g => upholds_modifyFace fun n _ => n.face_modifyOutput _ fun _ => rfl
  exact (g.upholds_eraseLink k).trans ((hin _).trans ((hout _).trans (.aside rfl rfl)))

theorem upholds_updateOrder (g : Graph B) : g.Upholds g.updateOrder :=
  updateOrder_keeps (P := g.Upholds) (fun _ _ _ h => h.trans (upholds_modifyFace fun _ _ => rfl))
    (fun _ _ _ h => h.trans (.aside rfl rfl)) (.refl g)

theorem upholds_setOutputData (g : Graph B) (id : NodeId) (slot : Nat) (value : Value) :
    g.Upholds (g.setOutputData id slot value) := by
  unfold setOutputData
  split
  · refine Upholds.trans (g.upholds_modifyLinks _ ?_) (upholds_modifyFace ?_)
    · exact fun _ => rfl
    · exact fun n _ => n.face_modifyOutput _ fun _ => rfl
  · exact .refl g

theorem upholds_clearTriggered (g : Graph B) (id : NodeId) (slot : Nat) (only : Option LinkId) :
    g.Upholds (g.clearTriggered id slot only) := by
  unfold clearTriggered
  split
  · exact g.upholds_modifyLinks _ fun _ => rfl
  · exact .refl g

theorem upholds_clearAllTriggered (g : Graph B) : g.Upholds g.clearAllTriggered := by
  refine .of_links rfl fun k l' hl' => ?_
  have hm : (g.links.get? k).map (fun l => { l with triggered := false }) = some l' :=
    (Assoc.get?_mapValues ..).symm.trans hl'
  obtain ⟨l, hl, rfl⟩ := Option.map_eq_some_iff.1 hm
  exact ⟨l, hl, rfl⟩

theorem upholds_arrange (g : Graph B) (margin : Float32) : g.Upholds (g.arrange margin) := by
  refine arrange_keeps (P := g.Upholds) (fun g' id p h => h.trans ?_) (.refl g) margin
  exact upholds_modifyFace fun n _ => rfl

theorem upholds_withTerminals (g : Graph B) (d : Direction) (ts : Assoc String Terminal) :
    g.Upholds (g.withTerminals d ts) := by
  cases d <;> exact .aside rfl rfl

end Graph

/-! ## Edits that uphold types -/

namespace Session

open Graph (Upholds)

variable (s : Session B σ)

theorem upholds_foldl {α : Type} {f : Session B σ → α → Session B σ}
    (h : ∀ (s : Session B σ) a, s.graph.Upholds (f s a).graph) (as : List α) :
    s.graph.Upholds (as.foldl f s).graph := by
  induction as generalizing s with
  | nil => exact .refl _
  | cons a as ih => exact (h s a).trans (ih _)

theorem upholds_refresh : s.graph.Upholds s.refresh.graph := by
  unfold refresh
  split
  · exact s.graph.upholds_updateOrder
  · exact .refl _

theorem upholds_markStale : s.graph.Upholds s.markStale.graph := .aside rfl rfl

theorem upholds_invalidate : s.graph.Upholds s.invalidate.graph :=
  s.upholds_markStale.trans (upholds_refresh _)

theorem upholds_beginBatch : s.graph.Upholds s.beginBatch.graph := .aside rfl rfl

theorem upholds_endBatch : s.graph.Upholds s.endBatch.graph := by
  let closed := s.edit fun g => { g with batchDepth := g.batchDepth - 1 }
  have hclosed : s.graph.Upholds closed.graph := .aside rfl rfl
  exact hclosed.trans closed.upholds_refresh

/-- What is counted as a change may uphold types. -/
theorem upholds_restructure {f : Graph B → Graph B} (h : s.graph.Upholds (f s.graph)) :
    s.graph.Upholds (s.restructure f).graph := h.trans (.aside rfl rfl)

theorem upholds_addInput (id : NodeId) (name : String) (type : SlotType) :
    s.graph.Upholds (s.addInput id name type).2.graph := by
  unfold addInput
  split
  · exact s.upholds_restructure (Graph.upholds_modifyNode fun n _ => n.grows_addInput name type)
  · exact .refl _

theorem upholds_addOutput (id : NodeId) (name : String) (type : SlotType) :
    s.graph.Upholds (s.addOutput id name type).2.graph := by
  unfold addOutput
  split
  · exact s.upholds_restructure (Graph.upholds_modifyNode fun n _ => n.grows_addOutput name type)
  · exact .refl _

theorem upholds_change (id : NodeId) (c : NodeChange) :
    s.graph.Upholds (s.change id c).2.graph := by
  unfold change
  split
  · have hc : s.graph.Upholds (s.restructure fun g => g.modifyNode id c.apply).graph :=
      s.upholds_restructure (Graph.upholds_modifyFace fun n _ => n.face_change c)
    show s.graph.Upholds (ite _ _ _ : Session B σ).graph
    split
    · exact hc.trans (upholds_invalidate _)
    · exact hc
  · exact .refl _

theorem upholds_renameSlot (d : Direction) (id : NodeId) (slot : Nat) (name : String) :
    s.graph.Upholds (s.renameSlot d id slot name).graph := by
  refine Graph.upholds_modifyFace fun n _ => ?_
  cases d with
  | input => exact n.face_modifyInput slot fun _ => rfl
  | output => exact n.face_modifyOutput slot fun _ => rfl

theorem upholds_storeProperty (id : NodeId) (name : String) (value : Value) :
    s.graph.Upholds (s.storeProperty id name value).graph := by
  unfold storeProperty
  split
  · exact s.upholds_restructure (Graph.upholds_modifyFace fun n _ => rfl)
  · exact .refl _

theorem upholds_setTerminals (d : Direction) (ts : Assoc String Terminal)
    (events : List (Event B)) : s.graph.Upholds (s.setTerminals d ts events).graph :=
  (s.graph.upholds_withTerminals d ts).trans (.aside rfl rfl)

theorem upholds_renameTerminal (d : Direction) (old new : String) :
    s.graph.Upholds (s.renameTerminal d old new).2.graph := by
  unfold renameTerminal
  simp only
  split
  · exact s.upholds_setTerminals d _ _
  · exact .refl _

theorem upholds_retypeTerminal (d : Direction) (name : String) (type : SlotType) :
    s.graph.Upholds (s.retypeTerminal d name type).2.graph := by
  unfold retypeTerminal
  simp only
  split
  · split
    · exact .refl _
    · exact s.upholds_setTerminals d _ _
  · exact .refl _

theorem upholds_removeTerminal (d : Direction) (name : String) :
    s.graph.Upholds (s.removeTerminal d name).2.graph := by
  unfold removeTerminal
  simp only
  split
  · exact s.upholds_setTerminals d _ _
  · exact .refl _

section Kind

variable [Kind B]

theorem upholds_tell (id : NodeId) (notice : Notice) : s.graph.Upholds (s.tell id notice).graph := by
  unfold tell
  split
  · next n hn =>
    refine Graph.upholds_modifyFace fun m hm => ?_
    rw [Option.some.inj (hm.symm.trans hn)]
    exact n.face_tell notice
  · exact .refl _

theorem upholds_tellAll (ids : List NodeId) (notice : Notice) :
    s.graph.Upholds (s.tellAll ids notice).graph :=
  s.upholds_foldl (fun s id => s.upholds_tell id notice) ids

theorem upholds_tellEnd (d : Direction) (id : NodeId) (slot : Nat) (connected : Bool) (link : Link) :
    s.graph.Upholds (s.tellEnd d id slot connected link).graph := by
  unfold tellEnd
  split
  · exact s.upholds_tell id _
  · exact .refl _

theorem upholds_announce (link : Link) (connected : Bool) :
    s.graph.Upholds (s.announce link connected).graph :=
  (s.upholds_tellEnd .input link.target link.targetSlot connected link).trans (upholds_tellEnd ..)

theorem upholds_start : s.graph.Upholds s.start.graph := by
  unfold start
  split
  · exact .refl _
  · let started := (s.edit fun g => { g with running := true }).log .started
    have hstarted : s.graph.Upholds started.graph := .aside rfl rfl
    exact hstarted.trans (started.upholds_tellAll _ .started)

theorem upholds_stop : s.graph.Upholds s.stop.graph := by
  unfold stop
  split
  · let stopped := (s.edit fun g => { g with running := false }).log .stopped
    have hstopped : s.graph.Upholds stopped.graph := .aside rfl rfl
    exact hstopped.trans (stopped.upholds_tellAll _ .stopped)
  · exact .refl _

theorem upholds_setProperty (id : NodeId) (name : String) (value : Value) :
    s.graph.Upholds (s.setProperty id name value).2.graph := by
  unfold setProperty
  split
  · show s.graph.Upholds (ite _ _ _ : Session B σ).graph
    split
    · exact s.upholds_tell id _
    · exact (s.upholds_tell id _).trans (upholds_storeProperty _ id name value)
  · exact .refl _

theorem upholds_cloneNode (id : NodeId) : s.graph.Upholds (s.cloneNode id).2.graph := by
  unfold cloneNode
  split <;> exact .refl _

/-! ### Links and nodes that go -/

theorem upholds_unlink (k : LinkId) : s.graph.Upholds (s.unlink k).graph := by
  unfold unlink
  split
  · next l _ =>
    let cut := s.edit fun g => (g.dropLink k l).bump
    have hcut : s.graph.Upholds cut.graph := (s.graph.upholds_dropLink k l).trans (.aside rfl rfl)
    exact hcut.trans (cut.upholds_announce l false)
  · exact .refl _

theorem upholds_disconnectInput (id : NodeId) (slot : Nat) :
    s.graph.Upholds (s.disconnectInput id slot).2.graph := by
  unfold disconnectInput
  split
  · exact (s.upholds_unlink _).trans (upholds_invalidate _)
  · exact .refl _

theorem upholds_disconnectOutput (id : NodeId) (slot : Nat) (target : Option NodeId) :
    s.graph.Upholds (s.disconnectOutput id slot target).2.graph := by
  unfold disconnectOutput
  split
  · exact .refl _
  · exact (s.upholds_foldl (fun s k => s.upholds_unlink k) _).trans (upholds_invalidate _)

theorem upholds_removeLink (k : LinkId) : s.graph.Upholds (s.removeLink k).2.graph := by
  unfold removeLink
  split
  · exact (s.upholds_unlink k).trans (upholds_invalidate _)
  · exact .refl _

theorem upholds_isolate (id : NodeId) (n : Node B) : s.graph.Upholds (s.isolate id n).graph :=
  (s.upholds_foldl (fun s slot => s.upholds_disconnectInput id slot) _).trans
    (upholds_foldl _ (fun s slot => s.upholds_disconnectOutput id slot none) _)

theorem upholds_extract (id : NodeId) : s.graph.Upholds (s.extract id).2.graph := by
  unfold extract
  simp only
  split
  · exact ((s.upholds_tell id .removed).trans (Graph.upholds_eraseNode _ id)).trans (.aside rfl rfl)
  · exact s.upholds_tell id .removed

theorem upholds_remove (id : NodeId) : s.graph.Upholds (s.remove id).2.graph := by
  unfold remove
  split
  · next n _ =>
    have hgone : s.graph.Upholds ((s.beginBatch.isolate id n).extract id).2.graph :=
      (s.upholds_beginBatch.trans (upholds_isolate _ id n)).trans (upholds_extract _ id)
    exact (hgone.trans (upholds_markStale _)).trans (upholds_endBatch _)
  · exact .refl _

theorem upholds_clear : s.graph.Upholds s.clear.graph where
  nodes _ _ h := nomatch h
  links _ _ h := nomatch h

end Kind

end Session

/-! ## Links that are made, and slots that go -/

namespace Graph

variable {r : Registry B} {g : Graph B}

/-- A link is made between slots that fit. -/
theorem Fitted.addLink (hg : g.Fitted) {l : Link} (hl : ∀ o i,
    g.output? l.origin l.originSlot = some o → g.input? l.target l.targetSlot = some i →
      o.type.feeds i.type = true ∧ l.type = i.type) : (g.addLink l).Fitted := by
  intro k l' o' i' hl' ho' hi'
  rw [get?_links_addLink] at hl'
  rw [output?_addLink] at ho'
  rw [input?_addLink] at hi'
  obtain ⟨o, ho, rfl⟩ := Option.map_eq_some_iff.1 ho'
  obtain ⟨i, hi, rfl⟩ := Option.map_eq_some_iff.1 hi'
  have htypes : o.type.feeds i.type = true ∧ l'.type = i.type := by
    split at hl'
    · cases hl'
      exact hl o i ho hi
    · exact hg k l' o i hl' ho hi
  constructor
  · rw [← htypes.1]
    congr 1 <;> split <;> rfl
  · rw [htypes.2]
    split <;> rfl

/-- When an input goes that no link feeds, the links to those behind it move with them. -/
theorem Fitted.eraseInput (hg : g.Fitted) (hj : g.Joined) {id : NodeId} {slot : Nat}
    (hfree : ∀ k, ¬g.Arrives k id slot) : (g.eraseInput id slot).Fitted := by
  cases hn : g.nodes.get? id with
  | none =>
    unfold Graph.eraseInput
    rw [hn]
    exact hg
  | some n =>
    intro k l' o i hl' ho hi
    rw [get?_links_eraseInput hj hn] at hl'
    rw [output?_eraseInput hn] at ho
    rw [input?_eraseInput hn] at hi
    obtain ⟨l, hl, rfl⟩ := Option.map_eq_some_iff.1 hl'
    by_cases ht : l.target = id
    · have hgap : l.targetSlot ≠ slot := fun h => hfree k ⟨l, hl, ht, h⟩
      have hplace := placeBefore_moved hgap
      by_cases hb : slot < l.targetSlot
      · rw [if_pos hb] at hplace
        rw [if_pos ⟨ht, hb⟩] at ho hi ⊢
        rw [if_pos ht, hplace] at hi
        exact hg k l o i hl ho hi
      · rw [if_neg hb] at hplace
        rw [if_neg fun h => hb h.2] at ho hi ⊢
        rw [if_pos ht, hplace] at hi
        exact hg k l o i hl ho hi
    · rw [if_neg fun h => ht h.1] at ho hi ⊢
      rw [if_neg ht] at hi
      exact hg k l o i hl ho hi

/-- When an output goes that no link leaves, the links from those behind it move with them. -/
theorem Fitted.eraseOutput (hg : g.Fitted) (hs : g.Sound r) {id : NodeId} {slot : Nat}
    (hfree : ∀ k, ¬g.Leaves k id slot) : (g.eraseOutput id slot).Fitted := by
  cases hn : g.nodes.get? id with
  | none =>
    unfold Graph.eraseOutput
    rw [hn]
    exact hg
  | some n =>
    intro k l' o i hl' ho hi
    rw [hs.links_eraseOutput] at hl'
    rw [output?_eraseOutput hn] at ho
    rw [input?_eraseOutput hn] at hi
    obtain ⟨l, hl, rfl⟩ := Option.map_eq_some_iff.1 hl'
    by_cases hs : l.origin = id
    · have hgap : l.originSlot ≠ slot := fun h => hfree k ⟨l, hl, hs, h⟩
      have hplace := placeBefore_moved hgap
      by_cases hb : slot < l.originSlot
      · rw [if_pos hb] at hplace
        rw [if_pos ⟨hs, hb⟩] at ho hi ⊢
        rw [if_pos hs, hplace] at ho
        exact hg k l o i hl ho hi
      · rw [if_neg hb] at hplace
        rw [if_neg fun h => hb h.2] at ho hi ⊢
        rw [if_pos hs, hplace] at ho
        exact hg k l o i hl ho hi
    · rw [if_neg fun h => hs h.1] at ho hi ⊢
      rw [if_neg hs] at ho
      exact hg k l o i hl ho hi

end Graph

namespace Session

variable [Kind B] {r : Registry B} {s : Session B σ}

theorem upholds_makeRoom (s : Session B σ) (input : Input) :
    s.graph.Upholds (s.makeRoom input).graph := by
  unfold makeRoom
  split
  · exact s.upholds_unlink _
  · exact .refl _

/-- A link that takes the place of another one fits if it would have fitted before. -/
theorem fitted_link (hs : s.graph.Sound r) (hg : s.graph.Fitted) {origin target : NodeId}
    {originSlot targetSlot : Nat} {output : Output} {fed input : Input}
    (ho : s.graph.output? origin originSlot = some output)
    (hi : s.graph.input? target targetSlot = some fed) (htype : input.type = fed.type)
    (hfeeds : output.type.feeds fed.type = true) :
    (s.link origin originSlot target targetSlot input).2.graph.Fitted := by
  have hroom := s.upholds_makeRoom input
  let l := Link.new ⟨(s.makeRoom input).graph.nextLink⟩ input.type origin originSlot target targetSlot
  let made := (s.makeRoom input).edit fun g => (g.addLink l).bump
  have hmade : made.graph.Fitted := by
    refine (hg.upholds hs.toJoined hroom).addLink fun o i ho' hi' => ?_
    rw [hroom.output ho ho', hroom.input hi hi']
    exact ⟨hfeeds, htype⟩
  refine hmade.sameSlots (.of_wiring ?_) ?_
  · exact (wiring_invalidate _).trans (Graph.wiring_of_skeleton (skeleton_announce made l true))
  · exact (made.upholds_announce l true).trans (upholds_invalidate _)

theorem fitted_tryConnect (hs : s.graph.Sound r) (hg : s.graph.Fitted) (origin : NodeId)
    (originSlot : Nat) (target : NodeId) (targetSlot : Nat) :
    (s.tryConnect origin originSlot target targetSlot).2.graph.Fitted := by
  unfold tryConnect
  cases he : s.graph.endpoints? origin originSlot target targetSlot with
  | error e => exact hg
  | ok slots =>
    obtain ⟨output, input⟩ := slots
    obtain ⟨ho, hi, -⟩ := endpoints_ok he
    let offered := s.tell target (.linkOffered targetSlot output.type)
    have hw : offered.graph.wiring = s.graph.wiring := Graph.wiring_of_skeleton (skeleton_tell ..)
    have hkeep : s.graph.Upholds offered.graph := s.upholds_tell target _
    have hoffered : offered.graph.Fitted := hg.sameSlots (.of_wiring hw) hkeep
    show (ite _ _ (ite _ _ _) : _ × Session B σ).2.graph.Fitted
    split
    · exact hoffered
    · split
      · exact hoffered
      · next hmatch =>
        -- the offer leaves both slots, with their types
        have hslots := Graph.SameSlots.of_wiring hw
        have hsource := hslots.outputs origin originSlot
        have hsink := hslots.inputs target targetSlot
        rw [ho] at hsource
        rw [hi] at hsink
        obtain ⟨o, ho'⟩ := Option.isSome_iff_exists.1 hsource
        obtain ⟨i, hi'⟩ := Option.isSome_iff_exists.1 hsink
        refine fitted_link (hs.of_wiring hw) hoffered ho' hi' (hkeep.input hi hi').symm ?_
        rw [hkeep.output ho ho', hkeep.input hi hi']
        simpa using hmatch

theorem fitted_connectByName (hs : s.graph.Sound r) (hg : s.graph.Fitted) (origin : NodeId)
    (output : String) (target : NodeId) (input : String) :
    (s.connectByName origin output target input).2.graph.Fitted := by
  unfold connectByName
  cases s.graph.slotsNamed? origin output target input with
  | error e => exact hg
  | ok slots => exact fitted_tryConnect hs hg _ _ _ _

theorem fitted_removeInput (hs : s.graph.Sound r) (hg : s.graph.Fitted) (id : NodeId) (slot : Nat) :
    (s.removeInput id slot).2.graph.Fitted := by
  have hbatch : s.beginBatch.graph.Sound r := hs.of_wiring s.wiring_beginBatch
  have hcut : s.graph.Upholds (s.beginBatch.disconnectInput id slot).2.graph :=
    s.upholds_beginBatch.trans (upholds_disconnectInput _ id slot)
  have hsound := upkeep_disconnectInput (Graph.upkeep_sound r) hbatch id slot
  have hfree := not_arrives_disconnectInput hbatch.toJoined id slot
  unfold removeInput
  cases s.graph.input? id slot with
  | none => exact hg
  | some i =>
    revert hcut hsound hfree
    simp only
    generalize (s.beginBatch.disconnectInput id slot).2 = cut
    intro hcut hsound hfree
    let erased := (cut.edit fun g => (g.eraseInput id slot).bump).markStale
    have hgone : erased.graph.Fitted :=
      (hg.upholds hs.toJoined hcut).eraseInput hsound.toJoined hfree
    exact hgone.sameSlots (.of_wiring (wiring_endBatch erased)) erased.upholds_endBatch

theorem fitted_removeOutput (hs : s.graph.Sound r) (hg : s.graph.Fitted) (id : NodeId) (slot : Nat) :
    (s.removeOutput id slot).2.graph.Fitted := by
  have hbatch : s.beginBatch.graph.Sound r := hs.of_wiring s.wiring_beginBatch
  have hcut : s.graph.Upholds (s.beginBatch.disconnectOutput id slot none).2.graph :=
    s.upholds_beginBatch.trans (upholds_disconnectOutput _ id slot none)
  have hsound := upkeep_disconnectOutput (Graph.upkeep_sound r) hbatch id slot none
  have hfree := not_leaves_disconnectOutput hbatch.toJoined id slot
  unfold removeOutput
  cases s.graph.output? id slot with
  | none => exact hg
  | some o =>
    revert hcut hsound hfree
    simp only
    generalize (s.beginBatch.disconnectOutput id slot none).2 = cut
    intro hcut hsound hfree
    let erased := (cut.edit fun g => (g.eraseOutput id slot).bump).markStale
    have hgone : erased.graph.Fitted := (hg.upholds hs.toJoined hcut).eraseOutput hsound hfree
    exact hgone.sameSlots (.of_wiring (wiring_endBatch erased)) erased.upholds_endBatch

end Session

/-! ## All edits -/

namespace Edit

/-- Whether an edit neither makes a link nor takes a slot away from a node that stays. -/
def upholding : Edit → Bool
  | tryConnect .. | connectByName .. | removeInput .. | removeOutput .. => false
  | _ => true

variable [Kind B]

theorem upholds_removeGroup (s : Session B σ) (i : Nat) :
    s.graph.Upholds (apply s (removeGroup i)).2.graph := by
  unfold apply
  cases h : takeGroup s.graph.groups i with
  | none => simp only [h]; exact .refl _
  | some taken => simp only [h]; exact .aside rfl rfl

theorem upholds_apply {e : Edit} (h : e.upholding = true) (s : Session B σ) :
    s.graph.Upholds (e.apply s).2.graph := by
  cases e with
  | remove id => exact s.upholds_remove id
  | clear => exact s.upholds_clear
  | disconnectInput id slot => exact s.upholds_disconnectInput id slot
  | disconnectOutput id slot target => exact s.upholds_disconnectOutput id slot target
  | removeLink id => exact s.upholds_removeLink id
  | addInput id name type => exact s.upholds_addInput id name type
  | addOutput id name type => exact s.upholds_addOutput id name type
  | renameSlot d id slot name => exact s.upholds_renameSlot d id slot name
  | setProperty id name value => exact s.upholds_setProperty id name value
  | storeProperty id name value => exact s.upholds_storeProperty id name value
  | declareProperty id info => exact Graph.upholds_modifyFace fun n _ => rfl
  | change id c => exact s.upholds_change id c
  | align id grid =>
    refine Graph.upholds_modifyFace fun n _ => ?_
    obtain ⟨p, hp⟩ := n.alignToGrid_eq grid
    rw [hp]
    rfl
  | setOutputData id slot value => exact s.graph.upholds_setOutputData id slot value
  | clearTriggered id slot only => exact s.graph.upholds_clearTriggered id slot only
  | clearAllTriggered => exact s.graph.upholds_clearAllTriggered
  | addGroup group => exact .aside rfl rfl
  | removeGroup i => exact upholds_removeGroup s i
  | arrange margin => exact s.upholds_restructure (s.graph.upholds_arrange margin)
  | beginBatch => exact s.upholds_beginBatch
  | endBatch => exact s.upholds_endBatch
  | updateOrder => exact s.graph.upholds_updateOrder
  | start => exact s.upholds_start
  | stop => exact s.upholds_stop
  | addTerminal d name type value => exact s.upholds_setTerminals d _ _
  | setTerminalValue d name value => exact s.graph.upholds_withTerminals d _
  | renameTerminal d old new => exact s.upholds_renameTerminal d old new
  | retypeTerminal d name type => exact s.upholds_retypeTerminal d name type
  | removeTerminal d name => exact s.upholds_removeTerminal d name
  | setConfig key value => exact .aside rfl rfl
  | removeConfig key => exact .aside rfl rfl
  | setSettings settings => exact .aside rfl rfl
  | cloneNode id => exact s.upholds_cloneNode id
  | _ => cases h

/-- In a sound graph, edits leave links between slots that fit. -/
theorem fitted_apply {r : Registry B} {s : Session B σ} (hs : s.graph.Sound r)
    (hg : s.graph.Fitted) (e : Edit) : (e.apply s).2.graph.Fitted := by
  cases e with
  | tryConnect origin originSlot target targetSlot => exact Session.fitted_tryConnect hs hg _ _ _ _
  | connectByName origin output target input => exact Session.fitted_connectByName hs hg _ _ _ _
  | removeInput id slot => exact Session.fitted_removeInput hs hg id slot
  | removeOutput id slot => exact Session.fitted_removeOutput hs hg id slot
  | _ => exact hg.upholds hs.toJoined (upholds_apply rfl s)

end Edit

end Dataflow
