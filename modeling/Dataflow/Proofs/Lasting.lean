/-
  What no edit changes.

  An edit adds no node.  The nodes that it leaves keep their `make`: identity, type and what comes
  with the type, whether they stand in for another node, and whether their behaviour is there.
  They also keep the properties they have, first to last, with new ones behind.  Their slots are
  as many as before, and their own priority is the same, unless the edit says otherwise of that
  very node (`Edit.Reshapes`).  The events of an edit are news; that a body begins or ends is not
  among them.

  All of this is one relation between sessions, `Quiet`.  It is reflexive and transitive, so an
  operation is quiet because its parts are, and `Edit.quiet_apply` has one line for each edit.
-/

import Dataflow.Proofs.Skeleton

namespace Dataflow

variable {B σ : Type}

/-! ## Nodes -/

/-- What of a node no edit changes. -/
structure Make where
  id : Option NodeId
  type : String
  typeTitle : String
  shape : Option String
  typePriority : Int
  hasErrors : Bool
  standsFor : Option NodeRecord
  canExecute : Bool
  acceptsActions : Bool
  /-- Whether the behaviour is in the node. -/
  idle : Bool

/-- How many slots a node has, and which priority of its own. -/
structure Build where
  inputs : Nat
  outputs : Nat
  priority : Option Int

namespace Node

def make (n : Node B) : Make :=
  ⟨n.id, n.type, n.typeTitle, n.shape, n.typePriority, n.hasErrors, n.standsFor, n.canExecute,
    n.acceptsActions, n.behavior.isSome⟩

def build (n : Node B) : Build := ⟨n.inputs.length, n.outputs.length, n.ownPriority⟩

/-- A node is what another has become: the same but for what edits change. -/
structure Lasts (reshaped : Prop) (n n' : Node B) : Prop where
  make : n'.make = n.make
  build : ¬reshaped → n'.build = n.build
  properties : n.properties.keys <+: n'.properties.keys

namespace Lasts

variable {p : Prop} {n n' n'' : Node B}

theorem refl (n : Node B) : n.Lasts p n := ⟨rfl, fun _ => rfl, List.prefix_rfl⟩

theorem trans (h : n.Lasts p n') (h' : n'.Lasts p n'') : n.Lasts p n'' :=
  ⟨h'.make.trans h.make, fun hp => (h'.build hp).trans (h.build hp), h.properties.trans h'.properties⟩

theorem mono {q : Prop} (hpq : p → q) (h : n.Lasts p n') : n.Lasts q n' :=
  ⟨h.make, fun hq => h.build fun hp => hq (hpq hp), h.properties⟩

/-- Nothing changes that matters here. -/
theorem of_eq (hm : n'.make = n.make) (hb : n'.build = n.build)
    (hp : n'.properties = n.properties) : n.Lasts p n' :=
  ⟨hm, fun _ => hb, hp ▸ List.prefix_rfl⟩

end Lasts

variable {p : Prop}

theorem lasts_modifyInput (n : Node B) (slot : Nat) (f : Input → Input) :
    n.Lasts p (n.modifyInput slot f) := by
  refine .of_eq rfl ?_ rfl
  show (⟨(n.inputs.modify slot f).length, _, _⟩ : Build) = _
  rw [List.length_modify]
  rfl

theorem lasts_modifyOutput (n : Node B) (slot : Nat) (f : Output → Output) :
    n.Lasts p (n.modifyOutput slot f) := by
  refine .of_eq rfl ?_ rfl
  show (⟨_, (n.outputs.modify slot f).length, _⟩ : Build) = _
  rw [List.length_modify]
  rfl

theorem lasts_setProperty (n : Node B) (name : String) (value : Value) :
    n.Lasts p (n.setProperty name value) := by
  refine ⟨rfl, fun _ => rfl, ?_⟩
  show _ <+: (n.properties.insert name value).keys
  rw [Assoc.keys_insert]
  split
  · exact List.prefix_rfl
  · exact List.prefix_append _ _

theorem lasts_declareProperty (n : Node B) (info : PropertyInfo) :
    n.Lasts p (n.declareProperty info) :=
  (n.lasts_setProperty info.name info.initial).trans (.of_eq rfl rfl rfl)

theorem lasts_tell [Kind B] (n : Node B) (notice : Notice) : n.Lasts p (n.tell notice).1 := by
  unfold tell
  split
  · next b hb =>
    refine .of_eq ?_ rfl rfl
    show (⟨_, _, _, _, _, _, _, _, _, true⟩ : Make) = _
    rw [make, hb]
    rfl
  · exact .refl n

theorem lasts_offerProperties [Kind B] (n : Node B) (ps : List (String × Value)) :
    n.Lasts p (n.offerProperties ps).1 := by
  induction ps generalizing n with
  | nil => exact .refl n
  | cons e ps ih =>
    have hoffer : n.Lasts p (n.offerProperty e.1 e.2).1 := by
      unfold offerProperty
      simp only
      split
      · exact n.lasts_tell _
      · exact (n.lasts_tell _).trans (lasts_setProperty ..)
    exact hoffer.trans (ih _)

theorem lasts_alignToGrid (n : Node B) (grid : Float32) : n.Lasts p (n.alignToGrid grid) := by
  obtain ⟨pos, h⟩ := n.alignToGrid_eq grid
  rw [h]
  exact .of_eq rfl rfl rfl

theorem lasts_change (n : Node B) (c : NodeChange) :
    n.Lasts (c.reorders = true) (c.apply n) := by
  cases c with
  | prioritized priority => exact ⟨rfl, fun h => absurd rfl h, List.prefix_rfl⟩
  | _ => exact .of_eq rfl rfl rfl

end Node

/-! ## Graphs -/

namespace Graph

variable {T : NodeId → Prop} {g g' g'' : Graph B}

/-- Every node of a graph is what a node of another has become, reshaped only if it is in `T`. -/
def Descends (T : NodeId → Prop) (g' g : Graph B) : Prop :=
  ∀ id n', g'.nodes.get? id = some n' → ∃ n, g.nodes.get? id = some n ∧ n.Lasts (T id) n'

namespace Descends

theorem of_nodes (h : g'.nodes = g.nodes) : g'.Descends T g :=
  fun _ n' hn => ⟨n', h ▸ hn, .refl n'⟩

theorem refl (g : Graph B) : g.Descends T g := of_nodes rfl

theorem trans (h' : g''.Descends T g') (h : g'.Descends T g) : g''.Descends T g := by
  intro id n'' hn''
  obtain ⟨n', hn', hl'⟩ := h' id n'' hn''
  obtain ⟨n, hn, hl⟩ := h id n' hn'
  exact ⟨n, hn, hl.trans hl'⟩

end Descends

theorem descends_modifyNode {id : NodeId} {f : Node B → Node B}
    (h : ∀ n, g.nodes.get? id = some n → n.Lasts (T id) (f n)) :
    (g.modifyNode id f).Descends T g := by
  intro i n' hn'
  obtain ⟨-, hn⟩ | ⟨rfl, n, hn, rfl⟩ := Assoc.exists_of_get?_modify hn'
  · exact ⟨n', hn, .refl n'⟩
  · exact ⟨n, hn, h n hn⟩

theorem nodes_withTerminals (g : Graph B) (d : Direction) (ts : Assoc String Terminal) :
    (g.withTerminals d ts).nodes = g.nodes := by
  cases d <;> rfl

theorem descends_eraseNode (g : Graph B) (id : NodeId) :
    Descends T { g with nodes := g.nodes.erase id }.bump g := by
  exact fun i n' hn' => ⟨n', Assoc.get?_of_get?_erase hn', .refl n'⟩

theorem descends_dropLink (g : Graph B) (k : LinkId) (l : Link) : (g.dropLink k l).Descends T g := by
  have hin : ∀ (g : Graph B), (g.modifyNode l.target fun n => n.modifyInput l.targetSlot fun s =>
      if s.link = some k then { s with link := none } else s).Descends T g :=
    fun g => descends_modifyNode fun n _ => n.lasts_modifyInput ..
  have hout : ∀ (g : Graph B), (g.modifyNode l.origin fun n => n.modifyOutput l.originSlot fun s =>
      { s with links := s.links.filter (· ≠ k) }).Descends T g :=
    fun g => descends_modifyNode fun n _ => n.lasts_modifyOutput ..
  exact (Descends.of_nodes rfl).trans ((hout _).trans ((hin _).trans (.of_nodes rfl)))

theorem descends_addLink (g : Graph B) (l : Link) : (g.addLink l).Descends T g := by
  have hout : ∀ (g : Graph B), (g.modifyNode l.origin fun n => n.modifyOutput l.originSlot fun s =>
      { s with links := s.links ++ [l.id] }).Descends T g :=
    fun g => descends_modifyNode fun n _ => n.lasts_modifyOutput ..
  have hin : ∀ (g : Graph B), (g.modifyNode l.target fun n => n.modifyInput l.targetSlot fun s =>
      { s with link := some l.id }).Descends T g :=
    fun g => descends_modifyNode fun n _ => n.lasts_modifyInput ..
  exact (hin _).trans ((hout _).trans (.of_nodes rfl))

theorem descends_updateOrder (g : Graph B) : g.updateOrder.Descends T g :=
  updateOrder_keeps (P := fun g' => g'.Descends T g)
    (fun _ _ _ h => Descends.trans (descends_modifyNode fun _ _ => .of_eq rfl rfl rfl) h)
    (fun _ _ _ h => Descends.trans (.of_nodes rfl) h) (.refl g)

theorem descends_eraseInput (g : Graph B) (id : NodeId) (slot : Nat) :
    (g.eraseInput id slot).Descends (· = id) g := by
  unfold eraseInput
  split
  · refine (descends_modifyNode fun n _ => ?_).trans (.of_nodes (nodes_modifyLinks _ _ g))
    exact ⟨rfl, fun h => absurd rfl h, List.prefix_rfl⟩
  · exact .refl g

theorem descends_eraseOutput (g : Graph B) (id : NodeId) (slot : Nat) :
    (g.eraseOutput id slot).Descends (· = id) g := by
  unfold eraseOutput
  split
  · refine (descends_modifyNode fun n _ => ?_).trans (.of_nodes (nodes_modifyLinks _ _ g))
    exact ⟨rfl, fun h => absurd rfl h, List.prefix_rfl⟩
  · exact .refl g

theorem descends_setOutputData (g : Graph B) (id : NodeId) (slot : Nat) (value : Value) :
    (g.setOutputData id slot value).Descends T g := by
  unfold setOutputData
  split
  · refine (descends_modifyNode fun n _ => ?_).trans (.of_nodes (nodes_modifyLinks _ _ g))
    exact n.lasts_modifyOutput ..
  · exact .refl g

theorem nodes_clearTriggered (g : Graph B) (id : NodeId) (slot : Nat) (only : Option LinkId) :
    (g.clearTriggered id slot only).nodes = g.nodes := by
  unfold clearTriggered
  split
  · exact nodes_modifyLinks _ _ g
  · rfl

theorem descends_arrange (g : Graph B) (margin : Float32) : (g.arrange margin).Descends T g := by
  refine arrange_keeps (P := (Descends T · g)) (fun g' id p h => Descends.trans ?_ h) (.refl g) margin
  exact descends_modifyNode fun n _ => .of_eq rfl rfl rfl

end Graph

/-! ## Events -/

/-- Whether a body began or ended. -/
def Event.isActivity : Event B → Bool
  | .began .. | .ended _ => true
  | _ => false

namespace Node

variable [Kind B]

theorem tell_news (n : Node B) (notice : Notice) :
    ∀ e ∈ (n.tell notice).2, e.isActivity = false := by
  unfold tell
  split
  · simp [Event.isActivity]
  · simp

theorem offerProperties_news (n : Node B) (ps : List (String × Value)) :
    ∀ e ∈ (n.offerProperties ps).2, e.isActivity = false := by
  induction ps generalizing n with
  | nil => exact fun e he => nomatch he
  | cons p ps ih =>
    intro e he
    rcases List.mem_append.1 he with he | he
    · exact n.tell_news _ e he
    · exact ih _ e he

theorem copy_news (n : Node B) (registry : Registry B) :
    ∀ e ∈ (n.copy registry).2, e.isActivity = false := by
  intro e he
  rcases List.mem_append.1 he with he | he
  · exact offerProperties_news _ _ e he
  · exact tell_news _ _ e he

end Node

/-! ## Sessions -/

namespace Session

variable {T : NodeId → Prop} {s s' s'' : Session B σ}

/-- One session follows on another without a body running in between: its nodes descend from
those of the other, and only news were added to the events. -/
structure Quiet (T : NodeId → Prop) (s s' : Session B σ) : Prop where
  nodes : s'.graph.Descends T s.graph
  events : ∃ news, s'.events = news ++ s.events ∧ ∀ e ∈ news, e.isActivity = false

namespace Quiet

theorem refl (s : Session B σ) : s.Quiet T s := ⟨.refl _, [], rfl, fun _ he => nomatch he⟩

theorem trans (h : s.Quiet T s') (h' : s'.Quiet T s'') : s.Quiet T s'' := by
  obtain ⟨news, hs, hn⟩ := h.events
  obtain ⟨news', hs', hn'⟩ := h'.events
  refine ⟨h'.nodes.trans h.nodes, news' ++ news, by rw [hs', hs, List.append_assoc], fun e he => ?_⟩
  rcases List.mem_append.1 he with he | he
  · exact hn' e he
  · exact hn e he

/-- Nothing is added to the events. -/
theorem silent (h : s'.graph.Descends T s.graph) (he : s'.events = s.events) : s.Quiet T s' :=
  ⟨h, [], he, fun _ he => nomatch he⟩

/-- A change of the graph without a trace. -/
theorem edit {f : Graph B → Graph B} (h : (f s.graph).Descends T s.graph) : s.Quiet T (s.edit f) :=
  silent h rfl

/-- A change of the graph that leaves the nodes alone. -/
theorem aside {f : Graph B → Graph B} (h : (f s.graph).nodes = s.graph.nodes) :
    s.Quiet T (s.edit f) := edit (.of_nodes h)

theorem log {e : Event B} (h : e.isActivity = false) : s.Quiet T (s.log e) := by
  refine ⟨.refl _, [e], rfl, fun e' he => ?_⟩
  rw [List.mem_singleton.1 he]
  exact h

theorem logAll {es : List (Event B)} (h : ∀ e ∈ es, e.isActivity = false) :
    s.Quiet T (s.logAll es) :=
  ⟨.refl _, es.reverse, rfl, fun e he => h e (List.mem_reverse.1 he)⟩

theorem restructure {f : Graph B → Graph B} (h : (f s.graph).Descends T s.graph) :
    s.Quiet T (s.restructure f) :=
  (edit (f := fun g => (f g).bump) ((Graph.Descends.of_nodes rfl).trans h)).trans (log rfl)

theorem foldl {α : Type} {f : Session B σ → α → Session B σ} (h : ∀ s a, Quiet T s (f s a))
    (as : List α) (s : Session B σ) : s.Quiet T (as.foldl f s) := by
  induction as generalizing s with
  | nil => exact .refl s
  | cons a as ih => exact (h s a).trans (ih _)

end Quiet

variable (s)

/-! ## The cached order -/

theorem quiet_markStale : s.Quiet T s.markStale := .aside rfl

theorem quiet_refresh : s.Quiet T s.refresh := by
  unfold refresh
  split
  · exact .edit s.graph.descends_updateOrder
  · exact .refl s

theorem quiet_invalidate : s.Quiet T s.invalidate := s.quiet_markStale.trans (quiet_refresh _)

theorem quiet_beginBatch : s.Quiet T s.beginBatch := .aside rfl

theorem quiet_endBatch : s.Quiet T s.endBatch := .trans (.aside rfl) (quiet_refresh _)

theorem quiet_changed : s.Quiet T s.changed := .log rfl

/-- What making or breaking something ends with. -/
theorem quiet_settled : s.Quiet T s.invalidate.changed :=
  s.quiet_invalidate.trans (quiet_changed _)

/-! ## Slots, properties, terminals -/

theorem quiet_addInput (id : NodeId) (name : String) (type : SlotType) :
    s.Quiet (· = id) (s.addInput id name type).2 := by
  unfold addInput
  split
  · refine .restructure (Graph.descends_modifyNode fun n _ => ?_)
    exact ⟨rfl, fun h => absurd rfl h, List.prefix_rfl⟩
  · exact .refl s

theorem quiet_addOutput (id : NodeId) (name : String) (type : SlotType) :
    s.Quiet (· = id) (s.addOutput id name type).2 := by
  unfold addOutput
  split
  · refine .restructure (Graph.descends_modifyNode fun n _ => ?_)
    exact ⟨rfl, fun h => absurd rfl h, List.prefix_rfl⟩
  · exact .refl s

theorem quiet_change (id : NodeId) (c : NodeChange) :
    s.Quiet (fun i => i = id ∧ c.reorders = true) (s.change id c).2 := by
  unfold change
  split
  · have hc : s.Quiet (fun i => i = id ∧ c.reorders = true)
        (s.restructure fun g => g.modifyNode id c.apply) :=
      .restructure (Graph.descends_modifyNode fun n _ => (n.lasts_change c).mono fun h => ⟨rfl, h⟩)
    show Quiet _ s (ite _ _ _)
    split
    · exact hc.trans (quiet_invalidate _)
    · exact hc
  · exact .refl s

theorem quiet_renameSlot (d : Direction) (id : NodeId) (slot : Nat) (name : String) :
    s.Quiet T (s.renameSlot d id slot name) := by
  refine .edit (Graph.descends_modifyNode fun n _ => ?_)
  cases d with
  | input => exact n.lasts_modifyInput ..
  | output => exact n.lasts_modifyOutput ..

theorem quiet_storeProperty (id : NodeId) (name : String) (value : Value) :
    s.Quiet T (s.storeProperty id name value) := by
  unfold storeProperty
  split
  · exact .restructure (Graph.descends_modifyNode fun n _ => n.lasts_setProperty name value)
  · exact .refl s

theorem quiet_declareProperty (id : NodeId) (info : PropertyInfo) :
    s.Quiet T (s.declareProperty id info).2 := by
  show Quiet T s (s.edit fun g => g.modifyNode id (·.declareProperty info))
  exact .edit (Graph.descends_modifyNode fun n _ => n.lasts_declareProperty info)

theorem quiet_setTerminals (d : Direction) (ts : Assoc String Terminal) {events : List (Event B)}
    (h : ∀ e ∈ events, e.isActivity = false) : s.Quiet T (s.setTerminals d ts events) := by
  have he : s.Quiet T (s.edit fun g => (g.withTerminals d ts).bump) :=
    .aside (s.graph.nodes_withTerminals d ts)
  exact (he.trans (.logAll h)).trans (quiet_changed _)

theorem quiet_renameTerminal (d : Direction) (old new : String) :
    s.Quiet T (s.renameTerminal d old new).2 := by
  unfold renameTerminal
  simp only
  split
  · exact s.quiet_setTerminals d _ (by simp [Event.isActivity])
  · exact .refl s

theorem quiet_retypeTerminal (d : Direction) (name : String) (type : SlotType) :
    s.Quiet T (s.retypeTerminal d name type).2 := by
  unfold retypeTerminal
  simp only
  split
  · split
    · exact .refl s
    · exact s.quiet_setTerminals d _ (by simp [Event.isActivity])
  · exact .refl s

theorem quiet_removeTerminal (d : Direction) (name : String) :
    s.Quiet T (s.removeTerminal d name).2 := by
  unfold removeTerminal
  simp only
  split
  · exact s.quiet_setTerminals d _ (by simp [Event.isActivity])
  · exact .refl s

section Kind

variable [Kind B]

/-! ## Telling -/

theorem quiet_tell (id : NodeId) (notice : Notice) : s.Quiet T (s.tell id notice) := by
  unfold tell
  split
  · next n hn =>
    have hm : (s.graph.modifyNode id fun _ => (n.tell notice).1).Descends T s.graph := by
      refine Graph.descends_modifyNode fun m hm => ?_
      rw [Option.some.inj (hm.symm.trans hn)]
      exact n.lasts_tell notice
    exact Quiet.trans (.edit hm) (.logAll (n.tell_news notice))
  · exact .refl s

theorem quiet_tellAll (ids : List NodeId) (notice : Notice) : s.Quiet T (s.tellAll ids notice) :=
  .foldl (fun s id => s.quiet_tell id notice) ids s

theorem quiet_tellEnd (d : Direction) (id : NodeId) (slot : Nat) (connected : Bool) (link : Link) :
    s.Quiet T (s.tellEnd d id slot connected link) := by
  unfold tellEnd
  split
  · exact s.quiet_tell id _
  · exact .refl s

theorem quiet_announce (link : Link) (connected : Bool) : s.Quiet T (s.announce link connected) :=
  ((s.quiet_tellEnd ..).trans (quiet_tellEnd ..)).trans (.log rfl)

theorem quiet_start : s.Quiet T s.start := by
  unfold start
  split
  · exact .refl s
  · have hr : s.Quiet T ((s.edit fun g => { g with running := true }).log .started) :=
      .trans (.aside rfl) (.log rfl)
    exact hr.trans (quiet_tellAll _ _ _)

theorem quiet_stop : s.Quiet T s.stop := by
  unfold stop
  split
  · have hr : s.Quiet T ((s.edit fun g => { g with running := false }).log .stopped) :=
      .trans (.aside rfl) (.log rfl)
    exact hr.trans (quiet_tellAll _ _ _)
  · exact .refl s

theorem quiet_setProperty (id : NodeId) (name : String) (value : Value) :
    s.Quiet T (s.setProperty id name value).2 := by
  unfold setProperty
  split
  · show Quiet _ s (ite _ _ _)
    split
    · exact s.quiet_tell id _
    · exact (s.quiet_tell id _).trans (quiet_storeProperty _ id name value)
  · exact .refl s

/-! ## Links -/

theorem quiet_unlink (k : LinkId) : s.Quiet T (s.unlink k) := by
  unfold unlink
  split
  · next l _ =>
    refine .trans (.edit ?_) (quiet_announce _ l false)
    exact (Graph.Descends.of_nodes rfl).trans (s.graph.descends_dropLink k l)
  · exact .refl s

theorem quiet_disconnectInput (id : NodeId) (slot : Nat) :
    s.Quiet T (s.disconnectInput id slot).2 := by
  unfold disconnectInput
  split
  · exact (s.quiet_unlink _).trans (quiet_settled _)
  · exact .refl s

theorem quiet_disconnectOutput (id : NodeId) (slot : Nat) (target : Option NodeId) :
    s.Quiet T (s.disconnectOutput id slot target).2 := by
  unfold disconnectOutput
  split
  · exact .refl s
  · exact (Quiet.foldl (fun s k => s.quiet_unlink k) _ s).trans (quiet_settled _)

theorem quiet_removeLink (k : LinkId) : s.Quiet T (s.removeLink k).2 := by
  unfold removeLink
  split
  · exact (s.quiet_unlink k).trans (quiet_settled _)
  · exact .refl s

theorem quiet_link (origin : NodeId) (originSlot : Nat) (target : NodeId) (targetSlot : Nat)
    (input : Input) : s.Quiet T (s.link origin originSlot target targetSlot input).2 := by
  unfold link
  refine Quiet.trans ?_ (quiet_settled _)
  refine Quiet.trans (Quiet.trans ?_ (.edit ?_)) (quiet_announce _ _ true)
  · -- the link that fed the input goes
    split
    · exact s.quiet_unlink _
    · exact .refl s
  · exact (Graph.Descends.of_nodes rfl).trans (Graph.descends_addLink _ _)

theorem quiet_tryConnect (origin : NodeId) (originSlot : Nat) (target : NodeId) (targetSlot : Nat) :
    s.Quiet T (s.tryConnect origin originSlot target targetSlot).2 := by
  unfold tryConnect
  split
  · exact .refl s
  · next output input _ =>
    have ht : s.Quiet T (s.tell target (.linkOffered targetSlot output.type)) := s.quiet_tell target _
    simp only
    split
    · exact ht
    · split
      · exact ht
      · exact ht.trans (quiet_link ..)

theorem quiet_connectByName (origin : NodeId) (output : String) (target : NodeId) (input : String) :
    s.Quiet T (s.connectByName origin output target input).2 := by
  unfold connectByName
  split
  · exact .refl s
  · exact s.quiet_tryConnect ..

/-! ## Slots and nodes that go -/

theorem quiet_removeInput (id : NodeId) (slot : Nat) :
    s.Quiet (· = id) (s.removeInput id slot).2 := by
  unfold removeInput
  split
  · have hd := s.quiet_beginBatch (T := (· = id)).trans (quiet_disconnectInput _ id slot)
    have he := hd.trans (.edit (f := fun g => (g.eraseInput id slot).bump)
      (Graph.Descends.trans (.of_nodes rfl) (Graph.descends_eraseInput _ id slot)))
    exact ((he.trans (quiet_markStale _)).trans (quiet_endBatch _)).trans (quiet_changed _)
  · exact .refl s

theorem quiet_removeOutput (id : NodeId) (slot : Nat) :
    s.Quiet (· = id) (s.removeOutput id slot).2 := by
  unfold removeOutput
  split
  · have hd := s.quiet_beginBatch (T := (· = id)).trans (quiet_disconnectOutput _ id slot none)
    have he := hd.trans (.edit (f := fun g => (g.eraseOutput id slot).bump)
      (Graph.Descends.trans (.of_nodes rfl) (Graph.descends_eraseOutput _ id slot)))
    exact ((he.trans (quiet_markStale _)).trans (quiet_endBatch _)).trans (quiet_changed _)
  · exact .refl s

theorem quiet_isolate (id : NodeId) (n : Node B) : s.Quiet T (s.isolate id n) :=
  .trans (.foldl (fun s slot => s.quiet_disconnectInput id slot) _ s)
    (.foldl (fun s slot => s.quiet_disconnectOutput id slot none) _ _)

theorem quiet_extract (id : NodeId) : s.Quiet T (s.extract id).2 := by
  refine (s.quiet_tell id .removed).trans ?_
  unfold extract
  simp only
  split
  · exact .silent (Graph.descends_eraseNode _ id) rfl
  · exact .refl _

theorem quiet_remove (id : NodeId) : s.Quiet T (s.remove id).2 := by
  unfold remove
  split
  · next n _ =>
    have he := (s.quiet_beginBatch (T := T).trans (quiet_isolate _ id n)).trans (quiet_extract _ id)
    have hb := (he.trans (quiet_markStale _)).trans (quiet_endBatch _)
    exact (hb.trans (.log rfl)).trans (quiet_changed _)
  · exact .refl s

theorem quiet_clear : s.Quiet T s.clear := by
  refine (s.quiet_stop.trans (quiet_tellAll _ _ .removed)).trans (.restructure ?_)
  intro id n' hn'
  cases hn'

theorem quiet_cloneNode (id : NodeId) : s.Quiet T (s.cloneNode id).2 := by
  unfold cloneNode
  split
  · next n _ => exact .logAll (n.copy_news s.graph.registry)
  · exact .refl s

end Kind

end Session

/-! ## Edits -/

namespace Edit

/-- The nodes whose slots or priority an edit may change. -/
def Reshapes : Edit → NodeId → Prop
  | addInput id .. | addOutput id .. | removeInput id _ | removeOutput id _ => (· = id)
  | change id c => fun i => i = id ∧ c.reorders = true
  | _ => fun _ => False

variable [Kind B]

theorem quiet_removeGroup (s : Session B σ) (i : Nat) {T : NodeId → Prop} :
    s.Quiet T (apply s (removeGroup i)).2 := by
  unfold apply
  cases h : takeGroup s.graph.groups i with
  | none => simp only [h]; exact .refl s
  | some taken => simp only [h]; exact .restructure (.of_nodes rfl)

/-- An edit runs no body, adds no node, and changes of a node what it says it does. -/
theorem quiet_apply (s : Session B σ) (e : Edit) : s.Quiet e.Reshapes (e.apply s).2 := by
  cases e with
  | remove id => exact s.quiet_remove id
  | clear => exact s.quiet_clear
  | tryConnect origin originSlot target targetSlot => exact s.quiet_tryConnect ..
  | connectByName origin output target input => exact s.quiet_connectByName ..
  | disconnectInput id slot => exact s.quiet_disconnectInput id slot
  | disconnectOutput id slot target => exact s.quiet_disconnectOutput id slot target
  | removeLink id => exact s.quiet_removeLink id
  | addInput id name type => exact s.quiet_addInput id name type
  | addOutput id name type => exact s.quiet_addOutput id name type
  | removeInput id slot => exact s.quiet_removeInput id slot
  | removeOutput id slot => exact s.quiet_removeOutput id slot
  | renameSlot d id slot name => exact s.quiet_renameSlot d id slot name
  | setProperty id name value => exact s.quiet_setProperty id name value
  | storeProperty id name value => exact s.quiet_storeProperty id name value
  | declareProperty id info => exact s.quiet_declareProperty id info
  | change id c => exact s.quiet_change id c
  | align id grid =>
    exact .silent (Graph.descends_modifyNode fun n _ => n.lasts_alignToGrid grid) rfl
  | setOutputData id slot value => exact .silent (s.graph.descends_setOutputData id slot value) rfl
  | clearTriggered id slot only =>
    exact .silent (.of_nodes (s.graph.nodes_clearTriggered id slot only)) rfl
  | removeGroup i => exact quiet_removeGroup s i
  | arrange margin => exact .restructure (s.graph.descends_arrange margin)
  | beginBatch => exact s.quiet_beginBatch
  | endBatch => exact s.quiet_endBatch
  | updateOrder => exact .silent s.graph.descends_updateOrder rfl
  | start => exact s.quiet_start
  | stop => exact s.quiet_stop
  | addTerminal d name type value =>
    exact s.quiet_setTerminals d _ (by simp [Event.isActivity])
  | setTerminalValue d name value => exact .silent (.of_nodes (s.graph.nodes_withTerminals d _)) rfl
  | renameTerminal d old new => exact s.quiet_renameTerminal d old new
  | retypeTerminal d name type => exact s.quiet_retypeTerminal d name type
  | removeTerminal d name => exact s.quiet_removeTerminal d name
  | cloneNode id => exact s.quiet_cloneNode id
  | addGroup group => exact .restructure (.of_nodes rfl)
  | clearAllTriggered => exact .silent (.of_nodes rfl) rfl
  | setConfig key value => exact .silent (.of_nodes rfl) rfl
  | removeConfig key => exact .silent (.of_nodes rfl) rfl
  | setSettings settings => exact .silent (.of_nodes rfl) rfl

end Edit

end Dataflow
