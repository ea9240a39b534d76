/-
  Bridges, and what is done beside them.

  A bridge keeps one terminal in step with its node.  What will become of that terminal depends on
  little: on the name that the bridge has registered, on the one that its node asks for, and on when
  the node runs.  All that is the `Post` of a node.

  Other nodes leave it alone.  They write properties of their own only, they handle no terminal but
  for its value, and the events they send run no bridge whose turn comes in every pass.  So whatever
  runs beside the bridges of a direction, it leaves these and the names of their terminals as they
  were (`Graph.Bypasses`, `Engine.skirts_runner`).
-/

import Dataflow.Proofs.Reviving
import Dataflow.Proofs.Terminals
import Dataflow.Proofs.Version

namespace Dataflow

/-- What of a node bears on the terminal that it may keep in step. -/
structure Post where
  type : String
  name : Option Value
  mode : Mode
  canExecute : Bool
  acceptsActions : Bool
  behavior : Option Catalog

/-- Whether a node is a bridge of a direction. -/
def Post.serves (d : Direction) (p : Post) : Bool :=
  p.behavior.any fun b => b.direction = some d

def Node.post (n : Node Catalog) : Post :=
  ⟨n.type, n.property? "name", n.mode, n.canExecute, n.acceptsActions, n.behavior⟩

namespace Graph

/-- The post of a node. -/
def post? (g : Graph Catalog) (id : NodeId) : Option Post := (g.nodes.get? id).map Node.post

/-- The post of a node that is a bridge of a direction. -/
def bridge? (g : Graph Catalog) (d : Direction) (id : NodeId) : Option Post :=
  (g.post? id).filter (·.serves d)

/-- The names of the terminals of a direction. -/
def terminalNames {B : Type} (g : Graph B) (d : Direction) : List String := (g.terminals d).keys

variable {g g' g'' : Graph Catalog} {d : Direction} {id : NodeId}

/-! ## Posts -/

theorem post?_of_nodes (h : g'.nodes = g.nodes) (i : NodeId) : g'.post? i = g.post? i := by
  unfold post?
  rw [h]

theorem post?_modifyNode (g : Graph Catalog) (id : NodeId) (f : Node Catalog → Node Catalog)
    (i : NodeId) : (g.modifyNode id f).post? i =
      if i = id then (g.nodes.get? i).map fun n => (f n).post else g.post? i := by
  unfold post?
  rw [get?_modifyNode]
  split
  · exact Option.map_map ..
  · rfl

theorem post?_modifyNode_of_post {f : Node Catalog → Node Catalog} (h : ∀ n, (f n).post = n.post)
    (i : NodeId) : (g.modifyNode id f).post? i = g.post? i := by
  rw [post?_modifyNode]
  split
  · exact congrArg (fun f => (g.nodes.get? i).map f) (funext h)
  · rfl

theorem post?_behavior (g : Graph Catalog) (id : NodeId) (b : Option Catalog) (i : NodeId) :
    (g.modifyNode id fun n => { n with behavior := b }).post? i =
      if i = id then (g.post? i).map fun p => { p with behavior := b } else g.post? i := by
  rw [post?_modifyNode]
  split
  · unfold post?
    rw [Option.map_map]
    rfl
  · rfl

theorem bridge?_eq_some {p : Post} :
    g.bridge? d id = some p ↔ g.post? id = some p ∧ p.serves d = true := Option.filter_eq_some_iff

theorem bridge?_congr (h : g'.post? id = g.post? id) : g'.bridge? d id = g.bridge? d id := by
  unfold bridge?
  rw [h]

/-- A node with a behaviour is a bridge of the direction of that. -/
theorem direction_of_bridge? {b : Catalog} (hb : g.behavior? id = some b)
    (h : g.bridge? d id = none) : b.direction ≠ some d := by
  intro hd
  obtain ⟨n, hn, hnb⟩ := Option.bind_eq_some_iff.1 hb
  have hpost : g.post? id = some n.post := by
    unfold post?
    rw [hn]
    rfl
  have hserves : n.post.serves d = true := by
    show n.behavior.any _ = true
    rw [hnb]
    exact decide_eq_true hd
  rw [bridge?_eq_some.2 ⟨hpost, hserves⟩] at h
  cases h

/-- A node whose behaviour is out, or is no bridge, is no bridge. -/
theorem bridge?_behavior_none {b : Option Catalog} (h : ∀ c ∈ b, c.direction ≠ some d) :
    (g.modifyNode id fun n => { n with behavior := b }).bridge? d id = none := by
  unfold bridge?
  rw [post?_behavior, if_pos rfl]
  cases g.post? id with
  | none => rfl
  | some p =>
    refine Option.filter_eq_none_iff.2 fun q hq => ?_
    cases hq
    show ¬b.any _ = true
    cases b with
    | none => exact Bool.false_ne_true
    | some c => exact fun hc => h c rfl (of_decide_eq_true hc)

/-! ## Beside the bridges -/

/-- The bridges of a direction, the names of its terminals, and the types of all nodes are as they
were. -/
structure Bypasses (d : Direction) (g g' : Graph Catalog) : Prop where
  types : ∀ id, (g'.post? id).map Post.type = (g.post? id).map Post.type
  bridges : ∀ id, g'.bridge? d id = g.bridge? d id
  names : g'.terminalNames d = g.terminalNames d

namespace Bypasses

theorem refl (d : Direction) (g : Graph Catalog) : g.Bypasses d g :=
  ⟨fun _ => rfl, fun _ => rfl, rfl⟩

theorem trans (h : g.Bypasses d g') (h' : g'.Bypasses d g'') : g.Bypasses d g'' :=
  ⟨fun id => (h'.types id).trans (h.types id), fun id => (h'.bridges id).trans (h.bridges id),
    h'.names.trans h.names⟩

theorem of_posts (hp : ∀ id, g'.post? id = g.post? id)
    (hn : g'.terminalNames d = g.terminalNames d) : g.Bypasses d g' :=
  ⟨fun id => congrArg (Option.map Post.type) (hp id), fun id => bridge?_congr (hp id), hn⟩

/-- A node that is no bridge was changed, and still is none. -/
theorem of_node {id : NodeId} {f : Node Catalog → Node Catalog} (ht : ∀ n, (f n).type = n.type)
    (hg : g.bridge? d id = none) (hg' : (g.modifyNode id f).bridge? d id = none) :
    g.Bypasses d (g.modifyNode id f) := by
  refine ⟨fun i => ?_, fun i => ?_, by cases d <;> rfl⟩
  · rw [post?_modifyNode]
    split
    · unfold post?
      rw [Option.map_map, Option.map_map]
      exact congrArg (fun f => (g.nodes.get? i).map f) (funext ht)
    · rfl
  · by_cases hi : i = id
    · rw [hi, hg, hg']
    · apply bridge?_congr
      rw [post?_modifyNode, if_neg hi]

/-- So it is when the behaviour of the node is taken out or put back. -/
theorem of_behavior {id : NodeId} {b : Option Catalog} (hg : g.bridge? d id = none)
    (h : ∀ c ∈ b, c.direction ≠ some d) :
    g.Bypasses d (g.modifyNode id fun n => { n with behavior := b }) :=
  .of_node (fun _ => rfl) hg (bridge?_behavior_none h)

end Bypasses

end Graph

/-! ## Edits -/

section Edits

variable {σ : Type} (s : Session Catalog σ) {d : Direction}

theorem Session.post?_storeProperty (id : NodeId) (name : String) (value : Value) (i : NodeId) :
    (s.storeProperty id name value).graph.post? i = if i = id then (s.graph.post? i).map fun p =>
      { p with name := if "name" = name then some value else p.name } else s.graph.post? i := by
  unfold storeProperty
  split
  · refine (Graph.post?_modifyNode ..).trans ?_
    split
    · unfold Graph.post?
      rw [Option.map_map]
      refine congrArg (fun f => (s.graph.nodes.get? i).map f) (funext fun n => ?_)
      show (⟨_, (n.properties.insert name value).get? "name", _, _, _, _⟩ : Post) = _
      rw [Assoc.get?_insert]
      rfl
    · rfl
  · next hc =>
    -- there is no such node
    split
    · next hi =>
      have hnone : s.graph.nodes.get? i = none := by
        rw [Assoc.get?_eq_none_iff, ← Assoc.contains_iff, hi]
        exact hc
      unfold Graph.post?
      rw [hnone]
      rfl
    · rfl

theorem Session.post?_setTerminals (d : Direction) (ts : Assoc String Terminal)
    (events : List (Event Catalog)) (i : NodeId) :
    (s.setTerminals d ts events).graph.post? i = s.graph.post? i :=
  Graph.post?_of_nodes (s.graph.nodes_withTerminals d ts) i

theorem Session.post?_renameTerminal (d : Direction) (old new : String) (i : NodeId) :
    (s.renameTerminal d old new).2.graph.post? i = s.graph.post? i := by
  unfold renameTerminal
  simp only
  split
  · exact s.post?_setTerminals ..
  · rfl

theorem Session.post?_retypeTerminal (d : Direction) (name : String) (type : SlotType) (i : NodeId) :
    (s.retypeTerminal d name type).2.graph.post? i = s.graph.post? i := by
  unfold retypeTerminal
  simp only
  split
  · split
    · rfl
    · exact s.post?_setTerminals ..
  · rfl

theorem Session.post?_renameSlot (side : Direction) (id : NodeId) (slot : Nat) (name : String)
    (i : NodeId) : (s.renameSlot side id slot name).graph.post? i = s.graph.post? i := by
  apply Graph.post?_modifyNode_of_post
  intro n
  cases side <;> rfl

theorem Graph.post?_setOutputData (g : Graph Catalog) (id : NodeId) (slot : Nat) (value : Value)
    (i : NodeId) : (g.setOutputData id slot value).post? i = g.post? i := by
  unfold setOutputData
  split
  · next o _ =>
    refine (post?_modifyNode_of_post ?_ i).trans (post?_of_nodes (g.nodes_modifyLinks _ o.links) i)
    exact fun n => rfl
  · rfl

theorem Session.terminalNames_setTerminalValue (d' : Direction) (name : String) (value : Value) :
    (s.setTerminalValue d' name value).2.graph.terminalNames d = s.graph.terminalNames d := by
  show ((s.graph.withTerminals d' _).terminals d).keys = _
  by_cases h : d' = d
  · rw [h, Graph.terminals_withTerminals, Assoc.keys_modify]
    rfl
  · rw [Graph.terminals_withTerminals_of_ne _ _ h]
    rfl

/-- An edit that stays clear of the bridges of a direction and of its terminals. -/
def Edit.Skirts (d : Direction) (g : Graph Catalog) : Edit → Prop
  | .storeProperty i .. => g.bridge? d i = none
  | .addTerminal d' .. | .renameTerminal d' .. | .retypeTerminal d' .. => d' ≠ d
  | .setOutputData .. | .renameSlot .. | .setTerminalValue .. => True
  | _ => False

theorem Edit.Skirts.of_bypasses {e : Edit} {g g' : Graph Catalog} (he : e.Skirts d g)
    (h : g.Bypasses d g') : e.Skirts d g' := by
  cases e with
  | storeProperty i name value => exact (h.bridges i).trans he
  | _ => exact he

theorem Edit.Skirts.bypasses {e : Edit} (h : e.Skirts d s.graph) :
    s.graph.Bypasses d (e.apply s).2.graph := by
  cases e with
  | storeProperty i name value =>
    change s.graph.bridge? d i = none at h
    show s.graph.Bypasses d (s.storeProperty i name value).graph
    unfold Session.storeProperty
    split
    · have hnode : s.graph.Bypasses d (s.graph.modifyNode i fun n => n.setProperty name value) := by
        refine .of_node (fun _ => rfl) h ?_
        -- its behaviour is the same, and so it serves as before
        unfold Graph.bridge? at h ⊢
        rw [Graph.post?_modifyNode, if_pos rfl]
        unfold Graph.post? at h
        cases hn : s.graph.nodes.get? i with
        | none => rfl
        | some n =>
          rw [hn] at h
          have hserves := Option.filter_eq_none_iff.1 h n.post rfl
          refine Option.filter_eq_none_iff.2 fun p hp => ?_
          cases hp
          exact hserves
      exact hnode.trans (.of_posts (fun _ => rfl) (by cases d <;> rfl))
    · exact .refl d _
  | setOutputData i slot value =>
    exact .of_posts (s.graph.post?_setOutputData i slot value)
      (congrArg Assoc.keys (s.graph.terminals_setOutputData i slot value))
  | renameSlot side i slot name =>
    exact .of_posts (s.post?_renameSlot side i slot name) (by cases d <;> rfl)
  | setTerminalValue d' name value =>
    exact .of_posts (Graph.post?_of_nodes (s.graph.nodes_withTerminals d' _))
      (s.terminalNames_setTerminalValue d' name value)
  | addTerminal d' name type value =>
    exact .of_posts (s.post?_setTerminals d' _ _)
      (congrArg Assoc.keys (s.terminals_setTerminals_of_ne h _ _))
  | renameTerminal d' old new =>
    exact .of_posts (s.post?_renameTerminal d' old new)
      (congrArg Assoc.keys (s.terminals_renameTerminal_of_ne h old new))
  | retypeTerminal d' name type =>
    exact .of_posts (s.post?_retypeTerminal d' name type)
      (congrArg Assoc.keys (s.terminals_retypeTerminal_of_ne h name type))
  | _ => exact h.elim

/-- The body of a node that is no bridge of a direction stays clear of those. -/
theorem Catalog.Makes.skirts {b : Catalog} {id : NodeId} {e : Edit} (h : b.Makes id e)
    (hb : b.direction ≠ some d) {g : Graph Catalog} (hid : g.bridge? d id = none) :
    e.Skirts d g := by
  obtain h | ⟨d', registered, rfl, h⟩ := h
  · cases e with
    | storeProperty i name value =>
      change i = id at h
      rw [h]
      exact hid
    | setOutputData | setTerminalValue => trivial
    | _ => exact h.elim
  · have hd : d' ≠ d := fun hd => hb (congrArg some hd)
    cases e with
    | storeProperty i name value =>
      obtain ⟨rfl, -⟩ := h
      exact hid
    | addTerminal side | renameTerminal side | retypeTerminal side =>
      change side = d' at h
      rw [h]
      exact hd
    | renameSlot => trivial
    | _ => exact h.elim

end Edits

/-! ## What the engine does between bodies -/

/-- No event runs a bridge of a direction: each is run in every pass, and handles no events. -/
def Graph.Deaf (d : Direction) (g : Graph Catalog) : Prop :=
  ∀ id p, g.bridge? d id = some p → p.mode = .always ∧ p.acceptsActions = false

theorem Graph.post?_reordered {g g' : Graph Catalog} (h : g.Reordered g') (id : NodeId) :
    g'.post? id = g.post? id := by
  unfold post?
  cases hn : g.nodes.get? id with
  | none =>
    have hnone : g'.nodes.get? id = none := by
      rw [Assoc.get?_eq_none_iff, h.keys, ← Assoc.get?_eq_none_iff]
      exact hn
    rw [hnone]
  | some n =>
    obtain ⟨order, ho⟩ := h.nodes id n hn
    rw [ho]
    rfl

theorem Graph.bypasses_reordered {g g' : Graph Catalog} {d : Direction} (h : g.Reordered g')
    (ht : g'.terminals d = g.terminals d) : g.Bypasses d g' :=
  .of_posts (post?_reordered h) (congrArg Assoc.keys ht)

theorem Session.graph_tellAll {σ : Type} (ids : List NodeId) (notice : Notice)
    (s : Session Catalog σ) : (s.tellAll ids notice).graph = s.graph := by
  induction ids generalizing s with
  | nil => rfl
  | cons id ids ih => exact (ih _).trans (s.graph_tell id notice fun _ => rfl)

theorem Graph.even_bypasses (d : Direction) (g : Graph Catalog) : Even (g.Bypasses d) where
  marked g' l h := h.trans (.of_posts (fun _ => rfl) (by cases d <;> rfl))
  counted g' _ _ _ h := h.trans (.of_posts (fun _ => rfl) (by cases d <;> rfl))
  stopped s h := by
    refine h.trans ?_
    unfold Session.stop
    split
    · rw [Session.graph_tellAll]
      exact .of_posts (fun _ => rfl) (by cases d <;> rfl)
    · exact .refl d _
  update g' h := h.trans (bypasses_reordered g'.reordered_updateOrder
    (terminals_of_shore g'.shore_updateOrder d))

/-! ## Bodies -/

namespace Engine

variable {d : Direction} {g : Graph Catalog}

/-- The bodies of nodes that are no bridges of a direction leave those alone, and give back
behaviours that are none either. -/
structure Skirts (d : Direction) (g : Graph Catalog) (run : Runner Catalog Unit) : Prop where
  bypasses : ∀ (b : Catalog) id task, b.direction ≠ some d → g.bridge? d id = none →
    Keeps (g.Bypasses d) (run (Behavior.body b id task))
  gives : ∀ (b : Catalog) id task s, Ensures (run (Behavior.body b id task)) s
    fun out _ => out.state.direction = b.direction

variable {run : Runner Catalog Unit} (hrun : Skirts d g run)
include hrun

theorem bypasses_enter {id : NodeId} (hid : g.bridge? d id = none) (task : Task) :
    Keeps (g.Bypasses d) (enter run id task) := by
  intro s hs
  have hs' : s.graph.bridge? d id = none := (hs.bridges id).trans hid
  cases hb : s.graph.behavior? id with
  | none =>
    intro a s' hr
    rw [enter_busy hb] at hr
    cases hr
    exact hs
  | some b =>
    have hdir := Graph.direction_of_bridge? hb hs'
    have hout : g.Bypasses d (s.graph.detach id) :=
      hs.trans (.of_behavior hs' fun c hc => nomatch hc)
    refine ensures_enter hb fun out t hr => ?_
    have ht : g.Bypasses d t.graph := hrun.bypasses b id task hdir hid _ hout out t hr
    have hgives : out.state.direction = b.direction := hrun.gives b id task _ out t hr
    show g.Bypasses d (restore (t.log (.ended id)) id out.state).graph
    unfold restore
    split
    · refine ht.trans (.of_behavior ((ht.bridges id).trans hid) fun c hc => ?_)
      rw [← Option.mem_some.1 hc, hgives]
      exact hdir
    · exact ht

variable (hdeaf : g.Deaf d)
include hdeaf

/-- An event reaches nodes only that handle events or wait for them. -/
theorem bypasses_deliver (payload : Value) (l : LinkId) :
    Keeps (g.Bypasses d) (deliver run payload l) := by
  intro s hs
  apply Ensures.get_bind
  split
  · exact Ensures.pure hs
  · next link _ =>
    apply Ensures.set_bind
    have ht := (g.even_bypasses d).marked s.graph l hs
    split
    · exact Ensures.pure ht
    · next n hn =>
      have hfree : n.acceptsActions = true ∨ n.mode = .onTrigger →
          g.bridge? d link.target = none := by
        intro hevents
        refine Option.eq_none_iff_forall_ne_some.2 fun p hp => ?_
        obtain ⟨hmode, hactions⟩ := hdeaf _ p hp
        obtain ⟨hpost, -⟩ := Graph.bridge?_eq_some.1 ((hs.bridges _).trans hp)
        unfold Graph.post? at hpost
        rw [hn] at hpost
        cases hpost
        rcases hevents with h | h
        · exact Bool.noConfusion (h.symm.trans hactions)
        · cases h.symm.trans hmode
      split
      · next ha => exact keeps_runAction (bypasses_enter hrun (hfree (.inl ha))) _ payload _ ht
      · split
        · next hm => exact keeps_runBody (bypasses_enter hrun (hfree (.inr hm))) _ _ ht
        · exact Ensures.pure ht

omit hrun in
/-- However deeply bodies are nested: induction on how deeply that is. -/
theorem skirts_runner (depth : Nat) : Skirts d g (runner depth) := by
  induction depth with
  | zero =>
    -- at depth zero no body runs to its end
    exact ⟨fun _ _ _ _ _ _ _ _ _ hr => (nomatch hr), fun _ _ _ _ _ _ hr => nomatch hr⟩
  | succ depth ih =>
    refine ⟨fun b id task hb hid => ?_, fun b id task s => ?_⟩
    · let K : Contract Catalog := ⟨g.Bypasses d, fun c => (∃ e, c = .edit e ∧ e.Skirts d g) ∨
        ∃ i slot payload only, c = .triggerSlot i slot payload only, fun _ _ => True⟩
      have hK : K.Honoured (perform (runner (B := Catalog) depth)) := by
        rintro c (⟨e, rfl, he⟩ | ⟨i, slot, payload, only, rfl⟩) s hs
        · exact Ensures.total ⟨trivial, Graph.Bypasses.trans hs (he.of_bypasses hs).bypasses⟩
        · have hsend := keeps_triggerSlot (bypasses_deliver ih hdeaf payload) i slot only
          exact (hsend s hs).mono fun _ _ h => ⟨trivial, h⟩
      refine Body.keeps_run hK (Catalog.obeys_makes (K := K) (fun e he => ?_) (fun _ slot v only => ?_) task)
      · exact .inl ⟨e, rfl, he.skirts hb hid⟩
      · exact .inr ⟨id, slot, v, only, rfl⟩
    · exact Body.ensures_of_gives (b.gives_direction id task) s

end Engine

end Dataflow
