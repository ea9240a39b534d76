/-
  What the bodies of standard nodes leave alone.

  Bodies of the catalog write properties, values and terminals, and name slots anew.  They make and
  break no links, and they neither add nor remove nodes.  So whatever they do, the nodes of a graph
  are what they were before, with the same wiring (`Trails`), however deeply bodies are nested.

  The body that runs when a node is added does even less.  It keeps the settings and the
  configuration of the graph, and it writes no property but one that bridges have from the start, so
  no property is new.
-/

import Dataflow.Proofs.Faithful
import Dataflow.Proofs.Phases

namespace Dataflow

variable {B σ : Type}

namespace Graph

/-! ## Nodes that others have become -/

/-- The nodes of a graph are what those of another have become, and they are wired as before. -/
structure Trails (g' g : Graph B) : Prop where
  wiring : g'.wiring = g.wiring
  nodes : ∀ id n', g'.nodes.get? id = some n' → ∃ n, g.nodes.get? id = some n ∧ n.Follows n'

namespace Trails

variable {g g' g'' : Graph B}

theorem refl (g : Graph B) : g.Trails g := ⟨rfl, fun _ n hn => ⟨n, hn, .of_still rfl⟩⟩

theorem trans (h' : g''.Trails g') (h : g'.Trails g) : g''.Trails g := by
  refine ⟨h'.wiring.trans h.wiring, fun id n'' hn'' => ?_⟩
  obtain ⟨n', hn', hf'⟩ := h'.nodes id n'' hn''
  obtain ⟨n, hn, hf⟩ := h.nodes id n' hn'
  exact ⟨n, hn, hf.trans hf'⟩

theorem of_descends (hw : g'.wiring = g.wiring) (hd : g'.Descends (fun _ => False) g) :
    g'.Trails g := by
  refine ⟨hw, fun id n' hn' => ?_⟩
  obtain ⟨n, hn, hl⟩ := hd id n' hn'
  exact ⟨n, hn, .of_lasts hl⟩

theorem of_still (hw : g'.wiring = g.wiring) (hs : g'.still = g.still) : g'.Trails g := by
  refine ⟨hw, fun id n' hn' => ?_⟩
  obtain ⟨n, hn, he⟩ := node_of_still hs hn'
  exact ⟨n, hn, .of_still he.symm⟩

end Trails

theorem steady_trails (g : Graph B) : Steady fun g' => g'.Trails g where
  frame _ _ h hs ht := (Trails.of_still (wiring_of_skeleton h) hs).trans ht
  update g' ht := (Trails.of_descends g'.wiring_updateOrder g'.descends_updateOrder).trans ht

end Graph

namespace Session

theorem trails_markStale (s : Session B σ) : s.markStale.graph.Trails s.graph := .of_still rfl rfl

theorem trails_refresh (s : Session B σ) : s.refresh.graph.Trails s.graph :=
  .of_descends (wiring_refresh s) s.quiet_refresh.nodes

end Session

/-! ## All bodies -/

/-- The calls that bodies of the catalog make. -/
def Call.FromBody : Call B → Prop
  | .edit e => Catalog.BodyEdit e
  | .triggerSlot .. => True
  | _ => False

/-- Bodies make few calls, and the graphs that they see are what one graph has become. -/
def trailing (g : Graph B) : Contract B := ⟨fun g' => g'.Trails g, Call.FromBody, fun _ _ => True⟩

theorem Catalog.BodyEdit.trails [Kind B] {e : Edit} (he : BodyEdit e) (s : Session B σ) :
    (e.apply s).2.graph.Trails s.graph := by
  have hl : e.light = true := by cases e <;> first | rfl | exact he.elim
  have hr : e.Reshapes = fun _ => False := by cases e <;> first | rfl | exact he.elim
  exact .of_descends (Graph.wiring_of_skeleton (Edit.skeleton_apply hl s))
    (hr ▸ (Edit.quiet_apply s e).nodes)

namespace Engine

theorem lawful_trailing [Behavior B σ] (g : Graph B) : Lawful (σ := σ) (trailing g) := by
  intro run hrun c hc s hs
  cases c with
  | edit e =>
    apply Ensures.total
    exact ⟨trivial, (Catalog.BodyEdit.trails hc s).trans hs⟩
  | triggerSlot id slot payload only =>
    exact (keeps_perform g.steady_trails hrun (by trivial) s hs).mono fun _ _ h => ⟨trivial, h⟩
  | _ => exact hc.elim

/-- A body of the catalog, however deeply bodies may be nested. -/
theorem keeps_trails (depth : Nat) (g : Graph Catalog) (b : Catalog) (id : NodeId) (task : Task) :
    Keeps (fun g' => g'.Trails g) (runner (σ := Unit) depth (Behavior.body b id task)) := by
  cases depth with
  | zero =>
    intro s _ a s' hr
    cases hr
  | succ depth =>
    have hobeys : ∀ b id task,
        (Behavior.body b id task : Body Catalog Unit (Outcome Catalog)).Obeys (trailing g) :=
      Catalog.obeys_behavior (fun _ he => he) fun _ _ _ _ => trivial
    exact keeps_exec (lawful_trailing g) hobeys (hobeys b id task) depth

/-- Such a call does to the graph what bodies do, and no more. -/
theorem trails_perform (depth : Nat) {c : Call Catalog} (hc : c.OnlyRuns) (s : Session Catalog Unit) :
    Ensures (perform (runner depth) c) s fun _ s' => s'.graph.Trails s.graph :=
  keeps_perform s.graph.steady_trails (keeps_trails depth s.graph) hc s (.refl s.graph)

end Engine

/-! ## Bodies of nodes that are added -/

/-- The properties of every node, by name. -/
def Graph.propertyNames (g : Graph B) : Assoc NodeId (List String) :=
  g.nodes.mapValues fun _ n => n.properties.keys

theorem Graph.propertyNames_modifyNode {g : Graph B} {id : NodeId} {f : Node B → Node B}
    (h : ∀ n, g.nodes.get? id = some n → (f n).properties.keys = n.properties.keys) :
    (g.modifyNode id f).propertyNames = g.propertyNames := Assoc.mapValues_modify h

/-- A node of a graph whose names of properties are those of another graph. -/
theorem Graph.names_of_propertyNames {g g' : Graph B} (h : g'.propertyNames = g.propertyNames)
    {id : NodeId} {n n' : Node B} (hn : g.nodes.get? id = some n) (hn' : g'.nodes.get? id = some n') :
    n'.properties.keys = n.properties.keys := by
  have hid := congrArg (·.get? id) h
  change (g'.nodes.mapValues _).get? id = (g.nodes.mapValues _).get? id at hid
  rw [Assoc.get?_mapValues, Assoc.get?_mapValues, hn, hn'] at hid
  exact Option.some.inj hid

/-- What bringing a terminal in step with a node makes of a graph: it may set terminals, write the
name of the node, or change a node whose properties it leaves alone. -/
inductive Graph.Synced (id : NodeId) (g : Graph B) : Graph B → Prop where
  | aside (inlets outlets : Assoc String Terminal) (version : Nat) :
    Synced id g { g with inlets, outlets, version }
  | named (value : Value) : Synced id g (g.modifyNode id fun n => n.setProperty "name" value).bump
  | relabelled (i : NodeId) {f : Node B → Node B} (h : ∀ n, (f n).properties = n.properties) :
    Synced id g (g.modifyNode i f)

theorem Graph.synced_self (id : NodeId) (g : Graph B) : g.Synced id g :=
  .aside g.inlets g.outlets g.version

theorem Session.synced_setTerminals (id : NodeId) (s : Session B σ) (d : Direction)
    (ts : Assoc String Terminal) (events : List (Event B)) :
    s.graph.Synced id (s.setTerminals d ts events).graph := by
  cases d with
  | input => exact .aside ts s.graph.outlets (s.graph.version + 1)
  | output => exact .aside s.graph.inlets ts (s.graph.version + 1)

theorem Catalog.SyncEdit.synced [Kind B] {id : NodeId} {e : Edit} (he : SyncEdit id e)
    (s : Session B σ) : s.graph.Synced id (e.apply s).2.graph := by
  cases e with
  | storeProperty i name value =>
    obtain ⟨rfl, rfl⟩ := he
    show s.graph.Synced i (s.storeProperty i "name" value).graph
    unfold Session.storeProperty
    split
    · exact .named value
    · exact s.graph.synced_self i
  | renameSlot d i slot name =>
    refine .relabelled i fun n => ?_
    cases d <;> rfl
  | addTerminal d name type value => exact s.synced_setTerminals id d _ _
  | renameTerminal d old new =>
    show s.graph.Synced id (s.renameTerminal d old new).2.graph
    unfold Session.renameTerminal
    simp only
    split
    · exact s.synced_setTerminals id d _ _
    · exact s.graph.synced_self id
  | retypeTerminal d name type =>
    show s.graph.Synced id (s.retypeTerminal d name type).2.graph
    unfold Session.retypeTerminal
    simp only
    split
    · split
      · exact s.graph.synced_self id
      · exact s.synced_setTerminals id d _ _
    · exact s.graph.synced_self id
  | _ => exact he.elim

theorem Graph.Synced.apart {id : NodeId} {g g' : Graph B} (h : g.Synced id g') :
    g'.settings = g.settings ∧ g'.config = g.config := by
  cases h <;> exact ⟨rfl, rfl⟩

/-- Where the name is among the properties of the node, no property is new. -/
theorem Graph.Synced.propertyNames {id : NodeId} {g g' : Graph B} (h : g.Synced id g')
    (hname : ∀ n, g.nodes.get? id = some n → "name" ∈ n.properties.keys) :
    g'.propertyNames = g.propertyNames := by
  cases h with
  | aside => rfl
  | named value =>
    refine Graph.propertyNames_modifyNode fun n hn => ?_
    show (n.properties.insert "name" value).keys = _
    rw [Assoc.keys_insert, if_pos (hname n hn)]
  | relabelled i hf =>
    refine Graph.propertyNames_modifyNode fun n _ => ?_
    rw [hf n]

/-- When a node is added, only a bridge does anything, and that is to bring its terminal in step. -/
theorem Engine.keeps_added {I : Graph Catalog → Prop} {b : Catalog} {id : NodeId}
    (h : ¬b.IsTame → ∀ e, Catalog.SyncEdit id e → ∀ s : Session Catalog Unit,
      I s.graph → I (e.apply s).2.graph) (depth : Nat) :
    Keeps I (runner (σ := Unit) depth (Behavior.body b id .added)) := by
  cases depth with
  | zero =>
    intro s _ a s' hr
    cases hr
  | succ depth =>
    let K : Contract Catalog := ⟨I, fun c => ¬b.IsTame ∧ ∃ e, c = .edit e ∧ Catalog.SyncEdit id e,
      fun _ _ => True⟩
    have hK : K.Honoured (perform (runner (σ := Unit) depth)) := by
      rintro c ⟨hb, e, rfl, he⟩ s hs
      apply Ensures.total
      exact ⟨trivial, h hb e he s hs⟩
    refine Body.keeps_run hK ?_
    cases b with
    | bridge d registered => exact Catalog.obeys_added _ fun e he => ⟨fun hb => hb, e, rfl, he⟩
    | _ => trivial

/-! ## Adding a node -/

namespace Engine

variable [Behavior B σ] {run : Runner B σ} {I : Graph B → Prop}

theorem behavior?_place (g : Graph B) (n : Node B) (id : NodeId) (next : Nat) :
    (g.place n id next).behavior? id = n.behavior := by
  rw [g.place_snapped]
  show ((g.nodes.insert id _).get? id).bind _ = _
  rw [Assoc.get?_insert_self]
  exact n.behavior_snapped g.settings

/-- A node is added unless there is no room for it, and what holds of the graph then holds after
its body has run. -/
theorem insertNode_spec (hI : Aloof I) {s : Session B σ} {n : Node B} (refresh : Bool)
    (hplace : I (s.graph.place n (s.graph.claimNode n.id).1 (s.graph.claimNode n.id).2))
    (hrun : ∀ b, n.behavior = some b →
      Keeps I (run (Behavior.body b (s.graph.claimNode n.id).1 .added))) :
    Ensures (insertNode run n refresh) s fun answer s' =>
      (s.graph.settings.maxNodes ≤ s.graph.nodes.size ∧ (∃ e, answer = .error e) ∧ s' = s) ∨
      (s.graph.nodes.size < s.graph.settings.maxNodes ∧ answer = .ok (s.graph.claimNode n.id).1 ∧
        ∃ t : Session B σ, I t.graph ∧
          s'.graph = (if refresh then t.markStale.refresh else t.markStale).graph) := by
  refine ensures_insertNode (fun hfull e => .inl ⟨hfull, ⟨e, rfl⟩, rfl⟩) fun hroom => ?_
  refine (keeps_entered hI (s := s.edit fun g => g.place n _ _) hplace fun b hb => ?_).mono ?_
  · exact hrun b ((behavior?_place ..).symm.trans hb)
  · exact fun _ t ht u hu => .inr ⟨hroom, rfl, t, ht, hu⟩

end Engine

end Dataflow
