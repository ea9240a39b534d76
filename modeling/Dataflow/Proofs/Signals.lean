/-
  What one body does to the nodes that take events.

  Emitters send events, counters and recorders take them in.  The body of any other node changes
  that node and what its links carry, and nothing else (`Graph.Aside`): it does not send events.
  What the bodies of counters and recorders leave behind is told exactly: an event adds one to a count
  (`ensures_incremented`) or an entry to a list (`ensures_recorded`), and a counter that has its turn
  only shows its count (`ensures_shown`).
-/

import Dataflow.Proofs.Clock
import Dataflow.Proofs.Decimals
import Dataflow.Proofs.Delivery
import Dataflow.Proofs.Firing
import Dataflow.Proofs.Version

namespace Dataflow

variable {B σ : Type}

/-! ## Changes beside one node -/

namespace Graph

/-- One graph is what became of another while the body of a node ran that sends no events: other
nodes are as they were, and so are the links and the order of execution. -/
structure Aside (id : NodeId) (g g' : Graph B) : Prop where
  skeleton : g'.skeleton = g.skeleton
  count : g'.iteration = g.iteration
  nodes : ∀ i, i ≠ id → g'.nodes.get? i = g.nodes.get? i

namespace Aside

variable {id : NodeId} {g g' g'' : Graph B}

theorem refl (id : NodeId) (g : Graph B) : g.Aside id g := ⟨rfl, rfl, fun _ _ => rfl⟩

theorem trans (h : g.Aside id g') (h' : g'.Aside id g'') : g.Aside id g'' where
  skeleton := h'.skeleton.trans h.skeleton
  count := h'.count.trans h.count
  nodes i hi := (h'.nodes i hi).trans (h.nodes i hi)

theorem modifyNode (g : Graph B) {f : Node B → Node B} (hp : ∀ n, (f n).pins = n.pins)
    (hr : ∀ n, (f n).rank = n.rank) : g.Aside id (g.modifyNode id f) where
  skeleton := skeleton_modifyNode (fun n _ => hp n) fun n _ => hr n
  count := rfl
  nodes i hi := (get?_modifyNode g id i f).trans (if_neg hi)

theorem behavior (id : NodeId) (g : Graph B) (b : Option B) :
    g.Aside id (g.modifyNode id fun n => { n with behavior := b }) :=
  modifyNode g (fun _ => rfl) fun _ => rfl

theorem setProperty (id : NodeId) (g : Graph B) (name : String) (value : Value) :
    g.Aside id (g.setProperty id name value).bump :=
  have h : g.Aside id (g.setProperty id name value) := modifyNode g (fun _ => rfl) fun _ => rfl
  ⟨h.skeleton, h.count, h.nodes⟩

theorem property? (h : g.Aside id g') {i : NodeId} (hi : i ≠ id) (name : String) :
    g'.property? i name = g.property? i name := by
  unfold Graph.property?
  rw [h.nodes i hi]

theorem behavior? (h : g.Aside id g') {i : NodeId} (hi : i ≠ id) : g'.behavior? i = g.behavior? i := by
  unfold Graph.behavior?
  rw [h.nodes i hi]

end Aside

theorem nodes_setOutputData (g : Graph B) (id : NodeId) (slot : Nat) (value : Value) :
    ∃ f : Node B → Node B, (∀ n, ∃ outputs, f n = { n with outputs }) ∧
      (g.setOutputData id slot value).nodes = g.nodes.modify id f := by
  unfold setOutputData
  split
  · next o _ =>
    have hlinks : (g.modifyLinks o.links fun l => { l with data := some value }).nodes = g.nodes :=
      nodes_modifyLinks ..
    let f : Node B → Node B := fun n => n.modifyOutput slot fun s => { s with data := some value }
    exact ⟨f, fun n => ⟨_, rfl⟩, congrArg (fun nodes => nodes.modify id f) hlinks⟩
  · exact ⟨fun n => n, fun n => ⟨n.outputs, rfl⟩, (Assoc.modify_eq_self fun _ _ => rfl).symm⟩

theorem aside_setOutputData (g : Graph B) (id : NodeId) (slot : Nat) (value : Value) :
    g.Aside id (g.setOutputData id slot value) := by
  obtain ⟨f, -, hf⟩ := g.nodes_setOutputData id slot value
  refine ⟨g.skeleton_setOutputData id slot value, (g.calm_setOutputData id slot value).count, ?_⟩
  intro i hi
  rw [hf, Assoc.get?_modify, if_neg hi]

end Graph

/-- The edits of a body change its own node only, and not whether its behaviour is there. -/
theorem Catalog.Makes.nodes [Kind B] {b : Catalog} {id : NodeId} {e : Edit} (h : b.Makes id e)
    (s : Session B σ) : ∃ f : Node B → Node B, (∀ n, (f n).behavior = n.behavior) ∧
      (e.apply s).2.graph.nodes = s.graph.nodes.modify id f := by
  have hsame : ∃ f : Node B → Node B, (∀ n, (f n).behavior = n.behavior) ∧
      s.graph.nodes = s.graph.nodes.modify id f :=
    ⟨fun n => n, fun _ => rfl, (Assoc.modify_eq_self fun _ _ => rfl).symm⟩
  have hstore : ∀ name value, ∃ f : Node B → Node B, (∀ n, (f n).behavior = n.behavior) ∧
      (s.storeProperty id name value).graph.nodes = s.graph.nodes.modify id f := by
    intro name value
    unfold Session.storeProperty
    split
    · exact ⟨fun n => n.setProperty name value, fun _ => rfl, rfl⟩
    · exact hsame
  have hterminals : ∀ (d : Direction) (ts : Assoc String Terminal) (events : List (Event B)),
      (s.setTerminals d ts events).graph.nodes = s.graph.nodes := by
    intro d ts events
    cases d <;> rfl
  rcases h with h | ⟨d, registered, -, h⟩
  · cases e with
    | storeProperty i name value =>
      obtain rfl : i = id := h
      exact hstore name value
    | setOutputData i slot value =>
      obtain rfl : i = id := h
      obtain ⟨f, hf, hnodes⟩ := s.graph.nodes_setOutputData i slot value
      refine ⟨f, fun n => ?_, hnodes⟩
      obtain ⟨outputs, ho⟩ := hf n
      rw [ho]
    | setTerminalValue side name value => cases side <;> exact hsame
    | _ => exact h.elim
  · cases e with
    | storeProperty i name value =>
      obtain ⟨rfl, -⟩ := h
      exact hstore name value
    | addTerminal side name type value =>
      show ∃ f, _ ∧ (s.setTerminals side _ _).graph.nodes = _
      rw [hterminals]
      exact hsame
    | renameTerminal side old new =>
      show ∃ f, _ ∧ (s.renameTerminal side old new).2.graph.nodes = _
      unfold Session.renameTerminal
      simp only
      split
      · rw [hterminals]
        exact hsame
      · exact hsame
    | retypeTerminal side name type =>
      show ∃ f, _ ∧ (s.retypeTerminal side name type).2.graph.nodes = _
      unfold Session.retypeTerminal
      simp only
      split
      · split
        · exact hsame
        · rw [hterminals]
          exact hsame
      · exact hsame
    | renameSlot side i slot name =>
      obtain ⟨-, rfl, -⟩ := h
      cases side with
      | input => exact ⟨fun n => n.modifyInput slot fun s => { s with name }, fun _ => rfl, rfl⟩
      | output => exact ⟨fun n => n.modifyOutput slot fun s => { s with name }, fun _ => rfl, rfl⟩
    | _ => exact h.elim

theorem Catalog.Makes.aside [Kind B] {b : Catalog} {id : NodeId} {e : Edit} (h : b.Makes id e)
    (s : Session B σ) : s.graph.Aside id (e.apply s).2.graph ∧
      ((e.apply s).2.graph.behavior? id = s.graph.behavior? id) := by
  have hbody := h.body
  obtain ⟨f, hf, hnodes⟩ := h.nodes s
  refine ⟨⟨Edit.skeleton_apply ?_ s, (Edit.calm_apply s ?_).count, fun i hi => ?_⟩, ?_⟩
  · cases e <;> first | rfl | exact hbody.elim
  · rintro rfl
    exact hbody
  · rw [hnodes, Assoc.get?_modify, if_neg hi]
  · unfold Graph.behavior?
    rw [hnodes, Assoc.get?_modify, if_pos rfl]
    cases s.graph.nodes.get? id with
    | none => rfl
    | some n => exact hf n

/-! ## Nodes that have to do with events -/

/-- Whether a behaviour sends, counts or records events. -/
def Catalog.signals : Catalog → Bool
  | emitter | counter | recorder => true
  | _ => false

/-- No body turns its behaviour into one that has to do with events, or into one that has not. -/
theorem Catalog.gives_signals (b : Catalog) (id : NodeId) (task : Task) :
    (Behavior.body b id task : Body Catalog Unit (Outcome Catalog)).Gives
      fun out => out.state.signals = b.signals := by
  have hbody : (b.body id task : Body Catalog Unit _).Gives
      fun ended => ended.1.signals = b.signals := by
    unfold body
    split
    · exact (Body.gives_any _).seq fun _ _ => rfl
    · exact (Body.gives_any _).seq fun _ _ => rfl
    · exact (Body.gives_any _).seq fun _ _ => rfl
    · exact (Body.gives_any _).seq fun _ _ => rfl
    · rfl
  exact hbody.seq fun ended h => h

namespace Engine

theorem aside_restore (s : Session B σ) (id : NodeId) (b : B) :
    s.graph.Aside id (restore s id b).graph := by
  unfold restore
  split
  · exact .behavior id s.graph (some b)
  · exact .refl id s.graph

theorem behavior?_restore {s : Session B σ} {id : NodeId} (hs : s.graph.behavior? id = none) (b : B) :
    ∀ c, (restore s id b).graph.behavior? id = some c → c = b := by
  intro c hc
  unfold restore at hc
  split at hc
  · change ((s.graph.nodes.modify id _).get? id).bind Node.behavior = some c at hc
    rw [Assoc.get?_modify, if_pos rfl] at hc
    cases hn : s.graph.nodes.get? id with
    | none =>
      rw [hn] at hc
      cases hc
    | some n =>
      rw [hn] at hc
      exact (Option.some.inj hc).symm
  · rw [show s.graph.behavior? id = some c from hc] at hs
    cases hs

/-- To enter a node that has nothing to do with events is to change nothing beside it. -/
theorem ensures_aside (depth : Nat) {s : Session Catalog Unit} {id : NodeId}
    (hb : ∀ b, s.graph.behavior? id = some b → b.signals = false) (task : Task) :
    Ensures (enter (runner depth) id task) s fun _ s' => s.graph.Aside id s'.graph ∧
      ∀ b, s'.graph.behavior? id = some b → b.signals = false := by
  cases hbeh : s.graph.behavior? id with
  | none =>
    intro answer s' hr
    rw [enter_busy hbeh] at hr
    cases hr
    exact ⟨.refl id s.graph, fun b h => by rw [hbeh] at h; cases h⟩
  | some b =>
    have hsilent := hb b hbeh
    have hout : (s.graph.detach id).behavior? id = none := by
      show ((s.graph.nodes.modify id _).get? id).bind Node.behavior = none
      rw [Assoc.get?_modify, if_pos rfl]
      cases s.graph.nodes.get? id <;> rfl
    refine ensures_entered hbeh fun depth => ?_
    let K : Contract Catalog := ⟨fun g => s.graph.Aside id g ∧ g.behavior? id = none,
      fun c => ∃ e, c = .edit e ∧ b.Makes id e, fun _ _ => True⟩
    have hK : K.Honoured (perform (runner (σ := Unit) depth)) := by
      rintro c ⟨e, rfl, he⟩ t ⟨ht, hnone⟩
      obtain ⟨haside, hsame⟩ := he.aside t
      apply Ensures.total
      exact ⟨trivial, ht.trans haside, hsame.trans hnone⟩
    have hobeys : (Behavior.body b id task : Body Catalog Unit (Outcome Catalog)).Obeys K := by
      refine Catalog.obeys_makes (K := K) (fun e he => ⟨e, rfl, he⟩) ?_ task
      rintro rfl
      cases hsilent
    intro out t hr
    have hstart : K.keeps (s.graph.detach id) := ⟨.behavior id s.graph none, hout⟩
    obtain ⟨haside, hnone⟩ := Body.keeps_run hK hobeys _ hstart out t hr
    have hstate := Body.ensures_of_gives (b.gives_signals id task) _ out t hr
    refine ⟨haside.trans (aside_restore (t.log (.ended id)) id out.state), fun c hc => ?_⟩
    rw [behavior?_restore (s := t.log (.ended id)) hnone out.state c hc, hstate]
    exact hsilent

/-! ## Counting and recording -/

section Kept

variable {s : Session B σ} {id : NodeId} {n : Node B} {b : B}
  (hn : s.graph.nodes.get? id = some n) (hb : n.behavior = some b)
include hn hb

/-- Storing a property of a node while its body runs comes to storing it. -/
theorem graph_restore_stored (name : String) (value : Value) (e e' : Event B) :
    (restore ((((s.edit fun g => g.detach id).log e).storeProperty id name value).log e') id b).graph =
      (s.graph.setProperty id name value).bump := by
  have hdetached := Graph.get?_detach hn
  have hstored : (((s.edit fun g => g.detach id).log e).storeProperty id name value).graph =
      ((s.graph.detach id).setProperty id name value).bump := by
    unfold Session.storeProperty
    rw [if_pos]
    · rfl
    · show (s.graph.detach id).nodes.contains id = true
      rw [Assoc.contains_eq_isSome, hdetached]
      rfl
  have hwaits : ((s.graph.detach id).setProperty id name value).bump.awaitsBehavior id = true := by
    show Option.any _ (((s.graph.detach id).nodes.modify id _).get? id) = true
    rw [Assoc.get?_modify, if_pos rfl, hdetached]
    rfl
  unfold restore
  rw [if_pos (by exact hstored ▸ hwaits)]
  show Graph.attach (Session.graph _) id b = _
  rw [show ((((s.edit fun g => g.detach id).log e).storeProperty id name value).log e').graph = _ from
    hstored]
  exact congrArg Graph.bump (Graph.attach_modifyNode_detach hn hb fun _ => rfl)

end Kept

/-- A counter that is told of an event adds one to its count, unless that is not a number. -/
theorem ensures_incremented (depth : Nat) {s : Session Catalog Unit} {id : NodeId}
    (hb : s.graph.behavior? id = some .counter) (payload : Value) :
    Ensures (enter (runner depth) id (.act "inc" payload)) s fun ending s' =>
      (∃ e, ending = some (.error e)) ∨
        ∃ x, Catalog.numberOr0 "count" (s.graph.property? id "count") = .ok x ∧
          s'.graph = (s.graph.setProperty id "count" (.ofFloat (x + 1.0))).bump := by
  obtain ⟨n, hn, hbeh⟩ := Option.bind_eq_some_iff.1 hb
  refine ensures_entered hb fun depth => ?_
  have hsame := s.graph.property?_detach id id "count"
  refine Ensures.get_bind ?_
  show Ensures (Body.run _ (Body.bind (Body.bind (Body.after _ _) _) _)) _ _
  rw [show ((s.edit fun g => g.detach id).log (.began id .counter (.act "inc" payload))).graph.property?
    id "count" = _ from hsame]
  cases Catalog.numberOr0 "count" (s.graph.property? id "count") with
  | error e => exact Ensures.pure (.inl ⟨e, rfl⟩)
  | ok x =>
    refine Ensures.bind (Ensures.total (Ensures.pure (.inr ⟨x, rfl, ?_⟩)))
    exact graph_restore_stored hn hbeh ..

/-- A recorder that is triggered adds the payload to its entries. -/
theorem ensures_recorded (depth : Nat) {s : Session Catalog Unit} {id : NodeId}
    (hb : s.graph.behavior? id = some .recorder) (payload : Value) :
    Ensures (enter (runner depth) id (.execute (some payload))) s fun _ s' =>
      s'.graph = (s.graph.setProperty id "entries"
        (.arr (Catalog.entriesOf (s.graph.property? id "entries") ++ [payload]))).bump := by
  obtain ⟨n, hn, hbeh⟩ := Option.bind_eq_some_iff.1 hb
  refine ensures_entered hb fun depth => ?_
  have hsame := s.graph.property?_detach id id "entries"
  refine Ensures.get_bind (Ensures.bind (Ensures.total (Ensures.pure ?_)))
  rw [← hsame]
  exact graph_restore_stored hn hbeh ..

/-- A counter that has its turn only gives its count. -/
theorem ensures_shown (depth : Nat) {s : Session Catalog Unit} {id : NodeId}
    (hb : s.graph.behavior? id = some .counter) (payload : Option Value) :
    Ensures (enter (runner depth) id (.execute payload)) s fun _ s' =>
      ∃ v, s'.graph = s.graph.setOutputData id 0 v := by
  obtain ⟨n, hn, hbeh⟩ := Option.bind_eq_some_iff.1 hb
  refine ensures_entered hb fun depth => ?_
  let v := ((s.graph.detach id).property? id "count").getD (.int 0)
  refine Ensures.get_bind (Ensures.bind (Ensures.total (Ensures.pure ⟨v, ?_⟩)))
  obtain ⟨n', hn', hb'⟩ := Graph.get?_afterwards (b := .counter) (Graph.get?_detach hn) (.ok v)
  have hwaits : ((s.graph.detach id).setOutputData id 0 v).awaitsBehavior id = true := by
    show Option.any _ (((s.graph.detach id).afterwards .counter id (.ok v)).nodes.get? id) = true
    rw [hn']
    show n'.behavior.isNone = true
    rw [hb']
    rfl
  unfold restore
  rw [if_pos (by exact hwaits)]
  exact Graph.attach_fire_detach hn hbeh (.ok v)

end Engine

end Dataflow
