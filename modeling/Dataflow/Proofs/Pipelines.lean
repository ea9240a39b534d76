/-
  Every shape that a pipeline writes is full.

  A pipeline is a graph of sources and layers.  While its steps run and its properties change, each
  value that a node writes to an output is a list of positive extents, as long as the attributes
  from which layers take extents as they are stay positive (`tuning`).  It does not matter how the
  nodes are linked.  A layer that would make an axis empty in any other way fails instead.

  That nothing else is ever written, also not in between, is said by running with a check in front
  of every call: such a run gets past no call that does not pass (`execChecked`).  Apart from that
  it is the run without the check (`extends_execChecked`), so if it answers, all calls passed.

  Nobody looks at the attributes themselves.  A linear layer without features writes an empty
  shape, and its step succeeds (`emptied_spreads`).
-/

import Dataflow.Proofs.Agreement
import Dataflow.Proofs.Depth
import Dataflow.Proofs.Extents
import Dataflow.Proofs.Firing
import Dataflow.Proofs.Refusal

namespace Dataflow

variable {B σ α β : Type}

/-! ## Runs behind a check -/

namespace Engine

/-- Carries out a call if it passes a check. -/
def check (passes : Call B → Bool) (perform : (c : Call B) → Act B σ c.Answer) (c : Call B) :
    Act B σ c.Answer := fun s => if passes c then perform c s else none

variable [Behavior B σ] (passes : Call B → Bool)

/-- Runs bodies whose calls pass a check. -/
def checkedRunner : Nat → Runner B σ
  | 0 => fun _ _ => none
  | depth + 1 => fun body => body.run (check passes (perform (checkedRunner depth)))

/-- Runs a program; the calls that it makes, and those of the bodies that it runs, pass a check. -/
def execChecked (depth : Nat) (p : Body B σ α) : Act B σ α :=
  p.run (check passes (perform (checkedRunner passes depth)))

omit [Behavior B σ] in
theorem extends_check {perform perform' : (c : Call B) → Act B σ c.Answer}
    (h : ∀ c, Extends (perform c) (perform' c)) (c : Call B) :
    Extends (check passes perform c) (perform' c) := by
  intro s r hr
  unfold check at hr
  split at hr
  · exact h c s r hr
  · cases hr

theorem extends_checkedRunner (depth : Nat) (body : Body B σ (Outcome B)) :
    Extends (checkedRunner passes depth body) (runner depth body) := by
  induction depth generalizing body with
  | zero => exact .refl _
  | succ depth ih => exact Body.extends_run (extends_check passes (extends_perform ih)) body

/-- What a run behind a check answers is what the run answers. -/
theorem extends_execChecked (depth : Nat) (p : Body B σ α) :
    Extends (execChecked passes depth p) (exec depth p) :=
  Body.extends_run
    (extends_check passes (extends_perform (extends_checkedRunner passes depth))) p

end Engine

/-! ## Steps that answer and keep a property -/

/-- A step that answers wherever a property holds, and keeps it. -/
def Completes (I : Graph B → Prop) (m : Act B σ α) : Prop :=
  ∀ s, I s.graph → ∃ a s', m s = some (a, s') ∧ I s'.graph

namespace Completes

variable {I : Graph B → Prop}

theorem pure (a : α) : Completes I (Pure.pure a : Act B σ α) := fun s hs => ⟨a, s, rfl, hs⟩

theorem bind {m : Act B σ α} {f : α → Act B σ β} (hm : Completes I m)
    (hf : ∀ a, Completes I (f a)) : Completes I (m >>= f) := by
  intro s hs
  obtain ⟨a, t, ha, ht⟩ := hm s hs
  obtain ⟨b, u, hb, hu⟩ := hf a t ht
  refine ⟨b, u, ?_, hu⟩
  show (m s).bind _ = _
  rw [ha]
  exact hb

theorem get_bind {f : Session B σ → Act B σ β} (h : ∀ s, Completes I (f s)) :
    Completes I (get >>= f) := bind (fun s hs => ⟨s, s, rfl, hs⟩) h

theorem modify {u : Session B σ → Session B σ} (h : ∀ s, I s.graph → I (u s).graph) :
    Completes I (modify u : Act B σ PUnit) := fun s hs => ⟨⟨⟩, u s, rfl, h s hs⟩

theorem modifyGet {u : Session B σ → α × Session B σ} (h : ∀ s, I s.graph → I (u s).2.graph) :
    Completes I (modifyGet u : Act B σ α) := fun s hs => ⟨(u s).1, (u s).2, rfl, h s hs⟩

end Completes

namespace Engine

variable [Behavior B σ] {I : Graph B → Prop} {run : Runner B σ}

section Steps

variable (hI : Even I) (henter : ∀ id, Completes I (enter run id (.execute none)))
include hI henter

omit hI in
theorem completes_runBody (id : NodeId) : Completes I (runBody run id none) := by
  refine .get_bind fun s => ?_
  cases s.graph.nodes.get? id with
  | none => exact .pure _
  | some n =>
    show Completes I (ite _ _ _)
    split
    · exact (henter id).bind fun _ => .pure _
    · exact .pure _

omit hI in
theorem completes_runNodes (ids : List NodeId) : Completes I (runNodes run ids) := by
  induction ids with
  | nil => exact .pure _
  | cons id ids ih =>
    refine .get_bind fun s => ?_
    show Completes I (ite _ _ _)
    split
    · refine (completes_runBody henter id).bind fun answer => ?_
      cases answer with
      | error e => exact .pure _
      | ok ran => exact ih
    · exact ih

theorem completes_runPasses (passes : Nat) : Completes I (runPasses run passes) := by
  induction passes with
  | zero => exact .pure _
  | succ passes ih =>
    refine .get_bind fun s => (completes_runNodes henter _).bind fun answer => ?_
    cases answer with
    | error e => exact .pure _
    | ok done =>
      refine (Completes.modify fun s hs => ?_).bind fun _ => ih
      exact hI.counted s.graph _ s.graph.iteration s.graph.failed hs

/-- A step answers if the bodies of its nodes do. -/
theorem completes_runStep (passes : Nat) (propagate : Bool) :
    Completes I (runStep run passes propagate) := by
  refine (Completes.modify fun s hs => ?_).bind fun _ =>
    (completes_runPasses hI henter passes).bind fun result => ?_
  · split
    · exact hI.update s.graph hs
    · exact hs
  · refine Completes.bind (.modify fun s hs => hs) fun _ => ?_
    refine (Completes.modifyGet fun s hs => even_conclude hI propagate result s hs).bind fun _ => ?_
    refine (Completes.modify fun s hs => ?_).bind fun _ => .pure _
    exact hI.counted s.graph s.graph.fixedTime _ s.graph.failed hs

end Steps

end Engine

/-! ## Writing full shapes -/

/-- Whether a value is a full shape. -/
def Value.isFull : Value → Bool
  | .arr items => items.all fun
    | .int n => decide (1 ≤ n)
    | _ => false
  | _ => false

/-- Whether a call writes a full shape, if it writes to an output at all. -/
def Call.writesFull : Call B → Bool
  | .edit (.setOutputData _ _ v) => v.isFull
  | _ => true

theorem Value.isFull_ofInts {shape : Shape.Dims} :
    (ofInts shape).isFull = true ↔ Shape.Full shape := by
  show (shape.map Value.int).all _ = true ↔ _
  rw [List.all_map, List.all_eq_true]
  exact forall₂_congr fun n _ => decide_eq_true_iff

/-- What is read from a full shape is one. -/
theorem Value.full_of_isFull {v : Value} (hv : v.isFull = true) {shape : Shape.Dims}
    (h : Shape.ofValue v = .ok shape) : Shape.Full shape := by
  cases v with
  | arr items =>
    intro n hn
    obtain ⟨item, hitem, hread⟩ := Shape.mapM_ok h n hn
    have hfull := List.all_eq_true.1 hv item hitem
    cases item with
    | int m =>
      rw [Shape.extentOf] at hread
      split at hread
      · cases hread
        exact of_decide_eq_true hfull
      · cases hread
    | _ => cases hfull
  | _ => cases hv

theorem Catalog.sourceShape_full {rank : Nat} {attrs : Attributes} {shape : Shape.Dims}
    (h : sourceShape rank attrs = .ok shape) : Shape.Full shape := by
  unfold sourceShape at h
  obtain ⟨size, -, h⟩ := Except.of_bind_ok h
  extract_lets rest at h
  split at h
  · cases h
  · next hany =>
    cases h
    intro n hn
    exact Int.not_lt.1 fun hlt => hany (List.any_eq_true.2 ⟨n, hn, decide_eq_true hlt⟩)

/-! ## Pipelines -/

/-- Whether a behaviour gives a shape or maps one. -/
def Catalog.shapes : Catalog → Bool
  | .source _ | .layer _ => true
  | _ => false

namespace Graph

/-- Every node gives a shape or maps one, and no link carries anything yet. -/
structure Pipeline (g : Graph Catalog) : Prop where
  shapes : ∀ id b, g.behavior? id = some b → b.shapes = true
  empty : ∀ k l, g.links.get? k = some l → l.data = none

/-- The extents that layers take from attributes as they are, are positive. -/
def Bounded (g : Graph Catalog) : Prop :=
  ∀ id rule, g.behavior? id = some (.layer rule) → rule.Bounded (g.property? id)

/-- A value of a property from which a layer takes positive extents, if it takes any from it. -/
def Suits (g : Graph Catalog) (id : NodeId) (name : String) (value : Value) : Prop :=
  ∀ rule, g.behavior? id = some (.layer rule) → rule.sizedBy = some name →
    rule.Bounded fun _ => some value

/-- What holds of a pipeline while it is in use: behaviours are out of their nodes now and then, but
none is replaced, and links carry full shapes. -/
structure Tuned (base g : Graph Catalog) : Prop where
  behaviors : ∀ id b, g.behavior? id = some b → base.behavior? id = some b
  bounded : ∀ id rule, base.behavior? id = some (.layer rule) → rule.Bounded (g.property? id)
  full : ∀ k l v, g.links.get? k = some l → l.data = some v → v.isFull = true

end Graph

/-- Steps, and edits of properties from which layers take positive extents. -/
def tuning (base : Graph Catalog) : Contract Catalog where
  keeps := base.Tuned
  allows
    | .runStep .. => True
    | .edit (.setProperty id name value) | .edit (.storeProperty id name value) =>
      base.Suits id name value
    | .edit (.declareProperty id info) => base.Suits id info.name info.initial
    | _ => False
  promises _ _ := True

namespace Graph

variable {base g g' : Graph Catalog}

theorem Pipeline.tuned (h : base.Pipeline) (hb : base.Bounded) : base.Tuned base where
  behaviors _ _ h := h
  bounded := hb
  full k l v hl hv := by
    rw [h.empty k l hl] at hv
    cases hv

namespace Tuned

variable (h : base.Tuned g)
include h

theorem of_nodes (hn : g'.nodes = g.nodes)
    (hl : ∀ k l v, g'.links.get? k = some l → l.data = some v → v.isFull = true) :
    base.Tuned g' where
  behaviors id b hb := by
    unfold behavior? at hb
    rw [hn] at hb
    exact h.behaviors id b hb
  bounded id rule hb := by
    have hp : g'.property? id = g.property? id := by
      unfold property?
      rw [hn]
    rw [hp]
    exact h.bounded id rule hb
  full := hl

/-- Nodes may change as long as they keep their properties and no behaviour is replaced. -/
theorem modifyNode {id : NodeId} {f : Node Catalog → Node Catalog}
    (hb : ∀ n b, (f n).behavior = some b → n.behavior = some b ∨ base.behavior? id = some b)
    (hp : ∀ n, (f n).properties = n.properties) : base.Tuned (g.modifyNode id f) where
  behaviors i b hi := by
    unfold behavior? at hi
    rw [get?_modifyNode] at hi
    split at hi
    · next heq =>
      obtain ⟨n', hn', hi⟩ := Option.bind_eq_some_iff.1 hi
      obtain ⟨n, hn, rfl⟩ := Option.map_eq_some_iff.1 hn'
      rcases hb n b hi with hold | hold
      · exact h.behaviors i b ((behavior_of_node hn).trans hold)
      · rw [heq]
        exact hold
    · exact h.behaviors i b hi
  bounded i rule hi := by
    have hsame : (g.modifyNode id f).property? i = g.property? i := by
      funext name
      exact bind_modifyNode_of_eq (fun n => congrArg (·.get? name) (hp n)) i
    rw [hsame]
    exact h.bounded i rule hi
  full := h.full

theorem detach (id : NodeId) : base.Tuned (g.detach id) :=
  h.modifyNode (fun _ _ hb => nomatch hb) fun _ => rfl

theorem attach {id : NodeId} {b : Catalog} (hb : base.behavior? id = some b) :
    base.Tuned (g.attach id b) :=
  h.modifyNode (fun _ _ hb' => .inr (hb' ▸ hb)) fun _ => rfl

theorem setOutputData {v : Value} (hv : v.isFull = true) (id : NodeId) (slot : Nat) :
    base.Tuned (g.setOutputData id slot v) := by
  have hl : ∀ (ks : List LinkId) (g : Graph Catalog), base.Tuned g →
      base.Tuned (g.modifyLinks ks fun l => { l with data := some v }) := by
    intro ks
    induction ks with
    | nil => exact fun g h => h
    | cons k ks ih =>
      refine fun g h => ih _ (h.of_nodes rfl fun k' l' w hl' hw => ?_)
      obtain ⟨-, hl⟩ | ⟨-, l, -, rfl⟩ := Assoc.exists_of_get?_modify hl'
      · exact h.full k' l' w hl hw
      · cases hw
        exact hv
  unfold Graph.setOutputData
  split
  · exact (hl _ g h).modifyNode (fun _ _ hb => .inl hb) fun _ => rfl
  · exact h

theorem updateOrder : base.Tuned g.updateOrder :=
  Graph.updateOrder_keeps (fun _ _ _ h => h.modifyNode (fun _ _ hb => .inl hb) fun _ => rfl)
    (fun _ _ _ h => h.of_nodes rfl h.full) h

omit h in
theorem property?_setProperty (g : Graph Catalog) (id i : NodeId) (name other : String)
    (value : Value) : (g.setProperty id name value).property? i other = g.property? i other ∨
      i = id ∧ other = name ∧ (g.setProperty id name value).property? i other = some value := by
  unfold property?
  rw [show (g.setProperty id name value).nodes.get? i = _ from get?_modifyNode ..]
  split
  · next hi =>
    cases g.nodes.get? i with
    | none => exact .inl rfl
    | some n =>
      show (n.properties.insert name value).get? other = n.properties.get? other ∨ _ ∧ _ ∧
        (n.properties.insert name value).get? other = _
      rw [Assoc.get?_insert]
      split
      · next ho => exact .inr ⟨hi, ho, rfl⟩
      · exact .inl rfl
  · exact .inl rfl

/-- A property from which a layer takes extents may be written if it takes positive ones. -/
theorem setProperty {id : NodeId} {name : String} {value : Value}
    (hv : base.Suits id name value) : base.Tuned (g.setProperty id name value) where
  behaviors i b hi := by
    refine h.behaviors i b (Eq.trans ?_ hi)
    unfold behavior?
    rw [show (g.setProperty id name value).nodes.get? i = _ from get?_modifyNode ..]
    split
    · cases g.nodes.get? i <;> rfl
    · rfl
  bounded i rule hi := by
    cases hname : rule.sizedBy with
    | none =>
      refine (h.bounded i rule hi).congr fun other ho => ?_
      rw [hname] at ho
      cases ho
    | some other =>
      have hall : ∀ {attrs : Attributes} {v : Option Value}, rule.Bounded attrs → attrs other = v →
          (g.setProperty id name value).property? i other = v →
          rule.Bounded ((g.setProperty id name value).property? i) := by
        intro attrs v hb hold hnew
        refine hb.congr fun other' ho => ?_
        rw [hname] at ho
        cases ho
        exact hnew.trans hold.symm
      rcases property?_setProperty g id i name other value with hold | ⟨rfl, rfl, hnew⟩
      · exact hall (h.bounded i rule hi) rfl hold
      · exact hall (hv rule hi hname) rfl hnew
  full := h.full

theorem declareProperty {id : NodeId} {info : PropertyInfo}
    (hv : base.Suits id info.name info.initial) :
    base.Tuned (g.modifyNode id (·.declareProperty info)) := by
  let f : Node Catalog → Node Catalog := fun n => { n with propertyInfos := n.propertyInfos ++ [info] }
  have ht : base.Tuned ((g.setProperty id info.name info.initial).modifyNode id f) :=
    (h.setProperty hv).modifyNode (fun _ _ hb => .inl hb) fun _ => rfl
  have hn : (g.modifyNode id (·.declareProperty info)).nodes =
      ((g.setProperty id info.name info.initial).modifyNode id f).nodes := by
    have hm := Assoc.modify_modify g.nodes id (fun n => n.setProperty info.name info.initial) f
    exact hm.symm
  exact ht.of_nodes hn ht.full

end Tuned

/-- What the engine does between two bodies does no harm. -/
theorem even_tuned (base : Graph Catalog) : Even base.Tuned where
  marked g k h := by
    refine h.of_nodes rfl fun k' l' v hl' hv => ?_
    obtain ⟨-, hl⟩ | ⟨-, l, hl, rfl⟩ := Assoc.exists_of_get?_modify hl'
    · exact h.full k' l' v hl hv
    · exact h.full k l v hl hv
  counted _ _ _ _ h := h.of_nodes rfl h.full
  stopped := by
    intro τ s h
    have hall : ∀ (ids : List NodeId) (s : Session Catalog τ), base.Tuned s.graph →
        base.Tuned (s.tellAll ids .stopped).graph := by
      intro ids
      induction ids with
      | nil => exact fun s h => h
      | cons id ids ih =>
        intro s h
        refine ih _ ?_
        rw [s.graph_tell id .stopped fun _ => rfl]
        exact h
    unfold Session.stop
    split
    · exact hall _ _ (h.of_nodes rfl h.full)
    · exact h
  update _ h := h.updateOrder

end Graph

/-! ## Bodies -/

namespace Engine

variable {base : Graph Catalog}

section Bodies

variable (run : Runner Catalog Unit)

/-- What comes of writing a computed shape, if a computed one is full. -/
theorem completes_writeShape {computed : Except NodeError Shape.Dims}
    (h : ∀ shape, computed = .ok shape → Shape.Full shape) (id : NodeId) :
    Completes base.Tuned ((Body.after computed fun shape => Body.write id 0 (.ofInts shape)).run
      (check Call.writesFull (perform run))) := by
  intro s hs
  cases computed with
  | error e => exact ⟨.error e, s, rfl, hs⟩
  | ok shape =>
    have hfull : (Value.ofInts shape).isFull = true := Value.isFull_ofInts.2 (h shape rfl)
    refine ⟨.ok (), s.edit fun g => g.setOutputData id 0 (.ofInts shape), ?_,
      hs.setOutputData hfull id 0⟩
    have hcall : (Call.edit (.setOutputData id 0 (.ofInts shape)) : Call Catalog).writesFull = true :=
      hfull
    show (check Call.writesFull (perform run) (.edit (.setOutputData id 0 (.ofInts shape))) s).bind _ = _
    unfold check
    rw [if_pos hcall]
    rfl

omit run in
theorem inputData?_full {g : Graph Catalog} (hg : base.Tuned g) {id : NodeId} {slot : Nat} {v : Value}
    (h : g.inputData? id slot = some v) : v.isFull = true := by
  obtain ⟨l, hl, hv⟩ := Option.bind_eq_some_iff.1 h
  obtain ⟨i, -, hl⟩ := Option.bind_eq_some_iff.1 hl
  obtain ⟨k, -, hl⟩ := Option.bind_eq_some_iff.1 hl
  exact hg.full k l v hl hv

/-- The body of a source or a layer writes full shapes only. -/
theorem completes_execute {id : NodeId} {b : Catalog} (hb : base.behavior? id = some b)
    (hshapes : b.shapes = true) :
    Completes base.Tuned ((b.execute id none).run (check Call.writesFull (perform run))) := by
  intro s hs
  cases b with
  | source rank => exact completes_writeShape run (fun _ => Catalog.sourceShape_full) id s hs
  | layer rule =>
    show ∃ a s', (Catalog.mapShape rule id).run _ s = _ ∧ _
    unfold Catalog.mapShape
    rw [Body.run_graph_bind]
    cases hdata : s.graph.inputData? id 0 with
    | none => exact ⟨.ok (), s, rfl, hs⟩
    | some v =>
      refine completes_writeShape run (fun shape hshape => ?_) id s hs
      unfold Catalog.layerShape at hshape
      split at hshape
      · cases hshape
      · next input hinput =>
        have hfull := Value.full_of_isFull (inputData?_full hs hdata) hinput
        exact (Shape.Rule.output_full hfull hshape).2 (hs.bounded id rule hb)
  | _ => cases hshapes

end Bodies

/-- Entering a node of a pipeline writes full shapes only. -/
theorem completes_enter (hshapes : ∀ id b, base.behavior? id = some b → b.shapes = true)
    (depth : Nat) (id : NodeId) : Completes base.Tuned
      (enter (checkedRunner Call.writesFull (depth + 1)) id (.execute none)) := by
  intro s hs
  cases hb : s.graph.behavior? id with
  | none => exact ⟨none, s, enter_busy hb _, hs⟩
  | some b =>
    have hbase := hs.behaviors id b hb
    have hcomputes : b.computes = true := by
      have := hshapes id b hbase
      cases b <;> first | rfl | cases this
    have hdone := completes_execute (checkedRunner Call.writesFull depth) hbase (hshapes id b hbase)
    obtain ⟨ending, t, hrun, ht⟩ :=
      hdone ((s.edit fun g => g.detach id).log (.began id b (.execute none))) (hs.detach id)
    have hbody : checkedRunner Call.writesFull (depth + 1) (Behavior.body b id (.execute none))
        ((s.edit fun g => g.detach id).log (.began id b (.execute none))) =
          some (⟨b, ending⟩, t) := by
      show Body.run _ ((b.body id (.execute none)).bind _) _ = _
      rw [Catalog.body_of_computes hcomputes, Body.run_bind, Body.run_bind]
      show (((b.execute id none).run _ _).bind _).bind _ = _
      rw [hrun]
      rfl
    refine ⟨_, _, enter_idle hb hbody, ?_⟩
    unfold restore
    split
    · exact ht.attach hbase
    · exact ht

end Engine

/-! ## Programs -/

/-- What performs the calls of a program answers those that a contract allows, and abides by it. -/
def Contract.Served (K : Contract B) (perform : (c : Call B) → Act B σ c.Answer) : Prop :=
  ∀ c, K.allows c → ∀ s, K.keeps s.graph →
    ∃ a s', perform c s = some (a, s') ∧ K.promises c a ∧ K.keeps s'.graph

/-- A program that obeys a contract is answered when its calls are: induction on the program. -/
theorem Body.completes_run {K : Contract B} {perform : (c : Call B) → Act B σ c.Answer}
    (hc : K.Served perform) {p : Body B σ α} (hp : p.Obeys K) : Completes K.keeps (p.run perform) := by
  induction p with
  | done a => exact .pure a
  | look next ih => exact fun s hs => ih _ _ (hp _ _ hs) s hs
  | keep change next ih => exact fun s hs => ih hp _ hs
  | note remark next ih => exact fun s hs => ih hp _ hs
  | call c next ih =>
    intro s hs
    obtain ⟨a, t, ha, hpromise, ht⟩ := hc c hp.1 s hs
    obtain ⟨b, u, hb, hu⟩ := ih a (hp.2 a hpromise) t ht
    refine ⟨b, u, ?_, hu⟩
    show (perform c s).bind _ = _
    rw [ha]
    exact hb

namespace Engine

variable {base : Graph Catalog}

theorem tuned_storeProperty {s : Session Catalog σ} (hs : base.Tuned s.graph) {id : NodeId}
    {name : String} {value : Value} (hv : base.Suits id name value) :
    base.Tuned (s.storeProperty id name value).graph := by
  unfold Session.storeProperty
  split
  · have ht := hs.setProperty hv
    exact ht.of_nodes rfl ht.full
  · exact hs

theorem tuned_setProperty {s : Session Catalog σ} (hs : base.Tuned s.graph) {id : NodeId}
    {name : String} {value : Value} (hv : base.Suits id name value) :
    base.Tuned (s.setProperty id name value).2.graph := by
  have htell : base.Tuned (s.tell id (.propertyOffered name value)).graph := by
    rw [s.graph_tell id _ fun _ => rfl]
    exact hs
  unfold Session.setProperty
  split
  · show base.Tuned (ite _ _ _ : Session Catalog σ).graph
    split
    · exact htell
    · exact tuned_storeProperty htell hv
  · exact hs

/-- Steps and edits of properties answer, and all that is written is full. -/
theorem served_tuning (hshapes : ∀ id b, base.behavior? id = some b → b.shapes = true)
    (depth : Nat) : (tuning base).Served
      (check Call.writesFull (perform (checkedRunner Call.writesFull (depth + 1)))) := by
  intro c hc s hs
  cases c with
  | runStep passes propagate =>
    obtain ⟨a, t, ha, ht⟩ := completes_runStep base.even_tuned (completes_enter hshapes depth) passes
      propagate s hs
    exact ⟨a, t, ha, trivial, ht⟩
  | edit e =>
    cases e with
    | setProperty id name value => exact ⟨_, _, rfl, trivial, tuned_setProperty hs hc⟩
    | storeProperty id name value => exact ⟨_, _, rfl, trivial, tuned_storeProperty hs hc⟩
    | declareProperty id info => exact ⟨_, _, rfl, trivial, hs.declareProperty hc⟩
    | _ => exact hc.elim
  | _ => exact hc.elim

/-- A source or a layer for which there is no shape fails, and writes nothing. -/
theorem runBody_refused (depth : Nat) {s : Session Catalog Unit} {id : NodeId} {n : Node Catalog}
    {b : Catalog} (hn : s.graph.nodes.get? id = some n) (hc : n.Computes b)
    (hfed : ∀ rule, b = .layer rule → (s.graph.inputData? id 0).isSome = true) {e : NodeError}
    (he : s.graph.result b id = .error e) :
    ∃ s', runBody (runner (depth + 1)) id none s = some (.error (.execution id e), s') ∧
      s'.graph = s.graph := by
  obtain ⟨s', hrun, hs'⟩ := runBody_fires depth hn hc hfed
  rw [he] at hrun hs'
  exact ⟨s', hrun, hs'⟩

/-- Whatever steps a pipeline takes and whatever properties are edited in between: as long as the
extents are positive that layers take from attributes as they are, the run answers and writes full
shapes only.  A node for which there is no shape fails.  And there is no weaker condition, for
behind a full shape a layer gives a full one exactly if those extents are positive. -/
theorem pipeline_writes_full {s : Session Catalog Unit} (hs : s.graph.Pipeline)
    (hb : s.graph.Bounded) (depth : Nat) {p : Body Catalog Unit α} (hp : p.Obeys (tuning s.graph)) :
    (∃ a s', execChecked Call.writesFull (depth + 1) p s = some (a, s') ∧
      exec (depth + 1) p s = some (a, s')) ∧
    (∀ (t : Session Catalog Unit) id n b e, t.graph.nodes.get? id = some n → n.Computes b →
      (∀ rule, b = .layer rule → (t.graph.inputData? id 0).isSome = true) →
      t.graph.result b id = .error e →
      ∃ t', runBody (runner (depth + 1)) id none t = some (.error (.execution id e), t') ∧
        t'.graph = t.graph) ∧
    ∀ (rule : Shape.Rule) shape attrs out, Shape.Full shape → rule.output shape attrs = .ok out →
      (Shape.Full out ↔ rule.Bounded attrs) := by
  obtain ⟨a, s', hrun, -⟩ :=
    Body.completes_run (served_tuning hs.shapes depth) hp s (hs.tuned hb)
  refine ⟨⟨a, s', hrun, extends_execChecked Call.writesFull (depth + 1) p s _ hrun⟩, ?_, ?_⟩
  · intro t id n b e hn hc hfed he
    exact runBody_refused depth hn hc hfed he
  · intro rule shape attrs out hshape hout
    exact Shape.Rule.output_full hshape hout

end Engine

/-! ## A pipeline of two nodes -/

/-- Links a source to a linear layer with so many features, in a batch that stays open. -/
def funnel (features : Int) : Body Catalog Unit (Except ConnectionError LinkId) := do
  Body.edit .beginBatch
  let _ ← Body.addNew "tensor/Tensor2d"
  let _ ← Body.addNew "layer/Linear"
  let _ ← Body.edit (.setProperty ⟨2⟩ "out_features" (.int features))
  Body.edit (.tryConnect ⟨1⟩ 0 ⟨2⟩ 0)

/-- The graph with its order brought up to date when the source is in front of the layer. -/
def Graph.inLine (g : Graph B) : Graph B :=
  { g with order := [⟨1⟩, ⟨2⟩], executable := [⟨1⟩, ⟨2⟩], stale := false }

/-- Takes steps, with other features in between. -/
def refit (features : Int) : Body Catalog Unit (Except GraphError Unit) := do
  let _ ← Body.perform (.runStep 1 true)
  let _ ← Body.edit (.setProperty ⟨2⟩ "out_features" (.int features))
  Body.perform (.runStep 3 true)

theorem funnel_obeys {r : Registry Catalog} (hr : r.Fresh) (features : Int) :
    (funnel features).Obeys (linking r) := by
  refine ⟨trivial, fun _ _ => ?_⟩
  refine (Body.obeys_addNew fun t ht => hr "tensor/Tensor2d" t ht).seq fun _ => ?_
  refine (Body.obeys_addNew fun t ht => hr "layer/Linear" t ht).seq fun _ => ?_
  exact ⟨trivial, fun _ _ => ⟨trivial, fun _ _ => trivial⟩⟩

section Values

variable {g : Graph Catalog}

theorem Graph.pipeline_of_values (hn : ∀ n ∈ g.nodes.values, n.behavior.all Catalog.shapes = true)
    (hl : ∀ l ∈ g.links.values, l.data.isNone = true) : g.Pipeline where
  shapes id b hb := by
    obtain ⟨n, hget, hb⟩ := Option.bind_eq_some_iff.1 hb
    have hall := hn n (Assoc.mem_values_of_get? hget)
    rw [hb] at hall
    exact hall
  empty k l hget := Option.isNone_iff_eq_none.1 (hl l (Assoc.mem_values_of_get? hget))

/-- Whether a node takes positive extents from its properties, if it takes any as they are. -/
def Node.takesPositive (n : Node Catalog) : Bool :=
  n.behavior.all fun
    | .layer rule => decide (rule.Bounded n.property?)
    | _ => true

theorem Graph.bounded_of_values (hn : ∀ n ∈ g.nodes.values, n.takesPositive = true) :
    g.Bounded := by
  intro id rule hb
  obtain ⟨n, hget, hb⟩ := Option.bind_eq_some_iff.1 hb
  have hall := hn n (Assoc.mem_values_of_get? hget)
  unfold Node.takesPositive at hall
  rw [hb] at hall
  rw [show g.property? id = n.property? from funext fun name => property_of_node hget name]
  exact of_decide_eq_true hall

end Values

/-- A layer with three features is in order, one without features is not. -/
theorem funnel_evaluates (features : Int) (hf : features = 3 ∨ features = 0) :
    ((Engine.exec 1 (funnel features)
      (⟨Graph.empty (Catalog.registry id) .default, [], ()⟩ : Session Catalog Unit)).any fun e =>
        decide (∀ n ∈ e.2.graph.nodes.values, n.behavior.all Catalog.shapes = true) &&
        decide (∀ l ∈ e.2.graph.links.values, l.data.isNone = true) &&
        (e.2.graph.nodes.values.all Node.takesPositive == decide (features = 3)) &&
        (Engine.exec 1 (Body.perform (.runStep 1 true)) (e.2.edit Graph.inLine)).any fun r =>
          r.1.toBool && (r.2.graph.outputData? ⟨2⟩ 0).any fun v =>
            v.same (.ofInts [128, features]) && (v.isFull == decide (features = 3))) = true := by
  rcases hf with rfl | rfl
  · decide +kernel
  · decide +kernel

/-- The pipeline writes full shapes only, also after its layer was given five features. -/
theorem funnel_writes_full : ∃ s : Session Catalog Unit, s.graph.Pipeline ∧ s.graph.Bounded ∧
    (refit 5).Obeys (tuning s.graph) ∧
    ∃ a s', Engine.execChecked Call.writesFull 1 (refit 5) s = some (a, s') ∧
      Engine.exec 1 (refit 5) s = some (a, s') := by
  obtain ⟨⟨made, s⟩, hmade, hfacts⟩ := (Option.any_eq_true _ _).1 (funnel_evaluates 3 (.inl rfl))
  simp only [Bool.and_eq_true, decide_eq_true_eq] at hfacts
  obtain ⟨⟨⟨hnodes, hlinks⟩, hpositive⟩, -⟩ := hfacts
  have hs : s.graph.Pipeline := Graph.pipeline_of_values hnodes hlinks
  have hb : s.graph.Bounded := by
    apply Graph.bounded_of_values
    simpa using hpositive
  have hsuits : s.graph.Suits ⟨2⟩ "out_features" (.int 5) := by
    intro rule _ hsized
    cases rule with
    | linear => decide +kernel
    | convolution | adaptivePool => exact absurd (Option.some.inj hsized) (by decide)
    | _ => cases hsized
  have hp : (refit 5).Obeys (tuning s.graph) :=
    ⟨trivial, fun _ _ => ⟨hsuits, fun _ _ => ⟨trivial, fun _ _ => trivial⟩⟩⟩
  exact ⟨s, hs, hb, hp, (Engine.pipeline_writes_full hs hb 0 hp).1⟩

/-- In a consistent pipeline that carries nothing yet, a layer without features writes a shape with
an empty dimension, and the step succeeds. -/
theorem emptied_spreads : ∃ s t : Session Catalog Unit, s.graph.Consistent ∧ s.graph.Pipeline ∧
    Engine.exec 1 (Body.perform (.runStep 1 true)) s = some (.ok (), t) ∧
    ∃ v, t.graph.outputData? ⟨2⟩ 0 = some v ∧ v.same (.ofInts [128, 0]) = true ∧
      v.isFull = false := by
  obtain ⟨⟨made, s⟩, hmade, hfacts⟩ := (Option.any_eq_true _ _).1 (funnel_evaluates 0 (.inr rfl))
  simp only [Bool.and_eq_true, decide_eq_true_eq] at hfacts
  obtain ⟨⟨⟨hnodes, hlinks⟩, -⟩, hrun⟩ := hfacts
  obtain ⟨⟨answer, t⟩, hstep, hfacts⟩ := (Option.any_eq_true _ _).1 hrun
  simp only [Bool.and_eq_true] at hfacts
  obtain ⟨hanswer, hdata⟩ := hfacts
  obtain ⟨v, hv, hvalue⟩ := (Option.any_eq_true _ _).1 hdata
  simp only [Bool.and_eq_true] at hvalue
  have hfresh : (Catalog.registry id : Registry Catalog).Fresh := Catalog.fresh_registry id
  have hconsistent : s.graph.Consistent :=
    (Engine.keeps_exec (Engine.lawful_linking _) (Catalog.obeys_linking _) (funnel_obeys hfresh 0) 1
      ⟨Graph.empty (Catalog.registry id) .default, [], ()⟩ (Graph.tidy_empty _ _) _ s hmade).1
  refine ⟨s.edit Graph.inLine, t, ?_, Graph.pipeline_of_values hnodes hlinks, ?_, v, hv,
    hvalue.1, ?_⟩
  · refine hconsistent.of_wiring ?_
    rfl
  · cases answer with
    | error e => cases hanswer
    | ok done => exact hstep
  · simpa using hvalue.2

end Dataflow
