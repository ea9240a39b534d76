/-
  What the body of a computing node does.

  A node `Computes` when its behaviour is one of those that `Catalog.value` describes, and its
  slots are those that the behaviour works with.  To run its body is to `fire` it: the value that
  it gives for the data on its links goes to its output and the links that leave it, or, at a
  watch, to a property unless it is there already.  A node that fails changes nothing.

  The behaviour is out of the node while the body runs, but what comes of it is the same as if it
  had stayed in.
-/

import Dataflow.Proofs.Meaning
import Dataflow.Proofs.Reshaping
import Dataflow.Proofs.Run

namespace Dataflow

variable {B σ α β : Type}

/-! ## Bodies in sequence -/

theorem Body.run_bind {perform : (c : Call B) → Act B σ c.Answer} (p : Body B σ α)
    (f : α → Body B σ β) : (p.bind f).run perform = p.run perform >>= fun a => (f a).run perform := by
  induction p with
  | done a => exact (pure_bind ..).symm
  | look next ih =>
    show (get >>= fun s => ((next s.graph s.host).bind f).run perform) = (get >>= _) >>= _
    rw [bind_assoc]
    simp only [ih]
  | keep change next ih =>
    show (modify _ >>= fun _ => (next.bind f).run perform) = (modify _ >>= _) >>= _
    rw [bind_assoc]
    simp only [ih]
  | note remark next ih =>
    show (modify _ >>= fun _ => (next.bind f).run perform) = (modify _ >>= _) >>= _
    rw [bind_assoc]
    simp only [ih]
  | call c next ih =>
    show (perform c >>= fun a => ((next a).bind f).run perform) = (perform c >>= _) >>= _
    rw [bind_assoc]
    simp only [ih]

theorem Body.run_graph_bind {perform : (c : Call B) → Act B σ c.Answer} (f : Graph B → Body B σ β)
    (s : Session B σ) : (Body.graph >>= f).run perform s = (f s.graph).run perform s := rfl

/-! ## Computing nodes -/

/-- Whether a behaviour only computes: a value, from properties and what feeds the node. -/
def Catalog.computes : Catalog → Bool
  | .constant | .watch | .sum | .source _ | .layer _ => true
  | _ => false

/-- The number of outputs that a behaviour writes to. -/
def Catalog.results : Catalog → Nat
  | .watch => 0
  | _ => 1

/-- A node that only computes, has its turn in every pass, and has the slots it works with. -/
structure Node.Computes (n : Node Catalog) (b : Catalog) : Prop where
  behavior : n.behavior = some b
  computes : b.computes = true
  runs : n.canExecute = true
  turn : n.mode = .always
  operands : b = .sum → n.findInput? "A" = some 0 ∧ n.findInput? "B" = some 1
  outputs : n.outputs.length = b.results

theorem Node.Computes.transfer {n n' : Node Catalog} {b : Catalog} (hc : n.Computes b)
    (hp : n'.pins = n.pins) (hr : n'.role = n.role) : n'.Computes b where
  behavior := (congrArg Role.behavior hr).trans hc.behavior
  computes := hc.computes
  runs := (congrArg Role.canExecute hr).trans hc.runs
  turn := (congrArg Role.mode hr).trans hc.turn
  operands hb := by
    have hf : ∀ name, n'.findInput? name = n.findInput? name := by
      intro name
      have hi : (n'.inputs.map Input.name).findIdx? (· = name) =
          (n.inputs.map Input.name).findIdx? (· = name) :=
        congrArg (fun r : Role => r.inputs.findIdx? (· = name)) hr
      rw [List.findIdx?_map, List.findIdx?_map] at hi
      exact hi
    rw [hf, hf]
    exact hc.operands hb
  outputs := by
    have ho : (n'.outputs.map Output.links).length = (n.outputs.map Output.links).length :=
      congrArg (fun p : Pins => p.outputs.length) hp
    rw [List.length_map, List.length_map] at ho
    exact ho.trans hc.outputs

namespace Graph

/-- A consistent graph of computing nodes in which every layer is linked. -/
structure Ready (g : Graph Catalog) : Prop where
  consistent : g.Consistent
  computes : ∀ id n, g.nodes.get? id = some n → ∃ b, n.Computes b
  fed : ∀ id rule, g.behavior? id = some (.layer rule) → (g.inputLink? id 0).isSome = true

theorem Ready.alike {g g' : Graph Catalog} (hg : g.Ready) (h : g.Alike g') : g'.Ready where
  consistent := hg.consistent.of_wiring h.wiring
  computes id n' hn' := by
    obtain ⟨n, hn, hp, hr⟩ := h.node hn'
    obtain ⟨b, hc⟩ := hg.computes id n hn
    exact ⟨b, hc.transfer hp hr⟩
  fed id rule hb := by
    rw [(h.sameAt id).behavior] at hb
    have hl := congrArg Option.isSome (h.inputLink? id 0)
    rw [Option.isSome_map, Option.isSome_map] at hl
    exact hl.trans (hg.fed id rule hb)

/-- What is left behind when a node gives a value. -/
def fire (g : Graph Catalog) (b : Catalog) (id : NodeId) (v : Value) : Graph Catalog :=
  match b with
  | .watch =>
    if Catalog.holdsAlready (g.property? id "value") v then g
    else (g.setProperty id "value" v).bump
  | _ => g.setOutputData id 0 v

/-- What a node gives for the data on the links that feed it. -/
def result (g : Graph Catalog) (b : Catalog) (id : NodeId) : Except NodeError Value :=
  b.value (g.property? id) fun slot => (g.inputData? id slot).map .ok

/-- The graph after a node gave a value or failed. -/
def afterwards (g : Graph Catalog) (b : Catalog) (id : NodeId) : Except NodeError Value → Graph Catalog
  | .ok v => g.fire b id v
  | .error _ => g

/-! ## A node without its behaviour -/

section Detached

variable {g : Graph B} {id : NodeId} {n : Node B}

theorem get?_detach (hn : g.nodes.get? id = some n) :
    (g.detach id).nodes.get? id = some { n with behavior := none } := by
  show (g.nodes.modify id _).get? id = _
  rw [Assoc.get?_modify, if_pos rfl, hn]
  rfl

theorem property?_detach (g : Graph B) (id id' : NodeId) (name : String) :
    (g.detach id).property? id' name = g.property? id' name :=
  bind_modifyNode_of_eq (f := fun n => { n with behavior := none }) (fun _ => rfl) id'

theorem inputData?_detach (g : Graph B) (id id' : NodeId) (slot : Nat) :
    (g.detach id).inputData? id' slot = g.inputData? id' slot := by
  have hi : (g.detach id).input? id' slot = g.input? id' slot := by
    apply input?_modifyNode
    exact fun n => rfl
  show (((g.detach id).input? id' slot).bind _).bind _ = ((g.input? id' slot).bind _).bind _
  rw [hi]
  rfl

theorem result_detach (g : Graph Catalog) (b : Catalog) (id id' : NodeId) :
    (g.detach id).result b id' = g.result b id' := by
  have hprop : (g.detach id).property? id' = g.property? id' := by
    funext name
    exact g.property?_detach id id' name
  have hdata : (g.detach id).inputData? id' = g.inputData? id' := by
    funext slot
    exact g.inputData?_detach id id' slot
  unfold result
  rw [hprop, hdata]

theorem modifyLinks_detach (f : Link → Link) (ks : List LinkId) (g : Graph B) (id : NodeId) :
    (g.detach id).modifyLinks ks f = (g.modifyLinks ks f).detach id := by
  induction ks generalizing g with
  | nil => rfl
  | cons k ks ih => exact ih (g.modifyLink k f)

theorem output?_detach (g : Graph B) (id id' : NodeId) (slot : Nat) :
    (g.detach id).output? id' slot = g.output? id' slot := by
  apply output?_modifyNode
  exact fun n => rfl

variable {b : B} (hn : g.nodes.get? id = some n) (hb : n.behavior = some b)
include hn hb

/-- A change of the node that leaves the behaviour alone commutes with taking it out. -/
theorem attach_modifyNode_detach {f : Node B → Node B}
    (hf : ∀ b, ({ f { n with behavior := none } with behavior := some b } : Node B) =
      f { n with behavior := some b }) :
    ((g.detach id).modifyNode id f).attach id b = g.modifyNode id f := by
  have hm : ((g.nodes.modify id fun n => { n with behavior := none }).modify id f).modify id
      (fun n => { n with behavior := some b }) = g.nodes.modify id f := by
    rw [Assoc.modify_modify, Assoc.modify_modify]
    apply Assoc.modify_congr
    intro m hm
    cases Option.some.inj (hm.symm.trans hn)
    rw [hf, ← hb]
  exact congrArg (fun nodes => ({ g with nodes } : Graph B)) hm

theorem attach_detach : (g.detach id).attach id b = g := by
  have hm : (g.nodes.modify id fun n => { n with behavior := none }).modify id
      (fun n => { n with behavior := some b }) = g.nodes := by
    rw [Assoc.modify_modify]
    apply Assoc.modify_eq_self
    intro m hm
    cases Option.some.inj (hm.symm.trans hn)
    rw [← hb]
  exact congrArg (fun nodes => ({ g with nodes } : Graph B)) hm

end Detached

theorem get?_afterwards {g : Graph Catalog} {id : NodeId} {n : Node Catalog} {b : Catalog}
    (hn : g.nodes.get? id = some n) (r : Except NodeError Value) :
    ∃ n', (g.afterwards b id r).nodes.get? id = some n' ∧ n'.behavior = n.behavior := by
  have hmod : ∀ {g : Graph Catalog} {f : Node Catalog → Node Catalog},
      g.nodes.get? id = some n → (∀ n, (f n).behavior = n.behavior) →
      ∃ n', (g.modifyNode id f).nodes.get? id = some n' ∧ n'.behavior = n.behavior := by
    intro g f hn hf
    refine ⟨f n, ?_, hf n⟩
    rw [get?_modifyNode, if_pos rfl, hn]
    rfl
  have hset : ∀ v, ∃ n', (g.setOutputData id 0 v).nodes.get? id = some n' ∧
      n'.behavior = n.behavior := by
    intro v
    unfold setOutputData
    split
    · refine hmod ?_ fun n => rfl
      rw [nodes_modifyLinks]
      exact hn
    · exact ⟨n, hn, rfl⟩
  cases r with
  | error e => exact ⟨n, hn, rfl⟩
  | ok v =>
    cases b with
    | watch =>
      show ∃ n', (ite _ _ _ : Graph Catalog).nodes.get? id = some n' ∧ _
      split
      · exact ⟨n, hn, rfl⟩
      · exact hmod hn fun n => rfl
    | _ => exact hset v

/-- What a body leaves behind does not depend on the behaviour being in the node. -/
theorem attach_fire_detach {g : Graph Catalog} {id : NodeId} {n : Node Catalog} {b : Catalog}
    (hn : g.nodes.get? id = some n) (hb : n.behavior = some b) (r : Except NodeError Value) :
    ((g.detach id).afterwards b id r).attach id b = g.afterwards b id r := by
  cases r with
  | error e => exact attach_detach hn hb
  | ok v =>
    have hset : ((g.detach id).setOutputData id 0 v).attach id b = g.setOutputData id 0 v := by
      unfold setOutputData
      rw [output?_detach]
      cases g.output? id 0 with
      | none => exact attach_detach hn hb
      | some o =>
        show (((g.detach id).modifyLinks o.links _).modifyNode id _).attach id b = _
        rw [modifyLinks_detach]
        have hn' : (g.modifyLinks o.links fun l => { l with data := some v }).nodes.get? id = some n := by
          rw [nodes_modifyLinks]
          exact hn
        exact attach_modifyNode_detach hn' hb fun b => rfl
    cases b with
    | watch =>
      show (if Catalog.holdsAlready ((g.detach id).property? id "value") v then g.detach id
        else (((g.detach id).setProperty id "value" v).bump)).attach id .watch =
          if Catalog.holdsAlready (g.property? id "value") v then g
          else (g.setProperty id "value" v).bump
      rw [property?_detach]
      split
      · exact attach_detach hn hb
      · exact congrArg bump (attach_modifyNode_detach hn hb fun b => rfl)
    | _ => exact hset

end Graph

/-! ## Bodies -/

namespace Catalog

section Run

variable {perform : (c : Call Catalog) → Act Catalog Unit c.Answer}
  (hp : ∀ e s, perform (.edit e) s = some (e.apply s))
include hp

/-- A node that computes a value and writes it to its output. -/
theorem run_write {α : Type} {computed : Except NodeError α} {f : α → Value} {b : Catalog}
    {id : NodeId} {s : Session Catalog Unit} (hb : b ≠ .watch)
    (hr : s.graph.result b id = computed.map f) :
    ∃ s', (Body.after computed fun x => Body.write id 0 (f x)).run perform s =
        some ((s.graph.result b id).map fun _ => (), s') ∧
      s'.graph = s.graph.afterwards b id (s.graph.result b id) := by
  have hf : ∀ v, s.graph.fire b id v = s.graph.setOutputData id 0 v := by
    intro v
    cases b with
    | watch => exact absurd rfl hb
    | _ => rfl
  rw [hr]
  cases computed with
  | error e => exact ⟨s, rfl, rfl⟩
  | ok x =>
    refine ⟨s.edit fun g => g.setOutputData id 0 (f x), ?_, (hf (f x)).symm⟩
    show (perform (.edit (.setOutputData id 0 (f x))) s).bind _ = _
    rw [hp]
    rfl

theorem run_showInput (id : NodeId) (s : Session Catalog Unit)
    (hid : s.graph.nodes.contains id = true) :
    ∃ s', (showInput id).run perform s = some ((), s') ∧
      s'.graph = s.graph.fire .watch id ((s.graph.inputData? id 0).getD .null) := by
  show ∃ s', (Body.run perform (ite _ _ _)) s = some ((), s') ∧ _ = ite _ _ _
  cases holdsAlready (s.graph.property? id "value") ((s.graph.inputData? id 0).getD .null) with
  | true => exact ⟨s, rfl, rfl⟩
  | false =>
    refine ⟨s.storeProperty id "value" ((s.graph.inputData? id 0).getD .null), ?_, ?_⟩
    · show (perform (.edit (.storeProperty id "value" _)) s).bind _ = _
      rw [hp]
      rfl
    · unfold Session.storeProperty
      rw [if_pos hid]
      rfl

omit hp in
theorem operand_eq {g : Graph Catalog} {id : NodeId} {n : Node Catalog}
    (hn : g.nodes.get? id = some n) {name : String} {slot : Nat}
    (hs : n.findInput? name = some slot) : numberOr0 name (g.inputOrProperty? id name) =
      operand (g.property? id) name ((g.inputData? id slot).map .ok) := by
  have hf : g.inputOrProperty? id name = (g.inputData? id slot).or (g.property? id name) := by
    show (g.nodes.get? id).bind (fun n =>
      ((n.findInput? name).bind (g.inputData? id)).or (n.property? name)) =
        (g.inputData? id slot).or ((g.nodes.get? id).bind (·.property? name))
    rw [hn]
    show ((n.findInput? name).bind _).or _ = _
    rw [hs]
    rfl
  rw [hf]
  cases g.inputData? id slot <;> rfl

/-- The body of a computing node leaves behind what firing the node does. -/
theorem run_execute {b : Catalog} (hb : b.computes = true) {id : NodeId} {s : Session Catalog Unit}
    {payload : Option Value} {n : Node Catalog} (hn : s.graph.nodes.get? id = some n)
    (hsum : b = .sum → n.findInput? "A" = some 0 ∧ n.findInput? "B" = some 1)
    (hfed : ∀ rule, b = .layer rule → (s.graph.inputData? id 0).isSome = true) :
    ∃ s', (b.execute id payload).run perform s =
        some ((s.graph.result b id).map fun _ => (), s') ∧
      s'.graph = s.graph.afterwards b id (s.graph.result b id) := by
  cases b with
  | constant => exact run_write hp (b := .constant) Catalog.noConfusion rfl
  | source rank => exact run_write hp (b := .source rank) Catalog.noConfusion rfl
  | sum =>
    -- the operands are looked up by name: they are the first two inputs
    obtain ⟨hA, hB⟩ := hsum rfl
    refine run_write hp (b := .sum) Catalog.noConfusion ?_
    unfold total
    rw [operand_eq hn hA, operand_eq hn hB]
    show (do
      let x ← operand _ "A" ((s.graph.inputData? id 0).map .ok)
      let y ← operand _ "B" ((s.graph.inputData? id 1).map .ok)
      return Value.ofFloat (0.0 + x + y)) = _
    cases operand (s.graph.property? id) "A" ((s.graph.inputData? id 0).map .ok) with
    | error e => rfl
    | ok x => cases operand (s.graph.property? id) "B" ((s.graph.inputData? id 1).map .ok) <;> rfl
  | layer rule =>
    obtain ⟨v, hv⟩ := Option.isSome_iff_exists.1 (hfed rule rfl)
    have hrun : ((layer rule).execute id payload : Body Catalog Unit Ending).run perform s =
        (Body.after (layerShape rule (attributesOf s.graph id) v) fun shape =>
          Body.write id 0 (.ofInts shape)).run perform s := by
      show (mapShape rule id).run perform s = _
      unfold mapShape
      rw [Body.run_graph_bind, hv]
    rw [hrun]
    refine run_write hp (b := .layer rule) Catalog.noConfusion ?_
    show (((s.graph.inputData? id 0).map Except.ok).getD (.ok .null) >>= fun v => _) = _
    rw [hv]
    show (layerShape rule (s.graph.property? id) v >>= fun shape => _) =
      (layerShape rule (s.graph.property? id) v).map Value.ofInts
    cases layerShape rule (s.graph.property? id) v <;> rfl
  | watch =>
    have hid : s.graph.nodes.contains id = true := by
      rw [Assoc.contains_eq_isSome, hn]
      rfl
    obtain ⟨s', hr, hs⟩ := run_showInput hp id s hid
    have hv : s.graph.result .watch id = .ok ((s.graph.inputData? id 0).getD .null) := by
      show ((s.graph.inputData? id 0).map Except.ok).getD (.ok .null) = _
      cases s.graph.inputData? id 0 <;> rfl
    rw [hv]
    refine ⟨s', ?_, hs⟩
    show Body.run perform ((showInput id).bind fun _ => Body.done (Except.ok ())) s = _
    rw [Body.run_bind]
    show ((showInput id).run perform s).bind _ = _
    rw [hr]
    rfl
  | _ => cases hb

omit hp in
/-- The behaviour that a computing node gives back is the one it has. -/
theorem body_of_computes {b : Catalog} (hb : b.computes = true) (id : NodeId)
    (payload : Option Value) : (b.body id (.execute payload) : Body Catalog Unit _) =
      (b.execute id payload).bind fun ending => .done (b, ending) := by
  cases b with
  | inert => cases hb
  | emitter => cases hb
  | counter => cases hb
  | recorder => cases hb
  | bridge d registered => cases hb
  | _ => rfl

end Run

end Catalog

/-! ## Running a body -/

namespace Engine

/-- Running the body of a computing node fires it, in whatever mode the node is; the answer tells
whether it failed. -/
theorem runBody_computes (depth : Nat) (payload : Option Value) {s : Session Catalog Unit} {id : NodeId}
    {n : Node Catalog} {b : Catalog} (hn : s.graph.nodes.get? id = some n)
    (hb : n.behavior = some b) (hc : b.computes = true) (hx : n.canExecute = true)
    (hsum : b = .sum → n.findInput? "A" = some 0 ∧ n.findInput? "B" = some 1)
    (hfed : ∀ rule, b = .layer rule → (s.graph.inputData? id 0).isSome = true) :
    ∃ s', runBody (runner (depth + 1)) id payload s =
        some (((s.graph.result b id).map fun _ => true).mapError (.execution id), s') ∧
      s'.graph = s.graph.afterwards b id (s.graph.result b id) := by
  let t := (s.edit fun g => g.detach id).log (.began id b (.execute payload))
  have hres : t.graph.result b id = s.graph.result b id := s.graph.result_detach b id id
  have hdetached : t.graph.nodes.get? id = some { n with behavior := none } := Graph.get?_detach hn
  have hfed' : ∀ rule, b = .layer rule → (t.graph.inputData? id 0).isSome = true := by
    intro rule hr
    rw [show t.graph.inputData? id 0 = _ from s.graph.inputData?_detach id id 0]
    exact hfed rule hr
  have hedits : ∀ (e : Edit) (u : Session Catalog Unit),
      perform (runner depth) (.edit e) u = some (e.apply u) := fun _ _ => rfl
  obtain ⟨t', hrun, ht'⟩ := Catalog.run_execute hedits hc hdetached hsum hfed'
  rw [hres] at hrun ht'
  have hbody : runner (depth + 1) (Behavior.body b id (.execute payload)) t =
      some (⟨b, (s.graph.result b id).map fun _ => ()⟩, t') := by
    show Body.run _ ((b.body id (.execute payload)).bind _) t = _
    rw [Catalog.body_of_computes hc, Body.run_bind, Body.run_bind]
    show (((b.execute id payload).run _ t).bind _).bind _ = _
    rw [hrun]
    rfl
  -- the node waits for its behaviour, which goes back
  have hback : restore (t'.log (.ended id)) id b = (t'.log (.ended id)).edit (·.attach id b) := by
    have hw : t'.graph.awaitsBehavior id = true := by
      obtain ⟨n', hn', hb'⟩ := Graph.get?_afterwards hdetached (b := b) (s.graph.result b id)
      unfold Graph.awaitsBehavior
      rw [ht', hn']
      show n'.behavior.isNone = true
      rw [hb']
      rfl
    exact if_pos hw
  refine ⟨(t'.log (.ended id)).edit (·.attach id b), ?_, ?_⟩
  · have hidle : s.graph.behavior? id = some b := (Graph.behavior_of_node hn).trans hb
    rw [runBody_enter hn hx (enter_idle hidle hbody), hback]
    cases s.graph.result b id <;> rfl
  · show (t'.graph.attach id b) = _
    rw [ht']
    exact Graph.attach_fire_detach hn hb _

/-- So does running it in its turn. -/
theorem runBody_fires (depth : Nat) {s : Session Catalog Unit} {id : NodeId} {n : Node Catalog}
    {b : Catalog} (hn : s.graph.nodes.get? id = some n) (hc : n.Computes b)
    (hfed : ∀ rule, b = .layer rule → (s.graph.inputData? id 0).isSome = true) :
    ∃ s', runBody (runner (depth + 1)) id none s =
        some (((s.graph.result b id).map fun _ => true).mapError (.execution id), s') ∧
      s'.graph = s.graph.afterwards b id (s.graph.result b id) :=
  runBody_computes depth none hn hc.behavior hc.computes hc.runs hc.operands hfed

end Engine

end Dataflow
