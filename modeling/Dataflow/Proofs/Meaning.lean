/-
  What a graph of standard nodes computes.

  Apart from events and terminals, a standard node is a function of its properties and of what
  feeds its inputs.  `Catalog.value` is that function, and `Graph.eval` applies it along the links
  of a graph without cycles, where the recursion ends because a feeder is in front of what it
  feeds.  A node fails where one of its feeders fails.

  The values stored in outputs and links do not occur in it, and of the properties of a watch
  nothing is read.  So graphs that differ in these only have the same meaning (`eval_congr`).
-/

import Dataflow.Catalog
import Dataflow.Proofs.Order

namespace Dataflow

variable {B : Type}

/-! ## Nodes -/

namespace Catalog

/-- The number that feeds an input, or the one in a property where nothing does. -/
def operand (attrs : Attributes) (name : String) :
    Option (Except NodeError Value) → Except NodeError Float
  | some fed => fed.bind (Value.number name)
  | none => numberOr0 name (attrs name)

/-- What a node gives, or the error it fails with.  An input that is not linked is fed nothing. -/
def value (b : Catalog) (attrs : Attributes) (fed : Nat → Option (Except NodeError Value)) :
    Except NodeError Value :=
  match b with
  | constant => (numberOr0 "value" (attrs "value")).map .ofFloat
  | sum => do
    let x ← operand attrs "A" (fed 0)
    let y ← operand attrs "B" (fed 1)
    return .ofFloat (0.0 + x + y)
  | watch => (fed 0).getD (.ok .null)
  | source rank => (sourceShape rank attrs).map .ofInts
  | layer rule => do
    let v ← (fed 0).getD (.ok .null)
    let shape ← layerShape rule attrs v
    return .ofInts shape
  | _ => .ok .null

end Catalog

/-! ## Graphs -/

namespace Graph

/-- A node has an input that is fed by another. -/
def Draws (g : Graph B) (u v : NodeId) : Prop :=
  ∃ slot l, g.inputLink? v slot = some l ∧ l.origin = u

/-- What a node gives, from what all nodes in front of it give. -/
def eval (g : Graph Catalog) (wf : WellFounded g.Draws) (id : NodeId) : Except NodeError Value :=
  match g.behavior? id with
  | none => .ok .null
  | some b => b.value (g.property? id) fun slot =>
    match _h : g.inputLink? id slot with
    | none => none
    | some l => some (g.eval wf l.origin)
termination_by wf.wrap id
decreasing_by exact ⟨slot, l, _h, rfl⟩

/-- In a joined graph a node draws from those that feed it. -/
theorem Draws.feeds {g : Graph B} (hg : g.Joined) {u v : NodeId} (h : g.Draws u v) :
    g.Feeds u v := by
  obtain ⟨slot, l, hl, ho⟩ := h
  obtain ⟨s, hs, hl⟩ := Option.bind_eq_some_iff.1 hl
  obtain ⟨k, hk, hl⟩ := Option.bind_eq_some_iff.1 hl
  obtain ⟨l', hl', ht, -⟩ := hg.of_input hs hk
  cases Option.some.inj (hl.symm.trans hl')
  exact ⟨k, l, hl, ho, ht⟩

/-- Without cycles the recursion along the links ends: every sweep places a feeder in front of
what it feeds. -/
theorem wellFounded_draws {g : Graph B} (hg : g.Joined) (h : ∀ id, ¬g.Cyclic id) :
    WellFounded g.Draws := by
  have hnt : ∀ id, ¬g.Tangled id := fun id ⟨u, hu, _⟩ => h u hu
  refine Subrelation.wf (r := InvImage (· < ·) g.swept.idxOf) ?_ (InvImage.wf _ Nat.lt_wfRel.wf)
  intro u v hd
  have hf := hd.feeds hg
  exact (swept_feeder hg hf (swept_of_not_tangled hg (hf.target_mem hg) (hnt v))).2

variable {g g' : Graph Catalog}

theorem eval_eq (wf : WellFounded g.Draws) (id : NodeId) : g.eval wf id =
    match g.behavior? id with
    | none => .ok .null
    | some b => b.value (g.property? id) fun slot =>
      (g.inputLink? id slot).map fun l => g.eval wf l.origin := by
  rw [eval]
  cases g.behavior? id with
  | none => rfl
  | some b =>
    show b.value _ _ = b.value _ _
    congr 1
    funext slot
    split
    · next h => rw [h]; rfl
    · next l h => rw [h]; rfl

/-- What is read of a node is the same in two graphs. -/
structure SameAt (g g' : Graph Catalog) (id : NodeId) : Prop where
  behavior : g'.behavior? id = g.behavior? id
  origins : ∀ slot, (g'.inputLink? id slot).map Link.origin = (g.inputLink? id slot).map Link.origin
  properties : g.behavior? id ≠ some .watch → g'.property? id = g.property? id

theorem eval_congr (wf : WellFounded g.Draws) (wf' : WellFounded g'.Draws)
    (h : ∀ id, g.SameAt g' id) (id : NodeId) : g'.eval wf' id = g.eval wf id := by
  induction id using wf.induction with
  | _ id ih =>
    have hfed : (fun slot => (g'.inputLink? id slot).map fun l => g'.eval wf' l.origin) =
        fun slot => (g.inputLink? id slot).map fun l => g.eval wf l.origin := by
      funext slot
      have ho := (h id).origins slot
      cases hl : g.inputLink? id slot with
      | none =>
        rw [hl, Option.map_none, Option.map_eq_none_iff] at ho
        rw [ho]
        rfl
      | some l =>
        rw [hl] at ho
        obtain ⟨l', hl', he⟩ := Option.map_eq_some_iff.1 ho
        rw [hl']
        show some (g'.eval wf' l'.origin) = some (g.eval wf l.origin)
        rw [he, ih l.origin ⟨slot, l, hl, rfl⟩]
    rw [eval_eq, eval_eq, hfed, (h id).behavior]
    cases hb : g.behavior? id with
    | none => rfl
    | some b =>
      by_cases hw : b = .watch
      · subst hw
        rfl
      · have hp := (h id).properties fun he => hw (Option.some.inj (hb.symm.trans he))
        show b.value _ _ = b.value _ _
        rw [hp]

end Graph

/-! ## Graphs with the same meaning -/

/-- What of a node matters to what it computes. -/
structure Role where
  behavior : Option Catalog
  canExecute : Bool
  mode : Mode
  inputs : List String
  /-- What may be read of the properties: nothing at a watch. -/
  properties : Option (Assoc String Value)

def Node.role (n : Node Catalog) : Role :=
  { behavior := n.behavior
    canExecute := n.canExecute
    mode := n.mode
    inputs := n.inputs.map Input.name
    properties := match n.behavior with
      | some .watch => none
      | _ => some n.properties }

namespace Graph

def roles (g : Graph Catalog) : Assoc NodeId Role := g.nodes.mapValues fun _ n => n.role

/-- Two graphs have the same links, and nodes of the same roles. -/
structure Alike (g g' : Graph Catalog) : Prop where
  wiring : g'.wiring = g.wiring
  roles : g'.roles = g.roles

section Alike

variable {g g' g'' : Graph Catalog}

theorem Alike.refl (g : Graph Catalog) : g.Alike g := ⟨rfl, rfl⟩

theorem Alike.trans (h : g.Alike g') (h' : g'.Alike g'') : g.Alike g'' :=
  ⟨h'.wiring.trans h.wiring, h'.roles.trans h.roles⟩

theorem get?_roles (g : Graph Catalog) (id : NodeId) :
    g.roles.get? id = (g.nodes.get? id).map Node.role := Assoc.get?_mapValues ..

theorem Alike.keys (h : g.Alike g') : g'.nodes.keys = g.nodes.keys := by
  have hk := congrArg Assoc.keys h.roles
  unfold Graph.roles at hk
  rwa [Assoc.keys_mapValues, Assoc.keys_mapValues] at hk

/-- A link of one graph joins the same nodes in the other. -/
theorem Alike.feeds (h : g.Alike g') {u v : NodeId} (hf : g'.Feeds u v) : g.Feeds u v := by
  obtain ⟨k, l, hl, rfl, rfl⟩ := hf
  obtain ⟨l', hl', he⟩ := link_of_wiring h.wiring hl
  exact ⟨k, l', hl', congrArg Ends.origin he, congrArg Ends.target he⟩

theorem Alike.node (h : g.Alike g') {id : NodeId} {n' : Node Catalog}
    (hn' : g'.nodes.get? id = some n') :
    ∃ n, g.nodes.get? id = some n ∧ n'.pins = n.pins ∧ n'.role = n.role := by
  obtain ⟨n, hn, hp⟩ := node_of_wiring h.wiring hn'
  have hr := g'.get?_roles id
  rw [h.roles, get?_roles, hn, hn'] at hr
  exact ⟨n, hn, hp.symm, (Option.some.inj hr).symm⟩

theorem behavior?_eq (g : Graph Catalog) (id : NodeId) :
    g.behavior? id = (g.roles.get? id).bind Role.behavior := by
  rw [get?_roles]
  show (g.nodes.get? id).bind _ = _
  cases g.nodes.get? id <;> rfl

theorem inputLink?_ends (g : Graph Catalog) (id : NodeId) (slot : Nat) :
    (g.inputLink? id slot).map Link.ends =
      (((g.input? id slot).map Input.link).bind fun k => k).bind g.wiring.links.get? := by
  show (((g.input? id slot).bind fun s => s.link.bind g.links.get?)).map Link.ends = _
  cases g.input? id slot with
  | none => rfl
  | some s =>
    show (s.link.bind g.links.get?).map Link.ends = s.link.bind g.wiring.links.get?
    cases s.link with
    | none => rfl
    | some k => exact (g.get?_wiring_links k).symm

theorem Alike.inputLink? (h : g.Alike g') (id : NodeId) (slot : Nat) :
    (g'.inputLink? id slot).map Link.ends = (g.inputLink? id slot).map Link.ends := by
  rw [inputLink?_ends, inputLink?_ends, feed_of_wiring h.wiring, h.wiring]

theorem Alike.sameAt (h : g.Alike g') (id : NodeId) : g.SameAt g' id where
  behavior := by rw [behavior?_eq, behavior?_eq, h.roles]
  origins slot := by
    have he := congrArg (Option.map Ends.origin) (h.inputLink? id slot)
    rw [Option.map_map, Option.map_map] at he
    exact he
  properties hw := by
    have hr := g'.get?_roles id
    rw [h.roles, get?_roles] at hr
    funext name
    show (g'.nodes.get? id).bind _ = (g.nodes.get? id).bind _
    cases hn : g.nodes.get? id with
    | none =>
      rw [hn, Option.map_none] at hr
      rw [Option.map_eq_none_iff.1 hr.symm]
    | some n =>
      rw [hn] at hr
      obtain ⟨n', hn', he⟩ := Option.map_eq_some_iff.1 hr.symm
      have hb : n.behavior ≠ some .watch := fun hb => hw ((behavior_of_node hn).trans hb)
      have hb' : n'.behavior ≠ some .watch := by
        rw [show n'.behavior = n.behavior from congrArg Role.behavior he]
        exact hb
      have hread : ∀ {m : Node Catalog}, m.behavior ≠ some .watch →
          m.role.properties = some m.properties := by
        intro m hm
        show (match m.behavior with | some .watch => none | _ => some m.properties) = _
        split
        · next h => exact absurd h hm
        · rfl
      have hp := congrArg Role.properties he
      rw [hread hb, hread hb'] at hp
      rw [hn']
      show n'.properties.get? name = n.properties.get? name
      rw [Option.some.inj hp]

theorem roles_modifyNode {id : NodeId} {f : Node Catalog → Node Catalog}
    (h : ∀ n, g.nodes.get? id = some n → (f n).role = n.role) : (g.modifyNode id f).roles = g.roles :=
  Assoc.mapValues_modify h

theorem alike_updateOrder (g : Graph Catalog) : g.Alike g.updateOrder where
  wiring := g.wiring_updateOrder
  roles := by
    refine updateOrder_keeps (P := fun g' => g'.roles = g.roles) (fun _ _ _ h => ?_)
      (fun _ _ _ h => h) rfl
    refine Eq.trans ?_ h
    exact roles_modifyNode fun _ _ => rfl

end Alike

end Graph

/-! ## Values that are the same as themselves -/

namespace Value

theorem beq_self_of_isFinite {x : Float} (h : x.isFinite = true) : (x == x) = true := by
  have hf : x.toModel.unpack.isFinite = true := h
  show Float.Model.UnpackedFloat.beq x.toModel.unpack x.toModel.unpack = true
  cases hu : x.toModel.unpack with
  | infinity sign => rw [hu] at hf; cases hf
  | notANumber => rw [hu] at hf; cases hf
  | zero sign => rfl
  | finite sign m e hm =>
    have hself : (compare e e).then (compare m m) = .eq := by
      rw [Std.compare_self, Std.compare_self]
      rfl
    cases sign with
    | negative =>
      show (some ((compare e e).then (compare m m)).swap == some Ordering.eq) = true
      rw [hself]
      rfl
    | positive =>
      show (some ((compare e e).then (compare m m)) == some Ordering.eq) = true
      rw [hself]
      rfl

theorem same_ofFloat (x : Float) : (ofFloat x).same (ofFloat x) = true := by
  unfold ofFloat
  split
  · next h =>
    rw [same]
    exact beq_self_of_isFinite h
  · rw [same]

theorem same_ofInts (ns : List Int) : (ofInts ns).same (ofInts ns) = true := by
  show same (.arr _) (.arr _) = true
  rw [same]
  induction ns with
  | nil => rw [List.map_nil, sameItems]
  | cons n ns ih =>
    rw [List.map_cons, sameItems, ih, same]
    simp

end Value

/-- What a step of a computation that succeeds gives. -/
theorem Except.of_bind_ok {ε α β : Type} {m : Except ε α} {f : α → Except ε β} {b : β}
    (h : m.bind f = .ok b) : ∃ a, m = .ok a ∧ f a = .ok b := by
  cases m with
  | error e => cases h
  | ok a => exact ⟨a, rfl, h⟩

/-- A node gives values that are the same as themselves if it is fed such values. -/
theorem Catalog.same_value {b : Catalog} {attrs : Attributes}
    {fed : Nat → Option (Except NodeError Value)}
    (hf : ∀ slot v, fed slot = some (.ok v) → v.same v = true) {v : Value}
    (hv : b.value attrs fed = .ok v) : v.same v = true := by
  have hnull : Value.same .null .null = true := by rw [Value.same]
  have hmap : ∀ {α : Type} {m : Except NodeError α} {f : α → Value},
      (∀ a, (f a).same (f a) = true) → m.map f = .ok v → v.same v = true := by
    intro α m f h hm
    cases m with
    | error e => cases hm
    | ok a =>
      cases hm
      exact h a
  cases b with
  | constant => exact hmap Value.same_ofFloat hv
  | sum =>
    obtain ⟨x, -, hy⟩ := Except.of_bind_ok hv
    obtain ⟨y, -, he⟩ := Except.of_bind_ok hy
    cases he
    exact Value.same_ofFloat _
  | watch =>
    cases h : fed 0 with
    | none =>
      rw [value, h] at hv
      cases hv
      exact hnull
    | some r =>
      rw [value, h] at hv
      exact hf 0 v (h.trans (congrArg some hv))
  | source rank => exact hmap Value.same_ofInts hv
  | layer rule =>
    obtain ⟨w, -, hs⟩ := Except.of_bind_ok hv
    obtain ⟨shape, -, he⟩ := Except.of_bind_ok hs
    cases he
    exact Value.same_ofInts shape
  | _ =>
    cases hv
    exact hnull

theorem Graph.same_eval {g : Graph Catalog} (wf : WellFounded g.Draws) {id : NodeId} {v : Value}
    (hv : g.eval wf id = .ok v) : v.same v = true := by
  induction id using wf.induction generalizing v with
  | _ id ih =>
    rw [eval_eq] at hv
    cases hb : g.behavior? id with
    | none =>
      rw [hb] at hv
      cases hv
      rw [Value.same]
    | some b =>
      rw [hb] at hv
      refine Catalog.same_value (fun slot w hw => ?_) hv
      obtain ⟨l, hl, hw⟩ := Option.map_eq_some_iff.1 hw
      exact ih l.origin ⟨slot, l, hl, rfl⟩ hw

end Dataflow
