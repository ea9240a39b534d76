/-
  Behaviours that act alike.

  A map between two kinds of behaviours may forget something about a behaviour, or add something
  to it.  When neither kind answers differently for it (`Unnoticed`), nothing that an edit does
  depends on which of the two kinds is used: editing a graph and then mapping its behaviours is
  the same as mapping them first and editing then (`Edit.apply_map`).  So what is shown of the one
  kind holds of the other, seen through the map.
-/

import Dataflow.Proofs.Assoc
import Dataflow.Proofs.Flow

namespace Dataflow

variable {B C σ τ : Type}

/-! ## Maps -/

/-- A map that a behaviour does not notice: it answers as its image does, and its image changes
as it does. -/
structure Unnoticed [Kind B] [Kind C] (f : B → C) : Prop where
  inert : f Kind.inert = Kind.inert
  canExecute : ∀ b, Kind.canExecute (f b) = Kind.canExecute b
  acceptsActions : ∀ b, Kind.acceptsActions (f b) = Kind.acceptsActions b
  told : ∀ b notice, Kind.told (f b) notice = f (Kind.told b notice)
  acceptsLink : ∀ b slot type, Kind.acceptsLink (f b) slot type = Kind.acceptsLink b slot type
  keepsOld : ∀ b name value, Kind.keepsOld (f b) name value = Kind.keepsOld b name value
  annotate : ∀ b r, Kind.annotate (f b) r = Kind.annotate b r

def Node.map (f : B → C) (n : Node B) : Node C := { n with behavior := n.behavior.map f }

def NodeType.map (f : B → C) (t : NodeType B) : NodeType C := { t with behavior := f t.behavior }

def Registry.map (f : B → C) (r : Registry B) : Registry C := r.mapValues fun _ t => t.map f

def Graph.map (f : B → C) (g : Graph B) : Graph C :=
  { g with registry := g.registry.map f, nodes := g.nodes.mapValues fun _ n => n.map f }

def Event.map (f : B → C) : Event B → Event C
  | told b notice => told (f b) notice
  | began id b task => began id (f b) task
  | ended id => ended id
  | changed version => changed version
  | nodeAdded id => nodeAdded id
  | nodeRemoved id => nodeRemoved id
  | linkChanged link connected => linkChanged link connected
  | started => started
  | stopped => stopped
  | passed => passed
  | stepped => stepped
  | terminalAdded d name type => terminalAdded d name type
  | terminalRenamed d old new => terminalRenamed d old new
  | terminalRetyped d name type => terminalRetyped d name type
  | terminalRemoved d name => terminalRemoved d name
  | terminalsChanged => terminalsChanged
  | note remark => note remark

/-- A session with other behaviours and another host. -/
def Session.map (f : B → C) (h : σ → τ) (s : Session B σ) : Session C τ :=
  ⟨s.graph.map f, s.events.map (Event.map f), h s.host⟩

namespace Assoc

variable {κ α β : Type}

@[simp] theorem size_mapValues (m : Assoc κ α) (f : κ → α → β) :
    (m.mapValues f).size = m.size := List.length_map _

variable [DecidableEq κ]

@[simp] theorem contains_mapValues (m : Assoc κ α) (f : κ → α → β) (k : κ) :
    (m.mapValues f).contains k = m.contains k := by
  unfold contains
  rw [get?_mapValues, Option.isSome_map]

theorem mapValues_insert (m : Assoc κ α) (f : κ → α → β) (k : κ) (v : α) :
    (m.insert k v).mapValues f = (m.mapValues f).insert k (f k v) := by
  apply ext_view
  · rw [keys_mapValues, keys_insert, keys_insert, keys_mapValues]
  · intro i
    rw [get?_mapValues, get?_insert, get?_insert, get?_mapValues]
    split
    · next h => rw [h, Option.map_some]
    · rfl

theorem mapValues_erase (m : Assoc κ α) (f : κ → α → β) (k : κ) :
    (m.erase k).mapValues f = (m.mapValues f).erase k := by
  apply ext_view
  · rw [keys_mapValues, keys_erase, keys_erase, keys_mapValues]
  · intro i
    rw [get?_mapValues, get?_erase, get?_erase, get?_mapValues]
    split <;> rfl

/-- A change that a projection of all values carries over. -/
theorem mapValues_modify_comm (m : Assoc κ α) (f : κ → α → β) (k : κ) {c : α → α} {d : β → β}
    (h : ∀ v, m.get? k = some v → f k (c v) = d (f k v)) :
    (m.modify k c).mapValues f = (m.mapValues f).modify k d := by
  unfold modify
  rw [mapValues_mapValues, mapValues_mapValues]
  apply mapValues_congr
  intro e he
  by_cases hk : e.1 = k
  · have hv : m.get? k = some e.2 := (get?_eq_some_iff ..).2 (hk ▸ he)
    rw [if_pos hk, if_pos hk, hk, h e.2 hv]
  · rw [if_neg hk, if_neg hk]

end Assoc

/-! ## Nodes -/

namespace Node

variable {f : B → C} (n : Node B)

theorem alignToGrid_map (grid : Float32) :
    (n.map f).alignToGrid grid = (n.alignToGrid grid).map f := by
  unfold alignToGrid
  split <;> rfl

theorem change_map (c : NodeChange) : c.apply (n.map f) = (c.apply n).map f := by
  cases c <;> rfl

variable [Kind B] [Kind C] (hf : Unnoticed f)
include hf

theorem new_map (type : String) : (Node.new type : Node C) = (Node.new type : Node B).map f := by
  unfold Node.new map
  simp only [Option.map_some, hf.inert]

theorem withBehavior_map (b : B) : (n.map f).withBehavior (f b) = (n.withBehavior b).map f := by
  unfold withBehavior map
  simp only [Option.map_some, hf.canExecute, hf.acceptsActions]

theorem placeholder_map (r : NodeRecord) : (placeholder r : Node C) = (placeholder r : Node B).map f := by
  unfold placeholder
  rw [new_map hf]
  rfl

theorem tell_map (notice : Notice) : (n.map f).tell notice =
    Prod.map (·.map f) (List.map (Event.map f)) (n.tell notice) := by
  have hb : (n.map f).behavior = n.behavior.map f := rfl
  unfold tell
  rw [hb]
  cases n.behavior with
  | none => rfl
  | some b =>
    simp only [Option.map_some, hf.told]
    rfl

theorem keepsOld_map (name : String) (value : Value) :
    ((n.map f).behavior.any fun c => Kind.keepsOld c name value) =
      n.behavior.any fun b => Kind.keepsOld b name value := by
  show (n.behavior.map f).any _ = _
  cases n.behavior with
  | none => rfl
  | some b => exact hf.keepsOld b name value

theorem offerProperty_map (name : String) (value : Value) : (n.map f).offerProperty name value =
    Prod.map (·.map f) (List.map (Event.map f)) (n.offerProperty name value) := by
  unfold offerProperty
  simp only [keepsOld_map n hf, tell_map n hf, Prod.map_fst, Prod.map_snd]
  split <;> rfl

theorem offerProperties_map (ps : List (String × Value)) (n : Node B) :
    (n.map f).offerProperties ps =
      Prod.map (·.map f) (List.map (Event.map f)) (n.offerProperties ps) := by
  induction ps generalizing n with
  | nil => rfl
  | cons p ps ih =>
    unfold offerProperties
    simp only [offerProperty_map n hf, Prod.map_fst, Prod.map_snd, ih, Prod.map_apply,
      List.map_append]

theorem applyRecord_map (r : NodeRecord) : (n.map f).applyRecord r =
    Prod.map (·.map f) (List.map (Event.map f)) (n.applyRecord r) := by
  unfold applyRecord
  simp only [offerProperties_map hf, Prod.map_fst, Prod.map_snd]
  rfl

theorem record_map : (n.map f).record = n.record := by
  have hb : (n.map f).behavior = n.behavior.map f := rfl
  have hs : (n.map f).standsFor = n.standsFor := rfl
  unfold record
  rw [hb, hs]
  cases n.standsFor with
  | some r => rfl
  | none =>
    cases n.behavior with
    | none => rfl
    | some b => exact hf.annotate b _

end Node

/-! ## Types -/

theorem Node.attachDefaults_map {f : B → C} (n : Node B) (t : NodeType B) :
    (n.map f).attachDefaults (t.map f) = (n.attachDefaults t).map f := by
  unfold attachDefaults
  extract_lets named sized placed named' sized' placed'
  have hs : sized = sized'.map f := by
    show _ = Node.map f (ite _ _ _)
    rw [apply_ite (Node.map f)]
    rfl
  have hp : placed = placed'.map f := by
    show (ite _ _ _ : Node C) = Node.map f (ite _ _ _)
    rw [apply_ite (Node.map f), hs]
    rfl
  rw [hp]
  rfl

section Types

variable [Kind B] [Kind C] {f : B → C} (hf : Unnoticed f)
include hf

theorem NodeType.instantiate_map (t : NodeType B) (title : Option String) :
    (t.map f).instantiate title = (t.instantiate title).map f := by
  unfold NodeType.instantiate
  rw [← Node.withBehavior_map _ hf, Node.new_map hf]
  rfl

theorem Registry.create_map (r : Registry B) (type : String) (title : Option String) :
    (r.map f).create type title = (r.create type title).map (·.map f) := by
  unfold Registry.create Registry.map
  rw [Assoc.get?_mapValues]
  cases r.get? type with
  | none => rfl
  | some t =>
    simp only [Option.map_some, NodeType.instantiate_map hf, Node.attachDefaults_map]
    rfl

theorem Registry.createOrStandIn_map (r : Registry B) (type : String) (title : Option String) :
    (r.map f).createOrStandIn type title = (r.createOrStandIn type title).map f := by
  unfold Registry.createOrStandIn
  rw [Registry.create_map hf]
  cases r.create type title with
  | ok n => rfl
  | error e => exact Node.placeholder_map hf _

theorem Node.copy_map (n : Node B) (r : Registry B) : (n.map f).copy (r.map f) =
    Prod.map (·.map f) (List.map (Event.map f)) (n.copy r) := by
  have hfresh : ∀ (r : NodeRecord) (n : Node B), (if (n.map f).hasErrors then .placeholder r
      else n.map f : Node C) = (if n.hasErrors then .placeholder r else n).map f := by
    intro r n
    show (if n.hasErrors then _ else _ : Node C) = _
    split
    · exact Node.placeholder_map hf r
    · rfl
  unfold Node.copy
  simp only [Node.record_map n hf, Registry.createOrStandIn_map hf, hfresh, Node.applyRecord_map _ hf,
    Node.tell_map _ hf, Prod.map_fst, Prod.map_snd, Prod.map_apply, List.map_append]

end Types

/-! ## Graphs -/

namespace Graph

variable {f : B → C}

theorem get?_map (g : Graph B) (id : NodeId) :
    (g.map f).nodes.get? id = (g.nodes.get? id).map (·.map f) := Assoc.get?_mapValues ..

theorem contains_map (g : Graph B) (id : NodeId) :
    (g.map f).nodes.contains id = g.nodes.contains id := Assoc.contains_mapValues ..

theorem keys_map (g : Graph B) : (g.map f).nodes.keys = g.nodes.keys := Assoc.keys_mapValues ..

theorem input?_map (g : Graph B) (id : NodeId) (slot : Nat) :
    (g.map f).input? id slot = g.input? id slot := by
  unfold input?
  rw [get?_map]
  cases g.nodes.get? id <;> rfl

theorem output?_map (g : Graph B) (id : NodeId) (slot : Nat) :
    (g.map f).output? id slot = g.output? id slot := by
  unfold output?
  rw [get?_map]
  cases g.nodes.get? id <;> rfl

theorem behavior?_map (g : Graph B) (id : NodeId) :
    (g.map f).behavior? id = (g.behavior? id).map f := by
  unfold behavior?
  rw [get?_map]
  cases g.nodes.get? id <;> rfl

theorem slotName?_map (g : Graph B) (d : Direction) (id : NodeId) (slot : Nat) :
    (g.map f).slotName? d id slot = g.slotName? d id slot := by
  unfold slotName?
  rw [input?_map, output?_map]

/-! ### One node or link -/

/-- Changes of one node that agree on mapped nodes agree on mapped graphs. -/
theorem modifyNode_map {g : Graph B} {g' : Graph C} {id : NodeId} {c : Node B → Node B}
    {d : Node C → Node C} (hg : g' = g.map f) (h : ∀ n, d (n.map f) = (c n).map f) :
    g'.modifyNode id d = (g.modifyNode id c).map f := by
  have hn := g.nodes.mapValues_modify_comm (fun _ n => n.map f) id fun n _ => (h n).symm
  subst hg
  unfold modifyNode map
  rw [hn]

theorem eraseNode_map (g : Graph B) (id : NodeId) :
    { g.map f with nodes := (g.map f).nodes.erase id } =
      map f { g with nodes := g.nodes.erase id } := by
  have hn := g.nodes.mapValues_erase (fun _ n => n.map f) id
  unfold map
  rw [hn]

theorem modifyLinks_map (c : Link → Link) (ids : List LinkId) (g : Graph B) :
    (g.map f).modifyLinks ids c = (g.modifyLinks ids c).map f := by
  induction ids generalizing g with
  | nil => rfl
  | cons id ids ih => exact ih (g.modifyLink id c)

theorem withTerminals_map (g : Graph B) (d : Direction) (ts : Assoc String Terminal) :
    (g.map f).withTerminals d ts = (g.withTerminals d ts).map f := by
  cases d <;> rfl

theorem dropLink_map (g : Graph B) (k : LinkId) (l : Link) :
    (g.map f).dropLink k l = (g.dropLink k l).map f := by
  have hs : ∀ {g : Graph B} {g' : Graph C}, g' = g.map f →
      { g' with stale := true } = map f { g with stale := true } := by
    rintro g _ rfl
    rfl
  exact hs (modifyNode_map (modifyNode_map rfl fun _ => rfl) fun _ => rfl)

theorem addLink_map (g : Graph B) (l : Link) : (g.map f).addLink l = (g.addLink l).map f := by
  unfold addLink
  exact modifyNode_map (modifyNode_map rfl fun _ => rfl) fun _ => rfl

theorem eraseInput_map (g : Graph B) (id : NodeId) (slot : Nat) :
    (g.map f).eraseInput id slot = (g.eraseInput id slot).map f := by
  unfold eraseInput
  rw [get?_map]
  cases g.nodes.get? id with
  | none => rfl
  | some n => exact modifyNode_map (modifyLinks_map _ _ g) fun _ => rfl

theorem eraseOutput_map (g : Graph B) (id : NodeId) (slot : Nat) :
    (g.map f).eraseOutput id slot = (g.eraseOutput id slot).map f := by
  unfold eraseOutput
  rw [get?_map]
  cases g.nodes.get? id with
  | none => rfl
  | some n => exact modifyNode_map (modifyLinks_map _ _ g) fun _ => rfl

theorem setOutputData_map (g : Graph B) (id : NodeId) (slot : Nat) (value : Value) :
    (g.map f).setOutputData id slot value = (g.setOutputData id slot value).map f := by
  unfold setOutputData
  rw [output?_map]
  cases g.output? id slot with
  | none => rfl
  | some s => exact modifyNode_map (modifyLinks_map _ _ g) fun _ => rfl

theorem clearTriggered_map (g : Graph B) (id : NodeId) (slot : Nat) (only : Option LinkId) :
    (g.map f).clearTriggered id slot only = (g.clearTriggered id slot only).map f := by
  unfold clearTriggered
  rw [output?_map]
  cases g.output? id slot with
  | none => rfl
  | some s => exact modifyLinks_map _ _ g

/-! ### The order of execution -/

theorem flow_map (g : Graph B) : (g.map f).flow = g.flow := by
  have hn : (g.map f).nodes.mapValues (fun _ n => n.course) = g.nodes.mapValues fun _ n => n.course :=
    g.nodes.mapValues_mapValues (fun _ n => n.map f) fun _ n => n.course
  unfold flow
  rw [hn]
  rfl

theorem priority_map (g : Graph B) (id : NodeId) : (g.map f).priority id = g.priority id := by
  unfold priority
  rw [get?_map]
  cases g.nodes.get? id <;> rfl

theorem hasBody_map (g : Graph B) (id : NodeId) : (g.map f).hasBody id = g.hasBody id := by
  unfold hasBody
  rw [get?_map]
  cases g.nodes.get? id <;> rfl

theorem computeOrder_map (g : Graph B) : (g.map f).computeOrder = g.computeOrder :=
  computeOrder_of_flow g.flow_map g.priority_map

theorem number_map (g : Graph B) (order : List NodeId) :
    (g.map f).number order = (g.number order).map f := by
  unfold number
  generalize order.zipIdx = places
  induction places generalizing g with
  | nil => rfl
  | cons e places ih =>
    rw [List.foldl_cons, List.foldl_cons, ← ih]
    exact congrArg (List.foldl _ · places) (modifyNode_map rfl fun _ => rfl)

theorem updateOrder_map (g : Graph B) : (g.map f).updateOrder = g.updateOrder.map f := by
  have hb : (g.map f).hasBody = g.hasBody := funext g.hasBody_map
  unfold updateOrder
  simp only
  rw [computeOrder_map, number_map, hb]
  rfl

theorem columns_map (g : Graph B) : (g.map f).columns = g.columns := by
  unfold columns
  rw [start_of_flow g.flow_map, run_of_flow g.flow_map, computeOrder_map]

theorem stack_map (margin x : Float32) (ids : List NodeId) :
    ∀ (g : Graph B) (y widest : Float32), stack margin x (g.map f) ids y widest =
      Prod.map (map f) id (stack margin x g ids y widest) := by
  induction ids with
  | nil => exact fun _ _ _ => rfl
  | cons id ids ih =>
    intro g y widest
    unfold stack
    rw [get?_map]
    cases g.nodes.get? id with
    | none => exact ih g y widest
    | some n =>
      have hg : ((g.map f).modifyNode id fun n => { n with pos := ⟨x, y⟩ }) =
          (g.modifyNode id fun n => { n with pos := ⟨x, y⟩ }).map f := modifyNode_map rfl fun _ => rfl
      simp only [Option.map_some, hg]
      exact ih _ _ _

theorem spread_map (margin : Float32) (columns : List (List NodeId)) :
    ∀ (g : Graph B) (x : Float32),
      spread margin (g.map f) columns x = (spread margin g columns x).map f := by
  induction columns with
  | nil => exact fun _ _ => rfl
  | cons column columns ih =>
    intro g x
    unfold spread
    rw [stack_map]
    exact ih _ _

theorem arrange_map (g : Graph B) (margin : Float32) :
    (g.map f).arrange margin = (g.arrange margin).map f := by
  unfold arrange
  rw [columns_map, spread_map]

/-! ### Linking by name and by place -/

theorem endpoints?_map (g : Graph B) (origin : NodeId) (originSlot : Nat) (target : NodeId)
    (targetSlot : Nat) : (g.map f).endpoints? origin originSlot target targetSlot =
      g.endpoints? origin originSlot target targetSlot := by
  unfold endpoints?
  rw [get?_map, get?_map]
  cases g.nodes.get? origin with
  | none => rfl
  | some source => cases g.nodes.get? target <;> rfl

theorem slotsNamed?_map (g : Graph B) (origin : NodeId) (output : String) (target : NodeId)
    (input : String) : (g.map f).slotsNamed? origin output target input =
      g.slotsNamed? origin output target input := by
  unfold slotsNamed?
  rw [get?_map, get?_map]
  cases g.nodes.get? origin with
  | none => rfl
  | some source => cases g.nodes.get? target <;> rfl

end Graph

end Dataflow
