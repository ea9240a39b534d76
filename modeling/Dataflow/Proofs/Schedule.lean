/-
  Graphs that differ in what they remember of the order of execution.

  A graph remembers the order last computed, which nodes of it have a body, the place of each node
  in it, whether it may be wrong, and how many batches are open.  That is its `Schedule`.  Nothing
  that an edit asks of a graph depends on the schedule, and what an edit does to the rest does not
  depend on it either: here for the functions on graphs that edits and loads are made of.  The order
  that is computed anew does not depend on the one remembered (`computeOrder_under`).
-/

import Dataflow.Proofs.Cache
import Dataflow.Proofs.Mapped

namespace Dataflow

variable {B : Type}

/-! ## Schedules -/

/-- What a graph remembers of the order of execution. -/
structure Schedule where
  /-- The places noted in the nodes. -/
  place : NodeId → Nat
  order : List NodeId
  executable : List NodeId
  stale : Bool
  batchDepth : Nat

/-- The node with another place noted in it. -/
def Node.noting (k : Nat) (n : Node B) : Node B := { n with order := k }

namespace Node

variable [Kind B] (n : Node B) (k : Nat)

theorem tell_noting (notice : Notice) :
    (n.noting k).tell notice = Prod.map (noting k) (fun es => es) (n.tell notice) := by
  have hb : (n.noting k).behavior = n.behavior := rfl
  unfold tell
  rw [hb]
  cases n.behavior <;> rfl

theorem offerProperty_noting (name : String) (value : Value) : (n.noting k).offerProperty name value =
    Prod.map (noting k) (fun es => es) (n.offerProperty name value) := by
  unfold offerProperty
  simp only [tell_noting, Prod.map_fst, Prod.map_snd]
  show ((if n.behavior.any _ then _ else _, _) : Node B × _) = _
  split <;> rfl

theorem offerProperties_noting (ps : List (String × Value)) (n : Node B) :
    (n.noting k).offerProperties ps = Prod.map (noting k) (fun es => es) (n.offerProperties ps) := by
  induction ps generalizing n with
  | nil => rfl
  | cons p ps ih =>
    unfold offerProperties
    simp only [offerProperty_noting, Prod.map_fst, Prod.map_snd, ih]
    rfl

theorem applyRecord_noting (r : NodeRecord) :
    (n.noting k).applyRecord r = Prod.map (noting k) (fun es => es) (n.applyRecord r) := by
  unfold applyRecord
  simp only [offerProperties_noting, Prod.map_fst, Prod.map_snd]
  rfl

end Node

namespace Graph

/-- The graph with another schedule. -/
def under (g : Graph B) (c : Schedule) : Graph B :=
  { g with
    nodes := g.nodes.mapValues fun id n => n.noting (c.place id)
    order := c.order, executable := c.executable, stale := c.stale, batchDepth := c.batchDepth }

/-- The schedule of a graph. -/
def schedule (g : Graph B) : Schedule :=
  ⟨fun id => ((g.nodes.get? id).map Node.order).getD 0, g.order, g.executable, g.stale, g.batchDepth⟩

theorem get?_under (g : Graph B) (c : Schedule) (id : NodeId) :
    (g.under c).nodes.get? id = (g.nodes.get? id).map (Node.noting (c.place id)) := Assoc.get?_mapValues ..

theorem contains_under (g : Graph B) (c : Schedule) (id : NodeId) :
    (g.under c).nodes.contains id = g.nodes.contains id := Assoc.contains_mapValues ..

theorem keys_under (g : Graph B) (c : Schedule) : (g.under c).nodes.keys = g.nodes.keys :=
  Assoc.keys_mapValues ..

theorem under_schedule (g : Graph B) : g.under g.schedule = g := by
  have hn : (g.nodes.mapValues fun id n => n.noting (g.schedule.place id)) = g.nodes := by
    apply Assoc.ext_view
    · exact Assoc.keys_mapValues ..
    · intro id
      rw [Assoc.get?_mapValues]
      show (g.nodes.get? id).map (Node.noting ((g.nodes.get? id).map Node.order |>.getD 0)) = _
      cases g.nodes.get? id <;> rfl
  unfold under
  rw [hn]
  rfl

theorem under_under (g : Graph B) (c d : Schedule) : (g.under c).under d = g.under d := by
  have hn : (g.nodes.mapValues fun id n => n.noting (c.place id)).mapValues
      (fun id n => n.noting (d.place id)) = g.nodes.mapValues fun id n => n.noting (d.place id) :=
    Assoc.mapValues_mapValues ..
  unfold under
  rw [hn]

/-- What is remembered besides the places is put down in its own fields. -/
theorem under_places (g : Graph B) (order executable : List NodeId) (stale : Bool) (batchDepth : Nat) :
    g.under ⟨g.schedule.place, order, executable, stale, batchDepth⟩ =
      { g with order, executable, stale, batchDepth } := by
  have hn : (g.nodes.mapValues fun id n => n.noting (g.schedule.place id)) = g.nodes :=
    congrArg Graph.nodes g.under_schedule
  unfold under
  rw [hn]

/-! ## What is asked of a graph -/

variable (g : Graph B) (c : Schedule)

theorem input?_under (id : NodeId) (slot : Nat) : (g.under c).input? id slot = g.input? id slot := by
  unfold input?
  rw [get?_under]
  cases g.nodes.get? id <;> rfl

theorem output?_under (id : NodeId) (slot : Nat) : (g.under c).output? id slot = g.output? id slot := by
  unfold output?
  rw [get?_under]
  cases g.nodes.get? id <;> rfl

theorem behavior?_under (id : NodeId) : (g.under c).behavior? id = g.behavior? id := by
  unfold behavior?
  rw [get?_under]
  cases g.nodes.get? id <;> rfl

theorem slotName?_under (d : Direction) (id : NodeId) (slot : Nat) :
    (g.under c).slotName? d id slot = g.slotName? d id slot := by
  unfold slotName?
  rw [input?_under, output?_under]

theorem inputLink?_under (id : NodeId) (slot : Nat) :
    (g.under c).inputLink? id slot = g.inputLink? id slot := by
  unfold inputLink?
  rw [input?_under]
  rfl

theorem inputData?_under (id : NodeId) (slot : Nat) :
    (g.under c).inputData? id slot = g.inputData? id slot := by
  unfold inputData?
  rw [inputLink?_under]

theorem property?_under (id : NodeId) (name : String) :
    (g.under c).property? id name = g.property? id name := by
  unfold property?
  rw [get?_under]
  cases g.nodes.get? id <;> rfl

theorem inputOrProperty?_under (id : NodeId) (name : String) :
    (g.under c).inputOrProperty? id name = g.inputOrProperty? id name := by
  unfold inputOrProperty?
  rw [get?_under, funext (g.inputData?_under c id)]
  cases g.nodes.get? id <;> rfl

theorem terminals_under (d : Direction) : (g.under c).terminals d = g.terminals d := by
  cases d <;> rfl

theorem acceptsLink_under [Kind B] (id : NodeId) (slot : Nat) (type : SlotType) :
    (g.under c).acceptsLink id slot type = g.acceptsLink id slot type := by
  unfold acceptsLink
  rw [behavior?_under]

theorem endpoints?_under (origin : NodeId) (originSlot : Nat) (target : NodeId) (targetSlot : Nat) :
    (g.under c).endpoints? origin originSlot target targetSlot =
      g.endpoints? origin originSlot target targetSlot := by
  unfold endpoints?
  rw [get?_under, get?_under]
  cases g.nodes.get? origin with
  | none => rfl
  | some source => cases g.nodes.get? target <;> rfl

theorem slotsNamed?_under (origin : NodeId) (output : String) (target : NodeId) (input : String) :
    (g.under c).slotsNamed? origin output target input =
      g.slotsNamed? origin output target input := by
  unfold slotsNamed?
  rw [get?_under, get?_under]
  cases g.nodes.get? origin with
  | none => rfl
  | some source => cases g.nodes.get? target <;> rfl

theorem awaitsBehavior_under (id : NodeId) :
    (g.under c).awaitsBehavior id = g.awaitsBehavior id := by
  unfold awaitsBehavior
  rw [get?_under]
  cases g.nodes.get? id <;> rfl

theorem claimNode_under (requested : Option NodeId) :
    (g.under c).claimNode requested = g.claimNode requested := by
  have hfree : ∀ fuel n, freeNodeFrom (g.under c).nodes fuel n = freeNodeFrom g.nodes fuel n := by
    intro fuel
    induction fuel with
    | zero => exact fun _ => rfl
    | succ fuel ih =>
      intro n
      unfold freeNodeFrom
      rw [contains_under, ih]
  have hs : (g.under c).nodes.size = g.nodes.size := Assoc.size_mapValues ..
  unfold claimNode
  rw [hfree, hs]
  simp only [contains_under]
  rfl

/-! ### The order of execution -/

theorem flow_under : (g.under c).flow = g.flow := by
  have hn : (g.under c).nodes.mapValues (fun _ n => n.course) = g.nodes.mapValues fun _ n => n.course :=
    g.nodes.mapValues_mapValues (fun id n => n.noting (c.place id)) fun _ n => n.course
  unfold flow
  rw [hn]
  rfl

theorem priority_under (id : NodeId) : (g.under c).priority id = g.priority id := by
  unfold priority
  rw [get?_under]
  cases g.nodes.get? id <;> rfl

theorem hasBody_under (id : NodeId) : (g.under c).hasBody id = g.hasBody id := by
  unfold hasBody
  rw [get?_under]
  cases g.nodes.get? id <;> rfl

/-- The order of execution does not depend on the one remembered. -/
theorem computeOrder_under : (g.under c).computeOrder = g.computeOrder :=
  computeOrder_of_flow (g.flow_under c) (g.priority_under c)

theorem columns_under : (g.under c).columns = g.columns := by
  unfold columns
  rw [start_of_flow (g.flow_under c), run_of_flow (g.flow_under c), computeOrder_under]

/-- Noting the place of one node changes the schedule only. -/
theorem modifyNode_order_eq (g : Graph B) (id : NodeId) (k : Nat) : ∃ place,
    (g.modifyNode id fun n => { n with order := k }) = g.under { g.schedule with place } := by
  refine ⟨fun i => if i = id then k else g.schedule.place i, ?_⟩
  have hn : (g.nodes.modify id fun n => n.noting k) =
      g.nodes.mapValues fun i n => n.noting (if i = id then k else g.schedule.place i) := by
    apply Assoc.mapValues_congr
    intro e he
    have hv : g.nodes.get? e.1 = some e.2 := (Assoc.get?_eq_some_iff ..).2 he
    have hp : g.schedule.place e.1 = e.2.order := by
      show ((g.nodes.get? e.1).map Node.order).getD 0 = _
      rw [hv]
      rfl
    by_cases h : e.1 = id
    · rw [if_pos h, if_pos h]
    · rw [if_neg h, if_neg h, hp]
      rfl
  show ({ g with nodes := g.nodes.modify id fun n => n.noting k } : Graph B) = _
  rw [hn]
  rfl

theorem foldl_modifyNode_order_eq (places : List (NodeId × Nat)) (g : Graph B) : ∃ place,
    places.foldl (fun g e => g.modifyNode e.1 fun n => { n with order := e.2 }) g =
      g.under { g.schedule with place } := by
  induction places generalizing g with
  | nil => exact ⟨g.schedule.place, g.under_schedule.symm⟩
  | cons e places ih =>
    obtain ⟨place, h⟩ := modifyNode_order_eq g e.1 e.2
    obtain ⟨place', h'⟩ := ih (g.under { g.schedule with place })
    refine ⟨place', ?_⟩
    rw [List.foldl_cons, h, h', under_under]
    rfl

/-- Bringing the order up to date gives a graph another schedule. -/
theorem updateOrder_eq : ∃ place, g.updateOrder = g.under
    ⟨place, g.computeOrder, g.computeOrder.filter g.hasBody, false, g.batchDepth⟩ := by
  obtain ⟨place, h⟩ := foldl_modifyNode_order_eq g.computeOrder.zipIdx g
  refine ⟨place, ?_⟩
  unfold updateOrder number
  simp only [h]
  rfl

/-! ## What is done to a graph -/

variable {g c} {g' : Graph B}

/-- Changes of one node that agree up to its place agree on graphs up to the schedule. -/
theorem modifyNode_under {id : NodeId} {f f' : Node B → Node B} (hg : g' = g.under c)
    (h : ∀ n, g.nodes.get? id = some n → f' (n.noting (c.place id)) = (f n).noting (c.place id)) :
    g'.modifyNode id f' = (g.modifyNode id f).under c := by
  have hn := g.nodes.mapValues_modify_comm (fun id n => n.noting (c.place id)) id fun n hn => (h n hn).symm
  subst hg
  unfold modifyNode under
  rw [hn]

theorem modifyLinks_under (f : Link → Link) (ids : List LinkId) (g : Graph B) :
    (g.under c).modifyLinks ids f = (g.modifyLinks ids f).under c := by
  induction ids generalizing g with
  | nil => rfl
  | cons id ids ih => exact ih (g.modifyLink id f)

variable (g c)

theorem eraseNode_under (id : NodeId) : { g.under c with nodes := (g.under c).nodes.erase id } =
    under { g with nodes := g.nodes.erase id } c := by
  have hn := g.nodes.mapValues_erase (fun id n => n.noting (c.place id)) id
  unfold under
  rw [hn]

/-- A node that is added has the place that it came with. -/
theorem place_under (n : Node B) (k : Nat) (id : NodeId) (next : Nat) :
    (g.under c).place (n.noting k) id next =
      (g.place n id next).under { c with place := fun i => if i = id then k else c.place i } := by
  have hs : (n.noting k).snapped g.settings = (n.snapped g.settings).noting k := by
    unfold Node.snapped
    split
    · unfold Node.alignToGrid
      split <;> rfl
    · rfl
  have hn : (g.nodes.mapValues fun i n => n.noting (c.place i)).insert id
      { (n.snapped g.settings).noting k with id := some id } =
        (g.nodes.insert id { n.snapped g.settings with id := some id }).mapValues fun i n =>
          n.noting (if i = id then k else c.place i) := by
    apply Assoc.ext_view
    · rw [Assoc.keys_mapValues, Assoc.keys_insert, Assoc.keys_insert, Assoc.keys_mapValues]
    · intro i
      rw [Assoc.get?_mapValues, Assoc.get?_insert, Assoc.get?_insert, Assoc.get?_mapValues]
      by_cases h : i = id
      · rw [if_pos h, if_pos h, if_pos h]
        rfl
      · rw [if_neg h, if_neg h, if_neg h]
  rw [place_snapped, place_snapped]
  unfold under bump
  simp only [hs, hn]

theorem dropLink_under (k : LinkId) (l : Link) : (g.under c).dropLink k l =
    (g.dropLink k l).under { c with stale := true } := by
  have hs : ∀ {g g' : Graph B}, g' = g.under c →
      { g' with stale := true } = under { g with stale := true } { c with stale := true } := by
    rintro g _ rfl
    rfl
  exact hs (modifyNode_under (modifyNode_under rfl fun _ _ => rfl) fun _ _ => rfl)

theorem addLink_under (l : Link) : (g.under c).addLink l = (g.addLink l).under c := by
  unfold addLink
  exact modifyNode_under (modifyNode_under rfl fun _ _ => rfl) fun _ _ => rfl

theorem eraseInput_under (id : NodeId) (slot : Nat) :
    (g.under c).eraseInput id slot = (g.eraseInput id slot).under c := by
  unfold eraseInput
  rw [get?_under]
  cases g.nodes.get? id with
  | none => rfl
  | some n => exact modifyNode_under (modifyLinks_under _ _ g) fun _ _ => rfl

theorem eraseOutput_under (id : NodeId) (slot : Nat) :
    (g.under c).eraseOutput id slot = (g.eraseOutput id slot).under c := by
  unfold eraseOutput
  rw [get?_under]
  cases g.nodes.get? id with
  | none => rfl
  | some n => exact modifyNode_under (modifyLinks_under _ _ g) fun _ _ => rfl

theorem setOutputData_under (id : NodeId) (slot : Nat) (value : Value) :
    (g.under c).setOutputData id slot value = (g.setOutputData id slot value).under c := by
  unfold setOutputData
  rw [output?_under]
  cases g.output? id slot with
  | none => rfl
  | some s => exact modifyNode_under (modifyLinks_under _ _ g) fun _ _ => rfl

theorem clearTriggered_under (id : NodeId) (slot : Nat) (only : Option LinkId) :
    (g.under c).clearTriggered id slot only = (g.clearTriggered id slot only).under c := by
  unfold clearTriggered
  rw [output?_under]
  cases g.output? id slot with
  | none => rfl
  | some s => exact modifyLinks_under _ _ g

theorem stack_under (margin x : Float32) (ids : List NodeId) :
    ∀ (g : Graph B) (y widest : Float32), stack margin x (g.under c) ids y widest =
      Prod.map (under · c) id (stack margin x g ids y widest) := by
  induction ids with
  | nil => exact fun _ _ _ => rfl
  | cons id ids ih =>
    intro g y widest
    unfold stack
    rw [get?_under]
    cases g.nodes.get? id with
    | none => exact ih g y widest
    | some n =>
      have hg : ((g.under c).modifyNode id fun n => { n with pos := ⟨x, y⟩ }) =
          (g.modifyNode id fun n => { n with pos := ⟨x, y⟩ }).under c :=
        modifyNode_under rfl fun _ _ => rfl
      simp only [Option.map_some, hg]
      exact ih _ _ _

theorem spread_under (margin : Float32) (columns : List (List NodeId)) :
    ∀ (g : Graph B) (x : Float32),
      spread margin (g.under c) columns x = (spread margin g columns x).under c := by
  induction columns with
  | nil => exact fun _ _ => rfl
  | cons column columns ih =>
    intro g x
    unfold spread
    rw [stack_under]
    exact ih _ _

theorem arrange_under (margin : Float32) : (g.under c).arrange margin = (g.arrange margin).under c := by
  unfold arrange
  rw [columns_under, spread_under]

theorem withTerminals_under (d : Direction) (ts : Assoc String Terminal) :
    (g.under c).withTerminals d ts = (g.withTerminals d ts).under c := by
  cases d <;> rfl

end Graph

/-! ## Loading -/

def LinkLoad.under (load : LinkLoad B) (c : Schedule) : LinkLoad B :=
  { load with graph := load.graph.under c }

namespace Graph

def Repair.under (r : Repair B) (c : Schedule) : Repair B := { r with graph := r.graph.under c }

variable (g : Graph B) (c : Schedule)

theorem mergeLinks_under (nodes : Renaming NodeId) (records : List LinkRecord) :
    (g.under c).mergeLinks nodes records = (g.mergeLinks nodes records).under c := by
  have hadd : ∀ (load : LinkLoad B) (r : LinkRecord),
      LinkLoad.add nodes (load.under c) r = (load.add nodes r).under c := by
    intro load r
    have hclaim : (load.under c).claim r.id = load.claim r.id := rfl
    unfold LinkLoad.add
    rw [hclaim]
    cases nodes.get? r.origin with
    | none => rfl
    | some origin => cases nodes.get? r.target <;> rfl
  have hfold : ∀ load : LinkLoad B, records.foldl (LinkLoad.add nodes) (load.under c) =
      (records.foldl (LinkLoad.add nodes) load).under c := fun load =>
    List.foldl_hom (fun load : LinkLoad B => load.under c) hadd
  exact hfold ⟨g, ∅, []⟩

theorem settle_under (r : Repair B) (k : LinkId) :
    settle (r.under c) k = (settle r k).under c := by
  have hl : (r.under c).graph.links.get? k = r.graph.links.get? k := rfl
  have hg : (r.under c).graph = r.graph.under c := rfl
  have hstand : ∀ l, (r.graph.under c).canStand k l = r.graph.canStand k l := by
    intro l
    unfold canStand
    rw [output?_under, input?_under]
  have hentered : ∀ l, (r.graph.under c).isEntered k l = r.graph.isEntered k l := by
    intro l
    unfold isEntered
    rw [output?_under, input?_under]
  have henter : ∀ l, (r.graph.under c).enter k l = (r.graph.enter k l).under c := fun l =>
    modifyNode_under (modifyNode_under rfl fun _ _ => rfl) fun _ _ => rfl
  unfold settle
  rw [hl]
  cases r.graph.links.get? k with
  | none => rfl
  | some l =>
    simp only [hg, hstand, hentered, henter]
    split <;> rfl

theorem relinkAll_under (k : NodeId → Direction → Nat → LinkId → Option LinkId) :
    (g.under c).relinkAll k = (g.relinkAll k).under c := by
  have hn : (g.under c).nodes.mapValues (fun id n => n.relink (k id)) =
      (g.nodes.mapValues fun id n => n.relink (k id)).mapValues fun id n => n.noting (c.place id) := by
    show (g.nodes.mapValues fun id n => n.noting (c.place id)).mapValues _ = _
    rw [Assoc.mapValues_mapValues, Assoc.mapValues_mapValues]
    rfl
  unfold relinkAll
  rw [hn]
  rfl

theorem losesLinks_under (k : NodeId → Direction → Nat → LinkId → Option LinkId) :
    (g.under c).losesLinks k = g.losesLinks k := by
  show (g.nodes.entries.map _).any _ = _
  rw [List.any_map]
  rfl

theorem repair_under (pruned : List LinkId) :
    (g.under c).repair pruned = (g.repair pruned).under c := by
  have hfold : ∀ (ks : List LinkId) (r : Repair B),
      ks.foldl settle (r.under c) = (ks.foldl settle r).under c := fun ks r =>
    List.foldl_hom (fun r : Repair B => r.under c) fun r k => settle_under c r k
  have hr : (g.under c).links.keys.foldl settle ⟨g.under c, pruned, false⟩ =
      (g.links.keys.foldl settle ⟨g, pruned, false⟩).under c := hfold g.links.keys ⟨g, pruned, false⟩
  have hg : ∀ r : Repair B, (r.under c).graph = r.graph.under c := fun _ => rfl
  -- which links live, and where they end, is a matter of the links alone
  have hlive : ∀ g : Graph B, (g.under c).live = g.live := fun _ => rfl
  have howned : ∀ g : Graph B, (g.under c).owned = g.owned := fun _ => rfl
  unfold repair
  simp only [hr, hg, hlive, relinkAll_under, losesLinks_under, howned]
  rfl

end Graph

end Dataflow
