/-
  The books of the events that cross links.

  `Graph.Crossed` keeps the books while events cross links.  It names the links, and says that each
  counter and each recorder has taken in as many events as have crossed the link that feeds it.  It is
  reflexive and transitive, so it holds of a whole run because it holds of each event.

  An event is taken in because its target is there to take it (`Graph.Manned`): when an emitter sends
  events, no body is running but its own, and no event goes to an emitter, which has no inputs.
-/

import Dataflow.Proofs.Aftermath
import Dataflow.Proofs.Signals

namespace Dataflow

variable {B σ : Type}

/-! ## Books -/

namespace Graph

/-- The count of a node, if it is a whole number. -/
def count? (g : Graph B) (id : NodeId) : Option Int :=
  (Catalog.numberOr0 "count" (g.property? id "count")).toOption.bind Numeric.whole?

/-- The entries of a node, if it has a list of them. -/
def entries? (g : Graph B) (id : NodeId) : Option (List Value) :=
  match g.property? id "entries" with
  | some (.arr es) => some es
  | _ => none

/-- A count that is written as an integer is that integer. -/
theorem count?_of_int {g : Graph B} {id : NodeId} {n : Int}
    (h : g.property? id "count" = some (.int n)) (hlow : -2 ^ 53 < n) (hhigh : n < 2 ^ 53) :
    g.count? id = some n := by
  unfold count?
  rw [h]
  exact Numeric.whole?_ofInt hlow hhigh

/-- How often a list names the link that feeds the first input of a node. -/
def owed (g : Graph B) (ks : List LinkId) (id : NodeId) : Nat :=
  match (g.input? id 0).bind Input.link with
  | some k => ks.count k
  | none => 0

/-- A node sends, counts or records events. -/
def Signals (g : Graph Catalog) (id : NodeId) : Prop :=
  ∃ b, g.behavior? id = some b ∧ b.signals = true

end Graph

/-- What of a node decides how it takes events: all but its properties and what it gives. -/
def Node.duty (n : Node B) : Node B := { n with properties := ∅, outputs := [] }

theorem Node.eq_of_duty {n n' : Node B} (h : n'.duty = n.duty) : n'.behavior = n.behavior ∧
    n'.inputs = n.inputs ∧ n'.mode = n.mode ∧ n'.canExecute = n.canExecute ∧
      n'.acceptsActions = n.acceptsActions :=
  ⟨(congrArg Node.behavior h :), (congrArg Node.inputs h :), (congrArg Node.mode h :),
    (congrArg Node.canExecute h :), (congrArg Node.acceptsActions h :)⟩

namespace Graph

/-- What of the node decides how it takes events. -/
def duty? (g : Graph B) (id : NodeId) : Option (Node B) := (g.nodes.get? id).map Node.duty

/-- The nodes that send, count and record events have the slots, the modes and the flags of their
types, and nothing leads to the second input of a counter. -/
structure Signaling (g : Graph Catalog) : Prop where
  consistent : g.Consistent
  emitters : ∀ id n, g.nodes.get? id = some n → n.behavior = some .emitter →
    n.inputs = [] ∧ n.outputs.length = 1 ∧ n.mode = .always ∧ n.canExecute = true
  counters : ∀ id n, g.nodes.get? id = some n → n.behavior = some .counter →
    n.inputs.map Input.name = ["inc", "reset"] ∧ n.acceptsActions = true ∧ ∀ k, ¬g.Holds id 1 k
  recorders : ∀ id n, g.nodes.get? id = some n → n.behavior = some .recorder →
    n.inputs.length = 1 ∧ n.mode = .onTrigger ∧ n.canExecute = true ∧ n.acceptsActions = false

/-- Events with a payload have crossed links: what became of a graph then.  The first graph tells
which nodes have to do with events, and what feeds them. -/
structure Crossed (g₀ : Graph Catalog) (v : Value) (ks : List LinkId) (g g' : Graph Catalog) :
    Prop where
  skeleton : g'.skeleton = g.skeleton
  count : g'.iteration = g.iteration
  duties : ∀ id, g₀.Signals id → g'.duty? id = g.duty? id
  others : ∀ id, ¬g₀.Signals id → (∀ b, g.behavior? id = some b → b.signals = false) →
    ∀ b, g'.behavior? id = some b → b.signals = false
  counts : ∀ id n, g₀.behavior? id = some .counter → g.count? id = some n → -2 ^ 53 < n →
    n + g₀.owed ks id < 2 ^ 53 → g'.count? id = some (n + g₀.owed ks id)
  entries : ∀ id es, g₀.behavior? id = some .recorder → g.entries? id = some es →
    g'.entries? id = some (es ++ List.replicate (g₀.owed ks id) v)

theorem owed_nil (g : Graph B) (id : NodeId) : g.owed [] id = 0 := by
  unfold owed
  split <;> rfl

theorem owed_append (g : Graph B) (ks ks' : List LinkId) (id : NodeId) :
    g.owed (ks ++ ks') id = g.owed ks id + g.owed ks' id := by
  unfold owed
  split
  · exact List.count_append
  · rfl

/-- A link is due at the node only that it leads to. -/
theorem owed_singleton {g : Graph B} (hg : g.Joined) {k : LinkId} {l : Link}
    (hl : g.links.get? k = some l) {id : NodeId} (hid : id ≠ l.target) : g.owed [k] id = 0 := by
  unfold owed
  split
  · next i hi =>
    obtain ⟨slot, hslot, hlink⟩ := Option.bind_eq_some_iff.1 hi
    obtain ⟨l', hl', ht, -⟩ := hg.of_input hslot hlink
    refine List.count_eq_zero.2 fun hmem => ?_
    rw [List.mem_singleton.1 hmem, hl] at hl'
    cases hl'
    exact hid ht.symm
  · rfl

section Idle

variable {g g' : Graph B} {id : NodeId} (h : ∀ name, g'.property? id name = g.property? id name)
  {m : Nat} (hm : m = 0)
include h hm

/-- Where the properties are the same, so is the count, as it should be if no event was due. -/
theorem count?_idle {n : Int} (hn : g.count? id = some n) : g'.count? id = some (n + m) := by
  unfold count? at hn ⊢
  rw [h, hn, hm]
  exact congrArg some (Int.add_zero n).symm

theorem entries?_idle {es : List Value} (hes : g.entries? id = some es) (v : Value) :
    g'.entries? id = some (es ++ List.replicate m v) := by
  unfold entries? at hes ⊢
  rw [h, hes, hm]
  exact congrArg some (List.append_nil es).symm

end Idle

theorem owed_self {g : Graph B} {id : NodeId} {i : Input} (hi : g.input? id 0 = some i) {k : LinkId}
    (hk : i.link = some k) : g.owed [k] id = 1 := by
  unfold owed
  rw [hi]
  show (match i.link with | some k' => [k].count k' | none => 0) = 1
  rw [hk]
  exact List.count_singleton_self ..

namespace Crossed

variable {g₀ g g' g'' : Graph Catalog} {v : Value} {ks ks' : List LinkId} {id : NodeId}

theorem trans (h : g₀.Crossed v ks g g') (h' : g₀.Crossed v ks' g' g'') :
    g₀.Crossed v (ks ++ ks') g g'' where
  skeleton := h'.skeleton.trans h.skeleton
  count := h'.count.trans h.count
  duties id hid := (h'.duties id hid).trans (h.duties id hid)
  others id hid hg := h'.others id hid (h.others id hid hg)
  counts id n hb hn hlow hhigh := by
    rw [g₀.owed_append] at hhigh ⊢
    have hfirst := h.counts id n hb hn hlow (by omega)
    rw [h'.counts id _ hb hfirst (by omega) (by omega)]
    congr 1
    omega
  entries id es hb hes := by
    rw [h'.entries id _ hb (h.entries id es hb hes), g₀.owed_append, List.append_assoc,
      List.replicate_append_replicate]

/-- All that has changed is one node, which kept its duty. -/
theorem of_node (h : g.Aside id g') (hduty : g'.duty? id = g.duty? id)
    (hks : ∀ i, i ≠ id → g₀.owed ks i = 0)
    (hcount : g₀.behavior? id = some .counter → ∀ n, g.count? id = some n → -2 ^ 53 < n →
      n + g₀.owed ks id < 2 ^ 53 → g'.count? id = some (n + g₀.owed ks id))
    (hentries : g₀.behavior? id = some .recorder → ∀ es, g.entries? id = some es →
      g'.entries? id = some (es ++ List.replicate (g₀.owed ks id) v)) : g₀.Crossed v ks g g' := by
  have hduties : ∀ i, g'.duty? i = g.duty? i := by
    intro i
    by_cases hi : i = id
    · rw [hi, hduty]
    · unfold Graph.duty?
      rw [h.nodes i hi]
  have hbehavior : ∀ i, g'.behavior? i = g.behavior? i := by
    intro i
    have hb := congrArg (fun o : Option (Node Catalog) => o.bind Node.behavior) (hduties i)
    unfold Graph.duty? at hb
    simp only [Option.bind_map] at hb
    exact hb
  refine ⟨h.skeleton, h.count, fun i _ => hduties i, fun i _ hg b hb => ?_, ?_, ?_⟩
  · exact hg b ((hbehavior i).symm.trans hb)
  · intro i n hb hn hlow hhigh
    by_cases hi : i = id
    · subst hi
      exact hcount hb n hn hlow hhigh
    · exact count?_idle (h.property? hi) (hks i hi) hn
  · intro i es hb hes
    by_cases hi : i = id
    · subst hi
      exact hentries hb es hes
    · exact entries?_idle (h.property? hi) (hks i hi) hes v

/-- All that has changed is one node, which has nothing to do with events. -/
theorem beside (hid : ¬g₀.Signals id) (h : g.Aside id g')
    (hb : ∀ b, g'.behavior? id = some b → b.signals = false) : g₀.Crossed v [] g g' := by
  have hne : ∀ {i b}, g₀.behavior? i = some b → b.signals = true → i ≠ id := by
    rintro i b hi hs rfl
    exact hid ⟨b, hi, hs⟩
  refine ⟨h.skeleton, h.count, ?_, fun i _ hg b hi => ?_, ?_, ?_⟩
  · rintro i ⟨b, hi, hs⟩
    unfold Graph.duty?
    rw [h.nodes i (hne hi hs)]
  · by_cases he : i = id
    · subst he
      exact hb b hi
    · exact hg b ((h.behavior? he).symm.trans hi)
  · intro i n hi hn _ _
    exact count?_idle (h.property? (hne hi rfl)) (g₀.owed_nil i) hn
  · intro i es hi hes
    exact entries?_idle (h.property? (hne hi rfl)) (g₀.owed_nil i) hes v

/-- Events have crossed while an emitter was changed and changed back. -/
theorem within {a a' : Graph Catalog} (hid : g₀.behavior? id = some .emitter) (hb : g.Aside id a)
    (h : g₀.Crossed v ks a a') (ha : a'.Aside id g') (hduty : g'.duty? id = g.duty? id) :
    g₀.Crossed v ks g g' := by
  have hne : ∀ {i b}, g₀.behavior? i = some b → b ≠ .emitter → i ≠ id := by
    rintro i b hi hs rfl
    rw [hid] at hi
    exact hs (Option.some.inj hi).symm
  refine ⟨ha.skeleton.trans (h.skeleton.trans hb.skeleton), ha.count.trans (h.count.trans hb.count),
    fun i hi => ?_, fun i hi hg b hbi => ?_, fun i n hi hn hlow hhigh => ?_, fun i es hi hes => ?_⟩
  · by_cases he : i = id
    · rw [he, hduty]
    · have hsame := h.duties i hi
      unfold Graph.duty? at hsame ⊢
      rw [ha.nodes i he, hsame, hb.nodes i he]
  · have he : i ≠ id := by
      rintro rfl
      exact hi ⟨_, hid, rfl⟩
    rw [ha.behavior? he] at hbi
    exact h.others i hi (fun c hc => hg c ((hb.behavior? he).symm.trans hc)) b hbi
  · have he : i ≠ id := hne hi nofun
    have hsame := h.counts i n hi
    unfold Graph.count? at hn hsame ⊢
    rw [hb.property? he] at hsame
    rw [ha.property? he]
    exact hsame hn hlow hhigh
  · have he : i ≠ id := hne hi nofun
    have hsame := h.entries i es hi
    unfold Graph.entries? at hes hsame ⊢
    rw [hb.property? he] at hsame
    rw [ha.property? he]
    exact hsame hes

/-- No node that has to do with events waits for one that crossed these links. -/
theorem idle (h : g₀.Crossed v [] g g') (hks : ∀ i, g₀.Signals i → g₀.owed ks i = 0) :
    g₀.Crossed v ks g g' where
  skeleton := h.skeleton
  count := h.count
  duties := h.duties
  others := h.others
  counts id n hb hn hlow hhigh := by
    have hsame := h.counts id n hb hn hlow
    rw [hks id ⟨_, hb, rfl⟩] at hhigh ⊢
    rw [g₀.owed_nil] at hsame
    exact hsame hhigh
  entries id es hb hes := by
    have hsame := h.entries id es hb hes
    rw [g₀.owed_nil] at hsame
    rw [hks id ⟨_, hb, rfl⟩]
    exact hsame

/-- Nothing has changed about the nodes. -/
theorem of_nodes (hs : g'.skeleton = g.skeleton) (hc : g'.iteration = g.iteration)
    (hn : g'.nodes = g.nodes) : g₀.Crossed v [] g g' := by
  have hprops : ∀ i name, g'.property? i name = g.property? i name := by
    intro i name
    unfold Graph.property?
    rw [hn]
  have hduty : ∀ i, g'.duty? i = g.duty? i := by
    intro i
    unfold Graph.duty?
    rw [hn]
  have h : g.Aside ⟨0⟩ g' := ⟨hs, hc, fun i _ => by rw [hn]⟩
  exact of_node h (hduty _) (fun i _ => g₀.owed_nil i)
    (fun _ _ hcount _ _ => count?_idle (hprops _) (g₀.owed_nil _) hcount)
    (fun _ _ hes => entries?_idle (hprops _) (g₀.owed_nil _) hes v)

theorem refl (g₀ : Graph Catalog) (v : Value) (g : Graph Catalog) : g₀.Crossed v [] g g :=
  of_nodes rfl rfl rfl

end Crossed

/-! ## Where events are taken in -/

/-- The nodes that have to do with events stand as they did in the first graph, with their behaviours
in place, except perhaps for one whose body is running. -/
structure Manned (g₀ : Graph Catalog) (busy : Option NodeId) (g : Graph Catalog) : Prop where
  skeleton : g.skeleton = g₀.skeleton
  count : g.iteration = g₀.iteration
  duties : ∀ id, g₀.Signals id → busy ≠ some id → g.duty? id = g₀.duty? id
  others : ∀ id, ¬g₀.Signals id → ∀ b, g.behavior? id = some b → b.signals = false

namespace Manned

variable {g₀ g g' : Graph Catalog} {busy : Option NodeId} {v : Value} {ks : List LinkId}

theorem refl (g₀ : Graph Catalog) : g₀.Manned none g₀ where
  skeleton := rfl
  count := rfl
  duties _ _ _ := rfl
  others _ hid b hb := Bool.eq_false_iff.2 fun hs => hid ⟨b, hb, hs⟩

theorem crossed (h : g₀.Manned busy g) (hc : g₀.Crossed v ks g g') : g₀.Manned busy g' where
  skeleton := hc.skeleton.trans h.skeleton
  count := hc.count.trans h.count
  duties id hid hbusy := (hc.duties id hid).trans (h.duties id hid hbusy)
  others id hid := hc.others id hid (h.others id hid)

theorem detach (h : g₀.Manned none g) (id : NodeId) : g₀.Manned (some id) (g.detach id) := by
  have haside : g.Aside id (g.detach id) := .behavior id g none
  refine ⟨haside.skeleton.trans h.skeleton, haside.count.trans h.count, fun i hi hne => ?_,
    fun i hi b hb => ?_⟩
  · rw [← h.duties i hi nofun]
    unfold duty?
    rw [haside.nodes i fun he => hne (congrArg some he.symm)]
  · by_cases he : i = id
    · change ((g.nodes.modify id _).get? i).bind Node.behavior = some b at hb
      rw [Assoc.get?_modify, if_pos he] at hb
      cases hn : g.nodes.get? i with
      | none =>
        rw [hn] at hb
        cases hb
      | some n =>
        rw [hn] at hb
        cases hb
    · exact h.others i hi b ((haside.behavior? he).symm.trans hb)

/-- A node that has to do with events, and what it was in the first graph. -/
theorem node (h : g₀.Manned busy g) {id : NodeId} {n₀ : Node Catalog}
    (hn₀ : g₀.nodes.get? id = some n₀) (hid : g₀.Signals id) (hbusy : busy ≠ some id) :
    ∃ n, g.nodes.get? id = some n ∧ n.duty = n₀.duty := by
  have hduty := h.duties id hid hbusy
  unfold duty? at hduty
  rw [hn₀] at hduty
  exact Option.map_eq_some_iff.1 hduty

end Manned

namespace Signaling

variable {g : Graph Catalog} (hg : g.Signaling) {k : LinkId} {l : Link} {n : Node Catalog}
  (hl : g.links.get? k = some l) (hn : g.nodes.get? l.target = some n)
include hg hl hn

/-- No link leads to an emitter. -/
theorem not_emitter : n.behavior ≠ some .emitter := by
  intro hb
  obtain ⟨i, hi, -⟩ := hg.consistent.target_exists hl
  rw [input_of_node hn, (hg.emitters _ n hn hb).1] at hi
  cases hi

/-- A link to a recorder is the one at its input. -/
theorem recorder_entrance (hb : n.behavior = some .recorder) : g.owed [k] l.target = 1 ∧
    n.mode = .onTrigger ∧ n.canExecute = true ∧ n.acceptsActions = false := by
  obtain ⟨hone, hrest⟩ := hg.recorders _ n hn hb
  obtain ⟨i, hi, hlink⟩ := hg.consistent.target_exists hl
  refine ⟨?_, hrest⟩
  rw [input_of_node hn] at hi
  have hlt := (List.getElem?_eq_some_iff.1 hi).1
  rw [show l.targetSlot = 0 by omega] at hi
  exact owed_self (input_of_node hn 0 ▸ hi) hlink

/-- A link to a counter is the one at its first input, where events are counted. -/
theorem counter_entrance (hb : n.behavior = some .counter) : l.targetSlot = 0 ∧
    g.owed [k] l.target = 1 ∧ ((n.inputs[0]?).map Input.name).getD "" = "inc" := by
  obtain ⟨hnames, -, hfree⟩ := hg.counters _ n hn hb
  obtain ⟨i, hi, hlink⟩ := hg.consistent.target_exists hl
  have hzeroth : l.targetSlot = 0 := by
    have hlen := congrArg List.length hnames
    rw [input_of_node hn] at hi
    have hlt := (List.getElem?_eq_some_iff.1 hi).1
    have hnot : l.targetSlot ≠ 1 := fun h => hfree k ⟨i, by rw [input_of_node hn, ← h, hi], hlink⟩
    simp only [List.length_map, List.length_cons, List.length_nil] at hlen
    omega
  rw [hzeroth] at hi
  refine ⟨hzeroth, owed_self hi hlink, ?_⟩
  rw [← List.getElem?_map, hnames]
  rfl

end Signaling

theorem duty?_setProperty (g : Graph B) (id : NodeId) (name : String) (value : Value) (i : NodeId) :
    (g.setProperty id name value).bump.duty? i = g.duty? i := by
  show ((g.nodes.modify id _).get? i).map Node.duty = (g.nodes.get? i).map Node.duty
  rw [Assoc.get?_modify]
  split
  · cases g.nodes.get? i <;> rfl
  · rfl

theorem duty?_setOutputData (g : Graph B) (id : NodeId) (slot : Nat) (value : Value) (i : NodeId) :
    (g.setOutputData id slot value).duty? i = g.duty? i := by
  obtain ⟨f, hf, hnodes⟩ := g.nodes_setOutputData id slot value
  unfold duty?
  rw [hnodes, Assoc.get?_modify]
  split
  · rw [Option.map_map]
    congr 1
    funext n
    obtain ⟨outputs, ho⟩ := hf n
    exact (congrArg Node.duty ho :)
  · rfl

theorem property?_setOutputData (g : Graph B) (id : NodeId) (slot : Nat) (value : Value) (i : NodeId)
    (name : String) : (g.setOutputData id slot value).property? i name = g.property? i name := by
  obtain ⟨f, hf, hnodes⟩ := g.nodes_setOutputData id slot value
  unfold property?
  rw [hnodes, Assoc.get?_modify]
  split
  · rw [Option.bind_map]
    congr 1
    funext n
    obtain ⟨outputs, ho⟩ := hf n
    exact (congrArg (fun m : Node B => m.properties.get? name) ho :)
  · rfl

theorem duty?_behavior (g : Graph B) (id : NodeId) (b : Option B) :
    (g.modifyNode id fun n => { n with behavior := b }).duty? id =
      (g.duty? id).map fun n => { n with behavior := b } := by
  show ((g.nodes.modify id _).get? id).map Node.duty = ((g.nodes.get? id).map Node.duty).map _
  rw [Assoc.get?_modify, if_pos rfl, Option.map_map, Option.map_map]
  rfl

theorem property?_setProperty {g : Graph B} {id : NodeId} {b : B} (hb : g.behavior? id = some b)
    (name : String) (value : Value) :
    (g.setProperty id name value).bump.property? id name = some value := by
  obtain ⟨n, hn, -⟩ := Option.bind_eq_some_iff.1 hb
  show ((g.nodes.modify id _).get? id).bind _ = _
  rw [Assoc.get?_modify, if_pos rfl, hn]
  exact Assoc.get?_insert_self ..

end Graph

/-- The session in which an event has crossed a link. -/
def Session.marked (s : Session B σ) (k : LinkId) : Session B σ :=
  s.edit fun g => g.modifyLink k fun l => { l with triggered := true }

/-! ## One event -/

namespace Engine

variable {g₀ : Graph Catalog} {v : Value}

/-- The body of a node that has nothing to do with events lets no event cross. -/
theorem crosses_aside {busy : Option NodeId} (depth : Nat) {s : Session Catalog Unit}
    (hs : g₀.Manned busy s.graph) {id : NodeId} (hid : ¬g₀.Signals id) (task : Task) :
    Keeps (g₀.Crossed v [] s.graph) (enter (runner (σ := Unit) depth) id task) := by
  intro t ht
  have hothers := (hs.crossed ht).others id hid
  refine (ensures_aside depth hothers task).mono fun _ t' h => ?_
  exact ht.trans (.beside hid h.1 h.2)

/-- A counter that has its turn counts nothing. -/
theorem crosses_shown (depth : Nat) {s : Session Catalog Unit} {id : NodeId}
    (hb : s.graph.behavior? id = some .counter) (payload : Option Value) :
    Ensures (enter (runner depth) id (.execute payload)) s fun _ s' =>
      g₀.Crossed v [] s.graph s'.graph := by
  refine (ensures_shown depth hb payload).mono ?_
  rintro ending s' ⟨count, hs'⟩
  rw [hs']
  have hprops := s.graph.property?_setOutputData id 0 count id
  exact .of_node (s.graph.aside_setOutputData id 0 count) (Graph.duty?_setOutputData ..)
    (fun i _ => g₀.owed_nil i)
    (fun _ _ hn _ _ => Graph.count?_idle hprops (g₀.owed_nil id) hn)
    fun _ _ hes => Graph.entries?_idle hprops (g₀.owed_nil id) hes v

section Arrival

variable {k : LinkId} {s : Session Catalog Unit} {id : NodeId}
  (hone : g₀.owed [k] id = 1) (hzero : ∀ i, i ≠ id → g₀.owed [k] i = 0)
include hone hzero

/-- An event that reaches a counter adds one to its count. -/
theorem crosses_counter (depth : Nat) (hb₀ : g₀.behavior? id = some .counter)
    (hb : s.graph.behavior? id = some .counter) (payload : Value) :
    Ensures (enter (runner depth) id (.act "inc" payload)) s fun ending s' =>
      (∃ e, ending = some (.error e)) ∨ g₀.Crossed v [k] s.graph s'.graph := by
  refine (ensures_incremented depth hb payload).mono fun ending s' h => ?_
  rcases h with hfailed | ⟨x, hx, hs'⟩
  · exact .inl hfailed
  · rw [hs']
    refine .inr (.of_node (.setProperty ..) (Graph.duty?_setProperty ..) hzero ?_ fun hrec => ?_)
    · intro _ n hn hlow hhigh
      rw [hone] at hhigh ⊢
      have hwhole : Numeric.whole? x = some n := by
        unfold Graph.count? at hn
        rw [hx] at hn
        exact hn
      obtain ⟨hsum, hfinite⟩ := Numeric.whole?_add_one hwhole (by omega) hhigh
      unfold Graph.count?
      rw [Graph.property?_setProperty hb]
      unfold Value.ofFloat
      rw [if_pos hfinite]
      exact hsum
    · rw [hb₀] at hrec
      cases hrec

/-- An event that reaches a recorder adds its payload to the entries. -/
theorem crosses_recorder (depth : Nat) (hb₀ : g₀.behavior? id = some .recorder)
    (hb : s.graph.behavior? id = some .recorder) :
    Ensures (enter (runner depth) id (.execute (some v))) s fun _ s' =>
      g₀.Crossed v [k] s.graph s'.graph := by
  refine (ensures_recorded depth hb v).mono fun _ s' hs' => ?_
  rw [hs']
  refine .of_node (.setProperty ..) (Graph.duty?_setProperty ..) hzero (fun hcounter => ?_) ?_
  · rw [hb₀] at hcounter
    cases hcounter
  · intro _ es hes
    have hold : Catalog.entriesOf (s.graph.property? id "entries") = es := by
      unfold Graph.entries? at hes
      split at hes
      · next hp =>
        rw [hp]
        exact Option.some.inj hes
      · cases hes
    unfold Graph.entries?
    rw [Graph.property?_setProperty hb, hold, hone]
    rfl

end Arrival

theorem crosses_marked (s : Session Catalog σ) (k : LinkId) :
    g₀.Crossed v [] s.graph (s.marked k).graph :=
  .of_nodes (Graph.skeleton_modifyLink fun _ => rfl) rfl rfl

section Delivered

variable [Behavior B σ] {run : Runner B σ} {payload : Value} {k : LinkId} {s : Session B σ} {l : Link}
  {n : Node B} {Q : Except GraphError Bool → Session B σ → Prop}

/-- What a delivery comes to: the link is marked, and the node that it leads to is entered to handle
the event, or to run with the payload, or it is passed over. -/
theorem ensures_deliver (hl : s.graph.links.get? k = some l) (hn : s.graph.nodes.get? l.target = some n)
    (hact : n.acceptsActions = true →
      Ensures (enter run l.target (.act (((n.inputs[l.targetSlot]?).map Input.name).getD "") payload))
        (s.marked k) fun ending => Q (verdict l.target ending))
    (hrun : n.acceptsActions = false → n.mode = .onTrigger → n.canExecute = true →
      Ensures (enter run l.target (.execute (some payload)))
        (s.marked k) fun ending => Q (verdict l.target ending))
    (hpass : n.acceptsActions = false → (n.mode = .onTrigger → n.canExecute = false) →
      Q (.ok false) (s.marked k)) :
    Ensures (deliver run payload k) s Q := by
  apply Ensures.get_bind
  rw [hl]
  apply Ensures.set_bind
  have hmarked : (s.marked k).graph.nodes.get? l.target = some n := hn
  change Ensures _ (s.marked k) _
  simp only [hn]
  split
  · next ha =>
    apply Ensures.get_bind
    rw [hmarked]
    apply Ensures.bind
    exact (hact ha).mono fun _ _ h => Ensures.pure h
  · next ha =>
    have hdeaf := Bool.eq_false_iff.2 ha
    split
    · next hm =>
      apply Ensures.get_bind
      simp only [hmarked]
      split
      · next hc =>
        apply Ensures.bind
        exact (hrun hdeaf hm hc).mono fun _ _ h => Ensures.pure h
      · next hc => exact Ensures.pure (hpass hdeaf fun _ => Bool.eq_false_iff.2 hc)
    · next hm => exact Ensures.pure (hpass hdeaf fun h => (hm h).elim)

end Delivered

section Sent

variable (hg : g₀.Signaling) (depth : Nat) {sender : NodeId}
include hg

section Attended

variable {k : LinkId} {s : Session Catalog Unit} {l₀ l : Link} {n₀ n : Node Catalog}
  (hl₀ : g₀.links.get? k = some l₀) (hl : s.graph.links.get? k = some l) (hends : l.ends = l₀.ends)
  (hn : s.graph.nodes.get? l.target = some n)
include hl₀ hl hends hn

/-- A node that counts or records events takes in one that crosses a link to it, if it stands as it
did in the first graph. -/
theorem crosses_attended (hn₀ : g₀.nodes.get? l₀.target = some n₀) (hduty : n.duty = n₀.duty)
    (hsig : g₀.Signals l₀.target) :
    Ensures (deliver (runner depth) v k) s fun answer s' =>
      (∃ e, answer = .error e) ∨ g₀.Crossed v [k] s.graph s'.graph := by
  have htarget : l.target = l₀.target := congrArg Ends.target hends
  have hslot : l.targetSlot = l₀.targetSlot := congrArg Ends.targetSlot hends
  have hzero : ∀ i, i ≠ l.target → g₀.owed [k] i = 0 := by
    rw [htarget]
    exact fun i => Graph.owed_singleton hg.consistent.toJoined hl₀
  have hmark : g₀.Crossed v [] s.graph (s.marked k).graph := crosses_marked s k
  obtain ⟨hbeh, hinputs, hmode, hbody, hactions⟩ := Node.eq_of_duty hduty
  obtain ⟨b, hb₀, hsignals⟩ := hsig
  have hb : n₀.behavior = some b := (Graph.behavior_of_node hn₀).symm.trans hb₀
  have hbehavior : s.graph.behavior? l.target = some b :=
    (Graph.behavior_of_node hn).trans (hbeh.trans hb)
  cases b with
  | emitter => exact (hg.not_emitter hl₀ hn₀ hb).elim
  | counter =>
    obtain ⟨hzeroth, hone, hname⟩ := hg.counter_entrance hl₀ hn₀ hb
    rw [← htarget] at hb₀ hone
    have hheeds : n.acceptsActions = true := hactions.trans (hg.counters _ n₀ hn₀ hb).2.1
    refine ensures_deliver hl hn (fun _ => ?_) (fun hdeaf => ?_) fun hdeaf => ?_
    · rw [hinputs, hslot, hzeroth, hname]
      refine (crosses_counter (s := s.marked k) (v := v) hone hzero depth hb₀ hbehavior v).mono ?_
      rintro ending t (⟨e, rfl⟩ | hcrossed)
      · exact .inl ⟨_, rfl⟩
      · exact .inr (hmark.trans hcrossed)
    · rw [hheeds] at hdeaf
      cases hdeaf
    · rw [hheeds] at hdeaf
      cases hdeaf
  | recorder =>
    obtain ⟨hone, htrigger, hcan, hdeaf⟩ := hg.recorder_entrance hl₀ hn₀ hb
    rw [← htarget] at hb₀ hone
    refine ensures_deliver hl hn (fun hheeds => ?_) (fun _ _ _ => ?_) fun _ hnot => ?_
    · rw [hactions.trans hdeaf] at hheeds
      cases hheeds
    · refine (crosses_recorder (s := s.marked k) (v := v) hone hzero depth hb₀ hbehavior).mono ?_
      exact fun _ t hcrossed => .inr (hmark.trans hcrossed)
    · rw [hbody.trans hcan] at hnot
      cases hnot (hmode.trans htrigger)
  | _ => cases hsignals

/-- What becomes of an event that reaches another node does not matter. -/
theorem crosses_unattended (hs : g₀.Manned (some sender) s.graph) (hsig : ¬g₀.Signals l₀.target) :
    Ensures (deliver (runner depth) v k) s fun _ s' => g₀.Crossed v [k] s.graph s'.graph := by
  have hmark : g₀.Crossed v [] s.graph (s.marked k).graph := crosses_marked s k
  have hidle : ∀ {g : Graph Catalog}, g₀.Crossed v [] (s.marked k).graph g →
      g₀.Crossed v [k] s.graph g := by
    refine fun h => (hmark.trans h).idle fun i hi => ?_
    refine Graph.owed_singleton hg.consistent.toJoined hl₀ ?_
    rintro rfl
    exact hsig hi
  have henter := crosses_aside (v := v) depth (hs.crossed hmark) hsig
  rw [← show l.target = l₀.target from congrArg Ends.target hends] at henter
  refine ensures_deliver hl hn (fun _ => ?_) (fun _ _ _ => ?_) fun _ _ => hidle (.refl ..)
  · exact (henter _ _ (.refl ..)).mono fun _ _ h => hidle h
  · exact (henter _ _ (.refl ..)).mono fun _ _ h => hidle h

end Attended

/-- An event that crosses a link is taken in by the node that the link leads to, if that counts or
records events. -/
theorem crosses_deliver {k : LinkId} (hk : g₀.Leaves k sender 0) {s : Session Catalog Unit}
    (hs : g₀.Manned (some sender) s.graph) :
    Ensures (deliver (runner depth) v k) s fun answer s' =>
      (∃ e, answer = .error e) ∨ g₀.Crossed v [k] s.graph s'.graph := by
  obtain ⟨l₀, hl₀, horigin, -⟩ := hk
  have hwiring := (Graph.wiring_of_skeleton hs.skeleton).symm
  obtain ⟨l, hl, hends⟩ := Graph.link_of_wiring hwiring hl₀
  have htarget : l.target = l₀.target := congrArg Ends.target hends
  obtain ⟨i, hi, -⟩ := hg.consistent.target_exists hl₀
  obtain ⟨n₀, hn₀, -⟩ := Graph.node_of_input hi
  by_cases hsig : g₀.Signals l₀.target
  · -- no link leads back to the node that it leaves, so the target is not the one that is running
    have hbusy : some sender ≠ some l₀.target := by
      rw [← horigin]
      exact fun h => hg.consistent.apart k l₀ hl₀ (Option.some.inj h)
    obtain ⟨n, hn, hduty⟩ := hs.node hn₀ hsig hbusy
    rw [← htarget] at hn
    exact crosses_attended hg depth hl₀ hl hends hn hn₀ hduty hsig
  · obtain ⟨n, hn, -⟩ := Graph.node_of_wiring hwiring hn₀
    rw [← htarget] at hn
    exact (crosses_unattended hg depth hl₀ hl hends hn hs hsig).mono fun _ _ h => .inr h

/-- Events that are sent over links are all taken in, unless one fails. -/
theorem crosses_deliverAll {ks : List LinkId} (hks : ∀ k ∈ ks, g₀.Leaves k sender 0) (count : Nat)
    {s : Session Catalog Unit} (hs : g₀.Manned (some sender) s.graph) :
    Ensures (deliverAll (runner depth) v ks count) s fun answer s' =>
      (∃ e, answer = .error e) ∨ g₀.Crossed v ks s.graph s'.graph := by
  induction ks generalizing count s with
  | nil => exact Ensures.pure (.inr (.refl ..))
  | cons k ks ih =>
    obtain ⟨hk, hks⟩ := List.forall_mem_cons.1 hks
    apply Ensures.bind
    refine (crosses_deliver hg depth hk hs).mono ?_
    rintro answer t (⟨e, rfl⟩ | hfirst)
    · exact Ensures.pure (.inl ⟨e, rfl⟩)
    · cases answer with
      | error e => exact Ensures.pure (.inl ⟨e, rfl⟩)
      | ok ran => exact (ih hks _ (hs.crossed hfirst)).mono fun _ _ h => h.imp id hfirst.trans

/-- An event goes over all the links that left the output in the first graph. -/
theorem crosses_triggerSlot {s : Session Catalog Unit} (hs : g₀.Manned (some sender) s.graph) :
    Ensures (triggerSlot (runner depth) sender 0 v none) s fun answer s' =>
      (∃ e, answer = .error e) ∨ g₀.Crossed v (g₀.fan sender 0) s.graph s'.graph := by
  have hfan : s.graph.fan sender 0 = g₀.fan sender 0 :=
    congrArg (fun ks => ks.getD []) (Graph.fan_of_wiring (Graph.wiring_of_skeleton hs.skeleton) sender 0)
  have hks : ∀ k ∈ g₀.fan sender 0, g₀.Leaves k sender 0 := fun k hk =>
    (hg.consistent.outputs sender 0 k).1 (Graph.lists_iff_mem_fan.2 hk)
  apply Ensures.get_bind
  cases hn : s.graph.nodes.get? sender with
  | none => exact Ensures.pure (.inl ⟨_, rfl⟩)
  | some n =>
    unfold Graph.fan at hfan
    rw [Graph.output_of_node hn] at hfan
    cases ho : n.outputs[0]? with
    | none =>
      rw [ho] at hfan
      rw [← show [] = g₀.fan sender 0 from hfan]
      simp only [ho]
      exact Ensures.pure (.inr (.refl ..))
    | some o =>
      rw [ho] at hfan
      have hall : (o.links.filter fun l => (none : Option LinkId).all (· = l)) = g₀.fan sender 0 := by
        rw [← show o.links = g₀.fan sender 0 from hfan]
        exact List.filter_eq_self.2 fun _ _ => rfl
      simp only [ho, hall]
      exact crosses_deliverAll hg depth hks 0 hs

omit hg in
/-- An emitter gets its behaviour back when the events that it sent have crossed. -/
theorem crosses_restored (hb₀ : g₀.behavior? sender = some .emitter) {s t : Session Catalog Unit}
    (hb : s.graph.behavior? sender = some .emitter) {ks : List LinkId}
    (h : g₀.Crossed v ks (s.graph.detach sender) t.graph) :
    g₀.Crossed v ks s.graph (restore t sender .emitter).graph := by
  obtain ⟨n, hn, hbeh⟩ := Option.bind_eq_some_iff.1 hb
  have hduty : s.graph.duty? sender = some n.duty := by
    unfold Graph.duty?
    rw [hn]
    rfl
  have hout : t.graph.duty? sender = some { n.duty with behavior := none } := by
    rw [h.duties sender ⟨_, hb₀, rfl⟩]
    show (s.graph.modifyNode sender _).duty? sender = _
    rw [Graph.duty?_behavior, hduty]
    rfl
  -- the node still waits for its behaviour: its duty was kept while the events were sent
  have hwaits : t.graph.awaitsBehavior sender = true := by
    obtain ⟨m, hm, hsame⟩ := Option.map_eq_some_iff.1 hout
    exact Graph.awaits_iff.2 ⟨m, hm, (congrArg Node.behavior hsame :)⟩
  unfold restore
  rw [if_pos hwaits]
  refine h.within hb₀ (.behavior ..) (.behavior ..) ?_
  show (t.graph.modifyNode sender _).duty? sender = _
  rw [Graph.duty?_behavior, hout, hduty, Option.map_some, ← hbeh]
  rfl

/-- An emitter that has its turn sends the number of the step over all its links. -/
theorem crosses_emitter (hv : v = .int g₀.iteration) {s : Session Catalog Unit}
    (hs : g₀.Manned none s.graph) (hb₀ : g₀.behavior? sender = some .emitter)
    (hb : s.graph.behavior? sender = some .emitter) (payload : Option Value) :
    Ensures (enter (runner depth) sender (.execute payload)) s fun ending s' =>
      (∃ e, ending = some (.error e)) ∨ g₀.Crossed v (g₀.fan sender 0) s.graph s'.graph := by
  refine ensures_entered hb fun depth => ?_
  have hdetached := hs.detach sender
  have hcount : v = .int (s.graph.detach sender).iteration := by
    rw [hdetached.count]
    exact hv
  refine Ensures.get_bind (Ensures.bind ?_)
  show Ensures (triggerSlot (runner depth) sender 0 (.int (s.graph.detach sender).iteration) none) _ _
  rw [← hcount]
  refine (crosses_triggerSlot hg depth hdetached).mono ?_
  rintro answer t (⟨e, rfl⟩ | hcrossed)
  · exact Ensures.pure (.inl ⟨_, rfl⟩)
  · cases answer with
    | error e => exact Ensures.pure (.inl ⟨_, rfl⟩)
    | ok count =>
      exact Ensures.pure (.inr (crosses_restored (t := t.log (.ended sender)) hb₀ hb hcrossed))

end Sent

end Engine

end Dataflow
