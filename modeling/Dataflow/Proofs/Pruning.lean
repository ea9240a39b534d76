/-
  Which links a load prunes.

  A sound graph is recorded and loaded in the place of whatever was there.  Every link gets its own
  identity again, and a link is pruned exactly if one of its slots does not come back
  (`Graph.recovers`).  A node gets back the slots of its record; if the record does not say what they
  are, it has those of its type.

  A node of a known type is recorded with all its slots.  A stand-in gives back the record that it
  was made from, and slots that it was given since are not in it.  So the links that are pruned are
  those at such slots (`gainedLink_pruned`), and all others are kept.

  The repair needs no order among the slots of the outputs.  What matters is that inputs name only
  links that end there: then no link finds its input taken by another one (`Expects`).
-/

import Dataflow.Proofs.Restoring
import Dataflow.Proofs.Unrepeated

namespace Dataflow

variable {B σ α : Type}

namespace Graph

/-! ## What the repair prunes -/

/-- Whether both slots of a link exist. -/
def hasSlots (g : Graph B) (l : Link) : Bool :=
  (g.output? l.origin l.originSlot).isSome && (g.input? l.target l.targetSlot).isSome

/-- A graph `h` has come from `a` by repairs, and what its links and inputs claim is true in `g`. -/
structure Expects (g a h : Graph B) : Prop where
  outputs : ∀ id slot, (h.output? id slot).isSome = (a.output? id slot).isSome
  inputs : ∀ id slot, (h.input? id slot).isSome = (a.input? id slot).isSome
  held : ∀ id slot k, h.Holds id slot k → g.Holds id slot k
  links : ∀ k l, h.links.get? k = some l → ∃ l', g.links.get? k = some l' ∧ l'.ends = l.ends

namespace Expects

variable {g a h : Graph B} {k : LinkId} {l : Link}

/-- A link leads to the input that names it in the joined graph. -/
theorem holds (he : g.Expects a h) (hg : g.Joined) (hl : h.links.get? k = some l) :
    g.Holds l.target l.targetSlot k := by
  obtain ⟨l', hl', hends⟩ := he.links k l hl
  have ht : l'.target = l.target := congrArg Ends.target hends
  have hs : l'.targetSlot = l.targetSlot := congrArg Ends.targetSlot hends
  rw [← ht, ← hs]
  exact hg.target_exists hl'

/-- A link can stand if its slots exist: no other link is in its place. -/
theorem canStand (he : g.Expects a h) (hg : g.Joined) (hl : h.links.get? k = some l) :
    h.canStand k l = a.hasSlots l := by
  have happart : l.origin ≠ l.target := by
    obtain ⟨l', hl', hends⟩ := he.links k l hl
    have ho : l'.origin = l.origin := congrArg Ends.origin hends
    have ht : l'.target = l.target := congrArg Ends.target hends
    exact ho ▸ ht ▸ hg.apart k l' hl'
  have hfree : (h.input? l.target l.targetSlot).any (fun s => s.link.all (· = k)) =
      (h.input? l.target l.targetSlot).isSome := by
    cases hs : h.input? l.target l.targetSlot with
    | none => rfl
    | some s =>
      show s.link.all (· = k) = true
      cases hi : s.link with
      | none => rfl
      | some i =>
        -- both links are named by one input of the joined graph
        obtain ⟨s₁, hs₁, hi₁⟩ := he.held _ _ i ⟨s, hs, hi⟩
        obtain ⟨s₂, hs₂, hk₂⟩ := he.holds hg hl
        cases Option.some.inj (hs₁.symm.trans hs₂)
        exact decide_eq_true (Option.some.inj (hi₁.symm.trans hk₂))
  unfold Graph.canStand Graph.hasSlots
  rw [hfree, he.outputs, he.inputs, decide_eq_true happart, Bool.and_true]

/-- Entering a link makes no false claim. -/
theorem enter (he : g.Expects a h) (hg : g.Joined) (hl : h.links.get? k = some l) :
    g.Expects a (h.enter k l) where
  outputs id slot := by rw [output?_enter, Option.isSome_map, he.outputs]
  inputs id slot := by rw [input?_enter, Option.isSome_map, he.inputs]
  held id slot i hi := by
    rcases h.holds_enter k l hi with hold | ⟨rfl, rfl, rfl⟩
    · exact he.held id slot i hold
    · exact he.holds hg hl
  links := he.links

/-- Erasing a link makes no false claim. -/
theorem erase (he : g.Expects a h) (k : LinkId) :
    g.Expects a { h with links := h.links.erase k } where
  outputs := he.outputs
  inputs := he.inputs
  held := he.held
  links i l hl := he.links i l (Assoc.get?_of_get?_erase hl)

/-- One link is settled: it stays if its slots exist. -/
theorem settle {r : Repair B} (he : g.Expects a r.graph) (hg : g.Joined) (k : LinkId) :
    g.Expects a (settle r k).graph ∧
      (Graph.settle r k).graph.links =
        r.graph.links.filter (fun i l => decide (i ≠ k) || a.hasSlots l) ∧
      (Graph.settle r k).pruned =
        r.pruned ++ [k].filter fun i => (r.graph.links.get? i).any fun l => !a.hasSlots l := by
  unfold Graph.settle
  cases hl : r.graph.links.get? k with
  | none =>
    refine ⟨he, (Assoc.filter_eq_self fun i l hi => ?_).symm, ?_⟩
    · have hne : i ≠ k := by
        rintro rfl
        cases hl.symm.trans hi
      rw [decide_eq_true hne, Bool.true_or]
    · rw [List.filter_cons, hl]
      exact (List.append_nil _).symm
  | some l =>
    have hstand := he.canStand hg hl
    simp only [hstand]
    cases hslots : a.hasSlots l with
    | true =>
      refine ⟨he.enter hg hl, (Assoc.filter_eq_self fun i l' hi => ?_).symm, ?_⟩
      · by_cases hik : i = k
        · subst hik
          cases hl.symm.trans hi
          rw [hslots, Bool.or_true]
        · rw [decide_eq_true hik, Bool.true_or]
      · rw [List.filter_cons, hl, Option.any_some, hslots]
        exact (List.append_nil _).symm
    | false =>
      refine ⟨he.erase k, ?_, ?_⟩
      · show r.graph.links.erase k = _
        refine Assoc.filter_congr fun i l' hi => ?_
        by_cases hik : i = k
        · subst hik
          cases hl.symm.trans hi
          rw [hslots, Bool.or_false]
        · rw [decide_eq_true hik, Bool.true_or]
      · rw [List.filter_cons, hl, Option.any_some, hslots]
        rfl

/-- Some links are settled, one after the other. -/
theorem settles (hg : g.Joined) {ks : List LinkId} (hks : ks.Nodup) {r : Repair B}
    (he : g.Expects a r.graph) :
    (ks.foldl Graph.settle r).graph.links =
        r.graph.links.filter (fun i l => decide (i ∉ ks) || a.hasSlots l) ∧
      (ks.foldl Graph.settle r).pruned =
        r.pruned ++ ks.filter fun i => (r.graph.links.get? i).any fun l => !a.hasSlots l := by
  induction ks generalizing r with
  | nil =>
    exact ⟨(Assoc.filter_eq_self fun _ _ _ => rfl).symm, (List.append_nil _).symm⟩
  | cons k ks ih =>
    rw [List.nodup_cons] at hks
    obtain ⟨he', hlinks, hpruned⟩ := he.settle hg k
    obtain ⟨hlinks', hpruned'⟩ := ih hks.2 he'
    rw [List.foldl_cons, hlinks', hpruned', hlinks, hpruned]
    constructor
    · apply Assoc.ext_entries
      refine (List.filter_filter ..).trans (List.filter_congr fun e _ => ?_)
      show ((decide (e.1 ∉ ks) || a.hasSlots e.2) && (decide (e.1 ≠ k) || a.hasSlots e.2)) =
        (decide (e.1 ∉ k :: ks) || a.hasSlots e.2)
      cases a.hasSlots e.2 with
      | true => simp only [Bool.or_true, Bool.and_true]
      | false => simp only [Bool.or_false, List.mem_cons, not_or, Bool.decide_and, Bool.and_comm]
    · have hrest : (ks.filter fun i => ((r.graph.links.filter fun i l =>
          decide (i ≠ k) || a.hasSlots l).get? i).any fun l => !a.hasSlots l) =
          ks.filter fun i => (r.graph.links.get? i).any fun l => !a.hasSlots l := by
        refine List.filter_congr fun i hi => ?_
        have hne : i ≠ k := ne_of_mem_of_not_mem hi hks.1
        rw [Assoc.get?_filter, decide_eq_true hne]
        cases r.graph.links.get? i <;> rfl
      rw [hrest, List.append_assoc, ← List.filter_append]
      rfl

end Expects

/-- The repair of a graph whose links and inputs claim nothing false prunes the links that lack a
slot, and keeps the others. -/
theorem repair_prunes {g a : Graph B} (hg : g.Joined) (he : g.Expects a a) (pruned : List LinkId) :
    (a.repair pruned).graph.links = a.links.filter (fun _ l => a.hasSlots l) ∧
      (a.repair pruned).pruned = pruned ++ (a.links.filter fun _ l => !a.hasSlots l).keys := by
  obtain ⟨hlinks, hpruned⟩ := Expects.settles hg a.links.nodup_keys (r := ⟨a, pruned, false⟩) he
  constructor
  · refine hlinks.trans (Assoc.filter_congr fun k l hl => ?_)
    rw [decide_eq_false (not_not.2 (Assoc.mem_keys_of_get? hl)), Bool.false_or]
  · refine hpruned.trans (congrArg (pruned ++ ·) ?_)
    show (a.links.entries.map Prod.fst).filter _ = (a.links.entries.filter _).map Prod.fst
    rw [List.filter_map]
    refine congrArg (List.map Prod.fst) (List.filter_congr fun e hmem => ?_)
    have hget : a.links.get? e.1 = some e.2 := (Assoc.get?_eq_some_iff ..).2 hmem
    show (a.links.get? e.1).any _ = _
    rw [hget]
    rfl

end Graph

/-! ## Slots that a record gives back -/

/-- Behaviours may add to a record, but leave the identity and the slots in it alone. -/
structure Kind.Additive (B : Type) [Kind B] : Prop where
  id : ∀ (b : B) (r : NodeRecord), (Kind.annotate b r).id = r.id
  inputs : ∀ (b : B) (r : NodeRecord), (Kind.annotate b r).inputs = r.inputs
  outputs : ∀ (b : B) (r : NodeRecord), (Kind.annotate b r).outputs = r.outputs

namespace NodeRecord

variable [Kind B]

/-- How many inputs a node has that was loaded from the record. -/
def inputCount (registry : Registry B) (r : NodeRecord) : Nat :=
  (r.inputs.getD (Engine.madeOf registry r).1.inputs).length

/-- How many outputs a node has that was loaded from the record. -/
def outputCount (registry : Registry B) (r : NodeRecord) : Nat :=
  (r.outputs.getD (Engine.madeOf registry r).1.outputs).length

end NodeRecord

/-- Whether both slots of a link come back when the graph is recorded and loaded. -/
def Graph.recovers [Kind B] (g : Graph B) (l : Link) : Bool :=
  ((g.nodes.get? l.origin).any fun n => decide (l.originSlot < n.record.outputCount g.registry))
    && (g.nodes.get? l.target).any fun n => decide (l.targetSlot < n.record.inputCount g.registry)

namespace Node

variable [Kind B]

/-- A node of a known type is recorded with its identity and all its slots. -/
theorem record_live (ha : Kind.Additive B) {n : Node B} (h : n.standsFor = none) :
    n.record.id = n.id ∧ n.record.inputs = some n.inputs ∧
      n.record.outputs = some (n.outputs.map forgetData) := by
  unfold record
  rw [h]
  cases n.behavior with
  | none => exact ⟨rfl, rfl, rfl⟩
  | some b => exact ⟨ha.id b _, ha.inputs b _, ha.outputs b _⟩

theorem recorded_id (ha : Kind.Additive B) {n : Node B} {id : NodeId} (h : n.id = some id) :
    n.record.id = some id := by
  cases hn : n.standsFor with
  | none => exact (record_live ha hn).1.trans h
  | some record =>
    rw [record_standIn hn]
    show (if n.id.isSome = true then n.id else record.id) = _
    rw [h]
    rfl

/-- An input is recorded with the link that it has. -/
theorem recorded_link (ha : Kind.Additive B) {n : Node B} {inputs : List Input}
    (h : n.record.inputs = some inputs) {slot : Nat} {s : Input} (hs : inputs[slot]? = some s)
    {k : LinkId} (hk : s.link = some k) : ∃ s', n.inputs[slot]? = some s' ∧ s'.link = some k := by
  cases hn : n.standsFor with
  | none =>
    rw [(record_live ha hn).2.1] at h
    cases h
    exact ⟨s, hs, hk⟩
  | some record =>
    rw [record_standIn hn] at h
    obtain ⟨recorded, -, rfl⟩ := Option.map_eq_some_iff.1 h
    unfold liveInputs at hs
    rw [List.getElem?_mapIdx] at hs
    obtain ⟨s₀, -, rfl⟩ := Option.map_eq_some_iff.1 hs
    exact Option.bind_eq_some_iff.1 hk

omit [Kind B] in
theorem length_pins (n : Node B) :
    n.pins.inputs.length = n.inputs.length ∧ n.pins.outputs.length = n.outputs.length :=
  ⟨List.length_map .., List.length_map ..⟩

theorem inputs_applyRecord (n : Node B) (r : NodeRecord) :
    (n.applyRecord r).1.inputs = r.inputs.getD n.inputs := by
  obtain ⟨properties, b, h⟩ := n.offerProperties_eq r.properties.entries
  unfold applyRecord
  simp only [h]

theorem outputs_applyRecord (n : Node B) (r : NodeRecord) :
    (n.applyRecord r).1.outputs = r.outputs.getD n.outputs := by
  obtain ⟨properties, b, h⟩ := n.offerProperties_eq r.properties.entries
  unfold applyRecord
  simp only [h]

end Node

/-- What a type fixes does not depend on the slots in a record. -/
theorem Engine.slots_madeOf [Kind B] (registry : Registry B) {r r' : NodeRecord}
    (ht : r'.type = r.type) (htitle : r'.title = r.title) :
    (madeOf registry r').1.inputs = (madeOf registry r).1.inputs ∧
      (madeOf registry r').1.outputs = (madeOf registry r).1.outputs := by
  unfold madeOf
  rw [ht, htitle]
  cases registry.create r.type r.title <;> exact ⟨rfl, rfl⟩

/-- A stand-in is recorded with as many slots as the record that it was made from. -/
theorem Node.counts_standIn [Kind B] (registry : Registry B) {n : Node B} {record : NodeRecord}
    (h : n.standsFor = some record) : n.record.inputCount registry = record.inputCount registry ∧
      n.record.outputCount registry = record.outputCount registry := by
  have htype : n.record.type = record.type := by rw [record_standIn h]
  have htitle : n.record.title = record.title := by rw [record_standIn h]
  have hinputs : n.record.inputs = record.inputs.map (liveInputs n.inputs) := by rw [record_standIn h]
  have houtputs : n.record.outputs = record.outputs.map (liveOutputs n.outputs) := by
    rw [record_standIn h]
  obtain ⟨hin, hout⟩ := Engine.slots_madeOf registry htype htitle
  unfold NodeRecord.inputCount NodeRecord.outputCount
  rw [hinputs, houtputs, hin, hout]
  constructor
  · cases record.inputs with
    | none => rfl
    | some inputs => exact List.length_mapIdx ..
  · cases record.outputs with
    | none => rfl
    | some outputs => exact List.length_mapIdx ..

/-- A link that does not come back is at a slot that a stand-in has gained: it lies behind the slots
that the record of the stand-in gives back. -/
theorem Graph.Joined.gained [Kind B] (ha : Kind.Additive B) {g : Graph B} (hg : g.Joined)
    {k : LinkId} {l : Link} (hl : g.links.get? k = some l) (h : g.recovers l = false) :
    (∃ n record, g.nodes.get? l.origin = some n ∧ n.standsFor = some record ∧
        record.outputCount g.registry ≤ l.originSlot) ∨
      ∃ n record, g.nodes.get? l.target = some n ∧ n.standsFor = some record ∧
        record.inputCount g.registry ≤ l.targetSlot := by
  obtain ⟨o, ho, -⟩ := hg.origin_exists hl
  obtain ⟨source, hsource, hout⟩ := Graph.node_of_output ho
  obtain ⟨i, hi, -⟩ := hg.target_exists hl
  obtain ⟨sink, hsink, hin⟩ := Graph.node_of_input hi
  unfold recovers at h
  rw [hsource, hsink, Option.any_some, Option.any_some, Bool.and_eq_false_iff, decide_eq_false_iff_not,
    decide_eq_false_iff_not, Nat.not_lt, Nat.not_lt] at h
  rcases h with h | h
  · left
    cases hn : source.standsFor with
    | none =>
      -- its slots are all recorded
      have hlt := (List.getElem?_eq_some_iff.1 hout).1
      unfold NodeRecord.outputCount at h
      rw [(Node.record_live ha hn).2.2, Option.getD_some, List.length_map] at h
      omega
    | some record =>
      rw [(Node.counts_standIn g.registry hn).2] at h
      exact ⟨source, record, hsource, hn, h⟩
  · right
    cases hn : sink.standsFor with
    | none =>
      have hlt := (List.getElem?_eq_some_iff.1 hin).1
      unfold NodeRecord.inputCount at h
      rw [(Node.record_live ha hn).2.1, Option.getD_some] at h
      omega
    | some record =>
      rw [(Node.counts_standIn g.registry hn).1] at h
      exact ⟨sink, record, hsink, hn, h⟩

/-! ## Nodes that are made anew -/

/-- Bodies that run when a node is added leave the wiring and the settings of the graph alone. -/
def Engine.AddsQuietly [Behavior B σ] (run : Runner B σ) : Prop :=
  ∀ b id w settings, Keeps (fun g : Graph B => g.wiring = w ∧ g.settings = settings)
    (run (Behavior.body b id .added))

/-- Some nodes of a graph were made anew in another one that has nothing else in it.  They are as
their types make them, and wait for their records. -/
structure Remade [Kind B] (r : Registry B) (g : Graph B) (settings : Settings)
    (done : List (NodeId × Node B)) (p : Engine.Placing) (h : Graph B) : Prop where
  keys : h.nodes.keys = done.map Prod.fst
  bare : ∀ e ∈ done, ∀ n, h.nodes.get? e.1 = some n →
    n.pins.inputs = (Engine.madeOf r e.2.record).1.pins.inputs ∧
      n.pins.outputs = (Engine.madeOf r e.2.record).1.pins.outputs
  links : h.links.keys = []
  placed : p.placed = done.map fun e => (e.1, e.2.record)
  table : ∀ i, p.nodes.get? i = if i ∈ done.map Prod.fst then some i else none
  nextLink : h.nextLink ≤ g.nextLink
  registry : h.registry = r
  settings : h.settings = settings
  pruned : p.report.prunedLinks = []

/-- One node more. -/
theorem Remade.note [Kind B] {r : Registry B} {g h h' : Graph B} {settings : Settings}
    {done : List (NodeId × Node B)} {p : Engine.Placing} (hd : Remade r g settings done p h)
    {id : NodeId} {m : Node B} (hid : id ∉ done.map Prod.fst) (hm : m.record.id = some id)
    (hw : h'.wiring = (Engine.placing h { (Engine.madeOf r m.record).1 with id := some id }).wiring)
    (hset : h'.settings = h.settings) (missing : List String) :
    Remade r g settings (done ++ [(id, m)]) (p.note missing m.record id) h' := by
  have habsent : id ∉ h.nodes.keys := hd.keys ▸ hid
  have hdone : (done ++ [(id, m)]).map Prod.fst = done.map Prod.fst ++ [id] := List.map_append
  unfold Engine.placing at hw
  rw [Graph.claimNode_absent habsent] at hw
  have hkeys := Graph.keys_nodes_of_wiring hw
  rw [Graph.keys_place habsent, hd.keys] at hkeys
  constructor
  case keys =>
    rw [hkeys, hdone]
  case bare =>
    intro e he n' hn'
    obtain ⟨n, hn, hpins⟩ := Graph.node_of_wiring hw hn'
    rw [← hpins]
    rcases Graph.node_of_place hn with ⟨hi, pos, rfl⟩ | ⟨hi, hn⟩
    · change e.1 = id at hi
      rcases List.mem_append.1 he with he | he
      · exact absurd (hi ▸ List.mem_map_of_mem he) hid
      · rw [List.mem_singleton.1 he]
        exact ⟨rfl, rfl⟩
    · rcases List.mem_append.1 he with he | he
      · exact hd.bare e he n hn
      · rw [List.mem_singleton.1 he] at hi
        exact absurd rfl hi
  case links =>
    rw [Graph.keys_links_of_wiring hw, Graph.place_snapped]
    exact hd.links
  case placed =>
    show p.placed ++ [(id, m.record)] = _
    rw [hd.placed, List.map_append]
    rfl
  case table =>
    intro i
    rw [hdone]
    exact Engine.Placing.table_note hd.table hid hm missing i
  case nextLink =>
    rw [Graph.place_snapped] at hw
    exact Nat.le_trans (Nat.le_of_eq (congrArg Wiring.nextLink hw)) hd.nextLink
  case registry =>
    rw [Graph.place_snapped] at hw
    exact (congrArg Wiring.registry hw).trans hd.registry
  case settings =>
    exact hset.trans hd.settings
  case pruned =>
    exact hd.pruned

/-- The nodes of a recorded graph are made anew. -/
theorem Engine.placeAll_remakes [Behavior B σ] {r : Registry B} {g : Graph B} (hg : g.Sound r)
    (ha : Kind.Additive B) {run : Runner B σ} (hrun : AddsQuietly run)
    {done rest : List (NodeId × Node B)} (hsplit : g.nodes.entries = done ++ rest)
    {settings : Settings} (hroom : g.nodes.size ≤ settings.maxNodes) {p : Placing} {s : Session B σ}
    (hd : Remade r g settings done p s.graph) :
    Ensures (placeAll run (rest.map fun e => e.2.record) p) s fun p s' =>
      Remade r g settings g.nodes.entries p s'.graph := by
  induction rest generalizing done p s with
  | nil =>
    rw [List.append_nil] at hsplit
    rw [hsplit]
    exact Ensures.pure hd
  | cons e rest ih =>
    obtain ⟨id, m⟩ := e
    have hm : g.nodes.get? id = some m := Assoc.get?_of_split hsplit
    have hid : m.record.id = some id := Node.recorded_id ha (hg.nodeOwn id m hm)
    have hfresh : id ∉ done.map Prod.fst := Assoc.notMem_of_split hsplit
    rw [List.map_cons]
    apply placeAll_step
    rw [hd.registry, hid]
    let made : Node B := { (madeOf r m.record).1 with id := some id }
    have haloof : Aloof fun h : Graph B =>
        h.wiring = (placing s.graph made).wiring ∧ h.settings = s.graph.settings := by
      refine fun h i b hh => ⟨Eq.trans ?_ hh.1, hh.2⟩
      exact Graph.wiring_modifyNode fun _ _ => rfl
    have hplaced : (placing s.graph made).settings = s.graph.settings := by
      unfold placing
      rw [Graph.place_snapped]
      rfl
    refine (insertNode_spec haloof false ⟨rfl, hplaced⟩ fun b _ => hrun b _ _ _).mono ?_
    rintro answer s' (⟨hfull, -⟩ | ⟨-, hok, t, ⟨hw, hset⟩, hs'⟩)
    · -- there is room for one more
      have hsize : s.graph.nodes.size = done.length := by
        rw [Assoc.size_eq_length_keys, hd.keys, List.length_map]
      have hmore := Assoc.length_lt_of_split hsplit
      rw [hd.settings, hsize] at hfull
      omega
    · have habsent : id ∉ s.graph.nodes.keys := hd.keys ▸ hfresh
      rw [Graph.claimNode_absent habsent] at hok
      refine ⟨fun i hi => ?_, fun e he => ?_⟩
      · rw [hok] at hi
        cases hi
        refine ih (by rw [hsplit, List.append_assoc]; rfl) (hd.note hfresh hid ?_ ?_ _)
        · rw [hs']
          exact hw
        · rw [hs']
          exact hset
      · rw [hok] at he
        cases he

/-! ## Nodes that have taken over their records -/

namespace Remade

variable [Kind B] {r : Registry B} {g h h' : Graph B} {settings : Settings} {p : Engine.Placing}
  {table : Renaming LinkId}

/-- An input that the record gives back, or the type if there is none on record, names no other link
than the one of the node. -/
theorem given (hd : Remade r g settings g.nodes.entries p h) (ha : Kind.Additive B)
    (hfresh : r.Fresh) {id : NodeId} {m n : Node B} (hm : g.nodes.get? id = some m)
    (hn : h.nodes.get? id = some n) {slot : Nat} {s : Input} {k : LinkId}
    (hs : (m.record.inputs.getD n.inputs)[slot]? = some s) (hk : s.link = some k) :
    ∃ s', m.inputs[slot]? = some s' ∧ s'.link = some k := by
  cases hr : m.record.inputs with
  | some inputs =>
    rw [hr] at hs
    exact Node.recorded_link ha hr hs hk
  | none =>
    -- the type names no links
    rw [hr] at hs
    have hin := (hd.bare (id, m) ((Assoc.get?_eq_some_iff ..).1 hm) n hn).1
    have hmade : some k ∈ (Engine.madeOf r m.record).1.pins.inputs := by
      rw [← hin, ← hk]
      exact List.mem_map_of_mem (List.mem_of_getElem? hs)
    obtain ⟨s', hs', hk'⟩ := List.mem_map.1 hmade
    rw [(Engine.unlinked_madeOf hfresh m.record).1 s' hs'] at hk'
    cases hk'

/-- A node that has taken over its record has the slots that the record gives back, and its inputs
name no other links than before. -/
theorem adopted (hd : Remade r g settings g.nodes.entries p h) (ha : Kind.Additive B)
    (hfresh : r.Fresh) (htable : ∀ i k, table.get? i = some k → i = k) (hnodes : h'.nodes = h.nodes)
    {id : NodeId} {m : Node B} (hm : g.nodes.get? id = some m) :
    ∃ n, (h'.adopted table p.placed).nodes.get? id = some n ∧
      n.inputs.length = m.record.inputCount r ∧ n.outputs.length = m.record.outputCount r ∧
      ∀ (slot : Nat) (s : Input) (k : LinkId), n.inputs[slot]? = some s → s.link = some k →
        ∃ s', m.inputs[slot]? = some s' ∧ s'.link = some k := by
  have hmem : (id, m) ∈ g.nodes.entries := (Assoc.get?_eq_some_iff ..).1 hm
  obtain ⟨n, hn⟩ : ∃ n, h.nodes.get? id = some n := by
    rw [← Assoc.mem_keys_iff, hd.keys]
    exact List.mem_map_of_mem hmem
  obtain ⟨hin, hout⟩ := hd.bare (id, m) hmem n hn
  have hids : (p.placed.map Prod.fst).Nodup := by
    rw [hd.placed, List.map_map]
    exact g.nodes.nodup
  have he : (id, m.record) ∈ p.placed := by
    rw [hd.placed]
    exact List.mem_map_of_mem hmem
  refine ⟨(n.applyRecord m.record).1.relink fun _ _ k => table.get? k, ?_, ?_, ?_, ?_⟩
  · rw [Graph.get?_adopted table hids he, hnodes, hn]
    rfl
  · show ((n.applyRecord m.record).1.inputs.mapIdx _).length = _
    rw [List.length_mapIdx, Node.inputs_applyRecord]
    unfold NodeRecord.inputCount
    cases m.record.inputs with
    | some inputs => rfl
    | none =>
      exact n.length_pins.1.symm.trans ((congrArg List.length hin).trans (Node.length_pins _).1)
  · show ((n.applyRecord m.record).1.outputs.mapIdx _).length = _
    rw [List.length_mapIdx, Node.outputs_applyRecord]
    unfold NodeRecord.outputCount
    cases m.record.outputs with
    | some outputs => rfl
    | none =>
      exact n.length_pins.2.symm.trans ((congrArg List.length hout).trans (Node.length_pins _).2)
  · intro slot s' k hs' hk
    change ((n.applyRecord m.record).1.inputs.mapIdx _)[slot]? = some s' at hs'
    rw [List.getElem?_mapIdx, Node.inputs_applyRecord] at hs'
    obtain ⟨s, hs, rfl⟩ := Option.map_eq_some_iff.1 hs'
    obtain ⟨i, hi, hik⟩ := Option.bind_eq_some_iff.1 hk
    cases htable i k hik
    exact hd.given ha hfresh hm hn hs hi

/-- After that, links and inputs claim nothing false, and a link has its slots exactly if they come
back. -/
theorem expects (hd : Remade r g settings g.nodes.entries p h) (hg : g.Sound r)
    (ha : Kind.Additive B) (hfresh : r.Fresh) (htable : ∀ i k, table.get? i = some k → i = k)
    (hnodes : h'.nodes = h.nodes)
    (hlinks : h'.links = g.links.mapValues fun _ l => l.emptied) :
    g.Expects (h'.adopted table p.placed) (h'.adopted table p.placed) ∧
      ∀ k l, g.links.get? k = some l →
        (h'.adopted table p.placed).hasSlots l.emptied = g.recovers l := by
  have hadopted := fun (id : NodeId) (m : Node B) (hm : g.nodes.get? id = some m) =>
    hd.adopted ha hfresh htable hnodes hm
  obtain ⟨hkeys, hkept⟩ := Graph.keys_adopted table p.placed h'
  rw [hnodes, hd.keys] at hkeys
  generalize h'.adopted table p.placed = a at hadopted hkeys hkept
  have hcount : ∀ {n : Nat} {α : Type} (xs : List α) (i : Nat), xs.length = n →
      xs[i]?.isSome = decide (i < n) := by
    rintro n α xs i rfl
    rw [Bool.eq_iff_iff, isSome_getElem?, decide_eq_true_iff]
  constructor
  · refine ⟨fun _ _ => rfl, fun _ _ => rfl, fun id slot k => ?_, fun k l hl => ?_⟩
    · rintro ⟨s, hs, hk⟩
      obtain ⟨n, hn, hslot⟩ := Graph.node_of_input hs
      obtain ⟨m, hm⟩ : ∃ m, g.nodes.get? id = some m := by
        have hid := Assoc.mem_keys_of_get? hn
        rw [hkeys] at hid
        exact Assoc.mem_keys_iff.1 hid
      obtain ⟨n', hn', -, -, hlink⟩ := hadopted id m hm
      cases Option.some.inj (hn.symm.trans hn')
      obtain ⟨s', hs', hk'⟩ := hlink slot s k hslot hk
      exact ⟨s', (Graph.input_of_node hm slot).trans hs', hk'⟩
    · rw [hkept, hlinks, Assoc.get?_mapValues] at hl
      obtain ⟨l', hl', rfl⟩ := Option.map_eq_some_iff.1 hl
      exact ⟨l', hl', rfl⟩
  · intro k l hl
    obtain ⟨o, ho, -⟩ := hg.origin_exists hl
    obtain ⟨source, hsource, -⟩ := Graph.node_of_output ho
    obtain ⟨i, hi, -⟩ := hg.target_exists hl
    obtain ⟨sink, hsink, -⟩ := Graph.node_of_input hi
    obtain ⟨source', hsource', -, hout, -⟩ := hadopted _ source hsource
    obtain ⟨sink', hsink', hin, -⟩ := hadopted _ sink hsink
    unfold Graph.hasSlots Graph.recovers
    rw [show l.emptied.origin = l.origin from rfl, show l.emptied.originSlot = l.originSlot from rfl,
      show l.emptied.target = l.target from rfl, show l.emptied.targetSlot = l.targetSlot from rfl,
      Graph.output_of_node hsource', Graph.input_of_node hsink', hsource, hsink, hcount _ _ hout,
      hcount _ _ hin, hg.registry]
    rfl

end Remade

/-- After the nodes were made anew, the rest of the load keeps the links that come back and prunes
the others. -/
theorem Session.settleLoad_prunes [Kind B] {r : Registry B} {g : Graph B} (hg : g.Sound r)
    (ha : Kind.Additive B) (hfresh : r.Fresh) {settings : Settings} {p : Engine.Placing}
    {s : Session B σ} (hd : Remade r g settings g.nodes.entries p s.graph) :
    (s.settleLoad g.snapshot p.placed p.nodes p.report).1.prunedLinks =
        (g.links.filter fun _ l => !g.recovers l).keys ∧
      (s.settleLoad g.snapshot p.placed p.nodes p.report).2.graph.links =
        (g.links.filter fun _ l => g.recovers l).mapValues fun _ l => l.emptied := by
  let load := s.graph.mergeLinks p.nodes g.snapshot.links
  let merged : Graph B := { load.graph with nextLink := max load.graph.nextLink g.snapshot.nextLink }
  let adopted := merged.adopted load.table p.placed
  have hload : Rejoining g s.graph g.links.entries load := by
    refine Graph.mergeLinks_rejoins hg (fun i hi => ?_) hd.links hd.nextLink
    rw [hd.table]
    exact if_pos hi
  have htable : ∀ i k, load.table.get? i = some k → i = k := by
    intro i k hik
    rw [hload.table] at hik
    split at hik
    · exact Option.some.inj hik
    · cases hik
  have hnodes : merged.nodes = s.graph.nodes := (congrArg Graph.nodes hload.rest).trans rfl
  have hlinks : merged.links = g.links.mapValues fun _ l => l.emptied := Assoc.ext_entries hload.links
  obtain ⟨hexpects, hslots⟩ := hd.expects hg ha hfresh htable hnodes hlinks
  have hkept : adopted.links = g.links.mapValues fun _ l => l.emptied :=
    (Graph.keys_adopted ..).2.trans hlinks
  obtain ⟨hrepair, hpruned⟩ :=
    Graph.repair_prunes hg.toJoined hexpects (p.report.prunedLinks ++ load.pruned)
  -- links are looked up among those that were recorded
  have hfilter : ∀ keep : Bool → Bool,
      (adopted.links.filter fun _ l => keep (adopted.hasSlots l)) =
        (g.links.filter fun _ l => keep (g.recovers l)).mapValues fun _ l => l.emptied := by
    intro keep
    apply Assoc.ext_entries
    rw [hkept]
    show (g.links.entries.map _).filter _ = (g.links.entries.filter _).map _
    rw [List.filter_map]
    refine congrArg (List.map _) (List.filter_congr fun e hmem => ?_)
    show keep (adopted.hasSlots e.2.emptied) = keep (g.recovers e.2)
    rw [hslots e.1 e.2 ((Assoc.get?_eq_some_iff ..).2 hmem)]
  obtain ⟨told, htold, heq⟩ := s.settleLoad_eq g.snapshot p.placed p.nodes p.report
  rw [heq]
  constructor
  · refine hpruned.trans ?_
    rw [hd.pruned, hload.pruned, hfilter not, Assoc.keys_mapValues]
    rfl
  · exact (htold.finished g.snapshot).1.trans (hrepair.trans (hfilter id))

/-- A recorded graph is loaded: the links both of whose slots come back are there again, and the
others are pruned. -/
theorem Engine.load_prunes [Behavior B σ] {r : Registry B} {g : Graph B} (hg : g.Sound r)
    (ha : Kind.Additive B) (hfresh : r.Fresh) {run : Runner B σ} (hrun : AddsQuietly run)
    {s : Session B σ} (hs : s.graph.registry = r) (hroom : g.nodes.size ≤ s.graph.settings.maxNodes) :
    Ensures (load run g.snapshot false) s fun report s' =>
      report.prunedLinks = (g.links.filter fun _ l => !g.recovers l).keys ∧
        s'.graph.links = (g.links.filter fun _ l => g.recovers l).mapValues fun _ l => l.emptied := by
  obtain ⟨hregistry, hsettings⟩ := s.clear_spec
  let opened := (s.clear.edit fun h =>
    { h with config := h.config.insertAll g.snapshot.config.entries }).beginBatch
  have hstart : Remade r g s.graph.settings [] ⟨.clean, [], ∅⟩ opened.graph :=
    ⟨rfl, fun _ he => (nomatch he), rfl, rfl, fun _ => rfl, hg.counted.linkStart,
      hregistry.trans hs, hsettings, rfl⟩
  apply Ensures.modify_bind
  apply Ensures.bind
  rw [Graph.records_snapshot]
  refine (placeAll_remakes hg ha hrun rfl hroom hstart).mono fun p t hd => ?_
  exact Ensures.total (Session.settleLoad_prunes hg ha hfresh hd)

/-! ## Saving and loading -/

/-- Standard nodes add nothing to their records. -/
theorem Catalog.additive : Kind.Additive Catalog := ⟨fun _ _ => rfl, fun _ _ => rfl, fun _ _ => rfl⟩

/-- When a standard node is added, at most a terminal is brought in step. -/
theorem Catalog.addsQuietly (depth : Nat) :
    Engine.AddsQuietly (Engine.runner depth : Runner Catalog Unit) := by
  intro b id w settings
  refine Engine.keeps_added (fun _ e he s hs => ⟨?_, ?_⟩) depth
  · exact (he.body.trails s).wiring.trans hs.1
  · exact (he.synced s).apart.1.trans hs.2

/-- A graph that programs have worked on is recorded, and loaded in the place of any graph with the
same types and with room for its nodes.  Exactly those links are there again, with their identities,
ends and types, both of whose slots come back; the others are pruned, and each of them is at a slot
that a stand-in has gained.  The load answers if the bodies do that run when nodes are added. -/
theorem Engine.links_recovered [Behavior B σ] {r : Registry B} (hr : r.Fresh) (ha : Kind.Additive B)
    (hb : ∀ b id task, (Behavior.body b id task : Body B σ (Outcome B)).Obeys (plain r))
    (settings : Settings) (events : List (Event B)) (host : σ) (depth : Nat) {p : Body B σ α}
    (hp : p.Obeys (plain r)) {a : α} {s : Session B σ}
    (hexec : execCounted depth p ⟨Graph.empty r settings, events, host⟩ = some (a, s))
    {run : Runner B σ} (hrun : AddsQuietly run) {t : Session B σ}
    (ht : t.graph.registry = s.graph.registry)
    (hroom : s.graph.nodes.size ≤ t.graph.settings.maxNodes) :
    ((∀ b id, Answers (run (Behavior.body b id .added))) →
        ∃ report t', load run s.graph.snapshot false t = some (report, t')) ∧
      (∀ report t', load run s.graph.snapshot false t = some (report, t') →
        report.prunedLinks = (s.graph.links.filter fun _ l => !s.graph.recovers l).keys ∧
          t'.graph.links =
            (s.graph.links.filter fun _ l => s.graph.recovers l).mapValues fun _ l => l.emptied) ∧
      ∀ k l, s.graph.links.get? k = some l → s.graph.recovers l = false →
        (∃ n record, s.graph.nodes.get? l.origin = some n ∧ n.standsFor = some record ∧
            record.outputCount r ≤ l.originSlot) ∨
          ∃ n record, s.graph.nodes.get? l.target = some n ∧ n.standsFor = some record ∧
            record.inputCount r ≤ l.targetSlot := by
  have hs : s.graph.Sound r := sound_execCounted hr hb settings events host depth hp hexec
  refine ⟨fun hanswers => answers_load hanswers _ false t, ?_, fun k l hl hlost => ?_⟩
  · exact load_prunes hs ha hr hrun (ht.trans hs.registry) hroom
  · have hgained := hs.toJoined.gained ha hl hlost
    rwa [hs.registry] at hgained

/-- A source and a sink of types that nobody knows; an input is added to the sink, and both its
inputs are fed. -/
def gainedInput : Body Catalog Unit (Except ConnectionError LinkId) := do
  let source : NodeRecord :=
    { NodeRecord.new "source" with
      id := some ⟨1⟩, outputs := some [⟨"out", .any, [], none, none⟩] }
  let sink : NodeRecord :=
    { NodeRecord.new "sink" with id := some ⟨2⟩, inputs := some [⟨"old", .any, none, none⟩] }
  Body.edit .beginBatch
  let recorded : Snapshot :=
    { nextNode := 3, nextLink := 1, nodes := [source, sink], links := [], groups := [], config := ∅ }
  let _ ← Body.perform (.load recorded true)
  let _ ← Body.edit (.addInput ⟨2⟩ "new" .any)
  let _ ← Body.edit (.tryConnect ⟨1⟩ 0 ⟨2⟩ 0)
  Body.edit (.tryConnect ⟨1⟩ 0 ⟨2⟩ 1)

theorem gainedInput_obeys (r : Registry Catalog) : gainedInput.Obeys (plain r) := by
  refine ⟨trivial, fun _ _ => ⟨?_, fun _ _ => ?_⟩⟩
  · intro record hr outputs ho s hs
    simp only [NodeRecord.new, List.mem_cons, List.not_mem_nil, or_false] at hr
    rcases hr with rfl | rfl
    · cases ho
      rw [List.mem_singleton.1 hs]
      exact List.nodup_nil
    · cases ho
  · exact ⟨trivial, fun _ _ => ⟨trivial, fun _ _ => ⟨trivial, fun _ _ => trivial⟩⟩⟩

theorem gainedInput_runs :
    (Engine.execCounted 1 gainedInput ⟨Graph.empty ∅ .default, [], ()⟩).any fun e =>
      decide (e.2.graph.nodes.size = 2) && decide (e.2.graph.links.keys = [⟨1⟩, ⟨2⟩]) &&
        decide ((e.2.graph.links.filter fun _ l => e.2.graph.recovers l).keys = [⟨1⟩]) &&
        decide ((e.2.graph.links.filter fun _ l => !e.2.graph.recovers l).keys = [⟨2⟩]) := by
  decide +kernel

/-- The link that feeds the recorded input is there again when the graph was saved and loaded. -/
theorem gainedInput_recovered : ∃ answer s report t',
    Engine.execCounted 1 gainedInput ⟨Graph.empty ∅ .default, [], ()⟩ = some (answer, s) ∧
    Engine.load (Engine.runner 1) s.graph.snapshot false
      (⟨Graph.empty ∅ .default, [], ()⟩ : Session Catalog Unit) = some (report, t') ∧
    t'.graph.links.keys = [⟨1⟩] ∧ report.prunedLinks = [⟨2⟩] := by
  obtain ⟨⟨answer, s⟩, hexec, hfacts⟩ := (Option.any_eq_true _ _).1 gainedInput_runs
  simp only [Bool.and_eq_true, decide_eq_true_eq] at hfacts
  obtain ⟨⟨⟨hsize, -⟩, hkept⟩, hlost⟩ := hfacts
  have hs : s.graph.Sound ∅ := Engine.sound_execCounted Registry.fresh_empty
    (Catalog.obeys_plain ∅) .default [] () 1 (gainedInput_obeys ∅) hexec
  obtain ⟨hanswers, hload, -⟩ := Engine.links_recovered Registry.fresh_empty Catalog.additive
    (Catalog.obeys_plain ∅) .default [] () 1 (gainedInput_obeys ∅) hexec (Catalog.addsQuietly 1)
    (t := ⟨Graph.empty ∅ .default, [], ()⟩) hs.registry.symm (by rw [hsize]; decide)
  obtain ⟨report, t', hrun⟩ := hanswers (Catalog.answers_added 0)
  obtain ⟨hpruned, hlinks⟩ := hload report t' hrun
  refine ⟨answer, s, report, t', hexec, hrun, ?_, hpruned.trans hlost⟩
  rw [hlinks, Assoc.keys_mapValues]
  exact hkept

/-- A link at a slot that a stand-in has gained is not there any more when the graph was saved and
loaded, although both its ends were. -/
theorem gainedLink_pruned : ∃ answer s report t',
    Engine.execCounted 1 gainedInput ⟨Graph.empty ∅ .default, [], ()⟩ = some (answer, s) ∧
    s.graph.links.keys = [⟨1⟩, ⟨2⟩] ∧
    Engine.load (Engine.runner 1) s.graph.snapshot false
      (⟨Graph.empty ∅ .default, [], ()⟩ : Session Catalog Unit) = some (report, t') ∧
    report.prunedLinks = [⟨2⟩] ∧ ⟨2⟩ ∉ t'.graph.links.keys := by
  obtain ⟨⟨answer, s⟩, hexec, hfacts⟩ := (Option.any_eq_true _ _).1 gainedInput_runs
  simp only [Bool.and_eq_true, decide_eq_true_eq] at hfacts
  obtain ⟨⟨⟨hsize, hkeys⟩, hkept⟩, hlost⟩ := hfacts
  have hs : s.graph.Sound ∅ := Engine.sound_execCounted Registry.fresh_empty
    (Catalog.obeys_plain ∅) .default [] () 1 (gainedInput_obeys ∅) hexec
  obtain ⟨report, t', hrun⟩ := Engine.answers_load (Catalog.answers_added 0) s.graph.snapshot false
    (⟨Graph.empty ∅ .default, [], ()⟩ : Session Catalog Unit)
  obtain ⟨hpruned, hlinks⟩ := Engine.load_prunes hs Catalog.additive Registry.fresh_empty
    (Catalog.addsQuietly 1) (s := ⟨Graph.empty ∅ .default, [], ()⟩) rfl (by rw [hsize]; decide)
    report t' hrun
  refine ⟨answer, s, report, t', hexec, hkeys, hrun, hpruned.trans hlost, ?_⟩
  rw [hlinks, Assoc.keys_mapValues, hkept]
  decide

end Dataflow
