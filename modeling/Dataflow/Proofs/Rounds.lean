/-
  No event is lost or doubled.

  A step gives each emitter a turn in every pass, and whenever it has one it sends an event over each
  of its links (`Graph.volley`).  Outputs name links once, a link leaves one output, and every emitter
  is on the list of the nodes that have turns, once.  So in a pass a node is due one event if an
  emitter feeds it, and none otherwise (`Signaling.owed_volleys`), and what it is due it takes in
  (`crosses_runPasses`).

  Nothing is asked of the rest of the graph: there may be cycles, and it does not matter what other
  nodes do with the events that they get, as long as the step succeeds.
-/

import Dataflow.Proofs.Policies
import Dataflow.Proofs.Resaving
import Dataflow.Proofs.Tallies

namespace Dataflow

variable {B : Type}

/-! ## Steps -/

namespace Graph

/-- The links over which a node sends an event whenever it has its turn. -/
def volley (g : Graph Catalog) (id : NodeId) : List LinkId :=
  match g.behavior? id with
  | some .emitter => g.fan id 0
  | _ => []

theorem volley_eq {g : Graph Catalog} {id : NodeId} (h : g.behavior? id ≠ some .emitter) :
    g.volley id = [] := by
  unfold volley
  split
  · next hb => exact (h hb).elim
  · rfl

theorem volley_emitter {g : Graph Catalog} {id : NodeId} (h : g.behavior? id = some .emitter) :
    g.volley id = g.fan id 0 := by
  unfold volley
  rw [h]

theorem owed_replicate (g : Graph B) (n : Nat) (ks : List LinkId) (id : NodeId) :
    g.owed (List.replicate n ks).flatten id = n * g.owed ks id := by
  induction n with
  | zero => exact (g.owed_nil id).trans (Nat.zero_mul _).symm
  | succ n ih =>
    rw [List.replicate_succ, List.flatten_cons, owed_append, ih, Nat.succ_mul, Nat.add_comm]

/-- Whether what feeds the first input of a node is an emitter. -/
def fedByEmitter (g : Graph Catalog) (id : NodeId) : Bool :=
  (g.inputLink? id 0).any fun l =>
    match g.behavior? l.origin with
    | some .emitter => true
    | _ => false

namespace Signaling

variable {g : Graph Catalog} (hg : g.Signaling) {ids : List NodeId}
include hg

/-- When all emitters have their turns, events go over the links that leave an emitter. -/
theorem mem_volleys (hids : ∀ id, g.behavior? id = some .emitter → id ∈ ids) {k : LinkId} {l : Link}
    (hl : g.links.get? k = some l) :
    k ∈ ids.flatMap g.volley ↔ g.behavior? l.origin = some .emitter := by
  constructor
  · intro hk
    obtain ⟨id, -, hk⟩ := List.mem_flatMap.1 hk
    by_cases hb : g.behavior? id = some .emitter
    · rw [volley_emitter hb] at hk
      obtain ⟨l', hl', horigin, -⟩ := (hg.consistent.outputs id 0 k).1 (lists_iff_mem_fan.2 hk)
      cases Option.some.inj (hl.symm.trans hl')
      rw [horigin]
      exact hb
    · rw [volley_eq hb] at hk
      cases hk
  · intro hb
    refine List.mem_flatMap.2 ⟨l.origin, hids _ hb, ?_⟩
    rw [volley_emitter hb]
    obtain ⟨o, ho, hk⟩ := hg.consistent.origin_exists hl
    obtain ⟨n, hn, hslot⟩ := node_of_output ho
    -- an emitter has one output only, so the link leaves the first
    have hone := (hg.emitters _ n hn ((behavior_of_node hn).symm.trans hb)).2.1
    have hlt := (List.getElem?_eq_some_iff.1 hslot).1
    rw [show l.originSlot = 0 by omega] at ho
    exact lists_iff_mem_fan.1 ⟨o, ho, hk⟩

/-- No event goes over a link twice in a pass. -/
theorem nodup_volleys (hids : ids.Nodup) : (ids.flatMap g.volley).Nodup := by
  have hleaves : ∀ {id k}, k ∈ g.volley id → g.Leaves k id 0 := by
    intro id k hk
    by_cases hb : g.behavior? id = some .emitter
    · rw [volley_emitter hb] at hk
      exact (hg.consistent.outputs id 0 k).1 (lists_iff_mem_fan.2 hk)
    · rw [volley_eq hb] at hk
      cases hk
  refine List.nodup_flatMap.2 ⟨fun id _ => ?_, hids.imp fun {i j} hne k hi hj => ?_⟩
  · by_cases hb : g.behavior? id = some .emitter
    · rw [volley_emitter hb]
      unfold fan
      cases ho : g.output? id 0 with
      | none => exact List.nodup_nil
      | some o => exact hg.consistent.once id 0 o ho
    · rw [volley_eq hb]
      exact List.nodup_nil
  · obtain ⟨l, hl, rfl, -⟩ := hleaves hi
    obtain ⟨l', hl', rfl, -⟩ := hleaves hj
    cases Option.some.inj (hl.symm.trans hl')
    exact hne rfl

/-- In a pass a node is due one event if an emitter feeds its first input, and none otherwise. -/
theorem owed_volleys (hnodup : ids.Nodup)
    (hids : ∀ id, g.behavior? id = some .emitter → id ∈ ids) (id : NodeId) :
    g.owed (ids.flatMap g.volley) id = if g.fedByEmitter id then 1 else 0 := by
  unfold owed fedByEmitter inputLink?
  cases hi : g.input? id 0 with
  | none => rfl
  | some i =>
    cases hk : i.link with
    | none => simp [hk]
    | some k =>
      obtain ⟨l, hl, -⟩ := hg.consistent.of_input hi hk
      have hmem := hg.mem_volleys hids hl
      simp only [Option.bind_some, Option.bind_eq_bind, hk, hl, Option.any_some]
      split
      · next hb => exact List.count_eq_one_of_mem (hg.nodup_volleys hnodup) (hmem.2 hb)
      · next hb => exact List.count_eq_zero.2 fun h => hb (hmem.1 h)

end Signaling

end Graph

namespace Engine

variable {g₀ : Graph Catalog} {v : Value} (hg : g₀.Signaling) (hv : v = .int g₀.iteration)
  (depth : Nat)
include hg hv

/-- When a node has its turn, it sends events if it is an emitter, and no other node sends any. -/
theorem crosses_turn {s : Session Catalog Unit} (hs : g₀.Manned none s.graph) {id : NodeId}
    (hid : isAlways s.graph id = true) :
    Ensures (runBody (runner depth) id none) s fun answer s' =>
      (∃ e, answer = .error e) ∨ g₀.Crossed v (g₀.volley id) s.graph s'.graph := by
  by_cases hsig : g₀.Signals id
  · obtain ⟨b, hb₀, hsignals⟩ := hsig
    obtain ⟨n₀, hn₀, hb⟩ := Option.bind_eq_some_iff.1 hb₀
    obtain ⟨n, hn, hduty⟩ := hs.node hn₀ ⟨b, hb₀, hsignals⟩ nofun
    obtain ⟨hbeh, -, hmode, hbody, -⟩ := Node.eq_of_duty hduty
    have hbehavior : s.graph.behavior? id = some b :=
      (Graph.behavior_of_node hn).trans (hbeh.trans hb)
    have halways : n.mode = .always := by
      unfold isAlways at hid
      rw [hn] at hid
      exact of_decide_eq_true hid
    apply Ensures.get_bind
    rw [hn]
    cases b with
    | emitter =>
      rw [Graph.volley_emitter hb₀]
      simp only [hbody.trans (hg.emitters id n₀ hn₀ hb).2.2.2, if_true]
      apply Ensures.bind
      refine (crosses_emitter hg depth hv hs hb₀ hbehavior none).mono ?_
      rintro ending t (⟨e, rfl⟩ | hcrossed)
      · exact Ensures.pure (.inl ⟨_, rfl⟩)
      · exact Ensures.pure (.inr hcrossed)
    | counter =>
      rw [Graph.volley_eq (by rw [hb₀]; nofun)]
      show Ensures (ite _ _ _) s _
      split
      · apply Ensures.bind
        exact (crosses_shown depth hbehavior none).mono fun _ _ h => Ensures.pure (.inr h)
      · exact Ensures.pure (.inr (.refl ..))
    | recorder =>
      -- recorders wait to be triggered, and have no turns
      have hwaiting := hmode.trans (hg.recorders id n₀ hn₀ hb).2.1
      rw [halways] at hwaiting
      cases hwaiting
    | _ => cases hsignals
  · rw [Graph.volley_eq fun hb => hsig ⟨_, hb, rfl⟩]
    refine (keeps_runBody (crosses_aside (v := v) depth hs hsig) none s (.refl ..)).mono ?_
    exact fun _ _ h => .inr h

omit hv in
/-- A node that has no turns sends no events. -/
theorem volley_idle {g : Graph Catalog} (hs : g₀.Manned none g) {id : NodeId}
    (hid : ¬isAlways g id = true) : g₀.volley id = [] := by
  refine Graph.volley_eq fun hb₀ => hid ?_
  obtain ⟨n₀, hn₀, hb⟩ := Option.bind_eq_some_iff.1 hb₀
  obtain ⟨n, hn, hduty⟩ := hs.node hn₀ ⟨_, hb₀, rfl⟩ nofun
  unfold isAlways
  rw [hn]
  exact decide_eq_true ((Node.eq_of_duty hduty).2.2.1.trans (hg.emitters id n₀ hn₀ hb).2.2.1)

theorem crosses_runNodes (ids : List NodeId) {s : Session Catalog Unit}
    (hs : g₀.Manned none s.graph) :
    Ensures (runNodes (runner depth) ids) s fun answer s' =>
      (∃ e, answer = .error e) ∨ g₀.Crossed v (ids.flatMap g₀.volley) s.graph s'.graph := by
  induction ids generalizing s with
  | nil => exact Ensures.pure (.inr (.refl ..))
  | cons id ids ih =>
    rw [List.flatMap_cons]
    apply Ensures.get_bind
    show Ensures (ite _ _ _) s _
    split
    · next hid =>
      apply Ensures.bind
      refine (crosses_turn hg hv depth hs hid).mono ?_
      rintro answer t (⟨e, rfl⟩ | hfirst)
      · exact Ensures.pure (.inl ⟨e, rfl⟩)
      · cases answer with
        | error e => exact Ensures.pure (.inl ⟨e, rfl⟩)
        | ok ran => exact (ih (hs.crossed hfirst)).mono fun _ _ h => h.imp_right hfirst.trans
    · next hid =>
      rw [volley_idle hg hs hid]
      exact ih hs

/-- In every pass each emitter sends an event over all its links. -/
theorem crosses_runPasses (passes : Nat) {s : Session Catalog Unit} (hs : g₀.Manned none s.graph) :
    Ensures (runPasses (runner depth) passes) s fun answer s' =>
      (∃ e, answer = .error e) ∨
        g₀.Crossed v (List.replicate passes (g₀.executable.flatMap g₀.volley)).flatten
          s.graph s'.graph := by
  induction passes generalizing s with
  | zero => exact Ensures.pure (.inr (.refl ..))
  | succ passes ih =>
    rw [List.replicate_succ, List.flatten_cons]
    apply Ensures.get_bind
    rw [show s.graph.executable = g₀.executable from congrArg Skeleton.executable hs.skeleton]
    apply Ensures.bind
    refine (crosses_runNodes hg hv depth g₀.executable hs).mono ?_
    rintro answer t (⟨e, rfl⟩ | hpass)
    · exact Ensures.pure (.inl ⟨e, rfl⟩)
    · cases answer with
      | error e => exact Ensures.pure (.inl ⟨e, rfl⟩)
      | ok done =>
        apply Ensures.modify_bind
        have htock : g₀.Crossed v [] t.graph t.tock.graph := .of_nodes rfl rfl rfl
        have hrest := hpass.trans htock
        rw [List.append_nil] at hrest
        exact (ih (hs.crossed hrest)).mono fun _ _ h => h.imp_right hrest.trans

end Engine

/-! ### The order is brought up to date -/

namespace Graph

variable {g g' : Graph B}

theorem Reordered.node (h : g.Reordered g') {id : NodeId} {n' : Node B}
    (hn' : g'.nodes.get? id = some n') :
    ∃ n order, g.nodes.get? id = some n ∧ n' = { n with order } := by
  have hmem : id ∈ g.nodes.keys := by
    rw [← h.keys]
    exact Assoc.mem_keys_of_get? hn'
  obtain ⟨n, hn⟩ := Assoc.mem_keys_iff.1 hmem
  obtain ⟨order, ho⟩ := h.nodes id n hn
  exact ⟨n, order, hn, Option.some.inj (hn'.symm.trans ho)⟩

/-- What does not look at the place of a node in the order is the same. -/
theorem Reordered.bind_node {α : Type} (h : g.Reordered g') {f : Node B → Option α}
    (hf : ∀ n order, f { n with order } = f n) (id : NodeId) :
    (g'.nodes.get? id).bind f = (g.nodes.get? id).bind f := by
  cases hn' : g'.nodes.get? id with
  | none =>
    have hn : g.nodes.get? id = none := by
      rw [Assoc.get?_eq_none_iff, ← h.keys, ← Assoc.get?_eq_none_iff]
      exact hn'
    rw [hn]
  | some n' =>
    obtain ⟨n, order, hn, rfl⟩ := h.node hn'
    rw [hn]
    exact hf n order

theorem Reordered.input? (h : g.Reordered g') (id : NodeId) (slot : Nat) :
    g'.input? id slot = g.input? id slot :=
  h.bind_node (f := fun n => n.inputs[slot]?) (fun _ _ => rfl) id

theorem Reordered.behavior? (h : g.Reordered g') (id : NodeId) : g'.behavior? id = g.behavior? id :=
  h.bind_node (f := Node.behavior) (fun _ _ => rfl) id

theorem Reordered.property? (h : g.Reordered g') (id : NodeId) (name : String) :
    g'.property? id name = g.property? id name :=
  h.bind_node (f := fun n => n.properties.get? name) (fun _ _ => rfl) id

theorem Signaling.reordered {g g' : Graph Catalog} (hg : g.Signaling) (h : g.Reordered g')
    (hconsistent : g'.Consistent) : g'.Signaling where
  consistent := hconsistent
  emitters id n' hn' hb := by
    obtain ⟨n, order, hn, rfl⟩ := h.node hn'
    exact hg.emitters id n hn hb
  counters id n' hn' hb := by
    obtain ⟨n, order, hn, rfl⟩ := h.node hn'
    obtain ⟨hnames, hactions, hfree⟩ := hg.counters id n hn hb
    refine ⟨hnames, hactions, fun k hk => hfree k ?_⟩
    unfold Holds at hk ⊢
    rwa [h.input?] at hk
  recorders id n' hn' hb := by
    obtain ⟨n, order, hn, rfl⟩ := h.node hn'
    exact hg.recorders id n hn hb

theorem fedByEmitter_reordered {g g' : Graph Catalog} (h : g.Reordered g') (id : NodeId) :
    g'.fedByEmitter id = g.fedByEmitter id := by
  unfold fedByEmitter inputLink?
  simp only [h.input?, h.behavior?, h.links]

/-- Every emitter is on the list of the nodes that have turns. -/
theorem Signaling.emitter_listed {g : Graph Catalog} (hg : g.Signaling) (hc : g.Current) {id : NodeId}
    (hb : g.behavior? id = some .emitter) : id ∈ g.executable := by
  obtain ⟨n, hn, hb⟩ := Option.bind_eq_some_iff.1 hb
  rw [hc.executable]
  refine List.mem_filter.2 ⟨g.computeOrder_perm.mem_iff.2 (Assoc.mem_keys_of_get? hn), ?_⟩
  unfold hasBody
  rw [hn]
  exact (hg.emitters id n hn hb).2.2.2

/-- In all passes together, a node is due as many events as there are passes, or none. -/
theorem Signaling.owed_passes {g : Graph Catalog} (hg : g.Signaling) (hc : g.Current) (passes : Nat)
    (id : NodeId) : g.owed (List.replicate passes (g.executable.flatMap g.volley)).flatten id =
      if g.fedByEmitter id then passes else 0 := by
  have hnodup : g.executable.Nodup := by
    rw [hc.executable]
    exact g.nodup_computeOrder.filter _
  rw [owed_replicate, hg.owed_volleys hnodup fun _ => hg.emitter_listed hc]
  split
  · exact Nat.mul_one passes
  · rfl

end Graph

namespace Session

variable {σ : Type}

theorem reordered_ordered (s : Session B σ) : s.graph.Reordered s.ordered.graph := by
  unfold ordered
  split
  · exact s.graph.reordered_updateOrder
  · exact .refl s.graph

theorem current_ordered {s : Session B σ} (hs : s.graph.stale = false → s.graph.Current) :
    s.ordered.graph.Current := by
  unfold ordered
  split
  · exact s.graph.current_updateOrder
  · next hstale => exact hs (Bool.eq_false_iff.2 hstale)

theorem calm_ordered (s : Session B σ) : s.graph.Calm s.ordered.graph := by
  unfold ordered
  split
  · exact s.graph.calm_updateOrder
  · exact .refl s.graph

theorem signaling_ordered {s : Session Catalog σ} (hs : s.graph.Signaling) :
    s.ordered.graph.Signaling := by
  refine hs.reordered s.reordered_ordered ?_
  unfold ordered
  split
  · exact hs.consistent.of_wiring s.graph.wiring_updateOrder
  · exact hs.consistent

end Session

namespace Engine

/-- No event is lost or doubled.  After a step of `k` passes that succeeds, each counter that an
emitter feeds has counted `k` events and each recorder that an emitter feeds has recorded `k`, all of
them with the number that the step had when it began; the others have counted and recorded none. -/
theorem step_tallies {depth k : Nat} {s s' : Session Catalog Unit} (hs : s.graph.Signaling)
    (hc : s.graph.stale = false → s.graph.Current)
    (hr : exec depth (Body.perform (.runStep k true)) s = some (.ok (), s')) :
    (∀ id n, s.graph.behavior? id = some .counter → s.graph.count? id = some n → -2 ^ 53 < n →
      n + k < 2 ^ 53 →
        s'.graph.count? id = some (n + if s.graph.fedByEmitter id then (k : Int) else 0)) ∧
    ∀ id es, s.graph.behavior? id = some .recorder → s.graph.entries? id = some es →
      s'.graph.entries? id = some (es ++
        if s.graph.fedByEmitter id then List.replicate k (.int s.graph.iteration) else []) := by
  rw [exec_perform] at hr
  obtain ⟨result, t, hpasses⟩ := exists_passes_of_runStep hr
  obtain ⟨rfl, rfl⟩ := Prod.mk.inj (Option.some.inj ((runStep_answers hpasses).symm.trans hr))
  have hsame := s.reordered_ordered
  have hg := s.signaling_ordered hs
  have hv : Value.int s.graph.iteration = .int s.ordered.graph.iteration := by
    rw [s.calm_ordered.count]
  have hcrossed := (crosses_runPasses hg hv depth k (.refl _) _ _ hpasses).resolve_left nofun
  have howed := fun id => (hg.owed_passes (Session.current_ordered hc) k id).trans
    (by rw [Graph.fedByEmitter_reordered hsame])
  refine ⟨fun id n hb hn hlow hhigh => ?_, fun id es hb hes => ?_⟩
  · have hn₀ : s.ordered.graph.count? id = some n := by
      unfold Graph.count? at hn ⊢
      rwa [hsame.property?]
    have h := hcrossed.counts id n ((hsame.behavior? id).trans hb) hn₀ hlow
    rw [howed] at h
    show t.graph.count? id = _
    cases hfed : s.graph.fedByEmitter id with
    | true =>
      rw [hfed] at h
      exact h hhigh
    | false =>
      rw [hfed] at h
      exact h (by show n + 0 < 2 ^ 53; omega)
  · have hes₀ : s.ordered.graph.entries? id = some es := by
      unfold Graph.entries? at hes ⊢
      rwa [hsame.property?]
    have h := hcrossed.entries id es ((hsame.behavior? id).trans hb) hes₀
    rw [howed] at h
    show t.graph.entries? id = _
    rw [h]
    cases s.graph.fedByEmitter id <;> rfl

end Engine

/-! ## A counter and a log -/

/-- Whether a node that has to do with events is as its type made it, and nothing leads to the second
input of a counter. -/
def Node.fitsEvents (n : Node Catalog) : Bool :=
  match n.behavior with
  | some .emitter =>
    n.inputs.isEmpty && n.outputs.length == 1 && decide (n.mode = .always) && n.canExecute
  | some .counter =>
    n.inputs.map Input.name == ["inc", "reset"] && n.acceptsActions &&
      (n.inputs[1]?).all fun i => i.link.isNone
  | some .recorder =>
    n.inputs.length == 1 && decide (n.mode = .onTrigger) && n.canExecute && !n.acceptsActions
  | _ => true

theorem Graph.signaling_of_values {g : Graph Catalog} (hg : g.Consistent)
    (h : ∀ n ∈ g.nodes.values, n.fitsEvents = true) : g.Signaling := by
  have hfits : ∀ {id n}, g.nodes.get? id = some n → n.fitsEvents = true :=
    fun hn => h _ (Assoc.mem_values_of_get? hn)
  refine ⟨hg, fun id n hn hb => ?_, fun id n hn hb => ?_, fun id n hn hb => ?_⟩
  · have hfit := hfits hn
    simp only [Node.fitsEvents, hb, Bool.and_eq_true, List.isEmpty_iff, beq_iff_eq,
      decide_eq_true_eq] at hfit
    exact ⟨hfit.1.1.1, hfit.1.1.2, hfit.1.2, hfit.2⟩
  · have hfit := hfits hn
    simp only [Node.fitsEvents, hb, Bool.and_eq_true, beq_iff_eq, Option.all_eq_true] at hfit
    refine ⟨hfit.1.1, hfit.1.2, ?_⟩
    rintro k ⟨i, hi, hk⟩
    rw [input_of_node hn] at hi
    have hnone := hfit.2 i hi
    rw [hk] at hnone
    cases hnone
  · have hfit := hfits hn
    simp only [Node.fitsEvents, hb, Bool.and_eq_true, beq_iff_eq, decide_eq_true_eq,
      Bool.not_eq_true'] at hfit
    exact ⟨hfit.1.1.1, hfit.1.1.2, hfit.1.2, hfit.2⟩

/-- An emitter with a counter that has counted forty events and a log, and a counter that nothing
leads to, in a batch that stays open. -/
def heartbeat : Body Catalog Unit (Except ConnectionError LinkId) := do
  Body.edit .beginBatch
  let _ ← Body.addNew "events/emitter"
  let _ ← Body.addNew "events/counter"
  let _ ← Body.addNew "events/log"
  let _ ← Body.addNew "events/counter"
  Body.edit (.storeProperty ⟨2⟩ "count" (.int 40))
  let _ ← Body.edit (.tryConnect ⟨1⟩ 0 ⟨2⟩ 0)
  Body.edit (.tryConnect ⟨1⟩ 0 ⟨3⟩ 0)

theorem heartbeat_obeys {r : Registry Catalog} (hr : r.Fresh) : heartbeat.Obeys (linking r) := by
  refine ⟨trivial, fun _ _ => ?_⟩
  refine (Body.obeys_addNew fun t ht => hr "events/emitter" t ht).seq fun _ => ?_
  refine (Body.obeys_addNew fun t ht => hr "events/counter" t ht).seq fun _ => ?_
  refine (Body.obeys_addNew fun t ht => hr "events/log" t ht).seq fun _ => ?_
  refine (Body.obeys_addNew fun t ht => hr "events/counter" t ht).seq fun _ => ?_
  exact ⟨trivial, fun _ _ => ⟨trivial, fun _ _ => ⟨trivial, fun _ _ => trivial⟩⟩⟩

/-- The graph with an order for its nodes. -/
def Graph.orderedAs (g : Graph B) (order : List NodeId) : Graph B :=
  { g.number order with order, executable := order.filter g.hasBody, stale := false }

theorem heartbeat_beats : (Engine.exec 1 heartbeat
      (⟨Graph.empty (Catalog.registry id) .default, [], ()⟩ : Session Catalog Unit)).any fun e =>
    let g := e.2.graph
    let sweep := (Sweep.start g).advance g 4
    decide (∀ n ∈ g.nodes.values, n.fitsEvents = true) && g.stale &&
      decide (∀ i ∈ g.nodes.keys, i ∈ sweep.placed) && sweep.ready = [] &&
      sweep.placed = [⟨1⟩, ⟨4⟩, ⟨2⟩, ⟨3⟩] && decide (∀ i ∈ sweep.placed, g.priority i = 0) &&
      (g.behavior? ⟨2⟩ matches some .counter) && (g.behavior? ⟨4⟩ matches some .counter) &&
      (g.behavior? ⟨3⟩ matches some .recorder) && g.fedByEmitter ⟨2⟩ && g.fedByEmitter ⟨3⟩ &&
      !g.fedByEmitter ⟨4⟩ && (g.property? ⟨2⟩ "count" matches some (.int 40)) &&
      (g.property? ⟨4⟩ "count" matches some (.int 0)) &&
      (g.entries? ⟨3⟩).any List.isEmpty && g.iteration = 0 &&
      (Engine.runPasses (Engine.runner 3) 3
        (e.2.edit fun g => g.orderedAs [⟨1⟩, ⟨4⟩, ⟨2⟩, ⟨3⟩])).any fun r => r.1.toBool := by
  decide +kernel

/-- What is there before a step of three passes, which succeeds. -/
theorem heartbeat_runs : ∃ s s' : Session Catalog Unit, Reachable s ∧ s.graph.Signaling ∧
    Engine.exec 3 (Body.perform (.runStep 3 true)) s = some (.ok (), s') ∧
    (s.graph.behavior? ⟨2⟩ = some .counter ∧ s.graph.count? ⟨2⟩ = some 40 ∧
      s.graph.fedByEmitter ⟨2⟩ = true) ∧
    (s.graph.behavior? ⟨4⟩ = some .counter ∧ s.graph.count? ⟨4⟩ = some 0 ∧
      s.graph.fedByEmitter ⟨4⟩ = false) ∧
    (s.graph.behavior? ⟨3⟩ = some .recorder ∧ s.graph.entries? ⟨3⟩ = some [] ∧
      s.graph.fedByEmitter ⟨3⟩ = true) ∧ s.graph.iteration = 0 := by
  obtain ⟨⟨made, s⟩, hmade, hfacts⟩ := (Option.any_eq_true _ _).1 heartbeat_beats
  simp only [Bool.and_eq_true, decide_eq_true_eq, Bool.not_eq_true'] at hfacts
  obtain ⟨⟨⟨⟨⟨⟨⟨⟨⟨⟨⟨⟨⟨⟨⟨⟨hfits, hstale⟩, hkeys⟩, hready⟩, hplaced⟩, hsame⟩, htwo⟩, hfour⟩,
    hthree⟩, hfed⟩, hlogged⟩, hfree⟩, hforty⟩, hzero⟩, hempty⟩, hfirst⟩, hpasses⟩ := hfacts
  have hconsistent : s.graph.Consistent :=
    (Engine.keeps_exec (Engine.lawful_linking _) (Catalog.obeys_linking _)
      (heartbeat_obeys (Catalog.fresh_registry id)) 1
      ⟨Graph.empty (Catalog.registry id) .default, [], ()⟩ (Graph.tidy_empty _ _) _ s hmade).1
  have horder : s.graph.computeOrder = [⟨1⟩, ⟨4⟩, ⟨2⟩, ⟨3⟩] := by
    rw [hplaced] at hkeys hsame
    rw [Graph.computeOrder_of_advance hkeys hready hplaced]
    refine List.mergeSort_of_pairwise (List.pairwise_of_forall_mem_list fun i hi j hj => ?_)
    rw [hsame i hi, hsame j hj]
    rfl
  have hordered : s.ordered = s.edit fun g => g.orderedAs [⟨1⟩, ⟨4⟩, ⟨2⟩, ⟨3⟩] := by
    unfold Session.ordered
    rw [if_pos hstale, ← horder]
    rfl
  obtain ⟨⟨answer, t⟩, hrun, hanswer⟩ := (Option.any_eq_true _ _).1 hpasses
  refine ⟨s, t.stepped, (Reachable.start _ _ _ _).exec heartbeat hmade,
    Graph.signaling_of_values hconsistent hfits, ?_, ⟨?_, ?_, hfed⟩, ⟨?_, ?_, hfree⟩,
    ⟨?_, ?_, hlogged⟩, hfirst⟩
  · cases answer with
    | error e => cases hanswer
    | ok done =>
      rw [Engine.exec_perform]
      exact Engine.runStep_answers (hordered ▸ hrun)
  · split at htwo
    · next hb => exact hb
    · cases htwo
  · split at hforty
    · next hp => exact Graph.count?_of_int hp (by decide) (by decide)
    · cases hforty
  · split at hfour
    · next hb => exact hb
    · cases hfour
  · split at hzero
    · next hp => exact Graph.count?_of_int hp (by decide) (by decide)
    · cases hzero
  · split at hthree
    · next hb => exact hb
    · cases hthree
  · obtain ⟨es, hes, hnil⟩ := (Option.any_eq_true _ _).1 hempty
    rw [hes, List.isEmpty_iff.1 hnil]

/-- In three passes the counter gets from forty to forty-three and the log gets three entries, and
what nothing leads to counts nothing. -/
theorem heartbeat_tallies : ∃ s s' : Session Catalog Unit, Reachable s ∧ s.graph.Signaling ∧
    Engine.exec 3 (Body.perform (.runStep 3 true)) s = some (.ok (), s') ∧
    (s.graph.count? ⟨2⟩ = some 40 ∧ s'.graph.count? ⟨2⟩ = some 43) ∧
    (s.graph.count? ⟨4⟩ = some 0 ∧ s'.graph.count? ⟨4⟩ = some 0) ∧
    s.graph.entries? ⟨3⟩ = some [] ∧ s'.graph.entries? ⟨3⟩ = some [.int 0, .int 0, .int 0] := by
  obtain ⟨s, s', hs, hg, hr, ⟨htwo, hforty, hfed⟩, ⟨hfour, hzero, hfree⟩, ⟨hthree, hempty, hlogged⟩,
    hfirst⟩ := heartbeat_runs
  obtain ⟨hcounts, hentries⟩ := Engine.step_tallies hg hs.trusted.current hr
  have hcounted := hcounts ⟨2⟩ 40 htwo hforty (by decide) (by decide)
  have hstill := hcounts ⟨4⟩ 0 hfour hzero (by decide) (by decide)
  have hrecorded := hentries ⟨3⟩ [] hthree hempty
  rw [hfed] at hcounted
  rw [hfree] at hstill
  rw [hlogged, hfirst] at hrecorded
  exact ⟨s, s', hs, hg, hr, ⟨hforty, hcounted⟩, ⟨hzero, hstill⟩, hempty, hrecorded⟩

end Dataflow
