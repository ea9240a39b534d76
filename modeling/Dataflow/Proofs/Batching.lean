/-
  Batching is only an optimisation.

  Between the opening and the closing of a batch, nothing brings the cached order up to date, and
  nothing has to: operations in a batch answer what they answer outside of one, apart from the place
  noted in a removed node, and in the end the graphs differ in the schedule only.  Closing the batch
  makes the schedule current, as every operation outside of batches does; and there is only one
  current schedule (`Abreast.eq_of_trusted`).  So the graphs are the same.
-/

import Dataflow.Proofs.Firing
import Dataflow.Proofs.Reachable
import Dataflow.Proofs.Together

namespace Dataflow

variable {B σ α β : Type}

/-! ## Current schedules -/

/-- Two graphs without open batches that differ in the schedule only do not differ at all when both
can be trusted: a current schedule is computed from the rest. -/
theorem Session.Abreast.eq_of_trusted {s t : Session B σ} (h : s.Abreast 0 0 t)
    (hs : s.graph.Trusted) (ht : t.graph.Trusted) : t = s := by
  have hfresh := hs.settled h.left
  have hfresh' := ht.settled h.right
  have hcs := hs.current hfresh
  have hct := ht.current hfresh'
  have hdepth : t.graph.batchDepth = s.graph.batchDepth := h.right.trans h.left.symm
  obtain ⟨c, rfl⟩ := h.under
  have horder : c.order = s.graph.order := by
    have ho : c.order = (s.graph.under c).computeOrder := hct.order
    rw [ho, s.graph.computeOrder_under c, hcs.order]
  have hexec : c.executable = s.graph.executable := by
    have he : c.executable = (s.graph.under c).computeOrder.filter (s.graph.under c).hasBody :=
      hct.executable
    rw [he, s.graph.computeOrder_under c, funext (s.graph.hasBody_under c), hcs.executable]
  have hnodup : s.graph.order.Nodup := hcs.order ▸ s.graph.nodup_computeOrder
  -- every node stands once in the order, so its place is known
  have hplace : ∀ id n, s.graph.nodes.get? id = some n → c.place id = n.order := by
    intro id n hn
    have hp := hcs.places id n hn
    have hp' : c.order[c.place id]? = some id := by
      refine hct.places id (n.noting (c.place id)) ?_
      rw [get?_under, hn]
      rfl
    rw [horder] at hp'
    obtain ⟨hi, hv⟩ := List.getElem?_eq_some_iff.1 hp
    obtain ⟨hi', hv'⟩ := List.getElem?_eq_some_iff.1 hp'
    exact (List.Nodup.getElem_inj_iff hnodup).1 (hv'.trans hv.symm)
  have hnodes : (s.graph.under c).nodes = s.graph.nodes := by
    apply Assoc.ext_view
    · exact s.graph.keys_under c
    · intro id
      rw [s.graph.get?_under c id]
      cases hn : s.graph.nodes.get? id with
      | none => rfl
      | some n =>
        rw [Option.map_some, hplace id n hn]
        rfl
  have hgraph : s.graph.under c = s.graph := by
    show ({ s.graph with
      nodes := (s.graph.under c).nodes, order := c.order, executable := c.executable
      stale := c.stale, batchDepth := c.batchDepth } : Graph B) = _
    rw [hnodes, horder, hexec, show c.stale = s.graph.stale from hfresh'.trans hfresh.symm,
      show c.batchDepth = s.graph.batchDepth from hdepth]
  exact Session.edit_congr (u := fun g => g) hgraph

/-! ## Programs in a batch -/

/-- The program in a batch of its own. -/
def Body.batched (p : Body B σ α) : Body B σ α := do
  let _ ← edit .beginBatch
  let a ← p
  let _ ← edit .endBatch
  return a

namespace Engine

variable [Behavior B σ]

theorem exec_batched (depth : Nat) (p : Body B σ α) (s : Session B σ) :
    exec depth p.batched s = (exec depth p s.beginBatch).map fun r => (r.1, r.2.endBatch) := by
  show (p.bind fun a => .call (.edit .endBatch) fun _ => .done a).run _ s.beginBatch = _
  rw [Body.run_bind]
  show (exec depth p s.beginBatch).bind _ = _
  cases exec depth p s.beginBatch <;> rfl

theorem trusted_exec {depth : Nat} (p : Body B σ α) {s t : Session B σ} {a : α}
    (hs : s.graph.Trusted) (h : exec depth p s = some (a, t)) : t.graph.Trusted :=
  keeps_exec lawful_trusting (fun b id task => (Behavior.body b id task).obeys_trusting)
    p.obeys_trusting depth s hs a t h

/-- A program in a batch answers what its twin answers outside of one, and leaves the same behind. -/
theorem batched_twin (hb : ∀ b id task, (Behavior.body b id task : Body B σ (Outcome B)).Blind)
    {R : α → β → Prop} {p : Body B σ α} {q : Body B σ β} (h : p.Twins R 0 q) {s : Session B σ}
    (hs : s.graph.Trusted) (h0 : s.graph.batchDepth = 0) (depth : Nat) :
    Option.Rel (fun r r' => R r.1 r'.1 ∧ r'.2 = r.2) (exec depth p s) (exec depth q.batched s) := by
  have hopen : s.Abreast 0 1 s.beginBatch :=
    ⟨h0, congrArg (· + 1) h0, (s.rescheduled_batches (· + 1)).imp fun _ h => h.2⟩
  have hrun := together_exec hb h depth hopen
  unfold Together at hrun
  -- the two runs end alike, so there are two cases and not four
  rw [exec_batched]
  cases hr : exec depth p s with
  | none =>
    rw [hr] at hrun
    cases hr' : exec depth q s.beginBatch with
    | none => exact .none
    | some r' =>
      rw [hr'] at hrun
      cases hrun
  | some r =>
    rw [hr] at hrun
    cases hr' : exec depth q s.beginBatch with
    | none =>
      rw [hr'] at hrun
      cases hrun
    | some r' =>
      rw [hr'] at hrun
      cases hrun with
      | some hm =>
        refine .some ⟨hm.answer, ?_⟩
        -- outside of batches the cached order is current on both sides
        have hp := trusted_exec p hs hr
        have hq := trusted_exec q (Session.trusted_beginBatch hs) hr'
        exact (hm.after.close_right).eq_of_trusted hp (Session.trusted_endBatch hq)

end Engine

/-! ## Sequences of operations -/

namespace Call

/-- The answers of some calls, first to last. -/
def Answers : List (Call B) → Type
  | [] => Unit
  | c :: ops => c.Answer × Answers ops

/-- Answers that belong together, call by call. -/
def AllAgree : (ops : List (Call B)) → Answers ops → Answers ops → Prop
  | [], _, _ => True
  | c :: ops, a, b => c.Agree a.1 b.1 ∧ AllAgree ops a.2 b.2

/-- Calls that close every batch they open, and `n` that were open before. -/
inductive Balanced : Nat → List (Call B) → Prop
  | nil : Balanced 0 []
  | beginBatch {n : Nat} {ops : List (Call B)} (h : Balanced (n + 1) ops) :
    Balanced n (.edit .beginBatch :: ops)
  | endBatch {n : Nat} {ops : List (Call B)} (h : Balanced n ops) :
    Balanced (n + 1) (.edit .endBatch :: ops)
  | plain {n : Nat} {c : Call B} {ops : List (Call B)} (hc : c.Plain) (h : Balanced n ops) :
    Balanced n (c :: ops)

end Call

/-- The program that makes some calls, first to last. -/
def Body.sequence : (ops : List (Call B)) → Body B σ (Call.Answers ops)
  | [] => .done ()
  | c :: ops => .call c fun a => (sequence ops).bind fun as => .done (a, as)

theorem Call.Balanced.twins {n : Nat} {ops : List (Call B)} (h : Balanced n ops) :
    (Body.sequence ops : Body B σ _).Twins (AllAgree ops) n (Body.sequence ops) := by
  induction h with
  | nil => exact .done trivial
  | beginBatch _ ih => exact .beginBatch (ih.bind fun as bs h => .done ⟨rfl, h⟩)
  | endBatch _ ih => exact .endBatch (ih.bind fun as bs h => .done ⟨rfl, h⟩)
  | plain hc _ ih => exact .call hc fun a b ha => ih.bind fun as bs h => .done ⟨ha, h⟩

/-- Batching is only an optimisation.  Operations that close the batches they open, made in a graph
without open batches whose cached order can be trusted, by behaviours that neither read the cached
order nor leave a batch open, answer in a batch of their own what they answer outside of one, but
for the place noted in a removed node, and leave the same graph, the same events and the same host
behind. -/
theorem Engine.batching_unseen [Behavior B σ]
    (hb : ∀ b id task, (Behavior.body b id task : Body B σ (Outcome B)).Blind)
    {ops : List (Call B)} (hops : Call.Balanced 0 ops) {s : Session B σ} (hs : s.graph.Trusted)
    (h0 : s.graph.batchDepth = 0) (depth : Nat) :
    Option.Rel (fun r r' => Call.AllAgree ops r.1 r'.1 ∧ r'.2 = r.2)
      (exec depth (Body.sequence ops) s) (exec depth (Body.sequence ops).batched s) :=
  batched_twin hb hops.twins hs h0 depth

/-! ## The standard nodes -/

namespace Body

theorem Blind.seq {p : Body B σ α} (hp : p.Blind) {f : α → Body B σ β} (hf : ∀ a, (f a).Blind) :
    (p >>= f).Blind := Twins.bind hp fun a _ h => h ▸ hf a

theorem blind_done (a : α) : (done a : Body B σ α).Blind := .done rfl

/-- A program that looks at the graph, but not at its schedule. -/
theorem blind_graph {f : Graph B → Body B σ α} (hu : ∀ g c, f (g.under c) = f g)
    (hf : ∀ g, (f g).Blind) : (graph >>= f).Blind := by
  refine .look fun g c host => ?_
  show Twins Eq 0 (f g) (f (g.under c))
  rw [hu]
  exact hf g

theorem blind_property (id : NodeId) (name : String) : (property id name : Body B σ _).Blind :=
  .look fun g c _ => .done (g.property?_under c id name).symm

theorem blind_edit {e : Edit} (h : e.light = true) : (edit e : Body B σ _).Blind := by
  cases e <;> first | exact .call trivial fun _ _ h => .done h | cases h

theorem Blind.after {computed : Except NodeError α} {next : α → Body B σ Unit}
    (h : ∀ a, (next a).Blind) : (Body.after computed next).Blind := by
  cases computed with
  | error e => exact .done rfl
  | ok a => exact (h a).seq fun _ => .done rfl

end Body

namespace Catalog

open Body

theorem blind_write (id : NodeId) (slot : Nat) (value : Value) :
    (Body.write id slot value : Body B σ Unit).Blind :=
  (blind_edit rfl).seq fun _ => blind_done ()

theorem wanted?_under (g : Graph B) (c : Schedule) (id : NodeId) :
    wanted? (g.under c) id = wanted? g id := by
  unfold wanted?
  rw [g.get?_under c]
  cases g.nodes.get? id <;> rfl

theorem attributesOf_under (g : Graph B) (c : Schedule) (id : NodeId) :
    attributesOf (g.under c) id = attributesOf g id := funext (g.property?_under c id)

theorem blind_settleName (d : Direction) (id : NodeId) (name : String) :
    (settleName d id name : Body B σ String).Blind := by
  unfold settleName
  split
  · exact (blind_edit rfl).seq fun _ => blind_done _
  · exact blind_done _

theorem blind_sync (d : Direction) (registered : Option String) (id : NodeId) :
    (sync d registered id : Body B σ _).Blind := by
  unfold sync
  refine blind_graph (fun g c => by rw [wanted?_under]) fun g => ?_
  cases wanted? g id with
  | none => exact blind_done _
  | some asked =>
    refine (blind_settleName d id asked.1).seq fun name => ?_
    extract_lets finish register
    have hf : ∀ u, (finish u).Blind := fun u =>
      (blind_edit rfl).seq fun _ => (blind_edit rfl).seq fun _ => blind_done _
    have hr : ∀ u, (register u).Blind := by
      intro u
      refine blind_graph (fun g c => by rw [g.terminals_under c]) fun g => ?_
      cases (g.terminals d).contains name with
      | true => exact hf ()
      | false => exact (blind_edit rfl).seq fun _ => hf ()
    cases registered with
    | none => exact hr ()
    | some old =>
      show Body.Blind (ite _ _ _)
      split
      · exact (blind_edit rfl).seq fun _ => hr ()
      · exact hr ()

theorem blind_carry (d : Direction) (name : String) (id : NodeId) :
    (carry d name id : Body B σ Unit).Blind := by
  unfold carry
  cases d with
  | input =>
    refine blind_graph (fun g c => rfl) fun g => ?_
    cases g.terminalValue? .input name with
    | none => exact blind_done _
    | some v => exact blind_write id 0 v
  | output =>
    refine blind_graph (fun g c => by rw [g.inputData?_under c]) fun g => ?_
    cases g.inputData? id 0 with
    | none => exact blind_done _
    | some v => exact (blind_edit rfl).seq fun _ => blind_done _

theorem blind_syncAndCarry (d : Direction) (registered : Option String) (id : NodeId) :
    (syncAndCarry d registered id : Body B σ _).Blind := by
  refine (blind_sync d registered id).seq fun registered => ?_
  cases registered with
  | none => exact blind_done _
  | some name => exact (blind_carry d name id).seq fun _ => blind_done _

theorem blind_showInput (id : NodeId) : (showInput id : Body B σ Unit).Blind := by
  unfold showInput
  refine blind_graph (fun g c => by rw [g.inputData?_under c, g.property?_under c]) fun g => ?_
  extract_lets value
  cases holdsAlready (g.property? id "value") value with
  | true => exact blind_done _
  | false => exact blind_edit rfl

theorem blind_emit (id : NodeId) : (emit id : Body B σ Ending).Blind := by
  refine .look fun g c host => ?_
  show Twins Eq 0 (.call (.triggerSlot id 0 (.int g.iteration) none) _)
    (.call (.triggerSlot id 0 (.int g.iteration) none) _)
  refine .call trivial fun a b h => ?_
  cases show a = b from h
  cases a with
  | error e => exact blind_done _
  | ok n => exact blind_done _

theorem blind_execute (b : Catalog) (id : NodeId) (payload : Option Value) :
    (b.execute id payload : Body B σ Ending).Blind := by
  cases b with
  | inert => exact blind_done _
  | constant =>
    exact blind_graph (fun g c => by rw [g.property?_under c]) fun g =>
      Blind.after fun x => blind_write id 0 _
  | watch => exact (blind_showInput id).seq fun _ => blind_done _
  | sum =>
    refine blind_graph (fun g c => ?_) fun g => Blind.after fun x => blind_write id 0 _
    unfold total
    rw [g.inputOrProperty?_under c, g.inputOrProperty?_under c]
  | emitter => exact blind_emit id
  | counter =>
    refine Blind.seq ?_ fun _ => blind_done _
    exact (blind_property id "count").seq fun v => blind_write id 0 _
  | recorder =>
    refine Blind.seq ?_ fun _ => blind_done _
    exact (blind_property id "entries").seq fun v => by exact blind_edit rfl
  | bridge d registered => exact blind_done _
  | source rank =>
    refine blind_graph (fun g c => ?_) fun g => Blind.after fun shape => blind_write id 0 _
    rw [attributesOf_under]
  | layer rule =>
    refine blind_graph (fun g c => ?_) fun g => ?_
    · rw [attributesOf_under, g.inputData?_under c]
    · cases g.inputData? id 0 with
      | none => exact blind_done _
      | some value => exact Blind.after fun shape => blind_write id 0 _

theorem blind_count (id : NodeId) (action : String) : (count id action : Body B σ Ending).Blind := by
  refine (blind_property id "count").seq fun v => Blind.after fun x => ?_
  split
  · exact blind_edit rfl
  · exact blind_done _

/-- The bodies of the catalog neither read the cached order nor open batches. -/
theorem blind_behavior (b : Catalog) (id : NodeId) (task : Task) :
    (Behavior.body b id task : Body Catalog Unit (Outcome Catalog)).Blind := by
  refine Blind.seq ?_ fun _ => blind_done _
  unfold body
  split
  · exact (blind_sync _ _ _).seq fun _ => blind_done _
  · exact (blind_syncAndCarry _ _ _).seq fun _ => blind_done _
  · exact (blind_count id _).seq fun _ => blind_done _
  · exact (blind_execute b id _).seq fun _ => blind_done _
  · exact blind_done _

end Catalog

/-- A node is replaced in a batch within the batch. -/
theorem nested_batch_unseen :
    let ops : List (Call Catalog) := [.add (Node.new "first"), .edit .beginBatch,
      .edit (.remove ⟨1⟩), .add (Node.new "second"), .edit .endBatch,
      .edit (.change ⟨2⟩ (.prioritized (some (-1))))]
    let s : Session Catalog Unit := ⟨Graph.empty ∅ .default, [], ()⟩
    ∃ r r', Engine.exec 1 (Body.sequence ops) s = some r ∧
      Engine.exec 1 (Body.sequence ops).batched s = some r' ∧
      Call.AllAgree ops r.1 r'.1 ∧ r'.2 = r.2 ∧ r.2.graph.order = [⟨2⟩] := by
  intro ops s
  have hops : Call.Balanced 0 ops :=
    .plain trivial (.beginBatch (.plain trivial (.plain trivial (.endBatch (.plain trivial .nil)))))
  have hs : s.graph.Trusted := Graph.trusted_of_empty rfl rfl rfl rfl
  have hall := Engine.batching_unseen Catalog.blind_behavior hops hs rfl 1
  have hrun : ((Engine.exec 1 (Body.sequence ops) s).any fun r =>
      decide (r.2.graph.order = [⟨2⟩])) = true := by decide +kernel
  obtain ⟨r, hr, ho⟩ := (Option.any_eq_true _ _).1 hrun
  obtain ⟨r', hr'⟩ : ∃ r', Engine.exec 1 (Body.sequence ops).batched s = some r' := by
    apply Option.isSome_iff_exists.1
    decide +kernel
  rw [hr, hr'] at hall
  cases hall with
  | some hall => exact ⟨r, r', hr, hr', hall.1, hall.2, of_decide_eq_true ho⟩

end Dataflow
