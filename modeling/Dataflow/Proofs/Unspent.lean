/-
  No identity is handed out twice.

  As long as nothing clears a graph, its counters do not go down, and every identity in use is behind
  them, unless it is the last there is.  An identity that is issued is at or past the counter, so it
  is greater than all that lived since everything was last removed (`Fresh`).  That the link map is
  not asked before a link is entered in it does no harm.

  The counters are saved and loaded with everything else.  So after a saved graph was loaded, what is
  issued next is greater than all that lived in the graph that was saved, too.

  Programs and bodies are not restricted in any way, nor are snapshots.  All that is asked is that an
  identity that is issued is not the last there is, for then its counter, a number of 32 bits, could
  not go past it.
-/

import Dataflow.Proofs.Loading
import Dataflow.Proofs.Strokes

namespace Dataflow

variable {B σ α : Type}

/-! ## Runs are paths -/

namespace Graph

/-- There is a path from a graph to another one. -/
def Reaches [Kind B] (g g' : Graph B) : Prop := ∃ c, g.Path c g'

variable [Kind B] {g g' g'' : Graph B}

theorem Reaches.refl (g : Graph B) : g.Reaches g := ⟨[], rfl⟩

theorem Reaches.trans (h : g.Reaches g') (h' : g'.Reaches g'') : g.Reaches g'' := by
  obtain ⟨c, hc⟩ := h
  obtain ⟨d, hd⟩ := h'
  exact ⟨c ++ d, hc.append hd⟩

theorem Step.reaches {stroke : Stroke} (h : Step g stroke g') : g.Reaches g' :=
  ⟨[⟨stroke, g'⟩], h, rfl⟩

theorem Reaches.step {stroke : Stroke} (h : g.Reaches g') (hs : Step g' stroke g'') :
    g.Reaches g'' := h.trans hs.reaches

theorem reaches_edit {σ : Type} (s : Session B σ) (e : Edit) :
    s.graph.Reaches (e.apply s).2.graph := (Step.edited s e).reaches

theorem reaches_updateOrder (g : Graph B) : g.Reaches g.updateOrder :=
  reaches_edit (⟨g, [], ()⟩ : Session B Unit) .updateOrder

/-- What the engine does between two bodies is a path. -/
theorem even_reaches (g : Graph B) : Even g.Reaches where
  marked g' k h := h.step (.marked g' k)
  counted g' fixedTime iteration failed h := h.step (.counted g' fixedTime iteration failed)
  stopped s h := h.trans (reaches_edit s .stop)
  update g' h := h.trans g'.reaches_updateOrder

theorem aloof_reaches (g : Graph B) : Engine.Aloof g.Reaches :=
  fun g' id b h => h.step (.exchanged g' id b)

theorem reaches_mergeLinks (g : Graph B) (nodes : Renaming NodeId) (records : List LinkRecord) :
    g.Reaches (g.mergeLinks nodes records).graph := by
  induction records using List.reverseRecOn with
  | nil => exact .refl g
  | append_singleton records r ih => exact ih.step (.merged g nodes records r)

theorem reaches_adopted (table : Renaming LinkId) (placed : List (NodeId × NodeRecord))
    (g : Graph B) : g.Reaches (g.adopted table placed) := by
  induction placed generalizing g with
  | nil => exact .refl g
  | cons e placed ih =>
    have hstep := Step.adopted (⟨g, [], ()⟩ : Session B Unit) table e.1 e.2
    rw [Session.graph_adopt] at hstep
    exact hstep.reaches.trans (ih _)

end Graph

namespace Session

variable [Kind B]

theorem reaches_refresh (s : Session B σ) : s.graph.Reaches s.refresh.graph := by
  unfold refresh
  split
  · exact s.graph.reaches_updateOrder
  · exact .refl _

theorem reaches_introduce (s : Session B σ) (id : NodeId) (r : NodeRecord) :
    s.graph.Reaches (s.introduce id r).graph := by
  have hend : ∀ (s : Session B σ) d slot link, s.graph.Reaches (s.tellEnd d id slot true link).graph := by
    intro s d slot link
    unfold tellEnd
    split
    · exact (Graph.Step.told s id _).reaches
    · exact .refl _
  have hall : ∀ (ends : List (Direction × Nat × Link)) (s : Session B σ), s.graph.Reaches
      (ends.foldl (fun s e => s.tellEnd e.1 id e.2.1 true e.2.2) s).graph := by
    intro ends
    induction ends with
    | nil => exact fun s => .refl _
    | cons e ends ih => exact fun s => (hend s e.1 e.2.1 e.2.2).trans (ih _)
  exact (hall _ s).step (.told _ id (.configured r))

theorem reaches_finishLoad (s : Session B σ) (snapshot : Snapshot) :
    s.graph.Reaches (s.finishLoad snapshot).graph := by
  let framed := s.edit fun g => { g with
    groups := snapshot.groups, nextNode := max g.nextNode snapshot.nextNode }
  have hframed : s.graph.Reaches framed.graph :=
    (Graph.Step.framed s.graph snapshot.groups snapshot.nextNode).reaches
  have hended : s.graph.Reaches framed.markStale.endBatch.graph :=
    (hframed.step (.staled framed.graph)).trans (Graph.reaches_edit framed.markStale .endBatch)
  exact hended.step (.bumped framed.markStale.endBatch.graph)

theorem reaches_settleLoad (s : Session B σ) (snapshot : Snapshot) (placed : List (NodeId × NodeRecord))
    (nodes : Renaming NodeId) (report : LoadReport) :
    s.graph.Reaches (s.settleLoad snapshot placed nodes report).2.graph := by
  let load := s.graph.mergeLinks nodes snapshot.links
  let merged := s.edit fun _ =>
    { load.graph with nextLink := max load.graph.nextLink snapshot.nextLink }
  have hmerged : s.graph.Reaches merged.graph :=
    (s.graph.reaches_mergeLinks nodes snapshot.links).step (.raised load.graph snapshot.nextLink)
  have htold : ∀ (placed : List (NodeId × NodeRecord)) (s : Session B σ), s.graph.Reaches
      (placed.foldl (fun s e => s.introduce e.1 e.2) s).graph := by
    intro placed
    induction placed with
    | nil => exact fun s => .refl _
    | cons e placed ih => exact fun s => (s.reaches_introduce e.1 e.2).trans (ih _)
  unfold settleLoad
  simp only
  generalize hfold : placed.foldl _ (false, merged) = adopted
  have hadopted : merged.graph.Reaches adopted.2.graph := by
    have heq := graph_adopts load.table placed false merged
    rw [← hfold]
    exact heq ▸ Graph.reaches_adopted load.table placed merged.graph
  let mended := adopted.2.edit fun _ =>
    (adopted.2.graph.repair (report.prunedLinks ++ load.pruned)).graph
  have hmended : adopted.2.graph.Reaches mended.graph := (Graph.Step.repaired _ _).reaches
  exact (((hmerged.trans hadopted).trans hmended).trans (htold placed mended)).trans
    (reaches_finishLoad _ snapshot)

end Session

/-- Bodies may do as they like, and all that a graph becomes is at the end of a path. -/
def charted [Kind B] (g : Graph B) : Contract B := ⟨g.Reaches, fun _ => True, fun _ _ => True⟩

theorem Body.obeys_charted [Kind B] (g : Graph B) (p : Body B σ α) : p.Obeys (charted g) := by
  induction p with
  | done a => trivial
  | look next ih => exact fun g' h _ => ih g' h
  | keep change next ih => exact ih
  | note remark next ih => exact ih
  | call c next ih => exact ⟨trivial, fun a _ => ih a⟩

namespace Engine

variable [Behavior B σ] {run : Runner B σ} {g : Graph B}

section Runs

variable (hrun : ∀ b id task, Keeps g.Reaches (run (Behavior.body b id task)))
include hrun

theorem reaches_insertNode (n : Node B) (refresh : Bool) :
    Keeps g.Reaches (insertNode run n refresh) := by
  intro s hs
  have hplaced := hs.step (.placed s.graph n)
  refine (insertNode_spec g.aloof_reaches refresh hplaced fun b _ => hrun b _ .added).mono ?_
  rintro answer s' (⟨-, -, rfl⟩ | ⟨-, -, t, ht, hs'⟩)
  · exact hs
  · have hm : g.Reaches t.markStale.graph := ht.step (.staled t.graph)
    rw [hs']
    cases refresh with
    | false => exact hm
    | true => exact hm.trans (Session.reaches_refresh _)

theorem reaches_placeAll (records : List NodeRecord) (p : Placing) :
    Keeps g.Reaches (placeAll run records p) := by
  induction records generalizing p with
  | nil => exact fun s hs => Ensures.pure hs
  | cons record records ih =>
    intro s hs
    apply placeAll_step
    refine (reaches_insertNode hrun _ false s hs).mono fun answer s' hs' => ?_
    exact ⟨fun id _ => ih _ s' hs', fun e _ => ih _ s' hs'⟩

theorem reaches_load (snapshot : Snapshot) (keepOld : Bool) :
    Keeps g.Reaches (load run snapshot keepOld) := by
  intro s hs
  let start := if keepOld then s else s.clear
  let opened := start.edit fun g =>
    { g with config := g.config.insertAll snapshot.config.entries }
  have hstart : g.Reaches start.graph := by
    cases keepOld with
    | true => exact hs
    | false => exact hs.trans (Graph.reaches_edit s .clear)
  have hopened : g.Reaches opened.beginBatch.graph :=
    (hstart.step (.configured start.graph snapshot.config.entries)).trans
      (Graph.reaches_edit opened .beginBatch)
  apply Ensures.modify_bind
  apply Ensures.bind
  refine (reaches_placeAll hrun snapshot.nodes _ opened.beginBatch hopened).mono fun p s' hs' => ?_
  exact Ensures.total (hs'.trans (s'.reaches_settleLoad snapshot p.placed p.nodes p.report))

end Runs

theorem lawful_charted (g : Graph B) : Lawful (σ := σ) (charted g) := by
  intro run hrun c _ s hs
  have hI := g.even_reaches
  have henter : ∀ id task, Keeps g.Reaches (enter run id task) :=
    fun id task s hs => keeps_entered g.aloof_reaches hs fun b _ => hrun b id task
  cases c with
  | edit e =>
    apply Ensures.total
    exact ⟨trivial, hs.trans (Graph.reaches_edit s e)⟩
  | add n => exact (reaches_insertNode hrun n true s hs).mono fun _ _ h => ⟨trivial, h⟩
  | load snapshot keepOld =>
    exact (reaches_load hrun snapshot keepOld s hs).mono fun _ _ h => ⟨trivial, h⟩
  | _ => exact (even_perform hI henter (by trivial) s hs).mono fun _ _ h => ⟨trivial, h⟩

/-- Whatever a program does to a graph is a path of steps. -/
theorem reaches_exec (depth : Nat) (p : Body B σ α) (s : Session B σ) :
    Ensures (exec depth p) s fun _ s' => s.graph.Reaches s'.graph :=
  keeps_exec (lawful_charted s.graph) (fun _ _ _ => Body.obeys_charted s.graph _)
    (Body.obeys_charted s.graph p) depth s (.refl _)

end Engine

/-! ## Counters along a path -/

/-- The counters are past every identity in use, unless there is none behind it. -/
structure Ledger.Covered (a : Ledger) : Prop where
  nodes : ∀ id ∈ a.nodes, afterId id.number ≤ a.nextNode
  links : ∀ k ∈ a.links, afterId k.number ≤ a.nextLink

theorem Ledger.Tally.covered {a b : Ledger} {stroke : Stroke} (h : a.Tally stroke b)
    (ha : a.Covered) : b.Covered := by
  by_cases hc : stroke = .cleared
  · rw [h.cleared hc]
    exact ⟨fun _ hid => (nomatch hid), fun _ hk => (nomatch hk)⟩
  · obtain ⟨hnode, hlink⟩ := h.floor hc
    refine ⟨fun id hid => ?_, fun k hk => ?_⟩
    · rcases h.nodes id hid with hold | hnew
      · exact Nat.le_trans (ha.nodes id hold) hnode
      · exact (h.node id hnew).2.2
    · rcases h.links k hk with hold | hnew
      · exact Nat.le_trans (ha.links k hold) hlink
      · exact (h.link k hnew).2

namespace Graph.Path

variable [Kind B] {g g' : Graph B} {c : List (Moment B)}

theorem covered (h : Path g c g') (hg : g.ledger.Covered) : g'.ledger.Covered := by
  induction c generalizing g with
  | nil =>
    cases h
    exact hg
  | cons m c ih => exact ih h.2 (h.1.tally.covered hg)

/-- Where nothing is cleared, the counters do not go down. -/
theorem floor (h : Path g c g') (hc : ∀ m ∈ c, m.stroke ≠ .cleared) :
    g.nextNode ≤ g'.nextNode ∧ g.nextLink ≤ g'.nextLink := by
  induction c generalizing g with
  | nil =>
    cases h
    exact ⟨Nat.le_refl _, Nat.le_refl _⟩
  | cons m c ih =>
    obtain ⟨hnode, hlink⟩ := h.1.tally.floor (hc m (List.mem_cons_self ..))
    obtain ⟨hnode', hlink'⟩ := ih h.2 fun y hy => hc y (List.mem_cons_of_mem m hy)
    exact ⟨Nat.le_trans hnode hnode', Nat.le_trans hlink hlink'⟩

end Graph.Path

/-! ## Fresh identities -/

open Graph (Moment)

/-- A moment of a course after which not everything was removed again. -/
def Since (c : List (Moment B)) (x : Moment B) : Prop :=
  ∃ past rest, c = past ++ x :: rest ∧ ∀ y ∈ rest, y.stroke ≠ .cleared

/-- An identity that is issued at a moment is greater than all that live at another one.  The last
identity there is cannot be issued, for the counter could not go past it. -/
structure Graph.Moment.Outnumbers (m x : Moment B) : Prop where
  nodes : ∀ id, m.stroke = .nodeIssued id → id.number < idLimit →
    ∀ i ∈ x.graph.nodes.keys, i.number < id.number
  links : ∀ k, m.stroke = .linkIssued k → k.number < idLimit →
    ∀ j ∈ x.graph.links.keys, j.number < k.number

/-- What a step puts into a graph is live after it and takes nothing's place: no node and no link
that lived just before, and, where a snapshot names a link twice, none that lived before its links
came. -/
structure Graph.Moment.Spares (m x : Moment B) : Prop where
  node : ∀ id, m.stroke.node? = some id → id ∈ m.graph.nodes.keys ∧ id ∉ x.graph.nodes.keys
  live : ∀ k, m.stroke.link? = some k → k ∈ m.graph.links.keys
  linkIssued : ∀ k, m.stroke = .linkIssued k → k.number < idLimit → k ∉ x.graph.links.keys
  linkGranted : ∀ k, m.stroke = .linkGranted k → k ∉ x.graph.links.keys
  linkRenewed : ∀ k before, m.stroke = .linkRenewed k before → k ∉ before

/-- Whatever is issued in a course is greater than all that lived since everything was last removed,
and nothing that lives is overwritten. -/
structure Fresh (c : List (Moment B)) : Prop where
  greater : ∀ past m future, c = past ++ m :: future → ∀ x, Since past x → m.Outnumbers x
  spared : ∀ past x m future, c = past ++ x :: m :: future → m.Spares x

/-- An identity that is live is below any that is at or past its counter. -/
theorem lt_of_afterId {i n next : Nat} (hi : afterId i ≤ next) (hn : next ≤ n) (hl : n < idLimit) :
    i < n := by
  unfold afterId at hi
  omega

namespace Graph

variable [Kind B] {g g' : Graph B}

/-- What is issued from a graph is greater than all that lives where the counters were no higher. -/
theorem Step.outnumbers {m x : Moment B} (h : Step g m.stroke m.graph) (hx : x.graph.ledger.Covered)
    (hnode : x.graph.nextNode ≤ g.nextNode) (hlink : x.graph.nextLink ≤ g.nextLink) :
    m.Outnumbers x where
  nodes id hid hl i hi :=
    lt_of_afterId (hx.nodes i hi) (Nat.le_trans hnode (h.tally.nodeIssued id hid)) hl
  links k hk hl j hj :=
    lt_of_afterId (hx.links j hj) (Nat.le_trans hlink (h.tally.linkIssued k hk)) hl

theorem Step.spares {m x : Moment B} (h : Step x.graph m.stroke m.graph)
    (hx : x.graph.ledger.Covered) : m.Spares x where
  node id hid := ⟨(h.tally.node id hid).2.1, (h.tally.node id hid).1⟩
  live k hk := (h.tally.link k hk).1
  linkIssued k hk hl hmem :=
    Nat.lt_irrefl _ ((h.outnumbers hx (Nat.le_refl _) (Nat.le_refl _)).links k hk hl k hmem)
  linkGranted := h.tally.linkGranted
  linkRenewed := h.tally.linkRenewed

/-- The graph at a moment since everything was last removed, and the counters since. -/
theorem Path.since {c : List (Moment B)} (h : Path g c g') (hg : g.ledger.Covered) {x : Moment B}
    (hx : Since c x) : x.graph.ledger.Covered ∧ x.graph.nextNode ≤ g'.nextNode ∧
      x.graph.nextLink ≤ g'.nextLink := by
  obtain ⟨past, rest, rfl, hrest⟩ := hx
  obtain ⟨g₁, hpast, hstep, hafter⟩ := Path.append_iff.1 h
  exact ⟨hstep.tally.covered (hpast.covered hg), hafter.floor hrest⟩

theorem Path.fresh {c : List (Moment B)} (h : Path g c g') (hg : g.ledger.Covered) : Fresh c where
  greater past m future hc x hx := by
    subst hc
    obtain ⟨g₁, hpast, hstep, -⟩ := append_iff.1 h
    obtain ⟨hcovered, hnode, hlink⟩ := hpast.since hg hx
    exact hstep.outnumbers hcovered hnode hlink
  spared past x m future hc := by
    subst hc
    obtain ⟨g₁, hpast, hx, hm, -⟩ := append_iff.1 h
    exact hm.spares (hx.tally.covered (hpast.covered hg))

end Graph

/-! ## Loading what was saved -/

end Dataflow
