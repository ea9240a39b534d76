/-
  What a link changes that is made.

  A link that is made takes the place of the one that fed its input, if any.  So a graph in which a
  connection succeeded is the graph that lost the replaced link, with the new link added at the end
  and the order computed anew (`Session.tryConnect_spec`).  What that means for each slot, node and
  link is read off (`Graph.Connected`).

  Removing the link again undoes it, if it replaced none: no other slot can name it, for its number
  was never in use, so that taking it out everywhere leaves what was there before
  (`Graph.severed_addLink`).  The order comes back because it was current and is computed from the
  rest (`Graph.Current.updateOrder_eq`).
-/

import Dataflow.Proofs.Reachable
import Dataflow.Proofs.Removing
import Dataflow.Proofs.Together

namespace Dataflow

variable {B σ : Type}

namespace Graph

variable {g : Graph B}

/-! ## A current order -/

/-- A current order stays when it is computed again. -/
theorem Current.updateOrder_eq (hc : g.Current) (hs : g.stale = false) : g.updateOrder = g := by
  have hplace : ∀ id n, g.nodes.get? id = some n → g.order.idxOf id = n.order := by
    intro id n hn
    obtain ⟨hi, hat⟩ := List.getElem?_eq_some_iff.1 (hc.places id n hn)
    have hnodup : g.order.Nodup := hc.order ▸ g.nodup_computeOrder
    rw [← hat, hnodup.idxOf_getElem]
  have hn : (g.nodes.mapValues fun id n => n.noting (g.order.idxOf id)) = g.nodes := by
    apply Assoc.ext_view
    · exact Assoc.keys_mapValues ..
    · intro id
      rw [Assoc.get?_mapValues]
      cases hn : g.nodes.get? id with
      | none => rfl
      | some n =>
        rw [Option.map_some, hplace id n hn]
        rfl
  rw [updateOrder_places, ← hc.executable, ← hc.order, ← hs]
  unfold under
  rw [hn]

/-! ## Making a link -/

theorem hushed_addLink [Kind B] (g : Graph B) (l : Link) :
    (g.addLink l).hushed = g.hushed.addLink l := by
  refine (hushed_modifyNode (by intro n; rfl)).trans ?_
  refine congrArg (modifyNode · l.target _) ?_
  exact hushed_modifyNode (by intro n; rfl)

/-- The graph after a link was made in the place of another one. -/
def connecting (g : Graph B) (replaced : Option LinkId) (l : Link) : Graph B :=
  ((g.severed fun k => replaced = some k).addLink l).bump.updateOrder

theorem get?_nodes_addLink_eq (g : Graph B) (l : Link) (id : NodeId) :
    (g.addLink l).nodes.get? id = (g.nodes.get? id).map fun n => { n with
      inputs := if id = l.target then n.inputs.modify l.targetSlot fun s => { s with link := some l.id }
        else n.inputs
      outputs := if id = l.origin then
        n.outputs.modify l.originSlot fun s => { s with links := s.links ++ [l.id] }
        else n.outputs } := by
  show (Graph.modifyNode _ _ _).nodes.get? id = _
  rw [get?_modifyNode, get?_modifyNode]
  show (if _ then Option.map _ (if _ then Option.map _ (g.nodes.get? id) else _) else _) = _
  cases g.nodes.get? id with
  | none => split <;> split <;> rfl
  | some n => split <;> split <;> rfl

/-! ## Undoing it -/

section Undo

variable {l : Link}

/-- A change of one member that is undone by a change that keeps the others. -/
theorem map_modify_eq_self {α : Type} {as : List α} {i : Nat} {f u : α → α}
    (hi : ∀ a, as[i]? = some a → u (f a) = a) (ho : ∀ (j : Nat) a, as[j]? = some a → u a = a) :
    (as.modify i f).map u = as := by
  apply List.ext_getElem?
  intro j
  rw [List.getElem?_map, List.getElem?_modify]
  cases ha : as[j]? with
  | none => rfl
  | some a =>
    by_cases hj : i = j
    · subst hj
      simp [hi a ha]
    · simp [hj, ho j a ha]

section Absent

variable {k : LinkId} (hg : g.Joined) (hk : g.links.get? k = none) {id : NodeId} {n : Node B}
  (hn : g.nodes.get? id = some n)
include hg hk hn

/-- A link that is not there is named by no input. -/
theorem Joined.absent_input {j : Nat} {s : Input} (hs : n.inputs[j]? = some s) :
    s.lacking (· = k) = s := by
  rw [Input.lacking_one, if_neg]
  intro hlink
  obtain ⟨m, hm, -⟩ := hg.of_input ((input_of_node hn j).trans hs) hlink
  rw [hk] at hm
  cases hm

theorem Joined.absent_output {j : Nat} {s : Output} (hs : n.outputs[j]? = some s) :
    s.lacking (· = k) = s := by
  refine (Output.lacking_congr fun i hi => decide_eq_false ?_).trans s.lacking_false
  rintro rfl
  obtain ⟨m, hm, -⟩ := hg.of_output ((output_of_node hn j).trans hs) hi
  rw [hk] at hm
  cases hm

end Absent

/-- At every node, the link just made is all there is to take out. -/
theorem lacking_added (hg : g.Consistent) (hl : g.Fits l) {id : NodeId} {n : Node B}
    (hn : g.nodes.get? id = some n) :
    ((if id = l.target then n.inputs.modify l.targetSlot fun s => { s with link := some l.id }
        else n.inputs).map (Input.lacking (· = l.id)) = n.inputs) ∧
      (if id = l.origin then n.outputs.modify l.originSlot fun s => { s with links := s.links ++ [l.id] }
        else n.outputs).map (Output.lacking (· = l.id)) = n.outputs := by
  have hfresh := hl.fresh hg
  have hin : ∀ (j : Nat) s, n.inputs[j]? = some s → s.lacking (· = l.id) = s :=
    fun j s => hg.absent_input hfresh hn
  have hout : ∀ (j : Nat) s, n.outputs[j]? = some s → s.lacking (· = l.id) = s :=
    fun j s => hg.absent_output hfresh hn
  constructor
  · split
    · next ht =>
      refine map_modify_eq_self (fun s hs => ?_) hin
      -- the input was free
      have hfree := hl.free
      rw [← ht, input_of_node hn, hs] at hfree
      have hnone : s.link = none := Option.some.inj hfree
      rw [Input.lacking_one, if_pos rfl, ← hnone]
    · exact map_eq_self hin
  · split
    · refine map_modify_eq_self (fun s hs => ?_) hout
      have hkeep := congrArg Output.links (hout _ s hs)
      unfold Output.lacking at hkeep ⊢
      simp only [List.filter_append] at hkeep ⊢
      rw [hkeep]
      simp
    · exact map_eq_self hout

/-- Taking a link out that was just made gives back what was there, but for the counters. -/
theorem severed_addLink (hg : g.Consistent) (hl : g.Fits l) :
    (g.addLink l).severed (· = l.id) =
      { g with nextLink := l.id.number + 1, version := g.version + 1, stale := true } := by
  have hnodes : (g.addLink l).nodes.mapValues (fun _ n => n.lacking (· = l.id)) = g.nodes := by
    apply Assoc.ext_view
    · rw [Assoc.keys_mapValues]
      exact (Assoc.keys_modify ..).trans (Assoc.keys_modify ..)
    · intro id
      rw [Assoc.get?_mapValues, get?_nodes_addLink_eq]
      cases hn : g.nodes.get? id with
      | none => rfl
      | some n =>
        obtain ⟨hin, hout⟩ := lacking_added hg hl hn
        unfold Node.lacking
        simp only [Option.map_some, hin, hout]
  have hkey : l.id ∉ g.links.keys := (Assoc.get?_eq_none_iff ..).1 (hl.fresh hg)
  have hlinks : ((g.links.insert l.id l).filter fun k _ => !decide (k = l.id)) = g.links := by
    have hothers : g.links.entries.filter (fun e => !decide (e.1 = l.id)) = g.links.entries := by
      refine List.filter_eq_self.2 fun e he => ?_
      have hne : e.1 ≠ l.id := fun h => hkey (h ▸ List.mem_map_of_mem he)
      rw [decide_eq_false hne]
      rfl
    apply Assoc.ext_entries
    show (g.links.insert l.id l).entries.filter _ = _
    rw [Assoc.entries_insert_of_notMem _ hkey, List.filter_append, hothers]
    simp
  have hsize : ((g.links.insert l.id l).filter fun k _ => decide (k = l.id)).size = 1 := by
    apply Assoc.size_filter_key
    rw [Assoc.keys_insert, if_neg hkey]
    exact List.mem_append_right _ (List.mem_singleton_self _)
  show ({ g with
    nodes := (g.addLink l).nodes.mapValues fun _ n => n.lacking (· = l.id)
    links := (g.links.insert l.id l).filter fun k _ => !decide (k = l.id)
    nextLink := l.id.number + 1
    version := g.version + ((g.links.insert l.id l).filter fun k _ => decide (k = l.id)).size
    stale := true } : Graph B) = _
  rw [hnodes, hlinks, hsize]

end Undo

end Graph

/-! ## Making a link in a session -/

namespace Session

variable [Kind B] {s : Session B σ}

theorem hushed_connecting (g : Graph B) (replaced : Option LinkId) (l : Link) :
    (g.connecting replaced l).hushed = g.hushed.connecting replaced l := by
  have hadd := (g.severed fun k => replaced = some k).hushed_addLink l
  rw [Graph.hushed_severed] at hadd
  refine (Graph.hushed_updateOrder _).trans ?_
  exact congrArg (fun g : Graph B => g.bump.updateOrder) hadd

theorem makeRoom_severs (hs : s.graph.Joined) (input : Input) :
    (s.graph.severed fun k => input.link = some k).UpToMemory (s.makeRoom input).graph.flagged := by
  unfold makeRoom
  cases input.link with
  | none =>
    refine .of_eq ?_
    rw [replaced_none, Graph.severed_false]
  | some replaced =>
    rw [replaced_some]
    exact unlink_severs hs replaced

omit [Kind B] in
theorem invalidate_outside (h0 : s.graph.batchDepth = 0) :
    s.invalidate.graph = s.graph.flagged.updateOrder := by
  unfold invalidate refresh
  rw [if_pos]
  · rfl
  · exact Bool.and_eq_true_iff.2 ⟨decide_eq_true h0, rfl⟩

theorem link_spec (hs : s.graph.Joined) (h0 : s.graph.batchDepth = 0) (origin : NodeId)
    (originSlot : Nat) (target : NodeId) (targetSlot : Nat) (input : Input) :
    let l := Link.new ⟨s.graph.nextLink⟩ input.type origin originSlot target targetSlot
    (s.link origin originSlot target targetSlot input).1 = l.id ∧
      (s.graph.connecting input.link l).UpToMemory
        (s.link origin originSlot target targetSlot input).2.graph := by
  intro l
  have hroom := makeRoom_severs hs input
  have hnext : (s.makeRoom input).graph.nextLink = s.graph.nextLink :=
    congrArg Wiring.nextLink hroom.wiring
  have hdepth : (s.makeRoom input).graph.batchDepth = 0 :=
    (congrArg Skeleton.batchDepth hroom.skeleton).trans h0
  have hlink : s.link origin originSlot target targetSlot input =
      (l.id, ((((s.makeRoom input).edit fun g => (g.addLink l).bump).announce l true).invalidate).changed) := by
    have hl : Link.new ⟨(s.makeRoom input).graph.nextLink⟩ input.type origin originSlot target
        targetSlot = l := by rw [hnext]
    rw [← hl]
    rfl
  rw [hlink]
  refine ⟨rfl, ?_⟩
  have htold := upToMemory_announce ((s.makeRoom input).edit fun g => (g.addLink l).bump) l true
  show Graph.UpToMemory _ (Session.announce _ l true).invalidate.graph
  rw [invalidate_outside ((congrArg Skeleton.batchDepth htold.skeleton).trans hdepth)]
  have hadded := (hroom.map fun g => g.hushed_addLink l).map (f := fun g => g.bump.flagged.updateOrder)
    fun g => g.bump.flagged.hushed_updateOrder
  exact hadded.trans (htold.flagged.map fun g => g.hushed_updateOrder)

/-- A connection that succeeds has checked its slots and makes a link with the next number. -/
theorem tryConnect_spec (hs : s.graph.Joined) (h0 : s.graph.batchDepth = 0) {origin target : NodeId}
    {originSlot targetSlot : Nat} {id : LinkId} {s' : Session B σ}
    (h : s.tryConnect origin originSlot target targetSlot = (.ok id, s')) :
    ∃ output input, s.graph.output? origin originSlot = some output ∧
      s.graph.input? target targetSlot = some input ∧ origin ≠ target ∧
      output.type.feeds input.type = true ∧ id = ⟨s.graph.nextLink⟩ ∧
      (s.graph.connecting input.link
        (.new id input.type origin originSlot target targetSlot)).UpToMemory s'.graph := by
  unfold tryConnect at h
  cases he : s.graph.endpoints? origin originSlot target targetSlot with
  | error e =>
    rw [he] at h
    cases h
  | ok slots =>
    obtain ⟨output, input⟩ := slots
    rw [he] at h
    dsimp only at h
    obtain ⟨ho, hi, hne⟩ := endpoints_ok he
    -- the target is told of the offer, and may change what it remembers
    have htold := s.upToMemory_tell target (.linkOffered targetSlot output.type)
    revert h htold
    generalize s.tell target (.linkOffered targetSlot output.type) = t
    intro h htold
    split at h
    · cases h
    split at h
    · cases h
    next hfeeds =>
    obtain ⟨hid, hgraph⟩ := link_spec (hs.of_wiring htold.wiring)
      ((congrArg Skeleton.batchDepth htold.skeleton).trans h0) origin originSlot target targetSlot input
    have hnext : t.graph.nextLink = s.graph.nextLink := congrArg Wiring.nextLink htold.wiring
    rw [hnext] at hid hgraph
    have hid' : (t.link origin originSlot target targetSlot input).1 = id :=
      Except.ok.inj (congrArg Prod.fst h)
    have hs' : (t.link origin originSlot target targetSlot input).2 = s' := congrArg Prod.snd h
    rw [hid'] at hid
    rw [hs'] at hgraph
    have hnew : id = ⟨s.graph.nextLink⟩ := hid
    refine ⟨output, input, ho, hi, hne, by simpa using hfeeds, hnew, ?_⟩
    rw [hnew]
    exact (htold.map fun g => hushed_connecting g _ _).trans hgraph

end Session

/-! ## What a link changes -/

/-- What became of a graph when a link was made from an output to an input. -/
structure Graph.Connected [Kind B] (g : Graph B) (output : Output) (input : Input) (l : Link)
    (g' : Graph B) : Prop where
  fresh : g.links.get? l.id = none
  /-- The link that fed the input is gone; the new one comes last. -/
  links : g'.links.entries =
    (g.links.filter fun k _ => !decide (input.link = some k)).entries ++ [(l.id, l)]
  fed : g'.input? l.target l.targetSlot = some { input with link := some l.id }
  listed : g'.output? l.origin l.originSlot = some { output with
    links := (output.links.filter fun k => !decide (input.link = some k)) ++ [l.id] }
  /-- The output that the replaced link left has lost it and nothing else. -/
  lost : ∀ k, input.link = some k → ∃ m o, g.links.get? k = some m ∧
    g.output? m.origin m.originSlot = some o ∧ k ∈ o.links ∧
    (¬(m.origin = l.origin ∧ m.originSlot = l.originSlot) →
      g'.output? m.origin m.originSlot = some { o with links := o.links.filter (· ≠ k) })
  /-- The other slots are as they were. -/
  inputs : ∀ i slot, ¬(i = l.target ∧ slot = l.targetSlot) → g'.input? i slot = g.input? i slot
  outputs : ∀ i slot, ¬(i = l.origin ∧ slot = l.originSlot) →
    (∀ k m, input.link = some k → g.links.get? k = some m →
      ¬(i = m.origin ∧ slot = m.originSlot)) → g'.output? i slot = g.output? i slot
  keys : g'.nodes.keys = g.nodes.keys
  /-- Nodes are as they were, their slots and their places in the order aside. -/
  nodes : ∀ i n, g.nodes.get? i = some n → ∃ m, g'.nodes.get? i = some m ∧
    m.hushed = ({ n with inputs := m.inputs, outputs := m.outputs, order := m.order } : Node B).hushed
  /-- Behaviours are as they were when they forget what they are told. -/
  exact : (∀ (b : B) notice, Kind.told b notice = b) → ∀ i n, g.nodes.get? i = some n →
    ∃ m, g'.nodes.get? i = some m ∧
      m = { n with inputs := m.inputs, outputs := m.outputs, order := m.order }
  current : g'.Current
  version : g'.version = g.version + (if input.link.isSome then 2 else 1)
  rest : g' = { g with
    nodes := g'.nodes, links := g'.links, nextLink := l.id.number + 1, version := g'.version
    order := g'.order, executable := g'.executable, stale := false }

/-- What a node has in common with another one, its slots and its place in the order aside, a node
has that differs from it in its behaviour only. -/
theorem Node.hushed_of_places [Kind B] {n m m' : Node B} (h : m'.hushed = m.hushed)
    (hm : m = { n with inputs := m.inputs, outputs := m.outputs, order := m.order }) :
    m'.hushed =
      ({ n with inputs := m'.inputs, outputs := m'.outputs, order := m'.order } : Node B).hushed := by
  have hin : m'.inputs = m.inputs := (congrArg Node.inputs h : m'.hushed.inputs = m.hushed.inputs)
  have hout : m'.outputs = m.outputs :=
    (congrArg Node.outputs h : m'.hushed.outputs = m.hushed.outputs)
  have hat : m'.order = m.order := (congrArg Node.order h : m'.hushed.order = m.hushed.order)
  rw [hin, hout, hat, ← hm, h]

namespace Graph

section Slots

variable {g : Graph B} {input : Input} {target : NodeId} {targetSlot : Nat} (hg : g.Joined)
  (hi : g.input? target targetSlot = some input)
include hg hi

/-- The replaced link is named by the input that it fed, and by no other one. -/
theorem input?_replaced (id : NodeId) (slot : Nat) :
    (g.severed fun k => input.link = some k).input? id slot =
      if id = target ∧ slot = targetSlot then some { input with link := none }
      else g.input? id slot := by
  rw [input?_severed]
  split
  · next hat =>
    rw [hat.1, hat.2, hi, Option.map_some]
    unfold Input.lacking
    cases hk : input.link <;> simp [Option.filter_some]
  · next hat =>
    cases hs : g.input? id slot with
    | none => rfl
    | some s =>
      refine congrArg some ((Input.lacking_congr fun k hk => decide_eq_false fun hr => ?_).trans
        s.lacking_false)
      obtain ⟨l, hl, ht, hts⟩ := hg.of_input hi hr
      obtain ⟨m, hm, ht', hts'⟩ := hg.of_input hs hk
      cases Option.some.inj (hl.symm.trans hm)
      exact hat ⟨ht'.symm.trans ht, hts'.symm.trans hts⟩

omit hi in
theorem output?_replaced {id : NodeId} {slot : Nat}
    (h : ∀ k m, input.link = some k → g.links.get? k = some m →
      ¬(id = m.origin ∧ slot = m.originSlot)) :
    (g.severed fun k => input.link = some k).output? id slot = g.output? id slot := by
  rw [output?_severed]
  cases hs : g.output? id slot with
  | none => rfl
  | some s =>
    refine congrArg some ((Output.lacking_congr fun k hk => decide_eq_false fun hr => ?_).trans
      s.lacking_false)
    obtain ⟨m, hm, ho, hos⟩ := hg.of_output hs hk
    exact h k m hr hm ⟨ho.symm, hos.symm⟩

theorem size_replaced : (g.links.filter fun k _ => decide (input.link = some k)).size + 1 =
    if input.link.isSome then 2 else 1 := by
  cases hk : input.link with
  | none =>
    have hkey := congrFun replaced_none
    simp only [hkey]
    show (g.links.entries.filter fun _ => false).length + 1 = 1
    simp
  | some k =>
    obtain ⟨l, hl, -⟩ := hg.of_input hi hk
    have hsize := Assoc.size_filter_key (Assoc.mem_keys_of_get? hl)
    have hkey := congrFun (replaced_some k)
    simp only [hkey, hsize]
    rfl

end Slots

variable [Kind B] {g g' : Graph B}

theorem connected_of_connecting (hg : g.Consistent) {output : Output} {input : Input}
    {origin target : NodeId} {originSlot targetSlot : Nat}
    (ho : g.output? origin originSlot = some output) (hi : g.input? target targetSlot = some input)
    (h : (g.connecting input.link
      (.new ⟨g.nextLink⟩ input.type origin originSlot target targetSlot)).UpToMemory g') :
    g.Connected output input (.new ⟨g.nextLink⟩ input.type origin originSlot target targetSlot) g' := by
  revert h
  generalize hl : Link.new ⟨g.nextLink⟩ input.type origin originSlot target targetSlot = l
  intro h
  have horigin : l.origin = origin ∧ l.originSlot = originSlot := by rw [← hl]; exact ⟨rfl, rfl⟩
  have htarget : l.target = target ∧ l.targetSlot = targetSlot := by rw [← hl]; exact ⟨rfl, rfl⟩
  have hfresh : g.links.get? l.id = none := by
    cases hlive : g.links.get? l.id with
    | none => rfl
    | some m =>
      have hlt := hg.linkBelow l.id m hlive
      rw [← hl] at hlt
      exact absurd hlt (Nat.lt_irrefl _)
  -- the graph before its order is computed
  let rest := (g.severed fun k => input.link = some k).addLink l
  have hplaces : g.connecting input.link l = rest.bump.under _ := rest.bump.updateOrder_places
  have hin : ∀ id slot, g'.input? id slot = rest.input? id slot := by
    intro id slot
    rw [h.input?, hplaces, input?_under]
    rfl
  have hout : ∀ id slot, g'.output? id slot = rest.output? id slot := by
    intro id slot
    rw [h.output?, hplaces, output?_under]
    rfl
  have hnode : ∀ i n, g.nodes.get? i = some n → ∃ m : Node B,
      (g.connecting input.link l).nodes.get? i = some m ∧
        m = { n with inputs := m.inputs, outputs := m.outputs, order := m.order } := by
    intro i n hn
    rw [hplaces, get?_under]
    show ∃ m, (rest.nodes.get? i).map _ = some m ∧ _
    rw [get?_nodes_addLink_eq, node_severed hn]
    exact ⟨_, rfl, rfl⟩
  have htrusted : g'.Trusted := (rest.bump.trusted_updateOrder).of_skeleton h.skeleton
  constructor
  case fresh => exact hfresh
  case links =>
    rw [h.links, hplaces]
    refine Assoc.entries_insert_of_notMem _ ((Assoc.get?_eq_none_iff ..).1 ?_) l
    rw [get?_links_severed, hfresh, ite_self]
  case fed =>
    rw [hin, input?_addLink, htarget.1, htarget.2, input?_replaced hg.toJoined hi,
      if_pos ⟨rfl, rfl⟩, Option.map_some, if_pos ⟨rfl, rfl⟩]
  case listed =>
    rw [hout, output?_addLink, horigin.1, horigin.2, output?_severed, ho, Option.map_some,
      Option.map_some, if_pos ⟨rfl, rfl⟩]
    rfl
  case lost =>
    intro k hk
    obtain ⟨m, hm, -⟩ := hg.toJoined.of_input hi hk
    obtain ⟨o, ho, hmem⟩ := (hg.outputs m.origin m.originSlot k).2 ⟨m, hm, rfl, rfl⟩
    refine ⟨m, o, hm, ho, hmem, fun hne => ?_⟩
    rw [hout, output?_addLink, output?_severed, ho, hk, replaced_some, Option.map_some,
      Option.map_some, if_neg hne]
    unfold Output.lacking
    simp only [decide_not]
  case inputs =>
    intro i slot hne
    have hne' : ¬(i = target ∧ slot = targetSlot) := htarget.1 ▸ htarget.2 ▸ hne
    rw [hin, input?_addLink, input?_replaced hg.toJoined hi, if_neg hne']
    simp only [if_neg hne, Option.map_id']
  case outputs =>
    intro i slot hne hold
    rw [hout, output?_addLink, output?_replaced hg.toJoined hold]
    simp only [if_neg hne, Option.map_id']
  case keys =>
    rw [h.keys, hplaces, keys_under]
    refine (Assoc.keys_modify ..).trans ((Assoc.keys_modify ..).trans ?_)
    exact Assoc.keys_mapValues ..
  case nodes =>
    intro i n hn
    obtain ⟨m, hm, he⟩ := hnode i n hn
    have hh := h.node i
    rw [hm] at hh
    obtain ⟨m', hm', hsame⟩ := Option.map_eq_some_iff.1 hh
    exact ⟨m', hm', Node.hushed_of_places hsame he⟩
  case exact =>
    intro hf i n hn
    rw [h.exact hf]
    exact hnode i n hn
  case current => exact htrusted.current (congrArg Skeleton.stale h.skeleton)
  case version =>
    rw [h.version, hplaces, ← size_replaced hg.toJoined hi]
    rfl
  case rest =>
    rw [h.rest, hplaces]
    rfl

/-! ## Removing the link again -/

section Undo

omit [Kind B]

/-- Making a link where there was none and taking it out again gives back what was there, the order
included, but for the counters. -/
theorem updateOrder_severed_connecting (hg : g.Consistent) (hc : g.Current) (hs : g.stale = false)
    {l : Link} (hl : g.Fits l) : ((g.connecting none l).severed (· = l.id)).updateOrder =
      { g with nextLink := l.id.number + 1, version := g.version + 2 } := by
  let made := (g.flagged.addLink l).bump
  have hmade : g.connecting none l = made.updateOrder := by
    unfold connecting
    rw [replaced_none, severed_false]
  have hflagged : g.flagged.Consistent := by
    refine hg.of_wiring ?_
    rfl
  let counted : Graph B := { g with nextLink := l.id.number + 1, version := g.version + 2 }
  have hgone : made.severed (· = l.id) =
      counted.under ⟨g.schedule.place, g.order, g.executable, true, g.batchDepth⟩ := by
    rw [severed_bump, severed_addLink hflagged ⟨hl.next, hl.apart, hl.source, hl.free⟩]
    exact (counted.under_places ..).symm
  have hcounted : counted.Current := by
    refine hc.transfer ?_ ?_ ?_ ?_ <;> rfl
  -- the order depends neither on the schedule before nor on the counters
  rw [hmade, made.updateOrder_places, severed_under, updateOrder_under _ rfl, hgone,
    updateOrder_under _ rfl]
  exact hcounted.updateOrder_eq hs

end Undo

end Graph

namespace Session

variable [Kind B] {s s' : Session B σ}

theorem removeLink_connecting (hs : s.graph.Consistent) (hc : s.graph.Current)
    (hf : s.graph.stale = false) (h0 : s.graph.batchDepth = 0) {l : Link} (hl : s.graph.Fits l)
    (hs' : s'.graph.Joined) (h : (s.graph.connecting none l).UpToMemory s'.graph) :
    (s'.removeLink l.id).1 = true ∧
      ({ s.graph with nextLink := l.id.number + 1, version := s.graph.version + 2 } :
        Graph B).UpToMemory (s'.removeLink l.id).2.graph := by
  have hplaces : s.graph.connecting none l = Graph.under _ _ := Graph.updateOrder_places _
  have hlive : s'.graph.links.contains l.id = true := by
    rw [h.links, hplaces, Assoc.contains_eq_isSome]
    show ((Graph.addLink _ l).links.get? l.id).isSome = true
    rw [Graph.get?_links_addLink, if_pos rfl]
    rfl
  have hdepth : (s'.unlink l.id).graph.batchDepth = 0 := by
    rw [batchDepth_unlink, show s'.graph.batchDepth = _ from congrArg Skeleton.batchDepth h.skeleton,
      hplaces]
    exact h0
  unfold removeLink
  rw [if_pos hlive]
  refine ⟨rfl, ?_⟩
  show Graph.UpToMemory _ (s'.unlink l.id).invalidate.graph
  rw [invalidate_outside hdepth]
  have hgone := ((h.severed (· = l.id)).trans (unlink_severs hs' l.id)).map fun g =>
    g.hushed_updateOrder
  rw [Graph.updateOrder_severed_connecting hs hc hf hl] at hgone
  exact hgone

end Session

/-- Outside batches, a connection that succeeds adds a link with a fresh number between slots that
fit, in the place of the link that fed the input, and changes nothing else.  If there was none,
removing the link gives back what was there: only the counters differ, and what behaviours
remember. -/
theorem Reachable.connection_exact [Behavior B σ] {s s' : Session B σ} (hr : Reachable s)
    (hs : s.graph.Consistent) (h0 : s.graph.batchDepth = 0) {origin target : NodeId}
    {originSlot targetSlot : Nat} {id : LinkId}
    (h : s.tryConnect origin originSlot target targetSlot = (.ok id, s')) :
    ∃ output input, s.graph.output? origin originSlot = some output ∧
      s.graph.input? target targetSlot = some input ∧ origin ≠ target ∧
      output.type.feeds input.type = true ∧ id = ⟨s.graph.nextLink⟩ ∧
      s.graph.Connected output input (.new id input.type origin originSlot target targetSlot)
        s'.graph ∧
      (input.link = none → (s'.removeLink id).1 = true ∧
        ({ s.graph with nextLink := s.graph.nextLink + 1, version := s.graph.version + 2 } :
          Graph B).UpToMemory (s'.removeLink id).2.graph) := by
  obtain ⟨output, input, ho, hi, hne, hfeeds, rfl, hgraph⟩ :=
    Session.tryConnect_spec hs.toJoined h0 h
  have hup : Upkeep (Graph.Tidy s.graph.registry) := upkeep_tidy _
  have hs' : s'.graph.Joined := by
    have htidy := Session.upkeep_tryConnect hup ⟨hs, rfl⟩ origin originSlot target targetSlot
      fun _ => hs.linkBelow
    rw [h] at htidy
    exact hup.joined htidy
  refine ⟨output, input, ho, hi, hne, hfeeds, rfl, Graph.connected_of_connecting hs ho hi hgraph,
    fun hfree => ?_⟩
  have hfits : s.graph.Fits
      (.new ⟨s.graph.nextLink⟩ input.type origin originSlot target targetSlot) := by
    refine ⟨rfl, hne, ?_, ?_⟩
    · show (s.graph.output? origin originSlot).isSome = true
      rw [ho]
      rfl
    · show (s.graph.input? target targetSlot).map Input.link = some none
      rw [hi, ← hfree]
      rfl
  have hsettled := hr.trusted.settled h0
  rw [hfree] at hgraph
  exact Session.removeLink_connecting hs (hr.trusted.current hsettled) hsettled h0 hfits hs' hgraph

/-! ## Two links to one input -/

/-- Adds two sources and a sink, in a batch that stays open. -/
def twoSources : Body Catalog Unit (Except GraphError NodeId) := do
  Body.edit .beginBatch
  let _ ← Body.perform (.add { Node.new "source" with outputs := [.new "out" .any] })
  let _ ← Body.perform (.add { Node.new "source" with outputs := [.new "out" .any] })
  Body.perform (.add { Node.new "sink" with inputs := [.new "in" .any] })

theorem twoSources_obeys (r : Registry Catalog) : twoSources.Obeys (linking r) := by
  have hsource : ({ Node.new "source" with outputs := [.new "out" .any] } : Node Catalog).Loose :=
    ⟨by simp [Node.new], by simp [Output.new], by simp [Node.new]⟩
  have hsink : ({ Node.new "sink" with inputs := [.new "in" .any] } : Node Catalog).Loose :=
    ⟨by simp [Input.new], by simp [Node.new], by simp [Node.new]⟩
  exact ⟨trivial, fun _ _ => ⟨hsource, fun _ _ => ⟨hsource, fun _ _ => ⟨hsink, fun _ _ => trivial⟩⟩⟩⟩

theorem twoSources_evaluates : ((Engine.exec 1 twoSources
      (⟨Graph.empty ∅ .default, [], ()⟩ : Session Catalog Unit)).any fun e =>
    decide (e.2.graph.batchDepth = 1) &&
      decide ((e.2.graph.input? ⟨3⟩ 0).map Input.link = some none) &&
      decide ((e.2.tryConnect ⟨1⟩ 0 ⟨3⟩ 0).1.toOption = some ⟨1⟩) &&
      decide (((e.2.tryConnect ⟨1⟩ 0 ⟨3⟩ 0).2.tryConnect ⟨2⟩ 0 ⟨3⟩ 0).1.toOption = some ⟨2⟩)) = true := by
  decide +kernel

/-- When the batch is closed, the first link to the input can be undone; the second one takes its
place. -/
theorem twoSources_linked : ∃ s s' s'' : Session Catalog Unit,
    s.tryConnect ⟨1⟩ 0 ⟨3⟩ 0 = (.ok ⟨1⟩, s') ∧
    (s'.removeLink ⟨1⟩).2.graph = { s.graph with
      nextLink := s.graph.nextLink + 1, version := s.graph.version + 2 } ∧
    s'.tryConnect ⟨2⟩ 0 ⟨3⟩ 0 = (.ok ⟨2⟩, s'') ∧
    ∃ output input, input.link = some ⟨1⟩ ∧
      s'.graph.Connected output input (.new ⟨2⟩ input.type ⟨2⟩ 0 ⟨3⟩ 0) s''.graph := by
  obtain ⟨⟨answer, t⟩, hrun, hfacts⟩ := (Option.any_eq_true _ _).1 twoSources_evaluates
  simp only [Bool.and_eq_true, decide_eq_true_eq] at hfacts
  obtain ⟨⟨⟨h1, hfree⟩, hfirst⟩, hsecond⟩ := hfacts
  let s := t.endBatch
  let s' := (s.tryConnect ⟨1⟩ 0 ⟨3⟩ 0).2
  -- what is asked answers the same after the batch as in it
  have hopen : t.Abreast 1 1 t := ⟨h1, h1, _, t.under_schedule.symm⟩
  have habreast : t.Abreast 1 0 s := hopen.close_right
  obtain ⟨hanswer, hafter⟩ := habreast.tryConnect ⟨1⟩ 0 ⟨3⟩ 0
  have hanswer' := (hafter.tryConnect ⟨2⟩ 0 ⟨3⟩ 0).answer
  have hok : ∀ {x : Except ConnectionError LinkId × Session Catalog Unit} {id : LinkId},
      x.1.toOption = some id → x = (.ok id, x.2) := by
    rintro ⟨a | a, t⟩ id h
    · cases h
    · cases h
      rfl
  have hlink : s.tryConnect ⟨1⟩ 0 ⟨3⟩ 0 = (.ok ⟨1⟩, s') := hok (hanswer ▸ hfirst)
  have hrelink : s'.tryConnect ⟨2⟩ 0 ⟨3⟩ 0 = (.ok ⟨2⟩, (s'.tryConnect ⟨2⟩ 0 ⟨3⟩ 0).2) :=
    hok (hanswer' ▸ hsecond)
  have hr : Reachable s :=
    ((Reachable.start ∅ .default [] ()).exec twoSources hrun).call (c := .edit .endBatch) 1 rfl
  have hr' : Reachable s' := hr.call (c := .edit (.tryConnect ⟨1⟩ 0 ⟨3⟩ 0)) 1 rfl
  have ht : t.graph.Tidy ∅ :=
    Engine.keeps_exec (Engine.lawful_linking ∅) (Catalog.obeys_linking ∅) (twoSources_obeys ∅) 1
      ⟨Graph.empty ∅ .default, [], ()⟩ (Graph.tidy_empty ∅ .default) _ t hrun
  have hs : s.graph.Tidy ∅ := Edit.tidy_apply ht .endBatch
  have hs' : s'.graph.Tidy ∅ := Edit.tidy_apply hs (.tryConnect ⟨1⟩ 0 ⟨3⟩ 0)
  obtain ⟨o, i, -, hi, -, -, -, hlinked, hundo⟩ := hr.connection_exact hs.1 habreast.right hlink
  obtain ⟨o', i', -, hi', -, -, -, hlinked', -⟩ := hr'.connection_exact hs'.1 hafter.right hrelink
  have hnone : i.link = none := by
    obtain ⟨c, hc⟩ := habreast.under
    have hin : s.graph.input? ⟨3⟩ 0 = t.graph.input? ⟨3⟩ 0 := by
      rw [hc]
      exact t.graph.input?_under c ⟨3⟩ 0
    rw [← hin, hi] at hfree
    exact Option.some.inj hfree
  refine ⟨s, s', _, hlink, ?_, hrelink, o', i', ?_, hlinked'⟩
  · exact (hundo hnone).2.exact fun _ _ => rfl
  · cases Option.some.inj (hi'.symm.trans hlinked.fed)
    rfl

end Dataflow
