/-
  What the version of a graph tells.

  An editor that remembers the version of a graph wants to know whether there is something new to
  save.  The version never goes down, and while it stays the same the snapshot does too, with one
  exception: the body of a bridge names a slot of its node without counting that (`version_tells`).
  So the statement leaves some names out of account (`Graph.veil`), and it is about graphs of
  standard nodes, whose bodies are known.

  All of this is one relation between graphs, `Graph.Tells`, that is reflexive and transitive.
  Where a change is counted nothing else needs to be known about it; what is left are the few
  changes that are not counted, and of these a snapshot says nothing.
-/

import Dataflow.Proofs.Phases
import Dataflow.Proofs.Reachable
import Dataflow.Proofs.Refusal
import Dataflow.Proofs.Standard

namespace Dataflow

variable {B σ : Type}

/-! ## What is saved -/

/-- Which names are left out of account: of the first slot of which node, on which side. -/
abbrev Hidden := NodeId → Direction → Bool

/-- The node without the names that are left out of account. -/
def Node.veil (n : Node B) (hidden : Direction → Bool) : Node B :=
  { n with
    inputs := if hidden .input then n.inputs.modify 0 fun s => { s with name := "" } else n.inputs
    outputs :=
      if hidden .output then n.outputs.modify 0 fun s => { s with name := "" } else n.outputs }

/-- The graph without the names that are left out of account. -/
def Graph.veil (g : Graph B) (hidden : Hidden) : Graph B :=
  { g with nodes := g.nodes.mapValues fun id n => n.veil (hidden id) }

/-- What a snapshot says, by identities. -/
structure Saved where
  nextNode : Nat
  nextLink : Nat
  nodes : Assoc NodeId NodeRecord
  links : Assoc LinkId LinkRecord
  groups : List Group
  config : Assoc String Value

def Saved.snapshot (s : Saved) : Snapshot :=
  ⟨s.nextNode, s.nextLink, s.nodes.values, s.links.values, s.groups, s.config⟩

/-- What is saved of a graph, the hidden names aside. -/
def Graph.saved [Kind B] (g : Graph B) (hidden : Hidden) : Saved :=
  ⟨g.nextNode, g.nextLink, g.nodes.mapValues fun id n => (n.veil (hidden id)).record,
    g.links.mapValues fun _ => LinkRecord.ofLink, g.groups, g.config⟩

namespace Graph

variable [Kind B]

theorem snapshot_veil (g : Graph B) (hidden : Hidden) :
    (g.veil hidden).snapshot = (g.saved hidden).snapshot := by
  have hn : ((g.veil hidden).nodes.keys.filterMap (g.veil hidden).nodes.get?).map Node.record =
      (g.saved hidden).nodes.values := by
    rw [Assoc.filterMap_keys]
    simp [veil, saved, Assoc.values, Assoc.mapValues]
  have hl : (g.veil hidden).links.values.map LinkRecord.ofLink = (g.saved hidden).links.values := by
    simp [veil, saved, Assoc.values, Assoc.mapValues]
  unfold snapshot snapshotOf
  rw [hn, hl]
  rfl

omit [Kind B] in
/-- With no name hidden, nothing is. -/
theorem veil_nothing (g : Graph B) : g.veil (fun _ _ => false) = g := by
  have hn : g.nodes.mapValues (fun _ n => n.veil fun _ => false) = g.nodes :=
    Assoc.ext_entries (List.map_id _)
  unfold veil
  rw [hn]

theorem saved_modifyNode {g : Graph B} {hidden : Hidden} {id : NodeId} {f : Node B → Node B}
    (h : ∀ n, ((f n).veil (hidden id)).record = (n.veil (hidden id)).record) :
    (g.modifyNode id f).saved hidden = g.saved hidden := by
  unfold saved
  rw [show (g.modifyNode id f).nodes = g.nodes.modify id f from rfl,
    Assoc.mapValues_modify fun n _ => h n]
  rfl

theorem saved_modifyLink {g : Graph B} {hidden : Hidden} {id : LinkId} {f : Link → Link}
    (h : ∀ l, LinkRecord.ofLink (f l) = LinkRecord.ofLink l) :
    (g.modifyLink id f).saved hidden = g.saved hidden := by
  unfold saved
  rw [show (g.modifyLink id f).links = g.links.modify id f from rfl,
    Assoc.mapValues_modify fun l _ => h l]
  rfl

end Graph

/-! ## Nodes of the catalog -/

namespace Node

/-- Standard behaviours add nothing to a record. -/
theorem record_attach (n : Node Catalog) (b : Option Catalog) :
    ({ n with behavior := b } : Node Catalog).record = n.record := by
  unfold record
  cases n.standsFor with
  | some r => rfl
  | none => cases n.behavior <;> cases b <;> rfl

/-- A record says nothing of the values at outputs. -/
theorem record_outputs [Kind B] (n : Node B) {outputs : List Output}
    (h : outputs.map forgetData = n.outputs.map forgetData) :
    ({ n with outputs } : Node B).record = n.record := by
  have hlinks : outputs.map Output.links = n.outputs.map Output.links := by
    have hm := congrArg (List.map Output.links) h
    rw [List.map_map, List.map_map] at hm
    exact hm
  have hlive : liveOutputs outputs = liveOutputs n.outputs := by
    funext recorded
    unfold liveOutputs
    congr 1
    funext slot s
    rw [← List.getElem?_map, ← List.getElem?_map, hlinks]
  unfold record
  simp only [h, hlive]
  rfl

/-- What is written to an output is not recorded, whether its name is hidden or not. -/
theorem record_veil_data [Kind B] (n : Node B) (hidden : Direction → Bool) (slot : Nat)
    (value : Value) :
    ((n.modifyOutput slot fun s => { s with data := some value }).veil hidden).record =
      (n.veil hidden).record := by
  have hdata : ∀ (i : Nat) (s : Output),
      forgetData (if slot = i then { s with data := some value } else s) = forgetData s := by
    intro i s
    split <;> rfl
  have hname : ∀ (i : Nat) (s : Output),
      forgetData (if 0 = i then { s with name := "" } else s) =
        if 0 = i then { forgetData s with name := "" } else forgetData s := by
    intro i s
    split <;> rfl
  apply (n.veil hidden).record_outputs
  apply List.ext_getElem?
  intro i
  show (List.map forgetData (if hidden .output then _ else _))[i]? =
    (List.map forgetData (if hidden .output then _ else _))[i]?
  split
  · simp [modifyOutput, List.getElem?_modify, Function.comp_def, hname, hdata]
  · simp [modifyOutput, List.getElem?_modify, Function.comp_def, hdata]

end Node

/-! ## The relation -/

namespace Graph

/-- Where the names are hidden that bridges give. -/
def Bridged (g : Graph Catalog) (hidden : Hidden) : Prop :=
  ∀ id d registered, g.behavior? id = some (.bridge d registered) →
    hidden id (Catalog.inside d) = true

theorem bridged_all (g : Graph Catalog) : g.Bridged fun _ _ => true := fun _ _ _ _ => rfl

/-- One graph has become another, and the version tells: it is higher, or what a snapshot says is
the same, the hidden names aside, and no bridge is new. -/
structure Tells (hidden : Hidden) (g g' : Graph Catalog) : Prop where
  version : g.version ≤ g'.version
  same : g'.version = g.version →
    g'.saved hidden = g.saved hidden ∧ (g.Bridged hidden → g'.Bridged hidden)

namespace Tells

variable {hidden : Hidden} {g g' g'' : Graph Catalog}

theorem refl (g : Graph Catalog) : g.Tells hidden g := ⟨Nat.le_refl _, fun _ => ⟨rfl, id⟩⟩

theorem of_eq (h : g' = g) : g.Tells hidden g' := by
  rw [h]
  exact refl g

theorem trans (h : g.Tells hidden g') (h' : g'.Tells hidden g'') : g.Tells hidden g'' := by
  refine ⟨Nat.le_trans h.version h'.version, fun he => ?_⟩
  have hv := h.version
  have hv' := h'.version
  obtain ⟨hs, hb⟩ := h.same (by omega)
  obtain ⟨hs', hb'⟩ := h'.same (by omega)
  exact ⟨hs'.trans hs, fun hg => hb' (hb hg)⟩

/-- A change that is counted. -/
theorem of_lt (h : g.version < g'.version) : g.Tells hidden g' :=
  ⟨Nat.le_of_lt h, fun he => absurd he (Nat.ne_of_gt h)⟩

/-- A change that is not counted and of which a snapshot says nothing. -/
theorem silent (hv : g'.version = g.version) (hs : g'.saved hidden = g.saved hidden)
    (hb : ∀ id, g'.behavior? id = g.behavior? id) : g.Tells hidden g' :=
  ⟨Nat.le_of_eq hv.symm, fun _ => ⟨hs, fun hg id d r h => hg id d r (hb id ▸ h)⟩⟩

theorem foldl {α : Type} {f : Session Catalog σ → α → Session Catalog σ}
    (h : ∀ (s : Session Catalog σ) a, s.graph.Tells hidden (f s a).graph) (as : List α) (s : Session Catalog σ) :
    s.graph.Tells hidden (as.foldl f s).graph := by
  induction as generalizing s with
  | nil => exact .refl _
  | cons a as ih => exact (h s a).trans (ih (f s a))

end Tells

/-! ## Changes that are not counted -/

variable {hidden : Hidden} (g : Graph Catalog)

/-- A change of one node that its record does not tell. -/
theorem tells_modifyNode {id : NodeId} (f : Node Catalog → Node Catalog)
    (hr : ∀ n, ((f n).veil (hidden id)).record = (n.veil (hidden id)).record)
    (hb : ∀ n, (f n).behavior = n.behavior) : g.Tells hidden (g.modifyNode id f) := by
  exact .silent rfl (saved_modifyNode hr) fun i => bind_modifyNode_of_eq hb i

/-- A change of one link that its record does not tell. -/
theorem tells_modifyLink {id : LinkId} (f : Link → Link)
    (h : ∀ l, LinkRecord.ofLink (f l) = LinkRecord.ofLink l) : g.Tells hidden (g.modifyLink id f) :=
  .silent rfl (saved_modifyLink h) fun _ => rfl

theorem tells_modifyLinks (f : Link → Link)
    (h : ∀ l, LinkRecord.ofLink (f l) = LinkRecord.ofLink l) (ids : List LinkId) :
    g.Tells hidden (g.modifyLinks ids f) := by
  unfold modifyLinks
  induction ids generalizing g with
  | nil => exact .refl g
  | cons id ids ih => exact (g.tells_modifyLink f h).trans (ih (g.modifyLink id f))

theorem tells_updateOrder : g.Tells hidden g.updateOrder :=
  updateOrder_keeps (P := g.Tells hidden)
    (fun g' _ _ h => h.trans (g'.tells_modifyNode _ (fun _ => rfl) fun _ => rfl))
    (fun _ _ _ h => h.trans (.silent rfl rfl fun _ => rfl)) (.refl g)

theorem tells_setOutputData (id : NodeId) (slot : Nat) (value : Value) :
    g.Tells hidden (g.setOutputData id slot value) := by
  unfold setOutputData
  split
  · next s hs =>
    refine (g.tells_modifyLinks (fun l => { l with data := some value }) (fun _ => rfl) s.links).trans ?_
    exact tells_modifyNode _ _ (fun n => n.record_veil_data (hidden id) slot value) fun _ => rfl
  · exact .refl g

theorem tells_clearTriggered (id : NodeId) (slot : Nat) (only : Option LinkId) :
    g.Tells hidden (g.clearTriggered id slot only) := by
  unfold clearTriggered
  split
  · exact g.tells_modifyLinks (fun l => { l with triggered := false }) (fun _ => rfl) _
  · exact .refl g

theorem tells_clearAllTriggered : g.Tells hidden g.clearAllTriggered := by
  refine .silent rfl ?_ fun _ => rfl
  have hl : (g.links.mapValues fun _ l => { l with triggered := false }).mapValues
      (fun _ => LinkRecord.ofLink) = g.links.mapValues fun _ => LinkRecord.ofLink := by
    rw [Assoc.mapValues_mapValues]
    rfl
  unfold saved clearAllTriggered
  rw [hl]

theorem tells_withTerminals (d : Direction) (ts : Assoc String Terminal) :
    g.Tells hidden (g.withTerminals d ts) := by
  cases d <;> exact .silent rfl rfl fun _ => rfl

/-! ## Changes that are counted elsewhere -/

section Counted

variable (g : Graph B)

theorem version_modifyLinks (ids : List LinkId) (f : Link → Link) :
    (g.modifyLinks ids f).version = g.version := by
  rw [modifyLinks_eq]

theorem version_eraseInput (id : NodeId) (slot : Nat) : (g.eraseInput id slot).version = g.version := by
  unfold eraseInput
  split
  · exact g.version_modifyLinks _ _
  · rfl

theorem version_eraseOutput (id : NodeId) (slot : Nat) :
    (g.eraseOutput id slot).version = g.version := by
  unfold eraseOutput
  split
  · exact g.version_modifyLinks _ _
  · rfl

theorem version_arrange (margin : Float32) : (g.arrange margin).version = g.version :=
  arrange_keeps (P := fun g' => g'.version = g.version) (fun _ _ _ h => h) rfl margin

theorem version_mergeLinks (nodes : Renaming NodeId) (records : List LinkRecord) :
    (g.mergeLinks nodes records).graph.version = g.version :=
  mergeLinks_keeps (P := fun g' => g'.version = g.version) (fun _ _ _ _ _ _ h => h) rfl nodes records

theorem version_repair (pruned : List LinkId) : (g.repair pruned).graph.version = g.version :=
  repaired_keeps (P := fun g' => g'.version = g.version) (fun _ _ _ h => h) (fun _ _ h => h)
    (fun _ _ h => h) rfl pruned

theorem version_adopted [Kind B] (table : Renaming LinkId) (placed : List (NodeId × NodeRecord)) :
    (g.adopted table placed).version = g.version := by
  induction placed generalizing g with
  | nil => rfl
  | cons e placed ih => exact ih _

end Counted

end Graph

/-! ## Operations -/

namespace Session

variable {hidden : Hidden} (s : Session Catalog σ)

/-! ### Notices, events and the cached order -/

/-- Standard behaviours forget what they are told. -/
theorem forgets_tell (id : NodeId) (notice : Notice) : (s.tell id notice).graph = s.graph :=
  s.graph_tell id notice fun _ => rfl

theorem forgets_tellAll (ids : List NodeId) (notice : Notice) :
    (s.tellAll ids notice).graph = s.graph := by
  unfold tellAll
  induction ids generalizing s with
  | nil => rfl
  | cons id ids ih => exact (ih _).trans (s.forgets_tell id notice)

theorem forgets_tellEnd (d : Direction) (id : NodeId) (slot : Nat) (connected : Bool) (link : Link) :
    (s.tellEnd d id slot connected link).graph = s.graph := by
  unfold tellEnd
  split
  · exact s.forgets_tell id _
  · rfl

theorem forgets_announce (link : Link) (connected : Bool) :
    (s.announce link connected).graph = s.graph :=
  (forgets_tellEnd ..).trans (forgets_tellEnd ..)

theorem tells_markStale : s.graph.Tells hidden s.markStale.graph := .silent rfl rfl fun _ => rfl

theorem tells_refresh : s.graph.Tells hidden s.refresh.graph := by
  unfold refresh
  split
  · exact s.graph.tells_updateOrder
  · exact .refl _

theorem tells_invalidate : s.graph.Tells hidden s.invalidate.graph :=
  s.tells_markStale.trans s.markStale.tells_refresh

theorem tells_beginBatch : s.graph.Tells hidden s.beginBatch.graph :=
  .silent rfl rfl fun _ => rfl

theorem tells_endBatch : s.graph.Tells hidden s.endBatch.graph := by
  let closed := s.edit fun g => { g with batchDepth := g.batchDepth - 1 }
  have hclosed : s.graph.Tells hidden closed.graph := .silent rfl rfl fun _ => rfl
  exact hclosed.trans closed.tells_refresh

theorem tells_start : s.graph.Tells hidden s.start.graph := by
  unfold start
  split
  · exact .refl _
  · simp only [forgets_tellAll]
    exact .silent rfl rfl fun _ => rfl

theorem tells_stop : s.graph.Tells hidden s.stop.graph := by
  unfold stop
  split
  · simp only [forgets_tellAll]
    exact .silent rfl rfl fun _ => rfl
  · exact .refl _

/-- A change that `restructure` counts. -/
theorem tells_restructure {f : Graph Catalog → Graph Catalog}
    (h : s.graph.version ≤ (f s.graph).version) : s.graph.Tells hidden (s.restructure f).graph :=
  .of_lt (Nat.lt_succ_of_le h)

/-! ### Links -/

theorem tells_unlink (id : LinkId) : s.graph.Tells hidden (s.unlink id).graph := by
  unfold unlink
  split
  · rw [forgets_announce]
    exact .of_lt (Nat.lt_succ_self _)
  · exact .refl _

theorem tells_disconnectInput (id : NodeId) (slot : Nat) :
    s.graph.Tells hidden (s.disconnectInput id slot).2.graph := by
  unfold disconnectInput
  split
  · next l hl => exact (s.tells_unlink l).trans (tells_invalidate _)
  · exact .refl _

theorem tells_disconnectOutput (id : NodeId) (slot : Nat) (target : Option NodeId) :
    s.graph.Tells hidden (s.disconnectOutput id slot target).2.graph := by
  unfold disconnectOutput
  split
  · exact .refl _
  · exact (Graph.Tells.foldl tells_unlink _ s).trans (tells_invalidate _)

theorem tells_removeLink (id : LinkId) : s.graph.Tells hidden (s.removeLink id).2.graph := by
  unfold removeLink
  split
  · exact (s.tells_unlink id).trans (tells_invalidate _)
  · exact .refl _

theorem tells_link (origin : NodeId) (originSlot : Nat) (target : NodeId) (targetSlot : Nat)
    (input : Input) :
    s.graph.Tells hidden (s.link origin originSlot target targetSlot input).2.graph := by
  have hfree : s.graph.Tells hidden (s.makeRoom input).graph := by
    unfold makeRoom
    split
    · exact s.tells_unlink _
    · exact .refl _
  unfold link
  refine hfree.trans (.trans ?_ (tells_invalidate _))
  rw [forgets_announce]
  exact .of_lt (Nat.lt_succ_self _)

theorem tells_tryConnect (origin : NodeId) (originSlot : Nat) (target : NodeId) (targetSlot : Nat) :
    s.graph.Tells hidden (s.tryConnect origin originSlot target targetSlot).2.graph := by
  unfold tryConnect
  split
  · exact .refl _
  · next output input _ =>
    simp only
    have htold : s.graph.Tells hidden (s.tell target (.linkOffered targetSlot output.type)).graph :=
      .of_eq (s.forgets_tell ..)
    split
    · exact htold
    · split
      · exact htold
      · exact htold.trans (tells_link ..)

theorem tells_connectByName (origin : NodeId) (output : String) (target : NodeId) (input : String) :
    s.graph.Tells hidden (s.connectByName origin output target input).2.graph := by
  unfold connectByName
  split
  · exact .refl _
  · exact s.tells_tryConnect ..

/-! ### Nodes -/

theorem tells_change (id : NodeId) (c : NodeChange) :
    s.graph.Tells hidden (s.change id c).2.graph := by
  unfold change
  split
  · simp only
    have hc : s.graph.Tells hidden (s.restructure fun g => g.modifyNode id c.apply).graph :=
      s.tells_restructure (Nat.le_refl _)
    split
    · exact hc.trans (tells_invalidate _)
    · exact hc
  · exact .refl _

theorem tells_addInput (id : NodeId) (name : String) (type : SlotType) :
    s.graph.Tells hidden (s.addInput id name type).2.graph := by
  unfold addInput
  split
  · exact s.tells_restructure (Nat.le_refl _)
  · exact .refl _

theorem tells_addOutput (id : NodeId) (name : String) (type : SlotType) :
    s.graph.Tells hidden (s.addOutput id name type).2.graph := by
  unfold addOutput
  split
  · exact s.tells_restructure (Nat.le_refl _)
  · exact .refl _

/-- A counted change in the middle of a batch, and what is brought up to date at its end. -/
theorem tells_close {f : Graph Catalog → Graph Catalog} (h : s.graph.version ≤ (f s.graph).version) :
    s.graph.Tells hidden (s.edit fun g => (f g).bump).markStale.endBatch.changed.graph := by
  have hf : s.graph.Tells hidden (s.edit fun g => (f g).bump).markStale.graph :=
    .of_lt (Nat.lt_succ_of_le h)
  exact hf.trans (tells_endBatch _)

theorem tells_removeInput (id : NodeId) (slot : Nat) :
    s.graph.Tells hidden (s.removeInput id slot).2.graph := by
  unfold removeInput
  split
  · exact (s.tells_beginBatch.trans (tells_disconnectInput _ id slot)).trans
      (tells_close _ (Graph.version_eraseInput ..).ge)
  · exact .refl _

theorem tells_removeOutput (id : NodeId) (slot : Nat) :
    s.graph.Tells hidden (s.removeOutput id slot).2.graph := by
  unfold removeOutput
  split
  · exact (s.tells_beginBatch.trans (tells_disconnectOutput _ id slot none)).trans
      (tells_close _ (Graph.version_eraseOutput ..).ge)
  · exact .refl _

/-- A name that is hidden may be given anew. -/
theorem tells_renameSlot {id : NodeId} {side : Direction} (h : hidden id side = true)
    (name : String) : s.graph.Tells hidden (s.renameSlot side id 0 name).graph := by
  refine s.graph.tells_modifyNode _ (fun n => congrArg Node.record ?_) fun n => ?_
  · cases side <;> simp only [Node.veil, Node.modifyInput, Node.modifyOutput, h, if_true,
      List.modify_modify_eq] <;> rfl
  · cases side <;> rfl

theorem tells_storeProperty (id : NodeId) (name : String) (value : Value) :
    s.graph.Tells hidden (s.storeProperty id name value).graph := by
  unfold storeProperty
  split
  · exact s.tells_restructure (Nat.le_refl _)
  · exact .refl _

theorem tells_setProperty (id : NodeId) (name : String) (value : Value) :
    s.graph.Tells hidden (s.setProperty id name value).2.graph := by
  unfold setProperty
  split
  · have htold : s.graph.Tells hidden (s.tell id (.propertyOffered name value)).graph :=
      .of_eq (s.forgets_tell ..)
    simp only
    split
    · exact htold
    · exact htold.trans (tells_storeProperty ..)
  · exact .refl _

theorem tells_isolate (id : NodeId) (n : Node Catalog) :
    s.graph.Tells hidden (s.isolate id n).graph :=
  .trans (.foldl (fun s slot => s.tells_disconnectInput id slot) _ s)
    (.foldl (fun s slot => s.tells_disconnectOutput id slot none) _ _)

theorem tells_extract (id : NodeId) : s.graph.Tells hidden (s.extract id).2.graph := by
  have htold : s.graph.Tells hidden (s.tell id .removed).graph := .of_eq (s.forgets_tell ..)
  unfold extract
  simp only
  split
  · exact htold.trans (.of_lt (Nat.lt_succ_self _))
  · exact htold

theorem tells_remove (id : NodeId) : s.graph.Tells hidden (s.remove id).2.graph := by
  unfold remove
  split
  · next n hn =>
    have hout : s.graph.Tells hidden ((s.beginBatch.isolate id n).extract id).2.graph :=
      (s.tells_beginBatch.trans (tells_isolate _ id n)).trans (tells_extract _ id)
    generalize (s.beginBatch.isolate id n).extract id = out at hout ⊢
    exact (hout.trans out.2.tells_markStale).trans out.2.markStale.tells_endBatch
  · exact .refl _

theorem tells_clear : s.graph.Tells hidden s.clear.graph := by
  have hreset : ∀ t : Session Catalog σ, t.graph.Tells hidden (t.restructure fun g =>
      { Graph.empty g.registry g.settings with
        version := g.version, batchDepth := g.batchDepth }).graph :=
    fun t => t.tells_restructure (Nat.le_refl t.graph.version)
  have htold : s.graph.Tells hidden (s.stop.tellAll s.stop.graph.nodes.keys .removed).graph :=
    s.tells_stop.trans (.of_eq (forgets_tellAll ..))
  exact htold.trans (hreset _)

/-! ### Terminals -/

theorem tells_setTerminals (d : Direction) (ts : Assoc String Terminal)
    (events : List (Event Catalog)) : s.graph.Tells hidden (s.setTerminals d ts events).graph := by
  refine .of_lt ?_
  cases d <;> exact Nat.lt_succ_self _

theorem tells_renameTerminal (d : Direction) (old new : String) :
    s.graph.Tells hidden (s.renameTerminal d old new).2.graph := by
  unfold renameTerminal
  simp only
  split
  · exact s.tells_setTerminals ..
  · exact .refl _

theorem tells_retypeTerminal (d : Direction) (name : String) (type : SlotType) :
    s.graph.Tells hidden (s.retypeTerminal d name type).2.graph := by
  unfold retypeTerminal
  simp only
  split
  · split
    · exact .refl _
    · exact s.tells_setTerminals ..
  · exact .refl _

theorem tells_removeTerminal (d : Direction) (name : String) :
    s.graph.Tells hidden (s.removeTerminal d name).2.graph := by
  unfold removeTerminal
  simp only
  split
  · exact s.tells_setTerminals ..
  · exact .refl _

/-! ### Loading -/

theorem version_refresh (s : Session B σ) : s.refresh.graph.version = s.graph.version := by
  unfold refresh
  split
  · show (s.graph.number _).version = _
    rw [Graph.number_eq]
  · rfl

/-- Completing a load counts one change. -/
theorem version_settleLoad [Kind B] (s : Session B σ) (snapshot : Snapshot)
    (placed : List (NodeId × NodeRecord)) (nodes : Renaming NodeId) (report : LoadReport) :
    (s.settleLoad snapshot placed nodes report).2.graph.version = s.graph.version + 1 := by
  obtain ⟨told, htold, hload⟩ := s.settleLoad_eq snapshot placed nodes report
  have hfinish : (told.finishLoad snapshot).graph.version = told.graph.version + 1 :=
    congrArg (· + 1) (version_refresh _)
  rw [hload, hfinish, htold.rest]
  show (Graph.repair _ _).graph.version + 1 = _
  rw [Graph.version_repair, Graph.version_adopted]
  exact congrArg (· + 1) (s.graph.version_mergeLinks nodes snapshot.links)

end Session

/-! ### Every edit -/

/-- The edits that change a node, the settings or the configuration by hand, without counting that. -/
def Edit.raw : Edit → Bool
  | renameSlot .. | declareProperty .. | align .. | setConfig .. | removeConfig _
  | setSettings _ => true
  | _ => false

/-- The version tells of every edit that is not raw. -/
theorem Edit.tells_apply {hidden : Hidden} (s : Session Catalog σ) {e : Edit} (h : e.raw = false) :
    s.graph.Tells hidden (e.apply s).2.graph := by
  cases e with
  | renameSlot | declareProperty | align | setConfig | removeConfig | setSettings => cases h
  | remove id => exact s.tells_remove id
  | clear => exact s.tells_clear
  | tryConnect origin originSlot target targetSlot => exact s.tells_tryConnect ..
  | connectByName origin output target input => exact s.tells_connectByName ..
  | disconnectInput id slot => exact s.tells_disconnectInput id slot
  | disconnectOutput id slot target => exact s.tells_disconnectOutput id slot target
  | removeLink id => exact s.tells_removeLink id
  | addInput id name type => exact s.tells_addInput id name type
  | addOutput id name type => exact s.tells_addOutput id name type
  | removeInput id slot => exact s.tells_removeInput id slot
  | removeOutput id slot => exact s.tells_removeOutput id slot
  | setProperty id name value => exact s.tells_setProperty id name value
  | storeProperty id name value => exact s.tells_storeProperty id name value
  | change id c => exact s.tells_change id c
  | setOutputData id slot value => exact s.graph.tells_setOutputData id slot value
  | clearTriggered id slot only => exact s.graph.tells_clearTriggered id slot only
  | clearAllTriggered => exact s.graph.tells_clearAllTriggered
  | addGroup group => exact s.tells_restructure (Nat.le_refl _)
  | removeGroup i =>
    show s.graph.Tells hidden (Edit.apply s (.removeGroup i)).2.graph
    simp only [Edit.apply]
    split
    · exact s.tells_restructure (Nat.le_refl _)
    · exact .refl _
  | arrange margin => exact s.tells_restructure (Graph.version_arrange ..).ge
  | beginBatch => exact s.tells_beginBatch
  | endBatch => exact s.tells_endBatch
  | updateOrder => exact s.graph.tells_updateOrder
  | start => exact s.tells_start
  | stop => exact s.tells_stop
  | addTerminal d name type value => exact s.tells_setTerminals ..
  | setTerminalValue d name value => exact s.graph.tells_withTerminals d _
  | renameTerminal d old new => exact s.tells_renameTerminal d old new
  | retypeTerminal d name type => exact s.tells_retypeTerminal d name type
  | removeTerminal d name => exact s.tells_removeTerminal d name
  | cloneNode id =>
    show s.graph.Tells hidden (s.cloneNode id).2.graph
    unfold Session.cloneNode
    split <;> exact .refl _

/-! ## Bodies -/

/-- The direction of a bridge. -/
def Catalog.direction : Catalog → Option Direction
  | bridge d _ => some d
  | _ => none

/-- Every answer of a body satisfies a predicate. -/
def Body.Gives {α : Type} (P : α → Prop) : Body B σ α → Prop
  | .done a => P a
  | .look next => ∀ g h, (next g h).Gives P
  | .keep _ next => next.Gives P
  | .note _ next => next.Gives P
  | .call _ next => ∀ a, (next a).Gives P

theorem Body.gives_any {α : Type} (p : Body B σ α) : p.Gives fun _ => True := by
  induction p with
  | done a => trivial
  | look next ih => exact fun g k => ih g k
  | keep change next ih => exact ih
  | note remark next ih => exact ih
  | call c next ih => exact fun a => ih a

theorem Body.Gives.seq {α β : Type} {P : α → Prop} {Q : β → Prop} {p : Body B σ α}
    {f : α → Body B σ β} (hp : p.Gives P) (hf : ∀ a, P a → (f a).Gives Q) : (p >>= f).Gives Q := by
  show (p.bind f).Gives Q
  induction p with
  | done a => exact hf a hp
  | look next ih => exact fun g k => ih g k (hp g k)
  | keep change next ih => exact ih hp
  | note remark next ih => exact ih hp
  | call c next ih => exact fun a => ih a (hp a)

theorem Body.ensures_of_gives {α : Type} {P : α → Prop}
    {perform : (c : Call B) → Act B σ c.Answer} {p : Body B σ α} (h : p.Gives P)
    (s : Session B σ) : Ensures (p.run perform) s fun a _ => P a := by
  induction p generalizing s with
  | done a => exact Ensures.pure h
  | look next ih => exact Ensures.get_bind (ih _ _ (h _ _) s)
  | keep change next ih => exact Ensures.modify_bind (ih h _)
  | note remark next ih => exact Ensures.modify_bind (ih h _)
  | call c next ih =>
    apply Ensures.bind
    exact fun a t _ => ih a (h a) t

/-- A bridge stays a bridge of its direction, and nothing else becomes one. -/
theorem Catalog.gives_direction (b : Catalog) (id : NodeId) (task : Task) :
    (Behavior.body b id task : Body Catalog Unit (Outcome Catalog)).Gives
      fun out => out.state.direction = b.direction := by
  have hbody : (b.body id task : Body Catalog Unit _).Gives
      fun ended => ended.1.direction = b.direction := by
    unfold body
    split
    · exact (Body.gives_any _).seq fun _ _ => rfl
    · exact (Body.gives_any _).seq fun _ _ => rfl
    · exact (Body.gives_any _).seq fun _ _ => rfl
    · exact (Body.gives_any _).seq fun _ _ => rfl
    · rfl
  exact hbody.seq fun ended h => h

/-! ## The engine -/

/-- A behaviour may come and go where the names that it gives are hidden. -/
theorem Graph.tells_behavior {hidden : Hidden} (g : Graph Catalog) (id : NodeId) {b : Option Catalog}
    (h : ∀ d registered, b = some (.bridge d registered) → hidden id (Catalog.inside d) = true) :
    g.Tells hidden (g.modifyNode id fun n => { n with behavior := b }) := by
  refine ⟨Nat.le_refl _, fun _ => ⟨saved_modifyNode fun n => ?_, fun hg i d registered hi => ?_⟩⟩
  · exact (n.veil (hidden id)).record_attach b
  · change ((g.nodes.modify id _).get? i).bind Node.behavior = _ at hi
    rw [Assoc.get?_modify] at hi
    split at hi
    · next hid =>
      rw [hid] at hi ⊢
      cases hn : g.nodes.get? id with
      | none =>
        rw [hn] at hi
        cases hi
      | some n =>
        rw [hn] at hi
        exact h d registered hi
    · exact hg i d registered hi

theorem Graph.even_tells (hidden : Hidden) (g : Graph Catalog) : Even (g.Tells hidden) where
  marked g' _ h := h.trans (g'.tells_modifyLink (fun l => { l with triggered := true }) fun _ => rfl)
  counted _ _ _ _ h := h.trans (.silent rfl rfl fun _ => rfl)
  stopped s h := h.trans s.tells_stop
  update g' h := h.trans g'.tells_updateOrder

/-- Whether a call is a raw edit. -/
def Call.raw : Call B → Bool
  | .edit e => e.raw
  | _ => false

namespace Engine

/-- After a body the version tells if the names that it gives are hidden; and it gives its behaviour
back as the bridge that it was, or as none. -/
structure Counts (run : Runner Catalog Unit) : Prop where
  tells : ∀ {hidden : Hidden} {g : Graph Catalog}, g.Bridged hidden → ∀ (b : Catalog) id task,
    (∀ d, b.direction = some d → hidden id (Catalog.inside d) = true) →
      Keeps (g.Tells hidden) (run (Behavior.body b id task))
  gives : ∀ (b : Catalog) id task s, Ensures (run (Behavior.body b id task)) s
    fun out _ => out.state.direction = b.direction

theorem version_restore (s : Session B σ) (id : NodeId) (b : B) :
    (restore s id b).graph.version = s.graph.version := by
  unfold restore
  split <;> rfl

variable {run : Runner Catalog Unit} (hc : Counts run)
include hc

theorem tells_enter {hidden : Hidden} {g : Graph Catalog} (hg : g.Bridged hidden) (id : NodeId)
    (task : Task) : Keeps (g.Tells hidden) (enter run id task) := by
  intro s hs
  apply Ensures.get_bind
  split
  · exact Ensures.pure hs
  · next b hb =>
    let u := (s.edit fun g => g.detach id).log (.began id b task)
    apply Ensures.set_bind
    apply Ensures.bind
    intro out t hr
    apply Ensures.modify_bind
    apply Ensures.pure
    by_cases hv : s.graph.version = g.version
    · -- nothing was counted so far, so the bridges are those whose names are hidden
      have hbridged := (hs.same hv).2 hg
      have hd : ∀ d, b.direction = some d → hidden id (Catalog.inside d) = true := by
        intro d hd
        cases b with
        | bridge d' registered =>
          cases hd
          exact hbridged id d registered hb
        | _ => cases hd
      have hu : g.Tells hidden u.graph :=
        hs.trans (s.graph.tells_behavior id (b := none) fun _ _ h => nomatch h)
      have ht := hc.tells hg b id task hd u hu out t hr
      have hdir := hc.gives b id task u out t hr
      unfold restore
      split
      · refine ht.trans (t.graph.tells_behavior id fun d registered h => hd d ?_)
        rw [← hdir, Option.some.inj h]
        rfl
      · exact ht
    · -- whatever the body does, the version does not go down again
      have ht := hc.tells u.graph.bridged_all b id task (fun _ _ => rfl) u (.refl _) out t hr
      have hlt : g.version < s.graph.version := Nat.lt_of_le_of_ne hs.version (Ne.symm hv)
      refine .of_lt ?_
      rw [version_restore]
      exact Nat.lt_of_lt_of_le hlt ht.version

theorem version_enter (id : NodeId) (task : Task) (s : Session Catalog Unit) :
    Ensures (enter run id task) s fun _ s' => s.graph.version ≤ s'.graph.version :=
  (tells_enter hc s.graph.bridged_all id task s (.refl _)).mono fun _ _ h => h.version

/-- Adding a node is counted, unless it is refused. -/
theorem version_insertNode (n : Node Catalog) (refresh : Bool) (s : Session Catalog Unit) :
    Ensures (insertNode run n refresh) s fun _ s' => s' = s ∨ s.graph.version < s'.graph.version := by
  refine ensures_insertNode (fun _ _ => .inl rfl) fun _ => ?_
  refine (version_enter hc _ _ _).mono fun _ t ht u hu => ?_
  have hu' : u.graph.version = t.graph.version := by
    rw [hu]
    cases refresh
    · rfl
    · exact Session.version_refresh t.markStale
  refine .inr (Nat.lt_of_lt_of_le ?_ (Nat.le_trans ht (Nat.le_of_eq hu'.symm)))
  rw [Session.edit, s.graph.place_snapped]
  exact Nat.lt_succ_self _

theorem version_placeAll (rs : List NodeRecord) (p : Placing) (s : Session Catalog Unit) :
    Ensures (placeAll run rs p) s fun _ s' => s.graph.version ≤ s'.graph.version := by
  induction rs generalizing p s with
  | nil => exact Ensures.pure (Nat.le_refl _)
  | cons r rs ih =>
    apply Ensures.get_bind
    apply Ensures.bind
    refine (version_insertNode hc _ false s).mono fun answer t ht => ?_
    have hle : s.graph.version ≤ t.graph.version := by
      obtain rfl | hlt := ht
      · exact Nat.le_refl _
      · exact Nat.le_of_lt hlt
    cases answer with
    | error e => exact (ih _ t).mono fun _ _ h => Nat.le_trans hle h
    | ok id => exact (ih _ t).mono fun _ _ h => Nat.le_trans hle h

/-- A load is always counted. -/
theorem version_load (snapshot : Snapshot) (keepOld : Bool) (s : Session Catalog Unit) :
    Ensures (load run snapshot keepOld) s fun _ s' => s.graph.version < s'.graph.version := by
  apply Ensures.modify_bind
  apply Ensures.bind
  refine (version_placeAll hc snapshot.nodes _ _).mono fun p t ht => ?_
  apply Ensures.total
  have hstart : s.graph.version ≤ (if keepOld then s else s.clear).graph.version := by
    split
    · exact Nat.le_refl _
    · have hclear : s.graph.Tells (fun _ _ => true) s.clear.graph := s.tells_clear
      exact hclear.version
  rw [Session.version_settleLoad]
  exact Nat.lt_succ_of_le (Nat.le_trans hstart ht)

/-- The version tells of every call that is not a raw edit. -/
theorem tells_perform {hidden : Hidden} {g : Graph Catalog} (hg : g.Bridged hidden)
    {c : Call Catalog} (hraw : c.raw = false) : Keeps (g.Tells hidden) (perform run c) := by
  have heven := g.even_tells hidden
  have henter := tells_enter hc hg
  cases c with
  | edit e =>
    intro s hs
    exact Ensures.total (hs.trans (Edit.tells_apply s hraw))
  | add n =>
    intro s hs
    refine (version_insertNode hc n true s).mono fun _ s' h => ?_
    obtain rfl | hlt := h
    · exact hs
    · exact .of_lt (Nat.lt_of_le_of_lt hs.version hlt)
  | load snapshot keepOld =>
    intro s hs
    refine (version_load hc snapshot keepOld s).mono fun _ s' hlt => ?_
    exact .of_lt (Nat.lt_of_le_of_lt hs.version hlt)
  | _ => exact even_perform heven henter (by trivial)

omit hc in
/-- Bodies of the catalog count what they do, however deeply they are nested. -/
theorem counts_runner (depth : Nat) : Counts (runner depth) := by
  induction depth with
  | zero =>
    -- at depth zero no body runs to its end
    exact ⟨fun _ _ _ _ _ _ _ _ _ hr => (nomatch hr), fun _ _ _ _ _ _ hr => nomatch hr⟩
  | succ depth ih =>
    refine ⟨fun {hidden g} hg b id task hb => ?_, fun b id task s => ?_⟩
    · let K : Contract Catalog := ⟨g.Tells hidden, fun c => c.raw = false ∨
        ∃ i side name, hidden i side = true ∧ c = .edit (.renameSlot side i 0 name), fun _ _ => True⟩
      have hK : K.Honoured (perform (runner (B := Catalog) depth)) := by
        rintro c (hraw | ⟨i, side, name, hidden, rfl⟩) s hs
        · exact (tells_perform ih hg hraw s hs).mono fun _ _ h => ⟨trivial, h⟩
        · exact Ensures.total ⟨trivial, Graph.Tells.trans hs (s.tells_renameSlot hidden name)⟩
      refine Body.keeps_run hK (Catalog.obeys_makes (K := K) (fun e he => ?_)
        (fun _ _ _ _ => Or.inl rfl) task)
      obtain he | ⟨d, registered, rfl, he⟩ := he
      · cases e <;> first | exact .inl rfl | exact he.elim
      · cases e with
        | renameSlot side i slot name =>
          obtain ⟨rfl, rfl, rfl⟩ := he
          exact .inr ⟨i, _, name, hb d rfl, rfl⟩
        | _ => first | exact .inl rfl | exact he.elim
    · exact Body.ensures_of_gives (b.gives_direction id task) s

end Engine

/-! ## What the version tells -/

/-- The names that the bridges of a graph give to slots. -/
def Graph.bridgeNames (g : Graph Catalog) : Hidden := fun id side =>
  match g.behavior? id with
  | some (.bridge d _) => Catalog.inside d = side
  | _ => false

theorem Graph.bridged_self (g : Graph Catalog) : g.Bridged g.bridgeNames := by
  intro id d registered h
  unfold bridgeNames
  rw [h]
  exact decide_eq_true rfl

/-- Where the version tells and no name is hidden, it tells whether the snapshot is new. -/
theorem Graph.Tells.snapshot {g g' : Graph Catalog} (h : g.Tells (fun _ _ => false) g')
    (hv : g'.version = g.version) : g'.snapshot = g.snapshot := by
  rw [← g.veil_nothing, ← g'.veil_nothing, snapshot_veil, snapshot_veil, (h.same hv).1]

/-- No operation but a raw edit lowers the version of a graph of standard nodes.  While it stays
the same, so does the snapshot, the names aside that bridges give to the slots of their own nodes:
the whole snapshot if the operation is an edit, or if there is no bridge. -/
theorem Engine.version_tells {depth : Nat} {c : Call Catalog} (hc : c.raw = false)
    {s s' : Session Catalog Unit} {a : c.Answer} (hr : perform (runner depth) c s = some (a, s')) :
    s.graph.version ≤ s'.graph.version ∧
      (s'.graph.version = s.graph.version →
        (s'.graph.veil s.graph.bridgeNames).snapshot =
            (s.graph.veil s.graph.bridgeNames).snapshot ∧
          ((∃ e, c = .edit e) ∨
              (∀ id d registered, s.graph.behavior? id ≠ some (.bridge d registered)) →
            s'.graph.snapshot = s.graph.snapshot)) := by
  have hcounts := counts_runner depth
  have ht := tells_perform hcounts s.graph.bridged_self hc s (.refl _) a s' hr
  refine ⟨ht.version, fun hv => ⟨?_, ?_⟩⟩
  · rw [Graph.snapshot_veil, Graph.snapshot_veil, (ht.same hv).1]
  · rintro (⟨e, rfl⟩ | hnone)
    · obtain ⟨rfl, rfl⟩ := Prod.mk.inj (Option.some.inj hr)
      exact (Edit.tells_apply s hc).snapshot hv
    · have hbridged : s.graph.Bridged fun _ _ => false := fun id d r h => absurd h (hnone id d r)
      exact (tells_perform hcounts hbridged hc s (.refl _) a s' hr).snapshot hv

/-- A bridge that is asked for a name that another terminal has. -/
def takenName : Body Catalog Unit Unit := do
  let _ ← Body.addNew "graph/input"
  Body.edit (.addTerminal .input "a" .any none)
  let _ ← Body.edit (.setProperty ⟨1⟩ "name" (.str "a"))

/-- The names of the outputs in a snapshot. -/
def Snapshot.outputNames (s : Snapshot) : List (Option (List String)) :=
  s.nodes.map fun r => r.outputs.map (·.map Output.name)

theorem takenName_runs : ∃ s s' : Session Catalog Unit, ∃ answer,
    Engine.exec 2 takenName ⟨Graph.empty (Catalog.registry id) .default, [], ()⟩ = some ((), s) ∧
      Engine.perform (Engine.runner 1) (.runStep 1 true) s = some (answer, s') ∧
      s'.graph.version = s.graph.version ∧
      s.graph.snapshot.outputNames = [some ["input_1"]] ∧
      s'.graph.snapshot.outputNames = [some ["a"]] := by
  have hrun : ((Engine.exec 2 takenName
      ⟨Graph.empty (Catalog.registry id) .default, [], ()⟩).any fun e =>
        (Engine.runStep (Engine.runner 1) 1 true e.2).any fun r =>
          decide (r.2.graph.version = e.2.graph.version) &&
          decide (e.2.graph.snapshot.outputNames = [some ["input_1"]]) &&
          decide (r.2.graph.snapshot.outputNames = [some ["a"]])) = true := by
    decide +kernel
  obtain ⟨⟨⟨⟩, s⟩, hs, h⟩ := (Option.any_eq_true _ _).1 hrun
  obtain ⟨⟨answer, s'⟩, hr, h⟩ := (Option.any_eq_true _ _).1 h
  simp only [Bool.and_eq_true, decide_eq_true_eq] at h
  exact ⟨s, s', answer, hs, hr, h.1.1, h.1.2, h.2⟩

/-- A step in which a bridge does not get the name it asks for still names the slot of its node so.
The snapshot is another, but the version is not. -/
theorem takenName_unnoticed : ∃ s s' : Session Catalog Unit, ∃ answer,
    Engine.exec 2 takenName ⟨Graph.empty (Catalog.registry id) .default, [], ()⟩ = some ((), s) ∧
      Reachable s ∧ Engine.perform (Engine.runner 1) (.runStep 1 true) s = some (answer, s') ∧
      s'.graph.version = s.graph.version ∧ s'.graph.snapshot ≠ s.graph.snapshot := by
  obtain ⟨s, s', answer, hs, hr, hv, hn, hn'⟩ := takenName_runs
  have hstart : Reachable (⟨Graph.empty (Catalog.registry id) .default, [], ()⟩ :
      Session Catalog Unit) := .start ..
  refine ⟨s, s', answer, hs, hstart.exec takenName hs, hr, hv, fun h => ?_⟩
  rw [h, hn] at hn'
  exact absurd hn' (by decide)

/-- In that step all but the name of that slot stays as it was. -/
theorem takenName_otherwise_same : ∃ s s' : Session Catalog Unit, ∃ answer,
    Engine.exec 2 takenName ⟨Graph.empty (Catalog.registry id) .default, [], ()⟩ = some ((), s) ∧
      Engine.perform (Engine.runner 1) (.runStep 1 true) s = some (answer, s') ∧
      s'.graph.version = s.graph.version ∧
      s.graph.snapshot.outputNames = [some ["input_1"]] ∧
      s'.graph.snapshot.outputNames = [some ["a"]] ∧
      (s'.graph.veil s.graph.bridgeNames).snapshot = (s.graph.veil s.graph.bridgeNames).snapshot := by
  obtain ⟨s, s', answer, hs, hr, hv, hn, hn'⟩ := takenName_runs
  exact ⟨s, s', answer, hs, hr, hv, hn, hn', ((Engine.version_tells rfl hr).2 hv).1⟩

end Dataflow
