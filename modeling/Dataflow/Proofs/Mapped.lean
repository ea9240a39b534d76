/-
  Edits do not notice which behaviours a graph has.

  For behaviours that act alike, what an edit does to a session can be seen through the map: the
  edit of the mapped session is the mapped edit, with the mapped answer (`Edit.apply_map`).  There
  is one lemma for each operation, named after it.
-/

import Dataflow.Proofs.Likeness
import Dataflow.Proofs.Phases

namespace Dataflow

variable {B C σ τ : Type} {f : B → C} {h : σ → τ}

/-! ## Links of a snapshot -/

def LinkLoad.map (f : B → C) (load : LinkLoad B) : LinkLoad C :=
  ⟨load.graph.map f, load.table, load.pruned⟩

def Graph.Repair.map (f : B → C) (r : Graph.Repair B) : Graph.Repair C :=
  ⟨r.graph.map f, r.pruned, r.repaired⟩

namespace Graph

theorem acceptsLink_map [Kind B] [Kind C] (hf : Unnoticed f) (g : Graph B) (id : NodeId) (slot : Nat)
    (type : SlotType) : (g.map f).acceptsLink id slot type = g.acceptsLink id slot type := by
  unfold acceptsLink
  rw [behavior?_map]
  cases g.behavior? id with
  | none => rfl
  | some b => exact hf.acceptsLink b slot type

theorem add_map (nodes : Renaming NodeId) (load : LinkLoad B) (r : LinkRecord) :
    LinkLoad.add nodes (load.map f) r = (load.add nodes r).map f := by
  have hclaim : (load.map f).claim r.id = load.claim r.id := rfl
  unfold LinkLoad.add
  rw [hclaim]
  cases nodes.get? r.origin with
  | none => rfl
  | some origin => cases nodes.get? r.target <;> rfl

theorem mergeLinks_map (g : Graph B) (nodes : Renaming NodeId) (records : List LinkRecord) :
    (g.map f).mergeLinks nodes records = (g.mergeLinks nodes records).map f := by
  have hfold : ∀ load : LinkLoad B, records.foldl (LinkLoad.add nodes) (load.map f) =
      (records.foldl (LinkLoad.add nodes) load).map f := fun load =>
    List.foldl_hom (fun load : LinkLoad B => load.map f) fun load r => add_map nodes load r
  exact hfold ⟨g, ∅, []⟩

/-! ## Repair -/

theorem canStand_map (g : Graph B) (k : LinkId) (l : Link) :
    (g.map f).canStand k l = g.canStand k l := by
  unfold canStand
  rw [output?_map, input?_map]

theorem isEntered_map (g : Graph B) (k : LinkId) (l : Link) :
    (g.map f).isEntered k l = g.isEntered k l := by
  unfold isEntered
  rw [output?_map, input?_map]

theorem enter_map (g : Graph B) (k : LinkId) (l : Link) :
    (g.map f).enter k l = (g.enter k l).map f := by
  unfold enter
  exact modifyNode_map (modifyNode_map rfl fun _ => rfl) fun _ => rfl

theorem settle_map (r : Repair B) (k : LinkId) : settle (r.map f) k = (settle r k).map f := by
  have hl : (r.map f).graph.links.get? k = r.graph.links.get? k := rfl
  have hg : (r.map f).graph = r.graph.map f := rfl
  unfold settle
  rw [hl]
  cases r.graph.links.get? k with
  | none => rfl
  | some l =>
    simp only [hg, canStand_map, isEntered_map, enter_map]
    split <;> rfl

theorem relinkAll_map (g : Graph B) (k : NodeId → Direction → Nat → LinkId → Option LinkId) :
    (g.map f).relinkAll k = (g.relinkAll k).map f := by
  have hn : (g.map f).nodes.mapValues (fun id n => n.relink (k id)) =
      (g.relinkAll k).nodes.mapValues fun _ n => n.map f := by
    show (g.nodes.mapValues fun _ n => n.map f).mapValues (fun id n => n.relink (k id)) =
      (g.nodes.mapValues fun id n => n.relink (k id)).mapValues fun _ n => n.map f
    rw [Assoc.mapValues_mapValues, Assoc.mapValues_mapValues]
    rfl
  unfold relinkAll map at *
  rw [hn]

theorem losesLinks_map (g : Graph B) (k : NodeId → Direction → Nat → LinkId → Option LinkId) :
    (g.map f).losesLinks k = g.losesLinks k := by
  show (g.nodes.entries.map _).any _ = _
  rw [List.any_map]
  rfl

theorem repair_map (g : Graph B) (pruned : List LinkId) :
    (g.map f).repair pruned = (g.repair pruned).map f := by
  have hfold : ∀ (ks : List LinkId) (r : Repair B),
      ks.foldl settle (r.map f) = (ks.foldl settle r).map f := fun ks r =>
    List.foldl_hom (fun r : Repair B => r.map f) fun r k => settle_map r k
  have hr : (g.map f).links.keys.foldl settle ⟨g.map f, pruned, false⟩ =
      (g.links.keys.foldl settle ⟨g, pruned, false⟩).map f := hfold g.links.keys ⟨g, pruned, false⟩
  have hg : ∀ r : Repair B, (r.map f).graph = r.graph.map f := fun _ => rfl
  -- which links live, and where they end, is a matter of the links alone
  have hlive : ∀ g : Graph B, (g.map f).live = g.live := fun _ => rfl
  have howned : ∀ g : Graph B, (g.map f).owned = g.owned := fun _ => rfl
  unfold repair
  simp only [hr, hg, hlive, relinkAll_map, losesLinks_map, howned]
  rfl

end Graph

/-! ## Sessions -/

namespace Session

/-- The next loaded node takes over its record; remembers whether any named unknown links. -/
def adoptNext [Kind B] (table : Renaming LinkId) (r : Bool × Session B σ) (e : NodeId × NodeRecord) :
    Bool × Session B σ :=
  let (l, s) := r.2.adopt table e.1 e.2
  (r.1 || l, s)

/-- The loaded nodes take over their records, first to last. -/
def adoptAll [Kind B] (s : Session B σ) (table : Renaming LinkId)
    (placed : List (NodeId × NodeRecord)) : Bool × Session B σ :=
  placed.foldl (adoptNext table) (false, s)

/-- Changes of the graph that agree on mapped graphs agree on mapped sessions. -/
theorem edit_map {s : Session B σ} {s' : Session C τ} {c : Graph B → Graph B}
    {d : Graph C → Graph C} (hs : s' = s.map f h) (hg : d (s.graph.map f) = (c s.graph).map f) :
    s'.edit d = (s.edit c).map f h := by
  subst hs
  show (⟨d (s.graph.map f), _, _⟩ : Session C τ) = _
  rw [hg]
  rfl

theorem logAll_map {s : Session B σ} {s' : Session C τ} (hs : s' = s.map f h) (es : List (Event B)) :
    s'.logAll (es.map (Event.map f)) = (s.logAll es).map f h := by
  subst hs
  show (⟨_, (es.map (Event.map f)).reverse ++ s.events.map (Event.map f), _⟩ : Session C τ) = _
  rw [← List.map_reverse, ← List.map_append]
  rfl

theorem changed_map {s : Session B σ} {s' : Session C τ} (hs : s' = s.map f h) :
    s'.changed = s.changed.map f h := by
  subst hs
  rfl

theorem restructure_map {s : Session B σ} {s' : Session C τ} {c : Graph B → Graph B}
    {d : Graph C → Graph C} (hs : s' = s.map f h) (hg : d (s.graph.map f) = (c s.graph).map f) :
    s'.restructure d = (s.restructure c).map f h := by
  unfold restructure
  exact changed_map (edit_map hs (congrArg Graph.bump hg))

theorem foldl_map {α : Type} {c : Session B σ → α → Session B σ} {d : Session C τ → α → Session C τ}
    (hcd : ∀ s a, d (s.map f h) a = (c s a).map f h) (as : List α) (s : Session B σ) :
    as.foldl d (s.map f h) = (as.foldl c s).map f h :=
  List.foldl_hom (fun s : Session B σ => s.map f h) hcd

variable (s : Session B σ)

theorem refresh_map : (s.map f h).refresh = s.refresh.map f h := by
  show (if s.graph.batchDepth = 0 && s.graph.stale then _ else _) = _
  unfold refresh
  split
  · exact edit_map rfl s.graph.updateOrder_map
  · rfl

theorem invalidate_map : (s.map f h).invalidate = s.invalidate.map f h := refresh_map s.markStale

theorem endBatch_map : (s.map f h).endBatch = s.endBatch.map f h := by
  unfold endBatch
  exact refresh_map (s.edit fun g => { g with batchDepth := g.batchDepth - 1 })

/-- What removing something ends with. -/
theorem closed_map {s : Session B σ} {s' : Session C τ} (hs : s' = s.map f h) :
    s'.markStale.endBatch = s.markStale.endBatch.map f h := by
  subst hs
  exact s.markStale.endBatch_map

/-- What making or breaking something ends with. -/
theorem settled_map : (s.map f h).invalidate.changed = s.invalidate.changed.map f h :=
  changed_map s.invalidate_map

/-- The same answer, and the session mapped. -/
def carry {α : Type} (f : B → C) (h : σ → τ) (r : α × Session B σ) : α × Session C τ :=
  (r.1, r.2.map f h)

/-! ### Slots, properties, terminals -/

theorem change_map (id : NodeId) (c : NodeChange) :
    (s.map f h).change id c = carry f h (s.change id c) := by
  have hr : (s.map f h).restructure (·.modifyNode id c.apply) =
      (s.restructure (·.modifyNode id c.apply)).map f h :=
    restructure_map rfl (Graph.modifyNode_map rfl fun n => n.change_map c)
  have hc : (s.map f h).graph.nodes.contains id = s.graph.nodes.contains id := s.graph.contains_map id
  unfold change
  rw [hc]
  split
  · cases c.reorders with
    | true => exact congrArg (Prod.mk true) ((congrArg invalidate hr).trans (invalidate_map _))
    | false => exact congrArg (Prod.mk true) hr
  · rfl

theorem addInput_map (id : NodeId) (name : String) (type : SlotType) :
    (s.map f h).addInput id name type = carry f h (s.addInput id name type) := by
  have hn : (s.map f h).graph.nodes.get? id = (s.graph.nodes.get? id).map (·.map f) :=
    s.graph.get?_map id
  unfold addInput
  rw [hn]
  cases s.graph.nodes.get? id with
  | none => rfl
  | some n =>
    exact congrArg (Prod.mk _) (restructure_map rfl (Graph.modifyNode_map rfl fun _ => rfl))

theorem addOutput_map (id : NodeId) (name : String) (type : SlotType) :
    (s.map f h).addOutput id name type = carry f h (s.addOutput id name type) := by
  have hn : (s.map f h).graph.nodes.get? id = (s.graph.nodes.get? id).map (·.map f) :=
    s.graph.get?_map id
  unfold addOutput
  rw [hn]
  cases s.graph.nodes.get? id with
  | none => rfl
  | some n =>
    exact congrArg (Prod.mk _) (restructure_map rfl (Graph.modifyNode_map rfl fun _ => rfl))

theorem renameSlot_map (d : Direction) (id : NodeId) (slot : Nat) (name : String) :
    (s.map f h).renameSlot d id slot name = (s.renameSlot d id slot name).map f h := by
  refine edit_map rfl (Graph.modifyNode_map rfl fun n => ?_)
  cases d <;> rfl

theorem storeProperty_map (id : NodeId) (name : String) (value : Value) :
    (s.map f h).storeProperty id name value = (s.storeProperty id name value).map f h := by
  have hc : (s.map f h).graph.nodes.contains id = s.graph.nodes.contains id := s.graph.contains_map id
  unfold storeProperty
  rw [hc]
  split
  · exact restructure_map rfl (Graph.modifyNode_map rfl fun _ => rfl)
  · rfl

theorem declareProperty_map (id : NodeId) (info : PropertyInfo) :
    (s.map f h).declareProperty id info = carry f h (s.declareProperty id info) :=
  congrArg₂ Prod.mk (s.graph.contains_map id) (edit_map rfl (Graph.modifyNode_map rfl fun _ => rfl))

theorem setOutputData_map (id : NodeId) (slot : Nat) (value : Value) :
    (s.map f h).setOutputData id slot value = carry f h (s.setOutputData id slot value) :=
  congrArg₂ Prod.mk (congrArg Option.isSome (s.graph.output?_map id slot))
    (edit_map rfl (s.graph.setOutputData_map id slot value))

theorem setTerminals_map (d : Direction) (ts : Assoc String Terminal) (es : List (Event B)) :
    (s.map f h).setTerminals d ts (es.map (Event.map f)) = (s.setTerminals d ts es).map f h := by
  unfold setTerminals
  have hg : ((s.graph.map f).withTerminals d ts).bump = (s.graph.withTerminals d ts).bump.map f :=
    congrArg Graph.bump (s.graph.withTerminals_map d ts)
  exact changed_map (logAll_map (edit_map rfl hg) es)

theorem terminals_map (d : Direction) : (s.map f h).graph.terminals d = s.graph.terminals d := by
  cases d <;> rfl

theorem addTerminal_map (d : Direction) (name : String) (type : SlotType) (value : Option Value) :
    (s.map f h).addTerminal d name type value = (s.addTerminal d name type value).map f h := by
  unfold addTerminal
  rw [terminals_map]
  exact s.setTerminals_map d _ [.terminalAdded d name type, .terminalsChanged]

theorem setTerminalValue_map (d : Direction) (name : String) (value : Value) :
    (s.map f h).setTerminalValue d name value = carry f h (s.setTerminalValue d name value) := by
  have hc : ((s.map f h).graph.terminals d).contains name = (s.graph.terminals d).contains name := by
    rw [terminals_map]
  refine congrArg₂ Prod.mk hc (edit_map rfl ?_)
  cases d <;> rfl

theorem renameTerminal_map (d : Direction) (old new : String) :
    (s.map f h).renameTerminal d old new = carry f h (s.renameTerminal d old new) := by
  unfold renameTerminal
  rw [terminals_map]
  simp only
  split
  · exact congrArg (Prod.mk true)
      (s.setTerminals_map d _ [.terminalRenamed d old new, .terminalsChanged])
  · rfl

theorem retypeTerminal_map (d : Direction) (name : String) (type : SlotType) :
    (s.map f h).retypeTerminal d name type = carry f h (s.retypeTerminal d name type) := by
  unfold retypeTerminal
  rw [terminals_map]
  simp only
  cases (s.graph.terminals d).get? name with
  | none => rfl
  | some t =>
    simp only
    split
    · rfl
    · exact congrArg (Prod.mk true) (s.setTerminals_map d _ [.terminalRetyped d name type])

theorem removeTerminal_map (d : Direction) (name : String) :
    (s.map f h).removeTerminal d name = carry f h (s.removeTerminal d name) := by
  unfold removeTerminal
  rw [terminals_map]
  simp only
  split
  · exact congrArg (Prod.mk true)
      (s.setTerminals_map d _ [.terminalRemoved d name, .terminalsChanged])
  · rfl

section Kind

variable [Kind B] [Kind C] (hf : Unnoticed f)
include hf

/-! ### Telling -/

theorem tell_map (id : NodeId) (notice : Notice) :
    (s.map f h).tell id notice = (s.tell id notice).map f h := by
  have hn : (s.map f h).graph.nodes.get? id = (s.graph.nodes.get? id).map (·.map f) :=
    s.graph.get?_map id
  unfold tell
  rw [hn]
  cases s.graph.nodes.get? id with
  | none => rfl
  | some n =>
    have he : (s.map f h).edit (·.modifyNode id fun _ => (n.tell notice).1.map f) =
        (s.edit (·.modifyNode id fun _ => (n.tell notice).1)).map f h :=
      edit_map rfl (Graph.modifyNode_map rfl fun _ => rfl)
    simp only [Option.map_some, n.tell_map hf, Prod.map_fst, Prod.map_snd]
    exact logAll_map he _

theorem tellAll_map (ids : List NodeId) (notice : Notice) :
    (s.map f h).tellAll ids notice = (s.tellAll ids notice).map f h :=
  foldl_map (fun s id => s.tell_map hf id notice) ids s

/-- Telling every node of the graph. -/
theorem tellEvery_map (notice : Notice) :
    (s.map f h).tellAll (s.map f h).graph.nodes.keys notice =
      (s.tellAll s.graph.nodes.keys notice).map f h := by
  rw [show (s.map f h).graph.nodes.keys = s.graph.nodes.keys from s.graph.keys_map]
  exact s.tellAll_map hf _ notice

theorem tellEnd_map (d : Direction) (id : NodeId) (slot : Nat) (connected : Bool) (link : Link) :
    (s.map f h).tellEnd d id slot connected link = (s.tellEnd d id slot connected link).map f h := by
  have hn : (s.map f h).graph.slotName? d id slot = s.graph.slotName? d id slot :=
    s.graph.slotName?_map d id slot
  unfold tellEnd
  rw [hn]
  split
  · exact s.tell_map hf id _
  · rfl

theorem announce_map (link : Link) (connected : Bool) :
    (s.map f h).announce link connected = (s.announce link connected).map f h := by
  unfold announce
  simp only [tellEnd_map _ hf]
  rfl

theorem start_map : (s.map f h).start = s.start.map f h := by
  show (if s.graph.running then _ else _) = _
  unfold start
  split
  · rfl
  · exact tellEvery_map ((s.edit fun g => { g with running := true }).log .started) hf .started

theorem stop_map : (s.map f h).stop = s.stop.map f h := by
  show (if s.graph.running then _ else _) = _
  unfold stop
  split
  · exact tellEvery_map ((s.edit fun g => { g with running := false }).log .stopped) hf .stopped
  · rfl

theorem setProperty_map (id : NodeId) (name : String) (value : Value) :
    (s.map f h).setProperty id name value = carry f h (s.setProperty id name value) := by
  have hc : (s.map f h).graph.nodes.contains id = s.graph.nodes.contains id := s.graph.contains_map id
  have hk : ((s.map f h).graph.behavior? id).any (fun b => Kind.keepsOld b name value) =
      (s.graph.behavior? id).any fun b => Kind.keepsOld b name value := by
    rw [show (s.map f h).graph.behavior? id = (s.graph.behavior? id).map f from
      s.graph.behavior?_map id]
    cases s.graph.behavior? id with
    | none => rfl
    | some b => exact hf.keepsOld b name value
  unfold setProperty
  rw [hc, hk]
  split
  · simp only [tell_map s hf, storeProperty_map]
    split <;> rfl
  · rfl

/-! ### Links -/

theorem unlink_map (k : LinkId) : (s.map f h).unlink k = (s.unlink k).map f h := by
  have hl : (s.map f h).graph.links.get? k = s.graph.links.get? k := rfl
  unfold unlink
  rw [hl]
  cases s.graph.links.get? k with
  | none => rfl
  | some l =>
    have he : (s.map f h).edit (fun g => (g.dropLink k l).bump) =
        (s.edit fun g => (g.dropLink k l).bump).map f h :=
      edit_map rfl (congrArg Graph.bump (s.graph.dropLink_map k l))
    simp only [he]
    exact announce_map _ hf l false

theorem disconnectInput_map (id : NodeId) (slot : Nat) :
    (s.map f h).disconnectInput id slot = carry f h (s.disconnectInput id slot) := by
  have hi : (s.map f h).graph.input? id slot = s.graph.input? id slot := s.graph.input?_map id slot
  unfold disconnectInput
  rw [hi]
  split
  · simp only [unlink_map s hf, settled_map]
    rfl
  · rfl

theorem disconnectOutput_map (id : NodeId) (slot : Nat) (target : Option NodeId) :
    (s.map f h).disconnectOutput id slot target = carry f h (s.disconnectOutput id slot target) := by
  have ho : (s.map f h).graph.output? id slot = s.graph.output? id slot :=
    s.graph.output?_map id slot
  have hl : leaving (s.map f h).graph id slot target = leaving s.graph id slot target := by
    unfold leaving
    rw [ho]
    rfl
  unfold disconnectOutput
  rw [hl]
  split
  · rfl
  · simp only [foldl_map (fun s k => unlink_map s hf k), settled_map]
    rfl

theorem removeLink_map (k : LinkId) : (s.map f h).removeLink k = carry f h (s.removeLink k) := by
  have hl : (s.map f h).graph.links.contains k = s.graph.links.contains k := rfl
  unfold removeLink
  rw [hl]
  split
  · simp only [unlink_map s hf, settled_map]
    rfl
  · rfl

theorem link_map (origin : NodeId) (originSlot : Nat) (target : NodeId) (targetSlot : Nat)
    (input : Input) : (s.map f h).link origin originSlot target targetSlot input =
      carry f h (s.link origin originSlot target targetSlot input) := by
  have hmake : ∀ (t : Session B σ) (l : Link),
      (((t.map f h).edit fun g => (g.addLink l).bump).announce l true).invalidate.changed =
        ((t.edit fun g => (g.addLink l).bump).announce l true).invalidate.changed.map f h := by
    intro t l
    have he : (t.map f h).edit (fun g => (g.addLink l).bump) =
        (t.edit fun g => (g.addLink l).bump).map f h :=
      edit_map rfl (congrArg Graph.bump (t.graph.addLink_map l))
    rw [he, announce_map _ hf, settled_map]
  unfold link
  -- first the link that fed the input goes
  cases input.link with
  | none => exact congrArg (Prod.mk _) (hmake s _)
  | some replaced =>
    simp only [unlink_map s hf]
    exact congrArg (Prod.mk _) (hmake _ _)

theorem tryConnect_map (origin : NodeId) (originSlot : Nat) (target : NodeId) (targetSlot : Nat) :
    (s.map f h).tryConnect origin originSlot target targetSlot =
      carry f h (s.tryConnect origin originSlot target targetSlot) := by
  have he : (s.map f h).graph.endpoints? origin originSlot target targetSlot =
      s.graph.endpoints? origin originSlot target targetSlot := s.graph.endpoints?_map ..
  have ha : ∀ type, (s.map f h).graph.acceptsLink target targetSlot type =
      s.graph.acceptsLink target targetSlot type := s.graph.acceptsLink_map hf target targetSlot
  unfold tryConnect
  rw [he]
  split
  · rfl
  · simp only [ha, tell_map s hf, link_map _ hf]
    split
    · rfl
    · split <;> rfl

theorem connectByName_map (origin : NodeId) (output : String) (target : NodeId) (input : String) :
    (s.map f h).connectByName origin output target input =
      carry f h (s.connectByName origin output target input) := by
  have hn : (s.map f h).graph.slotsNamed? origin output target input =
      s.graph.slotsNamed? origin output target input := s.graph.slotsNamed?_map ..
  unfold connectByName
  rw [hn]
  split
  · rfl
  · exact s.tryConnect_map hf ..

/-! ### Slots and nodes that go -/

theorem removeInput_map (id : NodeId) (slot : Nat) :
    (s.map f h).removeInput id slot = carry f h (s.removeInput id slot) := by
  have hi : (s.map f h).graph.input? id slot = s.graph.input? id slot := s.graph.input?_map id slot
  unfold removeInput
  rw [hi]
  split
  · have hd := s.beginBatch.disconnectInput_map hf (h := h) id slot
    have hd2 := congrArg Prod.snd hd
    have he : (((s.map f h).beginBatch.disconnectInput id slot).2.edit
        fun g => (g.eraseInput id slot).bump) = ((s.beginBatch.disconnectInput id slot).2.edit
          fun g => (g.eraseInput id slot).bump).map f h :=
      edit_map hd2 (congrArg Graph.bump (Graph.eraseInput_map _ id slot))
    exact congrArg (Prod.mk true) (changed_map (closed_map he))
  · rfl

theorem removeOutput_map (id : NodeId) (slot : Nat) :
    (s.map f h).removeOutput id slot = carry f h (s.removeOutput id slot) := by
  have ho : (s.map f h).graph.output? id slot = s.graph.output? id slot :=
    s.graph.output?_map id slot
  unfold removeOutput
  rw [ho]
  split
  · have hd := s.beginBatch.disconnectOutput_map hf (h := h) id slot none
    have hd2 := congrArg Prod.snd hd
    have he : (((s.map f h).beginBatch.disconnectOutput id slot none).2.edit
        fun g => (g.eraseOutput id slot).bump) = ((s.beginBatch.disconnectOutput id slot none).2.edit
          fun g => (g.eraseOutput id slot).bump).map f h :=
      edit_map hd2 (congrArg Graph.bump (Graph.eraseOutput_map _ id slot))
    exact congrArg (Prod.mk true) (changed_map (closed_map he))
  · rfl

theorem isolate_map (id : NodeId) (n : Node B) :
    (s.map f h).isolate id (n.map f) = (s.isolate id n).map f h := by
  have hin : ∀ (slots : List Nat) (s : Session B σ), slots.foldl
      (fun s slot => (s.disconnectInput id slot).2) (s.map f h) =
        (slots.foldl (fun s slot => (s.disconnectInput id slot).2) s).map f h :=
    foldl_map fun s slot => congrArg Prod.snd (s.disconnectInput_map hf id slot)
  have hout : ∀ (slots : List Nat) (s : Session B σ), slots.foldl
      (fun s slot => (s.disconnectOutput id slot none).2) (s.map f h) =
        (slots.foldl (fun s slot => (s.disconnectOutput id slot none).2) s).map f h :=
    foldl_map fun s slot => congrArg Prod.snd (s.disconnectOutput_map hf id slot none)
  have hi : linkedInputs (n.map f) = linkedInputs n := rfl
  have ho : linkedOutputs (n.map f) = linkedOutputs n := rfl
  unfold isolate
  simp only [hi, ho, hin, hout]

theorem extract_map (id : NodeId) : (s.map f h).extract id =
    Prod.map (Option.map (·.map f)) (map f h) (s.extract id) := by
  have hn : ((s.tell id .removed).map f h).graph.nodes.get? id =
      ((s.tell id .removed).graph.nodes.get? id).map (·.map f) := Graph.get?_map _ id
  unfold extract
  simp only [tell_map s hf, hn]
  cases (s.tell id .removed).graph.nodes.get? id with
  | none => rfl
  | some n =>
    exact congrArg (Prod.mk _) (edit_map rfl (congrArg Graph.bump (Graph.eraseNode_map _ id)))

theorem remove_map (id : NodeId) : (s.map f h).remove id =
    Prod.map (Option.map (·.map f)) (map f h) (s.remove id) := by
  have hn : (s.map f h).graph.nodes.get? id = (s.graph.nodes.get? id).map (·.map f) :=
    s.graph.get?_map id
  unfold remove
  rw [hn]
  cases s.graph.nodes.get? id with
  | none => rfl
  | some n =>
    have hb : (s.map f h).beginBatch = s.beginBatch.map f h := rfl
    simp only [Option.map_some, hb, isolate_map _ hf, extract_map _ hf, Prod.map_fst, Prod.map_snd]
    refine congrArg (Prod.mk _) (changed_map ?_)
    exact congrArg (·.log (.nodeRemoved id)) (closed_map rfl)

theorem clear_map : (s.map f h).clear = s.clear.map f h := by
  unfold clear
  simp only [stop_map s hf, tellEvery_map _ hf]
  exact restructure_map rfl rfl

theorem cloneNode_map (id : NodeId) : (s.map f h).cloneNode id =
    Prod.map (Option.map (·.map f)) (map f h) (s.cloneNode id) := by
  have hn : (s.map f h).graph.nodes.get? id = (s.graph.nodes.get? id).map (·.map f) :=
    s.graph.get?_map id
  have hr : (s.map f h).graph.registry = s.graph.registry.map f := rfl
  unfold cloneNode
  rw [hn]
  cases s.graph.nodes.get? id with
  | none => rfl
  | some n =>
    simp only [Option.map_some, hr, n.copy_map hf, Prod.map_fst, Prod.map_snd]
    exact congrArg (Prod.mk _) (logAll_map rfl _)

/-! ### Loaded nodes -/

theorem adopt_map (table : Renaming LinkId) (id : NodeId) (r : NodeRecord) :
    (s.map f h).adopt table id r = carry f h (s.adopt table id r) := by
  have hn : (s.map f h).graph.nodes.get? id = (s.graph.nodes.get? id).map (·.map f) :=
    s.graph.get?_map id
  unfold adopt
  rw [hn]
  cases s.graph.nodes.get? id with
  | none => rfl
  | some n =>
    let known (_ : Direction) (_ : Nat) (l : LinkId) : Option LinkId := table.get? l
    have he : (s.map f h).edit (·.modifyNode id fun _ => ((n.applyRecord r).1.map f).relink known) =
        (s.edit (·.modifyNode id fun _ => (n.applyRecord r).1.relink known)).map f h :=
      edit_map rfl (Graph.modifyNode_map rfl fun _ => rfl)
    simp only [Option.map_some, n.applyRecord_map hf, Prod.map_fst, Prod.map_snd]
    exact congrArg (Prod.mk _) (logAll_map he _)

theorem introduce_map (id : NodeId) (r : NodeRecord) :
    (s.map f h).introduce id r = (s.introduce id r).map f h := by
  have hl : (((s.map f h).graph.nodes.get? id).map (s.map f h).graph.slotLinks).getD [] =
      ((s.graph.nodes.get? id).map s.graph.slotLinks).getD [] := by
    rw [show (s.map f h).graph.nodes.get? id = (s.graph.nodes.get? id).map (·.map f) from
      s.graph.get?_map id]
    cases s.graph.nodes.get? id <;> rfl
  have hends : ∀ (links : List (Direction × Nat × Link)) (s : Session B σ), links.foldl
      (fun s e => s.tellEnd e.1 id e.2.1 true e.2.2) (s.map f h) =
        (links.foldl (fun s e => s.tellEnd e.1 id e.2.1 true e.2.2) s).map f h :=
    foldl_map fun s _ => s.tellEnd_map hf ..
  unfold introduce
  simp only [hl, hends, tell_map _ hf]

theorem adoptAll_map (table : Renaming LinkId) (placed : List (NodeId × NodeRecord)) :
    (s.map f h).adoptAll table placed = carry f h (s.adoptAll table placed) := by
  have hnext : ∀ (r : Bool × Session B σ) (e : NodeId × NodeRecord),
      adoptNext table (carry f h r) e = carry f h (adoptNext table r e) := by
    intro r e
    show (_ || ((r.2.map f h).adopt _ _ _).1, ((r.2.map f h).adopt _ _ _).2) = _
    rw [r.2.adopt_map hf]
    rfl
  have hfold : ∀ r : Bool × Session B σ, placed.foldl (adoptNext table) (carry f h r) =
      carry f h (placed.foldl (adoptNext table) r) := fun r => List.foldl_hom (carry f h) hnext
  exact hfold (false, s)

theorem introduceAll_map (placed : List (NodeId × NodeRecord)) (s : Session B σ) :
    placed.foldl (fun s e => s.introduce e.1 e.2) (s.map f h) =
      (placed.foldl (fun s e => s.introduce e.1 e.2) s).map f h :=
  foldl_map (fun s e => s.introduce_map hf e.1 e.2) placed s

omit hf [Kind B] [Kind C] in
theorem finishLoad_map (snapshot : Snapshot) :
    (s.map f h).finishLoad snapshot = (s.finishLoad snapshot).map f h := by
  let closing : Session B σ := (s.edit fun g => { g with
    groups := snapshot.groups, nextNode := max g.nextNode snapshot.nextNode }).markStale
  exact restructure_map closing.endBatch_map rfl

omit hf [Kind C] in
/-- A load, phase by phase. -/
theorem settleLoad_of {snapshot : Snapshot} {placed : List (NodeId × NodeRecord)}
    {nodes : Renaming NodeId} {report : LoadReport} {load : LinkLoad B} {adopted : Bool × Session B σ}
    {repair : Graph.Repair B} (hload : s.graph.mergeLinks nodes snapshot.links = load)
    (hadopted : (s.edit fun _ => { load.graph with
      nextLink := max load.graph.nextLink snapshot.nextLink }).adoptAll load.table placed = adopted)
    (hrepair : adopted.2.graph.repair (report.prunedLinks ++ load.pruned) = repair) :
    s.settleLoad snapshot placed nodes report =
      ({ report with
          hadErrors := report.hadErrors || !load.pruned.isEmpty || adopted.1 || repair.repaired
          prunedLinks := repair.pruned },
        (placed.foldl (fun s e => s.introduce e.1 e.2)
          (adopted.2.edit fun _ => repair.graph)).finishLoad snapshot) := by
  subst hload hadopted hrepair
  rfl

theorem settleLoad_map (snapshot : Snapshot) (placed : List (NodeId × NodeRecord))
    (nodes : Renaming NodeId) (report : LoadReport) :
    (s.map f h).settleLoad snapshot placed nodes report =
      carry f h (s.settleLoad snapshot placed nodes report) := by
  obtain ⟨load, hl⟩ : ∃ load, s.graph.mergeLinks nodes snapshot.links = load := ⟨_, rfl⟩
  have hl' : (s.map f h).graph.mergeLinks nodes snapshot.links = load.map f := by
    rw [← hl]
    exact s.graph.mergeLinks_map ..
  let merged := s.edit fun _ =>
    { load.graph with nextLink := max load.graph.nextLink snapshot.nextLink }
  obtain ⟨adopted, ha⟩ : ∃ adopted, merged.adoptAll load.table placed = adopted := ⟨_, rfl⟩
  have ha' := merged.adoptAll_map (h := h) hf load.table placed
  rw [ha] at ha'
  obtain ⟨repair, hr⟩ : ∃ repair,
    adopted.2.graph.repair (report.prunedLinks ++ load.pruned) = repair := ⟨_, rfl⟩
  have hr' : (adopted.2.map f h).graph.repair (report.prunedLinks ++ load.pruned) = repair.map f := by
    rw [← hr]
    exact adopted.2.graph.repair_map _
  let repaired := adopted.2.edit fun _ => repair.graph
  have hrepaired : (adopted.2.map f h).edit (fun _ => (repair.map f).graph) = repaired.map f h :=
    edit_map rfl rfl
  have hend := finishLoad_map (f := f) (h := h)
    (placed.foldl (fun s e => s.introduce e.1 e.2) repaired) snapshot
  rw [← introduceAll_map hf placed, ← hrepaired] at hend
  rw [settleLoad_of s hl ha hr, settleLoad_of (s.map f h) hl' ha' hr']
  exact congrArg (Prod.mk _) hend

end Kind

end Session

/-! ## Edits -/

namespace Edit

/-- The answer of an edit, with the behaviours of a node in it mapped. -/
def mapAnswer (f : B → C) (e : Edit) : e.Answer B → e.Answer C :=
  match e with
  | remove _ | cloneNode _ => Option.map (Node.map f)
  | tryConnect .. | connectByName .. | disconnectInput .. | disconnectOutput .. | removeLink _
  | removeInput .. | removeOutput .. | setProperty .. | declareProperty .. | change ..
  | setOutputData .. | setTerminalValue .. | renameTerminal .. | retypeTerminal ..
  | removeTerminal .. | addInput .. | addOutput .. | addGroup _ | removeGroup _ | setConfig ..
  | removeConfig _ | clear | renameSlot .. | storeProperty .. | align .. | clearTriggered ..
  | clearAllTriggered | arrange _ | beginBatch | endBatch | updateOrder | start | stop
  | addTerminal .. | setSettings _ => fun a => a

variable [Kind B] [Kind C] (hf : Unnoticed f)
include hf

omit [Kind B] [Kind C] hf in
/-- An edit that only changes the graph. -/
theorem silent_map {s : Session B σ} {c : Graph B → Graph B} {d : Graph C → Graph C}
    (hg : d (s.graph.map f) = (c s.graph).map f) :
    (((), (s.map f h).edit d) : Unit × Session C τ) = ((), (s.edit c).map f h) :=
  congrArg (Prod.mk ()) (Session.edit_map rfl hg)

omit hf in
theorem removeGroup_map (s : Session B σ) (i : Nat) : apply (s.map f h) (removeGroup i) =
    Session.carry f h (apply s (removeGroup i)) := by
  have hg : takeGroup (s.map f h).graph.groups i = takeGroup s.graph.groups i := rfl
  unfold apply
  simp only [hg]
  cases takeGroup s.graph.groups i with
  | none => rfl
  | some taken => exact congrArg (Prod.mk _) (Session.restructure_map rfl rfl)

/-- No edit notices a map that behaviours do not notice. -/
theorem apply_map (s : Session B σ) (e : Edit) :
    e.apply (s.map f h) = Prod.map (e.mapAnswer f) (Session.map f h) (e.apply s) := by
  cases e with
  | remove id => exact s.remove_map hf id
  | clear => exact congrArg (Prod.mk ()) (s.clear_map hf)
  | tryConnect origin originSlot target targetSlot => exact s.tryConnect_map hf ..
  | connectByName origin output target input => exact s.connectByName_map hf ..
  | disconnectInput id slot => exact s.disconnectInput_map hf id slot
  | disconnectOutput id slot target => exact s.disconnectOutput_map hf id slot target
  | removeLink id => exact s.removeLink_map hf id
  | addInput id name type => exact s.addInput_map id name type
  | addOutput id name type => exact s.addOutput_map id name type
  | removeInput id slot => exact s.removeInput_map hf id slot
  | removeOutput id slot => exact s.removeOutput_map hf id slot
  | renameSlot d id slot name => exact congrArg (Prod.mk ()) (s.renameSlot_map d id slot name)
  | setProperty id name value => exact s.setProperty_map hf id name value
  | storeProperty id name value => exact congrArg (Prod.mk ()) (s.storeProperty_map id name value)
  | declareProperty id info => exact s.declareProperty_map id info
  | change id c => exact s.change_map id c
  | align id grid => exact silent_map (Graph.modifyNode_map rfl fun n => n.alignToGrid_map grid)
  | setOutputData id slot value => exact s.setOutputData_map id slot value
  | clearTriggered id slot only => exact silent_map (s.graph.clearTriggered_map id slot only)
  | clearAllTriggered => exact silent_map rfl
  | addGroup group => exact congrArg (Prod.mk _) (Session.restructure_map rfl rfl)
  | removeGroup i => exact removeGroup_map s i
  | arrange margin =>
    exact congrArg (Prod.mk ()) (Session.restructure_map rfl (s.graph.arrange_map margin))
  | beginBatch => rfl
  | endBatch => exact congrArg (Prod.mk ()) s.endBatch_map
  | updateOrder => exact silent_map s.graph.updateOrder_map
  | start => exact congrArg (Prod.mk ()) (s.start_map hf)
  | stop => exact congrArg (Prod.mk ()) (s.stop_map hf)
  | addTerminal d name type value =>
    exact congrArg (Prod.mk ()) (s.addTerminal_map d name type value)
  | setTerminalValue d name value => exact s.setTerminalValue_map d name value
  | renameTerminal d old new => exact s.renameTerminal_map d old new
  | retypeTerminal d name type => exact s.retypeTerminal_map d name type
  | removeTerminal d name => exact s.removeTerminal_map d name
  | setConfig key value => exact congrArg (Prod.mk _) (Session.edit_map rfl rfl)
  | removeConfig key => exact congrArg (Prod.mk _) (Session.edit_map rfl rfl)
  | setSettings settings => exact silent_map rfl
  | cloneNode id => exact s.cloneNode_map hf id

end Edit

end Dataflow
