/-
  What a refused operation leaves behind.

  Most operations can be refused: the node, slot, link, group or terminal that they name may not
  exist, a limit may be reached, a type or a behaviour may object.  The answer of an operation
  tells (`Call.Refuses`).  A refused operation gives the session back that it was given, with
  one exception: before a link is made, the behaviour of its target is asked, and it may remember
  that, whatever becomes of the link.  So after a refusal the graph is as before, what a behaviour
  keeps to itself aside (`refused_unchanged`).
-/

import Dataflow.Catalog
import Dataflow.Proofs.Phases
import Dataflow.Proofs.Sound

namespace Dataflow

variable {B σ : Type}

/-! ## Refusals -/

/-- Whether the answer of an edit says that it was refused. -/
def Edit.Refuses : (e : Edit) → e.Answer B → Prop
  | remove _ | cloneNode _ => fun (n : Option (Node B)) => n = none
  | tryConnect .. | connectByName .. => fun (l : Except ConnectionError LinkId) =>
    ∃ e, l = .error e
  | disconnectInput .. | disconnectOutput .. | removeLink _ | removeInput .. | removeOutput ..
  | setProperty .. | declareProperty .. | change .. | setOutputData .. | setTerminalValue ..
  | renameTerminal .. | retypeTerminal .. | removeTerminal .. => fun (done : Bool) => done = false
  | addInput .. | addOutput .. => fun (slot : Option Nat) => slot = none
  | removeGroup _ => fun (group : Option Group) => group = none
  | addGroup _ | setConfig .. | removeConfig _ | clear | renameSlot .. | storeProperty .. | align ..
  | clearTriggered .. | clearAllTriggered | arrange _ | beginBatch | endBatch | updateOrder | start
  | stop | addTerminal .. | setSettings _ => fun _ => False

/-- Whether a call to a graph was refused: its answer says so, or the node that it should run or
trigger is not there. -/
def Call.Refuses (g : Graph B) : (c : Call B) → c.Answer → Prop
  | .edit e => e.Refuses
  | .add _ => fun (id : Except GraphError NodeId) => ∃ e, id = .error e
  | .execute id | .triggerSlot id .. | .trigger id .. => fun _ => g.nodes.get? id = none
  | .load .. | .pull .. | .runStep .. => fun _ => False

/-- Whether an edit asks a behaviour before it is refused. -/
def Edit.asks : Edit → Bool
  | tryConnect .. | connectByName .. => true
  | _ => false

/-- Whether a call asks a behaviour before it is refused. -/
def Call.asks : Call B → Bool
  | .edit e => e.asks
  | _ => false

/-- The graph with every behaviour taken out of its node. -/
def Graph.stilled (g : Graph B) : Graph B := { g with nodes := g.still }

namespace Session

/-- A session is as another was, but that a behaviour may have been asked about a link. -/
inductive Spared [Kind B] (s : Session B σ) : Session B σ → Prop where
  | same : s.Spared s
  | asked (target : NodeId) (slot : Nat) (type : SlotType) :
    s.Spared (s.tell target (.linkOffered slot type))

/-! ## Telling a behaviour -/

section Tell

variable [Kind B] (s : Session B σ) (id : NodeId) (notice : Notice)

theorem stilled_tell : (s.tell id notice).graph.stilled = s.graph.stilled := by
  have htold := s.told_tell id notice
  unfold Graph.stilled
  rw [htold.still, htold.rest]

theorem host_tell : (s.tell id notice).host = s.host := by
  unfold tell
  split <;> rfl

/-- Behaviours that forget what they are told leave no trace in the graph. -/
theorem graph_tell (h : ∀ b : B, Kind.told b notice = b) : (s.tell id notice).graph = s.graph := by
  unfold tell
  split
  · next n hn =>
    have ht : (n.tell notice).1 = n := by
      unfold Node.tell
      split
      · next b hb => rw [h b, ← hb]
      · rfl
    show { s.graph with nodes := s.graph.nodes.modify id fun _ => (n.tell notice).1 } = s.graph
    rw [ht, Assoc.modify_eq_self fun m hm => Option.some.inj (hn.symm.trans hm)]
  · rfl

end Tell

/-- A spared session has the graph and the host it had, what behaviours remember aside. -/
theorem Spared.kept [Kind B] {s s' : Session B σ} (h : s.Spared s') :
    s'.graph.stilled = s.graph.stilled ∧ s'.host = s.host ∧
      ((∀ (b : B) slot type, Kind.told b (.linkOffered slot type) = b) → s'.graph = s.graph) := by
  cases h with
  | same => exact ⟨rfl, rfl, fun _ => rfl⟩
  | asked target slot type =>
    exact ⟨s.stilled_tell .., s.host_tell .., fun h => s.graph_tell _ _ fun b => h b slot type⟩

/-! ## Removing a node finds it -/

section Keys

variable [Kind B] (s : Session B σ)

theorem keys_tell (id : NodeId) (notice : Notice) :
    (s.tell id notice).graph.nodes.keys = s.graph.nodes.keys :=
  Graph.keys_nodes_of_wiring (Graph.wiring_of_skeleton (s.skeleton_tell id notice))

omit [Kind B] in
theorem keys_invalidate (s : Session B σ) : s.invalidate.graph.nodes.keys = s.graph.nodes.keys :=
  Graph.keys_nodes_of_wiring s.wiring_invalidate

theorem keys_unlink (id : LinkId) : (s.unlink id).graph.nodes.keys = s.graph.nodes.keys := by
  unfold unlink
  split
  · next l hl =>
    refine (Graph.keys_nodes_of_wiring (Graph.wiring_of_skeleton (skeleton_announce ..))).trans ?_
    exact (Assoc.keys_modify ..).trans (Assoc.keys_modify ..)
  · rfl

omit [Kind B] in
/-- What keeps the nodes of a graph does so any number of times. -/
theorem keys_foldl {α : Type} {f : Session B σ → α → Session B σ}
    (h : ∀ s a, (f s a).graph.nodes.keys = s.graph.nodes.keys) (as : List α) (s : Session B σ) :
    (as.foldl f s).graph.nodes.keys = s.graph.nodes.keys := by
  induction as generalizing s with
  | nil => rfl
  | cons a as ih => exact (ih (f s a)).trans (h s a)

theorem keys_disconnectInput (id : NodeId) (slot : Nat) :
    (s.disconnectInput id slot).2.graph.nodes.keys = s.graph.nodes.keys := by
  unfold disconnectInput
  split
  · next l hl => exact (keys_invalidate _).trans (s.keys_unlink l)
  · rfl

theorem keys_disconnectOutput (id : NodeId) (slot : Nat) (target : Option NodeId) :
    (s.disconnectOutput id slot target).2.graph.nodes.keys = s.graph.nodes.keys := by
  unfold disconnectOutput
  split
  · rfl
  · next ls hls => exact (keys_invalidate _).trans (keys_foldl keys_unlink _ s)

theorem keys_isolate (id : NodeId) (n : Node B) :
    (s.isolate id n).graph.nodes.keys = s.graph.nodes.keys :=
  (keys_foldl (fun s slot => s.keys_disconnectOutput id slot none) _ _).trans
    (keys_foldl (fun s slot => s.keys_disconnectInput id slot) _ s)

theorem extract_isSome {id : NodeId} (h : id ∈ s.graph.nodes.keys) :
    (s.extract id).1.isSome = true := by
  rw [← s.keys_tell id .removed] at h
  obtain ⟨n, hn⟩ := Assoc.mem_keys_iff.1 h
  simp only [extract, hn]
  rfl

theorem remove_isSome {id : NodeId} (h : id ∈ s.graph.nodes.keys) :
    (s.remove id).1.isSome = true := by
  obtain ⟨n, hn⟩ := Assoc.mem_keys_iff.1 h
  unfold remove
  rw [hn]
  apply extract_isSome
  rwa [keys_isolate]

end Keys

end Session

/-! ## Refused edits -/

/-- What is not there cannot be changed. -/
theorem Assoc.modify_missing {κ α : Type} [DecidableEq κ] {m : Assoc κ α} {k : κ}
    (h : m.contains k = false) (f : α → α) : m.modify k f = m := by
  apply Assoc.modify_eq_self
  intro v hv
  rw [Assoc.contains_eq_isSome, hv] at h
  cases h

theorem Graph.setOutputData_missing {g : Graph B} {id : NodeId} {slot : Nat}
    (h : (g.output? id slot).isSome = false) (value : Value) : g.setOutputData id slot value = g := by
  rw [Option.isSome_eq_false_iff, Option.isNone_iff_eq_none] at h
  unfold setOutputData
  rw [h]

section Edits

variable [Kind B] {s : Session B σ}

namespace Session

/-- A node that was there is found when it is removed, whatever behaviours are told before. -/
theorem remove_missing {id : NodeId} (h : (s.remove id).1 = none) : (s.remove id).2 = s := by
  have hid : s.graph.nodes.get? id = none := by
    rw [Assoc.get?_eq_none_iff]
    intro hid
    have hsome := s.remove_isSome hid
    rw [h] at hsome
    cases hsome
  unfold remove
  rw [hid]

theorem spared_tryConnect {origin target : NodeId} {originSlot targetSlot : Nat}
    {e : ConnectionError} (h : (s.tryConnect origin originSlot target targetSlot).1 = .error e) :
    s.Spared (s.tryConnect origin originSlot target targetSlot).2 := by
  unfold tryConnect at h ⊢
  split
  · exact .same
  · next output input hp =>
    rw [hp] at h
    simp only at h ⊢
    split
    · exact .asked target targetSlot output.type
    · next ha =>
      rw [if_neg ha] at h
      split
      · exact .asked target targetSlot output.type
      · next ht =>
        rw [if_neg ht] at h
        cases h

theorem spared_connectByName {origin target : NodeId} {output input : String}
    {e : ConnectionError} (h : (s.connectByName origin output target input).1 = .error e) :
    s.Spared (s.connectByName origin output target input).2 := by
  unfold connectByName at h ⊢
  split
  · exact .same
  · next originSlot targetSlot hp =>
    rw [hp] at h
    exact spared_tryConnect h

end Session

/-- An edit that asks no behaviour gives the session back when it is refused. -/
theorem Edit.unchanged_of_refuses {e : Edit} (ha : e.asks = false) :
    e.Refuses (e.apply s).1 → (e.apply s).2 = s := by
  -- each operation looks for what it needs before it changes anything
  cases e with
  | tryConnect | connectByName => cases ha
  | remove id =>
    exact Session.remove_missing
  | cloneNode id =>
    show (s.cloneNode id).1 = none → (s.cloneNode id).2 = s
    unfold Session.cloneNode
    split
    · exact fun h => by cases h
    · exact fun _ => rfl
  | disconnectInput id slot =>
    show (s.disconnectInput id slot).1 = false → (s.disconnectInput id slot).2 = s
    unfold Session.disconnectInput
    split
    · exact fun h => by cases h
    · exact fun _ => rfl
  | disconnectOutput id slot target =>
    show (s.disconnectOutput id slot target).1 = false → (s.disconnectOutput id slot target).2 = s
    unfold Session.disconnectOutput
    split
    · exact fun _ => rfl
    · exact fun h => by cases h
  | removeLink id =>
    show (s.removeLink id).1 = false → (s.removeLink id).2 = s
    unfold Session.removeLink
    split
    · exact fun h => by cases h
    · exact fun _ => rfl
  | addInput id name type =>
    show (s.addInput id name type).1 = none → (s.addInput id name type).2 = s
    unfold Session.addInput
    split
    · exact fun h => by cases h
    · exact fun _ => rfl
  | addOutput id name type =>
    show (s.addOutput id name type).1 = none → (s.addOutput id name type).2 = s
    unfold Session.addOutput
    split
    · exact fun h => by cases h
    · exact fun _ => rfl
  | removeInput id slot =>
    show (s.removeInput id slot).1 = false → (s.removeInput id slot).2 = s
    unfold Session.removeInput
    split
    · exact fun h => by cases h
    · exact fun _ => rfl
  | removeOutput id slot =>
    show (s.removeOutput id slot).1 = false → (s.removeOutput id slot).2 = s
    unfold Session.removeOutput
    split
    · exact fun h => by cases h
    · exact fun _ => rfl
  | setProperty id name value =>
    show (s.setProperty id name value).1 = false → (s.setProperty id name value).2 = s
    unfold Session.setProperty
    split
    · exact fun h => by cases h
    · exact fun _ => rfl
  | declareProperty id info =>
    intro h
    show { s with graph := { s.graph with nodes := s.graph.nodes.modify id _ } } = s
    rw [Assoc.modify_missing h]
  | change id c =>
    show (s.change id c).1 = false → (s.change id c).2 = s
    unfold Session.change
    split
    · exact fun h => by cases h
    · exact fun _ => rfl
  | setOutputData id slot value =>
    intro h
    show { s with graph := s.graph.setOutputData id slot value } = s
    rw [Graph.setOutputData_missing h]
  | setTerminalValue d name value =>
    intro h
    show { s with graph := s.graph.withTerminals d ((s.graph.terminals d).modify name _) } = s
    rw [Assoc.modify_missing h]
    cases d <;> rfl
  | renameTerminal d old new =>
    show (s.renameTerminal d old new).1 = false → (s.renameTerminal d old new).2 = s
    unfold Session.renameTerminal
    simp only
    split
    · exact fun h => by cases h
    · exact fun _ => rfl
  | retypeTerminal d name type =>
    show (s.retypeTerminal d name type).1 = false → (s.retypeTerminal d name type).2 = s
    unfold Session.retypeTerminal
    simp only
    split
    · split
      · exact fun _ => rfl
      · exact fun h => by cases h
    · exact fun _ => rfl
  | removeTerminal d name =>
    show (s.removeTerminal d name).1 = false → (s.removeTerminal d name).2 = s
    unfold Session.removeTerminal
    simp only
    split
    · exact fun h => by cases h
    · exact fun _ => rfl
  | removeGroup i =>
    show (Edit.apply s (.removeGroup i)).1 = none → (Edit.apply s (.removeGroup i)).2 = s
    simp only [Edit.apply]
    split
    · exact fun h => by cases h
    · exact fun _ => rfl
  | _ => exact fun h => h.elim

/-- A refused edit spares the session. -/
theorem Edit.spared_of_refuses {e : Edit} (h : e.Refuses (e.apply s).1) : s.Spared (e.apply s).2 := by
  cases ha : e.asks with
  | false =>
    rw [Edit.unchanged_of_refuses ha h]
    exact .same
  | true =>
    cases e with
    | tryConnect =>
      obtain ⟨e, he⟩ := h
      exact Session.spared_tryConnect he
    | connectByName =>
      obtain ⟨e, he⟩ := h
      exact Session.spared_connectByName he
    | _ => cases ha

end Edits

/-! ## Refused calls -/

namespace Engine

variable [Behavior B σ] {run : Runner B σ} {s s' : Session B σ}

/-- A graph with as many nodes as it may have refuses another. -/
theorem insertNode_full (h : s.graph.settings.maxNodes ≤ s.graph.nodes.size) (n : Node B)
    (refresh : Bool) : insertNode run n refresh s =
      some (.error (.nodeLimitExceeded s.graph.settings.maxNodes), s) := by
  unfold insertNode
  rw [get_bind_apply]
  simp only [if_pos h]
  rfl

/-- Once there is room for a node, adding it does not fail. -/
theorem insertNode_refused (n : Node B) (refresh : Bool) :
    Ensures (insertNode run n refresh) s fun a s' => (∃ e, a = .error e) → s' = s := by
  apply Ensures.get_bind
  show Ensures (ite _ _ _) s _
  split
  · exact Ensures.pure fun _ => rfl
  · apply Ensures.set_bind
    apply Ensures.bind
    intro ending t _
    apply Ensures.modify_bind
    apply Ensures.pure
    rintro ⟨e, he⟩
    cases he

section Missing

variable {id : NodeId} (h : s.graph.nodes.get? id = none)
include h

theorem runBody_missing (payload : Option Value) :
    runBody run id payload s = some (.error (.nodeNotFound id), s) := by
  unfold runBody
  rw [get_bind_apply, h]
  rfl

theorem triggerSlot_missing (slot : Nat) (payload : Value) (only : Option LinkId) :
    triggerSlot run id slot payload only s = some (.error (.nodeNotFound id), s) := by
  unfold triggerSlot
  rw [get_bind_apply, h]
  rfl

theorem trigger_missing (action : Option String) (payload : Value) :
    trigger run id action payload s = some (.error (.nodeNotFound id), s) := by
  unfold trigger
  rw [get_bind_apply, h]
  rfl

end Missing

/-- A refused call spares the session, and gives it back as it is unless it asks a behaviour. -/
theorem spared_of_refuses {c : Call B} {a : c.Answer} (hr : perform run c s = some (a, s'))
    (h : c.Refuses s.graph a) : s.Spared s' ∧ (c.asks = false → s' = s) := by
  have hsame : s' = s → s.Spared s' ∧ (c.asks = false → s' = s) :=
    fun h => ⟨h ▸ .same, fun _ => h⟩
  cases c with
  | edit e =>
    obtain ⟨rfl, rfl⟩ := Prod.mk.inj (Option.some.inj hr)
    exact ⟨Edit.spared_of_refuses h, fun ha => Edit.unchanged_of_refuses ha h⟩
  | add n => exact hsame (insertNode_refused n true a s' hr h)
  | execute id =>
    exact hsame (Prod.mk.inj (Option.some.inj (hr.symm.trans (runBody_missing h none)))).2
  | triggerSlot id slot payload only =>
    exact hsame (Prod.mk.inj (Option.some.inj
      (hr.symm.trans (triggerSlot_missing h slot payload only)))).2
  | trigger id action payload =>
    exact hsame (Prod.mk.inj (Option.some.inj (hr.symm.trans (trigger_missing h action payload)))).2
  | load | pull | runStep => exact h.elim

/-- Whatever the graph is, a refused call leaves it as it was: nodes with their slots and
properties, links, groups, terminals, counters, version, open batches and the cached order.  Only
a behaviour that was asked about a link may remember that; a call that asks none gives the very
session back.  To run or trigger a node that is not there is refused, and so is a node more than
the limit. -/
theorem refused_unchanged (run : Runner B σ) (s : Session B σ) :
    (∀ (c : Call B) a s', perform run c s = some (a, s') → c.Refuses s.graph a →
        s.Spared s' ∧ s'.graph.stilled = s.graph.stilled ∧ s'.host = s.host ∧
          (c.asks = false → s' = s) ∧
          ((∀ (b : B) slot type, Kind.told b (.linkOffered slot type) = b) →
            s'.graph = s.graph)) ∧
      (∀ id, s.graph.nodes.get? id = none →
        perform run (.execute id) s = some (.error (.nodeNotFound id), s) ∧
          (∀ action payload, perform run (.trigger id action payload) s =
            some (.error (.nodeNotFound id), s)) ∧
          ∀ slot payload only, perform run (.triggerSlot id slot payload only) s =
            some (.error (.nodeNotFound id), s)) ∧
      (s.graph.settings.maxNodes ≤ s.graph.nodes.size → ∀ n, perform run (.add n) s =
        some (.error (.nodeLimitExceeded s.graph.settings.maxNodes), s)) := by
  refine ⟨fun c a s' hr h => ?_, fun id h => ⟨?_, fun action payload => ?_, fun slot payload only => ?_⟩,
    fun h n => insertNode_full h n true⟩
  · obtain ⟨hspared, hsame⟩ := spared_of_refuses hr h
    obtain ⟨hgraph, hhost, hforgets⟩ := hspared.kept
    exact ⟨hspared, hgraph, hhost, hsame, hforgets⟩
  · exact runBody_missing h none
  · exact trigger_missing h action payload
  · exact triggerSlot_missing h slot payload only

end Engine

/-- Two nodes, added in a batch that is still open, whose slots do not fit together. -/
def unfitting : Body Catalog Unit Unit := do
  Body.edit .beginBatch
  let _ ← Body.perform (.add
    { (Node.new "source" : Node Catalog) with outputs := [.new "out" Catalog.numbers] })
  let _ ← Body.perform (.add
    { (Node.new "sink" : Node Catalog) with inputs := [.new "in" Catalog.tensors] })

/-- A link between slots that do not fit is refused, and the graph with its open batch stays. -/
theorem unfitting_unchanged : ∃ s s' : Session Catalog Unit,
    Engine.exec 1 unfitting ⟨Graph.empty ∅ .default, [], ()⟩ = some ((), s) ∧
      s.graph.batchDepth = 1 ∧ s.graph.stale = true ∧
      Engine.perform (Engine.runner 1) (.edit (.tryConnect ⟨1⟩ 0 ⟨2⟩ 0)) s =
        some (.error (.typeMismatch Catalog.numbers Catalog.tensors), s') ∧
      s'.graph = s.graph := by
  obtain ⟨s, hs, hbatch, hstale, s', hr⟩ : ∃ s : Session Catalog Unit,
      Engine.exec 1 unfitting ⟨Graph.empty ∅ .default, [], ()⟩ = some ((), s) ∧
      s.graph.batchDepth = 1 ∧ s.graph.stale = true ∧ ∃ s',
      Engine.perform (Engine.runner 1) (.edit (.tryConnect ⟨1⟩ 0 ⟨2⟩ 0)) s =
        some (.error (.typeMismatch Catalog.numbers Catalog.tensors), s') :=
    ⟨_, rfl, rfl, rfl, _, rfl⟩
  have hu := (Engine.refused_unchanged (Engine.runner 1) s).1 _ _ s' hr ⟨_, rfl⟩
  exact ⟨s, s', hs, hbatch, hstale, hr, hu.2.2.2.2 fun _ _ _ => rfl⟩

end Dataflow
