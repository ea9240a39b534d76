/-
  What the standard nodes do.

  The bodies of the catalog edit the graph, and one of them sends events.  They neither add nodes
  nor load snapshots, and nothing they do depends on the answers they get.  So they obey every
  contract that allows the few edits they make and the sending of events.

  Bringing a terminal in step with its node, which is all that happens when a node is added, makes
  the edits of a bridge (`BridgeEdit`): it writes no property but the name, and it names no slot
  but the first one inside of its own node.  The edits that all bodies make are few as well
  (`PlainEdit`); together they say what each behaviour makes (`Makes`).
-/

import Dataflow.Catalog
import Dataflow.Proofs.Run

namespace Dataflow.Catalog

open Body

variable {B σ : Type} {K : Contract B}

/-! ## Edits -/

/-- The edits that bring a terminal in step with a node. -/
def SyncEdit (id : NodeId) : Edit → Prop
  | .storeProperty i name _ => i = id ∧ name = "name"
  | .renameTerminal .. | .addTerminal .. | .retypeTerminal .. | .renameSlot .. => True
  | _ => False

/-- The edits that bodies make. -/
def BodyEdit : Edit → Prop
  | .storeProperty .. | .renameTerminal .. | .addTerminal .. | .retypeTerminal .. | .renameSlot ..
  | .setOutputData .. | .setTerminalValue .. => True
  | _ => False

/-- The edits that bring a terminal of one direction in step with a node. -/
def BridgeEdit (d : Direction) (id : NodeId) : Edit → Prop
  | .storeProperty i name _ => i = id ∧ name = "name"
  | .renameTerminal side .. | .addTerminal side .. | .retypeTerminal side .. => side = d
  | .renameSlot side i slot _ => side = inside d ∧ i = id ∧ slot = 0
  | _ => False

/-- The edits that the body of a node makes for other ends than keeping a terminal in step. -/
def PlainEdit (id : NodeId) : Edit → Prop
  | .storeProperty i .. | .setOutputData i .. => i = id
  | .setTerminalValue .. => True
  | _ => False

/-- The edits that the body of a behaviour makes. -/
def Makes (b : Catalog) (id : NodeId) (e : Edit) : Prop :=
  PlainEdit id e ∨ ∃ d registered, b = bridge d registered ∧ BridgeEdit d id e

theorem BridgeEdit.sync {d : Direction} {id : NodeId} {e : Edit} (h : BridgeEdit d id e) :
    SyncEdit id e := by
  cases e <;> first | exact h | trivial

theorem SyncEdit.body {id : NodeId} {e : Edit} (h : SyncEdit id e) : BodyEdit e := by
  cases e <;> trivial

theorem Makes.body {b : Catalog} {id : NodeId} {e : Edit} (h : b.Makes id e) : BodyEdit e := by
  obtain h | ⟨d, registered, -, h⟩ := h
  · cases e <;> trivial
  · exact h.sync.body

/-! ## Pieces of bodies -/

theorem obeys_edit {allowed : Edit → Prop} (ha : ∀ e, allowed e → K.allows (.edit e)) {e : Edit}
    (h : allowed e) : (Body.edit e : Body B σ _).Obeys K := ⟨ha e h, fun _ _ => trivial⟩

section Sync

variable {d : Direction} {id : NodeId} (hs : ∀ e, BridgeEdit d id e → K.allows (.edit e))
include hs

theorem obeys_settleName (name : String) : (settleName d id name : Body B σ String).Obeys K := by
  unfold settleName
  split
  · exact (obeys_edit hs (by exact ⟨rfl, rfl⟩)).seq fun _ => trivial
  · trivial

theorem obeys_sync (registered : Option String) : (sync d registered id : Body B σ _).Obeys K := by
  unfold sync
  refine obeys_graph.seq fun g => ?_
  cases wanted? g id with
  | none => trivial
  | some asked =>
    refine (obeys_settleName hs asked.1).seq fun name => ?_
    extract_lets finish register
    have hf : ∀ u, (finish u).Obeys K := fun u =>
      (obeys_edit hs (by trivial)).seq fun _ =>
        (obeys_edit hs (by exact ⟨rfl, rfl, rfl⟩)).seq fun _ => trivial
    have hr : ∀ u, (register u).Obeys K := by
      intro u
      refine obeys_graph.seq fun g => ?_
      cases (g.terminals d).contains name with
      | true => exact hf ()
      | false => exact (obeys_edit hs (by trivial)).seq fun _ => hf ()
    cases registered with
    | none => exact hr ()
    | some old =>
      show Obeys K (ite _ _ _)
      split
      · exact (obeys_edit hs (by trivial)).seq fun _ => hr ()
      · exact hr ()

end Sync

variable {id : NodeId} (he : ∀ e, PlainEdit id e → K.allows (.edit e))
include he

theorem obeys_write (slot : Nat) (value : Value) :
    (Body.write id slot value : Body B σ Unit).Obeys K :=
  (obeys_edit he (by trivial)).seq fun _ => trivial

theorem obeys_carry (d : Direction) (name : String) :
    (carry d name id : Body B σ Unit).Obeys K := by
  unfold carry
  refine obeys_graph.seq fun g => ?_
  cases d with
  | input =>
    cases g.terminalValue? .input name with
    | none => trivial
    | some v => exact obeys_write he 0 v
  | output =>
    cases g.inputData? id 0 with
    | none => trivial
    | some v => exact (obeys_edit he (by trivial)).seq fun _ => trivial

theorem obeys_syncAndCarry {d : Direction}
    (hs : ∀ e, BridgeEdit d id e → K.allows (.edit e)) (registered : Option String) :
    (syncAndCarry d registered id : Body B σ _).Obeys K := by
  refine (obeys_sync hs registered).seq fun registered => ?_
  cases registered with
  | none => trivial
  | some name => exact (obeys_carry he d name).seq fun _ => trivial

theorem obeys_showInput : (showInput id : Body B σ Unit).Obeys K := by
  unfold showInput
  refine obeys_graph.seq fun g => ?_
  extract_lets value
  cases holdsAlready (g.property? id "value") value with
  | true => trivial
  | false => exact obeys_edit he (by trivial)

/-! ## Bodies -/

omit he in
theorem obeys_emit (ht : ∀ slot payload only, K.allows (.triggerSlot id slot payload only)) :
    (emit id : Body B σ Ending).Obeys K := by
  intro g h _
  refine ⟨ht _ _ _, fun answer _ => ?_⟩
  cases answer with
  | error e => trivial
  | ok n => trivial

theorem obeys_execute (b : Catalog) (payload : Option Value)
    (ht : b = emitter → ∀ slot payload only, K.allows (.triggerSlot id slot payload only)) :
    (b.execute id payload : Body B σ Ending).Obeys K := by
  cases b with
  | inert => trivial
  | constant => exact fun g h _ => Body.Obeys.after fun x => obeys_write he 0 _
  | watch => exact (obeys_showInput he).seq fun _ => trivial
  | sum => exact fun g h _ => Body.Obeys.after fun x => obeys_write he 0 _
  | emitter => exact obeys_emit (ht rfl)
  | counter => exact fun g h _ => (obeys_write he 0 _).seq fun _ => trivial
  | recorder => exact fun g h _ => (obeys_edit he (by trivial)).seq fun _ => trivial
  | bridge d registered => trivial
  | source rank => exact fun g h _ => Body.Obeys.after fun shape => obeys_write he 0 _
  | layer rule =>
    refine obeys_graph.seq fun g => ?_
    cases g.inputData? id 0 with
    | none => trivial
    | some value => exact Body.Obeys.after fun shape => obeys_write he 0 _

theorem obeys_count (action : String) :
    (count id action : Body B σ Ending).Obeys K := by
  intro g h _
  refine Body.Obeys.after fun x => ?_
  split
  · exact obeys_edit he (by trivial)
  · trivial

omit he in
/-- The body of a behaviour obeys every contract that allows the edits it makes and, if it sends
events, the sending of them. -/
theorem obeys_body (b : Catalog) (id : NodeId) (hm : ∀ e, b.Makes id e → K.allows (.edit e))
    (ht : b = emitter → ∀ slot payload only, K.allows (.triggerSlot id slot payload only))
    (task : Task) : (b.body id task : Body B σ _).Obeys K := by
  have hp : ∀ e, PlainEdit id e → K.allows (.edit e) := fun e he => hm e (.inl he)
  unfold body
  split
  · next d registered =>
    exact (obeys_sync (fun e he => hm e (.inr ⟨d, registered, rfl, he⟩)) _).seq fun _ => trivial
  · next d registered _ =>
    exact (obeys_syncAndCarry hp (fun e he => hm e (.inr ⟨d, registered, rfl, he⟩)) _).seq
      fun _ => trivial
  · exact (obeys_count hp _).seq fun _ => trivial
  · exact (obeys_execute hp b _ ht).seq fun _ => trivial
  · trivial

omit he in
/-- So does the program that the engine runs for it. -/
theorem obeys_makes {K : Contract Catalog} {b : Catalog} {id : NodeId}
    (hm : ∀ e, b.Makes id e → K.allows (.edit e))
    (ht : b = emitter → ∀ slot payload only, K.allows (.triggerSlot id slot payload only))
    (task : Task) : (Behavior.body b id task : Body Catalog Unit (Outcome Catalog)).Obeys K :=
  (obeys_body b id hm ht task).seq fun _ => trivial

omit he in
/-- The bodies of the catalog obey every contract that allows their edits and the sending of
events. -/
theorem obeys_behavior {K : Contract Catalog} (he : ∀ e, BodyEdit e → K.allows (.edit e))
    (ht : ∀ id slot payload only, K.allows (.triggerSlot id slot payload only)) (b : Catalog)
    (id : NodeId) (task : Task) :
    (Behavior.body b id task : Body Catalog Unit (Outcome Catalog)).Obeys K :=
  obeys_makes (fun e h => he e h.body) (fun _ => ht id) task

omit he in
/-- When a standard node is added, nothing happens but that a bridge brings its terminal in step. -/
theorem obeys_added {K : Contract Catalog} (b : Catalog) {id : NodeId}
    (hs : ∀ e, SyncEdit id e → K.allows (.edit e)) :
    (Behavior.body b id .added : Body Catalog Unit (Outcome Catalog)).Obeys K := by
  refine Body.Obeys.seq ?_ fun _ => trivial
  cases b with
  | bridge d registered => exact (obeys_sync (fun e h => hs e h.sync) registered).seq fun _ => trivial
  | _ => trivial

end Dataflow.Catalog
