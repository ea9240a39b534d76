/-
  What the body of a node does, as a program.

  A body looks at the graph, calls operations on it, and in the end gives its behaviour back with
  a result.  It is a finite tree: every path through it is finite, so a body by itself always
  ends.  What the operations do is the business of the engine, and a body cannot change the
  graph in any other way.
-/

import Dataflow.Edit

namespace Dataflow

/-! ## Calls -/

/-- An operation that a body can call. -/
inductive Call (B : Type) where
  | edit (e : Edit)
  /-- Adds a node. -/
  | add (n : Node B)
  /-- Loads a snapshot, in the place of what is there or beside it. -/
  | load (snapshot : Snapshot) (keepOld : Bool)
  /-- Runs the body of a node. -/
  | execute (id : NodeId)
  /-- Sends an event through the links of an output, or through one of them. -/
  | triggerSlot (id : NodeId) (slot : Nat) (payload : Value) (only : Option LinkId)
  /-- Sends an event through the event outputs of a node, or through those of one name. -/
  | trigger (id : NodeId) (action : Option String) (payload : Value)
  /-- Runs the node that feeds an input, and reads the input. -/
  | pull (id : NodeId) (slot : Nat)
  /-- Runs one step of some passes over the executable nodes. -/
  | runStep (passes : Nat) (propagate : Bool)

/-- What a call answers. -/
def Call.Answer {B : Type} : Call B → Type
  | edit e => e.Answer B
  | add _ => Except GraphError NodeId
  | load .. => LoadReport
  | execute _ => Except GraphError Bool
  | triggerSlot .. | trigger .. => Except GraphError Nat
  | pull .. => Except GraphError (Option Value)
  | runStep .. => Except GraphError Unit

/-! ## Bodies -/

/-- A program that works on a graph with behaviours in `B` and a host that keeps a `σ`. -/
inductive Body (B σ α : Type) where
  /-- Is finished. -/
  | done (a : α)
  /-- Looks at the graph and at what the host keeps. -/
  | look (next : Graph B → σ → Body B σ α)
  /-- Changes what the host keeps. -/
  | keep (f : σ → σ) (next : Body B σ α)
  /-- Leaves a remark. -/
  | note (remark : Value) (next : Body B σ α)
  /-- Calls an operation. -/
  | call (c : Call B) (next : c.Answer → Body B σ α)

namespace Body

variable {B σ α β : Type}

/-- Goes on with the answer of a body. -/
def bind (p : Body B σ α) (f : α → Body B σ β) : Body B σ β :=
  match p with
  | done a => f a
  | look next => look fun g h => (next g h).bind f
  | keep change next => keep change (next.bind f)
  | note remark next => note remark (next.bind f)
  | call c next => call c fun a => (next a).bind f

instance : Monad (Body B σ) where
  pure := done
  bind := bind

/-- The graph as it is now. -/
def graph : Body B σ (Graph B) := look fun g _ => done g

/-- What the host keeps now. -/
def host : Body B σ σ := look fun _ h => done h

/-- Changes what the host keeps. -/
def update (f : σ → σ) : Body B σ Unit := keep f (done ())

/-- Leaves a remark. -/
def remark (v : Value) : Body B σ Unit := note v (done ())

/-- Calls an operation. -/
def perform (c : Call B) : Body B σ c.Answer := call c done

/-- Edits the graph. -/
def edit (e : Edit) : Body B σ (e.Answer B) := call (.edit e) done

/-- A property of a node as it is now. -/
def property (id : NodeId) (name : String) : Body B σ (Option Value) :=
  look fun g _ => done (g.property? id name)

/-- Writes a value to an output. -/
def write (id : NodeId) (slot : Nat) (value : Value) : Body B σ Unit := do
  let _ ← edit (.setOutputData id slot value)

/-- Runs one step of one pass; whether a failure comes through is a setting of the graph. -/
def tick : Body B σ (Except GraphError Unit) := do
  let g ← graph
  perform (.runStep 1 (!g.settings.catchErrors))

/-- Adds a node of a type, a stand-in when the type is unknown. -/
def addNew [Kind B] (type : String) : Body B σ (Except GraphError NodeId) := do
  let g ← graph
  perform (.add (g.registry.createOrStandIn type none))

end Body

/-- How the work of a node ends: well, or with an error. -/
abbrev Ending := Except NodeError Unit

/-- Goes on with a computed value, unless computing it failed. -/
def Body.after {B σ α : Type} (computed : Except NodeError α) (next : α → Body B σ Unit) :
    Body B σ Ending :=
  match computed with
  | .ok a => (next a).bind fun _ => .done (.ok ())
  | .error e => .done (.error e)

/-! ## Behaviours with bodies -/

/-- How a body ended: the behaviour as it is then, and the result. -/
structure Outcome (B : Type) where
  state : B
  result : Ending

/-- Kinds of nodes with bodies, for hosts that keep a `σ`. -/
class Behavior (B : Type) (σ : outParam Type) extends Kind B where
  /-- The body that a behaviour runs for a node. -/
  body : B → NodeId → Task → Body B σ (Outcome B)

end Dataflow
