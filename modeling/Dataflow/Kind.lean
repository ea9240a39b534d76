/-
  What a node does on its own, without the graph.

  The behaviour of a node is a value of some type `B`.  A `Kind` tells how such a value answers
  questions about links and properties, and how it changes when it is told of something.  What
  a node does to the graph is a program, defined later; nothing here can touch a graph.
-/

import Dataflow.Record.Basic

namespace Dataflow

/-- A link made or broken at one slot of a node. -/
structure ConnectionChange where
  direction : Direction
  slot : Nat
  slotName : String
  connected : Bool
  link : Link

/-- Something a behaviour is told. -/
inductive Notice where
  /-- The node has left its graph. -/
  | removed
  /-- The graph started running. -/
  | started
  /-- The graph stopped running. -/
  | stopped
  /-- A link at one of the node's slots was made or broken. -/
  | connection (change : ConnectionChange)
  /-- A link from an output of this type is about to be made to an input. -/
  | linkOffered (slot : Nat) (type : SlotType)
  /-- A property is about to change. -/
  | propertyOffered (name : String) (value : Value)
  /-- The node took its state from a record. -/
  | configured (record : NodeRecord)

/-- Why the body of a node runs. -/
inductive Task where
  /-- The node has just been added. -/
  | added
  /-- It is its turn, or it was triggered with a payload. -/
  | execute (payload : Option Value)
  /-- An event arrived at the input of that name. -/
  | act (action : String) (payload : Value)

/-- The behaviours of a kind of node. -/
class Kind (B : Type) where
  /-- The behaviour that does nothing. -/
  inert : B
  /-- Whether the node has a body to run. -/
  canExecute : B → Bool
  /-- Whether the node handles events itself. -/
  acceptsActions : B → Bool
  /-- How a behaviour changes when it is told something. -/
  told : B → Notice → B
  /-- Whether a link of this type may be made to an input. -/
  acceptsLink : B → Nat → SlotType → Bool
  /-- Whether the old value of a property is kept instead of this one. -/
  keepsOld : B → String → Value → Bool
  /-- What a behaviour adds to the record of its node. -/
  annotate : B → NodeRecord → NodeRecord

/-- What happened in a graph, as seen from outside. -/
inductive Event (B : Type) where
  /-- A behaviour, as it was then, was told something. -/
  | told (b : B) (notice : Notice)
  /-- The body of a node began to run. -/
  | began (node : NodeId) (b : B) (task : Task)
  /-- The body of a node returned. -/
  | ended (node : NodeId)
  /-- The structure changed; the number is the new version. -/
  | changed (version : Nat)
  | nodeAdded (node : NodeId)
  | nodeRemoved (node : NodeId)
  /-- A link was made or broken. -/
  | linkChanged (link : Link) (connected : Bool)
  | started
  | stopped
  /-- One pass over the executable nodes is complete. -/
  | passed
  /-- The passes of a step are over. -/
  | stepped
  | terminalAdded (direction : Direction) (name : String) (type : SlotType)
  | terminalRenamed (direction : Direction) (old new : String)
  | terminalRetyped (direction : Direction) (name : String) (type : SlotType)
  | terminalRemoved (direction : Direction) (name : String)
  /-- The set of terminals changed. -/
  | terminalsChanged
  /-- A body left a remark. -/
  | note (remark : Value)

end Dataflow
