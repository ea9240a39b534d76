/-
  The recorded form of a graph: plain data with identities instead of references.

  A node record may leave out what its type supplies; `none` means that nothing was recorded.
  Fields of a node record that have no meaning here are kept in `extra`.
-/

import Dataflow.Assoc
import Dataflow.Group
import Dataflow.Mode
import Dataflow.Slot

namespace Dataflow

/-- How a node is drawn. -/
structure Flags where
  collapsed : Bool
  pinned : Bool
deriving DecidableEq, Inhabited

/-- A node as recorded. -/
structure NodeRecord where
  id : Option NodeId
  type : String
  pos : Option Point
  size : Option Size
  flags : Flags
  mode : Option Mode
  inputs : Option (List Input)
  outputs : Option (List Output)
  title : Option String
  properties : Assoc String Value
  color : Option String
  background : Option String
  shape : Option String
  priority : Option Int
  extra : Assoc String Value
deriving Inhabited

/-- A record that says nothing but the type. -/
def NodeRecord.new (type : String) : NodeRecord :=
  { id := none, type, pos := none, size := none, flags := ⟨false, false⟩, mode := none
    inputs := none, outputs := none, title := none, properties := ∅, color := none
    background := none, shape := none, priority := none, extra := ∅ }

/-- A link as recorded. -/
structure LinkRecord where
  id : LinkId
  origin : NodeId
  originSlot : Nat
  target : NodeId
  targetSlot : Nat
  type : SlotType
deriving DecidableEq, Inhabited

/-- The record of a link; the value it carries is not recorded. -/
def LinkRecord.ofLink (l : Link) : LinkRecord :=
  ⟨l.id, l.origin, l.originSlot, l.target, l.targetSlot, l.type⟩

/-- The link of a record. -/
def LinkRecord.toLink (r : LinkRecord) : Link :=
  .new r.id r.type r.origin r.originSlot r.target r.targetSlot

/-- A graph as recorded. -/
structure Snapshot where
  nextNode : Nat
  nextLink : Nat
  nodes : List NodeRecord
  links : List LinkRecord
  groups : List Group
  config : Assoc String Value
deriving Inhabited

end Dataflow
