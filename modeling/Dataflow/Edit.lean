/-
  The edits of a graph, as data.

  An edit never runs the body of a node, so it is a total function on sessions.  Each edit
  fixes the type of its answer.
-/

import Dataflow.Session.Load
import Dataflow.Session.Terminal

namespace Dataflow

/-- An edit of a graph. -/
inductive Edit where
  /-- Removes a node and its links. -/
  | remove (id : NodeId)
  /-- Removes everything. -/
  | clear
  | tryConnect (origin : NodeId) (originSlot : Nat) (target : NodeId) (targetSlot : Nat)
  | connectByName (origin : NodeId) (output : String) (target : NodeId) (input : String)
  | disconnectInput (id : NodeId) (slot : Nat)
  | disconnectOutput (id : NodeId) (slot : Nat) (target : Option NodeId)
  | removeLink (id : LinkId)
  | addInput (id : NodeId) (name : String) (type : SlotType)
  | addOutput (id : NodeId) (name : String) (type : SlotType)
  | removeInput (id : NodeId) (slot : Nat)
  | removeOutput (id : NodeId) (slot : Nat)
  | renameSlot (direction : Direction) (id : NodeId) (slot : Nat) (name : String)
  /-- Writes a property, if the behaviour of the node agrees. -/
  | setProperty (id : NodeId) (name : String) (value : Value)
  /-- Writes a property without asking. -/
  | storeProperty (id : NodeId) (name : String) (value : Value)
  | declareProperty (id : NodeId) (info : PropertyInfo)
  | change (id : NodeId) (change : NodeChange)
  /-- Moves a node to the nearest point of a grid. -/
  | align (id : NodeId) (grid : Float32)
  | setOutputData (id : NodeId) (slot : Nat) (value : Value)
  | clearTriggered (id : NodeId) (slot : Nat) (only : Option LinkId)
  | clearAllTriggered
  | addGroup (group : Group)
  | removeGroup (index : Nat)
  | arrange (margin : Float32)
  | beginBatch
  | endBatch
  | updateOrder
  | start
  | stop
  | addTerminal (direction : Direction) (name : String) (type : SlotType) (value : Option Value)
  | setTerminalValue (direction : Direction) (name : String) (value : Value)
  | renameTerminal (direction : Direction) (old new : String)
  | retypeTerminal (direction : Direction) (name : String) (type : SlotType)
  | removeTerminal (direction : Direction) (name : String)
  | setConfig (key : String) (value : Value)
  | removeConfig (key : String)
  | setSettings (settings : Settings)
  /-- Makes an unattached copy of a node. -/
  | cloneNode (id : NodeId)

namespace Edit

/-- What an edit answers. -/
def Answer (B : Type) : Edit → Type
  | remove _ | cloneNode _ => Option (Node B)
  | tryConnect .. | connectByName .. => Except ConnectionError LinkId
  | disconnectInput .. | disconnectOutput .. | removeLink _ | removeInput .. | removeOutput ..
  | setProperty .. | declareProperty .. | change .. | setOutputData .. | setTerminalValue ..
  | renameTerminal .. | retypeTerminal .. | removeTerminal .. => Bool
  | addInput .. | addOutput .. => Option Nat
  | addGroup _ => Nat
  | removeGroup _ => Option Group
  | setConfig .. | removeConfig _ => Option Value
  | clear | renameSlot .. | storeProperty .. | align .. | clearTriggered .. | clearAllTriggered
  | arrange _ | beginBatch | endBatch | updateOrder | start | stop | addTerminal ..
  | setSettings _ => Unit

variable {B σ : Type}

/-- The list without the group at a place, and that group. -/
def takeGroup (gs : List Group) (i : Nat) : Option (Group × List Group) :=
  (gs[i]?).map fun g => (g, gs.eraseIdx i)

/-- Carries out an edit. -/
def apply [Kind B] (s : Session B σ) : (e : Edit) → e.Answer B × Session B σ
  | remove id => s.remove id
  | clear => ((), s.clear)
  | tryConnect origin originSlot target targetSlot =>
    s.tryConnect origin originSlot target targetSlot
  | connectByName origin output target input => s.connectByName origin output target input
  | disconnectInput id slot => s.disconnectInput id slot
  | disconnectOutput id slot target => s.disconnectOutput id slot target
  | removeLink id => s.removeLink id
  | addInput id name type => s.addInput id name type
  | addOutput id name type => s.addOutput id name type
  | removeInput id slot => s.removeInput id slot
  | removeOutput id slot => s.removeOutput id slot
  | renameSlot d id slot name => ((), s.renameSlot d id slot name)
  | setProperty id name value => s.setProperty id name value
  | storeProperty id name value => ((), s.storeProperty id name value)
  | declareProperty id info => s.declareProperty id info
  | change id c => s.change id c
  | align id grid => ((), s.edit fun g => g.modifyNode id (·.alignToGrid grid))
  | setOutputData id slot value => s.setOutputData id slot value
  | clearTriggered id slot only => ((), s.edit fun g => g.clearTriggered id slot only)
  | clearAllTriggered => ((), s.edit Graph.clearAllTriggered)
  | addGroup group =>
    (s.graph.groups.length, s.restructure fun g => { g with groups := g.groups ++ [group] })
  | removeGroup i =>
    match takeGroup s.graph.groups i with
    | some (group, groups) => (some group, s.restructure fun g => { g with groups })
    | none => (none, s)
  | arrange margin => ((), s.restructure fun g => g.arrange margin)
  | beginBatch => ((), s.beginBatch)
  | endBatch => ((), s.endBatch)
  | updateOrder => ((), s.edit Graph.updateOrder)
  | start => ((), s.start)
  | stop => ((), s.stop)
  | addTerminal d name type value => ((), s.addTerminal d name type value)
  | setTerminalValue d name value => s.setTerminalValue d name value
  | renameTerminal d old new => s.renameTerminal d old new
  | retypeTerminal d name type => s.retypeTerminal d name type
  | removeTerminal d name => s.removeTerminal d name
  | setConfig key value =>
    (s.graph.config.get? key, s.edit fun g => { g with config := g.config.insert key value })
  | removeConfig key =>
    (s.graph.config.get? key, s.edit fun g => { g with config := g.config.erase key })
  | setSettings settings => ((), s.edit fun g => { g with settings })
  | cloneNode id => s.cloneNode id

end Edit

end Dataflow
