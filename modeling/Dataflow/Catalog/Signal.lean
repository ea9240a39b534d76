/-
  Nodes that send, count and record events.
-/

import Dataflow.Catalog.Arithmetic

namespace Dataflow.Catalog

variable {B σ : Type}

/-- Sends the number of the current step through its output. -/
def emit (id : NodeId) : Body B σ Ending := do
  let g ← Body.graph
  match ← Body.perform (.triggerSlot id 0 (.int g.iteration) none) with
  | .ok _ => return .ok ()
  | .error e => return .error (.graph e)

/-- Gives the count in its property. -/
def giveCount (id : NodeId) : Body B σ Unit := do
  let v ← Body.property id "count"
  Body.write id 0 (v.getD (.int 0))

/-- The count after an event; `none` when the event is not for a counter. -/
def countAfter (count : Float) : String → Option Float
  | "inc" => some (count + 1.0)
  | "reset" => some 0.0
  | _ => none

/-- Counts an event, or starts anew. -/
def count (id : NodeId) (action : String) : Body B σ Ending := do
  let v ← Body.property id "count"
  Body.after (numberOr0 "count" v) fun x =>
    match countAfter x action with
    | some y => Body.edit (.storeProperty id "count" (.ofFloat y))
    | none => return ()

/-- The entries recorded so far. -/
def entriesOf : Option Value → List Value
  | some (.arr entries) => entries
  | _ => []

/-- Records the payload it is triggered with. -/
def recordEvent (id : NodeId) (payload : Option Value) : Body B σ Unit := do
  let v ← Body.property id "entries"
  Body.edit (.storeProperty id "entries" (.arr (entriesOf v ++ [payload.getD .null])))

end Dataflow.Catalog
