/-
  A small demonstration: an image tensor, a few layers, and a watch at the end.
-/

import Dataflow.Body

namespace Dataflow.Demo

/-- Why the demonstration could not be built. -/
inductive Fault where
  | graph (e : GraphError)
  | connection (e : ConnectionError)

/-- The words for a demonstration that could not be built. -/
def Fault.message : Fault → String
  | .graph e => "Graph error: " ++ e.message
  | .connection e => "Connection error: " ++ e.message

/-- A node of the demonstration: its type, its input, and the properties that are set. -/
structure Stage where
  type : String
  input : String
  properties : List (String × Value)

/-- The nodes of the demonstration, each fed by the one before. -/
def stages : List Stage :=
  [⟨"tensor/Tensor4d", "in", [("size", .ofInts [1, 3, 32, 32])]⟩,
    ⟨"layer/Conv2d", "in",
      [("in_channels", .int 3), ("out_channels", .int 16), ("padding", .ofInts [1, 1])]⟩,
    ⟨"layer/ReLU", "in", []⟩, ⟨"layer/MaxPool2d", "in", []⟩, ⟨"layer/Flatten", "in", []⟩,
    ⟨"layer/Linear", "in", [("out_features", .int 10)]⟩, ⟨"basic/watch", "value", []⟩]

/-- The margin between the nodes of the demonstration. -/
def margin : Float32 := 40.0

variable {B σ : Type} [Kind B]

/-- Sets properties of a node. -/
def setAll (id : NodeId) : List (String × Value) → Body B σ Unit
  | [] => return ()
  | (name, value) :: rest => do
    let _ ← Body.edit (.setProperty id name value)
    setAll id rest

/-- Links a node to the one before it, if there is one. -/
def follow (previous : Option NodeId) (id : NodeId) (input : String) :
    Body B σ (Except ConnectionError Unit) := do
  match previous with
  | none => return .ok ()
  | some p =>
    match ← Body.edit (.connectByName p "out" id input) with
    | .ok _ => return .ok ()
    | .error e => return .error e

/-- Builds nodes one after the other; answers those built before followed by these. -/
def wire : List Stage → List NodeId → Body B σ (Except Fault (List NodeId))
  | [], ids => return .ok ids
  | stage :: rest, ids => do
    match ← Body.addNew stage.type with
    | .error e => return .error (.graph e)
    | .ok id =>
      setAll id stage.properties
      match ← follow ids.getLast? id stage.input with
      | .error e => return .error (.connection e)
      | .ok () => wire rest (ids ++ [id])

/-- Builds the demonstration and lays it out. -/
def build : Body B σ (Except Fault (List NodeId)) := do
  Body.edit .beginBatch
  let result ← wire stages []
  Body.edit .endBatch
  match result with
  | .error e => return .error e
  | .ok ids =>
    Body.edit (.arrange margin)
    return .ok ids

end Dataflow.Demo
