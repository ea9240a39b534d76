/-
  The types that nodes can be made of.

  A node type describes the slots, attributes and behaviour of its nodes.  Making a node has two
  steps: `instantiate` builds what the type fixes, and `attachDefaults` fills in what was left
  open.  A registry keeps the types in the order in which they were registered.
-/

import Dataflow.Fault
import Dataflow.Node.Basic

namespace Dataflow

/-- An attribute that a node type declares. -/
structure Attribute where
  name : String
  /-- The first value; without one the attribute starts as an empty text. -/
  initial : Option Value
  visible : Bool
deriving Inhabited

namespace Attribute

/-- An attribute that is shown. -/
def shown (name : String) (initial : Value) : Attribute := ⟨name, some initial, true⟩

/-- An attribute that is not shown and has no first value. -/
def hidden (name : String) : Attribute := ⟨name, none, false⟩

/-- An attribute that is not shown but has a first value. -/
def preset (name : String) (initial : Value) : Attribute := ⟨name, some initial, false⟩

end Attribute

/-- A node type. -/
structure NodeType (B : Type) where
  id : String
  title : String
  description : String
  inputs : List Input
  outputs : List Output
  attributes : List Attribute
  mode : Mode
  priority : Int
  /-- The size of new nodes; without one they are fitted. -/
  size : Option Size
  behavior : B

namespace NodeType

variable {B : Type}

/-! ## Describing types -/

/-- A type without slots and behaviour. -/
def new [Kind B] (id title : String) : NodeType B :=
  { id, title, description := "", inputs := [], outputs := [], attributes := [], mode := .always
    priority := 0, size := none, behavior := Kind.inert }

/-- The category of the type. -/
def category (t : NodeType B) : String := categoryOf t.id

/-! ## Making nodes -/

/-- A node with what the type fixes. -/
def instantiate [Kind B] (t : NodeType B) (title : Option String) : Node B :=
  let n : Node B := { (Node.new t.id : Node B) with
    title := title.getD "", inputs := t.inputs, outputs := t.outputs, mode := t.mode }
  n.withBehavior t.behavior

/-- The properties that a node starts with. -/
def initialProperties (t : NodeType B) : Assoc String Value :=
  .ofList (t.attributes.map fun a => (a.name, a.initial.getD (.str "")))

end NodeType

/-- Fills in what a node was left without. -/
def Node.attachDefaults {B : Type} (n : Node B) (t : NodeType B) : Node B :=
  let n := { n with
    title := if n.title.isEmpty then t.title else n.title
    typeTitle := t.title
    properties := if n.properties.entries.isEmpty then t.initialProperties else n.properties }
  let n :=
    if n.size.width == 0.0 && n.size.height == 0.0 then
      { n with size := t.size.getD n.fittingSize }
    else n
  let n := if n.pos.x == 0.0 && n.pos.y == 0.0 then { n with pos := ⟨100.0, 100.0⟩ } else n
  { n with mode := t.mode, typePriority := t.priority }

/-- The registered types. -/
abbrev Registry (B : Type) := Assoc String (NodeType B)

namespace Registry

variable {B : Type}

/-- Registers a type under its name, in the place of an older one of that name. -/
def register (r : Registry B) (t : NodeType B) : Registry B := r.insert t.id t

/-- The types of a category. -/
def inCategory (r : Registry B) (category : String) : List (NodeType B) :=
  r.values.filter fun t => t.category = category

/-- The categories in use, sorted. -/
def categories (r : Registry B) : List String :=
  (r.values.map NodeType.category).eraseDups.mergeSort fun a b => decide (a ≤ b)

/-- Makes a node of a registered type. -/
def create [Kind B] (r : Registry B) (type : String) (title : Option String) :
    Except UnknownType (Node B) :=
  match r.get? type with
  | some t => .ok ((t.instantiate title).attachDefaults t)
  | none => .error ⟨type⟩

/-- Makes a node of a type, a stand-in when the type is unknown. -/
def createOrStandIn [Kind B] (r : Registry B) (type : String) (title : Option String) : Node B :=
  match r.create type title with
  | .ok n => n
  | .error _ => .placeholder { NodeRecord.new type with title }

end Registry

end Dataflow
