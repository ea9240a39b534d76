/-
  Nodes: slots, properties, place and behaviour, all plain data.

  A node that belongs to a graph knows its identity there.  Its behaviour is absent exactly
  while its body runs, since the body then holds it.
-/

import Dataflow.Kind

namespace Dataflow

/-- What is known about a declared property. -/
structure PropertyInfo where
  name : String
  kind : Option String
  initial : Value
deriving Inhabited

/-- A node. -/
structure Node (B : Type) where
  id : Option NodeId
  type : String
  /-- The title given to this node; an empty one stands for the title of the type. -/
  title : String
  typeTitle : String
  pos : Point
  size : Size
  flags : Flags
  mode : Mode
  inputs : List Input
  outputs : List Output
  properties : Assoc String Value
  propertyInfos : List PropertyInfo
  color : Option String
  background : Option String
  shape : Option String
  /-- The priority of this node, if it differs from that of its type. -/
  ownPriority : Option Int
  typePriority : Int
  /-- The place in the last order of execution. -/
  order : Nat
  /-- Whether the node stands in for one whose type is unknown. -/
  hasErrors : Bool
  /-- The record that a stand-in was made from. -/
  standsFor : Option NodeRecord
  canExecute : Bool
  acceptsActions : Bool
  behavior : Option B
deriving Inhabited

/-- The part of a type name in front of its last slash. -/
def categoryOf (type : String) : String :=
  match type.toList.reverse.dropWhile (· ≠ '/') with
  | _ :: rest => String.ofList rest.reverse
  | [] => ""

namespace Node

variable {B : Type}

/-! ## Making nodes -/

/-- A node without slots and behaviour that belongs to no graph. -/
def new [Kind B] (type : String) : Node B :=
  { id := none, type, title := "", typeTitle := type, pos := ⟨0.0, 0.0⟩, size := ⟨0.0, 0.0⟩
    flags := ⟨false, false⟩, mode := .always, inputs := [], outputs := [], properties := ∅
    propertyInfos := [], color := none, background := none, shape := none, ownPriority := none
    typePriority := 0, order := 0, hasErrors := false, standsFor := none, canExecute := false
    acceptsActions := false, behavior := some Kind.inert }

/-- The node with a behaviour of its own. -/
def withBehavior [Kind B] (n : Node B) (b : B) : Node B :=
  { n with
    canExecute := Kind.canExecute b, acceptsActions := Kind.acceptsActions b, behavior := some b }

/-- A node that stands in for one whose type is unknown.  It gives its record back when it is
recorded. -/
def placeholder [Kind B] (r : NodeRecord) : Node B :=
  { (Node.new r.type : Node B) with
    title := r.title.getD r.type, hasErrors := true, standsFor := some r }

/-! ## Looking at nodes -/

/-- The title shown. -/
def displayTitle (n : Node B) : String := if n.title.isEmpty then n.typeTitle else n.title

/-- The category of the node's type. -/
def category (n : Node B) : String := categoryOf n.type

/-- The priority that counts. -/
def priority (n : Node B) : Int := n.ownPriority.getD n.typePriority

/-- The first input of that name. -/
def findInput? (n : Node B) (name : String) : Option Nat := n.inputs.findIdx? (·.name = name)

/-- The first output of that name. -/
def findOutput? (n : Node B) (name : String) : Option Nat := n.outputs.findIdx? (·.name = name)

/-- Whether a link leaves any output. -/
def anyOutputConnected (n : Node B) : Bool := n.outputs.any Output.isConnected

/-- The value of a property. -/
def property? (n : Node B) (name : String) : Option Value := n.properties.get? name

/-! ## The size that fits -/

/-- The estimated width of a text. -/
def textWidth (s : String) : Float32 := 14.0 * Float32.ofNat s.length * 0.6

/-- The width of the widest of some texts. -/
def widest (texts : List String) : Float32 :=
  texts.foldl (fun w s => Numeric.larger w (textWidth s)) 0.0

/-- The size that fits the title and the slots. -/
def fittingSize (n : Node B) : Size :=
  let rows := max (max n.inputs.length n.outputs.length) 1
  let height := Float32.ofNat rows * (14.0 + 1.0) + 4.0
  let inputs := widest (n.inputs.map Input.displayName)
  let outputs := widest (n.outputs.map Output.displayName)
  let width := Numeric.larger (inputs + outputs + 10.0) (textWidth n.displayTitle)
  ⟨Numeric.larger width 140.0, height⟩

/-! ## Changing nodes -/

/-- The node with its size fitted. -/
def fit (n : Node B) : Node B := { n with size := n.fittingSize }

/-- The node with one more input. -/
def addInput (n : Node B) (name : String) (type : SlotType) : Node B :=
  ({ n with inputs := n.inputs ++ [Input.new name type] } : Node B).fit

/-- The node with one more output. -/
def addOutput (n : Node B) (name : String) (type : SlotType) : Node B :=
  ({ n with outputs := n.outputs ++ [Output.new name type] } : Node B).fit

/-- The node with a property written. -/
def setProperty (n : Node B) (name : String) (value : Value) : Node B :=
  { n with properties := n.properties.insert name value }

/-- The node with a property declared and given its first value. -/
def declareProperty (n : Node B) (info : PropertyInfo) : Node B :=
  { n.setProperty info.name info.initial with propertyInfos := n.propertyInfos ++ [info] }

/-- Changes one input. -/
def modifyInput (n : Node B) (slot : Nat) (f : Input → Input) : Node B :=
  { n with inputs := n.inputs.modify slot f }

/-- Changes one output. -/
def modifyOutput (n : Node B) (slot : Nat) (f : Output → Output) : Node B :=
  { n with outputs := n.outputs.modify slot f }

/-- Tells the behaviour something, if it is there. -/
def tell [Kind B] (n : Node B) (notice : Notice) : Node B × List (Event B) :=
  match n.behavior with
  | some b => ({ n with behavior := some (Kind.told b notice) }, [.told b notice])
  | none => (n, [])

/-! ## The canvas -/

/-- The node moved to the nearest point of a grid; a grid without spacing moves nothing. -/
def alignToGrid (n : Node B) (grid : Float32) : Node B :=
  if grid ≤ 0.0 then n
  else { n with pos := ⟨grid * (n.pos.x / grid).round, grid * (n.pos.y / grid).round⟩ }

/-- The rectangle of the node with its title bar. -/
def bounding (n : Node B) : Rect :=
  ⟨n.pos.x - 4.0, n.pos.y - 20.0, n.size.width + 4.0, n.size.height + 20.0⟩

/-- Whether a place is on the node.  A collapsed node is its title bar only. -/
def holds (n : Node B) (p : Point) (margin : Float32) : Bool :=
  if n.flags.collapsed then
    let bar : Rect :=
      ⟨n.pos.x - margin, n.pos.y - 20.0 - margin, 80.0 + 2.0 * margin, 20.0 + 2.0 * margin⟩
    bar.holds p
  else
    n.pos.x - 4.0 - margin < p.x && p.x < n.pos.x + n.size.width + 4.0 + margin
      && n.pos.y - 20.0 - margin < p.y && p.y < n.pos.y + n.size.height + margin

/-- Where a link meets a slot. -/
def connectionPos (n : Node B) (isInput : Bool) (slot : Nat) : Point :=
  if n.flags.collapsed then
    ⟨if isInput then n.pos.x else n.pos.x + 80.0, n.pos.y - 20.0 * 0.5⟩
  else
    ⟨if isInput then n.pos.x else n.pos.x + n.size.width + 1.0,
      n.pos.y + 10.0 + Float32.ofNat slot * 15.0⟩

end Node

/-- Whether the middle of a node lies in a group. -/
def Group.holdsNode {B : Type} (g : Group) (n : Node B) : Bool := g.holds n.bounding.centre 0.0

end Dataflow
