/-
  What can go wrong, as causes, and the one place where each cause gets its words.
-/

import Dataflow.Slot

namespace Dataflow

/-- Integers as a list in a sentence. -/
def intsText (ns : List Int) : String :=
  "[" ++ String.intercalate ", " (ns.map fun n => (Numeric.Numeral.ofInt n).text) ++ "]"

/-- An integer in a sentence. -/
def intText (n : Int) : String := (Numeric.Numeral.ofInt n).text

/-! ## Properties, inputs and shapes -/

/-- What is wrong with a property. -/
inductive PropertyFault where
  | outOfRange (x : Float)
  | notInteger (x : Float)
  | notNumber (text : String)
  | notNumeric (found : Value)
  | notFlag (found : Value)
  | count (expected found : Nat)
  | missing
  | emptyDimension (shape : List Int)
  | stated (text : String)

/-- The words for a fault of a property. -/
def PropertyFault.message : PropertyFault → String
  | .outOfRange x => Numeric.Style.prose.wide x ++ " is out of range"
  | .notInteger x => Numeric.Style.prose.wide x ++ " is not an integer"
  | .notNumber text => Text.quoted text ++ " is not a number"
  | .notNumeric v => "expected a number, got " ++ v.text
  | .notFlag v => "expected true or false, got " ++ v.text
  | .count expected found => "expected " ++ natText expected ++ " values, got " ++ natText found
  | .missing => "missing"
  | .emptyDimension shape => intsText shape ++ " has an empty dimension"
  | .stated text => text

/-- What is wrong with an input. -/
inductive InputFault where
  | misfit (m : Misfit)
  | stated (text : String)

/-- The words for a fault of an input. -/
def InputFault.message : InputFault → String
  | .misfit m => m.message
  | .stated text => text

/-- Why a shape does not fit a layer. -/
inductive ShapeFault where
  | rank (expected : Nat) (shape : List Int)
  | overflow
  | tooSmall (shape kernel : List Int)
  | noFeatures
  | features (expected found : Int)
  | normChannels (expected found : Int)
  | inputChannels (expected found : Int)
  | groups (channels parts : Int)
  | padding (width kernel : Int)
  | flatten (first last : Int) (shape : List Int)
  | stated (text : String)

/-- The words for a shape that does not fit. -/
def ShapeFault.message : ShapeFault → String
  | .rank expected shape => "expected a " ++ natText expected ++ "d input, got " ++ intsText shape
  | .overflow => "shape arithmetic overflows"
  | .tooSmall shape kernel =>
    "input " ++ intsText shape ++ " is too small for kernel " ++ intsText kernel
  | .noFeatures => "Linear needs at least one dimension"
  | .features expected found =>
    "Linear expects " ++ intText expected ++ " input features, got " ++ intText found
  | .normChannels expected found =>
    "BatchNorm2d expects " ++ intText expected ++ " channels, got " ++ intText found
  | .inputChannels expected found =>
    "expected " ++ intText expected ++ " input channels, got " ++ intText found
  | .groups n parts =>
    intText n ++ " channels cannot be split into " ++ intText parts ++ " groups"
  | .padding n kernel =>
    "padding " ++ intText n ++ " is more than half the kernel " ++ intText kernel
  | .flatten first last shape =>
    "cannot flatten dimensions " ++ intText first ++ "..=" ++ intText last ++ " of "
      ++ intsText shape
  | .stated text => text

/-! ## Nodes and graphs -/

mutual

/-- Why a graph operation failed. -/
inductive GraphError where
  | nodeLimitExceeded (limit : Nat)
  | nodeNotFound (id : NodeId)
  | execution (node : NodeId) (source : NodeError)

/-- Why the body of a node failed. -/
inductive NodeError where
  | missingInput (name : String)
  | invalidInput (slot : String) (fault : InputFault)
  | invalidProperty (name : String) (fault : PropertyFault)
  | shapeMismatch (fault : ShapeFault)
  | graph (source : GraphError)
  | custom (text : String)

end

mutual

/-- The words for a failed graph operation. -/
def GraphError.message : GraphError → String
  | .nodeLimitExceeded limit => "Max number of nodes in a graph reached (" ++ natText limit ++ ")"
  | .nodeNotFound id => "Node not found: " ++ id.text
  | .execution node source => "Node " ++ node.text ++ " failed: " ++ source.message

/-- The words for a failed body. -/
def NodeError.message : NodeError → String
  | .missingInput name => "Missing required input: " ++ name
  | .invalidInput slot fault => "Invalid input " ++ slot ++ ": " ++ fault.message
  | .invalidProperty name fault => "Invalid property " ++ name ++ ": " ++ fault.message
  | .shapeMismatch fault => "Shape mismatch: " ++ fault.message
  | .graph source => source.message
  | .custom text => text

end

/-! ## Links and types -/

/-- Why a link was refused. -/
inductive ConnectionError where
  | nodeNotFound (id : NodeId)
  | outputNotFound (node : NodeId) (slot : Nat)
  | inputNotFound (node : NodeId) (slot : Nat)
  | slotNameNotFound (node : NodeId) (name : String)
  | selfLoop
  | typeMismatch (output input : SlotType)
  | vetoed (node : NodeId)
deriving DecidableEq

/-- The words for a refused link. -/
def ConnectionError.message : ConnectionError → String
  | .nodeNotFound id => "Node not found: " ++ id.text
  | .outputNotFound node slot =>
    "Output slot " ++ natText slot ++ " not found on node " ++ node.text
  | .inputNotFound node slot =>
    "Input slot " ++ natText slot ++ " not found on node " ++ node.text
  | .slotNameNotFound node name => "Slot " ++ Text.quoted name ++ " not found on node " ++ node.text
  | .selfLoop => "Self-loop not allowed"
  | .typeMismatch output input =>
    "Incompatible slot types: " ++ output.text ++ " -> " ++ input.text
  | .vetoed node => "Node " ++ node.text ++ " refused the connection"

/-- A node type that nobody registered. -/
structure UnknownType where
  id : String
deriving DecidableEq

/-- The words for an unknown node type. -/
def UnknownType.message (e : UnknownType) : String := "Node type not registered: " ++ e.id

end Dataflow
