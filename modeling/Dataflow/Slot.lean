/-
  The slots of a node and the links between them.

  An input holds at most one link, an output any number.  A link remembers both its ends, the
  type of the input it was made for, and the value that last went through it.
-/

import Dataflow.SlotType

namespace Dataflow

/-! ## Identities -/

/-- The identity of a node within one graph. -/
structure NodeId where
  number : Nat
deriving DecidableEq, Repr, Inhabited

/-- The identity of a link within one graph. -/
structure LinkId where
  number : Nat
deriving DecidableEq, Repr, Inhabited

/-- The largest identity that can be recorded. -/
def idLimit : Nat := 4294967295

/-- The identity after a number, unless that number is the last one. -/
def afterId (n : Nat) : Nat := min (n + 1) idLimit

/-- A number as part of a sentence. -/
def natText (n : Nat) : String := (Numeric.Numeral.ofInt n).text

/-- A node as named in a sentence. -/
def NodeId.text (id : NodeId) : String := "#" ++ natText id.number

/-- The two sides of a node. -/
inductive Direction where
  | input
  | output
deriving DecidableEq, Repr

/-! ## Slots -/

/-- An input. -/
structure Input where
  name : String
  type : SlotType
  link : Option LinkId
  label : Option String
deriving Inhabited

/-- An output; `data` is the value last written to it. -/
structure Output where
  name : String
  type : SlotType
  links : List LinkId
  label : Option String
  data : Option Value
deriving Inhabited

/-- An input without link and label. -/
def Input.new (name : String) (type : SlotType) : Input := ⟨name, type, none, none⟩

/-- An output without links, label and data. -/
def Output.new (name : String) (type : SlotType) : Output := ⟨name, type, [], none, none⟩

/-- The text shown for an input: its label, else its name. -/
def Input.displayName (s : Input) : String := s.label.getD s.name

/-- The text shown for an output: its label, else its name. -/
def Output.displayName (s : Output) : String := s.label.getD s.name

/-- Whether a link feeds the input. -/
def Input.isConnected (s : Input) : Bool := s.link.isSome

/-- Whether a link leaves the output. -/
def Output.isConnected (s : Output) : Bool := !s.links.isEmpty

/-! ## Links -/

/-- A link from an output to an input.  `triggered` tells whether an event went through it since
that was last forgotten. -/
structure Link where
  id : LinkId
  origin : NodeId
  originSlot : Nat
  target : NodeId
  targetSlot : Nat
  type : SlotType
  data : Option Value
  triggered : Bool
deriving Inhabited

/-- A link that has carried nothing yet. -/
def Link.new (id : LinkId) (type : SlotType) (origin : NodeId) (originSlot : Nat)
    (target : NodeId) (targetSlot : Nat) : Link :=
  ⟨id, origin, originSlot, target, targetSlot, type, none, false⟩

/-- Whether a node is at one of the ends. -/
def Link.touches (l : Link) (id : NodeId) : Bool := l.origin = id || l.target = id

end Dataflow
