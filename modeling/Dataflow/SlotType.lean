/-
  The types of slots, and which output may feed which input.

  A slot takes anything, or events, or values of a named type.  A name may list alternatives
  separated by commas; two names match when they share one, blanks around it and case aside.
  In data the wildcard is `0`, events are `-1`, and a named type is its name.
-/

import Dataflow.Misfit
import Dataflow.Text.Blank
import Dataflow.Text.Lower

namespace Dataflow

/-- The type of the values that a slot takes or gives. -/
inductive SlotType where
  | any
  | event
  | named (name : String)
deriving DecidableEq, Repr, Inhabited

namespace SlotType

/-! ## Names -/

/-- The type with a name; an empty name and a star are the wildcard. -/
def ofName (name : String) : SlotType :=
  if name = "" ∨ name = "*" then any else named name

/-- The type as shown to a reader. -/
def text : SlotType → String
  | any => "*"
  | event => "event"
  | named name => name

/-- Whether this is the type of events. -/
def isEvent : SlotType → Bool
  | event => true
  | _ => false

/-- Whether this is the wildcard. -/
def isAny : SlotType → Bool
  | any => true
  | _ => false

/-! ## Matching -/

/-- The pieces of a text between commas. -/
def pieces : List Char → List (List Char)
  | [] => [[]]
  | c :: cs =>
    if c = ',' then [] :: pieces cs
    else
      match pieces cs with
      | p :: ps => (c :: p) :: ps
      | [] => [[c]]

/-- The alternatives that a name lists, without blanks around them and in lower case. -/
def alternatives (name : String) : List (List Char) :=
  (pieces name.toList).map fun p => Text.lower (Text.trim p)

/-- Whether two names share an alternative. -/
def sharesAlternative (a b : String) : Bool :=
  (alternatives a).any fun x => (alternatives b).any fun y => x = y

/-- Whether an output of the first type may feed an input of the second. -/
def feeds : SlotType → SlotType → Bool
  | any, _ => true
  | _, any => true
  | event, event => true
  | named a, named b => a = b || sharesAlternative a b
  | _, _ => false

/-! ## Data -/

/-- What a slot type in data is expected to be. -/
def expectation : String := "a type name, 0 for any type, or -1 for events"

/-- Reads a slot type; a null is the wildcard. -/
def ofValue : Value → Except Misfit SlotType
  | .null => .ok any
  | .str s => .ok (ofName s)
  | .int n =>
    if n = 0 then .ok any
    else if n = -1 then .ok event
    else .error (.integer n expectation)
  | v => .error (.kind v expectation)

/-- A slot type in data. -/
def value : SlotType → Value
  | any => .int 0
  | event => .int (-1)
  | named name => .str name

theorem pieces_ne_nil (cs : List Char) : pieces cs ≠ [] := by
  induction cs with
  | nil => simp [pieces]
  | cons c cs ih =>
    unfold pieces
    split
    · simp
    · split <;> simp

example : feeds (named "tensor, Number") (named "string,number") = true := by decide +kernel
example : feeds event (named "event") = false := by decide

end SlotType

end Dataflow
