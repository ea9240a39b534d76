/-
  Reading the attributes of a layer out of its properties.

  An attribute is unset when it is missing, null or an empty text.  An integer is read through
  the number it denotes: it has to be whole and to fit a word.  A list of integers has one entry
  per axis; a single entry stands for every axis.
-/

import Dataflow.Fault
import Dataflow.Text.Blank

namespace Dataflow

/-! ## Numbers -/

/-- The number in a value.  A text is read as a number, a truth value is one or zero. -/
def Value.number (name : String) : Value → Except NodeError Float
  | .int n => .ok (Float.ofInt n)
  | .float x => .ok x
  | .str s =>
    match Numeric.readFloat? (String.ofList (Text.trim s.toList)) with
    | some x => .ok x
    | none => .error (.invalidProperty name (.notNumber s))
  | .bool b => .ok (if b then 1.0 else 0.0)
  | v => .error (.invalidProperty name (.notNumeric v))

/-- The integer in a value: its number, which must be whole and fit a word. -/
def Value.integer (name : String) (v : Value) : Except NodeError Int := do
  let x ← v.number name
  match Numeric.whole? x with
  | none => .error (.invalidProperty name (.notInteger x))
  | some n => if Numeric.isWord n then .ok n else .error (.invalidProperty name (.outOfRange x))

/-! ## Attributes -/

/-- Where attributes come from. -/
abbrev Attributes := String → Option Value

namespace Attributes

/-- The value of an attribute that is set. -/
def set? (attrs : Attributes) (name : String) : Option Value :=
  match attrs name with
  | none => none
  | some .null => none
  | some (.str s) => if s = "" then none else some (.str s)
  | some v => some v

/-- An integer, if the attribute is set. -/
def integer? (attrs : Attributes) (name : String) : Except NodeError (Option Int) :=
  match attrs.set? name with
  | none => .ok none
  | some v => (v.integer name).map some

/-- One integer per axis, from the integers listed. -/
def perAxis (name : String) (axes : Nat) : List Int → Except NodeError (List Int)
  | [n] => .ok (List.replicate axes n)
  | ns =>
    if ns.length = axes then .ok ns
    else .error (.invalidProperty name (.count axes ns.length))

/-- One integer per axis, if the attribute is set. -/
def integers? (attrs : Attributes) (name : String) (axes : Nat) :
    Except NodeError (Option (List Int)) :=
  match attrs.set? name with
  | none => .ok none
  | some (.arr items) => do
    let ns ← items.mapM (Value.integer name)
    let ns ← perAxis name axes ns
    return some ns
  | some v => do
    let n ← v.integer name
    let ns ← perAxis name axes [n]
    return some ns

/-- One integer per axis; the attribute must be set. -/
def integers (attrs : Attributes) (name : String) (axes : Nat) : Except NodeError (List Int) := do
  match ← attrs.integers? name axes with
  | some ns => return ns
  | none => throw (.invalidProperty name .missing)

/-- A truth value, false when the attribute is unset. -/
def flag (attrs : Attributes) (name : String) : Except NodeError Bool :=
  match attrs.set? name with
  | none => .ok false
  | some (.bool b) => .ok b
  | some v => .error (.invalidProperty name (.notFlag v))

end Attributes

end Dataflow
