/-
  Values in JSON texts.

  Reading a value from a tree resolves what the syntax leaves open: a numeral becomes an integer
  or a number, a repeated field keeps its first place and its last value, and nesting has a
  limit.  Writing goes the other way.
-/

import Dataflow.Json.Reader
import Dataflow.Numeric.Style
import Dataflow.Value

namespace Dataflow.Json

open Numeric (Numeral Style)

/-! ## Reading -/

/-- How deeply lists and records may be nested. -/
def nestingLimit : Nat := 127

/-- Puts a field into a record: a known name keeps its place and gets the new value. -/
def putField {α : Type} (fields : List (String × α)) (name : String) (a : α) :
    List (String × α) :=
  if fields.any (·.1 == name) then fields.map fun f => if f.1 == name then (name, a) else f
  else fields ++ [(name, a)]

/-- The value of a numeral. -/
def numberValue? (n : Numeral) : Option Value :=
  match n.int? with
  | some k => some (.int k)
  | none => n.float?.map .float

mutual

/-- The value of a tree with at most `room` levels of nesting. -/
def valueIn? (room : Nat) : Tree → Option Value
  | .null => some .null
  | .bool b => some (.bool b)
  | .num n => numberValue? n
  | .str s => some (.str s)
  | .torn => none
  | .arr items =>
    match room with
    | 0 => none
    | room + 1 => (itemsIn? room items).map .arr
  | .obj fields =>
    match room with
    | 0 => none
    | room + 1 => (fieldsIn? room [] fields).map .obj

/-- The values of a list. -/
def itemsIn? (room : Nat) : List Tree → Option (List Value)
  | [] => some []
  | t :: ts => do
    let v ← valueIn? room t
    let vs ← itemsIn? room ts
    return v :: vs

/-- The values of a record, after the fields read so far. -/
def fieldsIn? (room : Nat) (read : List (String × Value)) :
    List (String × Tree) → Option (List (String × Value))
  | [] => some read
  | (k, t) :: fs => do
    let v ← valueIn? room t
    fieldsIn? room (putField read k v) fs

end

/-- The value of a text. -/
def readValue? (text : String) : Option Value := do
  let t ← Tree.read? text
  valueIn? nestingLimit t

/-! ## Writing -/

/-- The tree of a number; one without numeral is written as a null. -/
def floatTree (x : Float) : Tree :=
  match Style.data.wide? x with
  | some n => .num n
  | none => .null

/-- The tree of a narrow number; one without numeral is written as a null. -/
def singleTree (x : Float32) : Tree :=
  match Style.narrowData.narrow? x with
  | some n => .num n
  | none => .null

/-- The tree of an integer. -/
def intTree (n : Int) : Tree := .num (.ofInt n)

/-- The tree of a natural number. -/
def natTree (n : Nat) : Tree := intTree n

mutual

/-- The tree of a value. -/
def valueTree : Value → Tree
  | .null => .null
  | .bool b => .bool b
  | .int n => intTree n
  | .float x => floatTree x
  | .str s => .str s
  | .arr items => .arr (itemTrees items)
  | .obj fields => .obj (fieldTrees fields)

/-- The trees of the items of a list. -/
def itemTrees : List Value → List Tree
  | [] => []
  | v :: vs => valueTree v :: itemTrees vs

/-- The trees of the fields of a record. -/
def fieldTrees : List (String × Value) → List (String × Tree)
  | [] => []
  | (k, v) :: fs => (k, valueTree v) :: fieldTrees fs

end

end Dataflow.Json

namespace Dataflow

/-- A value as text. -/
def Value.text (v : Value) : String := (Json.valueTree v).text

end Dataflow
