/-
  The values that travel through a graph.

  A value is a null, a truth value, an integer, a number, a text, a list or a record.  Integers
  and numbers are different kinds: `1` and `1.0` are different values.  The fields of a record
  keep their order, but two records are the same when they agree field by field in any order.
  `Value.Proper` says what every value obtained from text or from a program satisfies: integers
  fit a word, numbers are finite, and no record has a field twice.
-/

import Dataflow.Numeric.Word

namespace Dataflow

/-- A value of a property, a link or a payload. -/
inductive Value where
  | null
  | bool (b : Bool)
  | int (n : Int)
  | float (x : Float)
  | str (s : String)
  | arr (items : List Value)
  | obj (fields : List (String × Value))
deriving Inhabited

namespace Value

/-! ## Equality -/

mutual

/-- Whether two values are the same, the order of fields aside. -/
def same : Value → Value → Bool
  | .null, .null => true
  | .bool a, .bool b => a == b
  | .int a, .int b => a == b
  | .float a, .float b => a == b
  | .str a, .str b => a == b
  | .arr as, .arr bs => sameItems as bs
  | .obj as, .obj bs => as.length == bs.length && sameFields as bs
  | _, _ => false

/-- Whether two lists hold the same values in the same places. -/
def sameItems : List Value → List Value → Bool
  | [], [] => true
  | a :: as, b :: bs => same a b && sameItems as bs
  | _, _ => false

/-- Whether each field of the first record is in the second with the same value. -/
def sameFields : List (String × Value) → List (String × Value) → Bool
  | [], _ => true
  | (k, a) :: as, bs =>
    (match bs.lookup k with
      | some b => same a b
      | none => false) && sameFields as bs

end

/-! ## Making and taking apart -/

/-- The value of a computed number; one that is infinite or undefined becomes a null. -/
def ofFloat (x : Float) : Value := if x.isFinite then .float x else .null

/-- The value of a list of integers. -/
def ofInts (ns : List Int) : Value := .arr (ns.map .int)

/-- The text in a value, if it is one. -/
def str? : Value → Option String
  | .str s => some s
  | _ => none

/-- The fields of a record; other values have none. -/
def fields : Value → List (String × Value)
  | .obj fields => fields
  | _ => []

/-- The field of that name. -/
def field? (v : Value) (name : String) : Option Value := v.fields.lookup name

/-! ## Proper values -/

mutual

/-- Integers fit a signed or an unsigned word, numbers are finite, fields are distinct. -/
def Proper : Value → Prop
  | .int n => Numeric.leastWord ≤ n ∧ n < Numeric.wordLimit
  | .float x => x.isFinite = true
  | .arr items => ProperItems items
  | .obj fields => (fields.map Prod.fst).Nodup ∧ ProperFields fields
  | .null | .bool _ | .str _ => True

/-- Every value of a list is proper. -/
def ProperItems : List Value → Prop
  | [] => True
  | v :: vs => Proper v ∧ ProperItems vs

/-- Every value of a record is proper. -/
def ProperFields : List (String × Value) → Prop
  | [] => True
  | (_, v) :: fs => Proper v ∧ ProperFields fs

end

example : same (.int 1) (.float 1.0) = false := by decide +kernel
example :
    same (.obj [("a", .int 1), ("b", .null)]) (.obj [("b", .null), ("a", .int 1)]) = true := by
  decide +kernel

end Value

end Dataflow
