/-
  What is wrong with a value that was to be read as something else.
-/

import Dataflow.Json.Value
import Dataflow.Text.Quoted

namespace Dataflow

/-- A value of the wrong kind, or an integer that has no meaning where it stands. -/
inductive Misfit where
  | kind (found : Value) (expected : String)
  | integer (found : Int) (expected : String)

/-- A value named by its kind, a simple one with its content. -/
def Value.described : Value → String
  | .null => "null"
  | .bool b => "boolean `" ++ (if b then "true" else "false") ++ "`"
  | .int n => "integer `" ++ (Numeric.Numeral.ofInt n).text ++ "`"
  | .float x => "floating point `" ++ Numeric.Style.data.wide x ++ "`"
  | .str s => "string " ++ Text.quoted s
  | .arr _ => "sequence"
  | .obj _ => "map"

/-- The message of a misfit. -/
def Misfit.message : Misfit → String
  | .kind found expected => "invalid type: " ++ found.described ++ ", expected " ++ expected
  | .integer found expected =>
    "invalid value: " ++ (Value.int found).described ++ ", expected " ++ expected

end Dataflow
