/-
  Writing settings: one field per line, four blanks for each level, a comma after every field.
-/

import Dataflow.Numeric.Style
import Dataflow.Settings.Basic
import Dataflow.Text.Quoted

namespace Dataflow.Settings

/-- A truth value. -/
def boolText (b : Bool) : String := if b then "true" else "false"

/-- A natural number. -/
def naturalText (n : Nat) : String := (Numeric.Numeral.ofInt n).text

/-- A number, given how a defined one is written. -/
def quantityText {α : Type} (write : α → String) : Quantity α → String
  | .number x => write x
  | .undefined minus => if minus then "-NaN" else "NaN"

/-- A text in quotes; an apostrophe is escaped as well. -/
def quotedText (s : String) : String :=
  let inside (c : Char) : List Char := if c = '\'' then ['\\', '\''] else Text.quoteChar c
  String.ofList ('"' :: s.toList.flatMap inside ++ ['"'])

/-- A text that may be absent. -/
def optionalText : Option String → String
  | none => "None"
  | some s => "Some(" ++ quotedText s ++ ")"

/-- The blanks in front of a line. -/
def indent (depth : Nat) : String := String.ofList (List.replicate (4 * depth) ' ')

/-- A record at a depth of nesting. -/
def record (depth : Nat) (fields : List (String × String)) : String :=
  "(\n"
    ++ String.join (fields.map fun f => indent (depth + 1) ++ f.1 ++ ": " ++ f.2 ++ ",\n")
    ++ indent depth ++ ")"

/-- The settings of a graph at a depth of nesting. -/
def textAt (depth : Nat) (s : Settings) : String :=
  record depth
    [("max_nodes", naturalText s.maxNodes),
      ("fixed_time_lapse", quantityText Numeric.Style.settings.wide s.fixedTimeLapse),
      ("catch_errors", boolText s.catchErrors), ("align_to_grid", boolText s.alignToGrid),
      ("grid_size", quantityText Numeric.Style.settings.narrow s.gridSize)]

/-- The settings of a graph as a text. -/
def text (s : Settings) : String := s.textAt 0

end Dataflow.Settings

namespace Dataflow

/-- The settings of a run as a text. -/
def RunSettings.text (s : RunSettings) : String :=
  Settings.record 0
    [("graph", s.graph.textAt 1), ("ticks", Settings.naturalText s.ticks),
      ("snapshot", Settings.optionalText s.snapshot)]

end Dataflow
