/-
  Reading settings.

  A field that is not given keeps its default, an unknown field is passed over, and a field
  given twice is refused.  A record may carry its own name in front, and must if the file asks
  for that.
-/

import Dataflow.Settings.Basic
import Dataflow.Settings.Term

namespace Dataflow.Settings

/-! ## Simple values -/

/-- Reads a natural number that fits a word. -/
def natural? : Term → Option Nat
  | .number cs => do
    let i ← integer? cs
    if 0 ≤ i.value ∧ i.width.all (· = "u64") then some i.value.toNat else none
  | _ => none

/-- Reads a truth value. -/
def bool? : Term → Option Bool
  | .keyword "true" => some true
  | .keyword "false" => some false
  | _ => none

/-- The characters of a number or of a word that may be one. -/
def numberChars? : Term → Option (List Char)
  | .number cs => some cs
  | .keyword s => some s.toList
  | _ => none

/-- Reads a number of a width, given the infinite number and how a decimal is rounded. -/
def quantity? {α : Type} [Neg α] (bits : Nat) (infinite : α) (nearest : Nat × Int → α)
    (t : Term) : Option (Quantity α) := do
  let d ← decimal? (← numberChars? t)
  let signed (x : α) : Quantity α := .number (if d.minus then -x else x)
  if d.width.all (· = bits) then
    match d.size with
    | .undefined => some (.undefined d.minus)
    | .infinite => some (signed infinite)
    | .finite digits power => some (signed (nearest (digits, power)))
  else none

/-- Reads a wide number. -/
def float? : Term → Option (Quantity Float) := quantity? 64 (1.0 / 0.0) Numeric.nearest

/-- Reads a narrow number. -/
def single? : Term → Option (Quantity Float32) := quantity? 32 (1.0 / 0.0) Numeric.nearestSingle

/-- Reads a text that may be absent. -/
def optionalText? (f : Features) : Term → Option (Option String)
  | .keyword "None" => some none
  | .present (.text s) => some (some s)
  | .text s => if f.implicitSome then some (some s) else none
  | _ => none

/-! ## Records -/

/-- Whether a record may stand under the name that it was given, or without one. -/
def fitsName (f : Features) (name : String) (given : Option String) : Bool :=
  match given with
  | some s => s = name
  | none => !f.explicitNames

/-- The fields of a record of the given name: every known field at most once. -/
def fieldsOf? (f : Features) (name : String) (known : List String) :
    Term → Option (List (String × Term))
  | .tuple given [] => if fitsName f name given then some [] else none
  | .record given fields =>
    let found := fields.filter fun f => known.contains f.1
    if fitsName f name given ∧ (found.map Prod.fst).Nodup then some found else none
  | _ => none

/-- Reads a field, or takes its default. -/
def fieldOr? {α : Type} (fields : List (String × Term)) (name : String) (absent : α)
    (read : Term → Option α) : Option α :=
  match fields.lookup name with
  | none => some absent
  | some t => read t

/-- Reads the settings of a graph. -/
def graph? (f : Features) (t : Term) : Option Settings := do
  let d := Settings.default
  let given ← fieldsOf? f "GraphSettings"
    ["max_nodes", "fixed_time_lapse", "catch_errors", "align_to_grid", "grid_size"] t
  let maxNodes ← fieldOr? given "max_nodes" d.maxNodes natural?
  let fixedTimeLapse ← fieldOr? given "fixed_time_lapse" d.fixedTimeLapse float?
  let catchErrors ← fieldOr? given "catch_errors" d.catchErrors bool?
  let alignToGrid ← fieldOr? given "align_to_grid" d.alignToGrid bool?
  let gridSize ← fieldOr? given "grid_size" d.gridSize single?
  return { maxNodes, fixedTimeLapse, catchErrors, alignToGrid, gridSize }

/-- Reads the settings of a run. -/
def run? (f : Features) (t : Term) : Option RunSettings := do
  let d := RunSettings.default
  let given ← fieldsOf? f "RunnerSettings" ["graph", "ticks", "snapshot"] t
  let graph ← fieldOr? given "graph" d.graph (graph? f)
  let ticks ← fieldOr? given "ticks" d.ticks natural?
  let snapshot ← fieldOr? given "snapshot" d.snapshot (optionalText? f)
  return { graph, ticks, snapshot }

/-- Reads the settings of a graph from a text. -/
def read? (text : String) : Option Settings := do
  let d ← Document.read? text
  graph? d.features d.term

end Dataflow.Settings

namespace Dataflow

/-- Reads the settings of a run from a text. -/
def RunSettings.read? (text : String) : Option RunSettings := do
  let d ← Settings.Document.read? text
  Settings.run? d.features d.term

end Dataflow
