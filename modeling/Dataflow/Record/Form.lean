/-
  Reading the parts of a record out of a JSON tree.

  A record stands in a text as an object or as the list of its fields in their order.  Either
  way `Form.read?` finds the fields that the record has: a field given twice is refused, one
  that is not known is passed over, and what it holds is never looked at.
-/

import Dataflow.Json.Value

namespace Dataflow.Record

open Json (Tree)

/-! ## Simple parts -/

/-- Reads a text. -/
def text? : Tree → Option String
  | .str s => some s
  | _ => none

/-- Reads a truth value. -/
def bool? : Tree → Option Bool
  | .bool b => some b
  | _ => none

/-- Reads an integer between two bounds. -/
def integer? (least most : Int) : Tree → Option Int
  | .num n => do
    let k ← n.int?
    if least ≤ k ∧ k ≤ most then some k else none
  | _ => none

/-- Reads a natural number up to a bound. -/
def natural? (most : Nat) (t : Tree) : Option Nat := (integer? 0 most t).map Int.toNat

/-- Reads a narrow number. -/
def single? : Tree → Option Float32
  | .num n =>
    match n.int? with
    | some k => some (Float32.ofInt k)
    | none => n.float?.map Numeric.single
  | _ => none

/-- Reads a list, item by item. -/
def list? {α : Type} (item : Tree → Option α) : Tree → Option (List α)
  | .arr ts => ts.mapM item
  | _ => none

/-- Reads something or a null. -/
def orNull {α : Type} (read : Tree → Option α) : Tree → Option (Option α)
  | .null => some none
  | t => (read t).map some

/-- Reads the values of an object; a repeated name keeps its first place and its last value. -/
def values? (room : Nat) : Tree → Option (List (String × Value))
  | .obj fields => Json.fieldsIn? room [] fields
  | _ => none

/-! ## Records -/

/-- The fields found for a record, under their proper names. -/
abbrev Form := List (String × Tree)

/-- A field of a record: its proper name and the other name it may be given by. -/
structure FieldName where
  name : String
  other : Option String
deriving DecidableEq

/-- A field with one name only. -/
def FieldName.only (name : String) : FieldName := ⟨name, none⟩

/-- Whether a key names the field. -/
def FieldName.fits (f : FieldName) (key : String) : Bool := f.name = key || f.other = some key

/-- Finds the known fields of an object, after those found so far. -/
def Form.ofFields? (known : List FieldName) (found : Form) : List (String × Tree) → Option Form
  | [] => some found
  | (key, t) :: rest =>
    match known.find? (·.fits key) with
    | none => Form.ofFields? known found rest
    | some f =>
      if found.any (·.1 = f.name) then none
      else Form.ofFields? known (found ++ [(f.name, t)]) rest

/-- Finds the fields of a record. -/
def Form.read? (known : List FieldName) : Tree → Option Form
  | .obj fields => Form.ofFields? known [] fields
  | .arr items =>
    if items.length ≤ known.length then some ((known.map FieldName.name).zip items) else none
  | _ => none

/-- Reads a field that must be there. -/
def Form.required? {α : Type} (f : Form) (name : String) (read : Tree → Option α) : Option α :=
  (f.lookup name).bind read

/-- Reads a field that may be missing. -/
def Form.optional? {α : Type} (f : Form) (name : String) (absent : α) (read : Tree → Option α) :
    Option α :=
  match f.lookup name with
  | none => some absent
  | some t => read t

end Dataflow.Record
