/-
  Reading a tree from tokens.

  The reader is a machine with a stack: each frame is a list or a record that is not closed yet.
  One token makes one step, so reading a text is a fold over its tokens, and a text is accepted
  when exactly one value is complete at its end.
-/

import Dataflow.Json.Token
import Dataflow.Json.Tree

namespace Dataflow.Json

/-- A list or a record that is still open; what it holds comes last one first.  A torn key is
`none`. -/
inductive Frame where
  | list (items : List Tree)
  | record (fields : List (Option String × Tree)) (key : Option String)

/-- What must come next. -/
inductive Reader where
  /-- A value. -/
  | value (stack : List Frame)
  /-- The first item of a list, or its end. -/
  | item (stack : List Frame)
  /-- The first key of a record, or its end. -/
  | field (stack : List Frame)
  /-- A further key of a record. -/
  | key (fields : List (Option String × Tree)) (stack : List Frame)
  /-- The colon after a key. -/
  | colon (fields : List (Option String × Tree)) (key : Option String) (stack : List Frame)
  /-- A comma or an end, after a complete value. -/
  | done (t : Tree) (stack : List Frame)

namespace Reader

/-- The record with the given fields, torn if one of its keys is. -/
def record (fields : List (Option String × Tree)) : Tree :=
  match fields.mapM fun f => f.1.map (·, f.2) with
  | some fields => .obj fields
  | none => .torn

/-- Starts a value. -/
def start? (stack : List Frame) : Token → Option Reader
  | .null => some (done .null stack)
  | .bool b => some (done (.bool b) stack)
  | .num n => some (done (.num n) stack)
  | .str s => some (done (.str s) stack)
  | .torn => some (done .torn stack)
  | .openList => some (item stack)
  | .openRecord => some (field stack)
  | _ => none

/-- Takes one token. -/
def step? : Reader → Token → Option Reader
  | value stack, t => start? stack t
  | item stack, .closeList => some (done (.arr []) stack)
  | item stack, t => start? (.list [] :: stack) t
  | field stack, .closeRecord => some (done (.obj []) stack)
  | field stack, .str k => some (colon [] (some k) stack)
  | field stack, .torn => some (colon [] none stack)
  | key fields stack, .str k => some (colon fields (some k) stack)
  | key fields stack, .torn => some (colon fields none stack)
  | colon fields k stack, .colon => some (value (.record fields k :: stack))
  | done t (.list items :: stack), .comma => some (value (.list (t :: items) :: stack))
  | done t (.list items :: stack), .closeList => some (done (.arr (t :: items).reverse) stack)
  | done t (.record fields k :: stack), .comma => some (key ((k, t) :: fields) stack)
  | done t (.record fields k :: stack), .closeRecord =>
    some (done (record ((k, t) :: fields).reverse) stack)
  | _, _ => none

/-- Takes tokens, first to last. -/
def run? (r : Reader) (ts : List Token) : Option Reader := ts.foldlM step? r

theorem run?_append (r : Reader) (ts us : List Token) :
    r.run? (ts ++ us) = (r.run? ts).bind fun r => r.run? us :=
  List.foldlM_append

end Reader

/-- The tree of a text, if it is one complete JSON text. -/
def Tree.read? (text : String) : Option Tree := do
  let ts ← Token.scan text.toList
  match ← (Reader.value []).run? ts with
  | .done t [] => some t
  | _ => none

end Dataflow.Json
