/-
  The syntax of JSON texts, and how it is written.

  A tree is a text before anything is known about what it should mean: a number is a numeral, a
  record may repeat a field, and a part that is torn (a string that is no text, a record with
  such a key) can only be passed over.  There are two ways to write a tree: `compact`, without
  any blanks, and `pretty`, one item per line.  Only what must be escaped in a string is escaped.
-/

import Dataflow.Numeric.Numeral

namespace Dataflow.Json

open Numeric (Numeral)

/-- A JSON text as a tree. -/
inductive Tree where
  | null
  | bool (b : Bool)
  | num (n : Numeral)
  | str (s : String)
  | arr (items : List Tree)
  | obj (fields : List (String × Tree))
  | torn
deriving Inhabited

namespace Tree

/-! ## Strings -/

/-- One of the sixteen digits of a code point. -/
def hexDigit (n : Nat) : Char := if n < 10 then Char.ofNat (48 + n) else Char.ofNat (87 + n)

/-- A character inside a string. -/
def escape (c : Char) : List Char :=
  if c = '"' then ['\\', '"']
  else if c = '\\' then ['\\', '\\']
  else if c.toNat = 8 then ['\\', 'b']
  else if c.toNat = 9 then ['\\', 't']
  else if c.toNat = 10 then ['\\', 'n']
  else if c.toNat = 12 then ['\\', 'f']
  else if c.toNat = 13 then ['\\', 'r']
  else if c.toNat < 32 then ['\\', 'u', '0', '0', hexDigit (c.toNat / 16), hexDigit (c.toNat % 16)]
  else [c]

/-- A string between quotes. -/
def quote (s : String) : List Char := '"' :: s.toList.flatMap escape ++ ['"']

/-- The words for truth values. -/
def boolWord (b : Bool) : List Char := if b then "true".toList else "false".toList

/-! ## Without blanks -/

mutual

/-- A tree without blanks. -/
def compact : Tree → List Char
  | .null | .torn => "null".toList
  | .bool b => boolWord b
  | .num n => n.chars
  | .str s => quote s
  | .arr [] => ['[', ']']
  | .arr (t :: ts) => '[' :: compact t ++ compactItems ts
  | .obj [] => ['\x7b', '\x7d']
  | .obj ((k, t) :: fs) => '\x7b' :: quote k ++ ':' :: compact t ++ compactFields fs

/-- The items after the first, and the closing bracket. -/
def compactItems : List Tree → List Char
  | [] => [']']
  | t :: ts => ',' :: compact t ++ compactItems ts

/-- The fields after the first, and the closing brace. -/
def compactFields : List (String × Tree) → List Char
  | [] => ['\x7d']
  | (k, t) :: fs => ',' :: quote k ++ ':' :: compact t ++ compactFields fs

end

/-! ## One item per line -/

/-- A new line at a depth of nesting. -/
def newLine (depth : Nat) : List Char := '\n' :: List.replicate (2 * depth) ' '

mutual

/-- A tree with one item per line; an empty list or record stays on its line. -/
def pretty (depth : Nat) : Tree → List Char
  | .null | .torn => "null".toList
  | .bool b => boolWord b
  | .num n => n.chars
  | .str s => quote s
  | .arr [] => ['[', ']']
  | .arr (t :: ts) =>
    '[' :: newLine (depth + 1) ++ pretty (depth + 1) t ++ prettyItems depth ts
  | .obj [] => ['\x7b', '\x7d']
  | .obj ((k, t) :: fs) =>
    '\x7b' :: newLine (depth + 1) ++ quote k ++ ':' :: ' ' :: pretty (depth + 1) t
      ++ prettyFields depth fs

/-- The items after the first, and the closing bracket. -/
def prettyItems (depth : Nat) : List Tree → List Char
  | [] => newLine depth ++ [']']
  | t :: ts => ',' :: newLine (depth + 1) ++ pretty (depth + 1) t ++ prettyItems depth ts

/-- The fields after the first, and the closing brace. -/
def prettyFields (depth : Nat) : List (String × Tree) → List Char
  | [] => newLine depth ++ ['\x7d']
  | (k, t) :: fs =>
    ',' :: newLine (depth + 1) ++ quote k ++ ':' :: ' ' :: pretty (depth + 1) t
      ++ prettyFields depth fs

end

/-- The text of a tree without blanks. -/
def text (t : Tree) : String := String.ofList t.compact

/-- The text of a tree with one item per line. -/
def prettyText (t : Tree) : String := String.ofList (t.pretty 0)

example : (obj [("a", arr []), ("b", arr [null, bool true])]).compact
    = "\x7b\"a\":[],\"b\":[null,true]\x7d".toList := by decide
example : (arr [str "x"]).pretty 0 = "[\n  \"x\"\n]".toList := by decide

end Tree

end Dataflow.Json
