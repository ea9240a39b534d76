/-
  The tokens of settings files.

  A token is a mark, a name, a number, a text, or a literal of a kind that no setting takes: a
  character, a byte or a row of bytes.  Blanks and comments stand between tokens; comments in
  `/* */` may be nested.  A number reaches as far as characters follow that could belong to a name
  or a number, so nothing that touches it is left over.

  Texts stand between quotes, with escapes, or after an `r` without escapes.  An escape gives a
  character by its code point or by the bytes that encode it.
-/

import Dataflow.Settings.Number
import Dataflow.Text.Identifier

namespace Dataflow.Settings

/-- A token of a settings file. -/
inductive Token where
  | punctuation (c : Char)
  | name (raw : Bool) (s : String)
  | number (cs : List Char)
  | text (s : String)
  | other
deriving DecidableEq

/-! ## Characters -/

/-- Whether a character only separates tokens. -/
def isBlank (c : Char) : Bool :=
  c == ' ' || (9 ≤ c.toNat && c.toNat ≤ 13) ||
    [0x85, 0x200E, 0x200F, 0x2028, 0x2029].contains c.toNat

/-- Whether a name may start with a character. -/
def startsName (c : Char) : Bool := c == '_' || Text.startsIdentifier c

/-- Whether a raw name or a number may go on with a character. -/
def inRawName (c : Char) : Bool := c == '.' || c == '+' || c == '-' || Text.inIdentifier c

/-- Whether a number may start with a character. -/
def startsNumber (c : Char) : Bool := c.isDigit || c == '+' || c == '-' || c == '.'

/-! ## Comments -/

/-- Passes over a comment that is `depth` levels deep. -/
def skipComment (depth : Nat) : List Char → Option (List Char)
  | '*' :: '/' :: cs =>
    match depth with
    | 0 | 1 => some cs
    | d + 2 => skipComment (d + 1) cs
  | '/' :: '*' :: cs => skipComment (depth + 1) cs
  | _ :: cs => skipComment depth cs
  | [] => none

/-! ## Escapes -/

/-- The literals in which escapes can stand. -/
inductive Literal where
  | text
  | character
  | bytes
  | byte
deriving DecidableEq

/-- The number that a list of digits of base sixteen stands for. -/
def hexNumber? (cs : List Char) : Option Nat :=
  cs.foldlM (fun n c => (Json.Token.hexValue? c).map (n * 16 + ·)) 0

/-- The character with a number, if there is one. -/
def charOf? (n : Nat) : Option Char := if n.isValidChar then some (Char.ofNat n) else none

/-- The one character that bytes encode. -/
def encoded? (bytes : List Nat) : Option Char :=
  match (String.fromUTF8? ⟨(bytes.map Nat.toUInt8).toArray⟩).map String.toList with
  | some [c] => some c
  | _ => none

/-- Reads the byte that two digits stand for. -/
def takeByte? : List Char → Option (Nat × List Char)
  | a :: b :: cs => (hexNumber? [a, b]).map (·, cs)
  | _ => none

/-- Reads the further bytes of a character, at most `most` of them, until it is complete. -/
def takeEncoded? (most : Nat) (bytes : List Nat) (cs : List Char) : Option (Char × List Char) :=
  match most, cs with
  | most + 1, '\\' :: 'x' :: cs => do
    let (b, cs) ← takeByte? cs
    let bytes := bytes ++ [b]
    match encoded? bytes with
    | some c => some (c, cs)
    | none => takeEncoded? most bytes cs
  | _, _ => none

/-- The character that a short escape stands for. -/
def escaped? (c : Char) : Option Char :=
  if c = '"' ∨ c = '\\' ∨ c = '\'' then some c
  else if c = 'n' then some '\n'
  else if c = 'r' then some '\r'
  else if c = 't' then some '\t'
  else if c = '0' then some (Char.ofNat 0)
  else none

/-- Reads what stands after a backslash.  A byte stands for itself among bytes; in a text several
bytes in a row may encode a character, in a character literal only one byte. -/
def takeEscape? (l : Literal) : List Char → Option (Char × List Char)
  | 'x' :: cs => do
    let (b, cs) ← takeByte? cs
    if b < 128 ∨ l = .bytes ∨ l = .byte then some (Char.ofNat b, cs)
    else if l = .text then takeEncoded? 3 [b] cs
    else none
  | 'u' :: '\x7b' :: cs => do
    let ds := cs.takeWhile (· ≠ '\x7d')
    if ds.isEmpty || ds.length > 6 || l = .byte then failure
    let c ← charOf? (← hexNumber? ds)
    return (c, cs.drop (ds.length + 1))
  | c :: cs => (escaped? c).map (·, cs)
  | [] => none

/-! ## Literals -/

/-- The characters up to the closing quote, and what follows the quote.  The fuel bounds the
number of characters. -/
def takeQuoted? (l : Literal) (fuel : Nat) (cs : List Char) : Option (List Char × List Char) :=
  match fuel with
  | 0 => none
  | fuel + 1 =>
    match cs with
    | [] => none
    | '"' :: cs => some ([], cs)
    | '\\' :: cs => do
      let (c, cs) ← takeEscape? l cs
      let (s, cs) ← takeQuoted? l fuel cs
      return (c :: s, cs)
    | c :: cs => do
      let (s, cs) ← takeQuoted? l fuel cs
      return (c :: s, cs)

/-- The characters up to a quote with `hashes` hash signs after it, and what follows them. -/
def takeUntil? (hashes : Nat) : List Char → Option (List Char × List Char)
  | [] => none
  | c :: cs =>
    if c = '"' ∧ cs.take hashes = List.replicate hashes '#' then some ([], cs.drop hashes)
    else do
      let (s, cs) ← takeUntil? hashes cs
      return (c :: s, cs)

/-- The characters of a literal without escapes: as many hash signs follow the closing quote as
stand in front of the opening one. -/
def takeRaw? (cs : List Char) : Option (List Char × List Char) :=
  let hashes := (cs.takeWhile (· = '#')).length
  match cs.drop hashes with
  | '"' :: cs => takeUntil? hashes cs
  | _ => none

/-- Passes over an apostrophe. -/
def skipApostrophe? : List Char → Option (List Char)
  | '\'' :: cs => some cs
  | _ => none

/-- Passes over a character or a byte between apostrophes, the first of which has been read. -/
def skipCharacter? (l : Literal) : List Char → Option (List Char)
  | '\\' :: cs => do
    let (_, cs) ← takeEscape? l cs
    skipApostrophe? cs
  | c :: cs => if l = .byte ∧ 128 ≤ c.toNat then none else skipApostrophe? cs
  | [] => none

/-! ## Tokens -/

/-- The token of a literal that no setting takes. -/
def otherThen (rest : Option (List Char × List Char)) : Option (Token × List Char) :=
  rest.map fun r => (.other, r.2)

/-- The token of a text. -/
def textThen (rest : Option (List Char × List Char)) : Option (Token × List Char) :=
  rest.map fun r => (.text (String.ofList r.1), r.2)

/-- The token at the start of a text, and what follows it. -/
def token? : List Char → Option (Token × List Char)
  | '"' :: cs => textThen (takeQuoted? .text (cs.length + 1) cs)
  | 'r' :: '"' :: cs => textThen (takeRaw? ('"' :: cs))
  | 'r' :: '#' :: '"' :: cs => textThen (takeRaw? ('#' :: '"' :: cs))
  | 'r' :: '#' :: '#' :: cs => textThen (takeRaw? ('#' :: '#' :: cs))
  | 'r' :: '#' :: cs =>
    match cs.takeWhile inRawName with
    | [] => none
    | s => some (.name true (String.ofList s), cs.dropWhile inRawName)
  | '\'' :: cs => (skipCharacter? .character cs).map (.other, ·)
  | 'b' :: '\'' :: cs => (skipCharacter? .byte cs).map (.other, ·)
  | 'b' :: '"' :: cs => otherThen (takeQuoted? .bytes (cs.length + 1) cs)
  | 'b' :: 'r' :: '"' :: cs => otherThen (takeRaw? ('"' :: cs))
  | 'b' :: 'r' :: '#' :: cs => otherThen (takeRaw? ('#' :: cs))
  | c :: cs =>
    if startsName c then
      some (.name false (String.ofList (c :: cs.takeWhile Text.inIdentifier)),
        cs.dropWhile Text.inIdentifier)
    else if startsNumber c then
      let number := c :: cs.takeWhile inRawName
      if isNumber number then some (.number number, cs.dropWhile inRawName) else none
    else some (.punctuation c, cs)
  | [] => none

/-- The tokens of a text; the fuel bounds their number. -/
def scan (fuel : Nat) (cs : List Char) : Option (List Token) :=
  match fuel with
  | 0 => none
  | fuel + 1 =>
    match cs with
    | [] => some []
    | '/' :: '/' :: cs => scan fuel (cs.dropWhile (· ≠ '\n'))
    | '/' :: '*' :: cs => do scan fuel (← skipComment 1 cs)
    | c :: cs =>
      if isBlank c then scan fuel cs
      else do
        let (t, rest) ← token? (c :: cs)
        return t :: (← scan fuel rest)

/-- The tokens of a settings file. -/
def tokens? (text : String) : Option (List Token) := scan (text.length + 1) text.toList

example : tokens? "(a: -1.5) // b" = some [.punctuation '(', .name false "a", .punctuation ':',
    .number "-1.5".toList, .punctuation ')'] := by decide +kernel
example : tokens? "r#\"a\"\"#" = some [.text "a\""] := by decide +kernel
example : tokens? "\"\\xC3\\xA9\\u\x7be9\x7d\"" = some [.text "éé"] := by decide +kernel
example : tokens? "1a" = none := by decide +kernel

end Dataflow.Settings
