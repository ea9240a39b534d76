/-
  Numbers in settings files.

  An integer is written in base ten, two, eight or sixteen.  A decimal has digits with a point
  anywhere among them and a power of ten, or is one of the words `inf` and `NaN`.  Underscores may
  group digits.  A width may follow, `3u8` or `0.5f32`: it bounds an integer, and a number with a
  width is only taken where that width is asked for.

  The same characters can be an integer and a decimal.  `isNumber` asks for either; which of them
  counts is decided where the number is used.
-/

import Dataflow.Json.Token
import Dataflow.Numeric.Reading

namespace Dataflow.Settings

/-! ## Integers -/

/-- A width of integers: its name, the least and the greatest integer. -/
structure Width where
  name : String
  least : Int
  most : Int

/-- The widths that can be written after an integer. -/
def integerWidths : List Width :=
  [⟨"i8", -128, 127⟩, ⟨"i16", -32768, 32767⟩, ⟨"i32", -2147483648, 2147483647⟩,
    ⟨"i64", -9223372036854775808, 9223372036854775807⟩, ⟨"u8", 0, 255⟩, ⟨"u16", 0, 65535⟩,
    ⟨"u32", 0, 4294967295⟩, ⟨"u64", 0, 18446744073709551615⟩]

/-- An integer and the name of the width that it was written with. -/
structure Integer where
  value : Int
  width : Option String
deriving DecidableEq

/-- Whether a character can stand among the digits of an integer, in any base. -/
def inInteger (c : Char) : Bool := c == '_' || (Json.Token.hexValue? c).isSome

/-- The number that digits stand for in a base; underscores are passed over, but the first
character is a digit. -/
def digitsIn? (base : Nat) (cs : List Char) : Option Nat :=
  match cs with
  | [] | '_' :: _ => none
  | cs =>
    (cs.filter (· ≠ '_')).foldlM (fun n c => do
      let d ← Json.Token.hexValue? c
      if d < base then some (n * base + d) else none) 0

/-- The base that the start of a number announces, and what follows the announcement. -/
def takeBase : List Char → Nat × List Char
  | '0' :: 'x' :: cs => (16, cs)
  | '0' :: 'o' :: cs => (8, cs)
  | '0' :: 'b' :: cs => (2, cs)
  | cs => (10, cs)

/-- An integer of the width that is written after its digits.  Without one it fits a word; in base
eight and sixteen there is none. -/
def withWidth? (base : Nat) (value : Int) (width : List Char) : Option Integer :=
  if width.isEmpty then
    if Numeric.leastWord ≤ value ∧ value < Numeric.wordLimit then some ⟨value, none⟩ else none
  else if base = 8 ∨ base = 16 then none
  else do
    let w ← integerWidths.find? (·.name = String.ofList width)
    if w.least ≤ value ∧ value ≤ w.most then some ⟨value, some w.name⟩ else none

/-- Reads an integer. -/
def integer? (cs : List Char) : Option Integer := do
  let (minus, cs) := Numeric.takeSign cs
  let (base, cs) := takeBase cs
  let n ← digitsIn? base (cs.takeWhile inInteger)
  withWidth? base (if minus then -(n : Int) else n) (cs.dropWhile inInteger)

/-! ## Decimals -/

/-- What a decimal says about its size. -/
inductive Magnitude where
  | infinite
  | undefined
  | finite (digits : Nat) (power : Int)
deriving DecidableEq

/-- A decimal and the width that it was written with, in bits. -/
structure Decimal where
  minus : Bool
  size : Magnitude
  width : Option Nat
deriving DecidableEq

/-- Takes the width off the end of a decimal. -/
def dropWidth (cs : List Char) : List Char × Option Nat :=
  match cs.reverse with
  | '2' :: '3' :: 'f' :: cs => (cs.reverse, some 32)
  | '4' :: '6' :: 'f' :: cs => (cs.reverse, some 64)
  | _ => (cs, none)

/-- Takes the underscores out of a decimal.  They may stand once a digit has been seen, but not
right after a point. -/
def ungroup? (allowed : Bool) : List Char → Option (List Char)
  | [] => some []
  | '_' :: cs => if allowed then ungroup? allowed cs else none
  | c :: cs => do
    let cs ← ungroup? (c ≠ '.' && (allowed || c.isDigit || c == 'e' || c == 'E')) cs
    return c :: cs

/-- The size that an unsigned decimal stands for. -/
def magnitude? (cs : List Char) : Option Magnitude :=
  if cs = "inf".toList then some .infinite
  else if cs = "NaN".toList then some .undefined
  else do
    let (digits, power) ← Numeric.readDecimal? (← ungroup? false cs)
    return .finite digits power

/-- Reads a decimal. -/
def decimal? (cs : List Char) : Option Decimal := do
  let (minus, cs) := Numeric.takeSign cs
  let (cs, width) := dropWidth cs
  return ⟨minus, ← magnitude? cs, width⟩

/-! ## Numbers -/

/-- Whether a text is an integer or a decimal. -/
def isNumber (cs : List Char) : Bool := (integer? cs).isSome || (decimal? cs).isSome

example : integer? "-1_000".toList = some ⟨-1000, none⟩ := by decide +kernel
example : integer? "0x1F".toList = some ⟨31, none⟩ := by decide +kernel
example : integer? "300u8".toList = none := by decide +kernel
example : decimal? "1_.5f32".toList = some ⟨false, .finite 15 (-1), some 32⟩ := by decide +kernel
example : decimal? "1._5".toList = none := by decide +kernel
example : isNumber "1-2".toList = false := by decide +kernel

end Dataflow.Settings
