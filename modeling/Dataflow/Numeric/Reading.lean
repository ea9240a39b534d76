/-
  The number that a written number denotes.

  There are two ways to read.  Data is read in words of 64 bits: the leading digits that fit make
  a significand, which is then multiplied or divided once by a power of ten, each step rounded to
  the nearest; a number that leaves the range is refused.  Prose is read exactly: the nearest
  number to the decimal, out of range becoming infinite, and the names of the special numbers are
  known.
-/

import Dataflow.Numeric.Numeral
import Dataflow.Numeric.Word

namespace Dataflow.Numeric

/-! ## Data -/

/-- Appends digits to a significand while it stays a word; the digits left over come second. -/
def absorb (significand : Nat) : List Digit → Nat × List Digit
  | [] => (significand, [])
  | d :: ds =>
    if significand * 10 + d.val < wordLimit then absorb (significand * 10 + d.val) ds
    else (significand, d :: ds)

/-- A number times a power of ten, in one step where the power is in range; nothing when the
result is too large. -/
def scale? (x : Float) (e : Int) : Option Float :=
  if 0 ≤ e then
    if e ≤ 308 then
      let y := x * Float.ofScientific 1 false e.toNat
      if y.isInf then none else some y
    else if x == 0 then some x else none
  else if -308 ≤ e then some (x / Float.ofScientific 1 false (-e).toNat)
  else if x == 0 then some x
  else scale? (x / 1e308) (e + 308)
termination_by (-e).toNat
decreasing_by omega

/-- The number that a numeral denotes in data, unless it is too large. -/
def Numeral.float? (n : Numeral) : Option Float :=
  let (whole, excess) := absorb 0 (digits n.whole)
  let (significand, rest) := absorb whole n.fraction
  let used := n.fraction.length - rest.length
  let e := (excess.length : Int) - used + n.exponent.getD 0
  (scale? (Float.ofNat significand) e).map fun x => if n.negative then -x else x

/-- The integer that a numeral denotes: it is written as one, it is not minus zero, and it fits
a signed or an unsigned word. -/
def Numeral.int? (n : Numeral) : Option Int :=
  if !n.isInteger then none
  else if n.negative then
    let k : Int := -n.whole
    if n.whole ≠ 0 ∧ leastWord ≤ k then some k else none
  else if n.whole < wordLimit then some n.whole
  else none

/-! ## Prose -/

/-- Takes the digits at the start of a text. -/
def takeDigits : List Char → List Digit × List Char
  | [] => ([], [])
  | c :: cs =>
    match digitOf? c with
    | some d => let (ds, rest) := takeDigits cs; (d :: ds, rest)
    | none => ([], c :: cs)

/-- Takes a sign: whether it is a minus, and the rest. -/
def takeSign : List Char → Bool × List Char
  | '-' :: cs => (true, cs)
  | '+' :: cs => (false, cs)
  | cs => (false, cs)

/-- Reads the power of ten at the end of a decimal. -/
def readPower? : List Char → Option Int
  | [] => some 0
  | c :: cs =>
    if c = 'e' ∨ c = 'E' then
      let (minus, cs) := takeSign cs
      match takeDigits cs with
      | ([], _) => none
      | (ds, []) => some (if minus then -(ofDigits ds : Int) else ofDigits ds)
      | (_, _ :: _) => none
    else none

/-- Reads an unsigned decimal: digits with a point anywhere among them and a power of ten.  The
answer is a natural number and the power of ten that it is to be multiplied by. -/
def readDecimal? (cs : List Char) : Option (Nat × Int) :=
  let (whole, rest) := takeDigits cs
  let (fraction, rest) :=
    match rest with
    | '.' :: rest => takeDigits rest
    | rest => ([], rest)
  if whole.isEmpty && fraction.isEmpty then none
  else
    (readPower? rest).map fun power => (ofDigits (whole ++ fraction), power - fraction.length)

/-- The wide number nearest to a decimal. -/
def nearest (d : Nat × Int) : Float := Float.ofScientific d.1 (d.2 < 0) d.2.natAbs

/-- The narrow number nearest to a decimal. -/
def nearestSingle (d : Nat × Int) : Float32 := Float32.ofScientific d.1 (d.2 < 0) d.2.natAbs

/-- Reads a number written in prose. -/
def readFloat? (text : String) : Option Float :=
  let (minus, cs) := takeSign text.toList
  let signed (x : Float) : Float := if minus then -x else x
  let word := String.ofList (cs.map Char.toLower)
  if word = "inf" ∨ word = "infinity" then some (signed (1.0 / 0.0))
  else if word = "nan" then some (0.0 / 0.0)
  else (readDecimal? cs).map fun d => signed (nearest d)

example : (⟨false, 18446744073709551615, [], none⟩ : Numeral).int? = some 18446744073709551615 := by
  decide
example : (⟨true, 0, [], none⟩ : Numeral).int? = none := by decide

end Dataflow.Numeric
