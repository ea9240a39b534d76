/-
  The shortest decimal that reads back as a given binary number.

  A binary number owns an interval of reals, those that round to it: up to half way to each
  neighbour, the ends included exactly when its mantissa is even.  `shortest` tries the decimal
  grids from coarse to fine; on each grid only the two points around the number can be the
  nearest hit, so it tests those two.  The first grid with a hit wins, of two hits the nearer,
  and an exact tie goes as the caller says.  All arithmetic is on natural numbers.
-/

import Dataflow.Numeric.Width

namespace Dataflow.Numeric

open Float.Model (Format)

/-! ## Decimals -/

/-- The number `digits · 10 ^ exponent`. -/
structure Decimal where
  digits : Nat
  exponent : Int
deriving DecidableEq, Repr

/-- Where an exact tie between two neighbours goes. -/
inductive Tie where
  | toEven
  | up
deriving DecidableEq, Repr

/-- The number of decimal digits. -/
def digitCount (n : Nat) : Nat := (Nat.toDigits 10 n).length

/-- Drops the zeros at the end of the digits, at most `fuel` of them. -/
def Decimal.trim (fuel : Nat) (d : Decimal) : Decimal :=
  match fuel with
  | 0 => d
  | n + 1 => if d.digits % 10 = 0 then Decimal.trim n ⟨d.digits / 10, d.exponent + 1⟩ else d

/-- The place of the first digit: the number lies below `10 ^ point` and not below a tenth
of that. -/
def Decimal.point (d : Decimal) : Int := digitCount d.digits + d.exponent

/-! ## The interval that rounds to a number -/

/-- A positive rational as a fraction of naturals. -/
structure Fraction where
  num : Nat
  den : Nat

/-- `n · 2 ^ e` as a fraction. -/
def Fraction.binary (n : Nat) (e : Int) : Fraction :=
  match e with
  | .ofNat k => ⟨n * Nat.pow 2 k, 1⟩
  | .negSucc k => ⟨n, Nat.pow 2 (k + 1)⟩

/-- `n · 10 ^ k` as a fraction. -/
def Fraction.decimal (n : Nat) (k : Int) : Fraction :=
  match k with
  | .ofNat j => ⟨n * Nat.pow 10 j, 1⟩
  | .negSucc j => ⟨n, Nat.pow 10 (j + 1)⟩

/-- Whether one fraction is less than another. -/
def Fraction.lt (x y : Fraction) : Bool := x.num * y.den < y.num * x.den

/-- Whether one fraction is at most another. -/
def Fraction.le (x y : Fraction) : Bool := x.num * y.den ≤ y.num * x.den

/-- The reals that round to a binary number. -/
structure Neighbourhood where
  low : Fraction
  centre : Fraction
  high : Fraction
  closed : Bool

/-- The neighbourhood of `m · 2 ^ e`.  Just above a power of two the gap below is half as wide,
unless the number already has the least exponent. -/
def Neighbourhood.of (format : Format) (m : Nat) (e : Int) : Neighbourhood :=
  let narrow := m = Nat.pow 2 (format.mantissaBits - 1) ∧ format.minExponent < e
  { low := .binary (if narrow then 4 * m - 1 else 4 * m - 2) (e - 2)
    centre := .binary (4 * m) (e - 2)
    high := .binary (4 * m + 2) (e - 2)
    closed := m % 2 = 0 }

/-- Whether a positive rational rounds to the number. -/
def Neighbourhood.holds (n : Neighbourhood) (x : Fraction) : Bool :=
  if n.closed then n.low.le x && x.le n.high else n.low.lt x && x.lt n.high

/-! ## The search -/

/-- The place of the first digit of a fraction. -/
def Fraction.point (x : Fraction) : Int :=
  let guess : Int := (digitCount x.num : Int) - digitCount x.den
  if (Fraction.decimal 1 guess).le x then guess + 1 else guess

/-- The grid point `n` of spacing `10 ^ k` that is not above `x`. -/
def Fraction.below (x : Fraction) (k : Int) : Nat :=
  match k with
  | .ofNat j => x.num / (x.den * Nat.pow 10 j)
  | .negSucc j => x.num * Nat.pow 10 (j + 1) / x.den

/-- Whether `x` lies nearer to the upper neighbour `n + 1` than to `n` on the grid of spacing
`10 ^ k`, a tie decided as told. -/
def Fraction.prefersUpper (x : Fraction) (tie : Tie) (n : Nat) (k : Int) : Bool :=
  let twice : Fraction := ⟨2 * x.num, x.den⟩
  let middle := Fraction.decimal (2 * n + 1) k
  middle.lt twice || (middle.le twice && (match tie with | .up => true | .toEven => n % 2 = 1))

/-- The grid point of spacing `10 ^ k` that reads back as the number, the nearest if both
neighbours do. -/
def Neighbourhood.hit? (n : Neighbourhood) (tie : Tie) (k : Int) : Option Nat :=
  let lower := n.centre.below k
  match n.holds (.decimal lower k) && lower ≠ 0, n.holds (.decimal (lower + 1) k) with
  | true, true => some (if n.centre.prefersUpper tie lower k then lower + 1 else lower)
  | true, false => some lower
  | false, true => some (lower + 1)
  | false, false => none

/-- The first hit on the grids below place `k`, at most `fuel` of them. -/
def Neighbourhood.search (n : Neighbourhood) (tie : Tie) (fuel : Nat) (k : Int) : Decimal :=
  match fuel with
  | 0 => ⟨n.centre.below k, k⟩
  | fuel + 1 =>
    match n.hit? tie k with
    | some d => ⟨d, k⟩
    | none => n.search tie fuel (k - 1)

/-- The shortest decimal that reads back as `m · 2 ^ e`, nearest first. -/
def shortest (format : Format) (tie : Tie) (m : Nat) (e : Int) : Decimal :=
  let n := Neighbourhood.of format m e
  (n.search tie 20 (n.centre.point - 1)).trim 20

example : shortest .binary64 .toEven 7205759403792794 (-56) = ⟨1, -1⟩ := by decide +kernel
example : shortest .binary64 .toEven 1 (-1074) = ⟨5, -324⟩ := by decide +kernel
example : shortest .binary64 .toEven 4503599627370496 (-52) = ⟨1, 0⟩ := by decide +kernel

end Dataflow.Numeric
