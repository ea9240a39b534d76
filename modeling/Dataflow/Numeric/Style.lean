/-
  How a number is laid out once its digits are known.

  A style says which numbers are written in plain positions and which with a power of ten,
  whether a whole number keeps a fraction of zero, and where an exact tie between two shortest
  decimals goes.  The styles of this library are records of that type, and `Style.wide` and
  `Style.narrow` write a number of either width in a style.
-/

import Dataflow.Numeric.Numeral
import Dataflow.Numeric.Shortest

namespace Dataflow.Numeric

open Float.Model (UnpackedFloat Format)

/-- The choices that a way of writing numbers makes.  `plain p` tells whether a number whose
first digit stands just below `10 ^ p` is written without a power of ten. -/
structure Style where
  plain : Int → Bool
  pointAlways : Bool
  tie : Tie

namespace Style

/-- Wide numbers in data: positions from `1e-5` up to `1e16`, always with a point. -/
def data : Style := ⟨fun p => -4 ≤ p && p ≤ 16, true, .toEven⟩

/-- Narrow numbers in data: positions from `1e-6` up to `1e13`, always with a point. -/
def narrowData : Style := ⟨fun p => -5 ≤ p && p ≤ 13, true, .toEven⟩

/-- Numbers in prose: positions only, a whole number without a point. -/
def prose : Style := ⟨fun _ => true, false, .up⟩

/-- Numbers in settings: positions only, always with a point. -/
def settings : Style := ⟨fun _ => true, true, .up⟩

/-- The fraction of a whole number. -/
def wholeFraction (s : Style) : List Digit := if s.pointAlways then [.zero] else []

/-- Lays out a decimal. -/
def layOut (s : Style) (negative : Bool) (d : Decimal) : Numeral :=
  let ds := digits d.digits
  let p := d.point
  if s.plain p then
    if p ≤ 0 then
      ⟨negative, 0, List.replicate (-p).toNat .zero ++ ds, none⟩
    else if 0 ≤ d.exponent then
      ⟨negative, d.digits * Nat.pow 10 d.exponent.toNat, s.wholeFraction, none⟩
    else
      ⟨negative, ofDigits (ds.take p.toNat), ds.drop p.toNat, none⟩
  else
    ⟨negative, ofDigits (ds.take 1), ds.drop 1, some (p - 1)⟩

/-- The numeral of an unpacked number, unless it is infinite or undefined. -/
def numeral? (s : Style) (format : Format) : UnpackedFloat → Option Numeral
  | .zero sign => some ⟨isMinus sign, 0, s.wholeFraction, none⟩
  | .finite sign m e _ => some (s.layOut (isMinus sign) (shortest format s.tie m e))
  | .infinity _ => none
  | .notANumber => none

/-- The numeral of a wide number, unless it is infinite or undefined. -/
def wide? (s : Style) (x : Float) : Option Numeral := s.numeral? .binary64 (parts x)

/-- The numeral of a narrow number, unless it is infinite or undefined. -/
def narrow? (s : Style) (x : Float32) : Option Numeral := s.numeral? .binary32 (singleParts x)

/-- The words for the numbers that have no numeral. -/
def special : UnpackedFloat → String
  | .infinity .negative => "-inf"
  | .infinity .positive => "inf"
  | _ => "NaN"

/-- The text of a wide number. -/
def wide (s : Style) (x : Float) : String :=
  match s.wide? x with
  | some n => n.text
  | none => special (parts x)

/-- The text of a narrow number. -/
def narrow (s : Style) (x : Float32) : String :=
  match s.narrow? x with
  | some n => n.text
  | none => special (singleParts x)

example : data.wide 1e16 = "1e+16" := by decide +kernel
example : data.wide 0.00001 = "0.00001" := by decide +kernel
example : prose.wide 1e22 = "10000000000000000000000" := by decide +kernel
example : settings.wide (-2.5) = "-2.5" := by decide +kernel

end Style

end Dataflow.Numeric
