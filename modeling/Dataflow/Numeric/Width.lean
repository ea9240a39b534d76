/-
  Binary numbers of two widths, and the integers among them.

  Every finite binary number is a signed mantissa times a power of two.  Going to the narrow
  format rounds to the nearest number, a tie to the even mantissa, and what is too large becomes
  infinite; going to the wide format is exact.  `whole?` reads a number as an integer without
  rounding, by looking at the mantissa and the exponent alone.
-/

namespace Dataflow.Numeric

open Float.Model (UnpackedFloat Format)

/-- The sign, mantissa and exponent of a wide number. -/
def parts (x : Float) : UnpackedFloat := UnpackedFloat.unpack Format.binary64 x.toBits.toBitVec

/-- The sign, mantissa and exponent of a narrow number. -/
def singleParts (x : Float32) : UnpackedFloat :=
  UnpackedFloat.unpack Format.binary32 x.toBits.toBitVec

/-- The narrow number nearest to a wide one. -/
def single (x : Float) : Float32 :=
  match parts x with
  | .finite s m e _ => .ofModel (Float32.Model.pack (UnpackedFloat.round Format.binary32 s m e))
  | u => .ofModel (Float32.Model.pack u)

/-- The wide number equal to a narrow one. -/
def double (x : Float32) : Float :=
  match singleParts x with
  | .finite s m e _ => .ofModel (Float.Model.pack (UnpackedFloat.round Format.binary64 s m e))
  | u => .ofModel (Float.Model.pack u)

/-- Whether a sign is a minus. -/
def isMinus : UnpackedFloat.Sign → Bool
  | .negative => true
  | .positive => false

/-- The integer that a mantissa and an exponent denote, if they denote one. -/
def wholeOf? (minus : Bool) (mantissa : Nat) (exponent : Int) : Option Int :=
  let signed (n : Nat) : Int := if minus then -(n : Int) else n
  match exponent with
  | .ofNat k => some (signed (mantissa * Nat.pow 2 k))
  | .negSucc k =>
    let parts := Nat.pow 2 (k + 1)
    if mantissa % parts = 0 then some (signed (mantissa / parts)) else none

/-- The integer equal to a number, if there is one: none for a fraction, an infinity or an
undefined number. -/
def whole? (x : Float) : Option Int :=
  match parts x with
  | .zero _ => some 0
  | .finite s m e _ => wholeOf? (isMinus s) m e
  | .infinity _ => none
  | .notANumber => none

/-- The larger of two narrow numbers; an undefined one loses. -/
def larger (x y : Float32) : Float32 :=
  if x.isNaN then y else if y.isNaN then x else if x < y then y else x

example : whole? 3.0 = some 3 := by decide +kernel
example : whole? (-0.5) = none := by decide +kernel
example : whole? 1e20 = some 100000000000000000000 := by decide +kernel
example : (double (single 0.1)) == 0.10000000149011612 := by decide +kernel

end Dataflow.Numeric
