/-
  Written numbers: a sign, a whole part, the digits of a fraction and a power of ten.

  A numeral is what stands on the page; `3`, `3.0` and `3e0` are three numerals.  `chars` writes
  one in its canonical spelling.  What number a numeral denotes is decided where it is read.
-/

namespace Dataflow.Numeric

/-- A decimal digit. -/
abbrev Digit := Fin 10

/-- The digit zero. -/
def Digit.zero : Digit := 0

/-- A number as it is written. -/
structure Numeral where
  negative : Bool
  whole : Nat
  fraction : List Digit
  exponent : Option Int
deriving DecidableEq, Repr, Inhabited

/-! ## Digits -/

/-- The character of a digit. -/
def digitChar (d : Digit) : Char := Char.ofNat (48 + d.val)

/-- The digit that a character stands for. -/
def digitOf? (c : Char) : Option Digit :=
  if h : 48 ≤ c.toNat ∧ c.toNat < 58 then some ⟨c.toNat - 48, by omega⟩ else none

theorem digitOf?_digitChar (d : Digit) : digitOf? (digitChar d) = some d := by
  revert d; decide

/-- The decimal digits of a natural number, the first one first. -/
def digits (n : Nat) : List Digit := (Nat.toDigits 10 n).filterMap digitOf?

/-- The natural number with the given decimal digits. -/
def ofDigits (ds : List Digit) : Nat := ds.foldl (fun n d => 10 * n + d.val) 0

/-! ## Spelling -/

/-- The canonical spelling: the exponent, if there is one, always with its sign. -/
def Numeral.chars (n : Numeral) : List Char :=
  (if n.negative then ['-'] else []) ++ (digits n.whole).map digitChar
    ++ (match n.fraction with
        | [] => []
        | ds => '.' :: ds.map digitChar)
    ++ (match n.exponent with
        | none => []
        | some e => 'e' :: (if e < 0 then '-' else '+') :: (digits e.natAbs).map digitChar)

/-- The canonical spelling as a string. -/
def Numeral.text (n : Numeral) : String := String.ofList n.chars

/-- The numeral of an integer. -/
def Numeral.ofInt (n : Int) : Numeral := ⟨n < 0, n.natAbs, [], none⟩

/-- Whether a numeral is written as an integer: no fraction and no exponent. -/
def Numeral.isInteger (n : Numeral) : Bool := n.fraction.isEmpty && n.exponent.isNone

example : (Numeral.ofInt (-17)).text = "-17" := by decide
example : (⟨false, 1, [5], some (-7)⟩ : Numeral).text = "1.5e-7" := by decide

end Dataflow.Numeric
