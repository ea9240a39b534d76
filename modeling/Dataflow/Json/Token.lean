/-
  The tokens of JSON texts.

  `Token.scan` cuts a text into tokens and refuses it where no token starts.  A string is read
  as code points, halves of surrogate pairs included, and the halves are joined afterwards; a
  half without its partner makes a torn string, which can be passed over but not read.  A
  numeral is as long as the characters that can occur in one, so nothing that follows can
  belong to it.
-/

import Dataflow.Numeric.Reading

namespace Dataflow.Json

open Numeric (Numeral digitOf? takeDigits ofDigits)

/-- A token. -/
inductive Token where
  | openList
  | closeList
  | openRecord
  | closeRecord
  | comma
  | colon
  | null
  | bool (b : Bool)
  | num (n : Numeral)
  | str (s : String)
  | torn
deriving Repr

namespace Token

/-! ## Strings -/

/-- The number that one of sixteen digits stands for. -/
def hexValue? (c : Char) : Option Nat :=
  let n := c.toNat
  if 48 ≤ n ∧ n < 58 then some (n - 48)
  else if 97 ≤ n ∧ n < 103 then some (n - 87)
  else if 65 ≤ n ∧ n < 71 then some (n - 55)
  else none

/-- The code point or surrogate half that four digits stand for. -/
def hexUnit? (a b c d : Char) : Option Nat := do
  let a ← hexValue? a
  let b ← hexValue? b
  let c ← hexValue? c
  let d ← hexValue? d
  return ((a * 16 + b) * 16 + c) * 16 + d

/-- The character that a short escape stands for. -/
def escaped? (c : Char) : Option Nat :=
  if c = '"' ∨ c = '\\' ∨ c = '/' then some c.toNat
  else if c = 'b' then some 8
  else if c = 'f' then some 12
  else if c = 'n' then some 10
  else if c = 'r' then some 13
  else if c = 't' then some 9
  else none

/-- The units of a string up to its closing quote, and what follows the quote. -/
def takeUnits : List Char → Option (List Nat × List Char)
  | [] => none
  | '"' :: rest => some ([], rest)
  | '\\' :: 'u' :: a :: b :: c :: d :: rest => do
    let u ← hexUnit? a b c d
    let (us, rest) ← takeUnits rest
    return (u :: us, rest)
  | '\\' :: c :: rest => do
    let u ← escaped? c
    let (us, rest) ← takeUnits rest
    return (u :: us, rest)
  | c :: rest =>
    if c.toNat < 32 ∨ c = '\\' then none
    else do
      let (us, rest) ← takeUnits rest
      return (c.toNat :: us, rest)

/-- Joins surrogate pairs, if no half stands alone. -/
def join : List Nat → Option (List Char)
  | [] => some []
  | u :: us =>
    if 0xD800 ≤ u ∧ u < 0xDC00 then
      match us with
      | v :: us =>
        if 0xDC00 ≤ v ∧ v < 0xE000 then
          (join us).map (Char.ofNat (0x10000 + (u - 0xD800) * 0x400 + (v - 0xDC00)) :: ·)
        else none
      | [] => none
    else if 0xDC00 ≤ u ∧ u < 0xE000 then none
    else (join us).map (Char.ofNat u :: ·)

/-- The token of a string. -/
def string (us : List Nat) : Token :=
  match join us with
  | some s => str (String.ofList s)
  | none => torn

/-! ## Numerals -/

/-- Whether a character can occur in a numeral. -/
def inNumeral (c : Char) : Bool :=
  c.isDigit || c == '-' || c == '+' || c == '.' || c == 'e' || c == 'E'

/-- Reads the power of ten that ends a numeral. -/
def power? : List Char → Option (Option Int)
  | [] => some none
  | c :: cs =>
    if c = 'e' ∨ c = 'E' then
      let (minus, cs) := Numeric.takeSign cs
      match takeDigits cs with
      | (d :: ds, []) =>
        let n : Int := ofDigits (d :: ds)
        some (some (if minus then -n else n))
      | _ => none
    else none

/-- Takes a minus: whether there is one, and the rest. -/
def takeMinus : List Char → Bool × List Char
  | '-' :: cs => (true, cs)
  | cs => (false, cs)

/-- Takes a point and the digits behind it, if there is a point. -/
def fraction? : List Char → Option (List Numeric.Digit × List Char)
  | '.' :: cs =>
    match takeDigits cs with
    | ([], _) => none
    | (d :: ds, cs) => some (d :: ds, cs)
  | cs => some ([], cs)

/-- Reads a numeral: no zero in front of other digits, digits on both sides of a point. -/
def numeral? (cs : List Char) : Option Numeral := do
  let (negative, cs) := takeMinus cs
  let (whole, cs) := takeDigits cs
  if whole.isEmpty || (whole.head? == some .zero && whole.length > 1) then none
  else do
    let (fraction, cs) ← fraction? cs
    let exponent ← power? cs
    return ⟨negative, ofDigits whole, fraction, exponent⟩

/-! ## Tokens -/

/-- Whether a character separates tokens without being one. -/
def isBlank (c : Char) : Bool := c == ' ' || c == '\n' || c == '\t' || c == '\r'

/-- The token that a bracket, a comma or a colon is. -/
def punctuation? : Char → Option Token
  | '[' => some openList
  | ']' => some closeList
  | '\x7b' => some openRecord
  | '\x7d' => some closeRecord
  | ',' => some comma
  | ':' => some colon
  | _ => none

/-- The word at the start of a text, and what follows it. -/
def word? : List Char → Option (Token × List Char)
  | 'n' :: 'u' :: 'l' :: 'l' :: rest => some (null, rest)
  | 't' :: 'r' :: 'u' :: 'e' :: rest => some (bool true, rest)
  | 'f' :: 'a' :: 'l' :: 's' :: 'e' :: rest => some (bool false, rest)
  | _ => none

/-- The token at the start of a text that begins with `c`, and what follows it. -/
def first? (c : Char) (cs : List Char) : Option (Token × List Char) :=
  match punctuation? c with
  | some t => some (t, cs)
  | none =>
    if c = '"' then
      (takeUnits cs).map fun us => (string us.1, us.2)
    else if inNumeral c then
      (numeral? (c :: cs.takeWhile inNumeral)).map fun n => (num n, cs.dropWhile inNumeral)
    else word? (c :: cs)

theorem takeUnits_length {cs : List Char} {us : List Nat} {rest : List Char}
    (h : takeUnits cs = some (us, rest)) : rest.length ≤ cs.length := by
  fun_induction takeUnits cs generalizing us rest with
  | case1 => simp at h
  | case2 r =>
    simp only [Option.some.injEq, Prod.mk.injEq] at h
    simp [← h.2]
  | case3 a b c d r ih =>
    simp only [Option.bind_eq_bind, Option.pure_def, Option.bind_eq_some_iff, Option.some.injEq,
      Prod.mk.injEq, Prod.exists] at h
    obtain ⟨_, _, us', r', h', _, rfl⟩ := h
    have := ih h'
    simp only [List.length_cons]
    omega
  | case4 c r _ ih =>
    simp only [Option.bind_eq_bind, Option.pure_def, Option.bind_eq_some_iff, Option.some.injEq,
      Prod.mk.injEq, Prod.exists] at h
    obtain ⟨_, _, us', r', h', _, rfl⟩ := h
    have := ih h'
    simp only [List.length_cons]
    omega
  | case5 => simp at h
  | case6 c r _ _ _ _ ih =>
    simp only [Option.bind_eq_bind, Option.pure_def, Option.bind_eq_some_iff, Option.some.injEq,
      Prod.mk.injEq, Prod.exists] at h
    obtain ⟨us', r', h', _, rfl⟩ := h
    have := ih h'
    simp only [List.length_cons]
    omega

theorem word?_length {c : Char} {cs rest : List Char} {t : Token}
    (h : word? (c :: cs) = some (t, rest)) : rest.length ≤ cs.length := by
  unfold word? at h
  split at h
  case h_4 => simp at h
  all_goals
    next he =>
      simp only [Option.some.injEq, Prod.mk.injEq] at h
      obtain ⟨_, rfl⟩ := h
      injection he with _ he
      subst he
      simp only [List.length_cons]
      omega

/-- A token leaves no more than what followed its first character. -/
theorem first?_length {c : Char} {cs rest : List Char} {t : Token}
    (h : first? c cs = some (t, rest)) : rest.length ≤ cs.length := by
  unfold first? at h
  split at h
  · simp only [Option.some.injEq, Prod.mk.injEq] at h
    exact Nat.le_of_eq (congrArg List.length h.2.symm)
  · split at h
    · simp only [Option.map_eq_some_iff, Prod.mk.injEq, Prod.exists] at h
      obtain ⟨us, r, hu, _, rfl⟩ := h
      exact takeUnits_length hu
    · split at h
      · simp only [Option.map_eq_some_iff, Prod.mk.injEq] at h
        obtain ⟨n, _, _, rfl⟩ := h
        exact (List.dropWhile_sublist inNumeral).length_le
      · exact word?_length h

/-- The tokens of a text. -/
def scan (cs : List Char) : Option (List Token) :=
  match cs with
  | [] => some []
  | c :: cs =>
    if isBlank c then scan cs
    else
      match _h : first? c cs with
      | none => none
      | some (t, rest) => (scan rest).map (t :: ·)
termination_by cs.length
decreasing_by
  · simp
  · have := first?_length _h
    simp only [List.length_cons]
    omega

end Token

end Dataflow.Json
