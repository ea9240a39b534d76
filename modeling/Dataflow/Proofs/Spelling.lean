/-
  What is written can be read: numerals and strings.

  Reading the digits of a natural number gives the number back, reading a numeral in its canonical
  spelling gives the numeral back, whatever it is, and a string between quotes reads as its own
  characters, whichever of them were escaped.  Nothing is assumed about numbers here: a numeral is
  what stands on the page, and which number it denotes is a question for those who read it.
-/

import Dataflow.Json.Token
import Dataflow.Json.Tree

namespace Dataflow.Numeric

/-! ## Digits -/

private theorem digitOf?_ofNat : ∀ d : Digit, digitOf? (Nat.digitChar d.val) = some d := by decide

theorem digits_of_lt {n : Nat} (h : n < 10) : digits n = [⟨n, h⟩] := by
  unfold digits
  rw [Nat.toDigits_of_lt_base h, List.filterMap_cons_some (digitOf?_ofNat ⟨n, h⟩)]
  rfl

theorem digits_of_le {n : Nat} (h : 10 ≤ n) :
    digits n = digits (n / 10) ++ [⟨n % 10, Nat.mod_lt n (by decide)⟩] := by
  unfold digits
  rw [Nat.toDigits_of_base_le (by decide) h, List.filterMap_append,
    List.filterMap_cons_some (digitOf?_ofNat ⟨n % 10, Nat.mod_lt n (by decide)⟩)]
  rfl

theorem digits_ne_nil (n : Nat) : digits n ≠ [] := by
  rcases Nat.lt_or_ge n 10 with h | h
  · rw [digits_of_lt h]
    exact List.cons_ne_nil _ _
  · rw [digits_of_le h]
    exact List.append_ne_nil_of_right_ne_nil _ (List.cons_ne_nil _ _)

theorem ofDigits_append (ds : List Digit) (d : Digit) :
    ofDigits (ds ++ [d]) = 10 * ofDigits ds + d.val := by
  unfold ofDigits
  rw [List.foldl_append]
  rfl

theorem ofDigits_digits (n : Nat) : ofDigits (digits n) = n := by
  induction n using Nat.strongRecOn with
  | ind n ih =>
    rcases Nat.lt_or_ge n 10 with h | h
    · rw [digits_of_lt h]
      show 10 * 0 + n = n
      omega
    · have hdiv : ofDigits (digits (n / 10)) = n / 10 := ih (n / 10) (by omega)
      rw [digits_of_le h, ofDigits_append, hdiv]
      show 10 * (n / 10) + n % 10 = n
      omega

/-- Only zero is written with a zero in front. -/
theorem head?_digits_ne_zero {n : Nat} (h : 0 < n) : (digits n).head? ≠ some .zero := by
  induction n using Nat.strongRecOn with
  | ind n ih =>
    rcases Nat.lt_or_ge n 10 with hlt | hge
    · rw [digits_of_lt hlt, List.head?_cons]
      intro hz
      have : n = 0 := congrArg Fin.val (Option.some.inj hz)
      omega
    · have hhead : (digits (n / 10)).head? ≠ some .zero := ih (n / 10) (by omega) (by omega)
      obtain ⟨d, ds, hd⟩ := List.exists_cons_of_ne_nil (digits_ne_nil (n / 10))
      rw [digits_of_le hge, hd]
      rwa [hd] at hhead

theorem digitOf?_eq_none {c : Char} (h : c.isDigit = false) : digitOf? c = none := by
  unfold digitOf?
  rw [dif_neg]
  intro hc
  have : c.isDigit = true := by
    simp only [Char.isDigit, ge_iff_le, Bool.and_eq_true, decide_eq_true_eq]
    exact ⟨hc.1, Nat.le_of_lt_succ hc.2⟩
  rw [this] at h
  cases h

/-- Digits are taken up to the first character that is none. -/
theorem takeDigits_map (ds : List Digit) {cs : List Char} (h : ∀ c ∈ cs.head?, c.isDigit = false) :
    takeDigits (ds.map digitChar ++ cs) = (ds, cs) := by
  induction ds with
  | nil =>
    cases cs with
    | nil => rfl
    | cons c cs =>
      rw [List.map_nil, List.nil_append, takeDigits, digitOf?_eq_none (h c rfl)]
  | cons d ds ih =>
    rw [List.map_cons, List.cons_append, takeDigits, digitOf?_digitChar]
    simp only [ih]

theorem takeDigits_map_self (ds : List Digit) : takeDigits (ds.map digitChar) = (ds, []) := by
  have h := @takeDigits_map ds [] (fun c hc => by cases hc)
  rwa [List.append_nil] at h

end Dataflow.Numeric

namespace Dataflow.Json

open Numeric

/-! ## Numerals -/

namespace Token

/-- The spelling of a power of ten. -/
def powerChars : Option Int → List Char
  | none => []
  | some e => 'e' :: (if e < 0 then '-' else '+') :: (digits e.natAbs).map digitChar

theorem power?_powerChars (e : Option Int) : power? (powerChars e) = some e := by
  cases e with
  | none => rfl
  | some e =>
    obtain ⟨d, ds, hd⟩ := List.exists_cons_of_ne_nil (digits_ne_nil e.natAbs)
    have hvalue : ofDigits (d :: ds) = e.natAbs := by rw [← hd, ofDigits_digits]
    have hsign : takeSign ((if e < 0 then '-' else '+') :: (digits e.natAbs).map digitChar)
        = (decide (e < 0), (digits e.natAbs).map digitChar) := by
      by_cases he : e < 0
      · rw [if_pos he, decide_eq_true he]
        rfl
      · rw [if_neg he, decide_eq_false he]
        rfl
    rw [powerChars, power?, if_pos (Or.inl rfl), hsign]
    simp only [takeDigits_map_self]
    rw [hd]
    simp only [hvalue, decide_eq_true_eq]
    split <;> exact congrArg (fun e => some (some e)) (by omega)

theorem head?_powerChars (e : Option Int) : ∀ c ∈ (powerChars e).head?, c = 'e' := by
  cases e with
  | none => exact fun c hc => by cases hc
  | some e => exact fun c hc => (Option.some.inj hc).symm

/-- Only zero has a zero in front, so the whole part of a numeral is not refused. -/
theorem whole_ok (n : Nat) :
    ((digits n).isEmpty || ((digits n).head? == some .zero && (digits n).length > 1)) = false := by
  rcases Nat.eq_zero_or_pos n with rfl | h
  · rfl
  · simp [digits_ne_nil, head?_digits_ne_zero h]

/-- The spelling of a fraction. -/
def fractionChars : List Digit → List Char
  | [] => []
  | ds => '.' :: ds.map digitChar

theorem fraction?_fractionChars (ds : List Digit) (e : Option Int) :
    fraction? (fractionChars ds ++ powerChars e) = some (ds, powerChars e) := by
  have hpower : ∀ c ∈ (powerChars e).head?, c.isDigit = false := by
    intro c hc
    rw [head?_powerChars e c hc]
    decide
  cases ds with
  | nil => cases e <;> rfl
  | cons d ds =>
    show fraction? ('.' :: ((d :: ds).map digitChar ++ powerChars e)) = _
    rw [fraction?, takeDigits_map (d :: ds) hpower]

/-- What follows the whole part of a numeral does not start with a digit. -/
theorem head?_fractionChars (ds : List Digit) (e : Option Int) :
    ∀ c ∈ (fractionChars ds ++ powerChars e).head?, c.isDigit = false := by
  intro c hc
  cases ds with
  | nil =>
    rw [head?_powerChars e c hc]
    decide
  | cons d ds =>
    cases hc
    decide

theorem takeMinus_sign (negative : Bool) {cs : List Char} (h : '-' ∉ cs.head?) :
    takeMinus ((if negative then ['-'] else []) ++ cs) = (negative, cs) := by
  cases negative with
  | true => rfl
  | false =>
    show takeMinus cs = _
    unfold takeMinus
    split
    · exact absurd rfl h
    · rfl

/-- The parts of the canonical spelling. -/
theorem chars_eq (n : Numeral) :
    n.chars = (if n.negative then ['-'] else [])
      ++ ((digits n.whole).map digitChar
        ++ (fractionChars n.fraction ++ powerChars n.exponent)) := by
  obtain ⟨_, _, fraction, exponent⟩ := n
  unfold Numeral.chars
  cases fraction <;> cases exponent <;> simp [fractionChars, powerChars]

theorem digitChar_ne_minus : ∀ d : Digit, digitChar d ≠ '-' := by decide

/-- Reading a numeral in its canonical spelling gives the numeral back. -/
theorem numeral?_chars (n : Numeral) : numeral? n.chars = some n := by
  have hsign : '-' ∉ ((digits n.whole).map digitChar
      ++ (fractionChars n.fraction ++ powerChars n.exponent)).head? := by
    obtain ⟨d, ds, hd⟩ := List.exists_cons_of_ne_nil (digits_ne_nil n.whole)
    rw [hd]
    exact fun h => digitChar_ne_minus d (Option.some.inj h)
  have hwhole := takeDigits_map (digits n.whole) (head?_fractionChars n.fraction n.exponent)
  rw [chars_eq, numeral?, takeMinus_sign n.negative hsign]
  simp only [hwhole, whole_ok, Bool.false_eq_true, if_false, fraction?_fractionChars,
    power?_powerChars, ofDigits_digits, Option.bind_eq_bind, Option.bind_some, Option.pure_def]

/-- A numeral is made of the characters that can occur in one. -/
theorem inNumeral_of_mem_chars {n : Numeral} {c : Char} (h : c ∈ n.chars) : inNumeral c = true := by
  have hdigit : ∀ d : Digit, inNumeral (digitChar d) = true := by decide
  have hdigits : ∀ ds : List Digit, c ∈ ds.map digitChar → inNumeral c = true := by
    intro ds hc
    obtain ⟨d, _, rfl⟩ := List.mem_map.1 hc
    exact hdigit d
  rw [chars_eq] at h
  simp only [List.mem_append] at h
  rcases h with h | h | h | h
  · split at h
    · cases List.mem_singleton.1 h
      decide
    · cases h
  · exact hdigits _ h
  · cases hf : n.fraction with
    | nil =>
      rw [hf] at h
      cases h
    | cons d ds =>
      rw [hf] at h
      rcases List.mem_cons.1 h with rfl | h
      · decide
      · exact hdigits _ h
  · cases he : n.exponent with
    | none =>
      rw [he] at h
      cases h
    | some e =>
      rw [he, powerChars, List.mem_cons, List.mem_cons] at h
      rcases h with rfl | rfl | h
      · decide
      · split <;> decide
      · exact hdigits _ h

theorem chars_ne_nil (n : Numeral) : n.chars ≠ [] := by
  rw [chars_eq]
  simp [digits_ne_nil]

/-! ## Strings -/

theorem hexValue?_hexDigit : ∀ n < 16, hexValue? (Tree.hexDigit n) = some n := by decide

/-- What is read after one more unit. -/
def after (u : Nat) (us : Option (List Nat × List Char)) : Option (List Nat × List Char) :=
  us.map fun us => (u :: us.1, us.2)

theorem takeUnits_short {c : Char} {u : Nat} (hc : c ≠ 'u') (hu : escaped? c = some u)
    (cs : List Char) : takeUnits ('\\' :: c :: cs) = after u (takeUnits cs) := by
  rw [takeUnits.eq_def]
  split
  · next h => cases h
  · next h => cases h
  · next h => cases h; exact absurd rfl hc
  · next h =>
    cases h
    rw [hu]
    cases takeUnits cs <;> rfl
  · next hn h =>
    cases h
    exact absurd rfl (hn c cs rfl)

theorem takeUnits_code {c : Char} (h : c.toNat < 32) (cs : List Char) :
    takeUnits ('\\' :: 'u' :: '0' :: '0' :: Tree.hexDigit (c.toNat / 16)
      :: Tree.hexDigit (c.toNat % 16) :: cs) = after c.toNat (takeUnits cs) := by
  have hunit : hexUnit? '0' '0' (Tree.hexDigit (c.toNat / 16)) (Tree.hexDigit (c.toNat % 16))
      = some c.toNat := by
    have hzero : hexValue? '0' = some 0 := by decide
    unfold hexUnit?
    rw [hzero, hexValue?_hexDigit _ (by omega), hexValue?_hexDigit _ (by omega)]
    show some _ = _
    congr 1
    omega
  rw [takeUnits, hunit]
  cases takeUnits cs <;> rfl

theorem takeUnits_plain {c : Char} (hq : c ≠ '"') (hb : c ≠ '\\') (h : 32 ≤ c.toNat)
    (cs : List Char) : takeUnits (c :: cs) = after c.toNat (takeUnits cs) := by
  rw [takeUnits.eq_def]
  split
  · next he => cases he
  · next he => cases he; exact absurd rfl hq
  · next he => cases he; exact absurd rfl hb
  · next he => cases he; exact absurd rfl hb
  · next he =>
    cases he
    rw [if_neg (by simp only [not_or]; exact ⟨by omega, hb⟩)]
    cases takeUnits cs <;> rfl

/-- An escaped character reads as itself, whatever follows it. -/
theorem takeUnits_escape (c : Char) (cs : List Char) :
    takeUnits (Tree.escape c ++ cs) = after c.toNat (takeUnits cs) := by
  unfold Tree.escape
  split
  next h =>
    subst h
    exact takeUnits_short (by decide) rfl cs
  split
  next h =>
    subst h
    exact takeUnits_short (by decide) rfl cs
  -- the five with a letter of their own
  split
  next h => rw [h]; exact takeUnits_short (by decide) rfl cs
  split
  next h => rw [h]; exact takeUnits_short (by decide) rfl cs
  split
  next h => rw [h]; exact takeUnits_short (by decide) rfl cs
  split
  next h => rw [h]; exact takeUnits_short (by decide) rfl cs
  split
  next h => rw [h]; exact takeUnits_short (by decide) rfl cs
  split
  next h => exact takeUnits_code h cs
  next hq hb _ _ _ _ _ h => exact takeUnits_plain hq hb (by omega) cs

theorem takeUnits_escapes (cs rest : List Char) :
    takeUnits (cs.flatMap Tree.escape ++ '"' :: rest) = some (cs.map Char.toNat, rest) := by
  induction cs with
  | nil => rfl
  | cons c cs ih =>
    rw [List.flatMap_cons, List.append_assoc, takeUnits_escape, ih]
    rfl

/-- No character is half of a pair. -/
theorem join_toNat (cs : List Char) : join (cs.map Char.toNat) = some cs := by
  induction cs with
  | nil => rfl
  | cons c cs ih =>
    have hvalid : c.toNat < 0xD800 ∨ 0xDFFF < c.toNat := by
      have := c.valid
      rcases this with h | h
      · exact Or.inl h
      · exact Or.inr h.1
    rw [List.map_cons, join.eq_def]
    simp only
    rw [if_neg (by omega), if_neg (by omega), ih, Char.ofNat_toNat]
    rfl

theorem string_toNat (s : String) : string (s.toList.map Char.toNat) = str s := by
  unfold string
  rw [join_toNat]
  exact congrArg str (String.ofList_toList)

end Token

end Dataflow.Json
