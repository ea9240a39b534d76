/-
  Decimals that are whole numbers.

  A product of two brief numbers is rounded once, and so is a decimal that is a whole number,
  whatever way it is read (`parts_ofScientific`).  So an integer in range is the floating-point
  number that it is rounded to (`whole?_ofInt_rounded`).  An integer that is too long for a word is
  read from the digits that fit one, times a power of ten (`float?_ofInt`).
-/

import Dataflow.Proofs.Spelling
import Dataflow.Proofs.Wholes

namespace Dataflow.Numeric

open Float.Model (UnpackedFloat Format)
open Float.Model.UnpackedFloat

/-! ## Products -/

theorem Brief.mul_leading {a b : Nat} (ha : Brief a) (hb : Brief b) (s t : Sign) :
    mul Format.binary64 (leading s a) (leading t b) = leading (s * t) (rounded (a * b)) := by
  by_cases ha0 : a = 0
  · rw [ha0, Nat.zero_mul]
    by_cases hb0 : b = 0
    · rw [hb0]
      rfl
    · rw [leading_pos t hb0]
      rfl
  · by_cases hb0 : b = 0
    · rw [hb0, Nat.mul_zero, leading_pos s ha0]
      rfl
    · have hvalue : ((significand a * significand b : Nat) : ℚ) *
          2 ^ ((a.log2 : Int) - 52 + (b.log2 - 52)) = (a * b : Nat) := by
        rw [zpow_add₀ (by norm_num), Nat.cast_mul, Nat.cast_mul, ← ha.significand_value,
          ← hb.significand_value]
        ring
      have hlog : 52 ≤ (significand a * significand b).log2 := by
        have hmul := Nat.le_mul_of_pos_right (significand a) (significand_pos hb0)
        have hlow := (Nat.log2_eq_iff (Nat.ne_of_gt (significand_pos ha0))).1
          (log2_significand (Nat.pos_of_ne_zero ha0))
        exact (Nat.le_log2 (by omega)).2 (Nat.le_trans hlow.1 hmul)
      rw [leading_pos s ha0, leading_pos t hb0]
      exact roundWithAccuracy_eq (s * t) hlog hvalue

theorem parts_mul {x y : Float} {s t : Sign} {a b : Nat} (ha : Brief a) (hb : Brief b)
    (hx : parts x = leading s a) (hy : parts y = leading t b) :
    parts (x * y) = ranged (s * t) (rounded (a * b)) := by
  have hproduct : parts (x * y) =
      unpack Format.binary64 (pack Format.binary64 (mul Format.binary64 (parts x) (parts y))) := rfl
  rw [hproduct, hx, hy, ha.mul_leading hb, unpack_pack_leading]

/-! ## Decimals -/

theorem parts_powerOfTen (e : Fin 23) :
    parts Float.exactlyRepresentablePowersOfTen[e] = leading .positive (10 ^ e.val) := by
  have hbits : ∀ e : Fin 23, Float.exactlyRepresentablePowersOfTen[e].toBits.toBitVec =
      pack Format.binary64 (leading .positive (10 ^ e.val)) := by decide +kernel
  have hrange : ∀ e : Fin 23, (10 ^ e.val).log2 ≤ 1023 := by decide
  unfold parts
  rw [hbits, unpack_pack_leading]
  exact if_pos (hrange e)

theorem brief_powerOfTen (e : Fin 23) : Brief (10 ^ e.val) := by
  refine ⟨5 ^ e.val, e.val, ?_, ?_⟩
  · revert e
    decide
  · rw [← Nat.mul_pow]

/-- A decimal that is a whole number is read as the brief number that is nearest. -/
theorem parts_ofScientific (m e : Nat) :
    parts (Float.ofScientific m false e) = ranged .positive (rounded (m * 10 ^ e)) := by
  unfold Float.ofScientific
  split
  · next h =>
    have hm : parts m.toUInt64.toFloat = leading .positive m := by
      rw [parts_toFloat h.1, leading_of_lt _ h.1]
      rfl
    exact parts_mul (brief_of_lt h.1) (brief_powerOfTen ⟨e, by omega⟩) hm (parts_powerOfTen ⟨e, by omega⟩)
  · show unpack Format.binary64 (pack Format.binary64 (UnpackedFloat.ofScientific Format.binary64 m e)) = _
    rw [← unpack_pack_leading]
    by_cases hm : m = 0
    · rw [hm, Nat.zero_mul]
      rfl
    · have hpow : 0 < 10 ^ e := Nat.pow_pos (by decide)
      unfold UnpackedFloat.ofScientific
      rw [dif_neg hm]
      split
      · next he =>
        -- the power of ten alone is out of range
        have hexp : 1024 ≤ e := by
          change (2 : Int) ^ 11 < e at he
          omega
        have hlarge : 2 ^ e ≤ m * 10 ^ e := calc
          2 ^ e ≤ 10 ^ e := Nat.pow_le_pow_left (by decide) e
          _ ≤ m * 10 ^ e := Nat.le_mul_of_pos_left _ (Nat.pos_of_ne_zero hm)
        rw [unpack_pack_leading, ranged_of_ge _ hexp (le_rounded (brief_two_pow e) hlarge)]
        rfl
      · have hvalue : ((m <<< 53 * 10 ^ e : Nat) : ℚ) * 2 ^ (-53 + 0 : Int) = (m * 10 ^ e : Nat) := by
          rw [value_iff, Nat.shiftLeft_eq]
          show m * 2 ^ 53 * 10 ^ e * 2 ^ 0 = m * 10 ^ e * 2 ^ 53
          ring
        have hlog : 52 ≤ (m <<< 53 * 10 ^ e).log2 := by
          have hdigits : 2 ^ 53 ≤ m <<< 53 := by
            rw [Nat.shiftLeft_eq]
            exact Nat.le_mul_of_pos_left _ (Nat.pos_of_ne_zero hm)
          have hmul := Nat.le_mul_of_pos_right (m <<< 53) hpow
          exact (Nat.le_log2 (by omega)).2 (by omega)
        rw [if_neg (by omega), if_pos (Int.natCast_nonneg e)]
        exact congrArg (fun u => unpack Format.binary64 (pack Format.binary64 u))
          (roundWithAccuracy_eq .positive hlog hvalue)

/-! ## Integers -/

/-- The integer that an integer is rounded to. -/
def roundedInt (n : Int) : Int := if n < 0 then -(rounded n.natAbs : Int) else rounded n.natAbs

section Range

variable {b : Nat} (hb : Brief b) (hrange : b.log2 ≤ 1023)
include hb hrange

theorem parts_ofScientific_rounded {m e : Nat} (h : m * 10 ^ e ≤ b) :
    parts (Float.ofScientific m false e) = leading .positive (rounded (m * 10 ^ e)) := by
  rw [parts_ofScientific, ranged_of_le _ hrange (rounded_le hb h)]

theorem parts_ofNat_rounded {n : Nat} (h : n ≤ b) :
    parts (Float.ofNat n) = leading .positive (rounded n) := by
  have hn : n * 10 ^ 0 = n := Nat.mul_one n
  have hread := parts_ofScientific_rounded hb hrange (m := n) (e := 0) (by rwa [hn])
  rwa [hn] at hread

omit hb in
theorem parts_neg {x : Float} {s : Sign} {n : Nat} (h : n ≤ b) (hx : parts x = leading s n) :
    parts (-x) = leading (-s) n := by
  have hneg : (leading s n).neg = leading (-s) n := by
    unfold leading
    split <;> rfl
  have hparts : parts (-x) = unpack Format.binary64 (pack Format.binary64 (parts x).neg) := rfl
  rw [hparts, hx, hneg, unpack_pack_leading, ranged_of_le _ hrange h]

/-- An integer in range is the number that it is rounded to. -/
theorem whole?_ofInt_rounded {n : Int} (h : n.natAbs ≤ b) :
    whole? (Float.ofInt n) = some (roundedInt n) := by
  cases n with
  | ofNat N =>
    refine (whole?_leading (parts_ofNat_rounded hb hrange (n := N) h) (brief_rounded N)).trans ?_
    exact congrArg some (if_neg (Int.not_lt.2 (Int.natCast_nonneg N))).symm
  | negSucc N =>
    have hparts := parts_neg hrange (rounded_le hb h) (parts_ofNat_rounded hb hrange (n := N + 1) h)
    refine (whole?_leading hparts (brief_rounded _)).trans ?_
    exact congrArg some (if_pos (Int.negSucc_lt_zero N)).symm

end Range

theorem roundedInt_eq_iff {n : Int} : roundedInt n = n ↔ Brief n.natAbs := by
  rw [← rounded_eq_iff]
  unfold roundedInt
  split <;> omega

/-- No brief integer is nearer. -/
theorem roundedInt_nearest (n : Int) {b : Int} (hb : Brief b.natAbs) :
    (n - roundedInt n).natAbs ≤ (n - b).natAbs := by
  have hnear := rounded_nearest n.natAbs hb
  unfold roundedInt
  split <;> omega

/-- An integer below `2 ^ 53` is a number of its own. -/
theorem whole?_ofInt {n : Int} (hlow : -2 ^ 53 < n) (hhigh : n < 2 ^ 53) :
    whole? (Float.ofInt n) = some n := by
  have hfits : n.natAbs < 2 ^ 53 := by omega
  have hrange : (2 ^ 53).log2 ≤ 1023 := by
    rw [Nat.log2_two_pow]
    decide
  rw [whole?_ofInt_rounded (brief_two_pow 53) hrange (Nat.le_of_lt hfits),
    roundedInt_eq_iff.2 (brief_of_lt hfits)]

/-! ## Written integers -/

/-- A significand with digits appended to it. -/
def append (n : Nat) (ds : List Digit) : Nat := ds.foldl (fun n d => 10 * n + d.val) n

theorem le_append (n : Nat) (ds : List Digit) : n ≤ append n ds := by
  induction ds generalizing n with
  | nil => exact Nat.le_refl n
  | cons d ds ih =>
    have h := ih (10 * n + d.val)
    show n ≤ append (10 * n + d.val) ds
    omega

/-- Digits that fit a word are all taken. -/
theorem absorb_fits {n : Nat} {ds : List Digit} (h : append n ds < wordLimit) :
    absorb n ds = (append n ds, []) := by
  induction ds generalizing n with
  | nil => rfl
  | cons d ds ih =>
    have hd : append n (d :: ds) = append (n * 10 + d.val) ds := by
      rw [Nat.mul_comm]
      rfl
    rw [hd] at h ⊢
    have hle := le_append (n * 10 + d.val) ds
    unfold absorb
    rw [if_pos (by omega), ih h]

/-- Digits that do not fit leave a significand to which not one more can be appended. -/
theorem absorb_excess {n : Nat} {ds : List Digit} (hn : n < wordLimit) (h : wordLimit ≤ append n ds) :
    ∃ m d rest, absorb n ds = (m, d :: rest) ∧ m < wordLimit ∧ wordLimit ≤ m * 10 + d.val := by
  induction ds generalizing n with
  | nil => exact absurd hn (Nat.not_lt.2 h)
  | cons d ds ih =>
    have hd : append n (d :: ds) = append (n * 10 + d.val) ds := by
      rw [Nat.mul_comm]
      rfl
    unfold absorb
    split
    · next hfits =>
      rw [hd] at h
      exact ih hfits h
    · next hfull => exact ⟨n, d, ds, rfl, hn, Nat.not_lt.1 hfull⟩

theorem append_digits (n : Nat) : append 0 (digits n) = n := ofDigits_digits n

/-- The greatest number, which no power of ten that is taken in one step exceeds. -/
def greatest : Nat := (2 ^ 53 - 1) * 2 ^ 971

theorem brief_greatest : Brief greatest := ⟨_, _, by decide, rfl⟩

theorem log2_greatest : greatest.log2 = 1023 := log2_mul_two_pow (by decide) 971

theorem parts_tenPow {e : Nat} (he : e ≤ 308) :
    parts (Float.ofScientific 1 false e) = leading .positive (rounded (10 ^ e)) := by
  have hle : 1 * 10 ^ e ≤ greatest := by
    rw [Nat.one_mul]
    exact Nat.le_trans (Nat.pow_le_pow_right (by decide) he) (by decide +kernel)
  have hread := parts_ofScientific_rounded brief_greatest (Nat.le_of_eq log2_greatest) hle
  rwa [Nat.one_mul] at hread

theorem parts_ofNat_word {m : Nat} (h : m < wordLimit) :
    parts (Float.ofNat m) = leading .positive (rounded m) := by
  have hle : m ≤ 2 ^ 64 := Nat.le_of_lt h
  exact parts_ofNat_rounded (brief_two_pow 64) (by rw [Nat.log2_two_pow]; decide) hle

/-- What is read is the rounded product of two rounded numbers, which is in range. -/
theorem parts_scale? {m e : Nat} (hm : m < wordLimit) (hpos : 0 < m) {x : Float}
    (h : scale? (Float.ofNat m) e = some x) :
    parts x = leading .positive (rounded (rounded m * rounded (10 ^ e))) ∧
      (rounded (rounded m * rounded (10 ^ e))).log2 ≤ 1023 := by
  have hparts := parts_ofNat_word hm
  rw [scale?, if_pos (Int.natCast_nonneg e)] at h
  split at h
  · next he =>
    have hproduct := parts_mul (brief_rounded m) (brief_rounded (10 ^ e)) hparts
      (parts_tenPow (by omega))
    dsimp only at h
    split at h
    · cases h
    · next hinf =>
      cases h
      rw [Int.toNat_natCast] at hinf ⊢
      by_cases hrange : (rounded (rounded m * rounded (10 ^ e))).log2 ≤ 1023
      · exact ⟨hproduct.trans (if_pos hrange), hrange⟩
      · have hinfinite := hproduct.trans (if_neg hrange)
        refine absurd ?_ hinf
        show (parts (Float.ofNat m * Float.ofScientific 1 false e)).isInf = true
        rw [hinfinite]
        rfl
  · have hzero : (Float.ofNat m == 0) = false := by
      have hne : rounded m ≠ 0 := by
        have hone := le_rounded (brief_of_lt (show 1 < 2 ^ 53 by decide)) hpos
        omega
      show Float.Model.UnpackedFloat.beq (parts (Float.ofNat m)) (parts 0) = false
      rw [hparts, leading_pos _ hne]
      rfl
    rw [hzero] at h
    cases h

/-- An integer that does not fit a word is no integer where data is read, but a number. -/
theorem int?_eq_none {n : Int} (h : n < leastWord ∨ (wordLimit : Int) ≤ n) :
    (Numeral.ofInt n).int? = none := by
  have hinteger : (Numeral.ofInt n).isInteger = true := rfl
  unfold Numeral.int?
  rw [hinteger]
  show (if decide (n < 0) = true then _ else _) = _
  rcases h with h | h
  · have hneg : n < 0 := Int.lt_trans h (by decide)
    rw [if_pos (decide_eq_true hneg)]
    refine if_neg fun hfits => ?_
    have hk : leastWord ≤ -(n.natAbs : Int) := hfits.2
    omega
  · have hpos : ¬n < 0 := Int.not_lt.2 (Int.le_trans (by decide) h)
    rw [if_neg (by rwa [decide_eq_true_eq])]
    refine if_neg (Nat.not_lt.2 ?_)
    show wordLimit ≤ n.natAbs
    omega

/-- A written integer is read in one step, from all its digits or from as many as fit a word. -/
theorem float?_ofInt {n : Int} {x : Float} (h : (Numeral.ofInt n).float? = some x) :
    ∃ m e y, scale? (Float.ofNat m) (e : Nat) = some y ∧ x = (if n < 0 then -y else y) ∧
      m < wordLimit ∧ (n.natAbs < wordLimit → m = n.natAbs ∧ e = 0) ∧
      (wordLimit ≤ n.natAbs → 0 < e ∧ wordLimit ≤ m * 10 + 9) := by
  have hsigned : ∀ {m e : Nat}, ((scale? (Float.ofNat m) ((e : Int) - (0 : Nat) + 0)).map
      fun y => if decide (n < 0) = true then -y else y) = some x →
      ∃ y, scale? (Float.ofNat m) e = some y ∧ x = if n < 0 then -y else y := by
    intro m e h
    rw [Nat.cast_zero, Int.sub_zero, Int.add_zero] at h
    obtain ⟨y, hy, hx⟩ := Option.map_eq_some_iff.1 h
    refine ⟨y, hy, ?_⟩
    rw [← hx]
    simp
  unfold Numeral.ofInt Numeral.float? at h
  rcases Nat.lt_or_ge n.natAbs wordLimit with hn | hn
  · have hall : absorb 0 (digits n.natAbs) = _ := absorb_fits (by rwa [append_digits])
    rw [append_digits] at hall
    rw [hall] at h
    obtain ⟨y, hy, hx⟩ := hsigned (e := 0) h
    exact ⟨n.natAbs, 0, y, hy, hx, hn, fun _ => ⟨rfl, rfl⟩, fun hge => absurd hge (by omega)⟩
  · have hlong : wordLimit ≤ append 0 (digits n.natAbs) := by rwa [append_digits]
    obtain ⟨m, d, rest, hsome, hm, hfull⟩ := absorb_excess (by decide) hlong
    rw [hsome] at h
    obtain ⟨y, hy, hx⟩ := hsigned (e := (d :: rest).length) h
    have hd := d.isLt
    exact ⟨m, _, y, hy, hx, hm, fun hlt => absurd hlt (by omega),
      fun _ => ⟨Nat.succ_pos _, by omega⟩⟩

/-- What is read from more digits than fit a word is itself too large for a signed one. -/
theorem le_rounded_excess {m e : Nat} (he : 0 < e) (hm : wordLimit ≤ m * 10 + 9) :
    15 * 2 ^ 60 ≤ rounded (rounded m * rounded (10 ^ e)) := by
  have hten : 10 ≤ rounded (10 ^ e) :=
    le_rounded (brief_of_lt (by decide)) (Nat.le_self_pow (Nat.ne_of_gt he) 10)
  have htaken : 3 * 2 ^ 59 ≤ rounded m := by
    refine le_rounded ⟨3, 59, by decide, rfl⟩ ?_
    unfold wordLimit at hm
    omega
  refine le_rounded ⟨15, 60, by decide, rfl⟩ ?_
  exact Nat.le_trans (by decide) (Nat.mul_le_mul htaken hten)

end Dataflow.Numeric
