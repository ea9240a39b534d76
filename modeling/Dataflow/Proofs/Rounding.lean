/-
  Rounding to 53 binary digits.

  A floating-point number has 53 binary digits, so of the whole numbers it has those with zeros only
  behind their first 53 digits (`Brief`).  Every other whole number is rounded (`rounded`): to the
  brief number that is nearest, and of two that are as near to the one whose last digit is even.
  This is what a mantissa that is too long is rounded to, if it denotes a whole number
  (`roundWithAccuracy_eq`), and what comes back after packing unless it is out of range
  (`unpack_pack_leading`).
-/

import Dataflow.Numeric.Width
import Mathlib

namespace Dataflow.Numeric

open Float.Model (UnpackedFloat Format totalExponent)
open Float.Model.UnpackedFloat

/-! ## Binary digits -/

theorem log2_mul_two_pow {n : Nat} (hn : 0 < n) (p : Nat) : (n * 2 ^ p).log2 = n.log2 + p := by
  have hlow := Nat.log2_self_le (Nat.ne_of_gt hn)
  have hhigh := @Nat.lt_log2_self n
  rw [Nat.log2_eq_iff (Nat.ne_of_gt (Nat.mul_pos hn (Nat.two_pow_pos p)))]
  constructor
  · rw [Nat.pow_add]
    exact Nat.mul_le_mul_right _ hlow
  · rw [show n.log2 + p + 1 = n.log2 + 1 + p by omega, Nat.pow_add]
    exact Nat.mul_lt_mul_of_pos_right hhigh (Nat.two_pow_pos p)

theorem log2_le {n : Nat} (hn : 0 < n) (hfits : n < 2 ^ 53) : n.log2 ≤ 52 := by
  have h := (Nat.log2_lt (Nat.ne_of_gt hn)).2 hfits
  omega

theorem log2_mono {a b : Nat} (h : a ≤ b) : a.log2 ≤ b.log2 := by
  rcases Nat.eq_zero_or_pos a with rfl | ha
  · exact Nat.zero_le _
  · exact (Nat.le_log2 (by omega)).2 (Nat.le_trans (Nat.log2_self_le (Nat.ne_of_gt ha)) h)

theorem pos_of_log2 {n : Nat} (h : 52 ≤ n.log2) : 0 < n := by
  rcases Nat.eq_zero_or_pos n with rfl | hn
  · cases h
  · exact hn

/-! ## The nearest multiple -/

/-- How often a unit goes into a number, rounded to the nearest; half way between two, to the even
one. -/
def halfEven (n unit : Nat) : Nat :=
  if unit < 2 * (n % unit) ∨ 2 * (n % unit) = unit ∧ n / unit % 2 = 1 then n / unit + 1
  else n / unit

theorem halfEven_mul (q : Nat) {unit : Nat} (hu : 0 < unit) : halfEven (q * unit) unit = q := by
  unfold halfEven
  rw [Nat.mul_mod_left, Nat.mul_div_cancel _ hu, if_neg (by omega)]

/-- Scaling the number and the unit changes nothing. -/
theorem halfEven_scale (n unit : Nat) {c : Nat} (hc : 0 < c) :
    halfEven (n * c) (unit * c) = halfEven n unit := by
  have htwice : 2 * (n % unit * c) = 2 * (n % unit) * c := (Nat.mul_assoc ..).symm
  have habove : unit * c < 2 * (n % unit) * c ↔ unit < 2 * (n % unit) := Nat.mul_lt_mul_right hc
  have hhalf : 2 * (n % unit) * c = unit * c ↔ 2 * (n % unit) = unit :=
    Nat.mul_left_inj (Nat.ne_of_gt hc)
  unfold halfEven
  simp only [Nat.mul_mod_mul_right, Nat.mul_div_mul_right _ _ hc, htwice, habove, hhalf]

/-- It is off by half a unit at most. -/
theorem halfEven_near (n : Nat) {unit : Nat} (hu : 0 < unit) :
    2 * (halfEven n unit * unit) ≤ 2 * n + unit ∧ 2 * n ≤ 2 * (halfEven n unit * unit) + unit := by
  have hn := Nat.div_add_mod' n unit
  have hr := Nat.mod_lt n hu
  have hnext : (n / unit + 1) * unit = n / unit * unit + unit := Nat.succ_mul ..
  unfold halfEven
  split <;> omega

theorem le_halfEven {n unit a : Nat} (hu : 0 < unit) (h : a * unit ≤ n) : a ≤ halfEven n unit := by
  have ha : a ≤ n / unit := (Nat.le_div_iff_mul_le hu).2 h
  unfold halfEven
  split <;> omega

theorem halfEven_le {n unit a : Nat} (hu : 0 < unit) (h : n ≤ a * unit) : halfEven n unit ≤ a := by
  by_contra hlt
  -- the next multiple after `a` is a whole unit further away than half of one
  have hnear := (halfEven_near n hu).1
  have hnext : (a + 1) * unit ≤ halfEven n unit * unit := Nat.mul_le_mul_right _ (by omega)
  rw [Nat.succ_mul] at hnext
  omega

/-- No multiple is nearer. -/
theorem halfEven_nearest (n q : Nat) {unit : Nat} (hu : 0 < unit) :
    ((n : Int) - (halfEven n unit * unit : Nat)).natAbs ≤ ((n : Int) - (q * unit : Nat)).natAbs := by
  obtain ⟨habove, hbelow⟩ := halfEven_near n hu
  rcases Nat.lt_trichotomy q (halfEven n unit) with h | h | h
  · have hstep : (q + 1) * unit ≤ halfEven n unit * unit := Nat.mul_le_mul_right _ h
    rw [Nat.succ_mul] at hstep
    omega
  · rw [h]
  · have hstep : (halfEven n unit + 1) * unit ≤ q * unit := Nat.mul_le_mul_right _ h
    rw [Nat.succ_mul] at hstep
    omega

/-! ## Brief numbers -/

/-- A whole number of 53 binary digits at most, apart from zeros at its end. -/
def Brief (n : Nat) : Prop := ∃ m k, m < 2 ^ 53 ∧ n = m * 2 ^ k

/-- What the last of the 53 leading binary digits of a whole number counts. -/
def unit (n : Nat) : Nat := 2 ^ (n.log2 - 52)

/-- The brief number that a whole number is rounded to. -/
def rounded (n : Nat) : Nat := halfEven n (unit n) * unit n

theorem unit_pos (n : Nat) : 0 < unit n := Nat.two_pow_pos _

theorem unit_eq {n k : Nat} (hlow : 2 ^ k ≤ n) (hhigh : n < 2 ^ (k + 1)) : unit n = 2 ^ (k - 52) := by
  have hpos : 0 < n := Nat.lt_of_lt_of_le (Nat.two_pow_pos k) hlow
  unfold unit
  rw [(Nat.log2_eq_iff (Nat.ne_of_gt hpos)).2 ⟨hlow, hhigh⟩]

/-- A whole number that is long enough counts 53 digits of units. -/
theorem units_bound {n : Nat} (h : 52 ≤ n.log2) : 2 ^ 52 * unit n ≤ n ∧ n < 2 ^ 53 * unit n := by
  unfold unit
  constructor
  · rw [← Nat.pow_add, Nat.add_sub_cancel' h]
    exact Nat.log2_self_le (Nat.ne_of_gt (pos_of_log2 h))
  · rw [← Nat.pow_add, show 53 + (n.log2 - 52) = n.log2 + 1 by omega]
    exact Nat.lt_log2_self

theorem unit_of_lt {n : Nat} (h : n < 2 ^ 53) : unit n = 1 := by
  have hle : n.log2 ≤ 52 := by
    rcases Nat.eq_zero_or_pos n with rfl | hn
    · decide
    · exact log2_le hn h
  unfold unit
  rw [Nat.sub_eq_zero_of_le hle, Nat.pow_zero]

theorem brief_of_lt {n : Nat} (h : n < 2 ^ 53) : Brief n := ⟨n, 0, h, (Nat.mul_one n).symm⟩

theorem brief_two_pow (k : Nat) : Brief (2 ^ k) := ⟨1, k, by decide, (Nat.one_mul _).symm⟩

/-- A brief number is a multiple of the unit of every number that has no more digits. -/
theorem Brief.unit_dvd {b n : Nat} (hb : Brief b) (h : n.log2 ≤ b.log2) : unit n ∣ b := by
  obtain ⟨m, k, hm, rfl⟩ := hb
  rcases Nat.eq_zero_or_pos m with rfl | hpos
  · rw [Nat.zero_mul]
    exact Nat.dvd_zero _
  · have hlog := log2_le hpos hm
    rw [log2_mul_two_pow hpos] at h
    exact Nat.dvd_mul_left_of_dvd (Nat.pow_dvd_pow 2 (by omega)) m

theorem Brief.multiple {b n : Nat} (hb : Brief b) (h : n ≤ b) : ∃ q, b = q * unit n := by
  obtain ⟨q, hq⟩ := hb.unit_dvd (log2_mono h)
  exact ⟨q, hq.trans (Nat.mul_comm ..)⟩

/-- Between a brief number and one that is not smaller there is a multiple of the unit: one with
fewer digits is below the power of two that the other starts with. -/
theorem Brief.multiple_between {b n : Nat} (hb : Brief b) (hn : 0 < n) (h : b ≤ n) :
    ∃ q, b ≤ q * unit n ∧ q * unit n ≤ n := by
  rcases Nat.lt_or_ge b.log2 n.log2 with hlt | hge
  · have hpow : 2 ^ (n.log2 - (n.log2 - 52)) * unit n = 2 ^ n.log2 := by
      unfold unit
      rw [← Nat.pow_add, Nat.sub_add_cancel (Nat.sub_le ..)]
    refine ⟨2 ^ (n.log2 - (n.log2 - 52)), ?_, ?_⟩
    · rw [hpow]
      exact Nat.le_of_lt (Nat.lt_of_lt_of_le Nat.lt_log2_self (Nat.pow_le_pow_right (by decide) hlt))
    · rw [hpow]
      exact Nat.log2_self_le (Nat.ne_of_gt hn)
  · obtain ⟨q, rfl⟩ := hb.unit_dvd hge
    rw [Nat.mul_comm] at h ⊢
    exact ⟨q, Nat.le_refl _, h⟩

theorem rounded_of_lt {n : Nat} (h : n < 2 ^ 53) : rounded n = n := by
  have hquot := halfEven_mul n Nat.one_pos
  rw [Nat.mul_one] at hquot
  unfold rounded
  rw [unit_of_lt h, hquot, Nat.mul_one]

/-- Rounding leaves 53 digits, and a zero behind them if rounding up took one digit more. -/
theorem halfEven_digits {n : Nat} (h : 52 ≤ n.log2) :
    ∃ d j, d.log2 = 52 ∧ halfEven n (unit n) = d * 2 ^ j := by
  obtain ⟨hleast, hmost⟩ := units_bound h
  have hlow : 2 ^ 52 ≤ halfEven n (unit n) := le_halfEven (unit_pos n) hleast
  have hhigh : halfEven n (unit n) ≤ 2 ^ 53 := halfEven_le (unit_pos n) (Nat.le_of_lt hmost)
  rcases Nat.lt_or_eq_of_le hhigh with hlt | heq
  · exact ⟨_, 0, (Nat.log2_eq_iff (by omega)).2 ⟨hlow, hlt⟩, (Nat.mul_one _).symm⟩
  · exact ⟨2 ^ 52, 1, Nat.log2_two_pow, heq⟩

theorem brief_rounded (n : Nat) : Brief (rounded n) := by
  rcases Nat.lt_or_ge n (2 ^ 53) with h | h
  · rw [rounded_of_lt h]
    exact brief_of_lt h
  · obtain ⟨d, j, hd, hdj⟩ := halfEven_digits ((Nat.le_log2 (by omega)).2 (show 2 ^ 52 ≤ n by omega))
    have hd53 : d < 2 ^ 53 :=
      (Nat.log2_lt (Nat.ne_of_gt (pos_of_log2 (Nat.le_of_eq hd.symm)))).1 (by omega)
    refine ⟨d, j + (n.log2 - 52), hd53, ?_⟩
    unfold rounded
    rw [hdj, Nat.pow_add, ← Nat.mul_assoc]
    rfl

/-- No brief number is nearer. -/
theorem rounded_nearest (n : Nat) {b : Nat} (hb : Brief b) :
    ((n : Int) - rounded n).natAbs ≤ ((n : Int) - b).natAbs := by
  rcases Nat.eq_zero_or_pos n with rfl | hn
  · exact Nat.zero_le _
  · rcases Nat.le_total b n with h | h
    · obtain ⟨q, hbelow, habove⟩ := hb.multiple_between hn h
      have hnear := halfEven_nearest n q (unit_pos n)
      unfold rounded
      omega
    · obtain ⟨q, rfl⟩ := hb.multiple h
      exact halfEven_nearest n q (unit_pos n)

theorem rounded_eq_iff {n : Nat} : rounded n = n ↔ Brief n := by
  constructor
  · intro h
    rw [← h]
    exact brief_rounded n
  · intro h
    have hnear := rounded_nearest n h
    omega

theorem rounded_le {n b : Nat} (hb : Brief b) (h : n ≤ b) : rounded n ≤ b := by
  have hnear := rounded_nearest n hb
  omega

theorem le_rounded {n b : Nat} (hb : Brief b) (h : b ≤ n) : b ≤ rounded n := by
  have hnear := rounded_nearest n hb
  omega

/-! ## Shifting -/

/-- Bits that are zero are shifted out without a trace. -/
theorem shiftRight_exact (m j : Nat) :
    (⟨m * 2 ^ j, false, false⟩ : ExtendedMantissa) >>> j = ⟨m, false, false⟩ := by
  show j.repeat ExtendedMantissa.shiftRightOne _ = _
  induction j generalizing m with
  | zero => rw [Nat.pow_zero, Nat.mul_one]; rfl
  | succ j ih =>
    have hm : m * 2 ^ (j + 1) = (m * 2) * 2 ^ j := by
      rw [Nat.pow_succ, Nat.mul_comm (2 ^ j), Nat.mul_assoc]
    show ExtendedMantissa.shiftRightOne (j.repeat _ _) = _
    rw [hm, ih]
    simp [ExtendedMantissa.shiftRightOne]

/-- Shifting the last digits out and rounding by what was shifted out. -/
theorem shiftRight_eq (n j : Nat) : (⟨n, false, false⟩ : ExtendedMantissa) >>> (j + 1) =
    ⟨n / 2 ^ (j + 1), n / 2 ^ j % 2 != 0, n % 2 ^ j != 0⟩ := by
  show (j + 1).repeat ExtendedMantissa.shiftRightOne _ = _
  induction j with
  | zero =>
    rw [Nat.pow_zero, Nat.div_one, Nat.mod_one]
    rfl
  | succ j ih =>
    show ExtendedMantissa.shiftRightOne ((j + 1).repeat ExtendedMantissa.shiftRightOne _) = _
    rw [ih]
    unfold ExtendedMantissa.shiftRightOne
    have hdiv : n / 2 ^ (j + 1) / 2 = n / 2 ^ (j + 2) := by
      rw [Nat.div_div_eq_div_mul, ← Nat.pow_succ]
    have hmod : n % 2 ^ (j + 1) = n % 2 ^ j + 2 ^ j * (n / 2 ^ j % 2) := Nat.mod_mul
    have hsticky : (n / 2 ^ j % 2 != 0 || n % 2 ^ j != 0) = (n % 2 ^ (j + 1) != 0) := by
      rw [hmod]
      have hpow := Nat.two_pow_pos j
      rcases Nat.mod_two_eq_zero_or_one (n / 2 ^ j) with h | h
      · simp [h]
      · simp [h]
    simp only [hdiv, hsticky]

theorem roundedMantissa_shiftRight (n j : Nat) :
    ((⟨n, false, false⟩ : ExtendedMantissa) >>> j).roundedMantissa = halfEven n (2 ^ j) := by
  cases j with
  | zero =>
    have h := halfEven_mul n Nat.one_pos
    rw [Nat.mul_one] at h
    exact h.symm
  | succ j =>
    have hmod : n % 2 ^ (j + 1) = n % 2 ^ j + 2 ^ j * (n / 2 ^ j % 2) := Nat.mod_mul
    have hdouble : 2 ^ (j + 1) = 2 * 2 ^ j := Nat.pow_succ'
    have hlow := Nat.mod_lt n (Nat.two_pow_pos j)
    rw [shiftRight_eq]
    unfold halfEven
    -- the last two digits say on which side of half a unit the rest is
    rcases Nat.mod_two_eq_zero_or_one (n / 2 ^ j) with hbit | hbit
    · rw [if_neg (by rw [hmod, hbit, hdouble]; omega), hbit]
      cases hrest : n % 2 ^ j != 0 <;> rfl
    · rw [hbit, Nat.mul_one] at hmod
      by_cases hrest : n % 2 ^ j = 0
      · rw [hbit, hrest]
        show n / 2 ^ (j + 1) + n / 2 ^ (j + 1) % 2 = _
        split <;> omega
      · have hsticky : (n % 2 ^ j != 0) = true := bne_iff_ne.2 hrest
        rw [if_pos (by omega), hbit, hsticky]
        rfl

/-! ## The number of a brief number -/

/-- What a mantissa and an exponent denote, without fractions. -/
theorem value_iff {m n : Nat} {e : Int} :
    (m : ℚ) * 2 ^ e = n ↔ m * 2 ^ e.toNat = n * 2 ^ (-e).toNat := by
  have hpow : (2 : ℚ) ^ e = 2 ^ e.toNat / 2 ^ (-e).toNat := by
    rw [← zpow_natCast, ← zpow_natCast, ← zpow_sub₀ (by norm_num)]
    congr 1
    omega
  rw [hpow, ← mul_div_assoc, div_eq_iff (by positivity)]
  exact_mod_cast Iff.rfl

/-- What a mantissa and an exponent denote has as many digits as they say. -/
theorem log2_of_value {m n : Nat} {e : Int} (hm : 0 < m) (h : (m : ℚ) * 2 ^ e = n) :
    (n.log2 : Int) = m.log2 + e := by
  rw [value_iff] at h
  have hpos : 0 < n := Nat.pos_of_mul_pos_right (h ▸ Nat.mul_pos hm (Nat.two_pow_pos _))
  have hlogs := congrArg Nat.log2 h
  rw [log2_mul_two_pow hm, log2_mul_two_pow hpos] at hlogs
  omega

/-- The 53 leading binary digits of a whole number, filled up with zeros. -/
def significand (n : Nat) : Nat := n * 2 ^ (52 - n.log2) / 2 ^ (n.log2 - 52)

theorem log2_significand {n : Nat} (hn : 0 < n) : (significand n).log2 = 52 := by
  unfold significand
  rcases Nat.le_total n.log2 52 with h | h
  · rw [Nat.sub_eq_zero_of_le h, Nat.pow_zero, Nat.div_one, log2_mul_two_pow hn]
    omega
  · rw [Nat.sub_eq_zero_of_le h, Nat.pow_zero, Nat.mul_one]
    obtain ⟨hleast, hmost⟩ := units_bound h
    have hlow : 2 ^ 52 ≤ n / 2 ^ (n.log2 - 52) := (Nat.le_div_iff_mul_le (unit_pos n)).2 hleast
    have hhigh : n / 2 ^ (n.log2 - 52) < 2 ^ 53 := (Nat.div_lt_iff_lt_mul (unit_pos n)).2 hmost
    exact (Nat.log2_eq_iff (by omega)).2 ⟨hlow, hhigh⟩

theorem significand_pos {n : Nat} (hn : n ≠ 0) : 0 < significand n :=
  pos_of_log2 (Nat.le_of_eq (log2_significand (Nat.pos_of_ne_zero hn)).symm)

/-- The number with this sign and the 53 leading binary digits of this magnitude. -/
def leading (s : Sign) (n : Nat) : UnpackedFloat :=
  if h : n = 0 then .zero s else .finite s (significand n) (n.log2 - 52) (significand_pos h)

theorem leading_pos (s : Sign) {n : Nat} (hn : n ≠ 0) :
    leading s n = .finite s (significand n) (n.log2 - 52) (significand_pos hn) := dif_neg hn

/-- A finite number with all its digits has the leading digits of what it denotes. -/
theorem finite_eq_leading (s : Sign) {m n : Nat} {e : Int} (hm : 0 < m) (hlog : m.log2 = 52)
    (h : (m : ℚ) * 2 ^ e = n) : .finite s m e hm = leading s n := by
  have hlogs := log2_of_value hm h
  rw [value_iff] at h
  have hn : n ≠ 0 := by
    rintro rfl
    rw [Nat.zero_mul] at h
    exact absurd h (Nat.ne_of_gt (Nat.mul_pos hm (Nat.two_pow_pos _)))
  have hexp : e = n.log2 - 52 := by omega
  have hdigits : significand n = m := by
    rw [show e.toNat = n.log2 - 52 by omega, show (-e).toNat = 52 - n.log2 by omega] at h
    unfold significand
    rw [← h]
    exact Nat.mul_div_cancel _ (Nat.two_pow_pos _)
  rw [leading_pos s hn]
  congr 1
  exact hdigits.symm

/-- All digits of a brief number are leading. -/
theorem Brief.significand_value {n : Nat} (hb : Brief n) :
    (significand n : ℚ) * 2 ^ ((n.log2 : Int) - 52) = n := by
  rw [value_iff, show ((n.log2 : Int) - 52).toNat = n.log2 - 52 by omega,
    show (-((n.log2 : Int) - 52)).toNat = 52 - n.log2 by omega]
  exact Nat.div_mul_cancel (Nat.dvd_mul_right_of_dvd (hb.unit_dvd (Nat.le_refl _)) _)

/-! ## Rounding to the number of a brief number -/

/-- A mantissa with all its digits stays, apart from zeros behind them. -/
theorem shiftToTarget_digits {m j : Nat} {e : Int} (hlog : m.log2 = 52) (he : -1074 ≤ e) :
    shiftToTargetExponent Format.binary64 (m * 2 ^ j) e .exact =
      ((⟨m, false, false⟩ : ExtendedMantissa), e + j) := by
  have hm : 0 < m := pos_of_log2 (Nat.le_of_eq hlog.symm)
  have htarget : Format.binary64.targetExponent (totalExponent (m * 2 ^ j) e) = e + j := by
    have hmin : Format.binary64.minExponent = -1074 := by decide
    have hbits : Format.binary64.mantissaBits = 53 := rfl
    unfold Format.targetExponent totalExponent
    rw [log2_mul_two_pow hm, hlog, hmin, hbits]
    omega
  unfold shiftToTargetExponent shiftToExponent
  rw [htarget]
  have hshift : (e + j - e).toNat = j := by omega
  simp only [hshift]
  refine Prod.ext ?_ rfl
  exact shiftRight_exact m j

/-- What is left when a mantissa is rounded denotes the brief number that is nearest. -/
theorem halfEven_value {m n : Nat} {e : Int} (hm : 52 ≤ m.log2) (hlogs : (n.log2 : Int) = m.log2 + e)
    (h : (m : ℚ) * 2 ^ e = n) :
    (halfEven m (unit m) : ℚ) * 2 ^ ((n.log2 : Int) - 52) = rounded n := by
  rw [value_iff] at h ⊢
  rw [show ((n.log2 : Int) - 52).toNat = n.log2 - 52 by omega,
    show (-((n.log2 : Int) - 52)).toNat = 52 - n.log2 by omega]
  rcases Nat.le_total 52 n.log2 with hn | hn
  · have hunit : unit m * 2 ^ e.toNat = unit n * 2 ^ (-e).toNat := by
      unfold unit
      rw [← Nat.pow_add, ← Nat.pow_add]
      congr 1
      omega
    have hsame : halfEven m (unit m) = halfEven n (unit n) := by
      rw [← halfEven_scale m _ (Nat.two_pow_pos e.toNat), h, hunit,
        halfEven_scale n _ (Nat.two_pow_pos _)]
    rw [hsame, Nat.sub_eq_zero_of_le hn, Nat.pow_zero, Nat.mul_one]
    rfl
  · -- the mantissa has zeros behind the digits, and these are shifted out
    have hfits : n < 2 ^ 53 := by
      refine Nat.lt_of_lt_of_le Nat.lt_log2_self (Nat.pow_le_pow_right (by decide) ?_)
      omega
    have hfill : m = n * 2 ^ (52 - n.log2) * unit m := by
      unfold unit
      rwa [show e.toNat = 0 by omega, Nat.pow_zero, Nat.mul_one,
        show (-e).toNat = 52 - n.log2 + (m.log2 - 52) by omega, Nat.pow_add, ← Nat.mul_assoc] at h
    have hquot : halfEven m (unit m) = n * 2 ^ (52 - n.log2) := by
      nth_rewrite 1 [hfill]
      exact halfEven_mul _ (unit_pos m)
    rw [hquot, rounded_of_lt hfits, Nat.sub_eq_zero_of_le hn, Nat.pow_zero, Nat.mul_one]

/-- Rounding a number that denotes a whole number gives the brief one that is nearest. -/
theorem roundWithAccuracy_eq (s : Sign) {m n : Nat} {e : Int} (hm : 52 ≤ m.log2)
    (h : (m : ℚ) * 2 ^ e = n) :
    roundWithAccuracy Format.binary64 s m e .exact = leading s (rounded n) := by
  have hpos : 0 < m := pos_of_log2 hm
  have hlogs := log2_of_value hpos h
  have hfirst : shiftToTargetExponent Format.binary64 m e .exact =
      ((⟨m, false, false⟩ : ExtendedMantissa) >>> (m.log2 - 52), (n.log2 : Int) - 52) := by
    have htarget : Format.binary64.targetExponent (totalExponent m e) = n.log2 - 52 := by
      have hmin : Format.binary64.minExponent = -1074 := by decide
      have hbits : Format.binary64.mantissaBits = 53 := rfl
      unfold Format.targetExponent totalExponent
      rw [hmin, hbits]
      omega
    have hshift : ((n.log2 : Int) - 52 - e).toNat = m.log2 - 52 := by omega
    unfold shiftToTargetExponent shiftToExponent
    simp only [htarget, hshift]
    refine Prod.ext rfl ?_
    show e + ((m.log2 - 52 : Nat) : Int) = _
    omega
  obtain ⟨d, j, hd, hdj⟩ := halfEven_digits hm
  have hvalue := halfEven_value hm hlogs h
  have hagain := shiftToTarget_digits (j := j) (e := (n.log2 : Int) - 52) hd (by omega)
  have hdpos : 0 < d := pos_of_log2 (Nat.le_of_eq hd.symm)
  unfold unit at hdj
  unfold roundWithAccuracy
  rw [hfirst]
  simp only [roundedMantissa_shiftRight, hdj, hagain]
  rw [dif_neg (Nat.ne_of_gt hdpos)]
  refine finite_eq_leading s hdpos hd ?_
  unfold unit at hvalue
  rw [zpow_add₀ (by norm_num), zpow_natCast, ← hvalue, hdj]
  push_cast
  ring

/-! ## Packing -/

/-- The implicit bit in front of a mantissa is the one that packing drops. -/
theorem toNat_append_ofNat {m : Nat} (hlow : 2 ^ 52 ≤ m) (hhigh : m < 2 ^ 53) :
    (1#1 ++ BitVec.ofNat 52 m).toNat = m := by
  rw [BitVec.toNat_append, ← Nat.shiftLeft_add_eq_or_of_lt (BitVec.isLt _), BitVec.toNat_ofNat,
    Nat.shiftLeft_eq]
  show 1 * 2 ^ 52 + m % 2 ^ 52 = m
  omega

/-- A mantissa of 53 bits whose exponent fits comes out as it went in. -/
theorem unpack_pack_normal (s : Sign) {m : Nat} {e : Int} (hm : 0 < m) (hlog : m.log2 = 52)
    (hlow : -1074 ≤ e) (hhigh : e ≤ 971) :
    unpack Format.binary64 (pack Format.binary64 (.finite s m e hm)) = .finite s m e hm := by
  obtain ⟨hleast, hmost⟩ := (Nat.log2_eq_iff (Nat.ne_of_gt hm)).1 hlog
  obtain ⟨k, hk⟩ : ∃ k : Nat, e + 1075 = k := Int.eq_ofNat_of_zero_le (by omega)
  have hexp : (BitVec.ofNat 11 k).toNat = k := by
    rw [BitVec.toNat_ofNat, Nat.mod_eq_of_lt (by omega)]
  have hnotall : BitVec.ofNat 11 k ≠ -1#11 := by
    intro h
    have hk' := congrArg BitVec.toNat h
    rw [hexp] at hk'
    change k = 2047 at hk'
    omega
  have hnotzero : BitVec.ofNat 11 k ≠ 0#11 := by
    intro h
    have hk' := congrArg BitVec.toNat h
    rw [hexp] at hk'
    change k = 0 at hk'
    omega
  have hpack : pack Format.binary64 (.finite s m e hm) =
      packComponents Format.binary64 s (BitVec.ofNat 11 k) (BitVec.ofNat 52 m) := by
    have hbiased : (e + (Format.binary64.exponentBias : Nat) + (52 : Nat)).toNat = k := by
      show (e + (1023 : Nat) + (52 : Nat)).toNat = k
      omega
    unfold pack
    rw [hbiased, hlog, if_neg, if_pos (show 52 + 1 = Format.binary64.mantissaBits from rfl)]
    show ¬2048 ≤ k + 1
    omega
  rw [hpack]
  unfold unpack
  simp only [unpackMantissa_packComponents, unpackExponent_packComponents,
    unpackSign_packComponents, hnotall, hnotzero, if_false]
  rw [Sign.ofBitVec_toBitVec]
  congr 1
  · exact toNat_append_ofNat hleast hmost
  · rw [hexp]
    show (k : Int) - ((1023 : Nat) + (52 : Nat)) = e
    omega

/-- The number of a brief number, which is infinite when it is out of range. -/
def ranged (s : Sign) (n : Nat) : UnpackedFloat :=
  if n.log2 ≤ 1023 then leading s n else .infinity s

theorem unpack_pack_leading (s : Sign) (n : Nat) :
    unpack Format.binary64 (pack Format.binary64 (leading s n)) = ranged s n := by
  unfold ranged
  by_cases hn : n = 0
  · subst hn
    cases s <;> rfl
  · have hlog := log2_significand (Nat.pos_of_ne_zero hn)
    rw [leading_pos s hn]
    split
    · exact unpack_pack_normal s _ hlog (by omega) (by omega)
    · have hbiased : 2048 ≤ ((n.log2 : Int) - 52 + (1023 : Nat) + (52 : Nat)).toNat + 1 := by omega
      have hpack : pack Format.binary64 (.finite s (significand n) (n.log2 - 52) (significand_pos hn)) =
          packedInfinity Format.binary64 s := if_pos hbiased
      rw [hpack]
      cases s <;> rfl

theorem ranged_of_le (s : Sign) {n b : Nat} (hb : b.log2 ≤ 1023) (h : n ≤ b) :
    ranged s n = leading s n := if_pos (Nat.le_trans (log2_mono h) hb)

theorem ranged_of_ge (s : Sign) {n k : Nat} (hk : 1024 ≤ k) (h : 2 ^ k ≤ n) :
    ranged s n = .infinity s := by
  have hlog := log2_mono h
  rw [Nat.log2_two_pow] at hlog
  exact if_neg (by omega)

/-! ## What a number denotes -/

/-- The whole number that the parts of a number denote, if they denote one. -/
def wholeParts? : UnpackedFloat → Option Int
  | .zero _ => some 0
  | .finite s m e _ => wholeOf? (isMinus s) m e
  | .infinity _ => none
  | .notANumber => none

theorem whole?_eq (x : Float) : whole? x = wholeParts? (parts x) := rfl

/-- The exact value of a finite number. -/
def value? (x : Float) : Option ℚ :=
  match parts x with
  | .zero _ => some 0
  | .finite s m e _ => some ((s.apply m : Int) * 2 ^ e)
  | .infinity _ | .notANumber => none

theorem signed_eq (s : Sign) (n : Nat) : (if isMinus s then -(n : Int) else n) = s.apply n := by
  cases s <;> rfl

theorem apply_mul (s : Sign) (n k : Nat) : s.apply (n * 2 ^ k : Nat) = s.apply n * 2 ^ k := by
  cases s with
  | negative =>
    show -((n * 2 ^ k : Nat) : Int) = -(n : Int) * 2 ^ k
    push_cast
    ring
  | positive => exact Nat.cast_mul ..

theorem wholeOf?_eq_some_iff {s : Sign} {m : Nat} {e z : Int} :
    wholeOf? (isMinus s) m e = some z ↔ ((s.apply m : Int) : ℚ) * 2 ^ e = z := by
  unfold wholeOf?
  cases e with
  | ofNat k =>
    simp only [signed_eq, Option.some_inj]
    rw [show m * Nat.pow 2 k = m * 2 ^ k from rfl, apply_mul,
      show (2 : ℚ) ^ Int.ofNat k = 2 ^ k from zpow_natCast ..]
    exact_mod_cast Iff.rfl
  | negSucc k =>
    rw [zpow_negSucc, ← div_eq_mul_inv, div_eq_iff (by positivity)]
    have hcast : ((s.apply m : Int) : ℚ) = z * 2 ^ (k + 1) ↔ s.apply m = z * 2 ^ (k + 1) := by
      exact_mod_cast Iff.rfl
    simp only [signed_eq, hcast]
    split
    · next hmod =>
      obtain ⟨q, hq⟩ := Nat.dvd_of_mod_eq_zero hmod
      have hm : m = q * 2 ^ (k + 1) := hq.trans (Nat.mul_comm ..)
      have hquot : m / Nat.pow 2 (k + 1) = q := by
        rw [hm]
        exact Nat.mul_div_cancel q (Nat.two_pow_pos _)
      have hpow : (2 : Int) ^ (k + 1) ≠ 0 := Int.ne_of_gt (Int.pow_pos (by decide))
      rw [hquot, hm, apply_mul, Option.some_inj]
      exact (Int.mul_eq_mul_right_iff hpow).symm
    · next hmod =>
      refine ⟨nofun, fun h => absurd ?_ hmod⟩
      have habs := congrArg Int.natAbs h
      rw [Int.natAbs_mul, Int.natAbs_pow] at habs
      have hm : m = z.natAbs * 2 ^ (k + 1) := by
        cases s with
        | negative => exact (Int.natAbs_neg m).symm.trans habs
        | positive => exact habs
      rw [hm]
      exact Nat.mul_mod_left ..

/-- A number is read as an integer exactly if that is what it denotes. -/
theorem whole?_eq_some_iff {x : Float} {n : Int} : whole? x = some n ↔ value? x = some (n : ℚ) := by
  rw [whole?_eq]
  unfold value?
  cases parts x with
  | zero s =>
    show some 0 = some n ↔ some (0 : ℚ) = some (n : ℚ)
    rw [Option.some_inj, Option.some_inj]
    exact_mod_cast Iff.rfl
  | finite s m e hm =>
    show wholeOf? (isMinus s) m e = some n ↔ some (((s.apply m : Int) : ℚ) * 2 ^ e) = some (n : ℚ)
    rw [wholeOf?_eq_some_iff, Option.some_inj]
  | infinity s => exact ⟨nofun, nofun⟩
  | notANumber => exact ⟨nofun, nofun⟩

theorem wholeParts?_leading (s : Sign) {n : Nat} (hb : Brief n) :
    wholeParts? (leading s n) = some (s.apply n) := by
  by_cases hn : n = 0
  · rw [hn]
    cases s <;> rfl
  · rw [leading_pos s hn]
    refine wholeOf?_eq_some_iff.2 ?_
    have hvalue := hb.significand_value
    cases s with
    | negative =>
      show ((-(significand n : Int) : Int) : ℚ) * _ = ((-(n : Int) : Int) : ℚ)
      push_cast
      rw [neg_mul, hvalue]
    | positive => exact_mod_cast hvalue

theorem whole?_leading {x : Float} {s : Sign} {n : Nat} (h : parts x = leading s n) (hn : Brief n) :
    whole? x = some (s.apply n) := by
  rw [whole?_eq, h, wholeParts?_leading s hn]

end Dataflow.Numeric
