/-
  Whole numbers among the floating-point numbers.

  A whole number below `2 ^ 53` fits the mantissa, so it has a floating-point number of its own
  (`wholeFloat`), and rounding to that changes nothing (`roundWithAccuracy_whole`).  A sum of two such numbers is worked out
  exactly before it is rounded.  So counting up by one is exact (`whole?_add_one`), until the count
  no longer fits.
-/

import Dataflow.Proofs.Rounding

namespace Dataflow.Numeric

open Float.Model (UnpackedFloat Format totalExponent)
open Float.Model.UnpackedFloat

/-! ## The number of a whole number -/

/-- The finite number with this sign and this magnitude. -/
def ofMagnitude (s : Sign) (n : Nat) : UnpackedFloat :=
  if h : n = 0 then .zero s
  else .finite s (n * 2 ^ (52 - n.log2)) (n.log2 - 52)
    (Nat.mul_pos (Nat.pos_of_ne_zero h) (Nat.two_pow_pos _))

/-- The number of a whole number. -/
def wholeFloat (n : Int) : UnpackedFloat :=
  ofMagnitude (if n < 0 then .negative else .positive) n.natAbs

theorem leading_of_lt (s : Sign) {n : Nat} (h : n < 2 ^ 53) : leading s n = ofMagnitude s n := by
  rcases Nat.eq_zero_or_pos n with rfl | hn
  · rfl
  · have hlog := log2_le hn h
    unfold leading ofMagnitude
    rw [dif_neg (Nat.ne_of_gt hn), dif_neg (Nat.ne_of_gt hn)]
    congr 1
    unfold significand
    rw [Nat.sub_eq_zero_of_le hlog, Nat.pow_zero, Nat.div_one]

/-! ## Rounding -/

section Magnitude

variable {n : Nat} (hn : 0 < n) (hfits : n < 2 ^ 53)
include hn hfits

theorem target_whole (p : Nat) :
    Format.binary64.targetExponent (totalExponent (n * 2 ^ p) (-p)) = n.log2 - 52 := by
  have hle := log2_le hn hfits
  have hmin : Format.binary64.minExponent = -1074 := by decide
  have hbits : Format.binary64.mantissaBits = 53 := rfl
  unfold Format.targetExponent totalExponent
  rw [log2_mul_two_pow hn, hmin, hbits]
  omega

theorem roundWithAccuracy_whole (s : Sign) {p : Nat} (hp : 52 - n.log2 ≤ p) :
    roundWithAccuracy Format.binary64 s (n * 2 ^ p) (-p) .exact = ofMagnitude s n := by
  have hlog : 52 ≤ (n * 2 ^ p).log2 := by
    rw [log2_mul_two_pow hn]
    omega
  have hvalue : ((n * 2 ^ p : Nat) : ℚ) * 2 ^ (-(p : Int)) = n := by
    rw [value_iff, Int.toNat_neg_natCast, Int.neg_neg, Int.toNat_natCast, Nat.pow_zero, Nat.mul_one]
  rw [roundWithAccuracy_eq s hlog hvalue, rounded_of_lt hfits, leading_of_lt s hfits]

theorem round_whole (s : Sign) (p : Nat) :
    UnpackedFloat.round Format.binary64 s (n * 2 ^ p) (-p) = ofMagnitude s n := by
  have hle := log2_le hn hfits
  unfold UnpackedFloat.round decreaseExponent
  simp only [target_whole hn hfits]
  by_cases hp : 52 - n.log2 ≤ p
  · have hshift : (-(p : Int) - ((n.log2 : Int) - 52)).toNat = 0 := by omega
    rw [hshift, Nat.shiftLeft_zero, Int.natCast_zero, Int.sub_zero]
    exact roundWithAccuracy_whole hn hfits s hp
  · -- the mantissa has too few bits, and gets more
    have hshift : (-(p : Int) - ((n.log2 : Int) - 52)).toNat = 52 - n.log2 - p := by omega
    have hmore : (n * 2 ^ p) <<< (52 - n.log2 - p) = n * 2 ^ (52 - n.log2) := by
      rw [Nat.shiftLeft_eq, Nat.mul_assoc, ← Nat.pow_add]
      congr 2
      omega
    have hexp : -(p : Int) - ((52 - n.log2 - p : Nat) : Int) = -((52 - n.log2 : Nat) : Int) := by
      omega
    rw [hshift, hmore, hexp]
    exact roundWithAccuracy_whole hn hfits s (Nat.le_refl _)

end Magnitude

theorem unpack_pack_ofMagnitude (s : Sign) {n : Nat} (hfits : n < 2 ^ 53) :
    unpack Format.binary64 (pack Format.binary64 (ofMagnitude s n)) = ofMagnitude s n := by
  have hrange : (2 ^ 53).log2 ≤ 1023 := by
    rw [Nat.log2_two_pow]
    decide
  rw [← leading_of_lt s hfits, unpack_pack_leading, ranged_of_le s hrange (Nat.le_of_lt hfits)]

theorem wholeParts?_ofMagnitude (s : Sign) {n : Nat} (hfits : n < 2 ^ 53) :
    wholeParts? (ofMagnitude s n) = some (s.apply n) := by
  rw [← leading_of_lt s hfits, wholeParts?_leading s (brief_of_lt hfits)]

/-! ## Sums -/

theorem normalize_whole {n : Int} (hfits : n.natAbs < 2 ^ 53) (p : Nat) :
    UnpackedFloat.normalize Format.binary64 (n * 2 ^ p) (-p) .positive = wholeFloat n := by
  have hpow : (0 : Int) < 2 ^ p := Int.pow_pos (by decide)
  unfold UnpackedFloat.normalize wholeFloat
  rcases Int.lt_trichotomy n 0 with hn | rfl | hn
  · have hneg : n * 2 ^ p < 0 := Int.mul_neg_of_neg_of_pos hn hpow
    have habs : (-(n * 2 ^ p)).toNat = n.natAbs * 2 ^ p := by
      rw [← Int.neg_mul, show -n = (n.natAbs : Int) by omega]
      exact Int.toNat_natCast (n.natAbs * 2 ^ p)
    rw [Int.compare_eq_lt.2 hneg, if_pos hn]
    simp only [habs]
    exact round_whole (by omega) hfits .negative p
  · rw [Int.zero_mul]
    rfl
  · have hpos : 0 < n * 2 ^ p := Int.mul_pos hn hpow
    have habs : (n * 2 ^ p).toNat = n.natAbs * 2 ^ p := by
      rw [show n * 2 ^ p = (n.natAbs : Int) * 2 ^ p by rw [show (n.natAbs : Int) = n by omega]]
      exact Int.toNat_natCast (n.natAbs * 2 ^ p)
    rw [Int.compare_eq_gt.2 hpos, if_neg (by omega)]
    simp only [habs]
    exact round_whole (by omega) hfits .positive p

/-- The parts of the number one. -/
theorem parts_one : parts 1.0 = ofMagnitude .positive 1 := rfl

theorem parts_add (x y : Float) :
    parts (x + y) = unpack Format.binary64
      (pack Format.binary64 (add Format.binary64 (parts x) (parts y))) := rfl

/-- The mantissa of a whole number, once its exponent is low enough for that of one. -/
theorem apply_aligned {s : Sign} {m : Nat} {e n : Int} (h : wholeOf? (isMinus s) m e = some n) :
    ∃ p : Nat, 52 ≤ p ∧ min e (-52) = -(p : Int) ∧
      s.apply (m <<< (e - min e (-52)).toNat : Nat) = n * 2 ^ p := by
  obtain ⟨p, hp⟩ : ∃ p : Nat, min e (-52) = -(p : Int) := ⟨(-(min e (-52))).toNat, by omega⟩
  obtain ⟨k, hk⟩ : ∃ k : Nat, e + p = k := ⟨(e + p).toNat, by omega⟩
  refine ⟨p, by omega, hp, ?_⟩
  have hvalue : ((s.apply m : Int) : ℚ) * 2 ^ k = n * 2 ^ p := by
    rw [← wholeOf?_eq_some_iff.1 h, mul_assoc, ← zpow_natCast, ← zpow_natCast,
      ← zpow_add₀ (by norm_num), hk]
  rw [show (e - min e (-52)).toNat = k by omega, Nat.shiftLeft_eq, apply_mul]
  exact_mod_cast hvalue

/-- One more than a whole number. -/
theorem add_one_parts {x : Float} {n : Int} (h : whole? x = some n) (hfits : (n + 1).natAbs < 2 ^ 53) :
    add Format.binary64 (parts x) (parts 1.0) = wholeFloat (n + 1) := by
  rw [whole?_eq] at h
  rw [parts_one]
  cases hx : parts x with
  | infinity s =>
    rw [hx] at h
    cases h
  | notANumber =>
    rw [hx] at h
    cases h
  | zero s =>
    rw [hx] at h
    cases h
    rfl
  | finite s m e hm =>
    rw [hx] at h
    obtain ⟨p, hp, hmin, hvalue⟩ := apply_aligned h
    show UnpackedFloat.normalize Format.binary64 (s.apply (m <<< (e - min e (-52)).toNat : Nat) +
      ((2 ^ 52 <<< (-52 - min e (-52)).toNat : Nat) : Int)) (min e (-52)) .positive = _
    have hone : 2 ^ 52 <<< (-52 - min e (-52)).toNat = 2 ^ p := by
      rw [hmin, show (-52 - -(p : Int)).toNat = p - 52 by omega, Nat.shiftLeft_eq, ← Nat.pow_add,
        Nat.add_sub_cancel' hp]
    rw [hvalue, hone, hmin]
    have hsum : n * 2 ^ p + ((2 ^ p : Nat) : Int) = (n + 1) * 2 ^ p := by
      rw [Int.add_mul, Int.one_mul]
      rfl
    rw [hsum]
    exact normalize_whole hfits p

theorem unpack_pack_wholeFloat {n : Int} (hfits : n.natAbs < 2 ^ 53) :
    unpack Format.binary64 (pack Format.binary64 (wholeFloat n)) = wholeFloat n :=
  unpack_pack_ofMagnitude _ hfits

theorem wholeParts?_wholeFloat {n : Int} (hfits : n.natAbs < 2 ^ 53) :
    wholeParts? (wholeFloat n) = some n := by
  unfold wholeFloat
  rw [wholeParts?_ofMagnitude _ hfits]
  by_cases hn : n < 0
  · rw [if_pos hn]
    show some (-(n.natAbs : Int)) = _
    congr 1
    omega
  · rw [if_neg hn]
    show some (n.natAbs : Int) = _
    congr 1
    omega

theorem isFinite_wholeFloat (n : Int) : (wholeFloat n).isFinite = true := by
  unfold wholeFloat ofMagnitude
  split <;> rfl

/-- Adding one to a whole number is exact, and gives a number, as long as the sum is below
`2 ^ 53`. -/
theorem whole?_add_one {x : Float} {n : Int} (h : whole? x = some n) (hlow : -2 ^ 53 < n + 1)
    (hhigh : n + 1 < 2 ^ 53) : whole? (x + 1.0) = some (n + 1) ∧ (x + 1.0).isFinite = true := by
  have hfits : (n + 1).natAbs < 2 ^ 53 := by omega
  have hparts : parts (x + 1.0) = wholeFloat (n + 1) := by
    rw [parts_add, add_one_parts h hfits, unpack_pack_wholeFloat hfits]
  constructor
  · rw [whole?_eq, hparts, wholeParts?_wholeFloat hfits]
  · show (parts (x + 1.0)).isFinite = true
    rw [hparts]
    exact isFinite_wholeFloat (n + 1)

theorem parts_toFloat {n : Nat} (hfits : n < 2 ^ 53) : parts n.toUInt64.toFloat = wholeFloat n := by
  have hn : n.toUInt64.toNat = n := Nat.mod_eq_of_lt (by omega)
  show unpack _ (pack _ (UnpackedFloat.normalize Format.binary64 (n.toUInt64.toNat : Int) 0 .positive)) = _
  have hround := normalize_whole (n := n) (by omega) 0
  rw [Int.pow_zero, Int.mul_one] at hround
  rw [hn]
  exact (congrArg (fun u => unpack _ (pack _ u)) hround).trans (unpack_pack_wholeFloat (by omega))

end Dataflow.Numeric
