/-
**Arithmetic on floats.**

Products and quotients of floats, and the floats that are read from decimals, are numbers that round
from the exact result.

Main results:

* `FloatRounding.roundedFrom_mul`, `FloatRounding.roundedFrom_div` — **products and quotients are
  rounded correctly**;
* `FloatRounding.hasValue_toFloat` — a natural number of at most 53 binary digits is a float;
* `FloatRounding.roundedFrom_ofScientific`, `FloatRounding.roundedFrom_toFloat` — **decimals are
  rounded correctly**.
-/

import Mathlib
import UpdateSql.Number.Decimal
import UpdateSql.Proofs.Number.Rounding

set_option relaxedAutoImplicit false
set_option autoImplicit false

namespace UpdateSql.FloatRounding

open Float.Model (Format UnpackedFloat totalExponent)
open Float.Model.UnpackedFloat

/-! ### Products and quotients -/

section

variable {m₁ m₂ : Nat} {e₁ e₂ : Int}

/-- **Products are rounded correctly.** -/
theorem roundedFrom_mul (h₁ : 0 < m₁) (h₂ : 0 < m₂) (hm : 2 ^ 52 ≤ m₁ * m₂)
    (hv : InRange (m₁ * 2 ^ e₁ * (m₂ * 2 ^ e₂))) :
    RoundedFrom (UnpackedFloat.mul .binary64 (.finite .positive m₁ e₁ h₁)
      (.finite .positive m₂ e₂ h₂)) (m₁ * 2 ^ e₁ * (m₂ * 2 ^ e₂)) := by
  refine roundedFrom_roundWithAccuracy ?_ hm hv
  have hvalue : (m₁ * 2 ^ e₁ * (m₂ * 2 ^ e₂) : ℚ) / 2 ^ (e₁ + e₂) = (m₁ * m₂ : Nat) := by
    have hpos₁ := two_zpow_pos e₁
    have hpos₂ := two_zpow_pos e₂
    rw [two_zpow_add]
    push_cast
    field_simp
  rw [hvalue]
  exact .exact _

/-- The quotient of natural numbers, and two bits for its remainder. -/
theorem stands_quotient (a : Nat) {b : Nat} (hb : 0 < b) :
    Stands (.ofMantissaAndAccuracy (a / b) (accuracyOfFraction (a % b) b)) ((a : ℚ) / b) := by
  have hb_rat : (0 : ℚ) < b := by exact_mod_cast hb
  have hquot : (a : ℚ) / b = (a / b : Nat) + (a % b : Nat) / b := by
    rw [div_eq_iff hb_rat.ne', add_mul, div_mul_cancel₀ _ hb_rat.ne']
    exact_mod_cast (Nat.div_add_mod' a b).symm
  have hlt : (a % b : Nat) / (b : ℚ) < 1 := by
    rw [div_lt_one hb_rat]
    exact_mod_cast Nat.mod_lt a hb
  rw [hquot, accuracyOfFraction]
  split
  · next hzero =>
      rw [hzero, Nat.cast_zero, zero_div, add_zero]
      exact .exact _
  · next hrem =>
      have hpos : 0 < (a % b : Nat) / (b : ℚ) := by
        have h : (0 : ℚ) < (a % b : Nat) := by exact_mod_cast Nat.pos_of_ne_zero hrem
        positivity
      -- the first bit compares the remainder with half of the divisor
      rcases Nat.lt_trichotomy (2 * (a % b)) b with h | h | h
      · have hhalf : (a % b : Nat) / (b : ℚ) < 1 / 2 := by
          have h' : (2 : ℚ) * (a % b : Nat) < b := by exact_mod_cast h
          rw [div_lt_div_iff₀ hb_rat (by norm_num)]
          linarith
        rw [Nat.compare_eq_lt.2 h]
        exact .below (by linarith) (by linarith)
      · have hhalf : (a % b : Nat) / (b : ℚ) = 1 / 2 := by
          have h' : (2 : ℚ) * (a % b : Nat) = b := by exact_mod_cast h
          rw [div_eq_div_iff hb_rat.ne' (by norm_num)]
          linarith
        rw [Nat.compare_eq_eq.2 h, hhalf]
        exact .half _
      · have hhalf : 1 / 2 < (a % b : Nat) / (b : ℚ) := by
          have h' : (b : ℚ) < 2 * (a % b : Nat) := by exact_mod_cast h
          rw [div_lt_div_iff₀ (by norm_num) hb_rat]
          linarith
        rw [Nat.compare_eq_gt.2 h]
        exact .above (by linarith) (by linarith)

/-- The exponent of a quotient is low enough for it to have 53 digits. -/
theorem two_zpow_le_quotient (h₁ : 0 < m₁) (h₂ : 0 < m₂)
    (hv : InRange (m₁ * 2 ^ e₁ / (m₂ * 2 ^ e₂))) {t : Int}
    (ht : t ≤ Format.binary64.targetExponent (totalExponent m₁ e₁ - totalExponent m₂ e₂)) :
    (2 : ℚ) ^ (52 + t) ≤ m₁ * 2 ^ e₁ / (m₂ * 2 ^ e₂) := by
  have hm₁ : (2 : ℚ) ^ m₁.log2 ≤ m₁ := by exact_mod_cast Nat.log2_self_le h₁.ne'
  have hm₂ : (m₂ : ℚ) ≤ 2 ^ (m₂.log2 + 1) := by exact_mod_cast Nat.lt_log2_self.le
  have htarget : Format.binary64.targetExponent (totalExponent m₁ e₁ - totalExponent m₂ e₂)
      = max ((m₁.log2 + e₁ : Int) - (m₂.log2 + e₂) - 53) (-1074) := by
    simp only [Format.targetExponent, totalExponent, Format.mantissaBits, Format.minExponent]
    norm_num
    omega
  rw [htarget] at ht
  rcases le_max_iff.1 ht with h | h
  · have hquot : (2 : ℚ) ^ ((m₁.log2 + e₁ : Int) - (m₂.log2 + 1 + e₂))
        ≤ m₁ * 2 ^ e₁ / (m₂ * 2 ^ e₂) := by
      rw [zpow_sub₀ (by norm_num), two_zpow_add, two_zpow_add, zpow_natCast]
      have hpow : (2 : ℚ) ^ (m₂.log2 + 1 : Int) = 2 ^ (m₂.log2 + 1) := by
        exact_mod_cast zpow_natCast (2 : ℚ) (m₂.log2 + 1)
      have hm₂_pos : (0 : ℚ) < m₂ := by exact_mod_cast h₂
      have hpos₁ := two_zpow_pos e₁
      have hpos₂ := two_zpow_pos e₂
      rw [hpow]
      gcongr
    refine le_trans ?_ hquot
    rw [two_zpow_le_iff]
    omega
  · refine le_trans ?_ hv.low
    rw [two_zpow_le_iff]
    omega

/-- **Quotients are rounded correctly.** -/
theorem roundedFrom_div (h₁ : 0 < m₁) (h₂ : 0 < m₂)
    (hv : InRange (m₁ * 2 ^ e₁ / (m₂ * 2 ^ e₂))) :
    RoundedFrom (UnpackedFloat.div .binary64 (.finite .positive m₁ e₁ h₁)
      (.finite .positive m₂ e₂ h₂)) (m₁ * 2 ^ e₁ / (m₂ * 2 ^ e₂)) := by
  obtain ⟨t, ht⟩ : ∃ t, min (e₁ - e₂) (Format.binary64.targetExponent
    (totalExponent m₁ e₁ - totalExponent m₂ e₂)) = t := ⟨_, rfl⟩
  obtain ⟨n, hn⟩ := Int.eq_ofNat_of_zero_le
    (Int.sub_nonneg_of_le (ht ▸ min_le_left _ _ : t ≤ e₁ - e₂))
  have hdiv : divCore .binary64 m₁ e₁ m₂ e₂
      = (m₁ * 2 ^ n / m₂, t, accuracyOfFraction (m₁ * 2 ^ n % m₂) m₂) := by
    rw [divCore, ht, hn, Int.toNat_natCast, Nat.shiftLeft_eq]
  have hvalue : (m₁ * 2 ^ e₁ / (m₂ * 2 ^ e₂) : ℚ) / 2 ^ t = (m₁ * 2 ^ n : Nat) / m₂ := by
    obtain rfl : e₁ = t + n + e₂ := by omega
    have hm₂_pos : (0 : ℚ) < m₂ := by exact_mod_cast h₂
    have hpos := two_zpow_pos t
    have hpos₂ := two_zpow_pos e₂
    rw [two_zpow_add, two_zpow_add, zpow_natCast]
    push_cast
    field_simp
  have hstands := stands_quotient (m₁ * 2 ^ n) h₂
  have hdigits : 2 ^ 52 ≤ m₁ * 2 ^ n / m₂ := by
    have hle := two_zpow_le_quotient h₁ h₂ hv (ht ▸ min_le_right _ _)
    rw [two_zpow_add, ← le_div_iff₀ (two_zpow_pos t), hvalue] at hle
    have hlt := hle.trans_lt hstands.lt_mantissa_add_one
    rw [mantissa_ofMantissaAndAccuracy] at hlt
    exact Nat.lt_succ_iff.1 (by exact_mod_cast hlt)
  have hround : UnpackedFloat.div .binary64 (.finite .positive m₁ e₁ h₁)
      (.finite .positive m₂ e₂ h₂) = roundWithAccuracy .binary64 .positive (m₁ * 2 ^ n / m₂) t
        (accuracyOfFraction (m₁ * 2 ^ n % m₂) m₂) := by
    rw [UnpackedFloat.div, hdiv]
    rfl
  rw [hround]
  exact roundedFrom_roundWithAccuracy (hvalue ▸ hstands) hdigits hv

end

/-! ### Operations on floats -/

section

variable {x y : Float} {a b : ℚ}

theorem roundedFrom_float_mul (hx : HasValue x.toModel.unpack a) (hy : HasValue y.toModel.unpack b)
    (hv : InRange (a * b)) : RoundedFrom (x * y).toModel.unpack (a * b) := by
  obtain ⟨m₁, e₁, h₁, hx, hn₁, rfl⟩ := hx
  obtain ⟨m₂, e₂, h₂, hy, hn₂, rfl⟩ := hy
  have hdigits : 2 ^ 52 ≤ m₁ * m₂ :=
    le_trans hn₁.le_significand (Nat.le_mul_of_pos_right m₁ h₂)
  change RoundedFrom (Float.Model.pack (UnpackedFloat.mul .binary64 _ _)).unpack _
  rw [hx, hy]
  exact (roundedFrom_mul h₁ h₂ hdigits hv).pack

theorem roundedFrom_float_div (hx : HasValue x.toModel.unpack a) (hy : HasValue y.toModel.unpack b)
    (hv : InRange (a / b)) : RoundedFrom (x / y).toModel.unpack (a / b) := by
  obtain ⟨m₁, e₁, h₁, hx, -, rfl⟩ := hx
  obtain ⟨m₂, e₂, h₂, hy, -, rfl⟩ := hy
  change RoundedFrom (Float.Model.pack (UnpackedFloat.div .binary64 _ _)).unpack _
  rw [hx, hy]
  exact (roundedFrom_div h₁ h₂ hv).pack

end

/-- A natural number of at most 53 binary digits is a float. -/
theorem hasValue_toFloat {n : Nat} (hpos : 0 < n) (hlt : n < 2 ^ 53) :
    HasValue n.toUInt64.toFloat.toModel.unpack n := by
  have hshort : IsShort n 0 := ⟨hpos, hlt, by norm_num, by norm_num⟩
  obtain ⟨k, hk, hdigits, -⟩ := hshort.exists_zeros
  have htarget : Format.binary64.targetExponent (totalExponent n 0) = -k := by
    simp only [Format.targetExponent, totalExponent, Format.mantissaBits, Format.minExponent]
    norm_num
    omega
  have hround : UnpackedFloat.ofUInt64 .binary64 n.toUInt64
      = roundWithAccuracy .binary64 .positive (n * 2 ^ k) (-k) .exact := by
    have hword : n.toUInt64.toNat = n := UInt64.toNat_ofNat_of_lt' (by rw [UInt64.size]; omega)
    have hgt : compare (n : Int) 0 = .gt := Int.compare_eq_gt.2 (by omega)
    rw [UnpackedFloat.ofUInt64, UnpackedFloat.ofNat, UnpackedFloat.ofInt, hword,
      UnpackedFloat.normalize, hgt]
    dsimp only
    rw [UnpackedFloat.round, Int.toNat_natCast, htarget, decreaseExponent]
    have hshift : (0 - -(k : Int)).toNat = k := by omega
    rw [hshift, Nat.shiftLeft_eq, Int.zero_sub]
  have hvalue : ((n : ℚ) * 2 ^ (0 : Int)) / 2 ^ (-k : Int) = (n * 2 ^ k : Nat) := by
    rw [zpow_zero, zpow_neg, zpow_natCast]
    push_cast
    field_simp
  have hrounded : RoundedFrom (UnpackedFloat.ofUInt64 .binary64 n.toUInt64)
      (n * 2 ^ (0 : Int)) := by
    rw [hround]
    refine roundedFrom_roundWithAccuracy ?_ hdigits hshort.inRange
    rw [hvalue]
    exact .exact _
  have hresult := hrounded.pack.hasValue hshort
  rwa [zpow_zero, mul_one] at hresult

/-! ### Reading decimals -/

/-- Checks that a float is a given natural number. -/
def isNatural (n : Nat) : UnpackedFloat → Bool
  | .finite .positive m e _ =>
    2 ^ 52 ≤ m && m < 2 ^ 53 && -1074 ≤ e && e ≤ 971 && m * 2 ^ e.toNat == n * 2 ^ (-e).toNat
  | _ => false

theorem hasValue_of_isNatural {n : Nat} {f : UnpackedFloat} (h : isNatural n f = true) :
    HasValue f n := by
  match f with
  | .finite .positive m e hm =>
      simp only [isNatural, Bool.and_eq_true, decide_eq_true_eq, beq_iff_eq] at h
      obtain ⟨⟨⟨⟨hlow, hhigh⟩, he_low⟩, he_high⟩, hvalue⟩ := h
      refine ⟨m, e, hm, rfl, ⟨hlow, hhigh, he_low, he_high⟩, ?_⟩
      have hcast : (m : ℚ) * 2 ^ e.toNat = n * 2 ^ (-e).toNat := by exact_mod_cast hvalue
      have hpos : (0 : ℚ) < 2 ^ (-e).toNat := by positivity
      have hsplit : (2 : ℚ) ^ e * 2 ^ (-e).toNat = 2 ^ e.toNat := by
        rw [← zpow_natCast, ← zpow_natCast, ← two_zpow_add]
        congr 1
        omega
      rw [← mul_left_inj' hpos.ne', mul_assoc, hsplit, hcast]
  | .finite .negative _ _ _ => cases h
  | .zero _ => cases h
  | .infinity _ => cases h
  | .notANumber => cases h

/-- The powers of ten in the table have their exact values. -/
theorem isNatural_power : ∀ e : Fin Float.exactlyRepresentablePowersOfTen.size,
    isNatural (10 ^ e.val) (Float.exactlyRepresentablePowersOfTen[e]).toModel.unpack = true := by
  decide +kernel

theorem hasValue_power {e : Nat} (he : e < Float.exactlyRepresentablePowersOfTen.size) :
    HasValue (Float.exactlyRepresentablePowersOfTen[e]).toModel.unpack (10 ^ e) := by
  have h := hasValue_of_isNatural (isNatural_power ⟨e, he⟩)
  rwa [Nat.cast_pow, Nat.cast_ofNat] at h

/-- A decimal in range has no exponent for which its digits do not matter. -/
theorem exponent_mem_of_inRange {m : Nat} {e : Int} (hv : InRange (m * 10 ^ e)) :
    0 < m ∧ -(m.log2 + 1023 : Int) < e ∧ e < 1023 := by
  have hm : 0 < m := by
    have hpos := hv.pos
    have hten : (0 : ℚ) < 10 ^ e := zpow_pos (by norm_num) e
    exact_mod_cast pos_of_mul_pos_left hpos hten.le
  have hm_one : (1 : ℚ) ≤ m := by exact_mod_cast hm
  have hm_lt : (m : ℚ) < 2 ^ (m.log2 + 1 : Int) := by exact_mod_cast Nat.lt_log2_self
  refine ⟨hm, ?_⟩
  rcases le_total 0 e with he | he
  · have hpow : (2 : ℚ) ^ e < 2 ^ (1023 : Int) :=
      calc (2 : ℚ) ^ e ≤ 10 ^ e := zpow_le_zpow_left₀ he (by norm_num) (by norm_num)
        _ ≤ m * 10 ^ e := le_mul_of_one_le_left (zpow_pos (by norm_num) e).le hm_one
        _ < 2 ^ (1023 : Int) := hv.high
    rw [two_zpow_lt_iff] at hpow
    omega
  · have hten : (10 : ℚ) ^ e ≤ 2 ^ e := by
      obtain ⟨n, hn⟩ := Int.eq_ofNat_of_zero_le (show 0 ≤ -e by omega)
      obtain rfl : e = -n := by omega
      rw [zpow_neg, zpow_neg, zpow_natCast, zpow_natCast]
      gcongr
      norm_num
    have hpow : (2 : ℚ) ^ (-1022 : Int) < 2 ^ (m.log2 + 1 + e : Int) :=
      calc (2 : ℚ) ^ (-1022 : Int) ≤ m * 10 ^ e := hv.low
        _ ≤ m * 2 ^ e := mul_le_mul_of_nonneg_left hten (by linarith)
        _ < 2 ^ (m.log2 + 1 : Int) * 2 ^ e := mul_lt_mul_of_pos_right hm_lt (two_zpow_pos e)
        _ = 2 ^ (m.log2 + 1 + e : Int) := (two_zpow_add _ _).symm
    rw [two_zpow_lt_iff] at hpow
    omega

/-- **Decimals are rounded correctly.** -/
theorem roundedFrom_ofScientific {m : Nat} {e : Int} (hv : InRange (m * 10 ^ e)) :
    RoundedFrom (UnpackedFloat.ofScientific .binary64 m e) (m * 10 ^ e) := by
  obtain ⟨hm, he_low, he_high⟩ := exponent_mem_of_inRange hv
  rw [UnpackedFloat.ofScientific, dif_neg hm.ne', if_neg (by norm_num; omega),
    if_neg (by norm_num; omega)]
  split
  · next he =>
      obtain ⟨n, rfl⟩ := Int.eq_ofNat_of_zero_le he
      have hten : 0 < 10 ^ n := Nat.pow_pos (by decide)
      have hshift : m <<< Format.binary64.mantissaBits = m * 2 ^ 53 := Nat.shiftLeft_eq m 53
      have hdigits : 2 ^ 52 ≤ m <<< Format.binary64.mantissaBits * 10 ^ n := by
        rw [hshift]
        nlinarith
      have hvalue : (m * 10 ^ (n : Int) : ℚ)
          = (m <<< Format.binary64.mantissaBits : Nat) * 2 ^ (-Format.binary64.mantissaBits : Int)
            * ((10 ^ n : Nat) * 2 ^ (0 : Int)) := by
        have hbits : (-Format.binary64.mantissaBits : Int) = -53 := rfl
        rw [hshift, hbits, zpow_natCast]
        push_cast
        norm_num
        ring
      rw [hvalue] at hv ⊢
      exact roundedFrom_mul _ hten hdigits hv
  · next he =>
      obtain ⟨n, hn⟩ := Int.eq_ofNat_of_zero_le (show 0 ≤ -e by omega)
      obtain rfl : e = -n := by omega
      have hten : 0 < 10 ^ (- -(n : Int)).toNat := Nat.pow_pos (by decide)
      have hvalue : (m * 10 ^ (-n : Int) : ℚ)
          = m * 2 ^ (0 : Int) / ((10 ^ (- -(n : Int)).toNat : Nat) * 2 ^ (0 : Int)) := by
        rw [neg_neg, Int.toNat_natCast, zpow_neg, zpow_natCast, zpow_zero, mul_one, mul_one,
          Nat.cast_pow, Nat.cast_ofNat, div_eq_mul_inv]
      rw [hvalue] at hv ⊢
      exact roundedFrom_div hm hten hv

theorem signed_natAbs (e : Int) :
    (if decide (e < 0) = true then Int.negOfNat e.natAbs else Int.ofNat e.natAbs) = e := by
  cases e with
  | ofNat n => rfl
  | negSucc n => exact if_pos (decide_eq_true (Int.negSucc_lt_zero n))

theorem roundedFrom_toFloat {d : Decimal} (hv : InRange d.value) :
    RoundedFrom d.toFloat.toModel.unpack d.value := by
  obtain ⟨c, e⟩ := d
  rw [Decimal.value] at hv ⊢
  have hc : 0 < c := (exponent_mem_of_inRange hv).1
  rw [Decimal.toFloat, Float.ofScientific]
  dsimp only at hv hc ⊢
  split
  · next hfast =>
      -- both numbers are floats, so one operation is all that is rounded
      have hnumber := hasValue_toFloat hc hfast.1
      have hpower := hasValue_power (Nat.lt_succ_of_le hfast.2)
      split
      · next he =>
          have hquot : (c * 10 ^ e : ℚ) = c / 10 ^ e.natAbs := by
            have hneg : e = -e.natAbs := by
              have := of_decide_eq_true he
              omega
            rw [hneg, zpow_neg, zpow_natCast, Int.natAbs_neg, Int.natAbs_natCast, div_eq_mul_inv]
          rw [hquot] at hv ⊢
          exact roundedFrom_float_div hnumber hpower hv
      · next he =>
          have hprod : (c * 10 ^ e : ℚ) = c * 10 ^ e.natAbs := by
            have hpos : e = e.natAbs := by
              have := of_decide_eq_false (Bool.not_eq_true _ ▸ he)
              omega
            rw [hpos, zpow_natCast, Int.natAbs_natCast]
          rw [hprod] at hv ⊢
          exact roundedFrom_float_mul hnumber hpower hv
  · rw [signed_natAbs]
    exact (roundedFrom_ofScientific hv).pack

end UpdateSql.FloatRounding
