/-
**Correct rounding.**

The result of an operation on floats is found by computing some digits of it, together with two bits
that tell what was left out, and rounding them.  Here this is shown to give a float to which the
exact result rounds.  Only results that are positive and of full precision are looked at, which is
what becomes of every single that is widened and of every decimal chosen for one.

Main definitions:

* `FloatRounding.Stands` — digits and two bits stand for a number;
* `FloatRounding.IsNormal`, `FloatRounding.InRange` — significand and exponent of a float of full
  precision, and the numbers that round to such a float;
* `FloatRounding.RoundedFrom`, `FloatRounding.HasValue` — a float is positive and of full precision,
  and a number rounds to it, or is its value.

Main results:

* `FloatRounding.roundedFrom_roundWithAccuracy` — **digits are rounded correctly**;
* `FloatRounding.unpack_pack` — packing keeps floats of full precision as they are;
* `FloatRounding.eq_of_nearest` — **a number rounds to one float only**;
* `FloatRounding.RoundedFrom.hasValue` — a number that a float can represent is rounded to itself.
-/

import Mathlib
import UpdateSql.Proofs.Number.Shortest

set_option relaxedAutoImplicit false
set_option autoImplicit false

namespace UpdateSql.FloatRounding

open Float.Model (Format UnpackedFloat totalExponent)
open Float.Model.UnpackedFloat

/-! ### Digits with two bits -/

/-- Digits stand for a number of units of the last one: they are its floor, the first bit tells
whether it is at least half a unit more, and the second whether it differs from what digits and
first bit say. -/
inductive Stands : ExtendedMantissa → ℚ → Prop
  | exact (n : Nat) : Stands ⟨n, false, false⟩ n
  | below {n : Nat} {x : ℚ} (hlow : n < x) (hhigh : x < n + 1 / 2) : Stands ⟨n, false, true⟩ x
  | half (n : Nat) : Stands ⟨n, true, false⟩ (n + 1 / 2)
  | above {n : Nat} {x : ℚ} (hlow : n + 1 / 2 < x) (hhigh : x < n + 1) : Stands ⟨n, true, true⟩ x

namespace Stands

variable {em : ExtendedMantissa} {x : ℚ}

theorem mantissa_le (h : Stands em x) : em.mantissa ≤ x := by
  cases h with
  | exact n => exact le_refl _
  | below hlow _ => exact hlow.le
  | half n => exact le_add_of_nonneg_right (by norm_num)
  | above hlow _ => exact (lt_trans (lt_add_of_pos_right _ (by norm_num)) hlow).le

theorem lt_mantissa_add_one (h : Stands em x) : x < em.mantissa + 1 := by
  cases h with
  | exact n => exact lt_add_one _
  | below _ hhigh => exact lt_trans hhigh (by norm_num)
  | half n => norm_num
  | above _ hhigh => exact hhigh

/-- Without the last digit the others stand for half as many units. -/
theorem shiftRightOne (h : Stands em x) : Stands em.shiftRightOne (x / 2) := by
  have heven (n : Nat) (r s : Bool) :
      (ExtendedMantissa.mk (2 * n) r s).shiftRightOne = ⟨n, false, r || s⟩ := by
    simp [ExtendedMantissa.shiftRightOne]
  have hodd (n : Nat) (r s : Bool) :
      (ExtendedMantissa.mk (2 * n + 1) r s).shiftRightOne = ⟨n, true, r || s⟩ := by
    simp [ExtendedMantissa.shiftRightOne]
    omega
  obtain ⟨m, r, s⟩ := em
  obtain ⟨n, rfl | rfl⟩ := m.even_or_odd'
  · rw [heven]
    cases h with
    | exact =>
        have hx : ((2 * n : Nat) : ℚ) / 2 = n := by push_cast; ring
        rw [hx]
        exact .exact n
    | below hlow hhigh =>
        push_cast at hlow hhigh
        exact .below (by linarith) (by linarith)
    | half =>
        push_cast
        exact .below (by linarith) (by linarith)
    | above hlow hhigh =>
        push_cast at hlow hhigh
        exact .below (by linarith) (by linarith)
  · rw [hodd]
    cases h with
    | exact =>
        have hx : ((2 * n + 1 : Nat) : ℚ) / 2 = n + 1 / 2 := by push_cast; ring
        rw [hx]
        exact .half n
    | below hlow hhigh =>
        push_cast at hlow hhigh
        exact .above (by linarith) (by linarith)
    | half =>
        push_cast
        exact .above (by linarith) (by linarith)
    | above hlow hhigh =>
        push_cast at hlow hhigh
        exact .above (by linarith) (by linarith)

theorem shiftRight (h : Stands em x) (k : Nat) : Stands (em >>> k) (x / 2 ^ k) := by
  induction k with
  | zero =>
      rw [pow_zero, div_one]
      exact h
  | succ k ih =>
      have hstep := ih.shiftRightOne
      rw [div_div, ← pow_succ] at hstep
      exact hstep

/-- **Digits are rounded to the nearest number of them**, to the even one of two. -/
theorem roundedMantissa (h : Stands em x) :
    (em.roundedMantissa : ℚ) - 1 / 2 ≤ x ∧ x ≤ em.roundedMantissa + 1 / 2 ∧
      (x = em.roundedMantissa - 1 / 2 ∨ x = em.roundedMantissa + 1 / 2 →
        em.roundedMantissa % 2 = 0) := by
  cases h with
  | exact n =>
      have hr : (ExtendedMantissa.mk n false false).roundedMantissa = n := rfl
      rw [hr]
      refine ⟨by linarith, by linarith, ?_⟩
      rintro (h | h) <;> linarith
  | @below n x hlow hhigh =>
      have hr : (ExtendedMantissa.mk n false true).roundedMantissa = n := rfl
      rw [hr]
      refine ⟨by linarith, by linarith, ?_⟩
      rintro (h | h) <;> linarith
  | half n =>
      have hr : (ExtendedMantissa.mk n true false).roundedMantissa = n + n % 2 := rfl
      rw [hr]
      -- of two numbers at the same distance the even one is taken
      rcases Nat.mod_two_eq_zero_or_one n with hn | hn
      · rw [hn, Nat.add_zero]
        exact ⟨by linarith, by linarith, fun _ => hn⟩
      · rw [hn]
        push_cast
        exact ⟨by linarith, by linarith, fun _ => by omega⟩
  | @above n x hlow hhigh =>
      have hr : (ExtendedMantissa.mk n true true).roundedMantissa = n + 1 := rfl
      rw [hr]
      push_cast
      refine ⟨by linarith, by linarith, ?_⟩
      rintro (h | h) <;> linarith

end Stands

theorem roundedMantissa_cases (em : ExtendedMantissa) :
    em.mantissa ≤ em.roundedMantissa ∧ em.roundedMantissa ≤ em.mantissa + 1 := by
  obtain ⟨n, r, s⟩ := em
  cases r <;> cases s <;>
    simp only [ExtendedMantissa.roundedMantissa, ExtendedMantissa.accuracy,
      Accuracy.roundToNearestEven] <;>
    omega

/-! ### Floats of full precision -/

/-- Significand and exponent of a float of full precision. -/
structure IsNormal (m : Nat) (e : Int) : Prop where
  le_significand : 2 ^ 52 ≤ m
  significand_lt : m < 2 ^ 53
  le_exponent : -1074 ≤ e
  exponent_le : e ≤ 971

theorem IsNormal.pos {m : Nat} {e : Int} (h : IsNormal m e) : 0 < m :=
  Nat.lt_of_lt_of_le (by norm_num) h.le_significand

/-- A positive number is so far from zero and from infinity that what it rounds to is of full
precision. -/
structure InRange (v : ℚ) : Prop where
  low : (2 : ℚ) ^ (-1022 : Int) ≤ v
  high : v < (2 : ℚ) ^ (1023 : Int)

theorem InRange.pos {v : ℚ} (h : InRange v) : 0 < v :=
  lt_of_lt_of_le (zpow_pos (by norm_num) _) h.low

/-- A float is positive and of full precision, and a number rounds to it. -/
def RoundedFrom (f : UnpackedFloat) (v : ℚ) : Prop :=
  ∃ m e h, f = .finite .positive m e h ∧ IsNormal m e ∧ Nearest .binary64 m e v

/-- A float is positive and of full precision, and has a number as its value. -/
def HasValue (f : UnpackedFloat) (v : ℚ) : Prop :=
  ∃ m e h, f = .finite .positive m e h ∧ IsNormal m e ∧ v = m * 2 ^ e

theorem two_zpow_pos (e : Int) : (0 : ℚ) < 2 ^ e := zpow_pos (by norm_num) e

theorem two_zpow_lt_iff {a b : Int} : (2 : ℚ) ^ a < 2 ^ b ↔ a < b :=
  zpow_lt_zpow_iff_right₀ (by norm_num)

theorem two_zpow_le_iff {a b : Int} : (2 : ℚ) ^ a ≤ 2 ^ b ↔ a ≤ b :=
  zpow_le_zpow_iff_right₀ (by norm_num)

theorem two_zpow_add (a b : Int) : (2 : ℚ) ^ (a + b) = 2 ^ a * 2 ^ b :=
  zpow_add₀ (by norm_num) a b

/-- In units of the last digit of a float: what rounds to it. -/
theorem nearest_mul_iff {format : Format} {m : Nat} {e : Int} {x : ℚ} :
    Nearest format m e (x * 2 ^ e) ↔ m - reachBelow format m e ≤ x ∧ x ≤ m + 1 / 2 ∧
      (x = m - reachBelow format m e ∨ x = m + 1 / 2 → m % 2 = 0) := by
  have hpos := two_zpow_pos e
  constructor
  · rintro ⟨hlow, hhigh, heven⟩
    rw [mul_le_mul_iff_left₀ hpos] at hlow hhigh
    rw [mul_left_inj' hpos.ne', mul_left_inj' hpos.ne'] at heven
    exact ⟨hlow, hhigh, heven⟩
  · rintro ⟨hlow, hhigh, heven⟩
    refine ⟨?_, ?_, ?_⟩
    · rwa [mul_le_mul_iff_left₀ hpos]
    · rwa [mul_le_mul_iff_left₀ hpos]
    · rwa [mul_left_inj' hpos.ne', mul_left_inj' hpos.ne']

/-! ### Rounding digits -/

theorem mantissa_ofMantissaAndAccuracy (m : Nat) (acc : Accuracy) :
    (ExtendedMantissa.ofMantissaAndAccuracy m acc).mantissa = m := by
  cases acc with
  | exact => rfl
  | inexact o => cases o <;> rfl

/-- What is left of digits after they are shifted to full precision. -/
theorem shiftToTargetExponent_eq {m k : Nat} {e : Int} (acc : Accuracy) (hm : m.log2 = 52 + k)
    (he : -1074 ≤ e + k) : shiftToTargetExponent .binary64 m e acc
      = (ExtendedMantissa.ofMantissaAndAccuracy m acc >>> k, e + k) := by
  have htarget : Format.binary64.targetExponent (totalExponent m e) = e + k := by
    simp only [Format.targetExponent, totalExponent, Format.mantissaBits, Format.minExponent, hm]
    norm_num
    omega
  have hshift : (e + k - e).toNat = k := by omega
  rw [shiftToTargetExponent, htarget, shiftToExponent, hshift]

theorem log2_eq_of_mem {m k : Nat} (hlow : 2 ^ (52 + k) ≤ m) (hhigh : m < 2 ^ (53 + k)) :
    m.log2 = 52 + k :=
  (Nat.log2_eq_iff (Nat.ne_of_gt (Nat.lt_of_lt_of_le (Nat.two_pow_pos _) hlow))).2
    ⟨hlow, by rwa [show 52 + k + 1 = 53 + k by omega]⟩

/-- The float that digits round to, of which a carry may make the next power of two. -/
theorem roundWithAccuracy_eq {m k : Nat} {e : Int} {acc : Accuracy} (hm : m.log2 = 52 + k)
    (he : -1074 ≤ e + k) {r : Nat}
    (hr : (ExtendedMantissa.ofMantissaAndAccuracy m acc >>> k).roundedMantissa = r)
    (hlow : 2 ^ 52 ≤ r) (hhigh : r ≤ 2 ^ 53) (s : Sign) :
    (∃ h, roundWithAccuracy .binary64 s m e acc = .finite s r (e + k) h ∧ r < 2 ^ 53) ∨
      ∃ h, roundWithAccuracy .binary64 s m e acc = .finite s (2 ^ 52) (e + k + 1) h ∧
        r = 2 ^ 53 := by
  rw [roundWithAccuracy, shiftToTargetExponent_eq acc hm he]
  dsimp only
  rw [hr]
  rcases Nat.lt_or_eq_of_le hhigh with hlt | rfl
  · -- no carry, and nothing is shifted any more
    have hlog : r.log2 = 52 + 0 := log2_eq_of_mem hlow hlt
    have hsecond : shiftToTargetExponent .binary64 r (e + k) .exact
        = (⟨r, false, false⟩, e + k) := by
      rw [shiftToTargetExponent_eq .exact hlog (by omega), Int.natCast_zero, Int.add_zero]
      rfl
    have hpos : r ≠ 0 := by omega
    rw [hsecond]
    exact .inl ⟨Nat.pos_of_ne_zero hpos, dif_neg hpos, hlt⟩
  · have hsecond : shiftToTargetExponent .binary64 (2 ^ 53) (e + k) .exact
        = (⟨2 ^ 52, false, false⟩, e + k + 1) := by
      rw [shiftToTargetExponent_eq (k := 1) .exact Nat.log2_two_pow (by omega)]
      rfl
    rw [hsecond]
    exact .inr ⟨by norm_num, dif_neg (by norm_num), rfl⟩

/-- Where the last digit of a number of 53 digits can be. -/
theorem exponent_mem {x : ℚ} {e : Int} (hlow : 2 ^ 52 ≤ x) (hhigh : x < 2 ^ 53)
    (hv : InRange (x * 2 ^ e)) : -1074 ≤ e ∧ e ≤ 970 := by
  have hpos := two_zpow_pos e
  have hlow_exp : (2 : ℚ) ^ (-1022 : Int) < 2 ^ (53 + e) := by
    refine hv.low.trans_lt ?_
    rw [two_zpow_add]
    exact mul_lt_mul_of_pos_right hhigh hpos
  have hhigh_exp : (2 : ℚ) ^ (52 + e) < 2 ^ (1023 : Int) := by
    refine lt_of_le_of_lt ?_ hv.high
    rw [two_zpow_add]
    exact mul_le_mul_of_nonneg_right hlow hpos.le
  rw [two_zpow_lt_iff] at hlow_exp hhigh_exp
  omega

theorem nearest_of_rounded {x : ℚ} {r : Nat} {e : Int} (hlow : 2 ^ 52 ≤ x)
    (hr : (r : ℚ) - 1 / 2 ≤ x ∧ x ≤ r + 1 / 2 ∧ (x = r - 1 / 2 ∨ x = r + 1 / 2 → r % 2 = 0)) :
    Nearest .binary64 r e (x * 2 ^ e) := by
  obtain ⟨hr_low, hr_high, hr_even⟩ := hr
  rw [nearest_mul_iff]
  by_cases hm : r = 2 ^ 52
  · -- nothing below the least number of 53 digits is rounded to it
    subst hm
    have hreach := le_reachBelow .binary64 (2 ^ 52) e
    generalize reachBelow .binary64 (2 ^ 52) e = reach at hreach ⊢
    rw [Nat.cast_pow, Nat.cast_ofNat] at hr_high ⊢
    exact ⟨by linarith, hr_high, fun _ => by norm_num⟩
  · have hreach : reachBelow .binary64 r e = 1 / 2 := if_neg fun h => hm h.1
    rw [hreach]
    exact ⟨hr_low, hr_high, hr_even⟩

theorem nearest_of_carry {x : ℚ} {e : Int} (hlow : 2 ^ 53 - 1 / 2 ≤ x) (hhigh : x < 2 ^ 53) :
    Nearest .binary64 (2 ^ 52) (e + 1) (x * 2 ^ e) := by
  have hhalf : x * 2 ^ e = x / 2 * 2 ^ (e + 1) := by
    rw [two_zpow_add, zpow_one]
    ring
  have hreach := le_reachBelow .binary64 (2 ^ 52) (e + 1)
  rw [hhalf, nearest_mul_iff, Nat.cast_pow, Nat.cast_ofNat]
  generalize reachBelow .binary64 (2 ^ 52) (e + 1) = reach at hreach ⊢
  exact ⟨by linarith, by linarith, fun _ => by norm_num⟩

/-- Digits that stand for a number of 53 digits are so many, and a carry may add one more. -/
theorem Stands.significand_mem {em : ExtendedMantissa} {x : ℚ} (h : Stands em x)
    (hlow : 2 ^ 52 ≤ x) (hhigh : x < 2 ^ 53) :
    2 ^ 52 ≤ em.roundedMantissa ∧ em.roundedMantissa ≤ 2 ^ 53 := by
  obtain ⟨hle, hge⟩ := roundedMantissa_cases em
  have hmantissa_low : 2 ^ 52 < em.mantissa + 1 := by
    have hlt := hlow.trans_lt h.lt_mantissa_add_one
    exact_mod_cast hlt
  have hmantissa_high : em.mantissa < 2 ^ 53 := by
    have hlt := h.mantissa_le.trans_lt hhigh
    exact_mod_cast hlt
  omega

/-- **Digits are rounded correctly**: to a float to which the number they stand for rounds. -/
theorem roundedFrom_roundWithAccuracy {m : Nat} {e : Int} {acc : Accuracy} {v : ℚ}
    (hstands : Stands (.ofMantissaAndAccuracy m acc) (v / 2 ^ e)) (hm : 2 ^ 52 ≤ m)
    (hv : InRange v) : RoundedFrom (roundWithAccuracy .binary64 .positive m e acc) v := by
  obtain ⟨k, hk⟩ : ∃ k, m.log2 = 52 + k :=
    Nat.exists_eq_add_of_le ((Nat.le_log2 (by omega)).2 hm)
  have hm_low : (2 : ℚ) ^ (52 + k) ≤ m := by
    have hle : 2 ^ (52 + k) ≤ m := hk ▸ Nat.log2_self_le (by omega)
    exact_mod_cast hle
  have hm_high : (m : ℚ) + 1 ≤ 2 ^ (53 + k) := by
    have hlt := Nat.lt_log2_self (n := m)
    rw [hk, show 52 + k + 1 = 53 + k by omega] at hlt
    exact_mod_cast hlt
  have hpos := two_zpow_pos e
  have hpos_k : (0 : ℚ) < 2 ^ k := by positivity
  -- the number in units of the last digit that is kept
  obtain ⟨x, hx⟩ : ∃ x, v / 2 ^ e / 2 ^ k = x := ⟨_, rfl⟩
  have hvx : v = x * 2 ^ (e + k) := by
    rw [← hx, two_zpow_add, zpow_natCast]
    field_simp
  have hlow : 2 ^ 52 ≤ x := by
    have hle := hstands.mantissa_le
    rw [mantissa_ofMantissaAndAccuracy] at hle
    rw [← hx, le_div_iff₀ hpos_k, ← pow_add]
    exact hm_low.trans hle
  have hhigh : x < 2 ^ 53 := by
    have hlt := hstands.lt_mantissa_add_one
    rw [mantissa_ofMantissaAndAccuracy] at hlt
    rw [← hx, div_lt_iff₀ hpos_k, ← pow_add]
    exact hlt.trans_le hm_high
  have hshifted : Stands (ExtendedMantissa.ofMantissaAndAccuracy m acc >>> k) x :=
    hx ▸ hstands.shiftRight k
  obtain ⟨he_low, he_high⟩ := exponent_mem hlow hhigh (hvx ▸ hv)
  obtain ⟨hr_low, hr_high⟩ := hshifted.significand_mem hlow hhigh
  have hr := hshifted.roundedMantissa
  rw [hvx]
  rcases roundWithAccuracy_eq hk he_low rfl hr_low hr_high .positive with
    ⟨h, heq, hlt⟩ | ⟨h, heq, hcarry⟩
  · exact ⟨_, _, h, heq, ⟨hr_low, hlt, he_low, by omega⟩, nearest_of_rounded hlow hr⟩
  · rw [hcarry] at hr
    push_cast at hr
    exact ⟨_, _, h, heq, ⟨le_refl _, by norm_num, by omega, by omega⟩,
      nearest_of_carry hr.1 hhigh⟩

/-! ### Packing -/

theorem unpackSign_packComponents (s : Sign) (e : BitVec 11) (m : BitVec 52) :
    Sign.ofBitVec (unpackSign (packComponents .binary64 s e m)) = s := by
  have hsign : unpackSign (packComponents .binary64 s e m) = s.toBitVec := by
    change (s.toBitVec ++ e ++ m).extractLsb' 63 1 = s.toBitVec
    rw [BitVec.extractLsb'_append_eq_of_le (by decide),
      BitVec.extractLsb'_append_eq_of_le (by decide)]
    cases s <;> rfl
  rw [hsign]
  cases s <;> rfl

/-- A float of full precision keeps sign, significand and exponent when it is packed. -/
theorem unpack_pack {s : Sign} {m : Nat} {e : Int} (h : IsNormal m e) :
    (Float.Model.pack (.finite s m e h.pos)).unpack = .finite s m e h.pos := by
  obtain ⟨hm_low, hm_high, he_low, he_high⟩ := h
  have hlog : m.log2 + 1 = Format.binary64.mantissaBits := by
    have h52 : m.log2 = 52 + 0 := log2_eq_of_mem hm_low hm_high
    rw [h52]
    rfl
  -- the exponent as it is stored
  obtain ⟨b, hb⟩ : ∃ b : Nat, e + 1075 = b := Int.eq_ofNat_of_zero_le (by omega)
  obtain rfl : e = b - 1075 := by omega
  have hbias : ((b : Int) - 1075 + Format.binary64.exponentBias
      + Format.binary64.mantissaBitsWithoutImplicit).toNat = b := by
    change ((b : Int) - 1075 + 1023 + 52).toNat = b
    omega
  have hb_val : (BitVec.ofNat 11 b).toNat = b := by
    rw [BitVec.toNat_ofNat, Nat.mod_eq_of_lt (by omega)]
  have hb_ones : BitVec.ofNat 11 b ≠ -1#_ := fun h => by
    have hval := congrArg BitVec.toNat h
    rw [hb_val] at hval
    change b = 2047 at hval
    omega
  have hb_zero : BitVec.ofNat 11 b ≠ 0#_ := fun h => by
    have hval := congrArg BitVec.toNat h
    rw [hb_val] at hval
    change b = 0 at hval
    omega
  have hm_val : (1#1 ++ BitVec.ofNat 52 m).toNat = m := by
    rw [BitVec.toNat_append, BitVec.toNat_ofNat, Nat.shiftLeft_eq]
    change 2 ^ 52 ||| (m % 2 ^ 52) = m
    rw [Nat.or_comm, Nat.or_two_pow_eq_add_of_lt (Nat.mod_lt m (Nat.two_pow_pos 52))]
    omega
  have hpack : UnpackedFloat.pack .binary64 (.finite s m (b - 1075) (by omega))
      = packComponents .binary64 s (BitVec.ofNat 11 b) (BitVec.ofNat 52 m) := by
    rw [UnpackedFloat.pack, hbias, if_neg, if_pos hlog]
    change ¬ 2048 ≤ b + 1
    omega
  change UnpackedFloat.unpack .binary64 (UnpackedFloat.pack .binary64 _) = _
  rw [hpack]
  simp only [UnpackedFloat.unpack, unpackExponent_packComponents, unpackMantissa_packComponents,
    unpackSign_packComponents, if_neg hb_ones, if_neg hb_zero, hm_val, hb_val]
  congr 1

theorem RoundedFrom.pack {f : UnpackedFloat} {v : ℚ} (h : RoundedFrom f v) :
    RoundedFrom (Float.Model.pack f).unpack v := by
  obtain ⟨m, e, hpos, rfl, hnormal, hnearest⟩ := h
  exact ⟨m, e, hpos, unpack_pack hnormal, hnormal, hnearest⟩

/-! ### Numbers that are floats -/

theorem exponent_le_of_nearest {m m' : Nat} {e e' : Int} (hm : IsNormal m e)
    (hm' : IsNormal m' e') {v : ℚ} (h : Nearest .binary64 m e v)
    (h' : Nearest .binary64 m' e' v) : e' ≤ e := by
  rw [← not_lt]
  intro hlt
  have hpos := two_zpow_pos e
  have hsignificand : (m : ℚ) + 1 ≤ 2 ^ 53 := by exact_mod_cast hm.significand_lt
  have hbelow : (2 : ℚ) ^ 52 - 1 / 4 ≤ m' - reachBelow .binary64 m' e' := by
    rcases Nat.eq_or_lt_of_le hm'.le_significand with heq | hgt
    · have hreach : reachBelow .binary64 m' e' = 1 / 4 := by
        refine if_pos ⟨heq.symm, ?_⟩
        have hmin : Format.binary64.minExponent = -1074 := rfl
        have := hm.le_exponent
        omega
      rw [hreach, ← heq, Nat.cast_pow, Nat.cast_ofNat]
    · have hsignificand' : (2 : ℚ) ^ 52 + 1 ≤ m' := by exact_mod_cast hgt
      rcases reachBelow_cases .binary64 m' e' with h | h <;> rw [h] <;> linarith
  have hstep : 2 * (2 : ℚ) ^ e ≤ 2 ^ e' := by
    rw [← zpow_one_add₀ (by norm_num), two_zpow_le_iff]
    omega
  -- the ranges of both floats meet in one point at most, which is the end of the lower one
  have hend : (2 ^ 53 - 1 / 2) * (2 : ℚ) ^ e ≤ v :=
    calc (2 ^ 53 - 1 / 2) * (2 : ℚ) ^ e = (2 ^ 52 - 1 / 4) * (2 * 2 ^ e) := by ring
      _ ≤ (m' - reachBelow .binary64 m' e') * 2 ^ e' := by
        refine mul_le_mul hbelow hstep (by positivity) (le_trans (by norm_num) hbelow)
      _ ≤ v := h'.low_le
  have hend' : (2 ^ 53 - 1 / 2 : ℚ) ≤ m + 1 / 2 :=
    le_of_mul_le_mul_right (hend.trans h.le_high) hpos
  have hm_eq : (m : ℚ) = 2 ^ 53 - 1 := by linarith
  have hodd : m + 1 = 2 ^ 53 := by
    have hcast : (m : ℚ) + 1 = 2 ^ 53 := by linarith
    exact_mod_cast hcast
  have heven := h.even_of_end (.inr (le_antisymm h.le_high (by rw [hm_eq]; linarith)))
  omega

theorem significand_le_of_nearest {m m' : Nat} {e : Int} {v : ℚ}
    (h : Nearest .binary64 m e v) (h' : Nearest .binary64 m' e v) : m' ≤ m := by
  rw [← not_lt]
  intro hlt
  have hpos := two_zpow_pos e
  have hstep : (m : ℚ) + 1 ≤ m' := by exact_mod_cast hlt
  have hreach := reachBelow_le .binary64 m' e
  have hle : (m' : ℚ) - reachBelow .binary64 m' e ≤ m + 1 / 2 :=
    le_of_mul_le_mul_right (h'.low_le.trans h.le_high) hpos
  have hm' : m' = m + 1 := by
    have hcast : (m' : ℚ) = m + 1 := by linarith
    exact_mod_cast hcast
  have hends : (m' : ℚ) - reachBelow .binary64 m' e = m + 1 / 2 := by linarith
  have hv : v = (m + 1 / 2) * 2 ^ e := le_antisymm h.le_high (hends ▸ h'.low_le)
  have heven := h.even_of_end (.inr hv)
  have heven' := h'.even_of_end (.inl (by rw [hends, hv]))
  omega

/-- **A number rounds to one float only.** -/
theorem eq_of_nearest {m m' : Nat} {e e' : Int} (hm : IsNormal m e) (hm' : IsNormal m' e')
    {v : ℚ} (h : Nearest .binary64 m e v) (h' : Nearest .binary64 m' e' v) :
    m = m' ∧ e = e' := by
  obtain rfl : e = e' := le_antisymm (exponent_le_of_nearest hm' hm h' h)
    (exponent_le_of_nearest hm hm' h h')
  exact ⟨le_antisymm (significand_le_of_nearest h' h) (significand_le_of_nearest h h'), rfl⟩

theorem nearest_self (format : Format) (m : Nat) (e : Int) : Nearest format m e (m * 2 ^ e) := by
  have hreach := le_reachBelow format m e
  rw [nearest_mul_iff]
  refine ⟨by linarith, by linarith, ?_⟩
  rintro (h | h) <;> linarith

/-- A number is written with at most 53 binary digits, well inside the range of exponents. -/
structure IsShort (m : Nat) (e : Int) : Prop where
  pos : 0 < m
  significand_lt : m < 2 ^ 53
  le_exponent : -1022 ≤ e
  exponent_le : e ≤ 970

/-- A significand is brought to full precision by zeros at its end. -/
theorem IsShort.exists_zeros {m : Nat} {e : Int} (h : IsShort m e) :
    ∃ k, m.log2 + k = 52 ∧ 2 ^ 52 ≤ m * 2 ^ k ∧ m * 2 ^ k < 2 ^ 53 := by
  have hlog : m.log2 < 53 := (Nat.log2_lt h.pos.ne').2 h.significand_lt
  obtain ⟨k, hk⟩ : ∃ k, m.log2 + k = 52 := ⟨52 - m.log2, by omega⟩
  have hlow : 2 ^ m.log2 * 2 ^ k ≤ m * 2 ^ k :=
    Nat.mul_le_mul_right _ (Nat.log2_self_le h.pos.ne')
  have hhigh : m * 2 ^ k < 2 ^ (m.log2 + 1) * 2 ^ k :=
    Nat.mul_lt_mul_of_pos_right Nat.lt_log2_self (Nat.two_pow_pos k)
  rw [← pow_add, hk] at hlow
  rw [← pow_add, show m.log2 + 1 + k = 53 by omega] at hhigh
  exact ⟨k, hk, hlow, hhigh⟩

theorem IsShort.exists_isNormal {m : Nat} {e : Int} (h : IsShort m e) :
    ∃ m' e', IsNormal m' e' ∧ (m * 2 ^ e : ℚ) = m' * 2 ^ e' := by
  obtain ⟨k, hk, hlow, hhigh⟩ := h.exists_zeros
  have he_low := h.le_exponent
  have he_high := h.exponent_le
  refine ⟨m * 2 ^ k, e - k, ⟨hlow, hhigh, by omega, by omega⟩, ?_⟩
  have hpos : (0 : ℚ) < 2 ^ k := by positivity
  rw [zpow_sub₀ (by norm_num), zpow_natCast]
  push_cast
  field_simp

theorem IsShort.inRange {m : Nat} {e : Int} (h : IsShort m e) : InRange (m * 2 ^ e) := by
  have hpos : (1 : ℚ) ≤ m := by exact_mod_cast h.pos
  have hlt : (m : ℚ) < 2 ^ (53 : Int) := by exact_mod_cast h.significand_lt
  constructor
  · calc (2 : ℚ) ^ (-1022 : Int) ≤ 2 ^ e := two_zpow_le_iff.2 h.le_exponent
      _ ≤ m * 2 ^ e := le_mul_of_one_le_left (two_zpow_pos e).le hpos
  · calc (m : ℚ) * 2 ^ e < 2 ^ (53 : Int) * 2 ^ e := mul_lt_mul_of_pos_right hlt (two_zpow_pos e)
      _ = 2 ^ (53 + e) := (two_zpow_add _ _).symm
      _ ≤ 2 ^ (1023 : Int) := two_zpow_le_iff.2 (by have := h.exponent_le; omega)

/-- **A number that a float can represent is rounded to itself.** -/
theorem RoundedFrom.hasValue {f : UnpackedFloat} {m : Nat} {e : Int}
    (h : RoundedFrom f (m * 2 ^ e)) (hshort : IsShort m e) : HasValue f (m * 2 ^ e) := by
  obtain ⟨m₁, e₁, hpos, rfl, hnormal, hnearest⟩ := h
  obtain ⟨m', e', hnormal', heq⟩ := hshort.exists_isNormal
  obtain ⟨rfl, rfl⟩ := eq_of_nearest hnormal hnormal' hnearest
    (heq ▸ nearest_self .binary64 m' e')
  exact ⟨m₁, e₁, hpos, rfl, hnormal, heq⟩

end UpdateSql.FloatRounding
