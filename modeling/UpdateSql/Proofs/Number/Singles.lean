/-
**Singles as doubles.**

A single becomes a double in two ways: as the double nearest to its own shortest decimal, or as the
double with the same value.  The first keeps its text: doubles lie much denser than the decimals of
that length, so no other one of these is close enough to the double to be its decimal.  The second
keeps its value, but its text is that of a double.

Main definitions:

* `FloatText.singleChars` — the text of a single as such;
* `FloatText.numberOf` — sign and magnitude of a float.

Main results:

* `FloatText.shortest_of_nearest` — the double nearest to the decimal chosen for a single has the
  same decimal;
* `FloatText.chars_ofSingle` — **a single keeps its own text** in the first way;
* `FloatText.numberOf_widen` — **a single keeps its value**, and a zero its sign, in the second.
-/

import Mathlib
import UpdateSql.Number.FloatText
import UpdateSql.Proofs.Number.Arithmetic

set_option relaxedAutoImplicit false
set_option autoImplicit false

namespace UpdateSql.FloatText

open Float.Model (Format UnpackedFloat)
open Float.Model.UnpackedFloat (Sign)
open FloatRounding

/-! ### Singles taken apart -/

theorem unpack_single_mem {x : Float32} {s : Sign} {m : Nat} {e : Int} {h : 0 < m}
    (hx : x.toModel.unpack = .finite s m e h) : m < 2 ^ 24 ∧ -149 ≤ e ∧ e ≤ 104 := by
  obtain ⟨k, hk⟩ : ∃ k, @UnpackedFloat.unpackExponent .binary32
    x.toModel.toBits.toBitVec = k := ⟨_, rfl⟩
  have hk_lt : k.toNat < 256 := k.isLt
  have hbias : ((Format.binary32.exponentBias : Int)
      + Format.binary32.mantissaBitsWithoutImplicit) = 150 := rfl
  rw [Float32.Model.unpack, UnpackedFloat.unpack, hk] at hx
  dsimp only at hx
  rw [hbias] at hx
  split at hx
  · split at hx <;> cases hx
  · next hones =>
      have hk_max : k.toNat ≠ 255 := fun heq => hones (BitVec.eq_of_toNat_eq heq)
      split at hx
      · next hzero =>
          have hk_zero : k.toNat = 0 := congrArg BitVec.toNat hzero
          split at hx
          · cases hx
          · cases hx
            have hm : (@UnpackedFloat.unpackMantissa .binary32
              x.toModel.toBits.toBitVec).toNat < 2 ^ 23 := BitVec.isLt _
            omega
      · next hzero =>
          have hk_pos : k.toNat ≠ 0 := fun heq => hzero (BitVec.eq_of_toNat_eq heq)
          cases hx
          have hm : (1#1 ++ @UnpackedFloat.unpackMantissa .binary32
            x.toModel.toBits.toBitVec).toNat < 2 ^ 24 := BitVec.isLt _
          omega

/-! ### The text of a single -/

/-- The text of a single as such: sign and the fewest digits that read back as it as a single, or
the name of a value that is no number. -/
def singleChars (x : Float32) : List Char :=
  match x.toModel.unpack with
  | .finite s m e _ => signChars s ++ (Decimal.shortest .binary32 m e).positional
  | special => unpackedChars special

section

variable {m : Nat} {e : Int}

/-- The decimal chosen for a single is far from the ends of the range of doubles. -/
theorem inRange_shortest (hm : 0 < m) (hm_lt : m < 2 ^ 24) (he : -149 ≤ e) (he' : e ≤ 104) :
    InRange (Decimal.shortest .binary32 m e).value := by
  have hnearest := @Decimal.nearest_shortest .binary32 m e hm
  have hpos := two_zpow_pos e
  have hreach := reachBelow_le .binary32 m e
  have hm_one : (1 : ℚ) ≤ m := by exact_mod_cast hm
  have hm_high : (m : ℚ) + 1 ≤ 2 ^ 24 := by exact_mod_cast hm_lt
  constructor
  · calc (2 : ℚ) ^ (-1022 : Int) ≤ 2 ^ (-1 + e) := two_zpow_le_iff.2 (by omega)
      _ = 1 / 2 * 2 ^ e := by rw [two_zpow_add]; norm_num
      _ ≤ (m - reachBelow .binary32 m e) * 2 ^ e :=
        mul_le_mul_of_nonneg_right (by linarith) hpos.le
      _ ≤ _ := hnearest.low_le
  · calc (Decimal.shortest .binary32 m e).value ≤ (m + 1 / 2) * 2 ^ e := hnearest.le_high
      _ < 2 ^ 24 * 2 ^ e := mul_lt_mul_of_pos_right (by linarith) hpos
      _ = 2 ^ (24 + e) := by rw [two_zpow_add]; norm_num
      _ ≤ 2 ^ (1023 : Int) := two_zpow_le_iff.2 (by omega)

/-- The doubles near to a decimal chosen for a single lie much denser than its grid. -/
theorem two_zpow_lt_grid (hm : 0 < m) (hm_lt : m < 2 ^ 24) {m' : Nat} {e' : Int}
    (hnormal : IsNormal m' e')
    (hnearest : Nearest .binary64 m' e' (Decimal.shortest .binary32 m e).value) :
    (2 : ℚ) ^ e' < 10 ^ (Decimal.shortest .binary32 m e).exponent := by
  have hsingle := @Decimal.nearest_shortest .binary32 m e hm
  have hgrid := @Decimal.two_zpow_le_shortest .binary32 m e hm
  have hpos := two_zpow_pos e
  have hpos' := two_zpow_pos e'
  have hreach := reachBelow_le .binary64 m' e'
  have hm_high : (m : ℚ) + 1 ≤ 2 ^ 24 := by exact_mod_cast hm_lt
  have hm'_low : (2 : ℚ) ^ 52 ≤ m' := by exact_mod_cast hnormal.le_significand
  -- both floats are near to the decimal, and the double has 29 digits more than the single
  have hexp : (2 : ℚ) ^ (51 + e') < 2 ^ (24 + e) :=
    calc (2 : ℚ) ^ (51 + e') = 2 ^ 51 * 2 ^ e' := by rw [two_zpow_add]; norm_num
      _ ≤ (m' - reachBelow .binary64 m' e') * 2 ^ e' :=
        mul_le_mul_of_nonneg_right (by linarith) hpos'.le
      _ ≤ (Decimal.shortest .binary32 m e).value := hnearest.low_le
      _ ≤ (m + 1 / 2) * 2 ^ e := hsingle.le_high
      _ < 2 ^ 24 * 2 ^ e := mul_lt_mul_of_pos_right (by linarith) hpos
      _ = 2 ^ (24 + e) := by rw [two_zpow_add]; norm_num
  rw [two_zpow_lt_iff] at hexp
  have hstep : (2 : ℚ) ^ (5 + e') ≤ 2 ^ e := two_zpow_le_iff.2 (by omega)
  rw [two_zpow_add] at hstep
  norm_num at hstep
  linarith

/-- **The double that is nearest to the decimal chosen for a single has the same decimal.** -/
theorem shortest_of_nearest (hm : 0 < m) (hm_lt : m < 2 ^ 24) {m' : Nat} {e' : Int}
    (hnormal : IsNormal m' e')
    (hnearest : Nearest .binary64 m' e' (Decimal.shortest .binary32 m e).value) :
    Decimal.shortest .binary64 m' e' = Decimal.shortest .binary32 m e := by
  refine Decimal.shortest_eq_of_isolated hnormal.pos hnearest
    (Decimal.coefficient_mod_of_shortest hm) fun c hc => ?_
  have hgrid := two_zpow_lt_grid hm hm_lt hnormal hnearest
  have hdist := hc.sub_le hnearest
  have hdist' := hnearest.sub_le hc
  rw [Decimal.value, ← sub_mul] at hdist hdist'
  generalize (Decimal.shortest .binary32 m e).coefficient = d at hdist hdist' ⊢
  generalize (10 : ℚ) ^ (Decimal.shortest .binary32 m e).exponent = g at hgrid hdist hdist'
  have hpos' := two_zpow_pos e'
  rcases Nat.lt_trichotomy c d with h | h | h
  · have hstep : (c : ℚ) + 1 ≤ d := by exact_mod_cast h
    nlinarith
  · exact h
  · have hstep : (d : ℚ) + 1 ≤ c := by exact_mod_cast h
    nlinarith

end

/-! ### Widening -/

theorem unpack_withSign {x : Float} {m : Nat} {e : Int} {h : 0 < m}
    (hx : x.toModel.unpack = .finite .positive m e h) (hnormal : IsNormal m e) (s : Sign) :
    (withSign x s).toModel.unpack = .finite s m e h := by
  cases s with
  | positive => exact hx
  | negative =>
      change (Float.Model.pack x.toModel.unpack.neg).unpack = _
      rw [hx]
      exact unpack_pack hnormal

theorem unpack_notANumber : (0 / 0 : Float).toModel.unpack = .notANumber := by rfl

theorem unpack_withSign_infinity (s : Sign) :
    (withSign (1 / 0) s).toModel.unpack = .infinity s := by
  cases s <;> rfl

theorem unpack_withSign_zero (s : Sign) : (withSign 0 s).toModel.unpack = .zero s := by
  cases s <;> rfl

/-- What is no finite number other than zero is converted to what it is. -/
theorem unpack_convert {magnitude : Nat → Int → Float} {x : Float32}
    (hx : ∀ s m e h, x.toModel.unpack ≠ .finite s m e h) :
    (convert magnitude x).toModel.unpack = x.toModel.unpack := by
  rw [convert]
  cases h : x.toModel.unpack with
  | notANumber => exact unpack_notANumber
  | infinity s => exact unpack_withSign_infinity s
  | zero s => exact unpack_withSign_zero s
  | finite s m e hm => exact absurd h (hx s m e hm)

theorem convert_of_finite {magnitude : Nat → Int → Float} {x : Float32} {s : Sign} {m : Nat}
    {e : Int} {h : 0 < m} (hx : x.toModel.unpack = .finite s m e h) :
    convert magnitude x = withSign (magnitude m e) s := by
  rw [convert, hx]

theorem unpack_ofSingle {x : Float32} {s : Sign} {m : Nat} {e : Int} {h : 0 < m}
    (hx : x.toModel.unpack = .finite s m e h) :
    ∃ m' e' h', (ofSingle x).toModel.unpack = .finite s m' e' h' ∧
      Decimal.shortest .binary64 m' e' = Decimal.shortest .binary32 m e := by
  obtain ⟨hm_lt, he, he'⟩ := unpack_single_mem hx
  obtain ⟨m', e', h', hunpack, hnormal, hnearest⟩ :=
    roundedFrom_toFloat (inRange_shortest h hm_lt he he')
  refine ⟨m', e', h', ?_, shortest_of_nearest h hm_lt hnormal hnearest⟩
  rw [ofSingle, convert_of_finite hx, unpack_withSign hunpack hnormal]

/-- **A single keeps its own text** when it becomes the double nearest to it. -/
theorem chars_ofSingle (x : Float32) : chars (ofSingle x) = singleChars x := by
  rw [chars, singleChars]
  cases hx : x.toModel.unpack with
  | finite s m e hm =>
      obtain ⟨m', e', hm', hunpack, hshortest⟩ := unpack_ofSingle hx
      rw [hunpack, unpackedChars, hshortest]
  | _ => rw [ofSingle, unpack_convert (by simp [hx]), hx]

theorem isFinite_ofSingle (x : Float32) : (ofSingle x).isFinite = x.isFinite := by
  change (ofSingle x).toModel.unpack.isFinite = x.toModel.unpack.isFinite
  cases hx : x.toModel.unpack with
  | finite s m e hm =>
      obtain ⟨m', e', hm', hunpack, -⟩ := unpack_ofSingle hx
      rw [hunpack]
      rfl
  | _ => rw [ofSingle, unpack_convert (by simp [hx]), hx]

/-! ### The value of a single -/

/-- Sign and magnitude of a float, if it is finite. -/
def numberOf : UnpackedFloat → Option (Sign × ℚ)
  | .finite s m e _ => some (s, m * 2 ^ e)
  | .zero s => some (s, 0)
  | _ => none

theorem isFinite_eq (f : UnpackedFloat) : f.isFinite = (numberOf f).isSome := by
  cases f <;> rfl

/-- A natural number of at most 53 digits, with zeros after them, is a float. -/
theorem hasValue_ofNat {m k : Nat} (h : IsShort m k) :
    HasValue (Float.ofNat (m * 2 ^ k)).toModel.unpack (m * 2 ^ (k : Int)) := by
  have hvalue : (Decimal.mk (m * 2 ^ k) 0).value = m * 2 ^ (k : Int) := by
    rw [Decimal.value, zpow_zero, mul_one, zpow_natCast, Nat.cast_mul, Nat.cast_pow, Nat.cast_ofNat]
  have hfloat : Float.ofNat (m * 2 ^ k) = (Decimal.mk (m * 2 ^ k) 0).toFloat := rfl
  have hrounded := roundedFrom_toFloat (hvalue ▸ h.inRange)
  rw [hvalue, ← hfloat] at hrounded
  exact hrounded.hasValue h

/-- A number of at most 53 digits with a fraction is a quotient of floats. -/
theorem hasValue_quotient {m k : Nat} (hm : 0 < m) (hm_lt : m < 2 ^ 53) (hk : k ≤ 970) :
    HasValue (Float.ofNat m / Float.ofNat (2 ^ k)).toModel.unpack (m * 2 ^ (-k : Int)) := by
  have hshort : IsShort m (-k) := ⟨hm, hm_lt, by omega, by omega⟩
  have hnumber := hasValue_ofNat (m := m) (k := 0) ⟨hm, hm_lt, by norm_num, by norm_num⟩
  have hpower := hasValue_ofNat (m := 1) (k := k) ⟨by norm_num, by norm_num, by omega, by omega⟩
  have hvalue : (m * 2 ^ (-k : Int) : ℚ)
      = m * 2 ^ ((0 : Nat) : Int) / ((1 : Nat) * 2 ^ (k : Int)) := by
    rw [zpow_neg, zpow_natCast, zpow_natCast, pow_zero, mul_one, Nat.cast_one, one_mul,
      div_eq_mul_inv]
  rw [Nat.pow_zero, Nat.mul_one] at hnumber
  rw [Nat.one_mul] at hpower
  have hquot := roundedFrom_float_div hnumber hpower (hvalue ▸ hshort.inRange)
  rw [← hvalue] at hquot
  exact hquot.hasValue hshort

theorem widen_of_finite {x : Float32} {s : Sign} {m : Nat} {e : Int} {h : 0 < m}
    (hx : x.toModel.unpack = .finite s m e h) :
    ∃ y, widen x = withSign y s ∧ HasValue y.toModel.unpack (m * 2 ^ e) := by
  obtain ⟨hm_lt, he, he'⟩ := unpack_single_mem hx
  have hm_lt' : m < 2 ^ 53 := hm_lt.trans (by norm_num)
  cases e with
  | ofNat k =>
      rw [Int.ofNat_eq_natCast] at he'
      exact ⟨_, convert_of_finite hx, hasValue_ofNat ⟨h, hm_lt', by omega, by omega⟩⟩
  | negSucc k => exact ⟨_, convert_of_finite hx, hasValue_quotient h hm_lt' (by omega)⟩

/-- **A single keeps its value**, and a zero its sign, when it is widened. -/
theorem numberOf_widen (x : Float32) :
    numberOf (widen x).toModel.unpack = numberOf x.toModel.unpack := by
  cases hx : x.toModel.unpack with
  | finite s m e hm =>
      obtain ⟨y, hy, m', e', hm', hunpack, hnormal, hvalue⟩ := widen_of_finite hx
      rw [hy, unpack_withSign hunpack hnormal, numberOf, numberOf, hvalue]
  | _ => rw [widen, unpack_convert (by simp [hx]), hx]

theorem isFinite_widen (x : Float32) : (widen x).isFinite = x.isFinite := by
  change (widen x).toModel.unpack.isFinite = x.toModel.unpack.isFinite
  rw [isFinite_eq, isFinite_eq, numberOf_widen]

end UpdateSql.FloatText
