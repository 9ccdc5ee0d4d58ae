/-
**Shortest decimals.**

The numbers that round to a float form an interval around it, whose ends belong to it if the
significand of the float is even.  The decimal chosen for a float is one of them, and no coarser
grid of decimals has any.  That determines it wherever the interval is too small for two points of
its grid.

Main definitions:

* `Nearest` — a number rounds to the float `m * 2 ^ e` of a format;
* `Decimal.value` — the number that a decimal stands for.

Main results:

* `RoundingInterval.contains_ofFinite_iff` — the scaled interval of a float holds what rounds to it;
* `Decimal.nearest_shortest`, `Decimal.not_nearest_of_shortest_lt` — **the chosen decimal rounds to
  the float, and no point of a coarser grid does**;
* `Decimal.two_zpow_le_shortest` — the grid of the chosen decimal is about as coarse as the interval
  is wide;
* `Decimal.shortest_eq_of_isolated` — a decimal without neighbours that round to the float is the
  chosen one.
-/

import Mathlib
import UpdateSql.Number.Shortest

set_option relaxedAutoImplicit false
set_option autoImplicit false

namespace UpdateSql

open Float.Model (Format)

/-! ### Numbers that round to a float -/

/-- The distance from a float down to the numbers that round to the float below it, in units of its
last digit: half of one, or a quarter where the floats below lie twice as dense. -/
def reachBelow (format : Format) (m : Nat) (e : Int) : ℚ :=
  if m = 2 ^ format.mantissaBitsWithoutImplicit ∧ e ≠ format.minExponent then 1 / 4 else 1 / 2

/-- A number rounds to the float `m * 2 ^ e` of a format: it is not too far from it, and of the ends
of that range it is one only if the significand is even. -/
structure Nearest (format : Format) (m : Nat) (e : Int) (x : ℚ) : Prop where
  low_le : (m - reachBelow format m e) * 2 ^ e ≤ x
  le_high : x ≤ (m + 1 / 2) * 2 ^ e
  even_of_end : x = (m - reachBelow format m e) * 2 ^ e ∨ x = (m + 1 / 2) * 2 ^ e → m % 2 = 0

theorem reachBelow_cases (format : Format) (m : Nat) (e : Int) :
    reachBelow format m e = 1 / 4 ∨ reachBelow format m e = 1 / 2 := by
  rw [reachBelow]
  split
  · exact .inl rfl
  · exact .inr rfl

theorem le_reachBelow (format : Format) (m : Nat) (e : Int) : 1 / 4 ≤ reachBelow format m e := by
  rcases reachBelow_cases format m e with h | h <;> rw [h]
  norm_num

theorem reachBelow_le (format : Format) (m : Nat) (e : Int) : reachBelow format m e ≤ 1 / 2 := by
  rcases reachBelow_cases format m e with h | h <;> rw [h]
  norm_num

/-- Numbers that round to the same float are at most one unit of its last digit apart. -/
theorem Nearest.sub_le {format : Format} {m : Nat} {e : Int} {x y : ℚ} (hx : Nearest format m e x)
    (hy : Nearest format m e y) : x - y ≤ 2 ^ e := by
  have hpos : (0 : ℚ) < 2 ^ e := zpow_pos (by norm_num) e
  have hreach := mul_le_mul_of_nonneg_right (reachBelow_le format m e) hpos.le
  have hlow := hy.low_le
  have hhigh := hx.le_high
  linarith

/-- The number that a decimal stands for. -/
def Decimal.value (d : Decimal) : ℚ := d.coefficient * 10 ^ d.exponent

/-! ### The scaled interval of a float -/

namespace RoundingInterval

section

variable {format : Format} {m : Nat} {e : Int}

/-- The factor of the scaled interval, together with its unit, is a quarter of the last digit of the
float. -/
theorem scale_mul (e : Int) :
    ((if 2 ≤ e then Nat.pow 2 (e - 2).toNat else Nat.pow 5 (2 - e).toNat : Nat) : ℚ)
      * 10 ^ (min (e - 2) 0) = 2 ^ e / 4 := by
  have hquarter : (2 : ℚ) ^ e / 4 = 2 ^ (e - 2) := by
    rw [zpow_sub₀ (by norm_num : (2 : ℚ) ≠ 0)]
    norm_num
  rw [hquarter]
  split
  · next h =>
      obtain ⟨n, hn⟩ := Int.eq_ofNat_of_zero_le (show 0 ≤ e - 2 by omega)
      rw [hn, min_eq_right (Int.natCast_nonneg n), Int.toNat_natCast, zpow_natCast]
      simp
  · next h =>
      -- below the units the factor is a power of five, since `5 * 2 = 10`
      obtain ⟨n, hn⟩ := Int.eq_ofNat_of_zero_le (show 0 ≤ 2 - e by omega)
      have hneg : e - 2 = -(n : Int) := by omega
      have hten : (10 : ℚ) ^ n = 5 ^ n * 2 ^ n := by rw [← mul_pow]; norm_num
      rw [hn, hneg, min_eq_left (by omega), Int.toNat_natCast, zpow_neg, zpow_neg, zpow_natCast,
        zpow_natCast, hten, Nat.pow_eq, Nat.cast_pow]
      push_cast
      field_simp

theorem unit_pos (i : RoundingInterval) : (0 : ℚ) < 10 ^ i.unit := zpow_pos (by norm_num) _

theorem value_ofFinite_mul :
    ((ofFinite format m e).value : ℚ) * 10 ^ (ofFinite format m e).unit = m * 2 ^ e := by
  simp only [ofFinite]
  rw [Nat.cast_mul, mul_assoc, scale_mul]
  push_cast
  ring

theorem high_ofFinite_mul :
    ((ofFinite format m e).high : ℚ) * 10 ^ (ofFinite format m e).unit = (m + 1 / 2) * 2 ^ e := by
  simp only [ofFinite]
  rw [Nat.cast_mul, mul_assoc, scale_mul]
  push_cast
  ring

theorem low_ofFinite_mul (hm : 0 < m) :
    ((ofFinite format m e).low : ℚ) * 10 ^ (ofFinite format m e).unit
      = (m - reachBelow format m e) * 2 ^ e := by
  simp only [ofFinite]
  rw [Nat.cast_mul, mul_assoc, scale_mul, reachBelow, Nat.pow_eq]
  split
  · rw [Nat.cast_sub (by omega)]
    push_cast
    ring
  · rw [Nat.cast_sub (by omega)]
    push_cast
    ring

/-- **The scaled interval of a float holds what rounds to it.** -/
theorem contains_ofFinite_iff (hm : 0 < m) (n : Nat) :
    (ofFinite format m e).contains n = true ↔
      Nearest format m e (n * 10 ^ (ofFinite format m e).unit) := by
  have hunit := unit_pos (ofFinite format m e)
  have hlow : (ofFinite format m e).low ≤ n ↔
      (m - reachBelow format m e) * 2 ^ e ≤ (n : ℚ) * 10 ^ (ofFinite format m e).unit := by
    rw [← low_ofFinite_mul hm, mul_le_mul_iff_left₀ hunit, Nat.cast_le]
  have hhigh : n ≤ (ofFinite format m e).high ↔
      (n : ℚ) * 10 ^ (ofFinite format m e).unit ≤ (m + 1 / 2) * 2 ^ e := by
    rw [← @high_ofFinite_mul format, mul_le_mul_iff_left₀ hunit, Nat.cast_le]
  have hlow_eq : n = (ofFinite format m e).low ↔
      (n : ℚ) * 10 ^ (ofFinite format m e).unit = (m - reachBelow format m e) * 2 ^ e := by
    rw [← low_ofFinite_mul hm, mul_left_inj' hunit.ne', Nat.cast_inj]
  have hhigh_eq : n = (ofFinite format m e).high ↔
      (n : ℚ) * 10 ^ (ofFinite format m e).unit = (m + 1 / 2) * 2 ^ e := by
    rw [← @high_ofFinite_mul format, mul_left_inj' hunit.ne', Nat.cast_inj]
  have hclosed : (ofFinite format m e).closed = (m % 2 == 0) := rfl
  rw [contains, hclosed]
  cases heven : m % 2 == 0 with
  | true =>
      rw [if_pos rfl, Bool.and_eq_true, decide_eq_true_iff, decide_eq_true_iff, hlow, hhigh]
      exact ⟨fun h => ⟨h.1, h.2, fun _ => beq_iff_eq.1 heven⟩, fun h => ⟨h.low_le, h.le_high⟩⟩
  | false =>
      have hodd : ¬ m % 2 = 0 := beq_eq_false_iff_ne.1 heven
      rw [if_neg Bool.false_ne_true, Bool.and_eq_true, decide_eq_true_iff, decide_eq_true_iff]
      constructor
      · rintro ⟨hl, hh⟩
        refine ⟨hlow.1 (Nat.le_of_lt hl), hhigh.1 (Nat.le_of_lt hh), ?_⟩
        rintro (h | h)
        · exact absurd (hlow_eq.2 h) (Nat.ne_of_gt hl)
        · exact absurd (hhigh_eq.2 h) (Nat.ne_of_lt hh)
      · intro h
        refine ⟨Nat.lt_of_le_of_ne (hlow.2 h.low_le) fun heq => hodd ?_,
          Nat.lt_of_le_of_ne (hhigh.2 h.le_high) fun heq => hodd ?_⟩
        · exact h.even_of_end (.inl (hlow_eq.1 heq.symm))
        · exact h.even_of_end (.inr (hhigh_eq.1 heq))

end

/-! ### Grids -/

variable {i : RoundingInterval}

/-- An interval goes around its value, does not reach down to zero, and is not much wider. -/
structure Around (i : RoundingInterval) : Prop where
  low_pos : 0 < i.low
  contains_value : i.contains i.value = true
  high_le : i.high ≤ 2 * i.value

theorem around_ofFinite {format : Format} {m : Nat} (hm : 0 < m) (e : Int) :
    (ofFinite format m e).Around where
  low_pos := by
    have hscale : 0 < if 2 ≤ e then Nat.pow 2 (e - 2).toNat else Nat.pow 5 (2 - e).toNat := by
      split
      · exact Nat.pow_pos (by decide)
      · exact Nat.pow_pos (by decide)
    refine Nat.mul_pos ?_ hscale
    split <;> omega
  contains_value := by
    have htwo : (0 : ℚ) < 2 ^ e := zpow_pos (by norm_num) e
    rw [contains_ofFinite_iff hm, value_ofFinite_mul]
    rcases reachBelow_cases format m e with hreach | hreach
    all_goals
      refine ⟨?_, ?_, ?_⟩
      · rw [hreach]
        nlinarith
      · nlinarith
      · rw [hreach]
        rintro (h | h)
        · nlinarith
        · nlinarith
  high_le := by
    simp only [ofFinite]
    rw [← Nat.mul_assoc]
    exact Nat.mul_le_mul_right _ (by omega)

theorem contains_of_between {a b c : Nat} (ha : i.contains a = true) (hc : i.contains c = true)
    (hab : a ≤ b) (hbc : b ≤ c) : i.contains b = true := by
  rw [contains] at ha hc ⊢
  split
  · next h =>
      rw [if_pos h, Bool.and_eq_true, decide_eq_true_iff, decide_eq_true_iff] at ha hc
      simp only [Bool.and_eq_true, decide_eq_true_iff]
      omega
  · next h =>
      rw [if_neg h, Bool.and_eq_true, decide_eq_true_iff, decide_eq_true_iff] at ha hc
      simp only [Bool.and_eq_true, decide_eq_true_iff]
      omega

theorem not_contains_zero (h : i.Around) : i.contains 0 = false := by
  have hlow := h.low_pos
  rw [contains]
  split
  · simp only [Bool.and_eq_false_iff, decide_eq_false_iff_not]
    omega
  · simp only [Bool.and_eq_false_iff, decide_eq_false_iff_not]
    omega

theorem le_of_contains (h : i.Around) {n : Nat} (hn : i.contains n = true) :
    n ≤ 2 * i.value := by
  have hhigh := h.high_le
  rw [contains] at hn
  split at hn
  · simp only [Bool.and_eq_true, decide_eq_true_iff] at hn
    omega
  · simp only [Bool.and_eq_true, decide_eq_true_iff] at hn
    omega

/-- The point that is chosen on a grid belongs to the interval. -/
theorem contains_of_gridPoint {j k : Nat} (h : i.gridPoint j = some k) :
    i.contains (k * 10 ^ j) = true := by
  simp only [gridPoint, Nat.pow_eq] at h
  split at h
  · cases h
  · next hlow _ =>
      cases h
      exact hlow
  · next _ hhigh =>
      cases h
      exact hhigh
  · next hlow hhigh =>
      split at h
      · cases h
        exact hhigh
      · cases h
        exact hlow

/-- If no point is chosen on a grid, none of its points belongs to the interval. -/
theorem not_contains_of_gridPoint (h : i.Around) {j : Nat} (hnone : i.gridPoint j = none)
    (c : Nat) : i.contains (c * 10 ^ j) = false := by
  have hpos : 0 < 10 ^ j := Nat.pow_pos (by decide)
  simp only [gridPoint, Nat.pow_eq] at hnone
  split at hnone
  · next hlow hhigh =>
      rw [← Bool.not_eq_true]
      intro hc
      -- the value lies between its neighbours on the grid, so one of them is between it and `c`
      have hbelow : i.value / 10 ^ j * 10 ^ j ≤ i.value := Nat.div_mul_le_self _ _
      have habove : i.value < (i.value / 10 ^ j + 1) * 10 ^ j := by
        rw [Nat.mul_comm]
        exact Nat.lt_mul_div_succ i.value hpos
      rcases Nat.lt_or_ge (i.value / 10 ^ j) c with hlt | hge
      · have hbetween := contains_of_between h.contains_value hc (Nat.le_of_lt habove)
          (Nat.mul_le_mul_right _ hlt)
        rw [hbetween] at hhigh
        cases hhigh
      · have hbetween := contains_of_between hc h.contains_value
          (Nat.mul_le_mul_right _ hge) hbelow
        rw [hbetween] at hlow
        cases hlow
  · cases hnone
  · cases hnone
  · split at hnone <;> cases hnone

/-- The decimal that is chosen from the grids up to a given one is a point of the interval, and the
coarser ones of these grids have no such point. -/
theorem coarsest_spec (h : i.Around) (n : Nat) : ∃ k j : Nat,
    i.coarsest n = ⟨k, i.unit + j⟩ ∧ i.contains (k * 10 ^ j) = true ∧
      ∀ j', j < j' → j' ≤ n → ∀ c, i.contains (c * 10 ^ j') = false := by
  induction n with
  | zero =>
      refine ⟨i.value, 0, ?_, ?_, fun j' hlt hle => ?_⟩
      · rw [coarsest, Int.natCast_zero, Int.add_zero]
      · rw [Nat.pow_zero, Nat.mul_one]
        exact h.contains_value
      · omega
  | succ n ih =>
      rw [coarsest]
      cases hpoint : i.gridPoint (n + 1) with
      | some k =>
          refine ⟨k, n + 1, rfl, contains_of_gridPoint hpoint, fun j' hlt hle => ?_⟩
          omega
      | none =>
          obtain ⟨k, j, heq, hk, hcoarser⟩ := ih
          refine ⟨k, j, heq, hk, fun j' hlt hle c => ?_⟩
          rcases Nat.lt_or_ge n j' with hn | hn
          · obtain rfl : j' = n + 1 := by omega
            exact not_contains_of_gridPoint h hpoint c
          · exact hcoarser j' hlt hn c

/-- The grids that are not tried have no point in the interval. -/
theorem not_contains_of_digits_lt (h : i.Around) {j : Nat}
    (hj : (Nat.toDigits 10 i.value).length < j) (c : Nat) : i.contains (c * 10 ^ j) = false := by
  rw [← Bool.not_eq_true]
  intro hc
  rcases Nat.eq_zero_or_pos c with rfl | hcpos
  · rw [Nat.zero_mul, not_contains_zero h] at hc
    cases hc
  · have hdigits : i.value < 10 ^ (Nat.toDigits 10 i.value).length :=
      (Nat.length_toDigits_le_iff (by decide) Nat.length_toDigits_pos).1 (Nat.le_refl _)
    have hstep : 10 ^ (Nat.toDigits 10 i.value).length * 10 ≤ 10 ^ j := by
      rw [← Nat.pow_succ]
      exact Nat.pow_le_pow_right (by decide) hj
    have hle := le_of_contains h hc
    have hmul := Nat.le_mul_of_pos_left (10 ^ j) hcpos
    omega

end RoundingInterval

/-! ### The chosen decimal -/

namespace Decimal

open RoundingInterval

variable {format : Format} {m : Nat} {e : Int}

theorem shortest_spec (hm : 0 < m) : ∃ k j : Nat,
    shortest format m e = ⟨k, (ofFinite format m e).unit + j⟩ ∧
      (ofFinite format m e).contains (k * 10 ^ j) = true ∧
      ∀ j', j < j' → ∀ c, (ofFinite format m e).contains (c * 10 ^ j') = false := by
  have haround := @around_ofFinite format m hm e
  obtain ⟨k, j, heq, hk, hcoarser⟩ := coarsest_spec haround
    (Nat.toDigits 10 (ofFinite format m e).value).length
  refine ⟨k, j, heq, hk, fun j' hlt c => ?_⟩
  rcases Nat.lt_or_ge (Nat.toDigits 10 (ofFinite format m e).value).length j' with hn | hn
  · exact not_contains_of_digits_lt haround hn c
  · exact hcoarser j' hlt hn c

theorem mul_unit (c j : Nat) (unit : Int) :
    ((c * 10 ^ j : Nat) : ℚ) * 10 ^ unit = c * 10 ^ (unit + j) := by
  rw [zpow_add₀ (by norm_num : (10 : ℚ) ≠ 0), zpow_natCast]
  push_cast
  ring

/-- **The chosen decimal rounds to the float.** -/
theorem nearest_shortest (hm : 0 < m) : Nearest format m e (shortest format m e).value := by
  obtain ⟨k, j, heq, hk, -⟩ := @shortest_spec format m e hm
  rw [contains_ofFinite_iff hm, mul_unit] at hk
  rw [heq]
  exact hk

/-- **No point of a coarser grid than that of the chosen decimal rounds to the float.** -/
theorem not_nearest_of_shortest_lt (hm : 0 < m) (c : Nat) {j : Int}
    (hj : (shortest format m e).exponent < j) : ¬ Nearest format m e (c * 10 ^ j) := by
  obtain ⟨k, j₀, heq, -, hcoarser⟩ := @shortest_spec format m e hm
  rw [heq] at hj
  obtain ⟨j', hj'⟩ := Int.eq_ofNat_of_zero_le
    (show 0 ≤ j - (ofFinite format m e).unit by dsimp only at hj; omega)
  obtain rfl : j = (ofFinite format m e).unit + j' := by omega
  have hnone := hcoarser j' (by dsimp only at hj; omega) c
  intro h
  rw [← mul_unit, ← contains_ofFinite_iff hm, hnone] at h
  cases h

theorem coefficient_mod_of_shortest (hm : 0 < m) :
    (shortest format m e).coefficient % 10 ≠ 0 := by
  intro h
  obtain ⟨c, hc⟩ := Nat.dvd_of_mod_eq_zero h
  refine not_nearest_of_shortest_lt hm c (Int.lt_succ (shortest format m e).exponent) ?_
  have hvalue : (shortest format m e).value = c * 10 ^ ((shortest format m e).exponent + 1) := by
    rw [value, hc, zpow_add_one₀ (by norm_num : (10 : ℚ) ≠ 0)]
    push_cast
    ring
  rw [← hvalue]
  exact nearest_shortest hm

/-- The grid of the chosen decimal is not much finer than the interval is wide. -/
theorem two_zpow_le_shortest (hm : 0 < m) :
    (2 : ℚ) ^ e ≤ 16 * 10 ^ (shortest format m e).exponent := by
  rw [← not_lt]
  intro hlt
  have hpos : (0 : ℚ) < 2 ^ e := zpow_pos (by norm_num) e
  have hgrid : (0 : ℚ) < 10 ^ ((shortest format m e).exponent + 1) := zpow_pos (by norm_num) _
  have hstep : (10 : ℚ) ^ ((shortest format m e).exponent + 1) < 5 / 8 * 2 ^ e := by
    rw [zpow_add_one₀ (by norm_num)]
    linarith
  -- the point of the next grid that comes before a point close to the upper end
  obtain ⟨c, hc⟩ : ∃ c,
      ⌊(m + 7 / 16) * 2 ^ e / (10 : ℚ) ^ ((shortest format m e).exponent + 1)⌋₊ = c := ⟨_, rfl⟩
  have hle : (c : ℚ) * 10 ^ ((shortest format m e).exponent + 1) ≤ (m + 7 / 16) * 2 ^ e := by
    rw [← le_div_iff₀ hgrid, ← hc]
    exact Nat.floor_le (by positivity)
  have hgt : (m + 7 / 16) * 2 ^ e < (c + 1 : ℚ) * 10 ^ ((shortest format m e).exponent + 1) := by
    rw [← div_lt_iff₀ hgrid, ← hc]
    exact Nat.lt_floor_add_one _
  have hreach := le_reachBelow format m e
  have hbelow : (m - reachBelow format m e) * 2 ^ e
      < c * 10 ^ ((shortest format m e).exponent + 1) := by nlinarith
  have habove : c * 10 ^ ((shortest format m e).exponent + 1) < (m + 1 / 2 : ℚ) * 2 ^ e := by
    nlinarith
  refine not_nearest_of_shortest_lt hm c (Int.lt_succ (shortest format m e).exponent)
    ⟨hbelow.le, habove.le, ?_⟩
  rintro (h | h)
  · exact absurd h hbelow.ne'
  · exact absurd h habove.ne

/-- **A decimal without neighbours that round to the float is the chosen one.** -/
theorem shortest_eq_of_isolated (hm : 0 < m) {d : Decimal} (hd : Nearest format m e d.value)
    (hdigit : d.coefficient % 10 ≠ 0)
    (hisolated : ∀ c : Nat, Nearest format m e (c * 10 ^ d.exponent) → c = d.coefficient) :
    shortest format m e = d := by
  have hle : d.exponent ≤ (shortest format m e).exponent :=
    Int.not_lt.1 fun hlt => not_nearest_of_shortest_lt hm d.coefficient hlt hd
  obtain ⟨n, hn⟩ := Int.eq_ofNat_of_zero_le (Int.sub_nonneg_of_le hle)
  have hexp : (shortest format m e).exponent = d.exponent + n := by omega
  -- on the finer grid of `d` the chosen decimal is a point that rounds to the float, so it is `d`
  have hcoefficient : (shortest format m e).coefficient * 10 ^ n = d.coefficient := by
    refine hisolated _ ?_
    rw [mul_unit, ← hexp]
    exact nearest_shortest hm
  have hzero : n = 0 := by
    rcases Nat.eq_zero_or_pos n with h | h
    · exact h
    · refine absurd ?_ hdigit
      obtain ⟨n, rfl⟩ := Nat.exists_eq_succ_of_ne_zero h.ne'
      rw [← hcoefficient, Nat.pow_succ, ← Nat.mul_assoc, Nat.mul_mod_left]
  rw [hzero, Nat.pow_zero, Nat.mul_one] at hcoefficient
  rw [hzero, Int.natCast_zero, Int.add_zero] at hexp
  cases hs : shortest format m e
  rw [hs] at hcoefficient hexp
  cases d
  exact congr_arg₂ Decimal.mk hcoefficient hexp

end Decimal

end UpdateSql
