/-
**The shortest decimal that reads back as a given float.**

A finite positive float `m * 2 ^ e` is the nearest float to every real number of an interval
around it.  Of the decimal numbers in that interval the shortest are those on the coarsest grid
`10 ^ j` that meets it, and of these the nearest to the float is chosen.  All is done on natural
numbers: interval and float are multiplied by a common power so that their quarters are whole.

Main definitions:

* `RoundingInterval` — the interval of a float, scaled;
* `RoundingInterval.ofFinite` — from significand and exponent in a binary format;
* `RoundingInterval.gridPoint` — the best multiple of `10 ^ j` in the interval, if there is one;
* `Decimal.shortest` — the chosen decimal.
-/

import UpdateSql.Number.Decimal

set_option relaxedAutoImplicit false
set_option autoImplicit false

namespace UpdateSql

open Float.Model (Format)

/-- The numbers that round to a float, in units of `10 ^ unit`: the float itself is `value`, and
the ends `low` and `high` belong to the interval when it is `closed`. -/
structure RoundingInterval where
  low : Nat
  value : Nat
  high : Nat
  closed : Bool
  unit : Int
deriving DecidableEq, Repr

namespace RoundingInterval

/-- The interval of the float `m * 2 ^ e` of a format.  It reaches half a step up; it reaches half
a step down too, or a quarter where the floats below lie twice as dense, which is so at a power of
two above the least exponent.  The ends round to the even significand. -/
def ofFinite (format : Format) (m : Nat) (e : Int) : RoundingInterval :=
  let scale := if 2 ≤ e then Nat.pow 2 (e - 2).toNat else Nat.pow 5 (2 - e).toNat
  let below :=
    if m = Nat.pow 2 format.mantissaBitsWithoutImplicit ∧ e ≠ format.minExponent then 1 else 2
  { low := (4 * m - below) * scale
    value := 4 * m * scale
    high := (4 * m + 2) * scale
    closed := m % 2 == 0
    unit := min (e - 2) 0 }

/-- Whether a number rounds to the float. -/
def contains (i : RoundingInterval) (x : Nat) : Bool :=
  if i.closed then i.low ≤ x && x ≤ i.high else i.low < x && x < i.high

/-- The multiple of `10 ^ j` in the interval that is nearest to the float, as a coefficient of
`10 ^ j`.  Only the two neighbours of the float on the grid need be tried; of two equally near ones
the upper is taken. -/
def gridPoint (i : RoundingInterval) (j : Nat) : Option Nat :=
  let step := Nat.pow 10 j
  let k := i.value / step
  match i.contains (k * step), i.contains ((k + 1) * step) with
  | false, false => none
  | true, false => some k
  | false, true => some (k + 1)
  | true, true =>
    if (k + 1) * step - i.value ≤ i.value - k * step then some (k + 1) else some k

/-- The best point of the coarsest grid that has one, of the grids `10 ^ j` and finer. -/
def coarsest (i : RoundingInterval) : Nat → Decimal
  | 0 => ⟨i.value, i.unit⟩
  | j + 1 =>
    match i.gridPoint (j + 1) with
    | some k => ⟨k, i.unit + (j + 1)⟩
    | none => i.coarsest j

end RoundingInterval

/-- The shortest decimal that rounds to the float `m * 2 ^ e` of a format, and of the shortest the
nearest one. -/
def Decimal.shortest (format : Format) (m : Nat) (e : Int) : Decimal :=
  let interval := RoundingInterval.ofFinite format m e
  interval.coarsest (Nat.toDigits 10 interval.value).length

end UpdateSql
