/-
**Decimal numbers.**

A decimal number is a natural coefficient times a power of ten.

Main definitions:

* `Decimal` — coefficient and exponent;
* `Decimal.positional` — its digits with a decimal point where one is needed, never an exponent;
* `Decimal.toFloat` — the nearest binary64 float.
-/

set_option relaxedAutoImplicit false
set_option autoImplicit false

namespace UpdateSql

/-- The number `coefficient * 10 ^ exponent`. -/
structure Decimal where
  coefficient : Nat
  exponent : Int
deriving DecidableEq, Repr

namespace Decimal

/-- Puts a decimal point before the last `places` of the given digits, with zeros in front where
there are too few of them. -/
def withPoint (places : Nat) (digits : List Char) : List Char :=
  if places < digits.length then
    digits.take (digits.length - places) ++ '.' :: digits.drop (digits.length - places)
  else
    '0' :: '.' :: (List.replicate (places - digits.length) '0' ++ digits)

/-- The positional form: zeros fill up to the units, and a point comes only before a fraction. -/
def positional (d : Decimal) : List Char :=
  match d.exponent with
  | .ofNat zeros => Nat.toDigits 10 d.coefficient ++ List.replicate zeros '0'
  | .negSucc n => withPoint (n + 1) (Nat.toDigits 10 d.coefficient)

/-- The float nearest to a decimal number. -/
def toFloat (d : Decimal) : Float :=
  Float.ofScientific d.coefficient (decide (d.exponent < 0)) d.exponent.natAbs

end Decimal

end UpdateSql
