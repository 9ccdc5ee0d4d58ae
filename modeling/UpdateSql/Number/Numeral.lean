/-
**Decimal numerals of bounded natural numbers.**

A numeral is a non-empty run of ASCII digits, with at most one `+` in front; leading zeros are
allowed.  It is read from the left, and the reading stops at the first character that is no digit
or that takes the number to the bound, so the fault reported is the first one in reading order.

Main definitions:

* `Numeral.Fault` — why a text is not a numeral below the bound;
* `Numeral.readDigits` — reads digits after those already read;
* `Numeral.read` — reads a whole numeral;
* `Numeral.intChars` — writes an integer.
-/

set_option relaxedAutoImplicit false
set_option autoImplicit false

namespace UpdateSql.Numeral

/-- Why a text is not a numeral of a number below a bound. -/
inductive Fault where
  | empty
  | invalidDigit
  | overflow
deriving DecidableEq, Repr

/-- The words for a fault. -/
def Fault.message : Fault → String
  | .empty => "cannot parse integer from empty string"
  | .invalidDigit => "invalid digit found in string"
  | .overflow => "number too large to fit in target type"

/-- The number that a digit character stands for. -/
def digitValue (c : Char) : Nat := c.toNat - '0'.toNat

/-- Reads the remaining digits of a number whose digits so far give `value`. -/
def readDigits (bound : Nat) (value : Nat) : List Char → Except Fault Nat
  | [] => .ok value
  | c :: rest =>
    if c.isDigit then
      if value * 10 + digitValue c < bound then readDigits bound (value * 10 + digitValue c) rest
      else .error .overflow
    else .error .invalidDigit

/-- Reads a numeral of a number below `bound`. -/
def read (bound : Nat) : List Char → Except Fault Nat
  | [] => .error .empty
  | ['+'] => .error .invalidDigit
  | '+' :: digits => readDigits bound 0 digits
  | digits => readDigits bound 0 digits

/-- The numeral of an integer: a minus sign for a negative one, no leading zeros. -/
def intChars : Int → List Char
  | .ofNat n => Nat.toDigits 10 n
  | .negSucc n => '-' :: Nat.toDigits 10 (n + 1)

end UpdateSql.Numeral
