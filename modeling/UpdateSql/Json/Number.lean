/-
**Numbers in JSON text.**

A number is written as an optional minus sign, whole digits without leading zeros, an optional
fraction and an optional exponent.  Without fraction and exponent it is a whole number if it fits 64
bits, signed or unsigned; minus zero and all other numbers are floats.

The digits of a float are gathered in a significand of 64 bits.  Whole digits that do not fit any
more count as powers of ten, fraction digits that do not fit any more are left out.  The significand
is then multiplied or divided by a power of ten in float arithmetic; a number that is too large for
a float is refused.

Main definitions:

* `NumberText` — the written parts of a number;
* `NumberText.parse` — takes a word apart;
* `NumberText.toNumber` — the number that the parts stand for.
-/

import UpdateSql.Number.Decimal
import UpdateSql.Number.Numeral
import UpdateSql.Json.Basic

set_option relaxedAutoImplicit false
set_option autoImplicit false

namespace UpdateSql.Json

/-- The written parts of a number; an absent fraction has no digits. -/
structure NumberText where
  negative : Bool
  whole : List Char
  fraction : List Char
  /-- Whether the exponent is negative, and its digits. -/
  exponent : Option (Bool × List Char)

namespace NumberText

/-! ### Taking a word apart -/

/-- Whether digits can be the whole part: at least one, and no zero before others. -/
def isWhole : List Char → Bool
  | [] => false
  | [_] => true
  | c :: _ => c != '0'

/-- Takes the fraction off the front, if there is a decimal point; digits must follow it. -/
def takeFraction : List Char → Option (List Char × List Char)
  | '.' :: rest =>
    match rest.takeWhile Char.isDigit with
    | [] => none
    | digits => some (digits, rest.dropWhile Char.isDigit)
  | rest => some ([], rest)

/-- Reads the sign of an exponent, if there is one: whether it is a minus, and the rest. -/
def exponentSign : List Char → Bool × List Char
  | '-' :: digits => (true, digits)
  | '+' :: digits => (false, digits)
  | digits => (false, digits)

/-- Reads the exponent, which must take up all the text that is left. -/
def readExponent : List Char → Option (Option (Bool × List Char))
  | [] => some none
  | e :: rest =>
    let (negative, digits) := exponentSign rest
    if (e == 'e' || e == 'E') && !digits.isEmpty && digits.all Char.isDigit then
      some (some (negative, digits))
    else none

/-- Takes apart the text after the sign. -/
def parseUnsigned (negative : Bool) (text : List Char) : Option NumberText := do
  let whole := text.takeWhile Char.isDigit
  if isWhole whole then
    let (fraction, rest) ← takeFraction (text.dropWhile Char.isDigit)
    let exponent ← readExponent rest
    return { negative, whole, fraction, exponent }
  else none

/-- Takes a word apart into the parts of a number. -/
def parse : List Char → Option NumberText
  | '-' :: text => parseUnsigned true text
  | text => parseUnsigned false text

/-! ### The number -/

/-- The significand is below this bound. -/
def significandBound : Nat := Word.unsignedBound

/-- The number written by some digits. -/
def digitsValue (digits : List Char) : Nat :=
  digits.foldl (fun n c => n * 10 + Numeral.digitValue c) 0

/-- Gathers whole digits as long as they fit: the significand, and the number of digits left. -/
def gatherWhole (significand : Nat) : List Char → Nat × Nat
  | [] => (significand, 0)
  | c :: rest =>
    let next := significand * 10 + Numeral.digitValue c
    if next < significandBound then gatherWhole next rest else (significand, rest.length + 1)

/-- Gathers fraction digits as long as they fit: the significand, and the number of digits
gathered. -/
def gatherFraction (significand : Nat) : List Char → Nat × Nat
  | [] => (significand, 0)
  | c :: rest =>
    let next := significand * 10 + Numeral.digitValue c
    if next < significandBound then
      let (last, count) := gatherFraction next rest
      (last, count + 1)
    else (significand, 0)

/-- The greatest power of ten that is a float. -/
def greatestPower : Nat := 308

/-- A power of ten as a float. -/
def powerOfTen (n : Nat) : Float := Decimal.toFloat ⟨1, n⟩

/-- Divides by a power of ten, by the greatest one first as long as one division is not enough. -/
def divideByPower (x : Float) (n : Nat) : Float :=
  if n ≤ greatestPower then x / powerOfTen n
  else if x == 0 then x
  else divideByPower (x / powerOfTen greatestPower) (n - greatestPower)
termination_by n
decreasing_by simp only [greatestPower] at *; omega

/-- Multiplies by a power of ten; too large a power gives a number only if there is nothing to
multiply. -/
def multiplyByPower (x : Float) (n : Nat) : Option Float :=
  if n ≤ greatestPower then some (x * powerOfTen n)
  else if x == 0 then some x
  else none

/-- The float `significand * 10 ^ exponent`. -/
def scale (significand : Nat) : Int → Option Float
  | .ofNat n => multiplyByPower (Float.ofNat significand) n
  | .negSucc n => some (divideByPower (Float.ofNat significand) (n + 1))

/-- The greatest exponent that is worked with. -/
def greatestExponent : Nat := 2147483647

/-- The float that the parts stand for, without the sign. -/
def magnitude (t : NumberText) : Option Float :=
  let (wholeDigits, left) := gatherWhole 0 t.whole
  let (significand, gathered) := gatherFraction wholeDigits t.fraction
  let shift : Int := (left : Int) - gathered
  match t.exponent with
  | none => scale significand shift
  | some (negative, digits) =>
    let exponent := digitsValue digits
    if greatestExponent < exponent then
      if significand ≠ 0 ∧ negative = false then none else some 0
    else scale significand (if negative then shift - exponent else shift + exponent)

/-- The float that the parts stand for; one that is not finite is refused. -/
def toFloatNumber (t : NumberText) : Option Number := do
  let x ← t.magnitude
  let y := if t.negative then -x else x
  if h : y.isFinite = true then some (.float y h) else none

/-- The whole number that the parts stand for, if they do and it fits. -/
def toWhole (t : NumberText) : Option Number :=
  let n : Int := if t.negative then -digitsValue t.whole else digitsValue t.whole
  if t.fraction.isEmpty && t.exponent.isNone && !(t.negative && n == 0) then
    if h : Word.inRange n = true then some (.integer n h) else none
  else none

/-- The number that the parts stand for. -/
def toNumber (t : NumberText) : Option Number := t.toWhole <|> t.toFloatNumber

end NumberText

end UpdateSql.Json
