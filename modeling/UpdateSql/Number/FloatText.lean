/-
**Floats as text.**

A float is written with the fewest digits that read back as it, positionally, without a fraction
where it is whole; the sign of a zero is kept.  A single-precision float is widened to the double
nearest to its own shortest text, so that its text does not change.

Main definitions:

* `FloatText.chars`, `FloatText.text` — the text of a float;
* `FloatText.ofSingle` — the double with the text of a single;
* `FloatText.widen` — the double with the exact value of a single.
-/

import UpdateSql.Number.Shortest

set_option relaxedAutoImplicit false
set_option autoImplicit false

namespace UpdateSql.FloatText

open Float.Model (UnpackedFloat Format)
open Float.Model.UnpackedFloat (Sign)

/-- The sign as written: nothing for a positive number. -/
def signChars : Sign → List Char
  | .positive => []
  | .negative => ['-']

/-- The text of a float by its class: sign and digits, or the name of a value that is no number. -/
def unpackedChars : UnpackedFloat → List Char
  | .notANumber => ['N', 'a', 'N']
  | .infinity s => signChars s ++ ['i', 'n', 'f']
  | .zero s => signChars s ++ ['0']
  | .finite s m e _ => signChars s ++ (Decimal.shortest .binary64 m e).positional

/-- The characters of a float's text. -/
def chars (x : Float) : List Char := unpackedChars x.toModel.unpack

/-- The text of a float. -/
def text (x : Float) : String := String.ofList (chars x)

/-- Gives a non-negative float a sign. -/
def withSign (x : Float) : Sign → Float
  | .positive => x
  | .negative => -x

/-- The double of a single's sign and class whose magnitude, for a finite one, is the given
function of significand and exponent. -/
def convert (magnitude : Nat → Int → Float) (x : Float32) : Float :=
  match x.toModel.unpack with
  | .notANumber => 0 / 0
  | .infinity s => withSign (1 / 0) s
  | .zero s => withSign 0 s
  | .finite s m e _ => withSign (magnitude m e) s

/-- The double nearest to the shortest decimal of a single. -/
def ofSingle : Float32 → Float :=
  convert fun m e => (Decimal.shortest .binary32 m e).toFloat

/-- The double with the exact value of a single. -/
def widen : Float32 → Float :=
  convert fun m e =>
    match e with
    | .ofNat k => Float.ofNat (m * Nat.pow 2 k)
    | .negSucc k => Float.ofNat m / Float.ofNat (Nat.pow 2 (k + 1))

end UpdateSql.FloatText
