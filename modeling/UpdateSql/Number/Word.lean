/-
**Ranges of whole numbers.**

A whole number in a statement fits 64 bits, as a signed or as an unsigned number.  The bounds are
written out, so that they are numerals wherever they are used.

Main definitions:

* `Word.minSigned`, `Word.signedBound` — the signed range, from its least number to below its bound;
* `Word.unsignedBound` — the bound of the unsigned range;
* `Word.inRange` — the numbers of one range or the other.
-/

set_option relaxedAutoImplicit false
set_option autoImplicit false

namespace UpdateSql.Word

/-- The least signed number of 64 bits. -/
def minSigned : Int := -9223372036854775808

/-- The first number above the signed range of 64 bits. -/
def signedBound : Nat := 9223372036854775808

/-- The first number above the unsigned range of 64 bits. -/
def unsignedBound : Nat := 18446744073709551616

/-- Whether a number fits 64 bits, signed or unsigned. -/
def inRange (n : Int) : Bool := minSigned ≤ n && n < unsignedBound

end UpdateSql.Word
