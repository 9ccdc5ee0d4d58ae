/-
**The characters of numbers.**

A whole number is written with digits and perhaps a minus sign; a finite float may have a decimal
point too.  None of these characters separates or closes anything in a statement, so a number ends
where they do.

Main definitions:

* `isNumberChar` — digits, minus sign and decimal point.

Main results:

* `Numeral.isNumberChar_of_mem_intChars`, `FloatText.isNumberChar_of_mem_chars` — **numbers are
  written with these characters alone**.
-/

import UpdateSql.Number.FloatText
import UpdateSql.Number.Numeral

set_option relaxedAutoImplicit false
set_option autoImplicit false

namespace UpdateSql

/-- Whether a character can stand in a number. -/
def isNumberChar (c : Char) : Bool := c.isDigit || c == '-' || c == '.'

theorem isNumberChar_of_isDigit {c : Char} (h : c.isDigit = true) : isNumberChar c = true := by
  simp [isNumberChar, h]

theorem isNumberChar_of_mem_toDigits {n : Nat} {c : Char} (h : c ∈ Nat.toDigits 10 n) :
    isNumberChar c = true :=
  isNumberChar_of_isDigit (Nat.isDigit_of_mem_toDigits (by decide) (by decide) h)

/-! ### Whole numbers -/

namespace Numeral

theorem intChars_ne_nil (n : Int) : intChars n ≠ [] := by
  cases n with
  | ofNat n => exact Nat.toDigits_ne_nil
  | negSucc n => exact List.cons_ne_nil _ _

theorem isNumberChar_of_mem_intChars {n : Int} {c : Char} (h : c ∈ intChars n) :
    isNumberChar c = true := by
  cases n with
  | ofNat n => exact isNumberChar_of_mem_toDigits h
  | negSucc n =>
      rcases List.mem_cons.1 h with rfl | h
      · rfl
      · exact isNumberChar_of_mem_toDigits h

end Numeral

/-! ### Floats -/

namespace Decimal

theorem withPoint_ne_nil (places : Nat) (digits : List Char) : withPoint places digits ≠ [] := by
  unfold withPoint
  split
  · exact List.append_ne_nil_of_right_ne_nil _ (List.cons_ne_nil _ _)
  · exact List.cons_ne_nil _ _

theorem positional_ne_nil (d : Decimal) : d.positional ≠ [] := by
  unfold positional
  split
  · exact List.append_ne_nil_of_left_ne_nil Nat.toDigits_ne_nil _
  · exact withPoint_ne_nil _ _

theorem isNumberChar_of_mem_withPoint {places : Nat} {digits : List Char} {c : Char}
    (hdigits : ∀ d ∈ digits, isNumberChar d = true) (h : c ∈ withPoint places digits) :
    isNumberChar c = true := by
  unfold withPoint at h
  split at h
  · rcases List.mem_append.1 h with h | h
    · exact hdigits c (List.mem_of_mem_take h)
    · rcases List.mem_cons.1 h with rfl | h
      · rfl
      · exact hdigits c (List.mem_of_mem_drop h)
  · simp only [List.mem_cons, List.mem_append, List.mem_replicate] at h
    rcases h with rfl | rfl | ⟨-, rfl⟩ | h
    · rfl
    · rfl
    · rfl
    · exact hdigits c h

theorem isNumberChar_of_mem_positional {d : Decimal} {c : Char} (h : c ∈ d.positional) :
    isNumberChar c = true := by
  unfold positional at h
  split at h
  · rcases List.mem_append.1 h with h | h
    · exact isNumberChar_of_mem_toDigits h
    · rw [List.eq_of_mem_replicate h]
      rfl
  · exact isNumberChar_of_mem_withPoint (fun _ hd => isNumberChar_of_mem_toDigits hd) h

end Decimal

namespace FloatText

open Float.Model (UnpackedFloat)
open Float.Model.UnpackedFloat (Sign)

theorem isNumberChar_of_mem_signChars {s : Sign} {c : Char} (h : c ∈ signChars s) :
    isNumberChar c = true := by
  cases s with
  | positive => cases h
  | negative =>
      obtain rfl : c = '-' := List.mem_singleton.1 h
      rfl

/-- **A finite float is written with digits, a minus sign and a decimal point alone**, and is not
written as nothing. -/
theorem unpackedChars_of_isFinite {x : UnpackedFloat} (h : x.isFinite = true) :
    unpackedChars x ≠ [] ∧ ∀ c ∈ unpackedChars x, isNumberChar c = true := by
  cases x with
  | notANumber => cases h
  | infinity s => cases h
  | zero s =>
      refine ⟨List.append_ne_nil_of_right_ne_nil _ (List.cons_ne_nil _ _), fun c hc => ?_⟩
      rcases List.mem_append.1 hc with hc | hc
      · exact isNumberChar_of_mem_signChars hc
      · obtain rfl : c = '0' := List.mem_singleton.1 hc
        rfl
  | finite s m e hm =>
      refine ⟨List.append_ne_nil_of_right_ne_nil _ (Decimal.positional_ne_nil _), fun c hc => ?_⟩
      rcases List.mem_append.1 hc with hc | hc
      · exact isNumberChar_of_mem_signChars hc
      · exact Decimal.isNumberChar_of_mem_positional hc

theorem chars_ne_nil {x : Float} (h : x.isFinite = true) : chars x ≠ [] :=
  (unpackedChars_of_isFinite h).1

theorem isNumberChar_of_mem_chars {x : Float} (h : x.isFinite = true) {c : Char}
    (hc : c ∈ chars x) : isNumberChar c = true :=
  (unpackedChars_of_isFinite h).2 c hc

end FloatText

end UpdateSql
