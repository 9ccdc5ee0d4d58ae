/-
**Whole numbers in a statement.**

A whole number can get into a statement in many ways: from each type of machine integers that has
it, from JSON, and from a large integer that is first written as JSON.  Whichever way it takes, the
value is the same, and it is written as the plain decimal form of the number; so the number can be
read back, and different numbers never look alike.  A number that does not fit 64 bits has no way
into a statement.

Main definitions:

* `Value.ofInt` — the value of a whole number;
* `Value.Enters` — a whole number gets into a statement as a value;
* `Numeral.IsPlain` — a text is the plain decimal form of a whole number.

Main results:

* `Value.Enters.eq_ofInt` — **whichever way a number takes, its value is the same**;
* `Numeral.isPlain_intChars` — whole numbers are written in plain form;
* `Update.setJson_of_inRange`, `Update.setJson_of_not_inRange` — what becomes of large integers;
* `Update.whole_numbers_enter_alike` — **all ways together**.
-/

import Mathlib
import UpdateSql.Proofs.Update.Calls
import UpdateSql.Proofs.Value.OfJson
import UpdateSql.Value.Literal

set_option relaxedAutoImplicit false
set_option autoImplicit false

namespace UpdateSql

/-! ### The plain decimal form -/

namespace Numeral

/-- A text is the plain decimal form of a whole number: digits for its magnitude, with no zero in
front of another digit, and before them a minus sign exactly if the number is negative. -/
def IsPlain (n : Int) (text : List Char) : Prop :=
  ∃ digits : List Char, digits ≠ [] ∧ (∀ c ∈ digits, c.isDigit = true) ∧
    (digits.head? = some '0' → digits = ['0']) ∧ Nat.ofDigitChars 10 digits 0 = n.natAbs ∧
    text = if n < 0 then '-' :: digits else digits

theorem digitChar_ne_zero {n : Nat} (hpos : 0 < n) (hlt : n < 10) : n.digitChar ≠ '0' := by
  interval_cases n <;> decide

/-- The digits of a positive number start with no zero. -/
theorem head?_toDigits_ne {n : Nat} (hn : 0 < n) : (Nat.toDigits 10 n).head? ≠ some '0' := by
  induction n using Nat.strongRecOn with
  | ind n ih =>
      rw [Nat.toDigits_eq_if (by decide)]
      split
      · next hlt =>
          rw [List.head?_cons, ne_eq, Option.some.injEq]
          exact digitChar_ne_zero hn hlt
      · next hge =>
          have hquot : 0 < n / 10 := by omega
          rw [List.head?_append_of_ne_nil _ Nat.toDigits_ne_nil]
          exact ih (n / 10) (by omega) hquot

theorem toDigits_of_head?_eq {n : Nat} (h : (Nat.toDigits 10 n).head? = some '0') :
    Nat.toDigits 10 n = ['0'] := by
  rcases Nat.eq_zero_or_pos n with rfl | hn
  · rfl
  · exact absurd h (head?_toDigits_ne hn)

/-- **Whole numbers are written in plain form.** -/
theorem isPlain_intChars (n : Int) : IsPlain n (intChars n) := by
  refine ⟨Nat.toDigits 10 n.natAbs, Nat.toDigits_ne_nil,
    fun c hc => Nat.isDigit_of_mem_toDigits (by decide) (by decide) hc, toDigits_of_head?_eq,
    Nat.ofDigitChars_ten_toDigits, ?_⟩
  cases n with
  | ofNat n => rfl
  | negSucc n => exact (if_pos (Int.negSucc_lt_zero n)).symm

theorem ofList_intChars (n : Int) : String.ofList (intChars n) = n.repr := by
  cases n with
  | ofNat n => exact Nat.repr_eq_ofList_toDigits.symm
  | negSucc n =>
      rw [Int.repr, intChars, Nat.repr_eq_ofList_toDigits, ← String.toList_inj]
      simp

/-- A whole number is read back from its decimal form. -/
theorem toInt?_ofList_intChars (n : Int) : (String.ofList (intChars n)).toInt? = some n := by
  rw [ofList_intChars, Int.toInt?_repr]

end Numeral

/-! ### Values of whole numbers -/

namespace Value

/-- The value of a whole number: an integer, or an unsigned number above the signed range. -/
def ofInt (n : Int) : Value :=
  if n < Word.signedBound then .integer (Int64.ofInt n) else .unsigned (UInt64.ofNat n.toNat)

theorem ofInt_of_lt {n : Int} (h : n < 9223372036854775808) :
    ofInt n = .integer (Int64.ofInt n) :=
  if_pos h

theorem ofInt_of_le {n : Int} (h : 9223372036854775808 ≤ n) :
    ofInt n = .unsigned (UInt64.ofNat n.toNat) :=
  if_neg (Int.not_lt.2 h)

theorem ofJsonNumber_integer {n : Int} (fits : Word.inRange n = true) :
    ofJsonNumber (.integer n fits) = ofInt n := by
  by_cases h : n < Word.signedBound
  · rw [ofJsonNumber_of_lt h, ofInt, if_pos h]
  · rw [ofJsonNumber_of_le (Int.not_lt.1 h), ofInt, if_neg h]

/-- The literal of a whole number is its decimal form. -/
theorem literal_ofInt {n : Int} (h : Word.inRange n = true) (mode : QuoteMode) :
    (ofInt n).literal mode = .ok (String.ofList (Numeral.intChars n)) := by
  obtain ⟨hmin, hmax⟩ := Word.inRange_iff.1 h
  by_cases hlt : n < 9223372036854775808
  · have hn : (Int64.ofInt n).toInt = n := Int64.toInt_ofInt_of_le (by omega) (by omega)
    rw [ofInt_of_lt hlt, literal, literalChars, hn]
    rfl
  · obtain ⟨k, rfl⟩ := Int.eq_ofNat_of_zero_le (show 0 ≤ n by omega)
    have hk : (UInt64.ofNat k).toNat = k :=
      UInt64.toNat_ofNat_of_lt' (by rw [UInt64.size]; omega)
    rw [ofInt_of_le (Int.not_lt.1 hlt), literal, literalChars, Int.toNat_natCast, hk]
    rfl

/-! ### The ways into a statement -/

/-- A whole number gets into a statement as a value, in one of the ways there are: from a type of
machine integers, from JSON, or from an integer of any size that is written as JSON. -/
inductive Enters : Int → Value → Prop
  | int8 (n : Int8) : Enters n.toInt (toValue n)
  | int16 (n : Int16) : Enters n.toInt (toValue n)
  | int32 (n : Int32) : Enters n.toInt (toValue n)
  | int64 (n : Int64) : Enters n.toInt (toValue n)
  | uint8 (n : UInt8) : Enters n.toNat (toValue n)
  | uint16 (n : UInt16) : Enters n.toNat (toValue n)
  | uint32 (n : UInt32) : Enters n.toNat (toValue n)
  | uint64 (n : UInt64) : Enters n.toNat (toValue n)
  | usize (n : USize) : Enters n.toNat (toValue n)
  | json (n : Int) (fits : Word.inRange n = true) : Enters n (ofJson (.number (.integer n fits)))
  /-- The value is the one that is assigned to the field. -/
  | setJson {stage : Stage} {q next : Update stage} {field : String} {n : Int} {v : Value}
      (h : q.setJson field n = .ok next)
      (hv : next.assignments = q.assignments ++ [(field, v)]) : Enters n v

theorem integer_eq_ofInt (i : Int64) : Value.integer i = ofInt i.toInt := by
  rw [ofInt_of_lt i.toInt_lt, Int64.ofInt_toInt]

theorem integer_ofNat_eq_ofInt {k : Nat} (h : k < 9223372036854775808) :
    Value.integer (Int64.ofNat k) = ofInt k := by
  rw [ofInt_of_lt (by omega)]
  rfl

theorem toValue_uint64 (n : UInt64) : toValue n = ofInt n.toNat := by
  have hvalue : toValue n
      = if n.toNat < Word.signedBound then .integer (Int64.ofNat n.toNat) else .unsigned n := rfl
  rw [hvalue]
  split
  · next h => exact integer_ofNat_eq_ofInt h
  · next h =>
      have hle : 9223372036854775808 ≤ n.toNat := Nat.not_lt.1 h
      rw [ofInt_of_le (by omega), Int.toNat_natCast, UInt64.ofNat_toNat]

end Value

namespace Update

variable {stage : Stage}

/-- An integer that fits 64 bits is assigned as the value of a whole number. -/
theorem setJson_of_inRange {n : Int} (h : Word.inRange n = true) (q : Update stage)
    (field : String) : q.setJson field n = .ok (q.set field (Value.ofInt n)) := by
  refine setJson_eq_ok_iff.2 ⟨.number (.integer n h), ?_, ?_⟩
  · have hjson : Json.ofInt? n = some (.number (.integer n h)) := dif_pos h
    simp only [toJson, hjson]
  · rw [← Value.ofJsonNumber_integer h]
    rfl

/-- An integer that does not fit 64 bits is refused. -/
theorem setJson_of_not_inRange {n : Int} (h : Word.inRange n = false) (q : Update stage)
    (field : String) : q.setJson field n = .error .numberOutOfRange := by
  have hjson : Json.ofInt? n = none := dif_neg (ne_true_of_eq_false h)
  have hfail : toJson n = .error .numberOutOfRange := by simp only [toJson, hjson]
  rw [setJson, hfail]
  rfl

end Update

namespace Value

/-- A number that gets into a statement fits 64 bits, and **whichever way it takes, its value is the
same**. -/
theorem Enters.eq_ofInt {n : Int} {v : Value} (h : Enters n v) :
    Word.inRange n = true ∧ v = ofInt n := by
  cases h with
  | int8 n | int16 n | int32 n =>
      rw [← n.toInt_toInt64]
      exact ⟨Word.inRange_signed _, integer_eq_ofInt _⟩
  | int64 n => exact ⟨Word.inRange_signed n, integer_eq_ofInt n⟩
  | uint8 n | uint16 n | uint32 n =>
      rw [← n.toNat_toUInt64]
      exact ⟨Word.inRange_unsigned _, integer_ofNat_eq_ofInt (Nat.lt_trans n.toNat_lt (by decide))⟩
  | uint64 n => exact ⟨Word.inRange_unsigned n, toValue_uint64 n⟩
  | usize n =>
      rw [← n.toNat_toUInt64]
      exact ⟨Word.inRange_unsigned _, toValue_uint64 _⟩
  | json _ fits => exact ⟨fits, ofJsonNumber_integer fits⟩
  | @setJson _ q next field _ _ h hv =>
      cases hn : Word.inRange n with
      | false =>
          rw [Update.setJson_of_not_inRange hn] at h
          cases h
      | true =>
          rw [Update.setJson_of_inRange hn] at h
          obtain rfl := Except.ok.inj h
          have hlast : (field, ofInt n) = (field, v) :=
            List.singleton_inj.1 (List.append_cancel_left hv)
          exact ⟨rfl, (Prod.mk.inj hlast).2.symm⟩

/-- The value of a whole number is of the kind that its size asks for. -/
theorem kind_ofInt {n : Int} (h : Word.inRange n = true) :
    (n < 2 ^ 63 → ∃ i : Int64, ofInt n = .integer i ∧ i.toInt = n) ∧
      (2 ^ 63 ≤ n → ∃ u : UInt64, ofInt n = .unsigned u ∧ (u.toNat : Int) = n) := by
  obtain ⟨hmin, hmax⟩ := Word.inRange_iff.1 h
  constructor
  · intro hlt
    exact ⟨_, ofInt_of_lt hlt, Int64.toInt_ofInt_of_le hmin hlt⟩
  · intro hle
    refine ⟨_, ofInt_of_le hle, ?_⟩
    rw [UInt64.toNat_ofNat_of_lt' (by rw [UInt64.size]; omega)]
    omega

/-- Numbers with the same literal are the same. -/
theorem literal_eq_literal_iff {m n : Int} {v w : Value} (hv : Enters m v) (hw : Enters n w)
    (mode mode' : QuoteMode) : v.literal mode = w.literal mode' ↔ m = n := by
  obtain ⟨hm, rfl⟩ := hv.eq_ofInt
  obtain ⟨hn, rfl⟩ := hw.eq_ofInt
  rw [literal_ofInt hm, literal_ofInt hn, Except.ok.injEq]
  constructor
  · intro h
    have hread := congrArg String.toInt? h
    rw [Numeral.toInt?_ofList_intChars, Numeral.toInt?_ofList_intChars] at hread
    exact Option.some.inj hread
  · rintro rfl
    rfl

end Value

namespace Update

open Value (Enters)

/-- **Whole numbers get into a statement alike, whichever way they take.**  A number that fits 64
bits has one value: it is what every way leads to, and when the number is assigned by way of JSON it
is added to the assignments, with nothing else changed.  It is an integer below `2 ^ 63` and an
unsigned number from there on, and in both quote modes it is written in plain decimal form, from
which the number is read back.  Numbers with the same literal are the same.  An integer that does
not fit is refused, and the update is left as it was. -/
theorem whole_numbers_enter_alike :
    (∀ n : Int, -2 ^ 63 ≤ n → n < 2 ^ 64 → ∃ v : Value,
      Enters n v ∧ (∀ w, Enters n w → w = v) ∧
      (∀ (stage : Stage) (q : Update stage) (field : String), ∃ next : Update stage,
        q.setJson field n = .ok next ∧ next = q.set field v ∧
          next = { q with assignments := q.assignments ++ [(field, v)] }) ∧
      (n < 2 ^ 63 → ∃ i : Int64, v = .integer i ∧ i.toInt = n) ∧
      (2 ^ 63 ≤ n → ∃ u : UInt64, v = .unsigned u ∧ (u.toNat : Int) = n) ∧
      ∃ text : String, (∀ mode, v.literal mode = .ok text) ∧ Numeral.IsPlain n text.toList ∧
        text.toInt? = some n) ∧
    (∀ (m n : Int) (v w : Value), Enters m v → Enters n w →
      ∀ mode mode', v.literal mode = w.literal mode' ↔ m = n) ∧
    ∀ n : Int, n < -2 ^ 63 ∨ 2 ^ 64 ≤ n →
      ∀ (stage : Stage) (q : Update stage) (field : String),
        q.setJson field n = .error .numberOutOfRange ∧
          (q.setJson field n).toOption.getD q = q := by
  refine ⟨fun n hmin hmax => ?_, fun _ _ _ _ hv hw => Value.literal_eq_literal_iff hv hw,
    fun n hn stage q field => ?_⟩
  · have hfits : Word.inRange n = true := Word.inRange_iff.2 ⟨hmin, hmax⟩
    have henters : Enters n (Value.ofInt n) := Value.ofJsonNumber_integer hfits ▸ .json n hfits
    obtain ⟨hsigned, hunsigned⟩ := Value.kind_ofInt hfits
    refine ⟨Value.ofInt n, henters, fun w hw => hw.eq_ofInt.2,
      fun _ q field => ⟨_, setJson_of_inRange hfits q field, rfl, rfl⟩, hsigned, hunsigned,
      String.ofList (Numeral.intChars n), Value.literal_ofInt hfits, ?_,
      Numeral.toInt?_ofList_intChars n⟩
    rw [String.toList_ofList]
    exact Numeral.isPlain_intChars n
  · have hfits : Word.inRange n = false := by
      rw [← Bool.not_eq_true, Word.inRange_iff]
      omega
    rw [setJson_of_not_inRange hfits]
    exact ⟨rfl, rfl⟩

/-- The number between the signed and the unsigned range from two sides, and the ones next to the
bounds that are refused. -/
theorem entrance_of_bounds :
    (∃ v : Value, toValue (9223372036854775808 : UInt64) = v ∧
      Value.ofJson (.number (.integer 9223372036854775808 rfl)) = v ∧
      ∃ next, Update.empty.setJson "a" (9223372036854775808 : Int) = .ok next ∧
        next.assignments = [("a", v)]) ∧
    (toValue (-1 : Int8)).literal .verbatim ≠ (toValue (1 : UInt64)).literal .backslash ∧
    Update.empty.setJson "a" (-9223372036854775809 : Int) = .error .numberOutOfRange ∧
    Update.empty.setJson "a" (18446744073709551616 : Int) = .error .numberOutOfRange := by
  obtain ⟨hone, hliteral, hrefused⟩ := whole_numbers_enter_alike
  obtain ⟨v, -, hsame, hjson, -⟩ := hone 9223372036854775808 (by decide) (by decide)
  obtain ⟨next, hnext, -, hentry⟩ := hjson _ Update.empty "a"
  refine ⟨⟨v, hsame _ (.uint64 9223372036854775808), hsame _ (.json _ rfl), next, hnext,
    congrArg assignments hentry⟩, ?_, (hrefused _ (.inl (by decide)) _ _ _).1,
    (hrefused _ (.inr (by decide)) _ _ _).1⟩
  rw [ne_eq, hliteral _ _ _ _ (.int8 (-1)) (.uint64 1)]
  decide

end Update

end UpdateSql
