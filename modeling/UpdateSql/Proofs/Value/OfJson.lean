/-
**Values from JSON, and back.**

The value of a JSON value can be turned into JSON again, and then it is what it was: every number of
the same kind, every key in its place.  The values that come from JSON are of a special form.  There
is no link among their parts, no float that is infinite or no number, no unsigned number that would
fit the signed range, and no document with a class name or a record id.

Main definitions:

* `Value.toJson` — a value as JSON;
* `Value.IsConverted` — what a value by itself can be if it comes from JSON.

Main results:

* `Value.toJson_ofJson` — **values of JSON turn into the JSON that they come from**;
* `Value.isConverted_of_part_ofJson` — **all parts of a value of JSON are of the special form**;
* `Value.hasName_ofJson_iff` — the names of fields are the keys of members, at any depth;
* `Value.ofJson_loses_nothing` — both together.
-/

import Mathlib.Logic.Basic
import UpdateSql.Proofs.Document.OfJson
import UpdateSql.Proofs.Json.Parts
import UpdateSql.Proofs.Value.Parts

set_option relaxedAutoImplicit false
set_option autoImplicit false

namespace UpdateSql

/-! ### Numbers of 64 bits -/

theorem Word.inRange_iff {n : Int} :
    inRange n = true ↔ -9223372036854775808 ≤ n ∧ n < 18446744073709551616 := by
  rw [inRange, Bool.and_eq_true, decide_eq_true_iff, decide_eq_true_iff]
  rfl

theorem Word.inRange_signed (n : Int64) : inRange n.toInt = true := by
  have hle := n.le_toInt
  have hlt := n.toInt_lt
  rw [inRange_iff]
  omega

theorem Word.inRange_unsigned (n : UInt64) : inRange n.toNat = true := by
  have hlt := n.toNat_lt
  rw [inRange_iff]
  omega

namespace Value

/-! ### Back to JSON -/

mutual

/-- A value as JSON.  Numbers stay of their kind; a link is written as its text, and class names and
record ids of documents are left out. -/
def toJson : Value → Json
  | .null => .null
  | .bool b => .bool b
  | .integer n => .number (.integer n.toInt (Word.inRange_signed n))
  | .unsigned n => .number (.integer n.toNat (Word.inRange_unsigned n))
  | .float x => .ofFloat x
  | .string s => .string s
  | .link id => .string id.text
  | .document ⟨_, _, fields⟩ => .object (toJsonMembers fields)
  | .list items => .array (toJsonItems items)

/-- The values of a list as JSON. -/
def toJsonItems : List Value → List Json
  | [] => []
  | v :: rest => v.toJson :: toJsonItems rest

/-- A list of fields as members of an object. -/
def toJsonMembers : List (String × Value) → List (String × Json)
  | [] => []
  | (name, v) :: rest => (name, v.toJson) :: toJsonMembers rest

end

theorem toJson_list (items : List Value) :
    (Value.list items).toJson = .array (items.map toJson) := by
  have h : toJsonItems items = items.map toJson := by
    induction items with
    | nil => rfl
    | cons v rest ih => rw [toJsonItems, List.map_cons, ih]
  rw [toJson, h]

theorem toJson_document (d : Document) :
    (Value.document d).toJson = .object (d.fields.map fun entry => (entry.1, entry.2.toJson)) := by
  obtain ⟨className, rid, fields⟩ := d
  have h : toJsonMembers fields = fields.map fun entry => (entry.1, entry.2.toJson) := by
    induction fields with
    | nil => rfl
    | cons entry rest ih => rw [toJsonMembers, List.map_cons, ih]
  rw [toJson, h]

/-- A number turns into the number that it comes from. -/
theorem toJson_ofJsonNumber (n : Json.Number) : (ofJsonNumber n).toJson = .number n := by
  cases n with
  | integer n fits =>
      have hrange := Word.inRange_iff.1 fits
      have hbound : (Word.signedBound : Int) = 9223372036854775808 := rfl
      by_cases hlt : n < Word.signedBound
      · have hn : (Int64.ofInt n).toInt = n := Int64.toInt_ofInt_of_le (by omega) (by omega)
        rw [ofJsonNumber_of_lt hlt, toJson]
        simp only [hn]
      · have hn : ((UInt64.ofNat n.toNat).toNat : Int) = n := by
          rw [UInt64.toNat_ofNat_of_lt' (by rw [UInt64.size]; omega)]
          omega
        rw [ofJsonNumber_of_le (Int.not_lt.1 hlt), toJson]
        simp only [hn]
  | float x finite =>
      rw [ofJsonNumber_float, toJson]
      exact dif_pos finite

/-- **Values of JSON turn into the JSON that they come from.** -/
theorem toJson_ofJson {j : Json} (h : j.Distinct) : (ofJson j).toJson = j := by
  induction j with
  | null | bool b | string s => rfl
  | number n => exact toJson_ofJsonNumber n
  | array items ih =>
      rw [Json.distinct_array_iff] at h
      have hitems : ∀ j ∈ items, (ofJson j).toJson = j := fun j hj => ih j hj (h j hj)
      rw [ofJson, ofJsonItems_eq_map, toJson_list, List.map_map]
      exact congrArg Json.array ((List.map_congr_left hitems).trans (List.map_id items))
  | object members ih =>
      rw [Json.distinct_object_iff] at h
      have hmembers : ∀ m ∈ members, (m.1, (ofJson m.2).toJson) = m :=
        fun m hm => by rw [ih m hm (h.2 m hm)]
      rw [ofJson_object h.1, toJson_document, List.map_map]
      exact congrArg Json.object ((List.map_congr_left hmembers).trans (List.map_id members))

/-! ### What comes from JSON -/

/-- What a value by itself can be if it comes from JSON. -/
def IsConverted : Value → Prop
  | .unsigned n => Word.signedBound ≤ n.toNat
  | .float x => x.isFinite = true
  | .link _ => False
  | .document d => d.className = none ∧ d.rid = none
  | .null | .bool _ | .integer _ | .string _ | .list _ => True

/-- A number becomes an integer, an unsigned number above the signed range or a finite float. -/
theorem ofJsonNumber_cases (n : Json.Number) :
    (∃ i, ofJsonNumber n = .integer i) ∨
      (∃ u, ofJsonNumber n = .unsigned u ∧ Word.signedBound ≤ u.toNat) ∨
      ∃ x, ofJsonNumber n = .float x ∧ x.isFinite = true := by
  cases n with
  | integer n fits =>
      by_cases hlt : n < Word.signedBound
      · exact .inl ⟨_, ofJsonNumber_of_lt hlt fits⟩
      · have hle : (Word.signedBound : Int) ≤ n := Int.not_lt.1 hlt
        have hrange := Word.inRange_iff.1 fits
        have hn : (UInt64.ofNat n.toNat).toNat = n.toNat :=
          UInt64.toNat_ofNat_of_lt' (by rw [UInt64.size]; omega)
        exact .inr (.inl ⟨_, ofJsonNumber_of_le hle fits, by omega⟩)
  | float x finite => exact .inr (.inr ⟨x, ofJsonNumber_float x finite, finite⟩)

/-- **All parts of a value of JSON are of the special form.** -/
theorem isConverted_of_part_ofJson {j : Json} {part : Value} (h : part.Part (ofJson j)) :
    part.IsConverted := by
  induction j with
  | null | bool b | string s =>
      rw [ofJson] at h
      cases h
      trivial
  | number n =>
      rw [ofJson] at h
      rcases ofJsonNumber_cases n with ⟨i, hn⟩ | ⟨u, hn, hu⟩ | ⟨x, hn, hx⟩
      · rw [hn] at h
        cases h
        trivial
      · rw [hn] at h
        cases h
        exact hu
      · rw [hn] at h
        cases h
        exact hx
  | array items ih =>
      rw [ofJson, ofJsonItems_eq_map, part_list_iff] at h
      rcases h with rfl | ⟨v, hv, h⟩
      · trivial
      · obtain ⟨j, hj, rfl⟩ := List.mem_map.1 hv
        exact ih j hj h
  | object members ih =>
      rw [ofJson, ofJsonMembers_eq_map, part_document_iff] at h
      rcases h with rfl | ⟨entry, he, h⟩
      · exact ⟨rfl, rfl⟩
      · obtain ⟨member, hmember, rfl⟩ := List.mem_map.1 (Fields.mem_of_mem_ofPairs he)
        exact ih member hmember h

/-- A number that is not taken for a whole one is a finite float, so nothing else is put in its
place. -/
theorem exists_float_of_not_whole {n : Json.Number} (hsigned : n.signed? = none)
    (hunsigned : n.unsigned? = none) : ∃ x, n.float? = some x ∧ x.isFinite = true := by
  cases n with
  | integer n fits =>
      rw [Json.Number.signed?, ite_eq_right_iff] at hsigned
      rw [Json.Number.unsigned?, ite_eq_right_iff] at hunsigned
      by_cases hlt : n < Word.signedBound
      · cases hsigned hlt
      · cases hunsigned (Int.le_trans (Int.natCast_nonneg _) (Int.not_lt.1 hlt))
  | float x finite => exact ⟨x, rfl, finite⟩

/-- **The names of fields are the keys of members**, at any depth. -/
theorem hasName_ofJson_iff {j : Json} (h : j.Distinct) {name : String} :
    (ofJson j).HasName name ↔ j.HasKey name := by
  induction j with
  | null | bool b | string s =>
      refine iff_of_false (not_hasName_of_isAtom ?_) (Json.not_hasKey_of_isAtom ?_ name)
      · trivial
      · trivial
  | number n =>
      refine iff_of_false ?_ (Json.not_hasKey_of_isAtom (j := .number n) trivial name)
      rw [ofJson]
      rcases ofJsonNumber_cases n with ⟨i, hn⟩ | ⟨u, hn, -⟩ | ⟨x, hn, -⟩
      · rw [hn]
        exact not_hasName_of_isAtom (v := .integer i) trivial
      · rw [hn]
        exact not_hasName_of_isAtom (v := .unsigned u) trivial
      · rw [hn]
        exact not_hasName_float x name
  | array items ih =>
      rw [Json.distinct_array_iff] at h
      rw [ofJson, ofJsonItems_eq_map, hasName_list_iff, Json.hasKey_array_iff]
      simp only [List.mem_map, exists_exists_and_eq_and]
      exact exists_congr fun j => and_congr_right fun hj => ih j hj (h j hj)
  | object members ih =>
      rw [Json.distinct_object_iff] at h
      rw [ofJson_object h.1, hasName_document_iff, Json.hasKey_object_iff, Document.names,
        List.map_map]
      refine or_congr Iff.rfl ?_
      simp only [List.mem_map, exists_exists_and_eq_and]
      exact exists_congr fun m => and_congr_right fun hm => ih m hm (h.2 m hm)

/-! ### Both together -/

/-- **A value of JSON has lost nothing of the JSON.**  From JSON in which the keys of each object
are distinct it turns into the same JSON again, to the order of the keys and the kind of each
number.  Among its parts an unsigned number is above the signed range, a float is finite, there is
no link, and no document has a class name or a record id.  A number is always of one of the kinds
that are tried. -/
theorem ofJson_loses_nothing :
    (∀ j : Json, j.Distinct → (ofJson j).toJson = j) ∧
    (∀ (j : Json) (n : UInt64), (Value.unsigned n).Part (ofJson j) →
      Word.signedBound ≤ n.toNat) ∧
    (∀ (j : Json) (x : Float), (Value.float x).Part (ofJson j) → x.isFinite = true) ∧
    (∀ (j : Json) (id : RecordId), ¬ (Value.link id).Part (ofJson j)) ∧
    (∀ (j : Json) (d : Document), (Value.document d).Part (ofJson j) →
      d.className = none ∧ d.rid = none) ∧
    ∀ n : Json.Number, n.signed? = none → n.unsigned? = none →
      ∃ x, n.float? = some x ∧ x.isFinite = true :=
  ⟨fun _ => toJson_ofJson, fun _ _ => isConverted_of_part_ofJson,
    fun _ _ => isConverted_of_part_ofJson, fun _ _ => isConverted_of_part_ofJson,
    fun _ _ => isConverted_of_part_ofJson, fun _ => exists_float_of_not_whole⟩

/-- Numbers at the bounds of the signed range, in an object whose keys are not sorted. -/
theorem ofJson_of_bounds :
    (ofJson (.object [("b", .number (.integer 9223372036854775808 rfl)),
        ("a", .array [.number (.integer (-9223372036854775808) rfl),
          .number (.float 1.5 rfl)])])).toJson
      = .object [("b", .number (.integer 9223372036854775808 rfl)),
        ("a", .array [.number (.integer (-9223372036854775808) rfl), .number (.float 1.5 rfl)])] ∧
    Word.signedBound ≤ (9223372036854775808 : UInt64).toNat ∧
    ∃ x, Json.Number.float? (.float 1.5 rfl) = some x ∧ x.isFinite = true := by
  obtain ⟨hback, hunsigned, -, -, -, hfloat⟩ := ofJson_loses_nothing
  refine ⟨hback _ ?_, hunsigned (.object [("b", .number (.integer 9223372036854775808 rfl))]) _ ?_,
    hfloat _ rfl rfl⟩
  · simp only [Json.distinct_object_iff, Json.distinct_array_iff, List.forall_mem_cons]
    exact ⟨by decide, Json.distinct_of_isAtom trivial,
      ⟨Json.distinct_of_isAtom trivial, Json.distinct_of_isAtom trivial, by simp⟩, by simp⟩
  · have hvalue : ofJson (.object [("b", .number (.integer 9223372036854775808 rfl))])
        = .document ⟨none, none, [("b", .unsigned 9223372036854775808)]⟩ := rfl
    rw [hvalue]
    exact .field List.mem_cons_self .self

end Value

end UpdateSql
