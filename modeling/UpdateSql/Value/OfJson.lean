/-
**Values from JSON.**

Objects become documents with the same names in the same order, arrays become lists.  A whole number
becomes an integer, or an unsigned number where it is above the signed range; a float stays a float.

Main definitions:

* `Value.ofJson` — the value of a JSON value.
-/

import UpdateSql.Document.Basic
import UpdateSql.Json.Basic
import UpdateSql.Value.Conversion

set_option relaxedAutoImplicit false
set_option autoImplicit false

namespace UpdateSql

/-- The value of a JSON number: of the kinds that a number can be, the first one that it is. -/
def Value.ofJsonNumber (n : Json.Number) : Value :=
  match n.signed? with
  | some i => .integer i
  | none =>
    match n.unsigned? with
    | some u => .unsigned u
    | none => .float (n.float?.getD (0 / 0))

mutual

/-- The value of a JSON value. -/
def Value.ofJson : Json → Value
  | .null => .null
  | .bool b => .bool b
  | .number n => Value.ofJsonNumber n
  | .string s => .string s
  | .array items => .list (Value.ofJsonItems items)
  | .object members => .document { fields := Fields.ofPairs (Value.ofJsonMembers members) }

/-- The values of the items of an array. -/
def Value.ofJsonItems : List Json → List Value
  | [] => []
  | j :: rest => Value.ofJson j :: Value.ofJsonItems rest

/-- The members of an object with their values. -/
def Value.ofJsonMembers : List (String × Json) → List (String × Value)
  | [] => []
  | (name, j) :: rest => (name, Value.ofJson j) :: Value.ofJsonMembers rest

end

instance : ToValue Json := ⟨Value.ofJson⟩

/-! ### Numbers -/

/-- A whole number in the signed range is an integer. -/
theorem Value.ofJsonNumber_of_lt {n : Int} (h : n < Word.signedBound)
    (fits : Word.inRange n = true) :
    Value.ofJsonNumber (.integer n fits) = .integer (Int64.ofInt n) := by
  simp [Value.ofJsonNumber, Json.Number.signed?, h]

/-- A whole number above the signed range is an unsigned number. -/
theorem Value.ofJsonNumber_of_le {n : Int} (h : (Word.signedBound : Int) ≤ n)
    (fits : Word.inRange n = true) :
    Value.ofJsonNumber (.integer n fits) = .unsigned (UInt64.ofNat n.toNat) := by
  have hneg : ¬ n < Word.signedBound := Int.not_lt.2 h
  have hpos : 0 ≤ n := Int.le_trans (Int.natCast_nonneg _) h
  simp [Value.ofJsonNumber, Json.Number.signed?, Json.Number.unsigned?, hneg, hpos]

/-- A float stays a float. -/
theorem Value.ofJsonNumber_float (x : Float) (finite : x.isFinite = true) :
    Value.ofJsonNumber (.float x finite) = .float x := rfl

/-! ### Arrays and objects -/

/-- The values of the items of an array, one by one. -/
theorem Value.ofJsonItems_eq_map (items : List Json) :
    Value.ofJsonItems items = items.map Value.ofJson := by
  induction items with
  | nil => rfl
  | cons j rest ih => rw [Value.ofJsonItems, List.map_cons, ih]

/-- The members of an object keep their names, and their values are converted one by one. -/
theorem Value.ofJsonMembers_eq_map (members : List (String × Json)) :
    Value.ofJsonMembers members = members.map fun entry => (entry.1, Value.ofJson entry.2) := by
  induction members with
  | nil => rfl
  | cons entry rest ih => rw [Value.ofJsonMembers, List.map_cons, ih]

end UpdateSql
