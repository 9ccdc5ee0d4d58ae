/-
**Equality of values.**

Values of different kinds are unequal, also when they stand for the same number.  Floats compare as
numbers: a NaN differs from itself and the two zeros are equal.  Documents are equal when class
name, record id and the value of every name agree; the order of the fields does not matter.

Main definitions:

* `Value.beq`, `Document.beq` — the two equalities, as `==`.
-/

import UpdateSql.Value.Basic

set_option relaxedAutoImplicit false
set_option autoImplicit false

namespace UpdateSql

mutual

/-- Equality of values. -/
def Value.beq : Value → Value → Bool
  | .null, .null => true
  | .bool a, .bool b => a == b
  | .integer m, .integer n => m == n
  | .unsigned m, .unsigned n => m == n
  | .float x, .float y => x == y
  | .string s, .string t => s == t
  | .link r, .link s => r == s
  | .document d, .document e => Document.beq d e
  | .list xs, .list ys => Value.beqItems xs ys
  | _, _ => false
termination_by structural v => v

/-- Equality of lists of values, item by item. -/
def Value.beqItems : List Value → List Value → Bool
  | [], [] => true
  | x :: xs, y :: ys => Value.beq x y && Value.beqItems xs ys
  | _, _ => false
termination_by structural items => items

/-- Equality of documents: as many fields, and each field of the first with an equal value in the
second. -/
def Document.beq : Document → Document → Bool
  | ⟨c, r, fields⟩, e =>
    c == e.className && r == e.rid && fields.length == e.fields.length
      && Document.agree fields e.fields
termination_by structural d => d

/-- Whether each of the first fields has an equal value among the second. -/
def Document.agree : List (String × Value) → List (String × Value) → Bool
  | [], _ => true
  | (name, v) :: rest, others =>
    (match others.lookup name with
      | some w => Value.beq v w
      | none => false)
    && Document.agree rest others
termination_by structural fields => fields

end

instance : BEq Value := ⟨Value.beq⟩

instance : BEq Document := ⟨Document.beq⟩

/-- Whether a value is equal to the value of a name among some fields. -/
def Document.holds (others : List (String × Value)) (entry : String × Value) : Bool :=
  match others.lookup entry.1 with
  | some w => entry.2 == w
  | none => false

/-- Fields agree with others if each of them holds there. -/
theorem Document.agree_eq_all (fields others : List (String × Value)) :
    Document.agree fields others = fields.all (Document.holds others) := by
  induction fields with
  | nil => rfl
  | cons entry rest ih =>
      rw [Document.agree, List.all_cons, ih]
      rfl

end UpdateSql
