/-
**Literals.**

The text of a value in a statement: null, truth values and numbers as words and digits, text
between quotes, links as record ids, documents as assignments between round brackets, lists between
square ones.  Class name and record id of an embedded document are not written.

A value has no literal if it holds a float that is infinite or no number, or a document field with
an empty name, at any depth; the fault that comes first in reading order is reported.

Main definitions:

* `Value.literalChars`, `Value.literal` — the literal of a value;
* `assignmentChars` — a field name and a literal, as in `name = literal`;
* `Value.assignments` — the assignments of a list of fields.
-/

import UpdateSql.Number.FloatText
import UpdateSql.Number.Numeral
import UpdateSql.Error
import UpdateSql.Text.Quoted
import UpdateSql.Value.Basic

set_option relaxedAutoImplicit false
set_option autoImplicit false

namespace UpdateSql

/-- The error for a float that has no literal. -/
def Error.nonFiniteFloat (x : Float) : Error :=
  .unsupportedValueKind ("non-finite float " ++ FloatText.text x ++ " has no literal form")

/-- Texts in a row, with a comma and a space between them. -/
def commaSeparated (items : List (List Char)) : List Char := [',', ' '].intercalate items

/-- A field name with the literal assigned to it; an empty name is refused before the literal. -/
def assignmentChars (name : String) (literal : Except Error (List Char)) :
    Except Error (List Char) :=
  if name.isEmpty then .error (.emptyName .field)
  else literal.map fun text => name.toList ++ ([' ', '=', ' '] ++ text)

theorem assignmentChars_eq_ok_iff {name : String} {literal : Except Error (List Char)}
    {text : List Char} : assignmentChars name literal = .ok text ↔
      name ≠ "" ∧ ∃ t, literal = .ok t ∧ text = name.toList ++ ([' ', '=', ' '] ++ t) := by
  have hempty : name.isEmpty = true ↔ name = "" := String.isEmpty_iff
  rw [assignmentChars]
  by_cases h : name = ""
  · simp [h]
  · rw [if_neg (mt hempty.1 h)]
    cases literal with
    | error e => simp [Except.map]
    | ok t => simp [Except.map, h, eq_comm]

mutual

/-- The characters of the literal of a value. -/
def Value.literalChars (mode : QuoteMode) : Value → Except Error (List Char)
  | .null => .ok ['N', 'U', 'L', 'L']
  | .bool true => .ok ['t', 'r', 'u', 'e']
  | .bool false => .ok ['f', 'a', 'l', 's', 'e']
  | .integer n => .ok (Numeral.intChars n.toInt)
  | .unsigned n => .ok (Nat.toDigits 10 n.toNat)
  | .float x => if x.isFinite then .ok (FloatText.chars x) else .error (.nonFiniteFloat x)
  | .string s => .ok (Quoted.encode mode s.toList)
  | .link id => .ok id.chars
  | .document ⟨_, _, fields⟩ => do
    let entries ← Value.assignments mode fields
    return '(' :: (commaSeparated entries ++ [')'])
  | .list items => do
    let entries ← Value.literals mode items
    return '[' :: (commaSeparated entries ++ [']'])

/-- The literals of the values of a list. -/
def Value.literals (mode : QuoteMode) : List Value → Except Error (List (List Char))
  | [] => .ok []
  | v :: rest => do
    let text ← Value.literalChars mode v
    return text :: (← Value.literals mode rest)

/-- The assignments of a list of fields. -/
def Value.assignments (mode : QuoteMode) :
    List (String × Value) → Except Error (List (List Char))
  | [] => .ok []
  | (name, v) :: rest => do
    let text ← assignmentChars name (Value.literalChars mode v)
    return text :: (← Value.assignments mode rest)

end

/-- The literal of a value. -/
def Value.literal (mode : QuoteMode) (v : Value) : Except Error String :=
  (v.literalChars mode).map String.ofList

/-! ### Lists of literals -/

/-- The literals of a list are the literals of its items, in order. -/
theorem Value.literals_eq_mapM (mode : QuoteMode) (items : List Value) :
    Value.literals mode items = items.mapM (Value.literalChars mode) := by
  induction items with
  | nil => rfl
  | cons v rest ih =>
      rw [Value.literals, List.mapM_cons, ih]

/-- The assignments of a list of fields are those of the single fields, in order. -/
theorem Value.assignments_eq_mapM (mode : QuoteMode) (fields : List (String × Value)) :
    Value.assignments mode fields
      = fields.mapM fun entry => assignmentChars entry.1 (Value.literalChars mode entry.2) := by
  induction fields with
  | nil => rfl
  | cons entry rest ih =>
      rw [Value.assignments, List.mapM_cons, ih]

end UpdateSql
