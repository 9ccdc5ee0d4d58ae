/-
**Conditions.**

A condition tests one field: it compares the field with a value, asks whether it is null, or asks
what a collection contains.  Every condition of a chain but the first says how it is joined to the
ones before it.

Main definitions:

* `Comparison`, `Operand`, `Op` — the test;
* `Combinator`, `Condition` — the test with its field and how it is joined;
* `Condition.chars` — the condition as written.
-/

import UpdateSql.Value.Conversion
import UpdateSql.Value.Equality
import UpdateSql.Value.Literal

set_option relaxedAutoImplicit false
set_option autoImplicit false

namespace UpdateSql

universe u

/-! ### Tests -/

/-- A way to compare a field with a value. -/
inductive Comparison where
  | eq
  | ne
  | lt
  | lte
  | gt
  | gte
  | like
deriving DecidableEq, Repr

/-- What a collection is to contain. -/
inductive Operand where
  /-- A value. -/
  | value (v : Value)
  /-- A document whose field has a value. -/
  | fieldEq (field : String) (v : Value)
deriving BEq

/-- A test of a field, with its operand. -/
inductive Op where
  | compare (comparison : Comparison) (v : Value)
  | isNull
  | contains (operand : Operand)
deriving BEq

/-- The word or sign of a comparison. -/
def Comparison.token : Comparison → String
  | .eq => "="
  | .ne => "!="
  | .lt => "<"
  | .lte => "<="
  | .gt => ">"
  | .gte => ">="
  | .like => "LIKE"

namespace Op

/-- The field equals a value. -/
def eq {α : Type u} [ToValue α] (a : α) : Op := .compare .eq (toValue a)

/-- The field differs from a value. -/
def ne {α : Type u} [ToValue α] (a : α) : Op := .compare .ne (toValue a)

/-- The field is less than a value. -/
def lt {α : Type u} [ToValue α] (a : α) : Op := .compare .lt (toValue a)

/-- The field is at most a value. -/
def lte {α : Type u} [ToValue α] (a : α) : Op := .compare .lte (toValue a)

/-- The field is greater than a value. -/
def gt {α : Type u} [ToValue α] (a : α) : Op := .compare .gt (toValue a)

/-- The field is at least a value. -/
def gte {α : Type u} [ToValue α] (a : α) : Op := .compare .gte (toValue a)

/-- The field fits a pattern. -/
def like {α : Type u} [ToValue α] (a : α) : Op := .compare .like (toValue a)

/-- The collection contains a value. -/
def containsValue {α : Type u} [ToValue α] (a : α) : Op := .contains (.value (toValue a))

/-- The collection contains a document whose field has a value. -/
def containsField {α : Type u} [ToValue α] (field : String) (a : α) : Op :=
  .contains (.fieldEq field (toValue a))

/-- The word or sign of a test. -/
def token : Op → String
  | .compare comparison _ => comparison.token
  | .isNull => "IS NULL"
  | .contains _ => "CONTAINS"

/-- The operand as written after the word or sign, with the space before it. -/
def operandChars (mode : QuoteMode) : Op → Except Error (List Char)
  | .compare _ v => (v.literalChars mode).map (' ' :: ·)
  | .isNull => .ok []
  | .contains (.value v) => (v.literalChars mode).map (' ' :: ·)
  | .contains (.fieldEq field v) =>
    (assignmentChars field (v.literalChars mode)).map fun text => [' ', '('] ++ (text ++ [')'])

end Op

/-! ### Conditions -/

/-- How a condition is joined to the ones before it. -/
inductive Combinator where
  | and
  | or
deriving DecidableEq, Repr

/-- The word of a combinator. -/
def Combinator.token : Combinator → String
  | .and => "AND"
  | .or => "OR"

/-- A test of a field in a chain. -/
structure Condition where
  /-- How the condition is joined to the ones before it; `none` for the first one. -/
  combinator : Option Combinator
  field : String
  op : Op
deriving BEq

/-- What stands before the field: nothing, or the combinator between spaces. -/
def Combinator.leadChars : Option Combinator → List Char
  | none => []
  | some c => ' ' :: (c.token.toList ++ [' '])

/-- The characters of a condition; an empty field name is refused before the operand. -/
def Condition.chars (mode : QuoteMode) (c : Condition) : Except Error (List Char) :=
  if c.field.isEmpty then .error (.emptyName .conditionField)
  else (c.op.operandChars mode).map fun operand =>
    Combinator.leadChars c.combinator ++ (c.field.toList ++ (' ' :: (c.op.token.toList ++ operand)))

end UpdateSql
