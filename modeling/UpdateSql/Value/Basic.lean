/-
**Values and documents.**

A statement carries dynamic values.  A document is an ordered list of named values, with a class
name and a record id where they are known; documents and lists nest to any depth.

Main definitions:

* `Value`, `Document` — the two types, each containing the other;
* `Value.kind` — the short name of a value's kind.
-/

import UpdateSql.RecordId.Basic

set_option relaxedAutoImplicit false
set_option autoImplicit false

namespace UpdateSql

mutual

/-- A value that a statement can carry. -/
inductive Value where
  | null
  | bool (b : Bool)
  /-- A whole number. -/
  | integer (n : Int64)
  /-- A whole number that may lie above the signed range. -/
  | unsigned (n : UInt64)
  | float (x : Float)
  | string (s : String)
  /-- A link to another record. -/
  | link (id : RecordId)
  /-- An embedded document. -/
  | document (d : Document)
  | list (items : List Value)

/-- Ordered fields, with the class and the record that they belong to where these are known. -/
structure Document where
  className : Option String := none
  rid : Option RecordId := none
  fields : List (String × Value) := []

end

namespace Value

instance : Inhabited Value := ⟨.null⟩

/-- The short name of a value's kind. -/
def kind : Value → String
  | .null => "null"
  | .bool _ => "boolean"
  | .integer _ => "integer"
  | .unsigned _ => "integer"
  | .float _ => "float"
  | .string _ => "string"
  | .link _ => "link"
  | .document _ => "document"
  | .list _ => "list"

/-- Whether a value is null. -/
def isNull : Value → Bool
  | .null => true
  | _ => false

end Value

end UpdateSql
