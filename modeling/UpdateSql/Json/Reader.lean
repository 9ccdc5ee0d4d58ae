/-
**Reading JSON text.**

The tokens of a text are read one after the other by a machine that keeps the open containers on a
stack.  Containers may lie in one another up to a fixed depth, and a text holds exactly one value.

Main definitions:

* `Reader.Frame` — an open container, with what has been read of it;
* `Reader.State`, `Reader.step` — the machine;
* `Json.parse` — the value of a text.
-/

import UpdateSql.Json.Lexeme

set_option relaxedAutoImplicit false
set_option autoImplicit false

namespace UpdateSql.Json

namespace Reader

/-- An open container around the value that is being read. -/
inductive Frame where
  /-- An array, with the items before the value, the last one first. -/
  | array (items : List Json)
  /-- An object, with the members before the value, and the name that the value belongs to. -/
  | member (members : List (String × Json)) (name : String)

/-- What may come next, with the open containers, the innermost one first. -/
inductive State where
  /-- A value. -/
  | value (stack : List Frame)
  /-- The first item of an array, or its end. -/
  | firstItem (stack : List Frame)
  /-- A comma and another item of an array, or its end. -/
  | nextItem (items : List Json) (stack : List Frame)
  /-- The first name in an object, or its end. -/
  | firstName (stack : List Frame)
  /-- Another name in an object. -/
  | name (members : List (String × Json)) (stack : List Frame)
  /-- The colon after a name. -/
  | colon (members : List (String × Json)) (name : String) (stack : List Frame)
  /-- A comma and another member of an object, or its end. -/
  | nextMember (members : List (String × Json)) (stack : List Frame)
  /-- Nothing more. -/
  | done (j : Json)

/-- The number of containers that may lie in one another. -/
def maxDepth : Nat := 127

/-- Puts a finished value into the innermost open container. -/
def deliver (j : Json) : List Frame → State
  | [] => .done j
  | .array items :: stack => .nextItem (j :: items) stack
  | .member members name :: stack => .nextMember (Fields.set name j members) stack

/-- Reads the first token of a value. -/
def begin (stack : List Frame) : Token → Option State
  | .openArray => if stack.length < maxDepth then some (.firstItem stack) else none
  | .openObject => if stack.length < maxDepth then some (.firstName stack) else none
  | .null => some (deliver .null stack)
  | .bool b => some (deliver (.bool b) stack)
  | .number n => some (deliver (.number n) stack)
  | .string s => some (deliver (.string s) stack)
  | _ => none

/-- Reads one token. -/
def step : State → Token → Option State
  | .value stack, t => begin stack t
  | .firstItem stack, .closeArray => some (deliver (.array []) stack)
  | .firstItem stack, t => begin (.array [] :: stack) t
  | .nextItem items stack, .comma => some (.value (.array items :: stack))
  | .nextItem items stack, .closeArray => some (deliver (.array items.reverse) stack)
  | .firstName stack, .closeObject => some (deliver (.object []) stack)
  | .firstName stack, .string name => some (.colon [] name stack)
  | .name members stack, .string name => some (.colon members name stack)
  | .colon members name stack, .colon => some (.value (.member members name :: stack))
  | .nextMember members stack, .comma => some (.name members stack)
  | .nextMember members stack, .closeObject => some (deliver (.object members) stack)
  | _, _ => none

end Reader

/-- The value of a JSON text, if the text is JSON. -/
def parse (text : String) : Option Json := do
  let tokens ← (← Lexeme.split text.toList).mapM Token.ofLexeme
  match ← tokens.foldlM Reader.step (.value []) with
  | .done j => some j
  | _ => none

end UpdateSql.Json
