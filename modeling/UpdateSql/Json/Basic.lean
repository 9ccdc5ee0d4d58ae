/-
**JSON values.**

A JSON number is either a whole number that fits 64 bits, signed or unsigned, or a finite float;
the two are kept apart.  An object is a list of members in order.

Main definitions:

* `Json.Number`, `Json` — the types;
* `Json.Number.signed?`, `Json.Number.unsigned?`, `Json.Number.float?` — a number as one of a kind;
* `Json.ofMembers` — an object from members, of which a later one replaces an earlier one of its
  name;
* `Json.kind` — the name of the kind of a value.
-/

import UpdateSql.Number.Word
import UpdateSql.Fields

set_option relaxedAutoImplicit false
set_option autoImplicit false

namespace UpdateSql

/-- A JSON number. -/
inductive Json.Number where
  /-- A whole number in the signed or the unsigned 64-bit range. -/
  | integer (n : Int) (fits : Word.inRange n = true)
  /-- A float that is neither infinite nor a NaN. -/
  | float (x : Float) (finite : x.isFinite = true)

namespace Json.Number

/-- The number as a signed one of 64 bits, if it is whole and in that range. -/
def signed? : Json.Number → Option Int64
  | .integer n _ => if n < Word.signedBound then some (Int64.ofInt n) else none
  | .float _ _ => none

/-- The number as an unsigned one of 64 bits, if it is whole and in that range. -/
def unsigned? : Json.Number → Option UInt64
  | .integer n _ => if 0 ≤ n then some (UInt64.ofNat n.toNat) else none
  | .float _ _ => none

/-- The number as a float; a whole number is rounded. -/
def float? : Json.Number → Option Float
  | .integer n _ => some (Float.ofInt n)
  | .float x _ => some x

end Json.Number

/-- A JSON value. -/
inductive Json where
  | null
  | bool (b : Bool)
  | number (n : Json.Number)
  | string (s : String)
  | array (items : List Json)
  | object (members : List (String × Json))

namespace Json

instance : Inhabited Json := ⟨.null⟩

/-- The whole number as JSON, if it fits. -/
def ofInt? (n : Int) : Option Json :=
  if h : Word.inRange n = true then some (.number (.integer n h)) else none

/-- A float as JSON; null stands for one that is no finite number. -/
def ofFloat (x : Float) : Json :=
  if h : x.isFinite = true then .number (.float x h) else .null

/-- An object from members in order; a repeated name replaces the value where the name first
stood. -/
def ofMembers (members : List (String × Json)) : Json := .object (Fields.ofPairs members)

/-- The name of the kind of a value. -/
def kind : Json → String
  | .null => "null"
  | .bool _ => "boolean"
  | .number _ => "number"
  | .string _ => "string"
  | .array _ => "array"
  | .object _ => "object"

end Json

end UpdateSql
