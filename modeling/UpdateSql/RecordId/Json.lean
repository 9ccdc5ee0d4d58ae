/-
**Record ids in JSON.**

In JSON a record id is a string that holds its written form.

Main definitions:

* `RecordId.jsonText` — the JSON text of a record id;
* `RecordId.ofJson` — the record id of a JSON value.
-/

import UpdateSql.Json.Basic
import UpdateSql.RecordId.Parser

set_option relaxedAutoImplicit false
set_option autoImplicit false

namespace UpdateSql.RecordId

/-- The JSON text of a record id; its written form needs no escapes. -/
def jsonText (id : RecordId) : String := String.ofList ('"' :: (id.chars ++ ['"']))

/-- Why a JSON value is not a record id. -/
inductive JsonFault where
  | notAString
  | notAnId (error : Error)
deriving DecidableEq, Repr

/-- The record id of a JSON value. -/
def ofJson : Json → Except JsonFault RecordId
  | .string s =>
    match ofString s with
    | .ok id => .ok id
    | .error e => .error (.notAnId e)
  | _ => .error .notAString

end UpdateSql.RecordId
