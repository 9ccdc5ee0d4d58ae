/-
**Documents from JSON objects.**

The members of a JSON object become fields in order, except two: the class name and the record id
stand under keys of their own.  The members are read in order, and the first one that cannot be
taken is reported.

Main definitions:

* `Document.notAnObject`, `Document.notAString` — what is wrong with JSON that is no document;
* `Document.addMember` — takes one member into a document;
* `Document.ofJson` — reads a document.
-/

import UpdateSql.Document.Basic
import UpdateSql.RecordId.Parser
import UpdateSql.Value.OfJson

set_option relaxedAutoImplicit false
set_option autoImplicit false

namespace UpdateSql.Document

/-- The key of the class name in a JSON object. -/
def classKey : String := "@class"

/-- The key of the record id in a JSON object. -/
def ridKey : String := "@rid"

/-- The error for a JSON value that is no object. -/
def notAnObject (j : Json) : Error :=
  .invalidDocument ("expected a JSON object, got " ++ j.kind)

/-- The error for a reserved key whose value is no string. -/
def notAString (key : String) : Error := .invalidDocument (key ++ " must be a string")

/-- Takes one member of a JSON object into a document. -/
def addMember (d : Document) (name : String) (j : Json) : Except Error Document :=
  if name = classKey then
    match j with
    | .string s => .ok (d.withClass s)
    | _ => .error (notAString classKey)
  else if name = ridKey then
    match j with
    | .string s => (RecordId.ofString s).map d.withRid
    | _ => .error (notAString ridKey)
  else .ok (d.set name (.ofJson j))

/-- Takes the members of a JSON object into a document, in order. -/
def addMembers (d : Document) : List (String × Json) → Except Error Document
  | [] => .ok d
  | (name, j) :: rest => do (← d.addMember name j).addMembers rest

/-- The document of a JSON object. -/
def ofJson : Json → Except Error Document
  | .object members => empty.addMembers members
  | j => .error (notAnObject j)

end UpdateSql.Document
