/-
**Reading record ids.**

The text of a record id is an optional `#`, the cluster number, a colon and the position.  The
text is cut at its first colon, and the cluster is read before the position, so of two faults the
one to the left is reported.

Main definitions:

* `RecordId.Fault` — why a text is not a record id;
* `RecordId.parse` — reads a record id from characters;
* `RecordId.ofString` — the same for a string, with an error that quotes the whole string.
-/

import UpdateSql.Number.Numeral
import UpdateSql.RecordId.Basic

set_option relaxedAutoImplicit false
set_option autoImplicit false

namespace UpdateSql.RecordId

/-- Why a text is not a record id. -/
inductive Fault where
  | missingColon
  | badCluster (fault : Numeral.Fault)
  | badPosition (fault : Numeral.Fault)
deriving DecidableEq, Repr

/-- The text after its optional `#`. -/
def body : List Char → List Char
  | '#' :: rest => rest
  | text => text

/-- Reads a record id. -/
def parse (text : List Char) : Except Fault RecordId :=
  match (body text).dropWhile (· != ':') with
  | [] => .error .missingColon
  | _ :: position =>
    match Numeral.read UInt32.size ((body text).takeWhile (· != ':')) with
    | .error fault => .error (.badCluster fault)
    | .ok c =>
      match Numeral.read UInt64.size position with
      | .error fault => .error (.badPosition fault)
      | .ok p => .ok ⟨UInt32.ofNat c, UInt64.ofNat p⟩

/-- The detail reported for a text that is not a record id. -/
def Fault.detail (text : String) : Fault → String
  | .missingColon => "'" ++ text ++ "' is missing ':'"
  | .badCluster fault => "'" ++ text ++ "': bad cluster id: " ++ fault.message
  | .badPosition fault => "'" ++ text ++ "': bad position: " ++ fault.message

/-- Reads a record id; the error quotes the whole text. -/
def ofString (text : String) : Except Error RecordId :=
  match parse text.toList with
  | .ok id => .ok id
  | .error fault => .error (.invalidRecordId (fault.detail text))

end UpdateSql.RecordId
