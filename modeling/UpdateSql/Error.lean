/-
**Errors of statement building.**

Everything that can go wrong while a statement is put together and written belongs to one of six
kinds.  Apart from a missing target, an error carries a detail: the text that names what was wrong.

Main definitions:

* `Error` — the six kinds with their details;
* `Error.message` — the one sentence shown to the user;
* `NameRole`, `Error.emptyName` — the error for a name that is empty, by what it names.
-/

set_option relaxedAutoImplicit false
set_option autoImplicit false

namespace UpdateSql

/-- Why a statement, a condition chain, a record id or a document could not be made. -/
inductive Error where
  /-- Neither an explicit target nor a document that supplies one. -/
  | missingTarget
  /-- A condition chain used out of order. -/
  | malformedCondition (detail : String)
  /-- A value that has no literal. -/
  | unsupportedValueKind (detail : String)
  /-- A field, class or cluster name that cannot be written. -/
  | invalidIdentifier (detail : String)
  /-- A text that is not a record id. -/
  | invalidRecordId (detail : String)
  /-- JSON that is not a document. -/
  | invalidDocument (detail : String)
deriving DecidableEq, Repr

/-- What an identifier names. -/
inductive NameRole where
  | field
  | conditionField
  | className
  | cluster
deriving DecidableEq, Repr

/-- The words for what an identifier names. -/
def NameRole.noun : NameRole → String
  | .field => "field"
  | .conditionField => "condition field"
  | .className => "class"
  | .cluster => "cluster"

namespace Error

/-- The sentence shown for an error: its kind, then its detail. -/
def message : Error → String
  | .missingTarget =>
    "Missing target: set a record, class or cluster, or attach a document that has one"
  | .malformedCondition detail => "Malformed condition: " ++ detail
  | .unsupportedValueKind detail => "Unsupported value kind: " ++ detail
  | .invalidIdentifier detail => "Invalid identifier: " ++ detail
  | .invalidRecordId detail => "Invalid record id: " ++ detail
  | .invalidDocument detail => "Invalid document: " ++ detail

/-- Whether no target was given. -/
def isMissingTarget : Error → Bool
  | .missingTarget => true
  | _ => false

/-- Whether a condition chain was used out of order. -/
def isMalformedCondition : Error → Bool
  | .malformedCondition _ => true
  | _ => false

/-- Whether a value has no literal. -/
def isUnsupportedValue : Error → Bool
  | .unsupportedValueKind _ => true
  | _ => false

/-- The error for an empty name. -/
def emptyName (role : NameRole) : Error :=
  .invalidIdentifier (role.noun ++ " name cannot be empty")

end Error

end UpdateSql
