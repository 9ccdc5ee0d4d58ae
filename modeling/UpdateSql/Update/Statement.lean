/-
**Statements.**

A finished update has a target and up to four clauses, always in the order SET, ADD, REMOVE and
WHERE; a clause without entries is left out.

Main definitions:

* `Statement` — target and clauses;
* `Update.target`, `Update.statement` — the statement of an update under construction;
* `Statement.chars` — the statement as written;
* `Update.validate`, `Update.build` — checks the target, and gives the text.
-/

import UpdateSql.Config
import UpdateSql.Update.Builder

set_option relaxedAutoImplicit false
set_option autoImplicit false

namespace UpdateSql

/-- A statement with a target. -/
structure Statement where
  target : Target
  assignments : List (String × Value)
  additions : List (String × Value)
  removals : List (String × Option Value)
  chain : WhereChain

/-! ### From an update to a statement -/

namespace Update

variable {stage : Stage}

/-- The target: the one that was named last, or else the one of the attached document. -/
def resolveTarget (q : Update stage) : Except Error Target :=
  match q.explicitTarget with
  | some t => .ok t
  | none =>
    match q.document.bind Document.target? with
    | some t => .ok t
    | none => .error .missingTarget

/-- The target, if there is one. -/
def target (q : Update stage) : Option Target := q.resolveTarget.toOption

/-- The entries of the SET clause: the fields of the attached document, then the others. -/
def setEntries (q : Update stage) : List (String × Value) :=
  (match q.document with
    | some d => d.fields
    | none => []) ++ q.assignments

/-- The statement of an update whose target can be written. -/
def statement (q : Update stage) : Except Error Statement := do
  let t ← q.resolveTarget
  t.check
  return {
    target := t
    assignments := q.setEntries
    additions := q.additions
    removals := q.removals
    chain := q.chain }

/-- Checks that there is a target and that it can be written. -/
def validate (q : Update stage) : Except Error Unit := do
  (← q.resolveTarget).check

end Update

/-! ### Writing a statement -/

/-- The entry of a REMOVE clause: a field, or a field and the value to be taken out of it. -/
def removalChars (mode : QuoteMode) : String × Option Value → Except Error (List Char)
  | (name, some v) => assignmentChars name (v.literalChars mode)
  | (name, none) => if name.isEmpty then .error (.emptyName .field) else .ok name.toList

/-- A clause with its entries, or nothing where there are none. -/
def clauseChars (keyword : String) (entries : List (List Char)) : List Char :=
  match entries with
  | [] => []
  | entries => ' ' :: (keyword.toList ++ (' ' :: commaSeparated entries))

namespace Statement

/-- Whether a statement has no clause. -/
def isBare (s : Statement) : Bool :=
  s.assignments.isEmpty && s.additions.isEmpty && s.removals.isEmpty && s.chain.isEmpty

/-- The WHERE clause with the space before it, or nothing where there are no conditions. -/
def whereChars (mode : QuoteMode) (s : Statement) : Except Error (List Char) :=
  if s.chain.isEmpty then .ok [] else (s.chain.chars mode).map (' ' :: ·)

/-- The characters of a statement; the fault that comes first in reading order is reported. -/
def chars (mode : QuoteMode) (s : Statement) : Except Error (List Char) := do
  let assignments ← Value.assignments mode s.assignments
  let additions ← Value.assignments mode s.additions
  let removals ← s.removals.mapM (removalChars mode)
  let conditions ← s.whereChars mode
  return "UPDATE ".toList ++ (s.target.chars ++ (clauseChars "SET" assignments ++
    (clauseChars "ADD" additions ++ (clauseChars "REMOVE" removals ++ conditions))))

end Statement

namespace Update

variable {stage : Stage}

/-- The characters of the statement of an update. -/
def buildChars (mode : QuoteMode) (q : Update stage) : Except Error (List Char) := do
  (← q.statement).chars mode

/-- The text of the statement of an update. -/
def build (q : Update stage) (config : RenderConfig := .default) : Except Error String :=
  (q.buildChars config.quoteMode).map String.ofList

end Update

end UpdateSql
