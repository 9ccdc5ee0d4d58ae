/-
**Putting an update together.**

An update collects its target and its clauses in any order.  Of the WHERE clause the type keeps
track: an update is unfiltered until a condition is started, and filtered from then on, so that a
condition can only be started once and only joined afterwards.

Main definitions:

* `Stage`, `Update` — the update under construction;
* `Update.onRecord`, `Update.onClass`, `Update.onCluster`, `Update.attach` — the target;
* `Update.set`, `Update.setOpt`, `Update.setFields`, `Update.setJson`, `Update.add`,
  `Update.remove`, `Update.removeValue` — the clauses that change fields;
* `Update.whereField`, `Update.and`, `Update.or`, `Update.filter` — the conditions;
* `Pending` — a condition that waits for its test.
-/

import UpdateSql.Condition.Chain
import UpdateSql.Json.Encoding
import UpdateSql.Update.Target
import UpdateSql.Value.OfJson

set_option relaxedAutoImplicit false
set_option autoImplicit false

namespace UpdateSql

universe u

/-- Whether an update has a WHERE clause. -/
inductive Stage where
  | unfiltered
  | filtered
deriving DecidableEq, Repr

/-- An update under construction. -/
structure Update (stage : Stage) where
  /-- The target of the last call that named one. -/
  explicitTarget : Option Target := none
  /-- A document that leads the SET clause and stands in for the target where none is named. -/
  document : Option Document := none
  /-- The entries of the SET clause after those of the document. -/
  assignments : List (String × Value) := []
  /-- The entries of the ADD clause. -/
  additions : List (String × Value) := []
  /-- The entries of the REMOVE clause: a field, or one value of a field. -/
  removals : List (String × Option Value) := []
  /-- The WHERE clause. -/
  chain : WhereChain := .empty

/-- A condition on a field that waits for its test. -/
structure Pending where
  update : Update .filtered
  combinator : Option Combinator
  field : String

namespace Update

/-- The update with nothing in it. -/
def empty : Update .unfiltered := {}

instance : Inhabited (Update .unfiltered) := ⟨empty⟩

variable {stage : Stage}

/-! ### Target -/

/-- Attaches a document, in place of one attached before. -/
def attach (q : Update stage) (d : Document) : Update stage := { q with document := some d }

/-- Names the target. -/
def on (q : Update stage) (t : Target) : Update stage := { q with explicitTarget := some t }

/-- Changes a single record. -/
def onRecord (q : Update stage) (id : RecordId) : Update stage := q.on (.record id)

/-- Changes every record of a class. -/
def onClass (q : Update stage) (name : String) : Update stage := q.on (.ofClass name)

/-- Changes every record of a cluster. -/
def onCluster (q : Update stage) (name : String) : Update stage := q.on (.cluster name)

/-! ### Fields -/

/-- Assigns values to fields, in order. -/
def assign (q : Update stage) (entries : List (String × Value)) : Update stage :=
  { q with assignments := q.assignments ++ entries }

/-- Assigns a value to a field. -/
def set {α : Type u} [ToValue α] (q : Update stage) (field : String) (a : α) : Update stage :=
  q.assign [(field, toValue a)]

/-- Assigns a value to a field if there is one. -/
def setOpt {α : Type u} [ToValue α] (q : Update stage) (field : String) (a : Option α) :
    Update stage :=
  match a with
  | some a => q.set field a
  | none => q

/-- Assigns something to a field that can be written as JSON. -/
def setJson {α : Type u} [ToJson α] (q : Update stage) (field : String) (a : α) :
    Except Json.EncodeFault (Update stage) := do
  let j ← toJson a
  return q.set field j

/-- Assigns all fields of a document, whose class name and record id do not matter. -/
def setFields (q : Update stage) (d : Document) : Update stage := q.assign d.fields

/-- Adds a value to a collection. -/
def add {α : Type u} [ToValue α] (q : Update stage) (field : String) (a : α) : Update stage :=
  { q with additions := q.additions ++ [(field, toValue a)] }

/-- Removes a field. -/
def remove (q : Update stage) (field : String) : Update stage :=
  { q with removals := q.removals ++ [(field, none)] }

/-- Removes a value from a collection. -/
def removeValue {α : Type u} [ToValue α] (q : Update stage) (field : String) (a : α) :
    Update stage :=
  { q with removals := q.removals ++ [(field, some (toValue a))] }

/-! ### Conditions -/

/-- The update with a WHERE clause, in place of the one it had. -/
def withChain (q : Update stage) (c : WhereChain) : Update .filtered :=
  { explicitTarget := q.explicitTarget
    document := q.document
    assignments := q.assignments
    additions := q.additions
    removals := q.removals
    chain := c }

/-- The error for a filter without conditions. -/
def emptyFilter : Error := .malformedCondition "cannot filter on an empty condition chain"

/-- Takes over a chain of conditions, which must not be empty. -/
def filter (q : Update .unfiltered) (c : WhereChain) : Except Error (Update .filtered) :=
  if c.isEmpty then .error emptyFilter else .ok (q.withChain c)

/-- Starts the WHERE clause with a field. -/
def whereField (q : Update .unfiltered) (field : String) : Pending :=
  { update := q.withChain q.chain, combinator := none, field }

/-- Continues the WHERE clause with a field. -/
def joinField (q : Update .filtered) (combinator : Combinator) (field : String) : Pending :=
  { update := q, combinator := some combinator, field }

/-- Continues the WHERE clause with a field; both sides must hold. -/
def and (q : Update .filtered) (field : String) : Pending := q.joinField .and field

/-- Continues the WHERE clause with a field; one side must hold. -/
def or (q : Update .filtered) (field : String) : Pending := q.joinField .or field

end Update

namespace Pending

/-- Completes the condition with a test. -/
def complete (p : Pending) (op : Op) : Update .filtered :=
  p.update.withChain (p.update.chain.push ⟨p.combinator, p.field, op⟩)

/-- Completes the condition: the field equals a value. -/
def eq {α : Type u} [ToValue α] (p : Pending) (a : α) : Update .filtered := p.complete (.eq a)

/-- Completes the condition: the field differs from a value. -/
def ne {α : Type u} [ToValue α] (p : Pending) (a : α) : Update .filtered := p.complete (.ne a)

/-- Completes the condition: the field is less than a value. -/
def lt {α : Type u} [ToValue α] (p : Pending) (a : α) : Update .filtered := p.complete (.lt a)

/-- Completes the condition: the field is at most a value. -/
def lte {α : Type u} [ToValue α] (p : Pending) (a : α) : Update .filtered := p.complete (.lte a)

/-- Completes the condition: the field is greater than a value. -/
def gt {α : Type u} [ToValue α] (p : Pending) (a : α) : Update .filtered := p.complete (.gt a)

/-- Completes the condition: the field is at least a value. -/
def gte {α : Type u} [ToValue α] (p : Pending) (a : α) : Update .filtered := p.complete (.gte a)

/-- Completes the condition: the field fits a pattern. -/
def like {α : Type u} [ToValue α] (p : Pending) (a : α) : Update .filtered :=
  p.complete (.like a)

/-- Completes the condition: the field is null. -/
def isNull (p : Pending) : Update .filtered := p.complete .isNull

/-- Completes the condition: the collection contains a value. -/
def containsValue {α : Type u} [ToValue α] (p : Pending) (a : α) : Update .filtered :=
  p.complete (.containsValue a)

/-- Completes the condition: the collection contains a document whose field has a value. -/
def containsField {α : Type u} [ToValue α] (p : Pending) (field : String) (a : α) :
    Update .filtered :=
  p.complete (.containsField field a)

end Pending

end UpdateSql
