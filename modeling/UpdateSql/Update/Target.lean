/-
**Targets.**

A statement changes a single record, every record of a class, or every record of a cluster.

Main definitions:

* `Target` — the three kinds;
* `Target.chars`, `Target.text` — the target as written;
* `Target.check` — refuses an empty name;
* `Document.target?` — the target that a document stands for.
-/

import UpdateSql.Error
import UpdateSql.Value.Basic

set_option relaxedAutoImplicit false
set_option autoImplicit false

namespace UpdateSql

/-- What a statement changes. -/
inductive Target where
  | record (id : RecordId)
  | ofClass (name : String)
  | cluster (name : String)
deriving DecidableEq, Repr

namespace Target

/-- The kind of a target. -/
def kind : Target → String
  | .record _ => "record"
  | .ofClass _ => "class"
  | .cluster _ => "cluster"

/-- The characters of a target: a record id, a bare class name, or a marked cluster name. -/
def chars : Target → List Char
  | .record id => id.chars
  | .ofClass name => name.toList
  | .cluster name => "cluster:".toList ++ name.toList

/-- The text of a target. -/
def text (t : Target) : String := String.ofList t.chars

/-- Refuses a class or cluster without a name. -/
def check : Target → Except Error Unit
  | .record _ => .ok ()
  | .ofClass name => if name.isEmpty then .error (.emptyName .className) else .ok ()
  | .cluster name => if name.isEmpty then .error (.emptyName .cluster) else .ok ()

end Target

/-- The record of a document, or else its class. -/
def Document.target? (d : Document) : Option Target :=
  match d.rid with
  | some id => some (.record id)
  | none => d.className.map .ofClass

end UpdateSql
