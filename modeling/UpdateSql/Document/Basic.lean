/-
**Operations on documents.**

A document keeps its fields in the order in which their names first came: setting a field that is
there replaces its value in place, removing one leaves the order of the others.

Main definitions:

* `Document.set`, `Document.remove` — change one field;
* `Document.get?`, `Document.contains`, `Document.names` — look at the fields;
* `Document.withClass`, `Document.withRid`, `Document.setClass`, `Document.setRid` — class name and
  record id.
-/

import UpdateSql.Fields
import UpdateSql.Value.Basic

set_option relaxedAutoImplicit false
set_option autoImplicit false

namespace UpdateSql.Document

/-- The document without fields, class name and record id. -/
def empty : Document := {}

instance : Inhabited Document := ⟨empty⟩

/-- Sets the class name. -/
def withClass (d : Document) (name : String) : Document := { d with className := some name }

/-- Sets the record id. -/
def withRid (d : Document) (id : RecordId) : Document := { d with rid := some id }

/-- Sets the class name, or takes it away. -/
def setClass (d : Document) (name : Option String) : Document := { d with className := name }

/-- Sets the record id, or takes it away. -/
def setRid (d : Document) (id : Option RecordId) : Document := { d with rid := id }

/-- Sets a field; one that is there keeps its position. -/
def set (d : Document) (name : String) (value : Value) : Document :=
  { d with fields := Fields.set name value d.fields }

/-- The value of a field. -/
def get? (d : Document) (name : String) : Option Value := d.fields.lookup name

/-- Takes a field out and gives its value with the document that is left. -/
def remove (d : Document) (name : String) : Option Value × Document :=
  ((Fields.remove name d.fields).1, { d with fields := (Fields.remove name d.fields).2 })

/-- Whether there is a field of a name. -/
def contains (d : Document) (name : String) : Bool := d.fields.any fun entry => entry.1 == name

/-- The field names in order. -/
def names (d : Document) : List String := d.fields.map Prod.fst

/-- The number of fields. -/
def size (d : Document) : Nat := d.fields.length

/-- Whether there is no field. -/
def isEmpty (d : Document) : Bool := d.fields.isEmpty

end UpdateSql.Document
