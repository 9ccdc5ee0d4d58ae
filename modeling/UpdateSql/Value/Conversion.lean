/-
**Conversions into values.**

Main definitions:

* `ToValue` — types whose members can stand in a statement.

Whole numbers become integers; one above the signed 64-bit range stays unsigned, so none loses a
digit.  A single-precision float becomes the double with the same shortest text.  An option is its
content or null, a list is the list of its converted items.
-/

import UpdateSql.Number.FloatText
import UpdateSql.Number.Word
import UpdateSql.Value.Basic

set_option relaxedAutoImplicit false
set_option autoImplicit false

namespace UpdateSql

universe u

/-- Types whose members can stand in a statement. -/
class ToValue (α : Type u) where
  toValue : α → Value

export ToValue (toValue)

instance : ToValue Value := ⟨id⟩

instance : ToValue Bool := ⟨.bool⟩

instance : ToValue String := ⟨.string⟩

instance : ToValue Int8 := ⟨fun n => .integer n.toInt64⟩

instance : ToValue Int16 := ⟨fun n => .integer n.toInt64⟩

instance : ToValue Int32 := ⟨fun n => .integer n.toInt64⟩

instance : ToValue Int64 := ⟨.integer⟩

instance : ToValue UInt8 := ⟨fun n => .integer (Int64.ofNat n.toNat)⟩

instance : ToValue UInt16 := ⟨fun n => .integer (Int64.ofNat n.toNat)⟩

instance : ToValue UInt32 := ⟨fun n => .integer (Int64.ofNat n.toNat)⟩

/-- An integer in the signed range, else an unsigned number. -/
instance : ToValue UInt64 :=
  ⟨fun n =>
    if n.toNat < Word.signedBound then .integer (Int64.ofNat n.toNat) else .unsigned n⟩

instance : ToValue USize := ⟨fun n => toValue n.toUInt64⟩

instance : ToValue Float := ⟨.float⟩

instance : ToValue Float32 := ⟨fun x => .float (FloatText.ofSingle x)⟩

instance : ToValue RecordId := ⟨.link⟩

instance : ToValue Document := ⟨.document⟩

instance {α : Type u} [ToValue α] : ToValue (Option α) :=
  ⟨fun
    | none => .null
    | some a => toValue a⟩

instance {α : Type u} [ToValue α] : ToValue (List α) := ⟨fun items => .list (items.map toValue)⟩

end UpdateSql
