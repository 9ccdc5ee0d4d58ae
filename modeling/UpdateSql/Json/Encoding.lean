/-
**Writing values as JSON.**

Main definitions:

* `ToJson` — types whose members can be written as JSON;
* `Json.EncodeFault` — why one cannot be written.

A float that is no finite number is written as null, a single-precision one with its exact value.
A whole number is written only if it fits 64 bits, signed or unsigned.
-/

import UpdateSql.Number.FloatText
import UpdateSql.Json.Basic
import UpdateSql.RecordId.Basic

set_option relaxedAutoImplicit false
set_option autoImplicit false

namespace UpdateSql

universe u

/-- Why something cannot be written as JSON. -/
inductive Json.EncodeFault where
  | numberOutOfRange
deriving DecidableEq, Repr

/-- The words for a fault. -/
def Json.EncodeFault.message : Json.EncodeFault → String
  | .numberOutOfRange => "number out of range"

/-- Types whose members can be written as JSON. -/
class ToJson (α : Type u) where
  toJson : α → Except Json.EncodeFault Json

export ToJson (toJson)

instance : ToJson Json := ⟨.ok⟩

instance : ToJson Bool := ⟨fun b => .ok (.bool b)⟩

instance : ToJson String := ⟨fun s => .ok (.string s)⟩

instance : ToJson Int :=
  ⟨fun n =>
    match Json.ofInt? n with
    | some j => .ok j
    | none => .error .numberOutOfRange⟩

instance : ToJson Float := ⟨fun x => .ok (.ofFloat x)⟩

instance : ToJson Float32 := ⟨fun x => .ok (.ofFloat (FloatText.widen x))⟩

instance : ToJson RecordId := ⟨fun id => .ok (.string id.text)⟩

end UpdateSql
