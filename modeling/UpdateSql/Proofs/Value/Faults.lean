/-
**The faults of a value.**

A value is written only if it has no fault: no float that is infinite or no number, and no document
field without a name, at any depth.  Here all faults of a value are gathered in reading order, the
empty name of a field before the faults of its value, and writing is shown to report the first.

Main definitions:

* `nameFaults` — the fault of a name, if it is empty;
* `Value.faults` — all faults of a value;
* `entryFaults` — all faults of a field with the value assigned to it.

Main results:

* `Value.reports_literalChars` — **the literal of a value reports its first fault**, in both modes.
-/

import UpdateSql.Proofs.Outcome
import UpdateSql.Proofs.Value.Induction
import UpdateSql.Value.Literal

set_option relaxedAutoImplicit false
set_option autoImplicit false

namespace UpdateSql

open Outcome (Reports)

/-- The fault of a name, if it is empty. -/
def nameFaults (role : NameRole) (name : String) : List Error :=
  if name.isEmpty then [.emptyName role] else []

mutual

/-- All faults of a value, in reading order. -/
def Value.faults : Value → List Error
  | .null | .bool _ | .integer _ | .unsigned _ | .string _ | .link _ => []
  | .float x => if x.isFinite then [] else [.nonFiniteFloat x]
  | .document ⟨_, _, fields⟩ => Value.fieldFaults fields
  | .list items => Value.itemFaults items

/-- All faults of the values of a list. -/
def Value.itemFaults : List Value → List Error
  | [] => []
  | v :: rest => v.faults ++ Value.itemFaults rest

/-- All faults of a list of fields, for each field its name before its value. -/
def Value.fieldFaults : List (String × Value) → List Error
  | [] => []
  | (name, v) :: rest => nameFaults .field name ++ v.faults ++ Value.fieldFaults rest

end

/-- All faults of a field with the value assigned to it. -/
def entryFaults (entry : String × Value) : List Error :=
  nameFaults .field entry.1 ++ entry.2.faults

theorem Value.itemFaults_eq_flatMap (items : List Value) :
    Value.itemFaults items = items.flatMap Value.faults := by
  induction items with
  | nil => rfl
  | cons v rest ih => rw [Value.itemFaults, List.flatMap_cons, ih]

theorem Value.fieldFaults_eq_flatMap (fields : List (String × Value)) :
    Value.fieldFaults fields = fields.flatMap entryFaults := by
  induction fields with
  | nil => rfl
  | cons entry rest ih => rw [Value.fieldFaults, List.flatMap_cons, ih, entryFaults]

/-! ### Writing reports the first fault -/

/-- An empty name is reported instead of everything that would come after it. -/
theorem reports_of_name {α : Type} (role : NameRole) (name : String) {x : Except Error α}
    {later : List Error} (h : Reports x later) :
    Reports (if name.isEmpty then .error (.emptyName role) else x)
      (nameFaults role name ++ later) := by
  rw [nameFaults]
  split
  · exact .error _ later
  · exact h

theorem reports_assignmentChars {name : String} {literal : Except Error (List Char)}
    {later : List Error} (h : Reports literal later) :
    Reports (assignmentChars name literal) (nameFaults .field name ++ later) :=
  reports_of_name .field name (h.map _)

theorem reports_assignments {mode : QuoteMode} {fields : List (String × Value)}
    (h : ∀ entry ∈ fields, Reports (entry.2.literalChars mode) entry.2.faults) :
    Reports (Value.assignments mode fields) (fields.flatMap entryFaults) := by
  rw [Value.assignments_eq_mapM]
  exact .mapM fun entry he => reports_assignmentChars (h entry he)

/-- **The literal of a value reports its first fault.** -/
theorem Value.reports_literalChars (mode : QuoteMode) (v : Value) :
    Reports (v.literalChars mode) v.faults := by
  induction v with
  | null => exact .ok _
  | bool b => cases b <;> exact .ok _
  | integer n => exact .ok _
  | unsigned n => exact .ok _
  | float x =>
      rw [Value.literalChars, Value.faults]
      split
      · exact .ok _
      · exact .error _ []
  | string s => exact .ok _
  | link id => exact .ok _
  | document className rid fields ih =>
      -- the induction hypothesis speaks of the values, the names come in with the entries
      have hfields : Reports (Value.assignments mode fields) (fields.flatMap entryFaults) :=
        reports_assignments ih
      rw [Value.literalChars, Value.faults, Value.fieldFaults_eq_flatMap]
      exact hfields.map _
  | list items ih =>
      have hitems : Reports (Value.literals mode items) (items.flatMap Value.faults) := by
        rw [Value.literals_eq_mapM]
        exact .mapM ih
      rw [Value.literalChars, Value.faults, Value.itemFaults_eq_flatMap]
      exact hitems.map _

theorem Value.reports_literal (mode : QuoteMode) (v : Value) :
    Reports (v.literal mode) v.faults :=
  (v.reports_literalChars mode).map _

end UpdateSql
