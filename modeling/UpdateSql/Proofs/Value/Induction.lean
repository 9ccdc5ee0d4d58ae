/-
**Induction over values.**

Values and documents contain each other, and both occur in lists, so the recursor that comes with
their definition speaks about five types at once.  What a proof about all values needs is one
statement about values only: it may be assumed of the values of all fields of a document and of all
items of a list.

Main results:

* `Value.induction` — **induction over values**, with a case for each kind of value.
-/

import UpdateSql.Value.Basic

set_option relaxedAutoImplicit false
set_option autoImplicit false

namespace UpdateSql

/-- **Induction over values.**  A property of all values holds of a document if it holds of the
values of its fields, and of a list if it holds of its items. -/
@[induction_eliminator]
theorem Value.induction {motive : Value → Prop}
    (null : motive .null)
    (bool : ∀ b, motive (.bool b))
    (integer : ∀ n, motive (.integer n))
    (unsigned : ∀ n, motive (.unsigned n))
    (float : ∀ x, motive (.float x))
    (string : ∀ s, motive (.string s))
    (link : ∀ id, motive (.link id))
    (document : ∀ className rid fields, (∀ entry ∈ fields, motive entry.2) →
      motive (.document ⟨className, rid, fields⟩))
    (list : ∀ items, (∀ v ∈ items, motive v) → motive (.list items)) (v : Value) : motive v := by
  -- the motives for documents, for the two kinds of lists and for a single field
  refine @Value.rec motive (fun d => motive (.document d)) (fun items => ∀ v ∈ items, motive v)
    (fun fields => ∀ entry ∈ fields, motive entry.2) (fun entry => motive entry.2)
    null bool integer unsigned float string link (fun _ h => h) list document ?_ ?_ ?_ ?_ ?_ v
  · simp
  · intro v rest hv hrest w hw
    rcases List.mem_cons.1 hw with rfl | hw
    · exact hv
    · exact hrest w hw
  · simp
  · intro entry rest hentry hrest e he
    rcases List.mem_cons.1 he with rfl | he
    · exact hentry
    · exact hrest e he
  · intro _ _ h
    exact h

end UpdateSql
