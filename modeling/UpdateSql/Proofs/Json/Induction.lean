/-
**Induction over JSON values.**

Arrays and objects hold JSON values in lists.  What a proof about all JSON values needs is one
statement, which may be assumed of all items of an array and of the values of all members of an
object.

Main results:

* `Json.induction` — **induction over JSON values**, with a case for each kind.
-/

import UpdateSql.Json.Basic

set_option relaxedAutoImplicit false
set_option autoImplicit false

namespace UpdateSql

/-- **Induction over JSON values.**  A property of all JSON values holds of an array if it holds of
its items, and of an object if it holds of the values of its members. -/
@[induction_eliminator]
theorem Json.induction {motive : Json → Prop}
    (null : motive .null)
    (bool : ∀ b, motive (.bool b))
    (number : ∀ n, motive (.number n))
    (string : ∀ s, motive (.string s))
    (array : ∀ items, (∀ j ∈ items, motive j) → motive (.array items))
    (object : ∀ members, (∀ member ∈ members, motive member.2) → motive (.object members))
    (j : Json) : motive j := by
  -- the motives for the two kinds of lists and for a single member
  refine @Json.rec motive (fun items => ∀ j ∈ items, motive j)
    (fun members => ∀ member ∈ members, motive member.2) (fun member => motive member.2)
    null bool number string array object ?_ ?_ ?_ ?_ ?_ j
  · simp
  · intro j rest hj hrest k hk
    rcases List.mem_cons.1 hk with rfl | hk
    · exact hj
    · exact hrest k hk
  · simp
  · intro member rest hmember hrest m hm
    rcases List.mem_cons.1 hm with rfl | hm
    · exact hmember
    · exact hrest m hm
  · intro _ _ h
    exact h

end UpdateSql
