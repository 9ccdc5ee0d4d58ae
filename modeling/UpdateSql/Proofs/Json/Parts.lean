/-
**The parts of a JSON value.**

A JSON value may lie in another one at any depth, as an item of an array or as the value of a member
of an object.  What holds of a JSON value at any depth is said of its parts, and comes down to the
items of an array and the members of an object.

Main definitions:

* `Json.Part` — a JSON value is another one or lies in it;
* `Json.HasKey` — there is a member of a key in a JSON value;
* `Json.Distinct` — the objects in a JSON value have distinct keys.

Main results:

* `Json.hasKey_array_iff`, `Json.hasKey_object_iff`, `Json.distinct_array_iff`,
  `Json.distinct_object_iff` — what this says of an array and of an object.
-/

import UpdateSql.Proofs.Json.Induction

set_option relaxedAutoImplicit false
set_option autoImplicit false

namespace UpdateSql.Json

/-! ### Parts -/

/-- A JSON value is another one, or lies in it at some depth. -/
inductive Part (part : Json) : Json → Prop
  | self : Part part part
  | item {items : List Json} {j : Json} (hj : j ∈ items) (h : Part part j) :
      Part part (.array items)
  | member {members : List (String × Json)} {member : String × Json} (hm : member ∈ members)
      (h : Part part member.2) : Part part (.object members)

theorem part_array_iff {part : Json} {items : List Json} :
    part.Part (.array items) ↔ part = .array items ∨ ∃ j ∈ items, part.Part j := by
  constructor
  · intro h
    cases h with
    | self => exact .inl rfl
    | item hj h => exact .inr ⟨_, hj, h⟩
  · rintro (rfl | ⟨j, hj, h⟩)
    · exact .self
    · exact .item hj h

theorem part_object_iff {part : Json} {members : List (String × Json)} :
    part.Part (.object members) ↔ part = .object members ∨ ∃ m ∈ members, part.Part m.2 := by
  constructor
  · intro h
    cases h with
    | self => exact .inl rfl
    | member hm h => exact .inr ⟨_, hm, h⟩
  · rintro (rfl | ⟨m, hm, h⟩)
    · exact .self
    · exact .member hm h

/-- Whether a JSON value has no parts but itself. -/
def IsAtom : Json → Prop
  | .null | .bool _ | .number _ | .string _ => True
  | .array _ | .object _ => False

theorem part_atom_iff {part j : Json} (hj : j.IsAtom) : part.Part j ↔ part = j := by
  constructor
  · intro h
    cases h with
    | self => rfl
    | item => cases hj
    | member => cases hj
  · rintro rfl
    exact .self

/-! ### Keys -/

/-- An object in a JSON value, at any depth, has a member of a key. -/
def HasKey (j : Json) (key : String) : Prop :=
  ∃ members, (Json.object members).Part j ∧ key ∈ members.map Prod.fst

theorem not_hasKey_of_isAtom {j : Json} (hj : j.IsAtom) (key : String) : ¬ j.HasKey key := by
  rintro ⟨members, h, -⟩
  obtain rfl := (part_atom_iff hj).1 h
  exact hj

theorem hasKey_array_iff {items : List Json} {key : String} :
    (Json.array items).HasKey key ↔ ∃ j ∈ items, j.HasKey key := by
  constructor
  · rintro ⟨members, h, hkey⟩
    rcases part_array_iff.1 h with h | ⟨j, hj, h⟩
    · cases h
    · exact ⟨j, hj, members, h, hkey⟩
  · rintro ⟨j, hj, members, h, hkey⟩
    exact ⟨members, .item hj h, hkey⟩

theorem hasKey_object_iff {members : List (String × Json)} {key : String} :
    (Json.object members).HasKey key ↔
      key ∈ members.map Prod.fst ∨ ∃ m ∈ members, m.2.HasKey key := by
  constructor
  · rintro ⟨inner, h, hkey⟩
    rcases part_object_iff.1 h with h | ⟨m, hm, h⟩
    · obtain rfl := Json.object.inj h
      exact .inl hkey
    · exact .inr ⟨m, hm, inner, h, hkey⟩
  · rintro (hkey | ⟨m, hm, inner, h, hkey⟩)
    · exact ⟨members, .self, hkey⟩
    · exact ⟨inner, .member hm h, hkey⟩

/-! ### Distinct keys -/

/-- The members of each object in a JSON value, at any depth, have distinct keys. -/
def Distinct (j : Json) : Prop :=
  ∀ members, (Json.object members).Part j → (members.map Prod.fst).Nodup

theorem distinct_of_isAtom {j : Json} (hj : j.IsAtom) : j.Distinct := by
  intro members h
  obtain rfl := (part_atom_iff hj).1 h
  cases hj

theorem distinct_array_iff {items : List Json} :
    (Json.array items).Distinct ↔ ∀ j ∈ items, j.Distinct := by
  constructor
  · intro h j hj members hpart
    exact h members (.item hj hpart)
  · intro h members hpart
    rcases part_array_iff.1 hpart with hpart | ⟨j, hj, hpart⟩
    · cases hpart
    · exact h j hj members hpart

theorem distinct_object_iff {members : List (String × Json)} :
    (Json.object members).Distinct ↔
      (members.map Prod.fst).Nodup ∧ ∀ m ∈ members, m.2.Distinct := by
  constructor
  · intro h
    exact ⟨h members .self, fun m hm inner hpart => h inner (.member hm hpart)⟩
  · rintro ⟨hkeys, hvalues⟩ inner hpart
    rcases part_object_iff.1 hpart with hpart | ⟨m, hm, hpart⟩
    · obtain rfl := Json.object.inj hpart
      exact hkeys
    · exact hvalues m hm inner hpart

end UpdateSql.Json
