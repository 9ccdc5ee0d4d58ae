/-
**The parts of a value.**

A value may lie in another one at any depth: as the value of a field of a document, as an item of a
list, or in such a value in turn.  What holds of a value at any depth is said of its parts, and
comes down to the fields of a document and the items of a list.

Main definitions:

* `Value.Part` — a value is another one or lies in it;
* `Value.HasNaN`, `Document.HasNaN` — there is a float in a value that is no number;
* `Value.HasNonFinite` — there is a float in a value that is infinite or no number;
* `Value.HasName` — there is a field of a name in a value;
* `Value.Distinct`, `Document.Distinct` — the documents in a value have distinct field names.

Main results:

* `Value.part_induction` — **induction over the parts of a value**;
* `Value.hasNaN_document_iff`, `Value.hasNaN_list_iff`, `Value.hasName_document_iff`,
  `Value.hasName_list_iff`, `Value.distinct_document_iff`, `Value.distinct_list_iff` — what this
  says of a document and of a list.
-/

import UpdateSql.Document.Basic
import UpdateSql.Proofs.Value.Induction

set_option relaxedAutoImplicit false
set_option autoImplicit false

namespace UpdateSql.Value

/-! ### Parts -/

/-- A value is another one, or lies in it at some depth. -/
inductive Part (part : Value) : Value → Prop
  | self : Part part part
  | field {d : Document} {entry : String × Value} (he : entry ∈ d.fields)
      (h : Part part entry.2) : Part part (.document d)
  | item {items : List Value} {v : Value} (hv : v ∈ items) (h : Part part v) :
      Part part (.list items)

theorem part_document_iff {part : Value} {d : Document} :
    part.Part (.document d) ↔ part = .document d ∨ ∃ entry ∈ d.fields, part.Part entry.2 := by
  constructor
  · intro h
    cases h with
    | self => exact .inl rfl
    | field he h => exact .inr ⟨_, he, h⟩
  · rintro (rfl | ⟨entry, he, h⟩)
    · exact .self
    · exact .field he h

theorem part_list_iff {part : Value} {items : List Value} :
    part.Part (.list items) ↔ part = .list items ∨ ∃ v ∈ items, part.Part v := by
  constructor
  · intro h
    cases h with
    | self => exact .inl rfl
    | item hv h => exact .inr ⟨_, hv, h⟩
  · rintro (rfl | ⟨v, hv, h⟩)
    · exact .self
    · exact .item hv h

/-- Whether a value has no parts but itself and is no float. -/
def IsAtom : Value → Prop
  | .null | .bool _ | .integer _ | .unsigned _ | .string _ | .link _ => True
  | .float _ | .document _ | .list _ => False

/-- **Induction over the parts of a value**: induction over values in which all that have no other
parts are one case. -/
theorem part_induction {motive : Value → Prop} (atom : ∀ v, v.IsAtom → motive v)
    (float : ∀ x, motive (.float x))
    (document : ∀ d : Document, (∀ entry ∈ d.fields, motive entry.2) → motive (.document d))
    (list : ∀ items, (∀ v ∈ items, motive v) → motive (.list items)) (v : Value) : motive v := by
  induction v with
  | float x => exact float x
  | document className rid fields ih => exact document ⟨className, rid, fields⟩ ih
  | list items ih => exact list items ih
  | _ => exact atom _ trivial

theorem part_atom_iff {part v : Value} (hv : v.IsAtom) : part.Part v ↔ part = v := by
  constructor
  · intro h
    cases h with
    | self => rfl
    | field => cases hv
    | item => cases hv
  · rintro rfl
    exact .self

/-! ### Floats that are no numbers -/

/-- A float in a value, at any depth, is no number. -/
def HasNaN (v : Value) : Prop := ∃ x : Float, x.isNaN = true ∧ (Value.float x).Part v

theorem not_hasNaN_of_isAtom {v : Value} (hv : v.IsAtom) : ¬ v.HasNaN := by
  rintro ⟨x, -, h⟩
  obtain rfl := (part_atom_iff hv).1 h
  exact hv

theorem hasNaN_float_iff {x : Float} : (Value.float x).HasNaN ↔ x.isNaN = true := by
  constructor
  · rintro ⟨y, hy, h⟩
    cases h with
    | self => exact hy
  · intro hx
    exact ⟨x, hx, .self⟩

theorem hasNaN_document_iff {d : Document} :
    (Value.document d).HasNaN ↔ ∃ entry ∈ d.fields, entry.2.HasNaN := by
  constructor
  · rintro ⟨x, hx, h⟩
    rcases part_document_iff.1 h with h | ⟨entry, he, h⟩
    · cases h
    · exact ⟨entry, he, x, hx, h⟩
  · rintro ⟨entry, he, x, hx, h⟩
    exact ⟨x, hx, .field he h⟩

theorem hasNaN_list_iff {items : List Value} :
    (Value.list items).HasNaN ↔ ∃ v ∈ items, v.HasNaN := by
  constructor
  · rintro ⟨x, hx, h⟩
    rcases part_list_iff.1 h with h | ⟨v, hv, h⟩
    · cases h
    · exact ⟨v, hv, x, hx, h⟩
  · rintro ⟨v, hv, x, hx, h⟩
    exact ⟨x, hx, .item hv h⟩

/-- A float in a value, at any depth, is infinite or no number. -/
def HasNonFinite (v : Value) : Prop := ∃ x : Float, x.isFinite = false ∧ (Value.float x).Part v

/-! ### Names -/

/-- A document in a value, at any depth, has a field of a name. -/
def HasName (v : Value) (name : String) : Prop :=
  ∃ d : Document, (Value.document d).Part v ∧ name ∈ d.names

theorem not_hasName_of_isAtom {v : Value} (hv : v.IsAtom) {name : String} : ¬ v.HasName name := by
  rintro ⟨d, h, -⟩
  obtain rfl := (part_atom_iff hv).1 h
  exact hv

theorem not_hasName_float (x : Float) (name : String) : ¬ (Value.float x).HasName name := by
  rintro ⟨d, h, -⟩
  cases h

theorem hasName_document_iff {d : Document} {name : String} :
    (Value.document d).HasName name ↔
      name ∈ d.names ∨ ∃ entry ∈ d.fields, entry.2.HasName name := by
  constructor
  · rintro ⟨e, h, hname⟩
    rcases part_document_iff.1 h with h | ⟨entry, he, h⟩
    · obtain rfl := Value.document.inj h
      exact .inl hname
    · exact .inr ⟨entry, he, e, h, hname⟩
  · rintro (hname | ⟨entry, he, e, h, hname⟩)
    · exact ⟨d, .self, hname⟩
    · exact ⟨e, .field he h, hname⟩

theorem hasName_list_iff {items : List Value} {name : String} :
    (Value.list items).HasName name ↔ ∃ v ∈ items, v.HasName name := by
  constructor
  · rintro ⟨d, h, hname⟩
    rcases part_list_iff.1 h with h | ⟨v, hv, h⟩
    · cases h
    · exact ⟨v, hv, d, h, hname⟩
  · rintro ⟨v, hv, d, h, hname⟩
    exact ⟨d, .item hv h, hname⟩

/-! ### Distinct names -/

/-- The fields of each document in a value, at any depth, have distinct names. -/
def Distinct (v : Value) : Prop := ∀ d : Document, (Value.document d).Part v → d.names.Nodup

theorem distinct_of_isAtom {v : Value} (hv : v.IsAtom) : v.Distinct := by
  intro d h
  obtain rfl := (part_atom_iff hv).1 h
  cases hv

theorem distinct_float (x : Float) : (Value.float x).Distinct := by
  intro d h
  cases h

theorem distinct_document_iff {d : Document} :
    (Value.document d).Distinct ↔ d.names.Nodup ∧ ∀ entry ∈ d.fields, entry.2.Distinct := by
  constructor
  · intro h
    exact ⟨h d .self, fun entry he e hpart => h e (.field he hpart)⟩
  · rintro ⟨hnames, hvalues⟩ e h
    rcases part_document_iff.1 h with h | ⟨entry, he, h⟩
    · obtain rfl := Value.document.inj h
      exact hnames
    · exact hvalues entry he e h

theorem distinct_list_iff {items : List Value} :
    (Value.list items).Distinct ↔ ∀ v ∈ items, v.Distinct := by
  constructor
  · intro h v hv d hpart
    exact h d (.item hv hpart)
  · intro h d hpart
    rcases part_list_iff.1 hpart with hpart | ⟨v, hv, hpart⟩
    · cases hpart
    · exact h v hv d hpart

end UpdateSql.Value

namespace UpdateSql.Document

/-- A float in a document, at any depth, is no number. -/
def HasNaN (d : Document) : Prop := (Value.document d).HasNaN

/-- The fields of a document, and of each document in it at any depth, have distinct names. -/
def Distinct (d : Document) : Prop := (Value.document d).Distinct

theorem Distinct.nodup {d : Document} (h : d.Distinct) : d.names.Nodup :=
  (Value.distinct_document_iff.1 h).1

theorem Distinct.value {d : Document} (h : d.Distinct) {entry : String × Value}
    (he : entry ∈ d.fields) : entry.2.Distinct :=
  (Value.distinct_document_iff.1 h).2 entry he

end UpdateSql.Document
