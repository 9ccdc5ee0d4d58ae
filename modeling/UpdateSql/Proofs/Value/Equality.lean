/-
**Equality of values, part by part.**

Lists are compared item by item, documents by looking up the fields of one in the other.  The second
is asymmetric: only that there are as many fields on both sides says that nothing is left over.
With distinct names it comes to the same as looking at every name on both sides, so documents and
lists are compared alike: at each place, a name or an index, there is nothing on both sides or there
are equal values.  From this the laws of equality follow by induction, down to the floats.

Main definitions:

* `Equality.SameAt` — at a place there is nothing on both sides, or there are equal things;
* `Equality.LawsAt` — what equality with something obeys: symmetry, transitivity, and when the thing
  is equal to itself.

Main results:

* `Document.beq_iff` — **documents are equal exactly if they are at every name**;
* `Equality.LawsAt.of_parts` — what is compared part by part obeys the laws if its parts do;
* `Value.lawsAt` — **equality of values is symmetric and transitive, and a value is equal to itself
  exactly if there is no NaN in it**.
-/

import Mathlib.Data.List.Perm.Subperm
import UpdateSql.Proofs.Document.Built
import UpdateSql.Proofs.Number.Equality
import UpdateSql.Proofs.Value.Induction
import UpdateSql.Value.Equality

set_option relaxedAutoImplicit false
set_option autoImplicit false

namespace UpdateSql

/-! ### Laws of equality -/

namespace Equality

section

variable {α : Type} [BEq α]

/-- At a place there is nothing on both sides, or there are equal things. -/
def SameAt (a b : Option α) : Prop := Option.Rel (fun x y => (x == y) = true) a b

/-- What equality with a thing obeys, among the good ones. -/
structure LawsAt (Good HasNaN : α → Prop) (a : α) : Prop where
  symm : ∀ b, Good b → (a == b) = true → (b == a) = true
  trans : ∀ b c, Good b → Good c → (a == b) = true → (b == c) = true → (a == c) = true
  /-- What has a NaN is not equal to itself, but all else is. -/
  self_iff : (a == a) = true ↔ ¬ HasNaN a

variable {Good HasNaN : α → Prop}

theorem LawsAt.mono {Good' : α → Prop} {a : α} (h : LawsAt Good HasNaN a)
    (hgood : ∀ b, Good' b → Good b) : LawsAt Good' HasNaN a where
  symm b hb := h.symm b (hgood b hb)
  trans b c hb hc := h.trans b c (hgood b hb) (hgood c hc)
  self_iff := h.self_iff

/-! ### One place -/

theorem SameAt.symm {a b : Option α} (h : SameAt a b)
    (hs : ∀ x ∈ a, ∀ y ∈ b, (x == y) = true → (y == x) = true) : SameAt b a := by
  cases h with
  | none => exact .none
  | some hxy => exact .some (hs _ rfl _ rfl hxy)

theorem SameAt.trans {a b c : Option α} (h : SameAt a b) (h' : SameAt b c)
    (ht : ∀ x ∈ a, ∀ y ∈ b, ∀ z ∈ c, (x == y) = true → (y == z) = true → (x == z) = true) :
    SameAt a c := by
  cases h with
  | none =>
      cases h'
      exact .none
  | some hxy =>
      cases h' with
      | some hyz => exact .some (ht _ rfl _ rfl _ rfl hxy hyz)

theorem sameAt_some_iff {x y : α} : SameAt (some x) (some y) ↔ (x == y) = true :=
  Option.rel_some_some

theorem sameAt_self_iff {a : Option α} : SameAt a a ↔ ∀ x ∈ a, (x == x) = true := by
  constructor
  · intro h x hx
    obtain rfl : a = some x := hx
    cases h with
    | some hxx => exact hxx
  · intro h
    cases a with
    | none => exact .none
    | some x => exact .some (h x rfl)

theorem sameAt_iff {a b : Option α} : SameAt a b ↔
    (a = none ∧ b = none) ∨ ∃ x y, a = some x ∧ b = some y ∧ (x == y) = true := by
  constructor
  · intro h
    cases h with
    | none => exact .inl ⟨rfl, rfl⟩
    | some hxy => exact .inr ⟨_, _, rfl, rfl, hxy⟩
  · rintro (⟨rfl, rfl⟩ | ⟨x, y, rfl, rfl, hxy⟩)
    · exact .none
    · exact .some hxy

/-- What the other side has at a place where it is the same. -/
theorem SameAt.exists_right {a b : Option α} (h : SameAt a b) {x : α} (hx : x ∈ a) :
    ∃ y ∈ b, (x == y) = true := by
  obtain rfl : a = some x := hx
  cases h with
  | some hxy => exact ⟨_, rfl, hxy⟩

theorem SameAt.eq_none_iff {a b : Option α} (h : SameAt a b) : a = none ↔ b = none := by
  cases h with
  | none => exact Iff.rfl
  | some => simp

end

/-! ### All places -/

/-- **What is compared part by part obeys the laws if its parts do.**  Two things are compared by a
key, and by what stands at each place. -/
theorem LawsAt.of_parts {α β ι κ : Type} [BEq α] [BEq β] {Good HasNaN : α → Prop}
    (GoodPart PartHasNaN : β → Prop) (key : α → κ) (part : α → ι → Option β)
    (hgood : ∀ a, Good a → ∀ i, ∀ x ∈ part a i, GoodPart x)
    (hnan : ∀ a, Good a → (HasNaN a ↔ ∃ i, ∃ x ∈ part a i, PartHasNaN x))
    (hbeq : ∀ a b, Good a → Good b →
      ((a == b) = true ↔ key a = key b ∧ ∀ i, SameAt (part a i) (part b i)))
    {a : α} (ha : Good a) (hlaws : ∀ i, ∀ x ∈ part a i, LawsAt GoodPart PartHasNaN x) :
    LawsAt Good HasNaN a where
  symm b hb h := by
    obtain ⟨hkey, hsame⟩ := (hbeq a b ha hb).1 h
    refine (hbeq b a hb ha).2 ⟨hkey.symm, fun i => (hsame i).symm fun x hx y hy => ?_⟩
    exact (hlaws i x hx).symm y (hgood b hb i y hy)
  trans b c hb hc h h' := by
    obtain ⟨hkey, hsame⟩ := (hbeq a b ha hb).1 h
    obtain ⟨hkey', hsame'⟩ := (hbeq b c hb hc).1 h'
    refine (hbeq a c ha hc).2 ⟨hkey.trans hkey', fun i => (hsame i).trans (hsame' i) ?_⟩
    intro x hx y hy z hz
    exact (hlaws i x hx).trans y z (hgood b hb i y hy) (hgood c hc i z hz)
  self_iff := by
    have hparts : (∀ i, SameAt (part a i) (part a i)) ↔
        ∀ i, ∀ x ∈ part a i, ¬ PartHasNaN x := by
      refine forall_congr' fun i => sameAt_self_iff.trans (forall₂_congr fun x hx => ?_)
      exact (hlaws i x hx).self_iff
    rw [hbeq a a ha ha, hparts, hnan a ha]
    simp only [true_and, not_exists, not_and]

/-- What something is made into obeys the laws if the thing does, provided that equality looks
through the making and finds nothing equal that is made otherwise. -/
theorem LawsAt.image {α β : Type} [BEq α] [BEq β] {Good HasNaN : α → Prop}
    {Good' HasNaN' : β → Prop} {a : α} (h : LawsAt Good HasNaN a) (make : α → β)
    (hbeq : ∀ a a', (make a == make a') = (a == a'))
    (hmade : ∀ a b, (make a == b) = true → ∃ a', b = make a')
    (hgood : ∀ a, Good' (make a) → Good a) (hnan : HasNaN' (make a) ↔ HasNaN a) :
    LawsAt Good' HasNaN' (make a) where
  symm b hb hab := by
    obtain ⟨a', rfl⟩ := hmade a b hab
    rw [hbeq] at hab ⊢
    exact h.symm a' (hgood a' hb) hab
  trans b c hb hc hab hbc := by
    obtain ⟨a', rfl⟩ := hmade a b hab
    obtain ⟨a'', rfl⟩ := hmade a' c hbc
    rw [hbeq] at hab hbc ⊢
    exact h.trans a' a'' (hgood a' hb) (hgood a'' hc) hab hbc
  self_iff := by rw [hbeq, hnan, h.self_iff]

/-- Lists are equal exactly if they are at every index. -/
theorem list_beq_iff {β : Type} [BEq β] {l l' : List β} :
    (l == l') = true ↔ ∀ i : Nat, SameAt l[i]? l'[i]? := by
  induction l generalizing l' with
  | nil =>
      cases l' with
      | nil => exact iff_of_true rfl fun i => .none
      | cons y l' =>
          refine iff_of_false Bool.false_ne_true fun h => ?_
          cases h 0
  | cons x l ih =>
      cases l' with
      | nil =>
          refine iff_of_false Bool.false_ne_true fun h => ?_
          cases h 0
      | cons y l' =>
          rw [List.cons_beq_cons, Bool.and_eq_true, ih]
          constructor
          · rintro ⟨hxy, htail⟩ i
            cases i with
            | zero => exact .some hxy
            | succ i => exact htail i
          · intro h
            refine ⟨?_, fun i => h (i + 1)⟩
            cases h 0 with
            | some hxy => exact hxy

/-- A list obeys the laws if its items do. -/
theorem LawsAt.list {β : Type} [BEq β] {Good HasNaN : β → Prop} {l : List β}
    (hgood : ∀ x ∈ l, Good x) (hlaws : ∀ x ∈ l, LawsAt Good HasNaN x) :
    LawsAt (fun l => ∀ x ∈ l, Good x) (fun l => ∃ x ∈ l, HasNaN x) l := by
  refine .of_parts Good HasNaN (fun _ => ()) (fun l (i : Nat) => l[i]?) ?_ ?_ ?_ hgood ?_
  · exact fun l hl i x hx => hl x (List.mem_of_getElem? hx)
  · intro l _
    constructor
    · rintro ⟨x, hx, hnan⟩
      obtain ⟨i, hi⟩ := List.mem_iff_getElem?.1 hx
      exact ⟨i, x, hi, hnan⟩
    · rintro ⟨i, x, hx, hnan⟩
      exact ⟨x, List.mem_of_getElem? hx, hnan⟩
  · intro l l' _ _
    rw [list_beq_iff, eq_self_iff_true, true_and]
  · exact fun i x hx => hlaws x (List.mem_of_getElem? hx)

end Equality

open Equality (SameAt LawsAt)

/-! ### Documents -/

namespace Document

/-- Documents are compared by looking up the fields of the first in the second. -/
theorem beq_iff_lookup {d e : Document} : (d == e) = true ↔
    d.className = e.className ∧ d.rid = e.rid ∧ d.names.length = e.names.length ∧
      ∀ entry ∈ d.fields, ∃ w, e.get? entry.1 = some w ∧ (entry.2 == w) = true := by
  obtain ⟨className, rid, fields⟩ := d
  have hholds : ∀ entry, Document.holds e.fields entry = true ↔
      ∃ w, e.get? entry.1 = some w ∧ (entry.2 == w) = true := by
    intro entry
    rw [Document.holds, get?]
    cases e.fields.lookup entry.1 <;> simp
  have hbeq : ((⟨className, rid, fields⟩ : Document) == e)
      = (className == e.className && rid == e.rid && fields.length == e.fields.length
        && Document.agree fields e.fields) := rfl
  rw [hbeq, agree_eq_all, Bool.and_eq_true, Bool.and_eq_true, Bool.and_eq_true, beq_iff_eq,
    beq_iff_eq, beq_iff_eq, List.all_eq_true, names, names, List.length_map, List.length_map]
  simp only [hholds, and_assoc]

/-- As many distinct names, all of them among others, are the others. -/
theorem mem_names_iff_of_subset {d e : Document} (hd : d.names.Nodup) (hsub : d.names ⊆ e.names)
    (hlength : d.names.length = e.names.length) {name : String} :
    name ∈ d.names ↔ name ∈ e.names :=
  ((List.subperm_of_subset hd hsub).perm_of_length_le hlength.ge).mem_iff

/-- **Documents with distinct names are equal exactly if they are at every name**, whatever the
order of the names. -/
theorem beq_iff {d e : Document} (hd : d.names.Nodup) (he : e.names.Nodup) : (d == e) = true ↔
    d.className = e.className ∧ d.rid = e.rid ∧
      ∀ name, SameAt (d.get? name) (e.get? name) := by
  rw [beq_iff_lookup]
  refine and_congr_right fun _ => and_congr_right fun _ => ?_
  constructor
  · rintro ⟨hlength, hfields⟩ name
    have hsub : d.names ⊆ e.names := by
      intro m hm
      obtain ⟨entry, hentry, rfl⟩ := List.mem_map.1 hm
      obtain ⟨w, hw, -⟩ := hfields entry hentry
      rw [mem_names_iff_get?_ne_none, hw]
      exact Option.some_ne_none w
    cases hv : d.get? name with
    | some v =>
        obtain ⟨w, hw, hvw⟩ := hfields (name, v) ((Fields.mem_iff_lookup_eq_some hd).2 hv)
        rw [hw]
        exact .some hvw
    | none =>
        -- nothing is left over on the other side, for there are as many names
        have hnot : name ∉ e.names := by
          rw [← mem_names_iff_of_subset hd hsub hlength, mem_names_iff_get?_ne_none]
          exact not_not_intro hv
        rw [mem_names_iff_get?_ne_none, Classical.not_not] at hnot
        rw [hnot]
        exact .none
  · intro hsame
    constructor
    · refine ((List.perm_ext_iff_of_nodup hd he).2 fun name => ?_).length_eq
      rw [mem_names_iff_get?_ne_none, mem_names_iff_get?_ne_none]
      exact not_congr (hsame name).eq_none_iff
    · intro entry hentry
      exact (hsame entry.1).exists_right ((Fields.mem_iff_lookup_eq_some hd).1 hentry)

/-- What is looked up does not depend on the order of the fields. -/
theorem get?_eq_of_perm {d e : Document} (hd : d.names.Nodup) (h : d.fields.Perm e.fields)
    (name : String) : d.get? name = e.get? name := by
  have he : e.names.Nodup := (h.map Prod.fst).nodup_iff.1 hd
  refine Option.ext fun v => ?_
  have hdv : d.get? name = some v ↔ (name, v) ∈ d.fields :=
    (Fields.mem_iff_lookup_eq_some hd).symm
  have hev : e.get? name = some v ↔ (name, v) ∈ e.fields :=
    (Fields.mem_iff_lookup_eq_some he).symm
  rw [hdv, hev, h.mem_iff]

end Document

/-! ### Values -/

namespace Value

theorem eq_float_of_beq {x : Float} {w : Value} (h : (float x == w) = true) :
    ∃ y, w = .float y := by
  cases w with
  | float y => exact ⟨y, rfl⟩
  | _ => cases h

theorem eq_document_of_beq {d : Document} {w : Value} (h : (document d == w) = true) :
    ∃ e, w = .document e := by
  cases w with
  | document e => exact ⟨e, rfl⟩
  | _ => cases h

theorem eq_list_of_beq {items : List Value} {w : Value} (h : (list items == w) = true) :
    ∃ items', w = .list items' := by
  cases w with
  | list items' => exact ⟨items', rfl⟩
  | _ => cases h

/-- Lists as values are compared as lists. -/
theorem list_beq_list (items items' : List Value) :
    (list items == list items') = (items == items') := by
  have h : beqItems items items' = (items == items') := by
    induction items generalizing items' with
    | nil => cases items' <;> rfl
    | cons v items ih =>
        cases items' with
        | nil => rfl
        | cons w items' => rw [beqItems, ih, List.cons_beq_cons]; rfl
  exact h

/-- What is neither a float nor made of other values is equal to itself alone. -/
theorem beq_atom_iff {v w : Value} (hv : v.IsAtom) : (v == w) = true ↔ v = w := by
  constructor
  · intro h
    cases v with
    | bool b =>
        cases w with
        | bool b' => exact congrArg bool (eq_of_beq h)
        | _ => cases h
    | integer n =>
        cases w with
        | integer n' => exact congrArg integer (eq_of_beq h)
        | _ => cases h
    | unsigned n =>
        cases w with
        | unsigned n' => exact congrArg unsigned (eq_of_beq h)
        | _ => cases h
    | string s =>
        cases w with
        | string s' => exact congrArg string (eq_of_beq h)
        | _ => cases h
    | link id =>
        cases w with
        | link id' => exact congrArg link (eq_of_beq h)
        | _ => cases h
    | null =>
        cases w with
        | null => rfl
        | _ => cases h
    | _ => cases hv
  · rintro rfl
    cases v with
    | null => rfl
    | bool b => exact beq_self_eq_true b
    | integer n => exact beq_self_eq_true n
    | unsigned n => exact beq_self_eq_true n
    | string s => exact beq_self_eq_true s
    | link id => exact beq_self_eq_true id
    | _ => cases hv

end Value

/-! ### The laws -/

/-- Equality of floats obeys the laws. -/
theorem FloatEquality.lawsAt (x : Float) : LawsAt (fun _ => True) (fun x => x.isNaN = true) x where
  symm _ _ := symm
  trans _ _ _ _ := trans
  self_iff := by rw [beq_self_iff, Bool.not_eq_true]

namespace Value

theorem lawsAt_of_isAtom {v : Value} (hv : v.IsAtom) : LawsAt Distinct HasNaN v where
  symm w _ h := by
    obtain rfl := (beq_atom_iff hv).1 h
    exact h
  trans w u _ _ h h' := by
    obtain rfl := (beq_atom_iff hv).1 h
    exact h'
  self_iff := iff_of_true ((beq_atom_iff hv).2 rfl) (not_hasNaN_of_isAtom hv)

end Value

/-- Equality of documents obeys the laws if equality of the values in them does. -/
theorem Document.lawsAt_of_values {d : Document} (hd : d.Distinct)
    (hvalues : ∀ entry ∈ d.fields, LawsAt Value.Distinct Value.HasNaN entry.2) :
    LawsAt Distinct HasNaN d := by
  have hmem : ∀ {d : Document}, d.Distinct → ∀ {name v}, v ∈ d.get? name →
      (name, v) ∈ d.fields := fun hd _ _ hv => (Fields.mem_iff_lookup_eq_some hd.nodup).2 hv
  refine .of_parts Value.Distinct Value.HasNaN (fun d => (d.className, d.rid)) get?
    ?_ ?_ ?_ hd ?_
  · exact fun d hd name v hv => hd.value (hmem hd hv)
  · intro d hd
    rw [HasNaN, Value.hasNaN_document_iff]
    constructor
    · rintro ⟨entry, he, hnan⟩
      exact ⟨entry.1, entry.2, (Fields.mem_iff_lookup_eq_some hd.nodup).1 he, hnan⟩
    · rintro ⟨name, v, hv, hnan⟩
      exact ⟨(name, v), hmem hd hv, hnan⟩
  · intro d e hd he
    rw [beq_iff hd.nodup he.nodup, Prod.mk.injEq, and_assoc]
  · exact fun name v hv => hvalues (name, v) (hmem hd hv)

/-- **Equality of values is symmetric and transitive, and a value is equal to itself exactly if
there is no NaN in it.** -/
theorem Value.lawsAt {v : Value} (hv : v.Distinct) : LawsAt Distinct HasNaN v := by
  induction v with
  | null | bool b | integer n | unsigned n | string s | link id => exact lawsAt_of_isAtom trivial
  | float x =>
      exact (FloatEquality.lawsAt x).image Value.float (fun _ _ => rfl) (fun _ _ => eq_float_of_beq)
        (fun _ _ => trivial) hasNaN_float_iff
  | document className rid fields ih =>
      have hvalues := (distinct_document_iff.1 hv).2
      exact (Document.lawsAt_of_values hv fun entry he => ih entry he (hvalues entry he)).image
        Value.document (fun _ _ => rfl) (fun _ _ => eq_document_of_beq) (fun _ hd => hd) Iff.rfl
  | list items ih =>
      have hitems := distinct_list_iff.1 hv
      exact (LawsAt.list hitems fun v hv => ih v hv (hitems v hv)).image
        Value.list list_beq_list (fun _ _ => eq_list_of_beq) (fun _ => distinct_list_iff.1)
        hasNaN_list_iff

theorem Document.lawsAt {d : Document} (hd : d.Distinct) : LawsAt Distinct HasNaN d :=
  lawsAt_of_values hd fun _ he => Value.lawsAt (hd.value he)

end UpdateSql
