/-
**What can be recovered from a literal.**

A literal that is followed by anything that ends it is decoded as the skeleton of its value, and the
text after it is left as it was.  How much of the value that recovers is said by a relation between
values: two of them have the same skeleton exactly if they differ only in the class names and record
ids of embedded documents, and in the kinds of numbers that are written with the same characters.

Main definitions:

* `Value.numeral?` — the characters of a value that is a number;
* `Value.Alike` — two values differ only in what literals do not show.

Main results:

* `Value.skeleton_eq_iff_alike` — values have the same skeleton exactly if they are alike;
* `Reading.literal_decoded` — **a literal is decoded up to likeness**, by one decoder for all
  values.
-/

import Mathlib.Data.List.Forall2
import UpdateSql.Proofs.Reading.Literal

set_option relaxedAutoImplicit false
set_option autoImplicit false

namespace UpdateSql

/-! ### Values that look alike -/

namespace Value

/-- The characters of a value that is a number. -/
def numeral? : Value → Option (List Char)
  | .integer n => some (Numeral.intChars n.toInt)
  | .unsigned n => some (Nat.toDigits 10 n.toNat)
  | .float x => some (FloatText.chars x)
  | _ => none

/-- Two values are the same, apart from class names and record ids of embedded documents and from
the kinds of numbers with the same characters. -/
inductive Alike : Value → Value → Prop
  | same (v : Value) : Alike v v
  | number {v w : Value} {text : List Char} (hv : v.numeral? = some text)
      (hw : w.numeral? = some text) : Alike v w
  /-- The names are the same in the same order, and so are the values, up to likeness. -/
  | document {className className' : Option String} {rid rid' : Option RecordId}
      {fields fields' : List (String × Value)}
      (hnames : fields.map Prod.fst = fields'.map Prod.fst)
      (hvalues : List.Forall₂ Alike (fields.map Prod.snd) (fields'.map Prod.snd)) :
      Alike (.document ⟨className, rid, fields⟩) (.document ⟨className', rid', fields'⟩)
  | list {items items' : List Value} (h : List.Forall₂ Alike items items') :
      Alike (.list items) (.list items')

end Value

/-! ### Lists of alike values -/

section

variable {α β : Type} {f : α → β} {R : α → α → Prop}

/-- Members that are related if they have the same image are related along two lists with the same
images. -/
theorem forall₂_of_map_eq {l l' : List α} (hR : ∀ a ∈ l, ∀ a', f a = f a' → R a a')
    (h : l.map f = l'.map f) : List.Forall₂ R l l' := by
  induction l generalizing l' with
  | nil =>
      obtain rfl : l' = [] := List.map_eq_nil_iff.1 h.symm
      exact .nil
  | cons a l ih =>
      cases l' with
      | nil => cases h
      | cons a' l' =>
          rw [List.map_cons, List.map_cons, List.cons.injEq] at h
          exact .cons (hR a List.mem_cons_self a' h.1)
            (ih (fun b hb => hR b (List.mem_cons_of_mem a hb)) h.2)

/-- Members that have the same image if they are related have the same images along two related
lists. -/
theorem map_eq_of_forall₂ {l l' : List α} (hf : ∀ a ∈ l, ∀ a', R a a' → f a = f a')
    (h : List.Forall₂ R l l') : l.map f = l'.map f := by
  induction h with
  | nil => rfl
  | cons hab _ ih =>
      rw [List.map_cons, List.map_cons, hf _ List.mem_cons_self _ hab,
        ih fun b hb => hf b (List.mem_cons_of_mem _ hb)]

end

/-- Fields have the same skeletons if they have the same names and values of the same skeletons. -/
theorem map_entrySkeleton_eq_iff {fields fields' : List (String × Value)} :
    fields.map entrySkeleton = fields'.map entrySkeleton ↔
      fields.map Prod.fst = fields'.map Prod.fst ∧
        (fields.map Prod.snd).map Value.skeleton = (fields'.map Prod.snd).map Value.skeleton := by
  induction fields generalizing fields' with
  | nil => cases fields' <;> simp
  | cons entry fields ih =>
      cases fields' with
      | nil => simp
      | cons entry' fields' =>
          simp only [List.map_cons, List.cons.injEq, ih, entrySkeleton, Prod.mk.injEq]
          exact and_and_and_comm

/-! ### Skeletons and likeness -/

namespace Value

/-- A number has its characters as skeleton. -/
theorem skeleton_of_numeral? {v : Value} {text : List Char} (h : v.numeral? = some text) :
    v.skeleton = .number text := by
  cases v with
  | integer n | unsigned n | float x =>
      cases h
      rfl
  | _ => cases h

theorem numeral?_of_skeleton_eq {v : Value} {text : List Char} (h : v.skeleton = .number text) :
    v.numeral? = some text := by
  rcases v with _ | b | n | n | x | s | id | ⟨className, rid, fields⟩ | items <;> cases h <;> rfl

theorem exists_of_skeleton_eq_document {v : Value} {fields : List (String × Skeleton)}
    (h : v.skeleton = .document fields) : ∃ className rid entries,
      v = .document ⟨className, rid, entries⟩ ∧ entries.map entrySkeleton = fields := by
  cases v with
  | document d =>
      obtain ⟨className, rid, entries⟩ := d
      rw [skeleton_document] at h
      exact ⟨className, rid, entries, rfl, Skeleton.document.inj h⟩
  | _ => cases h

theorem exists_of_skeleton_eq_list {v : Value} {skeletons : List Skeleton}
    (h : v.skeleton = .list skeletons) :
    ∃ items, v = .list items ∧ items.map skeleton = skeletons := by
  cases v with
  | document d =>
      obtain ⟨className, rid, entries⟩ := d
      cases h
  | list items =>
      rw [skeleton_list] at h
      exact ⟨items, rfl, Skeleton.list.inj h⟩
  | _ => cases h

/-- Values with the same skeleton are alike. -/
theorem Alike.of_skeleton_eq {v w : Value} (h : v.skeleton = w.skeleton) : Alike v w := by
  induction v generalizing w with
  | null | bool b | string s | link id =>
      rcases w with _ | b | n | n | x | s | id | ⟨className, rid, fields⟩ | items <;> cases h
      exact .same _
  | integer n | unsigned n | float x => exact .number rfl (numeral?_of_skeleton_eq h.symm)
  | document className rid fields ih =>
      rw [skeleton_document] at h
      obtain ⟨className', rid', fields', rfl, hfields⟩ := exists_of_skeleton_eq_document h.symm
      obtain ⟨hnames, hvalues⟩ := map_entrySkeleton_eq_iff.1 hfields.symm
      refine .document hnames (forall₂_of_map_eq (fun v hv w => ?_) hvalues)
      obtain ⟨entry, he, rfl⟩ := List.mem_map.1 hv
      exact ih entry he
  | list items ih =>
      rw [skeleton_list] at h
      obtain ⟨items', rfl, hitems⟩ := exists_of_skeleton_eq_list h.symm
      exact .list (forall₂_of_map_eq (fun v hv w => ih v hv) hitems.symm)

/-- Values that are alike have the same skeleton. -/
theorem Alike.skeleton_eq {v w : Value} (h : Alike v w) : v.skeleton = w.skeleton := by
  induction v generalizing w with
  | document className rid fields ih =>
      cases h with
      | same => rfl
      | number hv => cases hv
      | document hnames hvalues =>
          rw [skeleton_document, skeleton_document, Skeleton.document.injEq,
            map_entrySkeleton_eq_iff]
          refine ⟨hnames, map_eq_of_forall₂ (fun v hv w => ?_) hvalues⟩
          obtain ⟨entry, he, rfl⟩ := List.mem_map.1 hv
          exact ih entry he
  | list items ih =>
      cases h with
      | same => rfl
      | number hv => cases hv
      | list h =>
          rw [skeleton_list, skeleton_list, map_eq_of_forall₂ (fun v hv w => ih v hv) h]
  | _ =>
      cases h with
      | same => rfl
      | number hv hw => rw [skeleton_of_numeral? hv, skeleton_of_numeral? hw]

/-- **Two values have the same skeleton exactly if they are alike.** -/
theorem skeleton_eq_iff_alike {v w : Value} : v.skeleton = w.skeleton ↔ Alike v w :=
  ⟨.of_skeleton_eq, Alike.skeleton_eq⟩

end Value

/-! ### Decoding -/

namespace Reading

/-- **A literal is decoded up to likeness.**  Whatever value is written, and whatever follows as
long as it ends a literal, the same decoder finds the end of the literal by itself: it gives the
skeleton of the value and leaves what followed.  The skeleton tells the value from all others but
those that are alike. -/
theorem literal_decoded {v : Value} (hnames : v.ReadableNames) {text rest : String}
    (ht : v.literal .backslash = .ok text) (hrest : Delimited rest.toList) :
    value (text ++ rest).toList = some (v.skeleton, rest.toList) ∧
      ∀ w : Value, w.skeleton = v.skeleton ↔ w.Alike v := by
  obtain ⟨chars, hchars, rfl⟩ := Outcome.map_eq_ok_iff.1 ht
  rw [String.toList_append, String.toList_ofList]
  exact ⟨value_literalChars v hnames hchars hrest, fun _ => Value.skeleton_eq_iff_alike⟩

/-- A document in a list, with a string that looks like the end of both. -/
theorem decoded_of_nested_document :
    let v : Value := .list [.document ⟨some "C", none, [("a b", .string "')]"), ("n", .null)]⟩]
    value "[(a b = '\\')]', n = NULL)], 1".toList = some (v.skeleton, ", 1".toList) ∧
      v.skeleton = .list [.document [("a b", .string "')]"), ("n", .null)]] := by
  intro v
  have hnames : v.ReadableNames := by
    unfold Value.ReadableNames IsReadableName
    decide
  have ht : v.literal .backslash = .ok "[(a b = '\\')]', n = NULL)]" := rfl
  have hrest : Delimited ", 1".toList := delimited_cons rfl _
  exact ⟨(literal_decoded hnames ht hrest).1, rfl⟩

end Reading

end UpdateSql
