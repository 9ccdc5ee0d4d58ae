/-
**Documents and values read from JSON objects.**

A JSON object is read in two ways: as a value it becomes a document with all its members as fields,
and as a document it gives up two members, which hold the class name and the record id.  This module
compares the two.  Reading a document fails where one of the two members cannot be taken, and the
first such member is blamed; otherwise the fields are those of the value without the two.

Main definitions:

* `Document.Offends` — a member cannot be taken, and why;
* `Document.isReserved` — the names that do not become fields.

Main results:

* `Document.addMember_eq_error_iff`, `Document.addMember_eq_ok_iff` — what can happen to a member;
* `Document.addMembers_eq_error_iff` — **the first member that cannot be taken is blamed**;
* `Document.fields_addMembers` — the fields of a document are those of the value, the reserved ones
  left out;
* `Document.ofJson_agrees_with_value` — **the two readings agree**.
-/

import UpdateSql.Document.OfJson
import UpdateSql.Proofs.Outcome

set_option relaxedAutoImplicit false
set_option autoImplicit false

namespace UpdateSql

/-! ### Record ids in strings -/

/-- A text that is no record id is refused as that. -/
theorem RecordId.exists_detail_of_eq_error {s : String} {e : Error}
    (h : RecordId.ofString s = .error e) : ∃ detail, e = .invalidRecordId detail := by
  rw [RecordId.ofString] at h
  split at h
  · cases h
  · next fault _ =>
      cases h
      exact ⟨fault.detail s, rfl⟩

namespace Document

/-! ### One member -/

/-- A member of a JSON object that cannot be taken into a document, and the error for it. -/
inductive Offends : String × Json → Error → Prop
  | classNotAString {j : Json} (h : ∀ s, j ≠ .string s) :
      Offends (classKey, j) (.invalidDocument "@class must be a string")
  | ridNotAString {j : Json} (h : ∀ s, j ≠ .string s) :
      Offends (ridKey, j) (.invalidDocument "@rid must be a string")
  | ridNotAnId {s : String} {e : Error} (h : RecordId.ofString s = .error e) :
      Offends (ridKey, .string s) e

/-- Whether a member does not become a field. -/
def isReserved (name : String) : Bool := name == classKey || name == ridKey

theorem addMember_class (d : Document) (s : String) :
    d.addMember classKey (.string s) = .ok (d.withClass s) := if_pos rfl

theorem addMember_class_of_ne (d : Document) {j : Json} (h : ∀ s, j ≠ .string s) :
    d.addMember classKey j = .error (notAString classKey) := by
  cases j with
  | string s => exact absurd rfl (h s)
  | _ => exact if_pos rfl

theorem addMember_rid (d : Document) (s : String) :
    d.addMember ridKey (.string s) = (RecordId.ofString s).map d.withRid :=
  (if_neg (by decide)).trans (if_pos rfl)

theorem addMember_rid_of_ne (d : Document) {j : Json} (h : ∀ s, j ≠ .string s) :
    d.addMember ridKey j = .error (notAString ridKey) := by
  cases j with
  | string s => exact absurd rfl (h s)
  | _ => exact (if_neg (by decide)).trans (if_pos rfl)

theorem addMember_of_not_isReserved (d : Document) {name : String}
    (h : isReserved name = false) (j : Json) :
    d.addMember name j = .ok (d.set name (.ofJson j)) := by
  simp only [isReserved, Bool.or_eq_false_iff, beq_eq_false_iff_ne] at h
  exact (if_neg h.1).trans (if_neg h.2)

/-- A name is one of the two reserved ones, or it is not reserved. -/
theorem isReserved_cases (name : String) :
    name = classKey ∨ name = ridKey ∨ isReserved name = false := by
  by_cases hclass : name = classKey
  · exact .inl hclass
  · by_cases hrid : name = ridKey
    · exact .inr (.inl hrid)
    · exact .inr (.inr (by simp [isReserved, hclass, hrid]))

/-- A value is a string, or it is none. -/
theorem exists_string_or (j : Json) : (∃ s, j = .string s) ∨ ∀ s, j ≠ .string s := by
  cases j with
  | string s => exact .inl ⟨s, rfl⟩
  | _ => exact .inr fun s h => by cases h

/-- **A member is refused exactly if it offends.** -/
theorem addMember_eq_error_iff {d : Document} {name : String} {j : Json} {e : Error} :
    d.addMember name j = .error e ↔ Offends (name, j) e := by
  constructor
  · intro h
    rcases isReserved_cases name with rfl | rfl | hname
    · rcases exists_string_or j with ⟨s, rfl⟩ | hj
      · rw [addMember_class] at h
        cases h
      · rw [addMember_class_of_ne d hj] at h
        cases h
        exact .classNotAString hj
    · rcases exists_string_or j with ⟨s, rfl⟩ | hj
      · rw [addMember_rid, Outcome.map_eq_error_iff] at h
        exact .ridNotAnId h
      · rw [addMember_rid_of_ne d hj] at h
        cases h
        exact .ridNotAString hj
    · rw [addMember_of_not_isReserved d hname] at h
      cases h
  · intro h
    cases h with
    | classNotAString hj => exact addMember_class_of_ne d hj
    | ridNotAString hj => exact addMember_rid_of_ne d hj
    | ridNotAnId hid => rw [addMember_rid, Outcome.map_eq_error_iff, hid]

/-- What becomes a field does not offend. -/
theorem not_offends_of_not_isReserved {member : String × Json} (h : isReserved member.1 = false)
    {e : Error} : ¬ Offends member e := by
  rw [← addMember_eq_error_iff (d := empty), addMember_of_not_isReserved _ h]
  rintro ⟨⟩

/-- A member that is taken gives the class name, the record id or a field. -/
theorem addMember_eq_ok_iff {d next : Document} {name : String} {j : Json} :
    d.addMember name j = .ok next ↔
      (name = classKey ∧ ∃ s, j = .string s ∧ next = d.withClass s) ∨
      (name = ridKey ∧ ∃ s id, j = .string s ∧ RecordId.ofString s = .ok id ∧
        next = d.withRid id) ∨
      (isReserved name = false ∧ next = d.set name (.ofJson j)) := by
  constructor
  · intro h
    rcases isReserved_cases name with rfl | rfl | hname
    · rcases exists_string_or j with ⟨s, rfl⟩ | hj
      · rw [addMember_class] at h
        cases h
        exact .inl ⟨rfl, s, rfl, rfl⟩
      · rw [addMember_class_of_ne d hj] at h
        cases h
    · rcases exists_string_or j with ⟨s, rfl⟩ | hj
      · rw [addMember_rid, Outcome.map_eq_ok_iff] at h
        obtain ⟨id, hid, rfl⟩ := h
        exact .inr (.inl ⟨rfl, s, id, rfl, hid, rfl⟩)
      · rw [addMember_rid_of_ne d hj] at h
        cases h
    · rw [addMember_of_not_isReserved d hname] at h
      cases h
      exact .inr (.inr ⟨hname, rfl⟩)
  · rintro (⟨rfl, s, rfl, rfl⟩ | ⟨rfl, s, id, rfl, hid, rfl⟩ | ⟨hname, rfl⟩)
    · exact addMember_class d s
    · rw [addMember_rid, hid]
      rfl
    · exact addMember_of_not_isReserved d hname j

/-! ### The first member that cannot be taken -/

theorem addMembers_cons (d : Document) (member : String × Json) (rest : List (String × Json)) :
    d.addMembers (member :: rest)
      = d.addMember member.1 member.2 >>= fun next => next.addMembers rest := rfl

/-- **The first member that cannot be taken is blamed**: reading stops there, with its error. -/
theorem addMembers_eq_error_iff {d : Document} {members : List (String × Json)} {e : Error} :
    d.addMembers members = .error e ↔ ∃ before member after,
      members = before ++ member :: after ∧ (∀ m ∈ before, ∀ e', ¬ Offends m e') ∧
        Offends member e := by
  induction members generalizing d with
  | nil =>
      constructor
      · intro h
        cases h
      · rintro ⟨before, member, after, h, -⟩
        exact absurd h.symm (List.append_ne_nil_of_right_ne_nil _ (List.cons_ne_nil _ _))
  | cons first rest ih =>
      rw [addMembers_cons, Outcome.bind_eq_error_iff]
      constructor
      · rintro (h | ⟨next, hfirst, h⟩)
        · exact ⟨[], first, rest, rfl, by simp, addMember_eq_error_iff.1 h⟩
        · obtain ⟨before, member, after, rfl, hbefore, hmember⟩ := ih.1 h
          refine ⟨first :: before, member, after, rfl, ?_, hmember⟩
          rw [List.forall_mem_cons]
          refine ⟨fun e' h' => ?_, hbefore⟩
          rw [← addMember_eq_error_iff (d := d), hfirst] at h'
          cases h'
      · rintro ⟨before, member, after, h, hbefore, hmember⟩
        cases before with
        | nil =>
            obtain ⟨rfl, rfl⟩ := List.cons.inj h
            exact .inl (addMember_eq_error_iff.2 hmember)
        | cons _ before =>
            obtain ⟨rfl, rfl⟩ := List.cons.inj h
            rw [List.forall_mem_cons] at hbefore
            cases hfirst : d.addMember first.1 first.2 with
            | error e' => exact absurd (addMember_eq_error_iff.1 hfirst) (hbefore.1 e')
            | ok next =>
                exact .inr ⟨next, rfl, ih.2 ⟨before, member, after, rfl, hbefore.2, hmember⟩⟩

/-- Without a member that offends there is a document. -/
theorem exists_addMembers_eq_ok {members : List (String × Json)}
    (h : ∀ m ∈ members, ∀ e, ¬ Offends m e) (d : Document) :
    ∃ next, d.addMembers members = .ok next := by
  cases hd : d.addMembers members with
  | ok next => exact ⟨next, rfl⟩
  | error e =>
      obtain ⟨before, member, after, rfl, -, hmember⟩ := addMembers_eq_error_iff.1 hd
      exact absurd hmember (h member (by simp) e)

/-! ### Members one after the other -/

theorem addMembers_append (d : Document) (l m : List (String × Json)) :
    d.addMembers (l ++ m) = d.addMembers l >>= fun next => next.addMembers m := by
  induction l generalizing d with
  | nil => rfl
  | cons first rest ih =>
      rw [List.cons_append, addMembers_cons, addMembers_cons, bind_assoc]
      exact bind_congr fun next => ih next

/-- What only one key can change stays as it is without that key. -/
theorem eq_of_addMembers {β : Type} {f : Document → β} {key : String}
    (hf : ∀ {d next : Document} {name : String} {j : Json}, d.addMember name j = .ok next →
      name ≠ key → f next = f d) {d next : Document} {members : List (String × Json)}
    (h : d.addMembers members = .ok next) (hkey : key ∉ members.map Prod.fst) : f next = f d := by
  induction members generalizing d with
  | nil =>
      cases h
      rfl
  | cons first rest ih =>
      rw [List.map_cons, List.mem_cons, not_or] at hkey
      obtain ⟨d', hfirst, hrest⟩ := Outcome.bind_eq_ok_iff.1 h
      rw [ih hrest hkey.2, hf hfirst (Ne.symm hkey.1)]

/-- Of members with distinct names, the one of a key decides what only this key can change. -/
theorem eq_of_mem_addMembers {β : Type} {f : Document → β} {key : String}
    (hf : ∀ {d next : Document} {name : String} {j : Json}, d.addMember name j = .ok next →
      name ≠ key → f next = f d) {d next : Document} {members : List (String × Json)}
    (h : d.addMembers members = .ok next) (hnodup : (members.map Prod.fst).Nodup) {j : Json}
    (hmem : (key, j) ∈ members) :
    ∃ d₁ d₂ : Document, d₁.addMember key j = .ok d₂ ∧ f next = f d₂ := by
  obtain ⟨before, after, rfl⟩ := List.append_of_mem hmem
  rw [addMembers_append] at h
  obtain ⟨d₁, -, h⟩ := Outcome.bind_eq_ok_iff.1 h
  obtain ⟨d₂, hkey, hafter⟩ := Outcome.bind_eq_ok_iff.1 h
  rw [List.map_append, List.nodup_append, List.map_cons, List.nodup_cons] at hnodup
  exact ⟨d₁, d₂, hkey, eq_of_addMembers hf hafter hnodup.2.1.1⟩

/-! ### Class name and record id -/

theorem className_addMember {d next : Document} {name : String} {j : Json}
    (h : d.addMember name j = .ok next) (hname : name ≠ classKey) :
    next.className = d.className := by
  rcases addMember_eq_ok_iff.1 h with ⟨rfl, -⟩ | ⟨-, s, id, -, -, rfl⟩ | ⟨-, rfl⟩
  · exact absurd rfl hname
  · rfl
  · rfl

theorem rid_addMember {d next : Document} {name : String} {j : Json}
    (h : d.addMember name j = .ok next) (hname : name ≠ ridKey) : next.rid = d.rid := by
  rcases addMember_eq_ok_iff.1 h with ⟨-, s, -, rfl⟩ | ⟨rfl, -⟩ | ⟨-, rfl⟩
  · rfl
  · exact absurd rfl hname
  · rfl

/-- The class name is the string under its key, wherever that stands. -/
theorem className_of_mem {d next : Document} {members : List (String × Json)}
    (h : d.addMembers members = .ok next) (hnodup : (members.map Prod.fst).Nodup) {s : String}
    (hmem : (classKey, .string s) ∈ members) : next.className = some s := by
  obtain ⟨d₁, d₂, hkey, hclass⟩ := eq_of_mem_addMembers className_addMember h hnodup hmem
  rw [addMember_class] at hkey
  cases hkey
  exact hclass

/-- The record id is the one whose text stands under its key, wherever that stands. -/
theorem rid_of_mem {d next : Document} {members : List (String × Json)}
    (h : d.addMembers members = .ok next) (hnodup : (members.map Prod.fst).Nodup) {s : String}
    (hmem : (ridKey, .string s) ∈ members) :
    ∃ id, RecordId.ofString s = .ok id ∧ next.rid = some id := by
  obtain ⟨d₁, d₂, hkey, hrid⟩ := eq_of_mem_addMembers rid_addMember h hnodup hmem
  rw [addMember_rid] at hkey
  obtain ⟨id, hid, rfl⟩ := Outcome.map_eq_ok_iff.1 hkey
  exact ⟨id, hid, hrid⟩

/-! ### Fields -/

/-- The fields that are not reserved, in order. -/
def ordinary (fields : List (String × Value)) : List (String × Value) :=
  fields.filter fun entry => !isReserved entry.1

/-- Next to the fields of a value the document has those that are not reserved, and a member that is
taken keeps it so. -/
theorem fields_addMember {d next : Document} {name : String} {j : Json}
    (h : d.addMember name j = .ok next) {fields : List (String × Value)}
    (hd : d.fields = ordinary fields) :
    next.fields = ordinary (Fields.set name (.ofJson j) fields) := by
  rw [ordinary, Fields.filter_set fun name => !isReserved name]
  rcases addMember_eq_ok_iff.1 h with ⟨rfl, s, -, rfl⟩ | ⟨rfl, s, id, -, -, rfl⟩ | ⟨hname, rfl⟩
  · exact hd
  · exact hd
  · rw [hname]
    exact congrArg (Fields.set name (.ofJson j)) hd

/-- **The fields of a document are those of the value**, the reserved ones left out. -/
theorem fields_addMembers {d next : Document} {members : List (String × Json)}
    (h : d.addMembers members = .ok next) {fields : List (String × Value)}
    (hd : d.fields = ordinary fields) :
    next.fields = ordinary ((Value.ofJsonMembers members).foldl
      (fun fields entry => Fields.set entry.1 entry.2 fields) fields) := by
  induction members generalizing d fields with
  | nil =>
      cases h
      exact hd
  | cons first rest ih =>
      obtain ⟨d', hfirst, hrest⟩ := Outcome.bind_eq_ok_iff.1 h
      exact ih hrest (fields_addMember hfirst hd)

end Document

/-- The value of an object is a document that has its members as fields and neither class name nor
record id. -/
theorem Value.ofJson_object {members : List (String × Json)}
    (h : (members.map Prod.fst).Nodup) : Value.ofJson (.object members)
      = .document ⟨none, none, members.map fun m => (m.1, Value.ofJson m.2)⟩ := by
  have hnames : ((Value.ofJsonMembers members).map Prod.fst).Nodup := by
    rwa [Value.ofJsonMembers_eq_map, List.map_map]
  rw [Value.ofJson, Fields.ofPairs_of_nodup hnames, Value.ofJsonMembers_eq_map]

namespace Document

/-! ### The two readings -/

/-- **The two readings of a JSON object agree.**  Reading a document fails exactly if a member
offends, with the error of the first one that does.  Otherwise the fields are those of the document
that the object is as a value, in the same order, only the two reserved ones left out; the class
name and the record id are the ones under the reserved keys, wherever these stand, and there is none
without the key.  As a value, an object has all its members as fields and nothing else, so inside
other values the reserved keys are names like any other.  What is no object is no document. -/
theorem ofJson_agrees_with_value :
    (∀ (members : List (String × Json)) (e : Error),
      Document.ofJson (.object members) = .error e ↔ ∃ before member after,
        members = before ++ member :: after ∧ (∀ m ∈ before, ∀ e', ¬ Offends m e') ∧
          Offends member e) ∧
    (∀ members : List (String × Json), (members.map Prod.fst).Nodup →
      (∀ m ∈ members, ∀ e, ¬ Offends m e) → ∃ d whole : Document,
        Document.ofJson (.object members) = .ok d ∧
        Value.ofJson (.object members) = .document whole ∧
        d.fields = ordinary whole.fields ∧
        (∀ s, (classKey, .string s) ∈ members → d.className = some s) ∧
        (classKey ∉ members.map Prod.fst → d.className = none) ∧
        (∀ s, (ridKey, .string s) ∈ members →
          ∃ id, RecordId.ofString s = .ok id ∧ d.rid = some id) ∧
        (ridKey ∉ members.map Prod.fst → d.rid = none)) ∧
    (∀ members : List (String × Json), (members.map Prod.fst).Nodup →
      Value.ofJson (.object members)
        = .document ⟨none, none, members.map fun m => (m.1, Value.ofJson m.2)⟩) ∧
    (∀ (s : String) (e : Error), RecordId.ofString s = .error e →
      ∃ detail, e = .invalidRecordId detail) ∧
    (∀ j : Json, (∀ members, j ≠ .object members) →
      ∃ detail, Document.ofJson j = .error (.invalidDocument detail)) := by
  refine ⟨fun _ _ => addMembers_eq_error_iff, ?_, fun _ => Value.ofJson_object,
    fun _ _ => RecordId.exists_detail_of_eq_error, ?_⟩
  · intro members hnodup hnone
    obtain ⟨d, hd⟩ := exists_addMembers_eq_ok hnone empty
    have hfields : d.fields = ordinary (Fields.ofPairs (Value.ofJsonMembers members)) :=
      fields_addMembers hd rfl
    exact ⟨d, _, hd, rfl, hfields, fun _ => className_of_mem hd hnodup,
      eq_of_addMembers className_addMember hd, fun _ => rid_of_mem hd hnodup,
      eq_of_addMembers rid_addMember hd⟩
  · intro j hj
    cases j with
    | object members => exact absurd rfl (hj members)
    | _ => exact ⟨_, rfl⟩

/-- An object with the reserved keys among the others, and one in which both of them offend. -/
theorem ofJson_of_reserved_keys :
    (∃ d whole : Document,
      Document.ofJson (.object [("a", .null), (ridKey, .string "1:2"), (classKey, .string "C")])
        = .ok d ∧
      Value.ofJson (.object [("a", .null), (ridKey, .string "1:2"), (classKey, .string "C")])
        = .document whole ∧
      d.fields = ordinary whole.fields ∧ d.className = some "C" ∧ d.rid = some ⟨1, 2⟩) ∧
    Document.ofJson (.object [(ridKey, .string "x"), (classKey, .null)])
      = .error (.invalidRecordId "'x' is missing ':'") := by
  obtain ⟨herror, hok, -⟩ := ofJson_agrees_with_value
  have hid : RecordId.ofString "1:2" = .ok ⟨1, 2⟩ := rfl
  constructor
  · have hnone : ∀ m ∈ [("a", Json.null), (ridKey, .string "1:2"), (classKey, .string "C")],
        ∀ e, ¬ Offends m e := by
      simp only [List.forall_mem_cons]
      refine ⟨fun _ => not_offends_of_not_isReserved (by decide), fun e h => ?_, fun e h => ?_,
        by simp⟩
      · rw [← addMember_eq_error_iff (d := empty), addMember_rid, hid] at h
        cases h
      · rw [← addMember_eq_error_iff (d := empty), addMember_class] at h
        cases h
    obtain ⟨d, whole, hd, hwhole, hfields, hclass, -, hrid, -⟩ := hok _ (by decide) hnone
    obtain ⟨id, hid', hrid⟩ := hrid "1:2" (by simp)
    rw [hid] at hid'
    cases hid'
    exact ⟨d, whole, hd, hwhole, hfields, hclass "C" (by simp), hrid⟩
  · exact (herror _ _).2 ⟨[], _, _, rfl, by simp, .ridNotAnId rfl⟩

end Document

end UpdateSql
