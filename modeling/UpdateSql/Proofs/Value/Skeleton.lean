/-
**What the literal of a value shows.**

A literal does not show everything: the class name and the record id of an embedded document are not
written, and a number is only there as its digits.  What is left is the skeleton of the value, and
with escaped quotes the literal is written from it alone.

Main definitions:

* `Skeleton`, `Value.skeleton` — what is shown of a value;
* `Skeleton.chars` — the skeleton as written, with escaped quotes;
* `Value.names` — the names of all fields of a value, at any depth.

Main results:

* `Value.literalChars_eq_chars_skeleton` — **a literal is its skeleton as written**.
-/

import UpdateSql.Proofs.Outcome
import UpdateSql.Proofs.Value.Induction
import UpdateSql.Value.Literal

set_option relaxedAutoImplicit false
set_option autoImplicit false

namespace UpdateSql

/-! ### Skeletons -/

/-- What the literal of a value shows.  A number is kept as it is written; class names and record
ids of documents are left out. -/
inductive Skeleton where
  | null
  | bool (b : Bool)
  | number (text : List Char)
  | string (s : String)
  | link (id : RecordId)
  | document (fields : List (String × Skeleton))
  | list (items : List Skeleton)

mutual

/-- The skeleton of a value. -/
def Value.skeleton : Value → Skeleton
  | .null => .null
  | .bool b => .bool b
  | .integer n => .number (Numeral.intChars n.toInt)
  | .unsigned n => .number (Nat.toDigits 10 n.toNat)
  | .float x => .number (FloatText.chars x)
  | .string s => .string s
  | .link id => .link id
  | .document ⟨_, _, fields⟩ => .document (Value.fieldSkeletons fields)
  | .list items => .list (Value.itemSkeletons items)

/-- The skeletons of the values of a list. -/
def Value.itemSkeletons : List Value → List Skeleton
  | [] => []
  | v :: rest => v.skeleton :: Value.itemSkeletons rest

/-- The skeletons of a list of fields. -/
def Value.fieldSkeletons : List (String × Value) → List (String × Skeleton)
  | [] => []
  | (name, v) :: rest => (name, v.skeleton) :: Value.fieldSkeletons rest

end

/-- A field with the skeleton of its value. -/
def entrySkeleton (entry : String × Value) : String × Skeleton := (entry.1, entry.2.skeleton)

theorem Value.skeleton_document (className : Option String) (rid : Option RecordId)
    (fields : List (String × Value)) :
    (Value.document ⟨className, rid, fields⟩).skeleton = .document (fields.map entrySkeleton) := by
  rw [Value.skeleton]
  congr 1
  induction fields with
  | nil => rfl
  | cons entry rest ih => rw [Value.fieldSkeletons, List.map_cons, ih, entrySkeleton]

theorem Value.skeleton_list (items : List Value) :
    (Value.list items).skeleton = .list (items.map Value.skeleton) := by
  rw [Value.skeleton]
  congr 1
  induction items with
  | nil => rfl
  | cons v rest ih => rw [Value.itemSkeletons, List.map_cons, ih]

/-! ### Writing a skeleton -/

/-- A field name with a literal assigned to it. -/
def assigned (name : String) (literal : List Char) : List Char :=
  name.toList ++ ([' ', '=', ' '] ++ literal)

mutual

/-- A skeleton as written, with escaped quotes. -/
def Skeleton.chars : Skeleton → List Char
  | .null => ['N', 'U', 'L', 'L']
  | .bool true => ['t', 'r', 'u', 'e']
  | .bool false => ['f', 'a', 'l', 's', 'e']
  | .number text => text
  | .string s => Quoted.encode .backslash s.toList
  | .link id => id.chars
  | .document fields => '(' :: (commaSeparated (Skeleton.fieldChars fields) ++ [')'])
  | .list items => '[' :: (commaSeparated (Skeleton.itemChars items) ++ [']'])

/-- The skeletons of a list as written. -/
def Skeleton.itemChars : List Skeleton → List (List Char)
  | [] => []
  | s :: rest => s.chars :: Skeleton.itemChars rest

/-- The skeletons of a list of fields as written. -/
def Skeleton.fieldChars : List (String × Skeleton) → List (List Char)
  | [] => []
  | (name, s) :: rest => assigned name s.chars :: Skeleton.fieldChars rest

end

/-- A field with a skeleton as written. -/
def entryChars (entry : String × Skeleton) : List Char := assigned entry.1 entry.2.chars

theorem Skeleton.chars_document (fields : List (String × Skeleton)) :
    (Skeleton.document fields).chars
      = '(' :: (commaSeparated (fields.map entryChars) ++ [')']) := by
  have h : Skeleton.fieldChars fields = fields.map entryChars := by
    induction fields with
    | nil => rfl
    | cons entry rest ih => rw [Skeleton.fieldChars, List.map_cons, ih, entryChars]
  rw [Skeleton.chars, h]

theorem Skeleton.chars_list (items : List Skeleton) :
    (Skeleton.list items).chars = '[' :: (commaSeparated (items.map Skeleton.chars) ++ [']']) := by
  have h : Skeleton.itemChars items = items.map Skeleton.chars := by
    induction items with
    | nil => rfl
    | cons s rest ih => rw [Skeleton.itemChars, List.map_cons, ih]
  rw [Skeleton.chars, h]

/-! ### Literals and their skeletons -/

theorem assignmentChars_eq_entryChars {entry : String × Value} {text : List Char}
    (hv : ∀ t, entry.2.literalChars .backslash = .ok t → t = entry.2.skeleton.chars)
    (h : assignmentChars entry.1 (entry.2.literalChars .backslash) = .ok text) :
    text = entryChars (entrySkeleton entry) := by
  obtain ⟨-, t, ht, rfl⟩ := assignmentChars_eq_ok_iff.1 h
  rw [hv t ht]
  rfl

/-- **A literal is its skeleton as written.** -/
theorem Value.literalChars_eq_chars_skeleton (v : Value) {text : List Char}
    (h : v.literalChars .backslash = .ok text) : text = v.skeleton.chars := by
  induction v generalizing text with
  | null => exact (Except.ok.inj h).symm
  | bool b => cases b <;> exact (Except.ok.inj h).symm
  | integer n => exact (Except.ok.inj h).symm
  | unsigned n => exact (Except.ok.inj h).symm
  | float x =>
      rw [Value.literalChars] at h
      split at h
      · exact (Except.ok.inj h).symm
      · cases h
  | string s => exact (Except.ok.inj h).symm
  | link id => exact (Except.ok.inj h).symm
  | document className rid fields ih =>
      obtain ⟨texts, htexts, htext⟩ := Outcome.bind_eq_ok_iff.1 h
      rw [Value.assignments_eq_mapM] at htexts
      have hmap : texts = fields.map fun entry => entryChars (entrySkeleton entry) :=
        Outcome.eq_map_of_mapM_eq_ok htexts fun entry he _ =>
          assignmentChars_eq_entryChars fun _ => ih entry he
      cases htext
      rw [Value.skeleton_document, Skeleton.chars_document, List.map_map, hmap]
      rfl
  | list items ih =>
      obtain ⟨texts, htexts, htext⟩ := Outcome.bind_eq_ok_iff.1 h
      rw [Value.literals_eq_mapM] at htexts
      have hmap : texts = items.map fun v => v.skeleton.chars :=
        Outcome.eq_map_of_mapM_eq_ok htexts fun v hv _ => ih v hv
      cases htext
      rw [Value.skeleton_list, Skeleton.chars_list, List.map_map, hmap]
      rfl

theorem literals_eq_ok {items : List Value} {texts : List (List Char)}
    (h : Value.literals .backslash items = .ok texts) :
    texts = items.map (fun v => v.skeleton.chars) ∧
      ∀ v ∈ items, v.literalChars .backslash = .ok v.skeleton.chars := by
  rw [Value.literals_eq_mapM] at h
  have hwrite : ∀ v ∈ items, ∀ t, v.literalChars .backslash = .ok t → t = v.skeleton.chars :=
    fun v _ _ => v.literalChars_eq_chars_skeleton
  exact ⟨Outcome.eq_map_of_mapM_eq_ok h hwrite, fun v => Outcome.eq_ok_of_mapM_eq_ok h hwrite⟩

theorem assignments_eq_ok {fields : List (String × Value)} {texts : List (List Char)}
    (h : Value.assignments .backslash fields = .ok texts) :
    texts = fields.map (fun entry => entryChars (entrySkeleton entry)) ∧
      ∀ entry ∈ fields, entry.1 ≠ "" ∧
        entry.2.literalChars .backslash = .ok entry.2.skeleton.chars := by
  rw [Value.assignments_eq_mapM] at h
  constructor
  · exact Outcome.eq_map_of_mapM_eq_ok h fun entry _ _ =>
      assignmentChars_eq_entryChars fun _ => entry.2.literalChars_eq_chars_skeleton
  · intro entry he
    obtain ⟨text, htext⟩ := Outcome.exists_of_mapM_eq_ok h he
    obtain ⟨hne, t, ht, -⟩ := assignmentChars_eq_ok_iff.1 htext
    obtain rfl := entry.2.literalChars_eq_chars_skeleton ht
    exact ⟨hne, ht⟩

/-! ### Names -/

mutual

/-- The names of all fields of a value, at any depth. -/
def Value.names : Value → List String
  | .null | .bool _ | .integer _ | .unsigned _ | .float _ | .string _ | .link _ => []
  | .document ⟨_, _, fields⟩ => Value.fieldNames fields
  | .list items => Value.itemNames items

/-- The names of all fields of the values of a list. -/
def Value.itemNames : List Value → List String
  | [] => []
  | v :: rest => v.names ++ Value.itemNames rest

/-- The names in a list of fields, those of their values included. -/
def Value.fieldNames : List (String × Value) → List String
  | [] => []
  | (name, v) :: rest => name :: (v.names ++ Value.fieldNames rest)

end

/-- The name of a field, and the names of all fields of its value. -/
def entryNames (entry : String × Value) : List String := entry.1 :: entry.2.names

theorem Value.names_document (className : Option String) (rid : Option RecordId)
    (fields : List (String × Value)) :
    (Value.document ⟨className, rid, fields⟩).names = fields.flatMap entryNames := by
  rw [Value.names]
  induction fields with
  | nil => rfl
  | cons entry rest ih =>
      rw [Value.fieldNames, List.flatMap_cons, ih, entryNames, List.cons_append]

theorem Value.names_list (items : List Value) :
    (Value.list items).names = items.flatMap Value.names := by
  rw [Value.names]
  induction items with
  | nil => rfl
  | cons v rest ih => rw [Value.itemNames, List.flatMap_cons, ih]

end UpdateSql
