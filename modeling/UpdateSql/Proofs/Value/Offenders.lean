/-
**What keeps a value from being written.**

Only two things in a value have no literal: a float that is infinite or no number, and a field
without a name.  Reading a value from its first part to its last, one meets all its floats and all
its field names, a name before the value behind it; writing fails at the first one that offends.
Neither the options nor the class names and record ids of documents, which are not written, can make
a difference to that.

Main definitions:

* `Value.Encounter`, `Value.encounters` — the floats and the field names of a value, in the order in
  which they are met;
* `Value.Encounter.Offends` — one that cannot be written, and the error for it;
* `Value.unlabelled` — a value without the class names and record ids of the documents in it.

Main results:

* `Value.faults_eq_filterMap` — the faults of a value are those of what is met in it;
* `Value.literalChars_unlabelled` — class names and record ids make no difference to a literal;
* `Value.literal_fails_at_first_offender` — **when writing a value fails, and with which error**.
-/

import Mathlib.Data.List.Basic
import UpdateSql.Config
import UpdateSql.Proofs.Value.Faults
import UpdateSql.Proofs.Value.Parts

set_option relaxedAutoImplicit false
set_option autoImplicit false

namespace UpdateSql.Value

/-! ### Reading a value -/

/-- What is met in a value and might not be written. -/
inductive Encounter where
  | name (name : String)
  | float (x : Float)

mutual

/-- What is met in reading a value. -/
def encounters : Value → List Encounter
  | .null | .bool _ | .integer _ | .unsigned _ | .string _ | .link _ => []
  | .float x => [.float x]
  | .document ⟨_, _, fields⟩ => fieldEncounters fields
  | .list items => itemEncounters items

/-- What is met in reading the values of a list. -/
def itemEncounters : List Value → List Encounter
  | [] => []
  | v :: rest => v.encounters ++ itemEncounters rest

/-- What is met in reading a list of fields, of each its name before its value. -/
def fieldEncounters : List (String × Value) → List Encounter
  | [] => []
  | (name, v) :: rest => .name name :: (v.encounters ++ fieldEncounters rest)

end

theorem encounters_list (items : List Value) :
    (Value.list items).encounters = items.flatMap encounters := by
  rw [encounters]
  induction items with
  | nil => rfl
  | cons v rest ih => rw [itemEncounters, List.flatMap_cons, ih]

theorem encounters_document (d : Document) : (Value.document d).encounters
    = d.fields.flatMap fun entry => .name entry.1 :: entry.2.encounters := by
  obtain ⟨className, rid, fields⟩ := d
  rw [encounters]
  induction fields with
  | nil => rfl
  | cons entry rest ih => rw [fieldEncounters, List.flatMap_cons, ih, List.cons_append]

/-! ### What is met is what is there -/

theorem encounters_of_isAtom {v : Value} (hv : v.IsAtom) : v.encounters = [] := by
  cases v with
  | float x | document d | list items => cases hv
  | _ => rfl

/-- The floats that are met are the ones that are parts of the value. -/
theorem float_mem_encounters_iff {v : Value} {x : Float} :
    .float x ∈ v.encounters ↔ (Value.float x).Part v := by
  induction v using part_induction with
  | atom v hv =>
      rw [encounters_of_isAtom hv, part_atom_iff hv]
      refine iff_of_false List.not_mem_nil ?_
      rintro rfl
      exact hv
  | float y =>
      rw [encounters, List.mem_singleton, Encounter.float.injEq]
      constructor
      · rintro rfl
        exact .self
      · rintro ⟨⟩
        rfl
  | document d ih =>
      rw [encounters_document, part_document_iff, List.mem_flatMap]
      simp only [List.mem_cons, reduceCtorEq, false_or]
      exact exists_congr fun entry => and_congr_right fun he => ih entry he
  | list items ih =>
      rw [encounters_list, part_list_iff, List.mem_flatMap]
      simp only [reduceCtorEq, false_or]
      exact exists_congr fun v => and_congr_right fun hv => ih v hv

/-- The names that are met are the ones of the fields of documents in the value. -/
theorem name_mem_encounters_iff {v : Value} {name : String} :
    .name name ∈ v.encounters ↔ v.HasName name := by
  induction v using part_induction with
  | atom v hv =>
      rw [encounters_of_isAtom hv]
      exact iff_of_false List.not_mem_nil (not_hasName_of_isAtom hv)
  | float x =>
      refine iff_of_false ?_ (not_hasName_float x name)
      rw [encounters, List.mem_singleton]
      rintro ⟨⟩
  | document d ih =>
      rw [encounters_document, hasName_document_iff, List.mem_flatMap, Document.names,
        List.mem_map, ← exists_or]
      refine exists_congr fun entry => ?_
      rw [List.mem_cons, Encounter.name.injEq, ← and_or_left]
      refine and_congr_right fun he => ?_
      rw [ih entry he, eq_comm]
  | list items ih =>
      rw [encounters_list, hasName_list_iff, List.mem_flatMap]
      exact exists_congr fun v => and_congr_right fun hv => ih v hv

/-! ### What offends -/

/-- What is met cannot be written, and the error for it. -/
inductive Encounter.Offends : Encounter → Error → Prop
  | emptyName : Offends (.name "") (.invalidIdentifier "field name cannot be empty")
  | nonFinite {x : Float} (h : x.isFinite = false) :
      Offends (.float x) (.unsupportedValueKind
        ("non-finite float " ++ FloatText.text x ++ " has no literal form"))

/-- The error for what is met, if it cannot be written. -/
def Encounter.fault? : Encounter → Option Error
  | .name n => if n.isEmpty then some (.emptyName .field) else none
  | .float x => if x.isFinite then none else some (.nonFiniteFloat x)

theorem Encounter.fault?_eq_some_iff {m : Encounter} {e : Error} :
    m.fault? = some e ↔ m.Offends e := by
  constructor
  · intro h
    cases m with
    | name n =>
        rw [fault?] at h
        split at h
        · next hname =>
            obtain rfl := String.isEmpty_iff.1 hname
            cases h
            exact .emptyName
        · cases h
    | float x =>
        rw [fault?] at h
        split at h
        · cases h
        · next hx =>
            cases h
            exact .nonFinite (eq_false_of_ne_true hx)
  · intro h
    cases h with
    | emptyName => rfl
    | nonFinite h => rw [fault?, h]; rfl

/-- The faults of a value are those of what is met in it. -/
theorem faults_eq_filterMap (v : Value) : v.faults = v.encounters.filterMap Encounter.fault? := by
  induction v using part_induction with
  | atom v hv =>
      rw [encounters_of_isAtom hv]
      cases v with
      | float x | document d | list items => cases hv
      | _ => rfl
  | float x =>
      rw [encounters, faults]
      cases hx : x.isFinite <;> simp [Encounter.fault?, hx]
  | document d ih =>
      obtain ⟨className, rid, fields⟩ := d
      have hentry : ∀ entry ∈ fields, entryFaults entry
          = (Encounter.name entry.1 :: entry.2.encounters).filterMap Encounter.fault? := by
        intro entry he
        rw [entryFaults, ih entry he, nameFaults]
        cases hname : entry.1.isEmpty <;> simp [Encounter.fault?, hname]
      rw [faults, fieldFaults_eq_flatMap, encounters_document, List.filterMap_flatMap]
      exact List.flatMap_congr hentry
  | list items ih =>
      rw [faults, itemFaults_eq_flatMap, encounters_list, List.filterMap_flatMap]
      exact List.flatMap_congr ih

/-- **A value has faults exactly if there is an infinite float, a NaN or a field without a name in
it.** -/
theorem faults_ne_nil_iff {v : Value} : v.faults ≠ [] ↔ v.HasNonFinite ∨ v.HasName "" := by
  have hmem : v.faults ≠ [] ↔ ∃ m ∈ v.encounters, ∃ e, m.Offends e := by
    rw [faults_eq_filterMap, ne_eq, List.filterMap_eq_nil_iff]
    simp only [Option.eq_none_iff_forall_ne_some, ne_eq, Encounter.fault?_eq_some_iff, not_forall,
      not_not, exists_prop]
  rw [hmem]
  constructor
  · rintro ⟨m, hm, e, hoffends⟩
    cases hoffends with
    | emptyName => exact .inr (name_mem_encounters_iff.1 hm)
    | nonFinite hx => exact .inl ⟨_, hx, float_mem_encounters_iff.1 hm⟩
  · rintro (⟨x, hx, hpart⟩ | hname)
    · exact ⟨.float x, float_mem_encounters_iff.2 hpart, _, .nonFinite hx⟩
    · exact ⟨.name "", name_mem_encounters_iff.2 hname, _, .emptyName⟩

/-- **The first that offends is reported.** -/
theorem head?_faults_eq_some_iff {v : Value} {e : Error} :
    v.faults.head? = some e ↔ ∃ before m after, v.encounters = before ++ m :: after ∧
      (∀ b ∈ before, ∀ e', ¬ b.Offends e') ∧ m.Offends e := by
  have hnone : ∀ m : Encounter, m.fault? = none ↔ ∀ e', ¬ m.Offends e' := fun m => by
    simp only [Option.eq_none_iff_forall_ne_some, ne_eq, Encounter.fault?_eq_some_iff]
  rw [faults_eq_filterMap, List.head?_filterMap, List.findSome?_eq_some_iff]
  simp only [Encounter.fault?_eq_some_iff, hnone, and_comm]

/-! ### Class names and record ids -/

mutual

/-- A value without the class names and the record ids of the documents in it. -/
def unlabelled : Value → Value
  | .document ⟨_, _, fields⟩ => .document { fields := unlabelledFields fields }
  | .list items => .list (unlabelledItems items)
  | v => v

/-- The values of a list without class names and record ids. -/
def unlabelledItems : List Value → List Value
  | [] => []
  | v :: rest => v.unlabelled :: unlabelledItems rest

/-- A list of fields without the class names and record ids in their values. -/
def unlabelledFields : List (String × Value) → List (String × Value)
  | [] => []
  | (name, v) :: rest => (name, v.unlabelled) :: unlabelledFields rest

end

theorem unlabelled_of_isAtom {v : Value} (hv : v.IsAtom) : v.unlabelled = v := by
  cases v with
  | float x | document d | list items => cases hv
  | _ => rfl

theorem unlabelled_document (d : Document) : (Value.document d).unlabelled
    = .document ⟨none, none, d.fields.map fun entry => (entry.1, entry.2.unlabelled)⟩ := by
  obtain ⟨className, rid, fields⟩ := d
  have h : unlabelledFields fields = fields.map fun entry => (entry.1, entry.2.unlabelled) := by
    induction fields with
    | nil => rfl
    | cons entry rest ih => rw [unlabelledFields, List.map_cons, ih]
  rw [unlabelled, h]

theorem unlabelled_list (items : List Value) :
    (Value.list items).unlabelled = .list (items.map unlabelled) := by
  have h : unlabelledItems items = items.map unlabelled := by
    induction items with
    | nil => rfl
    | cons v rest ih => rw [unlabelledItems, List.map_cons, ih]
  rw [unlabelled, h]

/-- **Class names and record ids make no difference to a literal.** -/
theorem literalChars_unlabelled (mode : QuoteMode) (v : Value) :
    v.unlabelled.literalChars mode = v.literalChars mode := by
  induction v using part_induction with
  | atom v hv => rw [unlabelled_of_isAtom hv]
  | float x => rfl
  | document d ih =>
      have hentry : ∀ entry ∈ d.fields,
          assignmentChars entry.1 (entry.2.unlabelled.literalChars mode)
            = assignmentChars entry.1 (entry.2.literalChars mode) :=
        fun entry he => by rw [ih entry he]
      have hfields :
          Value.assignments mode (d.fields.map fun entry => (entry.1, entry.2.unlabelled))
            = Value.assignments mode d.fields := by
        rw [assignments_eq_mapM, assignments_eq_mapM, List.mapM_map]
        exact Outcome.mapM_congr hentry
      obtain ⟨className, rid, fields⟩ := d
      rw [unlabelled_document, literalChars, literalChars, hfields]
  | list items ih =>
      have hitems : Value.literals mode (items.map unlabelled) = Value.literals mode items := by
        rw [literals_eq_mapM, literals_eq_mapM, List.mapM_map]
        exact Outcome.mapM_congr ih
      rw [unlabelled_list, literalChars, literalChars, hitems]

theorem literal_eq_of_unlabelled_eq {mode : QuoteMode} {v w : Value}
    (h : v.unlabelled = w.unlabelled) : v.literal mode = w.literal mode := by
  rw [literal, literal, ← literalChars_unlabelled, h, literalChars_unlabelled]

/-! ### When writing fails -/

/-- **When writing a value fails, and with which error.**  It fails exactly if there is, at any
depth, a float that is infinite or no number or a field without a name.  The error is that of the
first one that is met, where all floats and all field names are met, and none that are not there.
Success, failure and error are the same whatever the options, and for values that differ only in
class names and record ids. -/
theorem literal_fails_at_first_offender :
    (∀ (v : Value) (config : RenderConfig),
      (∃ e, v.literal config.quoteMode = .error e) ↔ v.HasNonFinite ∨ v.HasName "") ∧
    (∀ (v : Value) (config : RenderConfig) (e : Error), v.literal config.quoteMode = .error e ↔
      ∃ before m after, v.encounters = before ++ m :: after ∧
        (∀ b ∈ before, ∀ e', ¬ b.Offends e') ∧ m.Offends e) ∧
    (∀ (v : Value) (x : Float), .float x ∈ v.encounters ↔ (Value.float x).Part v) ∧
    (∀ (v : Value) (name : String), .name name ∈ v.encounters ↔ v.HasName name) ∧
    (∀ (v : Value) (config config' : RenderConfig),
      ((∃ text, v.literal config.quoteMode = .ok text) ↔
        ∃ text, v.literal config'.quoteMode = .ok text) ∧
      ∀ e, v.literal config.quoteMode = .error e ↔ v.literal config'.quoteMode = .error e) ∧
    ∀ v w : Value, v.unlabelled = w.unlabelled →
      ∀ config : RenderConfig, v.literal config.quoteMode = w.literal config.quoteMode := by
  refine ⟨fun v config => ?_, fun v config e => ?_, fun _ _ => float_mem_encounters_iff,
    fun _ _ => name_mem_encounters_iff, fun v config config' => ⟨?_, fun e => ?_⟩,
    fun v w h _ => literal_eq_of_unlabelled_eq h⟩
  · rw [(v.reports_literal config.quoteMode).exists_error_iff, faults_ne_nil_iff]
  · rw [v.reports_literal config.quoteMode e, head?_faults_eq_some_iff]
  · rw [(v.reports_literal config.quoteMode).exists_ok_iff,
      (v.reports_literal config'.quoteMode).exists_ok_iff]
  · rw [v.reports_literal config.quoteMode e, v.reports_literal config'.quoteMode e]

/-- A document in a list, with an infinite float before a field without a name; and the same with a
class name and a record id. -/
theorem literal_fails_in_labelled_document :
    (Value.list [.document ⟨none, none, [("a", .float (1 / 0)), ("", .null)]⟩]).literal .verbatim
        = .error (.unsupportedValueKind "non-finite float inf has no literal form") ∧
      (Value.list [.document ⟨some "C", some ⟨1, 2⟩, [("a", .float (1 / 0)), ("", .null)]⟩]).literal
        .verbatim = .error (.unsupportedValueKind "non-finite float inf has no literal form") := by
  obtain ⟨-, hfirst, -, -, -, hlabels⟩ := literal_fails_at_first_offender
  have hname : ∀ b ∈ [Encounter.name "a"], ∀ e, ¬ b.Offends e := by
    rw [List.forall_mem_singleton]
    intro e h
    rw [← Encounter.fault?_eq_some_iff] at h
    cases h
  have h := (hfirst (.list [.document ⟨none, none, [("a", .float (1 / 0)), ("", .null)]⟩]) .default
    _).2 ⟨[.name "a"], .float (1 / 0), [.name ""], rfl, hname, .nonFinite rfl⟩
  exact ⟨h, (hlabels _ (.list [.document ⟨none, none, [("a", .float (1 / 0)), ("", .null)]⟩]) rfl
    .default).trans h⟩

end UpdateSql.Value
