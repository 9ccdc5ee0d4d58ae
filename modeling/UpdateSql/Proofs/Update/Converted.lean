/-
**Writing what comes from JSON.**

In a value of JSON there is no float that is infinite or no number, so of the two things that keep a
value from being written only one is left: a field without a name, which is a member with the empty
key.  A document read from a JSON object has the members of the object as fields, but for two that
hold a string, so the same decides whether an update with the document can be built.

Main results:

* `Value.result_iff_of_reports` — without infinite floats and NaNs only an empty name is at fault;
* `Document.mem_fields_iff`, `Document.hasName_empty_iff` — the fields of a document are the members
  of the object that are not reserved, and an empty name in it is an empty key in the object;
* `Update.faults_attach` — the faults of an update with a document alone are those of the document;
* `Update.writing_fails_at_empty_keys` — **what comes from JSON can be written exactly if there is
  no empty key**.
-/

import UpdateSql.Proofs.Update.Faults
import UpdateSql.Proofs.Value.Offenders
import UpdateSql.Proofs.Value.OfJson

set_option relaxedAutoImplicit false
set_option autoImplicit false

namespace UpdateSql

/-! ### Values -/

namespace Value

theorem not_hasNonFinite_ofJson (j : Json) : ¬ (ofJson j).HasNonFinite := by
  rintro ⟨x, hx, hpart⟩
  have hfinite : x.isFinite = true := isConverted_of_part_ofJson hpart
  rw [hfinite] at hx
  cases hx

/-- Without an infinite float and a NaN the only fault is an empty name. -/
theorem eq_emptyName_of_mem_faults {v : Value} (hv : ¬ v.HasNonFinite) {e : Error}
    (he : e ∈ v.faults) : e = .invalidIdentifier "field name cannot be empty" := by
  rw [faults_eq_filterMap, List.mem_filterMap] at he
  obtain ⟨m, hm, hfault⟩ := he
  cases Encounter.fault?_eq_some_iff.1 hfault with
  | emptyName => rfl
  | nonFinite hx => exact absurd ⟨_, hx, float_mem_encounters_iff.1 hm⟩ hv

/-- What reports the faults of such a value has a result exactly if there is no empty name, and
otherwise the error is that of an empty name. -/
theorem result_iff_of_reports {α : Type} {x : Except Error α} {v : Value}
    (hx : Outcome.Reports x v.faults) (hv : ¬ v.HasNonFinite) :
    ((∃ a, x = .ok a) ↔ ¬ v.HasName "") ∧
      ∀ e, x = .error e → e = .invalidIdentifier "field name cannot be empty" := by
  have hfaults : v.faults ≠ [] ↔ v.HasName "" := by rw [faults_ne_nil_iff, or_iff_right hv]
  refine ⟨?_, fun e he => ?_⟩
  · rw [hx.exists_ok_iff, ← hfaults, not_not]
  · exact eq_emptyName_of_mem_faults hv (List.mem_of_head? ((hx e).1 he))

end Value

/-! ### Documents -/

namespace Document

section

variable {members : List (String × Json)} {d : Document}

/-- What is taken as class name or record id is a string. -/
theorem exists_string_of_isReserved (h : Document.ofJson (.object members) = .ok d)
    {m : String × Json} (hm : m ∈ members) (hreserved : isReserved m.1 = true) :
    ∃ s, m.2 = .string s := by
  obtain ⟨before, after, rfl⟩ := List.append_of_mem hm
  rw [Document.ofJson, addMembers_append] at h
  obtain ⟨d₁, -, h⟩ := Outcome.bind_eq_ok_iff.1 h
  obtain ⟨d₂, htaken, -⟩ := Outcome.bind_eq_ok_iff.1 h
  rcases addMember_eq_ok_iff.1 htaken with ⟨-, s, hs, -⟩ | ⟨-, s, id, hs, -⟩ | ⟨hname, -⟩
  · exact ⟨s, hs⟩
  · exact ⟨s, hs⟩
  · rw [hname] at hreserved
    cases hreserved

/-- The fields of a document are the members of the object that are not reserved. -/
theorem mem_fields_iff (h : Document.ofJson (.object members) = .ok d)
    (hnodup : (members.map Prod.fst).Nodup) {entry : String × Value} : entry ∈ d.fields ↔
      ∃ m ∈ members, isReserved m.1 = false ∧ (m.1, Value.ofJson m.2) = entry := by
  have hfields : d.fields = ordinary (Fields.ofPairs (Value.ofJsonMembers members)) :=
    fields_addMembers h rfl
  have hnames : ((Value.ofJsonMembers members).map Prod.fst).Nodup := by
    rwa [Value.ofJsonMembers_eq_map, List.map_map]
  rw [hfields, Fields.ofPairs_of_nodup hnames, Value.ofJsonMembers_eq_map, ordinary,
    List.mem_filter, List.mem_map, Bool.not_eq_true']
  constructor
  · rintro ⟨⟨m, hm, rfl⟩, hname⟩
    exact ⟨m, hm, hname, rfl⟩
  · rintro ⟨m, hm, hname, rfl⟩
    exact ⟨⟨m, hm, rfl⟩, hname⟩

theorem not_hasNonFinite_of_ofJson (h : Document.ofJson (.object members) = .ok d)
    (hnodup : (members.map Prod.fst).Nodup) : ¬ (Value.document d).HasNonFinite := by
  rintro ⟨x, hx, hpart⟩
  rcases Value.part_document_iff.1 hpart with hpart | ⟨entry, he, hpart⟩
  · cases hpart
  · obtain ⟨m, -, -, rfl⟩ := (mem_fields_iff h hnodup).1 he
    exact Value.not_hasNonFinite_ofJson m.2 ⟨x, hx, hpart⟩

/-- There is a field without a name in a document exactly if there is an empty key in the object. -/
theorem hasName_empty_iff (h : Document.ofJson (.object members) = .ok d)
    (hdistinct : (Json.object members).Distinct) :
    (Value.document d).HasName "" ↔ (Json.object members).HasKey "" := by
  obtain ⟨hnodup, hvalues⟩ := Json.distinct_object_iff.1 hdistinct
  rw [Value.hasName_document_iff, Json.hasKey_object_iff, names, List.mem_map, List.mem_map]
  constructor
  · rintro (⟨entry, he, hname⟩ | ⟨entry, he, hname⟩)
    · obtain ⟨m, hm, -, rfl⟩ := (mem_fields_iff h hnodup).1 he
      exact .inl ⟨m, hm, hname⟩
    · obtain ⟨m, hm, -, rfl⟩ := (mem_fields_iff h hnodup).1 he
      exact .inr ⟨m, hm, (Value.hasName_ofJson_iff (hvalues m hm)).1 hname⟩
  · rintro (⟨m, hm, hname⟩ | ⟨m, hm, hkey⟩)
    · have hreserved : isReserved m.1 = false := by
        rw [hname]
        rfl
      exact .inl ⟨_, (mem_fields_iff h hnodup).2 ⟨m, hm, hreserved, rfl⟩, hname⟩
    · cases hreserved : isReserved m.1 with
      | true =>
          -- a string has no keys in it
          obtain ⟨s, hs⟩ := exists_string_of_isReserved h hm hreserved
          rw [hs] at hkey
          exact absurd hkey (Json.not_hasKey_of_isAtom (j := .string s) trivial "")
      | false =>
          exact .inr ⟨_, (mem_fields_iff h hnodup).2 ⟨m, hm, hreserved, rfl⟩,
            (Value.hasName_ofJson_iff (hvalues m hm)).2 hkey⟩

end

end Document

/-! ### Updates -/

namespace Update

/-- The faults of an update with a document alone, which stands for a target, are those of the
document. -/
theorem faults_attach {d : Document}
    (h : d.rid ≠ none ∨ ∃ name, name ≠ "" ∧ d.className = some name) :
    (Update.empty.attach d).faults = (Value.document d).faults := by
  obtain ⟨className, rid, fields⟩ := d
  have htarget : (Update.empty.attach ⟨className, rid, fields⟩).targetFaults = [] := by
    cases rid with
    | some id => rfl
    | none =>
        rcases h with h | ⟨name, hname, rfl⟩
        · exact absurd rfl h
        · exact if_neg (mt String.isEmpty_iff.1 hname)
  have hset : (Update.empty.attach ⟨className, rid, fields⟩).setFaults
      = fields.flatMap entryFaults := List.append_nil _
  rw [faults, htarget, hset, Value.faults, Value.fieldFaults_eq_flatMap]
  exact List.append_nil _

/-- **What comes from JSON can be written exactly if there is no empty key in it**, and otherwise
the error is that of an empty name.  This holds of values, and of documents that stand for the
target of the update that they are attached to. -/
theorem writing_fails_at_empty_keys :
    (∀ (j : Json) (config : RenderConfig), j.Distinct →
      ((∃ text, (Value.ofJson j).literal config.quoteMode = .ok text) ↔ ¬ j.HasKey "") ∧
      ∀ e, (Value.ofJson j).literal config.quoteMode = .error e →
        e = .invalidIdentifier "field name cannot be empty") ∧
    ∀ (members : List (String × Json)) (d : Document) (config : RenderConfig),
      (Json.object members).Distinct → Document.ofJson (.object members) = .ok d →
      (d.rid ≠ none ∨ ∃ name, name ≠ "" ∧ d.className = some name) →
      ((∃ text, (Update.empty.attach d).build config = .ok text) ↔
        ¬ (Json.object members).HasKey "") ∧
      ∀ e, (Update.empty.attach d).build config = .error e →
        e = .invalidIdentifier "field name cannot be empty" := by
  constructor
  · intro j config h
    rw [← Value.hasName_ofJson_iff h]
    exact Value.result_iff_of_reports ((Value.ofJson j).reports_literal config.quoteMode)
      (Value.not_hasNonFinite_ofJson j)
  · intro members d config hdistinct h htarget
    have hnodup := (Json.distinct_object_iff.1 hdistinct).1
    have hreports := (Update.empty.attach d).reports_build config
    rw [faults_attach htarget] at hreports
    rw [← Document.hasName_empty_iff h hdistinct]
    exact Value.result_iff_of_reports hreports (Document.not_hasNonFinite_of_ofJson h hnodup)

/-- A value with an empty key in it, and an object without one that has a class name. -/
theorem written_without_empty_keys :
    (Value.ofJson (.array [.object [("", .null)]])).literal .verbatim
        = .error (.invalidIdentifier "field name cannot be empty") ∧
      ∃ d, Document.ofJson (.object [(Document.classKey, .string "C"), ("a", .object [])]) = .ok d ∧
        ∃ text, (Update.empty.attach d).build .default = .ok text := by
  obtain ⟨hvalues, hdocuments⟩ := writing_fails_at_empty_keys
  constructor
  · have hdistinct : (Json.array [.object [("", .null)]]).Distinct := by
      simp only [Json.distinct_array_iff, Json.distinct_object_iff, List.forall_mem_singleton]
      exact ⟨by decide, Json.distinct_of_isAtom trivial⟩
    have hkey : (Json.array [.object [("", .null)]]).HasKey "" :=
      Json.hasKey_array_iff.2
        ⟨_, List.mem_singleton_self _, Json.hasKey_object_iff.2 (.inl (List.mem_singleton_self ""))⟩
    obtain ⟨hiff, herror⟩ := hvalues _ .default hdistinct
    rcases hliteral : (Value.ofJson (.array [.object [("", .null)]])).literal .verbatim
      with e | text
    · rw [herror e hliteral]
    · exact absurd hkey (hiff.1 ⟨text, hliteral⟩)
  · have hdistinct :
        (Json.object [(Document.classKey, .string "C"), ("a", .object [])]).Distinct := by
      simp only [Json.distinct_object_iff, List.forall_mem_cons]
      exact ⟨by decide, Json.distinct_of_isAtom trivial, by simp, by simp⟩
    have hkey :
        ¬ (Json.object [(Document.classKey, .string "C"), ("a", .object [])]).HasKey "" := by
      have hstring : ¬ (Json.string "C").HasKey "" :=
        Json.not_hasKey_of_isAtom (j := .string "C") trivial ""
      simp only [Json.hasKey_object_iff, List.exists_mem_cons_iff, hstring]
      simp [Document.classKey]
    exact ⟨_, rfl, (hdocuments _ ⟨some "C", none, [("a", .document {})]⟩ .default hdistinct rfl
      (.inr ⟨"C", by decide, rfl⟩)).1.2 hkey⟩

end Update

end UpdateSql
