/-
**Values and documents that can be built.**

A value is built from the ground up: from null, numbers, strings and links, by putting values into
lists, by the steps that make a document, and by converting JSON.  In a document that steps lead to
every value was set by one of them or comes from JSON, and the names are distinct; so in whatever
can be built the names of each document are distinct at every depth.

Main definitions:

* `Value.Built`, `Document.Built` — what can be built.

Main results:

* `Document.set_or_converted_of_mem_fields` — where the values in a document come from;
* `Value.Built.distinct` — **whatever is built has distinct field names at every depth**.
-/

import UpdateSql.Proofs.Document.History
import UpdateSql.Proofs.Json.Induction
import UpdateSql.Proofs.Value.Parts

set_option relaxedAutoImplicit false
set_option autoImplicit false

namespace UpdateSql

open Document (Step ofSteps history memberSteps memberStep record lastSet since follows_ofSteps)

/-! ### Values that can be built -/

/-- A value that can be built. -/
inductive Value.Built : Value → Prop
  | null : Built .null
  | bool (b : Bool) : Built (.bool b)
  | integer (n : Int64) : Built (.integer n)
  | unsigned (n : UInt64) : Built (.unsigned n)
  | float (x : Float) : Built (.float x)
  | string (s : String) : Built (.string s)
  | link (id : RecordId) : Built (.link id)
  | list {items : List Value} (h : ∀ v ∈ items, Built v) : Built (.list items)
  /-- The values that the steps set are to be built before. -/
  | document {steps : List Step} (h : ∀ s ∈ steps, ∀ name v, s.value? name = some v → Built v) :
      Built (.document (ofSteps steps))
  | ofJson (j : Json) : Built (.ofJson j)

/-- A document that can be built: steps lead to it, and the values that they set can be built. -/
def Document.Built (d : Document) : Prop :=
  ∃ steps : List Step, (∀ s ∈ steps, ∀ name v, s.value? name = some v → v.Built) ∧
    ofSteps steps = d

theorem Document.Built.value {d : Document} (h : d.Built) : (Value.document d).Built := by
  obtain ⟨steps, hsteps, rfl⟩ := h
  exact .document hsteps

/-! ### Where the values in a document come from -/

namespace Document

/-- A step sets a name only to the value that it carries. -/
theorem Step.eq_set_of_value? {s : Step} {name : String} {v : Value}
    (h : s.value? name = some v) : s = .set name v := by
  cases s with
  | set n w =>
      rw [Step.value?] at h
      split at h
      · next hn => rw [hn, Option.some.inj h]
      · cases h
  | _ => cases h

theorem exists_value?_of_lastSet {past : List Step} {name : String} {v : Value}
    (h : lastSet name past = some v) : ∃ s ∈ past, s.value? name = some v := by
  obtain ⟨s, hs, hv⟩ := List.mem_filterMap.1 (List.mem_of_getLast? h)
  exact ⟨s, (List.rtakeWhile_suffix _ _).subset hs, hv⟩

/-- A step that counts was taken, or it stands for a member of a JSON object. -/
theorem mem_history {steps : List Step} {s : Step} (h : s ∈ history steps) :
    s ∈ steps ∨ ∃ j, s ∈ memberSteps j := by
  induction steps using List.reverseRecOn with
  | nil => cases h
  | append_singleton steps last ih =>
      have hkeep : s ∈ history steps → s ∈ steps ++ [last] ∨ ∃ j, s ∈ memberSteps j :=
        fun hs => (ih hs).imp_left (List.mem_append_left [last])
      have hsnoc : s ∈ history steps ++ [last] → s ∈ steps ++ [last] ∨ ∃ j, s ∈ memberSteps j := by
        intro hs
        rcases List.mem_append.1 hs with hs | hs
        · exact hkeep hs
        · exact .inl (List.mem_append_right steps hs)
      rw [history, List.foldl_concat] at h
      cases last with
      | ofJson j =>
          rw [record] at h
          split at h
          · exact .inr ⟨j, h⟩
          · exact hkeep h
      | _ => exact hsnoc h

/-- A member of a JSON object sets a name to the value of JSON. -/
theorem exists_ofJson_of_mem_memberSteps {j : Json} {s : Step} {name : String} {v : Value}
    (h : s ∈ memberSteps j) (hv : s.value? name = some v) : ∃ j', v = .ofJson j' := by
  obtain rfl := Step.eq_set_of_value? hv
  cases j with
  | object members =>
      obtain ⟨member, -, hmember⟩ := List.mem_filterMap.1 h
      rw [memberStep] at hmember
      split at hmember
      · split at hmember <;> cases hmember
      · split at hmember
        · split at hmember
          · obtain ⟨id, -, hid⟩ := Option.map_eq_some_iff.1 hmember
            cases hid
          · cases hmember
        · cases hmember
          exact ⟨member.2, rfl⟩
  | _ => cases h

/-- **A value in a document was set by a step, or comes from JSON.** -/
theorem set_or_converted_of_mem_fields {steps : List Step} {entry : String × Value}
    (h : entry ∈ (ofSteps steps).fields) :
    (∃ s ∈ steps, s.value? entry.1 = some entry.2) ∨ ∃ j, entry.2 = .ofJson j := by
  have hd := follows_ofSteps steps
  have hget : (ofSteps steps).get? entry.1 = some entry.2 :=
    (Fields.mem_iff_lookup_eq_some hd.nodup).1 h
  obtain ⟨s, hs, hv⟩ := exists_value?_of_lastSet (hd.values entry.1 ▸ hget)
  rcases mem_history hs with hs | ⟨j, hs⟩
  · exact .inl ⟨s, hs, hv⟩
  · exact .inr (exists_ofJson_of_mem_memberSteps hs hv)

end Document

/-! ### Distinct names -/

namespace Value

/-- Values of JSON have distinct field names, whatever the members of the objects. -/
theorem distinct_ofJson (j : Json) : (ofJson j).Distinct := by
  induction j with
  | null | bool b | string s => exact distinct_of_isAtom trivial
  | number n =>
      rw [ofJson, ofJsonNumber]
      split
      · exact distinct_of_isAtom trivial
      · split
        · exact distinct_of_isAtom trivial
        · exact distinct_float _
  | array items ih =>
      rw [ofJson, ofJsonItems_eq_map, distinct_list_iff]
      intro v hv
      obtain ⟨j, hj, rfl⟩ := List.mem_map.1 hv
      exact ih j hj
  | object members ih =>
      rw [ofJson, ofJsonMembers_eq_map, distinct_document_iff]
      refine ⟨Fields.nodup_ofPairs _, fun entry he => ?_⟩
      obtain ⟨member, hmember, rfl⟩ := List.mem_map.1 (Fields.mem_of_mem_ofPairs he)
      exact ih member hmember

/-- **Whatever is built has distinct field names at every depth.** -/
theorem Built.distinct {v : Value} (h : v.Built) : v.Distinct := by
  induction h with
  | float x => exact distinct_float x
  | list _ ih => exact distinct_list_iff.2 ih
  | @document steps _ ih =>
      refine distinct_document_iff.2 ⟨(follows_ofSteps steps).nodup, fun entry he => ?_⟩
      rcases Document.set_or_converted_of_mem_fields he with ⟨s, hs, hv⟩ | ⟨j, hj⟩
      · exact ih s hs entry.1 entry.2 hv
      · exact hj ▸ distinct_ofJson j
  | ofJson j => exact distinct_ofJson j
  | _ => exact distinct_of_isAtom trivial

end Value

theorem Document.Built.distinct {d : Document} (h : d.Built) : d.Distinct :=
  h.value.distinct

end UpdateSql
