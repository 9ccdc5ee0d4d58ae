/-
**The value that is assigned last.**

Of two values for the same field, assigned at the end of the SET clause, the rest of the statement
does not depend.  So the statements differ exactly in the literal, unless a fault elsewhere keeps
them from being written: one before the value decides in any case, one after it if the value has
none of its own.

Main definitions:

* `Update.faultsBefore`, `Update.faultsAfter` — the faults found before and after that value.

Main results:

* `Update.exists_build_set` — **the rest of a statement does not depend on the value**;
* `Update.build_set_eq_iff` — **when two values give the same text or the same error**.
-/

import Mathlib
import UpdateSql.Proofs.Reading.Basic
import UpdateSql.Proofs.Update.Faults

set_option relaxedAutoImplicit false
set_option autoImplicit false

namespace UpdateSql

/-! ### One more entry -/

theorem exists_commaSeparated_snoc (items : List (List Char)) :
    ∃ before, ∀ item, commaSeparated (items ++ [item]) = before ++ item := by
  induction items with
  | nil => exact ⟨[], Reading.commaSeparated_singleton⟩
  | cons first items ih =>
      obtain ⟨before, hbefore⟩ := ih
      refine ⟨first ++ ([',', ' '] ++ before), fun item => ?_⟩
      have hne : items ++ [item] ≠ [] := by simp
      rw [List.cons_append, commaSeparated, List.intercalate_cons_of_ne_nil hne, ← commaSeparated,
        hbefore]
      simp

theorem exists_clauseChars_snoc (keyword : String) (entries : List (List Char)) :
    ∃ before, ∀ entry, clauseChars keyword (entries ++ [entry]) = before ++ entry := by
  obtain ⟨before, hbefore⟩ := exists_commaSeparated_snoc entries
  refine ⟨' ' :: (keyword.toList ++ (' ' :: before)), fun entry => ?_⟩
  have hclause : clauseChars keyword (entries ++ [entry])
      = ' ' :: (keyword.toList ++ (' ' :: commaSeparated (entries ++ [entry]))) := by
    cases entries <;> rfl
  rw [hclause, hbefore]
  simp

theorem assignments_snoc_eq_ok_iff {mode : QuoteMode} {entries : List (String × Value)}
    {field : String} {v : Value} {texts : List (List Char)} :
    Value.assignments mode (entries ++ [(field, v)]) = .ok texts ↔
      ∃ before literal, Value.assignments mode entries = .ok before ∧ field ≠ "" ∧
        v.literalChars mode = .ok literal ∧
        texts = before ++ [field.toList ++ ([' ', '=', ' '] ++ literal)] := by
  rw [Value.assignments_eq_mapM, Value.assignments_eq_mapM, List.mapM_append]
  simp only [Outcome.bind_eq_ok_iff, Outcome.mapM_cons_eq_ok_iff, assignmentChars_eq_ok_iff]
  constructor
  · rintro ⟨before, hbefore, last, ⟨_, _, ⟨hfield, literal, hliteral, rfl⟩, hnil, rfl⟩, h⟩
    cases hnil
    cases h
    exact ⟨before, literal, hbefore, hfield, hliteral, rfl⟩
  · rintro ⟨before, literal, hbefore, hfield, hliteral, rfl⟩
    exact ⟨before, hbefore, _, ⟨_, [], ⟨hfield, literal, hliteral, rfl⟩, rfl, rfl⟩, rfl⟩

namespace Update

variable {stage : Stage}

/-! ### The value that is assigned last -/

/-- The faults that are found before the value that is assigned to a field. -/
def faultsBefore (q : Update stage) (field : String) : List Error :=
  q.targetFaults ++ (q.setFaults ++ nameFaults .field field)

/-- The faults that are found after the SET clause. -/
def faultsAfter (q : Update stage) : List Error :=
  q.additions.flatMap entryFaults ++
    (q.removals.flatMap removalFaults ++ q.chain.conditions.flatMap Condition.faults)

theorem setEntries_set (q : Update stage) (field : String) (v : Value) :
    (q.set field v).setEntries = q.setEntries ++ [(field, v)] := by
  rw [setEntries, setEntries, List.append_assoc]
  rfl

theorem setFaults_set (q : Update stage) (field : String) (v : Value) :
    (q.set field v).setFaults = q.setFaults ++ (nameFaults .field field ++ v.faults) := by
  rw [← flatMap_entryFaults_setEntries, ← flatMap_entryFaults_setEntries, setEntries_set,
    List.flatMap_append, List.flatMap_singleton]
  rfl

theorem faults_set (q : Update stage) (field : String) (v : Value) :
    (q.set field v).faults = q.faultsBefore field ++ (v.faults ++ q.faultsAfter) := by
  rw [faults, setFaults_set, faultsBefore, faultsAfter]
  simp only [List.append_assoc]
  rfl

/-- **The rest of a statement does not depend on the value that is assigned last.** -/
theorem exists_build_set {q : Update stage} {field : String} (hbefore : q.faultsBefore field = [])
    (hafter : q.faultsAfter = []) (config : RenderConfig) :
    ∃ before after : List Char, ∀ v : Value, (q.set field v).build config
      = (v.literalChars config.quoteMode).map fun literal =>
          String.ofList (before ++ (literal ++ after)) := by
  have hfaults (v : Value) : (q.set field v).faults = v.faults := by
    rw [faults_set, hbefore, hafter, List.nil_append, List.append_nil]
  -- with null the statement is written, so all other parts of it are
  obtain ⟨text, htext⟩ : ∃ text, (q.set field Value.null).build config = .ok text :=
    ((q.set field Value.null).reports_build config).exists_ok_iff.2 (hfaults .null)
  obtain ⟨t, ht, hcheck, chars, hchars, -⟩ := build_eq_ok_iff.1 htext
  obtain ⟨assignments, additions, removals, conditions, hassignments, hadditions, hremovals,
    hconditions, -⟩ := Statement.chars_eq_ok_iff.1 hchars
  simp only [statementFor, setEntries_set] at hassignments hadditions hremovals hconditions
  obtain ⟨entries, -, hentries, hfield, -, -⟩ := assignments_snoc_eq_ok_iff.1 hassignments
  obtain ⟨clause, hclause⟩ := exists_clauseChars_snoc "SET" entries
  refine ⟨"UPDATE ".toList ++ (t.chars ++ (clause ++ (field.toList ++ [' ', '=', ' ']))),
    clauseChars "ADD" additions ++ (clauseChars "REMOVE" removals
      ++ conditionClauseChars conditions), fun v => ?_⟩
  cases hv : v.literalChars config.quoteMode with
  | error e =>
      refine ((q.set field v).reports_build config e).2 ?_
      rw [hfaults]
      exact (v.reports_literalChars config.quoteMode e).1 hv
  | ok literal =>
      refine build_eq_ok_iff.2 ⟨t, ht, hcheck, _, Statement.chars_eq_ok_iff.2
        ⟨entries ++ [field.toList ++ ([' ', '=', ' '] ++ literal)], additions, removals, conditions,
          ?_, hadditions, hremovals, hconditions, rfl⟩, ?_⟩
      · simp only [statementFor, setEntries_set]
        exact assignments_snoc_eq_ok_iff.2 ⟨entries, literal, hentries, hfield, hv, rfl⟩
      · rw [hclause]
        simp [statementFor]

/-- **When two values in the same place give the same text or the same error**: a fault before them
decides, or the first fault from there on is the same and, unless another one comes after them, so
are their literals. -/
theorem build_set_eq_iff (q : Update stage) (field : String) (v w : Value)
    (config : RenderConfig) : (q.set field v).build config = (q.set field w).build config ↔
      q.faultsBefore field ≠ [] ∨
        (v.faults ++ q.faultsAfter).head? = (w.faults ++ q.faultsAfter).head? ∧
          (q.faultsAfter = [] → v.literal config.quoteMode = w.literal config.quoteMode) := by
  have hreports (v : Value) := faults_set q field v ▸ (q.set field v).reports_build config
  cases hbefore : q.faultsBefore field with
  | cons e later =>
      simp only [hbefore] at hreports
      have heq := ((hreports v).eq_iff (hreports w) (by simp)).2 rfl
      simp [heq]
  | nil =>
      simp only [hbefore, List.nil_append] at hreports
      simp only [ne_eq, not_true_eq_false, false_or]
      cases hafter : q.faultsAfter with
      | nil =>
          obtain ⟨before, after, hbuild⟩ := exists_build_set hbefore hafter config
          have hliteral : v.literal config.quoteMode = w.literal config.quoteMode ↔
              v.literalChars config.quoteMode = w.literalChars config.quoteMode :=
            Outcome.map_eq_map_iff fun _ _ h => String.ofList_injective h
          rw [hbuild, hbuild, Outcome.map_eq_map_iff fun a b h => by
            simpa using String.ofList_injective h, ← hliteral, List.append_nil, List.append_nil]
          exact ⟨fun h => ⟨(v.reports_literal _).head?_eq (h ▸ w.reports_literal _), fun _ => h⟩,
            fun h => h.2 rfl⟩
      | cons e later =>
          simp only [hafter] at hreports
          rw [(hreports v).eq_iff (hreports w) (by simp)]
          simp

end Update

end UpdateSql
