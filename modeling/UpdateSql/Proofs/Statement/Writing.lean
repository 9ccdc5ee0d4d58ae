/-
**When a statement is written, and as what.**

Writing goes down from a statement through its clauses to the values, and stops at the first fault.
For each writer on the way this module says when it gives a text, and how that text is made of the
texts of its parts, so that nothing else need open the writers.

Main definitions:

* `conditionClauseChars` — the WHERE clause, from the texts of its conditions.

Main results:

* `Condition.chars_eq_ok_iff` — a condition is written when its name is not empty and its operand is
  written;
* `Statement.chars_eq_ok_iff` — a statement is written when all its entries are;
* `Update.build_eq_ok_iff` — an update is built when it has a target that can be written, and its
  statement is written.
-/

import UpdateSql.Proofs.Outcome
import UpdateSql.Update.Statement

set_option relaxedAutoImplicit false
set_option autoImplicit false

namespace UpdateSql

variable {mode : QuoteMode}

/-! ### Targets -/

@[simp] theorem Target.chars_record (id : RecordId) : (Target.record id).chars = id.chars := rfl

@[simp] theorem Target.chars_ofClass (name : String) :
    (Target.ofClass name).chars = name.toList := rfl

@[simp] theorem Target.chars_cluster (name : String) :
    (Target.cluster name).chars = "cluster:".toList ++ name.toList := rfl

theorem Target.toList_text (t : Target) : t.text.toList = t.chars := String.toList_ofList

/-! ### Entries -/

theorem removalChars_none_eq_ok_iff {name : String} {text : List Char} :
    removalChars mode (name, none) = .ok text ↔ name ≠ "" ∧ text = name.toList := by
  rw [removalChars]
  split
  · next h => simp [String.isEmpty_iff.1 h]
  · next h =>
      have hne : name ≠ "" := fun h' => h (String.isEmpty_iff.2 h')
      simp [hne, eq_comm]

theorem Condition.chars_eq_ok_iff {c : Condition} {text : List Char} :
    c.chars mode = .ok text ↔ c.field ≠ "" ∧ ∃ operand, c.op.operandChars mode = .ok operand ∧
      text = Combinator.leadChars c.combinator
        ++ (c.field.toList ++ (' ' :: (c.op.token.toList ++ operand))) := by
  rw [Condition.chars]
  split
  · next h => simp [String.isEmpty_iff.1 h]
  · next h =>
      have hne : c.field ≠ "" := fun h' => h (String.isEmpty_iff.2 h')
      rw [Outcome.map_eq_ok_iff]
      constructor
      · rintro ⟨operand, ho, rfl⟩
        exact ⟨hne, operand, ho, rfl⟩
      · rintro ⟨-, operand, ho, rfl⟩
        exact ⟨operand, ho, rfl⟩

/-! ### Clauses and statements -/

theorem clauseChars_nil (keyword : String) : clauseChars keyword [] = [] := rfl

theorem clauseChars_cons (keyword : String) (entry : List Char) (entries : List (List Char)) :
    clauseChars keyword (entry :: entries)
      = ' ' :: (keyword.toList ++ (' ' :: commaSeparated (entry :: entries))) := rfl

/-- The WHERE clause with the space before it, or nothing where there are no conditions. -/
def conditionClauseChars : List (List Char) → List Char
  | [] => []
  | text :: texts => ' ' :: ("WHERE ".toList ++ (text :: texts).flatten)

theorem Statement.whereChars_eq_ok_iff {s : Statement} {text : List Char} :
    s.whereChars mode = .ok text ↔ ∃ texts,
      s.chain.conditions.mapM (Condition.chars mode) = .ok texts ∧
        text = conditionClauseChars texts := by
  rw [Statement.whereChars, WhereChain.chars, WhereChain.isEmpty]
  cases hc : s.chain.conditions with
  | nil =>
      constructor
      · intro h
        cases h
        exact ⟨[], rfl, rfl⟩
      · rintro ⟨texts, htexts, rfl⟩
        cases htexts
        rfl
  | cons c conditions =>
      simp only [List.isEmpty_cons, Bool.false_eq_true, if_false, Outcome.map_eq_ok_iff]
      constructor
      · rintro ⟨_, ⟨texts, htexts, rfl⟩, rfl⟩
        obtain ⟨t, ts, -, -, rfl⟩ := Outcome.mapM_cons_eq_ok_iff.1 htexts
        exact ⟨t :: ts, htexts, rfl⟩
      · rintro ⟨texts, htexts, rfl⟩
        obtain ⟨t, ts, -, -, rfl⟩ := Outcome.mapM_cons_eq_ok_iff.1 htexts
        exact ⟨_, ⟨t :: ts, htexts, rfl⟩, rfl⟩

/-- **A statement is written when all its entries are**, as the clauses made of them. -/
theorem Statement.chars_eq_ok_iff {s : Statement} {text : List Char} :
    s.chars mode = .ok text ↔ ∃ assignments additions removals conditions,
      Value.assignments mode s.assignments = .ok assignments ∧
      Value.assignments mode s.additions = .ok additions ∧
      s.removals.mapM (removalChars mode) = .ok removals ∧
      s.chain.conditions.mapM (Condition.chars mode) = .ok conditions ∧
      text = "UPDATE ".toList ++ (s.target.chars ++ (clauseChars "SET" assignments ++
        (clauseChars "ADD" additions ++ (clauseChars "REMOVE" removals ++
          conditionClauseChars conditions)))) := by
  simp only [Statement.chars, Outcome.bind_eq_ok_iff, Statement.whereChars_eq_ok_iff]
  constructor
  · rintro ⟨assignments, has, additions, hadd, removals, hrem, _, ⟨conditions, hcond, rfl⟩, h⟩
    cases h
    exact ⟨assignments, additions, removals, conditions, has, hadd, hrem, hcond, rfl⟩
  · rintro ⟨assignments, additions, removals, conditions, has, hadd, hrem, hcond, rfl⟩
    exact ⟨assignments, has, additions, hadd, removals, hrem, _, ⟨conditions, hcond, rfl⟩, rfl⟩

/-! ### Updates -/

namespace Update

variable {stage : Stage}

/-- The statement of an update, for a target. -/
def statementFor (q : Update stage) (t : Target) : Statement where
  target := t
  assignments := q.setEntries
  additions := q.additions
  removals := q.removals
  chain := q.chain

theorem statement_eq_ok_iff {q : Update stage} {s : Statement} :
    q.statement = .ok s ↔ ∃ t, q.resolveTarget = .ok t ∧ t.check = .ok () ∧
      s = q.statementFor t := by
  simp only [statement, Outcome.bind_eq_ok_iff]
  constructor
  · rintro ⟨t, ht, ⟨⟩, hcheck, h⟩
    cases h
    exact ⟨t, ht, hcheck, rfl⟩
  · rintro ⟨t, ht, hcheck, rfl⟩
    exact ⟨t, ht, (), hcheck, rfl⟩

/-- **An update is built when it has a target that can be written, and its statement is.** -/
theorem build_eq_ok_iff {q : Update stage} {config : RenderConfig} {text : String} :
    q.build config = .ok text ↔ ∃ t, q.resolveTarget = .ok t ∧ t.check = .ok () ∧
      ∃ chars, (q.statementFor t).chars config.quoteMode = .ok chars ∧
        text = String.ofList chars := by
  simp only [build, buildChars, Outcome.map_eq_ok_iff, Outcome.bind_eq_ok_iff, statement_eq_ok_iff]
  constructor
  · rintro ⟨chars, ⟨_, ⟨t, ht, hcheck, rfl⟩, hchars⟩, rfl⟩
    exact ⟨t, ht, hcheck, chars, hchars, rfl⟩
  · rintro ⟨t, ht, hcheck, chars, hchars, rfl⟩
    exact ⟨chars, ⟨_, ⟨t, ht, hcheck, rfl⟩, hchars⟩, rfl⟩

end Update

end UpdateSql
