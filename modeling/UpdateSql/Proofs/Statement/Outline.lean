/-
**What the text of a statement shows.**

Of the values in a statement only the skeletons are written.  A test that a collection contains a
document whose field has a value is written like the test that it contains the document with this
one field.  Up to this, everything in a statement is to be seen in its text; the outline of a
statement is what is to be seen.

Main definitions:

* `Op.operand`, `Op.outline` — the value that is written for a test, and what is shown of the test;
* `Statement.outline` — what is shown of a statement;
* `Outline.chars` — an outline as written, with escaped quotes;
* `Statement.names` — all names in a statement.

Main results:

* `Statement.Written`, `Statement.written_of_chars_eq_ok` — **a statement is its outline as
  written**, and all its names and literals are there.
-/

import UpdateSql.Proofs.Statement.Writing
import UpdateSql.Proofs.Value.Skeleton

set_option relaxedAutoImplicit false
set_option autoImplicit false

namespace UpdateSql

/-! ### Outlines -/

/-- What is shown of a test. -/
inductive TestOutline where
  | compare (comparison : Comparison) (operand : Skeleton)
  | isNull
  | contains (operand : Skeleton)

/-- What is shown of a condition. -/
structure ConditionOutline where
  combinator : Option Combinator
  field : String
  test : TestOutline

/-- What is shown of a statement. -/
structure Outline where
  target : Target
  assignments : List (String × Skeleton)
  additions : List (String × Skeleton)
  removals : List (String × Option Skeleton)
  conditions : List ConditionOutline

/-- The value that is written for a test. -/
def Op.operand : Op → Value
  | .compare _ v => v
  | .isNull => .null
  | .contains (.value v) => v
  | .contains (.fieldEq name v) => .document ⟨none, none, [(name, v)]⟩

/-- What is shown of a test. -/
def Op.outline : Op → TestOutline
  | .compare comparison v => .compare comparison v.skeleton
  | .isNull => .isNull
  | .contains (.value v) => .contains v.skeleton
  | .contains (.fieldEq name v) => .contains (.document [(name, v.skeleton)])

/-- What is shown of a condition. -/
def Condition.outline (c : Condition) : ConditionOutline := ⟨c.combinator, c.field, c.op.outline⟩

/-- What is shown of an entry of a REMOVE clause. -/
def removalOutline (entry : String × Option Value) : String × Option Skeleton :=
  (entry.1, entry.2.map Value.skeleton)

/-- What is shown of a statement. -/
def Statement.outline (s : Statement) : Outline where
  target := s.target
  assignments := s.assignments.map entrySkeleton
  additions := s.additions.map entrySkeleton
  removals := s.removals.map removalOutline
  conditions := s.chain.conditions.map Condition.outline

/-! ### Writing an outline -/

namespace TestOutline

/-- The first word or sign of a test. -/
def token : TestOutline → List Char
  | .compare comparison _ => comparison.token.toList
  | .isNull => ['I', 'S']
  | .contains _ => ['C', 'O', 'N', 'T', 'A', 'I', 'N', 'S']

/-- What stands after the first word or sign of a test. -/
def operand : TestOutline → Skeleton
  | .compare _ operand => operand
  | .isNull => .null
  | .contains operand => operand

end TestOutline

/-- A condition as written, without the word that joins it to the one before. -/
def ConditionOutline.body (c : ConditionOutline) : List Char :=
  c.field.toList ++ (' ' :: (c.test.token ++ (' ' :: c.test.operand.chars)))

/-- A condition as written. -/
def ConditionOutline.chars (c : ConditionOutline) : List Char :=
  Combinator.leadChars c.combinator ++ c.body

/-- An entry of a REMOVE clause as written. -/
def removalEntryChars : String × Option Skeleton → List Char
  | (name, none) => name.toList
  | (name, some s) => assigned name s.chars

/-- A statement as written. -/
def Outline.chars (o : Outline) : List Char :=
  "UPDATE ".toList ++ (o.target.chars ++ (clauseChars "SET" (o.assignments.map entryChars) ++
    (clauseChars "ADD" (o.additions.map entryChars) ++
      (clauseChars "REMOVE" (o.removals.map removalEntryChars) ++
        conditionClauseChars (o.conditions.map ConditionOutline.chars)))))

theorem Outline.chars_eq (o : Outline) : o.chars
    = "UPDATE ".toList ++ (o.target.chars ++ (clauseChars "SET" (o.assignments.map entryChars) ++
      (clauseChars "ADD" (o.additions.map entryChars) ++
        (clauseChars "REMOVE" (o.removals.map removalEntryChars) ++
          conditionClauseChars (o.conditions.map ConditionOutline.chars))))) := rfl

/-! ### Statements and their outlines -/

/-- A statement for which a text is written: its fields have names, and its values literals. -/
structure Statement.Written (s : Statement) : Prop where
  assignments : ∀ entry ∈ s.assignments, entry.1 ≠ "" ∧
    entry.2.literalChars .backslash = .ok entry.2.skeleton.chars
  additions : ∀ entry ∈ s.additions, entry.1 ≠ "" ∧
    entry.2.literalChars .backslash = .ok entry.2.skeleton.chars
  removals : ∀ entry ∈ s.removals, ∀ v, entry.2 = some v →
    v.literalChars .backslash = .ok v.skeleton.chars
  conditions : ∀ c ∈ s.chain.conditions,
    c.op.operand.literalChars .backslash = .ok c.op.operand.skeleton.chars

theorem Op.operand_outline (op : Op) : op.outline.operand = op.operand.skeleton := by
  cases op with
  | compare comparison v => rfl
  | isNull => rfl
  | contains operand => cases operand <;> rfl

/-- A test that is written is its outline as written. -/
theorem Op.operandChars_eq_ok {op : Op} {text : List Char}
    (h : op.operandChars .backslash = .ok text) :
    op.operand.literalChars .backslash = .ok op.operand.skeleton.chars ∧
      op.token.toList ++ text = op.outline.token ++ (' ' :: op.outline.operand.chars) := by
  have hvalue : ∀ {v : Value} {t : List Char}, v.literalChars .backslash = .ok t →
      v.literalChars .backslash = .ok v.skeleton.chars ∧ t = v.skeleton.chars := by
    intro v t ht
    obtain rfl := v.literalChars_eq_chars_skeleton ht
    exact ⟨ht, rfl⟩
  rw [Op.operand_outline]
  cases op with
  | compare comparison v =>
      obtain ⟨t, ht, rfl⟩ := Outcome.map_eq_ok_iff.1 h
      obtain ⟨hlit, rfl⟩ := hvalue ht
      exact ⟨hlit, rfl⟩
  | isNull =>
      cases h
      exact ⟨rfl, rfl⟩
  | contains operand =>
      cases operand with
      | value v =>
          obtain ⟨t, ht, rfl⟩ := Outcome.map_eq_ok_iff.1 h
          obtain ⟨hlit, rfl⟩ := hvalue ht
          refine ⟨hlit, ?_⟩
          simp [Op.operand, Op.token, Op.outline, TestOutline.token]
      | fieldEq name v =>
          obtain ⟨t, ht, rfl⟩ := Outcome.map_eq_ok_iff.1 h
          -- the operand is the document with this one field
          have hdoc : (Value.document ⟨none, none, [(name, v)]⟩).literalChars .backslash
              = .ok ('(' :: (commaSeparated [t] ++ [')'])) := by
            simp [Value.literalChars, Value.assignments, ht]
            rfl
          obtain ⟨hlit, htext⟩ := hvalue hdoc
          refine ⟨hlit, ?_⟩
          rw [Op.operand, ← htext]
          simp [commaSeparated, Op.token, Op.outline, TestOutline.token]

theorem Condition.chars_eq_ok {c : Condition} {text : List Char}
    (h : c.chars .backslash = .ok text) :
    c.op.operand.literalChars .backslash = .ok c.op.operand.skeleton.chars ∧
      text = c.outline.chars := by
  obtain ⟨-, operand, ho, rfl⟩ := Condition.chars_eq_ok_iff.1 h
  obtain ⟨hlit, htext⟩ := Op.operandChars_eq_ok ho
  rw [htext]
  exact ⟨hlit, rfl⟩

theorem removalChars_eq_ok {entry : String × Option Value} {text : List Char}
    (h : removalChars .backslash entry = .ok text) :
    (∀ v, entry.2 = some v → v.literalChars .backslash = .ok v.skeleton.chars) ∧
      text = removalEntryChars (removalOutline entry) := by
  obtain ⟨name, value⟩ := entry
  cases value with
  | none =>
      obtain ⟨-, rfl⟩ := removalChars_none_eq_ok_iff.1 h
      exact ⟨by simp, rfl⟩
  | some v =>
      obtain ⟨-, t, ht, rfl⟩ := assignmentChars_eq_ok_iff.1 h
      obtain rfl := v.literalChars_eq_chars_skeleton ht
      refine ⟨?_, rfl⟩
      rintro _ ⟨⟩
      exact ht

/-- **A statement that is written is its outline as written.** -/
theorem Statement.written_of_chars_eq_ok {s : Statement} {text : List Char}
    (h : s.chars .backslash = .ok text) : s.Written ∧ text = s.outline.chars := by
  obtain ⟨_, _, removals, conditions, has, hadd, hrem, hcond, rfl⟩ :=
    Statement.chars_eq_ok_iff.1 h
  obtain ⟨rfl, hassignments⟩ := assignments_eq_ok has
  obtain ⟨rfl, hadditions⟩ := assignments_eq_ok hadd
  have hremovals : removals
      = s.removals.map fun entry => removalEntryChars (removalOutline entry) :=
    Outcome.eq_map_of_mapM_eq_ok hrem fun entry _ _ ht => (removalChars_eq_ok ht).2
  have hconditions : conditions = s.chain.conditions.map fun c => c.outline.chars :=
    Outcome.eq_map_of_mapM_eq_ok hcond fun c _ _ ht => (Condition.chars_eq_ok ht).2
  constructor
  · refine ⟨hassignments, hadditions, ?_, ?_⟩
    · intro entry he
      obtain ⟨t, ht⟩ := Outcome.exists_of_mapM_eq_ok hrem he
      exact (removalChars_eq_ok ht).1
    · intro c hc
      obtain ⟨t, ht⟩ := Outcome.exists_of_mapM_eq_ok hcond hc
      exact (Condition.chars_eq_ok ht).1
  · rw [hremovals, hconditions, Outline.chars_eq]
    simp only [Statement.outline, List.map_map, Function.comp_def]

/-! ### Names -/

/-- The name of a target, unless it is a record. -/
def Target.names : Target → List String
  | .record _ => []
  | .ofClass name => [name]
  | .cluster name => [name]

/-- The name of an entry of a REMOVE clause, and the names in its value. -/
def removalNames : String × Option Value → List String
  | (name, none) => [name]
  | (name, some v) => name :: v.names

/-- The name of a condition, and the names in its operand. -/
def Condition.names (c : Condition) : List String := c.field :: c.op.operand.names

/-- All names in a statement, those in its values included. -/
def Statement.names (s : Statement) : List String :=
  s.target.names ++ (s.assignments.flatMap entryNames ++ (s.additions.flatMap entryNames ++
    (s.removals.flatMap removalNames ++ s.chain.conditions.flatMap Condition.names)))

end UpdateSql
