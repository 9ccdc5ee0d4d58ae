/-
**The text of an update, from its calls.**

The text of an update depends on the calls that led to it only through a few lists: the target named
last, the document attached last, and the entries of each clause in call order.  This module lays a
statement out as text, with a clause for each list that is not empty, and proves that this is the
text that is built.

The layout takes the literals of values as given.  When a text is built, every value in it has a
literal, and it is those literals that stand in the text.

Main definitions:

* `Call.writtenValues` — the values that are written for a sequence of calls;
* `Layout.assignment`, `Layout.removal`, `Layout.condition` — an entry of each kind, as text;
* `Layout.clause`, `Layout.conditionClause` — a clause, or nothing where it has no entries.

Main results:

* `Update.build_eq_layout` — **the text of an update is the layout of its calls**: target, SET, ADD,
  REMOVE and WHERE in this order, whatever the order of the calls.
-/

import UpdateSql.Proofs.Update.Calls
import UpdateSql.Proofs.Statement.Writing

set_option relaxedAutoImplicit false
set_option autoImplicit false

namespace UpdateSql

/-! ### The values in a statement -/

/-- The value in the operand of a test, if it has one. -/
def Op.value? : Op → Option Value
  | .compare _ v => some v
  | .isNull => none
  | .contains (.value v) => some v
  | .contains (.fieldEq _ v) => some v

namespace Call

/-- The values that are written for a sequence of calls. -/
def writtenValues (calls : List Call) : List Value :=
  (wantedAssignments calls).map Prod.snd ++ ((calls.flatMap additions).map Prod.snd ++
    ((calls.flatMap removals).filterMap Prod.snd ++
      (calls.flatMap conditions).filterMap fun c => c.op.value?))

end Call

/-! ### The layout of a statement -/

namespace Layout

variable (lit : Value → String)

/-- A target as text. -/
def target : Target → String
  | .record id => id.text
  | .ofClass name => name
  | .cluster name => "cluster:" ++ name

theorem toList_target (t : Target) : (target t).toList = t.chars := by
  cases t with
  | record id =>
      have htext : target (.record id) = id.text := rfl
      rw [htext, RecordId.text, String.toList_ofList, Target.chars_record]
  | ofClass name => rfl
  | cluster name =>
      have htext : target (.cluster name) = "cluster:" ++ name := rfl
      rw [htext, String.toList_append, Target.chars_cluster]

/-- A field with the literal assigned to it. -/
def assignment (entry : String × Value) : String := entry.1 ++ " = " ++ lit entry.2

/-- A field, or a field with the literal of the value to be taken out of it. -/
def removal : String × Option Value → String
  | (name, none) => name
  | (name, some v) => name ++ " = " ++ lit v

/-- A test as text, after the field. -/
def test : Op → String
  | .compare .eq v => " = " ++ lit v
  | .compare .ne v => " != " ++ lit v
  | .compare .lt v => " < " ++ lit v
  | .compare .lte v => " <= " ++ lit v
  | .compare .gt v => " > " ++ lit v
  | .compare .gte v => " >= " ++ lit v
  | .compare .like v => " LIKE " ++ lit v
  | .isNull => " IS NULL"
  | .contains (.value v) => " CONTAINS " ++ lit v
  | .contains (.fieldEq name v) => " CONTAINS (" ++ name ++ " = " ++ lit v ++ ")"

/-- A condition as text, with the word that joins it to the one before. -/
def condition (c : Condition) : String :=
  (match c.combinator with
    | none => ""
    | some .and => " AND "
    | some .or => " OR ") ++ c.field ++ test lit c.op

/-- A clause with its entries, or nothing where there are none. -/
def clause (keyword : String) : List String → String
  | [] => ""
  | entry :: entries => " " ++ keyword ++ " " ++ ", ".intercalate (entry :: entries)

/-- The WHERE clause, or nothing where there are no conditions. -/
def conditionClause : List String → String
  | [] => ""
  | entry :: entries => " WHERE " ++ String.join (entry :: entries)

end Layout

/-! ### Literals as they are written -/

/-- The literal of a value, where it has one. -/
def Value.writtenLiteral (mode : QuoteMode) (v : Value) : String :=
  match v.literalChars mode with
  | .ok text => String.ofList text
  | .error _ => ""

section

variable {mode : QuoteMode}

theorem toList_writtenLiteral {v : Value} {text : List Char} (h : v.literalChars mode = .ok text) :
    (v.writtenLiteral mode).toList = text := by
  simp [Value.writtenLiteral, h]

theorem literal_eq_writtenLiteral {v : Value} {text : List Char}
    (h : v.literalChars mode = .ok text) : v.literal mode = .ok (v.writtenLiteral mode) := by
  simp [Value.literal, Value.writtenLiteral, h, Except.map]

/-! ### Entries -/

/-- An entry that is written is laid out with the literal of its value, which exists. -/
theorem assignmentChars_eq_layout {entry : String × Value} {text : List Char}
    (h : assignmentChars entry.1 (entry.2.literalChars mode) = .ok text) :
    text = (Layout.assignment (Value.writtenLiteral mode) entry).toList ∧
      entry.2.literal mode = .ok (entry.2.writtenLiteral mode) := by
  obtain ⟨-, t, ht, rfl⟩ := assignmentChars_eq_ok_iff.1 h
  refine ⟨?_, literal_eq_writtenLiteral ht⟩
  simp [Layout.assignment, toList_writtenLiteral ht]

theorem removalChars_eq_layout {entry : String × Option Value} {text : List Char}
    (h : removalChars mode entry = .ok text) :
    text = (Layout.removal (Value.writtenLiteral mode) entry).toList ∧
      ∀ v, entry.2 = some v → v.literal mode = .ok (v.writtenLiteral mode) := by
  obtain ⟨name, value⟩ := entry
  cases value with
  | none =>
      obtain ⟨-, rfl⟩ := removalChars_none_eq_ok_iff.1 h
      exact ⟨rfl, by simp⟩
  | some v =>
      obtain ⟨htext, hlit⟩ := @assignmentChars_eq_layout mode (name, v) text h
      exact ⟨htext, by simpa using hlit⟩

/-- A test that is written is laid out with the literal in its operand, which exists. -/
theorem operandChars_eq_layout {op : Op} {operand : List Char}
    (h : op.operandChars mode = .ok operand) :
    ' ' :: (op.token.toList ++ operand) = (Layout.test (Value.writtenLiteral mode) op).toList ∧
      ∀ v, op.value? = some v → v.literal mode = .ok (v.writtenLiteral mode) := by
  cases op with
  | compare comparison v =>
      obtain ⟨t, ht, rfl⟩ := Outcome.map_eq_ok_iff.1 h
      refine ⟨?_, by simpa [Op.value?] using literal_eq_writtenLiteral ht⟩
      cases comparison <;>
        simp [Layout.test, Op.token, Comparison.token, toList_writtenLiteral ht]
  | isNull =>
      cases h
      exact ⟨by simp [Layout.test, Op.token], by simp [Op.value?]⟩
  | contains operand' =>
      cases operand' with
      | value v =>
          obtain ⟨t, ht, rfl⟩ := Outcome.map_eq_ok_iff.1 h
          refine ⟨?_, by simpa [Op.value?] using literal_eq_writtenLiteral ht⟩
          simp [Layout.test, Op.token, toList_writtenLiteral ht]
      | fieldEq name v =>
          obtain ⟨_, ha, rfl⟩ := Outcome.map_eq_ok_iff.1 h
          obtain ⟨-, t, ht, rfl⟩ := assignmentChars_eq_ok_iff.1 ha
          refine ⟨?_, by simpa [Op.value?] using literal_eq_writtenLiteral ht⟩
          simp [Layout.test, Op.token, toList_writtenLiteral ht]

theorem conditionChars_eq_layout {c : Condition} {text : List Char}
    (h : c.chars mode = .ok text) :
    text = (Layout.condition (Value.writtenLiteral mode) c).toList ∧
      ∀ v, c.op.value? = some v → v.literal mode = .ok (v.writtenLiteral mode) := by
  obtain ⟨-, operand, ho, rfl⟩ := Condition.chars_eq_ok_iff.1 h
  obtain ⟨htest, hlit⟩ := operandChars_eq_layout ho
  refine ⟨?_, hlit⟩
  rw [htest]
  rcases hc : c.combinator with _ | _ | _ <;>
    simp [Layout.condition, Combinator.leadChars, Combinator.token, hc]

/-! ### Clauses -/

/-- Entries that are written are laid out one by one. -/
theorem mapM_eq_layout {γ : Type} {f : γ → Except Error (List Char)} {layout : γ → String}
    {P : γ → Prop} (hf : ∀ c text, f c = .ok text → text = (layout c).toList ∧ P c) {l : List γ}
    {texts : List (List Char)} (h : l.mapM f = .ok texts) :
    texts = (l.map layout).map String.toList ∧ ∀ c ∈ l, P c := by
  constructor
  · rw [List.map_map]
    exact Outcome.eq_map_of_mapM_eq_ok h fun c _ text hc => (hf c text hc).1
  · intro c hc
    obtain ⟨text, htext⟩ := Outcome.exists_of_mapM_eq_ok h hc
    exact (hf c text htext).2

theorem assignments_eq_layout {entries : List (String × Value)} {texts : List (List Char)}
    (h : Value.assignments mode entries = .ok texts) :
    texts = (entries.map (Layout.assignment (Value.writtenLiteral mode))).map String.toList ∧
      ∀ entry ∈ entries, entry.2.literal mode = .ok (entry.2.writtenLiteral mode) := by
  rw [Value.assignments_eq_mapM] at h
  exact mapM_eq_layout (fun _ _ => assignmentChars_eq_layout) h

theorem clauseChars_eq_layout (keyword : String) (entries : List String) :
    clauseChars keyword (entries.map String.toList) = (Layout.clause keyword entries).toList := by
  cases entries with
  | nil => rfl
  | cons entry entries =>
      simp [clauseChars, Layout.clause, commaSeparated, String.toList_intercalate]

theorem conditionClauseChars_eq_layout (entries : List String) :
    conditionClauseChars (entries.map String.toList)
      = (Layout.conditionClause entries).toList := by
  cases entries with
  | nil => rfl
  | cons entry entries =>
      simp [conditionClauseChars, Layout.conditionClause, List.flatMap_def]

end

/-! ### Updates -/

namespace Update

variable {stage : Stage}

/-- **The text of an update is the layout of its calls**: the target, and the clauses that have
entries, always in the same order. -/
theorem build_eq_layout {q : Update stage} {calls : List Call} (h : q.Reached calls)
    {config : RenderConfig} {text : String} (hb : q.build config = .ok text) :
    ∃ (t : Target) (lit : Value → String),
      Call.wantedTarget calls = some t ∧
      (∀ v ∈ Call.writtenValues calls, v.literal config.quoteMode = .ok (lit v)) ∧
      text = "UPDATE " ++ Layout.target t
        ++ Layout.clause "SET" ((Call.wantedAssignments calls).map (Layout.assignment lit))
        ++ Layout.clause "ADD" ((calls.flatMap Call.additions).map (Layout.assignment lit))
        ++ Layout.clause "REMOVE" ((calls.flatMap Call.removals).map (Layout.removal lit))
        ++ Layout.conditionClause ((calls.flatMap Call.conditions).map (Layout.condition lit)) := by
  have hrec : q.Records calls := h.records
  obtain ⟨t, ht, -, chars, hchars, rfl⟩ := build_eq_ok_iff.1 hb
  obtain ⟨_, _, _, _, has, hadd, hrem, hcond, rfl⟩ := Statement.chars_eq_ok_iff.1 hchars
  obtain ⟨rfl, hlits⟩ := assignments_eq_layout has
  obtain ⟨rfl, hlita⟩ := assignments_eq_layout hadd
  obtain ⟨rfl, hlitr⟩ := mapM_eq_layout (fun _ _ => removalChars_eq_layout) hrem
  obtain ⟨rfl, hlitc⟩ := mapM_eq_layout (fun _ _ => conditionChars_eq_layout) hcond
  simp only [statementFor, hrec.setEntries_eq, hrec.additions, hrec.removals, hrec.conditions]
    at hlits hlita hlitr hlitc ⊢
  refine ⟨t, Value.writtenLiteral config.quoteMode, ?_, ?_, ?_⟩
  · rw [← hrec.target_eq, target, ht]
    rfl
  · intro v hv
    simp only [Call.writtenValues, List.mem_append, List.mem_map, List.mem_filterMap] at hv
    rcases hv with ⟨entry, he, rfl⟩ | ⟨entry, he, rfl⟩ | ⟨entry, he, hv⟩ | ⟨c, hc, hv⟩
    · exact hlits entry he
    · exact hlita entry he
    · exact hlitr entry he v hv
    · exact hlitc c hc v hv
  · rw [clauseChars_eq_layout, clauseChars_eq_layout, clauseChars_eq_layout,
      conditionClauseChars_eq_layout, ← Layout.toList_target]
    simp only [← String.toList_inj, String.toList_ofList, String.toList_append, List.append_assoc]

/-- Calls in an order that the text does not follow, with two conditions. -/
theorem layout_of_mixed_calls :
    ∃ (t : Target) (lit : Value → String), t = .ofClass "Cat" ∧
      (∀ s ∈ ["Tom", "cub", "Bob"], Value.literal .verbatim (.string s) = .ok (lit (.string s))) ∧
      "UPDATE Cat SET tag = 'Tom' REMOVE old WHERE kind != 'cub' OR kin CONTAINS (tag = 'Bob')"
        = "UPDATE " ++ Layout.target t
          ++ Layout.clause "SET" [Layout.assignment lit ("tag", .string "Tom")]
          ++ Layout.clause "ADD" []
          ++ Layout.clause "REMOVE" [Layout.removal lit ("old", none)]
          ++ Layout.conditionClause
            [Layout.condition lit ⟨none, "kind", .compare .ne (.string "cub")⟩,
              Layout.condition lit
                ⟨some .or, "kin", .contains (.fieldEq "tag" (.string "Bob"))⟩] := by
  have hq := (((((Reached.empty.remove "old").whereField "kind" (.ne "cub")).onClass "Stale").set
    "tag" "Tom").or "kin" (.containsField "tag" "Bob")).onClass "Cat"
  have hb : (((((((Update.empty.remove "old").whereField "kind").ne "cub").onClass "Stale").set
      "tag" "Tom").or "kin").containsField "tag" "Bob" |>.onClass "Cat").build = .ok
      "UPDATE Cat SET tag = 'Tom' REMOVE old WHERE kind != 'cub' OR kin CONTAINS (tag = 'Bob')" :=
    rfl
  obtain ⟨t, lit, ht, hlit, htext⟩ := build_eq_layout hq hb
  have hvalues : ∀ s ∈ ["Tom", "cub", "Bob"],
      Value.string s ∈ [Value.string "Tom", .string "cub", .string "Bob"] :=
    fun _ hs => List.mem_map_of_mem hs
  exact ⟨t, lit, (Option.some.inj ht).symm, fun s hs => hlit _ (hvalues s hs), htext⟩

end Update

end UpdateSql
