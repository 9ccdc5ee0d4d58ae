/-
**Updates with the same text.**

With escaped quotes the text of an update can be read back, so two updates with the same text have
the same outline, and the other way round.  What a string contains does not matter for this: it may
look like anything else in a statement, the other clauses included.

Main definitions:

* `Call.writtenNames` — all names that are written for a sequence of calls.

Main results:

* `Update.read_build` — the text of an update is read back as the outline of its statement;
* `Update.text_eq_iff` — **two updates have the same text exactly if the same is to be seen of
  them**: target, SET, ADD and REMOVE entries, and conditions, as the calls give them.
-/

import UpdateSql.Proofs.Reading.Statement
import UpdateSql.Proofs.Update.Calls

set_option relaxedAutoImplicit false
set_option autoImplicit false

namespace UpdateSql

/-- All names that are written for a sequence of calls: of the target, if that is no record, of
fields and conditions, and of the fields of embedded documents. -/
def Call.writtenNames (calls : List Call) : List String :=
  (match wantedTarget calls with
    | some t => t.names
    | none => []) ++ ((wantedAssignments calls).flatMap entryNames ++
      ((calls.flatMap additions).flatMap entryNames ++
        ((calls.flatMap removals).flatMap removalNames ++
          (calls.flatMap conditions).flatMap Condition.names)))

namespace Update

/-- The names in the statement of an update are those that are written for its calls. -/
theorem Records.names_statementFor {stage : Stage} {q : Update stage} {calls : List Call}
    (h : q.Records calls) {t : Target} (ht : q.target = some t) :
    (q.statementFor t).names = Call.writtenNames calls := by
  rw [Call.writtenNames, ← h.target_eq, ht, ← h.setEntries_eq, ← h.additions, ← h.removals,
    ← h.conditions]
  rfl

/-- The text of an update is its outline as written, and is read back as it. -/
theorem read_build {stage : Stage} {q : Update stage} {calls : List Call} (h : q.Reached calls)
    (hnames : ∀ name ∈ Call.writtenNames calls, IsWord name) {config : RenderConfig}
    (hmode : config.quoteMode = .backslash) {text : String} (hb : q.build config = .ok text) :
    ∃ t, q.target = some t ∧ text.toList = (q.statementFor t).outline.chars ∧
      Reading.statement text.toList = some (q.statementFor t).outline := by
  obtain ⟨t, hres, -, chars, hchars, rfl⟩ := build_eq_ok_iff.1 hb
  have ht : q.target = some t := by
    rw [target, hres]
    rfl
  rw [hmode] at hchars
  rw [← h.records.names_statementFor ht] at hnames
  have hread : Reading.statement chars = some (q.statementFor t).outline :=
    Reading.statement_chars h.chainInvariant.wellFormed hnames hchars
  rw [String.toList_ofList]
  exact ⟨t, ht, (Statement.written_of_chars_eq_ok hchars).2, hread⟩

/-- **Two updates have the same text exactly if the same is to be seen of them**: the target, the
entries of the SET, ADD and REMOVE clauses and the conditions, each with the skeletons of its
values.  All of these are what the calls ask for; in the SET clause, the fields of the document that
was attached last come before what was assigned. -/
theorem text_eq_iff {stage₁ stage₂ : Stage} {q₁ : Update stage₁} {q₂ : Update stage₂}
    {calls₁ calls₂ : List Call} (h₁ : q₁.Reached calls₁) (h₂ : q₂.Reached calls₂)
    (hnames₁ : ∀ name ∈ Call.writtenNames calls₁, IsWord name)
    (hnames₂ : ∀ name ∈ Call.writtenNames calls₂, IsWord name)
    {config₁ config₂ : RenderConfig} (hmode₁ : config₁.quoteMode = .backslash)
    (hmode₂ : config₂.quoteMode = .backslash) {text₁ text₂ : String}
    (hb₁ : q₁.build config₁ = .ok text₁) (hb₂ : q₂.build config₂ = .ok text₂) :
    text₁ = text₂ ↔
      Call.wantedTarget calls₁ = Call.wantedTarget calls₂ ∧
      (Call.wantedAssignments calls₁).map entrySkeleton
        = (Call.wantedAssignments calls₂).map entrySkeleton ∧
      (calls₁.flatMap Call.additions).map entrySkeleton
        = (calls₂.flatMap Call.additions).map entrySkeleton ∧
      (calls₁.flatMap Call.removals).map removalOutline
        = (calls₂.flatMap Call.removals).map removalOutline ∧
      (calls₁.flatMap Call.conditions).map Condition.outline
        = (calls₂.flatMap Call.conditions).map Condition.outline := by
  obtain ⟨t₁, ht₁, htext₁, hread₁⟩ := read_build h₁ hnames₁ hmode₁ hb₁
  obtain ⟨t₂, ht₂, htext₂, hread₂⟩ := read_build h₂ hnames₂ hmode₂ hb₂
  have houtline : text₁ = text₂ ↔ (q₁.statementFor t₁).outline = (q₂.statementFor t₂).outline := by
    constructor
    · rintro rfl
      rw [hread₁] at hread₂
      exact Option.some.inj hread₂
    · intro h
      rw [← String.toList_inj, htext₁, htext₂, h]
  have hrec₁ : q₁.Records calls₁ := h₁.records
  have hrec₂ : q₂.Records calls₂ := h₂.records
  rw [houtline, ← hrec₁.target_eq, ← hrec₂.target_eq, ht₁, ht₂, Option.some.injEq]
  simp only [Statement.outline, statementFor, Outline.mk.injEq, hrec₁.setEntries_eq,
    hrec₂.setEntries_eq, hrec₁.additions, hrec₂.additions, hrec₁.removals, hrec₂.removals,
    hrec₁.conditions, hrec₂.conditions]

/-- A string that looks like the end of an entry and a further one is still told from them, here
from the field of an attached document and an assignment after it. -/
theorem text_of_deceptive_string :
    ∃ text₁ text₂ : String,
      ((Update.empty.onClass "A").set "a" "x', b = 'y").build ⟨.backslash, none⟩ = .ok text₁ ∧
      ((Update.empty.set "b" "y").attach ⟨some "A", none, [("a", .string "x")]⟩).build
        ⟨.backslash, none⟩ = .ok text₂ ∧
      text₁ ≠ text₂ := by
  have h₁ := (Reached.empty.onClass "A").set "a" "x', b = 'y"
  have h₂ := (Reached.empty.set "b" "y").attach ⟨some "A", none, [("a", .string "x")]⟩
  refine ⟨_, _, rfl, rfl, ?_⟩
  intro h
  have hsame := (text_eq_iff h₁ h₂ (by decide) (by decide) rfl rfl rfl rfl).1 h
  obtain ⟨-, hset, -⟩ := hsame
  have hlength := congrArg List.length hset
  cases hlength

end Update

end UpdateSql
