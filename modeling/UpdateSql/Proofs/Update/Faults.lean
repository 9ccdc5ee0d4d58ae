/-
**The faults of an update.**

Several faults can be in an update at once: no target, an unnamed one, fields without a name and
values without a literal, in any of its clauses.  Here all of them are gathered in the order in
which a statement is read, and building is shown to report the first.  The list is made from what
the update holds, or as well from the calls that led to it, so which fault is reported does not
depend on the options of the rendering.

Main definitions:

* `Target.faults`, `removalFaults`, `Condition.faults` — the faults of the parts;
* `Update.targetFaults` — the faults of the target, or that there is none;
* `Update.setFaults` — the faults of the attached document, and then of the other assignments;
* `Update.faults` — all faults of an update;
* `Call.targetFaults`, `Call.faults` — the same, from the calls.

Main results:

* `Update.reports_validate`, `Update.reports_buildChars` — validating reports the first fault of the
  target, building the first fault of all;
* `Update.Records.faults_eq` — the faults of an update are those that its calls bring;
* `Update.build_reports_first_fault` — **what fails, and with which error**.
-/

import UpdateSql.Proofs.Statement.Writing
import UpdateSql.Proofs.Update.Calls
import UpdateSql.Proofs.Value.Faults

set_option relaxedAutoImplicit false
set_option autoImplicit false

namespace UpdateSql

open Outcome (Reports)

/-! ### Parts of a statement -/

/-- The fault of a target, if it is a class or a cluster without a name. -/
def Target.faults : Target → List Error
  | .record _ => []
  | .ofClass name => nameFaults .className name
  | .cluster name => nameFaults .cluster name

/-- The faults of an entry of a REMOVE clause. -/
def removalFaults : String × Option Value → List Error
  | (name, none) => nameFaults .field name
  | (name, some v) => nameFaults .field name ++ v.faults

/-- The faults of the operand of a test. -/
def Op.faults : Op → List Error
  | .compare _ v => v.faults
  | .isNull => []
  | .contains (.value v) => v.faults
  | .contains (.fieldEq name v) => nameFaults .field name ++ v.faults

/-- The faults of a condition, its own name before its test. -/
def Condition.faults (c : Condition) : List Error :=
  nameFaults .conditionField c.field ++ c.op.faults

/-- The faults of all clauses of a statement, in reading order. -/
def Statement.faults (s : Statement) : List Error :=
  s.assignments.flatMap entryFaults ++ (s.additions.flatMap entryFaults ++
    (s.removals.flatMap removalFaults ++ s.chain.conditions.flatMap Condition.faults))

theorem Target.reports_check (t : Target) : Reports t.check t.faults := by
  cases t with
  | record id => exact .ok ()
  | ofClass name =>
      have h : Reports (Target.ofClass name).check (nameFaults .className name ++ []) :=
        reports_of_name .className name (.ok ())
      rwa [List.append_nil] at h
  | cluster name =>
      have h : Reports (Target.cluster name).check (nameFaults .cluster name ++ []) :=
        reports_of_name .cluster name (.ok ())
      rwa [List.append_nil] at h

section

variable (mode : QuoteMode)

theorem reports_removalChars (entry : String × Option Value) :
    Reports (removalChars mode entry) (removalFaults entry) := by
  obtain ⟨name, _ | v⟩ := entry
  · have h : Reports (removalChars mode (name, none)) (nameFaults .field name ++ []) :=
      reports_of_name .field name (.ok name.toList)
    rwa [List.append_nil] at h
  · exact reports_assignmentChars (v.reports_literalChars mode)

theorem Op.reports_operandChars (op : Op) : Reports (op.operandChars mode) op.faults := by
  cases op with
  | compare comparison v => exact (v.reports_literalChars mode).map _
  | isNull => exact .ok _
  | contains operand =>
      cases operand with
      | value v => exact (v.reports_literalChars mode).map _
      | fieldEq name v =>
          exact (reports_assignmentChars (v.reports_literalChars mode)).map _

theorem Condition.reports_chars (c : Condition) : Reports (c.chars mode) c.faults :=
  reports_of_name .conditionField c.field ((c.op.reports_operandChars mode).map _)

theorem Statement.reports_whereChars (s : Statement) :
    Reports (s.whereChars mode) (s.chain.conditions.flatMap Condition.faults) := by
  have h : Reports (s.chain.conditions.mapM (Condition.chars mode))
      (s.chain.conditions.flatMap Condition.faults) :=
    .mapM fun c _ => c.reports_chars mode
  rw [Statement.whereChars, WhereChain.chars, WhereChain.isEmpty]
  -- without conditions nothing is written, not even the keyword
  cases hc : s.chain.conditions with
  | nil => exact .ok _
  | cons c conditions =>
      rw [hc] at h
      exact (h.map _).map _

/-- **Writing a statement reports the first fault of its clauses.** -/
theorem Statement.reports_chars (s : Statement) : Reports (s.chars mode) s.faults := by
  have hentries : ∀ entries : List (String × Value),
      Reports (Value.assignments mode entries) (entries.flatMap entryFaults) :=
    fun entries => reports_assignments fun entry _ => entry.2.reports_literalChars mode
  refine (hentries s.assignments).bind fun assignments _ => ?_
  refine (hentries s.additions).bind fun additions _ => ?_
  refine Reports.bind (.mapM fun entry _ => reports_removalChars mode entry) fun removals _ => ?_
  exact (s.reports_whereChars mode).map _

end

/-! ### Updates -/

namespace Update

variable {stage : Stage}

/-- The faults of the target: that there is none, or that it has no name. -/
def targetFaults (q : Update stage) : List Error :=
  match q.explicitTarget, q.document with
  | some t, _ => t.faults
  | none, some ⟨_, some _, _⟩ => []
  | none, some ⟨some name, none, _⟩ => nameFaults .className name
  | none, some ⟨none, none, _⟩ => [.missingTarget]
  | none, none => [.missingTarget]

/-- The faults of the SET clause: of the fields of the attached document, and then of the fields
that values were assigned to. -/
def setFaults (q : Update stage) : List Error :=
  (match q.document with
    | some d => d.fields.flatMap entryFaults
    | none => []) ++ q.assignments.flatMap entryFaults

/-- All faults of an update: of its target first, and then of its clauses in reading order. -/
def faults (q : Update stage) : List Error :=
  q.targetFaults ++ (q.setFaults ++ (q.additions.flatMap entryFaults ++
    (q.removals.flatMap removalFaults ++ q.chain.conditions.flatMap Condition.faults)))

theorem flatMap_entryFaults_setEntries (q : Update stage) :
    q.setEntries.flatMap entryFaults = q.setFaults := by
  rw [setEntries, setFaults, List.flatMap_append]
  cases q.document <;> rfl

/-- Either there is no target, or the faults are those of the target there is. -/
theorem resolveTarget_cases (q : Update stage) :
    (q.resolveTarget = .error .missingTarget ∧ q.targetFaults = [.missingTarget]) ∨
      ∃ t, q.resolveTarget = .ok t ∧ q.targetFaults = t.faults := by
  obtain ⟨explicitTarget, document, _, _, _, _⟩ := q
  cases explicitTarget with
  | some t => exact .inr ⟨t, rfl, rfl⟩
  | none =>
      rcases document with _ | ⟨_ | name, _ | id, fields⟩
      · exact .inl ⟨rfl, rfl⟩
      · exact .inl ⟨rfl, rfl⟩
      · exact .inr ⟨.record id, rfl, rfl⟩
      · exact .inr ⟨.ofClass name, rfl, rfl⟩
      · exact .inr ⟨.record id, rfl, rfl⟩

theorem reports_validate (q : Update stage) : Reports q.validate q.targetFaults := by
  rw [validate]
  rcases q.resolveTarget_cases with ⟨hres, hfaults⟩ | ⟨t, hres, hfaults⟩
  · rw [hres, hfaults]
    exact .error _ []
  · rw [hres, hfaults]
    exact t.reports_check

theorem reports_statement (q : Update stage) : Reports q.statement q.targetFaults := by
  rw [statement]
  rcases q.resolveTarget_cases with ⟨hres, hfaults⟩ | ⟨t, hres, hfaults⟩
  · rw [hres, hfaults]
    exact .error _ []
  · rw [hres, hfaults]
    exact t.reports_check.map _

/-- **Building reports the first of all faults.** -/
theorem reports_buildChars (mode : QuoteMode) (q : Update stage) :
    Reports (q.buildChars mode) q.faults := by
  refine q.reports_statement.bind fun s hs => ?_
  obtain ⟨t, -, -, rfl⟩ := statement_eq_ok_iff.1 hs
  rw [← q.flatMap_entryFaults_setEntries]
  exact Statement.reports_chars mode (q.statementFor t)

theorem target_eq_none_iff (q : Update stage) :
    q.target = none ↔ q.explicitTarget = none ∧
      ∀ d, q.document = some d → d.rid = none ∧ d.className = none := by
  obtain ⟨explicitTarget, document, _, _, _, _⟩ := q
  cases explicitTarget with
  | some t => simp [target, resolveTarget, Except.toOption]
  | none =>
      rcases document with _ | ⟨_ | name, _ | id, fields⟩ <;>
        simp [target, resolveTarget, Document.target?, Except.toOption]

theorem validate_eq_missingTarget_iff (q : Update stage) :
    q.validate = .error .missingTarget ↔ q.target = none := by
  rw [q.reports_validate .missingTarget, target]
  rcases q.resolveTarget_cases with ⟨hres, hfaults⟩ | ⟨t, hres, hfaults⟩
  · simp [hres, hfaults, Except.toOption]
  · rw [hres, hfaults]
    cases t <;> simp [Target.faults, nameFaults, Except.toOption, Error.emptyName, apply_ite]

theorem reports_build (q : Update stage) (config : RenderConfig) :
    Reports (q.build config) q.faults :=
  (q.reports_buildChars config.quoteMode).map _

end Update

/-! ### Faults that calls bring -/

namespace Call

/-- The faults of the target that calls ask for, or that they ask for none. -/
def targetFaults (calls : List Call) : List Error :=
  match wantedTarget calls with
  | some t => t.faults
  | none => [.missingTarget]

/-- The faults that calls bring into an update: in the target, in the entries of the SET clause, of
which those of the attached document come first, and in the other clauses. -/
def faults (calls : List Call) : List Error :=
  targetFaults calls ++ ((wantedAssignments calls).flatMap entryFaults ++
    ((calls.flatMap additions).flatMap entryFaults ++
      ((calls.flatMap removals).flatMap removalFaults ++
        (calls.flatMap conditions).flatMap Condition.faults)))

end Call

namespace Update

section

variable {stage : Stage} {q : Update stage} {calls : List Call}

theorem Records.targetFaults_eq (h : q.Records calls) :
    q.targetFaults = Call.targetFaults calls := by
  rw [Call.targetFaults, ← h.target_eq, target]
  rcases q.resolveTarget_cases with ⟨hres, hfaults⟩ | ⟨t, hres, hfaults⟩ <;>
    simp [hres, hfaults, Except.toOption]

/-- The faults of an update are those that its calls bring. -/
theorem Records.faults_eq (h : q.Records calls) : q.faults = Call.faults calls := by
  rw [faults, Call.faults, h.targetFaults_eq, ← q.flatMap_entryFaults_setEntries, h.setEntries_eq,
    h.additions, h.removals, h.conditions]

end

/-- **What fails, and with which error.**  Building fails exactly when there are faults, with the
first one, whatever the options.  Validating fails with the faults of the target alone, and building
then fails with the same.  There is no target exactly if none is named and no document supplies one,
which is also when validating finds it missing.  The faults are known from the calls: those of the
target they ask for, then of the fields of the document that was attached last, then of what they
assign, add, remove and test.  A value has no literal exactly when it has faults, and the first is
the one that stands for it among the faults of the update. -/
theorem build_reports_first_fault :
    (∀ (stage : Stage) (q : Update stage) (config : RenderConfig) (e : Error),
      q.build config = .error e ↔ q.faults.head? = some e) ∧
    (∀ (stage : Stage) (q : Update stage) (e : Error),
      q.validate = .error e ↔ q.targetFaults.head? = some e) ∧
    (∀ (stage : Stage) (q : Update stage) (e : Error), q.validate = .error e →
      ∀ config, q.build config = .error e) ∧
    (∀ (stage : Stage) (q : Update stage), q.target = none ↔
      q.explicitTarget = none ∧ ∀ d, q.document = some d → d.rid = none ∧ d.className = none) ∧
    (∀ (stage : Stage) (q : Update stage),
      q.target = none ↔ q.validate = .error .missingTarget) ∧
    (∀ (stage : Stage) (q : Update stage) (config config' : RenderConfig) (e : Error),
      q.build config = .error e ↔ q.build config' = .error e) ∧
    (∀ (calls : List Call) (stage : Stage) (q : Update stage), q.Reached calls →
      (∀ (config : RenderConfig) (e : Error),
        q.build config = .error e ↔ (Call.faults calls).head? = some e) ∧
      (∀ e : Error, q.validate = .error e ↔ (Call.targetFaults calls).head? = some e) ∧
      q.target = Call.wantedTarget calls) ∧
    (∀ (v : Value) (mode : QuoteMode) (e : Error),
      v.literal mode = .error e ↔ v.faults.head? = some e) := by
  refine ⟨fun _ q config => q.reports_build config, fun _ q => q.reports_validate, ?_,
    fun _ q => q.target_eq_none_iff, fun _ q => q.validate_eq_missingTarget_iff.symm, ?_, ?_,
    fun v mode => v.reports_literal mode⟩
  · intro stage q e he config
    -- the faults of the target come first among all
    have hhead : q.targetFaults.head? = some e := (q.reports_validate e).1 he
    refine (q.reports_build config e).2 ?_
    rw [faults, List.head?_append, hhead]
    rfl
  · intro stage q config config' e
    rw [q.reports_build config e, q.reports_build config' e]
  · intro calls stage q h
    have hrec : q.Records calls := h.records
    rw [← hrec.faults_eq, ← hrec.targetFaults_eq]
    exact ⟨fun config => q.reports_build config, q.reports_validate, hrec.target_eq⟩

/-- A named class without a name, in spite of a document with a record id, and a nameless field.
Then a NaN that is assigned before a document with a nameless field is attached, and after that
document is replaced a condition without a name. -/
theorem first_of_several_faults :
    (((Update.empty.attach ⟨none, some ⟨1, 2⟩, []⟩).set "" true).onClass "").validate
        = .error (.emptyName .className) ∧
      (((Update.empty.attach ⟨none, some ⟨1, 2⟩, []⟩).set "" true).onClass "").build
        = .error (.emptyName .className) ∧
      ((Update.empty.set "x" (0 / 0 : Float)).attach ⟨some "C", none, [("", .null)]⟩).build
        = .error (.emptyName .field) ∧
      ((((Update.empty.set "x" (0 / 0 : Float)).attach ⟨some "C", none, [("", .null)]⟩).attach
        ⟨some "C", none, [("a", .null)]⟩).whereField "").isNull.build
          = .error (.nonFiniteFloat (0 / 0)) := by
  obtain ⟨-, hvalidate, hbuild, -, -, -, hcalls, -⟩ := build_reports_first_fault
  have h := (hvalidate _ (((Update.empty.attach ⟨none, some ⟨1, 2⟩, []⟩).set "" true).onClass "")
    (.emptyName .className)).2 rfl
  have hattached := (Reached.empty.set "x" (0 / 0 : Float)).attach ⟨some "C", none, [("", .null)]⟩
  have hreplaced := (hattached.attach ⟨some "C", none, [("a", .null)]⟩).whereField "" .isNull
  exact ⟨h, hbuild _ _ _ h .default, ((hcalls _ _ _ hattached).1 .default _).2 rfl,
    ((hcalls _ _ _ hreplaced).1 .default _).2 rfl⟩

end Update

end UpdateSql
