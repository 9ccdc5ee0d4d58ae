/-
**Updates and the calls that lead to them.**

An update under construction is the result of calls, made one after the other on the empty update.
The stage in its type says which calls may come next, but which fields it holds depends on all calls
before.  Here a sequence of calls is data, so that statements can say what an update holds, and what
is written for it, in terms of the sequence alone.

A call that is refused gives no update, so only calls that succeed belong to a sequence.

Main definitions:

* `Call` — a call, with what the caller hands over;
* `Pending.Completes` — the ways to complete a condition, each with the test it puts down;
* `Update.Reached` — the updates that a sequence of calls leads to;
* `Pending.Reached` — the conditions that wait for their test;
* `Call.target?`, `Call.document?`, `Call.assignments`, `Call.additions`, `Call.removals`,
  `Call.conditions` — what a single call contributes;
* `Call.wantedTarget`, `Call.wantedAssignments` — the target of a sequence of calls, and the entries
  of its SET clause;
* `Update.Records` — an update holds what a sequence of calls contributes.

Main results:

* `Pending.Completes.eq_complete` — **a condition is completed by its test**, however that is named;
* `Update.Reached.chainInvariant` — the chain of every update is well-formed, and empty exactly
  while the update is unfiltered;
* `Update.Reached.records` — **an update holds what its calls contribute**;
* `chain_opened_once_then_joined` — **chains are opened once and then joined**, both those put
  together step by step and those inside updates.
-/

import UpdateSql.Proofs.Chain.Shape
import UpdateSql.Proofs.Outcome
import UpdateSql.Update.Statement

set_option relaxedAutoImplicit false
set_option autoImplicit false

namespace UpdateSql

/-! ### Calls -/

/-- A call on an update, with what the caller hands over. -/
inductive Call where
  | attach (d : Document)
  | onRecord (id : RecordId)
  | onClass (name : String)
  | onCluster (name : String)
  | set (field : String) (v : Value)
  | setOpt (field : String) (v : Option Value)
  /-- The value is given by the JSON that was written for it. -/
  | setJson (field : String) (j : Json)
  | setFields (d : Document)
  | add (field : String) (v : Value)
  | remove (field : String)
  | removeValue (field : String) (v : Value)
  /-- A condition that was started or joined, and then completed. -/
  | condition (c : Condition)
  /-- The chain is given by the steps that put it together. -/
  | filter (steps : List Condition)

/-- A condition that waits for its test is completed with a test: the test as a whole is handed
over, or the kind of the test is named and what is to be tested for is handed over. -/
inductive Pending.Completes (p : Pending) : Op → Update .filtered → Prop
  | complete (op : Op) : Completes p op (p.complete op)
  | eq {α : Type} [ToValue α] (a : α) : Completes p (.compare .eq (toValue a)) (p.eq a)
  | ne {α : Type} [ToValue α] (a : α) : Completes p (.compare .ne (toValue a)) (p.ne a)
  | lt {α : Type} [ToValue α] (a : α) : Completes p (.compare .lt (toValue a)) (p.lt a)
  | lte {α : Type} [ToValue α] (a : α) : Completes p (.compare .lte (toValue a)) (p.lte a)
  | gt {α : Type} [ToValue α] (a : α) : Completes p (.compare .gt (toValue a)) (p.gt a)
  | gte {α : Type} [ToValue α] (a : α) : Completes p (.compare .gte (toValue a)) (p.gte a)
  | like {α : Type} [ToValue α] (a : α) : Completes p (.compare .like (toValue a)) (p.like a)
  | isNull : Completes p .isNull p.isNull
  | containsValue {α : Type} [ToValue α] (a : α) :
      Completes p (.contains (.value (toValue a))) (p.containsValue a)
  | containsField {α : Type} [ToValue α] (field : String) (a : α) :
      Completes p (.contains (.fieldEq field (toValue a))) (p.containsField field a)

/-- **A condition is completed by its test**, however the test is named. -/
theorem Pending.Completes.eq_complete {p : Pending} {op : Op} {next : Update .filtered}
    (h : p.Completes op next) : next = p.complete op := by
  cases h with
  | complete | eq | ne | lt | lte | gt | gte | like | isNull | containsValue | containsField => rfl

namespace Update

/-- The updates that a sequence of calls leads to, from the empty one on. -/
inductive Reached : List Call → {stage : Stage} → Update stage → Prop
  | empty : Reached [] Update.empty
  | attach {calls : List Call} {stage : Stage} {q : Update stage} (h : Reached calls q)
      (d : Document) : Reached (calls ++ [.attach d]) (q.attach d)
  | onRecord {calls : List Call} {stage : Stage} {q : Update stage} (h : Reached calls q)
      (id : RecordId) : Reached (calls ++ [.onRecord id]) (q.onRecord id)
  | onClass {calls : List Call} {stage : Stage} {q : Update stage} (h : Reached calls q)
      (name : String) : Reached (calls ++ [.onClass name]) (q.onClass name)
  | onCluster {calls : List Call} {stage : Stage} {q : Update stage} (h : Reached calls q)
      (name : String) : Reached (calls ++ [.onCluster name]) (q.onCluster name)
  | set {calls : List Call} {stage : Stage} {q : Update stage} (h : Reached calls q)
      (field : String) {α : Type} [ToValue α] (a : α) :
      Reached (calls ++ [.set field (toValue a)]) (q.set field a)
  | setOpt {calls : List Call} {stage : Stage} {q : Update stage} (h : Reached calls q)
      (field : String) {α : Type} [ToValue α] (a : Option α) :
      Reached (calls ++ [.setOpt field (a.map toValue)]) (q.setOpt field a)
  | setJson {calls : List Call} {stage : Stage} {q next : Update stage} (h : Reached calls q)
      (field : String) {α : Type} [ToJson α] {a : α} {j : Json} (hj : toJson a = .ok j)
      (hnext : q.setJson field a = .ok next) : Reached (calls ++ [.setJson field j]) next
  | setFields {calls : List Call} {stage : Stage} {q : Update stage} (h : Reached calls q)
      (d : Document) : Reached (calls ++ [.setFields d]) (q.setFields d)
  | add {calls : List Call} {stage : Stage} {q : Update stage} (h : Reached calls q)
      (field : String) {α : Type} [ToValue α] (a : α) :
      Reached (calls ++ [.add field (toValue a)]) (q.add field a)
  | remove {calls : List Call} {stage : Stage} {q : Update stage} (h : Reached calls q)
      (field : String) : Reached (calls ++ [.remove field]) (q.remove field)
  | removeValue {calls : List Call} {stage : Stage} {q : Update stage} (h : Reached calls q)
      (field : String) {α : Type} [ToValue α] (a : α) :
      Reached (calls ++ [.removeValue field (toValue a)]) (q.removeValue field a)
  | whereField {calls : List Call} {q : Update .unfiltered} {next : Update .filtered} {op : Op}
      (h : Reached calls q) (field : String) (hnext : (q.whereField field).Completes op next) :
      Reached (calls ++ [.condition ⟨none, field, op⟩]) next
  | and {calls : List Call} {q next : Update .filtered} {op : Op} (h : Reached calls q)
      (field : String) (hnext : (q.and field).Completes op next) :
      Reached (calls ++ [.condition ⟨some .and, field, op⟩]) next
  | or {calls : List Call} {q next : Update .filtered} {op : Op} (h : Reached calls q)
      (field : String) (hnext : (q.or field).Completes op next) :
      Reached (calls ++ [.condition ⟨some .or, field, op⟩]) next
  | filter {calls : List Call} {q : Update .unfiltered} {next : Update .filtered}
      (h : Reached calls q) (steps : List Condition)
      (hnext : q.filter (.ofSteps steps) = .ok next) :
      Reached (calls ++ [.filter steps]) next

end Update

/-- The conditions that wait for their test, after calls that lead to an update. -/
inductive Pending.Reached : Pending → Prop
  | whereField {calls : List Call} {q : Update .unfiltered} (h : q.Reached calls)
      (field : String) : Reached (q.whereField field)
  | and {calls : List Call} {q : Update .filtered} (h : q.Reached calls) (field : String) :
      Reached (q.and field)
  | or {calls : List Call} {q : Update .filtered} (h : q.Reached calls) (field : String) :
      Reached (q.or field)

/-! ### What a call contributes -/

namespace Call

/-- The target that a call names. -/
@[simp] def target? : Call → Option Target
  | .onRecord id => some (.record id)
  | .onClass name => some (.ofClass name)
  | .onCluster name => some (.cluster name)
  | _ => none

/-- The document that a call attaches. -/
@[simp] def document? : Call → Option Document
  | .attach d => some d
  | _ => none

/-- The entries that a call adds to the SET clause. -/
@[simp] def assignments : Call → List (String × Value)
  | .set field v => [(field, v)]
  | .setOpt field (some v) => [(field, v)]
  | .setJson field j => [(field, .ofJson j)]
  | .setFields d => d.fields
  | _ => []

/-- The entries that a call adds to the ADD clause. -/
@[simp] def additions : Call → List (String × Value)
  | .add field v => [(field, v)]
  | _ => []

/-- The entries that a call adds to the REMOVE clause. -/
@[simp] def removals : Call → List (String × Option Value)
  | .remove field => [(field, none)]
  | .removeValue field v => [(field, some v)]
  | _ => []

/-- The conditions that a call adds to the WHERE clause. -/
@[simp] def conditions : Call → List Condition
  | .condition c => [c]
  | .filter steps => WhereChain.taken steps
  | _ => []

/-! ### What a sequence of calls asks for -/

/-- The target that was named last, or else the record or the class of the document that was
attached last. -/
def wantedTarget (calls : List Call) : Option Target :=
  match (calls.filterMap target?).getLast?, (calls.filterMap document?).getLast? with
  | some t, _ => some t
  | none, some ⟨_, some id, _⟩ => some (.record id)
  | none, some ⟨some name, none, _⟩ => some (.ofClass name)
  | none, some ⟨none, none, _⟩ => none
  | none, none => none

/-- The fields of the document that was attached last, and then the entries of all calls. -/
def wantedAssignments (calls : List Call) : List (String × Value) :=
  (match (calls.filterMap document?).getLast? with
    | some d => d.fields
    | none => []) ++ calls.flatMap assignments

end Call

namespace Update

/-! ### The chain of an update -/

/-- The chain of an update is well-formed, and empty exactly while the update is unfiltered. -/
structure ChainInvariant {stage : Stage} (q : Update stage) : Prop where
  wellFormed : q.chain.WellFormed
  empty_iff : q.chain.conditions = [] ↔ stage = .unfiltered

/-- Calls that leave stage and chain alone keep the invariant. -/
theorem ChainInvariant.of_chain_eq {stage : Stage} {q q' : Update stage} (h : q.ChainInvariant)
    (hc : q'.chain = q.chain) : q'.ChainInvariant :=
  ⟨hc ▸ h.wellFormed, hc ▸ h.empty_iff⟩

/-- Completing a condition keeps the invariant if the chain admits the condition. -/
theorem ChainInvariant.complete {p : Pending} (h : p.update.chain.WellFormed) {op : Op}
    (ha : p.update.chain.Admits ⟨p.combinator, p.field, op⟩) : (p.complete op).ChainInvariant where
  wellFormed := h.push ha
  empty_iff := by simp [Pending.complete, withChain]

/-- The chain of an unfiltered update admits the condition that is started on it. -/
theorem ChainInvariant.admits_whereField {q : Update .unfiltered} (h : q.ChainInvariant)
    (field : String) (op : Op) :
    (q.whereField field).update.chain.Admits ⟨(q.whereField field).combinator, field, op⟩ :=
  ⟨fun _ => h.empty_iff.2 rfl, fun _ => rfl⟩

/-- The chain of a filtered update admits a condition that is joined to it. -/
theorem ChainInvariant.admits_joinField {q : Update .filtered} (h : q.ChainInvariant)
    (combinator : Combinator) (field : String) (op : Op) :
    (q.joinField combinator field).update.chain.Admits
      ⟨(q.joinField combinator field).combinator, field, op⟩ := by
  constructor
  · intro hsome
    cases hsome
  · intro hnil
    have hstage := h.empty_iff.1 hnil
    cases hstage

/-- A chain that is taken over is not empty, and all else stays as it is. -/
theorem filter_eq_ok_iff {q : Update .unfiltered} {c : WhereChain} {next : Update .filtered} :
    q.filter c = .ok next ↔ c.conditions ≠ [] ∧ next = q.withChain c := by
  have hempty : c.isEmpty = true ↔ c.conditions = [] := c.isEmpty_eq_true_iff
  by_cases h : c.conditions = []
  · simp [filter, hempty.2 h, h]
  · simp [filter, mt hempty.1 h, h, eq_comm]

/-- What can be written as JSON is assigned as the value of that JSON. -/
theorem setJson_eq_ok_iff {stage : Stage} {q next : Update stage} {field : String} {α : Type}
    [ToJson α] {a : α} :
    q.setJson field a = .ok next ↔ ∃ j, toJson a = .ok j ∧ next = q.set field j := by
  rw [setJson, Outcome.bind_eq_ok_iff]
  refine exists_congr fun j => and_congr_right fun _ => ?_
  constructor
  · intro h
    cases h
    rfl
  · rintro rfl
    rfl

/-- **The chain of every update is well-formed, and empty exactly while it is unfiltered.** -/
theorem Reached.chainInvariant {calls : List Call} {stage : Stage} {q : Update stage}
    (h : q.Reached calls) : q.ChainInvariant := by
  induction h with
  | empty => exact ⟨WhereChain.wellFormed_empty, by simp [Update.empty, WhereChain.empty]⟩
  | setOpt h field a ih =>
      cases a with
      | none => exact ih
      | some a => exact ih.of_chain_eq rfl
  | setJson h field hj hnext ih =>
      obtain ⟨j, -, rfl⟩ := setJson_eq_ok_iff.1 hnext
      exact ih.of_chain_eq rfl
  | whereField h field hnext ih =>
      obtain rfl := hnext.eq_complete
      exact .complete ih.wellFormed (ih.admits_whereField field _)
  | and h field hnext ih =>
      obtain rfl := hnext.eq_complete
      exact .complete ih.wellFormed (ih.admits_joinField .and field _)
  | or h field hnext ih =>
      obtain rfl := hnext.eq_complete
      exact .complete ih.wellFormed (ih.admits_joinField .or field _)
  | filter h steps hnext ih =>
      obtain ⟨hne, rfl⟩ := filter_eq_ok_iff.1 hnext
      exact ⟨WhereChain.wellFormed_ofSteps steps, by simpa [withChain] using hne⟩
  | attach _ _ ih | onRecord _ _ ih | onClass _ _ ih | onCluster _ _ ih | set _ _ _ ih
  | setFields _ _ ih | add _ _ _ ih | remove _ _ ih | removeValue _ _ _ ih =>
      exact ih.of_chain_eq rfl

/-! ### What an update holds -/

/-- An update holds what a sequence of calls contributes: of targets and documents the last one, of
everything else all in order. -/
structure Records {stage : Stage} (q : Update stage) (calls : List Call) : Prop where
  explicitTarget : q.explicitTarget = (calls.filterMap Call.target?).getLast?
  document : q.document = (calls.filterMap Call.document?).getLast?
  assignments : q.assignments = calls.flatMap Call.assignments
  additions : q.additions = calls.flatMap Call.additions
  removals : q.removals = calls.flatMap Call.removals
  conditions : q.chain.conditions = calls.flatMap Call.conditions

/-- The last of some things that calls may bring, after one more call. -/
theorem getLast?_filterMap_snoc {α : Type} (f : Call → Option α) (calls : List Call)
    (call : Call) : ((calls ++ [call]).filterMap f).getLast?
      = (f call).or (calls.filterMap f).getLast? := by
  rw [List.filterMap_append, List.getLast?_append]
  cases h : f call <;> simp [h]

/-- A call that contributes what it should keeps the records. -/
theorem Records.snoc {stage stage' : Stage} {q : Update stage} {q' : Update stage'}
    {calls : List Call} (h : q.Records calls) (call : Call)
    (ht : q'.explicitTarget = call.target?.or q.explicitTarget)
    (hd : q'.document = call.document?.or q.document)
    (has : q'.assignments = q.assignments ++ call.assignments)
    (hadd : q'.additions = q.additions ++ call.additions)
    (hrem : q'.removals = q.removals ++ call.removals)
    (hcond : q'.chain.conditions = q.chain.conditions ++ call.conditions) :
    q'.Records (calls ++ [call]) where
  explicitTarget := by rw [ht, h.explicitTarget, getLast?_filterMap_snoc]
  document := by rw [hd, h.document, getLast?_filterMap_snoc]
  assignments := by rw [has, h.assignments, List.flatMap_append, List.flatMap_singleton]
  additions := by rw [hadd, h.additions, List.flatMap_append, List.flatMap_singleton]
  removals := by rw [hrem, h.removals, List.flatMap_append, List.flatMap_singleton]
  conditions := by rw [hcond, h.conditions, List.flatMap_append, List.flatMap_singleton]

/-- Completing a condition keeps the records. -/
theorem Records.complete {p : Pending} {calls : List Call} (h : p.update.Records calls) (op : Op) :
    (p.complete op).Records (calls ++ [.condition ⟨p.combinator, p.field, op⟩]) := by
  refine h.snoc (.condition ⟨p.combinator, p.field, op⟩) ?_ ?_ ?_ ?_ ?_ ?_ <;>
    simp [Pending.complete, withChain]

/-- **An update holds what its calls contribute.** -/
theorem Reached.records {calls : List Call} {stage : Stage} {q : Update stage}
    (h : q.Reached calls) : q.Records calls := by
  induction h with
  | empty => exact ⟨rfl, rfl, rfl, rfl, rfl, rfl⟩
  | attach _ d ih => refine ih.snoc (.attach d) ?_ ?_ ?_ ?_ ?_ ?_ <;> simp [Update.attach]
  | onRecord _ id ih =>
      refine ih.snoc (.onRecord id) ?_ ?_ ?_ ?_ ?_ ?_ <;> simp [Update.onRecord, on]
  | onClass _ name ih =>
      refine ih.snoc (.onClass name) ?_ ?_ ?_ ?_ ?_ ?_ <;> simp [Update.onClass, on]
  | onCluster _ name ih =>
      refine ih.snoc (.onCluster name) ?_ ?_ ?_ ?_ ?_ ?_ <;> simp [Update.onCluster, on]
  | set _ field a ih =>
      refine ih.snoc (.set field (toValue a)) ?_ ?_ ?_ ?_ ?_ ?_ <;> simp [Update.set, assign]
  | setOpt _ field a ih =>
      cases a with
      | none => refine ih.snoc (.setOpt field none) ?_ ?_ ?_ ?_ ?_ ?_ <;> simp [Update.setOpt]
      | some a =>
          refine ih.snoc (.setOpt field (some (toValue a))) ?_ ?_ ?_ ?_ ?_ ?_ <;>
            simp [Update.setOpt, Update.set, assign]
  | @setJson _ _ _ _ _ field _ _ _ j hj hnext ih =>
      obtain ⟨j', hj', rfl⟩ := setJson_eq_ok_iff.1 hnext
      obtain rfl : j = j' := Except.ok.inj (hj.symm.trans hj')
      refine ih.snoc (.setJson field j) ?_ ?_ ?_ ?_ ?_ ?_ <;>
        simp [Update.set, assign, toValue]
  | setFields _ d ih =>
      refine ih.snoc (.setFields d) ?_ ?_ ?_ ?_ ?_ ?_ <;> simp [Update.setFields, assign]
  | add _ field a ih =>
      refine ih.snoc (.add field (toValue a)) ?_ ?_ ?_ ?_ ?_ ?_ <;> simp [Update.add]
  | remove _ field ih =>
      refine ih.snoc (.remove field) ?_ ?_ ?_ ?_ ?_ ?_ <;> simp [Update.remove]
  | removeValue _ field a ih =>
      refine ih.snoc (.removeValue field (toValue a)) ?_ ?_ ?_ ?_ ?_ ?_ <;>
        simp [Update.removeValue]
  | @whereField calls q _ op _ field hnext ih =>
      obtain rfl := hnext.eq_complete
      -- the update that waits is at the next stage, but holds the same
      have hwaiting : (q.whereField field).update.Records calls :=
        ⟨ih.explicitTarget, ih.document, ih.assignments, ih.additions, ih.removals, ih.conditions⟩
      exact hwaiting.complete op
  | @and calls q _ op _ field hnext ih =>
      obtain rfl := hnext.eq_complete
      have hwaiting : (q.and field).update.Records calls := ih
      exact hwaiting.complete op
  | @or calls q _ op _ field hnext ih =>
      obtain rfl := hnext.eq_complete
      have hwaiting : (q.or field).update.Records calls := ih
      exact hwaiting.complete op
  | filter h steps hnext ih =>
      -- the chain that is replaced has no condition, because the update was unfiltered
      have hnil := h.chainInvariant.empty_iff.2 rfl
      obtain ⟨-, rfl⟩ := filter_eq_ok_iff.1 hnext
      refine ih.snoc (.filter steps) ?_ ?_ ?_ ?_ ?_ ?_ <;>
        simp [withChain, hnil, WhereChain.conditions_ofSteps]

section

variable {stage : Stage} {q : Update stage} {calls : List Call}

/-- The target of an update is the one its calls ask for. -/
theorem Records.target_eq (h : q.Records calls) : q.target = Call.wantedTarget calls := by
  rw [target, resolveTarget, Call.wantedTarget, h.explicitTarget, h.document]
  cases (calls.filterMap Call.target?).getLast? with
  | some t => rfl
  | none =>
      rcases (calls.filterMap Call.document?).getLast? with _ | ⟨_ | name, _ | id, fields⟩ <;> rfl

/-- The entries of the SET clause are the ones the calls ask for. -/
theorem Records.setEntries_eq (h : q.Records calls) :
    q.setEntries = Call.wantedAssignments calls := by
  rw [Call.wantedAssignments, ← h.document, ← h.assignments]
  rfl

end

end Update

/-! ### The discipline of chains -/

/-- A condition that waits for its test stands behind a well-formed chain that admits it. -/
theorem Pending.Reached.admits {p : Pending} (h : p.Reached) :
    p.update.chain.WellFormed ∧ ∀ op, p.update.chain.Admits ⟨p.combinator, p.field, op⟩ := by
  cases h with
  | whereField h field =>
      have hq := h.chainInvariant
      exact ⟨hq.wellFormed, hq.admits_whereField field⟩
  | and h field =>
      have hq := h.chainInvariant
      exact ⟨hq.wellFormed, hq.admits_joinField .and field⟩
  | or h field =>
      have hq := h.chainInvariant
      exact ⟨hq.wellFormed, hq.admits_joinField .or field⟩

/-- **Chains are opened once and then joined.**  Of a run of steps the first opening one is taken
up and then every joining one; a step that is not taken up is misuse of the chain and leaves it as
it was.  So a chain is well-formed after every run, and so is the chain of every update, which is
empty exactly while the update is unfiltered.  Wherever a condition is put at the end of a chain, by
a step or by completing a condition, the chain admits it. -/
theorem chain_opened_once_then_joined :
    (∀ steps, (WhereChain.ofSteps steps).conditions = WhereChain.taken steps) ∧
    (∀ before s, (s.combinator = none ↔ ∀ t ∈ before, t.combinator ≠ none) →
      (WhereChain.ofSteps before).append s = .ok ((WhereChain.ofSteps before).push s) ∧
        WhereChain.ofSteps (before ++ [s]) = (WhereChain.ofSteps before).push s) ∧
    (∀ before s, ¬ (s.combinator = none ↔ ∀ t ∈ before, t.combinator ≠ none) →
      ∃ e, (WhereChain.ofSteps before).append s = .error e ∧ e.isMalformedCondition = true ∧
        WhereChain.ofSteps (before ++ [s]) = WhereChain.ofSteps before) ∧
    (∀ steps, (WhereChain.ofSteps steps).WellFormed) ∧
    (∀ (calls : List Call) (stage : Stage) (q : Update stage), q.Reached calls →
      q.chain.WellFormed ∧ (q.chain.conditions = [] ↔ stage = .unfiltered)) ∧
    (∀ (c next : WhereChain) (field : String) (op : Op), c.start field op = .ok next →
      c.Admits ⟨none, field, op⟩ ∧ next = c.push ⟨none, field, op⟩) ∧
    (∀ (c next : WhereChain) (combinator : Combinator) (field : String) (op : Op),
      c.join combinator field op = .ok next →
        c.Admits ⟨some combinator, field, op⟩ ∧ next = c.push ⟨some combinator, field, op⟩) ∧
    (∀ p : Pending, p.Reached → p.update.chain.WellFormed ∧ ∀ op,
      p.update.chain.Admits ⟨p.combinator, p.field, op⟩ ∧
        (p.complete op).chain = p.update.chain.push ⟨p.combinator, p.field, op⟩) := by
  refine ⟨WhereChain.conditions_ofSteps, ?_, ?_, WhereChain.wellFormed_ofSteps, ?_, ?_, ?_, ?_⟩
  · intro before s h
    have ha := (WhereChain.admits_ofSteps_iff before s).2 h
    rw [WhereChain.ofSteps_snoc]
    exact ⟨WhereChain.append_eq_ok_iff.2 ⟨ha, rfl⟩, WhereChain.step_of_admits ha⟩
  · intro before s h
    have ha := mt (WhereChain.admits_ofSteps_iff before s).1 h
    obtain ⟨e, he, hkind⟩ := WhereChain.exists_error_of_not_admits ha
    rw [WhereChain.ofSteps_snoc]
    exact ⟨e, he, hkind, WhereChain.step_of_not_admits ha⟩
  · intro calls stage q h
    exact ⟨h.chainInvariant.wellFormed, h.chainInvariant.empty_iff⟩
  · intro c next field op h
    have happ : c.append ⟨none, field, op⟩ = .ok next := h
    exact WhereChain.append_eq_ok_iff.1 happ
  · intro c next combinator field op h
    have happ : c.append ⟨some combinator, field, op⟩ = .ok next := h
    exact WhereChain.append_eq_ok_iff.1 happ
  · intro p hp
    obtain ⟨hwf, ha⟩ := hp.admits
    exact ⟨hwf, fun op => ⟨ha op, rfl⟩⟩

/-- A run that starts too early and opens twice, an update with a condition, and one that waits. -/
theorem chain_of_misplaced_steps :
    (WhereChain.ofSteps [⟨some .and, "a", .isNull⟩, ⟨none, "b", .isNull⟩, ⟨none, "c", .isNull⟩,
      ⟨some .or, "d", .isNull⟩]).conditions = [⟨none, "b", .isNull⟩, ⟨some .or, "d", .isNull⟩] ∧
    ((Update.empty.whereField "b").complete .isNull).chain.conditions ≠ [] ∧
    ((Update.empty.whereField "b").complete .isNull |>.or "d").update.chain.Admits
      ⟨some .or, "d", .isNull⟩ := by
  obtain ⟨hrun, -, -, -, hreached, -, -, hpending⟩ := chain_opened_once_then_joined
  have hq : ((Update.empty.whereField "b").complete .isNull).Reached
      ([] ++ [.condition ⟨none, "b", .isNull⟩]) := .whereField .empty "b" .isNull
  refine ⟨hrun _, ?_, ?_⟩
  · intro hnil
    have hstage := (hreached _ _ _ hq).2.1 hnil
    cases hstage
  · exact ((hpending _ (.or hq "d")).2 .isNull).1

end UpdateSql
