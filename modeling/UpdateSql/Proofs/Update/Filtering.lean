/-
**Conditions given as a chain or one after the other.**

The WHERE clause of an update can be put together beforehand, as a chain that is then taken over, or
condition by condition on the update itself, or partly in the one way and partly in the other.  In
between, the target and the fields of the update may be edited at any time.  This module says that
none of this matters: the update that comes out is known from the conditions in their order and from
the edits in theirs.

The clause is written in two places as well, alone for a chain and at the end of a statement for an
update.  The text of an update that takes over a chain is the text it had before, and after a space
the text of the chain.

Main definitions:

* `Interleaving` — a list that is made of two others, each in its own order;
* `Call.IsEdit`, `Call.Opens`, `Call.Joins` — calls that leave the WHERE clause alone, start it, and
  continue it.

Main results:

* `Update.Reached.exists_edit`, `Update.Reached.exists_open`, `Update.Reached.exists_join` — **calls
  can be made** at the stage where the type allows them;
* `Update.Records.eq_ofCalls` — an update is known from what its calls contribute;
* `Update.build_withChain` — the text of an update, and after it the text of a chain;
* `Update.chain_agrees_with_single_conditions` — **however the conditions are given, the update is
  the same**.
-/

import UpdateSql.Proofs.Update.Calls
import UpdateSql.Proofs.Statement.Writing

set_option relaxedAutoImplicit false
set_option autoImplicit false

namespace UpdateSql

/-! ### Interleavings -/

/-- A list that is made of two others: it has the members of both, those of each in their order. -/
inductive Interleaving {α : Type} : List α → List α → List α → Prop
  | nil : Interleaving [] [] []
  | left {a : α} {l m whole : List α} (h : Interleaving l m whole) :
      Interleaving (a :: l) m (a :: whole)
  | right {a : α} {l m whole : List α} (h : Interleaving l m whole) :
      Interleaving l (a :: m) (a :: whole)

namespace Interleaving

variable {α β : Type} {l m whole : List α}

theorem swap (h : Interleaving l m whole) : Interleaving m l whole := by
  induction h with
  | nil => exact .nil
  | left _ ih => exact .right ih
  | right _ ih => exact .left ih

/-- One list after the other. -/
theorem append (l m : List α) : Interleaving l m (l ++ m) := by
  induction l with
  | nil =>
      induction m with
      | nil => exact .nil
      | cons a m ih => exact .right ih
  | cons a l ih => exact .left ih

/-- If only the members of the one list contribute, the whole contributes what that list does. -/
theorem flatMap_eq (h : Interleaving l m whole) {f : α → List β} (hf : ∀ a ∈ m, f a = []) :
    whole.flatMap f = l.flatMap f := by
  induction h with
  | nil => rfl
  | left _ ih => rw [List.flatMap_cons, List.flatMap_cons, ih hf]
  | right _ ih =>
      rw [List.forall_mem_cons] at hf
      rw [List.flatMap_cons, hf.1, List.nil_append, ih hf.2]

theorem filterMap_eq (h : Interleaving l m whole) {f : α → Option β} (hf : ∀ a ∈ m, f a = none) :
    whole.filterMap f = l.filterMap f := by
  induction h with
  | nil => rfl
  | left _ ih => rw [List.filterMap_cons, List.filterMap_cons, ih hf]
  | right _ ih =>
      rw [List.forall_mem_cons] at hf
      rw [List.filterMap_cons_none hf.1, ih hf.2]

end Interleaving

/-! ### Kinds of calls -/

namespace Call

/-- A call that changes the target or the fields of an update and leaves its conditions alone. -/
def IsEdit : Call → Prop
  | .condition _ | .filter _ => False
  | _ => True

/-- A call that starts the WHERE clause, with a condition or with a chain of them. -/
def Opens : Call → Prop
  | .condition c => c.combinator = none
  | .filter steps => (WhereChain.ofSteps steps).conditions ≠ []
  | _ => False

/-- A call that continues the WHERE clause. -/
def Joins : Call → Prop
  | .condition c => c.combinator ≠ none
  | _ => False

theorem conditions_of_isEdit {call : Call} (h : call.IsEdit) : call.conditions = [] := by
  cases call with
  | condition c => cases h
  | filter steps => cases h
  | _ => rfl

theorem not_isEdit_of_opens {call : Call} (h : call.Opens) : ¬ call.IsEdit := by
  cases call with
  | condition c => exact id
  | filter steps => exact id
  | _ => cases h

theorem not_isEdit_of_joins {call : Call} (h : call.Joins) : ¬ call.IsEdit := by
  cases call with
  | condition c => exact id
  | _ => cases h

/-- A call that is no edit contributes conditions alone. -/
theorem contributes_of_not_isEdit {call : Call} (h : ¬ call.IsEdit) :
    call.target? = none ∧ call.document? = none ∧ call.assignments = [] ∧ call.additions = [] ∧
      call.removals = [] := by
  cases call with
  | condition c => exact ⟨rfl, rfl, rfl, rfl, rfl⟩
  | filter steps => exact ⟨rfl, rfl, rfl, rfl, rfl⟩
  | _ => exact absurd trivial h

end Call

namespace Update

/-! ### Calls that can be made -/

namespace Reached

variable {calls : List Call}

/-- An edit can be made at any stage, and does not change it. -/
theorem exists_edit {stage : Stage} {q : Update stage} (h : q.Reached calls) {call : Call}
    (hc : call.IsEdit) : ∃ next : Update stage, next.Reached (calls ++ [call]) := by
  cases call with
  | attach d => exact ⟨_, h.attach d⟩
  | onRecord id => exact ⟨_, h.onRecord id⟩
  | onClass name => exact ⟨_, h.onClass name⟩
  | onCluster name => exact ⟨_, h.onCluster name⟩
  | set field v => exact ⟨_, h.set field v⟩
  | setOpt field v =>
      cases v with
      | none => exact ⟨_, h.setOpt field (none : Option Value)⟩
      | some v => exact ⟨_, h.setOpt field (some v)⟩
  | setJson field j => exact ⟨_, h.setJson field (a := j) rfl rfl⟩
  | setFields d => exact ⟨_, h.setFields d⟩
  | add field v => exact ⟨_, h.add field v⟩
  | remove field => exact ⟨_, h.remove field⟩
  | removeValue field v => exact ⟨_, h.removeValue field v⟩
  | condition c => cases hc
  | filter steps => cases hc

/-- The WHERE clause of an unfiltered update can be started. -/
theorem exists_open {q : Update .unfiltered} (h : q.Reached calls) {call : Call}
    (hc : call.Opens) : ∃ next : Update .filtered, next.Reached (calls ++ [call]) := by
  cases call with
  | condition c =>
      obtain ⟨combinator, field, op⟩ := c
      obtain rfl : combinator = none := hc
      exact ⟨_, h.whereField field (.complete op)⟩
  | filter steps => exact ⟨_, h.filter steps (filter_eq_ok_iff.2 ⟨hc, rfl⟩)⟩
  | _ => cases hc

/-- The WHERE clause of a filtered update can be continued. -/
theorem exists_join {q : Update .filtered} (h : q.Reached calls) {call : Call} (hc : call.Joins) :
    ∃ next : Update .filtered, next.Reached (calls ++ [call]) := by
  cases call with
  | condition c =>
      obtain ⟨combinator, field, op⟩ := c
      cases combinator with
      | none => exact absurd rfl hc
      | some combinator =>
          cases combinator with
          | and => exact ⟨_, h.and field (.complete op)⟩
          | or => exact ⟨_, h.or field (.complete op)⟩
  | _ => cases hc

/-- On a filtered update edits can be made and conditions joined in any order. -/
theorem exists_of_joined {edits joined more : List Call} (hmore : Interleaving edits joined more)
    (hedits : ∀ call ∈ edits, call.IsEdit) (hjoined : ∀ call ∈ joined, call.Joins)
    {q : Update .filtered} (h : q.Reached calls) :
    ∃ next : Update .filtered, next.Reached (calls ++ more) := by
  induction hmore generalizing calls q with
  | nil => exact ⟨q, by rwa [List.append_nil]⟩
  | left _ ih =>
      rw [List.forall_mem_cons] at hedits
      obtain ⟨q', hq'⟩ := h.exists_edit hedits.1
      obtain ⟨next, hnext⟩ := ih hedits.2 hjoined hq'
      exact ⟨next, by rwa [List.append_assoc] at hnext⟩
  | right _ ih =>
      rw [List.forall_mem_cons] at hjoined
      obtain ⟨q', hq'⟩ := h.exists_join hjoined.1
      obtain ⟨next, hnext⟩ := ih hedits hjoined.2 hq'
      exact ⟨next, by rwa [List.append_assoc] at hnext⟩

/-- On an unfiltered update edits can be made, and the WHERE clause started once and then
continued. -/
theorem exists_of_opened {edits joined more : List Call} {opening : Call}
    (hmore : Interleaving edits (opening :: joined) more) (hedits : ∀ call ∈ edits, call.IsEdit)
    (hopening : opening.Opens) (hjoined : ∀ call ∈ joined, call.Joins) {q : Update .unfiltered}
    (h : q.Reached calls) : ∃ next : Update .filtered, next.Reached (calls ++ more) := by
  generalize hothers : opening :: joined = others at hmore
  induction hmore generalizing calls q with
  | nil => cases hothers
  | left _ ih =>
      rw [List.forall_mem_cons] at hedits
      obtain ⟨q', hq'⟩ := h.exists_edit hedits.1
      obtain ⟨next, hnext⟩ := ih hedits.2 hq' hothers
      exact ⟨next, by rwa [List.append_assoc] at hnext⟩
  | right hrest _ =>
      -- the clause is started here, so the rest is made on a filtered update
      obtain ⟨rfl, rfl⟩ := List.cons.inj hothers
      obtain ⟨q', hq'⟩ := h.exists_open hopening
      obtain ⟨next, hnext⟩ := exists_of_joined hrest hedits hjoined hq'
      exact ⟨next, by rwa [List.append_assoc] at hnext⟩

end Reached

/-! ### The update that comes out -/

/-- The update that holds just what a sequence of calls contributes. -/
def ofCalls {stage : Stage} (calls : List Call) : Update stage where
  explicitTarget := (calls.filterMap Call.target?).getLast?
  document := (calls.filterMap Call.document?).getLast?
  assignments := calls.flatMap Call.assignments
  additions := calls.flatMap Call.additions
  removals := calls.flatMap Call.removals
  chain := ⟨calls.flatMap Call.conditions⟩

/-- Only one update holds what a sequence of calls contributes. -/
theorem Records.eq_ofCalls {stage : Stage} {q : Update stage} {calls : List Call}
    (h : q.Records calls) : q = ofCalls calls := by
  obtain ⟨_, _, _, _, _, _⟩ := q
  obtain ⟨rfl, rfl, rfl, rfl, rfl, hconditions⟩ := h
  rw [ofCalls, ← hconditions]

/-- Edits and the other calls contribute to an update on their own, in whatever order they are
made. -/
theorem ofCalls_interleaving {stage : Stage} {edits others more : List Call}
    (hmore : Interleaving edits others more) (hedits : ∀ call ∈ edits, call.IsEdit)
    (hothers : ∀ call ∈ others, ¬ call.IsEdit) (calls : List Call) :
    (ofCalls (calls ++ more) : Update stage) = { (ofCalls (calls ++ edits) : Update stage) with
      chain := ⟨calls.flatMap Call.conditions ++ others.flatMap Call.conditions⟩ } := by
  have hnone := fun call h => Call.contributes_of_not_isEdit (hothers call h)
  have hconditions : more.flatMap Call.conditions = others.flatMap Call.conditions :=
    hmore.swap.flatMap_eq fun call h => Call.conditions_of_isEdit (hedits call h)
  simp only [ofCalls, List.filterMap_append, List.flatMap_append, hconditions,
    hmore.filterMap_eq fun call h => (hnone call h).1,
    hmore.filterMap_eq fun call h => (hnone call h).2.1,
    hmore.flatMap_eq fun call h => (hnone call h).2.2.1,
    hmore.flatMap_eq fun call h => (hnone call h).2.2.2.1,
    hmore.flatMap_eq fun call h => (hnone call h).2.2.2.2]

/-- **Edits made in between do not matter.**  On an unfiltered update, any order of edits with the
calls for a WHERE clause leads to an update, and to one only: it holds what the edits contribute,
and the conditions of the other calls. -/
theorem Reached.iff_of_opened {calls edits joined more : List Call} {b : Update .unfiltered}
    (hb : b.Reached calls) {opening : Call} (hmore : Interleaving edits (opening :: joined) more)
    (hedits : ∀ call ∈ edits, call.IsEdit) (hopening : opening.Opens)
    (hjoined : ∀ call ∈ joined, call.Joins) (q : Update .filtered) :
    q.Reached (calls ++ more) ↔ q = { (ofCalls (calls ++ edits) : Update .filtered) with
      chain := ⟨(opening :: joined).flatMap Call.conditions⟩ } := by
  have hnil : calls.flatMap Call.conditions = [] := by
    rw [← hb.records.conditions]
    exact hb.chainInvariant.empty_iff.2 rfl
  have hothers : ∀ call ∈ opening :: joined, ¬ call.IsEdit := by
    rw [List.forall_mem_cons]
    exact ⟨Call.not_isEdit_of_opens hopening,
      fun call h => Call.not_isEdit_of_joins (hjoined call h)⟩
  rw [← List.nil_append ((opening :: joined).flatMap Call.conditions), ← hnil,
    ← ofCalls_interleaving hmore hedits hothers calls]
  constructor
  · intro h
    exact h.records.eq_ofCalls
  · rintro rfl
    obtain ⟨next, hnext⟩ := exists_of_opened hmore hedits hopening hjoined hb
    rwa [hnext.records.eq_ofCalls] at hnext

/-! ### The text of a statement and the text of a chain -/

end Update

namespace Statement

variable (mode : QuoteMode)

/-- The WHERE clause is written after all else. -/
theorem chars_eq_bind (s : Statement) :
    s.chars mode = (do
      let front ← { s with chain := WhereChain.empty : Statement }.chars mode
      let clause ← s.whereChars mode
      return front ++ clause) := by
  have hempty : { s with chain := WhereChain.empty : Statement }.whereChars mode = pure [] := rfl
  rw [chars, chars, hempty]
  simp only [bind_assoc, pure_bind, List.append_assoc, List.nil_append]

end Statement

namespace Update

theorem buildChars_eq_bind {stage : Stage} (mode : QuoteMode) (q : Update stage) :
    q.buildChars mode = (do
      let t ← q.resolveTarget
      t.check
      (q.statementFor t).chars mode) := by
  simp only [buildChars, statement, bind_assoc, pure_bind]
  rfl

theorem buildChars_withChain {b : Update .unfiltered} (hb : b.chain.conditions = [])
    {c : WhereChain} (hc : c.conditions ≠ []) (mode : QuoteMode) :
    (b.withChain c).buildChars mode = (do
      let front ← b.buildChars mode
      let clause ← c.chars mode
      return front ++ ' ' :: clause) := by
  have htarget : (b.withChain c).resolveTarget = b.resolveTarget := rfl
  have hfront : ∀ t,
      { (b.withChain c).statementFor t with chain := .empty } = b.statementFor t := by
    intro t
    obtain ⟨_, _, _, _, _, ⟨_⟩⟩ := b
    cases hb
    rfl
  have hclause : ∀ t, ((b.withChain c).statementFor t).whereChars mode
      = (c.chars mode).map (' ' :: ·) :=
    fun t => if_neg (mt c.isEmpty_eq_true_iff.1 hc)
  rw [buildChars_eq_bind, buildChars_eq_bind, htarget]
  simp only [bind_assoc]
  refine bind_congr fun t => bind_congr fun _ => ?_
  rw [Statement.chars_eq_bind, hfront, hclause]
  refine bind_congr fun front => ?_
  cases c.chars mode <;> rfl

/-- **The text of an update that takes over a chain** is its text without conditions, and after a
space the text of the chain; a fault of the update is reported before one of the chain. -/
theorem build_withChain {b : Update .unfiltered} (hb : b.chain.conditions = []) {c : WhereChain}
    (hc : c.conditions ≠ []) (config : RenderConfig) :
    (b.withChain c).build config = (do
      let text ← b.build config
      let clause ← c.render config.quoteMode
      return text ++ " " ++ clause) := by
  rw [build, buildChars_withChain hb hc, build, WhereChain.render]
  cases b.buildChars config.quoteMode with
  | error e => rfl
  | ok front =>
      cases c.chars config.quoteMode with
      | error e => rfl
      | ok clause =>
          have htext : String.ofList (front ++ ' ' :: clause)
              = String.ofList front ++ " " ++ String.ofList clause := by
            simp [← String.toList_inj]
          exact congrArg Except.ok htext

/-! ### Chains put together beforehand -/

end Update

namespace WhereChain

/-- No step of a run is refused that joins conditions to an open chain. -/
theorem foldlM_append_of_joined {c : WhereChain} (h : c.conditions ≠ []) {steps : List Condition}
    (hsteps : ∀ s ∈ steps, s.combinator ≠ none) :
    steps.foldlM append c = .ok ⟨c.conditions ++ steps⟩ := by
  induction steps generalizing c with
  | nil => exact congrArg Except.ok (by rw [List.append_nil])
  | cons s steps ih =>
      rw [List.forall_mem_cons] at hsteps
      have hstep : c.append s = .ok (c.push s) :=
        append_eq_ok_iff.2 ⟨⟨fun hs => absurd hs hsteps.1, fun hc => absurd hc h⟩, rfl⟩
      have hrest := ih (c := c.push s) (by simp) hsteps.2
      rw [conditions_push, List.append_assoc, List.singleton_append] at hrest
      rw [List.foldlM_cons, hstep]
      exact hrest

/-- No step of a run is refused that opens a chain and then joins conditions to it. -/
theorem foldlM_append_of_opened {first : Condition} (hfirst : first.combinator = none)
    {later : List Condition} (hlater : ∀ s ∈ later, s.combinator ≠ none) :
    (first :: later).foldlM append empty = .ok ⟨first :: later⟩ := by
  have hstep : empty.append first = .ok (empty.push first) :=
    append_eq_ok_iff.2 ⟨⟨fun _ => rfl, fun _ => hfirst⟩, rfl⟩
  rw [List.foldlM_cons, hstep]
  exact foldlM_append_of_joined (by simp) hlater

/-- Such a run leaves the conditions of its steps. -/
theorem ofSteps_of_opened {first : Condition} (hfirst : first.combinator = none)
    {later : List Condition} (hlater : ∀ s ∈ later, s.combinator ≠ none) :
    ofSteps (first :: later) = ⟨first :: later⟩ := by
  have htaken : taken (first :: later) = first :: later := by
    rw [taken, List.dropWhile_cons_of_neg (by simp [hfirst])]
    refine congrArg (first :: ·) (List.filter_eq_self.2 fun s hs => ?_)
    exact Option.isSome_iff_ne_none.2 (hlater s hs)
  exact congrArg WhereChain.mk ((conditions_ofSteps _).trans htaken)

end WhereChain

namespace Call

theorem flatMap_conditions_map (conditions : List Condition) :
    (conditions.map Call.condition).flatMap Call.conditions = conditions := by
  rw [List.flatMap_map]
  exact List.flatMap_singleton' conditions

theorem joins_of_mem_map {later : List Condition} (hlater : ∀ c ∈ later, c.combinator ≠ none) :
    ∀ call ∈ later.map Call.condition, call.Joins := by
  intro call hcall
  obtain ⟨c, hc, rfl⟩ := List.mem_map.1 hcall
  exact hlater c hc

end Call

namespace Update

section

variable {calls edits : List Call} {b : Update .unfiltered} {first : Condition}
  {later : List Condition}

/-- All conditions are given one by one. -/
theorem Reached.iff_of_single (hb : b.Reached calls) (hfirst : first.combinator = none)
    (hlater : ∀ c ∈ later, c.combinator ≠ none) (hedits : ∀ call ∈ edits, call.IsEdit)
    {single : List Call} (hsingle : Interleaving edits ((first :: later).map .condition) single)
    (q : Update .filtered) : q.Reached (calls ++ single) ↔
      q = { (ofCalls (calls ++ edits) : Update .filtered) with chain := ⟨first :: later⟩ } := by
  rw [List.map_cons] at hsingle
  rw [hb.iff_of_opened hsingle hedits hfirst (Call.joins_of_mem_map hlater), ← List.map_cons,
    Call.flatMap_conditions_map]

/-- The first part of the conditions is given as a chain. -/
theorem Reached.iff_of_cut (hb : b.Reached calls) (hfirst : first.combinator = none)
    (hedits : ∀ call ∈ edits, call.IsEdit) {start rest : List Condition}
    (hstart : ∀ c ∈ start, c.combinator ≠ none) (hrest : ∀ c ∈ rest, c.combinator ≠ none)
    {mixed : List Call}
    (hmixed : Interleaving edits (.filter (first :: start) :: rest.map .condition) mixed)
    (q : Update .filtered) : q.Reached (calls ++ mixed) ↔
      q = { (ofCalls (calls ++ edits) : Update .filtered) with
        chain := ⟨first :: (start ++ rest)⟩ } := by
  have hchain := WhereChain.ofSteps_of_opened hfirst hstart
  have hopens : (Call.filter (first :: start)).Opens := by
    rw [Call.Opens, hchain]
    exact List.cons_ne_nil _ _
  have htaken : (Call.filter (first :: start)).conditions = first :: start := by
    rw [Call.conditions, ← WhereChain.conditions_ofSteps, hchain]
  rw [hb.iff_of_opened hmixed hedits hopens (Call.joins_of_mem_map hrest), List.flatMap_cons,
    htaken, Call.flatMap_conditions_map, List.cons_append]

end

/-- **However the conditions are given, the update is the same.**  Say that on an unfiltered update
there are edits to be made, and conditions to be given, of which the first opens the WHERE clause
and the others are joined to it.  Then there is one update to which all ways lead: giving the
conditions one by one, with the edits made in between in any manner; putting any first part of them
together as a chain, of which no step is refused, taking over the chain and giving the others one by
one; and taking over the chain of all conditions when the edits are made.  So all that can be seen
of the update is the same, too: its conditions, its target, the outcome of validating it and its
text.

The text of an update that takes over a chain is its own text, a space and the text of the chain; if
there is none, the fault of the update is reported, or else that of the chain.  A chain without
conditions is not taken over. -/
theorem chain_agrees_with_single_conditions :
    (∀ (calls : List Call) (b : Update .unfiltered), b.Reached calls →
      ∀ (first : Condition) (later : List Condition), first.combinator = none →
      (∀ c ∈ later, c.combinator ≠ none) →
      ∀ edits : List Call, (∀ call ∈ edits, call.IsEdit) →
      ∃ q : Update .filtered, q.chain.conditions = first :: later ∧
        (∀ single, Interleaving edits ((first :: later).map .condition) single →
          ∀ q' : Update .filtered, q'.Reached (calls ++ single) ↔ q' = q) ∧
        (∀ start rest, start ≠ [] → start ++ rest = first :: later →
          start.foldlM WhereChain.append .empty = .ok (.ofSteps start) ∧
          ∀ mixed, Interleaving edits (.filter start :: rest.map .condition) mixed →
            ∀ q' : Update .filtered, q'.Reached (calls ++ mixed) ↔ q' = q) ∧
        (∀ q' : Update .filtered,
          q'.Reached (calls ++ (edits ++ [.filter (first :: later)])) ↔ q' = q)) ∧
    (∀ (calls : List Call) (b : Update .unfiltered), b.Reached calls →
      ∀ c : WhereChain, c.conditions ≠ [] → ∀ config : RenderConfig,
        (do
          let q ← b.filter c
          q.build config) = (do
          let text ← b.build config
          let clause ← c.render config.quoteMode
          return text ++ " " ++ clause)) ∧
    (∀ (b : Update .unfiltered) (c : WhereChain), c.conditions = [] →
      ∃ e, b.filter c = .error e ∧ e.isMalformedCondition = true) := by
  refine ⟨?_, ?_, ?_⟩
  · intro calls b hb first later hfirst hlater edits hedits
    refine ⟨{ (ofCalls (calls ++ edits) : Update .filtered) with chain := ⟨first :: later⟩ }, rfl,
      fun _ hsingle => hb.iff_of_single hfirst hlater hedits hsingle, ?_, ?_⟩
    · intro start rest hne hcut
      obtain ⟨_, start, rfl⟩ := List.exists_cons_of_ne_nil hne
      rw [List.cons_append] at hcut
      obtain ⟨rfl, rfl⟩ := List.cons.inj hcut
      rw [List.forall_mem_append] at hlater
      have hsteps := WhereChain.foldlM_append_of_opened hfirst hlater.1
      rw [← WhereChain.ofSteps_of_opened hfirst hlater.1] at hsteps
      exact ⟨hsteps, fun _ => hb.iff_of_cut hfirst hedits hlater.1 hlater.2⟩
    · intro q'
      -- the whole is the cut that leaves nothing to be given one by one
      have hwhole : Interleaving edits (.filter (first :: later) :: [].map .condition)
          (edits ++ [.filter (first :: later)]) := .append _ _
      rw [hb.iff_of_cut hfirst hedits hlater (List.forall_mem_nil _) hwhole, List.append_nil]
  · intro calls b hb c hc config
    have hnil : b.chain.conditions = [] := hb.chainInvariant.empty_iff.2 rfl
    rw [filter_eq_ok_iff.2 ⟨hc, rfl⟩]
    exact build_withChain hnil hc config
  · intro b c hc
    exact ⟨emptyFilter, if_pos (c.isEmpty_eq_true_iff.2 hc), rfl⟩

/-- One of two conditions in a chain and the other after an addition, and both one by one. -/
theorem chain_of_first_of_two_conditions :
    (∃ q : Update .filtered,
      q.chain.conditions = [⟨none, "a", .isNull⟩, ⟨some .or, "b", .isNull⟩] ∧
      q.Reached [.onClass "A", .condition ⟨none, "a", .isNull⟩, .add "x" .null,
        .condition ⟨some .or, "b", .isNull⟩] ∧
      q.Reached [.onClass "A", .filter [⟨none, "a", .isNull⟩], .add "x" .null,
        .condition ⟨some .or, "b", .isNull⟩]) ∧
    (do
      let q ← (Update.empty.onClass "A").filter (.ofSteps [⟨none, "a", .isNull⟩])
      q.build) = .ok "UPDATE A WHERE a IS NULL" ∧
    ∃ e, (Update.empty.onClass "A").filter .empty = .error e ∧ e.isMalformedCondition = true := by
  obtain ⟨hways, htext, hempty⟩ := chain_agrees_with_single_conditions
  have hb : (Update.empty.onClass "A").Reached [.onClass "A"] := Reached.empty.onClass "A"
  refine ⟨?_, ?_, hempty _ _ rfl⟩
  · obtain ⟨q, hq, hsingle, hcut, -⟩ := hways _ _ hb ⟨none, "a", .isNull⟩
      [⟨some .or, "b", .isNull⟩] rfl (by simp) [.add "x" .null] (by simp [Call.IsEdit])
    have hmixed := (hcut [⟨none, "a", .isNull⟩] [⟨some .or, "b", .isNull⟩] (by simp) rfl).2
    exact ⟨q, hq, (hsingle _ (.right (.left (.right .nil))) q).2 rfl,
      (hmixed _ (.right (.left (.right .nil))) q).2 rfl⟩
  · rw [htext _ _ hb (.ofSteps [⟨none, "a", .isNull⟩]) (by decide) .default]
    rfl

end Update

end UpdateSql
