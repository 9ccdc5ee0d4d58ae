/-
**The shape of condition chains.**

Whatever steps are tried on a chain, in whatever order, the chain that comes out is opened by one
condition without combinator and continued by conditions that have one.  Nothing in the type of
chains says so: `WhereChain.push` puts any condition at the end and relies on its callers.  This
module says what they see to, and what a run of steps therefore leaves.

Main definitions:

* `WhereChain.Admits` — a condition may be put at the end of a chain;
* `WhereChain.WellFormed` — of the conditions of a chain just the first one has no combinator;
* `WhereChain.taken` — the steps of a run that are taken up.

Main results:

* `WhereChain.append_eq_ok_iff` — a step succeeds exactly when the condition may be put at the end,
  and then puts it there;
* `WhereChain.conditions_ofSteps` — **a run leaves the steps that are taken up**;
* `WhereChain.wellFormed_ofSteps` — every run leaves a well-formed chain.
-/

import Mathlib.Data.List.Induction
import Mathlib.Data.List.TakeWhile
import UpdateSql.Condition.Chain

set_option relaxedAutoImplicit false
set_option autoImplicit false

namespace UpdateSql.WhereChain

/-! ### What may be put at the end -/

/-- A condition may be put at the end of a chain if it has no combinator exactly when the chain is
empty. -/
def Admits (c : WhereChain) (condition : Condition) : Prop :=
  condition.combinator = none ↔ c.conditions = []

/-- A step succeeds exactly when the condition may be put at the end, and then puts it there. -/
theorem append_eq_ok_iff {c next : WhereChain} {condition : Condition} :
    c.append condition = .ok next ↔ c.Admits condition ∧ next = c.push condition := by
  obtain ⟨combinator, field, op⟩ := condition
  have hempty : c.isEmpty = true ↔ c.conditions = [] := isEmpty_eq_true_iff c
  cases combinator with
  | none =>
      by_cases h : c.conditions = []
      · simp [append, start, Admits, hempty.2 h, h, eq_comm]
      · simp [append, start, Admits, mt hempty.1 h, h]
  | some combinator =>
      by_cases h : c.conditions = []
      · simp [append, join, Admits, hempty.2 h, h]
      · simp [append, join, Admits, mt hempty.1 h, h, eq_comm]

/-- A condition that may not be put at the end is refused as misuse of the chain. -/
theorem exists_error_of_not_admits {c : WhereChain} {condition : Condition}
    (h : ¬ c.Admits condition) :
    ∃ e, c.append condition = .error e ∧ e.isMalformedCondition = true := by
  obtain ⟨combinator, field, op⟩ := condition
  have hempty : c.isEmpty = true ↔ c.conditions = [] := isEmpty_eq_true_iff c
  cases combinator with
  | none =>
      have hne : c.conditions ≠ [] := by simpa [Admits] using h
      exact ⟨.alreadyStarted field, by simp [append, start, mt hempty.1 hne], rfl⟩
  | some combinator =>
      have heq : c.conditions = [] := by simpa [Admits] using h
      exact ⟨.notStarted combinator field, by simp [append, join, hempty.2 heq], rfl⟩

/-- A step that succeeds puts its condition at the end. -/
theorem step_of_admits {c : WhereChain} {condition : Condition} (h : c.Admits condition) :
    c.step condition = c.push condition := by
  rw [step, append_eq_ok_iff.2 ⟨h, rfl⟩]

/-- A step that is refused leaves the chain as it was. -/
theorem step_of_not_admits {c : WhereChain} {condition : Condition} (h : ¬ c.Admits condition) :
    c.step condition = c := by
  obtain ⟨e, he, -⟩ := exists_error_of_not_admits h
  rw [step, he]

/-! ### Well-formed chains -/

/-- Of the conditions of a chain just the first one has no combinator. -/
def WellFormed (c : WhereChain) : Prop :=
  ∀ i condition, c.conditions[i]? = some condition → (condition.combinator = none ↔ i = 0)

theorem wellFormed_empty : empty.WellFormed := by
  intro i condition h
  simp at h

/-- A chain stays well-formed when a condition is put at its end that may be put there. -/
theorem WellFormed.push {c : WhereChain} (h : c.WellFormed) {condition : Condition}
    (ha : c.Admits condition) : (c.push condition).WellFormed := by
  intro i found hi
  rw [conditions_push, List.getElem?_append] at hi
  split at hi
  · exact h i found hi
  · next hlen =>
      -- past the old conditions there is only the new one, at the old length
      obtain ⟨hzero, rfl⟩ : i - c.conditions.length = 0 ∧ condition = found := by
        rcases Nat.eq_zero_or_pos (i - c.conditions.length) with hz | hz
        · rw [hz] at hi
          exact ⟨hz, by simpa using hi⟩
        · rw [List.getElem?_eq_none (Nat.succ_le_of_lt hz)] at hi
          simp at hi
      have hpos : i = c.conditions.length := by omega
      rw [hpos, List.length_eq_zero_iff]
      exact ha

theorem WellFormed.step {c : WhereChain} (h : c.WellFormed) (condition : Condition) :
    (c.step condition).WellFormed := by
  by_cases ha : c.Admits condition
  · rw [step_of_admits ha]
    exact h.push ha
  · rw [step_of_not_admits ha]
    exact h

/-- A well-formed chain is empty, or it has one condition without combinator and then conditions
that have one. -/
theorem WellFormed.cons {c : WhereChain} (h : c.WellFormed) {first : Condition}
    {later : List Condition} (hc : c.conditions = first :: later) :
    first.combinator = none ∧ ∀ condition ∈ later, condition.combinator ≠ none := by
  constructor
  · exact (h 0 first (by simp [hc])).2 rfl
  · intro condition hmem hnone
    obtain ⟨i, hi⟩ := List.mem_iff_getElem?.1 hmem
    have hpos : i + 1 = 0 := (h (i + 1) condition (by simpa [hc] using hi)).1 hnone
    omega

/-! ### Runs of steps -/

/-- The steps of a run that are taken up: the first one that opens a chain, and of those after it
the ones that join a condition. -/
def taken (steps : List Condition) : List Condition :=
  match steps.dropWhile fun s => s.combinator.isSome with
  | [] => []
  | first :: later => first :: later.filter fun s => s.combinator.isSome

theorem ofSteps_snoc (steps : List Condition) (s : Condition) :
    ofSteps (steps ++ [s]) = (ofSteps steps).step s := by
  rw [ofSteps, ofSteps, List.foldl_append, List.foldl_cons, List.foldl_nil]

/-- Once a chain is open, a run adds the steps that join a condition. -/
theorem conditions_foldl_step {c : WhereChain} (h : c.isEmpty = false) (steps : List Condition) :
    (steps.foldl step c).conditions
      = c.conditions ++ steps.filter fun s => s.combinator.isSome := by
  induction steps generalizing c with
  | nil => simp
  | cons s steps ih =>
      rw [List.foldl_cons, step_of_not_isEmpty h, List.filter_cons]
      split
      · rw [ih (isEmpty_push c s), conditions_push, List.append_assoc, List.singleton_append]
      · exact ih h

/-- **A run leaves the steps that are taken up**, in order. -/
theorem conditions_ofSteps (steps : List Condition) :
    (ofSteps steps).conditions = taken steps := by
  rw [ofSteps]
  induction steps with
  | nil => rfl
  | cons s steps ih =>
      rw [List.foldl_cons, step_of_isEmpty rfl, taken]
      cases hs : s.combinator with
      | none =>
          have hopen := conditions_foldl_step (isEmpty_push empty s) steps
          rw [conditions_push, conditions_empty, List.nil_append] at hopen
          simpa [hs] using hopen
      | some combinator => simpa [hs, taken] using ih

/-- **Every run leaves a well-formed chain.** -/
theorem wellFormed_ofSteps (steps : List Condition) : (ofSteps steps).WellFormed := by
  induction steps using List.reverseRecOn with
  | nil => exact wellFormed_empty
  | append_singleton steps s ih =>
      rw [ofSteps_snoc]
      exact ih.step s

/-- A run leaves an empty chain exactly if no step of it opens one. -/
theorem conditions_ofSteps_eq_nil_iff (steps : List Condition) :
    (ofSteps steps).conditions = [] ↔ ∀ s ∈ steps, s.combinator ≠ none := by
  have htaken : taken steps = [] ↔ steps.dropWhile (fun s => s.combinator.isSome) = [] := by
    rw [taken]
    split <;> simp_all
  rw [conditions_ofSteps, htaken, List.dropWhile_eq_nil_iff]
  refine forall₂_congr fun s _ => ?_
  rw [Option.isSome_iff_ne_none]

/-- After a run, a step may be taken up exactly if it opens a chain and no step before it did, or
joins a condition and a step before it opened the chain. -/
theorem admits_ofSteps_iff (before : List Condition) (s : Condition) :
    (ofSteps before).Admits s ↔
      (s.combinator = none ↔ ∀ t ∈ before, t.combinator ≠ none) := by
  rw [Admits, conditions_ofSteps_eq_nil_iff]

end UpdateSql.WhereChain
