/-
**Condition chains.**

A chain starts with one condition; every later one is joined to it by `AND` or `OR`, from left to
right, without grouping.  A step out of order is refused and leaves the chain as it was.

Main definitions:

* `WhereChain`, `WhereChain.start`, `WhereChain.join` — the chain and its two steps;
* `WhereChain.append`, `WhereChain.ofSteps` — the same with the condition given as a whole;
* `WhereChain.chars`, `WhereChain.render` — the chain as written.
-/

import UpdateSql.Condition.Basic

set_option relaxedAutoImplicit false
set_option autoImplicit false

namespace UpdateSql

/-- The error for a second start of a chain. -/
def Error.alreadyStarted (field : String) : Error :=
  .malformedCondition ("WHERE already started; use and/or for '" ++ field ++ "'")

/-- The error for joining a condition to an empty chain. -/
def Error.notStarted (combinator : Combinator) (field : String) : Error :=
  .malformedCondition (combinator.token ++ " '" ++ field ++ "' used before WHERE")

/-- The conditions of a WHERE clause, in order. -/
structure WhereChain where
  conditions : List Condition := []
deriving BEq

namespace WhereChain

/-- The chain without conditions. -/
def empty : WhereChain := {}

instance : Inhabited WhereChain := ⟨empty⟩

/-- Whether there is no condition. -/
def isEmpty (c : WhereChain) : Bool := c.conditions.isEmpty

/-- The number of conditions. -/
def length (c : WhereChain) : Nat := c.conditions.length

/-- Puts a condition at the end.  It is to have a combinator exactly if the chain is not empty,
which is for the caller to see to. -/
def push (c : WhereChain) (condition : Condition) : WhereChain :=
  ⟨c.conditions ++ [condition]⟩

/-- Puts the first condition into the chain. -/
def start (c : WhereChain) (field : String) (op : Op) : Except Error WhereChain :=
  if c.isEmpty then .ok (c.push ⟨none, field, op⟩) else .error (.alreadyStarted field)

/-- Joins a further condition to the chain. -/
def join (c : WhereChain) (combinator : Combinator) (field : String) (op : Op) :
    Except Error WhereChain :=
  if c.isEmpty then .error (.notStarted combinator field)
  else .ok (c.push ⟨some combinator, field, op⟩)

/-- Starts the chain with a condition or joins the condition to it, as its combinator says. -/
def append (c : WhereChain) (condition : Condition) : Except Error WhereChain :=
  match condition.combinator with
  | none => c.start condition.field condition.op
  | some combinator => c.join combinator condition.field condition.op

/-- Appends a condition, or leaves the chain as it is where that is refused. -/
def step (c : WhereChain) (condition : Condition) : WhereChain :=
  match c.append condition with
  | .ok next => next
  | .error _ => c

/-- The chain that is left after appending conditions one after the other, refused ones skipped. -/
def ofSteps (steps : List Condition) : WhereChain := steps.foldl step empty

/-! ### The conditions after a step -/

@[simp] theorem conditions_empty : empty.conditions = [] := rfl

@[simp] theorem conditions_push (c : WhereChain) (condition : Condition) :
    (c.push condition).conditions = c.conditions ++ [condition] := rfl

theorem isEmpty_eq_true_iff (c : WhereChain) : c.isEmpty = true ↔ c.conditions = [] :=
  List.isEmpty_iff

@[simp] theorem isEmpty_push (c : WhereChain) (condition : Condition) :
    (c.push condition).isEmpty = false := by
  rw [isEmpty, conditions_push, List.isEmpty_eq_false_iff]
  simp

/-- On an empty chain only a condition without combinator is taken. -/
theorem step_of_isEmpty {c : WhereChain} (h : c.isEmpty = true) (condition : Condition) :
    c.step condition = if condition.combinator.isNone then c.push condition else c := by
  obtain ⟨combinator, field, op⟩ := condition
  cases combinator <;> simp [step, append, start, join, h]

/-- On a chain that was started only a condition with a combinator is taken. -/
theorem step_of_not_isEmpty {c : WhereChain} (h : c.isEmpty = false) (condition : Condition) :
    c.step condition = if condition.combinator.isSome then c.push condition else c := by
  obtain ⟨combinator, field, op⟩ := condition
  cases combinator <;> simp [step, append, start, join, h]

/-! ### Writing -/

/-- The characters of the clause, none for an empty chain. -/
def chars (mode : QuoteMode) (c : WhereChain) : Except Error (List Char) :=
  match c.conditions with
  | [] => .ok []
  | conditions =>
    (conditions.mapM (Condition.chars mode)).map fun texts => "WHERE ".toList ++ texts.flatten

/-- The text of the clause, empty for an empty chain. -/
def render (mode : QuoteMode) (c : WhereChain) : Except Error String :=
  (c.chars mode).map String.ofList

end WhereChain

end UpdateSql
