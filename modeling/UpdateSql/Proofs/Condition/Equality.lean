/-
**Equality of documents and conditions.**

A test is a form with a value put into it, and two tests are equal exactly if they have the same
form and equal values.  So tests, conditions and chains of them obey the laws of equality as far as
values do, and those are known: documents that can be built are equal exactly if they are at every
name, and at any depth it is only NaN that is not equal to itself.

Main definitions:

* `Operand.held`, `Operand.form`, `Op.form` — the value in an operand, and what is left without it;
* `Operand.Built`, `Op.Built`, `Condition.Built`, `WhereChain.Built`, and the same with `HasNaN` —
  what is said of the values in a test or in a chain.

Main results:

* `Operand.beq_iff`, `Op.beq_iff`, `Condition.beq_iff` — what is compared;
* `Operand.lawsAt`, `Op.lawsAt`, `Condition.lawsAt`, `WhereChain.lawsAt` — the laws of equality;
* `equality_by_name` — **documents are equal exactly if they are at every name, in whatever order
  they were built, and equality is symmetric and transitive and fails of itself only on NaN**.
-/

import UpdateSql.Condition.Chain
import UpdateSql.Proofs.Update.Text
import UpdateSql.Proofs.Value.Equality

set_option relaxedAutoImplicit false
set_option autoImplicit false

namespace UpdateSql

open Equality (SameAt LawsAt sameAt_iff sameAt_some_iff)

/-! ### Forms -/

/-- The value in an operand. -/
def Operand.held : Operand → Value
  | .value v => v
  | .fieldEq _ v => v

/-- An operand with null in the place of its value. -/
def Operand.form : Operand → Operand
  | .value _ => .value .null
  | .fieldEq field _ => .fieldEq field .null

/-- A test with null in the place of its value, if it has one. -/
def Op.form : Op → Op
  | .compare comparison _ => .compare comparison .null
  | .isNull => .isNull
  | .contains operand => .contains operand.form

theorem Op.value?_contains (operand : Operand) : (contains operand).value? = some operand.held := by
  cases operand <;> rfl

/-! ### What is compared -/

/-- Operands are equal exactly if they have the same form and equal values. -/
theorem Operand.beq_iff {o o' : Operand} :
    (o == o') = true ↔ o.form = o'.form ∧ (o.held == o'.held) = true := by
  cases o with
  | value v =>
      cases o' with
      | value w => exact (and_iff_right rfl).symm
      | fieldEq field w => exact iff_of_false Bool.false_ne_true fun h => by cases h.1
  | fieldEq field v =>
      cases o' with
      | value w => exact iff_of_false Bool.false_ne_true fun h => by cases h.1
      | fieldEq field' w =>
          have hbeq : (fieldEq field v == fieldEq field' w) = (field == field' && v == w) := rfl
          rw [hbeq, Bool.and_eq_true, beq_iff_eq]
          simp only [form, held, fieldEq.injEq, and_true]

/-- Tests are equal exactly if they have the same form and equal values. -/
theorem Op.beq_iff {op op' : Op} :
    (op == op') = true ↔ op.form = op'.form ∧ SameAt op.value? op'.value? := by
  cases op with
  | compare c v =>
      cases op' with
      | compare c' w =>
          have hbeq : (compare c v == compare c' w) = (c == c' && v == w) := rfl
          rw [hbeq, Bool.and_eq_true, beq_iff_eq, value?, value?, sameAt_some_iff]
          simp only [form, compare.injEq, and_true]
      | _ => exact iff_of_false Bool.false_ne_true fun h => by cases h.1
  | isNull =>
      cases op' with
      | isNull => exact iff_of_true rfl ⟨rfl, .none⟩
      | _ => exact iff_of_false Bool.false_ne_true fun h => by cases h.1
  | contains o =>
      cases op' with
      | contains o' =>
          have hbeq : (contains o == contains o') = (o == o') := rfl
          rw [hbeq, Operand.beq_iff, value?_contains, value?_contains, sameAt_some_iff]
          simp only [form, contains.injEq]
      | _ => exact iff_of_false Bool.false_ne_true fun h => by cases h.1

/-- Conditions are equal exactly if they are joined alike, ask for the same field, and their tests
have the same form and equal values. -/
theorem Condition.beq_iff {c c' : Condition} : (c == c') = true ↔
    (c.combinator = c'.combinator ∧ c.field = c'.field ∧ c.op.form = c'.op.form) ∧
      SameAt c.op.value? c'.op.value? := by
  obtain ⟨combinator, field, op⟩ := c
  obtain ⟨combinator', field', op'⟩ := c'
  have hbeq : ((⟨combinator, field, op⟩ : Condition) == ⟨combinator', field', op'⟩)
      = (combinator == combinator' && (field == field' && op == op')) := rfl
  rw [hbeq, Bool.and_eq_true, Bool.and_eq_true, beq_iff_eq, beq_iff_eq, Op.beq_iff]
  simp only [and_assoc]

/-! ### What can be built, and what has a NaN -/

/-- The value in an operand can be built. -/
def Operand.Built (o : Operand) : Prop := o.held.Built

/-- The value in a test, if it has one, can be built. -/
def Op.Built (op : Op) : Prop := ∀ v ∈ op.value?, v.Built

/-- The value in a condition, if it has one, can be built. -/
def Condition.Built (c : Condition) : Prop := c.op.Built

/-- The values in a chain can be built. -/
def WhereChain.Built (chain : WhereChain) : Prop := ∀ c ∈ chain.conditions, c.Built

/-- There is a NaN in the value in an operand. -/
def Operand.HasNaN (o : Operand) : Prop := o.held.HasNaN

/-- There is a NaN in the value in a test. -/
def Op.HasNaN (op : Op) : Prop := ∃ v ∈ op.value?, v.HasNaN

/-- There is a NaN in the value in a condition. -/
def Condition.HasNaN (c : Condition) : Prop := c.op.HasNaN

/-- There is a NaN in a value in a chain. -/
def WhereChain.HasNaN (chain : WhereChain) : Prop := ∃ c ∈ chain.conditions, c.HasNaN

/-! ### The laws -/

theorem Value.lawsAt_of_built {v : Value} (h : v.Built) : LawsAt Built HasNaN v :=
  (lawsAt h.distinct).mono fun _ hw => hw.distinct

theorem Document.lawsAt_of_built {d : Document} (h : d.Built) : LawsAt Built HasNaN d :=
  (lawsAt h.distinct).mono fun _ he => he.distinct

/-- What is compared by a form and by a value that it may have obeys the laws if the value can be
built. -/
theorem Equality.LawsAt.of_value {α κ : Type} [BEq α] (form : α → κ) (value? : α → Option Value)
    (hbeq : ∀ a b, (a == b) = true ↔ form a = form b ∧ SameAt (value? a) (value? b)) {a : α}
    (ha : ∀ v ∈ value? a, v.Built) :
    LawsAt (fun a => ∀ v ∈ value? a, v.Built) (fun a => ∃ v ∈ value? a, v.HasNaN) a := by
  refine .of_parts Value.Built Value.HasNaN form (fun a (_ : Unit) => value? a) ?_ ?_ ?_ ha ?_
  · exact fun a ha _ => ha
  · exact fun a _ => (exists_const Unit).symm
  · intro a b _ _
    rw [hbeq, forall_const]
  · exact fun _ v hv => Value.lawsAt_of_built (ha v hv)

theorem Operand.lawsAt {o : Operand} (h : o.Built) : LawsAt Built HasNaN o := by
  have hbeq : ∀ o o' : Operand, (o == o') = true ↔
      o.form = o'.form ∧ SameAt (some o.held) (some o'.held) := fun o o' => by
    rw [sameAt_some_iff, beq_iff]
  have hheld : ∀ v ∈ some o.held, v.Built := by
    rintro v ⟨⟩
    exact h
  have hlaws := LawsAt.of_value form (fun o => some o.held) hbeq hheld
  simp only [Option.mem_some_iff, forall_eq', exists_eq_left'] at hlaws
  exact hlaws

theorem Op.lawsAt {op : Op} (h : op.Built) : LawsAt Built HasNaN op :=
  .of_value form value? (fun _ _ => beq_iff) h

theorem Condition.lawsAt {c : Condition} (h : c.Built) : LawsAt Built HasNaN c :=
  .of_value (fun c : Condition => (c.combinator, c.field, c.op.form)) (fun c => c.op.value?)
    (fun _ _ => by rw [beq_iff, Prod.mk.injEq, Prod.mk.injEq]) h

theorem WhereChain.lawsAt {chain : WhereChain} (h : chain.Built) : LawsAt Built HasNaN chain :=
  (LawsAt.list h fun _ hc => Condition.lawsAt (h _ hc)).image WhereChain.mk (fun _ _ => rfl)
    (fun _ b _ => ⟨b.conditions, rfl⟩) (fun _ hb => hb) Iff.rfl

/-! ### Equality by name -/

/-- **Equality goes by name.**  Documents that can be built are equal exactly if they have the same
class name and record id, and at every name there is nothing in both or there are equal values; so
the order of the fields does not matter.  Equality of values, documents, operands, tests, conditions
and chains is symmetric and transitive, and of all that can be built just what has a NaN at some
depth is not equal to itself. -/
theorem equality_by_name :
    (∀ d e : Document, d.Built → e.Built → ((d == e) = true ↔
      d.className = e.className ∧ d.rid = e.rid ∧
        ∀ name, (d.get? name = none ∧ e.get? name = none) ∨
          ∃ v w, d.get? name = some v ∧ e.get? name = some w ∧ (v == w) = true)) ∧
    (∀ d d' e : Document, d.Built → e.Built → d.className = d'.className → d.rid = d'.rid →
      d.fields.Perm d'.fields → (d == e) = (d' == e) ∧ (e == d) = (e == d')) ∧
    (∀ v : Value, v.Built → LawsAt Value.Built Value.HasNaN v) ∧
    (∀ d : Document, d.Built → LawsAt Document.Built Document.HasNaN d) ∧
    (∀ o : Operand, o.Built → LawsAt Operand.Built Operand.HasNaN o) ∧
    (∀ op : Op, op.Built → LawsAt Op.Built Op.HasNaN op) ∧
    (∀ c : Condition, c.Built → LawsAt Condition.Built Condition.HasNaN c) ∧
    ∀ chain : WhereChain, chain.Built → LawsAt WhereChain.Built WhereChain.HasNaN chain := by
  refine ⟨?_, ?_, fun _ => Value.lawsAt_of_built, fun _ => Document.lawsAt_of_built,
    fun _ => Operand.lawsAt, fun _ => Op.lawsAt, fun _ => Condition.lawsAt,
    fun _ => WhereChain.lawsAt⟩
  · intro d e hd he
    simp only [Document.beq_iff hd.distinct.nodup he.distinct.nodup, sameAt_iff]
  · intro d d' e hd he hclass hrid hperm
    have hnodup : d.names.Nodup := hd.distinct.nodup
    have hnodup' : d'.names.Nodup := (hperm.map Prod.fst).nodup_iff.1 hnodup
    have hget := Document.get?_eq_of_perm hnodup hperm
    constructor
    · rw [Bool.eq_iff_iff, Document.beq_iff hnodup he.distinct.nodup,
        Document.beq_iff hnodup' he.distinct.nodup]
      simp only [hclass, hrid, hget]
    · rw [Bool.eq_iff_iff, Document.beq_iff he.distinct.nodup hnodup,
        Document.beq_iff he.distinct.nodup hnodup']
      simp only [hclass, hrid, hget]

/-- Two documents with the same fields in another order are equal both ways, and a list with a NaN
in it is not equal to itself. -/
theorem equality_of_reordered_fields :
    let first := Document.ofSteps [.set "a" (.integer 1), .set "b" .null]
    let second := Document.ofSteps [.set "b" .null, .set "c" .null, .set "a" (.integer 1),
      .remove "c"]
    let items := Value.list [.null, .float (.ofBits 0x7ff8000000000000)]
    first.Built ∧ second.Built ∧ items.Built ∧ (first == second) = true ∧
      (second == first) = true ∧ (items == items) = false := by
  intro first second items
  have hfirst : first.Built := by
    refine ⟨_, fun s hs name v hv => ?_, rfl⟩
    obtain rfl := Document.Step.eq_set_of_value? hv
    simp only [List.mem_cons, Document.Step.set.injEq, List.not_mem_nil, or_false] at hs
    rcases hs with ⟨-, rfl⟩ | ⟨-, rfl⟩
    · exact .integer 1
    · exact .null
  have hsecond : second.Built := by
    refine ⟨_, fun s hs name v hv => ?_, rfl⟩
    obtain rfl := Document.Step.eq_set_of_value? hv
    simp only [List.mem_cons, Document.Step.set.injEq, reduceCtorEq, List.not_mem_nil,
      or_false] at hs
    rcases hs with ⟨-, rfl⟩ | ⟨-, rfl⟩ | ⟨-, rfl⟩
    · exact .null
    · exact .null
    · exact .integer 1
  have hitems : items.Built := by
    refine .list fun v hv => ?_
    rcases List.mem_pair.1 hv with rfl | rfl
    · exact .null
    · exact .float _
  obtain ⟨-, hperm, hvalue, hdocument, -⟩ := equality_by_name
  have hsame : (first == second) = true := by
    rw [(hperm first second second hfirst hsecond rfl rfl (.swap _ _ [])).1]
    decide
  refine ⟨hfirst, hsecond, hitems, hsame, (hdocument first hfirst).symm second hsecond hsame, ?_⟩
  rw [← Bool.not_eq_true, (hvalue items hitems).self_iff, not_not, Value.hasNaN_list_iff]
  exact ⟨_, .tail _ (.head _), Value.hasNaN_float_iff.2 (by decide)⟩

end UpdateSql
