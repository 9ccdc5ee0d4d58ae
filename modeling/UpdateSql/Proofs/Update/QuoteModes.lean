/-
**The two ways of quoting, side by side.**

The way of quoting goes down through every writer to the strings and makes no difference on the way.
So an update is written in both ways, or in neither and with the same fault; and the text with
escaped quotes is the other one with a backslash put in for each quote and each backslash in the
strings of the values that are written, wherever they lie.  Names, the target and all else are the
same in both.

Main definitions:

* `Value.strings` — the strings in a value, in reading order;
* `Value.stringChars` — their characters.

Main results:

* `Value.marked_literalChars`, `Statement.marked_chars`, `Update.marked_buildChars` — **literals,
  statements and updates differ by the backslashes put into strings**;
* `Update.quote_modes_differ_by_backslashes` — what this says of the texts of an update.
-/

import UpdateSql.Proofs.Text.Marking
import UpdateSql.Proofs.Update.Text
import UpdateSql.Proofs.Value.Parts

set_option relaxedAutoImplicit false
set_option autoImplicit false

namespace UpdateSql

open Outcome (Parallel)
open Quoted (Marked MarkedAll MarkedResults marks marks_append parallel_mapM)

/-! ### The strings of a value -/

namespace Value

mutual

/-- The strings in a value, at any depth, in reading order. -/
def strings : Value → List String
  | .null | .bool _ | .integer _ | .unsigned _ | .float _ | .link _ => []
  | .string s => [s]
  | .document ⟨_, _, fields⟩ => fieldStrings fields
  | .list items => itemStrings items

/-- The strings in the values of a list. -/
def itemStrings : List Value → List String
  | [] => []
  | v :: rest => v.strings ++ itemStrings rest

/-- The strings in the values of a list of fields. -/
def fieldStrings : List (String × Value) → List String
  | [] => []
  | (_, v) :: rest => v.strings ++ fieldStrings rest

end

theorem strings_list (items : List Value) :
    (Value.list items).strings = items.flatMap strings := by
  rw [strings]
  induction items with
  | nil => rfl
  | cons v rest ih => rw [itemStrings, List.flatMap_cons, ih]

theorem strings_document (d : Document) :
    (Value.document d).strings = d.fields.flatMap fun entry => entry.2.strings := by
  obtain ⟨className, rid, fields⟩ := d
  rw [strings]
  induction fields with
  | nil => rfl
  | cons entry rest ih => rw [fieldStrings, List.flatMap_cons, ih]

/-- They are the strings that are parts of the value. -/
theorem mem_strings_iff {v : Value} {s : String} : s ∈ v.strings ↔ (Value.string s).Part v := by
  induction v using part_induction with
  | atom v hv =>
      rw [part_atom_iff hv]
      cases v with
      | float x | document d | list items => cases hv
      | string t => rw [strings, List.mem_singleton, Value.string.injEq]
      | _ => exact iff_of_false List.not_mem_nil nofun
  | float x => exact iff_of_false List.not_mem_nil nofun
  | document d ih =>
      rw [strings_document, part_document_iff, List.mem_flatMap]
      simp only [reduceCtorEq, false_or]
      exact exists_congr fun entry => and_congr_right fun he => ih entry he
  | list items ih =>
      rw [strings_list, part_list_iff, List.mem_flatMap]
      simp only [reduceCtorEq, false_or]
      exact exists_congr fun v => and_congr_right fun hv => ih v hv

/-- A character is in none of the strings in some values. -/
theorem not_mem_strings_iff {values : List Value} {c : Char} :
    c ∉ (values.flatMap strings).flatMap String.toList ↔
      ∀ v ∈ values, ∀ s, (Value.string s).Part v → c ∉ s.toList := by
  constructor
  · intro h v hv s hs hc
    exact h (List.mem_flatMap.2 ⟨s, List.mem_flatMap.2 ⟨v, hv, mem_strings_iff.2 hs⟩, hc⟩)
  · intro h hmem
    obtain ⟨s, hs, hc⟩ := List.mem_flatMap.1 hmem
    obtain ⟨v, hv, hsv⟩ := List.mem_flatMap.1 hs
    exact h v hv s (mem_strings_iff.1 hsv) hc

/-- The characters of the strings in a value. -/
def stringChars (v : Value) : List Char := v.strings.flatMap String.toList

theorem stringChars_list (items : List Value) :
    (Value.list items).stringChars = items.flatMap stringChars := by
  rw [stringChars, strings_list, List.flatMap_assoc]
  rfl

theorem stringChars_document (d : Document) :
    (Value.document d).stringChars = d.fields.flatMap fun entry => entry.2.stringChars := by
  rw [stringChars, strings_document, List.flatMap_assoc]
  rfl

end Value

/-! ### Values -/

theorem marked_assignmentChars {chars : List Char} {x y : Except Error (List Char)}
    (h : MarkedResults chars x y) (name : String) :
    MarkedResults chars (assignmentChars name x) (assignmentChars name y) := by
  rw [assignmentChars, assignmentChars]
  split
  · exact .error _
  · exact h.map fun a b hab => (hab.prepend [' ', '=', ' ']).prepend name.toList

theorem marked_assignments {fields : List (String × Value)}
    (h : ∀ entry ∈ fields, MarkedResults entry.2.stringChars (entry.2.literalChars .verbatim)
      (entry.2.literalChars .backslash)) :
    Parallel (MarkedAll (marks (fields.flatMap fun entry => entry.2.stringChars)))
      (Value.assignments .verbatim fields) (Value.assignments .backslash fields) := by
  rw [Value.assignments_eq_mapM, Value.assignments_eq_mapM]
  exact parallel_mapM fun entry he => marked_assignmentChars (h entry he) entry.1

/-- **The literals of a value differ by the backslashes put into its strings.** -/
theorem Value.marked_literalChars (v : Value) :
    MarkedResults v.stringChars (v.literalChars .verbatim) (v.literalChars .backslash) := by
  induction v with
  | null => exact .ok (.refl _)
  | bool b => cases b <;> exact .ok (.refl _)
  | integer n => exact .ok (.refl _)
  | unsigned n => exact .ok (.refl _)
  | float x =>
      rw [literalChars, literalChars]
      split
      · exact .ok (.refl _)
      · exact .error _
  | string s =>
      have hchars : (Value.string s).stringChars = s.toList := List.flatMap_singleton _ _
      rw [hchars]
      exact .ok (Quoted.marked_encode s.toList)
  | link id => exact .ok (.refl _)
  | document className rid fields ih =>
      rw [stringChars_document, literalChars, literalChars]
      exact (marked_assignments ih).bind fun as bs h => .ok (.cons '(' (h.commaSeparated.snoc ')'))
  | list items ih =>
      have hitems : Parallel (MarkedAll (marks (items.flatMap stringChars)))
          (Value.literals .verbatim items) (Value.literals .backslash items) := by
        rw [literals_eq_mapM, literals_eq_mapM]
        exact parallel_mapM ih
      rw [stringChars_list, literalChars, literalChars]
      exact hitems.bind fun as bs h => .ok (.cons '[' (h.commaSeparated.snoc ']'))

/-! ### Clauses -/

/-- The characters of the strings in a value that need not be there. -/
def optStringChars (v : Option Value) : List Char := v.toList.flatMap Value.stringChars

theorem optStringChars_some (v : Value) : optStringChars (some v) = v.stringChars :=
  List.flatMap_singleton _ _

theorem flatMap_optStringChars {γ : Type} (value? : γ → Option Value) (l : List γ) :
    l.flatMap (fun c => optStringChars (value? c))
      = (l.filterMap value?).flatMap Value.stringChars := by
  rw [List.filterMap_eq_flatMap_toList, List.flatMap_assoc]
  rfl

theorem marked_removalChars (entry : String × Option Value) :
    MarkedResults (optStringChars entry.2) (removalChars .verbatim entry)
      (removalChars .backslash entry) := by
  obtain ⟨name, value⟩ := entry
  cases value with
  | none => exact .refl _
  | some v =>
      rw [optStringChars_some]
      exact marked_assignmentChars v.marked_literalChars name

theorem Op.marked_operandChars (op : Op) :
    MarkedResults (optStringChars op.value?) (op.operandChars .verbatim)
      (op.operandChars .backslash) := by
  cases op with
  | compare comparison v =>
      rw [value?, optStringChars_some]
      exact v.marked_literalChars.map fun a b h => h.cons ' '
  | isNull => exact .refl _
  | contains operand =>
      cases operand with
      | value v =>
          rw [value?, optStringChars_some]
          exact v.marked_literalChars.map fun a b h => h.cons ' '
      | fieldEq field v =>
          rw [value?, optStringChars_some]
          exact (marked_assignmentChars v.marked_literalChars field).map fun a b h =>
            (h.snoc ')').prepend [' ', '(']

theorem Condition.marked_chars (c : Condition) :
    MarkedResults (optStringChars c.op.value?) (c.chars .verbatim) (c.chars .backslash) := by
  rw [chars, chars]
  split
  · exact .error _
  · exact c.op.marked_operandChars.map fun a b h =>
      (((h.prepend c.op.token.toList).cons ' ').prepend c.field.toList).prepend _

theorem WhereChain.marked_chars (chain : WhereChain) :
    MarkedResults (chain.conditions.flatMap fun c => optStringChars c.op.value?)
      (chain.chars .verbatim) (chain.chars .backslash) := by
  rw [chars, chars]
  cases chain.conditions with
  | nil => exact .refl _
  | cons c conditions =>
      have htexts := parallel_mapM fun d (_ : d ∈ c :: conditions) => d.marked_chars
      exact htexts.map fun as bs h => h.flatten.prepend "WHERE ".toList

theorem marked_clauseChars {n : Nat} {as bs : List (List Char)} (h : MarkedAll n as bs)
    (keyword : String) : Marked n (clauseChars keyword as) (clauseChars keyword bs) := by
  have hentries := h.commaSeparated
  cases h with
  | nil => exact .nil
  | cons _ _ => exact .cons ' ' ((hentries.cons ' ').prepend keyword.toList)

/-! ### Statements -/

namespace Statement

/-- The characters of the strings in the values of a statement. -/
def stringChars (s : Statement) : List Char :=
  (s.assignments.flatMap fun entry => entry.2.stringChars) ++
    ((s.additions.flatMap fun entry => entry.2.stringChars) ++
      ((s.removals.flatMap fun entry => optStringChars entry.2) ++
        s.chain.conditions.flatMap fun c => optStringChars c.op.value?))

theorem marked_whereChars (s : Statement) :
    MarkedResults (s.chain.conditions.flatMap fun c => optStringChars c.op.value?)
      (s.whereChars .verbatim) (s.whereChars .backslash) := by
  rw [whereChars, whereChars]
  split
  · next h =>
      have hnil : s.chain.conditions = [] := List.isEmpty_iff.1 h
      rw [hnil]
      exact .refl _
  · exact s.chain.marked_chars.map fun a b h => h.cons ' '

/-- **The texts of a statement differ by the backslashes put into the strings in its values.** -/
theorem marked_chars (s : Statement) :
    MarkedResults s.stringChars (s.chars .verbatim) (s.chars .backslash) := by
  have hassignments := marked_assignments fun entry (_ : entry ∈ s.assignments) =>
    entry.2.marked_literalChars
  have hadditions := marked_assignments fun entry (_ : entry ∈ s.additions) =>
    entry.2.marked_literalChars
  have hremovals := parallel_mapM fun entry (_ : entry ∈ s.removals) => marked_removalChars entry
  rw [MarkedResults, stringChars, marks_append, marks_append, marks_append, chars, chars]
  -- clause after clause, so that the fault that is reported is the first one in both
  refine hassignments.bind fun _ _ hset => hadditions.bind fun _ _ hadd =>
    hremovals.bind fun _ _ hremove => s.marked_whereChars.bind fun _ _ hwhere => .ok ?_
  have hclauses := (marked_clauseChars hset "SET").append
    ((marked_clauseChars hadd "ADD").append ((marked_clauseChars hremove "REMOVE").append hwhere))
  exact (hclauses.prepend s.target.chars).prepend "UPDATE ".toList

end Statement

/-! ### Updates -/

namespace Update

variable {stage : Stage}

/-- The strings in the values of a statement are those in the values that the calls write. -/
theorem Records.stringChars_statementFor {q : Update stage} {calls : List Call}
    (h : q.Records calls) (t : Target) : (q.statementFor t).stringChars
      = (Call.writtenValues calls).flatMap Value.stringChars := by
  simp only [Statement.stringChars, statementFor, h.setEntries_eq, h.additions, h.removals,
    h.conditions, Call.writtenValues, List.flatMap_append, List.flatMap_map,
    flatMap_optStringChars]

/-- **The texts of an update differ by the backslashes put into the strings in its values.** -/
theorem marked_buildChars {q : Update stage} {calls : List Call} (h : q.Records calls) :
    MarkedResults ((Call.writtenValues calls).flatMap Value.stringChars)
      (q.buildChars .verbatim) (q.buildChars .backslash) := by
  rw [buildChars, buildChars]
  cases hs : q.statement with
  | error e => exact .error e
  | ok s =>
      obtain ⟨t, -, -, rfl⟩ := statement_eq_ok_iff.1 hs
      rw [← h.stringChars_statementFor t]
      exact (q.statementFor t).marked_chars

/-- **The two ways of quoting differ by backslashes before quotes and backslashes in strings.**
Whatever calls led to an update, and whatever the other options are, writing it fails in both ways
with the same error, or succeeds in both.  Then the verbatim text is a subsequence of the escaped
one, which is longer by one character, a single byte, for each quote and each backslash in the
strings in the values that are written, at any depth.  So the texts are the same exactly if there is
neither in any of these strings. -/
theorem quote_modes_differ_by_backslashes {q : Update stage} {calls : List Call}
    (h : q.Reached calls) (config config' : RenderConfig) :
    (∃ e, q.build (config.withQuoteMode .verbatim) = .error e ∧
      q.build (config'.withQuoteMode .backslash) = .error e) ∨
    ∃ text escaped, q.build (config.withQuoteMode .verbatim) = .ok text ∧
      q.build (config'.withQuoteMode .backslash) = .ok escaped ∧
      text.toList.Sublist escaped.toList ∧
      (let chars := ((Call.writtenValues calls).flatMap Value.strings).flatMap String.toList
       escaped.length = text.length + (chars.count '\'' + chars.count '\\') ∧
        escaped.utf8ByteSize = text.utf8ByteSize + (chars.count '\'' + chars.count '\\')) ∧
      (text = escaped ↔ ∀ v ∈ Call.writtenValues calls, ∀ s, (Value.string s).Part v →
        '\'' ∉ s.toList ∧ '\\' ∉ s.toList) := by
  have hchars : (Call.writtenValues calls).flatMap Value.stringChars
      = ((Call.writtenValues calls).flatMap Value.strings).flatMap String.toList :=
    List.flatMap_assoc.symm
  have hmarked := marked_buildChars h.records
  rw [hchars] at hmarked
  have hbuild : ∀ (config : RenderConfig) (mode : QuoteMode),
      q.build (config.withQuoteMode mode) = (q.buildChars mode).map String.ofList :=
    fun _ _ => rfl
  rw [hbuild, hbuild]
  -- of the two computations only how they are related is used from here on
  generalize q.buildChars .verbatim = x, q.buildChars .backslash = y at hmarked
  cases hmarked with
  | error e => exact .inl ⟨e, rfl, rfl⟩
  | @ok a b hab =>
      refine .inr ⟨String.ofList a, String.ofList b, rfl, rfl, ?_, ⟨?_, ?_⟩, ?_⟩
      · rw [String.toList_ofList, String.toList_ofList]
        exact hab.sublist
      · rw [← Quoted.marks_eq_count, String.length_ofList, String.length_ofList]
        exact hab.length_eq
      · rw [← Quoted.marks_eq_count, ← Truncate.byteLength_toList, ← Truncate.byteLength_toList,
          String.toList_ofList, String.toList_ofList]
        exact hab.byteLength_eq
      · rw [String.ofList_inj, hab.eq_iff, Quoted.marks_eq_zero_iff]
        rw [Value.not_mem_strings_iff, Value.not_mem_strings_iff]
        constructor
        · rintro ⟨hquote, hmark⟩ v hv s hs
          exact ⟨hquote v hv s hs, hmark v hv s hs⟩
        · exact fun hfree => ⟨fun v hv s hs => (hfree v hv s hs).1,
            fun v hv s hs => (hfree v hv s hs).2⟩

/-- A class name with a quote, which stays as it is, and strings with a quote and a backslash. -/
theorem backslashes_in_strings_of_an_update :
    let q := (((Update.empty.onClass "C'").set "name" (Value.string "it's")).whereField
      "note").like (Value.string "\\%")
    q.build (RenderConfig.default.withQuoteMode .verbatim)
        = .ok "UPDATE C' SET name = 'it's' WHERE note LIKE '\\%'" ∧
      q.build (RenderConfig.default.withQuoteMode .backslash)
        = .ok "UPDATE C' SET name = 'it\\'s' WHERE note LIKE '\\\\%'" ∧
      "UPDATE C' SET name = 'it\\'s' WHERE note LIKE '\\\\%'".length
        = "UPDATE C' SET name = 'it's' WHERE note LIKE '\\%'".length + 2 := by
  intro q
  have hq : q.Reached _ := ((Reached.empty.onClass "C'").set "name"
    (Value.string "it's")).whereField "note" (.like (Value.string "\\%"))
  have hverbatim : q.build (RenderConfig.default.withQuoteMode .verbatim)
      = .ok "UPDATE C' SET name = 'it's' WHERE note LIKE '\\%'" := rfl
  have hbackslash : q.build (RenderConfig.default.withQuoteMode .backslash)
      = .ok "UPDATE C' SET name = 'it\\'s' WHERE note LIKE '\\\\%'" := rfl
  refine ⟨hverbatim, hbackslash, ?_⟩
  rcases quote_modes_differ_by_backslashes hq .default .default with
    ⟨e, he, -⟩ | ⟨text, escaped, htext, hescaped, -, ⟨hlength, -⟩, -⟩
  · rw [hverbatim] at he
    cases he
  · obtain rfl := Except.ok.inj (hverbatim.symm.trans htext)
    obtain rfl := Except.ok.inj (hbackslash.symm.trans hescaped)
    exact hlength

end Update

end UpdateSql
