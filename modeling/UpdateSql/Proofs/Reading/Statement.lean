/-
**Reading statements back.**

If all names in a statement are words, its text can be read from left to right: a clause starts with
its keyword, its entries are separated by commas, and it ends where the next clause starts or the
text ends.  Quotes and brackets belong to literals, and so a keyword or a comma within a literal is
not met as one of the statement.

Main definitions:

* `IsWord` — names made of letters, digits and underscores;
* `Reading.clause`, `Reading.removal`, `Reading.conditions` — read the parts of a statement;
* `Reading.statement` — reads a whole statement.

Main results:

* `Reading.statement_chars` — **a statement is read back as its outline**.
-/

import UpdateSql.Proofs.Chain.Shape
import UpdateSql.Proofs.Reading.Literal
import UpdateSql.Proofs.Statement.Outline

set_option relaxedAutoImplicit false
set_option autoImplicit false

namespace UpdateSql

/-! ### Words -/

/-- Whether a character can stand in a word. -/
def isWordChar (c : Char) : Bool := c.isAlphanum || c == '_'

/-- A name that is a word: letters, digits and underscores, at least one. -/
def IsWord (name : String) : Prop := name ≠ "" ∧ name.toList.all isWordChar = true

instance (name : String) : Decidable (IsWord name) :=
  inferInstanceAs (Decidable (name ≠ "" ∧ name.toList.all isWordChar = true))

theorem IsWord.forall_mem {name : String} (h : IsWord name) :
    ∀ c ∈ name.toList, isWordChar c = true :=
  List.all_eq_true.1 h.2

theorem IsWord.not_mem {name : String} (h : IsWord name) {c : Char} (hc : isWordChar c = false) :
    c ∉ name.toList := by
  intro hmem
  rw [h.forall_mem c hmem] at hc
  cases hc

theorem IsWord.isReadableName {name : String} (h : IsWord name) : IsReadableName name :=
  ⟨h.not_mem rfl, h.not_mem rfl⟩

theorem words_of_flatMap {β : Type} {bs : List β} {names : β → List String}
    (h : ∀ name ∈ bs.flatMap names, IsWord name) (b : β) (hb : b ∈ bs) :
    ∀ name ∈ names b, IsWord name :=
  fun name hname => h name (List.mem_flatMap.2 ⟨b, hb, hname⟩)

namespace Reading

theorem Delimited.stops_word {rest : List Char} (h : Delimited rest) : Stops isWordChar rest := by
  refine h.stops fun c hc => ?_
  simp only [isDelimiter, Bool.or_eq_true, beq_iff_eq] at hc
  rcases hc with ((rfl | rfl) | rfl) | rfl <;> rfl

/-! ### Clauses -/

/-- A text that is empty or starts a clause with one of the given initials. -/
def Opens (initials : List Char) (rest : List Char) : Prop :=
  rest = [] ∨ ∃ c ∈ initials, ∃ more, rest = ' ' :: c :: more

theorem Opens.delimited {initials rest : List Char} (h : Opens initials rest) :
    Delimited rest := by
  rcases h with rfl | ⟨c, -, more, rfl⟩
  · exact delimited_nil
  · exact delimited_cons rfl _

theorem Opens.head?_ne_comma {initials rest : List Char} (h : Opens initials rest) :
    rest.head? ≠ some ',' := by
  rcases h with rfl | ⟨c, -, more, rfl⟩
  · intro h
    cases h
  · intro h
    cases h

theorem Opens.stops_ne_space {initials rest : List Char} (h : Opens initials rest) :
    Stops (· != ' ') rest := by
  rcases h with rfl | ⟨c, -, more, rfl⟩
  · intro c hc
    cases hc
  · intro c hc
    cases hc
    rfl

/-- What starts a clause is not taken for the start of another. -/
theorem Opens.isPrefixOf?_eq_none {initials rest : List Char} (h : Opens initials rest) {c : Char}
    (hc : c ∉ initials) (word : List Char) : (' ' :: c :: word).isPrefixOf? rest = none := by
  rcases h with rfl | ⟨d, hd, more, rfl⟩
  · rfl
  · have hne : c ≠ d := by
      rintro rfl
      exact hc hd
    simp [isPrefixOf?_cons_cons, hne]

theorem opens_clauseChars {keyword : String} {c : Char} {word : List Char}
    (hkeyword : keyword.toList = c :: word) {initials rest : List Char} (h : Opens initials rest)
    (entries : List (List Char)) : Opens (c :: initials) (clauseChars keyword entries ++ rest) := by
  cases entries with
  | nil =>
      rcases h with rfl | ⟨d, hd, more, rfl⟩
      · exact .inl rfl
      · exact .inr ⟨d, List.mem_cons_of_mem c hd, more, rfl⟩
  | cons entry entries =>
      refine .inr ⟨c, List.mem_cons_self, ?_⟩
      rw [clauseChars_cons, hkeyword]
      exact ⟨_, rfl⟩

theorem opens_conditionClauseChars (texts : List (List Char)) :
    Opens ['W'] (conditionClauseChars texts) := by
  cases texts with
  | nil => exact .inl rfl
  | cons text texts => exact .inr ⟨'W', List.mem_cons_self, _, rfl⟩

/-- Reads a clause, which may not be there. -/
def clause {α : Type} (keyword : List Char) (read : List Char → Option (α × List Char))
    (text : List Char) : Option (List α × List Char) :=
  match (' ' :: (keyword ++ [' '])).isPrefixOf? text with
  | none => some ([], text)
  | some rest => separated read (rest.length + 1) rest

theorem clause_clauseChars {α β : Type} {keyword : String} {c : Char} {word : List Char}
    (hkeyword : keyword.toList = c :: word) {read : List Char → Option (α × List Char)}
    {write : β → List Char} {mean : β → α} {follows : List Char → Prop} {bs : List β}
    (h : ∀ b ∈ bs, ∀ rest, follows rest → read (write b ++ rest) = some (mean b, rest))
    (hsep : ∀ more, follows ([',', ' '] ++ more)) {initials rest : List Char}
    (hrest : Opens initials rest) (hfollows : follows rest) (hc : c ∉ initials) :
    clause (c :: word) read (clauseChars keyword (bs.map write) ++ rest)
      = some (bs.map mean, rest) := by
  cases bs with
  | nil =>
      have hnone : (' ' :: (c :: word ++ [' '])).isPrefixOf? rest = none :=
        hrest.isPrefixOf?_eq_none hc (word ++ [' '])
      rw [clause, List.map_nil, clauseChars_nil, List.nil_append, hnone]
      rfl
  | cons b bs =>
      have hsplit : clauseChars keyword ((b :: bs).map write) ++ rest
          = (' ' :: (c :: word ++ [' '])) ++ (commaSeparated ((b :: bs).map write) ++ rest) := by
        simp [clauseChars_cons, hkeyword]
      rw [clause, hsplit, isPrefixOf?_append]
      exact separated_commaSeparated h hsep hfollows hrest.head?_ne_comma
        (length_lt_length_commaSeparated (b :: bs) write rest)

/-! ### Entries -/

theorem value_of_words {v : Value} (hnames : ∀ name ∈ v.names, IsWord name)
    (hv : v.literalChars .backslash = .ok v.skeleton.chars) {rest : List Char}
    (hrest : Delimited rest) : value (v.skeleton.chars ++ rest) = some (v.skeleton, rest) :=
  value_literalChars v (fun name hname => (hnames name hname).isReadableName) hv hrest

theorem field_entryChars {entry : String × Value} (hnames : ∀ name ∈ entryNames entry, IsWord name)
    (hv : entry.2.literalChars .backslash = .ok entry.2.skeleton.chars) {rest : List Char}
    (hrest : Delimited rest) :
    field value (entryChars (entrySkeleton entry) ++ rest) = some (entrySkeleton entry, rest) := by
  have hname : IsWord entry.1 := hnames entry.1 List.mem_cons_self
  have hvalue : ∀ name ∈ entry.2.names, IsWord name :=
    fun name hname => hnames name (List.mem_cons_of_mem _ hname)
  exact field_assigned hname.isReadableName.1 (value_of_words hvalue hv hrest)

theorem clause_entries {keyword : String} {c : Char} {word : List Char}
    (hkeyword : keyword.toList = c :: word) {entries : List (String × Value)}
    (hnames : ∀ name ∈ entries.flatMap entryNames, IsWord name)
    (hwritten : ∀ entry ∈ entries, entry.1 ≠ "" ∧
      entry.2.literalChars .backslash = .ok entry.2.skeleton.chars)
    {initials rest : List Char} (hrest : Opens initials rest) (hc : c ∉ initials) :
    clause (c :: word) (field value)
        (clauseChars keyword (entries.map fun entry => entryChars (entrySkeleton entry)) ++ rest)
      = some (entries.map entrySkeleton, rest) := by
  have hread : ∀ entry ∈ entries, ∀ rest, Delimited rest →
      field value (entryChars (entrySkeleton entry) ++ rest)
        = some (entrySkeleton entry, rest) := by
    intro entry he rest hdelimited
    exact field_entryChars (words_of_flatMap hnames entry he) (hwritten entry he).2 hdelimited
  exact clause_clauseChars hkeyword hread (fun _ => delimited_cons rfl _) hrest hrest.delimited hc

/-- Reads an entry of a REMOVE clause. -/
def removal (text : List Char) : Option ((String × Option Skeleton) × List Char) :=
  match [' ', '=', ' '].isPrefixOf? (text.dropWhile isWordChar) with
  | none => some ((String.ofList (text.takeWhile isWordChar), none), text.dropWhile isWordChar)
  | some rest => (value rest).map fun (s, rest) =>
    ((String.ofList (text.takeWhile isWordChar), some s), rest)

/-- A text that ends an entry of a REMOVE clause: the name of a field is not taken for the start of
an assignment. -/
def EndsRemoval (rest : List Char) : Prop :=
  Delimited rest ∧ [' ', '=', ' '].isPrefixOf? rest = none

theorem removal_removalEntryChars {entry : String × Option Value}
    (hnames : ∀ name ∈ removalNames entry, IsWord name)
    (hv : ∀ v, entry.2 = some v → v.literalChars .backslash = .ok v.skeleton.chars)
    {rest : List Char} (hrest : EndsRemoval rest) :
    removal (removalEntryChars (removalOutline entry) ++ rest)
      = some (removalOutline entry, rest) := by
  obtain ⟨name, v⟩ := entry
  cases v with
  | none =>
      -- here it matters that what follows the entry is not an equals sign
      have hword : IsWord name := hnames name List.mem_cons_self
      have htext : removalEntryChars (removalOutline (name, none)) ++ rest
          = name.toList ++ rest := rfl
      rw [removal, htext, dropWhile_append_of_stops hword.forall_mem hrest.1.stops_word,
        takeWhile_append_of_stops hword.forall_mem hrest.1.stops_word, hrest.2]
      simp [removalOutline]
  | some v =>
      have hword : IsWord name := hnames name List.mem_cons_self
      have htext : removalEntryChars (removalOutline (name, some v)) ++ rest
          = name.toList ++ ([' ', '=', ' '] ++ (v.skeleton.chars ++ rest)) := by
        simp [removalEntryChars, removalOutline, assigned]
      have hstop : Stops isWordChar ([' ', '=', ' '] ++ (v.skeleton.chars ++ rest)) :=
        (delimited_cons rfl _).stops_word
      have hvalue : value (v.skeleton.chars ++ rest) = some (v.skeleton, rest) :=
        value_of_words (fun name hname => hnames name (List.mem_cons_of_mem _ hname)) (hv v rfl)
          hrest.1
      rw [removal, htext, dropWhile_append_of_stops hword.forall_mem hstop,
        takeWhile_append_of_stops hword.forall_mem hstop, isPrefixOf?_append]
      simp [hvalue, removalOutline]

theorem clause_removals {entries : List (String × Option Value)}
    (hnames : ∀ name ∈ entries.flatMap removalNames, IsWord name)
    (hwritten : ∀ entry ∈ entries, ∀ v, entry.2 = some v →
      v.literalChars .backslash = .ok v.skeleton.chars)
    {initials rest : List Char} (hrest : Opens initials rest) (hc : 'R' ∉ initials)
    (hequals : '=' ∉ initials) :
    clause ['R', 'E', 'M', 'O', 'V', 'E'] removal
        (clauseChars "REMOVE"
          (entries.map fun entry => removalEntryChars (removalOutline entry)) ++ rest)
      = some (entries.map removalOutline, rest) := by
  have hread : ∀ entry ∈ entries, ∀ rest, EndsRemoval rest →
      removal (removalEntryChars (removalOutline entry) ++ rest)
        = some (removalOutline entry, rest) := by
    intro entry he rest hends
    exact removal_removalEntryChars (words_of_flatMap hnames entry he) (hwritten entry he) hends
  have hends : EndsRemoval rest := ⟨hrest.delimited, hrest.isPrefixOf?_eq_none hequals [' ']⟩
  exact clause_clauseChars rfl hread (fun _ => ⟨delimited_cons rfl _, rfl⟩) hrest hends hc

/-! ### Targets -/

/-- The target that a text stands for. -/
def targetOf (text : List Char) : Option Target :=
  if text.head? = some '#' then (RecordId.parse text).toOption.map .record
  else
    match ['c', 'l', 'u', 's', 't', 'e', 'r', ':'].isPrefixOf? text with
    | none => some (.ofClass (String.ofList text))
    | some name => some (.cluster (String.ofList name))

theorem mem_of_isPrefixOf?_eq_some {word text rest : List Char}
    (h : word.isPrefixOf? text = some rest) {c : Char} (hc : c ∈ word) : c ∈ text := by
  induction word generalizing text with
  | nil => cases hc
  | cons d word ih =>
      cases text with
      | nil => cases h
      | cons e text =>
          rw [isPrefixOf?_cons_cons] at h
          split at h
          · next hde =>
              obtain rfl : d = e := by simpa using hde
              rcases List.mem_cons.1 hc with rfl | hc
              · exact List.mem_cons_self
              · exact List.mem_cons_of_mem _ (ih h hc)
          · cases h

theorem targetOf_chars {t : Target} (h : ∀ name ∈ t.names, IsWord name) :
    targetOf t.chars = some t := by
  cases t with
  | record id =>
      have hhead : id.chars.head? = some '#' := rfl
      rw [Target.chars_record, targetOf, if_pos hhead, RecordId.parse_chars]
      rfl
  | ofClass name =>
      have hword : IsWord name := h name List.mem_cons_self
      have hhead : name.toList.head? ≠ some '#' := by
        intro hhash
        exact hword.not_mem rfl (List.mem_of_mem_head? hhash)
      -- the mark of a cluster ends with a colon, and a word has none
      have hmark : ['c', 'l', 'u', 's', 't', 'e', 'r', ':'].isPrefixOf? name.toList = none := by
        rw [← Option.not_isSome_iff_eq_none, Option.isSome_iff_exists]
        rintro ⟨rest, hrest⟩
        exact hword.not_mem (c := ':') rfl (mem_of_isPrefixOf?_eq_some hrest (by decide))
      rw [Target.chars_ofClass, targetOf, if_neg hhead, hmark]
      simp
  | cluster name =>
      have htext : (Target.cluster name).chars
          = ['c', 'l', 'u', 's', 't', 'e', 'r', ':'] ++ name.toList := rfl
      rw [htext, targetOf, if_neg (by simp), isPrefixOf?_append]
      simp

/-- No space stands in a target. -/
theorem ne_space_of_mem_chars {t : Target} (h : ∀ name ∈ t.names, IsWord name) {c : Char}
    (hc : c ∈ t.chars) : (c != ' ') = true := by
  rw [bne_iff_ne]
  rintro rfl
  cases t with
  | record id => exact absurd (isAtomChar_of_mem_chars hc) (by decide)
  | ofClass name => exact (h name List.mem_cons_self).not_mem rfl hc
  | cluster name =>
      rw [Target.chars_cluster] at hc
      rcases List.mem_append.1 hc with hc | hc
      · exact absurd hc (by decide)
      · exact (h name List.mem_cons_self).not_mem rfl hc

/-! ### Conditions -/

/-- The test with a first word or sign and an operand. -/
def testOf (token : List Char) (operand : Skeleton) : Option TestOutline :=
  match [Comparison.eq, .ne, .lt, .lte, .gt, .gte, .like].find? (·.token.toList == token) with
  | some comparison => some (.compare comparison operand)
  | none =>
    if token = ['C', 'O', 'N', 'T', 'A', 'I', 'N', 'S'] then some (.contains operand)
    else
      match operand with
      | .null => if token = ['I', 'S'] then some .isNull else none
      | _ => none

theorem testOf_token (test : TestOutline) : testOf test.token test.operand = some test := by
  cases test with
  | compare comparison operand => cases comparison <;> rfl
  | isNull => rfl
  | contains operand => rfl

theorem ne_space_of_mem_token {test : TestOutline} {c : Char} (hc : c ∈ test.token) :
    (c != ' ') = true := by
  have hcomparison : ∀ comparison : Comparison, ' ' ∉ comparison.token.toList := by
    intro comparison
    cases comparison <;> decide
  have hcontains : ' ' ∉ ['C', 'O', 'N', 'T', 'A', 'I', 'N', 'S'] := by decide
  rw [bne_iff_ne]
  rintro rfl
  cases test with
  | compare comparison operand => exact hcomparison comparison hc
  | isNull => exact absurd hc (by decide)
  | contains operand => exact hcontains hc

/-- Reads a condition that is joined in the given way to the one before it. -/
def condition (lead : Option Combinator) (text : List Char) :
    Option (ConditionOutline × List Char) :=
  let test := (text.dropWhile isWordChar).tail
  match value (test.dropWhile (· != ' ')).tail with
  | none => none
  | some (operand, rest) => (testOf (test.takeWhile (· != ' ')) operand).map fun t =>
    (⟨lead, String.ofList (text.takeWhile isWordChar), t⟩, rest)

theorem condition_body {c : Condition} (hnames : ∀ name ∈ c.names, IsWord name)
    (hv : c.op.operand.literalChars .backslash = .ok c.op.operand.skeleton.chars)
    {rest : List Char} (hrest : Delimited rest) :
    condition c.combinator (c.outline.body ++ rest) = some (c.outline, rest) := by
  have hword : IsWord c.field := hnames c.field List.mem_cons_self
  have hvalue : value (c.op.outline.operand.chars ++ rest) = some (c.op.outline.operand, rest) := by
    rw [Op.operand_outline]
    exact value_of_words (fun name hname => hnames name (List.mem_cons_of_mem _ hname)) hv hrest
  have htext : c.outline.body ++ rest = c.field.toList
      ++ (' ' :: (c.op.outline.token ++ (' ' :: (c.op.outline.operand.chars ++ rest)))) := by
    simp [ConditionOutline.body, Condition.outline]
  have hname : Stops isWordChar
      (' ' :: (c.op.outline.token ++ (' ' :: (c.op.outline.operand.chars ++ rest)))) :=
    (delimited_cons rfl _).stops_word
  have htoken : ∀ d ∈ c.op.outline.token, (d != ' ') = true := fun _ => ne_space_of_mem_token
  have hspace : Stops (· != ' ') (' ' :: (c.op.outline.operand.chars ++ rest)) := by
    intro d hd
    cases hd
    rfl
  rw [condition, htext, dropWhile_append_of_stops hword.forall_mem hname,
    takeWhile_append_of_stops hword.forall_mem hname]
  simp only [List.tail_cons]
  rw [dropWhile_append_of_stops htoken hspace, takeWhile_append_of_stops htoken hspace,
    List.tail_cons, hvalue]
  simp [testOf_token, Condition.outline]

/-- Reads the word that joins a condition to the one before. -/
def combinator (text : List Char) : Option (Combinator × List Char) :=
  match [' ', 'A', 'N', 'D', ' '].isPrefixOf? text with
  | some rest => some (.and, rest)
  | none => ([' ', 'O', 'R', ' '].isPrefixOf? text).map fun rest => (.or, rest)

theorem combinator_leadChars (c : Combinator) (rest : List Char) :
    combinator (Combinator.leadChars (some c) ++ rest) = some (c, rest) := by
  cases c <;> rfl

/-- Reads conditions, the first joined in the given way, as many as there are. -/
def conditions : Nat → Option Combinator → List Char → Option (List ConditionOutline × List Char)
  | 0, _, _ => none
  | n + 1, lead, text =>
    match condition lead text with
    | none => none
    | some (c, rest) =>
      match combinator rest with
      | none => some ([c], rest)
      | some (next, more) => (conditions n (some next) more).map fun (cs, rest) => (c :: cs, rest)

theorem conditions_chars {c : Condition} {later : List Condition}
    (hnames : ∀ d ∈ c :: later, ∀ name ∈ d.names, IsWord name)
    (hv : ∀ d ∈ c :: later,
      d.op.operand.literalChars .backslash = .ok d.op.operand.skeleton.chars)
    (hlater : ∀ d ∈ later, d.combinator ≠ none) {n : Nat} (hn : later.length < n) :
    conditions n c.combinator
        (c.outline.body ++ (later.map fun d => d.outline.chars).flatten)
      = some ((c :: later).map Condition.outline, []) := by
  induction later generalizing c n with
  | nil =>
      obtain ⟨n, rfl⟩ : ∃ m, n = m + 1 := Nat.exists_eq_succ_of_ne_zero (Nat.ne_zero_of_lt hn)
      have hread : condition c.combinator (c.outline.body ++ []) = some (c.outline, []) :=
        condition_body (hnames c List.mem_cons_self) (hv c List.mem_cons_self) delimited_nil
      rw [List.map_nil, List.flatten_nil, conditions, hread]
      rfl
  | cons next later ih =>
      -- the word that joins the next condition ends this one and tells how to go on
      obtain ⟨n, rfl⟩ : ∃ m, n = m + 1 := Nat.exists_eq_succ_of_ne_zero (Nat.ne_zero_of_lt hn)
      obtain ⟨lead, hlead⟩ := Option.ne_none_iff_exists'.1 (hlater next List.mem_cons_self)
      have hchars : next.outline.chars = Combinator.leadChars (some lead) ++ next.outline.body := by
        rw [← hlead]
        rfl
      have hdelimited : Delimited (Combinator.leadChars (some lead) ++ (next.outline.body
          ++ (later.map fun d => d.outline.chars).flatten)) := delimited_cons rfl _
      have hread := condition_body (hnames c List.mem_cons_self) (hv c List.mem_cons_self)
        hdelimited
      have htail : conditions n next.combinator
          (next.outline.body ++ (later.map fun d => d.outline.chars).flatten)
            = some ((next :: later).map Condition.outline, []) :=
        ih (fun d hd => hnames d (List.mem_cons_of_mem c hd))
          (fun d hd => hv d (List.mem_cons_of_mem c hd))
          (fun d hd => hlater d (List.mem_cons_of_mem next hd)) (Nat.lt_of_succ_lt_succ hn)
      rw [hlead] at htail
      rw [List.map_cons, List.flatten_cons, hchars, List.append_assoc, conditions, hread]
      simp only [combinator_leadChars, htail]
      rfl

/-- Reads the WHERE clause, which may not be there, to the end of the text. -/
def conditionClause (text : List Char) : Option (List ConditionOutline) :=
  match [' ', 'W', 'H', 'E', 'R', 'E', ' '].isPrefixOf? text with
  | none => if text = [] then some [] else none
  | some rest =>
    match conditions (rest.length + 1) none rest with
    | none => none
    | some (cs, rest) => if rest = [] then some cs else none

theorem length_le_length_flatten_chars (cs : List Condition) :
    cs.length ≤ (cs.map fun c => c.outline.chars).flatten.length := by
  induction cs with
  | nil => exact Nat.le_refl _
  | cons c cs ih =>
      rw [List.map_cons, List.flatten_cons, List.length_append, List.length_cons]
      have hpos : 0 < c.outline.chars.length := by
        simp only [ConditionOutline.chars, ConditionOutline.body, List.length_append,
          List.length_cons]
        omega
      omega

theorem conditionClause_conditionClauseChars {chain : WhereChain} (hchain : chain.WellFormed)
    (hnames : ∀ c ∈ chain.conditions, ∀ name ∈ c.names, IsWord name)
    (hv : ∀ c ∈ chain.conditions,
      c.op.operand.literalChars .backslash = .ok c.op.operand.skeleton.chars) :
    conditionClause (conditionClauseChars (chain.conditions.map fun c => c.outline.chars))
      = some (chain.conditions.map Condition.outline) := by
  cases hconditions : chain.conditions with
  | nil => rfl
  | cons c later =>
      obtain ⟨hnone, hlater⟩ := hchain.cons hconditions
      rw [hconditions] at hnames hv
      have htext : conditionClauseChars ((c :: later).map fun c => c.outline.chars)
          = [' ', 'W', 'H', 'E', 'R', 'E', ' ']
            ++ (c.outline.body ++ (later.map fun d => d.outline.chars).flatten) := by
        have hchars : c.outline.chars = c.outline.body := by
          rw [ConditionOutline.chars, Condition.outline, hnone]
          rfl
        simp [conditionClauseChars, hchars]
      have hlength : later.length < (c.outline.body
          ++ (later.map fun d => d.outline.chars).flatten).length + 1 := by
        have hle := length_le_length_flatten_chars later
        rw [List.length_append]
        omega
      have hread := conditions_chars hnames hv hlater hlength
      rw [hnone] at hread
      rw [conditionClause, htext, isPrefixOf?_append]
      simp only [hread, if_true]

/-! ### Statements -/

/-- Reads a whole statement. -/
def statement (text : List Char) : Option Outline := do
  let rest ← ['U', 'P', 'D', 'A', 'T', 'E', ' '].isPrefixOf? text
  let target ← targetOf (rest.takeWhile (· != ' '))
  let (assignments, rest) ← clause ['S', 'E', 'T'] (field value) (rest.dropWhile (· != ' '))
  let (additions, rest) ← clause ['A', 'D', 'D'] (field value) rest
  let (removals, rest) ← clause ['R', 'E', 'M', 'O', 'V', 'E'] removal rest
  let conditions ← conditionClause rest
  return { target, assignments, additions, removals, conditions }

/-- **A statement is read back as its outline**, if its names are words and its chain is
well-formed. -/
theorem statement_chars {s : Statement} {text : List Char} (hchain : s.chain.WellFormed)
    (hnames : ∀ name ∈ s.names, IsWord name) (h : s.chars .backslash = .ok text) :
    statement text = some s.outline := by
  obtain ⟨hwritten, rfl⟩ := Statement.written_of_chars_eq_ok h
  simp only [Statement.names, List.forall_mem_append] at hnames
  obtain ⟨htarget, hset, hadd, hremove, hwhere⟩ := hnames
  -- the text from the start of each clause on
  let conds := conditionClauseChars (s.chain.conditions.map fun c => c.outline.chars)
  let rems := clauseChars "REMOVE"
    (s.removals.map fun entry => removalEntryChars (removalOutline entry)) ++ conds
  let adds := clauseChars "ADD"
    (s.additions.map fun entry => entryChars (entrySkeleton entry)) ++ rems
  let sets := clauseChars "SET"
    (s.assignments.map fun entry => entryChars (entrySkeleton entry)) ++ adds
  have hconds : Opens ['W'] conds := opens_conditionClauseChars _
  have hrems : Opens ['R', 'W'] rems := opens_clauseChars rfl hconds _
  have hadds : Opens ['A', 'R', 'W'] adds := opens_clauseChars rfl hrems _
  have hsets : Opens ['S', 'A', 'R', 'W'] sets := opens_clauseChars rfl hadds _
  have htext : s.outline.chars
      = ['U', 'P', 'D', 'A', 'T', 'E', ' '] ++ (s.target.chars ++ sets) := by
    rw [Outline.chars_eq]
    simp only [Statement.outline, List.map_map]
    rfl
  have hspace : Stops (· != ' ') sets := hsets.stops_ne_space
  have hrun : ∀ c ∈ s.target.chars, (c != ' ') = true := fun _ => ne_space_of_mem_chars htarget
  have hreadSet : clause ['S', 'E', 'T'] (field value) sets
      = some (s.assignments.map entrySkeleton, adds) :=
    clause_entries rfl hset hwritten.assignments hadds (by decide)
  have hreadAdd : clause ['A', 'D', 'D'] (field value) adds
      = some (s.additions.map entrySkeleton, rems) :=
    clause_entries rfl hadd hwritten.additions hrems (by decide)
  have hreadRemove : clause ['R', 'E', 'M', 'O', 'V', 'E'] removal rems
      = some (s.removals.map removalOutline, conds) :=
    clause_removals hremove hwritten.removals hconds (by decide) (by decide)
  have hreadWhere : conditionClause conds = some (s.chain.conditions.map Condition.outline) :=
    conditionClause_conditionClauseChars hchain (words_of_flatMap hwhere) hwritten.conditions
  rw [statement, htext, isPrefixOf?_append]
  simp only [Option.bind_eq_bind, Option.bind_some, takeWhile_append_of_stops hrun hspace,
    dropWhile_append_of_stops hrun hspace, targetOf_chars htarget, hreadSet, hreadAdd, hreadRemove,
    hreadWhere]
  rfl

end Reading

end UpdateSql
