/-
**Reading literals back.**

With escaped quotes a literal can be read off the front of a text: its first character tells what
kind of value it is, and each kind ends by itself or at the delimiter that follows.  What is read is
the skeleton of the value.

The name of a document field is read up to the equals sign, and an opening bracket with a closing
one after it is read as a document without fields; so names must hold neither of the two characters.

Main definitions:

* `Reading.literal`, `Reading.value` — read a literal off the front of a text;
* `Value.ReadableNames` — no field name holds an equals sign or a closing bracket.

Main results:

* `Reading.literal_literalChars` — **a literal is read back as the skeleton of its value**, whatever
  follows it.
-/

import UpdateSql.Proofs.Number.Characters
import UpdateSql.Proofs.Reading.Basic
import UpdateSql.Proofs.RecordId.Grammar
import UpdateSql.Proofs.Value.Skeleton

set_option relaxedAutoImplicit false
set_option autoImplicit false

namespace UpdateSql

namespace Reading

/-! ### Words -/

/-- Whether a character can stand in the literal of a value that has neither quotes nor brackets. -/
def isAtomChar (c : Char) : Bool :=
  !(isDelimiter c || c == '(' || c == '[' || c == Quoted.quote)

/-- The value that a literal without quotes and brackets stands for. -/
def ofWord (word : List Char) : Option Skeleton :=
  if word = ['N', 'U', 'L', 'L'] then some .null
  else if word = ['t', 'r', 'u', 'e'] then some (.bool true)
  else if word = ['f', 'a', 'l', 's', 'e'] then some (.bool false)
  else if word.head? = some '#' then (RecordId.parse word).toOption.map .link
  else if word ≠ [] ∧ word.all isNumberChar then some (.number word)
  else none

theorem isAtomChar_of_isNumberChar {c : Char} (h : isNumberChar c = true) :
    isAtomChar c = true := by
  cases hc : isAtomChar c with
  | true => rfl
  | false =>
      simp only [isAtomChar, isDelimiter, Bool.not_eq_false', Bool.or_eq_true, beq_iff_eq] at hc
      rcases hc with (((((rfl | rfl) | rfl) | rfl) | rfl) | rfl) | rfl <;>
        exact absurd h (by decide)

theorem isAtomChar_of_mem_chars {id : RecordId} {c : Char} (h : c ∈ id.chars) :
    isAtomChar c = true := by
  simp only [RecordId.chars, List.mem_cons, List.mem_append] at h
  rcases h with rfl | h | rfl | h
  · rfl
  · exact isAtomChar_of_isNumberChar (isNumberChar_of_mem_toDigits h)
  · rfl
  · exact isAtomChar_of_isNumberChar (isNumberChar_of_mem_toDigits h)

theorem ofWord_chars (id : RecordId) : ofWord id.chars = some (.link id) := by
  have hhead : id.chars.head? = some '#' := rfl
  -- none of the three words starts with the mark of a record id
  have hne : ∀ c word, c ≠ '#' → id.chars ≠ c :: word := by
    intro c word hc h
    rw [h] at hhead
    exact hc (Option.some.inj hhead)
  rw [ofWord, if_neg (hne _ _ (by decide)), if_neg (hne _ _ (by decide)),
    if_neg (hne _ _ (by decide)), if_pos hhead, RecordId.parse_chars]
  rfl

theorem ofWord_number {text : List Char} (hne : text ≠ [])
    (h : ∀ c ∈ text, isNumberChar c = true) : ofWord text = some (.number text) := by
  -- the words and the mark of a record id start with characters that numbers do not have
  have hword : ∀ c word, isNumberChar c = false → text ≠ c :: word := by
    rintro c word hc rfl
    rw [h c (by simp)] at hc
    cases hc
  have hhead : text.head? ≠ some '#' := by
    intro hhash
    obtain ⟨word, hw⟩ := List.head?_eq_some_iff.1 hhash
    exact hword '#' word rfl hw
  rw [ofWord, if_neg (hword _ _ rfl), if_neg (hword _ _ rfl), if_neg (hword _ _ rfl),
    if_neg hhead, if_pos ⟨hne, List.all_eq_true.2 h⟩]

/-! ### Literals -/

section

variable {α : Type}

/-- Reads a field: a name up to the equals sign, and what is assigned to it. -/
def field (read : List Char → Option (α × List Char)) (text : List Char) :
    Option ((String × α) × List Char) :=
  match ['=', ' '].isPrefixOf? (text.dropWhile (· != '=')) with
  | none => none
  | some rest => (read rest).map fun (a, rest) =>
    -- the space before the equals sign does not belong to the name
    ((String.ofList (text.takeWhile (· != '=')).dropLast, a), rest)

theorem field_assigned {read : List Char → Option (α × List Char)} {name : String}
    (hname : '=' ∉ name.toList) {text rest : List Char} {a : α}
    (h : read (text ++ rest) = some (a, rest)) :
    field read (assigned name text ++ rest) = some ((name, a), rest) := by
  have hrun : ∀ c ∈ name.toList ++ [' '], (c != '=') = true := by
    intro c hc
    rw [bne_iff_ne]
    rintro rfl
    simp [hname] at hc
  have hsplit : assigned name text ++ rest
      = (name.toList ++ [' ']) ++ (['=', ' '] ++ (text ++ rest)) := by
    simp [assigned]
  have hstop : Stops (· != '=') (['=', ' '] ++ (text ++ rest)) := by
    intro c hc
    cases hc
    rfl
  rw [field, hsplit, dropWhile_append_of_stops hrun hstop, takeWhile_append_of_stops hrun hstop,
    isPrefixOf?_append]
  simp [h]

end

/-- A field is not taken for the bracket that may stand in its place. -/
theorem head?_assigned_ne {name : String} (hne : name ≠ "") {c : Char} (hname : c ∉ name.toList)
    {text rest : List Char} : (assigned name text ++ rest).head? ≠ some c := by
  cases hchars : name.toList with
  | nil => exact absurd (String.toList_eq_nil_iff.1 hchars) hne
  | cons d chars =>
      rw [hchars] at hname
      intro h
      rw [assigned, hchars] at h
      obtain rfl : d = c := Option.some.inj h
      exact hname List.mem_cons_self

/-- Reads a literal.  The number bounds how deep values lie in each other. -/
def literal : Nat → List Char → Option (Skeleton × List Char)
  | 0, _ => none
  | _ + 1, [] => none
  | depth + 1, c :: rest =>
    if c = Quoted.quote then
      (Quoted.scan (c :: rest)).map fun (content, rest) => (.string (String.ofList content), rest)
    else if c = '(' then
      (bracketed ')' (field (literal depth)) rest).map fun (fields, rest) =>
        (.document fields, rest)
    else if c = '[' then
      (bracketed ']' (literal depth) rest).map fun (items, rest) => (.list items, rest)
    else
      (ofWord ((c :: rest).takeWhile isAtomChar)).map fun s =>
        (s, (c :: rest).dropWhile isAtomChar)

/-- A word is read as the value it stands for. -/
theorem literal_word {word rest : List Char} {s : Skeleton} (hs : ofWord word = some s)
    (hall : word.all isAtomChar = true) (hrest : Delimited rest) {depth : Nat}
    (hd : word.length ≤ depth) : literal depth (word ++ rest) = some (s, rest) := by
  have hword : ∀ c ∈ word, isAtomChar c = true := List.all_eq_true.1 hall
  have hstop : Stops isAtomChar rest := hrest.stops fun c hc => by simp [isAtomChar, hc]
  cases word with
  | nil => cases hs
  | cons c word =>
      obtain ⟨depth, rfl⟩ : ∃ n, depth = n + 1 :=
        Nat.exists_eq_succ_of_ne_zero (Nat.ne_zero_of_lt hd)
      have hc : isAtomChar c = true := hword c (by simp)
      simp only [isAtomChar, Bool.not_eq_true', Bool.or_eq_false_iff, beq_eq_false_iff_ne] at hc
      rw [List.cons_append, literal, if_neg hc.2, if_neg hc.1.1.2, if_neg hc.1.2,
        ← List.cons_append, takeWhile_append_of_stops hword hstop,
        dropWhile_append_of_stops hword hstop, hs]
      rfl

/-- A number is read as it is written. -/
theorem literal_number {text rest : List Char} (hne : text ≠ [])
    (h : ∀ c ∈ text, isNumberChar c = true) (hrest : Delimited rest) {depth : Nat}
    (hd : text.length ≤ depth) : literal depth (text ++ rest) = some (.number text, rest) :=
  literal_word (ofWord_number hne h)
    (List.all_eq_true.2 fun c hc => isAtomChar_of_isNumberChar (h c hc)) hrest hd

/-- No literal starts with the bracket that closes a list. -/
theorem head?_ne_of_literal {depth : Nat} {text rest : List Char} {result : Skeleton × List Char}
    (h : literal depth text = some result) : (text ++ rest).head? ≠ some ']' := by
  cases text with
  | nil => cases depth <;> cases h
  | cons c text =>
      intro hc
      obtain rfl : c = ']' := Option.some.inj hc
      cases depth <;> cases h

end Reading

/-! ### Reading back -/

/-- A name that can be told from the equals sign and the bracket after it. -/
def IsReadableName (name : String) : Prop := '=' ∉ name.toList ∧ ')' ∉ name.toList

/-- No field of a value has a name that holds an equals sign or a closing bracket. -/
def Value.ReadableNames (v : Value) : Prop := ∀ name ∈ v.names, IsReadableName name

theorem Value.readableNames_document {className : Option String} {rid : Option RecordId}
    {fields : List (String × Value)} (h : (Value.document ⟨className, rid, fields⟩).ReadableNames)
    {entry : String × Value} (he : entry ∈ fields) :
    IsReadableName entry.1 ∧ entry.2.ReadableNames := by
  unfold Value.ReadableNames at h
  rw [Value.names_document] at h
  constructor
  · exact h entry.1 (List.mem_flatMap.2 ⟨entry, he, List.mem_cons_self⟩)
  · intro name hname
    exact h name (List.mem_flatMap.2 ⟨entry, he, List.mem_cons_of_mem _ hname⟩)

theorem Value.readableNames_list {items : List Value} (h : (Value.list items).ReadableNames)
    {v : Value} (hv : v ∈ items) : v.ReadableNames := by
  unfold Value.ReadableNames at h
  rw [Value.names_list] at h
  intro name hname
  exact h name (List.mem_flatMap.2 ⟨v, hv, hname⟩)

namespace Reading

/-- Between its brackets a part of a literal is shorter than the whole. -/
theorem length_le_of_bracketed {texts : List (List Char)} {text : List Char} {opening close : Char}
    {depth : Nat} (h : text ∈ texts)
    (hd : (opening :: (commaSeparated texts ++ [close])).length ≤ depth + 1) :
    text.length ≤ depth := by
  have hle := length_le_of_mem_commaSeparated h
  simp only [List.length_cons, List.length_append, List.length_nil] at hd
  omega

/-- **A literal is read back as the skeleton of its value**, whatever delimited text follows. -/
theorem literal_literalChars (v : Value) (hnames : v.ReadableNames) {text : List Char}
    (ht : v.literalChars .backslash = .ok text) {depth : Nat} (hd : text.length ≤ depth)
    {rest : List Char} (hrest : Delimited rest) :
    literal depth (text ++ rest) = some (v.skeleton, rest) := by
  induction v generalizing text depth rest with
  | null =>
      cases ht
      exact literal_word rfl rfl hrest hd
  | bool b =>
      cases b <;> cases ht
      · exact literal_word rfl rfl hrest hd
      · exact literal_word rfl rfl hrest hd
  | integer n =>
      cases ht
      exact literal_number (Numeral.intChars_ne_nil _)
        (fun _ => Numeral.isNumberChar_of_mem_intChars) hrest hd
  | unsigned n =>
      cases ht
      exact literal_number Nat.toDigits_ne_nil (fun _ => isNumberChar_of_mem_toDigits) hrest hd
  | float x =>
      rw [Value.literalChars] at ht
      split at ht
      · next hx =>
          cases ht
          exact literal_number (FloatText.chars_ne_nil hx)
            (fun _ => FloatText.isNumberChar_of_mem_chars hx) hrest hd
      · cases ht
  | string s =>
      cases ht
      obtain ⟨depth, rfl⟩ : ∃ n, depth = n + 1 :=
        Nat.exists_eq_succ_of_ne_zero (Nat.ne_zero_of_lt hd)
      -- the closing quote is found whatever the string is, so nothing is asked of what follows
      have hscan := Quoted.scanContent_escape s.toList rest
      simp [literal, Quoted.encode, Quoted.content, Quoted.scan, hscan, Value.skeleton]
  | link id =>
      cases ht
      exact literal_word (ofWord_chars id)
        (List.all_eq_true.2 fun _ => isAtomChar_of_mem_chars) hrest hd
  | document className rid fields ih =>
      obtain ⟨texts, htexts, htext⟩ := Outcome.bind_eq_ok_iff.1 ht
      cases htext
      obtain ⟨depth, rfl⟩ : ∃ n, depth = n + 1 :=
        Nat.exists_eq_succ_of_ne_zero (Nat.ne_zero_of_lt hd)
      obtain ⟨rfl, hentries⟩ := assignments_eq_ok htexts
      -- the value of a field is shorter than the document, so one level less is enough for it
      have hread : ∀ entry ∈ fields, ∀ rest, Delimited rest →
          field (literal depth) (entryChars (entrySkeleton entry) ++ rest)
            = some (entrySkeleton entry, rest) := by
        intro entry he rest hrest
        obtain ⟨hname, hvalue⟩ := Value.readableNames_document hnames he
        have hlength : (assigned entry.1 entry.2.skeleton.chars).length ≤ depth :=
          length_le_of_bracketed (List.mem_map.2 ⟨entry, he, rfl⟩) hd
        have hlit : entry.2.skeleton.chars.length ≤ depth := by
          simp only [assigned, List.length_append] at hlength
          omega
        exact field_assigned hname.1 (ih entry he hvalue (hentries entry he).2 hlit hrest)
      have hhead : ∀ entry ∈ fields, ∀ rest,
          (entryChars (entrySkeleton entry) ++ rest).head? ≠ some ')' :=
        fun entry he rest => head?_assigned_ne (hentries entry he).1
          (Value.readableNames_document hnames he).1.2
      rw [Value.skeleton_document, List.cons_append, List.append_assoc, literal,
        if_neg (by decide), if_pos rfl, List.singleton_append,
        bracketed_commaSeparated hread hhead rfl (by decide)]
      rfl
  | list items ih =>
      obtain ⟨texts, htexts, htext⟩ := Outcome.bind_eq_ok_iff.1 ht
      cases htext
      obtain ⟨depth, rfl⟩ : ∃ n, depth = n + 1 :=
        Nat.exists_eq_succ_of_ne_zero (Nat.ne_zero_of_lt hd)
      obtain ⟨rfl, hitems⟩ := literals_eq_ok htexts
      have hread : ∀ v ∈ items, ∀ rest, Delimited rest →
          literal depth (v.skeleton.chars ++ rest) = some (v.skeleton, rest) := by
        intro v hv rest hrest
        have hlength : v.skeleton.chars.length ≤ depth :=
          length_le_of_bracketed (List.mem_map.2 ⟨v, hv, rfl⟩) hd
        exact ih v hv (Value.readableNames_list hnames hv) (hitems v hv) hlength hrest
      have hhead : ∀ v ∈ items, ∀ rest, (v.skeleton.chars ++ rest).head? ≠ some ']' := by
        intro v hv rest
        -- an item is read, and what starts with the closing bracket is not
        have hitem := hread v hv [] delimited_nil
        rw [List.append_nil] at hitem
        exact head?_ne_of_literal hitem
      rw [Value.skeleton_list, List.cons_append, List.append_assoc, literal,
        if_neg (by decide), if_neg (by decide), if_pos rfl, List.singleton_append,
        bracketed_commaSeparated hread hhead rfl (by decide)]
      rfl

/-- Reads a literal, however deep the values in it lie. -/
def value (text : List Char) : Option (Skeleton × List Char) := literal text.length text

theorem value_literalChars (v : Value) (hnames : v.ReadableNames) {text : List Char}
    (ht : v.literalChars .backslash = .ok text) {rest : List Char} (hrest : Delimited rest) :
    value (text ++ rest) = some (v.skeleton, rest) :=
  literal_literalChars v hnames ht (by simp) hrest

end Reading

end UpdateSql
