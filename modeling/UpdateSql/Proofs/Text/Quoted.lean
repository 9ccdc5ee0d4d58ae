/-
**String literals with backslashes.**

Between its quotes a literal with backslashes holds a text in which every quote and every backslash
is protected: nothing in it can be taken for the closing quote, and it cannot swallow the closing
quote either.  Such texts are exactly the ones that are written, so a literal and its content
determine each other.

Main definitions:

* `Quoted.Protected` — the texts in which every quote and every backslash is protected;
* `Quoted.IsLiteral` — such a text between quotes.

Main results:

* `Quoted.protected_iff_exists_escape` — what is protected was written so, and what was written is
  protected;
* `Quoted.scan_encode` — a literal is scanned as its content, whatever follows;
* `Quoted.literals_and_contents` — **literals and contents determine each other**.
-/

import UpdateSql.Text.Quoted

set_option relaxedAutoImplicit false
set_option autoImplicit false

namespace UpdateSql.Quoted

/-! ### Protected texts -/

/-- A text in which every quote and every backslash stands behind a backslash of its own, and no
other character does. -/
inductive Protected : List Char → Prop
  | nil : Protected []
  | plain {c : Char} {body : List Char} (hquote : c ≠ '\'') (hmark : c ≠ '\\')
      (h : Protected body) : Protected (c :: body)
  | quote {body : List Char} (h : Protected body) : Protected ('\\' :: '\'' :: body)
  | mark {body : List Char} (h : Protected body) : Protected ('\\' :: '\\' :: body)

/-- A protected text between quotes. -/
def IsLiteral (text : List Char) : Prop :=
  ∃ body, Protected body ∧ text = '\'' :: (body ++ ['\''])

theorem needsEscape_eq_false_iff {c : Char} : needsEscape c = false ↔ c ≠ '\'' ∧ c ≠ '\\' := by
  rw [needsEscape, Bool.or_eq_false_iff, beq_eq_false_iff_ne, beq_eq_false_iff_ne]
  rfl

theorem escape_cons_of_plain {c : Char} (hquote : c ≠ '\'') (hmark : c ≠ '\\')
    (text : List Char) : escape (c :: text) = c :: escape text := by
  rw [escape_cons, needsEscape_eq_false_iff.2 ⟨hquote, hmark⟩]
  rfl

theorem escape_cons_quote (text : List Char) :
    escape ('\'' :: text) = '\\' :: '\'' :: escape text := rfl

theorem escape_cons_mark (text : List Char) :
    escape ('\\' :: text) = '\\' :: '\\' :: escape text := rfl

/-- What is written as the content of a literal is protected. -/
theorem protected_escape (text : List Char) : Protected (escape text) := by
  induction text with
  | nil => exact .nil
  | cons c text ih =>
      by_cases hquote : c = '\''
      · rw [hquote, escape_cons_quote]
        exact .quote ih
      · by_cases hmark : c = '\\'
        · rw [hmark, escape_cons_mark]
          exact .mark ih
        · rw [escape_cons_of_plain hquote hmark]
          exact .plain hquote hmark ih

/-- **Protected texts are the written contents.** -/
theorem protected_iff_exists_escape {body : List Char} :
    Protected body ↔ ∃ text, body = escape text := by
  constructor
  · intro h
    induction h with
    | nil => exact ⟨[], rfl⟩
    | plain hquote hmark _ ih =>
        obtain ⟨text, rfl⟩ := ih
        exact ⟨_ :: text, (escape_cons_of_plain hquote hmark text).symm⟩
    | quote _ ih =>
        obtain ⟨text, rfl⟩ := ih
        exact ⟨'\'' :: text, rfl⟩
    | mark _ ih =>
        obtain ⟨text, rfl⟩ := ih
        exact ⟨'\\' :: text, rfl⟩
  · rintro ⟨text, rfl⟩
    exact protected_escape text

/-! ### Literals -/

/-- A literal is scanned as its content, whatever follows. -/
theorem scan_encode (content after : List Char) :
    scan (encode .backslash content ++ after) = some (content, after) := by
  have happend : encode .backslash content ++ after
      = quote :: (escape content ++ quote :: after) := by
    simp [encode, Quoted.content]
  rw [happend, scan, if_pos rfl]
  exact scanContent_escape content after

theorem isLiteral_iff_exists_encode {text : List Char} :
    IsLiteral text ↔ ∃ content, text = encode .backslash content := by
  constructor
  · rintro ⟨body, hbody, rfl⟩
    obtain ⟨content, rfl⟩ := protected_iff_exists_escape.1 hbody
    exact ⟨content, rfl⟩
  · rintro ⟨content, rfl⟩
    exact ⟨escape content, protected_escape content, rfl⟩

theorem toList_text (mode : QuoteMode) (s : String) :
    (text mode s).toList = encode mode s.toList :=
  String.toList_ofList

theorem isLiteral_iff_exists_text {t : String} :
    IsLiteral t.toList ↔ ∃ s, t = text .backslash s := by
  rw [isLiteral_iff_exists_encode]
  constructor
  · rintro ⟨content, h⟩
    refine ⟨String.ofList content, ?_⟩
    rw [← String.toList_inj, toList_text, String.toList_ofList, h]
  · rintro ⟨s, rfl⟩
    exact ⟨s.toList, toList_text .backslash s⟩

/-- **Literals and contents determine each other.**  A literal in front of any text is scanned as
its content, and exactly the text that was there is left.  The literals are the protected texts
between quotes, no other ones; each is scanned to its end, and its content is written as it
again. -/
theorem literals_and_contents :
    (∀ s after : String,
      scan (text .backslash s ++ after).toList = some (s.toList, after.toList)) ∧
    (∀ t : String, (∃ s, t = text .backslash s) ↔ IsLiteral t.toList) ∧
    ∀ t : String, IsLiteral t.toList →
      ∃ s : String, scan t.toList = some (s.toList, []) ∧ text .backslash s = t := by
  refine ⟨fun s after => ?_, fun t => isLiteral_iff_exists_text.symm, fun t ht => ?_⟩
  · rw [String.toList_append, toList_text]
    exact scan_encode s.toList after.toList
  · obtain ⟨s, rfl⟩ := isLiteral_iff_exists_text.1 ht
    have hscan := scan_encode s.toList []
    rw [List.append_nil] at hscan
    exact ⟨s, by rw [toList_text, hscan], rfl⟩

/-- A content that ends in a backslash, before a text that starts with a quote. -/
theorem literal_of_trailing_backslash :
    scan (text .backslash "'a\\" ++ "' = 1").toList = some (['\'', 'a', '\\'], "' = 1".toList) ∧
      IsLiteral "'\\'a\\\\'".toList ∧
      ∃ s : String, scan "'\\'a\\\\'".toList = some (s.toList, []) ∧
        text .backslash s = "'\\'a\\\\'" := by
  obtain ⟨hscan, -, hback⟩ := literals_and_contents
  have hliteral : IsLiteral "'\\'a\\\\'".toList :=
    ⟨['\\', '\'', 'a', '\\', '\\'], .quote (.plain (by decide) (by decide) (.mark .nil)), rfl⟩
  exact ⟨hscan "'a\\" "' = 1", hliteral, hback _ hliteral⟩

end UpdateSql.Quoted
