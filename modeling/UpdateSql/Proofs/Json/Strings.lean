/-
**Strings without escapes.**

A string of which no character needs an escape stands in JSON text as it is, between double quotes,
and is read back as it is.

Main definitions:

* `Json.IsPlain` — a character that needs no escape.

Main results:

* `Json.split_quoted` — a quoted text is a single lexeme;
* `Json.unescape_of_plain` — the content of a string without escapes is what is written;
* `Json.parse_quoted` — **a quoted text is read back as the string**.
-/

import UpdateSql.Json.Reader

set_option relaxedAutoImplicit false
set_option autoImplicit false

namespace UpdateSql.Json

/-- A character that stands for itself in a string. -/
structure IsPlain (c : Char) : Prop where
  ne_quote : c ≠ '"'
  ne_backslash : c ≠ '\\'
  not_control : ¬ c.toNat < 0x20

namespace Lexeme

theorem step_inString {c : Char} (hc : IsPlain c) (finished : List Lexeme) (raw : List Char) :
    Splitter.step ⟨finished, .inString raw⟩ c = ⟨finished, .inString (c :: raw)⟩ :=
  (if_neg hc.ne_quote).trans (if_neg hc.ne_backslash)

/-- In a string, plain characters are only collected. -/
theorem foldl_step_inString {text : List Char} (h : ∀ c ∈ text, IsPlain c)
    (finished : List Lexeme) (raw : List Char) :
    text.foldl Splitter.step ⟨finished, .inString raw⟩
      = ⟨finished, .inString (text.reverse ++ raw)⟩ := by
  induction text generalizing raw with
  | nil => rfl
  | cons c text ih =>
      rw [List.forall_mem_cons] at h
      rw [List.foldl_cons, step_inString h.1, ih h.2, List.reverse_cons, List.append_assoc]
      rfl

end Lexeme

/-- A quoted text is a single lexeme. -/
theorem split_quoted {text : List Char} (h : ∀ c ∈ text, IsPlain c) :
    Lexeme.split ('"' :: (text ++ ['"'])) = some [.string text] := by
  have hopen : Lexeme.Splitter.step ⟨[], .between⟩ '"' = ⟨[], .inString []⟩ := rfl
  have hclose : Lexeme.Splitter.step ⟨[], .inString text.reverse⟩ '"'
      = ⟨[.string text.reverse.reverse], .between⟩ := rfl
  rw [Lexeme.split, List.foldl_cons, hopen, List.foldl_append, Lexeme.foldl_step_inString h,
    List.append_nil, List.foldl_cons, hclose, List.reverse_reverse]
  rfl

/-- The content of a string without escapes is what is written. -/
theorem unescape_of_plain {text : List Char} (h : ∀ c ∈ text, IsPlain c) :
    unescape none text = some text := by
  induction text with
  | nil => simp [unescape]
  | cons c text ih =>
      rw [List.forall_mem_cons] at h
      simp [unescape, h.1.ne_backslash, h.1.not_control, ih h.2]

/-- **A quoted text is read back as the string.** -/
theorem parse_quoted {text : List Char} (h : ∀ c ∈ text, IsPlain c) :
    parse (String.ofList ('"' :: (text ++ ['"']))) = some (.string (String.ofList text)) := by
  have htoken : Token.ofLexeme (.string text) = some (.string (String.ofList text)) := by
    rw [Token.ofLexeme, unescape_of_plain h]
    rfl
  rw [parse, String.toList_ofList, split_quoted h]
  simp [htoken, Reader.step, Reader.begin, Reader.deliver]

end UpdateSql.Json
