/-
**Quoted strings.**

A string literal stands between single quotes.  Its content is written as it is, or with a
backslash before each quote and each backslash; in the second form the closing quote is the first
quote that no backslash protects, whatever the content is.

Main definitions:

* `QuoteMode` — the two ways of writing the content;
* `Quoted.escape` — puts the backslashes in;
* `Quoted.encode` — the whole literal;
* `Quoted.scan` — reads a literal with backslashes off the front of a text.
-/

set_option relaxedAutoImplicit false
set_option autoImplicit false

namespace UpdateSql

/-- How the content of a string literal is written. -/
inductive QuoteMode where
  /-- As it is. -/
  | verbatim
  /-- With a backslash before each quote and each backslash. -/
  | backslash
deriving DecidableEq, Repr

namespace Quoted

/-- The quote that delimits a literal. -/
def quote : Char := '\''

/-- The character that makes the next one literal. -/
def escapeMark : Char := '\\'

/-- Whether a character is written with a backslash before it. -/
def needsEscape (c : Char) : Bool := c == quote || c == escapeMark

/-- Puts a backslash before each quote and each backslash. -/
def escape : List Char → List Char
  | [] => []
  | c :: rest => if needsEscape c then escapeMark :: c :: escape rest else c :: escape rest

/-- The content of a literal as written. -/
def content : QuoteMode → List Char → List Char
  | .verbatim, text => text
  | .backslash, text => escape text

/-- The literal of a text. -/
def encode (mode : QuoteMode) (text : List Char) : List Char :=
  quote :: (content mode text ++ [quote])

/-- The literal of a string. -/
def text (mode : QuoteMode) (s : String) : String := String.ofList (encode mode s.toList)

/-- Reads up to the first quote that no backslash protects: the content before it, without the
protecting backslashes, and what follows it.  The flag says that the next character is protected. -/
def scanContent (protect : Bool) : List Char → Option (List Char × List Char)
  | [] => none
  | c :: rest =>
    if protect then (scanContent false rest).map fun (content, after) => (c :: content, after)
    else if c = quote then some ([], rest)
    else if c = escapeMark then scanContent true rest
    else (scanContent false rest).map fun (content, after) => (c :: content, after)

/-- Reads a literal off the front of a text: its content, and the text after it. -/
def scan : List Char → Option (List Char × List Char)
  | [] => none
  | c :: rest => if c = quote then scanContent false rest else none

/-! ### Reading what was written -/

@[simp] theorem escape_nil : escape [] = [] := rfl

theorem escape_cons (c : Char) (rest : List Char) :
    escape (c :: rest)
      = if needsEscape c then escapeMark :: c :: escape rest else c :: escape rest := rfl

@[simp] theorem escape_append (a b : List Char) : escape (a ++ b) = escape a ++ escape b := by
  induction a with
  | nil => rfl
  | cons c a ih =>
      rw [List.cons_append, escape_cons, escape_cons, ih]
      split <;> rfl

/-- The content of a literal ends at the quote that closes it, whatever follows. -/
theorem scanContent_escape (text after : List Char) :
    scanContent false (escape text ++ quote :: after) = some (text, after) := by
  induction text with
  | nil => rfl
  | cons c text ih =>
      rw [escape_cons]
      split
      · simp [scanContent, ih, show escapeMark ≠ quote by decide]
      · next h =>
          rw [needsEscape, Bool.or_eq_true, not_or, beq_iff_eq, beq_iff_eq] at h
          simp [scanContent, ih, h.1, h.2]

end Quoted

end UpdateSql
