/-
**The lexemes of JSON text.**

A JSON text is made of marks (brackets, colon, comma), strings between double quotes, and words, the
longest runs of other characters; blanks only separate.  The text is split from left to right in one
pass, and each lexeme is understood on its own afterwards.

Main definitions:

* `Lexeme`, `Lexeme.split` — the lexemes of a text;
* `unescape` — the content of a string;
* `Token`, `Token.ofLexeme` — what a lexeme stands for.
-/

import UpdateSql.Json.Number

set_option relaxedAutoImplicit false
set_option autoImplicit false

namespace UpdateSql.Json

/-! ### Splitting -/

/-- A piece of JSON text. -/
inductive Lexeme where
  | mark (c : Char)
  /-- A string as written, without its quotes. -/
  | string (raw : List Char)
  | word (text : List Char)
deriving DecidableEq, Repr

namespace Lexeme

/-- The four blanks that may separate lexemes. -/
def isBlank (c : Char) : Bool := c == ' ' || c == '\t' || c == '\n' || c == '\r'

/-- The characters that are lexemes on their own. -/
def isMark (c : Char) : Bool :=
  c == '[' || c == ']' || c == '\x7b' || c == '\x7d' || c == ':' || c == ','

/-- Where in a lexeme the reading stands; what is read of it comes last character first. -/
inductive Position where
  | between
  | inWord (text : List Char)
  | inString (raw : List Char)
  /-- In a string after a backslash. -/
  | inEscape (raw : List Char)

/-- A reading under way: the finished lexemes, the last one first, and the position. -/
structure Splitter where
  finished : List Lexeme
  position : Position

/-- Reads a character that stands in no lexeme yet. -/
def Splitter.start (finished : List Lexeme) (c : Char) : Splitter :=
  if isBlank c then ⟨finished, .between⟩
  else if isMark c then ⟨.mark c :: finished, .between⟩
  else if c = '"' then ⟨finished, .inString []⟩
  else ⟨finished, .inWord [c]⟩

/-- Reads one more character. -/
def Splitter.step (s : Splitter) (c : Char) : Splitter :=
  match s.position with
  | .between => start s.finished c
  | .inWord text =>
    if isBlank c || isMark c || c == '"' then start (.word text.reverse :: s.finished) c
    else { s with position := .inWord (c :: text) }
  | .inString raw =>
    if c = '"' then ⟨.string raw.reverse :: s.finished, .between⟩
    else if c = '\\' then { s with position := .inEscape (c :: raw) }
    else { s with position := .inString (c :: raw) }
  | .inEscape raw => { s with position := .inString (c :: raw) }

/-- Ends the reading; a string must be closed. -/
def Splitter.finish (s : Splitter) : Option (List Lexeme) :=
  match s.position with
  | .between => some s.finished.reverse
  | .inWord text => some (.word text.reverse :: s.finished).reverse
  | .inString _ => none
  | .inEscape _ => none

/-- The lexemes of a text. -/
def split (text : List Char) : Option (List Lexeme) :=
  (text.foldl Splitter.step ⟨[], .between⟩).finish

end Lexeme

/-! ### Strings -/

/-- The number that a hexadecimal digit stands for. -/
def hexValue (c : Char) : Option Nat :=
  if c.isDigit then some (c.toNat - '0'.toNat)
  else if 'a' ≤ c ∧ c ≤ 'f' then some (c.toNat - 'a'.toNat + 10)
  else if 'A' ≤ c ∧ c ≤ 'F' then some (c.toNat - 'A'.toNat + 10)
  else none

/-- The number that four hexadecimal digits stand for. -/
def hexQuad (a b c d : Char) : Option Nat := do
  return ((← hexValue a) * 16 + (← hexValue b)) * 256 + ((← hexValue c) * 16 + (← hexValue d))

/-- Whether a code unit is the first of a surrogate pair. -/
def isLeading (n : Nat) : Bool := 0xD800 ≤ n && n < 0xDC00

/-- Whether a code unit is the second of a surrogate pair. -/
def isTrailing (n : Nat) : Bool := 0xDC00 ≤ n && n < 0xE000

/-- The character of a surrogate pair. -/
def pairedChar (leading trailing : Nat) : Char :=
  Char.ofNat (0x10000 + (leading - 0xD800) * 0x400 + (trailing - 0xDC00))

/-- The character that a backslash and a letter stand for. -/
def simpleEscape : Char → Option Char
  | '"' => some '"'
  | '\\' => some '\\'
  | '/' => some '/'
  | 'b' => some '\x08'
  | 'f' => some '\x0c'
  | 'n' => some '\n'
  | 'r' => some '\r'
  | 't' => some '\t'
  | _ => none

/-- The content of a string.  Control characters must be escaped, and surrogates must come in
pairs: `leading` is the first of a pair, of which the second must follow. -/
def unescape (leading : Option Nat) : List Char → Option (List Char)
  | '\\' :: 'u' :: a :: b :: c :: d :: rest => do
    let n ← hexQuad a b c d
    match leading with
    | some m => if isTrailing n then return pairedChar m n :: (← unescape none rest) else none
    | none =>
      if isLeading n then unescape (some n) rest
      else if isTrailing n then none
      else return Char.ofNat n :: (← unescape none rest)
  | text =>
    match leading, text with
    | some _, _ => none
    | none, [] => some []
    | none, ['\\'] => none
    | none, '\\' :: c :: rest => do return (← simpleEscape c) :: (← unescape none rest)
    | none, c :: rest => do if c.toNat < 0x20 then none else return c :: (← unescape none rest)

/-! ### Tokens -/

/-- What a lexeme stands for. -/
inductive Token where
  | openArray
  | closeArray
  | openObject
  | closeObject
  | colon
  | comma
  | null
  | bool (b : Bool)
  | number (n : Number)
  | string (s : String)

namespace Token

/-- The token of a mark. -/
def ofMark : Char → Option Token
  | '[' => some .openArray
  | ']' => some .closeArray
  | '\x7b' => some .openObject
  | '\x7d' => some .closeObject
  | ':' => some .colon
  | ',' => some .comma
  | _ => none

/-- The token of a word: one of three names, or a number. -/
def ofWord : List Char → Option Token
  | ['n', 'u', 'l', 'l'] => some .null
  | ['t', 'r', 'u', 'e'] => some (.bool true)
  | ['f', 'a', 'l', 's', 'e'] => some (.bool false)
  | text => do return .number (← (← NumberText.parse text).toNumber)

/-- The token of a lexeme, if the lexeme stands for one. -/
def ofLexeme : Lexeme → Option Token
  | .mark c => ofMark c
  | .string raw => (unescape none raw).map fun text => .string (String.ofList text)
  | .word text => ofWord text

end Token

end UpdateSql.Json
