/-
**Cutting a text to a number of bytes.**

The length of a text is counted in the bytes of its UTF-8 form, and a text is only ever cut between
two characters.

Main definitions:

* `Truncate.byteLength` — the number of bytes of a text;
* `Truncate.take` — the longest beginning of a text within a number of bytes;
* `Truncate.shorten` — a text as it is, or its longest beginning within a limit and three dots.
-/

set_option relaxedAutoImplicit false
set_option autoImplicit false

namespace UpdateSql.Truncate

/-- The number of bytes of a text in UTF-8. -/
def byteLength : List Char → Nat
  | [] => 0
  | c :: rest => c.utf8Size + byteLength rest

/-- The longest beginning of a text that fits into `max` bytes. -/
def take (max : Nat) : List Char → List Char
  | [] => []
  | c :: rest => if c.utf8Size ≤ max then c :: take (max - c.utf8Size) rest else []

/-- Marks the place of a cut. -/
def ellipsis : List Char := ['.', '.', '.']

/-- A text within the limit as it is, a longer one cut and marked. -/
def shorten (limit : Option Nat) (text : List Char) : List Char :=
  match limit with
  | none => text
  | some max => if byteLength text ≤ max then text else take max text ++ ellipsis

/-! ### Length -/

@[simp] theorem byteLength_nil : byteLength [] = 0 := rfl

@[simp] theorem byteLength_cons (c : Char) (rest : List Char) :
    byteLength (c :: rest) = c.utf8Size + byteLength rest := rfl

@[simp] theorem byteLength_append (a b : List Char) :
    byteLength (a ++ b) = byteLength a + byteLength b := by
  induction a with
  | nil => simp
  | cons c a ih => simp [ih, Nat.add_assoc]

/-- The bytes of a string are those of its characters. -/
theorem byteLength_toList (s : String) : byteLength s.toList = s.utf8ByteSize := by
  suffices h : ∀ l : List Char, byteLength l = (String.ofList l).utf8ByteSize by
    rw [h, String.ofList_toList]
  intro l
  induction l with
  | nil => simp
  | cons c l ih =>
      have hsplit : String.ofList (c :: l) = String.singleton c ++ String.ofList l := by
        rw [String.singleton_eq_ofList, ← String.ofList_append, List.singleton_append]
      rw [byteLength_cons, ih, hsplit, String.utf8ByteSize_append, String.utf8ByteSize_singleton]

/-! ### What is kept -/

/-- What is kept fits. -/
theorem byteLength_take_le (max : Nat) (text : List Char) : byteLength (take max text) ≤ max := by
  induction text generalizing max with
  | nil => simp [take]
  | cons c rest ih =>
      rw [take]
      split
      · next h =>
          have := ih (max - c.utf8Size)
          rw [byteLength_cons]
          omega
      · simp

/-- What is kept is a beginning of the text. -/
theorem take_append_drop (max : Nat) (text : List Char) :
    take max text ++ text.drop (take max text).length = text := by
  induction text generalizing max with
  | nil => simp [take]
  | cons c rest ih =>
      rw [take]
      split
      · simp [ih]
      · simp

/-- A text that fits is kept whole. -/
theorem take_of_byteLength_le {max : Nat} {text : List Char} (h : byteLength text ≤ max) :
    take max text = text := by
  induction text generalizing max with
  | nil => rfl
  | cons c rest ih =>
      rw [byteLength_cons] at h
      rw [take, if_pos (by omega), ih (by omega)]

end UpdateSql.Truncate
