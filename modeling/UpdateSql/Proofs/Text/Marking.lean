/-
**Backslashes put into a text.**

The two ways of writing a literal differ in the backslashes that the second puts in.  That one text
is another one with so many backslashes put in is a relation that goes through everything that texts
are made with: what is put in adds up, and where a text is written the same in both ways nothing is
put in.

Main definitions:

* `Quoted.Marked` — a text is another one with a number of backslashes put in;
* `Quoted.MarkedAll` — the same for each of some texts, with the number for all of them;
* `Quoted.marks` — how many characters of a text need a backslash;
* `Quoted.MarkedResults` — the same of texts that may fail to be written.

Main results:

* `Quoted.Marked.sublist`, `Quoted.Marked.length_eq`, `Quoted.Marked.eq_iff` — **what the relation
  says of the two texts**;
* `Quoted.marked_encode` — **a literal has a backslash put in for each quote and each backslash**;
* `Quoted.parallel_mapM` — along a list the backslashes add up.
-/

import Mathlib.Data.List.Basic
import UpdateSql.Proofs.Outcome
import UpdateSql.Proofs.Reading.Basic
import UpdateSql.Text.Truncate

set_option relaxedAutoImplicit false
set_option autoImplicit false

namespace UpdateSql.Quoted

open Outcome (Parallel)
open Truncate (byteLength byteLength_cons)

/-! ### Texts with backslashes put in -/

/-- A text is another one with a number of backslashes put in. -/
inductive Marked : Nat → List Char → List Char → Prop
  | nil : Marked 0 [] []
  | cons (c : Char) {n : Nat} {a b : List Char} (h : Marked n a b) : Marked n (c :: a) (c :: b)
  | mark {n : Nat} {a b : List Char} (h : Marked n a b) : Marked (n + 1) a (escapeMark :: b)

namespace Marked

variable {m n : Nat} {a b a' b' : List Char}

theorem refl (a : List Char) : Marked 0 a a := by
  induction a with
  | nil => exact nil
  | cons c a ih => exact cons c ih

/-- What is put into two texts adds up. -/
theorem append (h : Marked m a b) (h' : Marked n a' b') : Marked (m + n) (a ++ a') (b ++ b') := by
  induction h with
  | nil =>
      rw [Nat.zero_add]
      exact h'
  | cons c _ ih => exact cons c ih
  | @mark m a b _ ih =>
      rw [Nat.succ_add]
      exact mark ih

/-- Nothing is put into what stands before in both. -/
theorem prepend (before : List Char) (h : Marked n a b) : Marked n (before ++ a) (before ++ b) := by
  have happend := (refl before).append h
  rwa [Nat.zero_add] at happend

/-- Nothing is put into a character that stands after in both. -/
theorem snoc (h : Marked n a b) (c : Char) : Marked n (a ++ [c]) (b ++ [c]) :=
  h.append (refl [c])

theorem sublist (h : Marked n a b) : a.Sublist b := by
  induction h with
  | nil => exact .refl []
  | cons c _ ih => exact ih.cons_cons c
  | mark _ ih => exact ih.cons escapeMark

theorem length_eq (h : Marked n a b) : b.length = a.length + n := by
  induction h with
  | nil => rfl
  | cons c _ ih => rw [List.length_cons, List.length_cons, ih, Nat.succ_add]
  | mark _ ih => rw [List.length_cons, ih, Nat.add_assoc]

/-- A backslash is a single byte. -/
theorem byteLength_eq (h : Marked n a b) : byteLength b = byteLength a + n := by
  induction h with
  | nil => rfl
  | cons c _ ih => rw [byteLength_cons, byteLength_cons, ih, Nat.add_assoc]
  | mark _ ih =>
      have hmark : escapeMark.utf8Size = 1 := by decide
      rw [byteLength_cons, ih, hmark]
      omega

/-- The texts are equal exactly if nothing was put in. -/
theorem eq_iff (h : Marked n a b) : a = b ↔ n = 0 := by
  constructor
  · rintro rfl
    have hlength := h.length_eq
    omega
  · rintro rfl
    exact h.sublist.eq_of_length h.length_eq.symm

end Marked

/-! ### What needs a backslash -/

/-- The number of characters of a text that need a backslash. -/
def marks (text : List Char) : Nat := text.countP needsEscape

theorem marks_append (a b : List Char) : marks (a ++ b) = marks a + marks b := List.countP_append

theorem marks_eq_count (text : List Char) : marks text = text.count '\'' + text.count '\\' := by
  induction text with
  | nil => rfl
  | cons c text ih =>
      -- a character is not both
      have hone : (if needsEscape c then 1 else 0)
          = (if c == '\'' then 1 else 0) + if c == '\\' then 1 else 0 := by
        by_cases hq : c = '\''
        · subst hq
          decide
        · simp [needsEscape, quote, escapeMark, hq]
      rw [marks, List.countP_cons, ← marks, ih, List.count_cons, List.count_cons]
      omega

theorem marks_eq_zero_iff {text : List Char} : marks text = 0 ↔ '\'' ∉ text ∧ '\\' ∉ text := by
  rw [marks_eq_count, Nat.add_eq_zero_iff, List.count_eq_zero, List.count_eq_zero]

theorem marked_escape (text : List Char) : Marked (marks text) text (escape text) := by
  induction text with
  | nil => exact .nil
  | cons c text ih =>
      rw [marks, List.countP_cons, escape_cons]
      split
      · exact .mark (.cons c ih)
      · exact .cons c ih

/-- **A literal has a backslash put in for each quote and each backslash.** -/
theorem marked_encode (text : List Char) :
    Marked (marks text) (encode .verbatim text) (encode .backslash text) :=
  .cons quote ((marked_escape text).snoc quote)

/-! ### Lists of texts -/

/-- Texts are other ones with backslashes put in, so many in all. -/
inductive MarkedAll : Nat → List (List Char) → List (List Char) → Prop
  | nil : MarkedAll 0 [] []
  | cons {m n : Nat} {a b : List Char} {as bs : List (List Char)} (h : Marked m a b)
      (hs : MarkedAll n as bs) : MarkedAll (m + n) (a :: as) (b :: bs)

namespace MarkedAll

variable {n : Nat} {as bs : List (List Char)}

theorem flatten (h : MarkedAll n as bs) : Marked n as.flatten bs.flatten := by
  induction h with
  | nil => exact .nil
  | cons h _ ih => exact h.append ih

theorem commaSeparated (h : MarkedAll n as bs) :
    Marked n (commaSeparated as) (commaSeparated bs) := by
  induction h with
  | nil => exact .nil
  | cons h hs ih =>
      cases hs with
      | nil =>
          rw [Reading.commaSeparated_singleton, Reading.commaSeparated_singleton]
          exact h
      | cons _ _ =>
          rw [Reading.commaSeparated_cons_cons, Reading.commaSeparated_cons_cons]
          exact h.append (ih.prepend [',', ' '])

end MarkedAll

/-! ### Texts that may fail to be written -/

/-- Two computations of texts end with the same fault, or one text is the other with a backslash put
in for each of some characters that needs one. -/
def MarkedResults (chars : List Char) (x y : Except Error (List Char)) : Prop :=
  Parallel (Marked (marks chars)) x y

theorem MarkedResults.refl (x : Except Error (List Char)) : MarkedResults [] x x := by
  cases x with
  | error e => exact .error e
  | ok a => exact .ok (.refl a)

/-- Along a list the backslashes add up. -/
theorem parallel_mapM {γ : Type} {f g : γ → Except Error (List Char)} {chars : γ → List Char}
    {l : List γ} (h : ∀ c ∈ l, MarkedResults (chars c) (f c) (g c)) :
    Parallel (MarkedAll (marks (l.flatMap chars))) (l.mapM f) (l.mapM g) := by
  induction l with
  | nil => exact .ok .nil
  | cons c l ih =>
      have hhead := h c List.mem_cons_self
      have htail := ih fun d hd => h d (List.mem_cons_of_mem c hd)
      rw [List.mapM_cons, List.mapM_cons, List.flatMap_cons, marks_append]
      exact hhead.bind fun a b hab => htail.bind fun as bs habs => .ok (.cons hab habs)

end UpdateSql.Quoted
