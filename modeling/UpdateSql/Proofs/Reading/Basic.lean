/-
**Reading texts piece by piece.**

A reader takes a piece off the front of a text and gives what the piece stands for and the text
after it.  The readers here are the ones of which readers of literals and of statements are made:
runs of characters, items with commas between them, and such items between brackets.  For each it is
shown that it gives back what was written, whatever follows, as long as the text that follows starts
with a character that ends the piece.

Main definitions:

* `Reading.Delimited` — the texts that end a piece;
* `Reading.separated`, `Reading.bracketed` — readers of lists, from a reader of items.

Main results:

* `Reading.takeWhile_append_of_stops`, `Reading.dropWhile_append_of_stops` — a run of characters is
  cut where it ends;
* `Reading.separated_commaSeparated`, `Reading.bracketed_commaSeparated` — **a list is read back
  item by item**.
-/

import UpdateSql.Value.Literal

set_option relaxedAutoImplicit false
set_option autoImplicit false

namespace UpdateSql.Reading

universe u v

/-! ### Runs of characters -/

/-- A text that a run of characters cannot go on into: it is empty or starts with another one. -/
def Stops (p : Char → Bool) (rest : List Char) : Prop := ∀ c ∈ rest.head?, p c = false

theorem takeWhile_append_of_stops {p : Char → Bool} {run rest : List Char}
    (hrun : ∀ c ∈ run, p c = true) (hrest : Stops p rest) : (run ++ rest).takeWhile p = run := by
  rw [List.takeWhile_append_of_pos hrun]
  cases rest with
  | nil => simp
  | cons c rest => simp [hrest c rfl]

theorem dropWhile_append_of_stops {p : Char → Bool} {run rest : List Char}
    (hrun : ∀ c ∈ run, p c = true) (hrest : Stops p rest) : (run ++ rest).dropWhile p = rest := by
  rw [List.dropWhile_append_of_pos hrun]
  cases rest with
  | nil => rfl
  | cons c rest => simp [hrest c rfl]

theorem isPrefixOf?_cons_cons (c d : Char) (word text : List Char) :
    (c :: word).isPrefixOf? (d :: text) = if c == d then word.isPrefixOf? text else none := rfl

theorem isPrefixOf?_append (word rest : List Char) :
    word.isPrefixOf? (word ++ rest) = some rest := by
  induction word with
  | nil => rfl
  | cons c word ih => simp [isPrefixOf?_cons_cons, ih]

/-! ### What follows a piece -/

/-- Whether a character ends a piece of a statement. -/
def isDelimiter (c : Char) : Bool := c == ',' || c == ')' || c == ']' || c == ' '

/-- A text that ends the piece before it: it is empty or starts with a delimiter. -/
def Delimited (rest : List Char) : Prop := ∀ c ∈ rest.head?, isDelimiter c = true

theorem delimited_nil : Delimited [] := by
  intro c hc
  cases hc

theorem delimited_cons {c : Char} (h : isDelimiter c = true) (rest : List Char) :
    Delimited (c :: rest) := by
  intro d hd
  cases hd
  exact h

/-- A run without delimiters cannot go on into a delimited text. -/
theorem Delimited.stops {rest : List Char} (h : Delimited rest) {p : Char → Bool}
    (hp : ∀ c, isDelimiter c = true → p c = false) : Stops p rest :=
  fun c hc => hp c (h c hc)

/-! ### Texts with commas between them -/

theorem commaSeparated_singleton (item : List Char) : commaSeparated [item] = item :=
  List.intercalate_singleton

theorem commaSeparated_cons_cons (item next : List Char) (items : List (List Char)) :
    commaSeparated (item :: next :: items)
      = item ++ ([',', ' '] ++ commaSeparated (next :: items)) := by
  rw [commaSeparated, List.intercalate_cons_cons, List.append_assoc, commaSeparated]

theorem length_le_length_commaSeparated (items : List (List Char)) :
    items.length ≤ (commaSeparated items).length + 1 := by
  induction items with
  | nil => exact Nat.zero_le _
  | cons item items ih =>
      cases items with
      | nil => simp
      | cons next items =>
          rw [commaSeparated_cons_cons]
          simp only [List.length_cons, List.length_append] at ih ⊢
          omega

/-- There are not more commas in a text than it is long. -/
theorem length_lt_length_commaSeparated {β : Type v} (bs : List β) (write : β → List Char)
    (rest : List Char) : bs.length - 1 < (commaSeparated (bs.map write) ++ rest).length + 1 := by
  have hle := length_le_length_commaSeparated (bs.map write)
  rw [List.length_map] at hle
  rw [List.length_append]
  omega

theorem length_le_of_mem_commaSeparated {items : List (List Char)} {item : List Char}
    (h : item ∈ items) : item.length ≤ (commaSeparated items).length := by
  induction items with
  | nil => cases h
  | cons first items ih =>
      cases items with
      | nil =>
          obtain rfl : item = first := by simpa using h
          have hone := congrArg List.length (commaSeparated_singleton item)
          omega
      | cons next items =>
          rw [commaSeparated_cons_cons, List.length_append, List.length_append]
          rcases List.mem_cons.1 h with rfl | h
          · omega
          · have hle := ih h
            omega

/-! ### Reading lists -/

section

variable {α : Type u}

/-- Reads items with a comma and a space between them, as many as there are. -/
def separated (read : List Char → Option (α × List Char)) :
    Nat → List Char → Option (List α × List Char)
  | 0, _ => none
  | n + 1, text =>
    match read text with
    | none => none
    | some (a, rest) =>
      match [',', ' '].isPrefixOf? rest with
      | none => some ([a], rest)
      | some more => (separated read n more).map fun (as, rest) => (a :: as, rest)

/-- Reads items with a comma and a space between them, up to a closing bracket. -/
def bracketed (close : Char) (read : List Char → Option (α × List Char)) (text : List Char) :
    Option (List α × List Char) :=
  if text.head? = some close then some ([], text.tail)
  else
    match separated read (text.length + 1) text with
    | none => none
    | some (as, rest) => if rest.head? = some close then some (as, rest.tail) else none

variable {β : Type v} {read : List Char → Option (α × List Char)} {write : β → List Char}
  {mean : β → α}

/-- **Items are read back one by one**, if no comma follows the last.  What may follow an item for
it to be read is left open, but a comma may. -/
theorem separated_commaSeparated {follows : List Char → Prop} {b : β} {bs : List β}
    (h : ∀ c ∈ b :: bs, ∀ rest, follows rest → read (write c ++ rest) = some (mean c, rest))
    (hsep : ∀ more, follows ([',', ' '] ++ more)) {rest : List Char} (hrest : follows rest)
    (hcomma : rest.head? ≠ some ',') {n : Nat} (hn : bs.length < n) :
    separated read n (commaSeparated ((b :: bs).map write) ++ rest)
      = some ((b :: bs).map mean, rest) := by
  induction bs generalizing b n with
  | nil =>
      obtain ⟨n, rfl⟩ : ∃ m, n = m + 1 := Nat.exists_eq_succ_of_ne_zero (Nat.ne_zero_of_lt hn)
      have hread : read (write b ++ rest) = some (mean b, rest) := h b (by simp) rest hrest
      have hend : [',', ' '].isPrefixOf? rest = none := by
        cases rest with
        | nil => rfl
        | cons c rest =>
            have hc : ',' ≠ c := fun h' => hcomma (by rw [h']; rfl)
            simp [isPrefixOf?_cons_cons, hc]
      rw [List.map_singleton, commaSeparated_singleton, separated, hread]
      simp [hend]
  | cons next bs ih =>
      -- the first item is read up to the comma, the others are left to the induction
      obtain ⟨n, rfl⟩ : ∃ m, n = m + 1 := Nat.exists_eq_succ_of_ne_zero (Nat.ne_zero_of_lt hn)
      have hread := h b (by simp)
        ([',', ' '] ++ (commaSeparated ((next :: bs).map write) ++ rest)) (hsep _)
      have htail : separated read n (commaSeparated ((next :: bs).map write) ++ rest)
          = some ((next :: bs).map mean, rest) :=
        ih (fun c hc => h c (List.mem_cons_of_mem b hc)) (Nat.lt_of_succ_lt_succ hn)
      rw [List.map_cons, List.map_cons, commaSeparated_cons_cons, ← List.map_cons,
        List.append_assoc, List.append_assoc, separated, hread]
      simp only [isPrefixOf?_append, htail]
      rfl

/-- **Items between brackets are read back one by one**, if none can be taken for the bracket. -/
theorem bracketed_commaSeparated {close : Char} {bs : List β}
    (h : ∀ c ∈ bs, ∀ rest, Delimited rest → read (write c ++ rest) = some (mean c, rest))
    (hhead : ∀ c ∈ bs, ∀ rest, (write c ++ rest).head? ≠ some close)
    (hclose : isDelimiter close = true) (hcomma : close ≠ ',') (rest : List Char) :
    bracketed close read (commaSeparated (bs.map write) ++ (close :: rest))
      = some (bs.map mean, rest) := by
  cases bs with
  | nil => simp [bracketed, commaSeparated]
  | cons b bs =>
      have hnot : (commaSeparated ((b :: bs).map write) ++ (close :: rest)).head?
          ≠ some close := by
        cases bs with
        | nil =>
            rw [List.map_singleton, commaSeparated_singleton]
            exact hhead b (by simp) _
        | cons next bs =>
            rw [List.map_cons, List.map_cons, commaSeparated_cons_cons, List.append_assoc]
            exact hhead b (by simp) _
      have hitems := separated_commaSeparated h (fun _ => delimited_cons rfl _)
        (delimited_cons hclose rest) (by simpa using hcomma)
        (length_lt_length_commaSeparated (b :: bs) write (close :: rest))
      rw [bracketed, if_neg hnot, hitems]
      simp

end

end UpdateSql.Reading
