/-
**Cuts between characters.**

A text that is too long is cut so that its beginning fits into a number of bytes.  The place of the
cut can be found from either side.  From the left one takes characters as long as they fit.  From
the right one starts at the byte with the number of the limit, and goes back byte by byte until a
character starts there.  Here the two are shown to agree, so the cut never falls into a character,
and what is kept is the longest beginning that fits.

Main definitions:

* `Truncate.bytes` — the bytes of a text;
* `Truncate.isBoundary` — a text can be cut before a byte;
* `Truncate.lastBoundary` — the place of the cut, searched from the right.

Main results:

* `Truncate.isBoundary_iff` — a text can be cut exactly where a beginning of it ends;
* `Truncate.isPrefix_take` — what is kept is the longest beginning that fits;
* `Truncate.lastBoundary_eq` — **the search from the right ends where the text is cut**;
* `Truncate.shorten_cuts_at_boundary` — **what becomes of a text under a limit**.
-/

import UpdateSql.Text.Truncate

set_option relaxedAutoImplicit false
set_option autoImplicit false

namespace UpdateSql.Truncate

/-! ### Bytes -/

/-- The bytes of a text in UTF-8. -/
def bytes (text : List Char) : List UInt8 := text.flatMap String.utf8EncodeChar

/-- Whether a text can be cut before the byte at a place: a character starts there, or the text
ends. -/
def isBoundary (text : List Char) (place : Nat) : Bool :=
  match (bytes text)[place]? with
  | some b => b.IsUTF8FirstByte
  | none => place == (bytes text).length

/-- The last place up to the given one where a text can be cut, searched byte by byte from the
right; the search goes on as long as there is a byte to the left. -/
def lastBoundary (text : List Char) : Nat → Nat
  | 0 => 0
  | place + 1 => if isBoundary text (place + 1) then place + 1 else lastBoundary text place

theorem bytes_append (a b : List Char) : bytes (a ++ b) = bytes a ++ bytes b :=
  List.flatMap_append

theorem bytes_cons (c : Char) (rest : List Char) :
    bytes (c :: rest) = String.utf8EncodeChar c ++ bytes rest :=
  List.flatMap_cons

theorem length_bytes (text : List Char) : (bytes text).length = byteLength text := by
  induction text with
  | nil => rfl
  | cons c rest ih =>
      rw [bytes_cons, List.length_append, String.length_utf8EncodeChar, ih, byteLength_cons]

/-! ### Places between characters -/

/-- Inside the first character of a text there is no place to cut it, apart from the start. -/
theorem isBoundary_cons_of_lt {c : Char} {rest : List Char} {place : Nat}
    (h : place < c.utf8Size) : isBoundary (c :: rest) place = true ↔ place = 0 := by
  have hlen : place < (String.utf8EncodeChar c).length := by rwa [String.length_utf8EncodeChar]
  rw [isBoundary, bytes_cons, List.getElem?_append_left hlen, List.getElem?_eq_getElem hlen]
  exact decide_eq_true_iff.trans UInt8.isUTF8FirstByte_getElem_utf8EncodeChar

/-- After its first character a text is cut like what follows. -/
theorem isBoundary_cons_add (c : Char) (rest : List Char) (place : Nat) :
    isBoundary (c :: rest) (c.utf8Size + place) = isBoundary rest place := by
  have hlen : (String.utf8EncodeChar c).length = c.utf8Size := String.length_utf8EncodeChar c
  have hbyte : (bytes (c :: rest))[c.utf8Size + place]? = (bytes rest)[place]? := by
    rw [bytes_cons, List.getElem?_append_right (by omega), hlen, Nat.add_sub_cancel_left]
  rw [isBoundary, isBoundary, hbyte]
  cases (bytes rest)[place]? with
  | some b => rfl
  | none =>
      rw [bytes_cons, List.length_append, hlen]
      exact Bool.eq_iff_iff.2 (by simp)

/-- **A text can be cut exactly where a beginning of it ends.** -/
theorem isBoundary_iff {text : List Char} {place : Nat} :
    isBoundary text place = true ↔ ∃ p, p <+: text ∧ byteLength p = place := by
  induction text generalizing place with
  | nil =>
      constructor
      · intro h
        exact ⟨[], List.prefix_rfl, (beq_iff_eq.1 h).symm⟩
      · rintro ⟨p, hp, rfl⟩
        rw [List.prefix_nil.1 hp]
        rfl
  | cons c rest ih =>
      rcases Nat.lt_or_ge place c.utf8Size with hlt | hle
      · rw [isBoundary_cons_of_lt hlt]
        constructor
        · rintro rfl
          exact ⟨[], List.nil_prefix, rfl⟩
        · rintro ⟨p, hp, hlen⟩
          cases p with
          | nil => exact hlen.symm
          | cons d p =>
              -- the first character alone is longer
              rw [(List.cons_prefix_cons.1 hp).1, byteLength_cons] at hlen
              omega
      · obtain ⟨after, rfl⟩ := Nat.exists_eq_add_of_le hle
        rw [isBoundary_cons_add, ih]
        constructor
        · rintro ⟨p, hp, rfl⟩
          exact ⟨c :: p, List.cons_prefix_cons.2 ⟨rfl, hp⟩, byteLength_cons c p⟩
        · rintro ⟨p, hp, hlen⟩
          cases p with
          | nil =>
              have hpos := c.utf8Size_pos
              rw [byteLength_nil] at hlen
              omega
          | cons d p =>
              obtain ⟨rfl, hprefix⟩ := List.cons_prefix_cons.1 hp
              rw [byteLength_cons] at hlen
              exact ⟨p, hprefix, Nat.add_left_cancel hlen⟩

/-! ### The longest beginning -/

theorem take_isPrefix (max : Nat) (text : List Char) : take max text <+: text :=
  ⟨_, take_append_drop max text⟩

theorem byteLength_le_of_isPrefix {p text : List Char} (h : p <+: text) :
    byteLength p ≤ byteLength text := by
  obtain ⟨rest, rfl⟩ := h
  rw [byteLength_append]
  exact Nat.le_add_right _ _

/-- **What is kept is the longest beginning that fits.** -/
theorem isPrefix_take {max : Nat} {p text : List Char} (hp : p <+: text)
    (hfits : byteLength p ≤ max) : p <+: take max text := by
  induction p generalizing max text with
  | nil => exact List.nil_prefix
  | cons c p ih =>
      obtain ⟨rest, rfl⟩ := hp
      rw [byteLength_cons] at hfits
      rw [List.cons_append, take, if_pos (by omega)]
      exact List.cons_prefix_cons.2 ⟨rfl, ih ⟨rest, rfl⟩ (by omega)⟩

/-- A larger limit keeps at least as much. -/
theorem take_isPrefix_take {max max' : Nat} (h : max ≤ max') (text : List Char) :
    take max text <+: take max' text :=
  isPrefix_take (take_isPrefix max text) (Nat.le_trans (byteLength_take_le max text) h)

/-- Of a text that is cut so much is kept that no character of any size could be added. -/
theorem lt_byteLength_take {max : Nat} {text : List Char} (h : max < byteLength text) :
    max < byteLength (take max text) + 4 := by
  induction text generalizing max with
  | nil => exact absurd h (Nat.not_lt_zero max)
  | cons c rest ih =>
      rw [byteLength_cons] at h
      rw [take]
      split
      · next hle =>
          have hrest : max - c.utf8Size < byteLength (take (max - c.utf8Size) rest) + 4 :=
            ih (by omega)
          rw [byteLength_cons]
          omega
      · next hgt =>
          have hsize := c.utf8Size_le_four
          rw [byteLength_nil]
          omega

/-! ### The search from the right -/

/-- **The search from the right ends where the text is cut.** -/
theorem lastBoundary_eq (max : Nat) (text : List Char) :
    lastBoundary text max = byteLength (take max text) := by
  induction max with
  | zero => exact (Nat.le_zero.1 (byteLength_take_le 0 text)).symm
  | succ max ih =>
      rw [lastBoundary]
      have hfits := byteLength_take_le (max + 1) text
      split
      · next h =>
          obtain ⟨p, hp, hlen⟩ := isBoundary_iff.1 h
          have hle := byteLength_le_of_isPrefix (isPrefix_take hp (Nat.le_of_eq hlen))
          omega
      · next h =>
          -- what is kept ends at another place, so one byte less is limit enough
          have hne : byteLength (take (max + 1) text) ≠ max + 1 :=
            fun heq => h (isBoundary_iff.2 ⟨_, take_isPrefix _ text, heq⟩)
          have hless : byteLength (take (max + 1) text) ≤ max := by omega
          have hback := byteLength_le_of_isPrefix
            (isPrefix_take (take_isPrefix (max + 1) text) hless)
          have hmono := byteLength_le_of_isPrefix (take_isPrefix_take (Nat.le_add_right max 1) text)
          omega

/-- The bytes of what is kept are those before the place that the search finds. -/
theorem bytes_take (max : Nat) (text : List Char) :
    bytes (take max text) = (bytes text).take (lastBoundary text max) := by
  have hsplit := bytes_append (take max text) (text.drop (take max text).length)
  rw [take_append_drop] at hsplit
  rw [hsplit, lastBoundary_eq, ← length_bytes, List.take_left]

/-! ### Limits -/

/-- **What becomes of a text under a limit.**  Without a limit, and within it, the text stays as it
is.  A longer one is cut, and the longest beginning that fits is kept: no other beginning that fits
is longer, and less than four bytes of the limit are given away.  Its bytes are those before the
place where the search from the right ends; the text can be cut there, which is not so at any later
place up to the limit, so that no character is torn.  A larger limit keeps at least as much. -/
theorem shorten_cuts_at_boundary :
    (∀ text : List Char, shorten none text = text) ∧
    (∀ (max : Nat) (text : List Char), byteLength text ≤ max → shorten (some max) text = text) ∧
    (∀ (max : Nat) (text : List Char), max < byteLength text → ∃ p : List Char,
      shorten (some max) text = p ++ ellipsis ∧
      (p <+: text ∧ byteLength p ≤ max ∧
        ∀ p' : List Char, p' <+: text → byteLength p' ≤ max → p' <+: p) ∧
      max < byteLength p + 4 ∧
      bytes p = (bytes text).take (lastBoundary text max) ∧
      isBoundary text (lastBoundary text max) = true ∧ lastBoundary text max ≤ max ∧
      ∀ place, lastBoundary text max < place → place ≤ max → isBoundary text place = false) ∧
    ∀ (max max' : Nat) (text p p' : List Char), max ≤ max' → max' < byteLength text →
      shorten (some max) text = p ++ ellipsis → shorten (some max') text = p' ++ ellipsis →
      p <+: p' := by
  have hcut : ∀ {max : Nat} {text : List Char}, max < byteLength text →
      shorten (some max) text = take max text ++ ellipsis := fun h => if_neg (Nat.not_le.2 h)
  refine ⟨fun _ => rfl, fun _ _ h => if_pos h, fun max text h => ?_, ?_⟩
  · refine ⟨take max text, hcut h, ⟨take_isPrefix max text, byteLength_take_le max text,
      fun _ => isPrefix_take⟩, lt_byteLength_take h, bytes_take max text, ?_⟩
    rw [lastBoundary_eq]
    refine ⟨isBoundary_iff.2 ⟨_, take_isPrefix max text, rfl⟩, byteLength_take_le max text,
      fun place hlater hplace => ?_⟩
    rw [← Bool.not_eq_true, isBoundary_iff]
    rintro ⟨p, hp, rfl⟩
    exact Nat.not_le.2 hlater (byteLength_le_of_isPrefix (isPrefix_take hp hplace))
  · intro max max' text p p' hle h' hp hp'
    rw [hcut (Nat.lt_of_le_of_lt hle h')] at hp
    rw [hcut h'] at hp'
    rw [← List.append_cancel_right hp, ← List.append_cancel_right hp']
    exact take_isPrefix_take hle text

/-- A limit inside a character of three bytes, which goes as a whole, and the limit that leaves
nothing. -/
theorem shorten_inside_character :
    (∃ p, shorten (some 3) ['a', '€', 'b'] = p ++ ellipsis ∧
      bytes p = (bytes ['a', '€', 'b']).take 1) ∧
      isBoundary ['a', '€', 'b'] 2 = false ∧ isBoundary ['a', '€', 'b'] 3 = false ∧
      ∃ p, shorten (some 0) ['€'] = p ++ ellipsis ∧ byteLength p ≤ 0 := by
  obtain ⟨-, -, hcut, -⟩ := shorten_cuts_at_boundary
  have hlast : lastBoundary ['a', '€', 'b'] 3 = 1 := by decide
  obtain ⟨p, hp, -, -, hbytes, -, -, hnone⟩ := hcut 3 ['a', '€', 'b'] (by decide)
  obtain ⟨p₀, hp₀, ⟨-, hfits₀, -⟩, -⟩ := hcut 0 ['€'] (by decide)
  rw [hlast] at hbytes hnone
  exact ⟨⟨p, hp, hbytes⟩, hnone 2 (by decide) (by decide), hnone 3 (by decide) (by decide),
    p₀, hp₀, hfits₀⟩

end UpdateSql.Truncate
