/-
**The texts of record ids.**

A record id may be spelled in many ways: with or without the mark at its front, and each of its two
numbers with or without a plus sign and with any number of leading zeros.  A spelling is data, so
that the grammar of record ids is the set of the texts of all spellings; the reader takes exactly
those whose numbers are in range, and what it makes of them are these numbers.  The text of a record
id itself is one of these, so it is read back.

Main definitions:

* `Numeral.Spelling`, `RecordId.Spelling` — the ways to write a number and a record id;
* `Numeral.Spelling.value` — the number that is written.

Main results:

* `Numeral.readDigits_eq_ok_iff` — **what digits are read as**, and when;
* `Numeral.read_eq_ok_iff` — **the numerals that are read**, and as what;
* `RecordId.parse_eq_ok_iff` — **the texts that are read**, and as what;
* `RecordId.parse_chars` — a record id is read back from its text;
* `RecordId.reads_exactly_spellings` — the same for strings, with what follows for leading zeros,
  for the numbers on the way and for characters that no spelling has.
-/

import UpdateSql.RecordId.Parser

set_option relaxedAutoImplicit false
set_option autoImplicit false

namespace UpdateSql

/-! ### Numerals -/

namespace Numeral

theorem le_ofDigitChars (digits : List Char) (value : Nat) :
    value ≤ Nat.ofDigitChars 10 digits value := by
  rw [Nat.ofDigitChars_eq_ofDigitChars_zero]
  have hpow : 0 < 10 ^ digits.length := Nat.pow_pos (by decide)
  have hmul : value ≤ 10 ^ digits.length * value := Nat.le_mul_of_pos_left value hpow
  omega

/-- **Digits are read as the number they stand for**, if they are digits and it is in range. -/
theorem readDigits_eq_ok_iff {bound value n : Nat} (hv : value < bound) {text : List Char} :
    readDigits bound value text = .ok n ↔
      (∀ c ∈ text, c.isDigit = true) ∧ Nat.ofDigitChars 10 text value = n ∧ n < bound := by
  induction text generalizing value with
  | nil =>
      simp only [readDigits, Except.ok.injEq, Nat.ofDigitChars_nil]
      constructor
      · rintro rfl
        exact ⟨by simp, rfl, hv⟩
      · rintro ⟨-, h, -⟩
        exact h
  | cons c text ih =>
      have hvalue : 10 * value + (c.toNat - '0'.toNat) = value * 10 + digitValue c := by
        rw [digitValue, Nat.mul_comm]
      rw [readDigits, Nat.ofDigitChars_cons, hvalue, List.forall_mem_cons]
      by_cases hc : c.isDigit = true
      · rw [if_pos hc]
        by_cases hb : value * 10 + digitValue c < bound
        · rw [if_pos hb, ih hb]
          simp [hc]
        · -- the number only grows with further digits
          have hle := le_ofDigitChars text (value * 10 + digitValue c)
          rw [if_neg hb]
          constructor
          · intro h
            cases h
          · rintro ⟨-, hn, hlt⟩
            omega
      · rw [if_neg hc]
        constructor
        · intro h
          cases h
        · rintro ⟨⟨h, -⟩, -⟩
          exact absurd h hc

/-- Without a plus sign all characters must be digits. -/
theorem read_cons_of_ne {bound : Nat} {c : Char} {text : List Char} (hc : c ≠ '+') :
    read bound (c :: text) = readDigits bound 0 (c :: text) := by
  cases text with
  | nil => simp [read, hc]
  | cons d text => simp [read, hc]

/-- A way to write a number: perhaps a plus sign, and then digits, at least one. -/
structure Spelling where
  plus : Bool
  digits : List Char
  ne_nil : digits ≠ []
  isDigit : ∀ c ∈ digits, c.isDigit = true

namespace Spelling

/-- The characters of a spelling. -/
def chars (w : Spelling) : List Char := if w.plus then '+' :: w.digits else w.digits

/-- The number that the digits stand for. -/
def value (w : Spelling) : Nat := Nat.ofDigitChars 10 w.digits 0

/-- The same with zeros in front of the digits. -/
def padded (w : Spelling) (zeros : Nat) : Spelling where
  plus := w.plus
  digits := List.replicate zeros '0' ++ w.digits
  ne_nil := List.append_ne_nil_of_right_ne_nil _ w.ne_nil
  isDigit c hc := by
    rcases List.mem_append.1 hc with hc | hc
    · rw [List.eq_of_mem_replicate hc]
      rfl
    · exact w.isDigit c hc

/-- The digits of a number, as they are printed. -/
def ofNat (n : Nat) : Spelling where
  plus := false
  digits := Nat.toDigits 10 n
  ne_nil := Nat.toDigits_ne_nil
  isDigit _ hc := Nat.isDigit_of_mem_toDigits (by decide) (by decide) hc

@[simp] theorem value_ofNat (n : Nat) : (ofNat n).value = n := Nat.ofDigitChars_ten_toDigits

/-- Leading zeros do not change the number. -/
@[simp] theorem value_padded (w : Spelling) (zeros : Nat) : (w.padded zeros).value = w.value := by
  rw [value, padded, Nat.ofDigitChars_append, Nat.ofDigitChars_replicate_zero, Nat.mul_zero, value]

theorem eq_plus_or_isDigit_of_mem_chars {w : Spelling} {c : Char} (h : c ∈ w.chars) :
    c = '+' ∨ c.isDigit = true := by
  rw [chars] at h
  split at h
  · exact (List.mem_cons.1 h).imp_right (w.isDigit c)
  · exact .inr (w.isDigit c h)

/-- A character that is neither a plus sign nor a digit is in no spelling. -/
theorem not_mem_chars (w : Spelling) {c : Char} (hplus : c ≠ '+') (hdigit : c.isDigit = false) :
    c ∉ w.chars := by
  intro h
  rcases eq_plus_or_isDigit_of_mem_chars h with h | h
  · exact hplus h
  · rw [h] at hdigit
    cases hdigit

end Spelling

/-- Of a spelling the digits are read. -/
theorem read_chars (bound : Nat) (w : Spelling) :
    read bound w.chars = readDigits bound 0 w.digits := by
  obtain ⟨plus, digits, hne, hdigit⟩ := w
  cases digits with
  | nil => exact absurd rfl hne
  | cons c digits =>
      cases plus with
      | true => rfl
      | false =>
          have hc : c ≠ '+' := by
            rintro rfl
            exact absurd (hdigit '+' List.mem_cons_self) (by decide)
          exact read_cons_of_ne hc

/-- A spelling is read as the number that is written, if that is below the bound. -/
theorem read_chars_eq_ok_iff {bound n : Nat} (hb : 0 < bound) {w : Spelling} :
    read bound w.chars = .ok n ↔ w.value = n ∧ n < bound := by
  rw [read_chars, readDigits_eq_ok_iff hb]
  exact and_iff_right w.isDigit

/-- Digits that are read are those of a spelling, with a plus sign or without. -/
theorem exists_spelling_of_readDigits {bound n : Nat} (hb : 0 < bound) (plus : Bool)
    {digits : List Char} (hne : digits ≠ []) (h : readDigits bound 0 digits = .ok n) :
    ∃ w : Spelling, w.plus = plus ∧ w.digits = digits ∧ w.value = n ∧ n < bound := by
  obtain ⟨hdigit, hvalue, hn⟩ := (readDigits_eq_ok_iff hb).1 h
  exact ⟨⟨plus, digits, hne, hdigit⟩, rfl, rfl, hvalue, hn⟩

/-- **The numerals that are read** are the spellings of the numbers below the bound. -/
theorem read_eq_ok_iff {bound n : Nat} (hb : 0 < bound) {text : List Char} :
    read bound text = .ok n ↔ ∃ w : Spelling, w.chars = text ∧ w.value = n ∧ n < bound := by
  constructor
  · intro h
    rcases text with _ | ⟨c, rest⟩
    · cases h
    · by_cases hc : c = '+'
      · subst hc
        cases rest with
        | nil => cases h
        | cons d rest =>
            obtain ⟨w, hplus, hdigits, hw⟩ :=
              exists_spelling_of_readDigits hb true (List.cons_ne_nil d rest) h
            exact ⟨w, by rw [Spelling.chars, hplus, hdigits, if_pos rfl], hw⟩
      · rw [read_cons_of_ne hc] at h
        obtain ⟨w, hplus, hdigits, hw⟩ :=
          exists_spelling_of_readDigits hb false (List.cons_ne_nil c rest) h
        exact ⟨w, by rw [Spelling.chars, hplus, hdigits, if_neg Bool.false_ne_true], hw⟩
  · rintro ⟨w, rfl, hw⟩
    exact (read_chars_eq_ok_iff hb).2 hw

theorem lt_of_read_eq_ok {bound n : Nat} (hb : 0 < bound) {text : List Char}
    (h : read bound text = .ok n) : n < bound := by
  obtain ⟨-, -, -, hn⟩ := (read_eq_ok_iff hb).1 h
  exact hn

/-- If digits are read, so are the first of them, as the number they stand for. -/
theorem readDigits_of_prefix {bound n : Nat} (hb : 0 < bound) {digits first : List Char}
    (h : readDigits bound 0 digits = .ok n) (hfirst : first <+: digits) :
    readDigits bound 0 first = .ok (Nat.ofDigitChars 10 first 0) ∧
      Nat.ofDigitChars 10 first 0 < bound := by
  obtain ⟨after, rfl⟩ := hfirst
  obtain ⟨hdigit, rfl, hn⟩ := (readDigits_eq_ok_iff hb).1 h
  rw [Nat.ofDigitChars_append] at hn
  have hlt : Nat.ofDigitChars 10 first 0 < bound :=
    Nat.lt_of_le_of_lt (le_ofDigitChars after _) hn
  have hfirst : ∀ c ∈ first, c.isDigit = true := fun c hc => hdigit c (List.mem_append_left _ hc)
  exact ⟨(readDigits_eq_ok_iff hb).2 ⟨hfirst, rfl, hlt⟩, hlt⟩

end Numeral

/-! ### Record ids -/

namespace RecordId

/-- Of a text without the mark nothing is left off. -/
theorem body_of_head?_ne {text : List Char} (h : text.head? ≠ some '#') : body text = text := by
  cases text with
  | nil => rfl
  | cons c rest =>
      have hc : c ≠ '#' := fun hc => h (congrArg some hc)
      simp [body, hc]

/-- A way to write a record id: perhaps the mark at the front, and the two numbers. -/
structure Spelling where
  marked : Bool
  cluster : Numeral.Spelling
  position : Numeral.Spelling

namespace Spelling

/-- The characters of a spelling. -/
def chars (w : Spelling) : List Char :=
  (if w.marked then ['#'] else []) ++ (w.cluster.chars ++ ':' :: w.position.chars)

/-- The text of a spelling. -/
def text (w : Spelling) : String := String.ofList w.chars

/-- The same with zeros in front of the digits of the two numbers. -/
def padded (w : Spelling) (zeros zeros' : Nat) : Spelling :=
  ⟨w.marked, w.cluster.padded zeros, w.position.padded zeros'⟩

/-- A record id as it is printed, with the mark or without it. -/
def ofRecordId (marked : Bool) (r : RecordId) : Spelling :=
  ⟨marked, .ofNat r.cluster.toNat, .ofNat r.position.toNat⟩

theorem toList_text (w : Spelling) : w.text.toList = w.chars := String.toList_ofList

theorem colon_not_mem_cluster (w : Spelling) : ':' ∉ w.cluster.chars :=
  w.cluster.not_mem_chars (by decide) rfl

/-- The mark is not read. -/
theorem body_chars (w : Spelling) :
    body w.chars = w.cluster.chars ++ ':' :: w.position.chars := by
  rw [chars]
  cases w.marked with
  | true => rfl
  | false =>
      refine body_of_head?_ne fun h => ?_
      rw [if_neg Bool.false_ne_true, List.nil_append] at h
      -- neither a number nor the colon starts with the mark
      rcases List.mem_append.1 (List.mem_of_head? h) with hmem | hmem
      · exact w.cluster.not_mem_chars (by decide) rfl hmem
      · rcases List.mem_cons.1 hmem with hmem | hmem
        · exact absurd hmem (by decide)
        · exact w.position.not_mem_chars (by decide) rfl hmem

/-! #### Characters -/

/-- There is exactly one colon. -/
theorem count_colon (w : Spelling) : w.chars.count ':' = 1 := by
  have hcluster : w.cluster.chars.count ':' = 0 :=
    List.count_eq_zero_of_not_mem (w.cluster.not_mem_chars (by decide) rfl)
  have hposition : w.position.chars.count ':' = 0 :=
    List.count_eq_zero_of_not_mem (w.position.not_mem_chars (by decide) rfl)
  rw [chars, List.count_append, List.count_append, List.count_cons_self, hcluster, hposition]
  cases w.marked <;> rfl

/-- There is at most one mark. -/
theorem count_mark_le (w : Spelling) : w.chars.count '#' ≤ 1 := by
  have hcluster : w.cluster.chars.count '#' = 0 :=
    List.count_eq_zero_of_not_mem (w.cluster.not_mem_chars (by decide) rfl)
  have hposition : w.position.chars.count '#' = 0 :=
    List.count_eq_zero_of_not_mem (w.position.not_mem_chars (by decide) rfl)
  rw [chars, List.count_append, List.count_append, List.count_cons_of_ne (by decide), hcluster,
    hposition]
  cases w.marked <;> decide

theorem mem_chars_cases {w : Spelling} {c : Char} (h : c ∈ w.chars) :
    c = '#' ∨ c = ':' ∨ c = '+' ∨ c.isDigit = true := by
  rw [chars, List.mem_append, List.mem_append, List.mem_cons] at h
  rcases h with h | h | h | h
  · split at h
    · exact .inl (List.mem_singleton.1 h)
    · cases h
  · exact .inr (.inr (Numeral.Spelling.eq_plus_or_isDigit_of_mem_chars h))
  · exact .inr (.inl h)
  · exact .inr (.inr (Numeral.Spelling.eq_plus_or_isDigit_of_mem_chars h))

/-- All characters are ASCII characters. -/
theorem toNat_lt_of_mem_chars {w : Spelling} {c : Char} (h : c ∈ w.chars) : c.toNat < 128 := by
  rcases mem_chars_cases h with rfl | rfl | rfl | hdigit
  · decide
  · decide
  · decide
  · have hle : c.toNat ≤ '9'.toNat := (Char.isDigit_iff_toNat.1 hdigit).2
    exact Nat.lt_of_le_of_lt hle (by decide)

end Spelling

/-- A text is what is read of it, behind the mark or without one. -/
theorem eq_body_or_eq_cons (text : List Char) : text = body text ∨ text = '#' :: body text := by
  by_cases h : text.head? = some '#'
  · obtain ⟨rest, rfl⟩ := List.head?_eq_some_iff.1 h
    exact .inr rfl
  · exact .inl (body_of_head?_ne h).symm

theorem ne_colon_of_not_mem {text : List Char} (h : ':' ∉ text) :
    ∀ c ∈ text, (c != ':') = true := by
  intro c hc
  rw [bne_iff_ne]
  rintro rfl
  exact h hc

theorem parse_of_not_mem {text : List Char} (h : ':' ∉ body text) :
    parse text = .error .missingColon := by
  have hdrop : (body text).dropWhile (· != ':') = [] := by
    rw [← List.append_nil (body text), List.dropWhile_append_of_pos (ne_colon_of_not_mem h)]
    rfl
  rw [parse, hdrop]

/-- A text is cut at its first colon, and of the two parts the first is read first. -/
theorem parse_of_cut {text before after : List Char}
    (hbody : body text = before ++ ':' :: after) (hbefore : ':' ∉ before) :
    parse text =
      match Numeral.read UInt32.size before with
      | .error fault => .error (.badCluster fault)
      | .ok c =>
        match Numeral.read UInt64.size after with
        | .error fault => .error (.badPosition fault)
        | .ok p => .ok ⟨UInt32.ofNat c, UInt64.ofNat p⟩ := by
  have hdrop : (body text).dropWhile (· != ':') = ':' :: after := by
    rw [hbody, List.dropWhile_append_of_pos (ne_colon_of_not_mem hbefore)]
    rfl
  have htake : (body text).takeWhile (· != ':') = before := by
    rw [hbody, List.takeWhile_append_of_pos (ne_colon_of_not_mem hbefore)]
    exact List.append_nil before
  rewrite [parse, hdrop, htake]
  rfl

/-- Of a text that is cut at its first colon both parts are read as numbers. -/
theorem parse_eq_ok_iff_of_cut {text before after : List Char} {r : RecordId}
    (hbody : body text = before ++ ':' :: after) (hbefore : ':' ∉ before) :
    parse text = .ok r ↔ Numeral.read UInt32.size before = .ok r.cluster.toNat ∧
      Numeral.read UInt64.size after = .ok r.position.toNat := by
  obtain ⟨cluster, position⟩ := r
  rw [parse_of_cut hbody hbefore]
  cases hc : Numeral.read UInt32.size before with
  | error fault => simp
  | ok c =>
      cases hp : Numeral.read UInt64.size after with
      | error fault => simp
      | ok p =>
          have hclt : c < UInt32.size := Numeral.lt_of_read_eq_ok (by decide) hc
          have hplt : p < UInt64.size := Numeral.lt_of_read_eq_ok (by decide) hp
          simp only [Except.ok.injEq, RecordId.mk.injEq, ← UInt32.toNat_inj,
            ← UInt64.toNat_inj, UInt32.toNat_ofNat_of_lt' hclt, UInt64.toNat_ofNat_of_lt' hplt]

/-- A spelling is read as its numbers, if they are in range. -/
theorem parse_chars_eq_ok_iff {w : Spelling} {r : RecordId} :
    parse w.chars = .ok r ↔
      w.cluster.value = r.cluster.toNat ∧ w.position.value = r.position.toNat := by
  rw [parse_eq_ok_iff_of_cut w.body_chars w.colon_not_mem_cluster,
    Numeral.read_chars_eq_ok_iff (by decide), Numeral.read_chars_eq_ok_iff (by decide),
    and_iff_left r.cluster.toNat_lt, and_iff_left r.position.toNat_lt]

/-- **The texts that are read** are those of the spellings whose numbers are in range. -/
theorem parse_eq_ok_iff {text : List Char} {r : RecordId} :
    parse text = .ok r ↔ ∃ w : Spelling, w.chars = text ∧ w.cluster.value = r.cluster.toNat ∧
      w.position.value = r.position.toNat := by
  constructor
  · intro h
    by_cases hcolon : ':' ∈ body text
    · obtain ⟨before, after, hbody, hbefore⟩ := List.eq_append_cons_of_mem hcolon
      obtain ⟨hc, hp⟩ := (parse_eq_ok_iff_of_cut hbody hbefore).1 h
      obtain ⟨cluster, rfl, hcluster, -⟩ := (Numeral.read_eq_ok_iff (by decide)).1 hc
      obtain ⟨position, rfl, hposition, -⟩ := (Numeral.read_eq_ok_iff (by decide)).1 hp
      rcases eq_body_or_eq_cons text with htext | htext
      · exact ⟨⟨false, cluster, position⟩, by rw [htext, hbody]; rfl, hcluster, hposition⟩
      · exact ⟨⟨true, cluster, position⟩, by rw [htext, hbody]; rfl, hcluster, hposition⟩
    · rw [parse_of_not_mem hcolon] at h
      cases h
  · rintro ⟨w, rfl, hw⟩
    exact parse_chars_eq_ok_iff.2 hw

/-- **A record id is read back from its digits**, with the mark or without it. -/
theorem parse_ofRecordId (marked : Bool) (r : RecordId) :
    parse (Spelling.ofRecordId marked r).chars = .ok r :=
  parse_chars_eq_ok_iff.2 ⟨Numeral.Spelling.value_ofNat _, Numeral.Spelling.value_ofNat _⟩

/-- **A record id is read back from its text.** -/
theorem parse_chars (r : RecordId) : parse r.chars = .ok r := parse_ofRecordId true r

theorem chars_injective {r s : RecordId} (h : r.chars = s.chars) : r = s := by
  have hr := parse_chars r
  rw [h, parse_chars s] at hr
  exact (Except.ok.inj hr).symm

/-! ### Strings -/

theorem ofString_eq_ok_iff_parse {s : String} {r : RecordId} :
    ofString s = .ok r ↔ parse s.toList = .ok r := by
  rw [ofString]
  cases parse s.toList <;> simp

theorem ofString_text_eq_ok_iff {w : Spelling} {r : RecordId} :
    ofString w.text = .ok r ↔
      w.cluster.value = r.cluster.toNat ∧ w.position.value = r.position.toNat := by
  rw [ofString_eq_ok_iff_parse, w.toList_text, parse_chars_eq_ok_iff]

theorem ofString_eq_ok_iff {s : String} {r : RecordId} :
    ofString s = .ok r ↔ ∃ w : Spelling, w.text = s ∧ w.cluster.value = r.cluster.toNat ∧
      w.position.value = r.position.toNat := by
  have htext : ∀ w : Spelling, w.chars = s.toList ↔ w.text = s := fun w => by
    rw [← String.toList_inj, w.toList_text]
  rw [ofString_eq_ok_iff_parse, parse_eq_ok_iff]
  simp only [htext]

/-- A string that is the text of no spelling is refused. -/
theorem exists_error_of_forall_ne {s : String} (h : ∀ w : Spelling, w.text ≠ s) :
    ∃ e, ofString s = .error e := by
  cases hs : ofString s with
  | error e => exact ⟨e, rfl⟩
  | ok r =>
      obtain ⟨w, hw, -⟩ := ofString_eq_ok_iff.1 hs
      exact absurd hw (h w)

/-- **The strings that are read are the spellings of record ids.**  A string is read exactly if it
is the text of a spelling with both numbers in range, and then as these two numbers.  Leading zeros
make no difference to that.  On the way through the digits the number so far is always the one that
they stand for, and in range.  Nothing is read that has a second colon or a second mark, a minus
sign, a space or a character that is not ASCII. -/
theorem reads_exactly_spellings :
    (∀ (s : String) (r : RecordId), ofString s = .ok r ↔ ∃ w : Spelling, w.text = s ∧
      w.cluster.value = r.cluster.toNat ∧ w.position.value = r.position.toNat) ∧
    (∀ s : String, (∃ r, ofString s = .ok r) ↔ ∃ w : Spelling, w.text = s ∧
      w.cluster.value < UInt32.size ∧ w.position.value < UInt64.size) ∧
    (∀ (w : Spelling) (zeros zeros' : Nat) (r : RecordId),
      ofString (w.padded zeros zeros').text = .ok r ↔ ofString w.text = .ok r) ∧
    (∀ (w : Spelling) (r : RecordId), ofString w.text = .ok r →
      (∀ first, first <+: w.cluster.digits →
        Numeral.readDigits UInt32.size 0 first = .ok (Nat.ofDigitChars 10 first 0) ∧
          Nat.ofDigitChars 10 first 0 < UInt32.size) ∧
      ∀ first, first <+: w.position.digits →
        Numeral.readDigits UInt64.size 0 first = .ok (Nat.ofDigitChars 10 first 0) ∧
          Nat.ofDigitChars 10 first 0 < UInt64.size) ∧
    ∀ s : String, 2 ≤ s.toList.count ':' ∨ 2 ≤ s.toList.count '#' ∨ '-' ∈ s.toList ∨
      ' ' ∈ s.toList ∨ (∃ c ∈ s.toList, 128 ≤ c.toNat) → ∃ e, ofString s = .error e := by
  refine ⟨fun _ _ => ofString_eq_ok_iff, fun s => ⟨?_, ?_⟩, fun w zeros zeros' r => ?_,
    fun w r h => ?_, fun s h => exists_error_of_forall_ne ?_⟩
  · rintro ⟨r, h⟩
    obtain ⟨w, hw, hcluster, hposition⟩ := ofString_eq_ok_iff.1 h
    exact ⟨w, hw, hcluster ▸ r.cluster.toNat_lt, hposition ▸ r.position.toNat_lt⟩
  · rintro ⟨w, rfl, hcluster, hposition⟩
    exact ⟨⟨.ofNat w.cluster.value, .ofNat w.position.value⟩, ofString_text_eq_ok_iff.2
      ⟨(UInt32.toNat_ofNat_of_lt' hcluster).symm, (UInt64.toNat_ofNat_of_lt' hposition).symm⟩⟩
  · rw [ofString_text_eq_ok_iff, ofString_text_eq_ok_iff, Spelling.padded,
      Numeral.Spelling.value_padded, Numeral.Spelling.value_padded]
  · obtain ⟨hcluster, hposition⟩ := ofString_text_eq_ok_iff.1 h
    have hc : Numeral.readDigits UInt32.size 0 w.cluster.digits = .ok r.cluster.toNat :=
      (Numeral.readDigits_eq_ok_iff (by decide)).2
        ⟨w.cluster.isDigit, hcluster, r.cluster.toNat_lt⟩
    have hp : Numeral.readDigits UInt64.size 0 w.position.digits = .ok r.position.toNat :=
      (Numeral.readDigits_eq_ok_iff (by decide)).2
        ⟨w.position.isDigit, hposition, r.position.toNat_lt⟩
    exact ⟨fun _ => Numeral.readDigits_of_prefix (by decide) hc,
      fun _ => Numeral.readDigits_of_prefix (by decide) hp⟩
  · rintro w rfl
    rw [w.toList_text] at h
    rcases h with h | h | h | h | ⟨c, hc, h⟩
    · rw [w.count_colon] at h
      exact absurd h (by decide)
    · exact absurd w.count_mark_le (Nat.not_le_of_lt h)
    · rcases Spelling.mem_chars_cases h with h | h | h | h <;> exact absurd h (by decide)
    · rcases Spelling.mem_chars_cases h with h | h | h | h <;> exact absurd h (by decide)
    · exact absurd (Spelling.toNat_lt_of_mem_chars hc) (Nat.not_lt_of_le h)

/-- The largest record id with all that a spelling may have, and a text with a second colon. -/
theorem read_at_the_bounds :
    ofString "#+004294967295:+18446744073709551615" = .ok ⟨4294967295, 18446744073709551615⟩ ∧
      ∃ e, ofString "8:0:1" = .error e := by
  obtain ⟨hread, -, hpadded, -, hrefused⟩ := reads_exactly_spellings
  let w : Spelling :=
    ⟨true, ⟨true, "4294967295".toList, by decide, List.all_eq_true.1 rfl⟩,
      ⟨true, "18446744073709551615".toList, by decide, List.all_eq_true.1 rfl⟩⟩
  have hw : ofString w.text = .ok ⟨4294967295, 18446744073709551615⟩ :=
    (hread w.text _).2 ⟨w, rfl, by decide, by decide⟩
  have hzeros : (w.padded 2 0).text = "#+004294967295:+18446744073709551615" := rfl
  exact ⟨hzeros ▸ (hpadded w 2 0 _).2 hw, hrefused "8:0:1" (.inl (by decide))⟩

end RecordId

end UpdateSql
