/-
**Why a text is not a record id.**

Many things can be wrong with a text at once: it may have no colon, either of its two numbers may be
missing, too large or not a number at all, and a number may be too large before a character that is
no digit, or after it.  The error names one of them, the first in reading order.  Here this is said
without the reader: at the first colon the text is cut in two, the first part that is no number in
range is the one at fault, and in that part it is the first index at which the digits break off.

Main definitions:

* `Numeral.BreaksAt`, `Numeral.FirstBreak` — an index at which digits cannot be read on, and the
  first one;
* `Numeral.Cause` — why a text is not a numeral of a number below a bound.

Main results:

* `Numeral.readDigits_eq_error_iff` — **digits are read up to the first break**, and the character
  there is the cause;
* `Numeral.read_eq_error_iff`, `Numeral.exists_cause_iff` — what a numeral is refused for, and that
  whatever is no numeral in range has a cause;
* `RecordId.detail_injective` — the texts of errors tell all faults apart;
* `RecordId.refusals_name_first_fault` — **the error names the first fault of the text**.
-/

import UpdateSql.Proofs.RecordId.Grammar

set_option relaxedAutoImplicit false
set_option autoImplicit false

namespace UpdateSql

/-! ### Numerals -/

namespace Numeral

/-! #### Where digits break off -/

/-- At an index digits cannot be read on: the character there is no digit, or together with it the
number, of which the digits before the text gave `value`, reaches the bound. -/
def BreaksAt (bound value : Nat) (text : List Char) (k : Nat) (c : Char) : Prop :=
  text[k]? = some c ∧ (c.isDigit = false ∨ bound ≤ Nat.ofDigitChars 10 (text.take (k + 1)) value)

/-- The first index at which digits cannot be read on, and the character there. -/
def FirstBreak (bound value : Nat) (text : List Char) (k : Nat) (c : Char) : Prop :=
  BreaksAt bound value text k c ∧ ∀ j < k, ∀ d, ¬ BreaksAt bound value text j d

/-- The fault of digits that break off at a character. -/
def Fault.ofChar (c : Char) : Fault := if c.isDigit then .overflow else .invalidDigit

section

variable {bound value k : Nat} {c d : Char} {text : List Char}

theorem ofDigitChars_cons_eq (c : Char) (text : List Char) (value : Nat) :
    Nat.ofDigitChars 10 (c :: text) value
      = Nat.ofDigitChars 10 text (value * 10 + digitValue c) := by
  rw [Nat.ofDigitChars_cons, digitValue, Nat.mul_comm]

theorem breaksAt_zero_iff : BreaksAt bound value (c :: text) 0 d ↔
    d = c ∧ (c.isDigit = false ∨ bound ≤ value * 10 + digitValue c) := by
  rw [BreaksAt, List.getElem?_cons_zero, Option.some.injEq, List.take_succ_cons, List.take_zero,
    ofDigitChars_cons_eq, Nat.ofDigitChars_nil]
  constructor
  · rintro ⟨rfl, h⟩
    exact ⟨rfl, h⟩
  · rintro ⟨rfl, h⟩
    exact ⟨rfl, h⟩

/-- Behind the first character the digits break off where the rest does. -/
theorem breaksAt_succ_iff : BreaksAt bound value (c :: text) (k + 1) d ↔
    BreaksAt bound (value * 10 + digitValue c) text k d := by
  rw [BreaksAt, List.getElem?_cons_succ, List.take_succ_cons, ofDigitChars_cons_eq]
  rfl

theorem firstBreak_cons_of_breaks (h : c.isDigit = false ∨ bound ≤ value * 10 + digitValue c) :
    FirstBreak bound value (c :: text) k d ↔ k = 0 ∧ d = c := by
  have hzero : BreaksAt bound value (c :: text) 0 c := breaksAt_zero_iff.2 ⟨rfl, h⟩
  constructor
  · rintro ⟨hbreak, hfirst⟩
    cases k with
    | zero => exact ⟨rfl, (breaksAt_zero_iff.1 hbreak).1⟩
    | succ k => exact absurd hzero (hfirst 0 (Nat.succ_pos k) c)
  · rintro ⟨rfl, rfl⟩
    exact ⟨hzero, fun j hj => absurd hj (Nat.not_lt_zero j)⟩

theorem firstBreak_cons_of_not_breaks
    (h : ¬ (c.isDigit = false ∨ bound ≤ value * 10 + digitValue c)) :
    FirstBreak bound value (c :: text) k d ↔
      ∃ j, k = j + 1 ∧ FirstBreak bound (value * 10 + digitValue c) text j d := by
  have hzero : ∀ e, ¬ BreaksAt bound value (c :: text) 0 e :=
    fun e hbreak => h (breaksAt_zero_iff.1 hbreak).2
  constructor
  · rintro ⟨hbreak, hfirst⟩
    cases k with
    | zero => exact absurd hbreak (hzero d)
    | succ k =>
        refine ⟨k, rfl, breaksAt_succ_iff.1 hbreak, fun j hj e hj' => ?_⟩
        exact hfirst (j + 1) (Nat.succ_lt_succ hj) e (breaksAt_succ_iff.2 hj')
  · rintro ⟨j, rfl, hbreak, hfirst⟩
    refine ⟨breaksAt_succ_iff.2 hbreak, fun i hi e hi' => ?_⟩
    cases i with
    | zero => exact hzero e hi'
    | succ i => exact hfirst i (Nat.lt_of_succ_lt_succ hi) e (breaksAt_succ_iff.1 hi')

/-- Where digits break off at once, the reading stops, whatever follows. -/
theorem readDigits_cons_of_breaks (h : c.isDigit = false ∨ bound ≤ value * 10 + digitValue c) :
    readDigits bound value (c :: text) = .error (.ofChar c) := by
  rw [readDigits, Fault.ofChar]
  cases hc : c.isDigit with
  | false => rfl
  | true =>
      have hbound : ¬ value * 10 + digitValue c < bound := by
        rw [hc] at h
        simpa using h
      rw [if_pos rfl, if_neg hbound, if_pos rfl]

/-- **Digits are read up to the first break**, and the character there is the cause. -/
theorem readDigits_eq_error_iff {fault : Fault} : readDigits bound value text = .error fault ↔
    ∃ k c, FirstBreak bound value text k c ∧ fault = .ofChar c := by
  induction text generalizing value with
  | nil =>
      refine iff_of_false (fun h => by cases h) ?_
      rintro ⟨k, c, ⟨⟨hc, -⟩, -⟩, -⟩
      cases hc
  | cons c text ih =>
      by_cases h : c.isDigit = false ∨ bound ≤ value * 10 + digitValue c
      · rw [readDigits_cons_of_breaks h, Except.error.injEq, eq_comm]
        simp only [firstBreak_cons_of_breaks h]
        constructor
        · intro hfault
          exact ⟨0, c, ⟨rfl, rfl⟩, hfault⟩
        · rintro ⟨_, _, ⟨-, rfl⟩, hfault⟩
          exact hfault
      · have hnext : c.isDigit = true ∧ value * 10 + digitValue c < bound := by simpa using h
        rw [readDigits, if_pos hnext.1, if_pos hnext.2, ih]
        simp only [firstBreak_cons_of_not_breaks h]
        constructor
        · rintro ⟨j, d, hj, hfault⟩
          exact ⟨j + 1, d, ⟨j, rfl, hj⟩, hfault⟩
        · rintro ⟨_, d, ⟨j, rfl, hj⟩, hfault⟩
          exact ⟨j, d, hj, hfault⟩

end

/-! #### Causes -/

/-- The characters behind the plus sign, or all where there is none. -/
def unsigned : List Char → List Char
  | '+' :: rest => rest
  | text => text

/-- Why a text is not a numeral of a number below a bound.  An empty one and a bare plus sign have
no digits; in any other the first break decides, by the character that stands there. -/
def Cause (bound : Nat) (text : List Char) : Fault → Prop
  | .empty => text = []
  | .invalidDigit => text ≠ [] ∧ (unsigned text = [] ∨
      ∃ k c, FirstBreak bound 0 (unsigned text) k c ∧ c.isDigit = false)
  | .overflow => text ≠ [] ∧ unsigned text ≠ [] ∧
      ∃ k c, FirstBreak bound 0 (unsigned text) k c ∧ c.isDigit = true

theorem unsigned_of_ne {c : Char} {rest : List Char} (hc : c ≠ '+') :
    unsigned (c :: rest) = c :: rest := by
  simp [unsigned, hc]

/-- Where there are characters to be read as digits, they are read. -/
theorem read_of_unsigned_ne_nil {bound : Nat} {text : List Char} (h : unsigned text ≠ []) :
    read bound text = readDigits bound 0 (unsigned text) := by
  rcases text with _ | ⟨c, rest⟩
  · exact absurd rfl h
  · by_cases hc : c = '+'
    · subst hc
      cases rest with
      | nil => exact absurd rfl h
      | cons d rest => rfl
    · rw [unsigned_of_ne hc, read_cons_of_ne hc]

theorem eq_nil_or_eq_plus_of_unsigned_eq_nil {text : List Char} (h : unsigned text = []) :
    text = [] ∨ text = ['+'] := by
  rcases text with _ | ⟨c, rest⟩
  · exact .inl rfl
  · by_cases hc : c = '+'
    · subst hc
      obtain rfl : rest = [] := h
      exact .inr rfl
    · rw [unsigned_of_ne hc] at h
      cases h

/-- **What a numeral is refused for.** -/
theorem read_eq_error_iff {bound : Nat} {text : List Char} {fault : Fault} :
    read bound text = .error fault ↔ Cause bound text fault := by
  by_cases h : unsigned text = []
  · rcases eq_nil_or_eq_plus_of_unsigned_eq_nil h with rfl | rfl <;>
      cases fault <;> simp [read, Cause, unsigned]
  · have hne : text ≠ [] := by
      rintro rfl
      exact h rfl
    rw [read_of_unsigned_ne_nil h, readDigits_eq_error_iff]
    cases fault with
    | empty =>
        refine iff_of_false ?_ hne
        rintro ⟨k, c, -, hfault⟩
        rw [Fault.ofChar] at hfault
        split at hfault <;> cases hfault
    | invalidDigit => simp [Cause, hne, h, Fault.ofChar, eq_comm (a := Fault.invalidDigit)]
    | overflow => simp [Cause, hne, h, Fault.ofChar, eq_comm (a := Fault.overflow)]

theorem exists_read_eq_ok_iff {bound : Nat} (hb : 0 < bound) {text : List Char} :
    (∃ n, read bound text = .ok n) ↔ ∃ w : Spelling, w.chars = text ∧ w.value < bound := by
  constructor
  · rintro ⟨n, hn⟩
    obtain ⟨w, hw, rfl, hlt⟩ := (read_eq_ok_iff hb).1 hn
    exact ⟨w, hw, hlt⟩
  · rintro ⟨w, hw, hlt⟩
    exact ⟨w.value, (read_eq_ok_iff hb).2 ⟨w, hw, rfl, hlt⟩⟩

/-- What is no numeral of a number below the bound has a cause for that. -/
theorem exists_cause_iff {bound : Nat} (hb : 0 < bound) {text : List Char} :
    (∃ fault, Cause bound text fault) ↔ ¬ ∃ w : Spelling, w.chars = text ∧ w.value < bound := by
  rw [← exists_read_eq_ok_iff hb]
  simp only [← read_eq_error_iff]
  cases read bound text <;> simp

theorem Fault.message_injective {fault fault' : Fault} (h : fault.message = fault'.message) :
    fault = fault' := by
  cases fault <;> cases fault' <;>
    first
    | rfl
    | exact absurd h (by decide)

end Numeral

/-! ### Record ids -/

namespace RecordId

/-- **The texts of errors tell all faults apart.** -/
theorem detail_injective {fault fault' : Fault} {s : String}
    (h : fault.detail s = fault'.detail s) : fault = fault' := by
  rw [← String.toList_inj] at h
  -- the quoted text is the same; behind it the kinds differ at once, and then the causes
  cases fault with
  | missingColon => cases fault' <;> simp [Fault.detail] at h ⊢
  | badCluster cause =>
      cases fault' <;> simp [Fault.detail, String.toList_inj] at h
      exact congrArg Fault.badCluster (Numeral.Fault.message_injective h)
  | badPosition cause =>
      cases fault' <;> simp [Fault.detail, String.toList_inj] at h
      exact congrArg Fault.badPosition (Numeral.Fault.message_injective h)

theorem ofString_eq_error_iff {s : String} {e : Error} : ofString s = .error e ↔
    ∃ fault, parse s.toList = .error fault ∧ e = .invalidRecordId (fault.detail s) := by
  rw [ofString]
  cases parse s.toList with
  | ok r => simp
  | error fault => simp [eq_comm]

/-- The error of a string is the one of a fault exactly if the string has this fault. -/
theorem ofString_eq_detail_iff (s : String) (fault : Fault) :
    ofString s = .error (.invalidRecordId (fault.detail s)) ↔ parse s.toList = .error fault := by
  rw [ofString_eq_error_iff]
  constructor
  · rintro ⟨fault', h, hdetail⟩
    rw [detail_injective (Error.invalidRecordId.inj hdetail), h]
  · intro h
    exact ⟨fault, h, rfl⟩

section

variable {text before after : List Char}

/-- In a text that is cut at its first colon nothing but its two parts can be at fault. -/
theorem parse_eq_error_iff_of_cut (hbody : body text = before ++ ':' :: after)
    (hbefore : ':' ∉ before) {fault : Fault} : parse text = .error fault ↔
      (∃ cause, Numeral.read UInt32.size before = .error cause ∧ fault = .badCluster cause) ∨
        ∃ c cause, Numeral.read UInt32.size before = .ok c ∧
          Numeral.read UInt64.size after = .error cause ∧ fault = .badPosition cause := by
  rw [parse_of_cut hbody hbefore]
  cases Numeral.read UInt32.size before with
  | error cause => simp [eq_comm]
  | ok c =>
      cases Numeral.read UInt64.size after with
      | error cause => simp [eq_comm]
      | ok p => simp

/-- **The colon is missing exactly if there is none** behind the mark. -/
theorem parse_eq_missingColon_iff : parse text = .error .missingColon ↔ ':' ∉ body text := by
  constructor
  · intro h hcolon
    obtain ⟨before, after, hbody, hbefore⟩ := List.eq_append_cons_of_mem hcolon
    rcases (parse_eq_error_iff_of_cut hbody hbefore).1 h with ⟨_, -, h⟩ | ⟨_, _, -, -, h⟩ <;>
      cases h
  · exact parse_of_not_mem

/-- **The cluster is at fault exactly if it is no number in range**, whatever the position is. -/
theorem parse_eq_badCluster_iff (hbody : body text = before ++ ':' :: after)
    (hbefore : ':' ∉ before) {cause : Numeral.Fault} :
    parse text = .error (.badCluster cause) ↔ Numeral.Cause UInt32.size before cause := by
  rw [parse_eq_error_iff_of_cut hbody hbefore, ← Numeral.read_eq_error_iff]
  simp

/-- **The position is at fault exactly if it is no number in range, and the cluster is one.** -/
theorem parse_eq_badPosition_iff (hbody : body text = before ++ ':' :: after)
    (hbefore : ':' ∉ before) {cause : Numeral.Fault} :
    parse text = .error (.badPosition cause) ↔
      (∃ w : Numeral.Spelling, w.chars = before ∧ w.value < UInt32.size) ∧
        Numeral.Cause UInt64.size after cause := by
  rw [parse_eq_error_iff_of_cut hbody hbefore, ← Numeral.read_eq_error_iff,
    ← Numeral.exists_read_eq_ok_iff (by decide)]
  simp

end

/-- **The error names the first fault of the text.**  Every error quotes the whole text and has one
of three forms.  The colon is missing exactly if there is none behind the mark.  Where the text is
cut at its first colon, the cluster is at fault exactly if the first part is no number below
`2 ^ 32`, whatever the second part is, and otherwise the position is, exactly if the second part is
no number below `2 ^ 64`.  The cause is that of the part at fault. -/
theorem refusals_name_first_fault :
    (∀ (s : String) (e : Error), ofString s = .error e →
      e = .invalidRecordId ("'" ++ s ++ "' is missing ':'") ∨ ∃ cause : Numeral.Fault,
        e = .invalidRecordId ("'" ++ s ++ "': bad cluster id: " ++ cause.message) ∨
        e = .invalidRecordId ("'" ++ s ++ "': bad position: " ++ cause.message)) ∧
    (∀ s : String, ofString s = .error (.invalidRecordId ("'" ++ s ++ "' is missing ':'")) ↔
      ':' ∉ body s.toList) ∧
    (∀ (s : String) (before after : List Char), body s.toList = before ++ ':' :: after →
      ':' ∉ before →
      ((∃ cause : Numeral.Fault, ofString s
          = .error (.invalidRecordId ("'" ++ s ++ "': bad cluster id: " ++ cause.message))) ↔
        ¬ ∃ w : Numeral.Spelling, w.chars = before ∧ w.value < UInt32.size) ∧
      ((∃ cause : Numeral.Fault, ofString s
          = .error (.invalidRecordId ("'" ++ s ++ "': bad position: " ++ cause.message))) ↔
        (∃ w : Numeral.Spelling, w.chars = before ∧ w.value < UInt32.size) ∧
          ¬ ∃ w : Numeral.Spelling, w.chars = after ∧ w.value < UInt64.size) ∧
      (∀ cause : Numeral.Fault, ofString s
          = .error (.invalidRecordId ("'" ++ s ++ "': bad cluster id: " ++ cause.message)) ↔
        Numeral.Cause UInt32.size before cause) ∧
      ∀ cause : Numeral.Fault, ofString s
          = .error (.invalidRecordId ("'" ++ s ++ "': bad position: " ++ cause.message)) ↔
        (∃ w : Numeral.Spelling, w.chars = before ∧ w.value < UInt32.size) ∧
          Numeral.Cause UInt64.size after cause) := by
  have hmissing : ∀ s : String,
      ofString s = .error (.invalidRecordId ("'" ++ s ++ "' is missing ':'")) ↔
        parse s.toList = .error .missingColon := fun s => ofString_eq_detail_iff s .missingColon
  have hcluster : ∀ (s : String) (cause : Numeral.Fault), ofString s
      = .error (.invalidRecordId ("'" ++ s ++ "': bad cluster id: " ++ cause.message)) ↔
        parse s.toList = .error (.badCluster cause) :=
    fun s cause => ofString_eq_detail_iff s (.badCluster cause)
  have hposition : ∀ (s : String) (cause : Numeral.Fault), ofString s
      = .error (.invalidRecordId ("'" ++ s ++ "': bad position: " ++ cause.message)) ↔
        parse s.toList = .error (.badPosition cause) :=
    fun s cause => ofString_eq_detail_iff s (.badPosition cause)
  refine ⟨fun s e h => ?_, fun s => ?_, fun s before after hbody hbefore => ?_⟩
  · obtain ⟨fault, -, rfl⟩ := ofString_eq_error_iff.1 h
    cases fault with
    | missingColon => exact .inl rfl
    | badCluster cause => exact .inr ⟨cause, .inl rfl⟩
    | badPosition cause => exact .inr ⟨cause, .inr rfl⟩
  · rw [hmissing, parse_eq_missingColon_iff]
  · refine ⟨?_, ?_, fun cause => ?_, fun cause => ?_⟩
    · simp only [hcluster, parse_eq_badCluster_iff hbody hbefore]
      exact Numeral.exists_cause_iff (by decide)
    · simp only [hposition, parse_eq_badPosition_iff hbody hbefore, exists_and_left]
      exact and_congr_right fun _ => Numeral.exists_cause_iff (by decide)
    · rw [hcluster, parse_eq_badCluster_iff hbody hbefore]
    · rw [hposition, parse_eq_badPosition_iff hbody hbefore]

/-- A cluster that is too large before a character that is no digit, and one that ends in such a
character where it would be too large; the position is missing in both. -/
theorem refusals_of_large_clusters :
    ofString "#4294967296x:" = .error (.invalidRecordId
        "'#4294967296x:': bad cluster id: number too large to fit in target type") ∧
      ofString "429496729x:" = .error (.invalidRecordId
        "'429496729x:': bad cluster id: invalid digit found in string") ∧
      ¬ ∃ w : Numeral.Spelling, w.chars = "429496729x".toList ∧ w.value < UInt32.size := by
  obtain ⟨-, -, hcut⟩ := refusals_name_first_fault
  obtain ⟨-, -, hlarge, -⟩ := hcut "#4294967296x:" "4294967296x".toList [] rfl (by decide)
  obtain ⟨hbad, -, hinvalid, -⟩ := hcut "429496729x:" "429496729x".toList [] rfl (by decide)
  have h := (hinvalid .invalidDigit).2 (Numeral.read_eq_error_iff.1 rfl)
  exact ⟨(hlarge .overflow).2 (Numeral.read_eq_error_iff.1 rfl), h, hbad.1 ⟨.invalidDigit, h⟩⟩

end RecordId

end UpdateSql
