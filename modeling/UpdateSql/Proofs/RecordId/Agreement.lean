/-
**Writing and reading record ids.**

A record id is written in four places: as text, in JSON, as the target of a statement and as the
literal of a link.  It is read in three: from text, from a JSON string, and from the key of a JSON
object that holds the record id of a document.  All of them agree on what the text of a record id
is, and on what is wrong with a text that is none.

Main results:

* `Update.build_of_record` — the text of a record stands in a statement where its target stands;
* `RecordId.ofString_text`, `RecordId.ofString_bareText` — **a record id is read back from its
  text**, with or without the mark at its front;
* `RecordId.parse_jsonText` — its JSON text is read back as a string with its text;
* `Document.rid_ofJson` — the record id of a document is read like any other;
* `RecordId.writers_and_readers_agree` — **all writers and readers agree**.
-/

import Mathlib.Logic.Function.Basic
import UpdateSql.Proofs.Document.OfJson
import UpdateSql.Proofs.Json.Strings
import UpdateSql.Proofs.Reading.Statement
import UpdateSql.Proofs.RecordId.Grammar
import UpdateSql.Proofs.Statement.Writing
import UpdateSql.RecordId.Json

set_option relaxedAutoImplicit false
set_option autoImplicit false

namespace UpdateSql

/-! ### Text -/

namespace RecordId

theorem toList_text (r : RecordId) : r.text.toList = r.chars := String.toList_ofList

/-- A record id is read back from its text. -/
theorem ofString_text (r : RecordId) : ofString r.text = .ok r := by
  rw [ofString, toList_text, parse_chars]

/-- Record ids with the same text are the same. -/
theorem text_injective : Function.Injective text := by
  intro r s h
  apply chars_injective
  rw [← toList_text, h, toList_text]

/-- The text of a record id without the mark at its front. -/
def bareText (r : RecordId) : String :=
  String.ofList (Nat.toDigits 10 r.cluster.toNat ++ ':' :: Nat.toDigits 10 r.position.toNat)

theorem text_eq_append_bareText (r : RecordId) : r.text = "#" ++ r.bareText := by
  have hbare : r.bareText.toList
      = Nat.toDigits 10 r.cluster.toNat ++ ':' :: Nat.toDigits 10 r.position.toNat :=
    String.toList_ofList
  rw [← String.toList_inj, toList_text, String.toList_append, hbare]
  rfl

/-- A record id is read back from its text without the mark. -/
theorem ofString_bareText (r : RecordId) : ofString r.bareText = .ok r := by
  have hparse : parse (Nat.toDigits 10 r.cluster.toNat ++ ':' :: Nat.toDigits 10 r.position.toNat)
      = .ok r := parse_ofRecordId false r
  rw [ofString, bareText, String.toList_ofList, hparse]

/-! ### JSON -/

theorem jsonText_eq (r : RecordId) : r.jsonText = "\"" ++ r.text ++ "\"" := by
  rw [← String.toList_inj, jsonText, String.toList_append, String.toList_append, toList_text,
    String.toList_ofList]
  rfl

/-- No character of a record id needs an escape. -/
theorem isPlain_of_mem_chars {r : RecordId} {c : Char} (h : c ∈ r.chars) : Json.IsPlain c := by
  have hspelling : c ∈ (Spelling.ofRecordId true r).chars := h
  rcases Spelling.mem_chars_cases hspelling with rfl | rfl | rfl | hdigit
  · exact ⟨by decide, by decide, by decide⟩
  · exact ⟨by decide, by decide, by decide⟩
  · exact ⟨by decide, by decide, by decide⟩
  · refine ⟨?_, ?_, ?_⟩
    · rintro rfl
      exact absurd hdigit (by decide)
    · rintro rfl
      exact absurd hdigit (by decide)
    · have hle : '0'.toNat ≤ c.toNat := (Char.isDigit_iff_toNat.1 hdigit).1
      have hzero : '0'.toNat = 48 := rfl
      omega

/-- The JSON text of a record id is read back as a string with its text. -/
theorem parse_jsonText (r : RecordId) : Json.parse r.jsonText = some (.string r.text) :=
  Json.parse_quoted fun _ => isPlain_of_mem_chars

/-- From a JSON string a record id is read like from text. -/
theorem ofJson_string (s : String) :
    RecordId.ofJson (.string s) = (ofString s).mapError .notAnId := by
  rw [RecordId.ofJson]
  cases ofString s <;> rfl

end RecordId

/-- For a document a record id is read like from text, wherever its key stands among members that do
not offend. -/
theorem Document.rid_ofJson {before after : List (String × Json)}
    (h : ∀ m ∈ before ++ after, m.1 ≠ ridKey ∧ ∀ e, ¬ Offends m e) (s : String) :
    (Document.ofJson (.object (before ++ (ridKey, .string s) :: after))).map Document.rid
      = (RecordId.ofString s).map some := by
  rw [List.forall_mem_append] at h
  obtain ⟨d, hd⟩ := exists_addMembers_eq_ok (fun m hm => (h.1 m hm).2) empty
  have hread : Document.ofJson (.object (before ++ (ridKey, .string s) :: after))
      = (RecordId.ofString s).map d.withRid >>= fun next => next.addMembers after := by
    rw [← addMember_rid]
    exact (addMembers_append empty before _).trans (by rw [hd]; rfl)
  rw [hread]
  cases RecordId.ofString s with
  | error e => rfl
  | ok id =>
      obtain ⟨next, hnext⟩ := exists_addMembers_eq_ok (fun m hm => (h.2 m hm).2) (d.withRid id)
      have hkey : ridKey ∉ after.map Prod.fst := by
        rw [List.mem_map]
        rintro ⟨m, hm, hname⟩
        exact (h.2 m hm).1 hname
      have hrid : next.rid = some id := eq_of_addMembers rid_addMember hnext hkey
      exact (congrArg (Except.map Document.rid) hnext).trans (congrArg Except.ok hrid)

/-! ### Statements -/

namespace Update

variable {stage : Stage}

/-- A statement changes a single record if that is named, or is the one of the document where
nothing is named. -/
theorem target_eq_record_iff {q : Update stage} {r : RecordId} :
    q.target = some (.record r) ↔ q.explicitTarget = some (.record r) ∨
      q.explicitTarget = none ∧ ∃ d, q.document = some d ∧ d.rid = some r := by
  rw [target, resolveTarget]
  cases q.explicitTarget with
  | some t => simp [Except.toOption]
  | none =>
      rcases q.document with _ | ⟨_ | name, _ | id, fields⟩ <;>
        simp [Document.target?, Except.toOption]

/-- **The text of a record stands in a statement where its target stands**: after the first word,
and up to the end or a space. -/
theorem build_of_record {q : Update stage} {r : RecordId} (h : q.target = some (.record r))
    {config : RenderConfig} {text : String} (hb : q.build config = .ok text) :
    ∃ rest, text = "UPDATE " ++ r.text ++ rest ∧ ∀ c ∈ rest.toList.head?, c = ' ' := by
  obtain ⟨t, ht, -, chars, hchars, rfl⟩ := build_eq_ok_iff.1 hb
  have hrecord : t = .record r := by
    rw [target, ht] at h
    exact Option.some.inj h
  obtain ⟨as, adds, rems, conds, -, -, -, -, rfl⟩ := Statement.chars_eq_ok_iff.1 hchars
  have hclauses : Reading.Opens ['S', 'A', 'R', 'W'] (clauseChars "SET" as ++
      (clauseChars "ADD" adds ++ (clauseChars "REMOVE" rems ++ conditionClauseChars conds))) :=
    Reading.opens_clauseChars rfl (Reading.opens_clauseChars rfl (Reading.opens_clauseChars rfl
      (Reading.opens_conditionClauseChars conds) rems) adds) as
  generalize clauseChars "SET" as ++ (clauseChars "ADD" adds ++
    (clauseChars "REMOVE" rems ++ conditionClauseChars conds)) = clauses at hclauses ⊢
  refine ⟨String.ofList clauses, ?_, ?_⟩
  · rw [← String.toList_inj, statementFor, hrecord]
    simp only [String.toList_ofList, String.toList_append, RecordId.toList_text,
      Target.chars_record, List.append_assoc]
  · rw [String.toList_ofList]
    exact fun c hc => by simpa using hclauses.stops_ne_space c hc

end Update

/-! ### All together -/

namespace RecordId

/-- **All writers and readers of record ids agree.**  The text of a record id is what its JSON
string holds, what stands in a statement where its target stands, named or taken from a document,
and the literal of a link to it, whatever is done with quotes.  Each reader gives the record id back
for it, and different record ids have different texts.  Of any text at all the three readers make
the same, be it a record id, whose own text is then read as it, or an error, which is that the text
is no record id. -/
theorem writers_and_readers_agree :
    (∀ r : RecordId,
      toJson r = .ok (.string r.text) ∧ r.jsonText = "\"" ++ r.text ++ "\"" ∧
      Json.parse r.jsonText = some (.string r.text) ∧ (Target.record r).text = r.text ∧
      (∀ (stage : Stage) (q : Update stage), q.target = some (.record r) ↔
        q.explicitTarget = some (.record r) ∨
          q.explicitTarget = none ∧ ∃ d, q.document = some d ∧ d.rid = some r) ∧
      (∀ (stage : Stage) (q : Update stage) (config : RenderConfig) (text : String),
        q.target = some (.record r) → q.build config = .ok text →
          ∃ rest, text = "UPDATE " ++ r.text ++ rest ∧ ∀ c ∈ rest.toList.head?, c = ' ') ∧
      ∀ mode : QuoteMode, (Value.link r).literal mode = .ok r.text) ∧
    (∀ r : RecordId,
      ofString r.text = .ok r ∧ (∃ bare, r.text = "#" ++ bare ∧ ofString bare = .ok r) ∧
      RecordId.ofJson (.string r.text) = .ok r ∧
      ∀ before after : List (String × Json),
        (∀ m ∈ before ++ after, m.1 ≠ Document.ridKey ∧ ∀ e, ¬ Document.Offends m e) →
          (Document.ofJson (.object (before ++ (Document.ridKey, .string r.text) :: after))).map
            Document.rid = .ok (some r)) ∧
    Function.Injective text ∧
    ∀ s : String,
      RecordId.ofJson (.string s) = (ofString s).mapError .notAnId ∧
      (∀ before after : List (String × Json),
        (∀ m ∈ before ++ after, m.1 ≠ Document.ridKey ∧ ∀ e, ¬ Document.Offends m e) →
          (Document.ofJson (.object (before ++ (Document.ridKey, .string s) :: after))).map
            Document.rid = (ofString s).map some) ∧
      (∀ id, ofString s = .ok id → ofString id.text = .ok id) ∧
      ∀ e, ofString s = .error e → ∃ detail, e = .invalidRecordId detail := by
  refine ⟨fun r => ⟨rfl, jsonText_eq r, parse_jsonText r, rfl, ?_, ?_, fun _ => rfl⟩,
    fun r => ⟨ofString_text r, ?_, ?_, ?_⟩, text_injective,
    fun s => ⟨ofJson_string s, ?_, ?_, ?_⟩⟩
  · exact fun _ _ => Update.target_eq_record_iff
  · exact fun _ _ _ _ h => Update.build_of_record h
  · exact ⟨r.bareText, text_eq_append_bareText r, ofString_bareText r⟩
  · rw [ofJson_string, ofString_text]
    rfl
  · intro before after h
    rw [Document.rid_ofJson h, ofString_text]
    rfl
  · exact fun _ _ h => Document.rid_ofJson h s
  · exact fun id _ => ofString_text id
  · exact fun _ => exists_detail_of_eq_error

/-- A record that is named, one that a document stands for, and texts with and without fault. -/
theorem written_and_read_in_places :
    (∃ rest, "UPDATE #8:0 SET a = NULL" = "UPDATE " ++ text ⟨8, 0⟩ ++ rest ∧
      ∀ c ∈ rest.toList.head?, c = ' ') ∧
    (∃ rest, "UPDATE #8:0" = "UPDATE " ++ text ⟨8, 0⟩ ++ rest ∧ ∀ c ∈ rest.toList.head?, c = ' ') ∧
    (Document.ofJson (.object [("a", .null), (Document.ridKey, .string "8:0")])).map Document.rid
      = .ok (some ⟨8, 0⟩) ∧
    RecordId.ofJson (.string "8") = .error (.notAnId (.invalidRecordId "'8' is missing ':'")) := by
  obtain ⟨hwritten, -, -, hread⟩ := writers_and_readers_agree
  obtain ⟨-, -, -, -, -, hbuild, -⟩ := hwritten ⟨8, 0⟩
  have hothers : ∀ m ∈ [("a", Json.null)] ++ [],
      m.1 ≠ Document.ridKey ∧ ∀ e, ¬ Document.Offends m e := by
    rw [List.append_nil, List.forall_mem_singleton]
    exact ⟨by decide, fun e => Document.not_offends_of_not_isReserved (by decide)⟩
  refine ⟨hbuild _ ((Update.empty.onRecord ⟨8, 0⟩).set "a" Value.null) .default _ rfl rfl,
    hbuild _ (Update.empty.attach (Document.empty.withRid ⟨8, 0⟩)) .default _ rfl rfl, ?_, ?_⟩
  · exact (hread "8:0").2.1 [("a", .null)] [] hothers
  · exact (hread "8").1

end RecordId

end UpdateSql
