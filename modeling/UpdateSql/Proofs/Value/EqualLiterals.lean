/-
**The literals of equal values.**

Equality looks fields up by name, and writing goes through them one by one.  So equal values show
the same in their literals but for two things: the order of the fields, which equality ignores, and
the sign of a zero.  A float that cannot be written is equal only to one that cannot be written
either, hence whether there is a literal at all depends on neither of the two.

Main definitions:

* `Value.Corresponding` — where two values lie in two others in the same place;
* `Value.SameOrder` — documents in the same place have their fields in the same order;
* `Value.HasNegativeZero` — there is a negative zero in a value.

Main results:

* `Value.beq_induction` — **induction over equal values**;
* `Value.faults_eq_nil_iff_of_beq` — **of equal values either both are without faults or neither**;
* `Value.literalChars_eq_of_beq` — **equal values with the same order of fields and without negative
  zeros are written alike**;
* `Value.equal_values_have_equal_literals` — both, for literals under any options.
-/

import UpdateSql.Config
import UpdateSql.Proofs.Value.Equality
import UpdateSql.Proofs.Value.Faults

set_option relaxedAutoImplicit false
set_option autoImplicit false

namespace UpdateSql

/-! ### What is related at a place -/

namespace Equality

variable {α β : Type} {R S : α → α → Prop} {a b : Option α}

theorem rel_mono (h : Option.Rel R a b) (hS : ∀ x ∈ a, ∀ y ∈ b, R x y → S x y) :
    Option.Rel S a b := by
  cases h with
  | none => exact .none
  | some hxy => exact .some (hS _ rfl _ rfl hxy)

theorem forall_iff_of_rel {P : α → Prop} (h : Option.Rel (fun x y => P x ↔ P y) a b) :
    (∀ x ∈ a, P x) ↔ ∀ y ∈ b, P y := by
  cases h with
  | none => exact Iff.rfl
  | some hxy => simpa using hxy

theorem map_eq_of_rel {f : α → β} (h : Option.Rel (fun x y => f x = f y) a b) :
    a.map f = b.map f := by
  cases h with
  | none => rfl
  | some hxy => exact congrArg some hxy

end Equality

open Equality (list_beq_iff rel_mono forall_iff_of_rel map_eq_of_rel)

/-! ### Floats -/

namespace FloatEquality

/-- Equal floats are both finite, or both not. -/
theorem isFinite_eq {x y : Float} (h : (x == y) = true) : x.isFinite = y.isFinite := by
  have hunpack : ∀ z : Float, z.isFinite = z.toModel.unpack.isFinite := fun _ => rfl
  rw [hunpack, hunpack]
  rcases beq_iff.1 h with ⟨s, t, hx, hy⟩ | ⟨hxy, -⟩
  · rw [hx, hy]
    rfl
  · rw [hxy]

end FloatEquality

/-- A float is the zero with a sign. -/
def FloatText.IsNegativeZero (x : Float) : Prop := x.toModel.unpack = .zero .negative

/-- Equal floats that are no negative zeros have the same text. -/
theorem FloatText.chars_eq_of_beq {x y : Float} (h : (x == y) = true) (hx : ¬ IsNegativeZero x)
    (hy : ¬ IsNegativeZero y) : chars x = chars y := by
  rw [chars, chars]
  rcases FloatEquality.beq_iff.1 h with ⟨s, t, hxs, hyt⟩ | ⟨hxy, -⟩
  · rw [hxs, hyt]
    cases s with
    | negative => exact absurd hxs hx
    | positive =>
        cases t with
        | negative => exact absurd hyt hy
        | positive => rfl
  · rw [hxy]

namespace Value

/-! ### Induction over equal values -/

/-- **Induction over equal values.**  What holds of equal floats and of other atoms with themselves,
and of two documents or two lists if it holds of what they have at each place, holds of all equal
values with distinct names. -/
theorem beq_induction {motive : Value → Value → Prop} (atom : ∀ v, v.IsAtom → motive v v)
    (float : ∀ x y : Float, (x == y) = true → motive (.float x) (.float y))
    (document : ∀ d e : Document, d.names.Nodup → e.names.Nodup →
      (∀ name, Option.Rel motive (d.get? name) (e.get? name)) → motive (.document d) (.document e))
    (list : ∀ items items' : List Value, (∀ i : Nat, Option.Rel motive items[i]? items'[i]?) →
      motive (.list items) (.list items'))
    {a b : Value} (ha : a.Distinct) (hb : b.Distinct) (h : (a == b) = true) : motive a b := by
  induction a using part_induction generalizing b with
  | atom a hatom =>
      obtain rfl := (beq_atom_iff hatom).1 h
      exact atom a hatom
  | float x =>
      obtain ⟨y, rfl⟩ := eq_float_of_beq h
      exact float x y h
  | document d ih =>
      obtain ⟨e, rfl⟩ := eq_document_of_beq h
      have hd := distinct_document_iff.1 ha
      have he := distinct_document_iff.1 hb
      -- class name and record id are equal as well, but nothing below depends on that
      obtain ⟨-, -, hsame⟩ := (Document.beq_iff hd.1 he.1).1 h
      refine document d e hd.1 he.1 fun name => rel_mono (hsame name) fun v hv w hw hvw => ?_
      have hvmem : (name, v) ∈ d.fields := (Fields.mem_iff_lookup_eq_some hd.1).2 hv
      have hwmem : (name, w) ∈ e.fields := (Fields.mem_iff_lookup_eq_some he.1).2 hw
      exact ih _ hvmem (hd.2 _ hvmem) (he.2 _ hwmem) hvw
  | list items ih =>
      obtain ⟨items', rfl⟩ := eq_list_of_beq h
      have hitems := distinct_list_iff.1 ha
      have hitems' := distinct_list_iff.1 hb
      rw [list_beq_list, list_beq_iff] at h
      refine list items items' fun i => rel_mono (h i) fun v hv w hw hvw => ?_
      have hvmem : v ∈ items := List.mem_of_getElem? hv
      exact ih v hvmem (hitems v hvmem) (hitems' w (List.mem_of_getElem? hw)) hvw

/-! ### Places in two values -/

/-- A value lies in one value where another lies in a second: they are these values themselves, or
lie in the same place of fields of the same name or of items at the same index. -/
inductive Corresponding (v w : Value) : Value → Value → Prop
  | self : Corresponding v w v w
  | field {d e : Document} {name : String} {a b : Value} (ha : d.get? name = some a)
      (hb : e.get? name = some b) (h : Corresponding v w a b) :
      Corresponding v w (.document d) (.document e)
  | item {items items' : List Value} {i : Nat} {a b : Value} (ha : items[i]? = some a)
      (hb : items'[i]? = some b) (h : Corresponding v w a b) :
      Corresponding v w (.list items) (.list items')

/-- Documents in the same place of two values have the same names in the same order. -/
def SameOrder (a b : Value) : Prop :=
  ∀ d e : Document, Corresponding (.document d) (.document e) a b → d.names = e.names

theorem Corresponding.eq_of_eq {v w a b : Value} (h : Corresponding v w a b) (hab : a = b) :
    v = w := by
  induction h with
  | self => exact hab
  | field ha hb _ ih =>
      cases hab
      exact ih (Option.some.inj (ha.symm.trans hb))
  | item ha hb _ ih =>
      cases hab
      exact ih (Option.some.inj (ha.symm.trans hb))

theorem SameOrder.refl (a : Value) : SameOrder a a :=
  fun _ _ h => congrArg Document.names (Value.document.inj (h.eq_of_eq rfl))

theorem sameOrder_document_iff {d e : Document} :
    SameOrder (.document d) (.document e) ↔ d.names = e.names ∧
      ∀ name a b, d.get? name = some a → e.get? name = some b → SameOrder a b := by
  constructor
  · intro h
    exact ⟨h d e .self, fun name a b ha hb d' e' hcorr => h d' e' (.field ha hb hcorr)⟩
  · rintro ⟨hnames, hvalues⟩ d' e' h
    cases h with
    | self => exact hnames
    | field ha hb h => exact hvalues _ _ _ ha hb d' e' h

theorem sameOrder_list_iff {items items' : List Value} :
    SameOrder (.list items) (.list items') ↔
      ∀ (i : Nat) (a b : Value), items[i]? = some a → items'[i]? = some b → SameOrder a b := by
  constructor
  · intro h i a b ha hb d e hcorr
    exact h d e (.item ha hb hcorr)
  · intro hitems d e h
    cases h with
    | item ha hb h => exact hitems _ _ _ ha hb d e h

/-- A float in a value, at any depth, is a negative zero. -/
def HasNegativeZero (v : Value) : Prop :=
  ∃ x : Float, FloatText.IsNegativeZero x ∧ (Value.float x).Part v

theorem HasNegativeZero.field {d : Document} {entry : String × Value} (he : entry ∈ d.fields)
    (h : entry.2.HasNegativeZero) : (Value.document d).HasNegativeZero := by
  obtain ⟨x, hx, hpart⟩ := h
  exact ⟨x, hx, .field he hpart⟩

theorem HasNegativeZero.item {items : List Value} {v : Value} (hv : v ∈ items)
    (h : v.HasNegativeZero) : (Value.list items).HasNegativeZero := by
  obtain ⟨x, hx, hpart⟩ := h
  exact ⟨x, hx, .item hv hpart⟩

/-! ### Faults -/

/-- A document is without faults if the values of all names are, and no name is empty. -/
theorem faults_document_eq_nil_iff {d : Document} (hd : d.names.Nodup) :
    (Value.document d).faults = [] ↔
      ∀ name, ∀ v ∈ d.get? name, nameFaults .field name = [] ∧ v.faults = [] := by
  obtain ⟨className, rid, fields⟩ := d
  rw [faults, fieldFaults_eq_flatMap, List.flatMap_eq_nil_iff]
  constructor
  · intro h name v hv
    exact List.append_eq_nil_iff.1 (h (name, v) ((Fields.mem_iff_lookup_eq_some hd).2 hv))
  · intro h entry he
    exact List.append_eq_nil_iff.2 (h entry.1 entry.2 ((Fields.mem_iff_lookup_eq_some hd).1 he))

/-- A list is without faults if the values at all indices are. -/
theorem faults_list_eq_nil_iff {items : List Value} :
    (Value.list items).faults = [] ↔ ∀ i : Nat, ∀ v ∈ items[i]?, v.faults = [] := by
  rw [faults, itemFaults_eq_flatMap, List.flatMap_eq_nil_iff]
  constructor
  · exact fun h i v hv => h v (List.mem_of_getElem? hv)
  · intro h v hv
    obtain ⟨i, hi⟩ := List.mem_iff_getElem?.1 hv
    exact h i v hi

/-- **Of equal values either both are without faults or neither.** -/
theorem faults_eq_nil_iff_of_beq {a b : Value} (ha : a.Distinct) (hb : b.Distinct)
    (h : (a == b) = true) : a.faults = [] ↔ b.faults = [] := by
  refine beq_induction (motive := fun a b => a.faults = [] ↔ b.faults = []) (fun _ _ => Iff.rfl)
    (fun x y hxy => ?_) (fun d e hd he hrel => ?_) (fun items items' hrel => ?_) ha hb h
  · rw [faults, faults, FloatEquality.isFinite_eq hxy]
    cases y.isFinite <;> simp
  · rw [faults_document_eq_nil_iff hd, faults_document_eq_nil_iff he]
    refine forall_congr' fun name => forall_iff_of_rel (rel_mono (hrel name) ?_)
    exact fun _ _ _ _ hvw => and_congr_right fun _ => hvw
  · rw [faults_list_eq_nil_iff, faults_list_eq_nil_iff]
    exact forall_congr' fun i => forall_iff_of_rel (hrel i)

/-! ### Literals -/

/-- The literal of a document, from what its names are and what is at each of them. -/
theorem literalChars_document (mode : QuoteMode) {d : Document} (hd : d.names.Nodup) :
    (Value.document d).literalChars mode = do
      let entries ← d.names.mapM fun name =>
        assignmentChars name (((d.get? name).map (literalChars mode)).getD (.ok []))
      return '(' :: (commaSeparated entries ++ [')']) := by
  obtain ⟨className, rid, fields⟩ := d
  rw [literalChars, assignments_eq_mapM, Document.names, List.mapM_map]
  refine congrArg (· >>= _) (Outcome.mapM_congr fun entry he => ?_)
  have hget : Document.get? ⟨className, rid, fields⟩ entry.1 = some entry.2 :=
    (Fields.mem_iff_lookup_eq_some hd).1 he
  rw [Function.comp_apply, hget]
  rfl

/-- The literal of a list, from the literals of its items. -/
theorem literalChars_list (mode : QuoteMode) (items : List Value) :
    (Value.list items).literalChars mode = do
      let entries ← (items.map (literalChars mode)).mapM id
      return '[' :: (commaSeparated entries ++ [']']) := by
  rw [literalChars, literals_eq_mapM, List.mapM_map]
  rfl

/-- **Equal values with the same order of fields and without negative zeros are written alike.** -/
theorem literalChars_eq_of_beq (mode : QuoteMode) {a b : Value} (ha : a.Distinct)
    (hb : b.Distinct) (h : (a == b) = true) (horder : SameOrder a b) (hza : ¬ a.HasNegativeZero)
    (hzb : ¬ b.HasNegativeZero) : a.literalChars mode = b.literalChars mode := by
  refine beq_induction (motive := fun a b => SameOrder a b → ¬ a.HasNegativeZero →
    ¬ b.HasNegativeZero → a.literalChars mode = b.literalChars mode) (fun _ _ _ _ _ => rfl)
    (fun x y hxy _ hx hy => ?_) (fun d e hd he hrel horder hd' he' => ?_)
    (fun items items' hrel horder hitems hitems' => ?_) ha hb h horder hza hzb
  · have hchars : FloatText.chars x = FloatText.chars y :=
      FloatText.chars_eq_of_beq hxy (fun hzero => hx ⟨x, hzero, .self⟩)
        fun hzero => hy ⟨y, hzero, .self⟩
    rw [literalChars, literalChars, FloatEquality.isFinite_eq hxy, Error.nonFiniteFloat,
      Error.nonFiniteFloat, FloatText.text, FloatText.text, hchars]
  · obtain ⟨hnames, hvalues⟩ := sameOrder_document_iff.1 horder
    have hat : ∀ name, (d.get? name).map (literalChars mode)
        = (e.get? name).map (literalChars mode) := by
      refine fun name => map_eq_of_rel (rel_mono (hrel name) fun v hv w hw hvw => ?_)
      have hvmem : (name, v) ∈ d.fields := (Fields.mem_iff_lookup_eq_some hd).2 hv
      have hwmem : (name, w) ∈ e.fields := (Fields.mem_iff_lookup_eq_some he).2 hw
      exact hvw (hvalues name v w hv hw) (fun hzero => hd' (.field hvmem hzero))
        fun hzero => he' (.field hwmem hzero)
    simp only [literalChars_document mode hd, literalChars_document mode he, hnames, hat]
  · have hmap : items.map (literalChars mode) = items'.map (literalChars mode) := by
      refine List.ext_getElem? fun i => ?_
      rw [List.getElem?_map, List.getElem?_map]
      refine map_eq_of_rel (rel_mono (hrel i) fun v hv w hw hvw => ?_)
      exact hvw (sameOrder_list_iff.1 horder i v w hv hw)
        (fun hzero => hitems (.item (List.mem_of_getElem? hv) hzero))
        fun hzero => hitems' (.item (List.mem_of_getElem? hw) hzero)
    rw [literalChars_list, literalChars_list, hmap]

/-- **Equality forgets nothing that a literal shows, except the order of fields and the sign of
zero.**  Let two values be equal, in which no document has two fields of the same name, as is so in
all that can be built.  Then either both have a literal or neither.  If besides documents in the
same place list their names in the same order and there is no negative zero in either value, then
both have the same literal, or writing them fails with the same error. -/
theorem equal_values_have_equal_literals {a b : Value} (ha : a.Distinct) (hb : b.Distinct)
    (h : (a == b) = true) (config : RenderConfig) :
    ((∃ text, a.literal config.quoteMode = .ok text) ↔
      ∃ text, b.literal config.quoteMode = .ok text) ∧
    (SameOrder a b → ¬ a.HasNegativeZero → ¬ b.HasNegativeZero →
      a.literal config.quoteMode = b.literal config.quoteMode) := by
  refine ⟨?_, fun horder hza hzb => ?_⟩
  · rw [(a.reports_literal _).exists_ok_iff, (b.reports_literal _).exists_ok_iff]
    exact faults_eq_nil_iff_of_beq ha hb h
  · rw [literal, literal, literalChars_eq_of_beq config.quoteMode ha hb h horder hza hzb]

/-- A document with its fields in another order and another sign of zero has another literal, and
a list with the same number computed in two ways has the same one. -/
theorem literals_of_equal_documents :
    let first := Value.document ⟨some "C", none, [("x", .float 0), ("y", .unsigned 7)]⟩
    let second := Value.document ⟨some "C", none, [("y", .unsigned 7), ("x", .float (-0))]⟩
    let written := Value.list [.document ⟨none, some ⟨1, 2⟩, [("z", .null)]⟩, .float 1.5]
    let computed := Value.list [.document ⟨none, some ⟨1, 2⟩, [("z", .null)]⟩, .float (3 / 2)]
    (first == second) = true ∧ first.literal .verbatim = .ok "(x = 0, y = 7)" ∧
      (∃ text, second.literal .verbatim = .ok text) ∧
      second.literal .verbatim ≠ first.literal .verbatim ∧
      (written == computed) = true ∧ written.literal .verbatim = computed.literal .verbatim := by
  intro first second written computed
  have hfloat : ∀ x, (Value.float x).Distinct := distinct_float
  have hatom : ∀ {v : Value}, v.IsAtom → v.Distinct := distinct_of_isAtom
  have hfirst : first.Distinct := by
    rw [distinct_document_iff, List.forall_mem_cons, List.forall_mem_singleton]
    exact ⟨by decide, hfloat 0, hatom trivial⟩
  have hsecond : second.Distinct := by
    rw [distinct_document_iff, List.forall_mem_cons, List.forall_mem_singleton]
    exact ⟨by decide, hatom trivial, hfloat (-0)⟩
  have hlist : ∀ x : Float,
      (Value.list [.document ⟨none, some ⟨1, 2⟩, [("z", .null)]⟩, .float x]).Distinct := by
    intro x
    rw [distinct_list_iff, List.forall_mem_cons, List.forall_mem_singleton, distinct_document_iff,
      List.forall_mem_singleton]
    exact ⟨⟨by decide, hatom trivial⟩, hfloat x⟩
  have hzero : ∀ x : Float, ¬ FloatText.IsNegativeZero x →
      ¬ (Value.list [.document ⟨none, some ⟨1, 2⟩, [("z", .null)]⟩, .float x]).HasNegativeZero := by
    rintro x hx ⟨y, hy, hpart⟩
    obtain ⟨v, hv, h⟩ := (part_list_iff.1 hpart).resolve_left nofun
    rcases List.mem_pair.1 hv with rfl | rfl
    · obtain ⟨entry, he, h⟩ := (part_document_iff.1 h).resolve_left nofun
      obtain rfl := List.mem_singleton.1 he
      cases h
    · cases h
      exact hx hy
  have horder : SameOrder written computed := by
    refine sameOrder_list_iff.2 fun i a b ha hb => ?_
    rcases i with _ | _ | i
    · cases ha
      cases hb
      exact .refl _
    · cases ha
      rintro d e ⟨⟩
    · cases ha
  have hequal : (first == second) = true := by decide
  have htext : first.literal .verbatim = .ok "(x = 0, y = 7)" := rfl
  have htext' : second.literal .verbatim = .ok "(y = 7, x = -0)" := rfl
  refine ⟨hequal, htext, ?_, ?_, by decide, ?_⟩
  · exact (equal_values_have_equal_literals hfirst hsecond hequal .default).1.1 ⟨_, htext⟩
  · rw [htext, htext']
    decide
  · exact (equal_values_have_equal_literals (hlist _) (hlist _) (by decide) .default).2 horder
      (hzero _ nofun) (hzero _ nofun)

end Value

end UpdateSql
