/-
**Documents and the steps that lead to them.**

A document is the outcome of steps: names are set, overwritten and removed, the class name and the
record id come and go, and now and then the whole is read anew from JSON.  Here the steps are data,
and the document is described by its history alone.  The value of a name is the one it was set to
last, unless it was removed since; and the names stand in the order in which they were set first,
where what was before a removal does not count.

Main definitions:

* `Document.Step`, `Document.perform`, `Document.ofSteps` — steps and what they lead to;
* `Document.history` — the steps that count, those since the document was last read from JSON;
* `Document.since`, `Document.lastSet`, `Document.firstSet` — the steps since a name was last
  removed, the value it was last set to among them, and the place where it was first set;
* `Document.Follows` — a document is as its history says.

Main results:

* `Document.Follows.snoc` — every step keeps a document as its history says;
* `Document.follows_ofSteps` — **a document is as its history says, whatever the steps**;
* `Document.fields_follow_history` — **names, values and their order, class name and record id**,
  and all the ways to look at them.
-/

import Mathlib.Data.List.DropRight
import Mathlib.Data.List.Induction
import UpdateSql.Proofs.Document.OfJson

set_option relaxedAutoImplicit false
set_option autoImplicit false

namespace UpdateSql.Document

/-! ### Steps -/

/-- A step that changes a document. -/
inductive Step where
  | withClass (name : String)
  | withRid (id : RecordId)
  | setClass (name : Option String)
  | setRid (id : Option RecordId)
  | set (name : String) (v : Value)
  | remove (name : String)
  /-- The document is read anew from JSON, if it can be. -/
  | ofJson (j : Json)

/-- The document after a step. -/
def perform (d : Document) : Step → Document
  | .withClass name => d.withClass name
  | .withRid id => d.withRid id
  | .setClass name => d.setClass name
  | .setRid id => d.setRid id
  | .set name v => d.set name v
  | .remove name => (d.remove name).2
  | .ofJson j =>
    match Document.ofJson j with
    | .ok next => next
    | .error _ => d

/-- The document after some steps. -/
def ofSteps (steps : List Step) : Document := steps.foldl perform empty

/-! ### Histories -/

/-- The step that a member of a JSON object stands for, if it can be taken. -/
def memberStep (member : String × Json) : Option Step :=
  if member.1 = classKey then
    match member.2 with
    | .string s => some (.withClass s)
    | _ => none
  else if member.1 = ridKey then
    match member.2 with
    | .string s => (RecordId.ofString s).toOption.map .withRid
    | _ => none
  else some (.set member.1 (.ofJson member.2))

/-- The steps that the members of a JSON object stand for, in their order. -/
def memberSteps : Json → List Step
  | .object members => members.filterMap memberStep
  | _ => []

/-- The history after a further step.  Reading the document from JSON starts it anew. -/
def record (past : List Step) : Step → List Step
  | .ofJson j =>
    match Document.ofJson j with
    | .ok _ => memberSteps j
    | .error _ => past
  | s => past ++ [s]

/-- The steps that count for the document after some steps. -/
def history (steps : List Step) : List Step := steps.foldl record []

namespace Step

/-- The value that a step sets a name to. -/
def value? (name : String) : Step → Option Value
  | .set n v => if n = name then some v else none
  | _ => none

/-- Whether a step removes a name. -/
def removes (name : String) : Step → Bool
  | .remove n => n == name
  | _ => false

/-- The class name that a step leaves, if it sets it. -/
def class? : Step → Option (Option String)
  | .withClass name => some (some name)
  | .setClass name => some name
  | _ => none

/-- The record id that a step leaves, if it sets it. -/
def rid? : Step → Option (Option RecordId)
  | .withRid id => some (some id)
  | .setRid id => some id
  | _ => none

/-- A step that sets or removes a name. -/
def IsField : Step → Prop
  | .set _ _ | .remove _ => True
  | _ => False

/-- A step that sets the class name or the record id. -/
def IsLabel : Step → Prop
  | .withClass _ | .withRid _ | .setClass _ | .setRid _ => True
  | _ => False

end Step

/-- The steps since a name was last removed. -/
def since (name : String) (past : List Step) : List Step := past.rtakeWhile fun s => !s.removes name

/-- The value that a name was last set to since its last removal. -/
def lastSet (name : String) (past : List Step) : Option Value :=
  ((since name past).filterMap (Step.value? name)).getLast?

/-- The place in the history where a name was first set since its last removal. -/
def firstSet (name : String) (past : List Step) : Nat :=
  past.length - (since name past).length
    + (since name past).findIdx fun s => (s.value? name).isSome

/-! ### One more step -/

section

variable {name : String} {past : List Step} {s : Step}

theorem since_snoc_of_removes (h : s.removes name = true) : since name (past ++ [s]) = [] :=
  List.rtakeWhile_concat_neg _ _ _ (by simp [h])

theorem since_snoc (h : s.removes name = false) :
    since name (past ++ [s]) = since name past ++ [s] :=
  List.rtakeWhile_concat_pos _ _ _ (by simp [h])

theorem length_since_le (name : String) (past : List Step) :
    (since name past).length ≤ past.length :=
  (List.rtakeWhile_suffix _ _).length_le

theorem lastSet_snoc_of_removes (h : s.removes name = true) :
    lastSet name (past ++ [s]) = none := by
  rw [lastSet, since_snoc_of_removes h]
  rfl

theorem lastSet_snoc (h : s.removes name = false) :
    lastSet name (past ++ [s]) = (s.value? name).or (lastSet name past) := by
  rw [lastSet, since_snoc h, List.filterMap_append, List.getLast?_append, lastSet]
  cases hs : s.value? name <;> simp [hs]

/-- A name has a value exactly if a step sets it since its last removal. -/
theorem lastSet_ne_none_iff : lastSet name past ≠ none ↔
    (since name past).findIdx (fun s => (s.value? name).isSome) < (since name past).length := by
  rw [lastSet, Ne, List.getLast?_eq_none_iff, List.filterMap_eq_nil_iff, List.findIdx_lt_length]
  simp [Option.isSome_iff_ne_none]

/-- A name that has a value was set somewhere in the history. -/
theorem firstSet_lt_length (h : lastSet name past ≠ none) : firstSet name past < past.length := by
  have hlt := lastSet_ne_none_iff.1 h
  have hle := length_since_le name past
  rw [firstSet]
  omega

/-- For a name that has a value, a step that does not remove it is too late to be the first to set
it. -/
theorem firstSet_snoc_of_ne_none (hs : s.removes name = false) (h : lastSet name past ≠ none) :
    firstSet name (past ++ [s]) = firstSet name past := by
  have hlt := lastSet_ne_none_iff.1 h
  rw [firstSet, firstSet, since_snoc hs, List.findIdx_append, if_pos hlt, List.length_append,
    List.length_append, List.length_singleton, Nat.add_sub_add_right]

/-- For a name that has no value, the step that sets it is the first to do so. -/
theorem firstSet_snoc_of_eq_none (hs : (s.value? name).isSome = true)
    (h : lastSet name past = none) : firstSet name (past ++ [s]) = past.length := by
  have hnot : ¬ (since name past).findIdx (fun s => (s.value? name).isSome)
      < (since name past).length := fun hlt => lastSet_ne_none_iff.2 hlt h
  have hkeep : s.removes name = false := by
    cases s with
    | set n v => rfl
    | _ => cases hs
  have hle := length_since_le name past
  rw [firstSet, since_snoc hkeep, List.findIdx_append, if_neg hnot, List.length_append,
    List.length_append, List.length_singleton, Nat.add_sub_add_right, List.findIdx_cons, hs,
    cond_true]
  omega

/-- Names that have values keep their order as long as none of them is removed. -/
theorem pairwise_firstSet_snoc {names : List String}
    (h : names.Pairwise fun m n => firstSet m past < firstSet n past)
    (hvalues : ∀ n ∈ names, lastSet n past ≠ none) (hkeep : ∀ n ∈ names, s.removes n = false) :
    names.Pairwise fun m n => firstSet m (past ++ [s]) < firstSet n (past ++ [s]) := by
  refine h.imp_of_mem fun {m n} hm hn hmn => ?_
  rwa [firstSet_snoc_of_ne_none (hkeep m hm) (hvalues m hm),
    firstSet_snoc_of_ne_none (hkeep n hn) (hvalues n hn)]

/-- What a history says last of something that steps may set, after one more step. -/
theorem join_getLast?_snoc {α : Type} {f : Step → Option (Option α)} :
    ((past ++ [s]).filterMap f).getLast?.join
      = (f s).getD (past.filterMap f).getLast?.join := by
  rw [List.filterMap_append, List.getLast?_append]
  cases hs : f s <;> simp [hs]

end

/-! ### Looking at fields and changing them -/

section

variable {d : Document}

theorem mem_names_iff_get?_ne_none {name : String} : name ∈ d.names ↔ d.get? name ≠ none := by
  rw [get?, Ne, Fields.lookup_eq_none_iff_not_mem, Classical.not_not]
  rfl

theorem contains_iff_mem_names {name : String} : d.contains name = true ↔ name ∈ d.names := by
  simp [contains, names]

/-- A name that is there keeps its place when it is set. -/
theorem names_set_of_mem {name : String} (h : name ∈ d.names) (v : Value) :
    (d.set name v).names = d.names :=
  Fields.map_fst_set_of_mem h v

/-- The other names keep their order when one is removed. -/
theorem names_remove (d : Document) (name : String) :
    (d.remove name).2.names = d.names.erase name :=
  Fields.map_fst_snd_remove name d.fields

/-- A name that is removed and set again comes last. -/
theorem fields_set_remove (h : d.names.Nodup) (name : String) (v : Value) :
    ((d.remove name).2.set name v).fields = (d.remove name).2.fields ++ [(name, v)] := by
  refine Fields.set_of_not_mem (?_ : name ∉ (d.remove name).2.names) v
  rw [names_remove]
  exact h.not_mem_erase

end

/-! ### Documents that are as their history says -/

/-- A document is as a history says: each name has the value it was last set to, the names stand in
the order in which they were first set, and class name and record id are the ones set last. -/
structure Follows (d : Document) (past : List Step) : Prop where
  values : ∀ name, d.get? name = lastSet name past
  order : d.names.Pairwise fun m n => firstSet m past < firstSet n past
  className : d.className = (past.filterMap Step.class?).getLast?.join
  rid : d.rid = (past.filterMap Step.rid?).getLast?.join

namespace Follows

variable {d : Document} {past : List Step}

theorem nil : empty.Follows [] := ⟨fun _ => rfl, .nil, rfl, rfl⟩

/-- The names of a document are distinct, because the places where they were first set are. -/
theorem nodup (h : d.Follows past) : d.names.Nodup :=
  h.order.imp fun hlt heq => absurd (heq ▸ hlt) (Nat.lt_irrefl _)

/-- The names of a document are the ones that have values. -/
theorem mem_names_iff (h : d.Follows past) {name : String} :
    name ∈ d.names ↔ lastSet name past ≠ none := by
  rw [← h.values, mem_names_iff_get?_ne_none]

/-- The names keep their order when a step removes none of them. -/
theorem order_snoc (h : d.Follows past) {s : Step} (hs : ∀ name, s.removes name = false) :
    d.names.Pairwise fun m n => firstSet m (past ++ [s]) < firstSet n (past ++ [s]) :=
  pairwise_firstSet_snoc h.order (fun _ hn => h.mem_names_iff.1 hn) fun n _ => hs n

end Follows

/-! ### What a step keeps -/

section

variable {d : Document} {past : List Step}

/-- A step leaves the class name it sets, or else the one there was. -/
theorem className_perform (d : Document) {s : Step} (hs : s.IsField ∨ s.IsLabel) :
    (d.perform s).className = s.class?.getD d.className := by
  cases s with
  | ofJson j => exact hs.elim False.elim False.elim
  | _ => rfl

/-- A step leaves the record id it sets, or else the one there was. -/
theorem rid_perform (d : Document) {s : Step} (hs : s.IsField ∨ s.IsLabel) :
    (d.perform s).rid = s.rid?.getD d.rid := by
  cases s with
  | ofJson j => exact hs.elim False.elim False.elim
  | _ => rfl

/-- A step that sets the class name or the record id is no step for any name, and leaves the
fields. -/
theorem Step.IsLabel.facts {s : Step} (hs : s.IsLabel) (d : Document) :
    (d.perform s).fields = d.fields ∧ (∀ name, s.value? name = none) ∧
      ∀ name, s.removes name = false := by
  cases s with
  | set name v => cases hs
  | remove name => cases hs
  | ofJson j => cases hs
  | _ => exact ⟨rfl, fun _ => rfl, fun _ => rfl⟩

/-- Class name and record id are none of the names' business. -/
theorem Follows.values_label (h : d.Follows past) {s : Step} (hs : s.IsLabel) (name : String) :
    (d.perform s).get? name = lastSet name (past ++ [s]) := by
  obtain ⟨hfields, hvalue, hkeep⟩ := hs.facts d
  rw [get?, hfields, lastSet_snoc (hkeep name), hvalue name, Option.none_or]
  exact h.values name

theorem Follows.order_label (h : d.Follows past) {s : Step} (hs : s.IsLabel) :
    (d.perform s).names.Pairwise fun m n =>
      firstSet m (past ++ [s]) < firstSet n (past ++ [s]) := by
  obtain ⟨hfields, -, hkeep⟩ := hs.facts d
  rw [names, hfields]
  exact h.order_snoc hkeep

/-- A name that is set has that value, and the others have the values they had. -/
theorem Follows.values_set (h : d.Follows past) (n : String) (v : Value) (name : String) :
    (d.set n v).get? name = lastSet name (past ++ [.set n v]) := by
  rw [lastSet_snoc rfl, ← h.values, Step.value?]
  by_cases hn : n = name
  · rw [if_pos hn, hn, Option.some_or]
    exact Fields.lookup_set_self name v d.fields
  · rw [if_neg hn, Option.none_or]
    exact Fields.lookup_set_of_ne (Ne.symm hn) v d.fields

/-- A name that is set keeps its place, or comes last if it had none. -/
theorem Follows.order_set (h : d.Follows past) (n : String) (v : Value) :
    (d.set n v).names.Pairwise fun m m' =>
      firstSet m (past ++ [.set n v]) < firstSet m' (past ++ [.set n v]) := by
  have hold := h.order_snoc (s := .set n v) fun _ => rfl
  by_cases hn : n ∈ d.names
  · rw [names_set_of_mem hn]
    exact hold
  · have hnone : lastSet n past = none := by
      rwa [h.mem_names_iff, Ne, Classical.not_not] at hn
    rw [names, set, Fields.set_of_not_mem hn, List.map_append, List.pairwise_append]
    refine ⟨hold, List.pairwise_singleton _ _, fun m hm m' hm' => ?_⟩
    -- the new name is first set by this step, all others were set before
    obtain rfl : m' = n := List.mem_singleton.1 hm'
    have hvalue := h.mem_names_iff.1 hm
    rw [firstSet_snoc_of_eq_none (by simp [Step.value?]) hnone,
      firstSet_snoc_of_ne_none rfl hvalue]
    exact firstSet_lt_length hvalue

/-- A name that is removed has no value, and the others have the values they had. -/
theorem Follows.values_remove (h : d.Follows past) (n name : String) :
    (d.remove n).2.get? name = lastSet name (past ++ [.remove n]) := by
  by_cases hn : n = name
  · have hgone : name ∉ (d.remove n).2.names := by
      rw [names_remove, hn]
      exact h.nodup.not_mem_erase
    rw [mem_names_iff_get?_ne_none, Ne, Classical.not_not] at hgone
    rw [hgone, lastSet_snoc_of_removes (by simp [Step.removes, hn])]
  · rw [lastSet_snoc (by simp [Step.removes, hn]), ← h.values]
    exact Fields.lookup_snd_remove_of_ne (Ne.symm hn) d.fields

/-- When a name is removed, the others keep their order. -/
theorem Follows.order_remove (h : d.Follows past) (n : String) :
    (d.remove n).2.names.Pairwise fun m m' =>
      firstSet m (past ++ [.remove n]) < firstSet m' (past ++ [.remove n]) := by
  have hmem : ∀ m ∈ d.names.erase n, m ≠ n ∧ m ∈ d.names := fun m => h.nodup.mem_erase_iff.1
  rw [names_remove]
  refine pairwise_firstSet_snoc (h.order.erase n) (fun m hm => ?_) fun m hm => ?_
  · exact h.mem_names_iff.1 (hmem m hm).2
  · exact beq_false_of_ne (Ne.symm (hmem m hm).1)

/-- **Every step keeps a document as its history says.** -/
theorem Follows.snoc (h : d.Follows past) {s : Step} (hs : s.IsField ∨ s.IsLabel) :
    (d.perform s).Follows (past ++ [s]) where
  values name := by
    cases s with
    | set n v => exact h.values_set n v name
    | remove n => exact h.values_remove n name
    | ofJson j => exact hs.elim False.elim False.elim
    | _ => exact h.values_label (hs.resolve_left id) name
  order := by
    cases s with
    | set n v => exact h.order_set n v
    | remove n => exact h.order_remove n
    | ofJson j => exact hs.elim False.elim False.elim
    | _ => exact h.order_label (hs.resolve_left id)
  className := by rw [className_perform d hs, h.className, join_getLast?_snoc]
  rid := by rw [rid_perform d hs, h.rid, join_getLast?_snoc]

/-! ### Members of JSON objects as steps -/

/-- A member that is taken into a document is a step of it. -/
theorem exists_memberStep {next : Document} {name : String} {j : Json}
    (h : d.addMember name j = .ok next) :
    ∃ s, memberStep (name, j) = some s ∧ (s.IsField ∨ s.IsLabel) ∧ next = d.perform s := by
  rcases addMember_eq_ok_iff.1 h with
    ⟨rfl, s, rfl, rfl⟩ | ⟨rfl, s, id, rfl, hid, rfl⟩ | ⟨hname, rfl⟩
  · exact ⟨.withClass s, if_pos rfl, .inr trivial, rfl⟩
  · have hkey : ridKey ≠ classKey := by decide
    have hstep : memberStep (ridKey, .string s) = (RecordId.ofString s).toOption.map .withRid :=
      (if_neg hkey).trans (if_pos rfl)
    exact ⟨.withRid id, hstep.trans (by rw [hid]; rfl), .inr trivial, rfl⟩
  · simp only [isReserved, Bool.or_eq_false_iff, beq_eq_false_iff_ne] at hname
    refine ⟨.set name (.ofJson j), ?_, .inl trivial, rfl⟩
    rw [memberStep, if_neg hname.1, if_neg hname.2]

/-- Members that are taken one after the other are further history. -/
theorem Follows.addMembers {next : Document} {members : List (String × Json)}
    (h : d.Follows past) (hnext : d.addMembers members = .ok next) :
    next.Follows (past ++ members.filterMap memberStep) := by
  induction members generalizing d past with
  | nil =>
      cases hnext
      rwa [List.filterMap_nil, List.append_nil]
  | cons first rest ih =>
      obtain ⟨d', hfirst, hrest⟩ := Outcome.bind_eq_ok_iff.1 hnext
      obtain ⟨s, hs, hkind, rfl⟩ := exists_memberStep hfirst
      rw [List.filterMap_cons, hs, List.append_cons]
      exact ih (h.snoc hkind) hrest

/-- A document that is read from JSON has the members of the object as its history. -/
theorem follows_memberSteps {j : Json} (h : Document.ofJson j = .ok d) :
    d.Follows (memberSteps j) := by
  cases j with
  | object members => exact Follows.nil.addMembers h
  | _ => cases h

/-! ### Any steps -/

theorem Follows.perform (h : d.Follows past) (s : Step) :
    (d.perform s).Follows (record past s) := by
  cases s with
  | ofJson j =>
      rw [Document.perform, record]
      split
      · next hnext => exact follows_memberSteps hnext
      · exact h
  | set n v => exact h.snoc (.inl trivial)
  | remove n => exact h.snoc (.inl trivial)
  | withClass n => exact h.snoc (.inr trivial)
  | withRid id => exact h.snoc (.inr trivial)
  | setClass n => exact h.snoc (.inr trivial)
  | setRid id => exact h.snoc (.inr trivial)

end

/-- **A document is as its history says**, whatever the steps. -/
theorem follows_ofSteps (steps : List Step) : (ofSteps steps).Follows (history steps) := by
  induction steps using List.reverseRecOn with
  | nil => exact .nil
  | append_singleton steps s ih =>
      rw [ofSteps, history, List.foldl_concat, List.foldl_concat]
      exact ih.perform s

/-! ### Names, values and their order -/

/-- **A document and its history.**  Whatever the steps that lead to a document, its names are
distinct and stand in the order in which they were first set since their last removal; each has the
value it was last set to, and class name and record id are the ones set last.  All the ways to look
at the fields agree: what is found under a name is what is listed with it and what removing the name
gives back.  Setting a name that is there keeps the names and their order, removing one takes only
that out, and setting it again puts it last.  Fields on one side, class name and record id on the
other do not touch each other. -/
theorem fields_follow_history {steps : List Step} {d : Document} (h : ofSteps steps = d) :
    (d.names.Nodup ∧ (∀ name, d.get? name = lastSet name (history steps)) ∧
      (d.names.Pairwise fun m n => firstSet m (history steps) < firstSet n (history steps)) ∧
      d.className = ((history steps).filterMap Step.class?).getLast?.join ∧
      d.rid = ((history steps).filterMap Step.rid?).getLast?.join) ∧
    (d.fields.map Prod.fst = d.names ∧ (∀ name, name ∈ d.names ↔ d.get? name ≠ none) ∧
      (∀ name v, (name, v) ∈ d.fields ↔ d.get? name = some v) ∧
      (∀ name, d.contains name = true ↔ name ∈ d.names) ∧ d.size = d.names.length ∧
      (d.isEmpty = true ↔ d.names = []) ∧ ∀ name, (d.remove name).1 = d.get? name) ∧
    ((∀ name v, name ∈ d.names → (d.set name v).names = d.names) ∧
      (∀ name, (d.remove name).2.names = d.names.erase name) ∧
      ∀ name v, ((d.remove name).2.set name v).fields = (d.remove name).2.fields ++ [(name, v)]) ∧
    (∀ s : Step, s.IsField → (d.perform s).className = d.className ∧ (d.perform s).rid = d.rid) ∧
    ∀ s : Step, s.IsLabel → (d.perform s).fields = d.fields := by
  have hd : d.Follows (history steps) := h ▸ follows_ofSteps steps
  refine ⟨⟨hd.nodup, hd.values, hd.order, hd.className, hd.rid⟩, ⟨rfl, ?_, ?_, ?_, ?_, ?_, ?_⟩,
    ⟨?_, ?_, ?_⟩, ?_, ?_⟩
  · exact fun _ => mem_names_iff_get?_ne_none
  · exact fun _ _ => Fields.mem_iff_lookup_eq_some hd.nodup
  · exact fun _ => contains_iff_mem_names
  · exact (List.length_map _).symm
  · simp [isEmpty, names]
  · exact fun name => Fields.fst_remove name d.fields
  · exact fun _ v hname => names_set_of_mem hname v
  · exact names_remove d
  · exact fields_set_remove hd.nodup
  · intro s hs
    cases s with
    | set n v => exact ⟨rfl, rfl⟩
    | remove n => exact ⟨rfl, rfl⟩
    | _ => cases hs
  · exact fun s hs => (hs.facts d).1

/-- Of two names that are read from JSON, the first is removed and set again. -/
theorem fields_of_name_set_again :
    let steps := [.ofJson (.object [("b", .null), (classKey, .string "C"), ("a", .null)]),
      .remove "b", .set "a" (.bool true), .set "b" .null]
    let d : Document := ⟨some "C", none, [("a", .bool true), ("b", .null)]⟩
    ofSteps steps = d ∧ lastSet "a" (history steps) = some (.bool true) ∧
      firstSet "a" (history steps) < firstSet "b" (history steps) ∧
      (d.set "a" .null).names = ["a", "b"] ∧
      ((d.remove "a").2.set "a" .null).fields = [("b", .null), ("a", .null)] := by
  intro steps d
  have hd : ofSteps steps = d := rfl
  obtain ⟨⟨-, hvalues, horder, -⟩, -, ⟨hkeep, -, hlast⟩, -⟩ := fields_follow_history hd
  refine ⟨hd, (hvalues "a").symm, ?_, hkeep "a" .null (by decide), hlast "a" .null⟩
  exact List.rel_of_pairwise_cons horder (by decide)

end UpdateSql.Document
