/-
**Ordered fields.**

A list of named entries in which a name occurs once, kept in the order in which the names first
came.

Main definitions:

* `Fields.set` — replaces the entry of a name where it stands, or adds one at the end;
* `Fields.ofPairs` — sets the entries of a list one after the other;
* `Fields.remove` — takes the entry of a name out, the others keep their order.

An entry is looked up with `List.lookup`.
-/

set_option relaxedAutoImplicit false
set_option autoImplicit false

namespace UpdateSql.Fields

universe u

variable {α : Type u}

/-- Replaces the entry of a name where it stands, or adds one at the end. -/
def set (name : String) (a : α) : List (String × α) → List (String × α)
  | [] => [(name, a)]
  | entry :: rest => if entry.1 = name then (name, a) :: rest else entry :: set name a rest

/-- Sets the entries of a list one after the other. -/
def ofPairs (pairs : List (String × α)) : List (String × α) :=
  pairs.foldl (fun fields entry => set entry.1 entry.2 fields) []

/-- Takes the entry of a name out: its content, if it was there, and the other entries. -/
def remove (name : String) : List (String × α) → Option α × List (String × α)
  | [] => (none, [])
  | entry :: rest =>
    if entry.1 = name then (some entry.2, rest)
    else ((remove name rest).1, entry :: (remove name rest).2)

/-! ### Looking up after a change -/

@[simp] theorem set_nil (name : String) (a : α) : set name a [] = [(name, a)] := rfl

theorem set_cons (name : String) (a : α) (entry : String × α) (rest : List (String × α)) :
    set name a (entry :: rest)
      = if entry.1 = name then (name, a) :: rest else entry :: set name a rest := rfl

/-- A name that was set has the value it was set to. -/
@[simp] theorem lookup_set_self (name : String) (a : α) (fields : List (String × α)) :
    (set name a fields).lookup name = some a := by
  induction fields with
  | nil => simp
  | cons entry rest ih =>
      rw [set_cons]
      split
      · simp
      · next h => rw [List.lookup_cons, beq_false_of_ne (Ne.symm h), ih]

/-- Setting a name leaves the values of the others alone. -/
theorem lookup_set_of_ne {m name : String} (h : m ≠ name) (a : α) (fields : List (String × α)) :
    (set name a fields).lookup m = fields.lookup m := by
  induction fields with
  | nil => rw [set_nil, List.lookup_cons, beq_false_of_ne h]
  | cons entry rest ih =>
      rw [set_cons]
      split
      · next he => rw [List.lookup_cons, List.lookup_cons, he, beq_false_of_ne h]
      · rw [List.lookup_cons, List.lookup_cons, ih]

/-! ### Names and their order -/

/-- Setting a name that is there leaves the names and their order. -/
theorem map_fst_set_of_mem {name : String} {fields : List (String × α)}
    (h : name ∈ fields.map Prod.fst) (a : α) :
    (set name a fields).map Prod.fst = fields.map Prod.fst := by
  induction fields with
  | nil => simp at h
  | cons entry rest ih =>
      rw [set_cons]
      split
      · next he => simp [he]
      · next he =>
          have hmem : name ∈ rest.map Prod.fst := by
            rcases List.mem_cons.1 h with hh | hh
            · exact absurd hh.symm he
            · exact hh
          simp [ih hmem]

/-- Setting a name that is not there adds it at the end. -/
theorem set_of_not_mem {name : String} {fields : List (String × α)}
    (h : name ∉ fields.map Prod.fst) (a : α) : set name a fields = fields ++ [(name, a)] := by
  induction fields with
  | nil => rfl
  | cons entry rest ih =>
      simp only [List.map_cons, List.mem_cons, not_or] at h
      rw [set_cons, if_neg (Ne.symm h.1), ih h.2, List.cons_append]

/-- The names stay distinct. -/
theorem nodup_set {fields : List (String × α)} (h : (fields.map Prod.fst).Nodup) (name : String)
    (a : α) : ((set name a fields).map Prod.fst).Nodup := by
  by_cases hmem : name ∈ fields.map Prod.fst
  · rw [map_fst_set_of_mem hmem]
    exact h
  · rw [set_of_not_mem hmem, List.map_append, List.nodup_append]
    refine ⟨h, by simp, ?_⟩
    intro m hm n hn heq
    rw [List.map_cons, List.map_nil, List.mem_singleton] at hn
    rw [heq, hn] at hm
    exact hmem hm

/-! ### Setting many -/

theorem nodup_foldl_set (pairs fields : List (String × α)) (h : (fields.map Prod.fst).Nodup) :
    ((pairs.foldl (fun fields entry => set entry.1 entry.2 fields) fields).map Prod.fst).Nodup := by
  induction pairs generalizing fields with
  | nil => exact h
  | cons entry rest ih => exact ih _ (nodup_set h _ _)

/-- Fields made of any pairs have distinct names. -/
theorem nodup_ofPairs (pairs : List (String × α)) : ((ofPairs pairs).map Prod.fst).Nodup :=
  nodup_foldl_set pairs [] (by simp)

theorem foldl_set_of_nodup (pairs fields : List (String × α))
    (h : ((fields ++ pairs).map Prod.fst).Nodup) :
    pairs.foldl (fun fields entry => set entry.1 entry.2 fields) fields = fields ++ pairs := by
  induction pairs generalizing fields with
  | nil => simp
  | cons entry rest ih =>
      have hnot : entry.1 ∉ fields.map Prod.fst := by
        intro hmem
        rw [List.map_append, List.nodup_append] at h
        exact h.2.2 _ hmem _ (by simp) rfl
      rw [List.foldl_cons, set_of_not_mem hnot, ih _ (by simpa using h)]
      simp

/-- Pairs with distinct names are fields as they are. -/
theorem ofPairs_of_nodup {pairs : List (String × α)} (h : (pairs.map Prod.fst).Nodup) :
    ofPairs pairs = pairs :=
  foldl_set_of_nodup pairs [] h

/-! ### What is there -/

/-- After setting a name there is its new entry, and nothing else that was not there before. -/
theorem eq_or_mem_of_mem_set {name : String} {a : α} {entry : String × α}
    {fields : List (String × α)} (h : entry ∈ set name a fields) :
    entry = (name, a) ∨ entry ∈ fields := by
  induction fields with
  | nil => exact .inl (List.mem_singleton.1 h)
  | cons first rest ih =>
      rw [set_cons] at h
      split at h
      · rcases List.mem_cons.1 h with h | h
        · exact .inl h
        · exact .inr (List.mem_cons_of_mem first h)
      · rcases List.mem_cons.1 h with h | h
        · exact .inr (h ▸ List.mem_cons_self)
        · exact (ih h).imp_right (List.mem_cons_of_mem first)

theorem mem_or_mem_of_mem_foldl_set {entry : String × α} {pairs fields : List (String × α)}
    (h : entry ∈ pairs.foldl (fun fields entry => set entry.1 entry.2 fields) fields) :
    entry ∈ pairs ∨ entry ∈ fields := by
  induction pairs generalizing fields with
  | nil => exact .inr h
  | cons first rest ih =>
      rcases ih h with h | h
      · exact .inl (List.mem_cons_of_mem first h)
      · rcases eq_or_mem_of_mem_set h with h | h
        · exact .inl (h ▸ List.mem_cons_self)
        · exact .inr h

/-- Fields made of pairs are some of the pairs. -/
theorem mem_of_mem_ofPairs {entry : String × α} {pairs : List (String × α)}
    (h : entry ∈ ofPairs pairs) : entry ∈ pairs :=
  (mem_or_mem_of_mem_foldl_set h).resolve_right List.not_mem_nil

/-! ### Keeping some names -/

/-- Of the names that are kept, setting one sets it there; setting another one shows nothing. -/
theorem filter_set (keep : String → Bool) (name : String) (a : α) (fields : List (String × α)) :
    (set name a fields).filter (fun entry => keep entry.1)
      = if keep name then set name a (fields.filter fun entry => keep entry.1)
        else fields.filter fun entry => keep entry.1 := by
  induction fields with
  | nil => simp [List.filter_cons]
  | cons entry rest ih =>
      rw [set_cons, List.filter_cons]
      by_cases he : entry.1 = name
      · rw [if_pos he, List.filter_cons, he]
        split
        · rw [set_cons, if_pos he]
        · rfl
      · rw [if_neg he, List.filter_cons, ih]
        by_cases hk : keep entry.1
        · rw [if_pos hk, if_pos hk, set_cons, if_neg he]
          split <;> rfl
        · rw [if_neg hk, if_neg hk]

/-! ### Taking one out -/

/-- What is taken out is what was found under the name. -/
theorem fst_remove (name : String) (fields : List (String × α)) :
    (remove name fields).1 = fields.lookup name := by
  induction fields with
  | nil => rfl
  | cons entry rest ih =>
      rw [remove, List.lookup_cons]
      split
      · next h => simp [h]
      · next h => rw [beq_false_of_ne (Ne.symm h), ih]

/-- What is left is all but the first entry of the name. -/
theorem snd_remove (name : String) (fields : List (String × α)) :
    (remove name fields).2 = fields.eraseP fun entry => entry.1 == name := by
  induction fields with
  | nil => rfl
  | cons entry rest ih =>
      rw [remove, List.eraseP_cons]
      split
      · next h => simp [h]
      · next h => rw [beq_false_of_ne h, ih, cond_false]

/-- Taking a name out leaves the values of the others alone. -/
theorem lookup_snd_remove_of_ne {m name : String} (h : m ≠ name) (fields : List (String × α)) :
    (remove name fields).2.lookup m = fields.lookup m := by
  induction fields with
  | nil => rfl
  | cons entry rest ih =>
      rw [remove]
      split
      · next he => rw [List.lookup_cons, he, beq_false_of_ne h]
      · rw [List.lookup_cons, List.lookup_cons, ih]

/-- The names that are left keep their order. -/
theorem map_fst_snd_remove (name : String) (fields : List (String × α)) :
    (remove name fields).2.map Prod.fst = (fields.map Prod.fst).erase name := by
  induction fields with
  | nil => rfl
  | cons entry rest ih =>
      rw [remove, List.map_cons, List.erase_cons]
      split
      · next h => simp [h]
      · next h => simp [h, ih]

/-! ### Names and values -/

/-- A name that is not there has no value. -/
theorem lookup_eq_none_iff_not_mem {name : String} {fields : List (String × α)} :
    fields.lookup name = none ↔ name ∉ fields.map Prod.fst := by
  rw [List.lookup_eq_none_iff]
  simp only [List.mem_map, not_exists, not_and, bne_iff_ne]
  constructor
  · exact fun h entry he hname => h entry he hname.symm
  · exact fun h entry he hname => h entry he hname.symm

/-- With distinct names, the entries are the names with their values. -/
theorem mem_iff_lookup_eq_some {fields : List (String × α)} (h : (fields.map Prod.fst).Nodup)
    {name : String} {a : α} : (name, a) ∈ fields ↔ fields.lookup name = some a := by
  induction fields with
  | nil => simp
  | cons entry rest ih =>
      rw [List.map_cons, List.nodup_cons] at h
      rw [List.mem_cons, List.lookup_cons, ih h.2]
      by_cases hname : name = entry.1
      · have hrest : rest.lookup name = none := lookup_eq_none_iff_not_mem.2 (hname ▸ h.1)
        simp [hname ▸ hrest, Prod.ext_iff, hname, eq_comm]
      · simp [beq_false_of_ne hname, Prod.ext_iff, hname]

end UpdateSql.Fields
