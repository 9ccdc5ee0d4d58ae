/-
**Outcomes of computations that may fail.**

A computation in `Except` gives a result or reports one fault.  Two questions are asked of it: what
its parts gave if it gave a result, and which fault it reports if there are several.  The second is
answered by comparing it with the list of *all* faults of its input in reading order, which is
gathered without ever stopping: the computation should report the head of that list.  Where the same
is computed in two ways, one asks whether both end with the same fault, and how their results are
related if not.

Main definitions:

* `Outcome.Reports` — a computation fails exactly when a list of faults is not empty, and reports
  the first of them;
* `Outcome.Parallel` — two computations fail with the same fault, or give results that are related.

Main results:

* `Outcome.bind_eq_ok_iff`, `Outcome.map_eq_ok_iff` — the results of the parts;
* `Outcome.eq_map_of_mapM_eq_ok`, `Outcome.exists_of_mapM_eq_ok` — the results along a list;
* `Outcome.Reports.bind`, `Outcome.Reports.mapM` — **faults add up**: of two computations in a row
  the faults of the first come first, and along a list they come in the order of the list;
* `Outcome.Parallel.bind` — what goes on in parallel ends in parallel.
-/

set_option relaxedAutoImplicit false
set_option autoImplicit false

namespace UpdateSql.Outcome

universe u v

variable {ε α β : Type u}

/-! ### Results -/

/-- Two computations in a row give a result if both do. -/
theorem bind_eq_ok_iff {x : Except ε α} {f : α → Except ε β} {b : β} :
    (x >>= f) = .ok b ↔ ∃ a, x = .ok a ∧ f a = .ok b := by
  constructor
  · intro h
    cases x with
    | error e => cases h
    | ok a => exact ⟨a, rfl, h⟩
  · rintro ⟨a, rfl, h⟩
    exact h

/-- Changing the result does not change whether there is one. -/
theorem map_eq_ok_iff {x : Except ε α} {f : α → β} {b : β} :
    x.map f = .ok b ↔ ∃ a, x = .ok a ∧ f a = b := by
  constructor
  · intro h
    cases x with
    | error e => cases h
    | ok a =>
        cases h
        exact ⟨a, rfl, rfl⟩
  · rintro ⟨a, rfl, rfl⟩
    rfl

/-- Of two computations in a row the first fails, or it gives a result with which the second
fails. -/
theorem bind_eq_error_iff {x : Except ε α} {f : α → Except ε β} {e : ε} :
    (x >>= f) = .error e ↔ x = .error e ∨ ∃ a, x = .ok a ∧ f a = .error e := by
  cases x with
  | error e' =>
      constructor
      · intro h
        cases h
        exact .inl rfl
      · rintro (h | ⟨a, h, -⟩)
        · cases h
          rfl
        · cases h
  | ok a =>
      constructor
      · intro h
        exact .inr ⟨a, rfl, h⟩
      · rintro (h | ⟨_, ⟨⟩, h⟩)
        · cases h
        · exact h

/-- Changing the result does not change the fault. -/
theorem map_eq_error_iff {x : Except ε α} {f : α → β} {e : ε} :
    x.map f = .error e ↔ x = .error e := by
  cases x with
  | error e' => simp [Except.map]
  | ok a => simp [Except.map]

/-- A change that keeps results apart keeps computations apart. -/
theorem map_eq_map_iff {x y : Except ε α} {f : α → β} (hf : ∀ a b, f a = f b → a = b) :
    x.map f = y.map f ↔ x = y := by
  refine ⟨fun h => ?_, fun h => by rw [h]⟩
  cases x with
  | error e =>
      cases y with
      | error e' => simpa [Except.map] using h
      | ok b => simp [Except.map] at h
  | ok a =>
      cases y with
      | error e' => simp [Except.map] at h
      | ok b =>
          rw [Except.map, Except.map, Except.ok.injEq] at h
          rw [hf a b h]

/-- A list has results if its head and its tail have. -/
theorem mapM_cons_eq_ok_iff {γ : Type v} {f : γ → Except ε α} {c : γ} {l : List γ}
    {results : List α} : (c :: l).mapM f = .ok results ↔
      ∃ a as, f c = .ok a ∧ l.mapM f = .ok as ∧ results = a :: as := by
  rw [List.mapM_cons, bind_eq_ok_iff]
  constructor
  · rintro ⟨a, ha, h⟩
    obtain ⟨as, has, h⟩ := bind_eq_ok_iff.1 h
    cases h
    exact ⟨a, as, ha, has, rfl⟩
  · rintro ⟨a, as, ha, has, rfl⟩
    exact ⟨a, ha, bind_eq_ok_iff.2 ⟨as, has, rfl⟩⟩

/-- Computations that are the same at every member are the same along a list. -/
theorem mapM_congr {γ : Type v} {f g : γ → Except ε α} {l : List γ} (h : ∀ c ∈ l, f c = g c) :
    l.mapM f = l.mapM g := by
  induction l with
  | nil => rfl
  | cons c l ih =>
      rw [List.mapM_cons, List.mapM_cons, h c List.mem_cons_self,
        ih fun d hd => h d (List.mem_cons_of_mem c hd)]

/-- If the results along a list are known one by one, they are known together. -/
theorem eq_map_of_mapM_eq_ok {γ : Type v} {f : γ → Except ε α} {g : γ → α} {l : List γ}
    {results : List α} (h : l.mapM f = .ok results) (hg : ∀ c ∈ l, ∀ a, f c = .ok a → a = g c) :
    results = l.map g := by
  induction l generalizing results with
  | nil =>
      cases h
      rfl
  | cons c l ih =>
      obtain ⟨a, as, ha, has, rfl⟩ := mapM_cons_eq_ok_iff.1 h
      have hhead : a = g c := hg c (by simp) a ha
      have htail : as = l.map g := ih has fun d hd => hg d (by simp [hd])
      rw [List.map_cons, hhead, htail]

/-- If there are results along a list, there is one at every member. -/
theorem exists_of_mapM_eq_ok {γ : Type v} {f : γ → Except ε α} {l : List γ} {results : List α}
    (h : l.mapM f = .ok results) {c : γ} (hc : c ∈ l) : ∃ a, f c = .ok a := by
  induction l generalizing results with
  | nil => simp at hc
  | cons d l ih =>
      obtain ⟨a, as, ha, has, rfl⟩ := mapM_cons_eq_ok_iff.1 h
      rcases List.mem_cons.1 hc with rfl | hc
      · exact ⟨a, ha⟩
      · exact ih has hc

/-- If there are results along a list and they are known, each member has its own. -/
theorem eq_ok_of_mapM_eq_ok {γ : Type v} {f : γ → Except ε α} {g : γ → α} {l : List γ}
    {results : List α} (h : l.mapM f = .ok results) (hg : ∀ c ∈ l, ∀ a, f c = .ok a → a = g c)
    {c : γ} (hc : c ∈ l) : f c = .ok (g c) := by
  obtain ⟨a, ha⟩ := exists_of_mapM_eq_ok h hc
  rw [ha, hg c hc a ha]

/-- A computation fails exactly when there are faults, and reports the first of them. -/
def Reports (x : Except ε α) (faults : List ε) : Prop :=
  ∀ e, x = .error e ↔ faults.head? = some e

namespace Reports

/-- A result leaves nothing to report. -/
theorem ok (a : α) : Reports (.ok a : Except ε α) [] := by
  intro e
  simp

/-- A fault is reported whatever comes after it. -/
theorem error (e : ε) (later : List ε) : Reports (.error e : Except ε α) (e :: later) := by
  intro e'
  simp

/-- Without faults there is a result. -/
theorem exists_ok_iff {x : Except ε α} {faults : List ε} (h : Reports x faults) :
    (∃ a, x = .ok a) ↔ faults = [] := by
  cases x with
  | error e =>
      have hhead : faults.head? = some e := (h e).1 rfl
      cases faults with
      | nil => simp at hhead
      | cons e' later => simp
  | ok a =>
      cases faults with
      | nil => simp
      | cons e later =>
          have hfail := (h e).2 rfl
          cases hfail

/-- With faults there is no result. -/
theorem exists_error_iff {x : Except ε α} {faults : List ε} (h : Reports x faults) :
    (∃ e, x = .error e) ↔ faults ≠ [] := by
  rw [ne_eq, ← h.exists_ok_iff]
  cases x <;> simp

/-- What a computation reports is determined. -/
theorem head?_eq {x : Except ε α} {faults faults' : List ε} (h : Reports x faults)
    (h' : Reports x faults') : faults.head? = faults'.head? := by
  refine Option.ext fun e => ?_
  rw [← h e, ← h' e]

/-- Computations that fail are the same exactly if they report the same. -/
theorem eq_iff {x y : Except ε α} {faults faults' : List ε} (h : Reports x faults)
    (h' : Reports y faults') (hne : faults ≠ []) : x = y ↔ faults.head? = faults'.head? := by
  refine ⟨fun heq => h.head?_eq (heq ▸ h'), fun heq => ?_⟩
  obtain ⟨e, he⟩ := h.exists_error_iff.2 hne
  rw [he, (h' e).2 (heq ▸ (h e).1 he)]

/-- Changing the result does not change what is reported. -/
theorem map {x : Except ε α} {faults : List ε} (h : Reports x faults) (f : α → β) :
    Reports (x.map f) faults := by
  intro e
  rw [← h e]
  cases x with
  | error e' => simp [Except.map]
  | ok a => simp [Except.map]

/-- **Of two computations in a row the faults of the first come first.** -/
theorem bind {x : Except ε α} {f : α → Except ε β} {first second : List ε}
    (hx : Reports x first) (hf : ∀ a, x = .ok a → Reports (f a) second) :
    Reports (x >>= f) (first ++ second) := by
  cases x with
  | error e =>
      obtain ⟨later, rfl⟩ : ∃ later, first = e :: later := List.head?_eq_some_iff.1 ((hx e).1 rfl)
      exact error e (later ++ second)
  | ok a =>
      have hnone : first = [] := hx.exists_ok_iff.1 ⟨a, rfl⟩
      rw [hnone, List.nil_append]
      exact hf a rfl

/-- **Along a list the faults come in the order of the list.** -/
theorem mapM {γ : Type v} {f : γ → Except ε α} {g : γ → List ε} {l : List γ}
    (h : ∀ c ∈ l, Reports (f c) (g c)) : Reports (l.mapM f) (l.flatMap g) := by
  induction l with
  | nil => exact ok []
  | cons c l ih =>
      rw [List.mapM_cons, List.flatMap_cons]
      refine (h c (by simp)).bind fun a _ => ?_
      have htail : Reports (l.mapM f >>= fun as => pure (a :: as)) (l.flatMap g ++ []) :=
        (ih fun d hd => h d (by simp [hd])).bind fun as _ => ok (a :: as)
      rwa [List.append_nil] at htail

end Reports

/-! ### Two computations side by side -/

/-- Two computations run in parallel: they end with the same fault, or with results that are
related. -/
inductive Parallel (R : α → β → Prop) : Except ε α → Except ε β → Prop
  | error (e : ε) : Parallel R (.error e) (.error e)
  | ok {a : α} {b : β} (h : R a b) : Parallel R (.ok a) (.ok b)

namespace Parallel

variable {γ δ : Type u} {R : α → β → Prop} {S : γ → δ → Prop} {x : Except ε α} {y : Except ε β}

/-- What goes on in parallel ends in parallel. -/
theorem bind (h : Parallel R x y) {f : α → Except ε γ} {g : β → Except ε δ}
    (hfg : ∀ a b, R a b → Parallel S (f a) (g b)) : Parallel S (x >>= f) (y >>= g) := by
  cases h with
  | error e => exact error e
  | ok h => exact hfg _ _ h

theorem map (h : Parallel R x y) {f : α → γ} {g : β → δ} (hfg : ∀ a b, R a b → S (f a) (g b)) :
    Parallel S (x.map f) (y.map g) := by
  cases h with
  | error e => exact error e
  | ok h => exact ok (hfg _ _ h)

end Parallel

end UpdateSql.Outcome
