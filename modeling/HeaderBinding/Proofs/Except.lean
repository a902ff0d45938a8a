import Mathlib.Data.List.Forall2

/-!
# Computations That May Fail

What it takes for a computation to have a result.

A computation made of others has a result if each of them has one. For a sequence of two that is
`bind_eq_ok`, by which a computation is taken apart step by step. A traversal has a result if every
item has one (`mapM_eq_ok_iff`). A run over a list keeps what one step keeps (`foldlM_run`).

## Theorems

* `bind_eq_ok`, `pure_eq_ok`: A computation that has a result.
* `foldlM_run`, `foldlM_forall`: What a run over a list keeps, and what it leaves behind.
* `foldlM_eq_of_forall₂`: Runs over items that a step does not tell apart.
* `mapM_eq_ok_iff`, `exists_mapM_eq_error_iff`: When a traversal has a result, and when not.
* `any_eq_of_anyM`: A search that has a result.
* `exists_mem_of_forall₂`, `filterMap_flatten_of_forall₂`: Where the results of a run come from.
-/

namespace HeaderBinding

section Steps

variable {ε α β : Type} {x : Except ε α} {a : α}

theorem error_ne_ok (e : ε) (a : α) : Except.error e ≠ .ok a :=
  nofun

theorem mapError_eq_ok_iff {ε' : Type} (f : ε → ε') (x : Except ε α) (a : α) :
    x.mapError f = .ok a ↔ x = .ok a := by
  cases x with
  | error e => exact iff_of_false (error_ne_ok (f e) a) (error_ne_ok e a)
  | ok b => simp only [Except.mapError, Except.ok.injEq]

/-- A computation has a result if its first part has one and the rest has one from there. -/
theorem bind_eq_ok {f : α → Except ε β} {b : β} :
    x >>= f = .ok b ↔ ∃ a, x = .ok a ∧ f a = .ok b := by
  cases x with
  | error e => simp only [bind, Except.bind, reduceCtorEq, false_and, exists_false]
  | ok a => simp only [bind, Except.bind, Except.ok.injEq, exists_eq_left']

theorem pure_eq_ok {b : α} : (pure a : Except ε α) = .ok b ↔ a = b := by
  simp only [pure, Except.pure, Except.ok.injEq]

theorem throw_ne_ok (e : ε) (a : α) : (throw e : Except ε α) ≠ .ok a := by
  simp only [throw, throwThe, MonadExceptOf.throw, ne_eq, reduceCtorEq, not_false_eq_true]

/-- What one step keeps, running the step over a list keeps. -/
theorem foldlM_run {step : β → α → Except ε β} {items : List α} {start finish : β}
    (Inv : β → Prop) (hstart : Inv start)
    (hstep : ∀ item ∈ items, ∀ b b', Inv b → step b item = .ok b' → Inv b')
    (h : items.foldlM step start = .ok finish) : Inv finish := by
  induction items generalizing start with
  | nil =>
      rw [List.foldlM_nil, pure_eq_ok] at h
      exact h ▸ hstart
  | cons item items ih =>
      rw [List.foldlM_cons, bind_eq_ok] at h
      rcases h with ⟨middle, hitem, hrest⟩
      rw [List.forall_mem_cons] at hstep
      exact ih (hstep.1 start middle hstart hitem) hstep.2 hrest

/-- What a step makes of its item, and every later step keeps, holds of all items behind the last
    one. -/
theorem foldlM_forall {step : β → α → Except ε β} {items : List α} {start finish : β}
    (Inv : β → Prop) (Done : α → β → Prop) (hstart : Inv start)
    (hstep : ∀ item ∈ items, ∀ b b', Inv b → step b item = .ok b' →
      Inv b' ∧ Done item b' ∧ ∀ other, Done other b → Done other b')
    (h : items.foldlM step start = .ok finish) :
    Inv finish ∧ (∀ item ∈ items, Done item finish) ∧
      ∀ other, Done other start → Done other finish := by
  induction items generalizing start with
  | nil =>
      rw [List.foldlM_nil, pure_eq_ok] at h
      subst h
      exact ⟨hstart, fun _ h => absurd h List.not_mem_nil, fun _ => id⟩
  | cons item items ih =>
      rw [List.foldlM_cons, bind_eq_ok] at h
      rcases h with ⟨middle, hitem, hrest⟩
      rw [List.forall_mem_cons] at hstep
      rcases hstep.1 start middle hstart hitem with ⟨hmiddle, hdone, hkept⟩
      rcases ih hmiddle hstep.2 hrest with ⟨hfinish, hall, hlater⟩
      exact ⟨hfinish, List.forall_mem_cons.mpr ⟨hlater item hdone, hall⟩,
        fun other hother => hlater other (hkept other hother)⟩

/-- A run over items that a step does not tell apart. -/
theorem foldlM_eq_of_forall₂ {step : β → α → Except ε β} {R : α → α → Prop}
    (hstep : ∀ b item item', R item item' → step b item = step b item') {items items' : List α}
    (h : List.Forall₂ R items items') (start : β) :
    items.foldlM step start = items'.foldlM step start := by
  induction h generalizing start with
  | nil => rfl
  | cons hitem _ ih =>
      rw [List.foldlM_cons, List.foldlM_cons, hstep start _ _ hitem]
      exact bind_congr fun b => ih b

end Steps

section Traversal

variable {ε α β : Type} (f : α → Except ε β)

/-- A traversal has a result if every item has one. -/
theorem mapM_eq_ok_iff (items : List α) (results : List β) :
    items.mapM f = .ok results ↔ List.Forall₂ (fun a b => f a = .ok b) items results := by
  induction items generalizing results with
  | nil =>
      rw [List.mapM_nil, List.forall₂_nil_left_iff]
      change Except.ok [] = Except.ok results ↔ _
      rw [Except.ok.injEq, eq_comm]
  | cons a items ih =>
      rw [List.mapM_cons, List.forall₂_cons_left_iff]
      cases ha : f a with
      | error e =>
          refine iff_of_false (error_ne_ok e results) ?_
          rintro ⟨b, _, hb, _⟩
          exact error_ne_ok e b hb
      | ok b =>
          cases hrest : items.mapM f with
          | error e =>
              refine iff_of_false (error_ne_ok e results) ?_
              rintro ⟨_, rest, _, h, _⟩
              rw [← ih, hrest] at h
              exact error_ne_ok e rest h
          | ok rest =>
              change Except.ok (b :: rest) = Except.ok results ↔ _
              simp only [← ih, hrest, Except.ok.injEq, exists_and_left, exists_eq_left']
              exact eq_comm

/-- It has none if one item has none. -/
theorem exists_mapM_eq_error_iff (items : List α) :
    (∃ e, items.mapM f = .error e) ↔ ∃ a ∈ items, ∃ e, f a = .error e := by
  induction items with
  | nil =>
      refine iff_of_false (fun ⟨e, h⟩ => error_ne_ok e [] h.symm) ?_
      rintro ⟨a, ha, _⟩
      exact absurd ha List.not_mem_nil
  | cons a items ih =>
      rw [List.mapM_cons, List.exists_mem_cons_iff]
      cases ha : f a with
      | error e => exact iff_of_true ⟨e, rfl⟩ (Or.inl ⟨e, rfl⟩)
      | ok b =>
          rw [or_iff_right (fun ⟨e, h⟩ => error_ne_ok e b h.symm), ← ih]
          cases items.mapM f with
          | error e => exact iff_of_true ⟨e, rfl⟩ ⟨e, rfl⟩
          | ok rest =>
              exact iff_of_false (fun ⟨e, h⟩ => error_ne_ok e (b :: rest) h.symm)
                (fun ⟨e, h⟩ => error_ne_ok e rest h.symm)

/-- A search that has a result finds what a search without failures finds. -/
theorem any_eq_of_anyM {f : α → Except ε Bool} {p : α → Bool} {items : List α} {found : Bool}
    (hf : ∀ a ∈ items, ∀ b, f a = .ok b → p a = b) (h : items.anyM f = .ok found) :
    items.any p = found := by
  induction items with
  | nil => exact pure_eq_ok.mp h
  | cons a items ih =>
      rw [List.forall_mem_cons] at hf
      rw [List.anyM, bind_eq_ok] at h
      rcases h with ⟨here, hhere, h⟩
      rw [List.any_cons, hf.1 here hhere]
      cases here with
      | true => exact pure_eq_ok.mp h
      | false => exact ih hf.2 h

/-- Every result of a run is the result of one of its items. -/
theorem exists_mem_of_forall₂ {R : α → β → Prop} {items : List α} {results : List β} {b : β}
    (h : List.Forall₂ R items results) (hb : b ∈ results) : ∃ a ∈ items, R a b := by
  induction h with
  | nil => exact absurd hb List.not_mem_nil
  | cons hitem _ ih =>
      rcases List.mem_cons.mp hb with rfl | hb
      · exact ⟨_, List.mem_cons_self, hitem⟩
      · rcases ih hb with ⟨a, ha, hR⟩
        exact ⟨a, List.mem_cons_of_mem _ ha, hR⟩

/-- What is read off each list of a run is read off the items of the run. -/
theorem filterMap_flatten_of_forall₂ {α β γ : Type} {R : α → List β → Prop} {p : β → Option γ}
    {g : α → List γ} {items : List α} {lists : List (List β)} (h : List.Forall₂ R items lists)
    (hg : ∀ a l, R a l → l.filterMap p = g a) : lists.flatten.filterMap p = items.flatMap g := by
  induction h with
  | nil => rfl
  | cons hitem _ ih =>
      rw [List.flatten_cons, List.filterMap_append, List.flatMap_cons, ih, hg _ _ hitem]

end Traversal

end HeaderBinding
