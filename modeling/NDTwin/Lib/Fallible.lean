import Mathlib.Data.List.Forall2

/-!
# Computations that may fail

Taking a computation of `Except` apart into its steps, and putting it together from them.

## Main results

* `exists_of_bind_ok`, `bind_of_ok` — a step that was taken, and a step to take.
* `forall₂_of_mapM`, `mapM_of_forall`, `mapM_of_forall₂` — **the same step for every element of a
  list.**
* `forall₂_trans`, `forall₂_filterMap` — elements that correspond.
* `isSome_mapM_iff`, `mapM_of_isSome`, `filter_of_mapM` — the same of steps of `Option`.
-/

namespace Fallible

variable {ε α β : Type} {f : α → Except ε β}

/-- What two steps have answered, each has answered. -/
theorem exists_of_bind_ok {x : Except ε α} {b : β} (h : x >>= f = .ok b) :
    ∃ a, x = .ok a ∧ f a = .ok b := by
  cases x with
  | error e => cases h
  | ok a => exact ⟨a, rfl, h⟩

theorem bind_of_ok {x : Except ε α} {a : α} (h : x = .ok a) : x >>= f = f a := by
  rw [h]
  rfl

theorem forall₂_of_mapM {xs : List α} {ys : List β} (h : xs.mapM f = .ok ys) :
    List.Forall₂ (fun x y => f x = .ok y) xs ys := by
  induction xs generalizing ys with
  | nil =>
    cases h
    exact .nil
  | cons x xs ih =>
    rw [List.mapM_cons] at h
    obtain ⟨y, hy, h⟩ := exists_of_bind_ok h
    obtain ⟨ys', hys', h⟩ := exists_of_bind_ok h
    cases h
    exact .cons hy (ih hys')

theorem mapM_of_forall {xs : List α} (h : ∀ x ∈ xs, ∃ y, f x = .ok y) :
    ∃ ys, xs.mapM f = .ok ys := by
  induction xs with
  | nil => exact ⟨[], rfl⟩
  | cons x xs ih =>
    obtain ⟨y, hy⟩ := h x List.mem_cons_self
    obtain ⟨ys, hys⟩ := ih fun x' hx' => h x' (List.mem_cons_of_mem _ hx')
    refine ⟨y :: ys, ?_⟩
    rw [List.mapM_cons, bind_of_ok hy, bind_of_ok hys]
    rfl

/-! ### Members of lists that are related -/

theorem exists_mem_of_forall₂ {R : α → β → Prop} {xs : List α} {ys : List β}
    (h : List.Forall₂ R xs ys) {y : β} (hy : y ∈ ys) : ∃ x ∈ xs, R x y := by
  induction h with
  | nil => cases hy
  | @cons x y' xs ys hxy _ ih =>
    rcases List.mem_cons.mp hy with rfl | hy
    · exact ⟨x, List.mem_cons_self, hxy⟩
    · obtain ⟨x', hx', hR⟩ := ih hy
      exact ⟨x', List.mem_cons_of_mem _ hx', hR⟩

theorem exists_of_mapM {xs : List α} {ys : List β} (h : xs.mapM f = .ok ys) {x : α} (hx : x ∈ xs) :
    ∃ y, f x = .ok y := by
  obtain ⟨y, -, hy⟩ := exists_mem_of_forall₂ (forall₂_of_mapM h).flip hx
  exact ⟨y, hy⟩

/-! ### Lists that are related -/

theorem forall₂_trans {γ : Type} {R : α → β → Prop} {S : β → γ → Prop} {T : α → γ → Prop}
    (h : ∀ a b c, R a b → S b c → T a c) {xs : List α} {ys : List β} {zs : List γ}
    (hR : List.Forall₂ R xs ys) (hS : List.Forall₂ S ys zs) : List.Forall₂ T xs zs := by
  induction hR generalizing zs with
  | nil =>
    cases hS
    exact .nil
  | cons hxy _ ih =>
    cases hS with
    | cons hyz hS => exact .cons (h _ _ _ hxy hyz) (ih hS)

theorem forall₂_split {γ : Type} {R : α → β → Prop} {S : β → γ → Prop} {xs : List α} {zs : List γ}
    (h : List.Forall₂ (fun a c => ∃ b, R a b ∧ S b c) xs zs) :
    ∃ ys, List.Forall₂ R xs ys ∧ List.Forall₂ S ys zs := by
  induction h with
  | nil => exact ⟨[], .nil, .nil⟩
  | cons hac _ ih =>
    obtain ⟨b, hR, hS⟩ := hac
    obtain ⟨ys, hRs, hSs⟩ := ih
    exact ⟨b :: ys, .cons hR hRs, .cons hS hSs⟩

theorem mapM_of_forall₂ {xs : List α} {ys : List β}
    (h : List.Forall₂ (fun x y => f x = .ok y) xs ys) : xs.mapM f = .ok ys := by
  induction h with
  | nil => rfl
  | cons hxy _ ih =>
    rw [List.mapM_cons, bind_of_ok hxy, bind_of_ok ih]
    rfl

/-- A list that a partial function drops nothing of. -/
theorem forall₂_filterMap {g : α → Option β} {xs : List α}
    (h : xs.length ≤ (xs.filterMap g).length) :
    List.Forall₂ (fun x y => g x = some y) xs (xs.filterMap g) := by
  induction xs with
  | nil => exact .nil
  | cons x xs ih =>
    have hle := List.length_filterMap_le g xs
    cases hx : g x with
    | none =>
      rw [List.filterMap_cons_none hx, List.length_cons] at h
      omega
    | some y =>
      rw [List.filterMap_cons_some hx, List.length_cons, List.length_cons] at h
      rw [List.filterMap_cons_some hx]
      exact .cons hx (ih (by omega))

theorem map_eq_of_forall₂ {γ : Type} {g : α → γ} {k : β → γ} {xs : List α} {ys : List β}
    (h : List.Forall₂ (fun x y => g x = k y) xs ys) : xs.map g = ys.map k := by
  induction h with
  | nil => rfl
  | cons hxy _ ih => rw [List.map_cons, List.map_cons, hxy, ih]

/-! ### Steps that may have no answer -/

theorem isSome_mapM_iff {f : α → Option β} {xs : List α} :
    (xs.mapM f).isSome = true ↔ ∀ x ∈ xs, (f x).isSome = true := by
  induction xs with
  | nil => simp
  | cons x xs ih =>
    rw [List.mapM_cons, List.forall_mem_cons, ← ih]
    cases f x with
    | none => simp
    | some y =>
      cases xs.mapM f with
      | none => simp
      | some ys => simp

theorem mapM_of_isSome {f : α → Option β} {xs : List α}
    (h : ∀ x ∈ xs, (f x).isSome = true) (d : β) :
    xs.mapM f = some (xs.map fun x => (f x).getD d) := by
  induction xs with
  | nil => rfl
  | cons x xs ih =>
    obtain ⟨y, hy⟩ := Option.isSome_iff_exists.mp (h x List.mem_cons_self)
    rw [List.mapM_cons, ih fun x' hx' => h x' (List.mem_cons_of_mem _ hx'), List.map_cons, hy]
    rfl

/-- What is kept of the answers. -/
theorem filter_of_mapM {f : α → Option β} {keep : β → Bool} {xs : List α} {ys : List β}
    (h : xs.mapM f = some ys) : ys.filter keep = xs.filterMap fun x => (f x).filter keep := by
  induction xs generalizing ys with
  | nil =>
    cases h
    rfl
  | cons x xs ih =>
    rw [List.mapM_cons] at h
    obtain ⟨y, hy, h⟩ := Option.bind_eq_some_iff.mp h
    obtain ⟨ys', hys', h⟩ := Option.bind_eq_some_iff.mp h
    cases h
    rw [List.filter_cons, List.filterMap_cons, hy, Option.filter_some, ih hys']
    by_cases hkeep : keep y = true
    · simp [hkeep]
    · simp [hkeep]

end Fallible
