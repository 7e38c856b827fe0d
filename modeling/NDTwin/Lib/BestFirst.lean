import Mathlib.Data.Set.Basic
import Mathlib.Order.Defs.LinearOrder

/-!
# Best-first scans

A set of prioritised things is split over groups, each with a bound on the priorities in it and a
best member of its own.  A scan that takes the groups by falling bound may stop at the first bound
below the best it has: what it returns is best of all.

## Main definitions

* `IsBest prio S x` — `x` is a member of `S` of the greatest priority, or `none` if `S` is empty.
* `scan` — the scan, with its early exit.

## Main results

* `isBest_head?` — the first of a list in falling order is its best.
* `isBest_scan` — **the scan finds a best of all that is above where it starts**;
  `scan_cons_of_max` says which, where the first group has one.
-/

namespace BestFirst

variable {σ ρ P : Type*} [LinearOrder P]

/-- A member of greatest priority, or none where there is no member. -/
def IsBest (prio : ρ → P) (S : Set ρ) : Option ρ → Prop
  | none => ∀ r, r ∉ S
  | some r => r ∈ S ∧ ∀ r' ∈ S, prio r' ≤ prio r

variable {prio : ρ → P}

theorem IsBest.eq_none_iff {S : Set ρ} {x : Option ρ} (h : IsBest prio S x) :
    x = none ↔ ¬∃ r, r ∈ S := by
  cases x with
  | none => simpa [IsBest] using h
  | some r =>
    have hr : ∃ r, r ∈ S := ⟨r, h.1⟩
    simp [hr]

theorem isBest_head? {l : List ρ} (hsorted : l.Pairwise fun a b => prio b ≤ prio a) :
    IsBest prio {r | r ∈ l} l.head? := by
  cases l with
  | nil =>
    intro r hr
    cases hr
  | cons a l =>
    refine ⟨List.mem_cons_self, ?_⟩
    intro r hr
    rcases List.mem_cons.mp hr with rfl | hr
    · exact le_refl _
    · exact (List.pairwise_cons.mp hsorted).1 r hr

/-- Takes the groups in turn, with the best so far and its priority, and stops at a group whose
bound is below it. -/
def scan (bound : σ → P) (cand : σ → Option ρ) (prio : ρ → P) :
    List σ → Option ρ → P → Option ρ
  | [], best, _ => best
  | s :: rest, best, bestPriority =>
    if bound s < bestPriority then best
    else match cand s with
      | none => scan bound cand prio rest best bestPriority
      | some r =>
        if bestPriority < prio r then scan bound cand prio rest (some r) (prio r)
        else scan bound cand prio rest best bestPriority

variable {bound : σ → P} {cand : σ → Option ρ} {members : σ → Set ρ} {l : List σ}

/-- Either nothing in the groups beats the best so far, or the scan returns a best of them. -/
theorem scan_cases (hsorted : l.Pairwise fun s t => bound t ≤ bound s)
    (hcand : ∀ s ∈ l, IsBest prio (members s) (cand s))
    (hbound : ∀ s ∈ l, ∀ r ∈ members s, prio r ≤ bound s) (best : Option ρ) (bestPriority : P) :
    (scan bound cand prio l best bestPriority = best ∧
        ∀ s ∈ l, ∀ r ∈ members s, prio r ≤ bestPriority) ∨
      ∃ r, scan bound cand prio l best bestPriority = some r ∧ bestPriority < prio r ∧
        (∃ s ∈ l, r ∈ members s) ∧ ∀ s ∈ l, ∀ r' ∈ members s, prio r' ≤ prio r := by
  induction l generalizing best bestPriority with
  | nil => exact Or.inl ⟨rfl, by simp⟩
  | cons s l ih =>
    obtain ⟨hs, hl⟩ := List.pairwise_cons.mp hsorted
    have ih := ih hl (fun t ht => hcand t (by simp [ht])) fun t ht => hbound t (by simp [ht])
    have hcand := hcand s (by simp)
    rw [scan]
    split
    · next hexit =>
      -- every later bound is below this one, so nothing there can beat the best so far
      refine Or.inl ⟨rfl, ?_⟩
      intro t ht r hr
      have hr := hbound t ht r hr
      rcases List.mem_cons.mp ht with rfl | ht
      · exact hr.trans hexit.le
      · exact (hr.trans (hs t ht)).trans hexit.le
    · split
      · next hnone =>
        rw [hnone] at hcand
        rcases ih best bestPriority with ⟨heq, hle⟩ | ⟨r, heq, hlt, ⟨t, ht, hr⟩, hle⟩
        · refine Or.inl ⟨heq, List.forall_mem_cons.mpr ⟨?_, hle⟩⟩
          exact fun r hr => absurd hr (hcand r)
        · refine Or.inr ⟨r, heq, hlt, ⟨t, by simp [ht], hr⟩, List.forall_mem_cons.mpr ⟨?_, hle⟩⟩
          exact fun r' hr' => absurd hr' (hcand r')
      · next r hsome =>
        rw [hsome] at hcand
        obtain ⟨hmem, hmax⟩ := hcand
        split
        · next hbetter =>
          rcases ih (some r) (prio r) with ⟨heq, hle⟩ | ⟨r', heq, hlt, ⟨t, ht, hr'⟩, hle⟩
          · refine Or.inr ⟨r, heq, hbetter, ⟨s, by simp, hmem⟩, ?_⟩
            exact List.forall_mem_cons.mpr ⟨hmax, hle⟩
          · refine Or.inr ⟨r', heq, hbetter.trans hlt, ⟨t, by simp [ht], hr'⟩, ?_⟩
            refine List.forall_mem_cons.mpr ⟨?_, hle⟩
            exact fun r'' hr'' => (hmax r'' hr'').trans hlt.le
        · next hworse =>
          have hrle : prio r ≤ bestPriority := le_of_not_gt hworse
          rcases ih best bestPriority with ⟨heq, hle⟩ | ⟨r', heq, hlt, ⟨t, ht, hr'⟩, hle⟩
          · refine Or.inl ⟨heq, List.forall_mem_cons.mpr ⟨?_, hle⟩⟩
            exact fun r' hr' => (hmax r' hr').trans hrle
          · refine Or.inr ⟨r', heq, hlt, ⟨t, by simp [ht], hr'⟩, ?_⟩
            refine List.forall_mem_cons.mpr ⟨?_, hle⟩
            exact fun r'' hr'' => ((hmax r'' hr'').trans hrle).trans hlt.le

/-- **A scan from nothing** finds a best member of the groups above where it starts. -/
theorem isBest_scan (hsorted : l.Pairwise fun s t => bound t ≤ bound s)
    (hcand : ∀ s ∈ l, IsBest prio (members s) (cand s))
    (hbound : ∀ s ∈ l, ∀ r ∈ members s, prio r ≤ bound s) (start : P) :
    IsBest prio {r | start < prio r ∧ ∃ s ∈ l, r ∈ members s}
      (scan bound cand prio l none start) := by
  rcases scan_cases hsorted hcand hbound none start with ⟨heq, hle⟩ | ⟨r, heq, hlt, hmem, hle⟩
  · rw [heq]
    rintro r ⟨hlt, s, hs, hr⟩
    exact absurd hlt (not_lt_of_ge (hle s hs r hr))
  · rw [heq]
    refine ⟨⟨hlt, hmem⟩, ?_⟩
    rintro r' ⟨-, s, hs, hr'⟩
    exact hle s hs r' hr'

/-- A scan keeps the first best it meets. -/
theorem scan_cons_of_max {s : σ} {r : ρ} {start : P} (hfirst : cand s = some r)
    (hstart : start < prio r) (hs : prio r ≤ bound s)
    (hsorted : l.Pairwise fun s t => bound t ≤ bound s)
    (hcand : ∀ s ∈ l, IsBest prio (members s) (cand s))
    (hbound : ∀ s ∈ l, ∀ r ∈ members s, prio r ≤ bound s)
    (hmax : ∀ s ∈ l, ∀ r' ∈ members s, prio r' ≤ prio r) :
    scan bound cand prio (s :: l) none start = some r := by
  rw [scan, if_neg (not_lt_of_ge (hstart.le.trans hs)), hfirst]
  simp only [if_pos hstart]
  rcases scan_cases hsorted hcand hbound (some r) (prio r) with ⟨heq, -⟩ | ⟨r', -, hlt, ⟨t, ht, hr'⟩, -⟩
  · exact heq
  · exact absurd hlt (not_lt_of_ge (hmax t ht r' hr'))

end BestFirst
