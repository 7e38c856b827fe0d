import Mathlib.Data.List.Induction

/-!
# Machines that take labelled steps

A system of any number of parties is a partial step function on one state: a label says
which party does what, and a label that is not enabled gives no state.  A run is the list
of labels taken, so that a statement about every interleaving is a statement about every
list.

## Main definitions

* `run` — the state after a list of labels, if all of them were enabled.
* `Guarded` — a run whose steps each meet a condition on the state they are taken from.
* `Meets` — a run whose labels each meet a condition on those before them.

## Main results

* `run_induction` — **the invariant rule**: what holds at the start and is kept by every
  step holds along every run, of the labels taken and the state reached; `run_invariant` is
  the same from the start, for steps from states that are reached.
* `run_split`, `run_at` — the states inside a run.
* `Guarded.invariant` — the invariant rule for runs whose steps all meet a condition.
* `Meets.foldl_invariant` — the invariant rule for steps that are always enabled, in runs whose
  labels each meet a condition on those before them.
-/

namespace Machine

variable {σ ℓ : Type*} (step : σ → ℓ → Option σ)

/-- The state after the labels `tr`, if each was enabled when it was taken. -/
def run (s : σ) : List ℓ → Option σ
  | [] => some s
  | l :: tr => (step s l).bind fun s' => run s' tr

theorem run_append (s : σ) (tr tr' : List ℓ) :
    run step s (tr ++ tr') = (run step s tr).bind fun s' => run step s' tr' := by
  induction tr generalizing s with
  | nil => rfl
  | cons l tr ih =>
    cases h : step s l with
    | none => simp [run, h]
    | some s' => simp [run, h, ih]

variable {step}

theorem run_split {s s' : σ} {tr tr' : List ℓ} (h : run step s (tr ++ tr') = some s') :
    ∃ m, run step s tr = some m ∧ run step m tr' = some s' := by
  rw [run_append] at h
  exact Option.bind_eq_some_iff.mp h

theorem run_pair {s m s' : σ} {l l' : ℓ} (h : step s l = some m) (h' : step m l' = some s') :
    run step s [l, l'] = some s' := by
  simp [run, h, h']

/-- The step a run takes at a label in the middle of it. -/
theorem run_at {s s' : σ} {tr tr' : List ℓ} {l : ℓ} (h : run step s (tr ++ l :: tr') = some s') :
    ∃ m m', run step s tr = some m ∧ step m l = some m' ∧ run step m' tr' = some s' := by
  obtain ⟨m, hm, hrest⟩ := run_split h
  obtain ⟨m', hm', hrest⟩ := Option.bind_eq_some_iff.mp hrest
  exact ⟨m, m', hm, hm', hrest⟩

/-- **The invariant rule**, from any point of a run on. -/
theorem run_induction {P : List ℓ → σ → Prop} {s₀ : σ} {tr₀ : List ℓ} (hstart : P tr₀ s₀)
    (hstep : ∀ tr s l s', P tr s → step s l = some s' → P (tr ++ [l]) s') {tr : List ℓ} {s : σ}
    (h : run step s₀ tr = some s) : P (tr₀ ++ tr) s := by
  induction tr using List.reverseRecOn generalizing s with
  | nil =>
    cases h
    rw [List.append_nil]
    exact hstart
  | append_singleton tr l ih =>
    obtain ⟨m, m', hm, hml, hrest⟩ := run_at h
    cases hrest
    rw [← List.append_assoc]
    exact hstep _ m l _ (ih hm) hml

/-- **The invariant rule** from the start of a run, where a step may use that its state is
reached. -/
theorem run_invariant {P : List ℓ → σ → Prop} {s₀ : σ} (hstart : P [] s₀)
    (hstep : ∀ tr s l s', run step s₀ tr = some s → P tr s → step s l = some s' → P (tr ++ [l]) s')
    {tr : List ℓ} {s : σ} (h : run step s₀ tr = some s) : P tr s := by
  have hboth : run step s₀ ([] ++ tr) = some s ∧ P ([] ++ tr) s := by
    refine run_induction (P := fun tr s => run step s₀ tr = some s ∧ P tr s) ⟨rfl, hstart⟩ ?_ h
    intro tr s l s' hP hl
    refine ⟨?_, hstep tr s l s' hP.1 hP.2 hl⟩
    rw [run_append, hP.1]
    simp [run, hl]
  exact hboth.2

/-! ### Steps that meet a condition -/

variable (step) in
/-- Every step of a run meets a condition on the state it is taken from. -/
def Guarded (ok : σ → ℓ → Prop) (s₀ : σ) (tr : List ℓ) : Prop :=
  ∀ before l, before ++ [l] <+: tr → ∀ s, run step s₀ before = some s → ok s l

/-- **The invariant rule** for runs whose steps all meet a condition. -/
theorem Guarded.invariant {ok : σ → ℓ → Prop} {P : List ℓ → σ → Prop} {s₀ : σ} (hstart : P [] s₀)
    (hstep : ∀ tr s l s', ok s l → P tr s → step s l = some s' → P (tr ++ [l]) s')
    {tr : List ℓ} {s : σ} (hok : Guarded step ok s₀ tr) (h : run step s₀ tr = some s) : P tr s := by
  induction tr using List.reverseRecOn generalizing s with
  | nil =>
    cases h
    exact hstart
  | append_singleton tr l ih =>
    obtain ⟨m, m', hm, hml, hrest⟩ := run_at h
    cases hrest
    have hbefore : Guarded step ok s₀ tr :=
      fun before l' hl' => hok before l' (hl'.trans (List.prefix_append _ _))
    exact hstep tr m l _ (hok tr l List.prefix_rfl m hm) (ih hbefore hm) hml

theorem guarded_nil (ok : σ → ℓ → Prop) (s : σ) : Guarded step ok s [] := by
  intro before l hl
  simp at hl

theorem guarded_cons {ok : σ → ℓ → Prop} {s s' : σ} {l : ℓ} {tr : List ℓ} (hl : ok s l)
    (hs : step s l = some s') (h : Guarded step ok s' tr) : Guarded step ok s (l :: tr) := by
  intro before l' hprefix m hm
  cases before with
  | nil =>
    cases hm
    obtain rfl : l' = l := by simpa using hprefix
    exact hl
  | cons b before =>
    rw [List.cons_append, List.cons_prefix_cons] at hprefix
    obtain ⟨rfl, hprefix⟩ := hprefix
    refine h before l' hprefix m ?_
    simpa [run, hs] using hm

/-! ### Labels that meet a condition -/

/-- Each label of a run meets a condition on those before it. -/
inductive Meets (ok : List ℓ → ℓ → Prop) : List ℓ → Prop where
  | nil : Meets ok []
  | concat {before : List ℓ} {l : ℓ} (h : Meets ok before) (hl : ok before l) :
      Meets ok (before ++ [l])

/-- **The invariant rule** for steps that are always enabled: what each step that meets the
condition keeps holds in every state that a run of such steps goes through. -/
theorem Meets.foldl_invariant {ok : List ℓ → ℓ → Prop} {f : σ → ℓ → σ} {s₀ : σ}
    {P : List ℓ → σ → Prop} (hstart : P [] s₀)
    (hstep : ∀ before l, ok before l → P before (before.foldl f s₀) →
      P (before ++ [l]) (f (before.foldl f s₀) l))
    {tr before : List ℓ} (h : Meets ok tr) (hbefore : before <+: tr) :
    P before (before.foldl f s₀) := by
  induction h generalizing before with
  | nil =>
    rw [List.prefix_nil.mp hbefore]
    exact hstart
  | @concat tr l _ hl ih =>
    rcases List.prefix_concat_iff.mp hbefore with rfl | hbefore
    · rw [List.foldl_append]
      exact hstep tr l hl (ih List.prefix_rfl)
    · exact ih hbefore

end Machine
