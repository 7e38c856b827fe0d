import Mathlib.Data.Int.Notation
import Mathlib.Data.Nat.Notation
import Mathlib.Order.Monotone.Basic

/-!
# Episodes

Something is recorded at some of the moments `0, 1, 2, …`.  An *episode* is a maximal run of
recordings in which each is close to the one before it; what is close is a parameter.  An episode is
named by the moment it begins at.

## Main definitions

* `Continues`, `Starts`, `InEpisode` — a recording goes on with an episode, begins one, is in one.
* `Due`, `FirstDue` — an episode has lasted for a given time, and has for the first time.

## Main results

* `InEpisode.start_unique` — a recording is in one episode.
* `FirstDue.unique` — an episode falls due once.
-/

namespace Episodes

section Runs

variable (seen : ℕ → Prop) (close : ℕ → ℕ → Prop)

/-- `j` is the last recording before `i`. -/
structure LastBefore (j i : ℕ) : Prop where
  lt : j < i
  isSeen : seen j
  none_between : ∀ m, j < m → m < i → ¬ seen m

/-- A recording goes on with what was recorded before it. -/
def Continues (j i : ℕ) : Prop := LastBefore seen j i ∧ seen i ∧ close j i

/-- A recording begins an episode. -/
def Starts (i : ℕ) : Prop := seen i ∧ ∀ j, ¬ Continues seen close j i

/-- A moment is in the episode that begins at another. -/
inductive InEpisode : ℕ → ℕ → Prop
  | first {s : ℕ} (h : Starts seen close s) : InEpisode s s
  | next {s j i : ℕ} (h : InEpisode s j) (hnext : Continues seen close j i) : InEpisode s i

variable {seen close}

theorem LastBefore.unique {j j' i : ℕ} (h : LastBefore seen j i)
    (h' : LastBefore seen j' i) : j = j' := by
  rcases Nat.lt_trichotomy j j' with hlt | rfl | hlt
  · exact absurd h'.isSeen (h.none_between j' hlt h'.lt)
  · rfl
  · exact absurd h.isSeen (h'.none_between j hlt h.lt)

theorem InEpisode.isSeen {s i : ℕ} (h : InEpisode seen close s i) : seen i := by
  cases h with
  | first h => exact h.1
  | next h hnext => exact hnext.2.1

theorem InEpisode.le {s i : ℕ} (h : InEpisode seen close s i) : s ≤ i := by
  induction h with
  | first h => exact Nat.le_refl _
  | next h hnext ih => exact ih.trans hnext.1.lt.le

/-- A recording is in one episode. -/
theorem InEpisode.start_unique {s s' i : ℕ} (h : InEpisode seen close s i)
    (h' : InEpisode seen close s' i) : s = s' := by
  induction h with
  | first h =>
    cases h' with
    | first h' => rfl
    | next h' hnext' => exact absurd hnext' (h.2 _)
  | next h hnext ih =>
    cases h' with
    | first h' => exact absurd hnext (h'.2 _)
    | next h' hnext' =>
      rw [hnext.1.unique hnext'.1] at ih
      exact ih h'

/-- An episode goes on from each of its recordings but the last. -/
theorem InEpisode.exists_continues {s j i : ℕ} (hj : InEpisode seen close s j)
    (hi : InEpisode seen close s i) (hlt : j < i) : ∃ k, Continues seen close j k := by
  induction hi with
  | first h => exact absurd hj.le (Nat.not_le.mpr hlt)
  | next h hnext ih =>
    rename_i j' i
    rcases Nat.lt_trichotomy j j' with hbefore | rfl | hafter
    · exact ih hbefore
    · exact ⟨i, hnext⟩
    · exact absurd hj.isSeen (hnext.1.none_between j hafter hlt)

end Runs

section Due

variable (seen : ℕ → Prop) (close : ℕ → ℕ → Prop) (time : ℕ → ℤ) (delay : ℤ)

/-- An episode has lasted for the delay at a recording of it. -/
def Due (s i : ℕ) : Prop := InEpisode seen close s i ∧ delay ≤ time i - time s

/-- An episode has lasted for the delay at a recording of it, and had not before. -/
def FirstDue (s i : ℕ) : Prop :=
  Due seen close time delay s i ∧ ∀ j < i, ¬ Due seen close time delay s j

variable {seen close time delay}

/-- An episode that is due fell due once. -/
theorem Due.exists_firstDue {s i : ℕ} (h : Due seen close time delay s i) :
    ∃ k ≤ i, FirstDue seen close time delay s k := by
  induction i using Nat.strong_induction_on with
  | _ i ih =>
    by_cases hbefore : ∃ j < i, Due seen close time delay s j
    · obtain ⟨j, hj, hdue⟩ := hbefore
      obtain ⟨k, hk, hfirst⟩ := ih j hj hdue
      exact ⟨k, hk.trans hj.le, hfirst⟩
    · exact ⟨i, Nat.le_refl i, h, fun j hj hdue => hbefore ⟨j, hj, hdue⟩⟩

/-- An episode falls due once. -/
theorem FirstDue.unique {s i i' : ℕ} (h : FirstDue seen close time delay s i)
    (h' : FirstDue seen close time delay s i') : i = i' := by
  rcases Nat.lt_trichotomy i i' with hlt | rfl | hlt
  · exact absurd h.1 (h'.2 i hlt)
  · rfl
  · exact absurd h'.1 (h.2 i' hlt)

end Due

end Episodes
