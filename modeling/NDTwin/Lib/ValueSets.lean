import Mathlib.Data.Nat.Bitwise
import Mathlib.Data.Set.Prod

/-!
# Sets of numbers of a width

What one field of a match can say of a number of `w` bits: that it begins with given bits, that it
has given bits where a mask has ones, or that it lies between two bounds.  A set of either kind has
one spelling where the bits that do not count are zero, and none but the set of all numbers has the
spelling that asks for nothing.

## Main definitions

* `block w k v` — the numbers that agree with `v` but for their last `k` bits.
* `cube w m v` — the numbers that agree with `v` on the ones of `m`.
* `interval w low high` — the numbers between two bounds.

## Main results

* `block_inj`, `cube_inj`, `interval_inj` — **each set has one spelling.**
* `block_ne_below`, `cube_ne_below`, `interval_ne_below` — what asks for something leaves a number
  out.
* `pi_eq_pi_iff` — a product of sets, if it is not empty, tells its factors.
-/

namespace ValueSets

/-- The numbers of a width. -/
def below (w : ℕ) : Set ℕ := {n | n < 2 ^ w}

/-- The numbers that agree with one but for their last bits. -/
def block (w k v : ℕ) : Set ℕ := {n | n < 2 ^ w ∧ n / 2 ^ k = v / 2 ^ k}

/-- The numbers that agree with one on the ones of a mask. -/
def cube (w mask v : ℕ) : Set ℕ := {n | n < 2 ^ w ∧ n &&& mask = v &&& mask}

/-- The numbers between two bounds. -/
def interval (w low high : ℕ) : Set ℕ := {n | n < 2 ^ w ∧ low ≤ n ∧ n ≤ high}

/-! ### Blocks -/

section Block

variable {w k k' v v' : ℕ}

theorem mem_block_self (hv : v < 2 ^ w) : v ∈ block w k v := ⟨hv, rfl⟩

theorem le_of_mem_block (hk : 2 ^ k ∣ v) {n : ℕ} (hn : n ∈ block w k v) : v ≤ n := by
  have hmul := Nat.div_mul_cancel hk
  rw [← hn.2] at hmul
  have hle := Nat.div_mul_le_self n (2 ^ k)
  omega

/-- The last number of a block. -/
theorem add_mem_block (hk : 2 ^ k ∣ v) (hkw : k ≤ w) (hv : v < 2 ^ w) :
    v + (2 ^ k - 1) ∈ block w k v := by
  have hpos := Nat.two_pow_pos k
  obtain ⟨q, rfl⟩ := hk
  constructor
  · have hpow : 2 ^ w = 2 ^ k * 2 ^ (w - k) := by rw [← Nat.pow_add, Nat.add_sub_cancel' hkw]
    rw [hpow] at hv ⊢
    have hq : q + 1 ≤ 2 ^ (w - k) := Nat.lt_of_mul_lt_mul_left hv
    have hnext := Nat.mul_le_mul_left (2 ^ k) hq
    rw [Nat.mul_add] at hnext
    omega
  · rw [Nat.mul_add_div hpos, Nat.mul_div_cancel_left _ hpos, Nat.div_eq_of_lt (by omega)]
    rfl

theorem lt_of_mem_block {n : ℕ} (hk : 2 ^ k ∣ v) (hn : n ∈ block w k v) : n < v + 2 ^ k := by
  have hmod := Nat.mod_lt n (Nat.two_pow_pos k)
  have hsplit := Nat.div_add_mod n (2 ^ k)
  have hmul := Nat.div_mul_cancel hk
  rw [hn.2, Nat.mul_comm] at hsplit
  omega

/-- **A block has one spelling.** -/
theorem block_inj (hk : 2 ^ k ∣ v) (hk' : 2 ^ k' ∣ v') (hkw : k ≤ w) (hkw' : k' ≤ w)
    (hv : v < 2 ^ w) (hv' : v' < 2 ^ w) (h : block w k v = block w k' v') : v = v' ∧ k = k' := by
  -- its first number, and how many there are after it
  have hfirst : v = v' := Nat.le_antisymm
    (le_of_mem_block hk (h ▸ mem_block_self hv'))
    (le_of_mem_block hk' (h ▸ mem_block_self hv))
  subst hfirst
  have hle := lt_of_mem_block hk' (h ▸ add_mem_block hk hkw hv)
  have hge := lt_of_mem_block hk (h ▸ add_mem_block hk' hkw' hv')
  have hpow : 2 ^ k = 2 ^ k' := by
    have := Nat.two_pow_pos k
    have := Nat.two_pow_pos k'
    omega
  exact ⟨rfl, Nat.pow_right_injective (Nat.le_refl 2) hpow⟩

theorem block_ne_below (hkw : k < w) : block w k v ≠ below w := by
  intro h
  have hzero : 0 ∈ block w k v := h ▸ Nat.two_pow_pos w
  have hlt : 2 ^ k < 2 ^ w := Nat.pow_lt_pow_right (by decide) hkw
  have hone : 2 ^ k ∈ block w k v := h ▸ hlt
  have heq := hzero.2.trans hone.2.symm
  rw [Nat.zero_div, Nat.div_self (Nat.two_pow_pos k)] at heq
  omega

end Block

/-! ### Cubes -/

section Cube

variable {w m m' v v' : ℕ}

theorem and_eq_self (hv : Nat.ldiff v m = 0) : v &&& m = v := by
  apply Nat.eq_of_testBit_eq
  intro i
  have hbit : (Nat.ldiff v m).testBit i = false := by rw [hv, Nat.zero_testBit]
  rw [Nat.testBit_ldiff] at hbit
  rw [Nat.testBit_and]
  cases hv' : v.testBit i with
  | false => rfl
  | true =>
    rw [hv'] at hbit
    simpa using hbit

theorem le_of_mem_cube (hv : Nat.ldiff v m = 0) {n : ℕ} (hn : n ∈ cube w m v) : v ≤ n := by
  have heq := hn.2
  rw [and_eq_self hv] at heq
  have hle : n &&& m ≤ n := Nat.and_le_left
  omega

theorem mem_cube_self (hlt : v < 2 ^ w) : v ∈ cube w m v := ⟨hlt, rfl⟩

/-- A bit that the mask leaves out may be set. -/
theorem or_mem_cube (hlt : v < 2 ^ w) {i : ℕ} (hi : i < w) (hm : m.testBit i = false) :
    v ||| 2 ^ i ∈ cube w m v := by
  refine ⟨Nat.or_lt_two_pow hlt (Nat.pow_lt_pow_right (by decide) hi), ?_⟩
  apply Nat.eq_of_testBit_eq
  intro j
  rw [Nat.testBit_and, Nat.testBit_and, Nat.testBit_or, Nat.testBit_two_pow]
  by_cases hj : i = j
  · subst hj
    rw [hm, Bool.and_false, Bool.and_false]
  · simp [hj]

theorem testBit_of_cube_eq (hv : Nat.ldiff v m = 0) (hlt : v < 2 ^ w)
    (h : cube w m v = cube w m' v) {i : ℕ} (hi : i < w) (hbit : m'.testBit i = true) :
    m.testBit i = true := by
  by_contra hnot
  have hm : m.testBit i = false := by simpa using hnot
  have hmem : v ||| 2 ^ i ∈ cube w m' v := h ▸ or_mem_cube hlt hi hm
  have hset := congrArg (Nat.testBit · i) hmem.2
  have hclear : v.testBit i = false := by
    rw [← and_eq_self hv, Nat.testBit_and, hm, Bool.and_false]
  simp [Nat.testBit_and, hbit, hclear] at hset

/-- **A cube has one spelling.** -/
theorem cube_inj (hv : Nat.ldiff v m = 0) (hv' : Nat.ldiff v' m' = 0) (hm : m < 2 ^ w)
    (hm' : m' < 2 ^ w) (hlt : v < 2 ^ w) (hlt' : v' < 2 ^ w) (h : cube w m v = cube w m' v') :
    v = v' ∧ m = m' := by
  have hfirst : v = v' := Nat.le_antisymm
    (le_of_mem_cube hv (h ▸ mem_cube_self hlt'))
    (le_of_mem_cube hv' (h ▸ mem_cube_self hlt))
  subst hfirst
  refine ⟨rfl, Nat.eq_of_testBit_eq fun i => ?_⟩
  -- a bit in which the masks differ could be set in one cube and not in the other
  by_cases hi : i < w
  · rw [Bool.eq_iff_iff]
    exact ⟨testBit_of_cube_eq hv' hlt h.symm hi, testBit_of_cube_eq hv hlt h hi⟩
  · have hpow : 2 ^ w ≤ 2 ^ i := Nat.pow_le_pow_right (by decide) (by omega)
    rw [Nat.testBit_eq_false_of_lt (by omega), Nat.testBit_eq_false_of_lt (by omega)]

theorem cube_ne_below (hm : m ≠ 0) (hlt : m < 2 ^ w) : cube w m v ≠ below w := by
  intro h
  have hzero : 0 ∈ cube w m v := h ▸ Nat.two_pow_pos w
  have hself : m ∈ cube w m v := h ▸ hlt
  have heq := hzero.2.trans hself.2.symm
  rw [Nat.zero_and, Nat.and_self] at heq
  exact hm heq.symm

end Cube

/-! ### Intervals -/

section Interval

variable {w low low' high high' : ℕ}

/-- **An interval has one spelling.** -/
theorem interval_inj (hle : low ≤ high) (hle' : low' ≤ high') (hlt : high < 2 ^ w)
    (hlt' : high' < 2 ^ w) (h : interval w low high = interval w low' high') :
    low = low' ∧ high = high' := by
  have hlow : low ∈ interval w low' high' := h ▸ ⟨by omega, Nat.le_refl low, hle⟩
  have hhigh : high ∈ interval w low' high' := h ▸ ⟨hlt, hle, Nat.le_refl high⟩
  have hlow' : low' ∈ interval w low high := h ▸ ⟨by omega, Nat.le_refl low', hle'⟩
  have hhigh' : high' ∈ interval w low high := h ▸ ⟨hlt', hle', Nat.le_refl high'⟩
  have := hlow.2
  have := hhigh.2
  have := hlow'.2
  have := hhigh'.2
  omega

theorem interval_ne_below (hnot : ¬ (low = 0 ∧ high + 1 = 2 ^ w)) (hlt : high < 2 ^ w) :
    interval w low high ≠ below w := by
  intro h
  have hpos := Nat.two_pow_pos w
  have hzero : 0 ∈ interval w low high := h ▸ hpos
  have hlast : 2 ^ w - 1 ∈ interval w low high := h ▸ (show 2 ^ w - 1 < 2 ^ w by omega)
  have := hzero.2
  have := hlast.2
  exact hnot (by omega)

end Interval

/-! ### Products -/

/-- A product of sets that is not empty tells its factors. -/
theorem pi_eq_pi_iff {ι : Type*} {α : ι → Type*} {s : Set ι} {t t' : ∀ i, Set (α i)}
    (hne : s.pi t ≠ ∅) : s.pi t = s.pi t' ↔ ∀ i ∈ s, t i = t' i := by
  constructor
  · intro h i hi
    have hsub := (Set.pi_subset_pi_iff.mp h.subset).resolve_right hne
    have hsup := (Set.pi_subset_pi_iff.mp h.symm.subset).resolve_right (h ▸ hne)
    exact (hsub i hi).antisymm (hsup i hi)
  · intro h
    exact Set.pi_congr rfl h

end ValueSets
