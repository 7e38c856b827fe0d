import Mathlib.Algebra.Group.Int.Defs
import Mathlib.Algebra.Group.Nat.Defs

/-!
# Numbers of a fixed width

An unsigned number of `w` bits is a natural number below `2 ^ w`, and a signed one an integer in two's
complement: from `-2 ^ (w - 1)` up to `2 ^ (w - 1)`, the upper end left out.  What does not fit is cut
to the width.  In C++ a signed number that would have to be cut is undefined, so what is said about
signed numbers is said of those that fit.

## Main definitions

* `succU`, `addU`, `subU` — unsigned arithmetic.
* `succS` — the next signed number.

## Main results

* `succU_mod`, `succU_add_mod`, `subU_add_mod` — arithmetic on numbers that were cut before.
* `succU_of_lt`, `addU_of_lt`, `bmod_of_lt` — numbers that fit are not changed.
* `succS_bmod` — counting in a signed number.
-/

namespace Fixed

/-! ### Unsigned numbers -/

/-- The next number. -/
def succU (w n : ℕ) : ℕ := (n + 1) % 2 ^ w

/-- The sum of two numbers. -/
def addU (w a b : ℕ) : ℕ := (a + b) % 2 ^ w

/-- The difference of two numbers. -/
def subU (w a b : ℕ) : ℕ := (a + (2 ^ w - b % 2 ^ w)) % 2 ^ w

variable {w : ℕ}

theorem succU_lt (w n : ℕ) : succU w n < 2 ^ w := Nat.mod_lt _ (Nat.two_pow_pos w)

theorem addU_lt (w a b : ℕ) : addU w a b < 2 ^ w := Nat.mod_lt _ (Nat.two_pow_pos w)

theorem succU_of_lt {n : ℕ} (h : n + 1 < 2 ^ w) : succU w n = n + 1 := Nat.mod_eq_of_lt h

theorem addU_of_lt {a b : ℕ} (h : a + b < 2 ^ w) : addU w a b = a + b := Nat.mod_eq_of_lt h

theorem succU_mod (w n : ℕ) : succU w (n % 2 ^ w) = (n + 1) % 2 ^ w := Nat.mod_add_mod ..

theorem succU_add_mod (w n i : ℕ) : (succU w n + i) % 2 ^ w = (n + (i + 1)) % 2 ^ w := by
  rw [succU, Nat.mod_add_mod, Nat.add_assoc, Nat.add_comm 1 i]

/-- What was added can be taken away again. -/
theorem subU_add_mod (w a b : ℕ) : subU w ((a + b) % 2 ^ w) a = b % 2 ^ w := by
  have hle : a % 2 ^ w ≤ 2 ^ w := Nat.le_of_lt (Nat.mod_lt a (Nat.two_pow_pos w))
  have hdiv := Nat.div_add_mod a (2 ^ w)
  have hsum : a + b + (2 ^ w - a % 2 ^ w) = b + 2 ^ w * (a / 2 ^ w + 1) := by
    rw [Nat.mul_add, Nat.mul_one]
    omega
  rw [subU, Nat.mod_add_mod, hsum, Nat.add_mul_mod_self_left]

/-! ### Signed numbers -/

/-- The next number. -/
def succS (w : ℕ) (n : ℤ) : ℤ := (n + 1).bmod (2 ^ w)

theorem succS_bmod (w : ℕ) (n : ℤ) : succS w (n.bmod (2 ^ w)) = (n + 1).bmod (2 ^ w) :=
  Int.bmod_add_bmod ..

/-- A count that fits is not changed. -/
theorem bmod_of_lt {n : ℕ} (h : n < 2 ^ w) : (n : ℤ).bmod (2 ^ (w + 1)) = n := by
  refine Int.bmod_eq_of_le_mul_two ?_ ?_
  · omega
  · rw [Nat.pow_succ]
    omega

end Fixed
