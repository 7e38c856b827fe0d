import Mathlib.Data.List.Basic
import Mathlib.Tactic.Ring

/-!
# Bytes as big-endian words of 32 bits

## Main definitions

* `bytes32`, `word32` — a number as four bytes, and four bytes as a number.
* `words32` — bytes as words, up to the last whole one.

## Main results

* `words32_bytes32_append` — **a number that was written is read back.**
* `words32_append` — words of a text that ends at the end of a word.
* `flatMap_bytes32_words32` — **bytes that are read as words are written as they were.**
-/

namespace Words

/-- A number as four bytes, of which the highest comes first. -/
def bytes32 (n : ℕ) : List UInt8 :=
  [.ofNat (n / 2 ^ 24), .ofNat (n / 2 ^ 16), .ofNat (n / 2 ^ 8), .ofNat n]

/-- The number that four bytes stand for. -/
def word32 (a b c d : UInt8) : ℕ :=
  a.toNat * 2 ^ 24 + b.toNat * 2 ^ 16 + c.toNat * 2 ^ 8 + d.toNat

/-- Bytes as words. -/
def words32 : List UInt8 → List ℕ
  | a :: b :: c :: d :: bytes => word32 a b c d :: words32 bytes
  | _ => []

theorem length_bytes32 (n : ℕ) : (bytes32 n).length = 4 := rfl

/-- Four bytes of a number stand for it. -/
theorem words32_bytes32_append {n : ℕ} (h : n < 2 ^ 32) (bytes : List UInt8) :
    words32 (bytes32 n ++ bytes) = n :: words32 bytes := by
  have hword : word32 (.ofNat (n / 2 ^ 24)) (.ofNat (n / 2 ^ 16)) (.ofNat (n / 2 ^ 8)) (.ofNat n) =
      n := by
    simp only [word32, UInt8.toNat_ofNat']
    omega
  show word32 _ _ _ _ :: words32 bytes = _
  rw [hword]

theorem bytes32_word32 (a b c d : UInt8) : bytes32 (word32 a b c d) = [a, b, c, d] := by
  have ha := a.toNat_lt
  have hb := b.toNat_lt
  have hc := c.toNat_lt
  have hd := d.toNat_lt
  have hbyte : ∀ (x : UInt8) (n : ℕ), n % 2 ^ 8 = x.toNat → UInt8.ofNat n = x := by
    intro x n hn
    rw [← UInt8.toNat_inj, UInt8.toNat_ofNat', hn]
  rw [bytes32, hbyte a _ ?_, hbyte b _ ?_, hbyte c _ ?_, hbyte d _ ?_]
  all_goals
    rw [word32]
    omega

/-- What is left when no whole word is. -/
theorem length_lt_of_short {bytes : List UInt8}
    (h : ∀ a b c d rest, bytes = a :: b :: c :: d :: rest → False) : bytes.length < 4 := by
  match bytes, h with
  | [], _ => simp
  | [_], _ => simp
  | [_, _], _ => simp
  | [_, _, _], _ => simp
  | a :: b :: c :: d :: rest, h => exact absurd rfl (h a b c d rest)

theorem length_words32 (bytes : List UInt8) : (words32 bytes).length = bytes.length / 4 := by
  induction bytes using words32.induct with
  | case1 a b c d bytes ih =>
    rw [words32, List.length_cons, ih]
    simp only [List.length_cons]
    omega
  | case2 bytes hshort =>
    rw [words32.eq_2 bytes hshort, List.length_nil, Nat.div_eq_of_lt (length_lt_of_short hshort)]

/-- Where a text ends with a word, what follows is read by itself. -/
theorem words32_append {bytes : List UInt8} (h : bytes.length % 4 = 0) (rest : List UInt8) :
    words32 (bytes ++ rest) = words32 bytes ++ words32 rest := by
  induction bytes using words32.induct with
  | case1 a b c d bytes ih =>
    simp only [List.length_cons] at h
    rw [words32, List.cons_append, List.cons_append, List.cons_append, List.cons_append, words32,
      ih (by omega), List.cons_append]
  | case2 bytes hshort =>
    have hlt := length_lt_of_short hshort
    have hnil : bytes = [] := List.eq_nil_of_length_eq_zero (by omega)
    subst hnil
    rfl

/-- Whole words are written as they were read. -/
theorem flatMap_bytes32_words32 {bytes : List UInt8} (h : bytes.length % 4 = 0) :
    (words32 bytes).flatMap bytes32 = bytes := by
  induction bytes using words32.induct with
  | case1 a b c d bytes ih =>
    simp only [List.length_cons] at h
    rw [words32, List.flatMap_cons, bytes32_word32, ih (by omega)]
    rfl
  | case2 bytes hshort =>
    have hlt := length_lt_of_short hshort
    have hnil : bytes = [] := List.eq_nil_of_length_eq_zero (by omega)
    subst hnil
    rfl

/-- A word is a number of 32 bits. -/
theorem lt_of_mem_words32 {bytes : List UInt8} {w : ℕ} (h : w ∈ words32 bytes) : w < 2 ^ 32 := by
  induction bytes using words32.induct with
  | case1 a b c d bytes ih =>
    rcases List.mem_cons.mp h with rfl | h
    · have ha := a.toNat_lt
      have hb := b.toNat_lt
      have hc := c.toNat_lt
      have hd := d.toNat_lt
      unfold word32
      omega
    · exact ih h
  | case2 bytes hbytes =>
    rw [words32] at h
    · exact absurd h List.not_mem_nil
    · exact hbytes

end Words
