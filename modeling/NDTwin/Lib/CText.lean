import Mathlib.Algebra.Group.Int.Defs
import Mathlib.Algebra.Group.Nat.Defs
import Mathlib.Data.Int.Notation
import Mathlib.Data.List.TakeWhile
import Mathlib.Data.Nat.Notation

/-!
# Numbers in text as the C library reads them

`strtoul` and its kin take blanks, a sign, a `0x` where the base is sixteen, and as many digits
as follow; what stands after the digits is left over.  The C++ functions over them throw where
there is no digit at all or the number does not fit.

## Main definitions

* `cStr` — what a C function sees of a string: the characters before the first NUL.
* `before`, `after` — a text around its first separator.
* `strto` — the common part of the `strto…` functions.
* `stoull`, `stoi` — the functions that throw.
* `hexText` — a number in hexadecimal, filled up with zeros.

## Main results

* `strto_toDigits` — **a number that is written in decimal is read back.**
* `stoull_hexText` — **a number that is written in hexadecimal, filled up with zeros, is read back.**
* `stoull_hex` — what is read of a number after `0x`, whatever follows it.
-/

namespace CText

/-- The characters before the first NUL. -/
def cStr (cs : List Char) : List Char := cs.takeWhile (· ≠ '\x00')

/-- `isspace` in the C locale. -/
def isSpace (c : Char) : Bool := c.toNat = 32 || (9 ≤ c.toNat && c.toNat ≤ 13)

/-- A text less the blanks at both of its ends. -/
def trim (cs : List Char) : List Char :=
  ((cs.dropWhile isSpace).reverse.dropWhile isSpace).reverse

/-- What stands before the first separator: the whole text if there is none. -/
def before (sep : Char) (cs : List Char) : List Char := cs.takeWhile (· ≠ sep)

/-- What stands after the first separator: nothing if there is none. -/
def after (sep : Char) (cs : List Char) : List Char := (cs.dropWhile (· ≠ sep)).drop 1

theorem takeWhile_ne_append {sep : Char} {cs : List Char} (h : sep ∉ cs) (rest : List Char) :
    cs.takeWhile (· ≠ sep) = cs ∧ (cs ++ sep :: rest).takeWhile (· ≠ sep) = cs ∧
      (cs ++ sep :: rest).dropWhile (· ≠ sep) = sep :: rest ∧ cs.dropWhile (· ≠ sep) = [] := by
  induction cs with
  | nil => simp
  | cons c cs ih =>
    rw [List.mem_cons, not_or] at h
    obtain ⟨h₁, h₂, h₃, h₄⟩ := ih h.2
    simp_all [Ne.symm h.1]

theorem cStr_of_notMem {cs : List Char} (h : '\x00' ∉ cs) : cStr cs = cs :=
  (takeWhile_ne_append h []).1

theorem before_of_notMem {sep : Char} {cs : List Char} (h : sep ∉ cs) : before sep cs = cs :=
  (takeWhile_ne_append h []).1

theorem after_of_notMem {sep : Char} {cs : List Char} (h : sep ∉ cs) : after sep cs = [] := by
  rw [after, (takeWhile_ne_append h []).2.2.2]
  rfl

theorem before_append {sep : Char} {cs : List Char} (h : sep ∉ cs) (rest : List Char) :
    before sep (cs ++ sep :: rest) = cs :=
  (takeWhile_ne_append h rest).2.1

theorem after_append {sep : Char} {cs : List Char} (h : sep ∉ cs) (rest : List Char) :
    after sep (cs ++ sep :: rest) = rest := by
  rw [after, (takeWhile_ne_append h rest).2.2.1]
  rfl

/-- The value of a digit, letters counting on from ten. -/
def digitValue (c : Char) : ℕ :=
  if c.isDigit then c.toNat - 48
  else if 97 ≤ c.toNat ∧ c.toNat ≤ 122 then c.toNat - 87
  else if 65 ≤ c.toNat ∧ c.toNat ≤ 90 then c.toNat - 55
  else 36

/-- Whether a character is a digit of a base. -/
def isDigitOf (base : ℕ) (c : Char) : Bool := digitValue c < base

/-- The text less a `0x` that a hexadecimal digit follows. -/
def dropHex (base : ℕ) : List Char → List Char
  | '0' :: x :: c :: cs =>
    if base = 16 ∧ (x = 'x' ∨ x = 'X') ∧ isDigitOf 16 c = true then c :: cs else '0' :: x :: c :: cs
  | cs => cs

/-- A number at the start of a text: its sign, its digits' value and the characters left. -/
structure Number where
  negative : Bool
  magnitude : ℕ
  rest : List Char

/-- The number a text's digits write. -/
def valueOf (base : ℕ) (ds : List Char) : ℕ := ds.foldl (fun n c => n * base + digitValue c) 0

/-- The unsigned part of a number. -/
def unsigned (base : ℕ) (negative : Bool) (cs : List Char) : Option Number :=
  let body := dropHex base cs
  match body.takeWhile (isDigitOf base) with
  | [] => none
  | ds => some ⟨negative, valueOf base ds, body.dropWhile (isDigitOf base)⟩

/-- What `strtol`, `strtoul` and `strtoull` read; `none` where they convert nothing. -/
def strto (base : ℕ) (cs : List Char) : Option Number :=
  match cs.dropWhile isSpace with
  | '-' :: cs => unsigned base true cs
  | '+' :: cs => unsigned base false cs
  | cs => unsigned base false cs

/-- A number with its sign. -/
def Number.signed (n : Number) : ℤ := if n.negative then -(n.magnitude : ℤ) else n.magnitude

/-- `strtoul(cs, &end, base)`, where `unsigned long` has 64 bits: a minus sign negates within
them, and a magnitude of more bits is `ERANGE`, here `none`. -/
def Number.toUnsigned (n : Number) : Option (BitVec 64) :=
  if n.magnitude < 2 ^ 64 then some (BitVec.ofInt 64 n.signed) else none

/-- What the C++ functions throw. -/
inductive NumberError where
  | invalidArgument
  | outOfRange
  deriving DecidableEq, Repr

/-- `std::stoull(text, nullptr, base)`, and `std::stoul`. -/
def stoull (base : ℕ) (text : List Char) : Except NumberError (BitVec 64) :=
  match strto base (cStr text) with
  | none => .error .invalidArgument
  | some n =>
    match n.toUnsigned with
    | none => .error .outOfRange
    | some v => .ok v

/-- `std::stoi(text)`. -/
def stoi (text : List Char) : Except NumberError ℤ :=
  match strto 10 (cStr text) with
  | none => .error .invalidArgument
  | some n =>
    if -2 ^ 31 ≤ n.signed ∧ n.signed < 2 ^ 31 then .ok n.signed else .error .outOfRange

example : (stoull 10 "-1".toList).toOption = some (BitVec.ofNat 64 (2 ^ 64 - 1)) ∧
    (stoull 16 "0x1f".toList).toOption = some 31 ∧ (stoull 16 "0xg".toList).toOption = some 0 ∧
    (stoi " 12ab".toList).toOption = some 12 ∧ (stoi "2147483648".toList).toOption = none := by
  decide

/-! ### Reading a number back -/

theorem toNat_of_isDigit {c : Char} (h : c.isDigit = true) : 48 ≤ c.toNat ∧ c.toNat ≤ 57 := by
  unfold Char.isDigit at h
  rw [Bool.and_eq_true, decide_eq_true_eq, decide_eq_true_eq] at h
  exact ⟨UInt32.le_iff_toNat_le.mp h.1, UInt32.le_iff_toNat_le.mp h.2⟩

/-- The digits of a positive number do not begin with a zero. -/
theorem toDigits_head_ne_zero {n : ℕ} (hn : 0 < n) :
    ∃ d ds, Nat.toDigits 10 n = d :: ds ∧ d ≠ '0' := by
  induction n using Nat.strongRecOn with
  | ind n ih =>
    rcases Nat.lt_or_ge n 10 with hlt | hge
    · refine ⟨n.digitChar, [], Nat.toDigits_of_lt_base hlt, ?_⟩
      intro h0
      have := congrArg Char.toNat h0
      rw [Nat.toNat_digitChar_of_lt_ten hlt] at this
      have h48 : '0'.toNat = 48 := rfl
      omega
    · obtain ⟨d, ds, hd, hne⟩ := ih (n / 10) (by omega) (by omega)
      exact ⟨d, ds ++ [(n % 10).digitChar],
        by rw [Nat.toDigits_of_base_le (by decide) hge, hd, List.cons_append], hne⟩

theorem isDigitOf_of_isDigit {c : Char} (h : c.isDigit = true) : isDigitOf 10 c = true := by
  have hrange := toNat_of_isDigit h
  rw [isDigitOf, digitValue, if_pos h, decide_eq_true_eq]
  omega

/-- What begins with neither a blank nor a sign is read from its first character on. -/
theorem strto_eq_unsigned {c : Char} (hspace : isSpace c = false) (hminus : c ≠ '-')
    (hplus : c ≠ '+') (base : ℕ) (cs : List Char) :
    strto base (c :: cs) = unsigned base false (c :: cs) := by
  rw [strto, List.dropWhile_cons_of_neg (by simp [hspace])]
  split
  · next heq => exact absurd (List.cons.inj heq).1 hminus
  · next heq => exact absurd (List.cons.inj heq).1 hplus
  · rfl

/-- A text of digits is read to its end. -/
theorem strto_of_digits {cs : List Char} (hne : cs ≠ []) (hdigits : ∀ c ∈ cs, c.isDigit = true) :
    strto 10 cs = some ⟨false, valueOf 10 cs, []⟩ := by
  obtain ⟨c, cs, rfl⟩ := List.exists_cons_of_ne_nil hne
  have hc := toNat_of_isDigit (hdigits c List.mem_cons_self)
  have hall : ∀ c' ∈ c :: cs, isDigitOf 10 c' = true := fun c' hc' =>
    isDigitOf_of_isDigit (hdigits c' hc')
  have hspace : isSpace c = false := by
    simp only [isSpace, Bool.or_eq_false_iff, Bool.and_eq_false_iff, decide_eq_false_iff_not]
    omega
  have hminus : c ≠ '-' := by
    rintro rfl
    exact absurd hc.1 (by decide)
  have hplus : c ≠ '+' := by
    rintro rfl
    exact absurd hc.1 (by decide)
  have hhex : dropHex 10 (c :: cs) = c :: cs := by
    unfold dropHex
    split
    · next heq => simp [heq]
    · rfl
  rw [strto_eq_unsigned hspace hminus hplus, unsigned, hhex, List.takeWhile_eq_self_iff.mpr hall,
    List.dropWhile_eq_nil_iff.mpr hall]

theorem valueOf_of_digits {cs : List Char} (hdigits : ∀ c ∈ cs, c.isDigit = true) (init : ℕ) :
    cs.foldl (fun n c => n * 10 + digitValue c) init = Nat.ofDigitChars 10 cs init := by
  induction cs generalizing init with
  | nil =>
    rw [Nat.ofDigitChars_nil]
    rfl
  | cons c cs ih =>
    rw [List.foldl_cons, Nat.ofDigitChars_cons,
      ih fun c' hc' => hdigits c' (List.mem_cons_of_mem _ hc'), digitValue,
      if_pos (hdigits c List.mem_cons_self), Nat.mul_comm]
    rfl

/-- **A number that is written in decimal is read back.** -/
theorem strto_toDigits (n : ℕ) : strto 10 (Nat.toDigits 10 n) = some ⟨false, n, []⟩ := by
  have hdigits : ∀ c ∈ Nat.toDigits 10 n, c.isDigit = true := fun c hc =>
    Nat.isDigit_of_mem_toDigits (by decide) (by decide) hc
  rw [strto_of_digits Nat.toDigits_ne_nil hdigits, valueOf, valueOf_of_digits hdigits,
    Nat.ofDigitChars_ten_toDigits]

/-! ### Reading a hexadecimal number back -/

/-- `f"{n:0{width}x}"`. -/
def hexText (width n : ℕ) : List Char :=
  List.replicate (width - (Nat.toDigits 16 n).length) '0' ++ Nat.toDigits 16 n

theorem digitValue_digitChar {d : ℕ} (hd : d < 16) : digitValue d.digitChar = d := by
  have hall : ∀ d < 16, digitValue (Nat.digitChar d) = d := by decide
  exact hall d hd

theorem isDigitOf_of_mem_toDigits {n : ℕ} {c : Char} (hc : c ∈ Nat.toDigits 16 n) :
    isDigitOf 16 c = true := by
  induction n using Nat.strongRecOn generalizing c with
  | ind n ih =>
    have hdigit : ∀ d < 16, isDigitOf 16 (Nat.digitChar d) = true := by
      intro d hd
      simp [isDigitOf, digitValue_digitChar hd, hd]
    rcases Nat.lt_or_ge n 16 with hlt | hge
    · rw [Nat.toDigits_of_lt_base hlt, List.mem_singleton] at hc
      exact hc ▸ hdigit n hlt
    · rw [Nat.toDigits_of_base_le (by decide) hge, List.mem_append, List.mem_singleton] at hc
      rcases hc with hc | rfl
      · exact ih (n / 16) (by omega) hc
      · exact hdigit _ (Nat.mod_lt _ (by decide))

theorem isDigitOf_of_mem_hexText {width n : ℕ} {c : Char} (hc : c ∈ hexText width n) :
    isDigitOf 16 c = true := by
  rcases List.mem_append.mp hc with hc | hc
  · rw [(List.mem_replicate.mp hc).2]
    rfl
  · exact isDigitOf_of_mem_toDigits hc

theorem hexText_ne_nil (width n : ℕ) : hexText width n ≠ [] := by
  simp [hexText, Nat.toDigits_ne_nil]

theorem valueOf_concat (base : ℕ) (ds : List Char) (c : Char) :
    valueOf base (ds ++ [c]) = valueOf base ds * base + digitValue c := by
  simp [valueOf]

theorem valueOf_toDigits (n : ℕ) : valueOf 16 (Nat.toDigits 16 n) = n := by
  induction n using Nat.strongRecOn with
  | ind n ih =>
    rcases Nat.lt_or_ge n 16 with hlt | hge
    · rw [Nat.toDigits_of_lt_base hlt]
      simp [valueOf, digitValue_digitChar hlt]
    · rw [Nat.toDigits_of_base_le (by decide) hge, valueOf_concat, ih (n / 16) (by omega),
        digitValue_digitChar (Nat.mod_lt _ (by decide))]
      omega

theorem valueOf_hexText (width n : ℕ) : valueOf 16 (hexText width n) = n := by
  have hzeros (k : ℕ) (ds : List Char) :
      valueOf 16 (List.replicate k '0' ++ ds) = valueOf 16 ds := by
    induction k with
    | zero => rfl
    | succ k ih =>
      rw [List.replicate_succ, List.cons_append]
      exact ih
  rw [hexText, hzeros, valueOf_toDigits]

/-- A text of hexadecimal digits is read to its end. -/
theorem strto_of_hexDigits {cs : List Char} (hne : cs ≠ [])
    (hdigits : ∀ c ∈ cs, isDigitOf 16 c = true) :
    strto 16 cs = some ⟨false, valueOf 16 cs, []⟩ := by
  obtain ⟨c, cs, rfl⟩ := List.exists_cons_of_ne_nil hne
  have hc := hdigits c List.mem_cons_self
  -- what is no digit has the value 36
  have hspace : isSpace c = false := by
    rw [← Bool.not_eq_true]
    intro hblank
    have hother : ¬ (c.isDigit = true) ∧ ¬ (97 ≤ c.toNat ∧ c.toNat ≤ 122) ∧
        ¬ (65 ≤ c.toNat ∧ c.toNat ≤ 90) := by
      simp only [isSpace, Bool.or_eq_true, Bool.and_eq_true, decide_eq_true_eq] at hblank
      refine ⟨fun hdigit => ?_, by omega, by omega⟩
      have := toNat_of_isDigit hdigit
      omega
    rw [isDigitOf, digitValue, if_neg hother.1, if_neg hother.2.1, if_neg hother.2.2] at hc
    exact absurd hc (by decide)
  have hminus : c ≠ '-' := by
    rintro rfl
    exact absurd hc (by decide)
  have hplus : c ≠ '+' := by
    rintro rfl
    exact absurd hc (by decide)
  have hhex : dropHex 16 (c :: cs) = c :: cs := by
    unfold dropHex
    split
    · next x d ds heq =>
      rw [if_neg]
      · exact heq.symm
      · rintro ⟨-, hx, -⟩
        have hxdigit := hdigits x (by simp [heq])
        rcases hx with rfl | rfl
        · exact absurd hxdigit (by decide)
        · exact absurd hxdigit (by decide)
    · rfl
  rw [strto_eq_unsigned hspace hminus hplus, unsigned, hhex, List.takeWhile_eq_self_iff.mpr hdigits,
    List.dropWhile_eq_nil_iff.mpr hdigits]

/-- **A number that is written in hexadecimal is read back**, whatever it is filled up to. -/
theorem stoull_hexText (width : ℕ) {n : ℕ} (hn : n < 2 ^ 64) :
    stoull 16 (hexText width n) = .ok (BitVec.ofNat 64 n) := by
  have hdigits : ∀ c ∈ hexText width n, isDigitOf 16 c = true :=
    fun _ hc => isDigitOf_of_mem_hexText hc
  have hnul : '\x00' ∉ hexText width n := fun hmem => absurd (hdigits _ hmem) (by decide)
  have hunsigned : Number.toUnsigned ⟨false, n, []⟩ = some (BitVec.ofNat 64 n) := by
    rw [Number.toUnsigned, if_pos hn]
    simp [Number.signed]
  rw [stoull, cStr_of_notMem hnul, strto_of_hexDigits (hexText_ne_nil width n) hdigits,
    valueOf_hexText]
  simp only [hunsigned]

/-! ### A number after `0x` -/

/-- A number after `0x` is as many hexadecimal digits as follow; where none does, the zero before
the `x` is all that is read. -/
theorem strto_hex {x : Char} (hx : x = 'x' ∨ x = 'X') (cs : List Char) :
    ∃ rest, strto 16 ('0' :: x :: cs) =
      some ⟨false, valueOf 16 (cs.takeWhile (isDigitOf 16)), rest⟩ := by
  have hxdigit : isDigitOf 16 x = false := by rcases hx with rfl | rfl <;> decide
  have hzero : isDigitOf 16 '0' = true := by decide
  rw [strto_eq_unsigned (by decide) (by decide) (by decide)]
  cases cs with
  | nil =>
    refine ⟨[x], ?_⟩
    rw [unsigned, dropHex]
    · simp only [List.takeWhile_cons, List.dropWhile_cons, hzero, hxdigit, if_true,
        Bool.false_eq_true, if_false, List.takeWhile_nil]
      rfl
    · simp
  | cons c cs =>
    cases hc : isDigitOf 16 c with
    | true =>
      refine ⟨cs.dropWhile (isDigitOf 16), ?_⟩
      rw [unsigned, dropHex, if_pos ⟨rfl, hx, hc⟩]
      simp only [List.takeWhile_cons, List.dropWhile_cons, hc, if_true]
    | false =>
      refine ⟨x :: c :: cs, ?_⟩
      rw [unsigned, dropHex, if_neg (by simp [hc])]
      simp only [List.takeWhile_cons, List.dropWhile_cons, hzero, hxdigit, hc, if_true,
        Bool.false_eq_true, if_false]
      rfl

/-- What `std::stoull` makes of a number after `0x`, which a NUL ends like anything that is no
digit. -/
theorem stoull_hex {x : Char} (hx : x = 'x' ∨ x = 'X') (cs : List Char) :
    stoull 16 ('0' :: x :: cs) =
      if valueOf 16 (cs.takeWhile (isDigitOf 16)) < 2 ^ 64 then
        .ok (BitVec.ofNat 64 (valueOf 16 (cs.takeWhile (isDigitOf 16))))
      else .error .outOfRange := by
  have hnul : x ≠ '\x00' := by rcases hx with rfl | rfl <;> decide
  have hcStr : cStr ('0' :: x :: cs) = '0' :: x :: cStr cs := by
    rw [cStr, List.takeWhile_cons_of_pos (by decide), List.takeWhile_cons_of_pos (by simp [hnul])]
    rfl
  have hdigits : (cStr cs).takeWhile (isDigitOf 16) = cs.takeWhile (isDigitOf 16) := by
    rw [cStr, List.takeWhile_takeWhile]
    congr 1
    funext c
    by_cases hc : c = '\x00'
    · subst hc
      decide
    · simp [hc]
  obtain ⟨rest, hstrto⟩ := strto_hex hx (cStr cs)
  rw [stoull, hcStr, hstrto, hdigits]
  by_cases hlt : valueOf 16 (cs.takeWhile (isDigitOf 16)) < 2 ^ 64
  · simp only [Number.toUnsigned, Number.signed, if_pos hlt, Bool.false_eq_true, if_false,
      BitVec.ofInt_natCast]
  · simp only [Number.toUnsigned, if_neg hlt]

end CText
