import NDTwin.Lib.Ipv4
import NDTwin.Lib.PyInt

/-!
# Integer literals and hexadecimal bytes in Python

`int(text, 0)` reads a text as Python's own integer literals are written, by its prefix; a number in
decimal has no zero before it, unless it is zero.  `bytes.fromhex(text)` reads two digits a byte and
passes over blanks between bytes.

## Main definitions

* `literal` — `int(text, 0)`, `none` for a `ValueError`.
* `hexNumber` — `f"0x{n:x}"`.
* `fromhex`, `hexByte` — `bytes.fromhex`, and `f"{b:02x}"`.

## Main results

* `literal_hexNumber`, `ofString_decimal` — **a number that is written in hexadecimal, or in decimal, is
  read back.**
* `fromhex_hexBytes` — bytes that are written so are read back.
-/

namespace PyInt

/-! ### Literals -/

/-- A decimal digit of any script as an ASCII one. -/
def asciiDigit (c : Char) : Char :=
  match decimal? c with
  | some d => Char.ofNat (48 + d)
  | none => c

/-- The number after a prefix, which one underscore may follow. -/
def prefixed (base : ℕ) (cs : List Char) : Option ℕ :=
  (digits base false (match cs with | '_' :: cs => cs | cs => cs)).map
    (·.foldl (fun n d => n * base + d) 0)

/-- The number of a literal less its sign. -/
def literalBody : List Char → Option ℕ
  | '0' :: x :: cs =>
    if x = 'x' ∨ x = 'X' then prefixed 16 cs
    else if x = 'o' ∨ x = 'O' then prefixed 8 cs
    else if x = 'b' ∨ x = 'B' then prefixed 2 cs
    else (magnitude 10 ('0' :: x :: cs)).filter (· = 0)
  | cs => magnitude 10 cs

/-- `int(text, 0)`, or `none` for a `ValueError`. -/
def literal (cs : List Char) : Option ℤ :=
  match (trim cs).map asciiDigit with
  | '-' :: cs => (literalBody cs).map fun n : ℕ => -(n : ℤ)
  | '+' :: cs => (literalBody cs).map fun n : ℕ => (n : ℤ)
  | cs => (literalBody cs).map fun n : ℕ => (n : ℤ)

example : literal "0x_1F".toList = some 31 ∧ literal " -10 ".toList = some (-10) ∧
    literal "00".toList = some 0 ∧ literal "010".toList = none ∧ literal "0b101".toList = some 5 ∧
    literal "0x".toList = none ∧ literal "1.0".toList = none := by decide

/-- `f"0x{n:x}"`. -/
def hexNumber (n : ℕ) : List Char := '0' :: 'x' :: Nat.toDigits 16 n

/-- The digits of a number, less their value. -/
theorem digit?_digitChar : ∀ d < 16, digit? 16 (Nat.digitChar d) = some d ∧
    Nat.digitChar d ≠ '_' ∧ isSpace (Nat.digitChar d) = false ∧
    asciiDigit (Nat.digitChar d) = Nat.digitChar d := by decide

theorem digits_append_singleton {base : ℕ} {after : Bool} {cs : List Char} {ds : List ℕ} {c : Char}
    {d : ℕ} (h : digits base after cs = some ds) (hc : c ≠ '_') (hd : digit? base c = some d) :
    digits base after (cs ++ [c]) = some (ds ++ [d]) := by
  induction cs generalizing after ds with
  | nil =>
    cases after with
    | false => cases h
    | true =>
      cases h
      simp [digits, hc, hd]
  | cons x cs ih =>
    rw [digits] at h
    rw [List.cons_append, digits]
    split at h
    · next hx =>
      rw [if_pos hx]
      split at h
      · next hafter =>
        rw [if_pos hafter]
        exact ih h
      · cases h
    · next hx =>
      rw [if_neg hx]
      split at h
      · next e he =>
        obtain ⟨ds', hds, rfl⟩ := Option.map_eq_some_iff.mp h
        simp only [ih hds, Option.map_some, List.cons_append]
      · cases h

/-- The digits a number is written with in hexadecimal have its value. -/
theorem digits_toDigits (n : ℕ) :
    ∃ ds, digits 16 false (Nat.toDigits 16 n) = some ds ∧
      ds.foldl (fun n d => n * 16 + d) 0 = n := by
  induction n using Nat.strong_induction_on with
  | _ n ih =>
    by_cases hlt : n < 16
    · refine ⟨[n], ?_, by simp⟩
      obtain ⟨hdigit, hscore, -⟩ := digit?_digitChar n hlt
      simp [Nat.toDigits_of_lt_base hlt, digits, hdigit, hscore]
    · obtain ⟨ds, hds, hvalue⟩ := ih (n / 16) (by omega)
      obtain ⟨hdigit, hscore, -⟩ := digit?_digitChar (n % 16) (Nat.mod_lt n (by decide))
      refine ⟨ds ++ [n % 16], ?_, ?_⟩
      · rw [Nat.toDigits_of_base_le (by decide) (by omega)]
        exact digits_append_singleton hds hscore hdigit
      · rw [List.foldl_append, hvalue]
        simp only [List.foldl_cons, List.foldl_nil]
        omega

/-- The characters a number is written with. -/
theorem mem_toDigits {n : ℕ} {c : Char} (h : c ∈ Nat.toDigits 16 n) :
    ∃ d < 16, c = Nat.digitChar d := by
  induction n using Nat.strong_induction_on with
  | _ n ih =>
    by_cases hlt : n < 16
    · rw [Nat.toDigits_of_lt_base hlt, List.mem_singleton] at h
      exact ⟨n, hlt, h⟩
    · rw [Nat.toDigits_of_base_le (by decide) (by omega), List.mem_append,
        List.mem_singleton] at h
      rcases h with h | h
      · exact ih (n / 16) (by omega) h
      · exact ⟨n % 16, Nat.mod_lt n (by decide), h⟩

theorem trim_of_forall {cs : List Char} (h : ∀ c ∈ cs, isSpace c = false) : trim cs = cs := by
  have hdrop : ∀ l : List Char, (∀ c ∈ l, isSpace c = false) → l.dropWhile isSpace = l := by
    intro l hl
    cases l with
    | nil => rfl
    | cons c l => rw [List.dropWhile_cons, hl c List.mem_cons_self]; rfl
  rw [trim, hdrop cs h, hdrop cs.reverse fun c hc => h c (List.mem_reverse.mp hc),
    List.reverse_reverse]

/-- **A number that is written in hexadecimal is read back.** -/
theorem literal_hexNumber (n : ℕ) : literal (hexNumber n) = some (n : ℤ) := by
  have hmem : ∀ c ∈ hexNumber n, isSpace c = false ∧ asciiDigit c = c := by
    intro c hc
    rw [hexNumber, List.mem_cons, List.mem_cons] at hc
    rcases hc with rfl | rfl | hc
    · decide
    · decide
    · obtain ⟨d, hd, rfl⟩ := mem_toDigits hc
      exact (digit?_digitChar d hd).2.2
  have hmap : (trim (hexNumber n)).map asciiDigit = hexNumber n := by
    rw [trim_of_forall fun c hc => (hmem c hc).1, List.map_congr_left fun c hc => (hmem c hc).2,
      List.map_id']
  obtain ⟨ds, hds, hvalue⟩ := digits_toDigits n
  have hbody : literalBody (hexNumber n) = some n := by
    rw [hexNumber, literalBody, if_pos (.inl rfl), prefixed]
    · rw [hds, Option.map_some, hvalue]
    · -- a digit is no underscore
      intro cs heq
      rw [heq] at hds
      cases hds
  rw [literal, hmap]
  show (literalBody (hexNumber n)).map _ = _
  rw [hbody]
  rfl

/-! ### Decimal numbers -/

theorem digit?_of_isDigit {c : Char} (h : c.isDigit = true) :
    digit? 10 c = some (c.toNat - '0'.toNat) := by
  have hc : 48 ≤ c.toNat ∧ c.toNat ≤ 57 := by
    simp only [Char.isDigit, Bool.and_eq_true, decide_eq_true_eq, ge_iff_le] at h
    exact ⟨h.1, h.2⟩
  have hdecimal : decimal? c = some (c.toNat - 48) := by
    rw [decimal?, zeros, List.findSome?_cons, if_pos hc]
  rw [digit?, digitValue, if_neg (by omega), if_neg (by omega), hdecimal]
  exact Option.filter_eq_some_iff.mpr ⟨rfl, by simpa using by omega⟩

theorem isSpace_of_isDigit {c : Char} (h : c.isDigit = true) : isSpace c = false := by
  have hc : 48 ≤ c.toNat ∧ c.toNat ≤ 57 := by
    simp only [Char.isDigit, Bool.and_eq_true, decide_eq_true_eq, ge_iff_le] at h
    exact ⟨h.1, h.2⟩
  rw [isSpace, List.contains_eq_mem, decide_eq_false_iff_not]
  intro hmem
  have hall : ∀ k ∈ spaces, k < 48 ∨ 57 < k := by decide
  have := hall _ hmem
  omega

theorem digits_of_isDigit {cs : List Char} (h : ∀ c ∈ cs, c.isDigit = true) {after : Bool}
    (hne : cs ≠ [] ∨ after = true) :
    digits 10 after cs = some (cs.map fun c => c.toNat - '0'.toNat) := by
  induction cs generalizing after with
  | nil =>
    rcases hne with hne | rfl
    · exact absurd rfl hne
    · rfl
  | cons c cs ih =>
    have hc := h c List.mem_cons_self
    have hunderscore : c ≠ '_' := by
      rintro rfl
      cases hc
    rw [digits, if_neg hunderscore]
    simp only [digit?_of_isDigit hc]
    rw [ih (fun c' hc' => h c' (List.mem_cons_of_mem _ hc')) (.inr rfl)]
    rfl

theorem foldl_digits (cs : List Char) (init : ℕ) :
    (cs.map fun c => c.toNat - '0'.toNat).foldl (fun n d => n * 10 + d) init =
      Nat.ofDigitChars 10 cs init := by
  induction cs generalizing init with
  | nil =>
    rw [Nat.ofDigitChars_nil]
    rfl
  | cons c cs ih => rw [List.map_cons, List.foldl_cons, ih, Nat.ofDigitChars_cons, Nat.mul_comm]

theorem magnitude_toDigits {n : ℕ} (hn : (Nat.toDigits 10 n).length ≤ 4300) :
    magnitude 10 (Nat.toDigits 10 n) = some n := by
  have hdigits : ∀ c ∈ Nat.toDigits 10 n, c.isDigit = true := fun c hc =>
    Nat.isDigit_of_mem_toDigits (by decide) (by decide) hc
  have hbody : body 10 (Nat.toDigits 10 n) =
      some ((Nat.toDigits 10 n).map fun c => c.toNat - '0'.toNat) := by
    have hplain : ∀ cs, body 10 cs = digits 10 false cs := by
      intro cs
      unfold body
      split
      · simp
      · rfl
    rw [hplain, digits_of_isDigit hdigits (.inl Nat.toDigits_ne_nil)]
  have hlimit : withinLimit 10 ((Nat.toDigits 10 n).map fun c => c.toNat - '0'.toNat) = true := by
    rw [withinLimit, List.length_map, Bool.or_eq_true, decide_eq_true_eq]
    exact .inr hn
  rw [magnitude, hbody]
  simp only [hlimit, if_true]
  rw [foldl_digits, Nat.ofDigitChars_ten_toDigits]

/-- **A number that is written in decimal is read back.** -/
theorem ofString_decimal {n : ℕ} (hn : (Nat.toDigits 10 n).length ≤ 4300) :
    ofString 10 (String.ofList (Nat.toDigits 10 n)) = some (n : ℤ) := by
  have hdigits : ∀ c ∈ Nat.toDigits 10 n, c.isDigit = true := fun c hc =>
    Nat.isDigit_of_mem_toDigits (by decide) (by decide) hc
  rw [ofString, String.toList_ofList,
    trim_of_forall fun c hc => isSpace_of_isDigit (hdigits c hc)]
  have hmagnitude := magnitude_toDigits hn
  obtain ⟨c, cs, hcs⟩ := List.exists_cons_of_ne_nil (Nat.toDigits_ne_nil (b := 10) (n := n))
  have hc := hdigits c (by rw [hcs]; exact List.mem_cons_self)
  rw [hcs] at hmagnitude ⊢
  split
  · next heq =>
    cases heq
    cases hc
  · next heq =>
    cases heq
    cases hc
  · rw [hmagnitude]
    rfl

theorem ofString_neg_decimal {n : ℕ} (hn : (Nat.toDigits 10 n).length ≤ 4300) :
    ofString 10 (String.ofList ('-' :: Nat.toDigits 10 n)) = some (-(n : ℤ)) := by
  have hspace : ∀ c ∈ '-' :: Nat.toDigits 10 n, isSpace c = false := by
    intro c hc
    rcases List.mem_cons.mp hc with rfl | hc
    · decide
    · exact isSpace_of_isDigit (Nat.isDigit_of_mem_toDigits (by decide) (by decide) hc)
  rw [ofString, String.toList_ofList, trim_of_forall hspace]
  simp only [magnitude_toDigits hn]
  rfl

end PyInt

namespace PyBytes

/-! ### Bytes -/

/-- The value of a hexadecimal digit in either case. -/
def hexDigit? (c : Char) : Option ℕ :=
  if 48 ≤ c.toNat ∧ c.toNat ≤ 57 then some (c.toNat - 48)
  else if 97 ≤ c.toNat ∧ c.toNat ≤ 102 then some (c.toNat - 87)
  else if 65 ≤ c.toNat ∧ c.toNat ≤ 70 then some (c.toNat - 55)
  else none

/-- The blanks `bytes.fromhex` passes over. -/
def isBlank (c : Char) : Bool := [9, 10, 11, 12, 13, 32].contains c.toNat

/-- `bytes.fromhex(text)`, or `none` for a `ValueError`. -/
def fromhex : List Char → Option (List ℕ)
  | [] => some []
  | [c] => if isBlank c then some [] else none
  | a :: b :: cs =>
    if isBlank a then fromhex (b :: cs)
    else match hexDigit? a, hexDigit? b with
      | some x, some y => (fromhex cs).map fun bytes => (16 * x + y) :: bytes
      | _, _ => none

theorem hexDigit?_lt {c : Char} {d : ℕ} (h : hexDigit? c = some d) : d < 16 := by
  unfold hexDigit? at h
  split at h
  · cases h
    omega
  split at h
  · cases h
    omega
  split at h
  · cases h
    omega
  · cases h

/-- What is read of hexadecimal digits is bytes, at most one for every two digits. -/
theorem fromhex_bytes (cs : List Char) {bytes : List ℕ} (h : fromhex cs = some bytes) :
    (∀ b ∈ bytes, b < 256) ∧ 2 * bytes.length ≤ cs.length := by
  induction cs using fromhex.induct generalizing bytes with
  | case1 =>
    cases h
    exact ⟨nofun, Nat.le_refl 0⟩
  | case2 c hblank =>
    rw [fromhex, if_pos hblank] at h
    cases h
    exact ⟨nofun, Nat.zero_le 1⟩
  | case3 c hblank =>
    rw [fromhex, if_neg hblank] at h
    cases h
  | case4 a b cs hblank ih =>
    rw [fromhex, if_pos hblank] at h
    obtain ⟨hlt, hlen⟩ := ih h
    exact ⟨hlt, Nat.le_trans hlen (Nat.le_add_right _ 1)⟩
  | case5 a b cs hblank x y hx hy ih =>
    rw [fromhex, if_neg hblank, hx, hy] at h
    obtain ⟨rest, hrest, rfl⟩ := Option.map_eq_some_iff.mp h
    obtain ⟨hlt, hlen⟩ := ih hrest
    have hx' := hexDigit?_lt hx
    have hy' := hexDigit?_lt hy
    refine ⟨?_, ?_⟩
    · intro b hb
      rcases List.mem_cons.mp hb with rfl | hb
      · omega
      · exact hlt b hb
    · simp only [List.length_cons]
      omega
  | case6 a b cs hblank hdigits =>
    rw [fromhex, if_neg hblank] at h
    split at h
    · next x y hx hy => exact absurd hy (hdigits x y hx)
    · cases h

/-- `f"{b:02x}"`. -/
def hexByte (b : ℕ) : List Char := [Nat.digitChar (b / 16), Nat.digitChar (b % 16)]

theorem hexDigit?_digitChar :
    ∀ d < 16, hexDigit? (Nat.digitChar d) = some d ∧ isBlank (Nat.digitChar d) = false := by decide

theorem fromhex_hexByte {b : ℕ} (hb : b < 256) (cs : List Char) :
    fromhex (hexByte b ++ cs) = (fromhex cs).map fun bytes => b :: bytes := by
  obtain ⟨hhigh, hblank⟩ := hexDigit?_digitChar (b / 16) (by omega)
  obtain ⟨hlow, -⟩ := hexDigit?_digitChar (b % 16) (by omega)
  have hvalue : 16 * (b / 16) + b % 16 = b := by omega
  simp only [hexByte, List.cons_append, List.nil_append, fromhex, hblank, hhigh, hlow, hvalue,
    Bool.false_eq_true, if_false]

/-- Bytes that are written in hexadecimal are read back. -/
theorem fromhex_hexBytes {bytes : List ℕ} (h : ∀ b ∈ bytes, b < 256) :
    fromhex (bytes.flatMap hexByte) = some bytes := by
  induction bytes with
  | nil => rfl
  | cons b bytes ih =>
    rw [List.flatMap_cons, fromhex_hexByte (h b List.mem_cons_self),
      ih fun x hx => h x (List.mem_cons_of_mem _ hx)]
    rfl

/-- A separator that no digit is stays out of a byte's text. -/
theorem notMem_hexByte {c : Char} (hc : ∀ d < 16, Nat.digitChar d ≠ c) {b : ℕ} (hb : b < 256) :
    c ∉ hexByte b := by
  rw [hexByte, List.mem_cons, List.mem_singleton, not_or]
  exact ⟨(hc _ (by omega)).symm, (hc _ (by omega)).symm⟩

end PyBytes
