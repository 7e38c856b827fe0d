import Mathlib.Data.Int.Notation
import Mathlib.Data.List.TakeWhile
import Mathlib.Data.Nat.Notation

/-!
# Python's `int(text, base)`

The text of an integer as Python reads it: blanks around it, a sign, a `0x` before
hexadecimal digits, single underscores between digits, and a decimal digit of any
script where an ASCII one may stand.  A decimal text of more than 4300 digits is
refused, like one that is no number.

## Main definitions

* `isSpace`, `decimal?`, `digit?` — the characters.
* `digits` — a run of digits with underscores between them.
* `ofString` — `int(text, base)`, `none` for a `ValueError`.

## Main results

* `notMem_of_ofString` — the characters that no number is written with.
-/

namespace PyInt

/-- The code points `int` takes for blanks. -/
def spaces : List ℕ :=
  [9, 10, 11, 12, 13, 32, 133, 160, 5760, 8192, 8193, 8194, 8195, 8196, 8197, 8198, 8199, 8200,
    8201, 8202, 8232, 8233, 8239, 8287, 12288]

/-- The code points of the zeros of Unicode's decimal digits; each script's nine other
digits follow its zero. -/
def zeros : List ℕ :=
  [48, 1632, 1776, 1984, 2406, 2534, 2662, 2790, 2918, 3046, 3174, 3302, 3430, 3558, 3664, 3792,
    3872, 4160, 4240, 6112, 6160, 6470, 6608, 6784, 6800, 6992, 7088, 7232, 7248, 42528, 43216,
    43264, 43472, 43504, 43600, 44016, 65296, 66720, 68912, 69734, 69872, 69942, 70096, 70384,
    70736, 70864, 71248, 71360, 71472, 71904, 72016, 72784, 73040, 73120, 73552, 92768, 92864,
    93008, 120782, 120792, 120802, 120812, 120822, 123200, 123632, 124144, 125264, 130032]

/-- Whether `int` takes a character for a blank. -/
def isSpace (c : Char) : Bool := spaces.contains c.toNat

/-- The value of a decimal digit of any script. -/
def decimal? (c : Char) : Option ℕ :=
  zeros.findSome? fun z => if z ≤ c.toNat ∧ c.toNat ≤ z + 9 then some (c.toNat - z) else none

/-- The value of a digit, letters counting on from ten, whatever the base. -/
def digitValue (c : Char) : Option ℕ :=
  if 97 ≤ c.toNat ∧ c.toNat ≤ 122 then some (c.toNat - 87)
  else if 65 ≤ c.toNat ∧ c.toNat ≤ 90 then some (c.toNat - 55)
  else decimal? c

/-- The value of a digit of a base. -/
def digit? (base : ℕ) (c : Char) : Option ℕ := (digitValue c).filter (· < base)

/-- The digits of a text, an underscore allowed only between two of them: `after` says
the character before was a digit. -/
def digits (base : ℕ) (after : Bool) : List Char → Option (List ℕ)
  | [] => if after then some [] else none
  | c :: cs =>
    if c = '_' then if after then digits base false cs else none
    else match digit? base c with
      | some d => (digits base true cs).map (d :: ·)
      | none => none

/-- A list less the blanks at both of its ends. -/
def trim (cs : List Char) : List Char :=
  ((cs.dropWhile isSpace).reverse.dropWhile isSpace).reverse

/-- The digits of a number less the sign: hexadecimal ones may have `0x` before them and
an underscore after that. -/
def body (base : ℕ) : List Char → Option (List ℕ)
  | '0' :: x :: cs =>
    if base = 16 ∧ (x = 'x' ∨ x = 'X') then
      digits base false (match cs with | '_' :: cs => cs | cs => cs)
    else digits base false ('0' :: x :: cs)
  | cs => digits base false cs

/-- How many digits a text may have: no bound where the base is a power of two. -/
def withinLimit (base : ℕ) (ds : List ℕ) : Bool :=
  base &&& (base - 1) == 0 || ds.length ≤ 4300

/-- The number a text's digits are of. -/
def magnitude (base : ℕ) (cs : List Char) : Option ℕ :=
  match body base cs with
  | some ds => if withinLimit base ds then some (ds.foldl (fun n d => n * base + d) 0) else none
  | none => none

/-- `int(text, base)`, or `none` for a `ValueError`. -/
def ofString (base : ℕ) (text : String) : Option ℤ :=
  match trim text.toList with
  | '-' :: cs => (magnitude base cs).map fun n => -(n : ℤ)
  | '+' :: cs => (magnitude base cs).map fun n => (n : ℤ)
  | cs => (magnitude base cs).map fun n => (n : ℤ)

example : ofString 16 "00000000000000ff" = some 255 ∧ ofString 16 " -0x_1_0 " = some (-16) ∧
    ofString 16 "1__0" = none ∧ ofString 10 "0x10" = none ∧ ofString 10 "٦" = some 6 := by decide

/-! ### What a number is written with -/

theorem digit_of_mem_digits {base : ℕ} {after : Bool} {cs : List Char} {ds : List ℕ}
    (h : digits base after cs = some ds) {c : Char} (hc : c ∈ cs) :
    c = '_' ∨ (digit? base c).isSome = true := by
  induction cs generalizing after ds with
  | nil => cases hc
  | cons b cs ih =>
    rw [digits] at h
    by_cases hb : b = '_'
    · rw [if_pos hb] at h
      split at h
      · rcases List.mem_cons.mp hc with rfl | hc
        · exact .inl hb
        · exact ih h hc
      · cases h
    · rw [if_neg hb] at h
      cases hd : digit? base b with
      | none => simp [hd] at h
      | some d =>
        simp only [hd] at h
        obtain ⟨ds', hds', -⟩ := Option.map_eq_some_iff.mp h
        rcases List.mem_cons.mp hc with rfl | hc
        · exact .inr (by simp [hd])
        · exact ih hds' hc

theorem mem_trim_or {cs : List Char} {c : Char} (hc : c ∈ cs) : c ∈ trim cs ∨ isSpace c = true := by
  have hdrop : ∀ {cs : List Char}, c ∈ cs → c ∈ cs.dropWhile isSpace ∨ isSpace c = true := by
    intro cs hc
    rw [← List.takeWhile_append_dropWhile (p := isSpace) (l := cs), List.mem_append] at hc
    exact hc.symm.imp_right fun hc => List.mem_takeWhile_imp hc
  rcases hdrop hc with hc | hspace
  · rcases hdrop (List.mem_reverse.mpr hc) with hc | hspace
    · exact .inl (List.mem_reverse.mpr hc)
    · exact .inr hspace
  · exact .inr hspace

/-- A character that is no digit, sign, underscore or blank is in no number. -/
theorem notMem_of_ofString {text : String} {n : ℤ} (h : ofString 10 text = some n) {c : Char}
    (hdigit : digit? 10 c = none) (hother : isSpace c = false ∧ c ≠ '_' ∧ c ≠ '-' ∧ c ≠ '+') :
    c ∉ text.toList := by
  intro hc
  have hbody : ∀ cs, body 10 cs = digits 10 false cs := by
    intro cs
    unfold body
    split
    · simp
    · rfl
  have hmagnitude : ∀ {cs k}, magnitude 10 cs = some k → c ∉ cs := by
    intro cs k hk hmem
    rw [magnitude, hbody] at hk
    cases hds : digits 10 false cs with
    | none => simp [hds] at hk
    | some ds =>
      rcases digit_of_mem_digits hds hmem with hunderscore | hsome
      · exact hother.2.1 hunderscore
      · simp [hdigit] at hsome
  have htrim : c ∈ trim text.toList := (mem_trim_or hc).resolve_right (by simp [hother.1])
  rw [ofString] at h
  split at h
  · next cs hcs =>
    obtain ⟨k, hk, -⟩ := Option.map_eq_some_iff.mp h
    obtain ⟨m, hm, -⟩ := Option.bind_eq_some_iff.mp hk
    rw [hcs] at htrim
    rcases List.mem_cons.mp htrim with hsign | hmem
    · exact hother.2.2.1 hsign
    · exact hmagnitude hm hmem
  · next cs hcs =>
    obtain ⟨k, hk, -⟩ := Option.map_eq_some_iff.mp h
    obtain ⟨m, hm, -⟩ := Option.bind_eq_some_iff.mp hk
    rw [hcs] at htrim
    rcases List.mem_cons.mp htrim with hsign | hmem
    · exact hother.2.2.2 hsign
    · exact hmagnitude hm hmem
  · obtain ⟨k, hk, -⟩ := Option.map_eq_some_iff.mp h
    obtain ⟨m, hm, -⟩ := Option.bind_eq_some_iff.mp hk
    exact hmagnitude hm htrim

end PyInt
