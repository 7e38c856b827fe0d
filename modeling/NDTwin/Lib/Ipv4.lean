import Mathlib.Data.List.Basic
import Mathlib.Data.List.Induction
import Mathlib.Tactic.Ring
import NDTwin.Lib.CText

/-!
# IPv4 addresses as text and as bytes

Three functions of the C library that Python's `socket` gives: `inet_pton`, which reads a full
dotted quad and nothing else; `inet_ntoa`, which writes one; and `inet_aton`, which reads every
form of an address there is (fewer than four parts, octal and hexadecimal parts, blanks and
anything after it).

## Main definitions

* `toBytes`, `ofBytes` — a number as big-endian bytes, and back.
* `split` — the fields of a text between separators.
* `pton`, `ntoa`, `aton` — the three functions.

## Main results

* `ofBytes_toBytes`, `toBytes_ofBytes` — bytes and numbers are the same thing.
* `pton_ntoa`, `ntoa_pton` — **a dotted quad is the one text of its address.**
* `aton_of_pton` — `inet_aton` reads a dotted quad as `inet_pton` does.
-/

namespace Ipv4

/-! ### Bytes -/

/-- `n.to_bytes(width, "big")`, the low `width` bytes of a number. -/
def toBytes : ℕ → ℕ → List ℕ
  | 0, _ => []
  | width + 1, n => toBytes width (n / 256) ++ [n % 256]

/-- `int.from_bytes(bytes, "big")`. -/
def ofBytes (bytes : List ℕ) : ℕ := bytes.foldl (fun n b => n * 256 + b) 0

@[simp] theorem length_toBytes (width n : ℕ) : (toBytes width n).length = width := by
  induction width generalizing n with
  | zero => rfl
  | succ width ih => simp [toBytes, ih]

theorem toBytes_lt (width n : ℕ) : ∀ b ∈ toBytes width n, b < 256 := by
  induction width generalizing n with
  | zero => simp [toBytes]
  | succ width ih =>
    intro b hb
    rw [toBytes, List.mem_append, List.mem_singleton] at hb
    rcases hb with hb | rfl
    · exact ih _ b hb
    · exact Nat.mod_lt _ (by decide)

theorem ofBytes_append_singleton (bytes : List ℕ) (b : ℕ) :
    ofBytes (bytes ++ [b]) = ofBytes bytes * 256 + b := by
  simp [ofBytes]

theorem ofBytes_toBytes {width n : ℕ} (h : n < 256 ^ width) : ofBytes (toBytes width n) = n := by
  induction width generalizing n with
  | zero =>
    rw [pow_zero] at h
    simp [toBytes, ofBytes]
    omega
  | succ width ih =>
    have hdiv : n / 256 < 256 ^ width := by
      rw [Nat.div_lt_iff_lt_mul (by decide), ← pow_succ]
      exact h
    rw [toBytes, ofBytes_append_singleton, ih hdiv]
    omega

theorem toBytes_ofBytes {bytes : List ℕ} (h : ∀ b ∈ bytes, b < 256) :
    toBytes bytes.length (ofBytes bytes) = bytes := by
  induction bytes using List.reverseRecOn with
  | nil => rfl
  | append_singleton bytes b ih =>
    have hb := h b (by simp)
    have hdiv : (ofBytes bytes * 256 + b) / 256 = ofBytes bytes := by omega
    have hmod : (ofBytes bytes * 256 + b) % 256 = b := by omega
    rw [List.length_append, List.length_singleton, ofBytes_append_singleton, toBytes, hdiv, hmod,
      ih fun b' hb' => h b' (by simp [hb'])]

theorem ofBytes_lt {bytes : List ℕ} (h : ∀ b ∈ bytes, b < 256) :
    ofBytes bytes < 256 ^ bytes.length := by
  induction bytes using List.reverseRecOn with
  | nil => simp [ofBytes]
  | append_singleton bytes b ih =>
    have hb := h b (by simp)
    have := ih fun b' hb' => h b' (by simp [hb'])
    rw [ofBytes_append_singleton, List.length_append, List.length_singleton, pow_succ]
    omega

/-! ### Fields -/

/-- The fields of a text between separators, one more than there are separators. -/
def split (sep : Char) : List Char → List (List Char)
  | [] => [[]]
  | c :: cs =>
    if c = sep then [] :: split sep cs
    else match split sep cs with
      | [] => [[c]]
      | field :: fields => (c :: field) :: fields

/-- Fields with a separator between them. -/
def unsplit (sep : Char) : List (List Char) → List Char
  | [] => []
  | [field] => field
  | field :: fields => field ++ sep :: unsplit sep fields

theorem split_ne_nil (sep : Char) (cs : List Char) : split sep cs ≠ [] := by
  cases cs with
  | nil => simp [split]
  | cons c cs =>
    rw [split]
    split
    · simp
    · split <;> simp

theorem unsplit_split (sep : Char) (cs : List Char) : unsplit sep (split sep cs) = cs := by
  induction cs with
  | nil => rfl
  | cons c cs ih =>
    rw [split]
    split
    · next hc =>
      subst hc
      cases hs : split c cs with
      | nil => exact absurd hs (split_ne_nil c cs)
      | cons field fields => rw [hs] at ih; simp [unsplit, ih]
    · cases hs : split sep cs with
      | nil => exact absurd hs (split_ne_nil sep cs)
      | cons field fields =>
        rw [hs] at ih
        cases fields with
        | nil => simpa [unsplit] using ih
        | cons field' fields => simpa [unsplit] using ih

theorem split_of_notMem {sep : Char} {cs : List Char} (h : sep ∉ cs) : split sep cs = [cs] := by
  induction cs with
  | nil => rfl
  | cons c cs ih =>
    rw [List.mem_cons, not_or] at h
    rw [split, if_neg (Ne.symm h.1), ih h.2]

theorem split_append {sep : Char} {cs : List Char} (h : sep ∉ cs) (rest : List Char) :
    split sep (cs ++ sep :: rest) = cs :: split sep rest := by
  induction cs with
  | nil => simp [split]
  | cons c cs ih =>
    rw [List.mem_cons, not_or] at h
    rw [List.cons_append, split, if_neg (Ne.symm h.1), ih h.2]

/-! ### Dotted quads -/

/-- A decimal field of a dotted quad: one to three digits, none of them a leading zero. -/
def octet? (cs : List Char) : Option ℕ :=
  if cs ≠ [] ∧ cs.length ≤ 3 ∧ cs.all Char.isDigit = true ∧ (cs.head? = some '0' → cs = ['0']) ∧
      Nat.ofDigitChars 10 cs 0 ≤ 255 then some (Nat.ofDigitChars 10 cs 0)
  else none

/-- `inet_pton(AF_INET, text)`: the four bytes of a dotted quad. -/
def pton (text : String) : Option (List ℕ) :=
  match split '.' text.toList with
  | [a, b, c, d] => [a, b, c, d].mapM octet?
  | _ => none

/-- `inet_ntoa(bytes)`. -/
def ntoa (bytes : List ℕ) : String := String.ofList (unsplit '.' (bytes.map (Nat.toDigits 10)))

theorem octet?_toDigits {b : ℕ} (hb : b < 256) : octet? (Nat.toDigits 10 b) = some b := by
  have hzero : (Nat.toDigits 10 b).head? = some '0' → Nat.toDigits 10 b = ['0'] := by
    intro h0
    rcases Nat.eq_zero_or_pos b with rfl | hpos
    · exact Nat.toDigits_zero 10
    · obtain ⟨d, ds, hd, hne⟩ := CText.toDigits_head_ne_zero hpos
      rw [hd] at h0
      exact absurd (Option.some.inj h0) hne
  rw [octet?, Nat.ofDigitChars_ten_toDigits, if_pos]
  refine ⟨Nat.toDigits_ne_nil, ?_, ?_, hzero, by omega⟩
  · exact (Nat.length_toDigits_le_iff (by decide) (by decide)).mpr (by omega)
  · exact List.all_eq_true.mpr fun c hc =>
      Nat.isDigit_of_mem_toDigits (by decide) (by decide) hc

theorem octet?_lt {cs : List Char} {b : ℕ} (h : octet? cs = some b) : b < 256 := by
  unfold octet? at h
  split at h
  · next hc => cases h; omega
  · cases h

theorem digitChar_of_isDigit {c : Char} (h : c.isDigit = true) :
    (c.toNat - '0'.toNat).digitChar = c ∧ c.toNat - '0'.toNat < 10 := by
  have hrange := CText.toNat_of_isDigit h
  have hlt : c.toNat - '0'.toNat < 10 := by
    show c.toNat - 48 < 10
    omega
  refine ⟨Char.toNat_inj.mp ?_, hlt⟩
  rw [Nat.toNat_digitChar_of_lt_ten hlt]
  show 48 + (c.toNat - 48) = c.toNat
  omega

/-- Digits without a leading zero are the digits of the number they write. -/
theorem toDigits_ofDigitChars {cs : List Char} (hne : cs ≠ []) (hdigits : ∀ c ∈ cs, c.isDigit = true)
    (hzero : cs.head? = some '0' → cs = ['0']) :
    Nat.toDigits 10 (Nat.ofDigitChars 10 cs 0) = cs := by
  induction cs using List.reverseRecOn with
  | nil => exact absurd rfl hne
  | append_singleton cs c ih =>
    obtain ⟨hc, hlt⟩ := digitChar_of_isDigit (hdigits c (by simp))
    rw [Nat.ofDigitChars_append, Nat.ofDigitChars_cons, Nat.ofDigitChars_nil]
    rcases List.eq_nil_or_concat cs with rfl | ⟨cs', c', hcs⟩
    · rw [Nat.ofDigitChars_nil, Nat.mul_zero, Nat.zero_add, Nat.toDigits_of_lt_base hlt, hc]
      rfl
    · have hne' : cs ≠ [] := by rw [hcs]; simp
      -- the digits before begin like the whole
      have hhead : (cs ++ [c]).head? = cs.head? := by
        cases cs with
        | nil => exact absurd rfl hne'
        | cons _ _ => rfl
      have hno : cs.head? ≠ some '0' := by
        intro h0
        have := congrArg List.length (hzero (hhead.trans h0))
        rw [hcs] at this
        simp at this
      have ih' := ih hne' (fun c hc => hdigits c (by simp [hc])) fun h0 => absurd h0 hno
      have hpos : 0 < Nat.ofDigitChars 10 cs 0 := by
        rcases Nat.eq_zero_or_pos (Nat.ofDigitChars 10 cs 0) with h0 | h0
        · rw [h0, Nat.toDigits_zero] at ih'
          exact absurd (by rw [← ih']; rfl) hno
        · exact h0
      rw [← Nat.toDigits_append_toDigits (by decide) hpos hlt, ih', Nat.toDigits_of_lt_base hlt, hc]

theorem toDigits_of_octet? {cs : List Char} {b : ℕ} (h : octet? cs = some b) :
    Nat.toDigits 10 b = cs := by
  unfold octet? at h
  split at h
  · next hc =>
    cases h
    exact toDigits_ofDigitChars hc.1 (List.all_eq_true.mp hc.2.2.1) hc.2.2.2.1
  · cases h

theorem notMem_toDigits {c : Char} (hc : c.isDigit = false) (n : ℕ) : c ∉ Nat.toDigits 10 n := by
  intro hmem
  rw [Nat.isDigit_of_mem_toDigits (by decide) (by decide) hmem] at hc
  cases hc

/-- A dotted quad has digits and dots in it and nothing else. -/
theorem notMem_ntoa {c : Char} (hdigit : c.isDigit = false) (hdot : c ≠ '.') (bytes : List ℕ) :
    c ∉ (ntoa bytes).toList := by
  rw [ntoa, String.toList_ofList]
  induction bytes with
  | nil => simp [unsplit]
  | cons b bytes ih =>
    cases bytes with
    | nil => simpa [unsplit] using notMem_toDigits hdigit b
    | cons b' bytes =>
      rw [List.map_cons, List.map_cons, unsplit, List.mem_append, List.mem_cons, not_or, not_or]
      · exact ⟨notMem_toDigits hdigit b, hdot, ih⟩
      · simp

theorem split_unsplit_toDigits {bytes : List ℕ} (h : bytes ≠ []) :
    split '.' (unsplit '.' (bytes.map (Nat.toDigits 10))) = bytes.map (Nat.toDigits 10) := by
  induction bytes with
  | nil => exact absurd rfl h
  | cons b bytes ih =>
    have hno := notMem_toDigits (show '.'.isDigit = false by decide) b
    cases bytes with
    | nil => exact split_of_notMem hno
    | cons b' bytes =>
      rw [List.map_cons, List.map_cons, unsplit, split_append hno]
      · exact congrArg _ (ih (by simp))
      · simp

theorem exists_quad {bytes : List ℕ} (h : bytes.length = 4) :
    ∃ x y z w, bytes = [x, y, z, w] := by
  match bytes, h with
  | [x, y, z, w], _ => exact ⟨x, y, z, w, rfl⟩

theorem split_of_pton {text : String} {bytes : List ℕ} (h : pton text = some bytes) :
    ∃ a b c d, split '.' text.toList = [a, b, c, d] ∧
      [a, b, c, d].mapM octet? = some bytes := by
  rw [pton] at h
  generalize split '.' text.toList = fields at h ⊢
  rcases fields with _ | ⟨a, _ | ⟨b, _ | ⟨c, _ | ⟨d, _ | ⟨e, rest⟩⟩⟩⟩⟩
  · cases h
  · cases h
  · cases h
  · cases h
  · exact ⟨a, b, c, d, rfl, h⟩
  · cases h

/-- What `inet_pton` reads of a text. -/
theorem pton_eq_some {text : String} {bytes : List ℕ} :
    pton text = some bytes ↔
      bytes.length = 4 ∧ (∀ b ∈ bytes, b < 256) ∧
        text = String.ofList (unsplit '.' (bytes.map (Nat.toDigits 10))) := by
  constructor
  · intro h
    obtain ⟨a, b, c, d, hsplit, h⟩ := split_of_pton h
    obtain ⟨x, hx, y, hy, z, hz, w, hw, rfl⟩ : ∃ x, octet? a = some x ∧ ∃ y, octet? b = some y ∧
        ∃ z, octet? c = some z ∧ ∃ w, octet? d = some w ∧ bytes = [x, y, z, w] := by
      simp only [List.mapM_cons, List.mapM_nil, bind, Option.bind_eq_some_iff, pure,
        Option.some.injEq] at h
      obtain ⟨x, hx, l, ⟨y, hy, l', ⟨z, hz, l'', ⟨w, hw, l₀, rfl, rfl⟩, rfl⟩, rfl⟩, rfl⟩ := h
      exact ⟨x, hx, y, hy, z, hz, w, hw, rfl⟩
    refine ⟨rfl, ?_, ?_⟩
    · have := octet?_lt hx
      have := octet?_lt hy
      have := octet?_lt hz
      have := octet?_lt hw
      simp only [List.mem_cons, List.not_mem_nil, or_false]
      rintro n (rfl | rfl | rfl | rfl) <;> assumption
    · have htext := unsplit_split '.' text.toList
      rw [hsplit] at htext
      simp only [List.map_cons, List.map_nil, toDigits_of_octet? hx, toDigits_of_octet? hy,
        toDigits_of_octet? hz, toDigits_of_octet? hw, htext, String.ofList_toList]
  · rintro ⟨hlen, hbytes, rfl⟩
    obtain ⟨x, y, z, w, rfl⟩ := exists_quad hlen
    simp only [List.mem_cons, List.not_mem_nil, or_false, forall_eq_or_imp, forall_eq] at hbytes
    obtain ⟨hx, hy, hz, hw⟩ := hbytes
    have hsplit : split '.' (unsplit '.' ([x, y, z, w].map (Nat.toDigits 10)))
        = [x, y, z, w].map (Nat.toDigits 10) := split_unsplit_toDigits (by simp)
    rw [pton, String.toList_ofList, hsplit]
    show [_, _, _, _].mapM octet? = _
    simp [octet?_toDigits hx, octet?_toDigits hy, octet?_toDigits hz, octet?_toDigits hw]

/-- Four bytes are read back from their text. -/
theorem pton_ntoa {bytes : List ℕ} (hlen : bytes.length = 4) (hbytes : ∀ b ∈ bytes, b < 256) :
    pton (ntoa bytes) = some bytes :=
  pton_eq_some.mpr ⟨hlen, hbytes, rfl⟩

/-- **A dotted quad is the one text of its address.** -/
theorem ntoa_pton {text : String} {bytes : List ℕ} (h : pton text = some bytes) :
    ntoa bytes = text :=
  (pton_eq_some.mp h).2.2.symm

example : pton "10.0.0.1" = some [10, 0, 0, 1] := by decide +kernel

theorem pton_inj {text text' : String} {bytes : List ℕ} (h : pton text = some bytes)
    (h' : pton text' = some bytes) : text = text' :=
  (ntoa_pton h).symm.trans (ntoa_pton h')

theorem dot_mem_of_pton {text : String} {bytes : List ℕ} (h : pton text = some bytes) :
    '.' ∈ text.toList := by
  obtain ⟨hlen, -, rfl⟩ := pton_eq_some.mp h
  obtain ⟨x, y, z, w, rfl⟩ := exists_quad hlen
  rw [String.toList_ofList]
  simp [unsplit]

/-! ### Every form of an address -/

/-- The value of an ASCII digit, letters counting on from ten. -/
def digitValue (c : Char) : ℕ :=
  if c.isDigit then c.toNat - 48
  else if 'a' ≤ c ∧ c ≤ 'f' then c.toNat - 87
  else if 'A' ≤ c ∧ c ≤ 'F' then c.toNat - 55
  else 16

/-- The digits of a base that a text begins with, as a number, and the rest of the text. -/
def digitsOf (base : ℕ) (cs : List Char) : ℕ × List Char :=
  ((cs.takeWhile fun c => digitValue c < base).foldl (fun n c => base * n + digitValue c) 0,
    cs.dropWhile fun c => digitValue c < base)

/-- `strtoul(text, &end, 0)` of a text that begins with a digit: `0x` begins a hexadecimal
number and `0` an octal one. -/
def number? : List Char → Option (ℕ × List Char)
  | [] => none
  | c :: cs =>
    if c.isDigit then
      match c, cs with
      | '0', x :: cs' =>
        if (x = 'x' ∨ x = 'X') ∧ cs'.head?.any (fun d => digitValue d < 16) then
          some (digitsOf 16 cs')
        else some (digitsOf 8 (c :: cs))
      | _, _ => some (digitsOf 10 (c :: cs))
    else none

/-- The parts of an address from one part on, with `more` more to come at most; the last part
fills the bytes that are left. -/
def parts (more : ℕ) (bytes : List ℕ) (cs : List Char) : Option (List ℕ) :=
  match number? cs with
  | none => none
  | some (n, '.' :: rest) =>
    match more with
    | 0 => none
    | more + 1 => if n ≤ 255 then parts more (bytes ++ [n]) rest else none
  | some (n, rest) =>
    -- blanks, and whatever comes after one, may follow
    if rest.head?.all (fun c => [9, 10, 11, 12, 13, 32].contains c.toNat) ∧ n < 256 ^ (more + 1) then
      some (bytes ++ toBytes (more + 1) n)
    else none

/-- `inet_aton(text)`. -/
def aton (text : String) : Option (List ℕ) := parts 3 [] text.toList

/-- An address has four bytes. -/
theorem length_parts {more : ℕ} {bytes : List ℕ} {cs : List Char} {out : List ℕ}
    (h : parts more bytes cs = some out) : out.length = bytes.length + more + 1 := by
  induction more generalizing bytes cs with
  | zero =>
    unfold parts at h
    split at h
    · cases h
    · cases h
    · split at h
      · cases h
        simp
      · cases h
  | succ more ih =>
    unfold parts at h
    split at h
    · cases h
    · dsimp only at h
      split at h
      · rw [ih h, List.length_append, List.length_singleton]
        omega
      · cases h
    · split at h
      · cases h
        simp
        omega
      · cases h

theorem length_aton {text : String} {bytes : List ℕ} (h : aton text = some bytes) :
    bytes.length = 4 :=
  length_parts h

/-- The parts of an address are bytes. -/
theorem parts_lt {more : ℕ} {bytes : List ℕ} {cs : List Char} {out : List ℕ}
    (hbytes : ∀ b ∈ bytes, b < 256) (h : parts more bytes cs = some out) : ∀ b ∈ out, b < 256 := by
  have happend : ∀ {bs bs' : List ℕ}, (∀ b ∈ bs, b < 256) → (∀ b ∈ bs', b < 256) →
      ∀ b ∈ bs ++ bs', b < 256 := fun hbs hbs' b hb =>
    (List.mem_append.mp hb).elim (hbs b) (hbs' b)
  induction more generalizing bytes cs with
  | zero =>
    unfold parts at h
    split at h
    · cases h
    · cases h
    · split at h
      · cases h
        exact happend hbytes (toBytes_lt _ _)
      · cases h
  | succ more ih =>
    unfold parts at h
    split at h
    · cases h
    · next n rest hn =>
      dsimp only at h
      split at h
      · next hle =>
        refine ih (happend hbytes fun b hb => ?_) h
        rw [List.mem_singleton.mp hb]
        omega
      · cases h
    · split at h
      · cases h
        exact happend hbytes (toBytes_lt _ _)
      · cases h

theorem aton_lt {text : String} {bytes : List ℕ} (h : aton text = some bytes) :
    ∀ b ∈ bytes, b < 256 :=
  parts_lt (List.forall_mem_nil _) h

example : aton "0x7f.1" = some [127, 0, 0, 1] := by decide +kernel

theorem digitValue_of_isDigit {c : Char} (h : c.isDigit = true) : digitValue c = c.toNat - 48 := by
  rw [digitValue, if_pos h]

/-- A decimal byte at the start of a text, if it ends there, at a full stop or at a slash. -/
theorem number?_toDigits {b : ℕ} (hb : b < 256) {rest : List Char}
    (hrest : rest = [] ∨ ∃ c rest', rest = c :: rest' ∧ (c = '.' ∨ c = '/')) :
    number? (Nat.toDigits 10 b ++ rest) = some (b, rest) := by
  have hmark : ∀ c, c = '.' ∨ c = '/' → digitValue c = 16 ∧ c ≠ 'x' ∧ c ≠ 'X' := by
    rintro c (rfl | rfl)
    · decide
    · decide
  rcases Nat.eq_zero_or_pos b with rfl | hpos
  · rcases hrest with rfl | ⟨c, rest', rfl, hc⟩
    · decide
    · have h0 : digitValue '0' = 0 := by decide
      obtain ⟨hvalue, hx, hX⟩ := hmark c hc
      rw [Nat.toDigits_zero]
      simp [number?, digitsOf, hvalue, hx, hX, h0]
  · have hdigits : ∀ c ∈ Nat.toDigits 10 b, c.isDigit = true := fun c hc =>
      Nat.isDigit_of_mem_toDigits (by decide) (by decide) hc
    have hlt : ∀ c ∈ Nat.toDigits 10 b, decide (digitValue c < 10) = true := fun c hc => by
      rw [decide_eq_true_eq, digitValue_of_isDigit (hdigits c hc)]
      exact (digitChar_of_isDigit (hdigits c hc)).2
    have hstop : rest.takeWhile (fun c => decide (digitValue c < 10)) = [] ∧
        rest.dropWhile (fun c => decide (digitValue c < 10)) = rest := by
      rcases hrest with rfl | ⟨c, rest', rfl, hc⟩
      · exact ⟨rfl, rfl⟩
      · simp [(hmark c hc).1]
    have hten : digitsOf 10 (Nat.toDigits 10 b ++ rest) = (b, rest) := by
      rw [digitsOf, List.takeWhile_append_of_pos hlt, List.dropWhile_append_of_pos hlt, hstop.1,
        hstop.2, List.append_nil]
      congr 1
      refine Eq.trans ?_ (Nat.ofDigitChars_ten_toDigits (n := b))
      rw [Nat.ofDigitChars_eq_foldl]
      refine List.foldl_ext _ _ _ ?_
      intro n c hc
      rw [digitValue_of_isDigit (hdigits c hc)]
      rfl
    obtain ⟨c, cs, hc, hne⟩ := CText.toDigits_head_ne_zero hpos
    rw [hc] at hten hdigits
    rw [hc, List.cons_append]
    rw [List.cons_append] at hten
    rw [number?, if_pos (hdigits c (by simp))]
    · rw [hten]
    · exact fun x cs' h0 _ => hne h0

/-- The parts of a dotted quad, as far as they are followed by nothing or by a slash. -/
theorem parts_quad {x y z w : ℕ} (hx : x < 256) (hy : y < 256) (hz : z < 256) (hw : w < 256)
    {rest : List Char} (hrest : rest = [] ∨ ∃ rest', rest = '/' :: rest') :
    parts 3 [] ((ntoa [x, y, z, w]).toList ++ rest) =
      if rest = [] then some [x, y, z, w] else none := by
  have hnum : ∀ {b : ℕ}, b < 256 → ∀ rest, number? (Nat.toDigits 10 b ++ '.' :: rest)
      = some (b, '.' :: rest) :=
    fun hb rest => number?_toDigits hb (.inr ⟨'.', rest, rfl, .inl rfl⟩)
  have hlast : number? (Nat.toDigits 10 w ++ rest) = some (w, rest) := by
    refine number?_toDigits hw (hrest.imp_right ?_)
    rintro ⟨rest', rfl⟩
    exact ⟨'/', rest', rfl, .inr rfl⟩
  have hw1 : toBytes 1 w = [w] := by
    rw [toBytes, toBytes, Nat.mod_eq_of_lt hw]
    rfl
  rw [ntoa, String.toList_ofList]
  simp only [List.map_cons, List.map_nil, unsplit, List.append_assoc, List.cons_append, parts,
    hnum hx, hnum hy, hnum hz, hlast]
  rw [if_pos (by omega), if_pos (by omega), if_pos (by omega)]
  rcases hrest with rfl | ⟨rest', rfl⟩
  · simp only [if_true]
    rw [if_pos ⟨rfl, by simpa using hw⟩, Nat.zero_add, hw1]
    rfl
  · simp

/-- `inet_aton` reads a dotted quad as `inet_pton` does. -/
theorem aton_of_pton {text : String} {bytes : List ℕ} (h : pton text = some bytes) :
    aton text = some bytes := by
  obtain ⟨hlen, hbytes, rfl⟩ := pton_eq_some.mp h
  obtain ⟨x, y, z, w, rfl⟩ := exists_quad hlen
  simp only [List.mem_cons, List.not_mem_nil, or_false, forall_eq_or_imp, forall_eq] at hbytes
  obtain ⟨hx, hy, hz, hw⟩ := hbytes
  have hquad := parts_quad hx hy hz hw (.inl rfl)
  rwa [List.append_nil, if_pos rfl] at hquad

/-- `inet_aton` does not read past a slash. -/
theorem aton_slash {text : String} {bytes : List ℕ} (h : pton text = some bytes)
    (rest : List Char) : aton (String.ofList (text.toList ++ '/' :: rest)) = none := by
  obtain ⟨hlen, hbytes, rfl⟩ := pton_eq_some.mp h
  obtain ⟨x, y, z, w, rfl⟩ := exists_quad hlen
  simp only [List.mem_cons, List.not_mem_nil, or_false, forall_eq_or_imp, forall_eq] at hbytes
  obtain ⟨hx, hy, hz, hw⟩ := hbytes
  have hquad := parts_quad hx hy hz hw (.inr ⟨rest, rfl⟩)
  rwa [if_neg (List.cons_ne_nil _ _), ← String.toList_ofList (l := _ ++ '/' :: rest)] at hquad

end Ipv4
