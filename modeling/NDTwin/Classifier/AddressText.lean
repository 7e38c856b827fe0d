import NDTwin.Classifier.Parse

/-!
# Addresses of a match as text

An address of a match is a dotted quad, and after a slash its mask in one of three notations: a
prefix length, a dotted netmask or a number in hexadecimal.  The notations are said here without the
parser, and the parser reads exactly the texts that are written in one of them.

## Main definitions

* `Quad` — a dotted quad and the address it writes.
* `MaskText` — the mask that a text after the slash stands for.
* `AddressText` — an address with its mask.

## Main results

* `getLsbD_prefixMask` — the bits of the mask of a prefix length.
* `parseMask_eq_ok_iff` — **the masks that are read are those of the three notations.**
* `parseIpv4WithMaskOrPrefix_eq_ok_iff` — the addresses that are read, with their masks.
-/

namespace NDTwin.Classifier

open CText

variable {F : Type}

/-- A text that writes an address as a dotted quad, the highest byte first.  A C function sees
nothing of a text after a NUL. -/
def Quad (text : List Char) (addr : BitVec 32) : Prop :=
  ∃ bytes : List ℕ, bytes.length = 4 ∧ (∀ b ∈ bytes, b < 256) ∧
    cStr text = (Ipv4.ntoa bytes).toList ∧ addr = BitVec.ofNat 32 (Ipv4.ofBytes bytes)

/-- The mask that the text after the slash of an address stands for. -/
inductive MaskText : List Char → BitVec 32 → Prop where
  /-- No text: the address of a host. -/
  | host : MaskText [] (BitVec.allOnes 32)
  /-- A prefix length in decimal: as many bits, from the highest on. -/
  | prefixLength {digits : List Char} {len : ℕ} {mask : BitVec 32} (hne : digits ≠ [])
      (hdigits : ∀ c ∈ digits, c.isDigit = true) (hlen : Nat.ofDigitChars 10 digits 0 = len)
      (hle : len ≤ 32) (hmask : ∀ i < 32, mask.getLsbD i = decide (32 - len ≤ i)) :
      MaskText digits mask
  /-- A netmask as a dotted quad. -/
  | netmask {text : List Char} {mask : BitVec 32} (hquad : Quad text mask) : MaskText text mask
  /-- A number of at most 64 bits in hexadecimal, of which the low 32 count.  What follows its
  digits is not read; something must follow the `0x`. -/
  | hexadecimal {x : Char} {digits rest : List Char} (hx : x = 'x' ∨ x = 'X')
      (hdigits : ∀ c ∈ digits, isDigitOf 16 c = true)
      (hrest : ∀ c ∈ rest.head?, isDigitOf 16 c = false) (hne : digits ++ rest ≠ [])
      (hlt : valueOf 16 digits < 2 ^ 64) :
      MaskText ('0' :: x :: (digits ++ rest)) (BitVec.ofNat 32 (valueOf 16 digits))

/-- An address with its mask: what stands before the first slash, and after it. -/
def AddressText (text : List Char) (addr mask : BitVec 32) : Prop :=
  Quad (before '/' text) addr ∧ MaskText (after '/' text) mask

/-! ### Dotted quads -/

theorem parseIpv4AddrHost_eq_some_iff {text : List Char} {addr : BitVec 32} :
    parseIpv4AddrHost text = some addr ↔ Quad text addr := by
  unfold parseIpv4AddrHost Quad
  rw [Option.map_eq_some_iff]
  constructor
  · rintro ⟨bytes, hpton, rfl⟩
    obtain ⟨hlen, hbytes, htext⟩ := Ipv4.pton_eq_some.mp hpton
    refine ⟨bytes, hlen, hbytes, ?_, rfl⟩
    rw [Ipv4.ntoa, ← htext, String.toList_ofList]
  · rintro ⟨bytes, hlen, hbytes, htext, rfl⟩
    refine ⟨bytes, ?_, rfl⟩
    rw [htext, String.ofList_toList]
    exact Ipv4.pton_ntoa hlen hbytes

/-- A dotted quad has a dot in it, so it is no prefix length. -/
theorem Quad.dot_mem {text : List Char} {addr : BitVec 32} (h : Quad text addr) : '.' ∈ text := by
  obtain ⟨bytes, hlen, hbytes, htext, -⟩ := h
  have hdot := Ipv4.dot_mem_of_pton (Ipv4.pton_ntoa hlen hbytes)
  rw [← htext] at hdot
  exact (List.takeWhile_prefix _).mem hdot

theorem exists_of_looksHex {text : List Char} (h : looksHex text = true) :
    ∃ x cs, (x = 'x' ∨ x = 'X') ∧ cs ≠ [] ∧ text = '0' :: x :: cs := by
  unfold looksHex at h
  split at h
  · next x c cs => exact ⟨x, c :: cs, by simpa using h, by simp, rfl⟩
  · cases h

/-- A dotted quad has no letter in it, so it is no number in hexadecimal. -/
theorem Quad.not_looksHex {text : List Char} {addr : BitVec 32} (h : Quad text addr) :
    looksHex text = false := by
  obtain ⟨bytes, -, -, htext, -⟩ := h
  rw [← Bool.not_eq_true]
  intro hhex
  obtain ⟨x, cs, hx, -, rfl⟩ := exists_of_looksHex hhex
  have hother : x ≠ '\x00' ∧ x.isDigit = false ∧ x ≠ '.' := by
    rcases hx with rfl | rfl <;> decide
  have hmem : x ∈ cStr ('0' :: x :: cs) := by
    rw [cStr, List.takeWhile_cons_of_pos (by decide),
      List.takeWhile_cons_of_pos (by simp [hother.1])]
    simp
  rw [htext] at hmem
  exact Ipv4.notMem_ntoa hother.2.1 hother.2.2 bytes hmem

/-! ### The three notations -/

/-- **The mask of a prefix length is its highest bits.** -/
theorem getLsbD_prefixMask {len i : ℕ} (hle : len ≤ 32) (hi : i < 32) :
    (prefixMask len).getLsbD i = decide (32 - len ≤ i) := by
  unfold prefixMask
  split
  · next h0 =>
    subst h0
    simp
    omega
  · split
    · next h32 =>
      subst h32
      rw [BitVec.getLsbD_allOnes, Nat.sub_self]
      simp [hi]
    · have hshifted : i - (32 - len) < 32 := by omega
      rw [BitVec.getLsbD_shiftLeft, BitVec.getLsbD_allOnes, decide_eq_true hi,
        decide_eq_true hshifted, Bool.true_and, Bool.and_true, ← decide_not]
      simp only [Nat.not_lt]

/-- Digits are read whole. -/
theorem stoi_of_digits {digits : List Char} (hne : digits ≠ [])
    (hdigits : ∀ c ∈ digits, c.isDigit = true) :
    stoi digits = if Nat.ofDigitChars 10 digits 0 < 2 ^ 31 then
        .ok (Nat.ofDigitChars 10 digits 0 : ℤ)
      else .error .outOfRange := by
  have hnul : '\x00' ∉ digits := fun hmem => absurd (hdigits _ hmem) (by decide)
  have hvalue : valueOf 10 digits = Nat.ofDigitChars 10 digits 0 := valueOf_of_digits hdigits 0
  rw [stoi, cStr_of_notMem hnul, strto_of_digits hne hdigits, hvalue]
  simp only [Number.signed, Bool.false_eq_true, if_false]
  by_cases hlt : Nat.ofDigitChars 10 digits 0 < 2 ^ 31
  · rw [if_pos hlt, if_pos (by omega)]
  · rw [if_neg hlt, if_neg (by omega)]

theorem parseMask_of_digits {digits : List Char} {mask : BitVec 32} (hne : digits ≠ [])
    (hdigits : ∀ c ∈ digits, c.isDigit = true) :
    parseMask digits = .ok (some mask) ↔
      Nat.ofDigitChars 10 digits 0 ≤ 32 ∧ mask = prefixMask (Nat.ofDigitChars 10 digits 0) := by
  rw [parseMask, if_neg hne, if_pos (List.all_eq_true.mpr hdigits), stoi_of_digits hne hdigits]
  generalize Nat.ofDigitChars 10 digits 0 = len
  by_cases hlt : len < 2 ^ 31
  · rw [if_pos hlt]
    show (if (len : ℤ) < 0 ∨ 32 < (len : ℤ) then Except.ok none
      else Except.ok (some (prefixMask len))) = _ ↔ _
    by_cases hle : len ≤ 32
    · rw [if_neg (by omega)]
      simp [hle, eq_comm]
    · rw [if_pos (by omega)]
      simp [hle]
  · rw [if_neg hlt]
    constructor
    · intro h
      cases h
    · intro h
      omega

theorem parseMask_hex {x : Char} (hx : x = 'x' ∨ x = 'X') {cs : List Char} (hne : cs ≠ [])
    {mask : BitVec 32} :
    parseMask ('0' :: x :: cs) = .ok (some mask) ↔
      valueOf 16 (cs.takeWhile (isDigitOf 16)) < 2 ^ 64 ∧
        mask = BitVec.ofNat 32 (valueOf 16 (cs.takeWhile (isDigitOf 16))) := by
  obtain ⟨c, cs, rfl⟩ := List.exists_cons_of_ne_nil hne
  have hdigit : x.isDigit = false := by rcases hx with rfl | rfl <;> decide
  have hhex : looksHex ('0' :: x :: c :: cs) = true := by
    rcases hx with rfl | rfl <;> rfl
  rw [parseMask, if_neg (by simp), if_neg (by simp [hdigit]), if_pos hhex, stoull_hex hx]
  generalize valueOf 16 ((c :: cs).takeWhile (isDigitOf 16)) = v
  by_cases hlt : v < 2 ^ 64
  · rw [if_pos hlt, and_iff_right hlt]
    simp only [BitVec.setWidth_ofNat_of_le (show 32 ≤ 64 by decide), Except.ok.injEq,
      Option.some.injEq]
    exact eq_comm
  · rw [if_neg hlt]
    constructor
    · intro h
      cases h
    · intro h
      exact absurd h.1 hlt

/-- **The masks that are read are those of the three notations.** -/
theorem parseMask_eq_ok_iff {text : List Char} {mask : BitVec 32} :
    parseMask text = .ok (some mask) ↔ MaskText text mask := by
  constructor
  · intro h
    by_cases hnil : text = []
    · subst hnil
      cases h
      exact .host
    by_cases hall : text.all Char.isDigit = true
    · have hdigits := List.all_eq_true.mp hall
      obtain ⟨hle, rfl⟩ := (parseMask_of_digits hnil hdigits).mp h
      exact .prefixLength hnil hdigits rfl hle fun _ hi => getLsbD_prefixMask hle hi
    by_cases hhex : looksHex text = true
    · obtain ⟨x, cs, hx, hne, rfl⟩ := exists_of_looksHex hhex
      obtain ⟨hlt, rfl⟩ := (parseMask_hex hx hne).mp h
      have hcs : cs.takeWhile (isDigitOf 16) ++ cs.dropWhile (isDigitOf 16) = cs :=
        List.takeWhile_append_dropWhile
      have hrest : ∀ c ∈ (cs.dropWhile (isDigitOf 16)).head?, isDigitOf 16 c = false := by
        intro c hc
        have hnot := List.head?_dropWhile_not (isDigitOf 16) cs
        rwa [Option.mem_def.mp hc] at hnot
      have htext := MaskText.hexadecimal hx (fun c hc => List.mem_takeWhile_imp hc) hrest
        (by rw [hcs]; exact hne) hlt
      rwa [hcs] at htext
    · rw [parseMask, if_neg hnil, if_neg hall, if_neg hhex, Except.ok.injEq] at h
      exact .netmask (parseIpv4AddrHost_eq_some_iff.mp h)
  · intro h
    cases h with
    | host => rfl
    | prefixLength hne hdigits hlen hle hmask =>
      subst hlen
      refine (parseMask_of_digits hne hdigits).mpr ⟨hle, ?_⟩
      refine BitVec.eq_of_getLsbD_eq fun i hi => ?_
      rw [hmask i hi, getLsbD_prefixMask hle hi]
    | netmask hquad =>
      have hdot := hquad.dot_mem
      have hnil : text ≠ [] := List.ne_nil_of_mem hdot
      have hall : ¬ text.all Char.isDigit = true := by
        intro hall
        exact absurd (List.all_eq_true.mp hall _ hdot) (by decide)
      rw [parseMask, if_neg hnil, if_neg hall, if_neg (by simp [hquad.not_looksHex]),
        parseIpv4AddrHost_eq_some_iff.mpr hquad]
    | hexadecimal hx hdigits hrest hne hlt =>
      rename_i x digits rest
      have htake : (digits ++ rest).takeWhile (isDigitOf 16) = digits := by
        rw [List.takeWhile_append_of_pos hdigits]
        cases rest with
        | nil => simp
        | cons c cs => simp [hrest c (by simp)]
      rw [parseMask_hex hx hne, htake]
      exact ⟨hlt, rfl⟩

/-- **The addresses that are read, with their masks.** -/
theorem parseIpv4WithMaskOrPrefix_eq_ok_iff {j : Json F} {addr mask : BitVec 32} :
    parseIpv4WithMaskOrPrefix j = .ok (some (addr, mask)) ↔
      ∃ s, j = .str s ∧ AddressText s.toList addr mask := by
  have hstr (s : String) : parseIpv4WithMaskOrPrefix (.str s : Json F) = .ok (some (addr, mask)) ↔
      AddressText s.toList addr mask := by
    unfold AddressText
    rw [← parseIpv4AddrHost_eq_some_iff, ← parseMask_eq_ok_iff, parseIpv4WithMaskOrPrefix]
    cases parseIpv4AddrHost (before '/' s.toList) with
    | none => simp
    | some addr' =>
      cases parseMask (after '/' s.toList) with
      | error e => simp [bind, Except.bind]
      | ok mask' =>
        cases mask' with
        | none => simp [bind, Except.bind, pure, Except.pure]
        | some mask' => simp [bind, Except.bind, pure, Except.pure]
  constructor
  · intro h
    cases j with
    | str s => exact ⟨s, rfl, (hstr s).mp h⟩
    | null => cases h
    | bool b => cases h
    | int n => cases h
    | float x => cases h
    | arr xs => cases h
    | obj fields => cases h
  · rintro ⟨s, rfl, h⟩
    exact (hstr s).mpr h

end NDTwin.Classifier
