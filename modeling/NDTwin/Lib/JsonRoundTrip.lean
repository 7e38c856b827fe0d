import Mathlib.Data.List.TakeWhile
import NDTwin.Lib.CText
import NDTwin.Lib.JsonExtend

/-!
# What `json.dumps` writes is read back

The text of a value, in any of the usual styles, is read as the value, with the members of its
objects in the order they were written in; and what is left of an object's text after a cut is no
JSON text at all.

## Main definitions

* `Readable` — one member a key in every object, and no integer that Python refuses to print.

## Main results

* `readUnits_escape`, `readNumber_intChars` — strings and integers are read back.
* `loads_text` — **what was written is read back**, up to the order of an object's members.
* `loads_of_cut` — **a text that is cut short is not read.**
-/

namespace Json

variable {F : Type*}

/-! ### Strings -/

theorem readHex4_digits {u : ℕ} (hu : u < 65536) :
    readHex4 (hexDigit (u / 4096 % 16)) (hexDigit (u / 256 % 16)) (hexDigit (u / 16 % 16))
      (hexDigit (u % 16)) = some u := by
  have hdigit : ∀ d < 16, PyBytes.hexDigit? (hexDigit d) = some d := by decide
  unfold readHex4
  rw [hdigit _ (Nat.mod_lt _ (by decide)), hdigit _ (Nat.mod_lt _ (by decide)),
    hdigit _ (Nat.mod_lt _ (by decide)), hdigit _ (Nat.mod_lt _ (by decide))]
  simp only [Option.some_inj]
  omega

theorem readUnit_unicodeEscape {u : ℕ} (hu : u < 65536) (cs : List Char) :
    readUnit (unicodeEscape u ++ cs) = some (u, cs) := by
  simp only [unicodeEscape, List.cons_append, List.nil_append, readUnit, readHex4_digits hu,
    Option.map_some]

theorem readUnit_plain {c : Char} (hslash : c ≠ '\\') (hc : 32 ≤ c.toNat) (cs : List Char) :
    readUnit (c :: cs) = some (c.toNat, cs) := by
  rw [readUnit]
  · have hnot : (decide (c.toNat < 32) || decide (c = '\\')) = false := by
      simp only [Bool.or_eq_false_iff, decide_eq_false_iff_not]
      exact ⟨by omega, hslash⟩
    rw [hnot]
    rfl
  · intro a b d e f h
    exact absurd h hslash
  · intro x t h
    exact absurd h hslash

theorem ofUnit_toNat (c : Char) : ofUnit c.toNat = c := by
  have hvalid : c.toNat.isValidChar := c.valid
  rw [ofUnit, if_pos hvalid, Char.ofNat_toNat]

theorem joinUnits_toNat_cons (c : Char) (us : List ℕ) :
    joinUnits (c.toNat :: us) = c :: joinUnits us := by
  cases us with
  | nil => simp only [joinUnits, ofUnit_toNat]
  | cons v us =>
    rw [joinUnits, if_neg fun h => toNat_not_surrogate c h.1, ofUnit_toNat]

theorem readUnits_unicodeEscape {u : ℕ} (hu : u < 65536) (n : ℕ) (cs : List Char) :
    readUnits (n + 1) (unicodeEscape u ++ cs) = (readUnits n cs).map fun p => (u :: p.1, p.2) :=
  readUnits_cons (by decide) (readUnit_unicodeEscape hu cs)

/-- What a character's escape is read as stands for the character. -/
theorem readUnits_escapeChar (st : Style) (c : Char) (rest : List Char) :
    ∃ us : List ℕ, us.length ≤ (st.escapeChar c).length ∧
      (∀ tail, joinUnits (us ++ tail) = c :: joinUnits tail) ∧
      ∀ n, readUnits (n + us.length) (st.escapeChar c ++ rest) =
        (readUnits n rest).map fun p => (us ++ p.1, p.2) := by
  -- one code point is enough, unless the character is beyond the sixteen-bit range
  have hone : ∀ {cs : List Char} {d : Char} {t : List Char}, cs = d :: t → d ≠ '"' →
      readUnit (cs ++ rest) = some (c.toNat, rest) → ∃ us : List ℕ, us.length ≤ cs.length ∧
        (∀ tail, joinUnits (us ++ tail) = c :: joinUnits tail) ∧
        ∀ n, readUnits (n + us.length) (cs ++ rest) =
          (readUnits n rest).map fun p => (us ++ p.1, p.2) := by
    intro cs d t hcs hd hread
    subst hcs
    exact ⟨[c.toNat], Nat.le_add_left 1 t.length, fun tail => joinUnits_toNat_cons c tail,
      fun n => readUnits_cons hd hread⟩
  have hshort : ∀ x : Char, isShortEscape x = true → x ≠ 'u' → (shortEscape x).toNat = c.toNat →
      readUnit ('\\' :: x :: rest) = some (c.toNat, rest) := by
    intro x hx hu heq
    rw [readUnit, if_pos hx, heq]
    exact fun a b d e f h => absurd h hu
  unfold Style.escapeChar
  split
  · next hraw =>
    have hc : 127 ≤ c.toNat := by
      simp only [Bool.and_eq_true, decide_eq_true_eq] at hraw
      exact hraw.2
    have hq : c ≠ '"' := by
      rintro rfl
      exact absurd hc (by decide)
    have hs : c ≠ '\\' := by
      rintro rfl
      exact absurd hc (by decide)
    exact hone rfl hq (readUnit_plain hs (by omega) rest)
  unfold escapeChar
  split
  · next h => subst h; exact hone rfl (by decide) (hshort '"' rfl (by decide) rfl)
  split
  · next h => subst h; exact hone rfl (by decide) (hshort '\\' rfl (by decide) rfl)
  split
  · next h => subst h; exact hone rfl (by decide) (hshort 'n' rfl (by decide) rfl)
  split
  · next h => subst h; exact hone rfl (by decide) (hshort 'r' rfl (by decide) rfl)
  split
  · next h => subst h; exact hone rfl (by decide) (hshort 't' rfl (by decide) rfl)
  split
  · next h => exact hone rfl (by decide) (hshort 'b' rfl (by decide) h.symm)
  split
  · next h => exact hone rfl (by decide) (hshort 'f' rfl (by decide) h.symm)
  split
  · next hq hs _ _ _ _ _ h => exact hone rfl hq (readUnit_plain hs h.1 rest)
  split
  · next h => exact hone rfl (by decide) (readUnit_unicodeEscape h rest)
  · next h =>
    -- a surrogate pair
    have hlt := toNat_lt c
    have hvalue : c.toNat = 65536 + (55296 + (c.toNat - 65536) / 1024 - 55296) * 1024
        + (56320 + (c.toNat - 65536) % 1024 - 56320) := by omega
    refine ⟨[55296 + (c.toNat - 65536) / 1024, 56320 + (c.toNat - 65536) % 1024], ?_, ?_, ?_⟩
    · simp [unicodeEscape]
    · intro tail
      show joinUnits (_ :: _ :: tail) = _
      rw [joinUnits, if_pos ⟨by omega, by omega⟩, ← hvalue, Char.ofNat_toNat]
    · intro n
      rw [List.append_assoc]
      show readUnits (n + 1 + 1) _ = _
      rw [readUnits_unicodeEscape (by omega), readUnits_unicodeEscape (by omega), Option.map_map]
      rfl

/-- The characters of a string are read back. -/
theorem readUnits_escape (st : Style) (cs rest : List Char) (n : ℕ)
    (hn : (cs.flatMap st.escapeChar).length < n) :
    ∃ us, joinUnits us = cs ∧
      readUnits n (cs.flatMap st.escapeChar ++ '"' :: rest) = some (us, rest) := by
  induction cs generalizing n with
  | nil =>
    obtain ⟨k, rfl⟩ : ∃ k, n = k + 1 := ⟨n - 1, by omega⟩
    exact ⟨[], rfl, rfl⟩
  | cons c cs ih =>
    rw [List.flatMap_cons, List.length_append] at hn
    obtain ⟨us, hlen, hjoin, hread⟩ :=
      readUnits_escapeChar st c (cs.flatMap st.escapeChar ++ '"' :: rest)
    obtain ⟨us', hjoin', hread'⟩ := ih (n - us.length) (by omega)
    refine ⟨us ++ us', by rw [hjoin, hjoin'], ?_⟩
    have hsplit : n = n - us.length + us.length := by omega
    rw [hsplit, List.flatMap_cons, List.append_assoc, hread, hread']
    rfl

theorem readString_quote (st : Style) (s : String) (rest : List Char) {n : ℕ}
    (hn : (st.quote s).length ≤ n + 1) :
    readString n (s.toList.flatMap st.escapeChar ++ '"' :: rest) = some (s, rest) := by
  have hlen : (s.toList.flatMap st.escapeChar).length < n := by
    rw [Style.quote, List.length_cons, List.length_append, List.length_singleton] at hn
    omega
  obtain ⟨us, hjoin, hread⟩ := readUnits_escape st s.toList rest n hlen
  rw [readString, hread]
  simp only [Option.map_some, hjoin, String.ofList_toList]

/-! ### Numbers -/

theorem takeDigits_of_digits {ds rest : List Char} (hds : ∀ c ∈ ds, c.isDigit = true)
    (hrest : StartsOutside Char.isDigit rest) : takeDigits (ds ++ rest) = (ds, rest) := by
  have hall : takeDigits ds = (ds, []) := by
    rw [takeDigits, List.takeWhile_eq_self_iff.mpr hds, List.dropWhile_eq_nil_iff.mpr hds]
  rw [takeDigits_append ds rest (by rw [hall]; exact hrest), hall]
  rfl

theorem StartsOutside.mono {kind kind' : Char → Bool} {cs : List Char} (h : StartsOutside kind cs)
    (hkind : ∀ c, kind c = false → kind' c = false) : StartsOutside kind' cs :=
  fun c hc => hkind c (h c hc)

theorem isDigit_of_goesOn {c : Char} (h : goesOn c = false) : c.isDigit = false := by
  simp only [goesOn, Bool.or_eq_false_iff] at h
  exact h.1.1.1

theorem readWhole_toDigits (n : ℕ) {rest : List Char} (hrest : StartsOutside Char.isDigit rest) :
    readWhole (Nat.toDigits 10 n ++ rest) = some (Nat.toDigits 10 n, rest) := by
  rcases Nat.eq_zero_or_pos n with rfl | hpos
  · rfl
  · obtain ⟨d, ds, hd, hne⟩ := CText.toDigits_head_ne_zero hpos
    have hdigits : ∀ c ∈ d :: ds, c.isDigit = true := by
      intro c hc
      exact isDigit_of_mem_toDigits (hd ▸ hc)
    rw [hd, List.cons_append, readWhole, if_pos (hdigits d List.mem_cons_self), ← List.cons_append,
      takeDigits_of_digits hdigits hrest]
    exact hne

/-- Nothing of what does not go on with a number is read as its fraction or exponent. -/
theorem readFrac_of_startsOutside {cs : List Char} (h : StartsOutside goesOn cs) :
    readFrac cs = ([], cs) := by
  rcases readFrac_cases cs with ⟨t, rfl⟩ | hnone
  · exact absurd (h '.' rfl) (by decide)
  · exact hnone

theorem readExp_of_startsOutside {cs : List Char} (h : StartsOutside goesOn cs) :
    readExp cs = ([], cs) := by
  rcases readExp_cases cs with ⟨c, t, rfl, rfl | rfl⟩ | hnone
  · exact absurd (h 'e' rfl) (by decide)
  · exact absurd (h 'E' rfl) (by decide)
  · exact hnone

theorem readNumber_intChars (n : ℤ) {rest : List Char} (hrest : StartsOutside goesOn rest) :
    readNumber (intChars n ++ rest) =
      some (⟨if n < 0 then ['-'] else [], Nat.toDigits 10 n.natAbs, [], []⟩, rest) := by
  have hwhole := readWhole_toDigits n.natAbs (hrest.mono fun c => isDigit_of_goesOn)
  have hsign : readSign (intChars n ++ rest) =
      (if n < 0 then ['-'] else [], Nat.toDigits 10 n.natAbs ++ rest) := by
    unfold intChars
    split
    · rfl
    · rw [readSign]
      intro t ht
      -- a digit is not a sign
      cases hds : Nat.toDigits 10 n.natAbs with
      | nil => exact absurd hds Nat.toDigits_ne_nil
      | cons d ds =>
        rw [hds] at ht
        cases ht
        have hdigit : ('-' : Char).isDigit = true :=
          isDigit_of_mem_toDigits (n := n.natAbs) (hds ▸ List.mem_cons_self)
        exact absurd hdigit (by decide)
  rw [readNumber, hsign, hwhole]
  simp only [Option.map_some, readFrac_of_startsOutside hrest, readExp_of_startsOutside hrest]

theorem toInt_intChars (n : ℤ) :
    (⟨if n < 0 then ['-'] else [], Nat.toDigits 10 n.natAbs, [], []⟩ : NumberText).toInt = n := by
  simp only [NumberText.toInt, Nat.ofDigitChars_ten_toDigits]
  by_cases hn : n < 0
  · simp only [if_pos hn, List.cons_ne_nil, if_false]
    omega
  · simp only [if_neg hn, if_true]
    omega

/-- A number is the text it was read from. -/
theorem chars_of_readNumber {cs rest : List Char} {t : NumberText}
    (h : readNumber cs = some (t, rest)) : t.chars ++ rest = cs := by
  have htake : ∀ l, (takeDigits l).1 ++ (takeDigits l).2 = l := fun l =>
    List.takeWhile_append_dropWhile
  have hsign : (readSign cs).1 ++ (readSign cs).2 = cs := by
    unfold readSign
    split <;> rfl
  have hwhole : ∀ {l w}, readWhole l = some w → w.1 ++ w.2 = l := by
    intro l w hw
    unfold readWhole at hw
    split at hw
    · cases hw
      rfl
    · split at hw
      · cases hw
        exact htake _
      · cases hw
    · cases hw
  have hfrac : ∀ l, (readFrac l).1 ++ (readFrac l).2 = l := by
    intro l
    unfold readFrac
    split
    · next t =>
      have ht := htake t
      split
      · rfl
      · next heq =>
        rw [heq] at ht
        exact congrArg (List.cons '.') ht
    · rfl
  have hexpSign : ∀ l, (readExpSign l).1 ++ (readExpSign l).2 = l := by
    intro l
    unfold readExpSign
    split <;> rfl
  have hexp : ∀ l, (readExp l).1 ++ (readExp l).2 = l := by
    intro l
    unfold readExp
    split
    · next c t =>
      split
      · have ht := htake (readExpSign t).2
        have hs := hexpSign t
        split
        · rfl
        · next heq =>
          rw [heq] at ht
          simp only [List.cons_append, List.append_assoc, ht, hs]
      · rfl
    · rfl
  obtain ⟨w, hw, heq⟩ := Option.map_eq_some_iff.mp h
  cases heq
  simp only [NumberText.chars, List.append_assoc, hexp, hfrac, hwhole hw, hsign]

/-! ### Values -/

mutual

/-- One member a key in every object, and no integer that Python refuses to print or to read. -/
def Readable : Json F → Prop
  | .int n => (Nat.toDigits 10 n.natAbs).length ≤ 4300
  | .arr xs => ReadableList xs
  | .obj fields => (fields.map Prod.fst).Nodup ∧ ReadableFields fields
  | _ => True

/-- Every element of an array. -/
def ReadableList : List (Json F) → Prop
  | [] => True
  | x :: xs => Readable x ∧ ReadableList xs

/-- Every member of an object. -/
def ReadableFields : List (String × Json F) → Prop
  | [] => True
  | (_, x) :: fields => Readable x ∧ ReadableFields fields

end

mutual

/-- Whether a value is readable can be told by looking through it. -/
def decReadable : (v : Json F) → Decidable (Readable v)
  | .int n => inferInstanceAs (Decidable ((Nat.toDigits 10 n.natAbs).length ≤ 4300))
  | .arr xs => decReadableList xs
  | .obj fields => @instDecidableAnd _ _ inferInstance (decReadableFields fields)
  | .null => .isTrue trivial
  | .bool _ => .isTrue trivial
  | .float _ => .isTrue trivial
  | .str _ => .isTrue trivial

/-- The same of the elements of an array. -/
def decReadableList : (xs : List (Json F)) → Decidable (ReadableList xs)
  | [] => .isTrue trivial
  | x :: xs => @instDecidableAnd _ _ (decReadable x) (decReadableList xs)

/-- The same of the members of an object. -/
def decReadableFields : (fields : List (String × Json F)) → Decidable (ReadableFields fields)
  | [] => .isTrue trivial
  | (_, x) :: fields => @instDecidableAnd _ _ (decReadable x) (decReadableFields fields)

end

instance : DecidablePred (Readable (F := F)) := decReadable

section RoundTrip

variable {fl : Floats F} (fr : FloatReader fl)

/-- A number does not begin like a word. -/
theorem readBare_of_readNumeral {cs rest : List Char} {v : Json F}
    (h : readNumeral fr cs = some (v, rest)) : readBare fr cs = some (v, rest) := by
  cases cs with
  | nil => cases h
  | cons c cs =>
    by_cases hminus : c = '-'
    · subst hminus
      obtain ⟨d, t, rfl, hd⟩ := readNumeral_minus fr h
      have hne : ¬ 'I' = d := by
        rintro rfl
        exact absurd hd (by decide)
      rw [readBare, show wordOf fr '-' = none from rfl, if_pos rfl, afterWord, if_neg hne]
      exact h
    · have hdigit : c.isDigit = true := by
        have h' := h
        rw [readNumeral] at h'
        split at h'
        · cases h'
        · next t r ht =>
          obtain ⟨d, cs', heq, hd⟩ := head_of_readNumber ht
          cases heq
          exact hd.resolve_left hminus
      have hword : wordOf fr c = none := by
        unfold wordOf
        repeat rw [if_neg (by rintro rfl; exact absurd hdigit (by decide))]
      rw [readBare, hword, if_neg hminus]
      exact h

theorem readBare_int {n : ℤ} (hn : (Nat.toDigits 10 n.natAbs).length ≤ 4300) {rest : List Char}
    (hrest : StartsOutside goesOn rest) :
    readBare fr (intChars n ++ rest) = some (.int n, rest) := by
  refine readBare_of_readNumeral fr ?_
  rw [readNumeral, readNumber_intChars n hrest]
  simp only [ofNumber, and_self, if_true, if_pos hn, toInt_intChars, Option.map_some]

theorem readBare_float (x : F) {rest : List Char} (hrest : StartsOutside goesOn rest) :
    readBare fr (fl.repr x ++ rest) = some (.float x, rest) := by
  rcases fr.repr_form x with ⟨hrepr, rfl⟩ | ⟨hrepr, rfl⟩ | ⟨hrepr, rfl⟩ | ⟨t, ht, hfrac⟩
  · rw [hrepr]
    rfl
  · rw [hrepr]
    rfl
  · rw [hrepr]
    rfl
  · refine readBare_of_readNumeral fr ?_
    have hchars : t.chars = fl.repr x := by
      have := chars_of_readNumber ht
      rwa [List.append_nil] at this
    rw [readNumeral, readNumber_append ht (by rw [List.nil_append]; exact hrest)]
    simp only [ofNumber, if_neg hfrac, hchars, fr.read_repr, Option.map_some, List.nil_append]

/-- A text that does not begin with a quote or a bracket. -/
theorem not_opens_cons {c : Char} {cs : List Char} (h : c ≠ '"' ∧ c ≠ '[' ∧ c ≠ '{') :
    ¬ Opens (c :: cs) := by
  rintro ⟨d, t, heq, hd⟩
  cases heq
  rcases hd with rfl | rfl | rfl
  · exact h.1 rfl
  · exact h.2.1 rfl
  · exact h.2.2 rfl

theorem gap_skip (st : Style) {c : Char} (hc : isBlank c = false) (cs : List Char) :
    skipBlanks (st.gap ++ c :: cs) = c :: cs := by
  unfold Style.gap
  split
  · rw [List.singleton_append, skipBlanks, List.dropWhile_cons, if_pos (by decide),
      List.dropWhile_cons, hc]
    rfl
  · rw [List.nil_append, skipBlanks, List.dropWhile_cons, hc]
    rfl

theorem isBlank_of_isDigit {c : Char} (h : c.isDigit = true) : isBlank c = false := by
  cases hblank : isBlank c with
  | false => rfl
  | true =>
    simp only [isBlank, Bool.or_eq_true, decide_eq_true_eq] at hblank
    rcases hblank with ((rfl | rfl) | rfl) | rfl
    all_goals exact absurd h (by decide)

include fr in
/-- The text of a value begins with a character that is no blank and closes nothing. -/
theorem plain_head (st : Style) (v : Json F) :
    ∃ c t, plain fl st v = c :: t ∧ isBlank c = false ∧ c ≠ ']' := by
  have hnumber : ∀ c, c = '-' ∨ c.isDigit = true → isBlank c = false ∧ c ≠ ']' := by
    rintro c (rfl | hdigit)
    · decide
    · refine ⟨isBlank_of_isDigit hdigit, ?_⟩
      rintro rfl
      exact absurd hdigit (by decide)
  cases v with
  | null => exact ⟨'n', ['u', 'l', 'l'], rfl, by decide⟩
  | bool b => cases b with
    | true => exact ⟨'t', ['r', 'u', 'e'], rfl, by decide⟩
    | false => exact ⟨'f', ['a', 'l', 's', 'e'], rfl, by decide⟩
  | int n =>
    have hnil : StartsOutside goesOn [] := nofun
    obtain ⟨c, t, hc, hhead⟩ := head_of_readNumber (readNumber_intChars n hnil)
    rw [List.append_nil] at hc
    exact ⟨c, t, by rw [plain, hc], hnumber c hhead⟩
  | float x =>
    rcases fr.repr_form x with ⟨hrepr, -⟩ | ⟨hrepr, -⟩ | ⟨hrepr, -⟩ | ⟨t, ht, -⟩
    · exact ⟨'N', ['a', 'N'], by rw [plain, hrepr], by decide⟩
    · exact ⟨'I', _, by rw [plain, hrepr], by decide⟩
    · exact ⟨'-', _, by rw [plain, hrepr], by decide⟩
    · obtain ⟨c, cs, hc, hhead⟩ := head_of_readNumber ht
      exact ⟨c, cs, by rw [plain, hc], hnumber c hhead⟩
  | str s => exact ⟨'"', _, rfl, by decide⟩
  | arr xs => cases xs with
    | nil => exact ⟨'[', _, rfl, by decide⟩
    | cons x xs => exact ⟨'[', _, rfl, by decide⟩
  | obj fields => cases fields with
    | nil => exact ⟨'{', _, rfl, by decide⟩
    | cons p fields => exact ⟨'{', _, rfl, by decide⟩

include fr in
theorem plain_skip (st : Style) (v : Json F) (rest : List Char) :
    skipBlanks (st.gap ++ (plain fl st v ++ rest)) = plain fl st v ++ rest := by
  obtain ⟨c, t, hc, hblank, -⟩ := plain_head fr st v
  rw [hc, List.cons_append, gap_skip st hblank]

/-- What the text of a value is read as, within a depth. -/
def ReadsValue (st : Style) (n : ℕ) : Prop :=
  ∀ (v : Json F) (rest : List Char), Readable v → (plain fl st v).length ≤ n →
    StartsOutside goesOn rest → readValue fr n (plain fl st v ++ rest) = some (v, rest)

/-- What the text of an array's elements is read as. -/
def ReadsElems (st : Style) (n : ℕ) : Prop :=
  ∀ (x : Json F) (xs : List (Json F)) (rest : List Char), Readable x → ReadableList xs →
    (plain fl st x ++ plainElems fl st xs).length ≤ n →
    readElems fr n (plain fl st x ++ (plainElems fl st xs ++ rest)) = some (x :: xs, rest)

/-- What the text of an object's members is read as. -/
def ReadsMembers (st : Style) (n : ℕ) : Prop :=
  ∀ (key : String) (x : Json F) (fields : List (String × Json F)) (rest : List Char), Readable x →
    ReadableFields fields →
    (st.quote key ++ ':' :: (st.gap ++ (plain fl st x ++ plainMembers fl st fields))).length ≤ n →
    readMembers fr n
      (st.quote key ++ ':' :: (st.gap ++ (plain fl st x ++ (plainMembers fl st fields ++ rest)))) =
        some ((key, x) :: fields, rest)

theorem readsElems_succ {st : Style} {n : ℕ} (hvalue : ReadsValue fr st n)
    (helems : ReadsElems fr st n) : ReadsElems fr st (n + 1) := by
  intro x xs rest hx hxs hlen
  rw [List.length_append] at hlen
  rw [readElems]
  cases xs with
  | nil =>
    rw [hvalue x _ hx (by simp only [plainElems, List.length_singleton] at hlen; omega) fun c hc => by
      cases hc; rfl]
    rfl
  | cons y ys =>
    simp only [plainElems, List.length_cons, List.length_append] at hlen
    rw [hvalue x _ hx (by omega) fun c hc => by cases hc; rfl]
    have hrest : skipBlanks (plainElems fl st (y :: ys) ++ rest) =
        ',' :: (st.gap ++ (plain fl st y ++ (plainElems fl st ys ++ rest))) := by
      rw [plainElems, List.cons_append, List.append_assoc, List.append_assoc]
      rfl
    simp only [hrest, plain_skip fr]
    rw [helems y ys rest hxs.1 hxs.2 (by rw [List.length_append]; omega)]
    rfl

theorem readsMembers_succ {st : Style} {n : ℕ} (hvalue : ReadsValue fr st n)
    (hmembers : ReadsMembers fr st n) : ReadsMembers fr st (n + 1) := by
  intro key x fields rest hx hfields hlen
  have hkey : ∀ t, readString n (key.toList.flatMap st.escapeChar ++ '"' :: t) = some (key, t) := by
    intro t
    refine readString_quote st key t ?_
    rw [List.length_append] at hlen
    omega
  have hquote : ∀ t, st.quote key ++ t = '"' :: (key.toList.flatMap st.escapeChar ++ '"' :: t) := by
    intro t
    simp only [Style.quote, List.cons_append, List.append_assoc, List.nil_append]
  simp only [List.length_append, List.length_cons] at hlen
  have hpos : 0 < (st.quote key).length := by simp [Style.quote]
  rw [hquote, readMembers, hkey]
  have hcolon : ∀ t, skipBlanks (':' :: t) = ':' :: t := fun t => rfl
  simp only [hcolon, plain_skip fr]
  cases fields with
  | nil =>
    rw [hvalue x _ hx (by omega) fun c hc => by cases hc; rfl]
    rfl
  | cons p fields =>
    obtain ⟨key', y⟩ := p
    simp only [plainMembers, List.length_append, List.length_cons] at hlen
    rw [hvalue x _ hx (by omega) fun c hc => by cases hc; rfl]
    have hrest : skipBlanks (plainMembers fl st ((key', y) :: fields) ++ rest) =
        ',' :: (st.gap ++ (st.quote key' ++
          ':' :: (st.gap ++ (plain fl st y ++ (plainMembers fl st fields ++ rest))))) := by
      simp only [plainMembers, List.cons_append, List.append_assoc]
      rfl
    have hskip : ∀ t, skipBlanks (st.gap ++ (st.quote key' ++ t)) = st.quote key' ++ t := by
      intro t
      exact gap_skip st (by decide) _
    simp only [hrest, hskip]
    rw [hmembers key' y fields rest hfields.1 hfields.2
      (by simp only [List.length_append, List.length_cons]; omega)]
    rfl

theorem readsValue_succ {st : Style} {n : ℕ} (helems : ReadsElems fr st n)
    (hmembers : ReadsMembers fr st n) : ReadsValue fr st (n + 1) := by
  intro v rest hv hlen hrest
  -- a value without quotes or brackets does not begin like one that has them
  have hbare : ∀ (c : Char) (t : List Char), plain fl st v ++ rest = c :: t →
      (c ≠ '"' ∧ c ≠ '[' ∧ c ≠ '{') → readBare fr (c :: t) = some (v, rest) →
      readValue fr (n + 1) (plain fl st v ++ rest) = some (v, rest) := by
    intro c t heq hc hread
    rw [heq, readValue_bare fr n (not_opens_cons hc), hread]
  have hnumber : ∀ c, c = '-' ∨ c.isDigit = true → c ≠ '"' ∧ c ≠ '[' ∧ c ≠ '{' := by
    intro c hc
    refine ⟨?_, ?_, ?_⟩
    all_goals
      rintro rfl
      exact absurd hc (by decide)
  cases v with
  | null => exact hbare 'n' _ rfl (by decide) rfl
  | bool b => cases b with
    | true => exact hbare 't' _ rfl (by decide) rfl
    | false => exact hbare 'f' _ rfl (by decide) rfl
  | int k =>
    have hread := readBare_int fr hv hrest
    obtain ⟨c, t, hc, hhead⟩ := head_of_readNumber (readNumber_intChars k hrest)
    exact hbare c t hc (hnumber c hhead) (hc ▸ hread)
  | float x =>
    have hread := readBare_float fr x hrest
    rcases fr.repr_form x with ⟨hrepr, -⟩ | ⟨hrepr, -⟩ | ⟨hrepr, -⟩ | ⟨t, ht, -⟩
    · rw [hrepr] at hread
      exact hbare 'N' _ (by rw [plain, hrepr]; rfl) (by decide) hread
    · rw [hrepr] at hread
      exact hbare 'I' _ (by rw [plain, hrepr]; rfl) (by decide) hread
    · rw [hrepr] at hread
      exact hbare '-' _ (by rw [plain, hrepr]; rfl) (by decide) hread
    · obtain ⟨c, cs, hc, hhead⟩ := head_of_readNumber ht
      rw [hc] at hread
      exact hbare c _ (by rw [plain, hc]; rfl) (hnumber c hhead) hread
  | str s =>
    have hquote : plain fl st (.str s) ++ rest =
        '"' :: (s.toList.flatMap st.escapeChar ++ '"' :: rest) := by
      simp only [plain, Style.quote, List.cons_append, List.append_assoc, List.nil_append]
    rw [hquote, readValue, readString_quote st s rest hlen]
    rfl
  | arr xs => cases xs with
    | nil => rfl
    | cons x xs =>
      obtain ⟨c, t, hc, hblank, hclose⟩ := plain_head fr st x
      rw [plain, List.length_cons] at hlen
      have hread := helems x xs rest hv.1 hv.2 (by omega)
      rw [hc, List.cons_append] at hread
      have hskip : skipBlanks (plain fl st x ++ plainElems fl st xs ++ rest) =
          c :: (t ++ (plainElems fl st xs ++ rest)) := by
        rw [hc, List.append_assoc, List.cons_append, skipBlanks, List.dropWhile_cons, hblank]
        rfl
      rw [plain, List.cons_append, readValue_arr fr n hskip hclose, hread]
      rfl
  | obj fields => cases fields with
    | nil => rfl
    | cons p fields =>
      obtain ⟨key, x⟩ := p
      rw [plain, List.length_cons] at hlen
      have hread := hmembers key x fields rest hv.2.1 hv.2.2 (by omega)
      have htext : plain fl st (.obj ((key, x) :: fields)) ++ rest = '{' :: (st.quote key ++
          ':' :: (st.gap ++ (plain fl st x ++ (plainMembers fl st fields ++ rest)))) := by
        simp only [plain, List.cons_append, List.append_assoc]
      have hskip : ∀ t, skipBlanks (st.quote key ++ t) =
          '"' :: (key.toList.flatMap st.escapeChar ++ ['"'] ++ t) := fun t => rfl
      rw [htext, readValue_obj fr n (hskip _) (by decide), ← List.cons_append]
      refine Eq.trans (congrArg (Option.map _) hread) ?_
      rw [Option.map_some, Dict.entries_ofList hv.1]

/-- **The text of a value is read back**, given enough depth. -/
theorem readValue_plain (st : Style) (n : ℕ) :
    ReadsValue fr st n ∧ ReadsElems fr st n ∧ ReadsMembers fr st n := by
  induction n with
  | zero =>
    refine ⟨?_, ?_, ?_⟩
    · intro v rest _ hlen
      obtain ⟨c, t, hc, -⟩ := plain_head fr st v
      rw [hc] at hlen
      cases hlen
    · intro x xs rest _ _ hlen
      obtain ⟨c, t, hc, -⟩ := plain_head fr st x
      rw [hc] at hlen
      cases hlen
    · intro key x fields rest _ _ hlen
      cases hlen
  | succ n ih =>
    obtain ⟨hvalue, helems, hmembers⟩ := ih
    exact ⟨readsValue_succ fr helems hmembers, readsElems_succ fr hvalue helems,
      readsMembers_succ fr hvalue hmembers⟩

theorem loads_plain (st : Style) {v : Json F} (hv : Readable v) :
    loads fr (plain fl st v) = some v := by
  obtain ⟨c, t, hc, hblank, -⟩ := plain_head fr st v
  have hskip : skipBlanks (plain fl st v) = plain fl st v := by
    rw [hc, skipBlanks, List.dropWhile_cons, hblank]
    rfl
  have hread := (readValue_plain fr st ((plain fl st v).length + 1)).1 v [] hv (by omega)
    (by simp [StartsOutside])
  rw [List.append_nil] at hread
  rw [loads, hskip, hread]
  rfl

/-! ### The order of keys -/

theorem readableFields_iff {fields : List (String × Json F)} :
    ReadableFields fields ↔ ∀ p ∈ fields, Readable p.2 := by
  induction fields with
  | nil => simp [ReadableFields]
  | cons p fields ih => simp [ReadableFields, ih]

theorem sortedFields_eq (fields : List (String × Json F)) :
    sortedFields fields = fields.map fun p => (p.1, p.2.sorted) := by
  induction fields with
  | nil => rfl
  | cons p fields ih => rw [sortedFields, ih]; rfl

theorem sortFields_perm (fields : List (String × Json F)) : (sortFields fields).Perm fields :=
  List.perm_insertionSort _ fields

theorem nodup_keys_sortFields {fields : List (String × Json F)} :
    ((sortFields (sortedFields fields)).map Prod.fst).Nodup ↔ (fields.map Prod.fst).Nodup := by
  have hkeys : (sortedFields fields).map Prod.fst = fields.map Prod.fst := by
    rw [sortedFields_eq, List.map_map]
    rfl
  rw [((sortFields_perm (sortedFields fields)).map Prod.fst).nodup_iff, hkeys]

mutual

/-- Sorting its keys leaves a value readable. -/
theorem readable_sorted : ∀ {v : Json F}, Readable v → Readable v.sorted
  | .null, h => h
  | .bool _, h => h
  | .int _, h => h
  | .float _, h => h
  | .str _, h => h
  | .arr xs, h => readableList_sorted (show ReadableList xs from h)
  | .obj fields, h => by
    refine ⟨nodup_keys_sortFields.mpr h.1, readableFields_iff.mpr fun p hp => ?_⟩
    exact readableFields_iff.mp (readableFields_sorted h.2) p ((sortFields_perm _).subset hp)

theorem readableList_sorted : ∀ {xs : List (Json F)}, ReadableList xs → ReadableList (sortedList xs)
  | [], h => h
  | _ :: _, h => ⟨readable_sorted h.1, readableList_sorted h.2⟩

theorem readableFields_sorted :
    ∀ {fields : List (String × Json F)}, ReadableFields fields → ReadableFields (sortedFields fields)
  | [], h => h
  | _ :: _, h => ⟨readable_sorted h.1, readableFields_sorted h.2⟩

end

theorem readable_arrange (st : Style) {v : Json F} (hv : Readable v) : Readable (st.arrange v) := by
  unfold Style.arrange
  split
  · exact readable_sorted hv
  · exact hv

/-- **What `json.dumps` has written is read back**, its keys in the order they were written in. -/
theorem loads_text (st : Style) {v : Json F} (hv : Readable v) :
    loads fr (text fl st v) = some (st.arrange v) :=
  loads_plain fr st (readable_arrange st hv)

/-- What is left of an object's text after a cut does not begin with a value, however deep it is
read. -/
theorem readValue_of_cut (st : Style) {fields : List (String × Json F)} (hv : Readable (.obj fields))
    {cs ext : List Char} (h : cs ++ ext = plain fl st (.obj fields)) (hcut : ext ≠ []) (n : ℕ) :
    readValue fr n cs = none := by
  have hopen : ∃ t, plain fl st (.obj fields) = '{' :: t := by
    cases fields with
    | nil => exact ⟨_, rfl⟩
    | cons p fields => exact ⟨_, rfl⟩
  obtain ⟨t, ht⟩ := hopen
  cases cs with
  | nil => exact readValue_nil fr n
  | cons c cs =>
    have hc : c = '{' := by
      rw [ht] at h
      exact (List.cons.inj h).1
    subst hc
    cases hread : readValue fr n ('{' :: cs) with
    | none => rfl
    | some p =>
      -- the rest of the text would be left over, and nothing is
      exfalso
      have hfull := (readValue_plain fr st (n + (plain fl st (.obj fields)).length)).1 (.obj fields)
        [] hv (Nat.le_add_left _ n) nofun
      have happ := (read_append fr n ext).1 hread
        (Nat.le_add_right n (plain fl st (.obj fields)).length) (.inr ⟨'{', cs, rfl, .inr (.inr rfl)⟩)
      rw [h] at happ
      rw [List.append_nil, happ] at hfull
      have hnil : p.2 ++ ext = [] := by simpa using congrArg (Option.map Prod.snd) hfull
      exact hcut (List.append_eq_nil_iff.mp hnil).2

include fr in
/-- A text that is cut short begins like the whole text, with no blank. -/
theorem skipBlanks_of_cut (st : Style) {v : Json F} {cs ext : List Char}
    (h : cs ++ ext = plain fl st v) : skipBlanks cs = cs := by
  cases cs with
  | nil => rfl
  | cons c cs =>
    obtain ⟨d, t, hd, hblank, -⟩ := plain_head fr st v
    rw [hd] at h
    rw [skipBlanks, List.dropWhile_cons, (List.cons.inj h).1, hblank]
    rfl

/-- **What is left of an object's text after a cut is not read.** -/
theorem loads_of_cut (st : Style) {fields : List (String × Json F)} (hv : Readable (.obj fields))
    {cs ext : List Char} (h : cs ++ ext = plain fl st (.obj fields)) (hcut : ext ≠ []) :
    loads fr cs = none := by
  rw [loads, skipBlanks_of_cut fr st h, readValue_of_cut fr st hv h hcut]

end RoundTrip

end Json
