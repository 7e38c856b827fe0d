import NDTwin.Lib.Json

/-!
# Reading `json.dumps` back

Two JSON values with one text are one value, as far as this development needs it: strings,
the other scalars, and objects of scalars.  A string's text is read back character by
character; the text of any other scalar ends where a separator stands.

## Main definitions

* `unescape` — the first character of an escaped text, and the rest.
* `isScalar` — a value that is no array and no object.

## Main results

* `quote_append_inj` — a string's text is a prefix code.
* `scalar_append_inj` — a scalar's text is one too, before a separator.
* `dumps_obj_inj` — **an object of scalars with its keys in order is the one of its text.**
-/

namespace Json

variable {F : Type*}

/-! ### Strings -/

/-- The value of a hexadecimal digit in lower case. -/
def hexValue (c : Char) : ℕ := if c.toNat < 58 then c.toNat - 48 else c.toNat - 87

/-- The number four hexadecimal digits write. -/
def hex4 (a b c d : Char) : ℕ := ((hexValue a * 16 + hexValue b) * 16 + hexValue c) * 16 + hexValue d

/-- The character a short escape stands for. -/
def shortEscape (x : Char) : Char :=
  if x = 'n' then '\n'
  else if x = 'r' then '\r'
  else if x = 't' then '\t'
  else if x = 'b' then Char.ofNat 8
  else if x = 'f' then Char.ofNat 12
  else x

/-- The first character of an escaped text, and the rest of the text. -/
def unescape : List Char → Option (Char × List Char)
  | [] => none
  | '\\' :: 'u' :: a :: b :: c :: d :: cs =>
    let u := hex4 a b c d
    if 55296 ≤ u ∧ u < 56320 then
      match cs with
      | '\\' :: 'u' :: a' :: b' :: c' :: d' :: cs =>
        some (Char.ofNat (65536 + (u - 55296) * 1024 + (hex4 a' b' c' d' - 56320)), cs)
      | _ => none
    else some (Char.ofNat u, cs)
  | '\\' :: x :: cs => some (shortEscape x, cs)
  | c :: cs => some (c, cs)

theorem hexValue_hexDigit : ∀ d < 16, hexValue (hexDigit d) = d := by decide

theorem hex4_digits {u : ℕ} (hu : u < 65536) :
    hex4 (hexDigit (u / 4096 % 16)) (hexDigit (u / 256 % 16)) (hexDigit (u / 16 % 16))
      (hexDigit (u % 16)) = u := by
  unfold hex4
  rw [hexValue_hexDigit _ (Nat.mod_lt _ (by decide)), hexValue_hexDigit _ (Nat.mod_lt _ (by decide)),
    hexValue_hexDigit _ (Nat.mod_lt _ (by decide)), hexValue_hexDigit _ (Nat.mod_lt _ (by decide))]
  omega

theorem toNat_not_surrogate (c : Char) : ¬ (55296 ≤ c.toNat ∧ c.toNat < 56320) := by
  have hvalid := c.valid
  have hc : c.toNat = c.val.toNat := rfl
  rw [hc]
  rcases hvalid with h | h
  · have h' : c.val.toNat < 55296 := h
    omega
  · have h' : 57343 < c.val.toNat := h.1
    omega

theorem toNat_lt (c : Char) : c.toNat < 1114112 := by
  rcases c.valid with h | h
  · exact Nat.lt_trans h (by decide)
  · exact h.2

theorem unescape_unicodeEscape {u : ℕ} (hu : u < 65536) (hns : ¬ (55296 ≤ u ∧ u < 56320))
    (r : List Char) : unescape (unicodeEscape u ++ r) = some (Char.ofNat u, r) := by
  simp only [unicodeEscape, List.cons_append, List.nil_append, unescape, hex4_digits hu, if_neg hns]

theorem unescape_pair {u v : ℕ} (hu : 55296 ≤ u ∧ u < 56320) (hv : v < 65536) (r : List Char) :
    unescape (unicodeEscape u ++ unicodeEscape v ++ r)
      = some (Char.ofNat (65536 + (u - 55296) * 1024 + (v - 56320)), r) := by
  have hu' : u < 65536 := by omega
  simp only [unicodeEscape, List.cons_append, List.nil_append, unescape, hex4_digits hu', if_pos hu,
    hex4_digits hv]

theorem unescape_plain {c : Char} (hc : c ≠ '\\') (cs : List Char) :
    unescape (c :: cs) = some (c, cs) := by
  rw [unescape]
  · exact fun _ _ _ _ _ h => absurd h hc
  · exact fun _ _ h => absurd h hc

/-- A character is read back from its escape. -/
theorem unescape_escapeChar (c : Char) (r : List Char) :
    unescape (escapeChar c ++ r) = some (c, r) := by
  have hof : ∀ {n}, c.toNat = n → Char.ofNat n = c := fun h => by rw [← h, Char.ofNat_toNat]
  unfold escapeChar
  split
  · next h => subst h; rfl
  split
  · next h => subst h; rfl
  split
  · next h => subst h; rfl
  split
  · next h => subst h; rfl
  split
  · next h => subst h; rfl
  split
  · next h => rw [← hof h]; rfl
  split
  · next h => rw [← hof h]; rfl
  split
  · next _ hslash _ _ _ _ _ _ => exact unescape_plain hslash r
  split
  · next h => rw [unescape_unicodeEscape h (toNat_not_surrogate c), Char.ofNat_toNat]
  · next h =>
    have hlt := toNat_lt c
    have hvalue : c.toNat = 65536 + (55296 + (c.toNat - 65536) / 1024 - 55296) * 1024
        + (56320 + (c.toNat - 65536) % 1024 - 56320) := by omega
    rw [unescape_pair (by omega) (by omega), hof hvalue]

theorem escapeChar_append_inj {c d : Char} {r r' : List Char}
    (h : escapeChar c ++ r = escapeChar d ++ r') : c = d ∧ r = r' := by
  have hread := congrArg unescape h
  rw [unescape_escapeChar, unescape_escapeChar] at hread
  simpa using hread

theorem escapeChar_ne_quote (c : Char) (r r' : List Char) : escapeChar c ++ r ≠ '"' :: r' := by
  intro h
  have hread := congrArg unescape h
  rw [unescape_escapeChar] at hread
  have hc : c = '"' := by
    rw [unescape_plain (by decide)] at hread
    simpa using congrArg (Option.map Prod.fst) hread
  subst hc
  cases h

theorem escape_append_inj {cs ds : List Char} {r r' : List Char}
    (h : escape cs ++ '"' :: r = escape ds ++ '"' :: r') : cs = ds ∧ r = r' := by
  induction cs generalizing ds with
  | nil =>
    cases ds with
    | nil => exact ⟨rfl, by simpa [escape] using h⟩
    | cons d ds =>
      rw [escape, escape, List.flatMap_nil, List.nil_append, List.flatMap_cons,
        List.append_assoc] at h
      exact absurd h.symm (escapeChar_ne_quote d _ _)
  | cons c cs ih =>
    cases ds with
    | nil =>
      rw [escape, escape, List.flatMap_nil, List.nil_append, List.flatMap_cons,
        List.append_assoc] at h
      exact absurd h (escapeChar_ne_quote c _ _)
    | cons d ds =>
      rw [escape, escape, List.flatMap_cons, List.flatMap_cons, List.append_assoc,
        List.append_assoc] at h
      obtain ⟨rfl, hrest⟩ := escapeChar_append_inj h
      obtain ⟨rfl, hr⟩ := ih hrest
      exact ⟨rfl, hr⟩

/-- **A string's text is a prefix code.** -/
theorem quote_append_inj {s t : String} {r r' : List Char} (h : quote s ++ r = quote t ++ r') :
    s = t ∧ r = r' := by
  rw [quote, quote, List.cons_append, List.cons_append, List.cons.injEq, List.append_assoc,
    List.append_assoc] at h
  obtain ⟨hlist, hr⟩ := escape_append_inj h.2
  exact ⟨String.toList_inj.mp hlist, hr⟩

/-! ### Numbers -/

theorem toDigits_inj {m n : ℕ} (h : Nat.toDigits 10 m = Nat.toDigits 10 n) : m = n := by
  calc m = Nat.ofDigitChars 10 (Nat.toDigits 10 m) 0 := Nat.ofDigitChars_ten_toDigits.symm
    _ = Nat.ofDigitChars 10 (Nat.toDigits 10 n) 0 := by rw [h]
    _ = n := Nat.ofDigitChars_ten_toDigits

theorem isDigit_of_mem_toDigits {n : ℕ} {c : Char} (h : c ∈ Nat.toDigits 10 n) :
    c.isDigit = true :=
  Nat.isDigit_of_mem_toDigits (by decide) (by decide) h

theorem mem_intChars {n : ℤ} {c : Char} (h : c ∈ intChars n) : c.isDigit = true ∨ c = '-' := by
  unfold intChars at h
  split at h
  · rcases List.mem_cons.mp h with rfl | h
    · exact Or.inr rfl
    · exact Or.inl (isDigit_of_mem_toDigits h)
  · exact Or.inl (isDigit_of_mem_toDigits h)

theorem intChars_ne_nil (n : ℤ) : intChars n ≠ [] := by
  unfold intChars
  split
  · simp
  · exact Nat.toDigits_ne_nil

theorem intChars_inj {m n : ℤ} (h : intChars m = intChars n) : m = n := by
  have hminus : ∀ k : ℕ, ∀ cs, '-' :: cs ≠ Nat.toDigits 10 k := fun k cs hk => by
    have := isDigit_of_mem_toDigits (n := k) (c := '-') (by rw [← hk]; simp)
    cases this
  unfold intChars at h
  split at h <;> split at h
  · have := toDigits_inj (List.cons.inj h).2
    omega
  · exact absurd h (hminus _ _)
  · exact absurd h.symm (hminus _ _)
  · have := toDigits_inj h
    omega

/-! ### Scalars -/

/-- A value that is no array and no object. -/
def isScalar : Json F → Bool
  | .arr _ => false
  | .obj _ => false
  | _ => true

/-- A scalar that is no string. -/
def isBare : Json F → Bool
  | .arr _ => false
  | .obj _ => false
  | .str _ => false
  | _ => true

variable (fl : Floats F)

/-- The text of a scalar that is no string has no separator in it and begins like none. -/
theorem chars_bare {v : Json F} (hv : v.isBare = true) :
    (∀ c ∈ v.chars fl, c ≠ ',' ∧ c ≠ '}') ∧ ∃ c cs, v.chars fl = c :: cs ∧ c ≠ '"' := by
  cases v with
  | arr | obj | str => cases hv
  | null => rw [chars]; exact ⟨by simp, _, _, rfl, by decide⟩
  | bool b => cases b <;> rw [chars] <;> exact ⟨by simp, _, _, rfl, by decide⟩
  | int n =>
    rw [chars]
    refine ⟨?_, ?_⟩
    · intro c hc
      rcases mem_intChars hc with hd | rfl
      · constructor <;> (rintro rfl; cases hd)
      · decide
    · cases hn : intChars n with
      | nil => exact absurd hn (intChars_ne_nil n)
      | cons c cs =>
        refine ⟨c, cs, rfl, ?_⟩
        rcases mem_intChars (n := n) (c := c) (by rw [hn]; simp) with hd | rfl
        · rintro rfl
          cases hd
        · decide
  | float x =>
    rw [chars]
    obtain ⟨c, cs, hx, hc, -⟩ := fl.repr_head x
    exact ⟨fl.repr_chars x, c, cs, hx, hc⟩

/-- How the text of a scalar that is no string begins tells which kind it is. -/
theorem chars_bare_inj {v w : Json F} (hv : v.isBare = true) (hw : w.isBare = true)
    (h : v.chars fl = w.chars fl) : v = w := by
  have hint : ∀ n x, intChars n ≠ fl.repr x := fun n x hn => by
    obtain ⟨c, hc, hd, hm⟩ := fl.repr_mark x
    rw [← hn] at hc
    rcases mem_intChars hc with hd' | rfl
    · rw [hd'] at hd
      cases hd
    · exact hm rfl
  have hletter : ∀ n c cs, intChars n = c :: cs → c ≠ 't' ∧ c ≠ 'f' ∧ c ≠ 'n' := by
    intro n c cs hn
    rcases mem_intChars (n := n) (c := c) (by rw [hn]; simp) with hd | rfl
    · refine ⟨?_, ?_, ?_⟩ <;> (rintro rfl; cases hd)
    · decide
  have hfloat : ∀ x c cs, fl.repr x = c :: cs → c ≠ 't' ∧ c ≠ 'f' ∧ c ≠ 'n' := by
    intro x c cs hx
    obtain ⟨c', cs', hx', -, ht, hf, hn⟩ := fl.repr_head x
    rw [hx] at hx'
    cases hx'
    exact ⟨ht, hf, hn⟩
  cases v with
  | arr | obj | str => cases hv
  | null =>
    cases w with
    | arr | obj | str => cases hw
    | null => rfl
    | bool b => cases b <;> simp [chars] at h
    | int n => simp only [chars] at h; exact absurd rfl (hletter n _ _ h.symm).2.2
    | float x => simp only [chars] at h; exact absurd rfl (hfloat x _ _ h.symm).2.2
  | bool b =>
    cases w with
    | arr | obj | str => cases hw
    | null => cases b <;> simp [chars] at h
    | bool b' => cases b <;> cases b' <;> simp_all [chars]
    | int n =>
      cases b <;> simp only [chars] at h
      · exact absurd rfl (hletter n _ _ h.symm).2.1
      · exact absurd rfl (hletter n _ _ h.symm).1
    | float x =>
      cases b <;> simp only [chars] at h
      · exact absurd rfl (hfloat x _ _ h.symm).2.1
      · exact absurd rfl (hfloat x _ _ h.symm).1
  | int m =>
    cases w with
    | arr | obj | str => cases hw
    | null => simp only [chars] at h; exact absurd rfl (hletter m _ _ h).2.2
    | bool b =>
      cases b <;> simp only [chars] at h
      · exact absurd rfl (hletter m _ _ h).2.1
      · exact absurd rfl (hletter m _ _ h).1
    | int n => simp only [chars] at h; rw [intChars_inj h]
    | float x => simp only [chars] at h; exact absurd h (hint m x)
  | float x =>
    cases w with
    | arr | obj | str => cases hw
    | null => simp only [chars] at h; exact absurd rfl (hfloat x _ _ h).2.2
    | bool b =>
      cases b <;> simp only [chars] at h
      · exact absurd rfl (hfloat x _ _ h).2.1
      · exact absurd rfl (hfloat x _ _ h).1
    | int n => simp only [chars] at h; exact absurd h.symm (hint n x)
    | float y => simp only [chars] at h; rw [fl.repr_inj h]

/-- Texts without a separator, up to one. -/
theorem append_separator_inj {l l' r r' : List Char} {x y : Char}
    (hl : ∀ c ∈ l, c ≠ ',' ∧ c ≠ '}') (hl' : ∀ c ∈ l', c ≠ ',' ∧ c ≠ '}') (hx : x = ',' ∨ x = '}')
    (hy : y = ',' ∨ y = '}') (h : l ++ x :: r = l' ++ y :: r') : l = l' ∧ x :: r = y :: r' := by
  induction l generalizing l' with
  | nil =>
    cases l' with
    | nil => exact ⟨rfl, h⟩
    | cons c l' =>
      obtain ⟨rfl, -⟩ := List.cons.inj h
      have hc := hl' x (by simp)
      exact (hx.elim hc.1 hc.2).elim
  | cons c l ih =>
    cases l' with
    | nil =>
      obtain ⟨rfl, -⟩ := List.cons.inj h
      have hc := hl c (by simp)
      exact (hy.elim hc.1 hc.2).elim
    | cons c' l' =>
      rw [List.cons_append, List.cons_append, List.cons.injEq] at h
      obtain ⟨rfl, hrest⟩ := h
      obtain ⟨rfl, hr⟩ := ih (fun d hd => hl d (by simp [hd])) (fun d hd => hl' d (by simp [hd])) hrest
      exact ⟨rfl, hr⟩

theorem isBare_of_not_str {v : Json F} (hv : v.isScalar = true) (hs : ∀ s, v ≠ .str s) :
    v.isBare = true := by
  cases v with
  | str s => exact absurd rfl (hs s)
  | arr | obj => cases hv
  | null | bool | int | float => rfl

/-- **A scalar's text is a prefix code before a separator.** -/
theorem scalar_append_inj {v w : Json F} {r r' : List Char} {x y : Char} (hv : v.isScalar = true)
    (hw : w.isScalar = true) (hx : x = ',' ∨ x = '}') (hy : y = ',' ∨ y = '}')
    (h : v.chars fl ++ x :: r = w.chars fl ++ y :: r') : v = w ∧ x :: r = y :: r' := by
  have hmixed : ∀ s {w : Json F} {r r' : List Char}, w.isBare = true →
      quote s ++ r ≠ w.chars fl ++ r' := by
    intro s w r r' hw h
    obtain ⟨-, c, cs, hc, hne⟩ := chars_bare fl hw
    rw [hc, quote] at h
    exact hne (List.cons.inj h).1.symm
  by_cases hvs : ∃ s, v = .str s
  · obtain ⟨s, rfl⟩ := hvs
    by_cases hws : ∃ t, w = .str t
    · obtain ⟨t, rfl⟩ := hws
      rw [chars, chars] at h
      obtain ⟨rfl, hr⟩ := quote_append_inj h
      exact ⟨rfl, hr⟩
    · rw [chars] at h
      exact absurd h (hmixed s (isBare_of_not_str hw fun t ht => hws ⟨t, ht⟩))
  · have hv' := isBare_of_not_str hv fun s hs => hvs ⟨s, hs⟩
    by_cases hws : ∃ t, w = .str t
    · obtain ⟨t, rfl⟩ := hws
      rw [chars.eq_6] at h
      exact absurd h.symm (hmixed t hv')
    · have hw' := isBare_of_not_str hw fun t ht => hws ⟨t, ht⟩
      obtain ⟨heq, hr⟩ := append_separator_inj (chars_bare fl hv').1 (chars_bare fl hw').1 hx hy h
      exact ⟨chars_bare_inj fl hv' hw' heq, hr⟩

/-! ### Objects of scalars -/

/-- The text of an object's members. -/
def membersText (fields : List (String × Json F)) : List Char :=
  join (fields.map fun p => member p.1 (p.2.chars fl))

theorem charsFields_eq (fields : List (String × Json F)) :
    charsFields fl fields = fields.map fun p => (p.1, p.2.chars fl) := by
  induction fields with
  | nil => rw [charsFields]; rfl
  | cons p fields ih => rw [charsFields, ih]; rfl

/-- An object whose keys are in order is written as it stands. -/
theorem chars_obj_of_sorted {fields : List (String × Json F)}
    (h : (fields.map Prod.fst).Pairwise (· ≤ ·)) :
    (Json.obj fields).chars fl = '{' :: (membersText fl fields ++ ['}']) := by
  have hsorted : (fields.map fun p => (p.1, p.2.chars fl)).Pairwise fun a b => a.1 ≤ b.1 :=
    List.pairwise_map.mpr (List.pairwise_map.mp h)
  rw [chars, charsFields_eq, sortFields, hsorted.insertionSort_eq, List.map_map]
  rfl

/-- What follows a member: a separator, and more. -/
theorem membersText_cons (p : String × Json F) (fields : List (String × Json F)) (r : List Char) :
    ∃ x r', (x = ',' ∨ x = '}') ∧ (x = '}' ↔ fields = []) ∧
      membersText fl (p :: fields) ++ '}' :: r
        = quote p.1 ++ (':' :: ' ' :: (p.2.chars fl ++ x :: r')) ∧
      (fields ≠ [] → r' = ' ' :: (membersText fl fields ++ '}' :: r)) ∧ (fields = [] → r' = r) := by
  cases fields with
  | nil => exact ⟨'}', r, by simp, by simp, by simp [membersText, join, member], by simp, by simp⟩
  | cons p' fields =>
    refine ⟨',', ' ' :: (membersText fl (p' :: fields) ++ '}' :: r), by simp, by simp, ?_, by simp,
      by simp⟩
    simp [membersText, join, member]

theorem membersText_inj {fields fields' : List (String × Json F)} {r r' : List Char}
    (hf : ∀ p ∈ fields, p.2.isScalar = true) (hf' : ∀ p ∈ fields', p.2.isScalar = true)
    (h : membersText fl fields ++ '}' :: r = membersText fl fields' ++ '}' :: r') :
    fields = fields' := by
  induction fields generalizing fields' with
  | nil =>
    cases fields' with
    | nil => rfl
    | cons p fields' =>
      obtain ⟨x, r₀, -, -, htext, -⟩ := membersText_cons fl p fields' r'
      rw [htext, quote] at h
      cases h
  | cons p fields ih =>
    obtain ⟨x, r₁, hx, hxe, htext, hmore, -⟩ := membersText_cons fl p fields r
    cases fields' with
    | nil =>
      rw [htext, quote] at h
      cases h
    | cons p' fields' =>
      obtain ⟨y, r₂, hy, hye, htext', hmore', -⟩ := membersText_cons fl p' fields' r'
      rw [htext, htext'] at h
      obtain ⟨hkey, h⟩ := quote_append_inj h
      obtain ⟨hvalue, hrest⟩ := scalar_append_inj fl (hf p (by simp)) (hf' p' (by simp)) hx hy
        (List.cons.inj (List.cons.inj h).2).2
      have hp : p = p' := Prod.ext hkey hvalue
      obtain ⟨rfl, hr⟩ := List.cons.inj hrest
      -- both lists go on, or neither does
      by_cases hend : fields = []
      · rw [hend, hp, hye.mp (hxe.mpr hend)]
      · have hend' : fields' ≠ [] := fun he => hend (hxe.mp (hye.mpr he))
        rw [hmore hend, hmore' hend'] at hr
        rw [hp, ih (fun q hq => hf q (by simp [hq])) (fun q hq => hf' q (by simp [hq]))
          (List.cons.inj hr).2]

/-- **An object of scalars with its keys in order is the one of its text.** -/
theorem dumps_obj_inj {fields fields' : List (String × Json F)}
    (hs : (fields.map Prod.fst).Pairwise (· ≤ ·)) (hs' : (fields'.map Prod.fst).Pairwise (· ≤ ·))
    (hf : ∀ p ∈ fields, p.2.isScalar = true) (hf' : ∀ p ∈ fields', p.2.isScalar = true)
    (h : (Json.obj fields).dumps fl = (Json.obj fields').dumps fl) : fields = fields' := by
  rw [dumps, dumps, String.ofList_inj, chars_obj_of_sorted fl hs, chars_obj_of_sorted fl hs'] at h
  exact membersText_inj fl hf hf' (List.cons.inj h).2

end Json
