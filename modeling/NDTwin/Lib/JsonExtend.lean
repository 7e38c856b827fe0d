import NDTwin.Lib.JsonRead

/-!
# JSON texts that go on

Whatever is read at the beginning of a text is read again where more text follows.  The one thing
that may read differently is a number that the text goes on with, so a value has to be in quotes or
brackets, or to have something after it that no number has in it.

## Main definitions

* `StartsOutside`, `goesOn` — what may come after a number.
* `Opens` — a text that begins with a quote or a bracket.

## Main results

* `readNumber_append` — a number is read to its end.
* `read_append` — **what was read is read again where more text follows.**
-/

namespace Json

variable {F : Type*}

theorem skipBlanks_append {cs : List Char} {c : Char} {t : List Char} (h : skipBlanks cs = c :: t)
    (ext : List Char) : skipBlanks (cs ++ ext) = c :: (t ++ ext) := by
  induction cs with
  | nil => cases h
  | cons d cs ih =>
    rw [skipBlanks, List.dropWhile_cons] at h
    rw [skipBlanks, List.cons_append, List.dropWhile_cons]
    split at h
    · next hd =>
      rw [if_pos hd]
      exact ih h
    · next hd =>
      rw [if_neg hd]
      cases h
      rfl

theorem readUnit_append {cs rest : List Char} {u : ℕ} (h : readUnit cs = some (u, rest))
    (ext : List Char) : readUnit (cs ++ ext) = some (u, rest ++ ext) := by
  unfold readUnit at h
  split at h
  · next a b c d cs =>
    obtain ⟨v, hv, heq⟩ := Option.map_eq_some_iff.mp h
    cases heq
    simp [readUnit, hv]
  · next x cs hx =>
    split at h
    · next hshort =>
      cases h
      have hu : x ≠ 'u' := by
        rintro rfl
        exact absurd hshort (by decide)
      simp [readUnit, hu, hshort]
    · cases h
  · next c cs hfirst hsecond =>
    split at h
    · cases h
    · next hc =>
      cases h
      have hslash : c ≠ '\\' := by
        rintro rfl
        exact hc (by simp)
      simp only [List.cons_append]
      unfold readUnit
      split <;> simp_all
  · cases h

theorem readUnits_cons {n : ℕ} {c : Char} {cs rest : List Char} {u : ℕ} (hc : c ≠ '"')
    (h : readUnit (c :: cs) = some (u, rest)) :
    readUnits (n + 1) (c :: cs) = (readUnits n rest).map fun p => (u :: p.1, p.2) := by
  rw [readUnits, h]
  intro cs' heq
  cases heq
  exact hc rfl

/-- A string ends at once, or has a first character. -/
theorem readUnits_cases {n : ℕ} {cs rest : List Char} {us : List ℕ}
    (h : readUnits n cs = some (us, rest)) :
    ∃ k, n = k + 1 ∧ ((cs = '"' :: rest ∧ us = []) ∨ ∃ c t u cs' us', cs = c :: t ∧ c ≠ '"' ∧
      readUnit (c :: t) = some (u, cs') ∧ readUnits k cs' = some (us', rest) ∧ us = u :: us') := by
  cases n with
  | zero => cases h
  | succ k =>
    refine ⟨k, rfl, ?_⟩
    cases cs with
    | nil => cases h
    | cons c t =>
      by_cases hc : c = '"'
      · subst hc
        cases h
        exact .inl ⟨rfl, rfl⟩
      · cases hu : readUnit (c :: t) with
        | none =>
          rw [readUnits, hu] at h
          · cases h
          · intro cs' heq
            cases heq
            exact hc rfl
        | some p =>
          rw [readUnits_cons hc hu] at h
          obtain ⟨⟨us', r⟩, hus, heq⟩ := Option.map_eq_some_iff.mp h
          cases heq
          exact .inr ⟨c, t, p.1, p.2, us', rfl, hc, hu, hus, rfl⟩

theorem readUnits_append {n m : ℕ} {cs rest : List Char} {us : List ℕ}
    (h : readUnits n cs = some (us, rest)) (hnm : n ≤ m) (ext : List Char) :
    readUnits m (cs ++ ext) = some (us, rest ++ ext) := by
  induction n generalizing m cs us with
  | zero => cases h
  | succ n ih =>
    obtain ⟨m, rfl⟩ : ∃ k, m = k + 1 := ⟨m - 1, by omega⟩
    obtain ⟨k, hk, ⟨rfl, rfl⟩ | ⟨c, t, u, cs', us', rfl, hc, hu, hus, rfl⟩⟩ := readUnits_cases h
    · rfl
    · cases hk
      have hread : readUnit (c :: (t ++ ext)) = some (u, cs' ++ ext) := readUnit_append hu ext
      rw [List.cons_append, readUnits_cons hc hread, ih hus (by omega)]
      rfl

theorem readString_append {n m : ℕ} {cs rest : List Char} {s : String}
    (h : readString n cs = some (s, rest)) (hnm : n ≤ m) (ext : List Char) :
    readString m (cs ++ ext) = some (s, rest ++ ext) := by
  obtain ⟨⟨us, r⟩, hus, heq⟩ := Option.map_eq_some_iff.mp h
  cases heq
  rw [readString, readUnits_append hus hnm]
  rfl

/-- A text does not begin with a character of a kind. -/
def StartsOutside (kind : Char → Bool) (cs : List Char) : Prop := ∀ c ∈ cs.head?, kind c = false

/-- What a number may go on with. -/
def goesOn (c : Char) : Bool := c.isDigit || c = '.' || c = 'e' || c = 'E'

theorem takeDigits_append (cs ext : List Char)
    (h : StartsOutside Char.isDigit ((takeDigits cs).2 ++ ext)) :
    takeDigits (cs ++ ext) = ((takeDigits cs).1, (takeDigits cs).2 ++ ext) := by
  simp only [takeDigits] at h ⊢
  induction cs with
  | nil =>
    cases ext with
    | nil => rfl
    | cons c ext =>
      have hc : c.isDigit = false := h c rfl
      simp [hc]
  | cons c cs ih =>
    by_cases hc : c.isDigit = true
    · simp only [List.cons_append, List.takeWhile_cons, List.dropWhile_cons, hc, if_true] at h ⊢
      rw [Prod.mk.injEq] at ih
      rw [(ih h).1, (ih h).2]
    · simp [hc]

theorem readFrac_append {cs ext : List Char}
    (h : StartsOutside (fun c => c.isDigit || c = '.') ((readFrac cs).2 ++ ext)) :
    readFrac (cs ++ ext) = ((readFrac cs).1, (readFrac cs).2 ++ ext) := by
  by_cases hdot : ∃ t, cs = '.' :: t
  · obtain ⟨t, rfl⟩ := hdot
    cases hds : (takeDigits t).1 with
    | nil =>
      -- a point with no digit after it is not a fraction, and the text would not end before it
      exfalso
      have hrest : (readFrac ('.' :: t)).2 = '.' :: t := by
        rw [readFrac]
        split <;> simp_all
      rw [hrest] at h
      exact absurd (h '.' rfl) (by decide)
    | cons d ds =>
      have hread : ∀ t', (takeDigits t').1 = d :: ds →
          readFrac ('.' :: t') = ('.' :: d :: ds, (takeDigits t').2) := by
        intro t' ht'
        rw [readFrac]
        split <;> simp_all
      rw [hread t hds] at h ⊢
      have happ := takeDigits_append t ext fun c hc => by
        have := h c hc
        simp only [Bool.or_eq_false_iff] at this
        exact this.1
      rw [List.cons_append, hread (t ++ ext) (by rw [happ, hds]), happ]
  · have hread : ∀ l : List Char, (∀ t, l ≠ '.' :: t) → readFrac l = ([], l) := by
      intro l hl
      rw [readFrac]
      exact fun t ht => hl t ht
    rw [hread cs fun t ht => hdot ⟨t, ht⟩] at h ⊢
    refine hread _ ?_
    intro t ht
    have := h '.' (by rw [ht]; rfl)
    simp at this

theorem readExpSign_append {cs : List Char} (hne : cs ≠ []) (ext : List Char) :
    readExpSign (cs ++ ext) = ((readExpSign cs).1, (readExpSign cs).2 ++ ext) := by
  cases cs with
  | nil => exact absurd rfl hne
  | cons c cs =>
    by_cases hplus : c = '+'
    · subst hplus
      rfl
    by_cases hminus : c = '-'
    · subst hminus
      rfl
    have hread : ∀ l, readExpSign (c :: l) = ([], c :: l) := by
      intro l
      rw [readExpSign]
      · intro l' heq
        cases heq
        exact hplus rfl
      · intro l' heq
        cases heq
        exact hminus rfl
    rw [List.cons_append, hread, hread]
    rfl

theorem readExp_append {cs ext : List Char} (h : StartsOutside goesOn ((readExp cs).2 ++ ext)) :
    readExp (cs ++ ext) = ((readExp cs).1, (readExp cs).2 ++ ext) := by
  cases cs with
  | nil =>
    cases ext with
    | nil => rfl
    | cons c ext =>
      have hc : goesOn c = false := h c rfl
      have hne : (c = 'e' || c = 'E') = false := by
        simp only [goesOn, Bool.or_eq_false_iff] at hc
        simp only [Bool.or_eq_false_iff]
        exact ⟨hc.1.2, hc.2⟩
      show readExp (c :: ext) = ([], c :: ext)
      rw [readExp, hne]
      rfl
  | cons c cs =>
    by_cases hc : (c = 'e' || c = 'E') = true
    · cases hds : (takeDigits (readExpSign cs).2).1 with
      | nil =>
        -- a letter with no digit after it is not an exponent
        exfalso
        have hrest : (readExp (c :: cs)).2 = c :: cs := by
          rw [readExp, if_pos hc]
          split <;> simp_all
        rw [hrest] at h
        have hgoes : goesOn c = false := h c rfl
        simp only [goesOn, Bool.or_eq_false_iff] at hgoes
        rw [hgoes.1.2, hgoes.2] at hc
        exact absurd hc (by decide)
      | cons d ds =>
        have hread : ∀ l, (takeDigits (readExpSign l).2).1 = d :: ds →
            readExp (c :: l) = (c :: ((readExpSign l).1 ++ d :: ds),
              (takeDigits (readExpSign l).2).2) := by
          intro l hl
          rw [readExp, if_pos hc]
          split <;> simp_all
        rw [hread cs hds] at h ⊢
        have hne : cs ≠ [] := by
          rintro rfl
          cases hds
        have happ := takeDigits_append (readExpSign cs).2 ext fun x hx => by
          have := h x hx
          simp only [goesOn, Bool.or_eq_false_iff] at this
          exact this.1.1.1
        have hsign := readExpSign_append hne ext
        rw [List.cons_append, hread (cs ++ ext) (by rw [hsign, happ, hds]), hsign, happ]
    · rw [List.cons_append, readExp, if_neg hc, readExp, if_neg hc]
      rfl

theorem readFrac_cases (cs : List Char) : (∃ t, cs = '.' :: t) ∨ readFrac cs = ([], cs) := by
  by_cases hdot : ∃ t, cs = '.' :: t
  · exact .inl hdot
  · refine .inr ?_
    rw [readFrac]
    exact fun t ht => hdot ⟨t, ht⟩

theorem readExp_cases (cs : List Char) :
    (∃ c t, cs = c :: t ∧ (c = 'e' ∨ c = 'E')) ∨ readExp cs = ([], cs) := by
  cases cs with
  | nil => exact .inr rfl
  | cons c t =>
    by_cases hc : (c = 'e' || c = 'E') = true
    · exact .inl ⟨c, t, rfl, by simpa using hc⟩
    · exact .inr (by rw [readExp, if_neg hc])

theorem readWhole_append {cs ext : List Char} {w : List Char × List Char}
    (h : readWhole cs = some w) (hstop : StartsOutside Char.isDigit (w.2 ++ ext)) :
    readWhole (cs ++ ext) = some (w.1, w.2 ++ ext) := by
  cases cs with
  | nil => cases h
  | cons c cs =>
    by_cases hzero : c = '0'
    · subst hzero
      cases h
      rfl
    · have hread : ∀ l, readWhole (c :: l) =
          if c.isDigit then some (takeDigits (c :: l)) else none := by
        intro l
        rw [readWhole]
        exact hzero
      rw [hread] at h
      rw [List.cons_append, hread]
      split at h
      · next hc =>
        cases h
        rw [if_pos hc, ← List.cons_append, takeDigits_append (c :: cs) ext hstop]
      · cases h

/-- A number is read to its end, whatever comes after it. -/
theorem readNumber_append {cs rest ext : List Char} {t : NumberText}
    (h : readNumber cs = some (t, rest)) (hstop : StartsOutside goesOn (rest ++ ext)) :
    readNumber (cs ++ ext) = some (t, rest ++ ext) := by
  obtain ⟨w, hw, heq⟩ := Option.map_eq_some_iff.mp h
  cases heq
  have hexp := readExp_append hstop
  -- what follows the fraction is an exponent, or what follows the number
  have hfrac : StartsOutside (fun c => c.isDigit || c = '.') ((readFrac w.2).2 ++ ext) := by
    intro c hc
    rcases readExp_cases (readFrac w.2).2 with ⟨d, t, ht, hd⟩ | hnone
    · rw [ht] at hc
      cases hc
      rcases hd with rfl | rfl
      · decide
      · decide
    · have hgoes : goesOn c = false := hstop c (by rw [hnone]; exact hc)
      simp only [goesOn, Bool.or_eq_false_iff] at hgoes ⊢
      exact hgoes.1.1
  have hwhole : StartsOutside Char.isDigit (w.2 ++ ext) := by
    intro c hc
    rcases readFrac_cases w.2 with ⟨t, ht⟩ | hnone
    · rw [ht] at hc
      cases hc
      decide
    · have hdigit := hfrac c (by rw [hnone]; exact hc)
      simp only [Bool.or_eq_false_iff] at hdigit
      exact hdigit.1
  have hsign : readSign (cs ++ ext) = ((readSign cs).1, (readSign cs).2 ++ ext) := by
    cases cs with
    | nil => cases hw
    | cons c cs =>
      by_cases hminus : c = '-'
      · subst hminus
        rfl
      · have hread : ∀ l, readSign (c :: l) = ([], c :: l) := by
          intro l
          rw [readSign]
          intro l' heq
          cases heq
          exact hminus rfl
        rw [List.cons_append, hread, hread]
        rfl
  rw [readNumber, hsign, readWhole_append hw hwhole]
  simp only [Option.map_some, readFrac_append hfrac, hexp]

theorem head_of_readWhole {cs : List Char} {w : List Char × List Char} (h : readWhole cs = some w) :
    ∃ c t, cs = c :: t ∧ c.isDigit = true := by
  cases cs with
  | nil => cases h
  | cons c cs =>
    refine ⟨c, cs, rfl, ?_⟩
    by_cases hzero : c = '0'
    · subst hzero
      rfl
    · rw [readWhole] at h
      · split at h
        · assumption
        · cases h
      · exact hzero

/-- A number that is read begins with a sign or a digit. -/
theorem head_of_readNumber {cs rest : List Char} {t : NumberText}
    (h : readNumber cs = some (t, rest)) :
    ∃ c cs', cs = c :: cs' ∧ (c = '-' ∨ c.isDigit = true) := by
  obtain ⟨w, hw, -⟩ := Option.map_eq_some_iff.mp h
  by_cases hminus : ∃ t, cs = '-' :: t
  · obtain ⟨t, rfl⟩ := hminus
    exact ⟨'-', t, rfl, .inl rfl⟩
  · have hsign : readSign cs = ([], cs) := by
      rw [readSign]
      exact fun t ht => hminus ⟨t, ht⟩
    rw [hsign] at hw
    obtain ⟨c, t, rfl, hc⟩ := head_of_readWhole hw
    exact ⟨c, t, rfl, .inr hc⟩

theorem afterWord_append {word cs rest : List Char} (h : afterWord word cs = some rest)
    (ext : List Char) : afterWord word (cs ++ ext) = some (rest ++ ext) := by
  induction word generalizing cs with
  | nil =>
    cases h
    rfl
  | cons w word ih =>
    cases cs with
    | nil => cases h
    | cons c cs =>
      rw [afterWord] at h
      rw [List.cons_append, afterWord]
      split at h
      · next hw =>
        rw [if_pos hw]
        exact ih h
      · cases h

section Append

variable {fl : Floats F} (fr : FloatReader fl)

theorem readNumeral_append {cs rest ext : List Char} {v : Json F}
    (h : readNumeral fr cs = some (v, rest)) (hstop : StartsOutside goesOn (rest ++ ext)) :
    readNumeral fr (cs ++ ext) = some (v, rest ++ ext) := by
  rw [readNumeral] at h ⊢
  split at h
  · cases h
  · next t r ht =>
    obtain ⟨v', hv, heq⟩ := Option.map_eq_some_iff.mp h
    cases heq
    rw [readNumber_append ht hstop]
    simp only [hv, Option.map_some]

/-- A number begins with a sign or a digit. -/
theorem readNumeral_minus {cs rest : List Char} {v : Json F}
    (h : readNumeral fr ('-' :: cs) = some (v, rest)) : ∃ c t, cs = c :: t ∧ c.isDigit = true := by
  rw [readNumeral] at h
  split at h
  · cases h
  · next t r ht =>
    obtain ⟨w, hw, -⟩ := Option.map_eq_some_iff.mp ht
    exact head_of_readWhole (show readWhole cs = some w from hw)

/-- A bare value is read to its end, whatever comes after it. -/
theorem readBare_append {cs rest ext : List Char} {v : Json F}
    (h : readBare fr cs = some (v, rest)) (hstop : StartsOutside goesOn (rest ++ ext)) :
    readBare fr (cs ++ ext) = some (v, rest ++ ext) := by
  cases cs with
  | nil => cases h
  | cons c cs =>
    rw [readBare] at h
    rw [List.cons_append, readBare]
    split at h
    · next word v' hword =>
      obtain ⟨r, hr, heq⟩ := Option.map_eq_some_iff.mp h
      cases heq
      simp only [afterWord_append hr ext, Option.map_some]
    · split at h
      · next r hr =>
        cases h
        split at hr
        · next hc =>
          simp only [if_pos hc, afterWord_append hr ext]
        · cases hr
      · next hr =>
        have hnumeral := readNumeral_append fr h hstop
        split
        · next r' hr' =>
          -- a number's sign has a digit after it
          split at hr'
          · next hc =>
            subst hc
            obtain ⟨d, t, rfl, hd⟩ := readNumeral_minus fr h
            rw [List.cons_append, afterWord] at hr'
            split at hr'
            · next hI =>
              subst hI
              exact absurd hd (by decide)
            · cases hr'
          · cases hr'
        · exact hnumeral

theorem startsOutside_of_skipBlanks {cs t : List Char} {c : Char} (h : skipBlanks cs = c :: t)
    (hc : goesOn c = false) (ext : List Char) : StartsOutside goesOn (cs ++ ext) := by
  cases cs with
  | nil => cases h
  | cons d cs =>
    intro x hx
    cases hx
    rw [skipBlanks, List.dropWhile_cons] at h
    split at h
    · next hd =>
      simp only [isBlank, Bool.or_eq_true, decide_eq_true_eq] at hd
      rcases hd with ((rfl | rfl) | rfl) | rfl
      all_goals decide
    · cases h
      exact hc

/-- A text begins with a quote or a bracket. -/
def Opens (cs : List Char) : Prop := ∃ c t, cs = c :: t ∧ (c = '"' ∨ c = '[' ∨ c = '{')

theorem readValue_nil (n : ℕ) : readValue fr n [] = none := by
  cases n with
  | zero => rfl
  | succ n => rfl

theorem readElems_nil (n : ℕ) : readElems fr n [] = none := by
  cases n with
  | zero => rfl
  | succ n => rw [readElems, readValue_nil]

theorem readMembers_nil (n : ℕ) : readMembers fr n [] = none := by
  cases n with
  | zero => rfl
  | succ n => rfl

theorem readValue_bare (n : ℕ) {cs : List Char} (h : ¬ Opens cs) :
    readValue fr (n + 1) cs = readBare fr cs := by
  rw [readValue]
  · exact fun t ht => h ⟨_, t, ht, .inl rfl⟩
  · exact fun t ht => h ⟨_, t, ht, .inr (.inl rfl)⟩
  · exact fun t ht => h ⟨_, t, ht, .inr (.inr rfl)⟩

theorem readValue_arr (n : ℕ) {cs t : List Char} {c : Char} (hskip : skipBlanks cs = c :: t)
    (hc : c ≠ ']') :
    readValue fr (n + 1) ('[' :: cs) = (readElems fr n (c :: t)).map fun p => (.arr p.1, p.2) := by
  rw [readValue, hskip]
  split
  · next heq =>
    cases heq
    exact absurd rfl hc
  · rfl

theorem readValue_obj (n : ℕ) {cs t : List Char} {c : Char} (hskip : skipBlanks cs = c :: t)
    (hc : c ≠ '}') :
    readValue fr (n + 1) ('{' :: cs) =
      (readMembers fr n (c :: t)).map fun p => (.obj (Dict.ofList p.1).entries, p.2) := by
  rw [readValue, hskip]
  split
  · next heq =>
    cases heq
    exact absurd rfl hc
  · rfl

/-- A value that was read is read again where more text follows, unless it is a number and the text
goes on with it. -/
theorem readValue_append_of {n : ℕ} {ext : List Char}
    (helems : ∀ {m : ℕ} {cs rest : List Char} {xs : List (Json F)},
      readElems fr n cs = some (xs, rest) → n ≤ m →
        readElems fr m (cs ++ ext) = some (xs, rest ++ ext))
    (hmembers : ∀ {m : ℕ} {cs rest : List Char} {xs : List (String × Json F)},
      readMembers fr n cs = some (xs, rest) → n ≤ m →
        readMembers fr m (cs ++ ext) = some (xs, rest ++ ext))
    {m : ℕ} {cs rest : List Char} {v : Json F} (h : readValue fr (n + 1) cs = some (v, rest))
    (hnm : n ≤ m) (hends : StartsOutside goesOn (rest ++ ext) ∨ Opens cs) :
    readValue fr (m + 1) (cs ++ ext) = some (v, rest ++ ext) := by
  by_cases hopen : Opens cs
  · obtain ⟨c, t, rfl, rfl | rfl | rfl⟩ := hopen
    · rw [readValue] at h
      obtain ⟨⟨s, r⟩, hs, heq⟩ := Option.map_eq_some_iff.mp h
      cases heq
      rw [List.cons_append, readValue, readString_append hs hnm]
      rfl
    · cases hskip : skipBlanks t with
      | nil =>
        rw [readValue, hskip] at h
        simp only [readElems_nil, Option.map_none, reduceCtorEq] at h
      | cons d t' =>
        have hskip' := skipBlanks_append hskip ext
        by_cases hd : d = ']'
        · subst hd
          rw [readValue, hskip] at h
          cases h
          rw [List.cons_append, readValue, hskip']
          rfl
        · rw [readValue_arr fr n hskip hd] at h
          obtain ⟨⟨xs, r⟩, hxs, heq⟩ := Option.map_eq_some_iff.mp h
          cases heq
          have happ := helems hxs hnm
          rw [List.cons_append] at happ
          rw [List.cons_append, readValue_arr fr m hskip' hd, happ]
          rfl
    · cases hskip : skipBlanks t with
      | nil =>
        rw [readValue, hskip] at h
        simp only [readMembers_nil, Option.map_none, reduceCtorEq] at h
      | cons d t' =>
        have hskip' := skipBlanks_append hskip ext
        by_cases hd : d = '}'
        · subst hd
          rw [readValue, hskip] at h
          cases h
          rw [List.cons_append, readValue, hskip']
          rfl
        · rw [readValue_obj fr n hskip hd] at h
          obtain ⟨⟨xs, r⟩, hxs, heq⟩ := Option.map_eq_some_iff.mp h
          cases heq
          have happ := hmembers hxs hnm
          rw [List.cons_append] at happ
          rw [List.cons_append, readValue_obj fr m hskip' hd, happ]
          rfl
  · have hstop := hends.resolve_right hopen
    rw [readValue_bare fr n hopen] at h
    have hne : cs ≠ [] := by
      rintro rfl
      cases h
    rw [readValue_bare, readBare_append fr h hstop]
    rintro ⟨c, t, heq, hc⟩
    cases cs with
    | nil => exact hne rfl
    | cons d cs =>
      cases heq
      exact hopen ⟨_, _, rfl, hc⟩

theorem readElems_append_of {n : ℕ} {ext : List Char}
    (hvalue : ∀ {m : ℕ} {cs rest : List Char} {v : Json F}, readValue fr n cs = some (v, rest) →
      n ≤ m → StartsOutside goesOn (rest ++ ext) → readValue fr m (cs ++ ext) = some (v, rest ++ ext))
    (helems : ∀ {m : ℕ} {cs rest : List Char} {xs : List (Json F)},
      readElems fr n cs = some (xs, rest) → n ≤ m →
        readElems fr m (cs ++ ext) = some (xs, rest ++ ext))
    {m : ℕ} {cs rest : List Char} {xs : List (Json F)}
    (h : readElems fr (n + 1) cs = some (xs, rest)) (hnm : n ≤ m) :
    readElems fr (m + 1) (cs ++ ext) = some (xs, rest ++ ext) := by
  rw [readElems] at h ⊢
  split at h
  · cases h
  · next x r hx =>
    split at h
    · next r' hr =>
      cases h
      rw [hvalue hx hnm (startsOutside_of_skipBlanks hr (by decide) ext)]
      simp only [skipBlanks_append hr]
    · next r' hr =>
      obtain ⟨⟨ys, r''⟩, hys, heq⟩ := Option.map_eq_some_iff.mp h
      cases heq
      rw [hvalue hx hnm (startsOutside_of_skipBlanks hr (by decide) ext)]
      simp only [skipBlanks_append hr]
      cases hskip : skipBlanks r' with
      | nil =>
        rw [hskip, readElems_nil] at hys
        cases hys
      | cons d t =>
        rw [hskip] at hys
        rw [skipBlanks_append hskip, ← List.cons_append, helems hys hnm]
        rfl
    · cases h

theorem readMembers_append_of {n : ℕ} {ext : List Char}
    (hvalue : ∀ {m : ℕ} {cs rest : List Char} {v : Json F}, readValue fr n cs = some (v, rest) →
      n ≤ m → StartsOutside goesOn (rest ++ ext) → readValue fr m (cs ++ ext) = some (v, rest ++ ext))
    (hmembers : ∀ {m : ℕ} {cs rest : List Char} {xs : List (String × Json F)},
      readMembers fr n cs = some (xs, rest) → n ≤ m →
        readMembers fr m (cs ++ ext) = some (xs, rest ++ ext))
    {m : ℕ} {cs rest : List Char} {xs : List (String × Json F)}
    (h : readMembers fr (n + 1) cs = some (xs, rest)) (hnm : n ≤ m) :
    readMembers fr (m + 1) (cs ++ ext) = some (xs, rest ++ ext) := by
  rw [readMembers.eq_def] at h
  split at h
  · next heq => cases heq
  next k cs' heq =>
  cases heq
  split at h
  · next t =>
    split at h
    · cases h
    next key r hkey =>
    split at h
    · next r' hr =>
      split at h
      · cases h
      next x r'' hx =>
      have hstart : ∃ d t', skipBlanks r' = d :: t' := by
        cases hskip : skipBlanks r' with
        | nil =>
          rw [hskip, readValue_nil] at hx
          cases hx
        | cons d t' => exact ⟨d, t', rfl⟩
      obtain ⟨d, t', hd⟩ := hstart
      rw [hd] at hx
      rw [List.cons_append, readMembers, readString_append hkey hnm]
      simp only [skipBlanks_append hr, skipBlanks_append hd]
      split at h
      · next r3 hr3 =>
        cases h
        rw [← List.cons_append, hvalue hx hnm (startsOutside_of_skipBlanks hr3 (by decide) ext)]
        simp only [skipBlanks_append hr3]
      · next r3 hr3 =>
        obtain ⟨⟨ys, r4⟩, hys, heq⟩ := Option.map_eq_some_iff.mp h
        cases heq
        rw [← List.cons_append, hvalue hx hnm (startsOutside_of_skipBlanks hr3 (by decide) ext)]
        simp only [skipBlanks_append hr3]
        cases hskip : skipBlanks r3 with
        | nil =>
          rw [hskip, readMembers_nil] at hys
          cases hys
        | cons e t4 =>
          rw [hskip] at hys
          rw [skipBlanks_append hskip, ← List.cons_append, hmembers hys hnm]
          rfl
      · cases h
    · cases h
  · cases h

/-- What was read is read again where more text follows and there is more depth to read it in. -/
theorem read_append (n : ℕ) (ext : List Char) :
    (∀ {m : ℕ} {cs rest : List Char} {v : Json F}, readValue fr n cs = some (v, rest) → n ≤ m →
      StartsOutside goesOn (rest ++ ext) ∨ Opens cs →
        readValue fr m (cs ++ ext) = some (v, rest ++ ext)) ∧
    (∀ {m : ℕ} {cs rest : List Char} {xs : List (Json F)}, readElems fr n cs = some (xs, rest) →
      n ≤ m → readElems fr m (cs ++ ext) = some (xs, rest ++ ext)) ∧
    (∀ {m : ℕ} {cs rest : List Char} {xs : List (String × Json F)},
      readMembers fr n cs = some (xs, rest) → n ≤ m →
        readMembers fr m (cs ++ ext) = some (xs, rest ++ ext)) := by
  induction n with
  | zero => exact ⟨nofun, nofun, nofun⟩
  | succ n ih =>
    obtain ⟨hvalue, helems, hmembers⟩ := ih
    have hvalue' : ∀ {m : ℕ} {cs rest : List Char} {v : Json F},
        readValue fr n cs = some (v, rest) → n ≤ m → StartsOutside goesOn (rest ++ ext) →
          readValue fr m (cs ++ ext) = some (v, rest ++ ext) :=
      fun h hnm hstop => hvalue h hnm (.inl hstop)
    have hpred : ∀ {m : ℕ}, n + 1 ≤ m → ∃ k, m = k + 1 ∧ n ≤ k :=
      fun {m} hm => ⟨m - 1, by omega, by omega⟩
    refine ⟨?_, ?_, ?_⟩
    · intro m cs rest v h hnm hends
      obtain ⟨k, rfl, hk⟩ := hpred hnm
      exact readValue_append_of fr helems hmembers h hk hends
    · intro m cs rest xs h hnm
      obtain ⟨k, rfl, hk⟩ := hpred hnm
      exact readElems_append_of fr hvalue' helems h hk
    · intro m cs rest xs h hnm
      obtain ⟨k, rfl, hk⟩ := hpred hnm
      exact readMembers_append_of fr hvalue' hmembers h hk

end Append

end Json
