import NDTwin.Lib.JsonRoundTrip
import NDTwin.Lib.LineFile

/-!
# JSON values, one to a line

A file of one JSON value a line is read line by line, and a line comes with the newline that ends
it.  The newline changes nothing: every part of the reader that stops before it goes on to stop
there, and none has it for a character of its own.

In the other direction, the text of a value has no newline in it: with `ensure_ascii` every
character of it is printable ASCII.

## Main definitions

* `toLineEnd` — what was read, with the newline left over.
* `Printable` — the characters an ASCII text has in it.
* `readObject` — what a reader of a file of objects makes of a line.

## Main results

* `loads_line`, `loads_line_of_cut` — **a line is read as its text is**, newline or not.
* `printable_plain` — **a text is printable ASCII**, so that it is one line.
* `readObject_plain`, `readObject_of_cut` — **what is made of a line** that is whole, or cut short.
-/

namespace Json

variable {F : Type*}

/-! ### The end of a line -/

/-- What was read of a line, with the newline at the end of what is left. -/
def toLineEnd {α : Type*} (read : Option (α × List Char)) : Option (α × List Char) :=
  read.map fun p => (p.1, p.2 ++ ['\n'])

@[simp] theorem toLineEnd_none {α : Type*} : toLineEnd (none : Option (α × List Char)) = none := rfl

@[simp] theorem toLineEnd_some {α : Type*} (x : α) (rest : List Char) :
    toLineEnd (some (x, rest)) = some (x, rest ++ ['\n']) := rfl

theorem toLineEnd_map {α β : Type*} (f : α → β) (read : Option (α × List Char)) :
    toLineEnd (read.map fun p => (f p.1, p.2)) =
      (toLineEnd read).map fun p => (f p.1, p.2) := by
  cases read with
  | none => rfl
  | some p => rfl

theorem skipBlanks_newline {cs : List Char} (h : skipBlanks cs = []) :
    skipBlanks (cs ++ ['\n']) = [] := by
  have hblank := List.dropWhile_eq_nil_iff.mp h
  refine List.dropWhile_eq_nil_iff.mpr ?_
  intro c hc
  rcases List.mem_append.mp hc with hc | hc
  · exact hblank c hc
  · rw [List.mem_singleton.mp hc]
    rfl

theorem readHex4_newline (a b c : Char) : readHex4 a b c '\n' = none := by
  have hend : PyBytes.hexDigit? '\n' = none := by decide
  unfold readHex4
  split
  · next hd =>
    rw [hend] at hd
    cases hd
  · rfl

theorem readUnit_char {c : Char} (hc : c ≠ '\\') (cs : List Char) :
    readUnit (c :: cs) = if c.toNat < 32 then none else some (c.toNat, cs) := by
  unfold readUnit
  split <;> simp_all

theorem readUnit_short {x : Char} (hx : x ≠ 'u') (cs : List Char) :
    readUnit ('\\' :: x :: cs) =
      if isShortEscape x then some ((shortEscape x).toNat, cs) else none := by
  rw [readUnit]
  intro a b c d cs' heq
  exact fun _ => hx heq

theorem readUnits_none {n : ℕ} {c : Char} {cs : List Char} (hc : c ≠ '"')
    (h : readUnit (c :: cs) = none) : readUnits (n + 1) (c :: cs) = none := by
  rw [readUnits, h]
  intro cs' heq
  cases heq
  exact hc rfl

theorem readUnit_newline (cs : List Char) :
    readUnit (cs ++ ['\n']) = toLineEnd (readUnit cs) := by
  rcases cs with _ | ⟨a, cs⟩
  · rfl
  by_cases ha : a = '\\'
  · subst ha
    rcases cs with _ | ⟨x, cs⟩
    · rfl
    by_cases hx : x = 'u'
    · subst hx
      -- a half of an escape is refused again: no escape has a newline in it
      rcases cs with _ | ⟨a, _ | ⟨b, _ | ⟨c, _ | ⟨d, cs⟩⟩⟩⟩
      · rfl
      · rfl
      · rfl
      · show (readHex4 a b c '\n').map _ = none
        rw [readHex4_newline]
        rfl
      · show (readHex4 a b c d).map _ = toLineEnd ((readHex4 a b c d).map _)
        cases readHex4 a b c d with
        | none => rfl
        | some u => rfl
    · rw [List.cons_append, List.cons_append, readUnit_short hx, readUnit_short hx]
      split <;> rfl
  · rw [List.cons_append, readUnit_char ha, readUnit_char ha]
    split <;> rfl

theorem readUnits_newline (n : ℕ) (cs : List Char) :
    readUnits n (cs ++ ['\n']) = toLineEnd (readUnits n cs) := by
  induction n generalizing cs with
  | zero => rfl
  | succ n ih =>
    rcases cs with _ | ⟨c, cs⟩
    · rfl
    by_cases hc : c = '"'
    · subst hc
      rfl
    · have hend := readUnit_newline (c :: cs)
      rw [List.cons_append] at hend ⊢
      cases hu : readUnit (c :: cs) with
      | none =>
        rw [hu] at hend
        rw [readUnits_none hc hu, readUnits_none hc hend]
        rfl
      | some p =>
        rw [hu] at hend
        rw [readUnits_cons hc hu, readUnits_cons hc hend, ih]
        exact (toLineEnd_map (List.cons p.1) _).symm

theorem readString_newline (n : ℕ) (cs : List Char) :
    readString n (cs ++ ['\n']) = toLineEnd (readString n cs) := by
  rw [readString, readUnits_newline, readString]
  exact (toLineEnd_map (fun us => String.ofList (joinUnits us)) _).symm

/-! ### Numbers -/

theorem takeDigits_newline (cs : List Char) :
    takeDigits (cs ++ ['\n']) = ((takeDigits cs).1, (takeDigits cs).2 ++ ['\n']) := by
  simp only [takeDigits]
  induction cs with
  | nil => rfl
  | cons c cs ih =>
    by_cases hc : c.isDigit = true
    · simp only [List.cons_append, List.takeWhile_cons, List.dropWhile_cons, hc, if_true]
      rw [Prod.mk.injEq] at ih
      rw [ih.1, ih.2]
    · simp [hc]

theorem readFrac_newline (cs : List Char) :
    readFrac (cs ++ ['\n']) = ((readFrac cs).1, (readFrac cs).2 ++ ['\n']) := by
  cases cs with
  | nil => rfl
  | cons c cs =>
    by_cases hc : c = '.'
    · subst hc
      rw [List.cons_append, readFrac, readFrac, takeDigits_newline]
      obtain ⟨_ | ⟨d, ds⟩, rest⟩ := takeDigits cs
      · rfl
      · rfl
    · have hread : ∀ l, readFrac (c :: l) = ([], c :: l) := by
        intro l
        rw [readFrac]
        intro l' heq
        cases heq
        exact hc rfl
      rw [List.cons_append, hread, hread]
      rfl

theorem readExpSign_newline (cs : List Char) :
    readExpSign (cs ++ ['\n']) = ((readExpSign cs).1, (readExpSign cs).2 ++ ['\n']) := by
  cases cs with
  | nil => rfl
  | cons c cs => exact readExpSign_append (List.cons_ne_nil c cs) ['\n']

theorem readExp_newline (cs : List Char) :
    readExp (cs ++ ['\n']) = ((readExp cs).1, (readExp cs).2 ++ ['\n']) := by
  cases cs with
  | nil => rfl
  | cons c cs =>
    rw [List.cons_append, readExp, readExp]
    split
    · rw [readExpSign_newline, takeDigits_newline]
      obtain ⟨_ | ⟨d, ds⟩, rest⟩ := takeDigits (readExpSign cs).2
      · rfl
      · rfl
    · rfl

theorem readSign_newline (cs : List Char) :
    readSign (cs ++ ['\n']) = ((readSign cs).1, (readSign cs).2 ++ ['\n']) := by
  cases cs with
  | nil => rfl
  | cons c cs =>
    by_cases hc : c = '-'
    · subst hc
      rfl
    · have hread : ∀ l, readSign (c :: l) = ([], c :: l) := by
        intro l
        rw [readSign]
        intro l' heq
        cases heq
        exact hc rfl
      rw [List.cons_append, hread, hread]
      rfl

theorem readWhole_newline (cs : List Char) :
    readWhole (cs ++ ['\n']) = toLineEnd (readWhole cs) := by
  cases cs with
  | nil => rfl
  | cons c cs =>
    by_cases hc : c = '0'
    · subst hc
      rfl
    · have hread : ∀ l, readWhole (c :: l) =
          if c.isDigit then some (takeDigits (c :: l)) else none := by
        intro l
        rw [readWhole]
        exact hc
      rw [List.cons_append, hread, hread, ← List.cons_append, takeDigits_newline]
      split <;> rfl

theorem readNumber_newline (cs : List Char) :
    readNumber (cs ++ ['\n']) = toLineEnd (readNumber cs) := by
  rw [readNumber, readNumber, readSign_newline, readWhole_newline]
  cases readWhole (readSign cs).2 with
  | none => rfl
  | some w =>
    simp only [toLineEnd, Option.map_some, readFrac_newline, readExp_newline]

theorem afterWord_newline {word : List Char} (hword : '\n' ∉ word) (cs : List Char) :
    afterWord word (cs ++ ['\n']) = (afterWord word cs).map fun rest => rest ++ ['\n'] := by
  induction word generalizing cs with
  | nil => rfl
  | cons w word ih =>
    cases cs with
    | nil =>
      have hw : w ≠ '\n' := fun h => hword (h ▸ List.mem_cons_self)
      simp [afterWord, hw]
    | cons c cs =>
      rw [List.cons_append, afterWord, afterWord]
      split
      · exact ih (fun h => hword (List.mem_cons_of_mem w h)) cs
      · rfl

/-! ### Values -/

section Line

variable {fl : Floats F} (fr : FloatReader fl)

theorem readNumeral_newline (cs : List Char) :
    readNumeral fr (cs ++ ['\n']) = toLineEnd (readNumeral fr cs) := by
  rw [readNumeral, readNumeral, readNumber_newline]
  cases readNumber cs with
  | none => rfl
  | some p =>
    show (ofNumber fr p.1).map _ = toLineEnd ((ofNumber fr p.1).map _)
    cases ofNumber fr p.1 with
    | none => rfl
    | some v => rfl

/-- None of the words has a newline in it. -/
theorem newline_notMem_wordOf {c : Char} {word : List Char} {v : Json F}
    (h : wordOf fr c = some (word, v)) : '\n' ∉ word := by
  unfold wordOf at h
  split_ifs at h
  all_goals
    cases h
    decide

theorem readBare_newline (cs : List Char) :
    readBare fr (cs ++ ['\n']) = toLineEnd (readBare fr cs) := by
  cases cs with
  | nil => rfl
  | cons c cs =>
    rw [List.cons_append, readBare, readBare]
    cases hword : wordOf fr c with
    | some p =>
      simp only [afterWord_newline (newline_notMem_wordOf fr hword)]
      cases afterWord p.1 cs with
      | none => rfl
      | some rest => rfl
    | none =>
      have hnumeral := readNumeral_newline fr (c :: cs)
      rw [List.cons_append] at hnumeral
      simp only [hnumeral]
      split_ifs
      · rw [afterWord_newline (by decide)]
        cases afterWord ['I', 'n', 'f', 'i', 'n', 'i', 't', 'y'] cs with
        | none => rfl
        | some rest => rfl
      · rfl

theorem readValue_newline_of {n : ℕ}
    (helems : ∀ cs, readElems fr n (cs ++ ['\n']) = toLineEnd (readElems fr n cs))
    (hmembers : ∀ cs, readMembers fr n (cs ++ ['\n']) = toLineEnd (readMembers fr n cs))
    (cs : List Char) :
    readValue fr (n + 1) (cs ++ ['\n']) = toLineEnd (readValue fr (n + 1) cs) := by
  by_cases hopen : Opens cs
  · obtain ⟨c, t, rfl, rfl | rfl | rfl⟩ := hopen
    · rw [List.cons_append, readValue, readValue, readString_newline]
      exact (toLineEnd_map Json.str _).symm
    · cases hskip : skipBlanks t with
      | nil =>
        rw [List.cons_append, readValue, readValue, hskip, skipBlanks_newline hskip]
        simp only [readElems_nil, Option.map_none, toLineEnd_none]
      | cons d t' =>
        have hskip' := skipBlanks_append hskip ['\n']
        by_cases hd : d = ']'
        · subst hd
          rw [List.cons_append, readValue, readValue, hskip, hskip']
          rfl
        · rw [List.cons_append, readValue_arr fr n hskip hd, readValue_arr fr n hskip' hd,
            ← List.cons_append, helems]
          exact (toLineEnd_map Json.arr _).symm
    · cases hskip : skipBlanks t with
      | nil =>
        rw [List.cons_append, readValue, readValue, hskip, skipBlanks_newline hskip]
        simp only [readMembers_nil, Option.map_none, toLineEnd_none]
      | cons d t' =>
        have hskip' := skipBlanks_append hskip ['\n']
        by_cases hd : d = '}'
        · subst hd
          rw [List.cons_append, readValue, readValue, hskip, hskip']
          rfl
        · rw [List.cons_append, readValue_obj fr n hskip hd, readValue_obj fr n hskip' hd,
            ← List.cons_append, hmembers]
          exact (toLineEnd_map (fun xs => Json.obj (Dict.ofList xs).entries) _).symm
  · have hopen' : ¬ Opens (cs ++ ['\n']) := by
      rintro ⟨c, t, heq, hc⟩
      cases cs with
      | nil =>
        cases heq
        simp at hc
      | cons d cs =>
        cases heq
        exact hopen ⟨_, _, rfl, hc⟩
    rw [readValue_bare fr n hopen, readValue_bare fr n hopen', readBare_newline]

theorem readElems_newline_of {n : ℕ}
    (hvalue : ∀ cs, readValue fr n (cs ++ ['\n']) = toLineEnd (readValue fr n cs))
    (helems : ∀ cs, readElems fr n (cs ++ ['\n']) = toLineEnd (readElems fr n cs))
    (cs : List Char) :
    readElems fr (n + 1) (cs ++ ['\n']) = toLineEnd (readElems fr (n + 1) cs) := by
  have hnext : ∀ cs, readElems fr n (skipBlanks (cs ++ ['\n'])) =
      toLineEnd (readElems fr n (skipBlanks cs)) := by
    intro cs
    cases hskip : skipBlanks cs with
    | nil => rw [skipBlanks_newline hskip, readElems_nil, toLineEnd_none]
    | cons d t => rw [skipBlanks_append hskip, ← List.cons_append, helems]
  rw [readElems, readElems, hvalue]
  rcases readValue fr n cs with _ | ⟨x, rest⟩
  · rfl
  simp only [toLineEnd_some]
  cases hskip : skipBlanks rest with
  | nil =>
    rw [skipBlanks_newline hskip]
    rfl
  | cons d t =>
    rw [skipBlanks_append hskip]
    by_cases hclose : d = ']'
    · subst hclose
      rfl
    by_cases hcomma : d = ','
    · subst hcomma
      simp only [hnext]
      exact (toLineEnd_map (List.cons x) _).symm
    · simp [hclose, hcomma]

theorem readMembers_newline_of {n : ℕ}
    (hvalue : ∀ cs, readValue fr n (cs ++ ['\n']) = toLineEnd (readValue fr n cs))
    (hmembers : ∀ cs, readMembers fr n (cs ++ ['\n']) = toLineEnd (readMembers fr n cs))
    (cs : List Char) :
    readMembers fr (n + 1) (cs ++ ['\n']) = toLineEnd (readMembers fr (n + 1) cs) := by
  have hnext : ∀ cs, readMembers fr n (skipBlanks (cs ++ ['\n'])) =
      toLineEnd (readMembers fr n (skipBlanks cs)) := by
    intro cs
    cases hskip : skipBlanks cs with
    | nil => rw [skipBlanks_newline hskip, readMembers_nil, toLineEnd_none]
    | cons d t => rw [skipBlanks_append hskip, ← List.cons_append, hmembers]
  have hafter : ∀ cs, readValue fr n (skipBlanks (cs ++ ['\n'])) =
      toLineEnd (readValue fr n (skipBlanks cs)) := by
    intro cs
    cases hskip : skipBlanks cs with
    | nil => rw [skipBlanks_newline hskip, readValue_nil, toLineEnd_none]
    | cons d t => rw [skipBlanks_append hskip, ← List.cons_append, hvalue]
  rcases cs with _ | ⟨c, cs⟩
  · rfl
  by_cases hc : c = '"'
  · subst hc
    rw [List.cons_append, readMembers, readMembers, readString_newline]
    rcases readString n cs with _ | ⟨key, rest⟩
    · rfl
    simp only [toLineEnd_some]
    cases hskip : skipBlanks rest with
    | nil =>
      rw [skipBlanks_newline hskip]
      rfl
    | cons d t =>
      rw [skipBlanks_append hskip]
      by_cases hcolon : d = ':'
      · subst hcolon
        simp only [hafter]
        rcases readValue fr n (skipBlanks t) with _ | ⟨x, rest'⟩
        · rfl
        simp only [toLineEnd_some]
        cases hskip' : skipBlanks rest' with
        | nil =>
          rw [skipBlanks_newline hskip']
          rfl
        | cons e t' =>
          rw [skipBlanks_append hskip']
          by_cases hclose : e = '}'
          · subst hclose
            rfl
          by_cases hcomma : e = ','
          · subst hcomma
            simp only [hnext]
            exact (toLineEnd_map (List.cons (key, x)) _).symm
          · simp [hclose, hcomma]
      · simp [hcolon]
  · simp [readMembers, hc]

/-- A newline after a text is left over where the text is read. -/
theorem read_newline (n : ℕ) :
    (∀ cs, readValue fr n (cs ++ ['\n']) = toLineEnd (readValue fr n cs)) ∧
    (∀ cs, readElems fr n (cs ++ ['\n']) = toLineEnd (readElems fr n cs)) ∧
    (∀ cs, readMembers fr n (cs ++ ['\n']) = toLineEnd (readMembers fr n cs)) := by
  induction n with
  | zero => exact ⟨fun _ => rfl, fun _ => rfl, fun _ => rfl⟩
  | succ n ih =>
    obtain ⟨hvalue, helems, hmembers⟩ := ih
    exact ⟨readValue_newline_of fr helems hmembers, readElems_newline_of fr hvalue helems,
      readMembers_newline_of fr hvalue hmembers⟩

/-- **A line is read as its text is**, newline or not. -/
theorem loads_line (st : Style) {v : Json F} (hv : Readable v) :
    loads fr (plain fl st v ++ ['\n']) = some v := by
  obtain ⟨c, t, hc, hblank, -⟩ := plain_head fr st v
  have hskip : skipBlanks (plain fl st v ++ ['\n']) = plain fl st v ++ ['\n'] := by
    rw [hc, List.cons_append, skipBlanks, List.dropWhile_cons, hblank]
    rfl
  have hread := (readValue_plain fr st ((plain fl st v ++ ['\n']).length + 1)).1 v ['\n'] hv
    (by rw [List.length_append]; omega) (by rintro c ⟨⟩; decide)
  rw [loads, hskip, hread]
  rfl

/-- **A line that was cut short is not read**, though it ends like one. -/
theorem loads_line_of_cut (st : Style) {fields : List (String × Json F)}
    (hv : Readable (.obj fields)) {cs ext : List Char} (h : cs ++ ext = plain fl st (.obj fields))
    (hcut : ext ≠ []) : loads fr (cs ++ ['\n']) = none := by
  have hnone := readValue_of_cut fr st hv h hcut ((cs ++ ['\n']).length + 1)
  cases hcs : cs with
  | nil => rfl
  | cons c t =>
    obtain ⟨d, t', hd, hblank, -⟩ := plain_head fr st (.obj fields)
    have hskip : skipBlanks (cs ++ ['\n']) = cs ++ ['\n'] := by
      rw [hcs, List.cons_append] at h ⊢
      rw [hd] at h
      rw [skipBlanks, List.dropWhile_cons, (List.cons.inj h).1, hblank]
      rfl
    rw [← hcs, loads, hskip, (read_newline fr _).1, hnone]
    rfl

end Line

/-! ### Printable text -/

/-- Printable ASCII. -/
def Printable (c : Char) : Prop := 32 ≤ c.toNat ∧ c.toNat < 127

instance : DecidablePred Printable := fun _ => inferInstanceAs (Decidable (_ ∧ _))

/-- The characters of a text are printable, by looking at each of them. -/
theorem forall_printable_of_all {cs : List Char} (h : cs.all (fun c => Printable c) = true) :
    ∀ c ∈ cs, Printable c := by
  intro c hc
  exact of_decide_eq_true (List.all_eq_true.mp h c hc)

theorem printable_of_isDigit {c : Char} (h : c.isDigit = true) : Printable c := by
  obtain ⟨hlow, hhigh⟩ := Char.isDigit_iff_toNat.mp h
  have h0 : '0'.toNat = 48 := rfl
  have h9 : '9'.toNat = 57 := rfl
  exact ⟨by omega, by omega⟩

theorem printable_takeDigits (cs : List Char) : ∀ c ∈ (takeDigits cs).1, Printable c :=
  fun _ hc => printable_of_isDigit (List.mem_takeWhile_imp hc)

/-- Nothing but digits, signs, a point and the letter of an exponent is read of a number. -/
theorem printable_of_readNumber {cs rest : List Char} {t : NumberText}
    (h : readNumber cs = some (t, rest)) : ∀ c ∈ t.chars, Printable c := by
  obtain ⟨w, hw, heq⟩ := Option.map_eq_some_iff.mp h
  cases heq
  have hsign : ∀ l, ∀ c ∈ (readSign l).1, Printable c := by
    intro l
    unfold readSign
    split
    · exact List.forall_mem_singleton.mpr (by decide)
    · exact nofun
  have hwhole : ∀ c ∈ w.1, Printable c := by
    unfold readWhole at hw
    split at hw
    · cases hw
      exact List.forall_mem_singleton.mpr (by decide)
    · split at hw
      · cases hw
        exact printable_takeDigits _
      · cases hw
    · cases hw
  have hfrac : ∀ l, ∀ c ∈ (readFrac l).1, Printable c := by
    intro l
    unfold readFrac
    split
    · next t =>
      have ht := printable_takeDigits t
      split
      · exact nofun
      · next heq =>
        rw [heq] at ht
        exact List.forall_mem_cons.mpr ⟨by decide, ht⟩
    · exact nofun
  have hexpSign : ∀ l, ∀ c ∈ (readExpSign l).1, Printable c := by
    intro l
    unfold readExpSign
    split
    · exact List.forall_mem_singleton.mpr (by decide)
    · exact List.forall_mem_singleton.mpr (by decide)
    · exact nofun
  have hexp : ∀ l, ∀ c ∈ (readExp l).1, Printable c := by
    intro l
    unfold readExp
    split
    · next e t =>
      split
      · next he =>
        have ht := printable_takeDigits (readExpSign t).2
        split
        · exact nofun
        · next heq =>
          rw [heq] at ht
          have he' : Printable e := by
            simp only [Bool.or_eq_true, decide_eq_true_eq] at he
            rcases he with rfl | rfl
            · decide
            · decide
          exact List.forall_mem_cons.mpr ⟨he', List.forall_mem_append.mpr ⟨hexpSign t, ht⟩⟩
      · exact nofun
    · exact nofun
  exact List.forall_mem_append.mpr ⟨hsign cs, List.forall_mem_append.mpr ⟨hwhole,
    List.forall_mem_append.mpr ⟨hfrac _, hexp _⟩⟩⟩

theorem printable_unicodeEscape (u : ℕ) : ∀ c ∈ unicodeEscape u, Printable c := by
  have hdigit : ∀ d < 16, Printable (hexDigit d) := by decide
  intro c hc
  simp only [unicodeEscape, List.mem_cons, List.not_mem_nil, or_false] at hc
  rcases hc with rfl | rfl | rfl | rfl | rfl | rfl
  · decide
  · decide
  all_goals exact hdigit _ (Nat.mod_lt _ (by decide))

theorem printable_escapeChar (c : Char) : ∀ d ∈ escapeChar c, Printable d := by
  unfold escapeChar
  split_ifs with _ _ _ _ _ _ _ hplain
  all_goals try exact forall_printable_of_all (by decide)
  · intro d hd
    rw [List.mem_singleton.mp hd]
    exact hplain
  · exact printable_unicodeEscape _
  · intro d hd
    rcases List.mem_append.mp hd with hd | hd
    · exact printable_unicodeEscape _ d hd
    · exact printable_unicodeEscape _ d hd

theorem printable_quote {st : Style} (hst : st.ascii = true) (s : String) :
    ∀ c ∈ st.quote s, Printable c := by
  intro c hc
  simp only [Style.quote, List.mem_cons, List.mem_append, List.mem_flatMap, List.not_mem_nil,
    or_false] at hc
  rcases hc with rfl | ⟨d, -, hd⟩ | rfl
  · decide
  · rw [Style.escapeChar, hst] at hd
    exact printable_escapeChar d c hd
  · decide

theorem printable_gap (st : Style) : ∀ c ∈ st.gap, Printable c := by
  unfold Style.gap
  split
  · exact forall_printable_of_all (by decide)
  · exact nofun

section Text

variable {fl : Floats F}

theorem printable_repr (fr : FloatReader fl) (x : F) : ∀ c ∈ fl.repr x, Printable c := by
  rcases fr.repr_form x with ⟨h, -⟩ | ⟨h, -⟩ | ⟨h, -⟩ | ⟨t, h, -⟩
  · rw [h]
    exact forall_printable_of_all (by decide)
  · rw [h]
    exact forall_printable_of_all (by decide)
  · rw [h]
    exact forall_printable_of_all (by decide)
  · have htext := chars_of_readNumber h
    rw [List.append_nil] at htext
    rw [← htext]
    exact printable_of_readNumber h

mutual

/-- **A text is printable ASCII**, so that it is one line. -/
theorem printable_plain (fr : FloatReader fl) {st : Style} (hst : st.ascii = true) :
    ∀ v : Json F, ∀ c ∈ plain fl st v, Printable c
  | .null => by rw [plain]; exact forall_printable_of_all (by decide)
  | .bool true => by rw [plain]; exact forall_printable_of_all (by decide)
  | .bool false => by rw [plain]; exact forall_printable_of_all (by decide)
  | .int n => by
    intro c hc
    rw [plain] at hc
    rcases mem_intChars hc with hdigit | rfl
    · exact printable_of_isDigit hdigit
    · decide
  | .float x => by rw [plain]; exact printable_repr fr x
  | .str s => by rw [plain]; exact printable_quote hst s
  | .arr [] => by rw [plain]; exact forall_printable_of_all (by decide)
  | .arr (x :: xs) => by
    rw [plain]
    exact List.forall_mem_cons.mpr ⟨by decide, List.forall_mem_append.mpr
      ⟨printable_plain fr hst x, printable_plainElems fr hst xs⟩⟩
  | .obj [] => by rw [plain]; exact forall_printable_of_all (by decide)
  | .obj ((key, x) :: fields) => by
    rw [plain]
    refine List.forall_mem_cons.mpr ⟨by decide, List.forall_mem_append.mpr
      ⟨printable_quote hst key, List.forall_mem_cons.mpr ⟨by decide, ?_⟩⟩⟩
    exact List.forall_mem_append.mpr ⟨printable_gap st, List.forall_mem_append.mpr
      ⟨printable_plain fr hst x, printable_plainMembers fr hst fields⟩⟩

theorem printable_plainElems (fr : FloatReader fl) {st : Style} (hst : st.ascii = true) :
    ∀ xs : List (Json F), ∀ c ∈ plainElems fl st xs, Printable c
  | [] => by rw [plainElems]; exact forall_printable_of_all (by decide)
  | x :: xs => by
    rw [plainElems]
    refine List.forall_mem_cons.mpr ⟨by decide, List.forall_mem_append.mpr ⟨printable_gap st, ?_⟩⟩
    exact List.forall_mem_append.mpr ⟨printable_plain fr hst x, printable_plainElems fr hst xs⟩

theorem printable_plainMembers (fr : FloatReader fl) {st : Style} (hst : st.ascii = true) :
    ∀ fields : List (String × Json F), ∀ c ∈ plainMembers fl st fields, Printable c
  | [] => by rw [plainMembers]; exact forall_printable_of_all (by decide)
  | (key, x) :: fields => by
    rw [plainMembers]
    refine List.forall_mem_cons.mpr ⟨by decide, List.forall_mem_append.mpr ⟨printable_gap st, ?_⟩⟩
    refine List.forall_mem_append.mpr ⟨printable_quote hst key,
      List.forall_mem_cons.mpr ⟨by decide, List.forall_mem_append.mpr ⟨printable_gap st, ?_⟩⟩⟩
    exact List.forall_mem_append.mpr
      ⟨printable_plain fr hst x, printable_plainMembers fr hst fields⟩

end

end Text

/-! ### Objects, one to a line -/

section Objects

open LineFile

variable {fl : Floats F} (fr : FloatReader fl)

/-- What a reader of a file of objects makes of a line: nothing of a blank one, the members of an
object, and `some none` of any other line. -/
def readObject (blank : Char → Bool) (raw : List Char) : Option (Option (List (String × Json F))) :=
  let line := strip blank raw
  if line = [] then none
  else
    match loads fr line with
    | some (.obj fields) => some (some fields)
    | _ => some none

variable (fl) in
theorem plainMembers_last (st : Style) (fields : List (String × Json F)) :
    ∃ t, plainMembers fl st fields = t ++ ['}'] := by
  induction fields with
  | nil => exact ⟨[], rfl⟩
  | cons p fields ih =>
    obtain ⟨t, ht⟩ := ih
    obtain ⟨key, x⟩ := p
    refine ⟨',' :: (st.gap ++ (st.quote key ++ ':' :: (st.gap ++ (plain fl st x ++ t)))), ?_⟩
    simp only [plainMembers, ht, List.cons_append, List.append_assoc]

variable (fl) in
/-- The text of an object is between braces. -/
theorem plain_obj_braces (st : Style) (fields : List (String × Json F)) :
    ∃ cs t, plain fl st (.obj fields) = '{' :: cs ∧ '{' :: cs = t ++ ['}'] := by
  cases fields with
  | nil => exact ⟨['}'], ['{'], rfl, rfl⟩
  | cons p fields =>
    obtain ⟨key, x⟩ := p
    obtain ⟨t, ht⟩ := plainMembers_last fl st fields
    refine ⟨_, '{' :: (st.quote key ++ ':' :: (st.gap ++ (plain fl st x ++ t))), rfl, ?_⟩
    simp only [ht, List.cons_append, List.append_assoc]

variable {blank : Char → Bool}

/-- The newline of a line is nothing to the reader. -/
theorem readObject_newline (hend : blank '\n' = true) (line : List Char) :
    readObject fr blank (line ++ ['\n']) = readObject fr blank line := by
  simp only [readObject, strip_concat hend]

/-- **A line that was written in full is read as the object it was written for.** -/
theorem readObject_plain (hopen : blank '{' = false) (hclose : blank '}' = false) (st : Style)
    {fields : List (String × Json F)} (hv : Readable (.obj fields)) :
    readObject fr blank (plain fl st (.obj fields)) = some (some fields) := by
  obtain ⟨cs, t, hcs, ht⟩ := plain_obj_braces fl st fields
  have hstrip : strip blank (plain fl st (.obj fields)) = plain fl st (.obj fields) := by
    rw [hcs]
    exact strip_eq_self hopen hclose ht
  simp only [readObject, hstrip]
  rw [if_neg (by rw [hcs]; exact List.cons_ne_nil _ _), loads_plain fr st hv]

/-- **A line that was cut short is not read.** -/
theorem readObject_of_cut (hopen : blank '{' = false) (st : Style)
    {fields : List (String × Json F)} (hv : Readable (.obj fields)) {cs ext : List Char}
    (h : cs ++ ext = plain fl st (.obj fields)) (hne : cs ≠ []) (hcut : ext ≠ []) :
    readObject fr blank cs = some none := by
  cases cs with
  | nil => exact absurd rfl hne
  | cons c cs =>
    obtain ⟨full, t, hfull, -⟩ := plain_obj_braces fl st fields
    obtain rfl : c = '{' := by
      rw [hfull] at h
      exact (List.cons.inj h).1
    -- the blanks that are stripped off the end cut the line once more
    obtain ⟨t', ext', hstrip, happ⟩ := strip_append_of_head hopen cs
    have hcut' : '{' :: t' ++ (ext' ++ ext) = plain fl st (.obj fields) := by
      rw [← List.append_assoc, happ, h]
    have hnone := loads_of_cut fr st hv hcut' (by simp [hcut])
    simp only [readObject, hstrip, if_neg (List.cons_ne_nil '{' t'), hnone]

/-- An object that `json.dumps` writes. -/
structure Written (F : Type*) where
  fields : List (String × Json F)
  readable : Readable (.obj fields)

/-- An object as `json.dumps` takes it: one with an integer that is too long is refused. -/
def written? (fields : List (String × Json F)) : Option (Written F) :=
  if h : Readable (.obj fields) then some ⟨fields, h⟩ else none

/-- The style of `json.dumps(value, separators=(",", ":"), sort_keys=True)`. -/
def compact : Style := ⟨false, true, true⟩

namespace Written

/-- The text of an object's line, less the newline. -/
def line (fl : Floats F) (o : Written F) : List Char := text fl compact (.obj o.fields)

/-- The members an object is read back with, in the order they were written in. -/
def asRead (o : Written F) : List (String × Json F) := sortFields (sortedFields o.fields)

theorem line_eq (o : Written F) : o.line fl = plain fl compact (.obj o.asRead) := rfl

theorem readable_asRead (o : Written F) : Readable (.obj o.asRead) := readable_sorted o.readable

variable (fl) in
theorem line_ne_nil (o : Written F) : o.line fl ≠ [] := by
  obtain ⟨cs, t, hcs, -⟩ := plain_obj_braces fl compact o.asRead
  rw [line_eq, hcs]
  exact List.cons_ne_nil _ _

include fr in
theorem printable_line (o : Written F) : ∀ c ∈ o.line fl, Printable c :=
  printable_plain fr rfl _

include fr in
theorem notMem_line (o : Written F) {c : Char} (hc : ¬ Printable c) : c ∉ o.line fl :=
  fun hmem => hc (o.printable_line fr c hmem)

/-- **What is made of a line of which some characters are left.** -/
theorem readObject_take (hopen : blank '{' = false) (hclose : blank '}' = false) (o : Written F)
    {n : ℕ} (hn : n ≠ 0) : readObject fr blank ((o.line fl).take n) =
      some (if (o.line fl).length ≤ n then some o.asRead else none) := by
  split
  · next hle =>
    rw [List.take_of_length_le hle, line_eq]
    exact readObject_plain fr hopen hclose compact o.readable_asRead
  · next hlt =>
    refine readObject_of_cut fr hopen compact o.readable_asRead
      (List.take_append_drop n (o.line fl)) ?_ ?_
    · intro hnil
      rcases List.take_eq_nil_iff.mp hnil with h | h
      · exact hn h
      · exact o.line_ne_nil fl h
    · intro hnil
      exact hlt (List.drop_eq_nil_iff.mp hnil)

/-- What `json.loads` makes of such a line, newline or not. -/
theorem loads_take (o : Written F) (n : ℕ) :
    loads fr ((o.line fl).take n) =
      (if (o.line fl).length ≤ n then some (.obj o.asRead) else none) ∧
    loads fr ((o.line fl).take n ++ ['\n']) =
      if (o.line fl).length ≤ n then some (.obj o.asRead) else none := by
  split
  · next hle =>
    rw [List.take_of_length_le hle, line_eq]
    exact ⟨loads_plain fr compact o.readable_asRead, loads_line fr compact o.readable_asRead⟩
  · next hlt =>
    have hcut : (o.line fl).drop n ≠ [] := fun hnil => hlt (List.drop_eq_nil_iff.mp hnil)
    have happ : (o.line fl).take n ++ (o.line fl).drop n = plain fl compact (.obj o.asRead) :=
      List.take_append_drop n (o.line fl)
    exact ⟨loads_of_cut fr compact o.readable_asRead happ hcut,
      loads_line_of_cut fr compact o.readable_asRead happ hcut⟩

/-- A member is read back where it was written. -/
theorem lookup_asRead (o : Written F) {key : String} {v : Json F} (h : (key, v) ∈ o.fields) :
    o.asRead.lookup key = some v.sorted := by
  refine (Dict.lookup_eq_some_iff_mem (readable_asRead o).1).mpr ?_
  refine (sortFields_perm _).mem_iff.mpr ?_
  rw [sortedFields_eq]
  exact List.mem_map.mpr ⟨(key, v), h, rfl⟩

theorem lookup_asRead_eq_none (o : Written F) {key : String} (h : key ∉ o.fields.map Prod.fst) :
    o.asRead.lookup key = none := by
  refine List.lookup_eq_none_iff.mpr ?_
  intro p hp
  have hmem := (sortFields_perm _).mem_iff.mp hp
  rw [sortedFields_eq] at hmem
  obtain ⟨q, hq, rfl⟩ := List.mem_map.mp hmem
  have hne : key ≠ q.1 := fun heq => h (List.mem_map.mpr ⟨q, hq, heq.symm⟩)
  simpa using hne

end Written

end Objects

end Json
