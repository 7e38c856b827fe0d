import Mathlib.Data.List.DropRight
import Mathlib.Data.List.TakeWhile
import Mathlib.Data.Nat.Notation

/-!
# Files of lines

A file is its characters.  It is read line by line, the newline that ends a line being part of the
line; only the last line may be without one.  `Laid` is the same from the writer's side: the lines
that were written, the last of them finished or not.

## Main definitions

* `decodeUtf8` — the text of a file's bytes, as far as they are UTF-8.
* `fileLines`, `splitLines`, `translateNewlines` — Python's ways of going through a file.
* `strip` — a line less the blanks around it.
* `Laid` — a file that consists of given lines.

## Main results

* `Laid.append`, `Laid.append_newline` — what is written after finished lines, and after a line that
  is finished first.
* `laid_take` — **a line that is cut off anywhere** is nothing, a line cut short, or the line.
* `Laid.map_fileLines` — **what a file is read as**, by a reader to which the newline is nothing.
-/

namespace LineFile

/-! ### Bytes -/

/-- The six bits of a continuation byte. -/
def tailBits? (b : UInt8) : Option ℕ :=
  if 128 ≤ b.toNat ∧ b.toNat < 192 then some (b.toNat - 128) else none

/-- The first character of UTF-8 bytes: the shortest form, no surrogates, nothing above `U+10FFFF`. -/
def firstChar : List UInt8 → Option (Char × List UInt8)
  | [] => none
  | b :: rest =>
    if b.toNat < 128 then some (Char.ofNat b.toNat, rest)
    else if 194 ≤ b.toNat ∧ b.toNat < 224 then
      match rest with
      | c :: rest => (tailBits? c).map fun x => (Char.ofNat ((b.toNat - 192) * 64 + x), rest)
      | _ => none
    else if 224 ≤ b.toNat ∧ b.toNat < 240 then
      match rest with
      | c :: d :: rest =>
        match tailBits? c, tailBits? d with
        | some x, some y =>
          let u := ((b.toNat - 224) * 64 + x) * 64 + y
          if 2048 ≤ u ∧ ¬ (55296 ≤ u ∧ u < 57344) then some (Char.ofNat u, rest) else none
        | _, _ => none
      | _ => none
    else if 240 ≤ b.toNat ∧ b.toNat < 245 then
      match rest with
      | c :: d :: e :: rest =>
        match tailBits? c, tailBits? d, tailBits? e with
        | some x, some y, some z =>
          let u := (((b.toNat - 240) * 64 + x) * 64 + y) * 64 + z
          if 65536 ≤ u ∧ u < 1114112 then some (Char.ofNat u, rest) else none
        | _, _, _ => none
      | _ => none
    else none

/-- The text of bytes up to the first that is not UTF-8, and whether there is one; every character
takes a byte at least. -/
def decodeFrom : ℕ → List UInt8 → List Char × Bool
  | _, [] => ([], false)
  | 0, _ :: _ => ([], true)
  | n + 1, bytes =>
    match firstChar bytes with
    | none => ([], true)
    | some (c, rest) => (c :: (decodeFrom n rest).1, (decodeFrom n rest).2)

/-- The text of a file's bytes, and whether it ends before they do. -/
def decodeUtf8 (bytes : List UInt8) : List Char × Bool := decodeFrom bytes.length bytes

/-- The bytes of an ASCII text. -/
def asciiBytes (cs : List Char) : List UInt8 := cs.map fun c => UInt8.ofNat c.toNat

theorem decodeUtf8_asciiBytes {cs : List Char} (h : ∀ c ∈ cs, c.toNat < 128) :
    decodeUtf8 (asciiBytes cs) = (cs, false) := by
  rw [decodeUtf8, asciiBytes, List.length_map]
  induction cs with
  | nil => rfl
  | cons c cs ih =>
    have hc : c.toNat < 128 := h c List.mem_cons_self
    have hbyte : (UInt8.ofNat c.toNat).toNat = c.toNat := by
      rw [UInt8.toNat_ofNat']
      exact Nat.mod_eq_of_lt (by omega)
    have ih := ih fun d hd => h d (List.mem_cons_of_mem c hd)
    have hfirst : ∀ rest, firstChar (UInt8.ofNat c.toNat :: rest) = some (c, rest) := by
      intro rest
      show (if (UInt8.ofNat c.toNat).toNat < 128 then
        some (Char.ofNat (UInt8.ofNat c.toNat).toNat, rest) else _) = some (c, rest)
      rw [hbyte, if_pos hc, Char.ofNat_toNat]
    rw [List.map_cons, List.length_cons, decodeFrom]
    · simp only [hfirst, ih]
    · exact List.cons_ne_nil _ _

/-! ### Reading -/

/-- The lines of a file opened as bytes, each with its newline. -/
def fileLines : List Char → List (List Char)
  | [] => []
  | c :: cs =>
    if c = '\n' then [c] :: fileLines cs
    else
      match fileLines cs with
      | [] => [[c]]
      | line :: lines => (c :: line) :: lines

/-- `bytes.splitlines(keepends=True)`, which ends a line at a carriage return too. -/
def splitLines : List Char → List (List Char)
  | [] => []
  | '\r' :: '\n' :: cs => ['\r', '\n'] :: splitLines cs
  | c :: cs =>
    if c = '\n' || c = '\r' then [c] :: splitLines cs
    else
      match splitLines cs with
      | [] => [[c]]
      | line :: lines => (c :: line) :: lines

/-- The newlines of a file opened as text: every `\r\n` and every `\r` is read as `\n`. -/
def translateNewlines : List Char → List Char
  | [] => []
  | '\r' :: '\n' :: cs => '\n' :: translateNewlines cs
  | c :: cs => (if c = '\r' then '\n' else c) :: translateNewlines cs

/-- A text less the blanks at both its ends. -/
def strip (blank : Char → Bool) (cs : List Char) : List Char :=
  (cs.dropWhile blank).rdropWhile blank

theorem splitLines_eq_fileLines {cs : List Char} (h : '\r' ∉ cs) : splitLines cs = fileLines cs := by
  induction cs with
  | nil => rfl
  | cons c cs ih =>
    have hc : c ≠ '\r' := fun heq => h (heq ▸ List.mem_cons_self)
    rw [splitLines, fileLines, ih fun hmem => h (List.mem_cons_of_mem c hmem)]
    · simp [hc]
    · intro cs' heq
      exact absurd heq hc

theorem translateNewlines_eq_self {cs : List Char} (h : '\r' ∉ cs) : translateNewlines cs = cs := by
  induction cs with
  | nil => rfl
  | cons c cs ih =>
    have hc : c ≠ '\r' := fun heq => h (heq ▸ List.mem_cons_self)
    rw [translateNewlines, ih fun hmem => h (List.mem_cons_of_mem c hmem), if_neg hc]
    intro cs' heq
    exact absurd heq hc

theorem fileLines_line {line : List Char} (h : '\n' ∉ line) (cs : List Char) :
    fileLines (line ++ '\n' :: cs) = (line ++ ['\n']) :: fileLines cs := by
  induction line with
  | nil => simp [fileLines]
  | cons c line ih =>
    have hc : c ≠ '\n' := fun heq => h (heq ▸ List.mem_cons_self)
    rw [List.cons_append, fileLines, if_neg hc, ih fun hmem => h (List.mem_cons_of_mem c hmem)]
    rfl

theorem fileLines_unended {line : List Char} (h : '\n' ∉ line) (hne : line ≠ []) :
    fileLines line = [line] := by
  induction line with
  | nil => exact absurd rfl hne
  | cons c line ih =>
    have hc : c ≠ '\n' := fun heq => h (heq ▸ List.mem_cons_self)
    rw [fileLines, if_neg hc]
    cases line with
    | nil => rfl
    | cons d line => rw [ih (fun hmem => h (List.mem_cons_of_mem c hmem)) (List.cons_ne_nil d line)]

/-! ### Stripping -/

section Strip

variable {blank : Char → Bool}

/-- A blank after a text is stripped. -/
theorem strip_concat {c : Char} (hc : blank c = true) (cs : List Char) :
    strip blank (cs ++ [c]) = strip blank cs := by
  simp only [strip]
  by_cases hall : ∀ d ∈ cs, blank d = true
  · have hall' : ∀ d ∈ cs ++ [c], blank d = true := by
      intro d hd
      rcases List.mem_append.mp hd with hd | hd
      · exact hall d hd
      · rw [List.mem_singleton.mp hd]
        exact hc
    rw [List.dropWhile_eq_nil_iff.mpr hall, List.dropWhile_eq_nil_iff.mpr hall']
  · have hne : cs.dropWhile blank ≠ [] := fun h => hall (List.dropWhile_eq_nil_iff.mp h)
    have happ : (cs ++ [c]).dropWhile blank = cs.dropWhile blank ++ [c] := by
      rw [List.dropWhile_append, if_neg (by simpa using hne)]
    rw [happ, List.rdropWhile_concat_pos _ _ _ hc]

/-- What is stripped of a text that does not begin with a blank is at its end. -/
theorem strip_append_of_head {c : Char} (hc : blank c = false) (cs : List Char) :
    ∃ t ext, strip blank (c :: cs) = c :: t ∧ c :: t ++ ext = c :: cs := by
  have hdrop : (c :: cs).dropWhile blank = c :: cs := by
    rw [List.dropWhile_cons, hc]
    rfl
  obtain ⟨ext, hext⟩ := List.rdropWhile_prefix blank (c :: cs)
  have hne : (c :: cs).rdropWhile blank ≠ [] := by
    intro hnil
    have hblank := List.rdropWhile_eq_nil_iff.mp hnil c List.mem_cons_self
    rw [hc] at hblank
    cases hblank
  rw [strip, hdrop]
  cases ht : (c :: cs).rdropWhile blank with
  | nil => exact absurd ht hne
  | cons d t =>
    rw [ht] at hext
    obtain rfl : d = c := (List.cons.inj hext).1
    exact ⟨t, ext, rfl, hext⟩

/-- A text with no blank at its ends stays as it is. -/
theorem strip_eq_self {c d : Char} (hc : blank c = false) (hd : blank d = false) {cs t : List Char}
    (h : c :: cs = t ++ [d]) : strip blank (c :: cs) = c :: cs := by
  have hdrop : (c :: cs).dropWhile blank = c :: cs := by
    rw [List.dropWhile_cons, hc]
    rfl
  rw [strip, hdrop, h]
  exact List.rdropWhile_concat_neg _ _ _ (by simp [hd])

end Strip

/-! ### Writing -/

/-- A file of given lines: every line but the last is finished, and the last may be. -/
inductive Laid : List (List Char) → List Char → Prop
  | nil : Laid [] []
  /-- A last line without its newline. -/
  | unended {line : List Char} (hne : line ≠ []) (hline : '\n' ∉ line) : Laid [line] line
  | line {line : List Char} {lines : List (List Char)} {file : List Char} (hline : '\n' ∉ line)
      (hrest : Laid lines file) : Laid (line :: lines) (line ++ '\n' :: file)

/-- Whether what is appended to a file begins a line. -/
def AtLineStart (file : List Char) : Prop := file = [] ∨ file.getLast? = some '\n'

instance : DecidablePred AtLineStart := fun _ => inferInstanceAs (Decidable (_ ∨ _))

theorem not_atLineStart_of_notMem {line : List Char} (hne : line ≠ []) (hline : '\n' ∉ line) :
    ¬ AtLineStart line := by
  rintro (hnil | hlast)
  · exact hne hnil
  · exact hline (List.mem_of_getLast? hlast)

theorem atLineStart_line {line file : List Char} :
    AtLineStart (line ++ '\n' :: file) ↔ AtLineStart file := by
  cases file with
  | nil => simp [AtLineStart]
  | cons c file => simp [AtLineStart, List.getLast?_append, List.getLast?_cons]

theorem Laid.append {lines lines' : List (List Char)} {file file' : List Char}
    (h : Laid lines file) (hstart : AtLineStart file) (h' : Laid lines' file') :
    Laid (lines ++ lines') (file ++ file') := by
  induction h with
  | nil => exact h'
  | unended hne hline => exact absurd hstart (not_atLineStart_of_notMem hne hline)
  | line hline hrest ih =>
    rw [List.append_assoc, List.cons_append, List.cons_append]
    exact .line hline (ih (atLineStart_line.mp hstart))

/-- A line that is not finished is finished first. -/
theorem Laid.append_newline {lines lines' : List (List Char)} {file file' : List Char}
    (h : Laid lines file) (hstart : ¬ AtLineStart file) (h' : Laid lines' file') :
    Laid (lines ++ lines') (file ++ '\n' :: file') := by
  induction h with
  | nil => exact absurd (.inl rfl) hstart
  | unended hne hline => exact .line hline h'
  | line hline hrest ih =>
    rw [List.append_assoc, List.cons_append, List.cons_append]
    exact .line hline (ih fun h => hstart (atLineStart_line.mpr h))

/-- The lines that are left of one line of which `n` characters are. -/
def cutLine (n : ℕ) (line : List Char) : List (List Char) := if n = 0 then [] else [line.take n]

/-- **A line that is cut off anywhere** is nothing, a line cut short, or the line. -/
theorem laid_take {line : List Char} (hne : line ≠ []) (hline : '\n' ∉ line) (n : ℕ) :
    Laid (cutLine n line) ((line ++ ['\n']).take n) := by
  unfold cutLine
  split
  · next hn =>
    rw [hn]
    exact .nil
  · next hn =>
    by_cases hle : n ≤ line.length
    · rw [List.take_append_of_le_length hle]
      refine .unended ?_ fun hmem => hline (List.mem_of_mem_take hmem)
      intro hnil
      rcases List.take_eq_nil_iff.mp hnil with h | h
      · exact hn h
      · exact hne h
    · rw [List.take_of_length_le (by omega), List.take_of_length_le (by simp; omega)]
      exact .line hline .nil

/-- **What a file is read as**, by a reader to which the newline is nothing. -/
theorem Laid.map_fileLines {α : Type*} {lines : List (List Char)} {file : List Char}
    (h : Laid lines file) {parse : List Char → α}
    (hparse : ∀ line, parse (line ++ ['\n']) = parse line) :
    (fileLines file).map parse = lines.map parse := by
  induction h with
  | nil => rfl
  | unended hne hline => rw [fileLines_unended hline hne]
  | line hline hrest ih => rw [fileLines_line hline, List.map_cons, List.map_cons, hparse, ih]

theorem Laid.notMem {c : Char} (hc : c ≠ '\n') {lines : List (List Char)} {file : List Char}
    (h : Laid lines file) (hlines : ∀ line ∈ lines, c ∉ line) : c ∉ file := by
  induction h with
  | nil => exact List.not_mem_nil
  | unended hne hline => exact hlines _ List.mem_cons_self
  | line hline hrest ih =>
    intro hmem
    rcases List.mem_append.mp hmem with hmem | hmem
    · exact hlines _ List.mem_cons_self hmem
    · rcases List.mem_cons.mp hmem with hmem | hmem
      · exact hc hmem
      · exact ih (fun line hl => hlines line (List.mem_cons_of_mem _ hl)) hmem

end LineFile
