import NDTwin.Journal.FileText

/-!
# A torn table journal

The file of a table journal and the ledger beside it stay in step.  A line of the file is a *piece*:
the first characters of the line of a header or of a record.  A crash shortens the pieces of the last
append, a later append finishes the piece it finds without a newline and starts after it, and a new
header takes the place of the old one.

## Main definitions

* `Piece`, `LaidOut` — lines as pieces of what was handed over, and a file that consists of them.
* `Agrees`, `Holds` — the file and the ledger in step, and what stays true along a run.

## Main results

* `Agrees.append`, `Agrees.reheader` — an append with what a crash left of it, and a new header.
* `Holds.step` — **one event keeps the file and the ledger in step.**
* `read_run` — **a torn journal loses at most the torn line**, over every run.
-/

namespace NDTwin
namespace Journal
namespace Torn

open Json LineFile

variable {F : Type*}

/-! ### Lines as pieces of what was handed over -/

/-- What a line is written from. -/
inductive Source (dpid : Json F) where
  | header (head : Heading dpid)
  | entry (r : Recorded F)

/-- The object of a line. -/
def Source.object {dpid : Json F} : Source dpid → Written F
  | .header head => head.object
  | .entry r => r.object

/-- A line of the file: the first characters of the line of what it was written from. -/
structure Piece (dpid : Json F) where
  source : Source dpid
  left : ℕ
  left_ne : left ≠ 0

/-- What is left of a line. -/
def cut {dpid : Json F} (source : Source dpid) (n : ℕ) : List (Piece dpid) :=
  if h : n = 0 then [] else [⟨source, n, h⟩]

section Pieces

variable {fl : Floats F} (fr : FloatReader fl) {dpid : Json F}

/-- The characters of a piece. -/
def Piece.chars (fl : Floats F) (p : Piece dpid) : List Char := (p.source.object.line fl).take p.left

/-- Whether a piece is the whole line. -/
def Piece.whole (fl : Floats F) (p : Piece dpid) : Bool := (p.source.object.line fl).length ≤ p.left

/-- The header a piece holds. -/
def Piece.heading? (fl : Floats F) (p : Piece dpid) : Option (Heading dpid) :=
  match p.source with
  | .header head => if p.whole fl then some head else none
  | .entry _ => none

/-- The record a piece holds. -/
def Piece.recorded? (fl : Floats F) (p : Piece dpid) : Option (Recorded F) :=
  match p.source with
  | .header _ => none
  | .entry r => if p.whole fl then some r else none

theorem namesHeader_heading (head : Heading dpid) : namesHeader fl head.object.asRead = true := by
  have hlookup : head.object.asRead.lookup "header" = some (Json.bool true).sorted := by
    refine head.object.lookup_asRead ?_
    show ("header", Json.bool true) ∈ headerObject dpid head.given
    simp [headerObject]
  rw [namesHeader, hlookup]
  rfl

theorem namesHeader_recorded (r : Recorded F) : namesHeader fl r.object.asRead = false := by
  have hlookup : r.object.asRead.lookup "header" = none := by
    refine r.object.lookup_asRead_eq_none ?_
    show "header" ∉ r.write.entry.map Prod.fst
    simp [Write.entry]
  rw [namesHeader, hlookup]
  rfl

include fr in
theorem notMem_chars (p : Piece dpid) {c : Char} (hc : ¬ Printable c) : c ∉ p.chars fl :=
  fun hmem => p.source.object.notMem_line fr hc (List.mem_of_mem_take hmem)

/-- What `read` makes of a piece. -/
theorem readObject_piece (p : Piece dpid) : readObject fr isSpace (p.chars fl) =
    some (if p.whole fl then some p.source.object.asRead else none) := by
  rw [Piece.chars, p.source.object.readObject_take fr (by decide) (by decide) p.left_ne]
  simp only [Piece.whole, decide_eq_true_eq]

/-- What `read` adds for a piece. -/
theorem add_piece (p : Piece dpid) (r : Reading F) :
    r.add fl (readObject fr isSpace (p.chars fl)) =
      ⟨r.header.or ((p.heading? fl).map fun head => head.object.asRead),
        r.records ++ ((p.recorded? fl).map fun rec => rec.object.asRead).toList,
        r.unreadable + if p.whole fl then 0 else 1⟩ := by
  rw [readObject_piece]
  obtain ⟨source, left, hleft⟩ := p
  cases hwhole : Piece.whole fl ⟨source, left, hleft⟩ with
  | false => cases source <;> simp [Reading.add, Piece.heading?, Piece.recorded?, hwhole]
  | true =>
    cases source with
    | header head =>
      simp [Reading.add, Piece.heading?, Piece.recorded?, hwhole, Source.object,
        namesHeader_heading]
    | entry rec =>
      simp [Reading.add, Piece.heading?, Piece.recorded?, hwhole, Source.object,
        namesHeader_recorded]

/-- The headers of a file's lines. -/
def headings (fl : Floats F) (ps : List (Piece dpid)) : List (Heading dpid) :=
  ps.filterMap (Piece.heading? fl)

/-- The records of a file's lines. -/
def records (fl : Floats F) (ps : List (Piece dpid)) : List (Recorded F) :=
  ps.filterMap (Piece.recorded? fl)

/-- How many of a file's lines are torn. -/
def torn (fl : Floats F) (ps : List (Piece dpid)) : ℕ := ps.countP fun p => !p.whole fl

/-- A file that consists of pieces. -/
def LaidOut (fl : Floats F) (ps : List (Piece dpid)) (file : List Char) : Prop :=
  Laid (ps.map (Piece.chars fl)) file

/-- **What a file of pieces is read as.** -/
theorem read_of_laidOut {ps : List (Piece dpid)} {file : List Char} (h : LaidOut fl ps file) :
    read fr file = ⟨(headings fl ps).head?.map fun head => head.object.asRead,
      (records fl ps).map fun rec => rec.object.asRead, torn fl ps⟩ := by
  have hmap := Laid.map_fileLines h (readObject_newline fr (show isSpace '\n' = true from rfl))
  suffices hfold : ∀ r : Reading F,
      ((ps.map (Piece.chars fl)).map (readObject fr isSpace)).foldl (Reading.add fl) r =
        ⟨r.header.or ((headings fl ps).head?.map fun head => head.object.asRead),
          r.records ++ (records fl ps).map fun rec => rec.object.asRead,
          r.unreadable + torn fl ps⟩ by
    rw [read, ← List.foldl_map, hmap, hfold]
    simp
  clear h hmap
  induction ps with
  | nil => intro r; simp [headings, records, torn]
  | cons p ps ih =>
    intro r
    rw [List.map_cons, List.map_cons, List.foldl_cons, ih, add_piece]
    cases hhead : p.heading? fl <;> cases hrec : p.recorded? fl <;> cases hwhole : p.whole fl <;>
      simp [headings, records, torn, hhead, hrec, hwhole] <;> omega

/-- A file and a ledger agree: the file's one header is the ledger's, its records are the ledger's,
and no more lines are torn than there were crashes. -/
structure Agrees (fl : Floats F) (ps : List (Piece dpid)) (ledger : List (Item dpid)) (n : ℕ) :
    Prop where
  headings_eq : headings fl ps = (held fl ledger).toList
  records_eq : records fl ps = completed fl ledger
  torn_le : torn fl ps ≤ n

theorem headings_append (ps qs : List (Piece dpid)) :
    headings fl (ps ++ qs) = headings fl ps ++ headings fl qs := List.filterMap_append

theorem records_append (ps qs : List (Piece dpid)) :
    records fl (ps ++ qs) = records fl ps ++ records fl qs := List.filterMap_append

theorem torn_append (ps qs : List (Piece dpid)) : torn fl (ps ++ qs) = torn fl ps + torn fl qs :=
  List.countP_append

/-! ### What an append leaves -/

/-- An append is one to the file before it. -/
structure Append.Fits (a : Append dpid) (before : List Char) : Prop where
  header_iff : a.header.isSome = true ↔ before = []
  repair_iff : a.repair = true ↔ ¬ AtLineStart before

/-- The lines that are left of an append. -/
def Append.pieces (fl : Floats F) (a : Append dpid) : List (Piece dpid) :=
  (match a.header with
    | some head => cut (.header head) a.left
    | none => []) ++ cut (.entry a.entry) (a.left - (a.lead fl).length)

@[simp] theorem cut_zero (source : Source dpid) : cut source 0 = [] := rfl

theorem map_chars_cut (source : Source dpid) (n : ℕ) :
    (cut source n).map (Piece.chars fl) = cutLine n (source.object.line fl) := by
  unfold cut cutLine
  split <;> rfl

include fr in
/-- What is left of one line. -/
theorem laidOut_cut (source : Source dpid) (n : ℕ) :
    LaidOut fl (cut source n) ((source.object.line fl ++ ['\n']).take n) := by
  rw [LaidOut, map_chars_cut]
  exact laid_take (source.object.line_ne_nil fl) (source.object.notMem_line fr (by decide)) n

theorem LaidOut.append {ps qs : List (Piece dpid)} {file file' : List Char} (h : LaidOut fl ps file)
    (hstart : AtLineStart file) (h' : LaidOut fl qs file') : LaidOut fl (ps ++ qs) (file ++ file') := by
  rw [LaidOut, List.map_append]
  exact Laid.append h hstart h'

theorem LaidOut.append_newline {ps qs : List (Piece dpid)} {file file' : List Char}
    (h : LaidOut fl ps file) (hstart : ¬ AtLineStart file) (h' : LaidOut fl qs file') :
    LaidOut fl (ps ++ qs) (file ++ '\n' :: file') := by
  rw [LaidOut, List.map_append]
  exact Laid.append_newline h hstart h'

theorem LaidOut.eq_nil {ps : List (Piece dpid)} (h : LaidOut fl ps []) : ps = [] := by
  unfold LaidOut at h
  generalize hlines : ps.map (Piece.chars fl) = lines at h
  generalize hfile : ([] : List Char) = file at h
  cases h with
  | nil => exact List.map_eq_nil_iff.mp hlines
  | unended hne hline => exact absurd hfile.symm hne
  | line hline hrest => simp at hfile

include fr in
/-- **What a crash leaves of an append** are lines of the file. -/
theorem laidOut_pieces {a : Append dpid} {before : List Char} {ps : List (Piece dpid)}
    (hbefore : LaidOut fl ps before) (hfits : a.Fits before) :
    LaidOut fl (ps ++ a.pieces fl) (before ++ (a.bytes fl).take a.left) := by
  obtain ⟨header, repair, entry, left⟩ := a
  have hentry := laidOut_cut fr (Source.entry entry : Source dpid)
  cases header with
  | some head =>
    -- a header is written to an empty file only
    obtain rfl := hfits.header_iff.mp rfl
    obtain rfl := hbefore.eq_nil
    have hhead := laidOut_cut fr (.header head) left
    simp only [Append.bytes, Append.lead, Append.pieces, List.nil_append]
    rw [List.take_append]
    by_cases hfull : left ≤ (head.object.line fl ++ ['\n']).length
    · have hzero : left - (head.object.line fl ++ ['\n']).length = 0 := by omega
      rw [hzero, List.take_zero, List.append_nil, cut_zero, List.append_nil]
      exact hhead
    · refine hhead.append (.inr ?_) (hentry _)
      show ((head.object.line fl ++ ['\n']).take left).getLast? = some '\n'
      rw [List.take_of_length_le (by omega), List.getLast?_concat]
  | none =>
    cases repair with
    | true =>
      have hstart := hfits.repair_iff.mp rfl
      simp only [Append.bytes, Append.lead, Append.pieces, List.nil_append, if_true,
        List.length_singleton, List.singleton_append]
      cases left with
      | zero =>
        rw [Nat.zero_sub, cut_zero, List.take_zero, List.append_nil, List.append_nil]
        exact hbefore
      | succ n => exact hbefore.append_newline hstart (hentry n)
    | false =>
      have hstart : AtLineStart before := by
        by_contra h
        cases hfits.repair_iff.mpr h
      simp only [Append.bytes, Append.lead, Append.pieces, List.nil_append, Bool.false_eq_true,
        if_false, List.length_nil, Nat.sub_zero]
      exact hbefore.append hstart (hentry left)

theorem headings_cut (source : Source dpid) (n : ℕ) :
    headings fl (cut source n) =
      match source with
      | .header head => if (head.object.line fl).length ≤ n then [head] else []
      | .entry _ => [] := by
  have hpos := List.length_pos_iff.mpr (source.object.line_ne_nil fl)
  unfold cut
  split
  · next hn =>
    cases source with
    | header head =>
      have hlen : ¬ (head.object.line fl).length ≤ n := by
        have : 0 < (head.object.line fl).length := hpos
        omega
      simp [headings, hlen]
    | entry r => rfl
  · next hn =>
    cases source with
    | header head =>
      by_cases hlen : (head.object.line fl).length ≤ n
      · simp [headings, Piece.heading?, Piece.whole, Source.object, hlen]
      · simp [headings, Piece.heading?, Piece.whole, Source.object, hlen]
    | entry r => rfl

theorem records_cut (source : Source dpid) (n : ℕ) :
    records fl (cut source n) =
      match source with
      | .header _ => []
      | .entry r => if (r.object.line fl).length ≤ n then [r] else [] := by
  have hpos := List.length_pos_iff.mpr (source.object.line_ne_nil fl)
  unfold cut
  split
  · next hn =>
    cases source with
    | header head => rfl
    | entry r =>
      have hlen : ¬ (r.object.line fl).length ≤ n := by
        have : 0 < (r.object.line fl).length := hpos
        omega
      simp [records, hlen]
  · next hn =>
    cases source with
    | header head => rfl
    | entry r =>
      by_cases hlen : (r.object.line fl).length ≤ n
      · simp [records, Piece.recorded?, Piece.whole, Source.object, hlen]
      · simp [records, Piece.recorded?, Piece.whole, Source.object, hlen]

variable (fl) in
theorem torn_cut (source : Source dpid) (n : ℕ) :
    torn fl (cut source n) =
      if n ≠ 0 ∧ n < (source.object.line fl).length then 1 else 0 := by
  unfold cut
  split
  · next hn => simp [torn, hn]
  · next hn => simp [torn, Piece.whole, hn]

theorem headings_pieces (a : Append dpid) :
    headings fl (a.pieces fl) =
      match a.header with
      | some head => if (head.object.line fl).length ≤ a.left then [head] else []
      | none => [] := by
  rw [Append.pieces, headings_append, headings_cut]
  cases a.header with
  | some head => simp [headings_cut]
  | none => simp [headings]

theorem records_pieces (a : Append dpid) :
    records fl (a.pieces fl) = if a.entryWhole fl then [a.entry] else [] := by
  rw [Append.pieces, records_append, records_cut]
  simp only [Append.entryWhole, decide_eq_true_eq]
  cases a.header with
  | some head => simp [records_cut]
  | none => simp [records]

/-- A crash tears one line of an append, and an append that is all there has none. -/
theorem torn_pieces (a : Append dpid) :
    torn fl (a.pieces fl) ≤ if a.left < (a.bytes fl).length then 1 else 0 := by
  have hentry := torn_cut fl (.entry a.entry : Source dpid) (a.left - (a.lead fl).length)
  rw [Append.pieces, torn_append, hentry]
  have hbytes : (a.bytes fl).length =
      (a.lead fl).length + ((.entry a.entry : Source dpid).object.line fl).length + 1 := by
    simp [Append.bytes, Source.object]
    omega
  cases hheader : a.header with
  | some head =>
    have hlead : (a.lead fl).length = ((Source.header head).object.line fl).length + 1 := by
      simp [Append.lead, hheader, Source.object]
    simp only [torn_cut]
    split_ifs <;> omega
  | none =>
    simp only [torn, List.countP_nil]
    split_ifs <;> omega

theorem held_concat_append (ledger : List (Item dpid)) (a : Append dpid) :
    held fl (ledger ++ [Item.append a]) =
      match a.header with
      | some head => if (head.object.line fl).length ≤ a.left then some head else none
      | none => held fl ledger := by
  rw [held, lastHeading, List.filterMap_append]
  cases hheader : a.header with
  | none => simp [Item.heading, hheader, held, lastHeading]
  | some head =>
    by_cases hlen : (head.object.line fl).length ≤ a.left
    · simp [Item.heading, hheader, hlen]
    · simp [Item.heading, hheader, hlen]

theorem completed_concat_append (ledger : List (Item dpid)) (a : Append dpid) :
    completed fl (ledger ++ [Item.append a]) =
      completed fl ledger ++ if a.entryWhole fl then [a.entry] else [] := by
  rw [completed, List.filterMap_append, completed]
  cases hwhole : a.entryWhole fl with
  | true => simp [Item.recorded, hwhole]
  | false => simp [Item.recorded, hwhole]

/-- **An append and what a crash left of it keep the file and the ledger in step.** -/
theorem Agrees.append {ps : List (Piece dpid)} {ledger : List (Item dpid)} {n : ℕ}
    (h : Agrees fl ps ledger n) {a : Append dpid} (hps : a.header.isSome = true → ps = []) :
    Agrees fl (ps ++ a.pieces fl) (ledger ++ [Item.append a])
      (n + if a.left < (a.bytes fl).length then 1 else 0) where
  headings_eq := by
    rw [headings_append, headings_pieces, held_concat_append]
    cases hheader : a.header with
    | none =>
      simp only [List.append_nil]
      exact h.headings_eq
    | some head =>
      obtain rfl := hps (by rw [hheader]; rfl)
      simp only [headings, List.filterMap_nil, List.nil_append]
      split <;> rfl
  records_eq := by rw [records_append, records_pieces, completed_concat_append, h.records_eq]
  torn_le := by
    rw [torn_append]
    exact Nat.add_le_add h.torn_le (torn_pieces a)

/-! ### What a new header leaves -/

/-- Whether a piece is a header line. -/
def Piece.isHeading (fl : Floats F) (p : Piece dpid) : Bool := (p.heading? fl).isSome

theorem isHeaderLine_of_loads {p : Piece dpid} {raw : List Char}
    (h : loads fr raw = if (p.source.object.line fl).length ≤ p.left then
      some (.obj p.source.object.asRead) else none) : isHeaderLine fr raw = p.isHeading fl := by
  obtain ⟨source, left, hleft⟩ := p
  unfold isHeaderLine
  rw [h]
  by_cases hlen : (source.object.line fl).length ≤ left
  · rw [if_pos hlen]
    cases source with
    | header head =>
      have hlen' : (head.object.line fl).length ≤ left := hlen
      simp only [Piece.isHeading, Piece.heading?, Piece.whole, Source.object, hlen', decide_true,
        if_true, Option.isSome_some]
      exact namesHeader_heading head
    | entry r => exact namesHeader_recorded r
  · rw [if_neg hlen]
    cases source with
    | header head =>
      have hlen' : ¬ (head.object.line fl).length ≤ left := hlen
      simp [Piece.isHeading, Piece.heading?, Piece.whole, Source.object, hlen']
    | entry r => rfl

theorem isHeaderLine_piece (p : Piece dpid) :
    isHeaderLine fr (p.chars fl) = p.isHeading fl ∧
      isHeaderLine fr (p.chars fl ++ ['\n']) = p.isHeading fl := by
  obtain ⟨hline, hended⟩ := p.source.object.loads_take fr p.left
  exact ⟨isHeaderLine_of_loads fr hline, isHeaderLine_of_loads fr hended⟩

include fr in
theorem strip_piece_ne_nil (p : Piece dpid) : strip isSpace (p.chars fl) ≠ [] := by
  intro hnil
  have hread := readObject_piece fr p
  simp [readObject, hnil] at hread

/-- What `reheader` keeps of a file's lines: all but the first header, each of them finished. -/
theorem body_fileLines {lines : List (List Char)} {file : List Char} (h : Laid lines file)
    (hlines : ∀ line ∈ lines, strip isSpace line ≠ [] ∧
      isHeaderLine fr (line ++ ['\n']) = isHeaderLine fr line) (dropped : Bool) :
    body fr dropped (fileLines file) =
      (if dropped then lines else lines.eraseP (isHeaderLine fr)).map fun line => line ++ ['\n'] := by
  induction h generalizing dropped with
  | nil => cases dropped <;> rfl
  | @unended line hne hline =>
    obtain ⟨hstrip, -⟩ := hlines line List.mem_cons_self
    have hlast : line.getLast? ≠ some '\n' := fun h => hline (List.mem_of_getLast? h)
    rw [fileLines_unended hline hne]
    cases dropped <;> cases hhead : isHeaderLine fr line <;> simp [body, hstrip, hlast, hhead]
  | @line line lines file hline hrest ih =>
    obtain ⟨hstrip, hended⟩ := hlines line List.mem_cons_self
    have hstrip' : strip isSpace (line ++ ['\n']) ≠ [] := by
      rw [strip_concat rfl]
      exact hstrip
    have ih := ih fun l hl => hlines l (List.mem_cons_of_mem line hl)
    rw [fileLines_line hline]
    cases dropped <;> cases hhead : isHeaderLine fr line <;>
      simp [body, hstrip', hended, hhead, ih]

/-- Finished lines. -/
theorem laid_flatten {lines : List (List Char)} (h : ∀ line ∈ lines, '\n' ∉ line) :
    Laid lines (lines.map fun line => line ++ ['\n']).flatten := by
  induction lines with
  | nil => exact .nil
  | cons line lines ih =>
    rw [List.map_cons, List.flatten_cons, List.append_assoc]
    exact .line (h line List.mem_cons_self) (ih fun l hl => h l (List.mem_cons_of_mem line hl))

/-- **A new header stands before every line but the old header.** -/
theorem laidOut_reheader {ps : List (Piece dpid)} {file : List Char} (h : LaidOut fl ps file)
    (head : Heading dpid) :
    LaidOut fl
      (cut (.header head) ((head.object.line fl).length + 1) ++ ps.eraseP (Piece.isHeading fl))
      (reheader fr head file) := by
  have hreturn : '\r' ∉ file := by
    refine Laid.notMem (by decide) h ?_
    intro line hline
    obtain ⟨p, -, rfl⟩ := List.mem_map.mp hline
    exact notMem_chars fr p (by decide)
  have hbody := body_fileLines fr h (by
    intro line hline
    obtain ⟨p, -, rfl⟩ := List.mem_map.mp hline
    obtain ⟨hp, hp'⟩ := isHeaderLine_piece fr p
    exact ⟨strip_piece_ne_nil fr p, by rw [hp, hp']⟩) false
  have herase : (ps.map (Piece.chars fl)).eraseP (isHeaderLine fr) =
      (ps.eraseP (Piece.isHeading fl)).map (Piece.chars fl) := by
    rw [List.eraseP_map]
    congr 2
    funext p
    exact (isHeaderLine_piece fr p).1
  rw [reheader, splitLines_eq_fileLines hreturn, hbody, if_neg Bool.false_ne_true, herase]
  refine LaidOut.append (?_ : LaidOut fl (cut (.header head) _) _) (.inr List.getLast?_concat) ?_
  · have hcut := laidOut_cut fr (.header head) ((head.object.line fl).length + 1)
    rw [List.take_of_length_le (by rw [List.length_append]; exact Nat.le_refl _)] at hcut
    exact hcut
  · refine laid_flatten ?_
    intro line hline
    obtain ⟨p, -, rfl⟩ := List.mem_map.mp hline
    exact notMem_chars fr p (by decide)

theorem headings_eraseP (ps : List (Piece dpid)) :
    headings fl (ps.eraseP (Piece.isHeading fl)) = (headings fl ps).tail := by
  induction ps with
  | nil => rfl
  | cons p ps ih =>
    cases hhead : p.heading? fl with
    | none => simpa [headings, Piece.isHeading, hhead] using ih
    | some head => simp [headings, Piece.isHeading, hhead]

/-- A header line holds no record and is not torn. -/
theorem heading_facts {p : Piece dpid} (h : p.isHeading fl = true) :
    p.recorded? fl = none ∧ p.whole fl = true := by
  obtain ⟨head, hhead⟩ := Option.isSome_iff_exists.mp h
  obtain ⟨source, left, hleft⟩ := p
  cases source with
  | header head' =>
    refine ⟨rfl, ?_⟩
    by_contra hwhole
    simp [Piece.heading?, hwhole] at hhead
  | entry r => cases hhead

theorem records_eraseP (ps : List (Piece dpid)) :
    records fl (ps.eraseP (Piece.isHeading fl)) = records fl ps := by
  induction ps with
  | nil => rfl
  | cons p ps ih =>
    cases hhead : p.isHeading fl with
    | false =>
      rw [List.eraseP_cons_of_neg (by simp [hhead])]
      simp only [records, List.filterMap_cons] at ih ⊢
      rw [ih]
    | true =>
      rw [List.eraseP_cons_of_pos hhead]
      simp [records, (heading_facts hhead).1]

theorem torn_eraseP (ps : List (Piece dpid)) :
    torn fl (ps.eraseP (Piece.isHeading fl)) = torn fl ps := by
  induction ps with
  | nil => rfl
  | cons p ps ih =>
    cases hhead : p.isHeading fl with
    | false =>
      rw [List.eraseP_cons_of_neg (by simp [hhead])]
      simp only [torn, List.countP_cons] at ih ⊢
      rw [ih]
    | true =>
      rw [List.eraseP_cons_of_pos hhead]
      simp [torn, (heading_facts hhead).2]

theorem Agrees.reheader {ps : List (Piece dpid)} {ledger : List (Item dpid)} {n : ℕ}
    (h : Agrees fl ps ledger n) (head : Heading dpid) :
    Agrees fl
      (cut (.header head) ((head.object.line fl).length + 1) ++ ps.eraseP (Piece.isHeading fl))
      (ledger ++ [Item.header head]) n where
  headings_eq := by
    -- the file had one header at most
    have hold : (headings fl ps).tail = [] := by
      rw [h.headings_eq]
      cases held fl ledger <;> rfl
    rw [headings_append, headings_cut, headings_eraseP, hold]
    simp [held, lastHeading, Item.heading]
  records_eq := by
    rw [records_append, records_cut, records_eraseP, h.records_eq]
    simp [completed, Item.recorded]
  torn_le := by
    rw [torn_append, torn_cut, torn_eraseP, if_neg, Nat.zero_add]
    · exact h.torn_le
    · exact fun hcut => absurd hcut.2 (by simp [Source.object])

/-! ### Whole runs -/

/-- The file and the ledger after some events, with the last append apart: a crash can still cut it
shorter. -/
inductive Holds (fl : Floats F) (d : Disk dpid) (n : ℕ) : Prop
  /-- There is no append that a crash could cut. -/
  | settled (ps : List (Piece dpid)) (hlast : d.last = []) (hlaid : LaidOut fl ps d.before)
      (hagree : Agrees fl ps d.ledger n) (hitem : ∀ a, d.ledger.getLast? ≠ some (.append a))
  | appended (ps : List (Piece dpid)) (ledger : List (Item dpid)) (a : Append dpid) (k : ℕ)
      (hledger : d.ledger = ledger ++ [.append a]) (hlaid : LaidOut fl ps d.before)
      (hagree : Agrees fl ps ledger k) (hfits : a.Fits d.before)
      (hlast : d.last = (a.bytes fl).take a.left)
      (hcrashes : k + (if a.left < (a.bytes fl).length then 1 else 0) ≤ n)

theorem Agrees.mono {ps : List (Piece dpid)} {ledger : List (Item dpid)} {n m : ℕ}
    (h : Agrees fl ps ledger n) (hle : n ≤ m) : Agrees fl ps ledger m :=
  ⟨h.headings_eq, h.records_eq, h.torn_le.trans hle⟩

include fr in
/-- The file as a whole agrees with the ledger. -/
theorem Holds.exists_pieces {d : Disk dpid} {n : ℕ} (h : Holds fl d n) :
    ∃ ps, LaidOut fl ps d.file ∧ Agrees fl ps d.ledger n := by
  cases h with
  | settled ps hlast hlaid hagree hitem =>
    refine ⟨ps, ?_, hagree⟩
    rw [Disk.file, hlast, List.append_nil]
    exact hlaid
  | appended ps ledger a k hledger hlaid hagree hfits hlast hcrashes =>
    refine ⟨ps ++ a.pieces fl, ?_, ?_⟩
    · rw [Disk.file, hlast]
      exact laidOut_pieces fr hlaid hfits
    · rw [hledger]
      refine (hagree.append fun hheader => ?_).mono hcrashes
      rw [hfits.header_iff.mp hheader] at hlaid
      exact hlaid.eq_nil

/-- What `record` appends is an append to the file. -/
theorem fits_of_append? {file : List Char} {given : Dict String (Json F)} {w : Write F}
    {a : Append dpid} (h : append? dpid file given w = some a) (left : ℕ) :
    ({ a with left := left } : Append dpid).Fits file := by
  unfold append? at h
  cases hw : recorded? w with
  | none => simp [hw] at h
  | some entry =>
    simp only [hw] at h
    split at h
    · next hnil =>
      obtain ⟨head, -, rfl⟩ := Option.map_eq_some_iff.mp h
      exact ⟨⟨fun _ => hnil, fun _ => rfl⟩, ⟨nofun, fun hn => absurd (.inl hnil) hn⟩⟩
    · next hne =>
      cases h
      refine ⟨⟨nofun, fun hnil => absurd hnil hne⟩, ?_⟩
      simp [AtLineStart, hne]

theorem truncateLast_of_not_append (k : ℕ) {ledger : List (Item dpid)}
    (h : ∀ a, ledger.getLast? ≠ some (.append a)) : truncateLast k ledger = ledger := by
  unfold truncateLast
  cases hlast : ledger.getLast? with
  | none => exact (List.getLast?_eq_none_iff.mp hlast).symm
  | some item =>
    obtain ⟨rest, rfl⟩ := List.getLast?_eq_some_iff.mp hlast
    cases item with
    | append a => exact absurd hlast (h a)
    | header head => simp [Item.truncate]

theorem truncateLast_append (k : ℕ) (ledger : List (Item dpid)) (a : Append dpid) :
    truncateLast k (ledger ++ [Item.append a]) =
      ledger ++ [Item.append { a with left := min k a.left }] := by
  simp [truncateLast, Item.truncate]

/-- **One event keeps the file and the ledger in step.** -/
theorem Holds.step {d : Disk dpid} {n : ℕ} (h : Holds fl d n) (event : Event F) :
    Holds fl (Torn.step dpid fr d event) (n + crashes [event]) := by
  obtain ⟨ps, hlaid, hagree⟩ := h.exists_pieces fr
  cases event with
  | record given w =>
    show Holds fl (Torn.step dpid fr d (.record given w)) n
    cases happ : append? dpid d.file given w with
    | none =>
      simp only [Torn.step, happ]
      exact h
    | some a =>
      simp only [Torn.step, happ]
      refine .appended ps d.ledger { a with left := (a.bytes fl).length } n rfl hlaid hagree
        (fits_of_append? happ _) ?_ ?_
      · exact (List.take_length).symm
      · show n + (if (a.bytes fl).length < (a.bytes fl).length then 1 else 0) ≤ n
        rw [if_neg (Nat.lt_irrefl _)]
        exact Nat.le_refl n
  | truncate k =>
    show Holds fl (Torn.step dpid fr d (.truncate k)) (n + 1)
    cases h with
    | settled ps hlast hlaid hagree hitem =>
      have hledger := truncateLast_of_not_append k hitem
      refine .settled ps ?_ hlaid ?_ ?_
      · show d.last.take k = []
        rw [hlast, List.take_nil]
      · show Agrees fl ps (truncateLast k d.ledger) (n + 1)
        rw [hledger]
        exact hagree.mono (Nat.le_succ n)
      · show ∀ a, (truncateLast k d.ledger).getLast? ≠ some (.append a)
        rw [hledger]
        exact hitem
    | appended ps ledger a j hledger hlaid hagree hfits hlast hcrashes =>
      refine .appended ps ledger { a with left := min k a.left } j ?_ hlaid hagree
        ⟨hfits.header_iff, hfits.repair_iff⟩ ?_ ?_
      · show truncateLast k d.ledger = _
        rw [hledger, truncateLast_append]
      · show d.last.take k = _
        rw [hlast, List.take_take]
        rfl
      · have hj : j ≤ n := (Nat.le_add_right j _).trans hcrashes
        split <;> omega
  | reheader given =>
    show Holds fl (Torn.step dpid fr d (.reheader given)) n
    cases hhead : Torn.heading? dpid given with
    | none =>
      simp only [Torn.step, hhead]
      exact h
    | some head =>
      simp only [Torn.step, hhead]
      refine .settled _ rfl (laidOut_reheader fr hlaid head) (hagree.reheader head) ?_
      intro a ha
      simp at ha

theorem crashes_append (events events' : List (Event F)) :
    crashes (events ++ events') = crashes events + crashes events' :=
  List.countP_append

/-- A run keeps the file and the ledger in step. -/
theorem holds_run (dpid : Json F) (events : List (Event F)) :
    Holds fl (run dpid fr events) (crashes events) := by
  induction events using List.reverseRecOn with
  | nil => exact .settled [] rfl .nil ⟨rfl, rfl, Nat.zero_le _⟩ nofun
  | append_singleton events event ih =>
    rw [run, List.foldl_append, crashes_append]
    exact Holds.step fr ih event

/-! ### The ledger -/

/-- The write an append was made for. -/
def Item.write? : Item dpid → Option (Write F)
  | .append a => some a.entry.write
  | .header _ => none

/-- The write a `record` call is given. -/
def Event.write? : Event F → Option (Write F)
  | .record _ w => some w
  | _ => none

/-- Whether `json.dumps` takes what an event is given. -/
def Event.Taken (dpid : Json F) : Event F → Prop
  | .record given w => Readable (.obj (headerObject dpid given)) ∧ Readable (.obj w.entry)
  | .truncate _ => True
  | .reheader given => Readable (.obj (headerObject dpid given))

theorem write?_truncateLast (k : ℕ) (ledger : List (Item dpid)) :
    (truncateLast k ledger).filterMap Item.write? = ledger.filterMap Item.write? := by
  unfold truncateLast
  cases hlast : ledger.getLast? with
  | none => rw [List.getLast?_eq_none_iff.mp hlast]
  | some item =>
    obtain ⟨rest, rfl⟩ := List.getLast?_eq_some_iff.mp hlast
    cases item <;> simp [Item.truncate, Item.write?, List.filterMap_append]

theorem write?_append? (file : List Char) {given : Dict String (Json F)} {w : Write F}
    (h : (Event.record given w).Taken dpid) :
    ∃ a, append? dpid file given w = some a ∧ a.entry.write = w := by
  obtain ⟨hhead, hentry⟩ := h
  have hw : recorded? w = some ⟨w, hentry⟩ := dif_pos hentry
  have hh : Torn.heading? dpid given = some ⟨given, hhead⟩ := dif_pos hhead
  simp only [append?, hw, hh]
  split
  · exact ⟨_, rfl, rfl⟩
  · exact ⟨_, rfl, rfl⟩

/-- The ledger holds every write that was recorded, in order. -/
theorem write?_ledger_run {events : List (Event F)} (h : ∀ event ∈ events, event.Taken dpid) :
    (run dpid fr events).ledger.filterMap Item.write? = events.filterMap Event.write? := by
  induction events using List.reverseRecOn with
  | nil => rfl
  | append_singleton events event ih =>
    have ih := ih fun e he => h e (List.mem_append_left _ he)
    have htaken := h event (by simp)
    rw [List.filterMap_append, ← ih, run, List.foldl_append, ← run]
    cases event with
    | record given w =>
      obtain ⟨a, happ, hwrite⟩ := write?_append? (run dpid fr events).file htaken
      simp [Torn.step, happ, Item.write?, Event.write?, hwrite]
    | truncate k =>
      simp only [Torn.step, List.foldl_cons, List.foldl_nil, write?_truncateLast]
      simp [Event.write?]
    | reheader given =>
      have hh : Torn.heading? dpid given = some ⟨given, htaken⟩ := dif_pos htaken
      simp only [Torn.step, hh, List.foldl_cons, List.foldl_nil, List.filterMap_append]
      rfl

/-- **A torn journal loses at most the torn line.**  After any run of appends, crashes and new
headers, what is read are the records whose lines are all on the disk, newline apart, in the order
they were recorded; no more lines are unreadable than there were crashes; and the header is the one
the last header writer gave, unless a crash cut its line. -/
theorem read_run (events : List (Event F)) :
    (read fr (run dpid fr events).file).records =
      (completed fl (run dpid fr events).ledger).map (fun r => r.object.asRead) ∧
    (read fr (run dpid fr events).file).unreadable ≤ crashes events ∧
    (read fr (run dpid fr events).file).header =
      (held fl (run dpid fr events).ledger).map fun head => head.object.asRead := by
  obtain ⟨ps, hlaid, hagree⟩ := (holds_run fr dpid events).exists_pieces fr
  rw [read_of_laidOut fr hlaid, hagree.headings_eq, hagree.records_eq]
  refine ⟨rfl, hagree.torn_le, ?_⟩
  cases held fl (run dpid fr events).ledger <;> rfl

/-- A crash that cuts the header's own line leaves the journal with none. -/
theorem read_run_header_not_last_given :
    ¬ ∀ events : List (Event Unit),
      (read zeroReader (run .null zeroReader events).file).header =
        (lastHeading zeroFloats (run (.null : Json Unit) zeroReader events).ledger).map
          fun p => p.1.object.asRead := by
  intro h
  have hcut := congrArg Option.isSome
    (h [.record .empty ⟨(), .insert, .null, "k", .ok⟩, .truncate 5])
  revert hcut
  decide +kernel

end Pieces

end Torn
end Journal
end NDTwin
