import Mathlib.Data.List.ReduceOption
import NDTwin.Lib.JsonLine
import NDTwin.Routing.RuleJournal

/-!
# The file of the routing journal

`RuleJournal` appends one line for every rule a switch accepted and one for every pipeline push, and
reads the file back in two loops that were written one after the other: `scan`, which keeps the place
of an unreadable line, and `entries`, which counts them.  This module follows both down to the bytes.

A crash cuts an append off.  The next append goes on where the file ends, so a line that was left
without its newline swallows the line after it.

`json.loads` raises a `ValueError` for a text that is no JSON, which both loops catch, and a
`RecursionError` for one that is nested too deep for the interpreter, which neither does; how deep is
too deep is a parameter.  So is how many lines a file that is not UTF-8 hands out before it raises,
which depends on the size of a buffer.

## Main definitions

* `scan`, `entries` — `RuleJournal`'s two readers.
* `RuleObject`, `Call` — what a line is written from, and the calls that write it.
* `step`, `run` — appends that a crash may cut off.

## Main results

* `scan_run` — **a torn journal loses at most the torn line**, as long as no append meets a line that
  is not finished.
* `readers_agree_iff` — **the two readers agree exactly on UTF-8** that is not nested too deep.
-/

namespace NDTwin
namespace Routing
namespace RuleFile

open Json LineFile

variable {F : Type*}

/-! ### Reading -/

/-- What `str.strip` takes for blanks. -/
def isSpace (c : Char) : Bool :=
  let n := c.toNat
  (9 ≤ n && n ≤ 13) || (28 ≤ n && n ≤ 32) || n = 133 || n = 160 || n = 5760 ||
    (8192 ≤ n && n ≤ 8202) || n = 8232 || n = 8233 || n = 8239 || n = 8287 || n = 12288

/-- What the readers may raise. -/
inductive Raised where
  /-- Out of the file, where its bytes are not UTF-8. -/
  | unicodeDecodeError
  /-- Out of `json.loads`. -/
  | recursionError
  deriving DecidableEq, Repr

/-- An object of the file: its members. -/
abbrev Object (F : Type*) := List (String × Json F)

/-- What one turn of the loops makes of a line: nothing of a blank one, an object, or `none` of one
that is no object. -/
def readLine {fl : Floats F} (fr : FloatReader fl) (tooDeep : List Char → Bool) (raw : List Char) :
    Except Raised (Option (Option (Object F))) :=
  let line := LineFile.strip isSpace raw
  if line = [] then .ok none
  else if tooDeep line then .error .recursionError
  else .ok (some (match loads fr line with
    | some (.obj fields) => some fields
    | _ => none))

/-- The lines a file opened as text hands out, and whether it raises after them. -/
def textLines (handed : List UInt8 → ℕ) (bytes : List UInt8) : List (List Char) × Bool :=
  let text := decodeUtf8 bytes
  let lines := fileLines (translateNewlines text.1)
  if text.2 then (lines.take (handed bytes), true) else (lines, false)

section Readers

variable {fl : Floats F} (fr : FloatReader fl) (tooDeep : List Char → Bool)
  (handed : List UInt8 → ℕ)

/-- The loop of `scan`. -/
def scanLines (out : List (Option (Object F))) : List (List Char) →
    Except Raised (List (Option (Object F)))
  | [] => .ok out
  | raw :: rest =>
    match readLine fr tooDeep raw with
    | .error e => .error e
    | .ok none => scanLines out rest
    | .ok (some item) => scanLines (out ++ [item]) rest

/-- `RuleJournal.scan`: bytes that are not UTF-8 are one more unreadable line. -/
def scan (bytes : List UInt8) : Except Raised (List (Option (Object F))) :=
  match scanLines fr tooDeep [] (textLines handed bytes).1 with
  | .error e => .error e
  | .ok out => .ok (if (textLines handed bytes).2 then out ++ [none] else out)

/-- The loop of `entries`. -/
def entriesLines (out : List (Object F)) (unreadable : ℕ) : List (List Char) →
    Except Raised (List (Object F) × ℕ)
  | [] => .ok (out, unreadable)
  | raw :: rest =>
    match readLine fr tooDeep raw with
    | .error e => .error e
    | .ok none => entriesLines out unreadable rest
    | .ok (some (some fields)) => entriesLines (out ++ [fields]) unreadable rest
    | .ok (some none) => entriesLines out (unreadable + 1) rest

/-- `RuleJournal.entries`, and the count it leaves for `unreadable_lines`.  It catches `OSError`,
which a `UnicodeDecodeError` is not. -/
def entries (bytes : List UInt8) : Except Raised (List (Object F) × ℕ) :=
  match entriesLines fr tooDeep [] 0 (textLines handed bytes).1 with
  | .error e => .error e
  | .ok r => if (textLines handed bytes).2 then .error .unicodeDecodeError else .ok r

/-- The two readers agree: `entries` returns, and what it returns is what `scan` does, the unreadable
lines counted. -/
def ReadersAgree (bytes : List UInt8) : Prop :=
  ∃ out n items, entries fr tooDeep handed bytes = .ok (out, n) ∧
    scan fr tooDeep handed bytes = .ok items ∧ out = items.reduceOption ∧
    n = items.countP Option.isNone

/-- The lines of a text are none of them nested too deep. -/
def Shallow (text : List Char) : Prop :=
  ∀ raw ∈ fileLines (translateNewlines text),
    LineFile.strip isSpace raw ≠ [] → tooDeep (LineFile.strip isSpace raw) = false

/-! ### The two readers -/

/-- What the loops find in lines that are not nested too deep. -/
def items (lines : List (List Char)) : List (Option (Object F)) :=
  lines.filterMap (readObject fr isSpace)

theorem readLine_of_shallow {raw : List Char}
    (h : LineFile.strip isSpace raw ≠ [] → tooDeep (LineFile.strip isSpace raw) = false) :
    readLine fr tooDeep raw = .ok (readObject fr isSpace raw) := by
  unfold readLine readObject
  by_cases hblank : LineFile.strip isSpace raw = []
  · simp only [hblank, if_true]
  · simp only [if_neg hblank, h hblank, Bool.false_eq_true, if_false]
    cases loads fr (LineFile.strip isSpace raw) with
    | none => rfl
    | some v => cases v <;> rfl

theorem readLine_eq_error_iff {raw : List Char} {e : Raised} :
    readLine fr tooDeep raw = .error e ↔
      e = .recursionError ∧ LineFile.strip isSpace raw ≠ [] ∧ tooDeep (LineFile.strip isSpace raw) = true := by
  unfold readLine
  by_cases hblank : LineFile.strip isSpace raw = []
  · simp [hblank]
  · cases hdeep : tooDeep (LineFile.strip isSpace raw) with
    | true => simp [hblank, hdeep, eq_comm]
    | false => simp [hblank, hdeep]

theorem scanLines_of_shallow {lines : List (List Char)}
    (h : ∀ raw ∈ lines, LineFile.strip isSpace raw ≠ [] → tooDeep (LineFile.strip isSpace raw) = false)
    (out : List (Option (Object F))) :
    scanLines fr tooDeep out lines = .ok (out ++ items fr lines) := by
  induction lines generalizing out with
  | nil => simp [scanLines, items]
  | cons raw rest ih =>
    have ih := ih fun r hr => h r (List.mem_cons_of_mem raw hr)
    rw [scanLines, readLine_of_shallow fr tooDeep (h raw List.mem_cons_self)]
    cases hread : readObject fr isSpace raw with
    | none => simp only [ih, items, List.filterMap_cons, hread]
    | some item =>
      simp only [ih, items, List.filterMap_cons, hread, List.append_assoc, List.singleton_append]

theorem entriesLines_of_shallow {lines : List (List Char)}
    (h : ∀ raw ∈ lines, LineFile.strip isSpace raw ≠ [] → tooDeep (LineFile.strip isSpace raw) = false)
    (out : List (Object F)) (n : ℕ) :
    entriesLines fr tooDeep out n lines = .ok (out ++ (items fr lines).reduceOption,
      n + (items fr lines).countP Option.isNone) := by
  induction lines generalizing out n with
  | nil => simp [entriesLines, items, List.reduceOption_nil]
  | cons raw rest ih =>
    have ih := ih fun r hr => h r (List.mem_cons_of_mem raw hr)
    rw [entriesLines, readLine_of_shallow fr tooDeep (h raw List.mem_cons_self)]
    cases hread : readObject fr isSpace raw with
    | none => simp only [ih, items, List.filterMap_cons, hread]
    | some item =>
      cases item with
      | none =>
        simp only [ih, items, List.filterMap_cons, hread, List.reduceOption_cons_of_none,
          List.countP_cons, Option.isNone_none, if_true]
        rw [Nat.add_assoc, Nat.add_comm 1]
      | some fields =>
        simp only [ih, items, List.filterMap_cons, hread, List.reduceOption_cons_of_some,
          List.countP_cons, Option.isNone_some, Bool.false_eq_true, if_false, Nat.add_zero,
          List.append_assoc, List.singleton_append]

/-- A line that is nested too deep is raised out of `entries`. -/
theorem entriesLines_of_deep {lines : List (List Char)} {raw : List Char} (hmem : raw ∈ lines)
    (hblank : LineFile.strip isSpace raw ≠ []) (hdeep : tooDeep (LineFile.strip isSpace raw) = true)
    (out : List (Object F)) (n : ℕ) :
    entriesLines fr tooDeep out n lines = .error .recursionError := by
  have hraw := (readLine_eq_error_iff fr tooDeep (e := .recursionError)).mpr ⟨rfl, hblank, hdeep⟩
  induction lines generalizing out n with
  | nil => cases hmem
  | cons first rest ih =>
    rw [entriesLines]
    cases hfirst : readLine fr tooDeep first with
    | error e =>
      obtain ⟨rfl, -⟩ := (readLine_eq_error_iff fr tooDeep).mp hfirst
      rfl
    | ok item =>
      have hrest : raw ∈ rest := by
        rcases List.mem_cons.mp hmem with rfl | hmem
        · rw [hraw] at hfirst
          cases hfirst
        · exact hmem
      rcases item with _ | _ | fields
      · exact ih hrest out n
      · exact ih hrest out (n + 1)
      · exact ih hrest (out ++ [fields]) n

theorem scan_of_text {bytes : List UInt8} {text : List Char} (htext : decodeUtf8 bytes = (text, false))
    (h : Shallow tooDeep text) :
    scan fr tooDeep handed bytes = .ok (items fr (fileLines (translateNewlines text))) := by
  have hlines : textLines handed bytes = (fileLines (translateNewlines text), false) := by
    simp [textLines, htext]
  rw [scan, hlines]
  simp only [scanLines_of_shallow fr tooDeep h, List.nil_append, Bool.false_eq_true, if_false]

theorem entries_of_text {bytes : List UInt8} {text : List Char}
    (htext : decodeUtf8 bytes = (text, false)) (h : Shallow tooDeep text) :
    entries fr tooDeep handed bytes =
      .ok ((items fr (fileLines (translateNewlines text))).reduceOption,
        (items fr (fileLines (translateNewlines text))).countP Option.isNone) := by
  have hlines : textLines handed bytes = (fileLines (translateNewlines text), false) := by
    simp [textLines, htext]
  rw [entries, hlines]
  simp only [entriesLines_of_shallow fr tooDeep h, List.nil_append, Nat.zero_add,
    Bool.false_eq_true, if_false]

/-- **The two readers agree exactly on UTF-8** that is not nested too deep. -/
theorem readers_agree_iff (bytes : List UInt8) :
    ReadersAgree fr tooDeep handed bytes ↔
      (decodeUtf8 bytes).2 = false ∧ Shallow tooDeep (decodeUtf8 bytes).1 := by
  constructor
  · rintro ⟨out, n, items, hentries, -⟩
    rw [entries] at hentries
    cases hbad : (decodeUtf8 bytes).2 with
    | true =>
      -- nothing catches what the file raises
      have hraised : (textLines handed bytes).2 = true := by simp [textLines, hbad]
      rw [hraised] at hentries
      split at hentries <;> cases hentries
    | false =>
      refine ⟨rfl, ?_⟩
      intro raw hraw hblank
      have hlines : textLines handed bytes =
          (fileLines (translateNewlines (decodeUtf8 bytes).1), false) := by
        simp [textLines, hbad]
      by_contra hdeep
      rw [hlines, entriesLines_of_deep fr tooDeep hraw hblank (by simpa using hdeep)] at hentries
      cases hentries
  · rintro ⟨hgood, hshallow⟩
    have htext : decodeUtf8 bytes = ((decodeUtf8 bytes).1, false) := by rw [← hgood]
    exact ⟨_, _, _, entries_of_text fr tooDeep handed htext hshallow,
      scan_of_text fr tooDeep handed htext hshallow, rfl, rfl⟩

end Readers

/-- A byte that is not UTF-8 is raised out of `entries`, where `scan` counts it. -/
theorem not_readersAgree_of_stray_byte :
    ¬ ∀ bytes : List UInt8, ReadersAgree zeroReader (fun _ => false) (fun _ => 0) bytes := by
  intro h
  obtain ⟨out, n, items, hentries, -⟩ := h [255]
  cases hentries

/-! ### Appends that a crash may cut off -/

/-- What a line is written from. -/
inductive RuleObject (F : Type*) where
  /-- An accepted write. -/
  | record (t : F) (op : RuleOp) (dpid matchFields actions priority cookie rule : Json F)
  /-- The marker of a pipeline push. -/
  | wiped (t : F) (dpid cookie cause : Json F)

/-- The text of a verb. -/
def opName : RuleOp → String
  | .install => "install"
  | .modify => "modify"
  | .delete => "delete"

/-- The members of a line's object. -/
def RuleObject.fields : RuleObject F → Object F
  | .record t op dpid matchFields actions priority cookie rule =>
    [("t", .float t), ("op", .str (opName op)), ("dpid", dpid), ("match", matchFields),
      ("actions", actions), ("priority", priority), ("cookie", cookie), ("rule", rule)]
  | .wiped t dpid cookie cause =>
    [("t", .float t), ("op", .str "wiped"), ("dpid", dpid), ("cookie", cookie), ("cause", cause)]

/-- A call of `record` or `wiped`, and the number of bytes a crash leaves of its append. -/
inductive Call (F : Type*) where
  | record (t : F) (op : RuleOp) (dpid matchFields actions priority cookie rule : Json F)
      (cut : Option ℕ)
  /-- `wiped`, which appends its marker only with `mark`. -/
  | wiped (t : F) (dpid cookie cause : Json F) (mark : Bool) (cut : Option ℕ)

/-- What a call appends, if `json.dumps` takes it, and what a crash leaves of it. -/
def Call.append? : Call F → Option (Written F × Option ℕ)
  | .record t op dpid matchFields actions priority cookie rule cut =>
    (written? (RuleObject.record t op dpid matchFields actions priority cookie rule).fields).map
      fun o => (o, cut)
  | .wiped t dpid cookie cause mark cut =>
    if mark then (written? (RuleObject.wiped t dpid cookie cause).fields).map fun o => (o, cut)
    else none

section Appends

variable (fl : Floats F)

/-- How many bytes of a line there are after its append. -/
def bytesLeft (o : Written F) (cut : Option ℕ) : ℕ := cut.getD ((o.line fl).length + 1)

/-- The file after a call: the line goes on where the file ends. -/
def step (file : List Char) (call : Call F) : List Char :=
  match call.append? with
  | none => file
  | some (o, cut) => file ++ (o.line fl ++ ['\n']).take (bytesLeft fl o cut)

/-- The file after a run. -/
def run (calls : List (Call F)) : List Char := calls.foldl (step fl) []

/-- The append a call completed. -/
def Call.completed? (call : Call F) : Option (Written F) :=
  match call.append? with
  | none => none
  | some (o, cut) => if (o.line fl).length + 1 ≤ bytesLeft fl o cut then some o else none

/-- Whether a crash cut a call's append off. -/
def Call.isCut (call : Call F) : Bool :=
  match call.append? with
  | none => false
  | some (o, cut) => bytesLeft fl o cut < (o.line fl).length + 1

/-- Every append of a run begins a line: it meets a file that is empty or ends with a newline. -/
def BeginsLines (calls : List (Call F)) : Prop :=
  ∀ before call after, calls = before ++ call :: after → call.append?.isSome = true →
    AtLineStart (run fl before)

/-- What `scan` makes of what a call left in the file. -/
def Call.item? (call : Call F) : Option (Option (Object F)) :=
  match call.append? with
  | none => none
  | some (o, cut) =>
    if bytesLeft fl o cut = 0 then none
    else some (if (o.line fl).length ≤ bytesLeft fl o cut then some o.asRead else none)

/-- The lines a call left in the file. -/
def Call.lines (call : Call F) : List (List Char) :=
  match call.append? with
  | none => []
  | some (o, cut) => cutLine (bytesLeft fl o cut) (o.line fl)

end Appends

section Runs

variable {fl : Floats F} (fr : FloatReader fl)

include fr in
/-- A file that was always appended to at the beginning of a line consists of what each call left. -/
theorem laid_run {calls : List (Call F)} (h : BeginsLines fl calls) :
    Laid (calls.flatMap (Call.lines fl)) (run fl calls) := by
  induction calls using List.reverseRecOn with
  | nil => exact .nil
  | append_singleton calls call ih =>
    have ih := ih fun before c after heq => h before c (after ++ [call]) (by simp [heq])
    rw [run, List.foldl_append, ← run, List.flatMap_append, List.flatMap_singleton]
    simp only [List.foldl_cons, List.foldl_nil, step, Call.lines]
    cases happ : call.append? with
    | none => simpa using ih
    | some p =>
      have hstart := h calls call [] rfl (by rw [happ]; rfl)
      exact ih.append hstart (laid_take (p.1.line_ne_nil fl) (p.1.notMem_line fr (by decide)) _)

include fr in
/-- Every character of the file is one byte. -/
theorem ascii_run (calls : List (Call F)) : ∀ c ∈ run fl calls, Printable c ∨ c = '\n' := by
  induction calls using List.reverseRecOn with
  | nil => exact nofun
  | append_singleton calls call ih =>
    rw [run, List.foldl_append, ← run]
    simp only [List.foldl_cons, List.foldl_nil, step]
    cases happ : call.append? with
    | none => exact ih
    | some p =>
      intro c hc
      rcases List.mem_append.mp hc with hc | hc
      · exact ih c hc
      · rcases List.mem_append.mp (List.mem_of_mem_take hc) with hc | hc
        · exact .inl (p.1.printable_line fr c hc)
        · exact .inr (List.mem_singleton.mp hc)

theorem readObject_lines (call : Call F) :
    (call.lines fl).filterMap (readObject fr isSpace) = (call.item? fl).toList := by
  unfold Call.lines Call.item?
  cases call.append? with
  | none => rfl
  | some p =>
    simp only [cutLine]
    split
    · rfl
    · next hn =>
      have hread := p.1.readObject_take fr (show isSpace '{' = false by decide) (by decide) hn
      simp only [List.filterMap_cons, hread, List.filterMap_nil, Option.toList_some]

/-- What `scan` returns after a run. -/
theorem scan_run_eq {calls : List (Call F)} (h : BeginsLines fl calls) (handed : List UInt8 → ℕ) :
    scan fr (fun _ => false) handed (asciiBytes (run fl calls)) =
      .ok (calls.filterMap (Call.item? fl)) := by
  have hascii : ∀ c ∈ run fl calls, c.toNat < 128 := by
    intro c hc
    rcases ascii_run fr calls c hc with hc | rfl
    · exact hc.2.trans (by decide)
    · decide
  have hreturn : '\r' ∉ run fl calls := by
    intro hmem
    rcases ascii_run fr calls _ hmem with hc | hc
    · exact absurd hc (by decide)
    · exact absurd hc (by decide)
  rw [scan_of_text fr _ handed (decodeUtf8_asciiBytes hascii) fun _ _ _ => rfl,
    translateNewlines_eq_self hreturn]
  have hmap := (laid_run fr h).map_fileLines (readObject_newline fr (show isSpace '\n' = true by decide))
  have hitems : ∀ lines : List (List Char), items fr lines =
      (lines.map (readObject fr isSpace)).reduceOption := by
    intro lines
    rw [items, List.reduceOption, List.filterMap_map]
    rfl
  rw [hitems, hmap, ← hitems, items, List.filterMap_flatMap]
  simp only [readObject_lines]
  rw [List.filterMap_eq_flatMap_toList]

theorem completed?_sublist (call : Call F) :
    List.Sublist ((call.completed? fl).map fun o => some o.asRead).toList (call.item? fl).toList := by
  unfold Call.completed? Call.item?
  cases call.append? with
  | none => exact .slnil
  | some p =>
    by_cases hwhole : (p.1.line fl).length + 1 ≤ bytesLeft fl p.1 p.2
    · have hne : bytesLeft fl p.1 p.2 ≠ 0 := by omega
      have hle : (p.1.line fl).length ≤ bytesLeft fl p.1 p.2 := by omega
      simp only [if_pos hwhole, if_neg hne, if_pos hle, Option.map_some]
      exact List.Sublist.refl _
    · simp only [if_neg hwhole, Option.map_none]
      exact List.nil_sublist _

theorem countP_item?_le (call : Call F) :
    (call.item? fl).toList.countP Option.isNone ≤ if call.isCut fl then 1 else 0 := by
  unfold Call.item? Call.isCut
  cases call.append? with
  | none => exact Nat.le_refl 0
  | some p =>
    by_cases hle : (p.1.line fl).length ≤ bytesLeft fl p.1 p.2
    · simp only [if_pos hle]
      split <;> simp
    · have hcut : bytesLeft fl p.1 p.2 < (p.1.line fl).length + 1 := by omega
      simp only [if_neg hle, hcut, decide_true, if_true]
      split <;> simp

/-- **A torn journal loses at most the torn line**, as long as no append meets a line that is not
finished: `scan` returns every record and marker whose append completed, in order, and no more lines
are unreadable than appends were cut off. -/
theorem scan_run {calls : List (Call F)} (h : BeginsLines fl calls) (handed : List UInt8 → ℕ) :
    ∃ items, scan fr (fun _ => false) handed (asciiBytes (run fl calls)) = .ok items ∧
      List.Sublist ((calls.filterMap (Call.completed? fl)).map fun o => some o.asRead) items ∧
      items.countP Option.isNone ≤ calls.countP (Call.isCut fl) := by
  refine ⟨_, scan_run_eq fr h handed, ?_, ?_⟩
  · rw [List.map_filterMap, List.filterMap_eq_flatMap_toList, List.filterMap_eq_flatMap_toList]
    clear h
    induction calls with
    | nil => exact .slnil
    | cons call calls ih =>
      rw [List.flatMap_cons, List.flatMap_cons]
      exact (completed?_sublist call).append ih
  · rw [List.filterMap_eq_flatMap_toList]
    clear h
    induction calls with
    | nil => exact Nat.le_refl 0
    | cons call calls ih =>
      rw [List.flatMap_cons, List.countP_append, List.countP_cons, Nat.add_comm]
      exact Nat.add_le_add ih (countP_item?_le call)

/-- A call with its append cut off in the middle of the line. -/
def tornCall : Call Unit := .wiped () .null .null .null true (some 5)

/-- A call that nothing happens to. -/
def markerCall : Call Unit := .wiped () .null .null .null true none

/-- An append that was cut off last is one unreadable line. -/
theorem scan_run_torn_last :
    BeginsLines zeroFloats [markerCall, tornCall] ∧
      ∃ items, scan zeroReader (fun _ => false) (fun _ => 0)
          (asciiBytes (run zeroFloats [markerCall, tornCall])) = .ok items ∧
        List.Sublist (([markerCall, tornCall].filterMap (Call.completed? zeroFloats)).map
          fun o => some o.asRead) items ∧
        items.countP Option.isNone ≤ [markerCall, tornCall].countP (Call.isCut zeroFloats) := by
  have hbegins : BeginsLines zeroFloats [markerCall, tornCall] := by
    intro before call after heq _
    match before, heq with
    | [], _ => exact .inl rfl
    | [_], heq =>
      cases heq
      decide +kernel
    | _ :: _ :: _, heq => simp at heq
  exact ⟨hbegins, scan_run zeroReader hbegins _⟩

/-- The append after a torn line is glued to it, and both are lost. -/
theorem not_scan_run_after_torn :
    ¬ ∀ calls : List (Call Unit), ∃ items,
      scan zeroReader (fun _ => false) (fun _ => 0) (asciiBytes (run zeroFloats calls)) = .ok items ∧
        List.Sublist ((calls.filterMap (Call.completed? zeroFloats)).map fun o => some o.asRead)
          items ∧
        items.countP Option.isNone ≤ calls.countP (Call.isCut zeroFloats) := by
  intro h
  obtain ⟨items, hscan, hsub, -⟩ := h [tornCall, markerCall]
  have hlost : (scan zeroReader (fun _ => false) (fun _ => 0)
      (asciiBytes (run zeroFloats [tornCall, markerCall]))).toOption.map
        (fun items => items.countP Option.isSome) = some 0 := by decide +kernel
  have hcompleted : ([tornCall, markerCall].filterMap (Call.completed? zeroFloats)).length = 1 := by
    decide +kernel
  rw [hscan] at hlost
  have hnone : items.countP Option.isSome = 0 := Option.some.inj hlost
  have hcount := hsub.countP_le (p := Option.isSome)
  have hall : ∀ l : List (Written Unit),
      l.countP (Option.isSome ∘ fun o => some o.asRead) = l.length :=
    fun l => List.countP_eq_length.mpr fun _ _ => rfl
  rw [List.countP_map, hnone, hall, hcompleted] at hcount
  exact absurd hcount (by decide)

end Runs

end RuleFile
end Routing
end NDTwin
