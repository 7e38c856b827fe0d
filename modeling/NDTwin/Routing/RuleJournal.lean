import NDTwin.Journal.Fold
import NDTwin.Lib.Json

/-!
# The journal of the routing rules

`RuleJournal` keeps one line for every rule a switch accepted, of all switches in one
file.  A pipeline push discards a switch's rules; `wiped` then says which, and appends a
marker, so that the next push of the switch counts only what came after it.  It scans the
file for the switch's records since its last marker, keeps those written under one of the
generations the push wiped, and folds them entry by entry.

## Main definitions

* `RuleEntry`, `Scanned`, `RuleLine` — what the file holds, and what `scan` makes of it.
* `ruleIdentity` — the switch entry a record wrote, `_rule_identity`.
* `sinceLastWipe`, `discardedRules`, `wiped` — the loss report.
* `Call`, `fileAfter` — the journal after a history of calls.
* `since`, `lostRows` — what a report has to say of a history.

## Main results

* `sinceLastWipe_fileAfter` — the scan finds what the history has since the last `wiped`.
* `foldRecords_ruleRecord` — the fold of the records is a row for each identity.
* `wiped_reports` — **the loss report is exact**, over any history.
-/

namespace NDTwin
namespace Routing

open Journal Keyed

/-! ### The file -/

/-- A datapath id, which a caller may give as a number or as a text. -/
inductive Dpid where
  | int (n : ℤ)
  | text (s : String)
  deriving DecidableEq, Repr

/-- `str(dpid)`, by which switches are told apart. -/
def Dpid.str : Dpid → String
  | .int n => toString n
  | .text s => s

/-- The verbs of a rule record. -/
inductive RuleOp where
  | install
  | modify
  | delete
  deriving DecidableEq, Repr, Inhabited

/-- `_FOLD_OP`. -/
def foldOp : RuleOp → Op
  | .install => .insert
  | .modify => .modify
  | .delete => .delete

/-- One record of an accepted write.  The line's `t` is written and never read. -/
structure RuleEntry (F : Type*) where
  op : RuleOp
  dpid : Dpid
  matchFields : Json F
  actions : Json F
  priority : Json F
  /-- The generation the switch's tables were under, as a number. -/
  cookie : Option ℤ
  /-- What `_journal_rule` named. -/
  rule : Option (Json F)

/-- An object of the file. -/
inductive Scanned (F : Type*) where
  | rule (entry : RuleEntry F)
  /-- The marker `wiped` leaves.  Its `cookie` and `cause` are written and never read. -/
  | wiped (dpid : Dpid)
  /-- An object with another `op`. -/
  | other (dpid : Dpid)

/-- The switch an object names. -/
def Scanned.dpid {F : Type*} : Scanned F → Dpid
  | .rule entry => entry.dpid
  | .wiped dpid => dpid
  | .other dpid => dpid

/-- One line of the file. -/
inductive RuleLine (F : Type*) where
  | object (entry : Scanned F)
  | blank
  /-- A line that is no JSON, or JSON that is no object. -/
  | torn

section Journal

variable {F K : Type*}

/-- `RuleJournal.scan`: every line in order, `none` for one that could not be read. -/
def scan (file : List (RuleLine F)) : List (Option (Scanned F)) :=
  file.filterMap fun line =>
    match line with
    | .object entry => some (some entry)
    | .blank => none
    | .torn => some none

/-- `RuleJournal.record`, with a disk that takes the line. -/
def recordRule (file : List (RuleLine F)) (entry : RuleEntry F) : List (RuleLine F) :=
  file ++ [.object (.rule entry)]

/-- `_names_any_generation`: a record without a cookie names none. -/
def namesAnyGeneration (recorded : Option ℤ) (wiped : List (Option ℤ)) : Bool :=
  recorded.isSome && wiped.contains recorded

/-- One turn of `_since_last_wipe`'s loop. -/
def sinceStep (dpid : Dpid) (st : List (Scanned F) × ℕ) (line : Option (Scanned F)) :
    List (Scanned F) × ℕ :=
  match line with
  | none => (st.1, st.2 + 1)
  | some entry =>
    if entry.dpid.str ≠ dpid.str then st
    else match entry with
      | .wiped _ => ([], 0)
      | entry => (st.1 ++ [entry], st.2)

/-- `_since_last_wipe`: a switch's records after its last marker, and the unreadable lines
after that. -/
def sinceLastWipe (scanned : List (Option (Scanned F))) (dpid : Dpid) : List (Scanned F) × ℕ :=
  scanned.foldl (sinceStep dpid) ([], 0)

/-- What `key_digest` is given: a text, or a pair of a text and a priority. -/
inductive IdentityKey (F : Type*) where
  | rule (text : String)
  | request (text : String) (priority : Json F)

/-- A digest that keeps the text. -/
def textDigest : IdentityKey Empty → String
  | .rule text => text
  | .request text _ => text

/-- A record's match, an empty one when it is no object. -/
def RuleEntry.matchObj (entry : RuleEntry F) : Json F :=
  if entry.matchFields.isObj then entry.matchFields else .obj []

variable (fl : Floats F) (keyDigest : IdentityKey F → K)

/-- `_rule_identity`: the rule the manager recorded, or without one the request's match and
priority. -/
def ruleIdentity (entry : RuleEntry F) : K :=
  match entry.rule with
  | some rule => keyDigest (.rule (rule.dumps fl))
  | none => keyDigest (.request (entry.matchObj.dumps fl) entry.priority)

/-- What the fold keeps of a rule record. -/
structure RuleSpec (F : Type*) where
  matchFields : Json F
  actions : Json F
  priority : Json F

/-- The record the fold is given for a rule. -/
def ruleRecord (entry : RuleEntry F) : Record K (RuleSpec F) :=
  ⟨foldOp entry.op, ruleIdentity fl keyDigest entry,
    ⟨entry.matchObj, entry.actions, entry.priority⟩, .ok⟩

/-- One row of a loss report. -/
structure LostRule (F : Type*) where
  op : RuleOp
  spec : RuleSpec F

/-- The rule an object of the file records, if it was written under one of the wiped
generations. -/
def wipedRule (cookies : List (Option ℤ)) : Scanned F → Option (RuleEntry F)
  | .rule entry => if namesAnyGeneration entry.cookie cookies then some entry else none
  | _ => none

/-- The row of a net write, which a net delete does not get. -/
def lostRow (item : NetItem K (RuleSpec F)) : Option (LostRule F) :=
  match item.op with
  | .delete => none
  | .insert => some ⟨.install, item.spec⟩
  | .modify => some ⟨.modify, item.spec⟩

variable [DecidableEq K]

/-- `discarded_rules`.  A routing rule is never a table's default entry. -/
def discardedRules (entries : List (Option (Scanned F))) (dpid : Dpid)
    (cookies : List (Option ℤ)) : List (LostRule F) :=
  let records := ((sinceLastWipe entries dpid).1.filterMap (wipedRule cookies)).map
    (ruleRecord fl keyDigest)
  (foldRecords (fun _ => false) (records.map Line.record)).filterMap lostRow

/-- `RuleJournal.wiped`: what a push discarded, the unreadable lines since the last marker,
and the file with a new marker, when one is asked for. -/
def wiped (file : List (RuleLine F)) (dpid : Dpid) (cookies : List (Option ℤ)) (mark : Bool) :
    (List (LostRule F) × ℕ) × List (RuleLine F) :=
  let scanned := scan file
  ((discardedRules fl keyDigest scanned dpid cookies, (sinceLastWipe scanned dpid).2),
    if mark then file ++ [.object (.wiped dpid)] else file)

end Journal

/-! ### Histories -/

/-- A call of the journal. -/
inductive Call (F : Type*) where
  | record (entry : RuleEntry F)
  | wiped (dpid : Dpid) (cookies : List (Option ℤ))

section History

variable {F K : Type*} (fl : Floats F) (keyDigest : IdentityKey F → K) [DecidableEq K]

/-- The file after one call. -/
def callFile (file : List (RuleLine F)) : Call F → List (RuleLine F)
  | .record entry => recordRule file entry
  | .wiped dpid cookies => (wiped fl keyDigest file dpid cookies true).2

/-- The file after a history of calls. -/
def fileAfter (history : List (Call F)) : List (RuleLine F) :=
  history.foldl (callFile fl keyDigest) []

/-- Whether a call marks a switch as wiped. -/
def Call.wipes (dpid : Dpid) : Call F → Bool
  | .wiped d _ => d.str == dpid.str
  | .record _ => false

/-- The record of a switch that a call makes. -/
def Call.entryOf (dpid : Dpid) : Call F → Option (RuleEntry F)
  | .record entry => if entry.dpid.str = dpid.str then some entry else none
  | .wiped _ _ => none

/-- The records of a switch since it was last marked. -/
def since (dpid : Dpid) (history : List (Call F)) : List (RuleEntry F) :=
  (history.reverse.takeWhile fun call => !call.wipes dpid).reverse.filterMap (Call.entryOf dpid)

/-- The rows a report owes to a list of records: one for each identity whose last record is
no delete, in the order of the identities' first records, with the last record's match,
actions and priority. -/
def lostRows (entries : List (RuleEntry F)) : List (LostRule F) :=
  (firstSeen (ruleIdentity fl keyDigest) entries).filterMap fun k =>
    let own := ofKey (ruleIdentity fl keyDigest) k entries
    match own.head?, own.getLast? with
    | some first, some last =>
      if last.op = .delete then none
      else some ⟨if first.op = .install then .install else .modify,
        ⟨last.matchObj, last.actions, last.priority⟩⟩
    | _, _ => none

/-! ### The scan -/

/-- The object a call leaves in the file. -/
def Call.object : Call F → Scanned F
  | .record entry => .rule entry
  | .wiped dpid _ => .wiped dpid

theorem scan_append (file file' : List (RuleLine F)) :
    scan (file ++ file') = scan file ++ scan file' :=
  List.filterMap_append

theorem callFile_eq (file : List (RuleLine F)) (call : Call F) :
    callFile fl keyDigest file call = file ++ [RuleLine.object call.object] := by
  cases call <;> rfl

/-- Every call leaves one readable line. -/
theorem scan_fileAfter (history : List (Call F)) :
    scan (fileAfter fl keyDigest history) = history.map fun call => some call.object := by
  induction history using List.reverseRecOn with
  | nil => rfl
  | append_singleton history call ih =>
    have hfile : fileAfter fl keyDigest (history ++ [call])
        = fileAfter fl keyDigest history ++ [RuleLine.object call.object] := by
      rw [fileAfter, List.foldl_append, List.foldl_cons, List.foldl_nil, callFile_eq]
      rfl
    rw [hfile, scan_append, ih, List.map_append]
    rfl

omit fl keyDigest [DecidableEq K] in
theorem since_append_singleton (dpid : Dpid) (history : List (Call F)) (call : Call F) :
    since dpid (history ++ [call]) =
      if call.wipes dpid then [] else since dpid history ++ (call.entryOf dpid).toList := by
  unfold since
  rw [List.reverse_append, List.reverse_singleton, List.singleton_append]
  cases hw : call.wipes dpid with
  | true => rw [List.takeWhile_cons_of_neg (by simp [hw])]; rfl
  | false =>
    rw [List.takeWhile_cons_of_pos (by simp [hw]), List.reverse_cons, List.filterMap_append]
    cases he : call.entryOf dpid <;> simp [he]

/-- The scan finds what the history has since the switch was last marked, and nothing that
could not be read. -/
theorem sinceLastWipe_fileAfter (history : List (Call F)) (dpid : Dpid) :
    sinceLastWipe (scan (fileAfter fl keyDigest history)) dpid
      = ((since dpid history).map .rule, 0) := by
  rw [scan_fileAfter]
  induction history using List.reverseRecOn with
  | nil => rfl
  | append_singleton history call ih =>
    unfold sinceLastWipe at ih ⊢
    rw [List.map_append, List.foldl_append, ih, since_append_singleton]
    cases call with
    | record entry =>
      by_cases hd : entry.dpid.str = dpid.str
      · simp [sinceStep, Call.object, Call.wipes, Call.entryOf, Scanned.dpid, hd]
      · simp [sinceStep, Call.object, Call.wipes, Call.entryOf, Scanned.dpid, hd]
    | wiped d cookies =>
      by_cases hd : d.str = dpid.str
      · simp [sinceStep, Call.object, Call.wipes, Scanned.dpid, hd]
      · simp [sinceStep, Call.object, Call.wipes, Call.entryOf, Scanned.dpid, hd]

/-! ### The fold -/

omit [DecidableEq K] in
/-- The row of one identity's records. -/
theorem lostRow_netOf (k : K) (own : List (RuleEntry F)) :
    (netOf (fun _ => false) k (own.map (ruleRecord fl keyDigest))).bind lostRow =
      match own.head?, own.getLast? with
      | some first, some last =>
        if last.op = .delete then none
        else some ⟨if first.op = .install then .install else .modify,
          ⟨last.matchObj, last.actions, last.priority⟩⟩
      | _, _ => none := by
  rw [netOf, List.head?_map, List.getLast?_map]
  cases hf : own.head? with
  | none => rfl
  | some first =>
    cases hl : own.getLast? with
    | none => rfl
    | some last =>
      cases hfo : first.op <;> cases hlo : last.op <;>
        simp [netItem, ruleRecord, wasAbsent, foldOp, lostRow, hfo, hlo]

/-- The fold of a list of rule records is a row for each identity. -/
theorem foldRecords_ruleRecord (entries : List (RuleEntry F)) :
    (foldRecords (fun _ => false)
      ((entries.map (ruleRecord fl keyDigest)).map Line.record)).filterMap lostRow
        = lostRows fl keyDigest entries := by
  rw [foldRecords_eq, filterMap_record?_map_record, List.filterMap_filterMap, firstSeen_map]
  refine List.filterMap_congr ?_
  intro k _
  rw [ofKey_map]
  exact lostRow_netOf fl keyDigest k _

theorem namesAnyGeneration_iff {recorded : Option ℤ} {cookies : List (Option ℤ)} :
    namesAnyGeneration recorded cookies = true ↔ recorded ≠ none ∧ recorded ∈ cookies := by
  rw [namesAnyGeneration, Bool.and_eq_true, Option.isSome_iff_ne_none, List.contains_iff_mem]

/-- **The loss report is exact**: over any history of records and markers of any number of
switches, what `wiped` reports for a switch and a set of generations is a row for each
identity with a record of the switch since its last marker, under one of the generations,
whose last such record is no delete. -/
theorem wiped_reports (history : List (Call F)) (dpid : Dpid) (cookies : List (Option ℤ)) :
    (wiped fl keyDigest (fileAfter fl keyDigest history) dpid cookies true).1 =
      (lostRows fl keyDigest ((since dpid history).filter fun entry =>
        entry.cookie ≠ none ∧ entry.cookie ∈ cookies), 0) := by
  have hrules : ((since dpid history).map Scanned.rule).filterMap (wipedRule cookies)
      = (since dpid history).filter fun entry =>
        entry.cookie ≠ none ∧ entry.cookie ∈ cookies := by
    rw [List.filterMap_map, ← List.filterMap_eq_filter]
    refine List.filterMap_congr ?_
    intro entry _
    simp only [Function.comp_apply, wipedRule, namesAnyGeneration_iff, Option.guard,
      decide_eq_true_eq]
  unfold wiped discardedRules
  simp only [sinceLastWipe_fileAfter, hrules, foldRecords_ruleRecord]

/-- A record of a rule that sends a destination to a port. -/
def portRule (op : RuleOp) (dpid port cookie : ℤ) (dst : String) : RuleEntry Empty where
  op := op
  dpid := .int dpid
  matchFields := .obj [("ipv4_dst", .str dst)]
  actions := .arr [.int port]
  priority := .int 10
  cookie := some cookie
  rule := none

/-- A marker, then two writes of one rule, the write and the delete of another, a write under
another generation and one of another switch: the report has one row, with the last write. -/
theorem wiped_reports_rewritten :
    let history := [.record (portRule .install 1 9 7 "10.0.0.9"), .wiped (.int 1) [some 7],
      .record (portRule .install 1 1 7 "10.0.0.1"), .record (portRule .install 1 2 7 "10.0.0.2"),
      .record (portRule .modify 1 3 7 "10.0.0.1"), .record (portRule .delete 1 2 7 "10.0.0.2"),
      .record (portRule .install 1 4 8 "10.0.0.4"), .record (portRule .install 2 5 7 "10.0.0.5")]
    (wiped Floats.empty textDigest (fileAfter Floats.empty textDigest history) (.int 1) [some 7]
      true).1 = ([⟨.install, ⟨.obj [("ipv4_dst", .str "10.0.0.1")], .arr [.int 3], .int 10⟩⟩], 0) :=
  (wiped_reports Floats.empty textDigest _ (.int 1) [some 7]).trans rfl

end History

end Routing
end NDTwin
