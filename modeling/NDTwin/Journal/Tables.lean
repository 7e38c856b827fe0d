import NDTwin.Journal.Replay

/-!
# One switch's part of `TableJournals`

`write_and_journal` puts an entry on the switch and then records it: the switch
first, the journal second, and of the refused writes only a delete the switch
answered NOT_FOUND is recorded.  `settle` acts on step 0's verdict at the start of a
boot: a confirmed file gets a header that names the boot, any other is set aside.

Both run under the switch's lock; what that lock is good for is the subject of
`NDTwin.Journal.Exclusion`.

## Main definitions

* `SwitchJournal.record` — `TableJournals._record`, the append and its count.
* `Client`, `writeAndJournal` — `write_and_journal` once it holds the lock and a client.
* `Codec.client` — the client of a switch that `NDTwin.Journal.Switch` describes.
* `Verdict`, `settle` — step 0's verdict on a switch, and what is done with it.
* `noteSkipped` — a replay that did not run, and why.

## Main results

* `writeAndJournal_cases` — **what a write does** to the switch and to the file's
  records, with the reason it may.
* `read_settle` — the header and records a settled file is read back with.
-/

namespace NDTwin
namespace Journal

/-! ### The write -/

section Write

variable {K Q S E : Type*}

/-- `TableJournals._record`: append a record and count what came of it. -/
def SwitchJournal.record (journal : SwitchJournal K S) (diskOk : Bool) (headerNow : Header)
    (op : Op) (spec : S) (digest : K) (outcome : Outcome) : Bool × SwitchJournal K S :=
  let (ok, file) := recordLine diskOk headerNow journal.file ⟨op, digest, spec, outcome⟩
  let journal := { journal with file }
  -- a NOT_FOUND delete is a refused write, so it is counted on its own
  if ok && outcome == .notFound then (ok, { journal with notFound := journal.notFound + 1 })
  else if ok then (ok, { journal with recorded := journal.recorded + 1 })
  else (ok, { journal with failures := journal.failures + 1 })

/-- A client as `write_and_journal` uses it: `write_table_entry`, whose result names
the verb that went on the wire and the entry's digest, and `table_entry_key`, the digest
of the entry a spec would be, if it builds. -/
structure Client (W K S X : Type*) where
  writeTableEntry : W → S → Op → Except X (Op × K) × W
  tableEntryKey : W → S → Option K

/-- The writer as the replay calls it: an exception, or none. -/
def Client.apply {W X : Type*} (client : Client W K S X) (world : W) (spec : S) (op : Op) :
    Option X × W :=
  match client.writeTableEntry world spec op with
  | (.ok _, world) => (none, world)
  | (.error exc, world) => (some exc, world)

/-- `write_and_journal` under the switch's lock, with a client: the verb that went on
the wire and whether the write was recorded, or the exception it re-raises. -/
def writeAndJournal {W X : Type*} (client : Client W K S X) (isNotFound : X → Bool)
    (enabled diskOk : Bool) (headerNow : Header) (journal : SwitchJournal K S) (world : W)
    (spec : S) (op : Op) : Except X (Op × Bool) × SwitchJournal K S × W :=
  match client.writeTableEntry world spec op with
  | (.ok (written, key), world) =>
    if enabled then
      let (recorded, journal) := journal.record diskOk headerNow written spec key .ok
      (.ok (written, recorded), journal, world)
    else (.ok (written, false), journal, world)
  | (.error exc, world) =>
    if enabled && op == .delete && isNotFound exc then
      match client.tableEntryKey world spec with
      | some key =>
        let (_, journal) := journal.record diskOk headerNow .delete spec key .notFound
        (.error exc, journal, world)
      | none => (.error exc, journal, world)
    else (.error exc, journal, world)

/-- The record `write_and_journal` appends once the switch has answered, if any: `key` is
what `table_entry_key` says of the spec. -/
def journalRecord {X : Type*} (isNotFound : X → Bool) (enabled : Bool) (spec : S) (op : Op)
    (answer : Except X (Op × K)) (key : Option K) : Option (Record K S) :=
  match answer with
  | .ok (written, key) => if enabled then some ⟨written, key, spec, .ok⟩ else none
  | .error exc =>
    if enabled && op == .delete && isNotFound exc then
      key.map fun key => ⟨.delete, key, spec, .notFound⟩
    else none

/-- The client of a switch whose pipeline is `c`. -/
def Codec.client [DecidableEq Q] (c : Codec Q S E) (digest : Q → K) :
    Client (Q → Option E) K S Refusal where
  writeTableEntry t spec op :=
    match writeTableEntry c t spec op with
    | (.ok written, t) => (.ok (written, digest (c.keyOf spec)), t)
    | (.error refusal, t) => (.error refusal, t)
  tableEntryKey _ spec := if c.builds spec then some (digest (c.keyOf spec)) else none

end Write

/-! ### Step 0 -/

/-- Step 0's verdict on one switch. -/
structure Verdict where
  confirmed : Bool
  /-- The switch's own cookie, when it named one. -/
  cookie : Option ℕ
  reason : String
  deriving DecidableEq, Repr, Inhabited

section Settle

variable {K S : Type*}

/-- A header that names nothing. -/
def Header.blank : Header := ⟨none, none, none, none⟩

/-- `TableJournals.settle`: rewrite a confirmed file's header to name this boot and
this generation, set any other file aside.  `diskError` is the error of the file
write, when it fails. -/
def settle (journal : SwitchJournal K S) (verdict : Verdict) (headerNow : Header)
    (diskError : Option String) : SwitchJournal K S :=
  match diskError with
  | some err =>
    { journal with
      fabric := some ⟨!verdict.confirmed, verdict.reason, some err⟩
      failures := journal.failures + 1 }
  | none =>
    let journal := { journal with fabric := some ⟨!verdict.confirmed, verdict.reason, none⟩ }
    if verdict.confirmed then
      let kept := (read journal.file).1.getD Header.blank
      let kept := { kept with
        bootId := headerNow.bootId
        fabricCookie := headerNow.fabricCookie }
      { journal with file := reheader kept journal.file }
    else { journal with file := writeSnapshot headerNow [] }

/-- `TableJournals.note_skipped`: nothing is read or written. -/
def noteSkipped (journal : SwitchJournal K S) (reason : String) (when : When) :
    SwitchJournal K S × Report K S :=
  let report := { blankReplay journal.fabric when with skippedReason := some reason }
  ({ journal with replay := some report }, report)

end Settle

/-! ### What they leave in the file -/

section Spec

variable {K Q S E : Type*}

theorem filterMap_record?_recordLine (header : Header) (file : List (Line K S))
    (rec : Record K S) :
    (recordLine true header file rec).2.filterMap Line.record?
      = file.filterMap Line.record? ++ [rec] := by
  cases file with
  | nil => rfl
  | cons line file =>
    simp only [recordLine, if_true, List.isEmpty_cons, Bool.false_eq_true, if_false,
      List.filterMap_append]
    rfl

theorem read_recordLine_header (header h : Header) (file : List (Line K S)) (rec : Record K S)
    (hfile : (read file).1 = some h) :
    (read (recordLine true header file rec).2).1 = some h := by
  rw [read_eq] at hfile ⊢
  cases file with
  | nil => cases hfile
  | cons line file =>
    simp only [recordLine, if_true, List.isEmpty_cons, Bool.false_eq_true, if_false,
      List.findSome?_append]
    exact congrArg (fun o : Option Header => o.or none) hfile

/-- A file with records and no header stays without one: only an empty file gets it. -/
theorem read_recordLine_none (header : Header) (file : List (Line K S)) (rec : Record K S)
    (hfile : (read file).1 = none) {r : Record K S} (hr : r ∈ file.filterMap Line.record?) :
    (read (recordLine true header file rec).2).1 = none := by
  rw [read_eq] at hfile ⊢
  cases file with
  | nil => cases hr
  | cons line file =>
    simp only [recordLine, if_true, List.isEmpty_cons, Bool.false_eq_true, if_false,
      List.findSome?_append]
    exact congrArg (fun o : Option Header => o.or none) hfile

theorem record_file (journal : SwitchJournal K S) (diskOk : Bool) (headerNow : Header) (op : Op)
    (spec : S) (digest : K) (outcome : Outcome) :
    (journal.record diskOk headerNow op spec digest outcome).2.file
      = (recordLine diskOk headerNow journal.file ⟨op, digest, spec, outcome⟩).2 := by
  unfold SwitchJournal.record
  dsimp only
  split
  · rfl
  · split <;> rfl

/-- What a write does to the file: it appends the record that follows from the answer,
when there is one and the disk takes it. -/
theorem writeAndJournal_file {W X : Type*} (client : Client W K S X) (isNotFound : X → Bool)
    (enabled diskOk : Bool) (headerNow : Header) (journal : SwitchJournal K S) (world : W)
    (spec : S) (op : Op) :
    let answer := client.writeTableEntry world spec op
    (writeAndJournal client isNotFound enabled diskOk headerNow journal world spec op).2.1.file =
      match journalRecord isNotFound enabled spec op answer.1
        (client.tableEntryKey answer.2 spec) with
      | some rec => (recordLine diskOk headerNow journal.file rec).2
      | none => journal.file := by
  intro answer
  simp only [writeAndJournal, journalRecord, answer]
  rcases client.writeTableEntry world spec op with ⟨exc | ⟨written, key⟩, world'⟩ <;> dsimp only
  · split
    · rcases client.tableEntryKey world' spec with _ | key
      · rfl
      · exact record_file ..
    · rfl
  · split
    · exact record_file ..
    · rfl

variable [DecidableEq Q]

theorem Codec.client_apply (c : Codec Q S E) (digest : Q → K) :
    (c.client digest).apply = replayWrite c := by
  funext t spec op
  simp only [Client.apply, Codec.client, replayWrite]
  rcases writeTableEntry c t spec op with ⟨_ | _, _⟩ <;> rfl

/-- **What a write does** on the switch, with the journal on and the disk in order: it
has its effect and is recorded, or it is a NOT_FOUND delete and is recorded as one, or
it is refused and leaves no trace. -/
theorem writeAndJournal_cases (c : Codec Q S E) (digest : Q → K) (headerNow : Header)
    (journal : SwitchJournal K S) (t : Q → Option E) (spec : S) (op : Op) :
    let out := writeAndJournal (c.client digest) Refusal.refusals.isNotFound true true headerNow
      journal t spec op
    (out.2.1.file = (recordLine true headerNow journal.file
          ⟨wireOp c spec op, digest (c.keyOf spec), spec, .ok⟩).2 ∧
        out.2.2 = Function.update t (c.keyOf spec) (effect c.entryOf op spec) ∧
        c.builds spec = true ∧ (op ≠ .delete → c.hasAction spec = true) ∧
        (wireOp c spec op = .insert → t (c.keyOf spec) = none) ∧
        (wireOp c spec op ≠ .insert → c.isDefault spec = false →
          (t (c.keyOf spec)).isSome = true) ∧
        (op = .delete → c.isDefault spec = false)) ∨
      (out.2.1.file = (recordLine true headerNow journal.file
          ⟨.delete, digest (c.keyOf spec), spec, .notFound⟩).2 ∧
        out.2.2 = t ∧ c.builds spec = true ∧ c.isDefault spec = false ∧
        t (c.keyOf spec) = none) ∨
      (out.2.1 = journal ∧ out.2.2 = t) := by
  rcases writeTableEntry_cases c t spec op with
    ⟨h, hb, hrest⟩ | ⟨h, rfl, -⟩ | ⟨h, hop, hd, ht, hb⟩ | ⟨h, rfl, -⟩ | ⟨h, -⟩
  · left
    simp only [writeAndJournal, Codec.client, h, if_true]
    exact ⟨record_file .., trivial, hb, hrest⟩
  · exact Or.inr (Or.inr (by simp [writeAndJournal, Codec.client, h]))
  · cases op with
    | insert => exact absurd rfl hop
    | modify => exact Or.inr (Or.inr (by simp [writeAndJournal, Codec.client, h]))
    | delete =>
      right; left
      have hnf : Refusal.refusals.isNotFound .notFound = true := rfl
      simp only [writeAndJournal, Codec.client, h, hb, hnf, beq_self_eq_true, Bool.and_self,
        if_true]
      exact ⟨record_file .., trivial, trivial, hd, ht⟩
  · exact Or.inr (Or.inr (by simp [writeAndJournal, Codec.client, h, Refusal.refusals]))
  · exact Or.inr (Or.inr (by simp [writeAndJournal, Codec.client, h, Refusal.refusals]))

/-- The header and records a confirmed file is read back with once it is settled. -/
theorem read_settle (journal : SwitchJournal K S) (verdict : Verdict) (headerNow : Header)
    (hconf : verdict.confirmed = true) :
    (read (settle journal verdict headerNow none).file).1 =
        some { (read journal.file).1.getD Header.blank with
          bootId := headerNow.bootId, fabricCookie := headerNow.fabricCookie } ∧
      (settle journal verdict headerNow none).file.filterMap Line.record?
        = journal.file.filterMap Line.record? := by
  simp only [settle, hconf, if_true]
  constructor
  · rw [read_eq]; rfl
  · rw [reheader, List.filterMap_cons]
    exact filterMap_record?_bodyLines journal.file

end Spec

end Journal
end NDTwin
