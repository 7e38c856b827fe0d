import NDTwin.Journal.Switch

/-!
# Replaying a switch's journal

A pipeline push empties a switch's tables.  `TableJournals.replay` re-reads the
switch's journal file, folds it, sends every net write through the writer again
and replaces the file by a snapshot of what went back.  The writer may refuse a
write, may refuse it with the two answers the replay acts on (NOT_FOUND and
ALREADY_EXISTS), or may fail without an answer, after which the write may or may
not have landed.

The writer is a function on an arbitrary world, so it may answer as it likes and
differently each time; `WriterSound` of `NDTwin.Journal.Switch` is all that is
asked of it.

## Main definitions

* `read`, `recordLine`, `writeSnapshot`, `reheader` — a journal file's operations.
* `Report`, `ReplayReport.status` — what a replay says about itself.
* `replayItem`, `replay?` — one turn of the replay loop, and the replay; `replay` is the same
  over a file whose fold returns.
* `Replayed.Honest` — the report, the switch and the new file agree.

## Main results

* `replayItem_settles` — **what one turn does**: the item goes to exactly one of
  the restored and the failed, and a restored one is on the switch.
* `replayLoop_inv` — the invariant of the whole loop.
* `replay_honest` — **a replay is honest**, whatever the switch answered, over a file that can
  be folded and whose keys name different entries; `recorded_honest` is the same for the files
  that `record` writes.
* `twoNames_not_honest` — two keys for one entry.
-/

namespace NDTwin
namespace Journal

open Keyed

/-! ### The file -/

section File

variable {K S : Type*}

/-- Whether `read` keeps a line among the records. -/
def Line.isEntry : Line K S → Bool
  | .record _ => true
  | .keyless => true
  | _ => false

/-- The header a line is. -/
def Line.header? : Line K S → Option Header
  | .header h => some h
  | _ => none

/-- Whether a line is white space. -/
def Line.isBlank : Line K S → Bool
  | .blank => true
  | _ => false

/-- Whether a line cannot be read. -/
def Line.isTorn : Line K S → Bool
  | .torn => true
  | _ => false

/-- One turn of `read`'s loop: the first header counts, a torn line is counted. -/
def readLine : Option Header × List (Line K S) × ℕ → Line K S → Option Header × List (Line K S) × ℕ
  | st, .blank => st
  | (header, records, unreadable), .torn => (header, records, unreadable + 1)
  | (none, records, unreadable), .header h => (some h, records, unreadable)
  | (some h, records, unreadable), .header _ => (some h, records, unreadable)
  | (header, records, unreadable), line => (header, records ++ [line], unreadable)

/-- `TableEntryJournal.read`: the header, the readable records in file order and
the number of lines that would not parse. -/
def read (file : List (Line K S)) : Option Header × List (Line K S) × ℕ :=
  file.foldl readLine (none, [], 0)

/-- `TableEntryJournal.record`: append one accepted write, after a header when the
file is empty.  A failed disk write leaves the file as it was. -/
def recordLine (diskOk : Bool) (header : Header) (file : List (Line K S)) (rec : Record K S) :
    Bool × List (Line K S) :=
  if diskOk then
    (true, (if file.isEmpty then [.header header] else file) ++ [.record rec])
  else (false, file)

/-- The lines `write_snapshot` puts in place of the live file. -/
def writeSnapshot (header : Header) (records : List (Record K S)) : List (Line K S) :=
  .header header :: records.map .record

/-- A file's lines less its first header line and its blank lines. -/
def bodyLines : List (Line K S) → List (Line K S)
  | [] => []
  | .header _ :: rest => rest.filter fun line => !line.isBlank
  | .blank :: rest => bodyLines rest
  | line :: rest => line :: bodyLines rest

/-- The lines `reheader` puts in place of the live file: a new header, every
other line as it was. -/
def reheader (header : Header) (file : List (Line K S)) : List (Line K S) :=
  .header header :: bodyLines file

theorem readLine_eq (st : Option Header × List (Line K S) × ℕ) (line : Line K S) :
    readLine st line =
      (st.1.or line.header?, st.2.1 ++ (if line.isEntry then [line] else []),
        st.2.2 + (if line.isTorn then 1 else 0)) := by
  obtain ⟨header, records, unreadable⟩ := st
  cases line <;> cases header <;> simp [readLine, Line.header?, Line.isEntry, Line.isTorn]

/-- **What `read` returns**, line by line. -/
theorem read_eq (file : List (Line K S)) :
    read file = (file.findSome? Line.header?, file.filter Line.isEntry,
      file.countP Line.isTorn) := by
  suffices h : ∀ st : Option Header × List (Line K S) × ℕ, file.foldl readLine st =
      (st.1.or (file.findSome? Line.header?), st.2.1 ++ file.filter Line.isEntry,
        st.2.2 + file.countP Line.isTorn) by
    rw [read, h]; simp
  induction file with
  | nil => intro st; simp
  | cons line file ih =>
    intro st
    rw [List.foldl_cons, readLine_eq, ih]
    obtain ⟨header, records, unreadable⟩ := st
    cases line <;> cases header <;>
      simp [Line.header?, Line.isEntry, Line.isTorn, List.findSome?_cons, List.filter_cons,
        List.countP_cons, Nat.add_assoc, Nat.add_comm 1]

theorem filterMap_record?_read (file : List (Line K S)) :
    (read file).2.1.filterMap Line.record? = file.filterMap Line.record? := by
  rw [read_eq]
  induction file with
  | nil => rfl
  | cons line file ih =>
    cases line <;>
      simp_all [Line.isEntry, Line.record?, List.filter_cons, List.filterMap_cons]

@[simp] theorem filterMap_record?_writeSnapshot (header : Header) (records : List (Record K S)) :
    (writeSnapshot header records).filterMap Line.record? = records := by
  rw [writeSnapshot, List.filterMap_cons]
  exact filterMap_record?_map_record records

@[simp] theorem read_writeSnapshot_header (header : Header) (records : List (Record K S)) :
    (read (writeSnapshot header records)).1 = some header := by
  rw [read_eq]; rfl

theorem filterMap_record?_filter_isBlank (file : List (Line K S)) :
    (file.filter fun line => !line.isBlank).filterMap Line.record?
      = file.filterMap Line.record? := by
  induction file with
  | nil => rfl
  | cons line file ih =>
    cases line <;>
      simp_all [Line.isBlank, Line.record?, List.filterMap_cons]

theorem filterMap_record?_bodyLines (file : List (Line K S)) :
    (bodyLines file).filterMap Line.record? = file.filterMap Line.record? := by
  induction file with
  | nil => rfl
  | cons line file ih =>
    cases line with
    | header h => exact filterMap_record?_filter_isBlank file
    | blank => exact ih
    | record r => simp [bodyLines, Line.record?, ih]
    | keyless => simpa [bodyLines, Line.record?, List.filterMap_cons] using ih
    | torn => simpa [bodyLines, Line.record?, List.filterMap_cons] using ih

end File

/-! ### The report -/

/-- One net write as a report names it. -/
structure Entry (K S : Type*) where
  key : K
  op : Op
  spec : S
  deriving DecidableEq, Repr

/-- The entry a report names for a net write. -/
def NetItem.entry {K S : Type*} (item : NetItem K S) : Entry K S :=
  ⟨item.key, item.op, item.spec⟩

/-- A net write that did not go back, and why. -/
structure Failure (K S : Type*) where
  entry : Entry K S
  reason : String
  /-- The outcome is unknown, so the record stays in the journal. -/
  kept : Bool
  /-- The verb of the retry, when the write that failed was one. -/
  retriedAs : Option Op
  deriving DecidableEq, Repr

/-- When a replay runs. -/
inductive When where
  | startup
  | readopt
  deriving DecidableEq, Repr, Inhabited

/-- The four things a replay may say it achieved. -/
inductive Status where
  | nothingToReplay
  | failed
  | complete
  | partly
  deriving DecidableEq, Repr, Inhabited

/-- `ReplayReport.status`. -/
def ReplayReport.status (attempted succeeded unreadable : ℕ) : Status :=
  if attempted = 0 then .nothingToReplay
  else if succeeded = 0 then .failed
  else if succeeded = attempted ∧ unreadable = 0 then .complete
  else .partly

/-- What step 0 noted about a switch this boot. -/
structure FabricNote where
  freshFabric : Bool
  cookie : String
  error : Option String
  deriving DecidableEq, Repr, Inhabited

/-- A replay's report. -/
structure Report (K S : Type*) where
  when : When
  attempted : ℕ
  succeeded : ℕ
  unreadable : ℕ
  failed : List (Failure K S)
  restored : List (Entry K S)
  retriedAsModify : List K
  retriedAsInsert : List K
  /-- Step 0's note, or `none` before one. -/
  fabric : Option FabricNote
  stalePipeline : ℕ
  staleEntries : ℕ
  skippedReason : Option String
  snapshotError : Option String
  deriving DecidableEq, Repr

/-- The status a report is stored with. -/
def Report.status {K S : Type*} (report : Report K S) : Status :=
  ReplayReport.status report.attempted report.succeeded report.unreadable

/-- `TableJournals._blank_replay`. -/
def blankReplay {K S : Type*} (fabric : Option FabricNote) (when : When) : Report K S :=
  { when, attempted := 0, succeeded := 0, unreadable := 0, failed := [], restored := [],
    retriedAsModify := [], retriedAsInsert := [], fabric, stalePipeline := 0, staleEntries := 0,
    skippedReason := none, snapshotError := none }

/-! ### The replay -/

/-- The reason given for a write that is stale because the p4info changed. -/
def stalePipelineReason : String :=
  "stale_pipeline: the p4info this journal was written against is not the one loaded now"

/-- The reason given for a write that is stale because the package's entries file
changed. -/
def staleEntriesReason : String :=
  "stale_entries: the package's entries file changed, and this write may have been aimed at " ++
    "one of its entries"

/-- The replay loop's variables, with the writer's world and the calls made so
far. -/
structure Loop (W K S : Type*) where
  world : W
  /-- Every `apply(spec, op)` the replay made, in order. -/
  sent : List (S × Op)
  restored : List (NetItem K S)
  keptUnknown : List (NetItem K S)
  failed : List (Failure K S)
  retriedAsModify : List K
  retriedAsInsert : List K
  stalePipeline : ℕ
  staleEntries : ℕ

/-- The loop's variables before the first turn. -/
def Loop.start {W K S : Type*} (world : W) : Loop W K S :=
  ⟨world, [], [], [], [], [], [], 0, 0⟩

section Replay

variable {W K S X : Type*} (isDefault : S → Bool)
variable (apply : W → S → Op → Option X × W) (ref : Refusals X)

/-- The writer called once: its answer, and the loop with the new world. -/
def Loop.call (st : Loop W K S) (spec : S) (op : Op) : Option X × Loop W K S :=
  let (answer, world) := apply st.world spec op
  (answer, { st with world, sent := st.sent ++ [(spec, op)] })

/-- The item went back. -/
def Loop.restore (st : Loop W K S) (item : NetItem K S) : Loop W K S :=
  { st with restored := st.restored ++ [item] }

/-- The item is stale: nothing was sent, or what is there is not the journal's. -/
def Loop.stale (st : Loop W K S) (item : NetItem K S) : Loop W K S :=
  { st with
    staleEntries := st.staleEntries + 1
    failed := st.failed ++ [⟨item.entry, staleEntriesReason, false, none⟩] }

/-- The outer `except`: a NOT_FOUND delete has reached its goal, any other failure
is reported, and one without an answer keeps its record. -/
def Loop.fail (st : Loop W K S) (item : NetItem K S) (exc : X) (retriedAs : Option Op) :
    Loop W K S :=
  if item.op = .delete ∧ ref.isNotFound exc = true then
    st.restore item
  else
    let unknownOutcome := ref.outcomeUnknown exc
    { st with
      keptUnknown := if unknownOutcome then st.keptUnknown ++ [item] else st.keptUnknown
      failed := st.failed ++
        [⟨item.entry, (ref.describe exc).getD (ref.text exc), unknownOutcome, retriedAs⟩] }

/-- The one retry a refused write may get. -/
def Loop.retry (st : Loop W K S) (item : NetItem K S) (op : Op) : Loop W K S :=
  match st.call apply item.spec op with
  | (none, st) => st.restore item
  | (some exc, st) => st.fail ref item exc (some op)

/-- One turn of the replay loop. -/
def replayItem (pipelineChanged entriesChanged : Bool) (st : Loop W K S) (item : NetItem K S) :
    Loop W K S :=
  if pipelineChanged then
    { st with
      stalePipeline := st.stalePipeline + 1
      failed := st.failed ++ [⟨item.entry, stalePipelineReason, false, none⟩] }
  else if entriesChanged && item.op != .insert then
    st.stale item
  else
    match st.call apply item.spec item.op with
    | (none, st) => st.restore item
    | (some exc, st) =>
      if item.op = .insert ∧ item.unknownBefore = true ∧ ref.isAlreadyExists exc = true then
        -- what is there is a boot entry, or one of the package's new entries file
        if entriesChanged then st.stale item
        else
          Loop.retry apply ref { st with retriedAsModify := st.retriedAsModify ++ [item.key] }
            item .modify
      else if item.op = .modify ∧ isDefault item.spec = false ∧ ref.isNotFound exc = true then
        Loop.retry apply ref { st with retriedAsInsert := st.retriedAsInsert ++ [item.key] }
          item .insert
      else st.fail ref item exc none

/-- The replay loop. -/
def replayLoop (pipelineChanged entriesChanged : Bool) (world : W) (net : List (NetItem K S)) :
    Loop W K S :=
  net.foldl (replayItem isDefault apply ref pipelineChanged entriesChanged) (Loop.start world)

/-- What one switch's part of `TableJournals` holds: its live file, step 0's note,
the counts its report serves, and the last replay's report. -/
structure SwitchJournal (K S : Type*) where
  file : List (Line K S)
  fabric : Option FabricNote
  failures : ℕ
  recorded : ℕ
  notFound : ℕ
  replay : Option (Report K S)

/-- `TableJournals._snapshot`: a disk error leaves the file and is reported. -/
def snapshot (journal : SwitchJournal K S) (diskError : Option String) (header : Header)
    (records : List (Record K S)) (report : Report K S) : SwitchJournal K S × Report K S :=
  match diskError with
  | none => ({ journal with file := writeSnapshot header records }, report)
  | some err =>
    ({ journal with failures := journal.failures + 1 }, { report with snapshotError := some err })

/-- What a replay leaves: the journal, the report, the world and the calls made. -/
structure Replayed (W K S : Type*) where
  journal : SwitchJournal K S
  report : Report K S
  world : W
  sent : List (S × Op)

/-- The header does not name this boot: the file is set aside, nothing is sent. -/
def skipUnconfirmed {W K S : Type*} (journal : SwitchJournal K S) (world : W) (headerNow : Header)
    (diskError : Option String) (report : Report K S) : Replayed W K S :=
  let report := { report with skippedReason := some "unconfirmed_header" }
  let (journal, report) := snapshot journal diskError headerNow [] report
  ⟨{ journal with replay := some report }, report, world, []⟩

variable [DecidableEq K]

/-- The header names this boot, and the file is folded: every net write is sent. -/
def replayNet (journal : SwitchJournal K S) (world : W) (header headerNow : Header)
    (diskError : Option String) (report : Report K S) (net : List (NetItem K S)) :
    Replayed W K S :=
  let pipelineChanged := header.p4infoSha256.isNone || header.p4infoSha256 != headerNow.p4infoSha256
  let entriesChanged := header.entriesSha256 != headerNow.entriesSha256
  let st := replayLoop isDefault apply ref pipelineChanged entriesChanged world net
  let report := { report with
    attempted := net.length
    succeeded := st.restored.length
    failed := st.failed
    restored := st.restored.map NetItem.entry
    retriedAsModify := st.retriedAsModify
    retriedAsInsert := st.retriedAsInsert
    stalePipeline := st.stalePipeline
    staleEntries := st.staleEntries }
  let keep := st.restored.map NetItem.key ++ st.keptUnknown.map NetItem.key
  let kept := net.filter fun item => item.key ∈ keep
  let (journal, report) := snapshot journal diskError headerNow (recordsFromNet kept) report
  ⟨{ journal with replay := some report }, report, st.world, st.sent⟩

/-- `TableJournals.replay`: put a switch's journaled entries back and replace its
file by what went back.  `diskError` is the error of the snapshot's file write,
when it fails.  A fold that raises ends it before anything is sent or written. -/
def replay? (hashable : K → Bool) (isObject : S → Bool) (journal : SwitchJournal K S) (world : W)
    (headerNow : Header) (when : When) (diskError : Option String) :
    Except FoldError (Replayed W K S) :=
  let report := blankReplay journal.fabric when
  let (header, records, unreadable) := read journal.file
  let report := { report with unreadable }
  match header with
  | some header =>
    if header.bootId = headerNow.bootId then
      (foldRecords? isDefault hashable isObject records).map
        (replayNet isDefault apply ref journal world header headerNow diskError report)
    else .ok (skipUnconfirmed journal world headerNow diskError report)
  | none => .ok (skipUnconfirmed journal world headerNow diskError report)

/-- The same over a file whose fold returns. -/
def replay (journal : SwitchJournal K S) (world : W) (headerNow : Header) (when : When)
    (diskError : Option String) : Replayed W K S :=
  let report := blankReplay journal.fabric when
  let (header, records, unreadable) := read journal.file
  let report := { report with unreadable }
  match header with
  | some header =>
    if header.bootId = headerNow.bootId then
      replayNet isDefault apply ref journal world header headerNow diskError report
        (foldRecords isDefault records)
    else skipUnconfirmed journal world headerNow diskError report
  | none => skipUnconfirmed journal world headerNow diskError report

end Replay

/-! ### What is sent -/

section Sent

variable {W K S X : Type*} {isDefault : S → Bool}
variable {apply : W → S → Op → Option X × W} {ref : Refusals X}

theorem Loop.fail_sent (st : Loop W K S) (item : NetItem K S) (exc : X) (retriedAs : Option Op) :
    (st.fail ref item exc retriedAs).sent = st.sent := by
  unfold Loop.fail
  split <;> rfl

theorem Loop.retry_sent (st : Loop W K S) (item : NetItem K S) (op : Op) :
    (st.retry apply ref item op).sent = st.sent ++ [(item.spec, op)] := by
  have hcall : (st.call apply item.spec op).2.sent = st.sent ++ [(item.spec, op)] := rfl
  unfold Loop.retry
  split
  · next st₁ heq =>
    rw [heq] at hcall
    exact hcall
  · next exc st₁ heq =>
    rw [heq] at hcall
    rw [Loop.fail_sent]
    exact hcall

/-- A turn of the loop hands the writer nothing but its item's spec. -/
theorem replayItem_sent (pipelineChanged entriesChanged : Bool) (st : Loop W K S)
    (item : NetItem K S) :
    ∀ p ∈ (replayItem isDefault apply ref pipelineChanged entriesChanged st item).sent,
      p ∈ st.sent ∨ p.1 = item.spec := by
  intro p hp
  unfold replayItem at hp
  split at hp
  · exact Or.inl hp
  split at hp
  · exact Or.inl hp
  have hcall : (st.call apply item.spec item.op).2.sent = st.sent ++ [(item.spec, item.op)] := rfl
  have hone : ∀ p, p ∈ st.sent ++ [(item.spec, item.op)] → p ∈ st.sent ∨ p.1 = item.spec := by
    intro p hp
    rcases List.mem_append.mp hp with hp | hp
    · exact Or.inl hp
    · exact Or.inr (by rw [List.mem_singleton.mp hp])
  have hretry : ∀ p op, p ∈ st.sent ++ [(item.spec, item.op)] ++ [(item.spec, op)] →
      p ∈ st.sent ∨ p.1 = item.spec := by
    intro p op hp
    rcases List.mem_append.mp hp with hp | hp
    · exact hone p hp
    · exact Or.inr (by rw [List.mem_singleton.mp hp])
  split at hp
  · next st₁ heq =>
    rw [heq] at hcall
    exact hone p (hcall ▸ hp)
  · next exc st₁ heq =>
    rw [heq] at hcall
    dsimp only at hcall
    split at hp
    · split at hp
      · exact hone p (hcall ▸ hp)
      · rw [Loop.retry_sent] at hp
        exact hretry p _ (hcall ▸ hp)
    split at hp
    · rw [Loop.retry_sent] at hp
      exact hretry p _ (hcall ▸ hp)
    · rw [Loop.fail_sent] at hp
      exact hone p (hcall ▸ hp)

/-- The loop hands the writer only specs of its items. -/
theorem replayLoop_sent (pipelineChanged entriesChanged : Bool) (w₀ : W)
    (net : List (NetItem K S)) :
    ∀ p ∈ (replayLoop isDefault apply ref pipelineChanged entriesChanged w₀ net).sent,
      ∃ item ∈ net, p.1 = item.spec := by
  unfold replayLoop
  induction net using List.reverseRecOn with
  | nil => intro p hp; cases hp
  | append_singleton net item ih =>
    intro p hp
    rw [List.foldl_append] at hp
    rcases replayItem_sent pipelineChanged entriesChanged _ item p hp with hp | hp
    · obtain ⟨i, hi, hpi⟩ := ih p hp
      exact ⟨i, by simp [hi], hpi⟩
    · exact ⟨item, by simp, hp⟩

end Sent

/-! ### What one turn does -/

section Honest

variable {W K Q S E X : Type*} (isDefault : S → Bool)
variable (apply : W → S → Op → Option X × W) (ref : Refusals X)
variable (keyOf : S → Q) (entryOf : S → E) (table : W → Q → Option E)

/-- Where a net write leaves its entry. -/
def NetItem.target (item : NetItem K S) : Option E := effect entryOf item.op item.spec

/-- What a turn of the loop may do with an item: put it with the restored, or with
the failed. -/
structure Settles (item : NetItem K S) (st st' : Loop W K S) : Prop where
  frame : ∀ k, k ≠ keyOf item.spec → table st'.world k = table st.world k
  outcome :
    (st'.restored = st.restored ++ [item] ∧ st'.failed = st.failed ∧
      st'.keptUnknown = st.keptUnknown ∧
      table st'.world (keyOf item.spec) = item.target entryOf) ∨
    (st'.restored = st.restored ∧
      ∃ failure : Failure K S, failure.entry = item.entry ∧
        st'.failed = st.failed ++ [failure] ∧
        st'.keptUnknown = if failure.kept then st.keptUnknown ++ [item] else st.keptUnknown)

variable {isDefault apply ref keyOf entryOf table}

theorem Loop.call_fst (st : Loop W K S) (spec : S) (op : Op) :
    (st.call apply spec op).1 = (apply st.world spec op).1 := rfl

/-- A stretch of calls about one item, none of which has settled it yet. -/
structure Pending (keyOf : S → Q) (table : W → Q → Option E) (item : NetItem K S)
    (st st' : Loop W K S) : Prop where
  frame : ∀ k, k ≠ keyOf item.spec → table st'.world k = table st.world k
  restored : st'.restored = st.restored
  failed : st'.failed = st.failed
  keptUnknown : st'.keptUnknown = st.keptUnknown

theorem Pending.refl (item : NetItem K S) (st : Loop W K S) :
    Pending keyOf table item st st :=
  ⟨fun _ _ => rfl, rfl, rfl, rfl⟩

theorem Pending.call (hw : WriterSound apply ref keyOf entryOf table) {item : NetItem K S}
    {st st' : Loop W K S} (h : Pending keyOf table item st st') (op : Op) :
    Pending keyOf table item st (st'.call apply item.spec op).2 where
  frame k hk := (hw.frame _ _ _ k hk).trans (h.frame k hk)
  restored := h.restored
  failed := h.failed
  keptUnknown := h.keptUnknown

theorem Pending.settles_restore {item : NetItem K S} {st st' : Loop W K S}
    (h : Pending keyOf table item st st')
    (htable : table st'.world (keyOf item.spec) = item.target entryOf) :
    Settles keyOf entryOf table item st (st'.restore item) where
  frame := h.frame
  outcome := Or.inl ⟨by simp [Loop.restore, h.restored], h.failed, h.keptUnknown, htable⟩

theorem Pending.settles_stale {item : NetItem K S} {st st' : Loop W K S}
    (h : Pending keyOf table item st st') :
    Settles keyOf entryOf table item st (st'.stale item) where
  frame := h.frame
  outcome := Or.inr ⟨h.restored, ⟨item.entry, staleEntriesReason, false, none⟩, rfl,
    by simp [Loop.stale, h.failed], by simp [Loop.stale, h.keptUnknown]⟩

/-- A failure settles the item either way: a NOT_FOUND delete found its entry
absent, which is where the delete leaves it. -/
theorem Pending.settles_fail {item : NetItem K S} {st st' : Loop W K S} {exc : X}
    (h : Pending keyOf table item st st')
    (habsent : ref.isNotFound exc = true → table st'.world (keyOf item.spec) = none)
    (retriedAs : Option Op) :
    Settles keyOf entryOf table item st (st'.fail ref item exc retriedAs) := by
  unfold Loop.fail
  split
  · next hdel =>
    refine h.settles_restore ?_
    rw [habsent hdel.2, NetItem.target, hdel.1]
    rfl
  · refine ⟨h.frame, Or.inr ⟨h.restored, ⟨item.entry,
      (ref.describe exc).getD (ref.text exc), ref.outcomeUnknown exc, retriedAs⟩, rfl, ?_, ?_⟩⟩
    · simp [h.failed]
    · simp [h.keptUnknown]

/-- A write that returned has had its effect; one that is sent again leaves the
entry where the item wants it, because insert and modify have the same effect. -/
theorem Pending.settles_retry (hw : WriterSound apply ref keyOf entryOf table)
    {item : NetItem K S} {st st' : Loop W K S} (h : Pending keyOf table item st st') {op : Op}
    (hop : effect entryOf op item.spec = item.target entryOf) :
    Settles keyOf entryOf table item st (st'.retry apply ref item op) := by
  have hcall := h.call hw op
  unfold Loop.retry
  split
  · next st₂ heq =>
    rw [heq] at hcall
    refine hcall.settles_restore ?_
    rw [← hop, ← hw.returned st'.world item.spec op (by rw [← Loop.call_fst, heq])]
    exact congrArg (fun p => table p.2.world (keyOf item.spec)) heq.symm
  · next exc st₂ heq =>
    rw [heq] at hcall
    refine hcall.settles_fail (fun hnf => ?_) _
    have := (hw.notFound st'.world item.spec op exc (by rw [← Loop.call_fst, heq]) hnf).2
    rw [← this]
    exact congrArg (fun p => table p.2.world (keyOf item.spec)) heq.symm

/-- **What one turn of the loop does**: the item goes to exactly one of the
restored and the failed, a restored one is on the switch, and nothing but the
item's own entry is written. -/
theorem replayItem_settles (hw : WriterSound apply ref keyOf entryOf table)
    (pipelineChanged entriesChanged : Bool) (st : Loop W K S) (item : NetItem K S) :
    Settles keyOf entryOf table item st
      (replayItem isDefault apply ref pipelineChanged entriesChanged st item) := by
  have hrefl : Pending keyOf table item st st := Pending.refl item st
  unfold replayItem
  split
  · exact ⟨hrefl.frame, Or.inr ⟨rfl, _, rfl, rfl, rfl⟩⟩
  split
  · exact hrefl.settles_stale
  have hcall := hrefl.call hw item.op
  split
  · next st₁ heq =>
    rw [heq] at hcall
    refine hcall.settles_restore ?_
    rw [NetItem.target, ← hw.returned st.world item.spec item.op (by rw [← Loop.call_fst, heq])]
    exact congrArg (fun p => table p.2.world (keyOf item.spec)) heq.symm
  · next exc st₁ heq =>
    rw [heq] at hcall
    -- naming the key in the report before a retry changes nothing that is settled here
    have hmod : Pending keyOf table item st
        { st₁ with retriedAsModify := st₁.retriedAsModify ++ [item.key] } :=
      ⟨hcall.frame, hcall.restored, hcall.failed, hcall.keptUnknown⟩
    have hins : Pending keyOf table item st
        { st₁ with retriedAsInsert := st₁.retriedAsInsert ++ [item.key] } :=
      ⟨hcall.frame, hcall.restored, hcall.failed, hcall.keptUnknown⟩
    split
    · next h =>
      split
      · exact hcall.settles_stale
      · exact hmod.settles_retry hw (by rw [NetItem.target, h.1]; rfl)
    split
    · next h => exact hins.settles_retry hw (by rw [NetItem.target, h.1]; rfl)
    · refine hcall.settles_fail (fun hnf => ?_) none
      have := (hw.notFound st.world item.spec item.op exc (by rw [← Loop.call_fst, heq]) hnf).2
      rw [← this]
      exact congrArg (fun p => table p.2.world (keyOf item.spec)) heq.symm

/-! ### The loop -/

/-- **The loop's invariant** after the items `done`, from the world `w₀`: every
item is with the restored or with the failed, the restored ones are on the
switch, the failed ones marked kept are those whose record stays, and no other
entry has been written. -/
structure LoopInv (keyOf : S → Q) (entryOf : S → E) (table : W → Q → Option E) (w₀ : W)
    (done : List (NetItem K S)) (st : Loop W K S) : Prop where
  settled : (st.restored.map NetItem.key ++ st.failed.map fun f => f.entry.key).Perm
    (done.map NetItem.key)
  restored : ∀ i ∈ st.restored, i ∈ done ∧ table st.world (keyOf i.spec) = i.target entryOf
  kept : st.keptUnknown.map NetItem.entry = (st.failed.filter Failure.kept).map Failure.entry
  frame : ∀ k, k ∉ done.map (fun i => keyOf i.spec) → table st.world k = table w₀ k

theorem loopInv_start (w₀ : W) :
    LoopInv keyOf entryOf table w₀ [] (Loop.start w₀ : Loop W K S) :=
  ⟨by simp [Loop.start], by simp [Loop.start], rfl, fun _ _ => rfl⟩

theorem LoopInv.step {w₀ : W} {done : List (NetItem K S)} {st st' : Loop W K S}
    {item : NetItem K S} (h : LoopInv keyOf entryOf table w₀ done st)
    (hs : Settles keyOf entryOf table item st st')
    (hnew : keyOf item.spec ∉ done.map fun i => keyOf i.spec) :
    LoopInv keyOf entryOf table w₀ (done ++ [item]) st' := by
  -- the entries of the items before are not the one this turn writes
  have hold : ∀ i ∈ done, table st'.world (keyOf i.spec) = table st.world (keyOf i.spec) := by
    intro i hi
    refine hs.frame _ fun he => hnew ?_
    rw [← he]
    exact List.mem_map.mpr ⟨i, hi, rfl⟩
  have hframe : ∀ k, k ∉ (done ++ [item]).map (fun i => keyOf i.spec) →
      table st'.world k = table w₀ k := by
    intro k hk
    simp only [List.map_append, List.mem_append, List.map_cons, List.map_nil,
      List.mem_singleton, not_or] at hk
    rw [hs.frame k hk.2, h.frame k hk.1]
  rcases hs.outcome with ⟨hr, hf, hk, ht⟩ | ⟨hr, failure, he, hf, hk⟩
  · refine ⟨?_, ?_, ?_, hframe⟩
    · rw [hr, hf, List.map_append, List.map_append, List.append_assoc]
      refine (List.perm_append_comm_assoc _ _ _).trans ?_
      exact (List.perm_append_comm).trans (h.settled.append_right _)
    · intro i hi
      rw [hr, List.mem_append, List.mem_singleton] at hi
      rcases hi with hi | rfl
      · obtain ⟨hid, hit⟩ := h.restored i hi
        exact ⟨by simp [hid], (hold i hid).trans hit⟩
      · exact ⟨by simp, ht⟩
    · rw [hk, hf]; exact h.kept
  · refine ⟨?_, ?_, ?_, hframe⟩
    · rw [hr, hf, List.map_append, List.map_append, ← List.append_assoc]
      have hkey : failure.entry.key = item.key := congrArg Entry.key he
      simpa [hkey] using h.settled.append_right [item.key]
    · intro i hi
      obtain ⟨hid, hit⟩ := h.restored i (hr ▸ hi)
      exact ⟨by simp [hid], (hold i hid).trans hit⟩
    · rw [hk, hf, List.filter_append, List.map_append, ← h.kept]
      cases hkept : failure.kept <;> simp [hkept, he]

theorem replayLoop_inv (hw : WriterSound apply ref keyOf entryOf table)
    (pipelineChanged entriesChanged : Bool) (w₀ : W) (net : List (NetItem K S))
    (hnodup : (net.map fun i => keyOf i.spec).Nodup) :
    LoopInv keyOf entryOf table w₀ net
      (replayLoop isDefault apply ref pipelineChanged entriesChanged w₀ net) := by
  unfold replayLoop
  induction net using List.reverseRecOn with
  | nil => exact loopInv_start w₀
  | append_singleton net item ih =>
    rw [List.map_append, List.nodup_append] at hnodup
    rw [List.foldl_append]
    refine (ih hnodup.1).step (replayItem_settles hw pipelineChanged entriesChanged _ item) ?_
    intro hmem
    exact hnodup.2.2 _ hmem _ (by simp) rfl

/-! ### The replay's promise -/

section Theorem

/-- The net write of an entry takes its spec from the last record, and deletes when
that deletes. -/
theorem netOf_last {key : K} {recs : List (Record K S)} {item : NetItem K S}
    (h : netOf isDefault key recs = some item) :
    ∃ l, recs.getLast? = some l ∧ item.spec = l.spec ∧ (item.op = .delete ↔ l.op = .delete) := by
  unfold netOf at h
  split at h
  · next f l _ hl =>
    refine ⟨l, hl, ?_⟩
    rcases netItem_cases isDefault h with
      ⟨-, hop, rfl⟩ | ⟨-, hop, -, rfl⟩ | ⟨-, hop, -, -, rfl⟩ | ⟨-, hop, -, rfl⟩ <;> simp [hop]
  · cases h

/-- The spec of an item of a file's fold is the spec of one of the file's records. -/
theorem exists_record_of_mem_foldRecords [DecidableEq K] {file : List (Line K S)}
    {item : NetItem K S} (h : item ∈ foldRecords isDefault (read file).2.1) :
    ∃ r ∈ file.filterMap Line.record?, r.spec = item.spec := by
  obtain ⟨l, hl, hspec, -⟩ := netOf_last ((mem_foldRecords isDefault).mp h)
  rw [filterMap_record?_read] at hl
  exact ⟨l, ((mem_ofKey Record.key).mp (List.mem_of_getLast? hl)).1, hspec.symm⟩

theorem effect_congr {op op' : Op} {spec spec' : S} (hs : spec = spec')
    (hop : op = .delete ↔ op' = .delete) :
    effect entryOf op spec = effect entryOf op' spec' := by
  rw [effect_eq_ite, effect_eq_ite, hs, if_congr hop rfl rfl]

variable [DecidableEq K]

/-- A replay from the world `w₀` over the records `recs` is honest: every key of the
fold is in exactly one of the restored and the failed, and counted; every
restored key is on the switch as the journal's last record has it; nothing else
is written; and the new file folds to the restored items and the failed ones
marked kept.  A snapshot the disk refuses leaves the file and is reported. -/
structure Replayed.Honest (isDefault : S → Bool) (keyOf : S → Q) (entryOf : S → E)
    (table : W → Q → Option E) (file : List (Line K S)) (recs : List (Line K S)) (w₀ : W)
    (diskError : Option String) (out : Replayed W K S) : Prop where
  once : ∀ item ∈ foldRecords isDefault recs,
    (item.key ∈ out.report.restored.map Entry.key ∧
      item.key ∉ out.report.failed.map fun f => f.entry.key) ∨
    (item.key ∉ out.report.restored.map Entry.key ∧
      item.key ∈ out.report.failed.map fun f => f.entry.key)
  attempted : out.report.attempted = (foldRecords isDefault recs).length
  counted : out.report.attempted = out.report.succeeded + out.report.failed.length
  restored : ∀ e ∈ out.report.restored, ∃ l : Record K S,
    (ofKey Record.key e.key (recs.filterMap Line.record?)).getLast? = some l ∧
      table out.world (keyOf l.spec) = if l.op = .delete then none else some (entryOf l.spec)
  untouched : ∀ q, q ∉ (foldRecords isDefault recs).map (fun item => keyOf item.spec) →
    table out.world q = table w₀ q
  sent : ∀ p ∈ out.sent, ∃ item ∈ foldRecords isDefault recs, p.1 = item.spec
  snapshot : diskError = none →
    (foldRecords isDefault (read out.journal.file).2.1).map NetItem.write =
      ((foldRecords isDefault recs).filter fun item =>
        item.key ∈ out.report.restored.map Entry.key ||
          out.report.failed.any fun f => f.kept && f.entry.key = item.key).map NetItem.write
  unsaved : ∀ err, diskError = some err →
    out.journal.file = file ∧ out.report.snapshotError = some err

/-- What a replay that finds this boot's header does, in the loop's terms. -/
theorem replay_eq (isDefault : S → Bool) (apply : W → S → Op → Option X × W) (ref : Refusals X)
    (journal : SwitchJournal K S) (w₀ : W) (header headerNow : Header) (when : When)
    (diskError : Option String) (hheader : (read journal.file).1 = some header)
    (hboot : header.bootId = headerNow.bootId) :
    ∃ st, st = replayLoop isDefault apply ref
        (header.p4infoSha256.isNone || header.p4infoSha256 != headerNow.p4infoSha256)
        (header.entriesSha256 != headerNow.entriesSha256) w₀
        (foldRecords isDefault (read journal.file).2.1) ∧
      let out := replay isDefault apply ref journal w₀ headerNow when diskError
      out.world = st.world ∧ out.sent = st.sent ∧ out.report.failed = st.failed ∧
      out.report.restored = st.restored.map NetItem.entry ∧
      out.report.attempted = (foldRecords isDefault (read journal.file).2.1).length ∧
      out.report.succeeded = st.restored.length ∧
      (diskError = none → out.journal.file = writeSnapshot headerNow (recordsFromNet
        ((foldRecords isDefault (read journal.file).2.1).filter fun item =>
          item.key ∈ st.restored.map NetItem.key ++ st.keptUnknown.map NetItem.key))) ∧
      (∀ err, diskError = some err →
        out.journal.file = journal.file ∧ out.report.snapshotError = some err) := by
  refine ⟨_, rfl, ?_⟩
  cases diskError <;> simp [replay, replayNet, hheader, hboot, snapshot]

/-- All that a replay can do to the file and hand to the writer: nothing is sent for a
file of another boot, which is set aside; of a file of this boot, items of its fold are
sent, and some are kept. -/
theorem replay_cases (isDefault : S → Bool) (apply : W → S → Op → Option X × W)
    (ref : Refusals X) (journal : SwitchJournal K S) (w₀ : W) (headerNow : Header) (when : When)
    (diskError : Option String) :
    let out := replay isDefault apply ref journal w₀ headerNow when diskError
    let net := foldRecords isDefault (read journal.file).2.1
    (out.sent = [] ∧
        (out.journal.file = journal.file ∨ out.journal.file = writeSnapshot headerNow [])) ∨
      ((∃ header, (read journal.file).1 = some header ∧ header.bootId = headerNow.bootId) ∧
        (∀ p ∈ out.sent, ∃ item ∈ net, p.1 = item.spec) ∧
        (out.journal.file = journal.file ∨ ∃ kept : List (NetItem K S), (∀ i ∈ kept, i ∈ net) ∧
          out.journal.file = writeSnapshot headerNow (recordsFromNet kept))) := by
  have hskip : ∀ report : Report K S,
      (skipUnconfirmed journal w₀ headerNow diskError report).sent = [] ∧
        ((skipUnconfirmed journal w₀ headerNow diskError report).journal.file = journal.file ∨
          (skipUnconfirmed journal w₀ headerNow diskError report).journal.file
            = writeSnapshot headerNow []) := by
    intro report
    cases diskError with
    | none => exact ⟨rfl, Or.inr rfl⟩
    | some err => exact ⟨rfl, Or.inl rfl⟩
  intro out net
  cases hheader : (read journal.file).1 with
  | none =>
    left
    simp only [out, replay, hheader]
    exact hskip _
  | some header =>
    by_cases hboot : header.bootId = headerNow.bootId
    · right
      obtain ⟨st, hst, -, hsent, -, -, -, -, hfile, herr⟩ :=
        replay_eq isDefault apply ref journal w₀ header headerNow when diskError hheader hboot
      refine ⟨⟨header, rfl, hboot⟩, ?_, ?_⟩
      · intro p hp
        rw [hsent, hst] at hp
        exact replayLoop_sent _ _ w₀ net p hp
      · cases diskError with
        | none => exact Or.inr ⟨_, fun i hi => List.mem_of_mem_filter hi, hfile rfl⟩
        | some err => exact Or.inl (herr err rfl).1
    · left
      simp only [out, replay, hheader, hboot, if_false]
      exact hskip _

/-- A replay is honest where no two keys of the fold name one entry of the switch. -/
theorem honest_of_nodup (hw : WriterSound apply ref keyOf entryOf table)
    (journal : SwitchJournal K S) (w₀ : W) (header headerNow : Header) (when : When)
    (diskError : Option String) (hheader : (read journal.file).1 = some header)
    (hboot : header.bootId = headerNow.bootId)
    (hentries : ((foldRecords isDefault (read journal.file).2.1).map fun item =>
      keyOf item.spec).Nodup) :
    (replay isDefault apply ref journal w₀ headerNow when diskError).Honest isDefault keyOf
      entryOf table journal.file (read journal.file).2.1 w₀ diskError := by
  obtain ⟨st, hst, hworld, hsent, hfailed, hrestored, hattempted, hsucceeded, hfile, herr⟩ :=
    replay_eq isDefault apply ref journal w₀ header headerNow when diskError hheader hboot
  generalize hout : replay isDefault apply ref journal w₀ headerNow when diskError = out at *
  set recs := (read journal.file).2.1 with hrecs
  set net := foldRecords isDefault recs with hnet
  have hnodup : (net.map NetItem.key).Nodup := nodup_foldRecords_key isDefault recs
  have hinv : LoopInv keyOf entryOf table w₀ net st := by
    rw [hst]
    exact replayLoop_inv hw _ _ w₀ net hentries
  have hrkeys : out.report.restored.map Entry.key = st.restored.map NetItem.key := by
    rw [hrestored, List.map_map]; rfl
  have hdisj : (st.restored.map NetItem.key ++ st.failed.map fun f => f.entry.key).Nodup :=
    hinv.settled.nodup_iff.mpr hnodup
  have hkept : ∀ k, k ∈ st.keptUnknown.map NetItem.key ↔
      ∃ f ∈ st.failed, f.kept = true ∧ f.entry.key = k := by
    intro k
    have : st.keptUnknown.map NetItem.key =
        (st.failed.filter Failure.kept).map fun f => f.entry.key := by
      have := congrArg (List.map Entry.key) hinv.kept
      rw [List.map_map, List.map_map] at this
      exact this
    simp only [this, List.mem_map, List.mem_filter, and_assoc]
  refine ⟨?_, hattempted, ?_, ?_, ?_, ?_, ?_, herr⟩
  · intro item hi
    have hmem := hinv.settled.mem_iff.mpr (List.mem_map.mpr ⟨item, hi, rfl⟩)
    have hsep := (List.nodup_append.mp hdisj).2.2
    rw [hrkeys, hfailed]
    rcases List.mem_append.mp hmem with hr | hf
    · exact Or.inl ⟨hr, fun hf => hsep _ hr _ hf rfl⟩
    · exact Or.inr ⟨fun hr => hsep _ hr _ hf rfl, hf⟩
  · have hlen := hinv.settled.length_eq
    simp only [List.length_append, List.length_map] at hlen
    rw [hattempted, hsucceeded, hfailed, hlen]
  · intro e he
    rw [hrestored, List.mem_map] at he
    obtain ⟨i, hi, rfl⟩ := he
    obtain ⟨hin, htab⟩ := hinv.restored i hi
    obtain ⟨l, hl, hspec, hop⟩ := netOf_last ((mem_foldRecords isDefault).mp hin)
    refine ⟨l, hl, ?_⟩
    rw [hworld, ← hspec, htab, NetItem.target, effect_congr hspec hop, effect_eq_ite, hspec]
  · intro k hk
    rw [hworld]
    exact hinv.frame k hk
  · intro p hp
    rw [hsent, hst] at hp
    exact replayLoop_sent _ _ w₀ net p hp
  · intro hdisk
    have hfold : ∀ item ∈ net.filter fun item =>
        item.key ∈ st.restored.map NetItem.key ++ st.keptUnknown.map NetItem.key,
        item.Foldable isDefault := fun item hi =>
      foldable_of_mem_foldRecords isDefault (List.mem_of_mem_filter hi)
    have hsub : ((net.filter fun item => item.key ∈ st.restored.map NetItem.key ++
        st.keptUnknown.map NetItem.key).map NetItem.key).Nodup :=
      hnodup.sublist (List.filter_sublist.map _)
    have hsnap : foldRecords isDefault (read out.journal.file).2.1 =
        foldRecords isDefault ((recordsFromNet (net.filter fun item =>
          item.key ∈ st.restored.map NetItem.key ++ st.keptUnknown.map NetItem.key)).map
            Line.record) := by
      refine foldRecords_congr isDefault ?_
      rw [filterMap_record?_read, hfile hdisk, filterMap_record?_writeSnapshot,
        filterMap_record?_map_record]
    rw [hsnap, foldRecords_recordsFromNet isDefault hsub hfold, hrkeys, hfailed]
    congr 1
    refine List.filter_congr ?_
    intro item _
    rw [Bool.eq_iff_iff]
    simp only [List.mem_append, hkept, decide_eq_true_eq, Bool.or_eq_true, List.any_eq_true,
      Bool.and_eq_true]

/-- Where every record carries the digest of the entry its own spec names, as `record`
writes it, no two keys of the fold name one entry.  Two entries of one digest are not
excluded: only the last one's write is in the fold. -/
theorem nodup_of_digest {file : List (Line K S)} (digest : Q → K)
    (hkey : ∀ rec ∈ file.filterMap Line.record?, rec.key = digest (keyOf rec.spec)) :
    ((foldRecords isDefault (read file).2.1).map fun item => keyOf item.spec).Nodup := by
  -- an item's key is the digest of the entry its spec names
  have hitem : ∀ item ∈ foldRecords isDefault (read file).2.1,
      digest (keyOf item.spec) = item.key := by
    intro item hi
    obtain ⟨l, hl, hspec, -⟩ := netOf_last ((mem_foldRecords isDefault).mp hi)
    have hmem := (mem_ofKey Record.key).mp (List.mem_of_getLast? hl)
    rw [hspec, ← hmem.2]
    refine (hkey l ?_).symm
    rw [← filterMap_record?_read]
    exact hmem.1
  have hkeys : ((foldRecords isDefault (read file).2.1).map fun item => keyOf item.spec).map digest =
      (foldRecords isDefault (read file).2.1).map NetItem.key := by
    rw [List.map_map]
    exact List.map_congr_left hitem
  exact List.Nodup.of_map digest (hkeys ▸ nodup_foldRecords_key isDefault _)

variable {hashable : K → Bool} {isObject : S → Bool}

/-- A replay whose fold returns is one that returns. -/
theorem replay?_eq_ok {journal : SwitchJournal K S} {net : List (NetItem K S)}
    (hfold : foldRecords? isDefault hashable isObject (read journal.file).2.1 = .ok net) (w₀ : W)
    (headerNow : Header) (when : When) (diskError : Option String) :
    replay? isDefault apply ref hashable isObject journal w₀ headerNow when diskError =
      .ok (replay isDefault apply ref journal w₀ headerNow when diskError) := by
  obtain rfl := ((foldRecords?_eq_ok_iff ..).mp hfold).1
  unfold replay? replay
  cases hread : read journal.file with
  | mk header rest =>
    rw [hread] at hfold
    cases header with
    | none => rfl
    | some header =>
      dsimp only
      split
      · rw [hfold]
        rfl
      · rfl

/-- **A replay is honest**, whatever the switch answered: over any file whose header names
this boot, that can be folded, and of whose fold no two keys name one entry of the switch,
and with a writer that keeps its contract. -/
theorem replay_honest (hw : WriterSound apply ref keyOf entryOf table)
    (journal : SwitchJournal K S) (w₀ : W) (header headerNow : Header) (when : When)
    (diskError : Option String) (hheader : (read journal.file).1 = some header)
    (hboot : header.bootId = headerNow.bootId) {net : List (NetItem K S)}
    (hfold : foldRecords? isDefault hashable isObject (read journal.file).2.1 = .ok net)
    (hentries : (net.map fun item => keyOf item.spec).Nodup) :
    ∃ out, replay? isDefault apply ref hashable isObject journal w₀ headerNow when diskError
        = .ok out ∧
      out.Honest isDefault keyOf entryOf table journal.file (read journal.file).2.1 w₀
        diskError := by
  refine ⟨_, replay?_eq_ok hfold w₀ headerNow when diskError, ?_⟩
  obtain rfl := ((foldRecords?_eq_ok_iff ..).mp hfold).1
  exact honest_of_nodup hw journal w₀ header headerNow when diskError hheader hboot hentries

/-- Every file that `record` wrote is such a file. -/
theorem recorded_honest (hw : WriterSound apply ref keyOf entryOf table)
    (journal : SwitchJournal K S) (w₀ : W) (header headerNow : Header) (when : When)
    (diskError : Option String) (hheader : (read journal.file).1 = some header)
    (hboot : header.bootId = headerNow.bootId) (digest : Q → K)
    (hkey : ∀ rec ∈ journal.file.filterMap Line.record?,
      rec.key = digest (keyOf rec.spec) ∧ hashable rec.key = true ∧ isObject rec.spec = true) :
    ∃ out, replay? isDefault apply ref hashable isObject journal w₀ headerNow when diskError
        = .ok out ∧
      out.Honest isDefault keyOf entryOf table journal.file (read journal.file).2.1 w₀
        diskError := by
  have hfold : foldRecords? isDefault hashable isObject (read journal.file).2.1 =
      .ok (foldRecords isDefault (read journal.file).2.1) := by
    rw [foldRecords?_eq_ok_iff, filterMap_record?_read]
    refine ⟨rfl, fun rec hrec => (hkey rec hrec).2.1, fun k l hl => ?_⟩
    exact (hkey l ((mem_ofKey Record.key).mp (List.mem_of_getLast? hl)).1).2.2
  exact ⟨_, replay?_eq_ok hfold w₀ headerNow when diskError,
    honest_of_nodup hw journal w₀ header headerNow when diskError hheader hboot
      (nodup_of_digest digest fun rec hrec => (hkey rec hrec).1)⟩

/-- A file of three records on a switch that has entry `2`: the insert of `1` goes
back, and the insert of `2`, which began unknown, goes back as a modify. -/
theorem replay_honest_pairs :
    let journal : SwitchJournal ℕ (ℕ × ℕ) :=
      ⟨[.header ⟨none, some "p4", none, some "boot"⟩, .record ⟨.insert, 1, (1, 5), .ok⟩,
        .record ⟨.delete, 2, (2, 0), .notFound⟩, .torn, .record ⟨.insert, 2, (2, 6), .ok⟩],
        none, 0, 0, 0, none⟩
    ∃ out, replay? Codec.pairs.isDefault (replayWrite Codec.pairs) Refusal.refusals (fun _ => true)
        (fun _ => true) journal (fun k => if k = 2 then some 9 else none)
        ⟨none, some "p4", none, some "boot"⟩ .startup none = .ok out ∧
      out.Honest Codec.pairs.isDefault Codec.pairs.keyOf Codec.pairs.entryOf (fun t => t)
        journal.file (read journal.file).2.1 (fun k => if k = 2 then some 9 else none) none :=
  replay_honest (replayWrite_sound Codec.pairs) _ _ _ _ _ none rfl rfl rfl (by decide)

/-- Two keys for one entry: an insert under one, and its delete under the other. -/
def twoNames : SwitchJournal ℕ (ℕ × ℕ) where
  file := [.header ⟨none, some "p4", none, some "boot"⟩, .record ⟨.insert, 100, (5, 1), .ok⟩,
    .record ⟨.delete, 200, (5, 1), .ok⟩]
  fabric := none
  failures := 0
  recorded := 0
  notFound := 0
  replay := none

/-- **Both keys are said to be restored**, and the entry that the first is of is gone. -/
theorem twoNames_not_honest :
    WriterSound (replayWrite Codec.pairs) Refusal.refusals Codec.pairs.keyOf Codec.pairs.entryOf
        (fun t => t) ∧
      ∃ out, replay? Codec.pairs.isDefault (replayWrite Codec.pairs) Refusal.refusals (fun _ => true)
          (fun _ => true) twoNames (fun _ => none) ⟨none, some "p4", none, some "boot"⟩ .startup none
          = .ok out ∧
        out.report.restored.map Entry.key = [100, 200] ∧ out.world 5 = none ∧
        ¬ out.Honest Codec.pairs.isDefault Codec.pairs.keyOf Codec.pairs.entryOf (fun t => t)
          twoNames.file (read twoNames.file).2.1 (fun _ => none) none := by
  refine ⟨replayWrite_sound Codec.pairs, _, rfl, rfl, rfl, ?_⟩
  intro h
  obtain ⟨l, hl, hpresent⟩ := h.restored ⟨100, .insert, (5, 1)⟩ (by decide)
  cases hl
  cases hpresent

end Theorem

end Honest

end Journal
end NDTwin
