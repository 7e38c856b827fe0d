import Mathlib
import NDTwin.Lib.Dict
import NDTwin.Lib.Episodes
import NDTwin.Lib.Fixed
import NDTwin.Lib.Json

/-!
# Reporting failures once

A loop that re-checks the same conditions thousands of times a second records every failure it meets
with `KeyedFailureLog` and closes the pass with `endPass`, which reports only the edges: a failure
that has lasted for the report delay, once, and the end of one that was reported.

Every key is a machine of its own.  `pass_of_key` says what a pass does to a key's entry and which
notices it issues for the key; the rest is about one key and the moments it was recorded at.

## Main definitions

* `KeyedFailureLog`, `record`, `endPass` — the log.
* `Pass`, `runPass`, `Passes` — the passes of a loop, at times that do not go back.
* `Passes.Recorded`, `Passes.Near` — the recordings of a key, and which of them belong together.
* `noticesOf`, `Alternate` — the notices of a key, and notices that take turns.
* `Passes.Tracks` — what the entry of a key says about the key's episodes.

## Main results

* `pass_of_key` — **what a pass does to one key.**
* `Passes.Tracks.step` — the entry of a key follows the episode the key is in.
* `Passes.failures_reported_once` — **a failure is reported once, late enough, and closed once.**
-/

namespace NDTwin
namespace Telemetry

/-! ### The log -/

/-- What is kept of a failure; `passes` is a `uint64_t`. -/
structure Entry where
  firstSeen : ℤ
  lastSeen : ℤ
  passes : ℕ
  reported : Bool
  deriving DecidableEq, Repr

/-- `KeyedFailureLog`. -/
structure KeyedFailureLog where
  thisPass : Dict String String
  opened : Dict String Entry
  reportAfter : ℤ
  forgetAfter : ℤ

/-- What `endPass` found. -/
structure Report where
  newFailures : List (String × String)
  recovered : List (String × ℕ)

namespace KeyedFailureLog

/-- The constructor; an absent forget interval is twice the report delay. -/
def new (reportAfter : ℤ) (forgetAfter : Option ℤ) : KeyedFailureLog :=
  ⟨.empty, .empty, reportAfter, forgetAfter.getD (reportAfter * 2)⟩

/-- `record(key, message)`. -/
def record (log : KeyedFailureLog) (key message : String) : KeyedFailureLog :=
  { log with thisPass := log.thisPass.set key message }

/-- A map in the order of its keys, as a loop over it goes. -/
def inOrder {V : Type*} (d : Dict String V) : List (String × V) := Json.sortFields d.entries

/-- Whether the first loop of `endPass` drops an entry. -/
def expires (log : KeyedFailureLog) (now : ℤ) (e : Entry) : Bool :=
  log.forgetAfter ≤ now - e.lastSeen && 0 < log.forgetAfter

/-- Whether its last loop does. -/
def isGone (log : KeyedFailureLog) (now : ℤ) (key : String) (e : Entry) : Bool :=
  (log.thisPass.get? key).isNone && log.forgetAfter ≤ now - e.lastSeen

/-- The recovery that a loop reports of an entry. -/
def recovery (drops : String → Entry → Bool) (p : String × Entry) : Option (String × ℕ) :=
  if drops p.1 p.2 && p.2.reported then some (p.1, p.2.passes) else none

/-- The recoveries that a loop reports of the entries it drops. -/
def recoveries (drops : String → Entry → Bool) (opened : Dict String Entry) : List (String × ℕ) :=
  (inOrder opened).filterMap (recovery drops)

/-- The entry of a key that is recorded, before anything is reported. -/
def seen (now : ℤ) : Option Entry → Entry
  | none => ⟨now, now, 1, false⟩
  | some e => { e with passes := Fixed.succU 64 e.passes, lastSeen := now }

/-- Whether an entry is to be reported now. -/
def isDue (reportAfter now : ℤ) (e : Entry) : Bool :=
  !e.reported && reportAfter ≤ now - e.firstSeen

/-- One turn of the loop over what the pass recorded. -/
def recordOne (reportAfter now : ℤ) (st : Dict String Entry × List (String × String))
    (p : String × String) : Dict String Entry × List (String × String) :=
  let e := seen now (st.1.get? p.1)
  if isDue reportAfter now e then
    (st.1.set p.1 { e with reported := true }, st.2 ++ [p])
  else (st.1.set p.1 e, st.2)

/-- `endPass(now)`: expire, record, prune. -/
def endPass (log : KeyedFailureLog) (now : ℤ) : KeyedFailureLog × Report :=
  let expires := fun (_ : String) e => log.expires now e
  let kept := log.opened.filter fun key e => !expires key e
  let (open', newFailures) := (inOrder log.thisPass).foldl (recordOne log.reportAfter now) (kept, [])
  ({ log with
      thisPass := .empty
      opened := open'.filter fun key e => !log.isGone now key e },
    ⟨newFailures, recoveries expires log.opened ++ recoveries (log.isGone now) open'⟩)

end KeyedFailureLog

/-! ### One key -/

open KeyedFailureLog

theorem inOrder_perm {V : Type*} (d : Dict String V) : (inOrder d).Perm d.entries :=
  List.perm_insertionSort _ _

theorem filter_inOrder {V : Type*} (d : Dict String V) (key : String) :
    (inOrder d).filter (fun p => p.1 = key) = ((d.get? key).map fun v => (key, v)).toList := by
  have hperm := (inOrder_perm d).filter fun p => p.1 = key
  rw [d.filter_key] at hperm
  cases hget : d.get? key with
  | none =>
    rw [hget] at hperm
    exact hperm.eq_nil
  | some v =>
    rw [hget] at hperm
    exact List.perm_singleton.mp hperm

theorem filter_filterMap_key {U V : Type*} {f : String × U → Option (String × V)}
    (hf : ∀ p q, f p = some q → q.1 = p.1) (l : List (String × U)) (key : String) :
    (l.filterMap f).filter (fun q => q.1 = key) = (l.filter fun p => p.1 = key).filterMap f := by
  induction l with
  | nil => rfl
  | cons p l ih =>
    cases hp : f p with
    | none => by_cases hkey : p.1 = key <;> simp [hp, hkey, ih]
    | some q =>
      have hq := hf p q hp
      by_cases hkey : p.1 = key <;> simp [hp, hkey, hq, ih]

/-- The recoveries a loop reports of one key. -/
theorem filter_recoveries (drops : String → Entry → Bool) (opened : Dict String Entry) (key : String) :
    (recoveries drops opened).filter (fun p => p.1 = key) =
      ((opened.get? key).bind fun e => recovery drops (key, e)).toList := by
  have hkey : ∀ p q, recovery drops p = some q → q.1 = p.1 := by
    intro p q h
    unfold recovery at h
    split at h
    · cases h
      rfl
    · cases h
  rw [recoveries, filter_filterMap_key hkey, filter_inOrder]
  cases opened.get? key with
  | none => rfl
  | some e =>
    simp only [Option.map_some, Option.toList_some, Option.bind_some, List.filterMap_cons,
      List.filterMap_nil]
    cases recovery drops (key, e) <;> rfl

/-- The entry of a key that is recorded, reported if it is due. -/
def touched (reportAfter now : ℤ) (e : Option Entry) : Entry :=
  { seen now e with reported := (seen now e).reported || isDue reportAfter now (seen now e) }

theorem recordOne_fst (reportAfter now : ℤ) (st : Dict String Entry × List (String × String))
    (p : String × String) : (recordOne reportAfter now st p).1 =
      st.1.set p.1 (touched reportAfter now (st.1.get? p.1)) := by
  unfold recordOne touched
  cases hdue : isDue reportAfter now (seen now (st.1.get? p.1)) with
  | true => simp [hdue]
  | false => simp [hdue]

theorem recordOne_snd (reportAfter now : ℤ) (st : Dict String Entry × List (String × String))
    (p : String × String) : (recordOne reportAfter now st p).2 =
      st.2 ++ if isDue reportAfter now (seen now (st.1.get? p.1)) then [p] else [] := by
  unfold recordOne
  cases hdue : isDue reportAfter now (seen now (st.1.get? p.1)) with
  | true => simp [hdue]
  | false => simp [hdue]

/-- What the loop over the pass does to one key. -/
theorem foldl_recordOne (reportAfter now : ℤ) {ps : List (String × String)}
    (hps : (ps.map Prod.fst).Nodup) (st : Dict String Entry × List (String × String))
    (key : String) :
    (ps.foldl (recordOne reportAfter now) st).1.get? key =
      (if key ∈ ps.map Prod.fst then some (touched reportAfter now (st.1.get? key))
      else st.1.get? key) ∧
    (ps.foldl (recordOne reportAfter now) st).2.filter (fun p => p.1 = key) =
      st.2.filter (fun p => p.1 = key) ++
        if isDue reportAfter now (seen now (st.1.get? key)) then ps.filter (fun p => p.1 = key)
        else [] := by
  induction ps generalizing st with
  | nil => simp
  | cons p ps ih =>
    obtain ⟨hnot, hps'⟩ := List.nodup_cons.mp hps
    obtain ⟨hget, hnew⟩ := ih hps' (recordOne reportAfter now st p)
    rw [List.foldl_cons, hget, hnew, recordOne_fst, recordOne_snd]
    by_cases hkey : p.1 = key
    · subst hkey
      have hnone : ps.filter (fun q => q.1 = p.1) = [] := Dict.filter_key_of_not_mem hnot
      refine ⟨?_, ?_⟩
      · rw [if_neg hnot, Dict.get?_set_self, if_pos (by simp)]
      · rw [hnone, ite_self, List.append_nil, List.filter_append]
        congr 1
        cases isDue reportAfter now (seen now (st.1.get? p.1)) with
        | true => simp [hnone]
        | false => rfl
    · have hne : key ≠ p.1 := fun h => hkey h.symm
      refine ⟨?_, ?_⟩
      · have hmem : key ∈ (p :: ps).map Prod.fst ↔ key ∈ ps.map Prod.fst := by
          rw [List.map_cons, List.mem_cons, or_iff_right hne]
        rw [Dict.get?_set_of_ne _ _ hne]
        simp only [hmem]
      · rw [Dict.get?_set_of_ne _ _ hne, List.filter_append]
        have hself : ∀ b : Bool, (if b then [p] else []).filter (fun q => q.1 = key) = [] := by
          intro b
          cases b <;> simp [hkey]
        rw [hself, List.append_nil, List.filter_cons_of_neg (by simpa using hkey)]

/-! ### Sequences of passes -/

/-- One turn of the loop that uses the log: what it records, and when the pass ends. -/
structure Pass where
  now : ℤ
  records : List (String × String)

/-- A pass: everything is recorded, then the pass is closed. -/
def runPass (log : KeyedFailureLog) (pass : Pass) : KeyedFailureLog × Report :=
  (pass.records.foldl (fun log p => log.record p.1 p.2) log).endPass pass.now

/-- What a pass issues for a key. -/
inductive Notice where
  | failure
  | recovery
  deriving DecidableEq, Repr

/-- The notices of a key in a report.  Where a pass issues both, the recovery closes the episode that
had expired before the pass began another. -/
def noticesOf (key : String) (report : Report) : List Notice :=
  (report.recovered.filter fun p => p.1 = key).map (fun _ => .recovery) ++
    (report.newFailures.filter fun p => p.1 = key).map fun _ => .failure

/-- The recovery of an entry that is dropped. -/
def recoveryNotice (drops : Entry → Bool) : Option Entry → List Notice
  | some e => if drops e && e.reported then [.recovery] else []
  | none => []

theorem foldl_record (log : KeyedFailureLog) (records : List (String × String)) :
    records.foldl (fun log p => log.record p.1 p.2) log =
      { log with thisPass := records.foldl (fun d p => d.set p.1 p.2) log.thisPass } := by
  induction records generalizing log with
  | nil => rfl
  | cons p records ih => rw [List.foldl_cons, ih]; rfl

theorem mem_keys_ofList (records : List (String × String)) (key : String) :
    ((Dict.ofList records).get? key).isSome = true ↔ key ∈ records.map Prod.fst := by
  induction records using List.reverseRecOn with
  | nil => simp [Dict.ofList]
  | append_singleton records p ih =>
    rw [Dict.ofList, List.foldl_append, ← Dict.ofList]
    simp only [List.foldl_cons, List.foldl_nil, Dict.get?_set]
    by_cases hkey : key = p.1
    · simp [hkey]
    · rw [if_neg hkey, ih]
      simp [hkey]

/-- Whether a pass drops the entry of a key, before it records the key or after. -/
def KeyedFailureLog.isOver (log : KeyedFailureLog) (now : ℤ) (isRecorded : Bool) (e : Entry) : Bool :=
  log.expires now e || (!isRecorded && log.forgetAfter ≤ now - e.lastSeen)

/-- What is left of a key's entry when a pass has dropped it or not. -/
def KeyedFailureLog.survivor (log : KeyedFailureLog) (now : ℤ) (isRecorded : Bool)
    (e : Option Entry) : Option Entry :=
  e.filter fun e => !log.isOver now isRecorded e

theorem recoveryNotice_append (drops drops' : Entry → Bool) (e : Option Entry) :
    recoveryNotice drops e ++ recoveryNotice drops' (e.filter fun e => !drops e) =
      recoveryNotice (fun e => drops e || drops' e) e := by
  cases e with
  | none => rfl
  | some e =>
    cases h : drops e with
    | true => simp [recoveryNotice, Option.filter, h]
    | false => simp [recoveryNotice, Option.filter, h]

theorem map_recoveries (drops : String → Entry → Bool) (opened : Dict String Entry) (key : String) :
    ((recoveries drops opened).filter fun p => p.1 = key).map (fun _ => Notice.recovery) =
      recoveryNotice (drops key) (opened.get? key) := by
  rw [filter_recoveries]
  cases opened.get? key with
  | none => rfl
  | some e =>
    simp only [Option.bind_some, recovery, recoveryNotice]
    split <;> rfl

/-- What the end of a pass does to one key: its entry is dropped or not, then recorded or not. -/
theorem endPass_of_key (log : KeyedFailureLog) (now : ℤ) (key : String) :
    let isRecorded := (log.thisPass.get? key).isSome
    let left := log.survivor now isRecorded (log.opened.get? key)
    (log.endPass now).1.opened.get? key =
      (if isRecorded then some (touched log.reportAfter now left) else left) ∧
    noticesOf key (log.endPass now).2 =
      recoveryNotice (log.isOver now isRecorded) (log.opened.get? key) ++
        if isRecorded && isDue log.reportAfter now (seen now left) then [.failure] else [] := by
  intro isRecorded left
  have hperm := (inOrder_perm log.thisPass).map Prod.fst
  have hmem : key ∈ (inOrder log.thisPass).map Prod.fst ↔ isRecorded = true := by
    rw [hperm.mem_iff]
    exact log.thisPass.mem_keys_iff key
  have hfilter := filter_inOrder log.thisPass key
  obtain ⟨hget, hnew⟩ := foldl_recordOne log.reportAfter now
    (hperm.nodup_iff.mpr log.thisPass.nodup) (log.opened.filter fun _ e => !log.expires now e, []) key
  rw [Dict.get?_filter] at hget hnew
  -- the last loop drops nothing that this pass recorded
  have hgone : log.isGone now key = fun e => !isRecorded && log.forgetAfter ≤ now - e.lastSeen := by
    funext e
    rw [isGone, ← Option.not_isSome]
  have hopened : (log.endPass now).1.opened.get? key = Option.filter (fun e => !log.isGone now key e)
      (((inOrder log.thisPass).foldl (recordOne log.reportAfter now)
        (log.opened.filter fun _ e => !log.expires now e, [])).1.get? key) :=
    Dict.get?_filter _ _ _
  have hnotices : noticesOf key (log.endPass now).2 =
      recoveryNotice (log.expires now) (log.opened.get? key) ++
        recoveryNotice (log.isGone now key) (((inOrder log.thisPass).foldl
          (recordOne log.reportAfter now)
          (log.opened.filter fun _ e => !log.expires now e, [])).1.get? key) ++
        (((inOrder log.thisPass).foldl (recordOne log.reportAfter now)
          (log.opened.filter fun _ e => !log.expires now e, [])).2.filter
            fun p => p.1 = key).map fun _ => .failure := by
    rw [noticesOf, endPass, List.filter_append, List.map_append, map_recoveries, map_recoveries]
  rw [hopened, hnotices, hget, hnew, hgone]
  simp only [hmem, hfilter]
  cases hrec : log.thisPass.get? key with
  | some message =>
    have hover : log.isOver now true = log.expires now := by
      funext e
      simp [isOver]
    have hleft : log.survivor now true (log.opened.get? key) =
        (log.opened.get? key).filter fun e => !log.expires now e := by
      rw [survivor, hover]
    refine ⟨by simp [isRecorded, left, hrec, hleft], ?_⟩
    simp only [isRecorded, left, hrec, Option.isSome_some, hleft, hover]
    cases isDue log.reportAfter now
      (seen now ((log.opened.get? key).filter fun e => !log.expires now e)) with
    | true => simp [recoveryNotice]
    | false => simp [recoveryNotice]
  | none =>
    have hover : log.isOver now false =
        fun e => log.expires now e || log.forgetAfter ≤ now - e.lastSeen := by
      funext e
      simp [isOver]
    refine ⟨by simp [isRecorded, left, hrec, survivor, isOver], ?_⟩
    simp [isRecorded, hrec, hover, ← recoveryNotice_append]

/-- **What a pass does to one key.** -/
theorem pass_of_key {log : KeyedFailureLog} (hempty : log.thisPass = .empty) (pass : Pass)
    (key : String) :
    let isRecorded := decide (key ∈ pass.records.map Prod.fst)
    let left := log.survivor pass.now isRecorded (log.opened.get? key)
    (runPass log pass).1.opened.get? key =
      (if isRecorded then some (touched log.reportAfter pass.now left) else left) ∧
    noticesOf key (runPass log pass).2 =
      recoveryNotice (log.isOver pass.now isRecorded) (log.opened.get? key) ++
        if isRecorded && isDue log.reportAfter pass.now (seen pass.now left) then [.failure]
        else [] := by
  intro isRecorded left
  have hlog : pass.records.foldl (fun log p => log.record p.1 p.2) log =
      { log with thisPass := Dict.ofList pass.records } := by
    rw [foldl_record, hempty]
    rfl
  have hrec : ((Dict.ofList pass.records).get? key).isSome = isRecorded := by
    rw [Bool.eq_iff_iff, mem_keys_ofList, decide_eq_true_iff]
  have hend := endPass_of_key { log with thisPass := Dict.ofList pass.records } pass.now key
  simp only [hrec] at hend
  rw [runPass, hlog]
  exact hend

/-! ### Alternation -/

/-- The notice that comes after another. -/
def Notice.other : Notice → Notice
  | .failure => .recovery
  | .recovery => .failure

/-- Notices that take turns, from a given one on. -/
def Alternate : Notice → List Notice → Prop
  | _, [] => True
  | next, x :: xs => x = next ∧ Alternate next.other xs

/-- The notice that is next after a list of them. -/
def nextAfter (next : Notice) (xs : List Notice) : Notice := xs.foldl (fun n _ => n.other) next

theorem alternate_append (next : Notice) (xs ys : List Notice) :
    Alternate next (xs ++ ys) ↔ Alternate next xs ∧ Alternate (nextAfter next xs) ys := by
  induction xs generalizing next with
  | nil => simp [Alternate, nextAfter]
  | cons x xs ih => simp [Alternate, nextAfter, ih, and_assoc]

theorem nextAfter_append (next : Notice) (xs ys : List Notice) :
    nextAfter next (xs ++ ys) = nextAfter (nextAfter next xs) ys := List.foldl_append

/-- The notice that is next for an entry: a recovery once it was reported. -/
def nextOf (e : Option Entry) : Notice := if e.any Entry.reported then .recovery else .failure

/-- Dropping an entry is reported if the entry was. -/
theorem alternate_recoveryNotice (drops : Entry → Bool) (e : Option Entry) :
    Alternate (nextOf e) (recoveryNotice drops e) ∧
      nextAfter (nextOf e) (recoveryNotice drops e) = nextOf (e.filter fun e => !drops e) := by
  cases e with
  | none => exact ⟨trivial, rfl⟩
  | some e =>
    cases hdrop : drops e <;> cases hrep : e.reported <;>
      simp [recoveryNotice, nextOf, nextAfter, Alternate, Notice.other, Option.filter_some, hdrop,
        hrep]

/-- Recording a key is reported if its entry was not and is now. -/
theorem alternate_failure (reportAfter now : ℤ) (e : Option Entry) :
    let due := if isDue reportAfter now (seen now e) then [Notice.failure] else []
    Alternate (nextOf e) due ∧
      nextAfter (nextOf e) due = nextOf (some (touched reportAfter now e)) := by
  have hrep : nextOf e = if (seen now e).reported then .recovery else .failure := by
    cases e <;> rfl
  have htouched : nextOf (some (touched reportAfter now e)) =
      if (seen now e).reported || isDue reportAfter now (seen now e) then .recovery else .failure := rfl
  rw [hrep, htouched]
  cases hdue : isDue reportAfter now (seen now e) with
  | true =>
    have hnot : (seen now e).reported = false := by
      simp only [isDue, Bool.and_eq_true, Bool.not_eq_true'] at hdue
      exact hdue.1
    simp [hnot, Alternate, nextAfter, Notice.other]
  | false => simp [Alternate, nextAfter]

/-! ### Runs -/

/-- A log and the passes it is used for; the clock never goes back. -/
structure Passes where
  reportAfter : ℤ
  forgetAfter : Option ℤ
  pass : ℕ → Pass
  ordered : Monotone fun n => (pass n).now

namespace Passes

variable (r : Passes) (key : String)

/-- The log after some passes. -/
def logAfter : ℕ → KeyedFailureLog
  | 0 => .new r.reportAfter r.forgetAfter
  | n + 1 => (runPass (logAfter n) (r.pass n)).1

/-- The notices of a pass for a key. -/
def noticesAt (n : ℕ) : List Notice := noticesOf key (runPass (r.logAfter n) (r.pass n)).2

/-- The notices of the first passes for a key. -/
def noticesUpTo (n : ℕ) : List Notice := (List.range n).flatMap (r.noticesAt key)

/-- The entry of a key after some passes. -/
def entryAt (n : ℕ) : Option Entry := (r.logAfter n).opened.get? key

/-- When a pass ends. -/
def time (n : ℕ) : ℤ := (r.pass n).now

/-- A pass records a key. -/
def Recorded (n : ℕ) : Prop := key ∈ (r.pass n).records.map Prod.fst

instance (n : ℕ) : Decidable (r.Recorded key n) := inferInstanceAs (Decidable (_ ∈ _))

/-- The forget interval. -/
def forgetInterval : ℤ := r.forgetAfter.getD (r.reportAfter * 2)

/-- Two recordings belong together: they are less than the forget interval apart, or in consecutive
passes where there is none. -/
def Near (j i : ℕ) : Prop :=
  if 0 < r.forgetInterval then r.time i - r.time j < r.forgetInterval else i = j + 1

/-- Whether a pass drops an entry of a key. -/
def drops (n : ℕ) (e : Entry) : Bool :=
  (r.logAfter n).isOver (r.time n) (decide (r.Recorded key n)) e

/-- What a pass leaves of a key's entry, before it records the key. -/
def leftAt (n : ℕ) : Option Entry := (r.entryAt key n).filter fun e => !r.drops key n e

theorem logAfter_fields (n : ℕ) : (r.logAfter n).thisPass = .empty ∧
    (r.logAfter n).reportAfter = r.reportAfter ∧ (r.logAfter n).forgetAfter = r.forgetInterval := by
  induction n with
  | zero => exact ⟨rfl, rfl, rfl⟩
  | succ n ih =>
    refine ⟨rfl, ?_, ?_⟩
    · rw [logAfter, runPass, foldl_record]
      exact ih.2.1
    · rw [logAfter, runPass, foldl_record]
      exact ih.2.2

theorem drops_iff (n : ℕ) (e : Entry) : r.drops key n e = true ↔
    r.forgetInterval ≤ r.time n - e.lastSeen ∧ (0 < r.forgetInterval ∨ ¬ r.Recorded key n) := by
  obtain ⟨-, -, hforget⟩ := r.logAfter_fields n
  simp only [drops, KeyedFailureLog.isOver, expires, hforget, Bool.or_eq_true, Bool.and_eq_true,
    decide_eq_true_eq, Bool.not_eq_true', decide_eq_false_iff_not]
  tauto

theorem entryAt_succ (n : ℕ) : r.entryAt key (n + 1) =
    if r.Recorded key n then some (touched r.reportAfter (r.time n) (r.leftAt key n))
    else r.leftAt key n := by
  obtain ⟨hempty, hreport, -⟩ := r.logAfter_fields n
  have hpass := (pass_of_key hempty (r.pass n) key).1
  rw [hreport] at hpass
  simp only [decide_eq_true_eq] at hpass
  exact hpass

theorem noticesAt_eq (n : ℕ) : r.noticesAt key n =
    recoveryNotice (r.drops key n) (r.entryAt key n) ++
      if r.Recorded key n ∧ isDue r.reportAfter (r.time n) (seen (r.time n) (r.leftAt key n)) = true
      then [.failure] else [] := by
  obtain ⟨hempty, hreport, -⟩ := r.logAfter_fields n
  have hpass := (pass_of_key hempty (r.pass n) key).2
  rw [hreport] at hpass
  simp only [Bool.and_eq_true, decide_eq_true_eq] at hpass
  exact hpass

/-- **The notices of a key take turns**, and the next one is the one its entry calls for. -/
theorem alternate_noticesUpTo (n : ℕ) : Alternate .failure (r.noticesUpTo key n) ∧
    nextAfter .failure (r.noticesUpTo key n) = nextOf (r.entryAt key n) := by
  induction n with
  | zero => exact ⟨trivial, rfl⟩
  | succ n ih =>
    obtain ⟨hdrop, hnext⟩ := alternate_recoveryNotice (r.drops key n) (r.entryAt key n)
    have hstep : Alternate (nextOf (r.entryAt key n)) (r.noticesAt key n) ∧
        nextAfter (nextOf (r.entryAt key n)) (r.noticesAt key n) = nextOf (r.entryAt key (n + 1)) := by
      rw [noticesAt_eq, entryAt_succ, alternate_append, nextAfter_append, hnext]
      by_cases hrec : r.Recorded key n
      · obtain ⟨hdue, hafter⟩ :=
          alternate_failure r.reportAfter (r.time n) (r.leftAt key n)
        simp only [hrec, true_and, if_true]
        exact ⟨⟨hdrop, hdue⟩, hafter⟩
      · simp only [hrec, false_and, if_false]
        exact ⟨⟨hdrop, trivial⟩, rfl⟩
    rw [noticesUpTo, List.range_succ, List.flatMap_append, List.flatMap_singleton, ← noticesUpTo,
      alternate_append, nextAfter_append, ih.2]
    exact ⟨⟨ih.1, hstep.1⟩, hstep.2⟩

/-! ### Episodes -/

open Episodes

/-- An entry is about an episode: the one that began at `s`, and has its last recording at `j`. -/
structure Follows (n : ℕ) (e : Entry) (s j : ℕ) : Prop where
  last : LastBefore (r.Recorded key) j n
  inEpisode : InEpisode (r.Recorded key) r.Near s j
  firstSeen_eq : e.firstSeen = r.time s
  lastSeen_eq : e.lastSeen = r.time j
  reported_iff : e.reported = true ↔
    ∃ i ≤ j, Due (r.Recorded key) r.Near r.time r.reportAfter s i
  adjacent : ¬ 0 < r.forgetInterval → j + 1 = n

/-- What is kept of a key before a pass: the episode that may still go on, if there is one. -/
def Tracks (n : ℕ) : Option Entry → Prop
  | none => ∀ j, LastBefore (r.Recorded key) j n → ∀ i, n ≤ i → ¬ r.Near j i
  | some e => ∃ s j, r.Follows key n e s j

variable {r key}

/-- A pass that records a key drops its entry if the recording is not near the last one. -/
theorem Follows.drops_iff {n s j : ℕ} {e : Entry} (h : r.Follows key n e s j)
    (hrec : r.Recorded key n) : r.drops key n e = true ↔ ¬ r.Near j n := by
  rw [Passes.drops_iff, h.lastSeen_eq, Near]
  split
  · next hpos =>
    simp only [hpos, hrec, not_true_eq_false, or_false, and_true]
    omega
  · next hpos =>
    have hnext := h.adjacent hpos
    simp only [hpos, hrec, not_true_eq_false, or_false, and_false, false_iff]
    omega

/-- A pass that does not record a key drops its entry if no later recording can be near. -/
theorem Follows.not_near_of_drops {n s j : ℕ} {e : Entry} (h : r.Follows key n e s j)
    (hdrop : r.drops key n e = true) {i : ℕ} (hi : n < i) : ¬ r.Near j i := by
  obtain ⟨hle, -⟩ := (r.drops_iff key n e).mp hdrop
  rw [h.lastSeen_eq] at hle
  have hlast := h.last.lt
  have hmono : r.time n ≤ r.time i := r.ordered hi.le
  unfold Near
  split <;> omega

/-- Nothing is dropped without a recording while the last one may still be near. -/
theorem Follows.pos_of_not_drops {n s j : ℕ} {e : Entry} (h : r.Follows key n e s j)
    (habsent : ¬ r.Recorded key n) (hdrop : r.drops key n e = false) : 0 < r.forgetInterval := by
  by_contra hpos
  have hmono : r.time j ≤ r.time n := r.ordered h.last.lt.le
  have : r.drops key n e = true := by
    rw [Passes.drops_iff, h.lastSeen_eq]
    exact ⟨by omega, .inr habsent⟩
  rw [hdrop] at this
  exact Bool.false_ne_true this

theorem leftAt_eq_some_iff {n : ℕ} {e : Entry} :
    r.leftAt key n = some e ↔ r.entryAt key n = some e ∧ r.drops key n e = false := by
  rw [leftAt, Option.filter_eq_some_iff, Bool.not_eq_true']

/-- A recording that finds no entry begins an episode. -/
theorem Tracks.starts {n : ℕ} (h : r.Tracks key n (r.entryAt key n)) (hrec : r.Recorded key n)
    (hleft : r.leftAt key n = none) : Starts (r.Recorded key) r.Near n := by
  refine ⟨hrec, fun j ⟨hlast, _, hnear⟩ => ?_⟩
  cases hentry : r.entryAt key n with
  | none =>
    rw [hentry] at h
    exact h j hlast n (Nat.le_refl n) hnear
  | some e =>
    rw [hentry] at h
    obtain ⟨s, j', hfollows⟩ := h
    have hdrop : r.drops key n e = true := by
      by_contra hdrop
      rw [leftAt_eq_some_iff.mpr ⟨hentry, Bool.eq_false_iff.mpr hdrop⟩] at hleft
      cases hleft
    rw [hlast.unique hfollows.last] at hnear
    exact (hfollows.drops_iff hrec).mp hdrop hnear

/-- A recording that finds an entry goes on with its episode. -/
theorem Tracks.continues {n : ℕ} {e : Entry} (h : r.Tracks key n (r.entryAt key n))
    (hrec : r.Recorded key n) (hleft : r.leftAt key n = some e) :
    ∃ s j, r.Follows key n e s j ∧ Continues (r.Recorded key) r.Near j n := by
  obtain ⟨hentry, hdrop⟩ := leftAt_eq_some_iff.mp hleft
  rw [hentry] at h
  obtain ⟨s, j, hfollows⟩ := h
  refine ⟨s, j, hfollows, hfollows.last, hrec, ?_⟩
  by_contra hnear
  rw [(hfollows.drops_iff hrec).mpr hnear] at hdrop
  cases hdrop

/-- An episode that goes on at a pass is due there or was before. -/
theorem Follows.exists_due_iff {n s j : ℕ} {e : Entry} (h : r.Follows key n e s j)
    (hnext : Continues (r.Recorded key) r.Near j n) :
    (∃ i ≤ n, Due (r.Recorded key) r.Near r.time r.reportAfter s i) ↔
      e.reported = true ∨ r.reportAfter ≤ r.time n - e.firstSeen := by
  rw [h.reported_iff, h.firstSeen_eq]
  constructor
  · rintro ⟨i, hi, hdue⟩
    rcases Nat.lt_or_ge j i with hlt | hle
    · rcases Nat.lt_or_eq_of_le hi with hbefore | rfl
      · exact absurd hdue.1.isSeen (h.last.none_between i hlt hbefore)
      · exact .inr hdue.2
    · exact .inl ⟨i, hle, hdue⟩
  · rintro (⟨i, hi, hdue⟩ | hdue)
    · exact ⟨i, hi.trans h.last.lt.le, hdue⟩
    · exact ⟨n, Nat.le_refl n, .next h.inEpisode hnext, hdue⟩

/-- **A new failure is reported at the first recording that is late enough in its episode.** -/
theorem Tracks.isDue_iff {n : ℕ} (h : r.Tracks key n (r.entryAt key n)) (hrec : r.Recorded key n) :
    isDue r.reportAfter (r.time n) (seen (r.time n) (r.leftAt key n)) = true ↔
      ∃ s, FirstDue (r.Recorded key) r.Near r.time r.reportAfter s n := by
  cases hleft : r.leftAt key n with
  | none =>
    have hfirst : InEpisode (r.Recorded key) r.Near n n := .first (h.starts hrec hleft)
    have hdue : isDue r.reportAfter (r.time n) (seen (r.time n) none) = true ↔
        r.reportAfter ≤ r.time n - r.time n := by
      simp [isDue, seen]
    rw [hdue]
    constructor
    · intro hlate
      refine ⟨n, ⟨hfirst, hlate⟩, ?_⟩
      intro i hi hdue
      exact absurd hdue.1.le (by omega)
    · rintro ⟨s, ⟨hin, hlate⟩, -⟩
      rwa [hin.start_unique hfirst] at hlate
  | some e =>
    obtain ⟨s, j, hfollows, hnext⟩ := h.continues hrec hleft
    have hin : InEpisode (r.Recorded key) r.Near s n := .next hfollows.inEpisode hnext
    have hdue : isDue r.reportAfter (r.time n) (seen (r.time n) (some e)) = true ↔
        ¬ e.reported = true ∧ r.reportAfter ≤ r.time n - r.time s := by
      simp [isDue, seen, hfollows.firstSeen_eq]
    rw [hdue, hfollows.reported_iff]
    constructor
    · rintro ⟨hnot, hlate⟩
      refine ⟨s, ⟨hin, hlate⟩, ?_⟩
      intro i hi hdue
      rcases Nat.lt_or_ge j i with hlt | hle
      · exact hfollows.last.none_between i hlt hi hdue.1.isSeen
      · exact hnot ⟨i, hle, hdue⟩
    · rintro ⟨s', ⟨hin', hlate⟩, hfirst⟩
      obtain rfl := hin'.start_unique hin
      refine ⟨?_, hlate⟩
      rintro ⟨i, hi, hdue⟩
      exact hfirst i (Nat.lt_of_le_of_lt hi hfollows.last.lt) hdue

theorem lastBefore_succ {n : ℕ} (hrec : r.Recorded key n) : LastBefore (r.Recorded key) n (n + 1) :=
  ⟨Nat.lt_succ_self n, hrec, fun _ _ _ => by omega⟩

theorem lastBefore_succ_iff {n j : ℕ} (habsent : ¬ r.Recorded key n) :
    LastBefore (r.Recorded key) j (n + 1) ↔ LastBefore (r.Recorded key) j n := by
  constructor
  · rintro ⟨hlt, hseen, hnone⟩
    have hne : j ≠ n := by
      rintro rfl
      exact habsent hseen
    exact ⟨by omega, hseen, fun m hm hmn => hnone m hm (by omega)⟩
  · rintro ⟨hlt, hseen, hnone⟩
    refine ⟨by omega, hseen, ?_⟩
    intro m hm hmn
    rcases Nat.lt_or_eq_of_le (Nat.le_of_lt_succ hmn) with h | rfl
    · exact hnone m hm h
    · exact habsent

/-- **The entry of a key follows the episode the key is in.** -/
theorem Tracks.step {n : ℕ} (h : r.Tracks key n (r.entryAt key n)) :
    r.Tracks key (n + 1) (r.entryAt key (n + 1)) := by
  rw [entryAt_succ]
  by_cases hrec : r.Recorded key n
  · rw [if_pos hrec]
    cases hleft : r.leftAt key n with
    | none =>
      have hfirst : InEpisode (r.Recorded key) r.Near n n := .first (h.starts hrec hleft)
      refine ⟨n, n, lastBefore_succ hrec, hfirst, rfl, rfl, ?_, fun _ => rfl⟩
      simp only [touched, seen, isDue, Bool.false_or, Bool.not_false, Bool.true_and]
      constructor
      · intro hlate
        exact ⟨n, Nat.le_refl n, hfirst, of_decide_eq_true hlate⟩
      · rintro ⟨i, hi, hdue⟩
        obtain rfl := Nat.le_antisymm hi hdue.1.le
        exact decide_eq_true hdue.2
    | some e =>
      obtain ⟨s, j, hfollows, hnext⟩ := h.continues hrec hleft
      refine ⟨s, n, lastBefore_succ hrec, .next hfollows.inEpisode hnext, hfollows.firstSeen_eq, rfl,
        ?_, fun _ => rfl⟩
      rw [hfollows.exists_due_iff hnext]
      cases hrep : e.reported <;> simp [touched, seen, isDue, hrep]
  · rw [if_neg hrec]
    cases hleft : r.leftAt key n with
    | none =>
      intro j hlast i hi
      rw [lastBefore_succ_iff hrec] at hlast
      cases hentry : r.entryAt key n with
      | none =>
        rw [hentry] at h
        exact h j hlast i (by omega)
      | some e =>
        rw [hentry] at h
        obtain ⟨s, j', hfollows⟩ := h
        have hdrop : r.drops key n e = true := by
          by_contra hdrop
          rw [leftAt_eq_some_iff.mpr ⟨hentry, Bool.eq_false_iff.mpr hdrop⟩] at hleft
          cases hleft
        rw [hlast.unique hfollows.last]
        exact hfollows.not_near_of_drops hdrop hi
    | some e =>
      obtain ⟨hentry, hdrop⟩ := leftAt_eq_some_iff.mp hleft
      rw [hentry] at h
      obtain ⟨s, j, hfollows⟩ := h
      have hpos := hfollows.pos_of_not_drops hrec hdrop
      exact ⟨s, j, (lastBefore_succ_iff hrec).mpr hfollows.last, hfollows.inEpisode,
        hfollows.firstSeen_eq, hfollows.lastSeen_eq, hfollows.reported_iff,
        fun hnot => absurd hpos hnot⟩

variable (r key) in
theorem tracks_entryAt (n : ℕ) : r.Tracks key n (r.entryAt key n) := by
  induction n with
  | zero => exact fun j hlast => absurd hlast.lt (Nat.not_lt_zero j)
  | succ n ih => exact ih.step

/-! ### Notices and episodes -/

theorem failure_mem_iff {n : ℕ} : Notice.failure ∈ r.noticesAt key n ↔
    ∃ s, FirstDue (r.Recorded key) r.Near r.time r.reportAfter s n := by
  have hnot : Notice.failure ∉ recoveryNotice (r.drops key n) (r.entryAt key n) := by
    cases r.entryAt key n with
    | none => exact List.not_mem_nil
    | some e =>
      simp only [recoveryNotice]
      split <;> simp
  rw [noticesAt_eq, List.mem_append, or_iff_right hnot]
  by_cases hrec : r.Recorded key n
  · rw [← (r.tracks_entryAt key n).isDue_iff hrec]
    simp only [hrec, true_and]
    split <;> simp_all
  · simp only [hrec, false_and, if_false, List.not_mem_nil, false_iff]
    rintro ⟨s, hdue⟩
    exact hrec hdue.1.1.isSeen

theorem count_failure_le (n : ℕ) : (r.noticesAt key n).count .failure ≤ 1 := by
  have hnone : (recoveryNotice (r.drops key n) (r.entryAt key n)).count .failure = 0 := by
    cases r.entryAt key n with
    | none => rfl
    | some e =>
      simp only [recoveryNotice]
      split <;> rfl
  rw [noticesAt_eq, List.count_append, hnone, Nat.zero_add]
  split
  · exact Nat.le_refl 1
  · exact Nat.zero_le 1

theorem recovery_mem_iff {n : ℕ} : Notice.recovery ∈ r.noticesAt key n ↔
    ∃ e, r.entryAt key n = some e ∧ r.drops key n e = true ∧ e.reported = true := by
  have hnot : ∀ p : Prop, [Decidable p] → Notice.recovery ∉ if p then [Notice.failure] else [] := by
    intro p _
    split <;> simp
  rw [noticesAt_eq, List.mem_append, or_iff_left (hnot _)]
  cases hentry : r.entryAt key n with
  | none => simp [recoveryNotice]
  | some e =>
    simp only [recoveryNotice, Option.some.injEq, exists_eq_left', ← Bool.and_eq_true]
    split <;> simp_all

/-- An episode whose entry was dropped is over. -/
theorem Follows.not_inEpisode {n s j : ℕ} {e : Entry} (h : r.Follows key n e s j)
    (hdrop : r.drops key n e = true) {i : ℕ} (hi : n ≤ i) :
    ¬ InEpisode (r.Recorded key) r.Near s i := by
  intro hin
  obtain ⟨k, hlast, hrec, hnear⟩ :=
    h.inEpisode.exists_continues hin (Nat.lt_of_lt_of_le h.last.lt hi)
  rcases Nat.lt_trichotomy k n with hlt | rfl | hgt
  · exact h.last.none_between k hlast.lt hlt hrec
  · exact (h.drops_iff hrec).mp hdrop hnear
  · exact h.not_near_of_drops hdrop hgt hnear

/-- Without recordings no entry comes up. -/
theorem entryAt_eq_none {n : ℕ} (hnone : r.entryAt key n = none) {m : ℕ} (hle : n ≤ m)
    (habsent : ∀ i, n ≤ i → i < m → ¬ r.Recorded key i) : r.entryAt key m = none := by
  induction m, hle using Nat.le_induction with
  | base => exact hnone
  | succ m hle ih =>
    have hentry := ih fun i hi him => habsent i hi (by omega)
    rw [entryAt_succ, if_neg (habsent m hle (Nat.lt_succ_self m)), leftAt, hentry]
    rfl

variable (r key) in
/-- A recovery is issued for an episode: its last recording is the last one, and it is over. -/
structure ClosedAt (s i : ℕ) : Prop where
  issued : Notice.recovery ∈ r.noticesAt key i
  last : ∃ j, LastBefore (r.Recorded key) j i ∧ InEpisode (r.Recorded key) r.Near s j
  ended : ∀ m, i ≤ m → ¬ InEpisode (r.Recorded key) r.Near s m

/-- Every recovery is that of an episode which was reported. -/
theorem exists_closedAt {i : ℕ} (h : Notice.recovery ∈ r.noticesAt key i) : ∃ s, r.ClosedAt key s i ∧
    ∃ k < i, FirstDue (r.Recorded key) r.Near r.time r.reportAfter s k := by
  obtain ⟨e, hentry, hdrop, hrep⟩ := recovery_mem_iff.mp h
  have htracks := r.tracks_entryAt key i
  rw [hentry] at htracks
  obtain ⟨s, j, hfollows⟩ := htracks
  obtain ⟨k, hk, hdue⟩ := hfollows.reported_iff.mp hrep
  obtain ⟨k', hk', hfirst⟩ := hdue.exists_firstDue
  have hlast := hfollows.last.lt
  exact ⟨s, ⟨h, ⟨j, hfollows.last, hfollows.inEpisode⟩, fun m hm => hfollows.not_inEpisode hdrop hm⟩,
    k', by omega, hfirst⟩

theorem ClosedAt.not_lt {s i i' : ℕ} (h : r.ClosedAt key s i) (h' : r.ClosedAt key s i') :
    ¬ i < i' := by
  intro hlt
  obtain ⟨j', hlast', hin'⟩ := h'.last
  have hj' : j' < i := Nat.lt_of_not_le fun hle => h.ended j' hle hin'
  have habsent : ∀ m, i ≤ m → m < i' → ¬ r.Recorded key m :=
    fun m hm hm' => hlast'.none_between m (by omega) hm'
  -- the first recovery dropped the entry, and nothing was recorded since
  have hnone : r.entryAt key (i + 1) = none := by
    obtain ⟨e, hentry, hdrop, -⟩ := recovery_mem_iff.mp h.issued
    rw [entryAt_succ, if_neg (habsent i (Nat.le_refl i) hlt), leftAt, hentry]
    exact Option.filter_some_neg (by rw [hdrop, Bool.not_true])
  obtain ⟨e', hentry', -⟩ := recovery_mem_iff.mp h'.issued
  rw [entryAt_eq_none hnone hlt fun m hm hm' => habsent m (by omega) hm'] at hentry'
  cases hentry'

/-- An episode is closed once. -/
theorem ClosedAt.unique {s i i' : ℕ} (h : r.ClosedAt key s i) (h' : r.ClosedAt key s i') : i = i' :=
  Nat.le_antisymm (Nat.not_lt.mp (h'.not_lt h)) (Nat.not_lt.mp (h.not_lt h'))

/-- **A failure is reported once, late enough, and closed once**: new failures and recoveries take
turns, an episode is reported at its first recording that is the report delay after it began and at no
other pass, and a recovery closes an episode that was reported, once. -/
theorem failures_reported_once (r : Passes) (key : String) :
    (∀ n, Alternate .failure (r.noticesUpTo key n)) ∧
    (∀ i, Notice.failure ∈ r.noticesAt key i ↔
      ∃ s, FirstDue (r.Recorded key) r.Near r.time r.reportAfter s i) ∧
    (∀ i, (r.noticesAt key i).count .failure ≤ 1) ∧
    (∀ s i i', FirstDue (r.Recorded key) r.Near r.time r.reportAfter s i →
      FirstDue (r.Recorded key) r.Near r.time r.reportAfter s i' → i = i') ∧
    (∀ i, Notice.recovery ∈ r.noticesAt key i → ∃ s, r.ClosedAt key s i ∧
      ∃ k < i, FirstDue (r.Recorded key) r.Near r.time r.reportAfter s k) ∧
    ∀ s i i', r.ClosedAt key s i → r.ClosedAt key s i' → i = i' := by
  refine ⟨fun n => (r.alternate_noticesUpTo key n).1, fun i => failure_mem_iff, count_failure_le,
    fun s i i' h h' => h.unique h', fun i h => exists_closedAt h, fun s i i' h h' => h.unique h'⟩

/-- An edge that three passes in a row do not find, and that is found from then on. -/
def missingEdge : Passes where
  reportAfter := 2
  forgetAfter := none
  pass n := ⟨n, if n < 3 then [("4:3", "edge not found by dpid/port 4:3")] else []⟩
  ordered _ _ hle := Int.ofNat_le.mpr hle

/-- The third pass reports it, and the seventh closes it: the forget interval is four. -/
theorem failures_reported_once_missingEdge :
    missingEdge.noticesUpTo "4:3" 7 = [.failure, .recovery] ∧
      (∃ s, FirstDue (missingEdge.Recorded "4:3") missingEdge.Near missingEdge.time 2 s 2) ∧
      ∃ s, missingEdge.ClosedAt "4:3" s 6 := by
  obtain ⟨-, hreported, -, -, hclosed, -⟩ := failures_reported_once missingEdge "4:3"
  refine ⟨by decide +kernel, (hreported 2).mp (by decide +kernel), ?_⟩
  obtain ⟨s, hs, -⟩ := hclosed 6 (by decide +kernel)
  exact ⟨s, hs⟩

end Passes

end Telemetry
end NDTwin
