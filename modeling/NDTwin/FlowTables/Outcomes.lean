import Mathlib.Data.Finset.Basic
import NDTwin.FlowTables.Batch
import NDTwin.Lib.Dict

/-!
# What became of the jobs

Every job a worker has sent comes back with a result, and the log counts it three ways: as
dispatched or failed, by what the answer says of the switch, and for the request it was part of.
It keeps the last failures, and the tokens of the jobs a switch is known to hold; each of these
has a budget, and what no longer fits is forgotten oldest first.  The counters have 64 bits.

## Main definitions

* `OpResult`, `SwitchOutcome`, `RequestTally`, `FailureRecord` — what is counted and kept.
* `DispatchOutcomeLog` — the log.
* `DispatchOutcomeLog.noteRequestEnqueued`, `DispatchOutcomeLog.record` — its two writers.
* `DispatchOutcomeLog.tallyFor`, `DispatchOutcomeLog.isProgrammed` — its readers.

## Main results

* `DispatchOutcomeLog.isProgrammed_record` — **a token is confirmed by an outcome of its own job**,
  or had been confirmed before.
-/

namespace NDTwin.FlowTables

variable {F : Type}

/-- Outcome of a southbound operation, what the log reads of it. -/
structure OpResult where
  ok : Bool := false
  httpStatus : ℤ := 0
  message : String := ""
  confirmsProgramming : Bool := false
  confirmsNotProgrammed : Bool := false
  deriving DecidableEq, Repr

/-- What the plane's answer says about the switch. -/
inductive SwitchOutcome where
  | acceptedBySwitch | rejectedBySwitch | unknown
  deriving DecidableEq, Repr

/-- `classifySwitchOutcome(result)`. -/
def classifySwitchOutcome (result : OpResult) : SwitchOutcome :=
  if result.confirmsProgramming then .acceptedBySwitch
  else if result.confirmsNotProgrammed then .rejectedBySwitch
  else .unknown

/-- One request's share of the counters. -/
structure RequestTally where
  enqueued : ℕ := 0
  dispatched : BitVec 64 := 0
  dispatchedOk : BitVec 64 := 0
  dispatchFailed : BitVec 64 := 0
  acceptedBySwitch : BitVec 64 := 0
  rejectedBySwitch : BitVec 64 := 0
  switchOutcomeUnknown : BitVec 64 := 0
  deriving DecidableEq, Repr

/-- One dispatched job whose southbound attempt failed. -/
structure FailureRecord (F : Type) where
  seq : BitVec 64
  atUnixMs : ℤ
  op : FlowOp
  dpid : ℕ
  requestedPriority : ℤ
  matchFields : Json F
  controllerStatus : ℤ
  message : String

/-- `kProgrammedBudget`. -/
def programmedBudget : ℕ := 8192

/-- `kRequestBudget`. -/
def requestBudget : ℕ := 256

/-- `kDefaultCapacity`. -/
def defaultCapacity : ℕ := 2000

/-- The log. -/
structure DispatchOutcomeLog (F : Type) where
  failures : List (FailureRecord F) := []
  capacity : ℕ := defaultCapacity
  programmed : Finset ℕ := ∅
  programmedOrder : List ℕ := []
  requests : Dict ℕ RequestTally := Dict.empty
  requestOrder : List ℕ := []
  requestsForgotten : BitVec 64 := 0
  dispatched : BitVec 64 := 0
  succeeded : BitVec 64 := 0
  failed : BitVec 64 := 0
  evicted : BitVec 64 := 0
  forgotten : BitVec 64 := 0
  acceptedBySwitch : BitVec 64 := 0
  rejectedBySwitch : BitVec 64 := 0
  switchOutcomeUnknown : BitVec 64 := 0

/-- A queue that pops its front while it is longer than its budget: what it pops, and what it
keeps. -/
def popFront {α : Type*} (budget : ℕ) : List α → List α × List α
  | [] => ([], [])
  | x :: xs =>
    if budget < xs.length + 1 then
      let (popped, kept) := popFront budget xs
      (x :: popped, kept)
    else ([], x :: xs)

namespace DispatchOutcomeLog

/-- `DispatchOutcomeLog(capacity)`. -/
def new (capacity : ℕ) : DispatchOutcomeLog F := { capacity := if capacity = 0 then 1 else capacity }

/-- `countSwitchOutcome_(outcome)`. -/
def countSwitchOutcome (log : DispatchOutcomeLog F) : SwitchOutcome → DispatchOutcomeLog F
  | .acceptedBySwitch => { log with acceptedBySwitch := log.acceptedBySwitch + 1 }
  | .rejectedBySwitch => { log with rejectedBySwitch := log.rejectedBySwitch + 1 }
  | .unknown => { log with switchOutcomeUnknown := log.switchOutcomeUnknown + 1 }

/-- A tally with one outcome more. -/
def tallied (tally : RequestTally) (ok : Bool) (outcome : SwitchOutcome) : RequestTally :=
  let tally := { tally with dispatched := tally.dispatched + 1 }
  let tally := if ok then { tally with dispatchedOk := tally.dispatchedOk + 1 }
    else { tally with dispatchFailed := tally.dispatchFailed + 1 }
  match outcome with
  | .acceptedBySwitch => { tally with acceptedBySwitch := tally.acceptedBySwitch + 1 }
  | .rejectedBySwitch => { tally with rejectedBySwitch := tally.rejectedBySwitch + 1 }
  | .unknown => { tally with switchOutcomeUnknown := tally.switchOutcomeUnknown + 1 }

/-- `noteRequestOutcome_(requestId, ok, outcome)`. -/
def noteRequestOutcome (log : DispatchOutcomeLog F) (requestId : ℕ) (ok : Bool)
    (outcome : SwitchOutcome) : DispatchOutcomeLog F :=
  if requestId = 0 then log
  else match log.requests.get? requestId with
    | none => log
    | some tally =>
      { log with requests := log.requests.set requestId (tallied tally ok outcome) }

/-- `noteProgrammed_(token)`. -/
def noteProgrammed (log : DispatchOutcomeLog F) (token : ℕ) : DispatchOutcomeLog F :=
  if token = 0 then log
  else
    let order := if token ∈ log.programmed then log.programmedOrder
      else log.programmedOrder ++ [token]
    let (popped, kept) := popFront programmedBudget order
    { log with
      programmed := popped.foldl Finset.erase (insert token log.programmed)
      programmedOrder := kept
      forgotten := log.forgotten + .ofNat 64 popped.length }

/-- The failure of a job, pushed to the ring. -/
def pushFailure (log : DispatchOutcomeLog F) (failure : FailureRecord F) : DispatchOutcomeLog F :=
  let (popped, kept) := popFront log.capacity (log.failures ++ [failure])
  { log with
    failures := kept
    evicted := log.evicted + .ofNat 64 popped.length }

/-- `record(job, result)`, at a time. -/
def record (log : DispatchOutcomeLog F) (nowUnixMs : ℤ) (job : FlowJob F) (result : OpResult) :
    DispatchOutcomeLog F :=
  let seq := log.dispatched + 1
  let switchOutcome := classifySwitchOutcome result
  let log := { log with dispatched := seq }
  let log := log.countSwitchOutcome switchOutcome
  let log := log.noteRequestOutcome job.requestId result.ok switchOutcome
  if result.ok then
    let log := { log with succeeded := log.succeeded + 1 }
    if result.confirmsProgramming then log.noteProgrammed job.token else log
  else
    let log := { log with failed := log.failed + 1 }
    log.pushFailure
      { seq, atUnixMs := nowUnixMs, op := job.op, dpid := job.dpid
        requestedPriority := job.priority, matchFields := job.matchFields
        controllerStatus := result.httpStatus, message := result.message }

/-- `noteRequestEnqueued(requestId, jobs)`, with `evictOldestRequests_()`. -/
def noteRequestEnqueued (log : DispatchOutcomeLog F) (requestId jobs : ℕ) : DispatchOutcomeLog F :=
  if requestId = 0 ∨ (log.requests.get? requestId).isSome then log
  else
    let (popped, kept) := popFront requestBudget (log.requestOrder ++ [requestId])
    { log with
      requests := popped.foldl Dict.erase (log.requests.set requestId { enqueued := jobs })
      requestOrder := kept
      requestsForgotten := log.requestsForgotten + .ofNat 64 popped.length }

/-- `tallyFor(requestId)`. -/
def tallyFor (log : DispatchOutcomeLog F) (requestId : ℕ) : Option RequestTally :=
  if requestId = 0 then none else log.requests.get? requestId

/-- `isProgrammed(token)`. -/
def isProgrammed (log : DispatchOutcomeLog F) (token : ℕ) : Bool :=
  token = 0 || token ∈ log.programmed

/-! ### Confirmed tokens -/

@[simp] theorem countSwitchOutcome_programmed (log : DispatchOutcomeLog F)
    (outcome : SwitchOutcome) : (log.countSwitchOutcome outcome).programmed = log.programmed := by
  cases outcome with
  | acceptedBySwitch => rfl
  | rejectedBySwitch => rfl
  | unknown => rfl

@[simp] theorem noteRequestOutcome_programmed (log : DispatchOutcomeLog F) (requestId : ℕ)
    (ok : Bool) (outcome : SwitchOutcome) :
    (log.noteRequestOutcome requestId ok outcome).programmed = log.programmed := by
  rw [noteRequestOutcome]
  split
  · rfl
  · split
    · rfl
    · rfl

@[simp] theorem noteRequestEnqueued_programmed (log : DispatchOutcomeLog F) (requestId jobs : ℕ) :
    (log.noteRequestEnqueued requestId jobs).programmed = log.programmed := by
  rw [noteRequestEnqueued]
  split
  · rfl
  · rfl

theorem foldl_erase_subset (popped : List ℕ) (tokens : Finset ℕ) :
    popped.foldl Finset.erase tokens ⊆ tokens := by
  induction popped generalizing tokens with
  | nil => exact Finset.Subset.refl tokens
  | cons token popped ih => exact (ih _).trans (Finset.erase_subset token tokens)

theorem programmed_noteProgrammed (log : DispatchOutcomeLog F) (token : ℕ) :
    (log.noteProgrammed token).programmed ⊆ insert token log.programmed := by
  rw [noteProgrammed]
  split
  · exact Finset.subset_insert token log.programmed
  · exact foldl_erase_subset _ _

/-- **A token is confirmed by an outcome of its own job**, or had been confirmed before. -/
theorem isProgrammed_record {log : DispatchOutcomeLog F} {now : ℤ} {job : FlowJob F}
    {result : OpResult} {token : ℕ} (htoken : token ≠ 0)
    (h : (log.record now job result).isProgrammed token = true) :
    log.isProgrammed token = true ∨
      job.token = token ∧ result.ok = true ∧ result.confirmsProgramming = true := by
  have hmem : token ∈ (log.record now job result).programmed := by
    simpa [isProgrammed, htoken] using h
  have hbefore : token ∈ log.programmed → log.isProgrammed token = true := by
    intro hin
    simp [isProgrammed, hin]
  rw [record] at hmem
  cases hok : result.ok with
  | false =>
    refine .inl (hbefore ?_)
    simpa [hok, pushFailure] using hmem
  | true =>
    simp only [hok, if_true] at hmem
    cases hconfirms : result.confirmsProgramming with
    | false =>
      refine .inl (hbefore ?_)
      simpa [hconfirms] using hmem
    | true =>
      simp only [hconfirms, if_true] at hmem
      rcases Finset.mem_insert.mp (programmed_noteProgrammed _ _ hmem) with heq | hin
      · exact .inr ⟨heq.symm, rfl, rfl⟩
      · refine .inl (hbefore ?_)
        simpa using hin

end DispatchOutcomeLog

end NDTwin.FlowTables
