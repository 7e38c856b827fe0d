import Mathlib.Data.List.DropRight
import NDTwin.FlowTables.Outcomes

/-!
# What the log adds up to

Requests are registered and outcomes are recorded, in any order.  What the log then holds is a
function of the calls it was given: its totals, the failures it still lists, the requests it still
knows with the outcomes of each since it was registered, and the tokens that were confirmed.

A request is registered by a call that names it while the log does not know it: one it knows is
left as it is, and one it has forgotten is registered again.

## Main definitions

* `Call`, `replay` — calls, and the log after them.
* `results`, `failuresOf`, `registrations`, `tallyOf` — what the calls say.
* `Accounted` — the log says what the calls say.

## Main results

* `tallied_tallyOf`, `popFront_eq` — one outcome more, and a queue kept to its budget.
* `accounts_apply` — one call.
* `replay_accounted` — **the log says what the calls say, with 64 bits to count in.**
* `tally_wraps` — after `2 ^ 64` outcomes of a request its tally is zero.
-/

namespace NDTwin.FlowTables

variable {F : Type}

namespace DispatchOutcomeLog

/-! ### Calls -/

/-- A call of one of the two writers. -/
inductive Call (F : Type) where
  | noteRequestEnqueued (requestId jobs : ℕ)
  | record (nowUnixMs : ℤ) (job : FlowJob F) (result : OpResult)

/-- The log after a call. -/
def apply (log : DispatchOutcomeLog F) : Call F → DispatchOutcomeLog F
  | .noteRequestEnqueued requestId jobs => log.noteRequestEnqueued requestId jobs
  | .record now job result => log.record now job result

/-- The log after calls. -/
def replay (capacity : ℕ) (calls : List (Call F)) : DispatchOutcomeLog F :=
  calls.foldl apply (new capacity)

/-! ### What the calls say -/

/-- The outcomes that were recorded. -/
def results : List (Call F) → List OpResult
  | [] => []
  | .noteRequestEnqueued _ _ :: calls => results calls
  | .record _ _ result :: calls => result :: results calls

/-- The outcomes that were recorded for a request. -/
def resultsFor (requestId : ℕ) : List (Call F) → List OpResult
  | [] => []
  | .noteRequestEnqueued _ _ :: calls => resultsFor requestId calls
  | .record _ job result :: calls =>
    if job.requestId = requestId then result :: resultsFor requestId calls
    else resultsFor requestId calls

/-- The failures that were recorded, each with its number among the outcomes, which begins after
`dispatched` of them. -/
def failuresOf (dispatched : ℕ) : List (Call F) → List (FailureRecord F)
  | [] => []
  | .noteRequestEnqueued _ _ :: calls => failuresOf dispatched calls
  | .record now job result :: calls =>
    if result.ok then failuresOf (dispatched + 1) calls
    else
      { seq := .ofNat 64 (dispatched + 1), atUnixMs := now, op := job.op, dpid := job.dpid
        requestedPriority := job.priority, matchFields := job.matchFields
        controllerStatus := result.httpStatus, message := result.message } ::
        failuresOf (dispatched + 1) calls

/-- The requests registered, after a call.  One that is still known, and the id zero, are not. -/
def register (registered : List ℕ) : Call F → List ℕ
  | .noteRequestEnqueued requestId _ =>
    if requestId = 0 ∨ requestId ∈ registered.rtake requestBudget then registered
    else registered ++ [requestId]
  | .record _ _ _ => registered

/-- The requests that calls registered, in order. -/
def registrations (calls : List (Call F)) : List ℕ := calls.foldl register []

/-- The requests registered last, as many as there is room for. -/
def retained (calls : List (Call F)) : List ℕ := (registrations calls).rtake requestBudget

/-- The tally of a request: what was announced, and its outcomes, counted in 64 bits. -/
def tallyOf (jobs : ℕ) (results : List OpResult) : RequestTally where
  enqueued := jobs
  dispatched := .ofNat 64 results.length
  dispatchedOk := .ofNat 64 (results.countP fun r => r.ok)
  dispatchFailed := .ofNat 64 (results.countP fun r => !r.ok)
  acceptedBySwitch := .ofNat 64 (results.countP fun r => classifySwitchOutcome r = .acceptedBySwitch)
  rejectedBySwitch := .ofNat 64 (results.countP fun r => classifySwitchOutcome r = .rejectedBySwitch)
  switchOutcomeUnknown := .ofNat 64 (results.countP fun r => classifySwitchOutcome r = .unknown)

/-- A tally counts the outcomes recorded for a request since the call that registered it, since
when the request has been known. -/
def TalliedSince (calls : List (Call F)) (requestId : ℕ) (tally : RequestTally) : Prop :=
  ∃ before jobs after, calls = before ++ .noteRequestEnqueued requestId jobs :: after ∧
    (requestId ≠ 0 ∧ requestId ∉ retained before) ∧
    (∀ later, later <+: after →
      requestId ∈ retained (before ++ .noteRequestEnqueued requestId jobs :: later)) ∧
    tally = tallyOf jobs (resultsFor requestId after)

/-- **The log says what the calls say.** -/
structure Accounted (calls : List (Call F)) (log : DispatchOutcomeLog F) : Prop where
  /-- The totals, in the arithmetic of the counters. -/
  okOrFailed : log.dispatched = log.succeeded + log.failed
  byOutcome : log.dispatched =
    log.acceptedBySwitch + log.rejectedBySwitch + log.switchOutcomeUnknown
  total : log.dispatched = .ofNat 64 (results calls).length
  /-- The last failures, and how many came before them. -/
  failures : log.failures = (failuresOf 0 calls).rtake log.capacity
  evicted : log.evicted = log.failed - .ofNat 64 log.failures.length
  /-- The requests that are known, and what became of each. -/
  known : ∀ requestId, (log.tallyFor requestId).isSome ↔ requestId ∈ retained calls
  tally : ∀ requestId tally, log.tallyFor requestId = some tally →
    TalliedSince calls requestId tally
  /-- A token is confirmed by an outcome of its own job. -/
  programmed : ∀ token, token ≠ 0 → log.isProgrammed token = true →
    ∃ now job result, .record now job result ∈ calls ∧ job.token = token ∧ result.ok = true ∧
      result.confirmsProgramming = true

/-! ### One call more -/

/-- A queue kept to its budget holds the last of what was pushed. -/
theorem popFront_eq {α : Type*} (budget : ℕ) (xs : List α) :
    popFront budget xs = (xs.take (xs.length - budget), xs.rtake budget) := by
  induction xs with
  | nil => simp [popFront]
  | cons x xs ih =>
    rw [popFront, ih]
    by_cases hlt : budget < xs.length + 1
    · have hsucc : xs.length + 1 - budget = xs.length - budget + 1 := by omega
      simp [hlt, List.rtake, hsucc]
    · have hzero : xs.length + 1 - budget = 0 := by omega
      simp [hlt, List.rtake, hzero]

theorem rtake_rtake_concat {α : Type*} (n : ℕ) (xs : List α) (x : α) :
    (xs.rtake n ++ [x]).rtake n = (xs ++ [x]).rtake n := by
  cases n with
  | zero => simp
  | succ n =>
    rw [List.rtake_concat_succ, List.rtake_concat_succ, List.rtake_eq_reverse_take_reverse,
      List.rtake_eq_reverse_take_reverse, List.rtake_eq_reverse_take_reverse, List.reverse_reverse,
      List.take_take, Nat.min_eq_left n.le_succ]

theorem mem_rtake_concat {α : Type*} {n : ℕ} (hn : 0 < n) (xs : List α) (x : α) :
    x ∈ (xs ++ [x]).rtake n := by
  obtain ⟨n, rfl⟩ := Nat.exists_eq_add_of_lt hn
  rw [Nat.zero_add, List.rtake_concat_succ]
  exact List.mem_append_right _ List.mem_cons_self

theorem length_rtake {α : Type*} (n : ℕ) (xs : List α) : (xs.rtake n).length = min n xs.length := by
  rw [List.rtake, List.length_drop]
  omega

theorem results_concat (calls : List (Call F)) (call : Call F) :
    results (calls ++ [call]) = results calls ++ results [call] := by
  induction calls with
  | nil => rfl
  | cons c calls ih =>
    cases c with
    | noteRequestEnqueued id jobs => exact ih
    | record now job result => exact congrArg (result :: ·) ih

theorem resultsFor_concat (requestId : ℕ) (calls : List (Call F)) (call : Call F) :
    resultsFor requestId (calls ++ [call]) =
      resultsFor requestId calls ++ resultsFor requestId [call] := by
  induction calls with
  | nil => rfl
  | cons c calls ih =>
    cases c with
    | noteRequestEnqueued id jobs => exact ih
    | record now job result =>
      by_cases hid : job.requestId = requestId
      · simpa [resultsFor, hid] using ih
      · simpa [resultsFor, hid] using ih

theorem failuresOf_concat (dispatched : ℕ) (calls : List (Call F)) (call : Call F) :
    failuresOf dispatched (calls ++ [call]) =
      failuresOf dispatched calls ++ failuresOf (dispatched + (results calls).length) [call] := by
  induction calls generalizing dispatched with
  | nil => rfl
  | cons c calls ih =>
    cases c with
    | noteRequestEnqueued id jobs => exact ih dispatched
    | record now job result =>
      have hnext : dispatched + (results (.record now job result :: calls)).length =
          dispatched + 1 + (results calls).length := by
        rw [results, List.length_cons]
        omega
      rw [hnext]
      cases hok : result.ok with
      | true => simpa [failuresOf, hok] using ih (dispatched + 1)
      | false => simpa [failuresOf, hok] using ih (dispatched + 1)

/-- Every outcome that is not a success is listed as a failure. -/
theorem length_failuresOf (dispatched : ℕ) (calls : List (Call F)) :
    (failuresOf dispatched calls).length = (results calls).countP fun r => !r.ok := by
  induction calls generalizing dispatched with
  | nil => rfl
  | cons c calls ih =>
    cases c with
    | noteRequestEnqueued id jobs => exact ih dispatched
    | record now job result =>
      cases hok : result.ok with
      | true => simp [failuresOf, results, hok, ih]
      | false => simp [failuresOf, results, hok, ih]

/-- One outcome more in a tally. -/
theorem tallied_tallyOf (jobs : ℕ) (rs : List OpResult) (r : OpResult) :
    tallied (tallyOf jobs rs) r.ok (classifySwitchOutcome r) = tallyOf jobs (rs ++ [r]) := by
  cases hok : r.ok with
  | true =>
    cases hclass : classifySwitchOutcome r with
    | acceptedBySwitch => simp [tallied, tallyOf, hok, hclass, BitVec.ofNat_add]
    | rejectedBySwitch => simp [tallied, tallyOf, hok, hclass, BitVec.ofNat_add]
    | unknown => simp [tallied, tallyOf, hok, hclass, BitVec.ofNat_add]
  | false =>
    cases hclass : classifySwitchOutcome r with
    | acceptedBySwitch => simp [tallied, tallyOf, hok, hclass, BitVec.ofNat_add]
    | rejectedBySwitch => simp [tallied, tallyOf, hok, hclass, BitVec.ofNat_add]
    | unknown => simp [tallied, tallyOf, hok, hclass, BitVec.ofNat_add]

theorem get?_foldl_erase (popped : List ℕ) (d : Dict ℕ RequestTally) (k : ℕ) :
    (popped.foldl Dict.erase d).get? k = if k ∈ popped then none else d.get? k := by
  induction popped generalizing d with
  | nil => simp
  | cons id popped ih =>
    rw [List.foldl_cons, ih, Dict.get?_erase]
    by_cases hmem : k ∈ popped
    · simp [hmem]
    · by_cases hk : k = id
      · simp [hk]
      · simp [hmem, hk]

/-! ### What a call changes -/

/-- The tallies after an outcome of a request. -/
def outcomeNoted (requests : Dict ℕ RequestTally) (requestId : ℕ) (result : OpResult) :
    Dict ℕ RequestTally :=
  if requestId = 0 then requests
  else match requests.get? requestId with
    | none => requests
    | some tally =>
      requests.set requestId (tallied tally result.ok (classifySwitchOutcome result))

/-- What is counted of every outcome, before the log looks whether it is a success. -/
def counted (log : DispatchOutcomeLog F) (requestId : ℕ) (result : OpResult) :
    DispatchOutcomeLog F :=
  { log with
    dispatched := log.dispatched + 1
    acceptedBySwitch := log.acceptedBySwitch +
      if classifySwitchOutcome result = .acceptedBySwitch then 1 else 0
    rejectedBySwitch := log.rejectedBySwitch +
      if classifySwitchOutcome result = .rejectedBySwitch then 1 else 0
    switchOutcomeUnknown := log.switchOutcomeUnknown +
      if classifySwitchOutcome result = .unknown then 1 else 0
    requests := outcomeNoted log.requests requestId result }

theorem counted_eq (log : DispatchOutcomeLog F) (requestId : ℕ) (result : OpResult) :
    (({ log with dispatched := log.dispatched + 1 }.countSwitchOutcome
      (classifySwitchOutcome result)).noteRequestOutcome requestId result.ok
        (classifySwitchOutcome result)) = log.counted requestId result := by
  have hnote (log : DispatchOutcomeLog F) :
      log.noteRequestOutcome requestId result.ok (classifySwitchOutcome result) =
        { log with requests := outcomeNoted log.requests requestId result } := by
    unfold noteRequestOutcome outcomeNoted
    by_cases hid : requestId = 0
    · rw [if_pos hid, if_pos hid]
    · rw [if_neg hid, if_neg hid]
      cases log.requests.get? requestId with
      | none => rfl
      | some tally => rfl
  rw [hnote]
  cases hclass : classifySwitchOutcome result with
  | acceptedBySwitch => simp [countSwitchOutcome, counted, hclass]
  | rejectedBySwitch => simp [countSwitchOutcome, counted, hclass]
  | unknown => simp [countSwitchOutcome, counted, hclass]

/-- A success is counted, and may confirm a token. -/
theorem record_of_ok (log : DispatchOutcomeLog F) (now : ℤ) (job : FlowJob F) {result : OpResult}
    (hok : result.ok = true) :
    ∃ programmed order forgotten, log.record now job result =
      { log.counted job.requestId result with
        succeeded := log.succeeded + 1
        programmed := programmed
        programmedOrder := order
        forgotten := forgotten } := by
  unfold record
  dsimp only
  rw [counted_eq, if_pos hok]
  cases result.confirmsProgramming with
  | false => exact ⟨_, _, _, rfl⟩
  | true =>
    rw [if_pos rfl, noteProgrammed]
    split
    · exact ⟨_, _, _, rfl⟩
    · exact ⟨_, _, _, rfl⟩

/-- A failure is counted and listed. -/
theorem record_of_not_ok (log : DispatchOutcomeLog F) (now : ℤ) (job : FlowJob F)
    {result : OpResult} (hok : result.ok = false) {failure : FailureRecord F}
    (hfailure : failure =
      { seq := log.dispatched + 1, atUnixMs := now, op := job.op, dpid := job.dpid
        requestedPriority := job.priority, matchFields := job.matchFields
        controllerStatus := result.httpStatus, message := result.message }) :
    log.record now job result =
      { log.counted job.requestId result with
        failed := log.failed + 1
        failures := (log.failures ++ [failure]).rtake log.capacity
        evicted := log.evicted + .ofNat 64 (log.failures.length + 1 - log.capacity) } := by
  unfold record
  dsimp only
  rw [counted_eq, if_neg (by simp [hok]), pushFailure, popFront_eq, hfailure]
  simp [counted]

/-! ### The invariant -/

/-- **The invariant of the log**, after calls. -/
structure Accounts (calls : List (Call F)) (log : DispatchOutcomeLog F) : Prop where
  dispatched : log.dispatched = .ofNat 64 (results calls).length
  succeeded : log.succeeded = .ofNat 64 ((results calls).countP fun r => r.ok)
  failed : log.failed = .ofNat 64 ((results calls).countP fun r => !r.ok)
  accepted : log.acceptedBySwitch =
    .ofNat 64 ((results calls).countP fun r => classifySwitchOutcome r = .acceptedBySwitch)
  rejected : log.rejectedBySwitch =
    .ofNat 64 ((results calls).countP fun r => classifySwitchOutcome r = .rejectedBySwitch)
  unknown : log.switchOutcomeUnknown =
    .ofNat 64 ((results calls).countP fun r => classifySwitchOutcome r = .unknown)
  failures : log.failures = (failuresOf 0 calls).rtake log.capacity
  evicted : log.evicted = .ofNat 64 ((failuresOf 0 calls).length - log.capacity)
  order : log.requestOrder = retained calls
  nodup : (retained calls).Nodup
  nonzero : 0 ∉ retained calls
  known : ∀ id, (log.requests.get? id).isSome = true ↔ id ∈ retained calls
  tally : ∀ id tally, log.requests.get? id = some tally → TalliedSince calls id tally
  programmed : ∀ token, token ≠ 0 → log.isProgrammed token = true →
    ∃ now job result, .record now job result ∈ calls ∧ job.token = token ∧ result.ok = true ∧
      result.confirmsProgramming = true

theorem retained_nil : retained ([] : List (Call F)) = [] := List.rtake_nil _

theorem accounts_new (capacity : ℕ) : Accounts ([] : List (Call F)) (new capacity) where
  dispatched := rfl
  succeeded := rfl
  failed := rfl
  accepted := rfl
  rejected := rfl
  unknown := rfl
  failures := (List.rtake_nil _).symm
  evicted := by
    rw [failuresOf, List.length_nil, Nat.zero_sub]
    rfl
  order := retained_nil.symm
  nodup := by
    rw [retained_nil]
    exact List.nodup_nil
  nonzero := by
    rw [retained_nil]
    exact List.not_mem_nil
  known id := by simp [new, retained_nil]
  tally id tally h := by cases h
  programmed token hne h := by simp [isProgrammed, new, hne] at h

theorem retained_concat (calls : List (Call F)) (call : Call F) :
    retained (calls ++ [call]) = (register (registrations calls) call).rtake requestBudget := by
  rw [retained, registrations, List.foldl_concat]
  rfl

/-- A tally goes on counting while its request is known. -/
theorem TalliedSince.concat {calls : List (Call F)} {id : ℕ} {tally : RequestTally}
    (h : TalliedSince calls id tally) (call : Call F) (hknown : id ∈ retained (calls ++ [call]))
    {tally' : RequestTally}
    (htally : ∀ jobs rs, tally = tallyOf jobs rs → tally' = tallyOf jobs (rs ++ resultsFor id [call])) :
    TalliedSince (calls ++ [call]) id tally' := by
  obtain ⟨before, jobs, after, rfl, hregisters, hstays, rfl⟩ := h
  refine ⟨before, jobs, after ++ [call], by simp, hregisters, ?_, ?_⟩
  · intro later hlater
    rcases List.prefix_concat_iff.mp hlater with rfl | hlater
    · simpa using hknown
    · exact hstays later hlater
  · rw [resultsFor_concat]
    exact htally jobs _ rfl

/-- What an outcome does to the tallies: one more for its request, if that is known. -/
theorem get?_outcomeNoted (requests : Dict ℕ RequestTally) (requestId : ℕ) (result : OpResult)
    {id : ℕ} (hid : id ≠ 0) :
    (outcomeNoted requests requestId result).get? id =
      if requestId = id then
        (requests.get? id).map fun tally =>
          tallied tally result.ok (classifySwitchOutcome result)
      else requests.get? id := by
  unfold outcomeNoted
  by_cases hsame : requestId = id
  · subst hsame
    rw [if_neg hid, if_pos rfl]
    cases hget : requests.get? requestId with
    | none => simp [hget]
    | some tally => simp
  · rw [if_neg hsame]
    by_cases hzero : requestId = 0
    · rw [if_pos hzero]
    · rw [if_neg hzero]
      cases requests.get? requestId with
      | none => rfl
      | some tally => exact Dict.get?_set_of_ne _ _ (Ne.symm hsame)

theorem programmed_concat {calls : List (Call F)} (call : Call F) {token : ℕ}
    (hprogrammed : ∃ now job result, .record now job result ∈ calls ∧ job.token = token ∧
      result.ok = true ∧ result.confirmsProgramming = true) :
    ∃ now job result, .record now job result ∈ calls ++ [call] ∧ job.token = token ∧
      result.ok = true ∧ result.confirmsProgramming = true := by
  obtain ⟨now, job, result, hmem, hrest⟩ := hprogrammed
  exact ⟨now, job, result, List.mem_append_left _ hmem, hrest⟩

theorem ofNat_countP_concat (p : OpResult → Prop) [DecidablePred p] (rs : List OpResult)
    (r : OpResult) :
    BitVec.ofNat 64 ((rs ++ [r]).countP fun r => p r) =
      BitVec.ofNat 64 (rs.countP fun r => p r) + if p r then 1 else 0 := by
  rw [List.countP_append, List.countP_singleton, BitVec.ofNat_add]
  by_cases hp : p r
  · simp [hp]
  · simp [hp]

section Record

variable {calls : List (Call F)} {log : DispatchOutcomeLog F} (h : Accounts calls log) (now : ℤ)
  (job : FlowJob F) (result : OpResult)
include h

/-- The tallies after an outcome. -/
theorem accounts_requests_record :
    (∀ id, ((outcomeNoted log.requests job.requestId result).get? id).isSome = true ↔
        id ∈ retained (calls ++ [Call.record now job result])) ∧
      ∀ id tally, (outcomeNoted log.requests job.requestId result).get? id = some tally →
        TalliedSince (calls ++ [Call.record now job result]) id tally := by
  have hretained : retained (calls ++ [Call.record now job result]) = retained calls :=
    retained_concat calls _
  have hnone : log.requests.get? 0 = none := by
    rw [← Option.not_isSome_iff_eq_none, h.known]
    exact h.nonzero
  have hzero : (outcomeNoted log.requests job.requestId result).get? 0 = none := by
    unfold outcomeNoted
    by_cases hid : job.requestId = 0
    · rw [if_pos hid, hnone]
    · rw [if_neg hid]
      cases log.requests.get? job.requestId with
      | none => exact hnone
      | some tally => exact (Dict.get?_set_of_ne _ _ (Ne.symm hid)).trans hnone
  refine ⟨?_, ?_⟩
  · intro id
    rw [hretained, ← h.known]
    by_cases hid : id = 0
    · rw [hid, hzero, hnone]
    · rw [get?_outcomeNoted _ _ _ hid]
      split
      · rw [Option.isSome_map]
      · rfl
  · intro id tally htally
    have hid : id ≠ 0 := by
      rintro rfl
      rw [hzero] at htally
      cases htally
    rw [get?_outcomeNoted _ _ _ hid] at htally
    have hknown : id ∈ retained (calls ++ [Call.record now job result]) := by
      rw [hretained, ← h.known]
      split at htally
      · obtain ⟨old, hold, -⟩ := Option.map_eq_some_iff.mp htally
        simp [hold]
      · simp [htally]
    by_cases hsame : job.requestId = id
    · rw [if_pos hsame] at htally
      obtain ⟨old, hold, rfl⟩ := Option.map_eq_some_iff.mp htally
      refine (h.tally id old hold).concat _ hknown ?_
      rintro jobs rs rfl
      rw [tallied_tallyOf]
      simp [resultsFor, hsame]
    · rw [if_neg hsame] at htally
      refine (h.tally id tally htally).concat _ hknown ?_
      rintro jobs rs rfl
      simp [resultsFor, hsame]

/-- **An outcome is counted everywhere it belongs.** -/
theorem accounts_record : Accounts (calls ++ [Call.record now job result]) (log.record now job result) := by
  have hresults : results (calls ++ [Call.record now job result]) = results calls ++ [result] :=
    results_concat calls _
  have hfailures : failuresOf 0 (calls ++ [Call.record now job result]) =
      failuresOf 0 calls ++ failuresOf (results calls).length [.record now job result] := by
    rw [failuresOf_concat, Nat.zero_add]
  have hretained : retained (calls ++ [Call.record now job result]) = retained calls :=
    retained_concat calls _
  obtain ⟨hknown, htally⟩ := accounts_requests_record h now job result
  have horder : log.requestOrder = retained (calls ++ [Call.record now job result]) := by
    rw [hretained, h.order]
  have hnodup : (retained (calls ++ [Call.record now job result])).Nodup := by
    rw [hretained]
    exact h.nodup
  have hnonzero : 0 ∉ retained (calls ++ [Call.record now job result]) := by
    rw [hretained]
    exact h.nonzero
  have hprogrammed (token : ℕ) (hne : token ≠ 0)
      (htoken : (log.record now job result).isProgrammed token = true) :
      ∃ now' job' result', .record now' job' result' ∈ calls ++ [Call.record now job result] ∧
        job'.token = token ∧ result'.ok = true ∧ result'.confirmsProgramming = true := by
    rcases isProgrammed_record hne htoken with hbefore | hconfirms
    · exact programmed_concat _ (h.programmed token hne hbefore)
    · exact ⟨now, job, result, List.mem_append_right _ List.mem_cons_self, hconfirms⟩
  -- the counters of every outcome, which the log counts before it looks whether it is a success
  have hdispatched : log.dispatched + 1 =
      .ofNat 64 (results (calls ++ [Call.record now job result])).length := by
    rw [hresults, List.length_append, List.length_singleton, BitVec.ofNat_add, h.dispatched]
    rfl
  have hcount {counter : BitVec 64} (p : OpResult → Prop) [DecidablePred p]
      (hcounter : counter = .ofNat 64 ((results calls).countP fun r => p r)) :
      (counter + if p result then 1 else 0) =
        .ofNat 64 ((results (calls ++ [Call.record now job result])).countP fun r => p r) := by
    rw [hresults, ofNat_countP_concat, hcounter]
  have haccepted := hcount (fun r => classifySwitchOutcome r = .acceptedBySwitch) h.accepted
  have hrejected := hcount (fun r => classifySwitchOutcome r = .rejectedBySwitch) h.rejected
  have hunknown := hcount (fun r => classifySwitchOutcome r = .unknown) h.unknown
  have hsucceeded := hcount (fun r => r.ok = true) (by simpa using h.succeeded)
  have hfailed := hcount (fun r => (!r.ok) = true) (by simpa using h.failed)
  simp only [Bool.decide_eq_true] at hsucceeded hfailed
  cases hok : result.ok with
  | true =>
    have hnone : failuresOf (results calls).length [.record now job result] = [] := by
      simp [failuresOf, hok]
    rw [hnone, List.append_nil] at hfailures
    obtain ⟨programmed, order, forgotten, hrecord⟩ := record_of_ok log now job hok
    rw [hrecord] at hprogrammed ⊢
    simp only [hok, if_true] at hsucceeded
    simp only [hok, Bool.not_true, Bool.false_eq_true, if_false, add_zero] at hfailed
    refine ⟨hdispatched, hsucceeded, hfailed, haccepted, hrejected, hunknown, ?_, ?_, horder,
      hnodup, hnonzero, hknown, htally, hprogrammed⟩
    · rw [hfailures]
      exact h.failures
    · rw [hfailures]
      exact h.evicted
  | false =>
    have hone : failuresOf (results calls).length [.record now job result] =
        [{ seq := log.dispatched + 1, atUnixMs := now, op := job.op, dpid := job.dpid
           requestedPriority := job.priority, matchFields := job.matchFields
           controllerStatus := result.httpStatus, message := result.message }] := by
      simp [failuresOf, hok, h.dispatched, BitVec.ofNat_add]
    rw [hone] at hfailures
    rw [record_of_not_ok log now job hok rfl] at hprogrammed ⊢
    simp only [hok, Bool.false_eq_true, if_false, add_zero] at hsucceeded
    simp only [hok, Bool.not_false, if_true] at hfailed
    refine ⟨hdispatched, hsucceeded, hfailed, haccepted, hrejected, hunknown, ?_, ?_, horder,
      hnodup, hnonzero, hknown, htally, hprogrammed⟩
    · rw [hfailures]
      show (log.failures ++ [_]).rtake log.capacity = _
      rw [h.failures, rtake_rtake_concat]
      rfl
    · rw [hfailures, List.length_append, List.length_singleton]
      show log.evicted + .ofNat 64 (log.failures.length + 1 - log.capacity) = _
      have hsum : (failuresOf 0 calls).length - log.capacity +
          (min log.capacity (failuresOf 0 calls).length + 1 - log.capacity) =
            (failuresOf 0 calls).length + 1 - log.capacity := by
        omega
      rw [h.evicted, h.failures, length_rtake, ← BitVec.ofNat_add, hsum]
      rfl

end Record

/-- The log after a call that registers a request. -/
theorem noteRequestEnqueued_of_new {log : DispatchOutcomeLog F} {id : ℕ} (jobs : ℕ) (hid : id ≠ 0)
    (hnew : (log.requests.get? id).isSome = false) :
    log.noteRequestEnqueued id jobs =
      let order := log.requestOrder ++ [id]
      let popped := order.take (order.length - requestBudget)
      { log with
        requests := popped.foldl Dict.erase (log.requests.set id { enqueued := jobs })
        requestOrder := order.rtake requestBudget
        requestsForgotten := log.requestsForgotten + .ofNat 64 popped.length } := by
  rw [noteRequestEnqueued, if_neg (by simp [hid, hnew]), popFront_eq]

/-- What is known after a request has been registered and the oldest ones have made room. -/
theorem get?_registered {d : Dict ℕ RequestTally} {known : List ℕ}
    (hknown : ∀ k, (d.get? k).isSome = true ↔ k ∈ known) {id : ℕ} (hnodup : (known ++ [id]).Nodup)
    (tally : RequestTally) (n k : ℕ) :
    (((known ++ [id]).take n).foldl Dict.erase (d.set id tally)).get? k =
      if k ∈ (known ++ [id]).drop n then (if k = id then some tally else d.get? k) else none := by
  have hsplit := List.take_append_drop n (known ++ [id])
  rw [← hsplit] at hnodup
  obtain ⟨-, -, hdisjoint⟩ := List.nodup_append.mp hnodup
  rw [get?_foldl_erase, Dict.get?_set]
  by_cases hdrop : k ∈ (known ++ [id]).drop n
  · have htake : k ∉ (known ++ [id]).take n := fun htake => hdisjoint k htake k hdrop rfl
    rw [if_neg htake, if_pos hdrop]
  · rw [if_neg hdrop]
    by_cases htake : k ∈ (known ++ [id]).take n
    · rw [if_pos htake]
    · -- neither forgotten nor kept, so it was not known
      have hnot : k ∉ known ++ [id] := by
        rw [← hsplit, List.mem_append, not_or]
        exact ⟨htake, hdrop⟩
      rw [List.mem_append, List.mem_singleton, not_or] at hnot
      rw [if_neg htake, if_neg hnot.2, ← Option.not_isSome_iff_eq_none, hknown]
      exact hnot.1

theorem results_note (calls : List (Call F)) (id jobs : ℕ) :
    results (calls ++ [Call.noteRequestEnqueued id jobs]) = results calls := by
  rw [results_concat]
  exact List.append_nil _

theorem failuresOf_note (calls : List (Call F)) (id jobs : ℕ) :
    failuresOf 0 (calls ++ [Call.noteRequestEnqueued id jobs]) = failuresOf 0 calls := by
  rw [failuresOf_concat]
  exact List.append_nil _

section Note

variable {calls : List (Call F)} {log : DispatchOutcomeLog F} (h : Accounts calls log)
  (id jobs : ℕ)
include h

theorem Accounts.programmed_note (token : ℕ) (hne : token ≠ 0)
    (htoken : (log.noteRequestEnqueued id jobs).isProgrammed token = true) :
    ∃ now job result, .record now job result ∈ calls ++ [Call.noteRequestEnqueued id jobs] ∧
      job.token = token ∧ result.ok = true ∧ result.confirmsProgramming = true := by
  refine programmed_concat _ (h.programmed token hne ?_)
  rwa [isProgrammed, noteRequestEnqueued_programmed] at htoken

/-- The note of a request that is known, or has no number, changes nothing. -/
theorem Accounts.note_known (hknown : id = 0 ∨ id ∈ retained calls) :
    Accounts (calls ++ [Call.noteRequestEnqueued id jobs]) (log.noteRequestEnqueued id jobs) := by
  have hresults := results_note calls id jobs
  have hfailures := failuresOf_note calls id jobs
  have hretained : retained (calls ++ [Call.noteRequestEnqueued id jobs]) = retained calls := by
    rw [retained_concat, register, if_pos (by exact hknown)]
    rfl
  have hlog : log.noteRequestEnqueued id jobs = log := by
    rw [noteRequestEnqueued, if_pos]
    exact hknown.imp_right (h.known id).mpr
  have hprogrammed := h.programmed_note id jobs
  rw [hlog] at hprogrammed ⊢
  refine ⟨?_, ?_, ?_, ?_, ?_, ?_, ?_, ?_, ?_, ?_, ?_, ?_, ?_, hprogrammed⟩
  · rw [hresults, h.dispatched]
  · rw [hresults, h.succeeded]
  · rw [hresults, h.failed]
  · rw [hresults, h.accepted]
  · rw [hresults, h.rejected]
  · rw [hresults, h.unknown]
  · rw [hfailures, ← h.failures]
  · rw [hfailures, h.evicted]
  · rw [hretained, h.order]
  · rw [hretained]
    exact h.nodup
  · rw [hretained]
    exact h.nonzero
  · rw [hretained]
    exact h.known
  · intro id' tally htally
    refine (h.tally id' tally htally).concat _ ?_ ?_
    · rw [hretained, ← h.known, htally]
      rfl
    · rintro jobs rs rfl
      exact congrArg (tallyOf jobs) (List.append_nil rs).symm

/-- The note of a new request opens its tally, and the oldest ones go beyond the budget. -/
theorem Accounts.note_new (hid : id ≠ 0) (hnew : id ∉ retained calls) :
    Accounts (calls ++ [Call.noteRequestEnqueued id jobs]) (log.noteRequestEnqueued id jobs) := by
  have hresults := results_note calls id jobs
  have hfailures := failuresOf_note calls id jobs
  have hprogrammed := h.programmed_note id jobs
  have hget : (log.requests.get? id).isSome = false := by
    rw [← Bool.not_eq_true, h.known]
    exact hnew
  have hretained : retained (calls ++ [Call.noteRequestEnqueued id jobs]) =
      (retained calls ++ [id]).rtake requestBudget := by
    rw [retained_concat, register, if_neg (by exact not_or.mpr ⟨hid, hnew⟩), retained,
      rtake_rtake_concat]
  have hall : (retained calls ++ [id]).Nodup :=
    List.nodup_append.mpr ⟨h.nodup, List.nodup_singleton id, fun a ha b hb hab => by
      rw [hab, List.mem_singleton.mp hb] at ha
      exact hnew ha⟩
  have hread (k : ℕ) := get?_registered h.known hall { enqueued := jobs }
    ((retained calls ++ [id]).length - requestBudget) k
  rw [← List.rtake, ← hretained] at hread
  have hisKept : id ∈ retained (calls ++ [Call.noteRequestEnqueued id jobs]) := by
    rw [hretained]
    exact mem_rtake_concat (by decide) _ id
  rw [noteRequestEnqueued_of_new jobs hid hget, h.order] at hprogrammed ⊢
  refine ⟨?_, ?_, ?_, ?_, ?_, ?_, ?_, ?_, ?_, ?_, ?_, fun k => ?_,
    fun k tally htally => ?_, hprogrammed⟩
  · rw [hresults]
    exact h.dispatched
  · rw [hresults]
    exact h.succeeded
  · rw [hresults]
    exact h.failed
  · rw [hresults]
    exact h.accepted
  · rw [hresults]
    exact h.rejected
  · rw [hresults]
    exact h.unknown
  · rw [hfailures]
    exact h.failures
  · rw [hfailures]
    exact h.evicted
  · rw [hretained]
  · rw [hretained]
    exact hall.sublist (List.drop_sublist _ _)
  · rw [hretained]
    intro hzero
    rcases List.mem_append.mp (List.mem_of_mem_drop hzero) with hzero | hzero
    · exact h.nonzero hzero
    · exact hid (List.mem_singleton.mp hzero).symm
  · dsimp only
    rw [hread]
    by_cases hk : k = id
    · rw [hk, if_pos hisKept, if_pos rfl]
      exact iff_of_true rfl hisKept
    · by_cases hin : k ∈ retained (calls ++ [Call.noteRequestEnqueued id jobs])
      · have hwas : k ∈ retained calls := by
          rw [hretained] at hin
          refine (List.mem_append.mp (List.mem_of_mem_drop hin)).resolve_right ?_
          intro hlast
          exact hk (List.mem_singleton.mp hlast)
        rw [if_pos hin, if_neg hk]
        exact iff_of_true ((h.known k).mpr hwas) hin
      · rw [if_neg hin]
        exact iff_of_false (by simp) hin
  · dsimp only at htally
    rw [hread] at htally
    split at htally
    · next hin =>
      split at htally
      · next hk =>
        cases htally
        subst hk
        refine ⟨calls, jobs, [], rfl, ⟨hid, hnew⟩, ?_, rfl⟩
        intro later hlater
        rw [List.prefix_nil.mp hlater]
        exact hin
      · refine (h.tally k tally htally).concat _ hin ?_
        rintro jobs rs rfl
        exact congrArg (tallyOf jobs) (List.append_nil rs).symm
    · cases htally

end Note

/-- **A request is registered**, and the oldest one makes room for it. -/
theorem accounts_note {calls : List (Call F)} {log : DispatchOutcomeLog F} (h : Accounts calls log)
    (id jobs : ℕ) :
    Accounts (calls ++ [Call.noteRequestEnqueued id jobs]) (log.noteRequestEnqueued id jobs) := by
  by_cases hknown : id = 0 ∨ id ∈ retained calls
  · exact h.note_known id jobs hknown
  · rw [not_or] at hknown
    exact h.note_new id jobs hknown.1 hknown.2

/-- **One call keeps the accounts.** -/
theorem accounts_apply {calls : List (Call F)} {log : DispatchOutcomeLog F} (h : Accounts calls log)
    (call : Call F) : Accounts (calls ++ [call]) (log.apply call) := by
  cases call with
  | noteRequestEnqueued id jobs => exact accounts_note h id jobs
  | record now job result => exact accounts_record h now job result

theorem accounts_replay (capacity : ℕ) (calls : List (Call F)) :
    Accounts calls (replay capacity calls) := by
  induction calls using List.reverseRecOn with
  | nil => exact accounts_new capacity
  | append_singleton calls call ih =>
    rw [replay, List.foldl_concat]
    exact accounts_apply ih call

/-! ### What the log says -/

theorem countP_outcome_add (rs : List OpResult) :
    (rs.countP fun r => classifySwitchOutcome r = .acceptedBySwitch) +
      (rs.countP fun r => classifySwitchOutcome r = .rejectedBySwitch) +
      (rs.countP fun r => classifySwitchOutcome r = .unknown) = rs.length := by
  induction rs with
  | nil => rfl
  | cons r rs ih =>
    cases hclass : classifySwitchOutcome r with
    | acceptedBySwitch =>
      simp [hclass]
      omega
    | rejectedBySwitch =>
      simp [hclass]
      omega
    | unknown =>
      simp [hclass]
      omega

/-- **The log says what the calls say**, for every sequence of calls. -/
theorem replay_accounted (capacity : ℕ) (calls : List (Call F)) :
    Accounted calls (replay capacity calls) := by
  have h := accounts_replay capacity calls
  have htallyFor (id : ℕ) : (replay capacity calls).tallyFor id =
      (replay capacity calls).requests.get? id := by
    unfold tallyFor
    split
    · next hid =>
      rw [hid, eq_comm, ← Option.not_isSome_iff_eq_none, h.known]
      exact h.nonzero
    · rfl
  refine ⟨?_, ?_, h.dispatched, h.failures, ?_, fun id => ?_, fun id tally htally => ?_,
    h.programmed⟩
  · rw [h.dispatched, h.succeeded, h.failed, ← BitVec.ofNat_add,
      List.length_eq_countP_add_countP fun r : OpResult => r.ok]
    simp only [Bool.not_eq_true, Bool.decide_eq_false]
  · rw [h.dispatched, h.accepted, h.rejected, h.unknown, ← BitVec.ofNat_add, ← BitVec.ofNat_add,
      countP_outcome_add]
  · have hsum : (failuresOf 0 calls).length =
        ((failuresOf 0 calls).length - (replay capacity calls).capacity) +
          min (replay capacity calls).capacity (failuresOf 0 calls).length := by
      omega
    have hfailed : (replay capacity calls).failed = (replay capacity calls).evicted +
        .ofNat 64 (replay capacity calls).failures.length := by
      rw [h.evicted, h.failures, length_rtake, ← BitVec.ofNat_add, ← hsum, h.failed,
        length_failuresOf]
    rw [hfailed, BitVec.add_sub_cancel]
  · rw [htallyFor]
    exact h.known id
  · rw [htallyFor] at htally
    exact h.tally id tally htally

/-! ### A request with too many outcomes -/

/-- A success of a request's job. -/
def sentOk : Call Empty :=
  .record 0 { dpid := 1, op := .install, priority := 10, matchFields := .null, requestId := 1 }
    { ok := true }

/-- Outcomes of a request that is known go on in its tally. -/
theorem get?_foldl_sentOk {log : DispatchOutcomeLog Empty} {rs : List OpResult}
    (hget : log.requests.get? 1 = some (tallyOf 1 rs)) (n : ℕ) :
    ((List.replicate n sentOk).foldl apply log).requests.get? 1 =
      some (tallyOf 1 (rs ++ List.replicate n { ok := true })) := by
  induction n generalizing log rs with
  | zero => simpa using hget
  | succ n ih =>
    have hnext : (log.apply sentOk).requests.get? 1 = some (tallyOf 1 (rs ++ [{ ok := true }])) := by
      obtain ⟨programmed, order, forgotten, hrecord⟩ := record_of_ok log 0
        { dpid := 1, op := .install, priority := 10, matchFields := .null, requestId := 1 }
        (show ({ ok := true } : OpResult).ok = true from rfl)
      rw [sentOk, apply, hrecord]
      show (outcomeNoted log.requests 1 { ok := true }).get? 1 = _
      rw [get?_outcomeNoted _ _ _ Nat.one_ne_zero, if_pos rfl, hget, Option.map_some,
        tallied_tallyOf]
    rw [List.replicate_succ, List.foldl_cons, ih hnext, List.append_assoc, List.replicate_succ]
    rfl

/-- The tally of a request after outcomes of its jobs. -/
theorem tally_sentOk (n : ℕ) :
    (resultsFor 1 (List.replicate n sentOk)).length = n ∧
      ∃ tally, (replay 1 (.noteRequestEnqueued 1 1 :: List.replicate n sentOk)).tallyFor 1 =
          some tally ∧ tally.dispatched = .ofNat 64 n := by
  have hresults : resultsFor 1 (List.replicate n sentOk) = List.replicate n { ok := true } := by
    induction n with
    | zero => rfl
    | succ n ih =>
      rw [List.replicate_succ, List.replicate_succ, ← ih]
      rfl
  have hregistered : ((new 1).noteRequestEnqueued 1 1 : DispatchOutcomeLog Empty).requests.get? 1 =
      some (tallyOf 1 []) := by
    decide +kernel
  have hget := get?_foldl_sentOk hregistered n
  rw [hresults, List.length_replicate]
  refine ⟨rfl, _, (if_neg Nat.one_ne_zero).trans hget, ?_⟩
  rw [List.nil_append, tallyOf, List.length_replicate]

/-- **After `2 ^ 64` outcomes the tally of a request is zero.** -/
theorem tally_wraps :
    (resultsFor 1 (List.replicate (2 ^ 64) sentOk)).length = 2 ^ 64 ∧
      ∃ tally, (replay 1 (.noteRequestEnqueued 1 1 :: List.replicate (2 ^ 64) sentOk)).tallyFor 1 =
          some tally ∧ tally.dispatched.toNat = 0 := by
  obtain ⟨hlength, tally, htally, hdispatched⟩ := tally_sentOk (2 ^ 64)
  refine ⟨hlength, tally, htally, ?_⟩
  rw [hdispatched, BitVec.toNat_ofNat, Nat.mod_self]

end DispatchOutcomeLog

end NDTwin.FlowTables
