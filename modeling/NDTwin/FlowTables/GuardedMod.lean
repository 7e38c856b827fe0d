import NDTwin.FlowTables.Outcomes

/-!
# Group and meter entries

A write to a group or a meter table is forwarded by the controller before the switch has seen it,
so that its answer says nothing about the switch.  `guardedMod` therefore reads the table first and
refuses what the switch would refuse, and reads it again after the write, up to three times, before
it says that an entry was installed, modified or deleted.

Every request is a run of `curl`, and what comes back may be anything: no output at all, a status
that is no success, or a body that is no table.  What the southbound answers may depend on all that
it was asked before.

## Main definitions

* `splitBodyAndStatus`, `get`, `post` — what is made of the output of `curl`.
* `entryExists` — whether a table lists an entry, in three values.
* `guardedMod` — the operation, with all that was asked and answered.
* `Witnessed` — what an outcome rests on.

## Main results

* `verify_spec` — the loop of read-backs.
* `guardedMod_witnessed` — **no outcome says more than the answers do.**
-/

namespace NDTwin.FlowTables

variable {F : Type}

/-! ### Requests -/

/-- What came of a run of `curl`. -/
structure CommandOutcome where
  ran : Bool
  status : ℤ
  output : List Char
  deriving DecidableEq, Repr

/-- What curl's output told. -/
structure CurlOutput where
  body : List Char
  httpStatus : ℤ := 0
  statusLinePresent : Bool := false
  deriving DecidableEq, Repr

/-- `splitBodyAndStatus(output)`: the last line is the status. -/
def splitBodyAndStatus (output : List Char) : CurlOutput :=
  if '\n' ∈ output then
    match CText.stoi (output.reverse.takeWhile (· ≠ '\n')).reverse with
    | .error _ => { body := output }
    | .ok status =>
      { body := ((output.reverse.dropWhile (· ≠ '\n')).drop 1).reverse
        httpStatus := status
        statusLinePresent := true }
  else { body := output }

/-- `briefly(text)`. -/
def briefly (text : List Char) : String :=
  let out := text.map fun c => if c = '\n' ∨ c = '\r' then ' ' else c
  if 200 < out.length then String.ofList (out.take 200) ++ "..." else String.ofList out

/-- A result with the name of what happened. -/
structure ModResult extends OpResult where
  outcome : String := ""
  deriving DecidableEq, Repr

namespace ModResult

/-- `withOutcome(name)`. -/
def withOutcome (result : ModResult) (name : String) : ModResult := { result with outcome := name }

/-- `OpResult::success(status)`. -/
def success (status : ℤ) : ModResult := { ok := true, httpStatus := status }

/-- `OpResult::failure(status, why)`. -/
def failure (status : ℤ) (why : String) : ModResult := { httpStatus := status, message := why }

/-- `OpResult::unreachable(why)`. -/
def unreachable (why : String) : ModResult := { message := why }

/-- `OpResult::notSent(why)`. -/
def notSent (why : String) : ModResult := { httpStatus := 500, message := why }

end ModResult

/-- A controller or a proxy that is reached over HTTP.  `parse` is `json::parse`. -/
structure Strategy (F : Type) where
  describe : String
  apiUrl : String
  successConfirmsProgramming : Bool
  describeCommandStatus : ℤ → String → String
  parse : List Char → Option (Json F)

/-- What `get` and `post` make of an answer that is no success. -/
def Strategy.refusal? (st : Strategy F) (outcome : CommandOutcome) (refused : Bool) :
    Option ModResult :=
  let curl := splitBodyAndStatus outcome.output
  if outcome.ran = false then
    some (.notSent ("this kernel could not run curl, so the " ++ st.describe ++ " at " ++ st.apiUrl
      ++ " was never asked: " ++ st.describeCommandStatus outcome.status ""))
  else if curl.statusLinePresent = false then
    some (.notSent ("curl produced no status line, so the " ++ st.describe ++ " at " ++ st.apiUrl
      ++ " was never asked: " ++ st.describeCommandStatus outcome.status "curl"))
  else if curl.httpStatus = 0 then
    some (.unreachable ("no response from " ++ st.describe ++ " at " ++ st.apiUrl ++ " within 5s"))
  else if curl.httpStatus < 200 ∨ 300 ≤ curl.httpStatus then
    some { ModResult.failure curl.httpStatus (st.describe ++ " returned HTTP "
        ++ toString curl.httpStatus ++
          (if curl.body = [] then "" else ": " ++ briefly curl.body)) with
      confirmsNotProgrammed := refused }
  else none

/-- `get(path, operation)`: the result, and the body. -/
def Strategy.get (st : Strategy F) (outcome : CommandOutcome) : ModResult × List Char :=
  let curl := splitBodyAndStatus outcome.output
  ((st.refusal? outcome false).getD (.success curl.httpStatus), curl.body)

/-- A body that reports an error, whatever its status. -/
def reportsError : Json F → Bool
  | .obj fields =>
    match fields.lookup "status" with
    | some (.str s) => s = "error"
    | _ => false
  | _ => false

/-- `post(path, body, operation)`. -/
def Strategy.post (st : Strategy F) (outcome : CommandOutcome) : ModResult :=
  let curl := splitBodyAndStatus outcome.output
  match st.refusal? outcome st.successConfirmsProgramming with
  | some refusal => refusal
  | none =>
    if curl.body ≠ [] ∧ (st.parse curl.body).any reportsError then
      { ModResult.failure curl.httpStatus (st.describe ++ " reported an error in a "
          ++ toString curl.httpStatus ++ " response: " ++ briefly curl.body) with
        confirmsNotProgrammed := st.successConfirmsProgramming }
    else
      { ModResult.success curl.httpStatus with
        confirmsProgramming := st.successConfirmsProgramming }

/-! ### Entries -/

/-- Which of the two tables. -/
inductive EntryKind where
  | group | meter
  deriving DecidableEq, Repr

/-- Which command. -/
inductive EntryOp where
  | add | modify | delete
  deriving DecidableEq, Repr

/-- Whether a switch holds an entry, as far as that could be read. -/
inductive Existence where
  | present | absent | unknown
  deriving DecidableEq, Repr

/-- The word for an entry. -/
def EntryKind.noun : EntryKind → String
  | group => "group"
  | meter => "meter"

/-- The member that names an entry. -/
def EntryKind.idField : EntryKind → String
  | group => "group_id"
  | meter => "meter_id"

/-- `readEntryId(j, field, out)`: an absent id names entry 0. -/
def readEntryId (j : Json F) (field : String) : Option ℤ :=
  match j.find field with
  | none => some 0
  | some (.int n) => some (BitVec.ofInt 64 n).toInt
  | some _ => none

/-- `readDpid(j, out)`. -/
def readDpid (j : Json F) : Option ℕ :=
  match j.find "dpid" with
  | some (.int n) => if n < 0 then none else some (BitVec.ofInt 64 n).toNat
  | _ => none

/-- The switch and the id that a request names. -/
def addressOf (j : Json F) (kind : EntryKind) : Option (ℕ × ℤ) :=
  match readDpid j with
  | none => none
  | some dpid => (readEntryId j kind.idField).map fun id => (dpid, id)

/-- Whether an entry of a reply has an id. -/
def hasId (field : String) (id : ℤ) (entry : Json F) : Bool :=
  match entry.find field with
  | some (.int n) => (BitVec.ofInt 64 n).toInt = id
  | _ => false

/-- What the answer to a read says of an entry. -/
def Strategy.reading (st : Strategy F) (kind : EntryKind) (dpid : ℕ) (id : ℤ)
    (outcome : CommandOutcome) : Existence :=
  let (result, body) := st.get outcome
  if result.ok = false then .unknown
  else
    match (st.parse body).bind fun parsed => parsed.find (toString dpid) with
    | some (.arr entries) => if entries.any (hasId kind.idField id) then .present else .absent
    | _ => .unknown

/-! ### The operation -/

/-- What is asked of the southbound. -/
inductive Request (F : Type) where
  | get (path : String)
  | post (path : String) (body : Json F)

/-- A request and its answer. -/
abbrev Exchange (F : Type) := Request F × CommandOutcome

/-- How a southbound answers the next request, after all that was said before. -/
abbrev Southbound (F : Type) := List (Exchange F) → Request F → CommandOutcome

/-- The path that lists the entries. -/
def entriesPath : EntryKind → ℕ → ℤ → String
  | .group, dpid, _ => "/stats/groupdesc/" ++ toString dpid
  | .meter, dpid, id => "/stats/meterconfig/" ++ toString dpid ++ "/" ++ toString id

section Guarded

variable (st : Strategy F) (south : Southbound F) (kind : EntryKind)

/-- `entryExists(kind, dpid, id)`. -/
def entryExists (dpid : ℕ) (id : ℤ) (log : List (Exchange F)) : Existence × List (Exchange F) :=
  let request := Request.get (entriesPath kind dpid id)
  let answer := south log request
  (st.reading kind dpid id answer, log ++ [(request, answer)])

/-- `VERIFY_ATTEMPTS`. -/
def verifyAttempts : ℕ := 3

/-- What a table shows where an operation has taken effect. -/
def EntryOp.expected : EntryOp → Existence
  | delete => .absent
  | _ => .present

/-- The loop of read-backs, with the attempts it has left and what the last one found. -/
def verify (dpid : ℕ) (id : ℤ) (expected : Existence) :
    ℕ → Existence → List (Exchange F) → Existence × List (Exchange F)
  | 0, after, log => (after, log)
  | attempts + 1, _, log =>
    let (after, log) := entryExists st south kind dpid id log
    if after = expected ∨ after = .unknown then (after, log)
    else verify dpid id expected attempts after log

/-- The outcome of an operation that took effect. -/
def EntryOp.done : EntryOp → String
  | add => "installed"
  | modify => "modified"
  | delete => "deleted"

/-- The entry, as messages name it. -/
def named (dpid : ℕ) (id : ℤ) : String :=
  kind.noun ++ " " ++ toString id ++ " on dpid " ++ toString dpid

/-- What is said where the check before the write found a conflict. -/
def conflict? (op : EntryOp) (dpid : ℕ) (id : ℤ) (before : Existence) : Option ModResult :=
  if op = .add ∧ before = .present then
    some ((ModResult.failure 409 (named kind dpid id ++ " already exists; ADD would be rejected "
      ++ "by the switch and the existing entry kept")).withOutcome
        ("no_change_" ++ kind.noun ++ "_exists"))
  else if op ≠ .add ∧ before = .absent then
    some ((ModResult.failure 404 ("no such " ++ named kind dpid id ++ "; nothing was "
      ++ (if op = .delete then "deleted" else "modified"))).withOutcome ("no_such_" ++ kind.noun))
  else none

/-- What is said after the last read-back. -/
def verdict (op : EntryOp) (dpid : ℕ) (id : ℤ) (result : ModResult) (after : Existence) :
    ModResult :=
  if after = .unknown then result.withOutcome "unverified"
  else if after ≠ op.expected then
    if op = .delete then
      (ModResult.failure 502 (named kind dpid id ++ " is still on the switch after the delete was "
        ++ "forwarded and acknowledged; it was NOT deleted")).withOutcome "still_present"
    else
      (ModResult.failure 502 (named kind dpid id ++ " is not on the switch after the "
        ++ (if op = .add then "install" else "modify")
        ++ " was forwarded and acknowledged; the switch did NOT take it")).withOutcome "absent"
  else result.withOutcome op.done

/-- `guardedMod(j, kind, op, path, operation)`: the result, and all that was asked. -/
def guardedMod (j : Json F) (op : EntryOp) (path : String) : ModResult × List (Exchange F) :=
  match addressOf j kind with
  | none =>
    -- nothing can be looked up, and the body goes as it is
    let request := Request.post path j
    let answer := south [] request
    let result := st.post answer
    let log := [(request, answer)]
    if result.ok = false then (result, log) else (result.withOutcome "unverified", log)
  | some (dpid, id) =>
    let (before, log) := entryExists st south kind dpid id []
    match conflict? kind op dpid id before with
    | some refusal => (refusal, log)
    | none =>
      -- a delete carries nothing but the names
      let outbound :=
        if op = .delete then .obj [("dpid", .int dpid), (kind.idField, .int id)] else j
      let request := Request.post path outbound
      let answer := south log request
      let result := st.post answer
      let log := log ++ [(request, answer)]
      if result.ok = false then (result, log)
      else if before = .unknown then (result.withOutcome "unverified", log)
      else
        let (after, log) := verify st south kind dpid id op.expected verifyAttempts .unknown log
        (verdict kind op dpid id result after, log)

end Guarded

/-! ### What an outcome rests on -/

/-- Whether a request only reads. -/
def Request.isRead : Request F → Bool
  | get _ => true
  | post _ _ => false

/-- The exchanges before the write. -/
def beforeWrite (log : List (Exchange F)) : List (Exchange F) := log.takeWhile (·.1.isRead)

/-- The write. -/
def writeOf (log : List (Exchange F)) : Option (Exchange F) :=
  (log.dropWhile (·.1.isRead)).head?

/-- The exchanges after the write. -/
def afterWrite (log : List (Exchange F)) : List (Exchange F) := (log.dropWhile (·.1.isRead)).tail

/-- What the last of some reads found, or `after` where there is none. -/
def lastReading (read : CommandOutcome → Existence) (after : Existence) (log : List (Exchange F)) :
    Existence :=
  log.foldl (fun _ e => read e.2) after

/-- What an answer says of the entry that a request names. -/
def Strategy.readFor (st : Strategy F) (j : Json F) (kind : EntryKind) (answer : CommandOutcome) :
    Existence :=
  match addressOf j kind with
  | none => .unknown
  | some (dpid, id) => st.reading kind dpid id answer

/-- The switch would refuse the operation, or do nothing. -/
def Conflicts (op : EntryOp) (before : Existence) : Prop :=
  op = .add ∧ before = .present ∨ op ≠ .add ∧ before = .absent

/-- A write was sent, and it was accepted. -/
def WriteAccepted (st : Strategy F) (log : List (Exchange F)) : Prop :=
  ∃ e, writeOf log = some e ∧ (st.post e.2).ok = true

/-- Every answer is the southbound's. -/
def ByTheSouthbound (south : Southbound F) (log : List (Exchange F)) : Prop :=
  ∀ before e after, log = before ++ e :: after → e.2 = south before e.1

/-- What an operation reports is what it was answered. -/
structure Witnessed (st : Strategy F) (south : Southbound F) (kind : EntryKind) (j : Json F)
    (op : EntryOp) (result : ModResult) (log : List (Exchange F)) : Prop where
  answered : ByTheSouthbound south log
  /-- An entry is said to be installed, modified or deleted where it was seen to be. -/
  claimed : ∀ op' : EntryOp, result.outcome = op'.done →
    op' = op ∧ lastReading (st.readFor j kind) .unknown (beforeWrite log) ≠ .unknown ∧
      ¬ Conflicts op (lastReading (st.readFor j kind) .unknown (beforeWrite log)) ∧
      WriteAccepted st log ∧
      lastReading (st.readFor j kind) .unknown (afterWrite log) = op.expected
  /-- What could not be read is no failure. -/
  unverified : WriteAccepted st log →
    lastReading (st.readFor j kind) .unknown (beforeWrite log) = .unknown ∨
      lastReading (st.readFor j kind) .unknown (afterWrite log) = .unknown →
    result.outcome = "unverified" ∧ result.ok = true
  attempts : (∀ e ∈ afterWrite log, e.1.isRead = true) ∧ (afterWrite log).length ≤ verifyAttempts
  unsent : Conflicts op (lastReading (st.readFor j kind) .unknown (beforeWrite log)) →
    writeOf log = none

section Log

variable {reads backs : List (Exchange F)} {w : Exchange F}

theorem log_of_reads (hreads : ∀ e ∈ reads, e.1.isRead = true) :
    beforeWrite reads = reads ∧ writeOf reads = none ∧ afterWrite reads = [] := by
  rw [beforeWrite, writeOf, afterWrite, List.takeWhile_eq_self_iff.mpr hreads,
    List.dropWhile_eq_nil_iff.mpr hreads]
  exact ⟨rfl, rfl, rfl⟩

theorem log_of_write (hreads : ∀ e ∈ reads, e.1.isRead = true) (hw : w.1.isRead = false) :
    beforeWrite (reads ++ w :: backs) = reads ∧ writeOf (reads ++ w :: backs) = some w ∧
      afterWrite (reads ++ w :: backs) = backs := by
  have hdrop : (reads ++ w :: backs).dropWhile (·.1.isRead) = w :: backs := by
    rw [List.dropWhile_append_of_pos hreads, List.dropWhile_cons_of_neg (by simp [hw])]
  refine ⟨?_, ?_, ?_⟩
  · rw [beforeWrite, List.takeWhile_append_of_pos hreads, List.takeWhile_cons_of_neg (by simp [hw]),
      List.append_nil]
  · rw [writeOf, hdrop, List.head?_cons]
  · rw [afterWrite, hdrop, List.tail_cons]

theorem ByTheSouthbound.concat {south : Southbound F} {log : List (Exchange F)}
    (h : ByTheSouthbound south log) (request : Request F) : ByTheSouthbound south (log ++ [(request, south log request)]) := by
  intro before e after hsplit
  rcases List.eq_nil_or_concat after with rfl | ⟨after, last, rfl⟩
  · obtain ⟨rfl, he⟩ := List.append_inj' hsplit rfl
    rw [← List.cons.inj he |>.1]
  · rw [List.concat_eq_append, ← List.cons_append, ← List.append_assoc] at hsplit
    exact h before e after (List.append_inj' hsplit rfl).1

theorem byTheSouthbound_nil (south : Southbound F) : ByTheSouthbound south [] := by
  intro before e after hsplit
  cases before with
  | nil => cases hsplit
  | cons _ _ => cases hsplit

end Log

/-! ### One operation -/

section Operation

variable {st : Strategy F} {south : Southbound F} {kind : EntryKind} {j : Json F} {op : EntryOp}

theorem outcome_refusal {outcome : CommandOutcome} {refused : Bool} {refusal : ModResult}
    (h : st.refusal? outcome refused = some refusal) : refusal.outcome = "" ∧ refusal.ok = false := by
  unfold Strategy.refusal? at h
  dsimp only at h
  split at h
  · cases h; exact ⟨rfl, rfl⟩
  · split at h
    · cases h; exact ⟨rfl, rfl⟩
    · split at h
      · cases h; exact ⟨rfl, rfl⟩
      · split at h
        · cases h; exact ⟨rfl, rfl⟩
        · cases h

/-- A write has no outcome of its own. -/
theorem outcome_post (outcome : CommandOutcome) : (st.post outcome).outcome = "" := by
  rw [Strategy.post]
  cases hrefusal : st.refusal? outcome st.successConfirmsProgramming with
  | some refusal => exact (outcome_refusal hrefusal).1
  | none =>
    dsimp only
    split_ifs
    · rfl
    · rfl

theorem done_ne (op' : EntryOp) : op'.done ≠ "" ∧ op'.done ≠ "unverified" := by
  cases op' <;> decide

theorem done_inj {op op' : EntryOp} (h : op.done = op'.done) : op = op' := by
  revert h
  cases op <;> cases op' <;> decide

theorem conflict?_eq_none_iff {dpid : ℕ} {id : ℤ} {before : Existence} :
    conflict? kind op dpid id before = none ↔ ¬ Conflicts op before := by
  rw [conflict?, Conflicts]
  split_ifs with hadd hother
  · simp [hadd]
  · simp [hother]
  · simp only [true_iff, not_or]
    exact ⟨hadd, hother⟩

theorem outcome_conflict {dpid : ℕ} {id : ℤ} {before : Existence} {refusal : ModResult}
    (h : conflict? kind op dpid id before = some refusal) (op' : EntryOp) :
    refusal.outcome ≠ op'.done := by
  unfold conflict? at h
  split at h
  · cases h
    show "no_change_" ++ kind.noun ++ "_exists" ≠ op'.done
    cases kind <;> cases op' <;> decide
  · split at h
    · cases h
      show "no_such_" ++ kind.noun ≠ op'.done
      cases kind <;> cases op' <;> decide
    · cases h

/-- **The loop of read-backs** reads no more often than it may, and keeps the last reading. -/
theorem verify_spec (st : Strategy F) (kind : EntryKind) (dpid : ℕ) (id : ℤ) (expected : Existence)
    (attempts : ℕ) (after : Existence) (log : List (Exchange F)) (hlog : ByTheSouthbound south log) :
    ∃ backs, (verify st south kind dpid id expected attempts after log).2 = log ++ backs ∧
      (∀ e ∈ backs, e.1.isRead = true) ∧ backs.length ≤ attempts ∧
      (verify st south kind dpid id expected attempts after log).1 =
        lastReading (st.reading kind dpid id) after backs ∧
      ByTheSouthbound south (log ++ backs) := by
  induction attempts generalizing after log with
  | zero =>
    refine ⟨[], (List.append_nil log).symm, by simp, le_refl _, rfl, ?_⟩
    rwa [List.append_nil]
  | succ attempts ih =>
    have hnext := hlog.concat (.get (entriesPath kind dpid id))
    rw [verify]
    dsimp only [entryExists]
    split_ifs
    · refine ⟨[_], rfl, ?_, by simp, rfl, hnext⟩
      simp [Request.isRead]
    · obtain ⟨backs, hlog', hreads, hlength, hlast, hanswered⟩ := ih
        (st.reading kind dpid id (south log (.get (entriesPath kind dpid id)))) _ hnext
      rw [List.append_assoc] at hlog' hanswered
      refine ⟨_ :: backs, hlog', ?_, Nat.succ_le_succ hlength, hlast, hanswered⟩
      intro e he
      rcases List.mem_cons.mp he with rfl | he
      · rfl
      · exact hreads e he

/-- An operation that ended with the answer to its write. -/
theorem witnessed_of_write (reads : List (Exchange F)) (path : String) (body : Json F)
    {result : ModResult} (hreads : ∀ e ∈ reads, e.1.isRead = true)
    (hanswered : ByTheSouthbound south reads)
    (hfits : ¬ Conflicts op (lastReading (st.readFor j kind) .unknown reads))
    (hresult : (st.post (south reads (.post path body))).ok = false ∧
        result = st.post (south reads (.post path body)) ∨
      result = (st.post (south reads (.post path body))).withOutcome "unverified") :
    Witnessed st south kind j op result
      (reads ++ [(.post path body, south reads (.post path body))]) := by
  obtain ⟨hbefore, hwrite, hafter⟩ :
      beforeWrite (reads ++ [(.post path body, south reads (.post path body))]) = reads ∧ _ :=
    log_of_write hreads rfl
  refine ⟨hanswered.concat _, ?_, ?_, ?_, ?_⟩
  · intro op' hdone
    rcases hresult with ⟨-, rfl⟩ | rfl
    · rw [outcome_post] at hdone
      exact absurd hdone.symm (done_ne op').1
    · exact absurd hdone.symm (done_ne op').2
  · rintro ⟨e, he, hok⟩ -
    rw [hwrite, Option.some.injEq] at he
    subst he
    rcases hresult with ⟨hno, -⟩ | rfl
    · rw [hno] at hok
      cases hok
    · exact ⟨rfl, hok⟩
  · rw [hafter]
    simp
  · intro hconflict
    rw [hbefore] at hconflict
    exact absurd hconflict hfits

/-- The verdict of an operation that read its entry back. -/
theorem outcome_verdict {dpid : ℕ} {id : ℤ} {result : ModResult} {after : Existence} :
    (∀ op' : EntryOp, (verdict kind op dpid id result after).outcome = op'.done →
      op' = op ∧ after = op.expected) ∧
    (after = .unknown → verdict kind op dpid id result after = result.withOutcome "unverified") := by
  rw [verdict]
  split
  · next hunknown =>
    exact ⟨fun op' hdone => absurd hdone.symm (done_ne op').2, fun _ => rfl⟩
  · next hreadable =>
    refine ⟨?_, fun hunknown => absurd hunknown hreadable⟩
    intro op' hdone
    split at hdone
    · exfalso
      revert hdone
      split
      · show "still_present" = op'.done → False
        cases op' <;> decide
      · show "absent" = op'.done → False
        cases op' <;> decide
    · next hexpected => exact ⟨(done_inj hdone).symm, not_not.mp hexpected⟩

/-- An operation that read its entry back. -/
theorem witnessed_of_readBack {dpid : ℕ} {id : ℤ} (reads : List (Exchange F)) (path : String)
    (body : Json F) (hread : st.readFor j kind = st.reading kind dpid id)
    (hreads : ∀ e ∈ reads, e.1.isRead = true) (hanswered : ByTheSouthbound south reads)
    (hfits : ¬ Conflicts op (lastReading (st.readFor j kind) .unknown reads))
    (hreadable : lastReading (st.readFor j kind) .unknown reads ≠ .unknown)
    (hok : (st.post (south reads (.post path body))).ok = true) :
    Witnessed st south kind j op
      (verdict kind op dpid id (st.post (south reads (.post path body)))
        (verify st south kind dpid id op.expected verifyAttempts .unknown
          (reads ++ [(.post path body, south reads (.post path body))])).1)
      (verify st south kind dpid id op.expected verifyAttempts .unknown
        (reads ++ [(.post path body, south reads (.post path body))])).2 := by
  obtain ⟨backs, hlog, hbacks, hlength, hlast, hanswered'⟩ := verify_spec st kind dpid id op.expected
    verifyAttempts .unknown _ (hanswered.concat (.post path body))
  rw [← hread] at hlast
  rw [List.append_assoc, List.singleton_append] at hlog hanswered'
  obtain ⟨hchecked, hwrite, hafter⟩ :
      beforeWrite (reads ++ (.post path body, south reads (.post path body)) :: backs) = reads ∧ _ :=
    log_of_write hreads rfl
  rw [hlog, hlast]
  refine ⟨hanswered', ?_, ?_, ?_, ?_⟩
  · intro op' hdone
    obtain ⟨hop, hexpected⟩ := outcome_verdict.1 op' hdone
    rw [hchecked, hafter]
    exact ⟨hop, hreadable, hfits, ⟨_, hwrite, hok⟩, hexpected⟩
  · rintro - hunread
    rw [hchecked, hafter] at hunread
    rw [outcome_verdict.2 (hunread.resolve_left hreadable)]
    exact ⟨rfl, hok⟩
  · rw [hafter]
    exact ⟨hbacks, hlength⟩
  · intro hconflict
    rw [hchecked] at hconflict
    exact absurd hconflict hfits

/-- **No outcome says more than the answers do.** -/
theorem guardedMod_witnessed (st : Strategy F) (south : Southbound F) (kind : EntryKind)
    (j : Json F) (op : EntryOp) (path : String) :
    Witnessed st south kind j op (guardedMod st south kind j op path).1
      (guardedMod st south kind j op path).2 := by
  rw [guardedMod]
  cases haddress : addressOf j kind with
  | none =>
    -- no read is made at all
    have hnone : ¬ Conflicts op .unknown := by simp [Conflicts]
    dsimp only
    split
    · next hok =>
      exact witnessed_of_write [] path j (by simp) (byTheSouthbound_nil south) hnone (.inl ⟨hok, rfl⟩)
    · exact witnessed_of_write [] path j (by simp) (byTheSouthbound_nil south) hnone (.inr rfl)
  | some address =>
    obtain ⟨dpid, id⟩ := address
    have hread : st.readFor j kind = st.reading kind dpid id := by
      funext answer
      rw [Strategy.readFor, haddress]
    dsimp only [entryExists, List.nil_append]
    generalize hcheck : [(Request.get (entriesPath kind dpid id),
      south [] (.get (entriesPath kind dpid id)))] = reads
    have hreads : ∀ e ∈ reads, e.1.isRead = true := by
      rw [← hcheck]
      simp [Request.isRead]
    have hanswered : ByTheSouthbound south reads := by
      rw [← hcheck]
      exact (byTheSouthbound_nil south).concat _
    have hbefore : st.reading kind dpid id (south [] (.get (entriesPath kind dpid id))) =
        lastReading (st.readFor j kind) .unknown reads := by
      rw [hread, ← hcheck]
      rfl
    rw [hbefore]
    cases hconflict : conflict? kind op dpid id (lastReading (st.readFor j kind) .unknown reads) with
    | some refusal =>
      obtain ⟨-, hwrite, hafter⟩ := log_of_reads hreads
      refine ⟨hanswered, ?_, ?_, ?_, fun _ => hwrite⟩
      · intro op' hdone
        exact absurd hdone (outcome_conflict hconflict op')
      · rintro ⟨e, he, -⟩
        rw [hwrite] at he
        cases he
      · rw [hafter]
        simp
    | none =>
      have hfits := conflict?_eq_none_iff.mp hconflict
      dsimp only
      generalize (if op = .delete then .obj [("dpid", .int dpid), (kind.idField, .int id)] else j) =
        outbound
      split
      · next hok => exact witnessed_of_write reads path _ hreads hanswered hfits (.inl ⟨hok, rfl⟩)
      · next hok =>
        split
        · exact witnessed_of_write reads path _ hreads hanswered hfits (.inr rfl)
        · next hreadable =>
          exact witnessed_of_readBack reads path _ hread hreads hanswered hfits hreadable
            (by simpa using hok)

end Operation

end NDTwin.FlowTables
