import NDTwin.FlowTables.Accounting
import NDTwin.FlowTables.Served
import NDTwin.Lib.Fallible

/-!
# What becomes of the entries of a batch

A batch is answered with an error and nothing of it is queued, or every entry of it meets one fate:
it is a job in the queue, it is dropped because nothing is known of its switch, or it is a delete
that is refused on P4.  The reply says how many were queued and dropped, and lists the refused
ones.

Each batch that is queued has a request id, under which the log counts its outcomes, and each
install has a token.  Both come from 64-bit counters that begin at 1.  The id 0 means that there is
none, so the batch that comes after `2 ^ 64 - 1` others is not registered.

## Main definitions

* `Desk`, `processFlowBatch` — the handler of a batch, and what it shares with the others.
* `BatchEntry`, `Fate`, `Becomes` — the entries, and what may become of one.
* `Settled` — every entry of a batch has met its fate, and nothing else was queued or said.
* `Incident`, `Desk.after` — batches handled in any order, outcomes and polls in between.
* `Answered` — what the reply to a batch and the state after it say.

## Main results

* `admitBatch_cases` — what a batch that is queued consists of.
* `settled_of_admitBatch` — **every entry of a batch meets exactly one fate.**
* `answered_after` — **no entry of a batch is lost**, in every run, while the counters last.
* `not_registered` — the batch after `2 ^ 64 - 1` others is not registered.
-/

namespace NDTwin.FlowTables

open Fallible Fixed Json

variable {F : Type}

/-! ### The handler -/

/-- What the handlers of batches share: the two counters, the outcomes, the cached tables, and every
job that was handed to the dispatcher. -/
structure Desk (F : Type) where
  nextPendingToken : ℕ := 1
  nextRequestId : ℕ := 1
  log : DispatchOutcomeLog F := {}
  cache : Cache F := []
  queue : List (FlowJob F) := []

/-- The reply to a batch. -/
inductive Response (F : Type) where
  | error (refusal : Refusal F)
  | queued (accepted requestId rejected : ℕ) (rejectedDpids : List ℕ)
      (refusedOnP4 : List (P4Refusal F))

/-- The status of a reply. -/
def Response.status : Response F → ℕ
  | .error refusal => refusal.status
  | .queued _ _ _ _ _ => 200

/-- The jobs of a batch, with its id. -/
def stampRequest (requestId : ℕ) (jobs : List (FlowJob F)) : List (FlowJob F) :=
  jobs.map fun job => { job with requestId }

/-- `processFlowBatch(j)`: the reply, or what it threw, and what it leaves.  The jobs are registered
and queued before the cached tables are written, so an exception from there leaves them queued. -/
def processFlowBatch (native : Native F) (kindOf : ℕ → Option SwitchKind) (j : Json F)
    (desk : Desk F) : Except AccessError (Response F) × Desk F :=
  match admitBatch native kindOf desk.nextPendingToken j with
  | (.error (.threw e), next) => (.error e, { desk with nextPendingToken := next })
  | (.error refusal, next) => (.ok (.error refusal), { desk with nextPendingToken := next })
  | (.ok admitted, next) =>
    let requestId := desk.nextRequestId
    let jobs := stampRequest requestId admitted.jobs
    let (cache, err) :=
      updateOpenFlowTables native (fun dpid => (kindOf dpid).isSome) admitted.batch desk.cache
    let desk' : Desk F :=
      { nextPendingToken := next
        nextRequestId := succU 64 requestId
        log := desk.log.noteRequestEnqueued requestId jobs.length
        cache
        queue := desk.queue ++ jobs }
    match err with
    | some e => (.error e, desk')
    | none =>
      (.ok (.queued jobs.length requestId admitted.rejectedEntries admitted.unknownDpids
        admitted.refusedOnP4), desk')

/-- What a batch leaves that is queued. -/
def Desk.enqueue (native : Native F) (kindOf : ℕ → Option SwitchKind) (desk : Desk F)
    (admitted : Admitted F) (next : ℕ) : Desk F :=
  { nextPendingToken := next
    nextRequestId := succU 64 desk.nextRequestId
    log := desk.log.noteRequestEnqueued desk.nextRequestId admitted.jobs.length
    cache := (updateOpenFlowTables native (fun dpid => (kindOf dpid).isSome) admitted.batch
      desk.cache).1
    queue := desk.queue ++ stampRequest desk.nextRequestId admitted.jobs }

/-- A batch that is not queued: its reply is an error, unless it threw, and it leaves no more than
the next token. -/
theorem processFlowBatch_of_error {native : Native F} {kindOf : ℕ → Option SwitchKind} {j : Json F}
    {desk : Desk F} {refusal : Refusal F}
    (h : (admitBatch native kindOf desk.nextPendingToken j).1 = .error refusal) :
    (processFlowBatch native kindOf j desk).2 =
        { desk with nextPendingToken := (admitBatch native kindOf desk.nextPendingToken j).2 } ∧
      ∀ reply, (processFlowBatch native kindOf j desk).1 = .ok reply → reply = .error refusal := by
  rw [processFlowBatch]
  generalize admitBatch native kindOf desk.nextPendingToken j = left at h
  obtain ⟨answer, next⟩ := left
  cases h
  cases refusal with
  | threw e => exact ⟨rfl, nofun⟩
  | _ =>
    refine ⟨rfl, ?_⟩
    intro reply hreply
    cases hreply
    rfl

/-- A batch that is queued: the reply says what was admitted, unless the tables could not be
written, and either way it stays queued. -/
theorem processFlowBatch_of_ok {native : Native F} {kindOf : ℕ → Option SwitchKind} {j : Json F}
    {desk : Desk F} {admitted : Admitted F}
    (h : (admitBatch native kindOf desk.nextPendingToken j).1 = .ok admitted) :
    (processFlowBatch native kindOf j desk).2 = desk.enqueue native kindOf admitted
        (admitBatch native kindOf desk.nextPendingToken j).2 ∧
      ((processFlowBatch native kindOf j desk).1 =
        match (updateOpenFlowTables native (fun dpid => (kindOf dpid).isSome) admitted.batch
          desk.cache).2 with
        | some e => .error e
        | none => .ok (.queued admitted.jobs.length desk.nextRequestId admitted.rejectedEntries
          admitted.unknownDpids admitted.refusedOnP4)) := by
  rw [processFlowBatch]
  generalize admitBatch native kindOf desk.nextPendingToken j = left at h
  obtain ⟨answer, next⟩ := left
  cases h
  simp only [Desk.enqueue, stampRequest, List.length_map]
  generalize updateOpenFlowTables native (fun dpid => (kindOf dpid).isSome) admitted.batch
    desk.cache = edited
  obtain ⟨cache, err⟩ := edited
  cases err with
  | none => exact ⟨rfl, rfl⟩
  | some e => exact ⟨rfl, rfl⟩

/-! ### What may become of an entry -/

/-- An entry of a batch: the operation its array stands for, and its index there. -/
structure BatchEntry (F : Type) where
  op : FlowOp
  index : ℕ
  entry : Json F

/-- The entries of one array, numbered on from an index. -/
def entriesOf (op : FlowOp) (index : ℕ) : List (Json F) → List (BatchEntry F)
  | [] => []
  | entry :: entries => ⟨op, index, entry⟩ :: entriesOf op (index + 1) entries

/-- Every entry of a batch: installs, modifies, deletes. -/
def Batch.entries (b : Batch F) : List (BatchEntry F) :=
  entriesOf .install 0 b.installs ++ entriesOf .modify 0 b.modifies ++ entriesOf .delete 0 b.deletes

/-- The priority of an entry that has none. -/
def FlowOp.defaultPriority : FlowOp → ℤ
  | .install | .modify => 0
  | .delete => -1

/-- A job does what an entry says. -/
structure JobOf (e : BatchEntry F) (job : FlowJob F) : Prop where
  op : job.op = e.op
  dpid : e.entry.find "dpid" = some (.int job.dpid)
  matchFields : job.matchFields = (e.entry.find "match").getD (.obj [])
  actions : e.op ≠ .delete → e.entry.find "actions" = some job.actions
  priority : (e.entry.find "priority").getD (.int e.op.defaultPriority) = .int job.priority

/-- What becomes of an entry of a batch that is answered with 200. -/
inductive Fate (F : Type) where
  | queued (job : FlowJob F)
  | rejected (dpid : ℕ)
  | refused (refusal : P4Refusal F)

/-- The job an entry has become. -/
def Fate.job? : Fate F → Option (FlowJob F)
  | .queued job => some job
  | _ => none

/-- The switch an entry was dropped for. -/
def Fate.rejected? : Fate F → Option ℕ
  | .rejected dpid => some dpid
  | _ => none

/-- How an entry is listed that was refused. -/
def Fate.refused? : Fate F → Option (P4Refusal F)
  | .refused refusal => some refusal
  | _ => none

/-- An entry may meet a fate: a job is of a switch that is known and has the id of the batch, what
is dropped is for one that is not known, and what is refused is a delete for a P4 switch. -/
inductive Becomes (kindOf : ℕ → Option SwitchKind) (requestId : ℕ) (e : BatchEntry F) :
    Fate F → Prop where
  | queued {job : FlowJob F} (hjob : JobOf e job) (hid : job.requestId = requestId)
      (hknown : (kindOf job.dpid).isSome = true) : Becomes kindOf requestId e (.queued job)
  | rejected {dpid : ℕ} (hdpid : e.entry.find "dpid" = some (.int dpid))
      (hunknown : kindOf dpid = none) : Becomes kindOf requestId e (.rejected dpid)
  | refused {refusal : P4Refusal F} {dpid : ℕ} (hop : e.op = .delete)
      (hindex : refusal.index = e.index) (hdpid : e.entry.find "dpid" = some (.int dpid))
      (hlisted : refusal.dpid = .int dpid) (hkind : kindOf dpid = some .bmv2) :
      Becomes kindOf requestId e (.refused refusal)

/-- Every entry has met a fate: the jobs queued, the switches entries were dropped for and the
deletes listed as refused are those of the entries, in order, and no others. -/
def Settled (kindOf : ℕ → Option SwitchKind) (requestId : ℕ) (es : List (BatchEntry F))
    (jobs : List (FlowJob F)) (rejected : List ℕ) (refused : List (P4Refusal F)) : Prop :=
  ∃ fates, List.Forall₂ (Becomes kindOf requestId) es fates ∧ fates.filterMap Fate.job? = jobs ∧
    fates.filterMap Fate.rejected? = rejected ∧ fates.filterMap Fate.refused? = refused

namespace Settled

variable {kindOf : ℕ → Option SwitchKind} {requestId : ℕ}

theorem nil : Settled kindOf requestId ([] : List (BatchEntry F)) [] [] [] :=
  ⟨[], .nil, rfl, rfl, rfl⟩

theorem append {es es' : List (BatchEntry F)} {jobs jobs' : List (FlowJob F)}
    {rejected rejected' : List ℕ} {refused refused' : List (P4Refusal F)}
    (h : Settled kindOf requestId es jobs rejected refused)
    (h' : Settled kindOf requestId es' jobs' rejected' refused') :
    Settled kindOf requestId (es ++ es') (jobs ++ jobs') (rejected ++ rejected')
      (refused ++ refused') := by
  obtain ⟨fates, hall, rfl, rfl, rfl⟩ := h
  obtain ⟨fates', hall', rfl, rfl, rfl⟩ := h'
  refine ⟨fates ++ fates', List.rel_append hall hall', ?_, ?_, ?_⟩
  · exact List.filterMap_append
  · exact List.filterMap_append
  · exact List.filterMap_append

theorem cons {e : BatchEntry F} {fate : Fate F} (he : Becomes kindOf requestId e fate)
    {es : List (BatchEntry F)} {jobs : List (FlowJob F)} {rejected : List ℕ}
    {refused : List (P4Refusal F)} (h : Settled kindOf requestId es jobs rejected refused) :
    Settled kindOf requestId (e :: es) (fate.job?.toList ++ jobs)
      (fate.rejected?.toList ++ rejected) (fate.refused?.toList ++ refused) := by
  obtain ⟨fates, hall, rfl, rfl, rfl⟩ := h
  refine ⟨fate :: fates, .cons he hall, ?_, ?_, ?_⟩
  · cases fate with
    | _ => rfl
  · cases fate with
    | _ => rfl
  · cases fate with
    | _ => rfl

/-- **The counts add up**: no entry is counted twice, and none is left out. -/
theorem length_add {es : List (BatchEntry F)} {jobs : List (FlowJob F)} {rejected : List ℕ}
    {refused : List (P4Refusal F)} (h : Settled kindOf requestId es jobs rejected refused) :
    jobs.length + rejected.length + refused.length = es.length := by
  obtain ⟨fates, hall, rfl, rfl, rfl⟩ := h
  rw [hall.length_eq]
  clear hall
  induction fates with
  | nil => rfl
  | cons fate fates ih =>
    cases fate with
    | queued job =>
      simp only [List.filterMap_cons, Fate.job?, Fate.rejected?, Fate.refused?, List.length_cons]
      omega
    | rejected dpid =>
      simp only [List.filterMap_cons, Fate.job?, Fate.rejected?, Fate.refused?, List.length_cons]
      omega
    | refused refusal =>
      simp only [List.filterMap_cons, Fate.job?, Fate.rejected?, Fate.refused?, List.length_cons]
      omega

end Settled

/-! ### Jobs of entries -/

/-- An install or a modify that passes the shape check has actions. -/
theorem actions_of_shape {native : Native F} {e : Json F} {op : FlowOp} (hop : op ≠ .delete)
    (h : describeFlowEntryShapeProblem native e op = none) :
    ∃ actions, e.find "actions" = some actions := by
  cases hactions : e.find "actions" with
  | some actions => exact ⟨actions, rfl⟩
  | none =>
    exfalso
    rw [describeFlowEntryShapeProblem] at h
    cases hdpid : e.find "dpid" with
    | none =>
      simp only [hdpid] at h
      split_ifs at h
    | some dpid =>
      simp only [hdpid, hop, hactions, Option.isNone_none, ne_eq, not_false_eq_true, and_self,
        if_true] at h
      split_ifs at h

/-- The switch that is read is the one an entry names. -/
theorem dpid_of_dpidOf {native : Native F} {e : Json F} (he : Shaped e) {dpid : ℕ}
    (h : dpidOf native e = .ok dpid) : e.find "dpid" = some (.int dpid) := by
  obtain ⟨fields, rfl, ⟨n, hn, hpos, hlt⟩, -⟩ := he
  have hread : dpidOf native (.obj fields) = .ok (BitVec.ofInt 64 n).toNat := by
    simp [dpidOf, at?, hn, getUint64, bind, Except.bind]
  rw [hread] at h
  cases h
  have heq : (((BitVec.ofInt 64 n).toNat : ℕ) : ℤ) = n := by
    rw [BitVec.toNat_ofInt]
    omega
  rw [heq]
  exact hn

/-- The priority that is read is the one an entry has, or the default. -/
theorem priority_of_valueInt {native : Native F} {e : Json F} (he : Shaped e) {default p : ℤ}
    (h : e.valueInt native.cast "priority" default = .ok p) :
    (e.find "priority").getD (.int default) = .int p := by
  obtain ⟨fields, rfl, -, hpriority⟩ := he
  rw [valueInt] at h
  cases hlookup : fields.lookup "priority" with
  | none =>
    simp only [hlookup] at h
    cases h
    simp [find, hlookup]
  | some v =>
    obtain ⟨n, rfl, hpos, hle⟩ := hpriority v hlookup
    simp only [hlookup, getInt] at h
    cases h
    have heq : (BitVec.ofInt 32 n).toInt = n := by
      rw [BitVec.toInt_ofInt, Int.bmod_def]
      omega
    simp [find, hlookup, heq]

theorem value_eq {e v default : Json F} {name : String} (h : e.value name default = .ok v) :
    v = (e.find name).getD default := by
  cases e with
  | obj fields =>
    cases h
    rfl
  | _ => cases h

/-- **An install becomes a job that does what it says**, with the token of its entry. -/
theorem jobOf_install {native : Native F} {e : Json F} (hshaped : Shaped e)
    (ha : ∃ actions, e.find "actions" = some actions) {job : FlowJob F}
    (h : makeInstallJob native e = .ok job) (index : ℕ) :
    JobOf ⟨.install, index, e⟩ job ∧
      getUint64 native.cast ((e.find pendingTokenField).getD (.int 0)) = .ok job.token := by
  obtain ⟨dpid, hdpid, h⟩ := exists_of_bind_ok h
  obtain ⟨p, hpriority, h⟩ := exists_of_bind_ok h
  obtain ⟨m, hmatch, h⟩ := exists_of_bind_ok h
  obtain ⟨a, hactions, h⟩ := exists_of_bind_ok h
  obtain ⟨idle, -, h⟩ := exists_of_bind_ok h
  obtain ⟨v, htoken, h⟩ := exists_of_bind_ok h
  obtain ⟨t, ht, h⟩ := exists_of_bind_ok h
  cases h
  obtain ⟨a', ha'⟩ := ha
  refine ⟨⟨rfl, dpid_of_dpidOf hshaped hdpid, value_eq hmatch, ?_,
    priority_of_valueInt hshaped hpriority⟩, ?_⟩
  · intro _
    rw [value_eq hactions, ha']
    rfl
  · rw [← value_eq htoken]
    exact ht

theorem jobOf_modify {native : Native F} {e : Json F}
    (he : describeFlowEntryShapeProblem native e .modify = none) {job : FlowJob F}
    (h : makeModifyJob native e = .ok job) (index : ℕ) : JobOf ⟨.modify, index, e⟩ job := by
  have hshaped := describeFlowEntryShapeProblem_eq_none he
  obtain ⟨dpid, hdpid, h⟩ := exists_of_bind_ok h
  obtain ⟨p, hpriority, h⟩ := exists_of_bind_ok h
  obtain ⟨m, hmatch, h⟩ := exists_of_bind_ok h
  obtain ⟨a, hactions, h⟩ := exists_of_bind_ok h
  cases h
  obtain ⟨a', ha'⟩ := actions_of_shape (by decide) he
  refine ⟨rfl, dpid_of_dpidOf hshaped hdpid, value_eq hmatch, ?_,
    priority_of_valueInt hshaped hpriority⟩
  intro _
  rw [value_eq hactions, ha']
  rfl

theorem jobOf_delete {native : Native F} {e : Json F}
    (he : describeFlowEntryShapeProblem native e .delete = none) {job : FlowJob F}
    (h : makeDeleteJob native e = .ok job) (index : ℕ) : JobOf ⟨.delete, index, e⟩ job := by
  have hshaped := describeFlowEntryShapeProblem_eq_none he
  obtain ⟨dpid, hdpid, h⟩ := exists_of_bind_ok h
  obtain ⟨p, hpriority, h⟩ := exists_of_bind_ok h
  obtain ⟨m, hmatch, h⟩ := exists_of_bind_ok h
  cases h
  exact ⟨rfl, dpid_of_dpidOf hshaped hdpid, value_eq hmatch, fun hne => absurd rfl hne,
    priority_of_valueInt hshaped hpriority⟩

/-! ### Entries and their stamped copies -/

/-- Two values differ in the member of the token alone. -/
def SameButToken (e e' : Json F) : Prop := ∀ name, name ≠ pendingTokenField → e'.find name = e.find name

/-- A job of the copy is a job of the entry. -/
theorem JobOf.of_sameButToken {op : FlowOp} {index : ℕ} {e e' : Json F} {job : FlowJob F}
    (hsame : SameButToken e e') (h : JobOf ⟨op, index, e'⟩ job) : JobOf ⟨op, index, e⟩ job := by
  refine ⟨h.op, ?_, ?_, ?_, ?_⟩
  · rw [← hsame _ (by decide)]
    exact h.dpid
  · rw [← hsame _ (by decide)]
    exact h.matchFields
  · rw [← hsame _ (by decide)]
    exact h.actions
  · rw [← hsame _ (by decide)]
    exact h.priority

/-- A copy of an install differs from it in the token, which is a number. -/
def StampedCopy (e e' : Json F) : Prop :=
  SameButToken e e' ∧ ∃ t : ℤ, e'.find pendingTokenField = some (.int t)

/-- **Stamping changes nothing but the token.** -/
theorem annotateInstalls_copies {es : List (Json F)} (hobj : ∀ e ∈ es, e.isObj = true) (token : ℕ) :
    List.Forall₂ StampedCopy es (annotateInstalls token es).1 := by
  induction es generalizing token with
  | nil => exact .nil
  | cons e es ih =>
    have ih' := ih fun e' he' => hobj e' (List.mem_cons_of_mem _ he')
    cases e with
    | obj fields =>
      refine .cons ⟨?_, token, lookup_put_self _ _ _⟩ (ih' _)
      intro name hname
      exact lookup_put_of_ne _ _ hname
    | _ => cases hobj _ List.mem_cons_self

/-- **Installs are stamped one after the other**: the tokens count on from the first. -/
theorem tokens_annotateInstalls {es : List (Json F)} (hobj : ∀ e ∈ es, e.isObj = true)
    (first : ℕ) :
    (annotateInstalls (first % 2 ^ 64) es).1.map (fun e => e.find pendingTokenField) =
      (List.range' first es.length).map fun i => some (.int ((i % 2 ^ 64 : ℕ) : ℤ)) := by
  induction es generalizing first with
  | nil => rfl
  | cons e es ih =>
    have ih' := ih (fun e he => hobj e (List.mem_cons_of_mem _ he)) (first + 1)
    have hnext := succU_mod 64 first
    cases e with
    | obj fields =>
      rw [annotateInstalls, hnext, List.map_cons, ih', List.length_cons, List.range'_succ,
        List.map_cons]
      congr 1
      exact lookup_put_self _ _ _
    | _ => cases hobj _ List.mem_cons_self

/-! ### The fates of a batch -/

section Fates

variable {native : Native F} {kindOf : ℕ → Option SwitchKind} (requestId : ℕ)

/-- The switches that the jobs which are dropped are for. -/
def droppedDpids (kindOf : ℕ → Option SwitchKind) (jobs : List (FlowJob F)) : List ℕ :=
  (jobs.filter fun job => !(kindOf job.dpid).isSome).map FlowJob.dpid

/-- The jobs that are queued. -/
def queuedJobs (kindOf : ℕ → Option SwitchKind) (requestId : ℕ) (jobs : List (FlowJob F)) :
    List (FlowJob F) :=
  stampRequest requestId (jobs.filter fun job => (kindOf job.dpid).isSome)

/-- One entry more, which has become a job: it is queued or dropped. -/
theorem Settled.cons_job {e : BatchEntry F} {job : FlowJob F} (hjob : JobOf e job)
    {es : List (BatchEntry F)} {jobs : List (FlowJob F)} {refused : List (P4Refusal F)}
    (h : Settled kindOf requestId es (queuedJobs kindOf requestId jobs) (droppedDpids kindOf jobs)
      refused) :
    Settled kindOf requestId (e :: es) (queuedJobs kindOf requestId (job :: jobs))
      (droppedDpids kindOf (job :: jobs)) refused := by
  cases hknown : kindOf job.dpid with
  | some kind =>
    have hfate : Becomes kindOf requestId e (.queued { job with requestId }) :=
      .queued ⟨hjob.op, hjob.dpid, hjob.matchFields, hjob.actions, hjob.priority⟩ rfl
        (by simp [hknown])
    have hcons := h.cons hfate
    simpa [queuedJobs, droppedDpids, stampRequest, hknown, Fate.job?, Fate.rejected?,
      Fate.refused?] using hcons
  | none =>
    have hcons := h.cons (.rejected hjob.dpid hknown)
    simpa [queuedJobs, droppedDpids, stampRequest, hknown, Fate.job?, Fate.rejected?,
      Fate.refused?] using hcons

variable (kindOf) in
/-- Entries of which every one has become a job. -/
theorem settled_jobs {op : FlowOp} {es : List (Json F)} {jobs : List (FlowJob F)}
    (h : List.Forall₂ (fun e job => ∀ index, JobOf ⟨op, index, e⟩ job) es jobs) (index : ℕ) :
    Settled kindOf requestId (entriesOf op index es) (queuedJobs kindOf requestId jobs)
      (droppedDpids kindOf jobs) [] := by
  induction h generalizing index with
  | nil => exact .nil
  | cons hjob _ ih => exact (ih (index + 1)).cons_job requestId (hjob index)

/-- A delete that is refused is for a P4 switch, and is listed with its index. -/
theorem becomes_of_refusalOf {index : ℕ} {e : Json F} {refusal : P4Refusal F}
    (h : refusalOf native (fun dpid => kindOf dpid = some .bmv2) index e = some refusal) :
    Becomes kindOf requestId ⟨.delete, index, e⟩ (.refused refusal) := by
  rw [refusalOf] at h
  split at h
  · next n hdpid =>
    split_ifs at h with hcond
    obtain ⟨-, hpos, hkind⟩ := hcond
    cases h
    have hn : ((n.toNat : ℕ) : ℤ) = n := Int.toNat_of_nonneg hpos
    have hkind' : kindOf n.toNat = some .bmv2 := by simpa using hkind
    refine .refused rfl rfl ?_ ?_ hkind'
    · rw [hn]
      exact hdpid
    · rw [hn]
  · cases h

/-- Deletes, of which those that are not refused have become jobs. -/
theorem settled_deletes {es : List (Json F)} (index : ℕ) {jobs : List (FlowJob F)}
    (h : List.Forall₂ (fun e job => ∀ index, JobOf ⟨.delete, index, e⟩ job)
      (refusePriorityDeletesP4CannotHonour native (fun dpid => kindOf dpid = some .bmv2) index es).1
      jobs) :
    Settled kindOf requestId (entriesOf .delete index es) (queuedJobs kindOf requestId jobs)
      (droppedDpids kindOf jobs)
      (refusePriorityDeletesP4CannotHonour native (fun dpid => kindOf dpid = some .bmv2) index
        es).2 := by
  induction es generalizing index jobs with
  | nil =>
    cases h
    exact .nil
  | cons e es ih =>
    rw [refusePriorityDeletesP4CannotHonour] at h ⊢
    cases hrefusal : refusalOf native (fun dpid => kindOf dpid = some .bmv2) index e with
    | some refusal =>
      simp only [hrefusal] at h ⊢
      exact (ih (index + 1) h).cons (becomes_of_refusalOf requestId hrefusal)
    | none =>
      simp only [hrefusal] at h ⊢
      cases h with
      | cons hjob hrest => exact (ih (index + 1) hrest).cons_job requestId (hjob index)

/-- **What a batch that is queued consists of**: the entries it was read from, and the jobs made of
them before those for unknown switches are dropped. -/
theorem admitBatch_cases {token : ℕ} {j : Json F} {admitted : Admitted F}
    (h : (admitBatch native kindOf token j).1 = .ok admitted) :
    ∃ b installs modifies deletes, readBatch j = .ok b ∧ shapeProblems native b = [] ∧
      admitted.batch = ⟨(annotateInstalls token b.installs).1, b.modifies,
        (refusePriorityDeletesP4CannotHonour native (fun dpid => kindOf dpid = some .bmv2) 0
          b.deletes).1⟩ ∧
      admitted.batch.installs.mapM (makeInstallJob native) = .ok installs ∧
      admitted.batch.modifies.mapM (makeModifyJob native) = .ok modifies ∧
      admitted.batch.deletes.mapM (makeDeleteJob native) = .ok deletes ∧
      admitted.jobs = (installs ++ modifies ++ deletes).filter (fun job => (kindOf job.dpid).isSome) ∧
      admitted.rejectedEntries = (droppedDpids kindOf (installs ++ modifies ++ deletes)).length ∧
      admitted.unknownDpids =
        ((droppedDpids kindOf (installs ++ modifies ++ deletes)).insertionSort (· ≤ ·)).dedup ∧
      admitted.refusedOnP4 = (refusePriorityDeletesP4CannotHonour native
        (fun dpid => kindOf dpid = some .bmv2) 0 b.deletes).2 := by
  rw [admitBatch] at h
  cases hread : readBatch j with
  | error refusal => simp [hread] at h
  | ok b =>
    simp only [hread] at h
    split at h
    · cases h
    · next hproblems =>
      split at h
      · cases h
      · next jobs hjobs =>
        split at h
        · cases h
        · split at h
          · cases h
          · cases h
            obtain ⟨installs, hinstalls, hjobs⟩ := exists_of_bind_ok hjobs
            obtain ⟨modifies, hmodifies, hjobs⟩ := exists_of_bind_ok hjobs
            obtain ⟨deletes, hdeletes, hjobs⟩ := exists_of_bind_ok hjobs
            cases hjobs
            exact ⟨b, installs, modifies, deletes, rfl, not_not.mp hproblems, rfl, hinstalls,
              hmodifies, hdeletes, rfl, (List.length_map _).symm, rfl, rfl⟩

theorem shape_of_shapeProblems {b : Batch F} (h : shapeProblems native b = []) :
    (∀ e ∈ b.installs, describeFlowEntryShapeProblem native e .install = none) ∧
      (∀ e ∈ b.modifies, describeFlowEntryShapeProblem native e .modify = none) ∧
      ∀ e ∈ b.deletes, describeFlowEntryShapeProblem native e .delete = none := by
  simp only [shapeProblems, List.append_eq_nil_iff] at h
  exact ⟨collectShapeProblems_eq_nil h.1.1, collectShapeProblems_eq_nil h.1.2,
    collectShapeProblems_eq_nil h.2⟩

/-- Jobs that are made one by one do what their entries say. -/
theorem jobsOf_mapM (op : FlowOp) {make : Json F → Except AccessError (FlowJob F)}
    {es : List (Json F)} {jobs : List (FlowJob F)} (h : es.mapM make = .ok jobs)
    (hjob : ∀ e ∈ es, ∀ job, make e = .ok job → ∀ index, JobOf ⟨op, index, e⟩ job) :
    List.Forall₂ (fun e job => ∀ index, JobOf ⟨op, index, e⟩ job) es jobs := by
  have hmade := forall₂_of_mapM h
  clear h
  induction hmade with
  | nil => exact .nil
  | cons hone _ ih =>
    exact .cons (hjob _ List.mem_cons_self _ hone)
      (ih fun e he => hjob e (List.mem_cons_of_mem _ he))

theorem isObj_of_shape {es : List (Json F)}
    (h : ∀ e ∈ es, describeFlowEntryShapeProblem native e .install = none) :
    ∀ e ∈ es, e.isObj = true :=
  fun e he => isObj_of_shaped (describeFlowEntryShapeProblem_eq_none (h e he))

theorem annotated_shape {es : List (Json F)} (token : ℕ)
    (h : ∀ e ∈ es, describeFlowEntryShapeProblem native e .install = none) :
    ∀ e' ∈ (annotateInstalls token es).1,
      Shaped e' ∧ ∃ actions, e'.find "actions" = some actions := by
  have hshaped : ∀ e ∈ es, Shaped e := fun e he => describeFlowEntryShapeProblem_eq_none (h e he)
  intro e' he'
  refine ⟨shaped_annotateInstalls hshaped _ e' he', ?_⟩
  obtain ⟨e, he, hcopy⟩ :=
    exists_mem_of_forall₂ (annotateInstalls_copies (isObj_of_shape h) token) he'
  rw [hcopy.1 _ (by decide)]
  exact actions_of_shape (by decide) (h e he)

/-- The installs of a batch become jobs that do what they say. -/
theorem jobsOf_installs {es : List (Json F)} {token : ℕ} {jobs : List (FlowJob F)}
    (hshape : ∀ e ∈ es, describeFlowEntryShapeProblem native e .install = none)
    (h : (annotateInstalls token es).1.mapM (makeInstallJob native) = .ok jobs) :
    List.Forall₂ (fun e job => ∀ index, JobOf ⟨.install, index, e⟩ job) es jobs := by
  have hcopies := annotateInstalls_copies (isObj_of_shape hshape) token
  have hjobs := jobsOf_mapM .install h fun e' he' job hjob index =>
    (jobOf_install (annotated_shape token hshape e' he').1
      (annotated_shape token hshape e' he').2 hjob index).1
  -- what holds of the copies holds of the entries
  clear h hshape
  generalize (annotateInstalls token es).1 = copies at hcopies hjobs
  induction hcopies generalizing jobs with
  | nil =>
    cases hjobs
    exact .nil
  | cons hcopy _ ih =>
    cases hjobs with
    | cons hjob hjobs =>
      exact .cons (fun index => (hjob index).of_sameButToken hcopy.1) (ih hjobs)

/-- The tokens of the jobs are those of the copies, which count on from the first. -/
theorem tokens_installs {es : List (Json F)} {first : ℕ} {jobs : List (FlowJob F)}
    (hshape : ∀ e ∈ es, describeFlowEntryShapeProblem native e .install = none)
    (h : (annotateInstalls (first % 2 ^ 64) es).1.mapM (makeInstallJob native) = .ok jobs) :
    jobs.map FlowJob.token = (List.range' first es.length).map (· % 2 ^ 64) := by
  have htokens := tokens_annotateInstalls (isObj_of_shape hshape) first
  have hmade := forall₂_of_mapM h
  have hcopies := annotated_shape (first % 2 ^ 64) hshape
  clear h
  generalize (annotateInstalls (first % 2 ^ 64) es).1 = copies at htokens hmade hcopies
  generalize List.range' first es.length = numbers at htokens ⊢
  induction hmade generalizing numbers with
  | nil =>
    rw [List.map_nil] at htokens
    rw [List.map_eq_nil_iff.mp htokens.symm]
    rfl
  | cons hjob _ ih =>
    cases numbers with
    | nil => cases htokens
    | cons i numbers =>
      simp only [List.map_cons, List.cons.injEq] at htokens
      obtain ⟨hshaped, hactions⟩ := hcopies _ List.mem_cons_self
      have htoken := (jobOf_install hshaped hactions hjob 0).2
      rw [htokens.1] at htoken
      simp only [Option.getD_some, getUint64, Except.ok.injEq] at htoken
      have hread : (BitVec.ofInt 64 ((i % 2 ^ 64 : ℕ) : ℤ)).toNat = i % 2 ^ 64 := by
        rw [BitVec.toNat_ofInt]
        omega
      rw [List.map_cons, List.map_cons, ← htoken, hread,
        ih (fun e he => hcopies e (List.mem_cons_of_mem _ he)) numbers htokens.2]

/-- **Every entry of a batch that is queued meets its fate.** -/
theorem settled_of_admitBatch {token : ℕ} {j : Json F} {admitted : Admitted F}
    (h : (admitBatch native kindOf token j).1 = .ok admitted) :
    ∃ b dropped, readBatch j = .ok b ∧
      Settled kindOf requestId b.entries (stampRequest requestId admitted.jobs) dropped
        admitted.refusedOnP4 ∧
      admitted.rejectedEntries = dropped.length ∧
      ∀ dpid, dpid ∈ admitted.unknownDpids ↔ dpid ∈ dropped := by
  obtain ⟨b, installs, modifies, deletes, hread, hproblems, hbatch, hinstalls, hmodifies, hdeletes,
    hjobs, hrejected, hunknown, hrefused⟩ := admitBatch_cases h
  obtain ⟨hins, hmods, hdels⟩ := shape_of_shapeProblems hproblems
  rw [hbatch] at hinstalls hmodifies hdeletes
  have hs₁ := settled_jobs kindOf requestId (jobsOf_installs hins hinstalls) 0
  have hs₂ := settled_jobs kindOf requestId
    (jobsOf_mapM .modify hmodifies fun e he job hjob => jobOf_modify (hmods e he) hjob) 0
  have hs₃ := settled_deletes requestId 0 (jobsOf_mapM .delete hdeletes
    fun e he job hjob => jobOf_delete (hdels e (mem_of_refuse he)) hjob)
  refine ⟨b, droppedDpids kindOf (installs ++ modifies ++ deletes), hread, ?_, hrejected, ?_⟩
  · rw [hjobs, hrefused]
    have happend := (hs₁.append hs₂).append hs₃
    simpa [queuedJobs, droppedDpids, stampRequest, Batch.entries] using happend
  · intro dpid
    rw [hunknown, List.mem_dedup, List.mem_insertionSort]

end Fates

/-! ### Runs -/

/-- What happens: a batch is handled, the outcome of a job is recorded, a poll comes back.  The
topology is what it is while the batch is handled, and may be another one later. -/
inductive Incident (F : Type) where
  | batch (kindOf : ℕ → Option SwitchKind) (j : Json F)
  | outcome (o : Outcome F)
  | poll (answers : List (ℕ × PollAnswer F)) (now : ℤ)

section Runs

variable (native : Native F)

/-- What an incident leaves. -/
def Desk.handle (desk : Desk F) : Incident F → Desk F
  | .batch kindOf j => (processFlowBatch native kindOf j desk).2
  | .outcome o => { desk with log := desk.log.record o.nowUnixMs o.job o.result }
  | .poll answers now =>
    { desk with cache := applyFetchedTables (fetchOpenFlowTablesInternal answers) now desk.cache }

/-- What incidents leave, from the start on. -/
def Desk.after (incidents : List (Incident F)) : Desk F := incidents.foldl (Desk.handle native) {}

/-- How many tokens an incident uses up. -/
def Incident.minted : Incident F → ℕ
  | .batch kindOf j => mintedBy native (.request kindOf j)
  | _ => 0

/-- How many tokens incidents use up. -/
def tokensMinted (incidents : List (Incident F)) : ℕ := (incidents.map (Incident.minted native)).sum

/-- An incident queues a batch. -/
def Desk.queues (desk : Desk F) : Incident F → Bool
  | .batch kindOf j => (admitBatch native kindOf desk.nextPendingToken j).1.toOption.isSome
  | _ => false

/-- How many batches are queued in a run that begins with a state. -/
def queuedFrom (desk : Desk F) : List (Incident F) → ℕ
  | [] => 0
  | incident :: incidents =>
    (if desk.queues native incident then 1 else 0) + queuedFrom (desk.handle native incident) incidents

/-- How many batches are queued in a run. -/
def batchesQueued (incidents : List (Incident F)) : ℕ := queuedFrom native {} incidents

variable {native}

theorem Desk.after_concat (incidents : List (Incident F)) (incident : Incident F) :
    Desk.after native (incidents ++ [incident]) =
      (Desk.after native incidents).handle native incident := by
  rw [Desk.after, List.foldl_append]
  rfl

theorem queuedFrom_concat (desk : Desk F) (incidents : List (Incident F)) (incident : Incident F) :
    queuedFrom native desk (incidents ++ [incident]) = queuedFrom native desk incidents +
      if (incidents.foldl (Desk.handle native) desk).queues native incident then 1 else 0 := by
  induction incidents generalizing desk with
  | nil =>
    rw [List.nil_append, queuedFrom, queuedFrom, queuedFrom, Nat.add_zero, Nat.zero_add]
    rfl
  | cons first incidents ih =>
    rw [List.cons_append, queuedFrom, queuedFrom, ih, List.foldl_cons]
    omega

variable (native) in
theorem batchesQueued_concat (incidents : List (Incident F)) (incident : Incident F) :
    batchesQueued native (incidents ++ [incident]) = batchesQueued native incidents +
      if (Desk.after native incidents).queues native incident then 1 else 0 :=
  queuedFrom_concat {} incidents incident

variable (native) in
theorem tokensMinted_concat (incidents : List (Incident F)) (incident : Incident F) :
    tokensMinted native (incidents ++ [incident]) =
      tokensMinted native incidents + incident.minted native := by
  simp [tokensMinted]

variable (native) in
/-- What is not a batch moves neither counter. -/
theorem counts_concat (incident : Incident F) (hminted : incident.minted native = 0)
    (hqueues : ∀ desk : Desk F, desk.queues native incident = false)
    (incidents : List (Incident F)) :
    tokensMinted native (incidents ++ [incident]) = tokensMinted native incidents ∧
      batchesQueued native (incidents ++ [incident]) = batchesQueued native incidents := by
  refine ⟨?_, ?_⟩
  · rw [tokensMinted_concat, hminted, Nat.add_zero]
  · rw [batchesQueued_concat, hqueues, if_neg Bool.false_ne_true, Nat.add_zero]

/-! ### What a run keeps -/

/-- The tokens of the installs among jobs. -/
def installTokens (jobs : List (FlowJob F)) : List ℕ :=
  (jobs.filter fun job => job.op = .install).map FlowJob.token

theorem installTokens_append (jobs jobs' : List (FlowJob F)) :
    installTokens (jobs ++ jobs') = installTokens jobs ++ installTokens jobs' := by
  simp [installTokens]

/-- **A request that is not known is registered** with the number of its jobs. -/
theorem registers {calls : List (DispatchOutcomeLog.Call F)} {log : DispatchOutcomeLog F}
    (h : DispatchOutcomeLog.Accounts calls log) {id : ℕ} (hid : id ≠ 0)
    (hnew : id ∉ DispatchOutcomeLog.retained calls) (jobs : ℕ) :
    ((log.noteRequestEnqueued id jobs).tallyFor id).map RequestTally.enqueued = some jobs := by
  have hunknown : (log.requests.get? id).isSome = false := by
    rw [Bool.eq_false_iff, ne_eq, h.known]
    exact hnew
  have hnodup : (DispatchOutcomeLog.retained calls ++ [id]).Nodup :=
    List.nodup_append.mpr ⟨h.nodup, List.nodup_singleton id, by
      intro a ha b hb
      rw [List.mem_singleton.mp hb]
      rintro rfl
      exact hnew ha⟩
  rw [DispatchOutcomeLog.tallyFor, if_neg hid,
    DispatchOutcomeLog.noteRequestEnqueued_of_new jobs hid hunknown]
  simp only [h.order]
  rw [DispatchOutcomeLog.get?_registered h.known hnodup, if_pos, if_pos rfl]
  · rfl
  · -- there is room for at least one request
    rw [List.length_append, List.length_singleton, List.drop_append_of_le_length (by
      simp only [requestBudget]; omega)]
    exact List.mem_append_right _ (List.mem_singleton_self id)

variable (native) in
/-- What holds after incidents: the counters count them, every id the log was given and every token
in the queue is one that was given away, and no token twice. -/
structure Kept (incidents : List (Incident F)) (desk : Desk F) : Prop where
  token : desk.nextPendingToken = (1 + tokensMinted native incidents) % 2 ^ 64
  requestId : desk.nextRequestId = (1 + batchesQueued native incidents) % 2 ^ 64
  log : ∃ calls, DispatchOutcomeLog.Accounts calls desk.log ∧
    ∀ id ∈ DispatchOutcomeLog.registrations calls,
      ∃ i < batchesQueued native incidents, id = (1 + i) % 2 ^ 64
  tokens : (installTokens desk.queue).Sublist
    ((List.range' 1 (tokensMinted native incidents)).map (· % 2 ^ 64))

theorem kept_start : Kept native [] ({} : Desk F) where
  token := rfl
  requestId := rfl
  log := ⟨[], DispatchOutcomeLog.accounts_new defaultCapacity, nofun⟩
  tokens := .slnil

/-- The tokens of the jobs a batch queues are among those it was given. -/
theorem installTokens_admitted {kindOf : ℕ → Option SwitchKind} {first : ℕ} {j : Json F}
    {admitted : Admitted F} (h : (admitBatch native kindOf (first % 2 ^ 64) j).1 = .ok admitted)
    (requestId : ℕ) :
    (installTokens (stampRequest requestId admitted.jobs)).Sublist
      ((List.range' first (Incident.minted native (.batch kindOf j))).map (· % 2 ^ 64)) := by
  obtain ⟨b, installs, modifies, deletes, hread, hproblems, hbatch, hinstalls, hmodifies, hdeletes,
    hjobs, -, -, -⟩ := admitBatch_cases h
  obtain ⟨hins, hmods, hdels⟩ := shape_of_shapeProblems hproblems
  rw [hbatch] at hinstalls hmodifies hdeletes
  have hcount : Incident.minted native (.batch kindOf j) = b.installs.length := by
    simp only [Incident.minted, mintedBy, hread, if_pos hproblems]
  -- neither a modify nor a delete has a token
  have hother : ∀ (op : FlowOp) (es : List (Json F)) (jobs : List (FlowJob F)), op ≠ .install →
      List.Forall₂ (fun e job => ∀ index, JobOf ⟨op, index, e⟩ job) es jobs →
      installTokens jobs = [] := by
    intro op es jobs hop hall
    rw [installTokens, List.map_eq_nil_iff, List.filter_eq_nil_iff]
    intro job hjob
    obtain ⟨e, -, he⟩ := exists_mem_of_forall₂ hall hjob
    rw [(he 0).op]
    simpa using hop
  have hnone₂ := hother .modify _ _ (by decide)
    (jobsOf_mapM .modify hmodifies fun e he job hjob => jobOf_modify (hmods e he) hjob)
  have hnone₃ := hother .delete _ _ (by decide) (jobsOf_mapM .delete hdeletes
    fun e he job hjob => jobOf_delete (hdels e (mem_of_refuse he)) hjob)
  have hstamp : installTokens (stampRequest requestId admitted.jobs) =
      installTokens admitted.jobs := by
    simp [installTokens, stampRequest, List.filter_map, Function.comp_def]
  rw [hstamp, hjobs, hcount, ← tokens_installs hins hinstalls]
  have hall : installTokens (installs ++ modifies ++ deletes) = installTokens installs := by
    rw [installTokens_append, installTokens_append, hnone₂, hnone₃, List.append_nil,
      List.append_nil]
  have hqueued : (installTokens ((installs ++ modifies ++ deletes).filter fun job =>
      (kindOf job.dpid).isSome)).Sublist (installTokens (installs ++ modifies ++ deletes)) :=
    (List.filter_sublist.filter _).map _
  rw [hall] at hqueued
  exact hqueued.trans (List.filter_sublist.map _)

theorem mem_registrations_concat {calls : List (DispatchOutcomeLog.Call F)} {requestId jobs id : ℕ}
    (h : id ∈ DispatchOutcomeLog.registrations (calls ++ [DispatchOutcomeLog.Call.noteRequestEnqueued requestId jobs])) :
    id ∈ DispatchOutcomeLog.registrations calls ∨ id = requestId := by
  rw [DispatchOutcomeLog.registrations, List.foldl_concat, DispatchOutcomeLog.register] at h
  split at h
  · exact .inl h
  · exact (List.mem_append.mp h).imp_right List.mem_singleton.mp

/-- A batch keeps it, whatever becomes of it. -/
theorem Kept.batch {incidents : List (Incident F)} {desk : Desk F} (h : Kept native incidents desk)
    (hdesk : desk = Desk.after native incidents) (kindOf : ℕ → Option SwitchKind) (j : Json F) :
    Kept native (incidents ++ [Incident.batch kindOf j]) (processFlowBatch native kindOf j desk).2 := by
  have hlt : desk.nextPendingToken < 2 ^ 64 := by
    rw [h.token]
    exact Nat.mod_lt _ (by norm_num)
  have hminted := tokensMinted_concat native incidents (.batch kindOf j)
  have htoken : (admitBatch native kindOf desk.nextPendingToken j).2 =
      (1 + tokensMinted native (incidents ++ [Incident.batch kindOf j])) % 2 ^ 64 := by
    rw [(admitBatch_tokens native kindOf hlt j).1, h.token, hminted, Nat.mod_add_mod, Nat.add_assoc]
    rfl
  have hqueued := batchesQueued_concat native incidents (.batch kindOf j)
  rw [← hdesk, Desk.queues] at hqueued
  have hrange : List.range' 1 (tokensMinted native (incidents ++ [Incident.batch kindOf j])) =
      List.range' 1 (tokensMinted native incidents) ++
        List.range' (1 + tokensMinted native incidents) (Incident.minted native (.batch kindOf j)) := by
    rw [hminted, List.range'_append_1]
  cases hentered : (admitBatch native kindOf desk.nextPendingToken j).1 with
  | error refusal =>
    rw [(processFlowBatch_of_error hentered).1]
    rw [hentered, if_neg (by simp [Except.toOption]), Nat.add_zero] at hqueued
    refine ⟨htoken, ?_, ?_, ?_⟩
    · rw [hqueued]
      exact h.requestId
    · rw [hqueued]
      exact h.log
    · rw [hrange, List.map_append]
      exact h.tokens.trans (List.sublist_append_left _ _)
  | ok admitted =>
    rw [(processFlowBatch_of_ok hentered).1]
    rw [hentered, if_pos (by simp [Except.toOption])] at hqueued
    refine ⟨htoken, ?_, ?_, ?_⟩
    · rw [hqueued, Desk.enqueue, h.requestId, succU_mod, Nat.add_assoc]
    · obtain ⟨calls, haccounts, hids⟩ := h.log
      refine ⟨calls ++ [DispatchOutcomeLog.Call.noteRequestEnqueued desk.nextRequestId admitted.jobs.length],
        DispatchOutcomeLog.accounts_note haccounts _ _, ?_⟩
      intro id hid
      rw [hqueued]
      rcases mem_registrations_concat hid with hid | rfl
      · obtain ⟨i, hi, rfl⟩ := hids id hid
        exact ⟨i, Nat.lt_succ_of_lt hi, rfl⟩
      · exact ⟨_, Nat.lt_succ_self _, h.requestId⟩
    · rw [Desk.enqueue, installTokens_append, hrange, List.map_append]
      rw [h.token] at hentered
      exact h.tokens.append (installTokens_admitted hentered _)

variable (native) in
/-- **What a run keeps.** -/
theorem kept_after (incidents : List (Incident F)) :
    Kept native incidents (Desk.after native incidents) := by
  induction incidents using List.reverseRecOn with
  | nil => exact kept_start
  | append_singleton incidents incident ih =>
    rw [Desk.after_concat]
    cases incident with
    | batch kindOf j => exact ih.batch rfl kindOf j
    | outcome o =>
      obtain ⟨hminted, hqueued⟩ := counts_concat native (.outcome o) rfl (fun _ => rfl) incidents
      obtain ⟨calls, haccounts, hids⟩ := ih.log
      refine ⟨by rw [hminted]; exact ih.token, by rw [hqueued]; exact ih.requestId,
        ⟨_, DispatchOutcomeLog.accounts_record haccounts o.nowUnixMs o.job o.result, ?_⟩,
        by rw [hminted]; exact ih.tokens⟩
      rw [hqueued, DispatchOutcomeLog.registrations, List.foldl_concat]
      exact hids
    | poll answers now =>
      obtain ⟨hminted, hqueued⟩ := counts_concat native (.poll answers now) rfl (fun _ => rfl) incidents
      exact ⟨by rw [hminted]; exact ih.token, by rw [hqueued]; exact ih.requestId,
        by rw [hqueued]; exact ih.log, by rw [hminted]; exact ih.tokens⟩

/-! ### What is answered -/

variable (native) in
/-- **What is said of a batch**, in the reply and in what is left: the reply is an error and
nothing was queued, or every entry has met one fate.  While the counters last its request is
registered, and no two installs have one token. -/
inductive Answered (incidents : List (Incident F)) (kindOf : ℕ → Option SwitchKind) (j : Json F)
    (desk desk' : Desk F) : Response F → Prop where
  | error {refusal : Refusal F} (hstatus : refusal.status = 400 ∨ refusal.status = 404 ∨
      refusal.status = 501) (hqueue : desk'.queue = desk.queue) :
      Answered incidents kindOf j desk desk' (.error refusal)
  | queued {b : Batch F} {jobs : List (FlowJob F)} {dropped : List ℕ}
      {accepted requestId rejected : ℕ} {rejectedDpids : List ℕ} {refusedOnP4 : List (P4Refusal F)}
      (hread : readBatch j = .ok b) (hqueue : desk'.queue = desk.queue ++ jobs)
      (hsettled : Settled kindOf requestId b.entries jobs dropped refusedOnP4)
      (haccepted : accepted = jobs.length) (hrejected : rejected = dropped.length)
      (hdpids : ∀ dpid, dpid ∈ rejectedDpids ↔ dpid ∈ dropped)
      (htotal : accepted + rejected + refusedOnP4.length =
        b.installs.length + b.modifies.length + b.deletes.length)
      (hregistered : batchesQueued native (incidents ++ [.batch kindOf j]) < 2 ^ 64 →
        (desk'.log.tallyFor requestId).map RequestTally.enqueued = some accepted)
      (htokens : tokensMinted native (incidents ++ [.batch kindOf j]) ≤ 2 ^ 64 →
        (installTokens desk'.queue).Nodup) :
      Answered incidents kindOf j desk desk'
        (.queued accepted requestId rejected rejectedDpids refusedOnP4)

theorem length_entriesOf (op : FlowOp) (index : ℕ) (es : List (Json F)) :
    (entriesOf op index es).length = es.length := by
  induction es generalizing index with
  | nil => rfl
  | cons e es ih => rw [entriesOf, List.length_cons, List.length_cons, ih]

/-- As many tokens in a row as there are values of 64 bits are distinct. -/
theorem nodup_range'_mod {n : ℕ} (h : n ≤ 2 ^ 64) :
    ((List.range' 1 n).map (· % 2 ^ 64)).Nodup := by
  refine List.Nodup.map_on ?_ List.nodup_range'
  intro a ha b hb hab
  rw [List.mem_range'_1] at ha hb
  omega

/-- **No entry of a batch is lost.**  After any run, a batch that is answered is answered with an
error and queues nothing, or each of its entries is a job in the queue that does what the entry
says, is counted as rejected with its switch listed, or is listed as refused; the counts add up,
the jobs keep the order of the entries, and while the counters last the request is registered with
the number of its jobs and the tokens of all installs ever queued are distinct. -/
theorem answered_after (incidents : List (Incident F)) (kindOf : ℕ → Option SwitchKind)
    (fields : List (String × Json F)) {reply : Response F} {desk' : Desk F}
    (h : processFlowBatch native kindOf (.obj fields) (Desk.after native incidents) =
      (.ok reply, desk')) :
    Answered native incidents kindOf (.obj fields) (Desk.after native incidents) desk' reply := by
  have hkept := kept_after native incidents
  have hkept' := hkept.batch rfl kindOf (.obj fields)
  have hreply : (processFlowBatch native kindOf (.obj fields) (Desk.after native incidents)).1 =
      .ok reply := by rw [h]
  have hdesk' : desk' =
      (processFlowBatch native kindOf (.obj fields) (Desk.after native incidents)).2 := by rw [h]
  rw [← hdesk'] at hkept'
  cases hentered : (admitBatch native kindOf (Desk.after native incidents).nextPendingToken
    (.obj fields)).1 with
  | error refusal =>
    obtain ⟨hleft, hsaid⟩ := processFlowBatch_of_error hentered
    rw [hsaid reply hreply]
    refine .error ?_ ?_
    · cases refusal with
      | unsupportedOnP4 _ => exact .inr (.inr rfl)
      | unknownDpid _ _ => exact .inr (.inl rfl)
      | _ => exact .inl rfl
    · rw [hdesk', hleft]
  | ok admitted =>
    obtain ⟨hleft, hsaid⟩ := processFlowBatch_of_ok hentered
    rw [hsaid] at hreply
    split at hreply
    · cases hreply
    · cases hreply
      have hqueues : batchesQueued native (incidents ++ [.batch kindOf (.obj fields)]) =
          batchesQueued native incidents + 1 := by
        rw [batchesQueued_concat, Desk.queues, hentered, if_pos (by simp [Except.toOption])]
      obtain ⟨b, dropped, hread, hsettled, hrejected, hdpids⟩ :=
        settled_of_admitBatch (Desk.after native incidents).nextRequestId hentered
      have hlength : (stampRequest (Desk.after native incidents).nextRequestId
          admitted.jobs).length = admitted.jobs.length := List.length_map _
      refine .queued hread ?_ hsettled hlength.symm hrejected hdpids ?_ ?_ ?_
      · rw [hdesk', hleft, Desk.enqueue]
      · have htotal := hsettled.length_add
        rw [hlength, ← hrejected] at htotal
        rw [htotal, Batch.entries, List.length_append, List.length_append, length_entriesOf,
          length_entriesOf, length_entriesOf]
      · intro hlast
        obtain ⟨calls, haccounts, hids⟩ := hkept.log
        have hid : (Desk.after native incidents).nextRequestId =
            1 + batchesQueued native incidents := by
          rw [hkept.requestId]
          omega
        rw [hdesk', hleft, Desk.enqueue]
        refine registers haccounts (by omega) ?_ _
        intro hmem
        -- the ids that were given away before are smaller
        obtain ⟨i, hi, heq⟩ := hids _ (List.mem_of_mem_drop hmem)
        omega
      · intro hlast
        exact hkept'.tokens.nodup (nodup_range'_mod hlast)

end Runs

/-! ### Batches of a fabric with one switch -/

/-- Two installs, one of them for a switch that is not there, and a delete that is refused. -/
def mixedFields : List (String × Json Empty) :=
  [("delete_flow_entries", .arr [.obj [("dpid", .int 1), ("priority", .int 7)]]),
    ("install_flow_entries", .arr [.obj [("actions", .arr []), ("dpid", .int 1)],
      .obj [("actions", .arr []), ("dpid", .int 9)]])]

/-- The mixed batch is answered: one entry of each fate. -/
theorem answered_mixed :
    ∃ desk', processFlowBatch noFloats oneBmv2 (.obj mixedFields) (Desk.after noFloats []) =
        (.ok (.queued 1 1 1 [9] [⟨0, .int 1, .int 7⟩]), desk') ∧
      Answered noFloats [] oneBmv2 (.obj mixedFields) (Desk.after noFloats []) desk'
        (.queued 1 1 1 [9] [⟨0, .int 1, .int 7⟩]) :=
  ⟨_, rfl, answered_after [] oneBmv2 mixedFields rfl⟩

/-- A batch without entries is queued, and only the id moves on. -/
theorem after_empty (n : ℕ) :
    (Desk.after noFloats (List.replicate n (.batch oneBmv2 (.obj [])))).nextRequestId =
        (1 + n) % 2 ^ 64 ∧
      (Desk.after noFloats (List.replicate n (.batch oneBmv2 (.obj [])))).nextPendingToken = 1 ∧
      (Desk.after noFloats (List.replicate n (.batch oneBmv2 (.obj [])))).cache = [] := by
  induction n with
  | zero => exact ⟨rfl, rfl, rfl⟩
  | succ n ih =>
    obtain ⟨hid, htoken, hcache⟩ := ih
    rw [List.replicate_succ', Desk.after_concat]
    generalize Desk.after noFloats (List.replicate n (.batch oneBmv2 (.obj []))) = desk at *
    refine ⟨?_, htoken, hcache⟩
    show succU 64 desk.nextRequestId = _
    rw [hid, succU_mod]
    rfl

/-- A batch for switches that are not there uses up its tokens, and nothing is queued. -/
theorem foldl_refused (n : ℕ) (desk : Desk Empty) (h : desk.nextPendingToken < 2 ^ 64) :
    (List.replicate n (.batch (fun _ => none) dropRequest)).foldl (Desk.handle noFloats) desk =
      { desk with nextPendingToken := (desk.nextPendingToken + n) % 2 ^ 64 } := by
  induction n generalizing desk with
  | zero =>
    rw [Nat.add_zero, Nat.mod_eq_of_lt h]
    rfl
  | succ n ih =>
    have hstep : desk.handle noFloats (.batch (fun _ => none) dropRequest) =
        { desk with nextPendingToken := succU 64 desk.nextPendingToken } := rfl
    rw [List.replicate_succ, List.foldl_cons, hstep, ih _ (succU_lt ..), succU_add_mod]

/-- **The counters run out**: the batch after `2 ^ 64 - 1` others has the id 0 and is not registered,
and a token is given away again after `2 ^ 64` others. -/
theorem not_registered :
    (∃ desk', processFlowBatch noFloats oneBmv2 dropRequest
          (Desk.after noFloats (List.replicate (2 ^ 64 - 1) (.batch oneBmv2 (.obj [])))) =
        (.ok (.queued 1 0 0 [] []), desk') ∧
      (desk'.log.tallyFor 0).map RequestTally.enqueued ≠ some 1) ∧
    ∃ desk', processFlowBatch noFloats oneBmv2 dropRequest (Desk.after noFloats
          (.batch oneBmv2 dropRequest ::
            List.replicate (2 ^ 64 - 1) (.batch (fun _ => none) dropRequest))) =
        (.ok (.queued 1 2 0 [] []), desk') ∧
      ¬ (installTokens desk'.queue).Nodup := by
  constructor
  · obtain ⟨hid, htoken, hcache⟩ := after_empty (2 ^ 64 - 1)
    generalize Desk.after noFloats (List.replicate (2 ^ 64 - 1) (.batch oneBmv2 (.obj []))) = desk at *
    obtain ⟨token, requestId, log, cache, queue⟩ := desk
    cases htoken
    cases hcache
    have hzero : requestId = 0 := by simpa using hid
    subst hzero
    exact ⟨_, rfl, nofun⟩
  · rw [Desk.after, List.foldl_cons, foldl_refused _ _ (by decide)]
    refine ⟨_, rfl, ?_⟩
    decide

end NDTwin.FlowTables
