import NDTwin.Lib.CText
import NDTwin.Lib.Fixed
import NDTwin.Lib.Ipv4
import NDTwin.Lib.JsonAccess

/-!
# Flow batches

A request carries entries to install, to modify and to delete.  Before anything is queued every
entry is checked for its shape, deletes a P4 switch cannot honour are taken out, each install is
given a token of its own, and the entries become jobs; jobs for switches the topology does not
know are dropped.  What is left is queued, and the entries go on to the cached tables.

Of the replies only what a caller can act on is kept: the sentences beside it are not.

## Main definitions

* `Native` — what is used of floats and of a value's text.
* `parseIpv4MatchValue`, `describeFlowEntryShapeProblem` — the shape check.
* `isPriorityDeleteP4CannotHonour`, `refusePriorityDeletesP4CannotHonour` — deletes refused on P4.
* `FlowJob`, `makeInstallJob`, `makeModifyJob`, `makeDeleteJob` — jobs.
* `partitionFlowBatchByKnownDpid` — jobs for switches that are not there.
* `admitBatch` — `processFlowBatch` up to the queue.

## Main results

* `describeFlowEntryShapeProblem_eq_none` — **what an entry with the right shape has.**
* `admitBatch_ok` — **what a batch that is queued consists of.**
-/

namespace NDTwin.FlowTables

open Fixed Json

variable {F : Type}

/-- What is used of floats and of the text of a value: the integer a cast makes of a float, and
`dump()`. -/
structure Native (F : Type) where
  cast : F → ℤ
  dump : Json F → String

/-- Documents without floats, and the text `json.dumps` gives them. -/
def noFloats : Native Empty := ⟨Empty.elim, dumps Floats.empty⟩

/-- `kPendingTokenField`. -/
def pendingTokenField : String := "_ndt_pending_token"

/-! ### The shape of an entry -/

/-- An IPv4 match value as the switch matches it. -/
structure Ipv4MatchValue where
  address : BitVec 32
  mask : BitVec 32 := BitVec.allOnes 32
  deriving DecidableEq, Repr

/-- An address in text. -/
def parseAddress (cs : List Char) : Option (BitVec 32) :=
  (Ipv4.pton (String.ofList cs)).map fun bytes => BitVec.ofNat 32 (Ipv4.ofBytes bytes)

/-- The mask of a prefix length. -/
def maskOfLength (len : ℕ) : BitVec 32 := if len = 0 then 0 else BitVec.allOnes 32 <<< (32 - len)

/-- What stands after the slash: one or two digits are a prefix length, anything else a mask. -/
def parseSuffix (suffix : List Char) : Option (BitVec 32) :=
  if suffix ≠ [] ∧ suffix.length ≤ 2 ∧ suffix.all Char.isDigit = true then
    let len := Nat.ofDigitChars 10 suffix 0
    if 32 < len then none else some (maskOfLength len)
  else parseAddress suffix

/-- `parseIpv4MatchValue(v)`. -/
def parseIpv4MatchValue : Json F → Option Ipv4MatchValue
  | .int n => if 0 ≤ n ∧ n ≤ 0xffffffff then some { address := BitVec.ofInt 32 n } else none
  | .str s =>
    let cs := s.toList
    -- `inet_pton` would read no further than a NUL
    if '\x00' ∈ cs then none
    else match parseAddress (CText.before '/' cs) with
      | none => none
      | some address =>
        if '/' ∈ cs then (parseSuffix (CText.after '/' cs)).map fun mask => ⟨address, mask⟩
        else some { address }
  | _ => none

/-- Operation type for a flow rule update. -/
inductive FlowOp where
  | install | modify | delete
  deriving DecidableEq, Repr

/-- `kIpv4MatchFields`. -/
def ipv4MatchFields : List String := ["ipv4_dst", "nw_dst", "ipv4_src", "nw_src"]

/-- `kIpv4MatchFieldPairs`. -/
def ipv4MatchFieldPairs : List (String × String) := [("ipv4_dst", "nw_dst"), ("ipv4_src", "nw_src")]

/-- The numbers JSON keeps as integers and that are not negative: a datapath id. -/
def isDpid : Json F → Bool
  | .int n => 0 ≤ n && n < 2 ^ 64
  | _ => false

/-- An OpenFlow priority. -/
def isPriority : Json F → Bool
  | .int n => 0 ≤ n && n ≤ 65535
  | _ => false

/-- An address of a match that cannot be read. -/
def describeUnreadAddress (native : Native F) (matchFields : Json F) (field : String) :
    Option String :=
  match matchFields.find field with
  | none => none
  | some v =>
    if (parseIpv4MatchValue v).isSome then none
    else some ("\"match." ++ field ++ "\" is " ++ (native.dump v) ++
      ", which is not an IPv4 address, a.b.c.d/len or a.b.c.d/mask")

/-- Two spellings of an address that do not agree. -/
def describeTwoAddresses (native : Native F) (matchFields : Json F) (pair : String × String) :
    Option String :=
  match matchFields.find pair.1, matchFields.find pair.2 with
  | some a, some b =>
    match parseIpv4MatchValue a, parseIpv4MatchValue b with
    | some va, some vb =>
      if va.mask ≠ vb.mask ∨ va.address &&& va.mask ≠ vb.address &&& vb.mask then
        some ("\"match." ++ pair.1 ++ "\" is " ++ (native.dump a) ++ " and \"match." ++ pair.2 ++
          "\" is " ++ (native.dump b) ++
          ", which name different addresses; send one of them, or the same address in both")
      else none
    | _, _ => none
  | _, _ => none

/-- The checks of a match, which are made of an object only. -/
def describeMatchProblem (native : Native F) (entry : Json F) : Option String :=
  match entry.find "match" with
  | some (.obj fields) =>
    match ipv4MatchFields.findSome? (describeUnreadAddress native (.obj fields)) with
    | some problem => some problem
    | none => ipv4MatchFieldPairs.findSome? (describeTwoAddresses native (.obj fields))
  | _ => none

/-- `describeFlowEntryShapeProblem(entry, op)`: why an entry cannot become a rule, or `none` where
the source answers with an empty text. -/
def describeFlowEntryShapeProblem (native : Native F) (entry : Json F) (op : FlowOp) :
    Option String :=
  if !entry.isObj then some "entry is not a JSON object"
  else match entry.find "dpid" with
    | none => some "missing \"dpid\""
    | some dpid =>
      if !isDpid dpid then some "\"dpid\" must be a non-negative integer"
      else if op ≠ .delete ∧ (entry.find "actions").isNone then
        some "missing \"actions\" -- send \"actions\": [] if a drop rule is what you meant"
      else if (entry.find "priority").any fun p => !isPriority p then
        some "\"priority\" must be an integer from 0 to 65535 (omit it for the default)"
      else describeMatchProblem native entry

/-! ### Deletes refused on P4 -/

/-- `kP4FiveTupleOnlyMatchFields`. -/
def p4FiveTupleOnlyMatchFields : List String :=
  ["in_port", "nw_src", "ipv4_src", "nw_proto", "ip_proto", "tp_src", "tcp_src", "udp_src", "tp_dst",
    "tcp_dst", "udp_dst"]

/-- A priority that names an entry: above 0.  A float names one from 1 on, which a cast keeps. -/
def namesPriority (native : Native F) : Json F → Bool
  | .int n => 0 < n
  | .float x => 1 ≤ native.cast x
  | _ => false

/-- `isPriorityDeleteP4CannotHonour(entry)`. -/
def isPriorityDeleteP4CannotHonour (native : Native F) (entry : Json F) : Bool :=
  match entry.find "priority" with
  | none => false
  | some priority =>
    if !namesPriority native priority then false
    else match entry.find "match" with
      | some (.obj fields) =>
        !p4FiveTupleOnlyMatchFields.any fun field => ((Json.obj fields).find field).isSome
      | _ => true

/-- A delete refused up front: its index in the request, its switch and its priority. -/
structure P4Refusal (F : Type) where
  index : ℕ
  dpid : Json F
  requestedPriority : Json F

/-- One delete of `refusePriorityDeletesP4CannotHonour`: refused, or admitted. -/
def refusalOf (native : Native F) (dpidIsBmv2 : ℕ → Bool) (index : ℕ) (entry : Json F) :
    Option (P4Refusal F) :=
  match entry.find "dpid" with
  | some (.int n) =>
    if isPriorityDeleteP4CannotHonour native entry ∧ 0 ≤ n ∧ dpidIsBmv2 n.toNat then
      some ⟨index, .int n, (entry.find "priority").getD .null⟩
    else none
  | _ => none

/-- `refusePriorityDeletesP4CannotHonour(deletes, dpidIsBmv2)`: the deletes to queue, and those
refused. -/
def refusePriorityDeletesP4CannotHonour (native : Native F) (dpidIsBmv2 : ℕ → Bool) (index : ℕ) :
    List (Json F) → List (Json F) × List (P4Refusal F)
  | [] => ([], [])
  | entry :: deletes =>
    let (admitted, refused) :=
      refusePriorityDeletesP4CannotHonour native dpidIsBmv2 (index + 1) deletes
    match refusalOf native dpidIsBmv2 index entry with
    | some refusal => (admitted, refusal :: refused)
    | none => (entry :: admitted, refused)

/-! ### Jobs -/

/-- A unit of work for OpenFlow rule updates. -/
structure FlowJob (F : Type) where
  dpid : ℕ
  op : FlowOp
  priority : ℤ
  matchFields : Json F
  actions : Json F := .null
  idleTimeout : ℤ := 0
  token : ℕ := 0
  requestId : ℕ := 0

/-- `entry.at("dpid").get<uint64_t>()`. -/
def dpidOf (native : Native F) (entry : Json F) : Except AccessError ℕ := do
  getUint64 native.cast (← entry.at? "dpid")

/-- `makeInstallJob(entry)`. -/
def makeInstallJob (native : Native F) (entry : Json F) : Except AccessError (FlowJob F) := do
  let dpid ← dpidOf native entry
  let priority ← entry.valueInt native.cast "priority" 0
  let matchFields ← entry.value "match" (.obj [])
  let actions ← entry.value "actions" (.arr [])
  let idleTimeout ← entry.valueInt native.cast "idle_timeout" 0
  let token ← getUint64 native.cast (← entry.value pendingTokenField (.int 0))
  return { dpid, op := .install, priority, matchFields, actions, idleTimeout, token }

/-- `makeModifyJob(entry)`. -/
def makeModifyJob (native : Native F) (entry : Json F) : Except AccessError (FlowJob F) := do
  let dpid ← dpidOf native entry
  let priority ← entry.valueInt native.cast "priority" 0
  let matchFields ← entry.value "match" (.obj [])
  let actions ← entry.value "actions" (.arr [])
  return { dpid, op := .modify, priority, matchFields, actions }

/-- `makeDeleteJob(entry)`. -/
def makeDeleteJob (native : Native F) (entry : Json F) : Except AccessError (FlowJob F) := do
  let dpid ← dpidOf native entry
  let priority ← entry.valueInt native.cast "priority" (-1)
  let matchFields ← entry.value "match" (.obj [])
  return { dpid, op := .delete, priority, matchFields }

/-- The result of splitting a flow batch into what can be programmed and what cannot. -/
structure FlowBatchPartition (F : Type) where
  accepted : List (FlowJob F)
  unknownDpids : List ℕ
  rejectedEntries : ℕ

/-- `partitionFlowBatchByKnownDpid(jobs, dpidIsKnown)`: the unknown switches sorted and each
once. -/
def partitionFlowBatchByKnownDpid (dpidIsKnown : ℕ → Bool) (jobs : List (FlowJob F)) :
    FlowBatchPartition F :=
  let rejected := jobs.filter fun job => !dpidIsKnown job.dpid
  { accepted := jobs.filter fun job => dpidIsKnown job.dpid
    unknownDpids := ((rejected.map FlowJob.dpid).insertionSort (· ≤ ·)).dedup
    rejectedEntries := rejected.length }

/-! ### Admission -/

/-- The installs with a token each, and the next token. -/
def annotateInstalls (token : ℕ) : List (Json F) → List (Json F) × ℕ
  | [] => ([], token)
  | .obj fields :: entries =>
    let (annotated, next) := annotateInstalls (succU 64 token) entries
    (.obj (put pendingTokenField (.int token) fields) :: annotated, next)
  | entry :: entries =>
    let (annotated, next) := annotateInstalls token entries
    (entry :: annotated, next)

/-- The entries a request carries, as the cached tables are given them. -/
structure Batch (F : Type) where
  installs : List (Json F)
  modifies : List (Json F)
  deletes : List (Json F)

/-- An entry the shape check refuses: the array it is in, its index there, and why. -/
structure ShapeProblem where
  field : String
  index : ℕ
  problem : String
  deriving DecidableEq, Repr

/-- The problems of the entries of one array. -/
def collectShapeProblems (native : Native F) (op : FlowOp) (field : String) (index : ℕ) :
    List (Json F) → List ShapeProblem
  | [] => []
  | entry :: entries =>
    match describeFlowEntryShapeProblem native entry op with
    | some problem =>
      ⟨field, index, problem⟩ :: collectShapeProblems native op field (index + 1) entries
    | none => collectShapeProblems native op field (index + 1) entries

/-- Why a batch is not queued, with the status it is answered with. -/
inductive Refusal (F : Type) where
  /-- An exception leaves the handler: 400. -/
  | threw (e : AccessError)
  /-- The three members must be arrays: 400. -/
  | notArrays
  /-- Entries that cannot form a rule: 400. -/
  | malformed (problems : List ShapeProblem)
  /-- An entry no job could be made of: 400. -/
  | badEntry (e : AccessError)
  /-- Nothing but deletes that are refused on P4: 501. -/
  | unsupportedOnP4 (refused : List (P4Refusal F))
  /-- No entry names a switch that is there: 404. -/
  | unknownDpid (unknownDpids : List ℕ) (refused : List (P4Refusal F))

/-- The status a refusal is answered with. -/
def Refusal.status : Refusal F → ℕ
  | .threw _ | .notArrays | .malformed _ | .badEntry _ => 400
  | .unsupportedOnP4 _ => 501
  | .unknownDpid _ _ => 404

/-- What a batch that is queued leads to: its jobs, the entries for the cached tables, and what the
reply says of the rest. -/
structure Admitted (F : Type) where
  jobs : List (FlowJob F)
  batch : Batch F
  rejectedEntries : ℕ
  unknownDpids : List ℕ
  refusedOnP4 : List (P4Refusal F)

/-- The kinds of switch. -/
inductive SwitchKind where
  | ovs | bmv2 | hardware
  deriving DecidableEq, Repr

/-- The three arrays of a request. -/
def readBatch (j : Json F) : Except (Refusal F) (Batch F) :=
  match j with
  | .obj fields =>
    match (fields.lookup "install_flow_entries").getD (.arr []),
      (fields.lookup "modify_flow_entries").getD (.arr []),
      (fields.lookup "delete_flow_entries").getD (.arr []) with
    | .arr installs, .arr modifies, .arr deletes => .ok ⟨installs, modifies, deletes⟩
    | _, _, _ => .error .notArrays
  | _ => .error (.threw (.typeError 306))

/-- The problems of a whole batch. -/
def shapeProblems (native : Native F) (b : Batch F) : List ShapeProblem :=
  collectShapeProblems native .install "install_flow_entries" 0 b.installs ++
    collectShapeProblems native .modify "modify_flow_entries" 0 b.modifies ++
    collectShapeProblems native .delete "delete_flow_entries" 0 b.deletes

/-- The jobs of a batch, in the order installs, modifies, deletes. -/
def makeJobs (native : Native F) (b : Batch F) : Except AccessError (List (FlowJob F)) := do
  let installs ← b.installs.mapM (makeInstallJob native)
  let modifies ← b.modifies.mapM (makeModifyJob native)
  let deletes ← b.deletes.mapM (makeDeleteJob native)
  return installs ++ modifies ++ deletes

/-- `processFlowBatch(j)` up to the queue: what is queued, or why nothing is, and the next
token. -/
def admitBatch (native : Native F) (kindOf : ℕ → Option SwitchKind) (token : ℕ) (j : Json F) :
    Except (Refusal F) (Admitted F) × ℕ :=
  match readBatch j with
  | .error refusal => (.error refusal, token)
  | .ok b =>
    let problems := shapeProblems native b
    if problems ≠ [] then (.error (.malformed problems), token)
    else
      let (admittedDels, refused) := refusePriorityDeletesP4CannotHonour native
        (fun dpid => kindOf dpid = some .bmv2) 0 b.deletes
      let (annotated, next) := annotateInstalls token b.installs
      let batch : Batch F := ⟨annotated, b.modifies, admittedDels⟩
      match makeJobs native batch with
      | .error e => (.error (.badEntry e), next)
      | .ok jobs =>
        let partition := partitionFlowBatchByKnownDpid (fun dpid => (kindOf dpid).isSome) jobs
        if partition.accepted.isEmpty ∧ partition.rejectedEntries = 0 ∧ !refused.isEmpty then
          (.error (.unsupportedOnP4 refused), next)
        else if partition.accepted.isEmpty ∧ partition.rejectedEntries ≠ 0 then
          (.error (.unknownDpid partition.unknownDpids refused), next)
        else
          (.ok ⟨partition.accepted, batch, partition.rejectedEntries, partition.unknownDpids,
            refused⟩, next)

/-! ### What the shape check ensures -/

/-- An entry is an object that names a switch, and its priority, if it has one, is a priority. -/
def Shaped (e : Json F) : Prop :=
  ∃ fields, e = .obj fields ∧
    (∃ n : ℤ, fields.lookup "dpid" = some (.int n) ∧ 0 ≤ n ∧ n < 2 ^ 64) ∧
    ∀ p, fields.lookup "priority" = some p → ∃ n : ℤ, p = .int n ∧ 0 ≤ n ∧ n ≤ 65535

theorem isDpid_iff (j : Json F) : isDpid j = true ↔ ∃ n : ℤ, j = .int n ∧ 0 ≤ n ∧ n < 2 ^ 64 := by
  cases j with
  | int n => simp [isDpid]
  | _ => simp [isDpid]

theorem isPriority_iff (j : Json F) :
    isPriority j = true ↔ ∃ n : ℤ, j = .int n ∧ 0 ≤ n ∧ n ≤ 65535 := by
  cases j with
  | int n => simp [isPriority]
  | _ => simp [isPriority]

/-- **An entry without a shape problem** has a switch and a readable priority. -/
theorem describeFlowEntryShapeProblem_eq_none {native : Native F} {e : Json F} {op : FlowOp}
    (h : describeFlowEntryShapeProblem native e op = none) : Shaped e := by
  cases e with
  | obj fields =>
    rw [describeFlowEntryShapeProblem, if_neg (by simp [isObj])] at h
    cases hdpid : (Json.obj fields).find "dpid" with
    | none => simp [hdpid] at h
    | some dpid =>
      simp only [hdpid] at h
      split_ifs at h with hd hop hp
      have hd' : isDpid dpid = true := by simpa using hd
      obtain ⟨n, rfl, hn⟩ := (isDpid_iff dpid).mp hd'
      refine ⟨fields, rfl, ⟨n, hdpid, hn⟩, ?_⟩
      intro p hlookup
      have hfind : (Json.obj fields).find "priority" = some p := hlookup
      rw [hfind] at hp
      exact (isPriority_iff p).mp (by simpa using hp)
  | _ => simp [describeFlowEntryShapeProblem, isObj] at h

theorem collectShapeProblems_eq_nil {native : Native F} {op : FlowOp} {field : String} {index : ℕ}
    {entries : List (Json F)} (h : collectShapeProblems native op field index entries = []) :
    ∀ e ∈ entries, describeFlowEntryShapeProblem native e op = none := by
  induction entries generalizing index with
  | nil => exact nofun
  | cons entry entries ih =>
    rw [collectShapeProblems] at h
    cases hproblem : describeFlowEntryShapeProblem native entry op with
    | some problem => simp [hproblem] at h
    | none =>
      simp only [hproblem] at h
      intro e he
      rcases List.mem_cons.mp he with rfl | he
      · exact hproblem
      · exact ih h e he

/-- A member other than the token is untouched by the stamping. -/
theorem shaped_put_token {fields : List (String × Json F)} (token : Json F)
    (h : Shaped (.obj fields)) : Shaped (.obj (put pendingTokenField token fields)) := by
  obtain ⟨fields', heq, hdpid, hpriority⟩ := h
  cases heq
  refine ⟨_, rfl, ?_, ?_⟩
  · rw [lookup_put_of_ne _ _ (by decide)]
    exact hdpid
  · rw [lookup_put_of_ne _ _ (by decide)]
    exact hpriority

theorem shaped_annotateInstalls {entries : List (Json F)} (h : ∀ e ∈ entries, Shaped e)
    (token : ℕ) : ∀ e ∈ (annotateInstalls token entries).1, Shaped e := by
  induction entries generalizing token with
  | nil => exact nofun
  | cons entry entries ih =>
    obtain ⟨fields, rfl, hfields⟩ := h entry List.mem_cons_self
    intro e he
    rcases List.mem_cons.mp he with rfl | he
    · exact shaped_put_token _ (h _ List.mem_cons_self)
    · exact ih (fun e' he' => h e' (List.mem_cons_of_mem _ he')) _ e he

theorem mem_of_refuse {native : Native F} {dpidIsBmv2 : ℕ → Bool} {index : ℕ}
    {deletes : List (Json F)} {e : Json F}
    (h : e ∈ (refusePriorityDeletesP4CannotHonour native dpidIsBmv2 index deletes).1) :
    e ∈ deletes := by
  induction deletes generalizing index with
  | nil => exact h
  | cons entry deletes ih =>
    rw [refusePriorityDeletesP4CannotHonour] at h
    cases hrefusal : refusalOf native dpidIsBmv2 index entry with
    | some refusal =>
      simp only [hrefusal] at h
      exact List.mem_cons_of_mem _ (ih h)
    | none =>
      simp only [hrefusal] at h
      rcases List.mem_cons.mp h with rfl | h
      · exact List.mem_cons_self
      · exact List.mem_cons_of_mem _ (ih h)

/-- A batch whose entries are all shaped. -/
structure Batch.Shaped (b : Batch F) : Prop where
  installs : ∀ e ∈ b.installs, FlowTables.Shaped e
  modifies : ∀ e ∈ b.modifies, FlowTables.Shaped e
  deletes : ∀ e ∈ b.deletes, FlowTables.Shaped e

/-- **What is queued is shaped**, in what the cached tables are given of it. -/
theorem admitBatch_ok {native : Native F} {kindOf : ℕ → Option SwitchKind} {token : ℕ} {j : Json F}
    {admitted : Admitted F} (h : (admitBatch native kindOf token j).1 = .ok admitted) :
    admitted.batch.Shaped := by
  rw [admitBatch] at h
  cases hread : readBatch j with
  | error refusal => simp [hread] at h
  | ok b =>
    simp only [hread] at h
    split at h
    · cases h
    · next hproblems =>
      have hnil : shapeProblems native b = [] := not_not.mp hproblems
      simp only [shapeProblems, List.append_eq_nil_iff] at hnil
      obtain ⟨⟨hins, hmods⟩, hdels⟩ := hnil
      have hshaped : ∀ {op : FlowOp} {field : String} {entries : List (Json F)},
          collectShapeProblems native op field 0 entries = [] → ∀ e ∈ entries, Shaped e :=
        fun hnone e he => describeFlowEntryShapeProblem_eq_none
          (collectShapeProblems_eq_nil hnone e he)
      have hbatch : admitted.batch = ⟨(annotateInstalls token b.installs).1, b.modifies,
          (refusePriorityDeletesP4CannotHonour native
            (fun dpid => kindOf dpid = some .bmv2) 0 b.deletes).1⟩ := by
        split at h
        · cases h
        · split at h
          · cases h
          · split at h
            · cases h
            · cases h
              rfl
      rw [hbatch]
      exact ⟨shaped_annotateInstalls (hshaped hins) token, hshaped hmods,
        fun e he => hshaped hdels e (mem_of_refuse he)⟩

theorem dpidOf_of_shaped (native : Native F) {e : Json F} (h : Shaped e) :
    ∃ dpid, dpidOf native e = .ok dpid := by
  obtain ⟨fields, rfl, ⟨n, hn, -⟩, -⟩ := h
  refine ⟨(BitVec.ofInt 64 n).toNat, ?_⟩
  simp [dpidOf, at?, hn, getUint64, bind, Except.bind]

theorem priority_of_shaped (native : Native F) {e : Json F} (h : Shaped e) :
    ∃ p, e.valueInt native.cast "priority" 0 = .ok p := by
  obtain ⟨fields, rfl, -, hpriority⟩ := h
  cases hlookup : fields.lookup "priority" with
  | none => exact ⟨0, by simp [valueInt, hlookup]⟩
  | some p =>
    obtain ⟨n, rfl, -⟩ := hpriority p hlookup
    exact ⟨(BitVec.ofInt 32 n).toInt, by simp [valueInt, hlookup, getInt]⟩

end NDTwin.FlowTables
