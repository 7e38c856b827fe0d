import NDTwin.Classifier.Key
import NDTwin.FlowTables.Batch

/-!
# The cached flow tables

For each switch the cache holds the reply of its last successful poll, and the entries of accepted
batches are written into it at once.  A switch whose poll failed keeps its table, marked as stale;
one that has never been read has no table at all.  Rows of installs carry their token, and are
served once the token is confirmed.

An edit may throw, and what it had done by then stays.

## Main definitions

* `CachedSwitch`, `Cache` — the cached document.
* `extractKey` — how a row or an entry is identified.
* `installOne`, `modifyOne`, `deleteOne`, `updateOpenFlowTables` — the edits of a batch.
* `classifyFlowStatsReply`, `carryForwardUnreadTables`, `applyFetchedTables` — polls.
* `stripUnprogrammedEntries` — the view that is served.
-/

namespace NDTwin.FlowTables

open Fixed Json

variable {F : Type}

/-! ### The document -/

/-- The marks of a table that is not fresh; the two numbers are `int64_t`. -/
structure StaleMarks where
  staleSince : ℤ
  stalePolls : ℤ
  lastError : String
  deriving DecidableEq, Repr

/-- A switch of the cached document. -/
structure CachedSwitch (F : Type) where
  dpid : ℕ
  flows : Json F
  stale : Option StaleMarks := none
  neverRead : Bool := false

/-- The cached document. -/
abbrev Cache (F : Type) := List (CachedSwitch F)

/-! ### How a row is identified -/

/-- An IPv4 match field as the cache compares it: the network and the mask, or the text of a value
that is no address. -/
structure CachedIpv4Field where
  network : BitVec 32 := 0
  mask : BitVec 32 := 0
  unread : String := ""
  deriving DecidableEq, Repr

/-- `cachedIpv4Field(match, field, alias)`. -/
def cachedIpv4Field (native : Native F) (matchFields : Json F) (field older : String) :
    CachedIpv4Field :=
  match (matchFields.find field).or (matchFields.find older) with
  | none => {}
  | some v =>
    match parseIpv4MatchValue v with
    | some ip => ⟨ip.address &&& ip.mask, ip.mask, ""⟩
    | none => ⟨0, 0, native.dump v⟩

/-- What `extractKey` answers: the table, the priority, and the fields of the match. -/
structure RowKey where
  tableId : ℤ
  priority : ℤ
  fk : Classifier.FlowKey
  dst : CachedIpv4Field
  src : CachedIpv4Field
  deriving DecidableEq, Repr

/-- The part of `extractKey` that reads the match. -/
def matchKey (native : Native F) (matchFields : Json F) :
    Except AccessError (Classifier.FlowKey × CachedIpv4Field × CachedIpv4Field) := do
  let ethType ← matchFields.valueInt native.cast "eth_type" 0
  let ipProto ← matchFields.valueInt native.cast "ip_proto" 0
  let fk : Classifier.FlowKey :=
    { ethType := BitVec.ofInt 16 ethType, ipProto := BitVec.ofInt 8 ipProto }
  let dst := cachedIpv4Field native matchFields "ipv4_dst" "nw_dst"
  let src := cachedIpv4Field native matchFields "ipv4_src" "nw_src"
  if fk.ipProto = 6 then
    let tpDst ← matchFields.valueInt native.cast "tcp_dst" 0
    let tpSrc ← matchFields.valueInt native.cast "tcp_src" 0
    return ({ fk with tpDst := BitVec.ofInt 16 tpDst, tpSrc := BitVec.ofInt 16 tpSrc }, dst, src)
  else if fk.ipProto = 17 then
    let tpDst ← matchFields.valueInt native.cast "udp_dst" 0
    let tpSrc ← matchFields.valueInt native.cast "udp_src" 0
    return ({ fk with tpDst := BitVec.ofInt 16 tpDst, tpSrc := BitVec.ofInt 16 tpSrc }, dst, src)
  else return (fk, dst, src)

/-- `extractKey(e)`. -/
def extractKey (native : Native F) (e : Json F) : Except AccessError RowKey := do
  let tableId ← e.valueInt native.cast "table_id" 0
  let priority ← e.valueInt native.cast "priority" 0
  let (fk, dst, src) ← matchKey native ((e.find "match").getD (.obj []))
  return { tableId, priority, fk, dst, src }

/-! ### The edits of a batch -/

/-- An edit's state and what it threw. -/
abbrev Edit (σ : Type) := σ × Option AccessError

/-- An edit of the rows of a switch, found as `getFlowsArrayForDpid(dpid)` finds them: the first
cached switch with the id, or a new one if the topology has such a switch.  Making the member that
holds the rows throws where `flows` is neither an object nor null. -/
def withFlows (isSwitch : ℕ → Bool) (dpid : ℕ) (edit : Json F → Edit (Json F)) :
    Cache F → Edit (Cache F)
  | [] =>
    if isSwitch dpid then
      let (rows, err) := edit (.arr [])
      ([{ dpid, flows := .obj [(toString dpid, rows)] }], err)
    else ([], none)
  | sw :: cache =>
    if sw.dpid = dpid then
      match sw.flows with
      | .obj fields =>
        let (rows, err) := edit ((fields.lookup (toString dpid)).getD .null)
        ({ sw with flows := .obj (put (toString dpid) rows fields) } :: cache, err)
      | .null =>
        let (rows, err) := edit .null
        ({ sw with flows := .obj [(toString dpid, rows)] } :: cache, err)
      | _ => (sw :: cache, some (.typeError 305))
    else
      let (cache, err) := withFlows isSwitch dpid edit cache
      (sw :: cache, err)

/-- The row an install puts. -/
def newFlow (native : Native F) (e : Json F) : Except AccessError (Json F) := do
  let priority ← e.valueInt native.cast "priority" 0
  let matchFields ← e.value "match" (.obj [])
  let actions ← e.value "actions" (.arr [])
  let tableId ← e.valueInt native.cast "table_id" 0
  let fields : List (String × Json F) := [("actions", actions), ("match", matchFields),
    ("priority", .int priority), ("table_id", .int tableId)]
  match e.find pendingTokenField with
  | some token => return .obj (put pendingTokenField token fields)
  | none => return .obj fields

/-- The edit of an install: its row is pushed. -/
def pushFlow (native : Native F) (e rows : Json F) : Edit (Json F) :=
  match newFlow native e with
  | .error err => (rows, some err)
  | .ok row => pushBack rows row

/-- The row a modify leaves in the place of one it names. -/
def modifiedFlow (native : Native F) (e : Json F) : Json F → Except AccessError (Json F)
  | .obj fields => do
    let priority ← e.valueInt native.cast "priority" 0
    let fields := put "priority" (.int priority) fields
    let matchFields ← e.value "match" (.obj [])
    let fields := put "match" matchFields fields
    let actions ← e.value "actions" (.arr [])
    return .obj (put "actions" actions fields)
  | row => .ok row

/-- The loop of `modifyOne`: the first row with the key is changed. -/
def modifyRows (native : Native F) (e : Json F) (key : RowKey) : List (Json F) → Edit (List (Json F))
  | [] => ([], none)
  | row :: rows =>
    match extractKey native row with
    | .error err => (row :: rows, some err)
    | .ok rowKey =>
      if rowKey = key then
        match modifiedFlow native e row with
        | .ok row' => (row' :: rows, none)
        | .error err => (row :: rows, some err)
      else
        let (rows, err) := modifyRows native e key rows
        (row :: rows, err)

/-- The edit of a modify. -/
def modifyFlow (native : Native F) (e : Json F) (key : RowKey) (rows : Json F) : Edit (Json F) :=
  let (xs, err) := modifyRows native e key rows.elements
  (rows.withElements xs, err)

/-- The edit of a delete: every row with the key is taken out.  Nothing can be erased from
null. -/
def deleteFlow (native : Native F) (key : RowKey) (rows : Json F) : Edit (Json F) :=
  match rows with
  | .null => (.null, some (.typeError 307))
  | rows =>
    let (xs, err) := removeIf (fun row => do return decide ((← extractKey native row) = key))
      rows.elements
    (rows.withElements xs, err)

/-- `installOne(e)`. -/
def installOne (native : Native F) (isSwitch : ℕ → Bool) (e : Json F) (cache : Cache F) :
    Edit (Cache F) :=
  match dpidOf native e with
  | .error err => (cache, some err)
  | .ok dpid => withFlows isSwitch dpid (pushFlow native e) cache

/-- An edit that first reads the entry's own key, as modifies and deletes do. -/
def editByKey (native : Native F) (isSwitch : ℕ → Bool)
    (edit : Json F → RowKey → Json F → Edit (Json F)) (e : Json F) (cache : Cache F) :
    Edit (Cache F) :=
  match dpidOf native e with
  | .error err => (cache, some err)
  | .ok dpid =>
    match extractKey native e with
    | .error err => (cache, some err)
    | .ok key => withFlows isSwitch dpid (edit e key) cache

/-- `modifyOne(e)`. -/
def modifyOne (native : Native F) (isSwitch : ℕ → Bool) (e : Json F) (cache : Cache F) :
    Edit (Cache F) :=
  editByKey native isSwitch (modifyFlow native) e cache

/-- `deleteOne(e)`. -/
def deleteOne (native : Native F) (isSwitch : ℕ → Bool) (e : Json F) (cache : Cache F) :
    Edit (Cache F) :=
  editByKey native isSwitch (fun _ key => deleteFlow native key) e cache

/-- Edits one after the other, until one of them throws. -/
def editAll {σ ε : Type} (edit : ε → σ → Edit σ) : List ε → σ → Edit σ
  | [], s => (s, none)
  | e :: es, s =>
    match edit e s with
    | (s', none) => editAll edit es s'
    | (s', some err) => (s', some err)

/-- `updateOpenFlowTables(j)`. -/
def updateOpenFlowTables (native : Native F) (isSwitch : ℕ → Bool) (b : Batch F) (cache : Cache F) :
    Edit (Cache F) :=
  match editAll (installOne native isSwitch) b.installs cache with
  | (cache, some err) => (cache, some err)
  | (cache, none) =>
    match editAll (modifyOne native isSwitch) b.modifies cache with
    | (cache, some err) => (cache, some err)
    | (cache, none) => editAll (deleteOne native isSwitch) b.deletes cache

/-! ### Polls -/

/-- What a reply to a poll is. -/
inductive FlowStatsVerdict where
  | usable | suspectTimedOut | reportedFailure | notUnderstood
  deriving DecidableEq, Repr

/-- A value is an array with something in it. -/
def isFullArray : Json F → Bool
  | .arr (_ :: _) => true
  | _ => false

/-- A value is an array. -/
def isArray : Json F → Bool
  | .arr _ => true
  | _ => false

/-- `classifyFlowStatsReply(flows, elapsedSeconds)`, where `slow` says that the reply took
`kFlowStatsSuspectSeconds` or longer. -/
def classifyFlowStatsReply (flows : Json F) (slow : Bool) : FlowStatsVerdict :=
  if (flows.find "error").isSome ∨ (flows.find "detail").isSome then .reportedFailure
  else
    let values := match flows with
      | .obj fields => fields.map Prod.snd
      | _ => []
    if values.any isFullArray then .usable
    else if values.any fun v => !isArray v then .notUnderstood
    else if isFullArray flows then .usable
    else if slow then .suspectTimedOut
    else .usable

/-- A switch whose read was attempted this poll and failed, and why. -/
structure UnreadSwitch where
  dpid : ℕ
  reason : String
  deriving DecidableEq, Repr

/-- What a poll of every switch brought: tables that were read, and switches that were not. -/
structure FlowTableFetch (F : Type) where
  tables : Cache F := []
  unread : List UnreadSwitch := []

/-- What one switch answered to a poll. -/
inductive PollAnswer (F : Type) where
  | noResponse
  | unparseable
  | reply (flows : Json F) (slow : Bool)

/-- One switch of `fetchOpenFlowTablesInternal`. -/
def fetchOne (fetched : FlowTableFetch F) (polled : ℕ × PollAnswer F) : FlowTableFetch F :=
  let unread reason := { fetched with unread := fetched.unread ++ [⟨polled.1, reason⟩] }
  match polled.2 with
  | .noResponse => unread "no_response"
  | .unparseable => unread "unparseable"
  | .reply flows slow =>
    match classifyFlowStatsReply flows slow with
    | .reportedFailure => unread "reported_failure"
    | .notUnderstood => unread "wrong_shape"
    | .suspectTimedOut => unread "suspect_timeout"
    | .usable => { fetched with tables := fetched.tables ++ [{ dpid := polled.1, flows }] }

/-- `fetchOpenFlowTablesInternal()`, for the answers of the switches that are up. -/
def fetchOpenFlowTablesInternal (answers : List (ℕ × PollAnswer F)) : FlowTableFetch F :=
  answers.foldl fetchOne {}

/-- The entry `carryForwardUnreadTables` makes of a switch that was not read. -/
def carriedEntry (previous : Option (CachedSwitch F)) (u : UnreadSwitch) (now : ℤ) :
    CachedSwitch F :=
  match previous with
  | none =>
    { dpid := u.dpid, flows := .obj [], neverRead := true
      stale := some ⟨now, 1, u.reason⟩ }
  | some sw =>
    let since := (sw.stale.map StaleMarks.staleSince).getD now
    let polls := (sw.stale.map StaleMarks.stalePolls).getD 0
    { sw with stale := some ⟨since, succS 64 polls, u.reason⟩ }

/-- One turn of `carryForwardUnreadTables`. -/
def carryOne (previous : Cache F) (now : ℤ) (fresh : Cache F) (u : UnreadSwitch) : Cache F :=
  if fresh.any fun sw => sw.dpid = u.dpid then fresh
  else fresh ++ [carriedEntry (previous.find? fun sw => sw.dpid = u.dpid) u now]

/-- `carryForwardUnreadTables(fresh, previous, unread, nowEpochSeconds)`. -/
def carryForwardUnreadTables (fresh previous : Cache F) (unread : List UnreadSwitch) (now : ℤ) :
    Cache F :=
  unread.foldl (carryOne previous now) fresh

/-- `applyFetchedTables(fetched, nowEpochSeconds)`. -/
def applyFetchedTables (fetched : FlowTableFetch F) (now : ℤ) (cache : Cache F) : Cache F :=
  carryForwardUnreadTables fetched.tables cache fetched.unread now

/-! ### The view that is served -/

/-- `entry.value(kPendingTokenField, uint64_t{0})`, for a row; 0 for anything else. -/
def tokenOf (native : Native F) (entry : Json F) : Except AccessError ℕ :=
  match entry with
  | .obj _ => do getUint64 native.cast (← entry.value pendingTokenField (.int 0))
  | _ => .ok 0

/-- A row without its token. -/
def eraseToken : Json F → Json F
  | .obj fields => .obj (fields.filter fun p => p.1 ≠ pendingTokenField)
  | j => j

/-- The rows of one table that are served. -/
def servedRows (native : Native F) (isProgrammed : Option (ℕ → Bool)) :
    List (Json F) → Except AccessError (List (Json F))
  | [] => .ok []
  | entry :: entries => do
    let token ← tokenOf native entry
    let rest ← servedRows native isProgrammed entries
    if token ≠ 0 ∧ !isProgrammed.any (· token) then return rest
    else return eraseToken entry :: rest

/-- The tables of one switch that are served. -/
def servedTables (native : Native F) (isProgrammed : Option (ℕ → Bool)) :
    List (String × Json F) → Except AccessError (List (String × Json F))
  | [] => .ok []
  | (key, .arr entries) :: tables => do
    let entries ← servedRows native isProgrammed entries
    let tables ← servedTables native isProgrammed tables
    return (key, .arr entries) :: tables
  | table :: tables => do
    let tables ← servedTables native isProgrammed tables
    return table :: tables

/-- `stripUnprogrammedEntries(tables, isProgrammed)`, the document it leaves. -/
def stripUnprogrammedEntries (native : Native F) (isProgrammed : Option (ℕ → Bool)) :
    Cache F → Except AccessError (Cache F)
  | [] => .ok []
  | sw :: cache => do
    let flows ← match sw.flows with
      | .obj tables => do pure (Json.obj (← servedTables native isProgrammed tables))
      | flows => pure flows
    let cache ← stripUnprogrammedEntries native isProgrammed cache
    return { sw with flows } :: cache

end NDTwin.FlowTables
