import NDTwin.FlowStats.Render
import NDTwin.P4Table.EntryKey
import NDTwin.Topology.RouteWrites

/-!
# When a route was installed

A table entry has no age, so a client keeps a stamp for each entry it has written, under the entry's
key.  The writer of a route makes that key of the table its record is kept under, of the binding's
match field and of the packed address; the reader makes it of the names that the p4info has for the
numbers in a row, and of bytes whose leading zeros the switch may have dropped.  A binding is set
together with the name of its table, which is what makes the two agree.

## Main definitions

* `RouteBinding`, `RouteClient` — the names a route is written with, and a client that writes them.
* `insertIpv4Route`, `modifyIpv4Route`, `deleteIpv4Route` — its calls, with the record of stamps.
* `RowOf`, `RouteClient.rowKey` — the row of a route, and the key that is looked up for it.

## Main results

* `routeKey_eq_rowKey` — **the writer's key is the reader's.**
* `stamp_found_again` — **install stamps are found again**, and go with the route.
-/

namespace NDTwin.P4Table

open Topology (UpdateType Status)

/-! ### Bindings -/

/-- Who writes the table of a binding. -/
inductive Owner where
  | ndtwin
  | package
  deriving DecidableEq, Repr

/-- The names a destination route is written with, and whose table they name. -/
structure RouteBinding extends FlowStats.RouteBinding where
  dstMacParam : String
  owner : Owner
  portBitwidth : ℤ
  deriving DecidableEq, Repr

/-- `BASELINE`. -/
def baseline : RouteBinding where
  toRouteBinding := FlowStats.baseline
  dstMacParam := "dstAddr"
  owner := .ndtwin
  portBitwidth := 9

/-- `port_bytes`. -/
def RouteBinding.portBytes (b : RouteBinding) : ℕ := byteWidth b.portBitwidth

/-- The `IPV4_LPM_TABLE` that a binding gives an instance of its own. -/
def ownLpmTable : Option RouteBinding → Option String
  | none => none
  | some b => if b.source ≠ .baseline then some b.table else none

/-- A client that writes routes, with the record of when it first wrote each entry.  The binding and
the table name that the record is kept under are set together. -/
structure RouteClient (T : Type) where
  client : Client
  /-- Whether it bids for mastership, and else writes nothing. -/
  arbitration : Bool
  routeBinding : Option RouteBinding
  /-- The instance's own `IPV4_LPM_TABLE`, where it has one. -/
  lpmTable : Option String
  /-- `rule_install_times`: a reading of the clock for each entry. -/
  times : Dict EntryKey T
  bound : lpmTable = ownLpmTable routeBinding

namespace RouteClient

variable {T : Type}

/-- `bind_routes(binding)`. -/
def bindRoutes (c : RouteClient T) (binding : Option RouteBinding) : RouteClient T :=
  { c with routeBinding := binding, lpmTable := ownLpmTable binding, bound := rfl }

/-- A client as it is built. -/
def new (client : Client) (arbitration : Bool) : RouteClient T :=
  ⟨client, arbitration, some baseline, none, Dict.empty, rfl⟩

/-- `self.IPV4_LPM_TABLE`. -/
def ipv4LpmTable (c : RouteClient T) : String := c.lpmTable.getD "MyIngress.ipv4_lpm"

/-- The record after an entry was written: a stamp that is there stays. -/
def record (c : RouteClient T) (key : EntryKey) (now : T) : RouteClient T :=
  match c.times.get? key with
  | some _ => c
  | none => { c with times := c.times.set key now }

/-- The record after an entry was deleted. -/
def forget (c : RouteClient T) (key : EntryKey) : RouteClient T :=
  { c with times := c.times.erase key }

end RouteClient

/-! ### Writing a route -/

/-- Why a route is not written, before anything is sent. -/
inductive Raised where
  /-- `ControlPlaneReadOnly`. -/
  | readOnly
  /-- `RouteWriteUnsupported`, without a binding or with one that is the package's. -/
  | unbound
  | ownedByPackage
  | keyError
  | osError
  | valueError
  | overflowError
  deriving DecidableEq, Repr

/-- The first of a list, where there is one. -/
def orKeyError {α : Type} : Option α → Except Raised α
  | some a => .ok a
  | none => .error .keyError

/-- `_get_table_id(name)`. -/
def getTableId (info : P4Info) (name : String) : Except Raised ℕ :=
  orKeyError ((info.tables.find? fun t => t.preamble.name = name).map fun t => t.preamble.id)

/-- `_get_match_field_id(table_name, match_name)`. -/
def getMatchFieldId (info : P4Info) (tableName matchName : String) : Except Raised ℕ :=
  orKeyError ((((info.tables.filter fun t => t.preamble.name = tableName).flatMap
    Table.matchFields).find? fun f => f.name = matchName).map MatchField.id)

/-- `_get_action_id(name)`. -/
def getActionId (info : P4Info) (name : String) : Except Raised ℕ :=
  orKeyError ((info.actions.find? fun a => a.preamble.name = name).map fun a => a.preamble.id)

/-- `_get_action_param_id(action_name, param_name)`. -/
def getActionParamId (info : P4Info) (actionName paramName : String) : Except Raised ℕ :=
  orKeyError ((((info.actions.filter fun a => a.preamble.name = actionName).flatMap
    ActionInfo.params).find? fun p => p.name = paramName).map Param.id)

/-- `socket.inet_aton(text)`. -/
def inetAton (text : String) : Except Raised (List ℕ) :=
  if Char.ofNat 0 ∈ text.toList then .error .valueError
  else match Ipv4.aton text with
    | some bytes => .ok bytes
    | none => .error .osError

/-- The bytes of a hardware address. -/
def macBytes (text : String) : Except Raised (List ℕ) :=
  match PyBytes.fromhex (text.toList.filter (· ≠ ':')) with
  | some bytes => .ok bytes
  | none => .error .valueError

/-- `port.to_bytes(port_bytes, "big")`. -/
def portToBytes (width : ℕ) (port : ℤ) : Except Raised (List ℕ) :=
  if 0 ≤ port ∧ port < 256 ^ width then .ok (Ipv4.toBytes width port.toNat)
  else .error .overflowError

/-- A number that goes into an `int32`. -/
def int32 (n : ℤ) : Except Raised ℤ :=
  if -2 ^ 31 ≤ n ∧ n < 2 ^ 31 then .ok n else .error .valueError

/-- The action of a route. -/
def routeAction (info : P4Info) (b : RouteBinding) (nextHopMac : String) (port : ℤ) :
    Except Raised TableAction := do
  let actionId ← getActionId info b.action
  let macId ← getActionParamId info b.action b.dstMacParam
  let mac ← macBytes nextHopMac
  let portId ← getActionParamId info b.action b.portParam
  let port ← portToBytes b.portBytes port
  .ok (.action actionId [⟨macId, mac⟩, ⟨portId, port⟩])

/-- `_build_route_entry(entry, binding, dst_ip, prefix_len, next_hop_mac, port)`, with the next hop
where there is one. -/
def buildRouteEntry (info : P4Info) (b : RouteBinding) (dstIp : String) (prefixLen : ℤ)
    (nextHop : Option (String × ℤ)) : Except Raised TableEntry := do
  let tableId ← getTableId info b.table
  let fieldId ← getMatchFieldId info b.table b.matchField
  let value ← inetAton dstIp
  let prefixLen ← int32 prefixLen
  let fields := [⟨fieldId, some (.lpm value prefixLen)⟩]
  match nextHop with
  | none => .ok ⟨tableId, fields, .none, 0, false, 0⟩
  | some (mac, port) => do
    let action ← routeAction info b mac port
    .ok ⟨tableId, fields, action, 0, false, 0⟩

/-- A switch: how it answers an update, and what it sends when all its tables are read, where the
read does not fail. -/
structure Switch (W : Type) where
  write : W → UpdateType → TableEntry → Status × W
  read : W → Option (List TableEntry)

section Calls

variable {W T : Type} (sw : Switch W)

/-- The binding of a client that may write routes through it. -/
def writableRouteBinding (c : RouteClient T) : Except Raised RouteBinding :=
  if !c.arbitration then .error .readOnly
  else match c.routeBinding with
    | none => .error .unbound
    | some b => if b.owner ≠ .ndtwin then .error .ownedByPackage else .ok b

/-- `_lpm_match(dst_ip, prefix_len)`, for an address that was encoded before. -/
def lpmMatch (b : RouteBinding) (dstIp : String) (prefixLen : ℤ) : Dict (Option String) Wire :=
  Dict.ofList [(some b.matchField, .lpm ((Ipv4.aton dstIp).getD []) prefixLen)]

/-- The key that a route's stamp is kept under: `LPM_ENTRY_PRIORITY` is 0. -/
def routeKey (c : RouteClient T) (b : RouteBinding) (dstIp : String) (prefixLen : ℤ) : EntryKey :=
  entryKey c.client.deviceId (some c.ipv4LpmTable) 0 (lpmMatch b dstIp prefixLen) false

/-- `modify_ipv4_route(dst_ip, prefix_len, next_hop_mac, port)`. -/
def modifyIpv4Route (c : RouteClient T) (w : W) (now : T) (dstIp : String) (prefixLen : ℤ)
    (nextHopMac : String) (port : ℤ) : Except Raised (Bool × RouteClient T × W) := do
  let b ← writableRouteBinding c
  let e ← buildRouteEntry c.client.p4info b dstIp prefixLen (some (nextHopMac, port))
  match sw.write w .modify e with
  | (.ok, w) => .ok (true, c.record (routeKey c b dstIp prefixLen) now, w)
  | (_, w) => .ok (false, c, w)

/-- `insert_ipv4_route(dst_ip, prefix_len, next_hop_mac, port)`: what is refused as a duplicate, or
for no stated reason, is sent again as a modify. -/
def insertIpv4Route (c : RouteClient T) (w : W) (now : T) (dstIp : String) (prefixLen : ℤ)
    (nextHopMac : String) (port : ℤ) : Except Raised (Bool × RouteClient T × W) := do
  let b ← writableRouteBinding c
  let e ← buildRouteEntry c.client.p4info b dstIp prefixLen (some (nextHopMac, port))
  match sw.write w .insert e with
  | (.ok, w) => .ok (true, c.record (routeKey c b dstIp prefixLen) now, w)
  | (.alreadyExists, w) => modifyIpv4Route sw c w now dstIp prefixLen nextHopMac port
  | (.unknown, w) => modifyIpv4Route sw c w now dstIp prefixLen nextHopMac port
  | (_, w) => .ok (false, c, w)

/-- `_ipv4_route_present(dst_ip, prefix_len)`, over what a read returned. -/
def ipv4RoutePresent (info : P4Info) (b : RouteBinding) (dstIp : String) (prefixLen : ℤ)
    (entries : List TableEntry) : Bool :=
  entries.any fun te =>
    !te.isDefaultAction && tableName info te.tableId = some b.table &&
      match (matchAsDict info te.tableId te.fields).get? (some b.matchField) with
      | some (.lpm value len) => len = prefixLen &&
          some (List.replicate (4 - value.length) 0 ++ value) = Ipv4.aton dstIp
      | _ => false

/-- `delete_ipv4_route(dst_ip, prefix_len)`: an entry that is not there is deleted. -/
def deleteIpv4Route (c : RouteClient T) (w : W) (dstIp : String) (prefixLen : ℤ) :
    Except Raised (Bool × RouteClient T × W) := do
  let b ← writableRouteBinding c
  let e ← buildRouteEntry c.client.p4info b dstIp prefixLen none
  let forgotten := c.forget (routeKey c b dstIp prefixLen)
  match sw.write w .delete e with
  | (.ok, w) => .ok (true, forgotten, w)
  | (.notFound, w) => .ok (true, forgotten, w)
  | (.unknown, w) =>
    match sw.read w with
    | some entries =>
      if ipv4RoutePresent c.client.p4info b dstIp prefixLen entries then .ok (false, c, w)
      else .ok (true, forgotten, w)
    | none => .ok (false, c, w)
  | (_, w) => .ok (false, c, w)

end Calls

/-! ### The row of a route -/

/-- Tables are told apart by name as well. -/
structure P4Info.Named (info : P4Info) : Prop extends info.Proper where
  name : ∀ t ∈ info.tables, ∀ t' ∈ info.tables, t.preamble.name = t'.preamble.name → t = t'

/-- The key that is looked up for a row of `read_table_entries`. -/
def RouteClient.rowKey {T : Type} (c : RouteClient T) (row : TableEntry) : EntryKey :=
  entryKey c.client.deviceId (tableName c.client.p4info row.tableId) row.priority
    (matchAsDict c.client.p4info row.tableId row.fields) false

/-- A row of `read_table_entries` for a route: an entry of the route, as the switch sends it
back. -/
def RowOf (info : P4Info) (b : RouteBinding) (dstIp : String) (prefixLen : ℤ) (row : TableEntry) :
    Prop :=
  ∃ nextHop e, buildRouteEntry info b dstIp prefixLen nextHop = .ok e ∧ e.ReadBack row

theorem orKeyError_ok {α : Type} {x : Option α} {a : α} (h : orKeyError x = .ok a) :
    x = some a := by
  cases x with
  | none => cases h
  | some a' =>
    cases h
    rfl

theorem inetAton_ok {text : String} {bytes : List ℕ} (h : inetAton text = .ok bytes) :
    Ipv4.aton text = some bytes := by
  unfold inetAton at h
  split at h
  · cases h
  · split at h
    · next hbytes =>
      cases h
      exact hbytes
    · cases h

/-- A route is written to the table and the field of its binding, and its entry has no priority. -/
theorem buildRouteEntry_ok {info : P4Info} (hinfo : info.Named) {b : RouteBinding} {dstIp : String}
    {prefixLen : ℤ} {nextHop : Option (String × ℤ)} {e : TableEntry}
    (h : buildRouteEntry info b dstIp prefixLen nextHop = .ok e) :
    ∃ table ∈ info.tables, ∃ f ∈ table.matchFields, ∃ value, table.preamble.name = b.table ∧
      f.name = b.matchField ∧ Ipv4.aton dstIp = some value ∧ e.tableId = table.preamble.id ∧
      e.fields = [⟨f.id, some (.lpm value prefixLen)⟩] ∧ e.priority = 0 := by
  obtain ⟨tableId, htable, h⟩ := Fallible.exists_of_bind_ok h
  obtain ⟨fieldId, hfield, h⟩ := Fallible.exists_of_bind_ok h
  obtain ⟨value, hvalue, h⟩ := Fallible.exists_of_bind_ok h
  obtain ⟨len, hlen, h⟩ := Fallible.exists_of_bind_ok h
  obtain ⟨table, hfind, rfl⟩ := Option.map_eq_some_iff.mp (orKeyError_ok htable)
  obtain ⟨f, hf, rfl⟩ := Option.map_eq_some_iff.mp (orKeyError_ok hfield)
  have ht := List.mem_of_find?_eq_some hfind
  have hname : table.preamble.name = b.table := by simpa using List.find?_some hfind
  obtain ⟨t, ht', hmem⟩ := List.mem_flatMap.mp (List.mem_of_find?_eq_some hf)
  obtain ⟨ht', htname⟩ := List.mem_filter.mp ht'
  -- there is one table of that name
  obtain rfl : t = table := hinfo.name t ht' table ht ((by simpa using htname : _ = b.table).trans
    hname.symm)
  have hlen' : len = prefixLen := by
    unfold int32 at hlen
    split at hlen
    · cases hlen
      rfl
    · cases hlen
  rw [hlen'] at h
  refine ⟨t, ht, f, hmem, value, hname, by simpa using List.find?_some hf, inetAton_ok hvalue, ?_⟩
  rcases nextHop with _ | ⟨mac, port⟩
  · cases h
    exact ⟨rfl, rfl, rfl⟩
  · obtain ⟨action, haction, h⟩ := Fallible.exists_of_bind_ok h
    cases h
    exact ⟨rfl, rfl, rfl⟩

/-- The name of a table is found by its number. -/
theorem tableName_of_mem {info : P4Info} (hinfo : info.Proper) {table : Table}
    (ht : table ∈ info.tables) : tableName info table.preamble.id = some table.preamble.name := by
  rw [tableName, Option.map_eq_some_iff]
  cases hfind : info.tables.find? fun t => t.preamble.id = table.preamble.id with
  | none =>
    rw [List.find?_eq_none] at hfind
    simpa using hfind table ht
  | some t =>
    obtain rfl : t = table := hinfo.id t (List.mem_of_find?_eq_some hfind) table ht
      (by simpa using List.find?_some hfind)
    exact ⟨t, rfl, rfl⟩

/-- The record is kept under the table of the binding. -/
theorem RouteClient.ipv4LpmTable_eq {T : Type} (c : RouteClient T) {b : RouteBinding}
    (hb : c.routeBinding = some b) (hsource : b = baseline ∨ b.source = .package) :
    c.ipv4LpmTable = b.table := by
  rw [RouteClient.ipv4LpmTable, c.bound, hb, ownLpmTable]
  rcases hsource with rfl | hpackage
  · rfl
  · rw [hpackage, if_pos nofun]
    rfl

theorem routeKey_eq_rowKey {T : Type} {c : RouteClient T} (hinfo : c.client.p4info.Named)
    {b : RouteBinding} (hb : c.routeBinding = some b)
    (hsource : b = baseline ∨ b.source = .package) {dstIp : String} {prefixLen : ℤ}
    {row : TableEntry} (hrow : RowOf c.client.p4info b dstIp prefixLen row) :
    routeKey c b dstIp prefixLen = c.rowKey row := by
  obtain ⟨nextHop, e, he, hread⟩ := hrow
  obtain ⟨table, ht, f, hf, value, hname, hfname, hvalue, hid, hfields, hpriority⟩ :=
    buildRouteEntry_ok hinfo he
  have hback := hread.fields
  rw [hfields] at hback
  obtain ⟨value', hstrips, hrow⟩ : ∃ value', Strips value value' ∧
      row.fields = [⟨f.id, some (.lpm value' prefixLen)⟩] := by
    cases hrow : row.fields with
    | nil =>
      rw [hrow] at hback
      cases hback
    | cons fm fms =>
      rw [hrow] at hback
      cases hback with
      | cons hfm hrest =>
        cases hrest
        obtain ⟨id', wire'⟩ := fm
        obtain ⟨hid', hwire⟩ := hfm
        cases hwire with
        | some hlpm =>
          cases hlpm with
          | @lpm _ value' hstrips =>
            simp only at hid'
            exact ⟨value', hstrips, by rw [hid']⟩
  have hdict : matchAsDict c.client.p4info row.tableId row.fields =
      Dict.ofList [(some b.matchField, .lpm value' prefixLen)] := by
    rw [hread.tableId, hid, hrow, matchAsDict, ← hfname]
    simp [matchFieldName_of_mem hinfo.toProper ht hf]
  have hmatch : normaliseMatch (lpmMatch b dstIp prefixLen) =
      normaliseMatch (Dict.ofList [(some b.matchField, .lpm value' prefixLen)]) := by
    have hsame : Ipv4.ofBytes value' = Ipv4.ofBytes value := ofBytes_of_strips hstrips
    rw [lpmMatch, hvalue, Option.getD_some]
    show [(b.matchField, Numbers.lpm (Ipv4.ofBytes value) prefixLen)].mergeSort _ =
      [(b.matchField, Numbers.lpm (Ipv4.ofBytes value') prefixLen)].mergeSort _
    rw [hsame]
  rw [routeKey, RouteClient.rowKey, c.ipv4LpmTable_eq hb hsource, hdict, hread.tableId, hid,
    tableName_of_mem hinfo.toProper ht, hname, hread.priority, hpriority, entryKey, entryKey, hmatch]

/-! ### What a call leaves -/

section Calls

variable {W T : Type} {sw : Switch W} {c c' : RouteClient T} {w w' : W} {now : T} {dstIp : String}
  {prefixLen : ℤ}

theorem writableRouteBinding_ok {b : RouteBinding} (h : writableRouteBinding c = .ok b) :
    c.routeBinding = some b := by
  unfold writableRouteBinding at h
  split at h
  · cases h
  split at h
  · cases h
  next b' hb' =>
  split at h
  · cases h
  · cases h
    exact hb'

/-- A modify that succeeds has stamped the route. -/
theorem modifyIpv4Route_ok {mac : String} {port : ℤ}
    (h : modifyIpv4Route sw c w now dstIp prefixLen mac port = .ok (true, c', w')) :
    ∃ b, c.routeBinding = some b ∧ c' = c.record (routeKey c b dstIp prefixLen) now := by
  obtain ⟨b, hb, h⟩ := Fallible.exists_of_bind_ok h
  obtain ⟨e, he, h⟩ := Fallible.exists_of_bind_ok h
  refine ⟨b, writableRouteBinding_ok hb, ?_⟩
  split at h
  · cases h
    rfl
  · cases h

/-- An insert that succeeds, at once or as a modify, has stamped the route. -/
theorem insertIpv4Route_ok {mac : String} {port : ℤ}
    (h : insertIpv4Route sw c w now dstIp prefixLen mac port = .ok (true, c', w')) :
    ∃ b, c.routeBinding = some b ∧ c' = c.record (routeKey c b dstIp prefixLen) now := by
  obtain ⟨b, hb, h⟩ := Fallible.exists_of_bind_ok h
  obtain ⟨e, he, h⟩ := Fallible.exists_of_bind_ok h
  split at h
  · cases h
    exact ⟨b, writableRouteBinding_ok hb, rfl⟩
  · exact modifyIpv4Route_ok h
  · exact modifyIpv4Route_ok h
  · cases h

/-- A delete that succeeds, by any of its three ways, has dropped the stamp. -/
theorem deleteIpv4Route_ok (h : deleteIpv4Route sw c w dstIp prefixLen = .ok (true, c', w')) :
    ∃ b, c.routeBinding = some b ∧ c' = c.forget (routeKey c b dstIp prefixLen) := by
  obtain ⟨b, hb, h⟩ := Fallible.exists_of_bind_ok h
  obtain ⟨e, he, h⟩ := Fallible.exists_of_bind_ok h
  refine ⟨b, writableRouteBinding_ok hb, ?_⟩
  simp only at h
  split at h
  · cases h
    rfl
  · cases h
    rfl
  · split at h
    · split at h
      · cases h
      · cases h
        rfl
    · cases h
  · cases h

theorem get?_record (c : RouteClient T) (key : EntryKey) (now : T) :
    (c.record key now).times.get? key = some ((c.times.get? key).getD now) := by
  unfold RouteClient.record
  split
  · next t ht => rw [ht, Option.getD_some]
  · next ht =>
    rw [ht]
    exact Dict.get?_set_self _ _ _

theorem record_routeBinding (c : RouteClient T) (key : EntryKey) (now : T) :
    (c.record key now).client = c.client ∧ (c.record key now).routeBinding = c.routeBinding := by
  unfold RouteClient.record
  split <;> exact ⟨rfl, rfl⟩

/-- **Install stamps are found again.**  After a route is inserted or modified, the key that was
stamped is the key that is looked up for any row the switch returns for it, and there is a stamp
under it, the first one; after a route is deleted there is none. -/
theorem stamp_found_again (sw : Switch W) (c : RouteClient T) (hinfo : c.client.p4info.Named)
    {b : RouteBinding} (hb : c.routeBinding = some b)
    (hsource : b = baseline ∨ b.source = .package) (w : W) (dstIp : String) (prefixLen : ℤ)
    {row : TableEntry} (hrow : RowOf c.client.p4info b dstIp prefixLen row) :
    (∀ now mac port c' w',
      insertIpv4Route sw c w now dstIp prefixLen mac port = .ok (true, c', w') ∨
        modifyIpv4Route sw c w now dstIp prefixLen mac port = .ok (true, c', w') →
      c' = c.record (routeKey c b dstIp prefixLen) now ∧
        routeKey c b dstIp prefixLen = c'.rowKey row ∧
        c'.times.get? (c'.rowKey row) = some ((c.times.get? (c'.rowKey row)).getD now)) ∧
    ∀ c' w', deleteIpv4Route sw c w dstIp prefixLen = .ok (true, c', w') →
      c'.times.get? (c'.rowKey row) = none := by
  have hkey := routeKey_eq_rowKey hinfo hb hsource hrow
  constructor
  · intro now mac port c' w' hdone
    obtain ⟨b', hb', rfl⟩ : ∃ b', c.routeBinding = some b' ∧
        c' = c.record (routeKey c b' dstIp prefixLen) now :=
      hdone.elim insertIpv4Route_ok modifyIpv4Route_ok
    obtain rfl : b' = b := Option.some.inj (hb'.symm.trans hb)
    have hrowKey : (c.record (routeKey c b' dstIp prefixLen) now).rowKey row = c.rowKey row := by
      rw [RouteClient.rowKey, (record_routeBinding c _ now).1, RouteClient.rowKey]
    rw [hrowKey, ← hkey]
    exact ⟨rfl, rfl, get?_record c _ now⟩
  · intro c' w' hdone
    obtain ⟨b', hb', rfl⟩ := deleteIpv4Route_ok hdone
    obtain rfl : b' = b := Option.some.inj (hb'.symm.trans hb)
    show (c.times.erase (routeKey c b' dstIp prefixLen)).get? (c.rowKey row) = none
    rw [hkey, Dict.get?_erase, if_pos rfl]

end Calls

/-- A switch that does what it is told, and sends nothing back. -/
def willing : Switch Unit := ⟨fun _ _ _ => (.ok, ()), fun _ => some []⟩

/-- A package's route table. -/
def packageBinding : RouteBinding where
  table := "PkgIngress.routes"
  matchField := "hdr.ipv4.dst"
  action := "PkgIngress.forward"
  portParam := "egress"
  source := .package
  dstMacParam := "mac"
  owner := .ndtwin
  portBitwidth := 16

theorem ipv4Width_lt : (32 : ℤ) < 2 ^ 31 := by decide

/-- The client of a switch that runs the package's pipeline. -/
def packageClient : RouteClient ℕ :=
  (RouteClient.new ⟨7, {
    tables := [{
      preamble := ⟨33554433, "PkgIngress.routes", "routes"⟩
      matchFields := [{
        id := 1
        name := "hdr.ipv4.dst"
        bitwidth := 32
        bitwidth_lt := ipv4Width_lt
        matchType := .lpm }]
      agesEntries := false }]
    actions := [⟨⟨16777217, "PkgIngress.forward", "forward"⟩,
      [⟨1, "mac", 48⟩, ⟨2, "egress", 16⟩]⟩] }⟩ true).bindRoutes (some packageBinding)

/-- A route of that package, as the switch sends it back. -/
def packageRow : TableEntry where
  tableId := 33554433
  fields := [⟨1, some (.lpm [10, 0, 2, 0] 24)⟩]
  action := .none
  priority := 0
  isDefaultAction := false
  idleTimeoutNs := 0

theorem stamp_found_again_package :
    (insertIpv4Route willing packageClient () 5 "10.0.2.0" 24 "08:00:00:00:02:22" 2).toOption.map
      (fun out => (out.1, out.2.1.times.get? (out.2.1.rowKey packageRow))) = some (true, some 5) ∧
    ∀ now mac port c' w',
      insertIpv4Route willing packageClient () now "10.0.2.0" 24 mac port = .ok (true, c', w') →
        c'.times.get? (c'.rowKey packageRow) = some now := by
  have hinfo : packageClient.client.p4info.Named := by
    refine ⟨⟨by decide, fun t ht => ?_⟩, by decide⟩
    obtain rfl := List.mem_singleton.mp ht
    exact ⟨by decide, by decide⟩
  have hrow : RowOf packageClient.client.p4info packageBinding "10.0.2.0" 24 packageRow :=
    ⟨none, packageRow, rfl, rfl, rfl, rfl, .cons ⟨rfl, .some (.lpm ⟨0, rfl⟩ 24)⟩ .nil⟩
  refine ⟨by decide +kernel, ?_⟩
  intro now mac port c' w' hdone
  exact ((stamp_found_again willing packageClient hinfo rfl (.inr rfl) () "10.0.2.0" 24 hrow).1 now
    mac port c' w' (.inl hdone)).2.2

end NDTwin.P4Table
