import NDTwin.Topology.RouteWrites

/-!
# The record of routes and the tables it describes

The proxy records, for each switch and destination, the port of the route it has written.  A
request writes one route, hands one back to the control plane or takes it out; a refill writes the
routes of every host that can be reached; a readopt empties a switch's tables and refills them.
The record follows each write that was accepted, and at a readopt it drops the prefix routes of the
switch and leaves the host routes for the refill to write again.

What the graph is and which links are down changes between the operations in any way at all.

## Main definitions

* `Manager`, `Op`, `step` — the proxy, its operations, and the tables of the switches.
* `routeFlow`, `unrouteFlow`, `modifyFlow`, `installRoutes`, `readoptSwitch` — the operations.
* `Describes` — every record names an entry its switch holds.
* `Refilled`, `Covers` — what a readopt needs for that.

## Main results

* `change_of_write` — **what one write can do** to the record and the tables.
* `run_describes` — **the record describes the switches, while every host route of a switch that is
  readopted is written again.**
* `readopt_not_describes` — a readopt leaves the record of a route that is not a host's.
-/

namespace NDTwin.Topology

open Routing OrderedGraph

/-! ### The proxy -/

/-- The proxy, and beside it the tables of the switches.  A client is known by a number. -/
structure Manager where
  switches : ℕ → Option ℕ
  pushEpoch : ℕ → ℕ := fun _ => 0
  routesWithheld : List ℕ := []
  net : Net
  down : List (Node × ℕ) := []
  routesToAttachedHostsOnly : Bool := false
  destPaths : List (Node × List (Node × List Node)) := []
  slots : ℕ × String → Option (SlotPriority.Entry ℕ) := fun _ => none
  installed : Installed := Dict.empty
  lpm : ℕ → Lpm

/-- What an operation answers: whether the write was accepted, and nothing where it raises. -/
abbrev Reply := Option Bool

/-- `_write_slot` and the note of its caller in the record, for one call of a client. -/
def writeSlot (s : Manager) (dpid : ℕ) (key : String) (client : ℕ) (call : Lpm → Option (Bool × Lpm))
    (after : SlotPriority.After) (note : Installed → Installed) : Reply × Manager :=
  let begun := s.pushEpoch client
  let settled accepted := SlotPriority.settle s.slots (dpid, key) client begun accepted after
  match call (s.lpm dpid) with
  | none => (none, { s with slots := settled false })
  | some (accepted, lpm) => (some accepted, { s with
      slots := settled accepted
      installed := if accepted then note s.installed else s.installed
      lpm := Function.update s.lpm dpid lpm })

section Requests

variable {F : Type} (fl : Floats F)

/-- What the three requests check first: the switch is connected and not withheld, and the match is
one the tables can express.  Answers the client, and the match with its destination canonical. -/
def checkRequest (s : Manager) (dpid : ℕ) (m : Match F) : Option (ℕ × Match F) :=
  match s.switches dpid with
  | none => none
  | some client =>
    if dpid ∈ s.routesWithheld then none
    else if unsupportedMatchFields m ≠ [] then none
    else match checkMatchValues fl m with
      | some _ => none
      | none => some (client, canonicalDestination m)

/-- What iterating over an action list visits, where Python can iterate over it. -/
def actionsOf : Json F → Option (List (Json F))
  | .arr actions => some actions
  | .obj fields => some (fields.map fun p => .str p.1)
  | .str s => some (s.toList.map fun c => .str (String.singleton c))
  | _ => none

/-- The loop over the actions: the port of the last OUTPUT, and null for none. -/
def lastOutput (port : Json F) : List (Json F) → Option (Json F)
  | [] => some port
  | .obj fields :: actions =>
    match fields.lookup "type" with
    | some (.str "OUTPUT") => lastOutput ((fields.lookup "port").getD .null) actions
    | _ => lastOutput port actions
  | _ :: _ => none

/-- `out_port`: null for none, and nothing where reading it raises. -/
def outputPort (actions : Json F) : Option (Json F) := (actionsOf actions).bind (lastOutput .null)

/-- A port as it can be encoded; anything else has no `to_bytes`. -/
def portNumber : Json F → Option ℤ
  | .int n => some n
  | .bool b => some (Json.boolInt b)
  | _ => none

/-- `install_priority(raw)`, as what the write leaves in its slot; nothing where it raises. -/
def installPriority (raw : Json F) : Option SlotPriority.After :=
  match raw with
  | .null => some (.set 0)
  | raw =>
    match raw.toInt fl with
    | .ok priority => some (.set (if 0 < priority then priority else 0))
    | .error .overflowError => none
    | .error _ => some .forget

/-- `named_priority(raw)`; nothing where it raises. -/
def namedPriority (raw : Json F) : Option (Option ℤ) :=
  match raw with
  | .null => some none
  | raw =>
    match raw.toInt fl with
    | .ok priority => some (if 0 < priority then some priority else none)
    | .error .overflowError => none
    | .error _ => some none

/-- `route_flow(dpid, match, actions, priority)`. -/
def routeFlow (s : Manager) (dpid : ℕ) (m : Match F) (actions priority : Json F) (x : Exchange) :
    Reply × Manager :=
  match checkRequest fl s dpid m with
  | none => (none, s)
  | some (client, m) =>
    match outputPort actions with
    | none => (none, s)
    | some .null =>
      -- an empty list drops, which only `flow_5tuple` can say
      if !actions.truthy fl && needsFiveTuple m then (x.fiveTuple, s) else (none, s)
    | some port =>
      if needsFiveTuple m then (x.fiveTuple, s)
      else match destination fl m with
        | some (.str key) =>
          match splitRouteKey key, installPriority fl priority with
          | some (address, prefixLen), some after =>
            writeSlot s dpid key client
              (fun lpm => (portNumber port).bind fun port =>
                insertIpv4Route x address prefixLen port lpm)
              after (fun installed => installed.set (dpid, key) ((portNumber port).getD 0).toNat)
          | _, _ => (none, s)
        | _ => (none, s)

/-- Whether a node is the host of an address. -/
def isHost (ip : String) : Node → Bool
  | .host ip' _ => ip' = ip
  | _ => false

/-- Whether a node is the switch of a dpid. -/
def isSwitch (dpid : ℕ) : Node → Bool
  | .switch dpid' _ => dpid' = dpid
  | _ => false

/-- `_control_plane_port(dpid, ipv4_dst)`. -/
def controlPlanePort (s : Manager) (dpid : ℕ) (ipv4Dst : String) : Option ℕ := do
  let paths ← (s.destPaths.find? fun p => isHost ipv4Dst p.1).map Prod.snd
  let info ← paths.find? fun p => isSwitch dpid p.1
  let nextNode ← (info.2.drop (info.2.idxOf info.1 + 1)).head?
  if s.routesToAttachedHostsOnly && !isHost ipv4Dst nextNode then none
  else s.net.graph.edgeData info.1 nextNode

/-- `unroute_flow(dpid, match, priority)`: a host's slot is handed back to the control plane where
it has a route for it, and emptied where not. -/
def unrouteFlow (s : Manager) (dpid : ℕ) (m : Match F) (x : Exchange) : Reply × Manager :=
  match checkRequest fl s dpid m with
  | none => (none, s)
  | some (client, m) =>
    if needsFiveTuple m then (x.fiveTuple, s)
    else match destination fl m with
      | some (.str key) =>
        match splitRouteKey key with
        | none => (none, s)
        | some (address, prefixLen) =>
          let restorePort := if prefixLen = 32 then controlPlanePort s dpid key else none
          match restorePort with
          | some port =>
            writeSlot s dpid key client (insertIpv4Route x address prefixLen port)
              (.set SlotPriority.controlPlaneRoutePriority)
              (fun installed => installed.set (dpid, key) port)
          | none =>
            writeSlot s dpid key client (deleteIpv4Route x address prefixLen) .forget
              (fun installed => installed.erase (dpid, key))
      | _ => (none, s)

/-- `modify_flow(dpid, match, actions, priority)`: a priority that is named must be the one the slot
holds. -/
def modifyFlow (s : Manager) (dpid : ℕ) (m : Match F) (actions priority : Json F) (x : Exchange) :
    Reply × Manager :=
  match checkRequest fl s dpid m with
  | none => (none, s)
  | some (client, m) =>
    match outputPort actions with
    | none | some .null => (none, s)
    | some port =>
      if needsFiveTuple m then (x.fiveTuple, s)
      else match destination fl m with
        | some (.str key) =>
          match splitRouteKey key, namedPriority fl priority with
          | some (address, prefixLen), some named =>
            let write (s : Manager) := writeSlot s dpid key client
              (fun lpm => (portNumber port).bind fun port =>
                modifyIpv4Route x address prefixLen port lpm)
              .keep (fun installed => installed.set (dpid, key) ((portNumber port).getD 0).toNat)
            match named with
            | none => write s
            | some _ =>
              if x.raises then (none, s)
              else
                let (held, slots) := SlotPriority.held s.slots s.pushEpoch (dpid, key) client
                if held = named then write { s with slots } else (none, { s with slots })
          | _, _ => (none, s)
        | _ => (none, s)

end Requests

/-! ### Refills -/

/-- One write of `install_initial_routes`.  A name that is no address raises before the switch is
asked, where its slot is locked. -/
def writeRoute (x : Exchange) (s : Manager) (w : Write) : Reply × Manager :=
  match s.switches w.dpid, canonicalRouteKey (.str w.ipv4Dst : Json Empty) with
  | some client, some slot =>
    writeSlot s w.dpid slot client (insertIpv4Route x w.ipv4Dst 32 w.outPort)
      (.set SlotPriority.controlPlaneRoutePriority)
      (fun installed => installed.set (w.dpid, w.ipv4Dst) w.outPort)
  | _, _ => (none, s)

/-- The writes one after the other, until one of them raises. -/
def writeRoutes (x : Write → Exchange) : List Write → Manager → Manager
  | [], s => s
  | w :: writes, s =>
    match writeRoute (x w) s w with
    | (some _, s) => writeRoutes x writes s
    | (none, s) => s

/-- What limits a refill of this proxy. -/
def Manager.limits (s : Manager) (onlyDpid : Option ℕ) : Limits where
  onlyDpid := onlyDpid
  routesWithheld := s.routesWithheld
  routesToAttachedHostsOnly := s.routesToAttachedHostsOnly

/-- The routes a refill of this proxy writes. -/
def Manager.writes (digest : List ℕ → List ℕ) (s : Manager) (onlyDpid : Option ℕ) : List Write :=
  routeWrites digest s.net (s.limits onlyDpid) s.down

/-- `install_initial_routes(only_dpid)`. -/
def installRoutes (digest : List ℕ → List ℕ) (s : Manager) (onlyDpid : Option ℕ)
    (x : Write → Exchange) : Manager :=
  writeRoutes x (s.writes digest onlyDpid)
    { s with destPaths := calculateAllPaths digest s.net.graph s.down }

/-- How a readopt goes: whether a client can be built, what number it has, whether it bids, comes
up, is granted mastership and gets its pipeline accepted, and whether the routes are to be refilled
and how the switch answers that. -/
structure Readopt where
  builds : Bool := true
  client : ℕ
  arbitration : Bool := true
  starts : Bool := true
  mastership : Bool := true
  pushed : Bool := true
  installRoutes : Bool := true
  exchange : Write → Exchange

/-- Whether a readopt comes to the push of a pipeline. -/
def Readopt.pushes (r : Readopt) (s : Manager) (dpid : ℕ) : Bool :=
  (s.switches dpid).isSome && r.builds && r.arbitration && r.starts && r.mastership

/-- The push has emptied the tables of the switch: its client is the new one, routes may be written
again, and its prefix routes are dropped from the record. -/
def readopted (s : Manager) (dpid client : ℕ) : Manager where
  switches := Function.update s.switches dpid (some client)
  pushEpoch := Function.update s.pushEpoch client (s.pushEpoch client + 2)
  routesWithheld := s.routesWithheld.filter (· ≠ dpid)
  net := s.net
  down := s.down
  routesToAttachedHostsOnly := s.routesToAttachedHostsOnly
  destPaths := s.destPaths
  slots := s.slots
  installed := (s.installed.keys.filter fun k => k.1 = dpid && '/' ∈ k.2.toList).foldl Dict.erase
    s.installed
  lpm := Function.update s.lpm dpid fun _ => none

/-- `readopt_switch(dpid, client_factory, install_routes)`.  A push that is refused leaves the
switch as it was. -/
def readoptSwitch (digest : List ℕ → List ℕ) (s : Manager) (dpid : ℕ) (r : Readopt) : Manager :=
  if r.pushes s dpid && r.pushed then
    let s := readopted s dpid r.client
    if r.installRoutes then installRoutes digest s (some dpid) r.exchange else s
  else s

/-! ### Runs -/

/-- What happens: an operation, or a change of the graph, of the links that are down, or of the
switches that are withheld. -/
inductive Op (F : Type) where
  | routeFlow (dpid : ℕ) (m : Match F) (actions priority : Json F) (x : Exchange)
  | unrouteFlow (dpid : ℕ) (m : Match F) (x : Exchange)
  | modifyFlow (dpid : ℕ) (m : Match F) (actions priority : Json F) (x : Exchange)
  | installInitialRoutes (onlyDpid : Option ℕ) (x : Write → Exchange)
  | readoptSwitch (dpid : ℕ) (r : Readopt)
  | observe (net : Net) (down : List (Node × ℕ)) (routesWithheld : List ℕ)

/-- One operation. -/
def step {F : Type} (fl : Floats F) (digest : List ℕ → List ℕ) (s : Manager) : Op F → Manager
  | .routeFlow dpid m actions priority x => (routeFlow fl s dpid m actions priority x).2
  | .unrouteFlow dpid m x => (unrouteFlow fl s dpid m x).2
  | .modifyFlow dpid m actions priority x => (modifyFlow fl s dpid m actions priority x).2
  | .installInitialRoutes onlyDpid x => installRoutes digest s onlyDpid x
  | .readoptSwitch dpid r => Topology.readoptSwitch digest s dpid r
  | .observe net down routesWithheld => { s with net, down, routesWithheld }

/-! ### What one write can do -/

/-- The record agrees with the switch on one destination: it names an entry the switch holds, with
its port. -/
def Agrees (s : Manager) (dpid : ℕ) (key : String) : Prop :=
  ∀ port, s.installed.get? (dpid, key) = some port →
    ∃ p, prefixOf key = some p ∧ s.lpm dpid p = some port

/-- **Every record names an entry its switch holds**, with the same prefix and the same port. -/
def Describes (s : Manager) : Prop := ∀ dpid key, Agrees s dpid key

/-- Every record is of an entry's text. -/
def Keyed (s : Manager) : Prop :=
  ∀ k port, s.installed.get? k = some port → EntryText k.2

/-- What one write can do: nothing, or set one entry and its record to the same. -/
inductive Change (s s' : Manager) : Prop where
  | same (hinstalled : s'.installed = s.installed) (hlpm : s'.lpm = s.lpm)
  | wrote (dpid : ℕ) (key : String) (p : LpmPrefix) (entry : Option ℕ) (hkey : EntryText key)
      (hp : prefixOf key = some p)
      (hinstalled : ∀ k, s'.installed.get? k =
        if k = (dpid, key) then entry else s.installed.get? k)
      (hlpm : s'.lpm = Function.update s.lpm dpid (Function.update (s.lpm dpid) p entry))

/-- **One write of a slot** changes the entry and its record together, or neither. -/
theorem change_of_write {s : Manager} {dpid : ℕ} {key slot : String} {client : ℕ}
    {call : Lpm → Option (Bool × Lpm)} {after : SlotPriority.After} {note : Installed → Installed}
    (entry : Option ℕ) (hkey : EntryText key)
    (hcall : ∀ lpm accepted lpm', call lpm = some (accepted, lpm') →
      ∃ p, prefixOf key = some p ∧ lpm' = if accepted then Function.update lpm p entry else lpm)
    (hnote : ∀ installed k, (note installed).get? k =
      if k = (dpid, key) then entry else Dict.get? installed k) :
    Change s (writeSlot s dpid slot client call after note).2 := by
  unfold writeSlot
  rcases hsent : call (s.lpm dpid) with _ | ⟨accepted, lpm⟩
  · exact .same rfl rfl
  · obtain ⟨p, hp, hlpm⟩ := hcall _ _ _ hsent
    cases accepted with
    | false =>
      refine .same rfl ?_
      show Function.update s.lpm dpid lpm = s.lpm
      rw [hlpm]
      exact Function.update_eq_self dpid s.lpm
    | true =>
      refine .wrote dpid key p entry hkey hp (hnote s.installed) ?_
      show Function.update s.lpm dpid lpm = _
      rw [hlpm]
      rfl

/-- The slots play no part in it. -/
theorem Change.of_slots {s s' : Manager} {slots : ℕ × String → Option (SlotPriority.Entry ℕ)}
    (hc : Change { s with slots } s') : Change s s' := by
  cases hc with
  | same hinstalled hlpm => exact .same hinstalled hlpm
  | wrote dpid key p entry hkey hp hinstalled hlpm =>
    exact .wrote dpid key p entry hkey hp hinstalled hlpm

theorem Change.keyed {s s' : Manager} (hc : Change s s') (h : Keyed s) : Keyed s' := by
  intro k port hport
  cases hc with
  | same hinstalled _ =>
    rw [hinstalled] at hport
    exact h k port hport
  | wrote dpid key p entry hkey _ hinstalled _ =>
    rw [hinstalled] at hport
    split at hport
    · next hk => rw [hk]; exact hkey
    · exact h k port hport

/-- What the switch holds for another destination is left alone. -/
theorem lpm_of_ne {s s' : Manager} {dpid dpid' : ℕ} {key key' : String} {p p' : LpmPrefix}
    {entry : Option ℕ} (hkey : EntryText key) (hkey' : EntryText key') (hp : prefixOf key = some p)
    (hp' : prefixOf key' = some p') (hne : (dpid, key) ≠ (dpid', key'))
    (hlpm : s'.lpm = Function.update s.lpm dpid' (Function.update (s.lpm dpid') p' entry)) :
    s'.lpm dpid p = s.lpm dpid p := by
  rw [hlpm]
  by_cases hd : dpid = dpid'
  · subst hd
    have hpne : p ≠ p' := by
      rintro rfl
      exact hne (by rw [prefixOf_inj hkey hkey' (hp.trans hp'.symm)])
    rw [Function.update_self, Function.update_of_ne hpne]
  · rw [Function.update_of_ne hd]

theorem Change.agrees {s s' : Manager} (hc : Change s s') {dpid : ℕ} {key : String}
    (hkey : EntryText key) (h : Agrees s dpid key) : Agrees s' dpid key := by
  intro port hport
  cases hc with
  | same hinstalled hlpm =>
    rw [hinstalled] at hport
    rw [hlpm]
    exact h port hport
  | wrote dpid' key' p' entry hkey' hp' hinstalled hlpm =>
    rw [hinstalled] at hport
    split at hport
    · next heq =>
      cases heq
      exact ⟨p', hp', by rw [hlpm, Function.update_self, Function.update_self, hport]⟩
    · next hne =>
      obtain ⟨p, hp, hheld⟩ := h port hport
      exact ⟨p, hp, by rw [lpm_of_ne hkey hkey' hp hp' hne hlpm, hheld]⟩

/-- **A write keeps the record true.** -/
theorem Change.describes {s s' : Manager} (hc : Change s s') (hkeyed : Keyed s)
    (h : Describes s) : Describes s' := by
  intro dpid key port hport
  exact hc.agrees (hc.keyed hkeyed (dpid, key) port hport) (h dpid key) port hport

/-! ### The requests -/

section Requests

variable {F : Type} {fl : Floats F}

/-- The destination of a request that has been checked. -/
theorem entryText_of_checkRequest {s : Manager} {dpid client : ℕ} {m m' : Match F} {key : String}
    (h : checkRequest fl s dpid m = some (client, m')) (hfive : needsFiveTuple m' = false)
    (hdst : destination fl m' = some (.str key)) : EntryText key := by
  unfold checkRequest at h
  split at h
  · cases h
  split at h
  · cases h
  split at h
  · cases h
  split at h
  · cases h
  · next hcheck =>
    cases h
    rw [needsFiveTuple_canonicalDestination] at hfive
    obtain ⟨bytes, n, rfl, hlen, hbytes, hn⟩ := destination_routeText hcheck hfive hdst
    exact ⟨bytes, n, hlen, hbytes, hn, rfl⟩

theorem prefixOf_of_split {key address : String} {prefixLen : ℤ} {value : List ℕ}
    (hsplit : splitRouteKey key = some (address, prefixLen))
    (hvalue : Ipv4.aton address = some value) : prefixOf key = some ⟨value, prefixLen⟩ := by
  rw [prefixOf, hsplit]
  simp only [hvalue, Option.map_some]

/-- A call with a port that may not be a number. -/
theorem call_of_spec {key address : String} {prefixLen : ℤ} {port : Json F}
    (hsplit : splitRouteKey key = some (address, prefixLen))
    {call : ℤ → Lpm → Option (Bool × Lpm)}
    (hspec : ∀ port lpm accepted lpm', call port lpm = some (accepted, lpm') →
      ∃ value, Ipv4.aton address = some value ∧
        lpm' = if accepted then Function.update lpm ⟨value, prefixLen⟩ (some port.toNat) else lpm)
    (lpm : Lpm) (accepted : Bool) (lpm' : Lpm)
    (h : ((portNumber port).bind fun port => call port lpm) = some (accepted, lpm')) :
    ∃ p, prefixOf key = some p ∧ lpm' = if accepted then
      Function.update lpm p (some ((portNumber port).getD 0).toNat) else lpm := by
  obtain ⟨n, hn, hcall⟩ := Option.bind_eq_some_iff.mp h
  obtain ⟨value, hvalue, hlpm⟩ := hspec n lpm accepted lpm' hcall
  exact ⟨_, prefixOf_of_split hsplit hvalue, by rw [hlpm, hn]; rfl⟩

theorem change_routeFlow (s : Manager) (dpid : ℕ) (m : Match F) (actions priority : Json F)
    (x : Exchange) : Change s (routeFlow fl s dpid m actions priority x).2 := by
  unfold routeFlow
  split
  · exact .same rfl rfl
  next client m' hcheck =>
  split
  · exact .same rfl rfl
  · split
    · exact .same rfl rfl
    · exact .same rfl rfl
  · split
    · exact .same rfl rfl
    next hfive =>
    split
    · next key hdst =>
      split
      · next address prefixLen after hsplit _ =>
        have hkey := entryText_of_checkRequest hcheck (by simpa using hfive) hdst
        exact change_of_write (some ((portNumber _).getD 0).toNat) hkey
          (call_of_spec hsplit fun _ _ _ _ => insertIpv4Route_spec)
          fun installed k => installed.get?_set _ k _
      · exact .same rfl rfl
    · exact .same rfl rfl

theorem change_unrouteFlow (s : Manager) (dpid : ℕ) (m : Match F) (x : Exchange) :
    Change s (unrouteFlow fl s dpid m x).2 := by
  unfold unrouteFlow
  split
  · exact .same rfl rfl
  next client m' hcheck =>
  split
  · exact .same rfl rfl
  next hfive =>
  split
  · next key hdst =>
    have hkey := entryText_of_checkRequest hcheck (by simpa using hfive) hdst
    split
    · exact .same rfl rfl
    next address prefixLen hsplit =>
    dsimp only
    split
    · next port _ =>
      refine change_of_write (some port) hkey ?_ fun installed k => installed.get?_set _ k _
      intro lpm accepted lpm' hcall
      obtain ⟨value, hvalue, hlpm⟩ := insertIpv4Route_spec hcall
      exact ⟨_, prefixOf_of_split hsplit hvalue, hlpm⟩
    · refine change_of_write none hkey ?_ fun installed k => installed.get?_erase _ k
      intro lpm accepted lpm' hcall
      obtain ⟨value, hvalue, hlpm⟩ := deleteIpv4Route_spec hcall
      exact ⟨_, prefixOf_of_split hsplit hvalue, hlpm⟩
  · exact .same rfl rfl

theorem change_modifyFlow (s : Manager) (dpid : ℕ) (m : Match F) (actions priority : Json F)
    (x : Exchange) : Change s (modifyFlow fl s dpid m actions priority x).2 := by
  unfold modifyFlow
  split
  · exact .same rfl rfl
  next client m' hcheck =>
  split
  · exact .same rfl rfl
  · exact .same rfl rfl
  next port _ _ =>
  split
  · exact .same rfl rfl
  next hfive =>
  split
  · next key hdst =>
    have hkey := entryText_of_checkRequest hcheck (by simpa using hfive) hdst
    split
    · next address prefixLen named hsplit _ =>
      -- the write is the same whatever the slots hold
      have hwrite : ∀ slots, Change s (writeSlot { s with slots } dpid key client
          (fun lpm => (portNumber port).bind fun port =>
            modifyIpv4Route x address prefixLen port lpm) .keep
          (fun installed => installed.set (dpid, key) ((portNumber port).getD 0).toNat)).2 := by
        intro slots
        refine Change.of_slots (change_of_write (some ((portNumber port).getD 0).toNat) hkey ?_ ?_)
        · exact call_of_spec hsplit fun _ _ _ _ => modifyIpv4Route_spec
        · exact fun installed k => installed.get?_set _ k _
      dsimp only
      split
      · exact hwrite s.slots
      split
      · exact .same rfl rfl
      split
      · exact hwrite _
      · exact .same rfl rfl
    · exact .same rfl rfl
  · exact .same rfl rfl

end Requests

/-! ### Refills -/

/-- Whether a write of a refill raises. -/
def writeRaises (x : Exchange) (w : Write) : Bool :=
  x.raises || !x.macReadable || (canonicalRouteKey (.str w.ipv4Dst : Json Empty)).isNone ||
    (buildRouteEntry w.ipv4Dst 32 w.outPort).isNone

theorem change_writeRoute (x : Exchange) (s : Manager) (w : Write) :
    Change s (writeRoute x s w).2 := by
  unfold writeRoute
  split
  · next client slot _ hslot =>
    cases hsent : insertIpv4Route x w.ipv4Dst 32 w.outPort (s.lpm w.dpid) with
    | none =>
      unfold writeSlot
      rw [hsent]
      exact .same rfl rfl
    | some sent =>
      obtain ⟨accepted, lpm⟩ := sent
      obtain ⟨value, hvalue, -⟩ := insertIpv4Route_spec hsent
      obtain ⟨hkey, hp⟩ := entryText_of_name (by rw [hslot]; rfl) hvalue
      refine change_of_write (some w.outPort) hkey ?_ fun installed k => installed.get?_set _ k _
      intro lpm accepted lpm' hcall
      obtain ⟨value', hvalue', hlpm⟩ := insertIpv4Route_spec hcall
      obtain rfl : value' = value := Option.some.inj (hvalue'.symm.trans hvalue)
      exact ⟨_, hp, hlpm⟩
  · exact .same rfl rfl

theorem switches_writeRoute (x : Exchange) (s : Manager) (w : Write) :
    (writeRoute x s w).2.switches = s.switches := by
  unfold writeRoute writeSlot
  split
  · dsimp only
    split <;> rfl
  · rfl

theorem answers_writeRoute {x : Exchange} {s : Manager} {w : Write}
    (hswitch : (s.switches w.dpid).isSome = true) (hraises : writeRaises x w = false) :
    ∃ accepted, (writeRoute x s w).1 = some accepted := by
  simp only [writeRaises, Bool.or_eq_false_iff, Option.isNone_eq_false_iff] at hraises
  obtain ⟨⟨⟨hx, hmac⟩, hslot⟩, hentry⟩ := hraises
  obtain ⟨client, hclient⟩ := Option.isSome_iff_exists.mp hswitch
  obtain ⟨slot, hslot⟩ := Option.isSome_iff_exists.mp hslot
  obtain ⟨e, he⟩ := Option.isSome_iff_exists.mp hentry
  simp [writeRoute, writeSlot, insertIpv4Route, hclient, hslot, hx, hmac, he]

/-- The destination has no entry, or one that its record agrees with. -/
def Settled (s : Manager) (dpid : ℕ) (key : String) : Prop :=
  (∀ p, prefixOf key = some p → s.lpm dpid p = none) ∨ Agrees s dpid key

theorem Change.settled {s s' : Manager} (hc : Change s s') {dpid : ℕ} {key : String}
    (hkey : EntryText key) (h : Settled s dpid key) : Settled s' dpid key := by
  rcases h with hnone | hagrees
  · cases hc with
    | same _ hlpm => exact .inl (by rw [hlpm]; exact hnone)
    | wrote dpid' key' p' entry hkey' hp' hinstalled hlpm =>
      by_cases hk : (dpid, key) = (dpid', key')
      · cases hk
        refine .inr fun port hport => ⟨p', hp', ?_⟩
        rw [hinstalled, if_pos rfl] at hport
        rw [hlpm, Function.update_self, Function.update_self, hport]
      · refine .inl ?_
        intro p hp
        rw [lpm_of_ne hkey hkey' hp hp' hk hlpm]
        exact hnone p hp
  · exact .inr (hc.agrees hkey hagrees)

/-- A write to a destination without an entry that the switch takes. -/
theorem agrees_writeRoute {x : Exchange} {s : Manager} {w : Write}
    (hswitch : (s.switches w.dpid).isSome = true) (hraises : writeRaises x w = false)
    (htakes : x.first.answer .insert false = .ok) (h : Settled s w.dpid w.ipv4Dst) :
    Agrees (writeRoute x s w).2 w.dpid w.ipv4Dst := by
  have hraises' := hraises
  simp only [writeRaises, Bool.or_eq_false_iff, Option.isNone_eq_false_iff] at hraises'
  obtain ⟨⟨⟨hx, hmac⟩, hslot⟩, hentry⟩ := hraises'
  obtain ⟨client, hclient⟩ := Option.isSome_iff_exists.mp hswitch
  obtain ⟨e, he⟩ := Option.isSome_iff_exists.mp hentry
  obtain ⟨value, hvalue, rfl⟩ := exists_entry he
  obtain ⟨hkey, hp⟩ := entryText_of_name hslot hvalue
  obtain ⟨slot, hslot⟩ := Option.isSome_iff_exists.mp hslot
  rcases h with hnone | hagrees
  · have hsent : insertIpv4Route x w.ipv4Dst 32 w.outPort (s.lpm w.dpid) =
        some (true, Function.update (s.lpm w.dpid) ⟨value, 32⟩ (some w.outPort)) := by
      simp [insertIpv4Route, hx, hmac, he, wire, hnone _ hp, htakes]
    intro port hport
    refine ⟨_, hp, ?_⟩
    simp only [writeRoute, writeSlot, hclient, hslot, hsent, if_true, Dict.get?_set_self] at hport ⊢
    rw [Function.update_self, Function.update_self, hport]
  · exact (change_writeRoute x s w).agrees hkey hagrees

/-- What every write of a refill keeps, all of them keep. -/
theorem writeRoutes_induction {P : Manager → Prop} {x : Write → Exchange} (writes : List Write)
    (hstep : ∀ s, ∀ w ∈ writes, P s → P (writeRoute (x w) s w).2) {s : Manager} (h : P s) :
    P (writeRoutes x writes s) := by
  induction writes generalizing s with
  | nil => exact h
  | cons w writes ih =>
    have hw := hstep s w List.mem_cons_self h
    unfold writeRoutes
    rcases hr : writeRoute (x w) s w with ⟨_ | accepted, s'⟩
    · rw [hr] at hw
      exact hw
    · rw [hr] at hw
      exact ih (fun s w' hw' => hstep s w' (List.mem_cons_of_mem w hw')) hw

/-- A refill goes on past the writes that do not raise. -/
theorem writeRoutes_append {x : Write → Exchange} {before : List Write} (rest : List Write)
    {s : Manager} (hswitch : ∀ w ∈ before, (s.switches w.dpid).isSome = true)
    (hraises : ∀ w ∈ before, writeRaises (x w) w = false) :
    writeRoutes x (before ++ rest) s = writeRoutes x rest (writeRoutes x before s) := by
  induction before generalizing s with
  | nil => rfl
  | cons w before ih =>
    obtain ⟨accepted, hr⟩ := answers_writeRoute (hswitch w List.mem_cons_self)
      (hraises w List.mem_cons_self)
    have hsame := switches_writeRoute (x w) s w
    rcases hw : writeRoute (x w) s w with ⟨reply, s'⟩
    rw [hw] at hr hsame
    obtain rfl : reply = some accepted := hr
    simp only [List.cons_append, writeRoutes, hw]
    refine ih (fun w' hw' => ?_) fun w' hw' => hraises w' (List.mem_cons_of_mem w hw')
    rw [show s'.switches = s.switches from hsame]
    exact hswitch w' (List.mem_cons_of_mem w hw')

theorem switches_writeRoutes (x : Write → Exchange) (writes : List Write) (s : Manager) :
    (writeRoutes x writes s).switches = s.switches :=
  writeRoutes_induction (P := fun s' => s'.switches = s.switches) writes
    (fun s' w _ h => (switches_writeRoute (x w) s' w).trans h) rfl

theorem keyed_writeRoutes {x : Write → Exchange} {writes : List Write} {s : Manager}
    (h : Keyed s) : Keyed (writeRoutes x writes s) :=
  writeRoutes_induction writes (fun s w _ hs => (change_writeRoute (x w) s w).keyed hs) h

theorem agrees_writeRoutes {x : Write → Exchange} {writes : List Write} {s : Manager} {dpid : ℕ}
    {key : String} (hkey : EntryText key) (h : Agrees s dpid key) :
    Agrees (writeRoutes x writes s) dpid key :=
  writeRoutes_induction (P := fun s => Agrees s dpid key) writes
    (fun s w _ hs => (change_writeRoute (x w) s w).agrees hkey hs) h

theorem keyed_installRoutes {digest : List ℕ → List ℕ} {s : Manager} {onlyDpid : Option ℕ}
    {x : Write → Exchange} (h : Keyed s) : Keyed (installRoutes digest s onlyDpid x) :=
  keyed_writeRoutes (s := { s with destPaths := calculateAllPaths digest s.net.graph s.down }) h

theorem agrees_installRoutes {digest : List ℕ → List ℕ} {s : Manager} {onlyDpid : Option ℕ}
    {x : Write → Exchange} {dpid : ℕ} {key : String} (hkey : EntryText key)
    (h : Agrees s dpid key) : Agrees (installRoutes digest s onlyDpid x) dpid key :=
  agrees_writeRoutes (s := { s with destPaths := calculateAllPaths digest s.net.graph s.down }) hkey h

/-- **A refill keeps the record true.** -/
theorem describes_installRoutes {digest : List ℕ → List ℕ} {s : Manager} {onlyDpid : Option ℕ}
    {x : Write → Exchange} (hkeyed : Keyed s) (h : Describes s) :
    Describes (installRoutes digest s onlyDpid x) := by
  intro dpid key port hport
  exact agrees_installRoutes (keyed_installRoutes hkeyed (dpid, key) port hport) (h dpid key) port
    hport

/-- A destination whose write is come to, and taken, agrees afterwards. -/
theorem agrees_of_write {x : Write → Exchange} {before rest : List Write} {w : Write}
    {s : Manager} (hswitch : ∀ w' ∈ before ++ [w], (s.switches w'.dpid).isSome = true)
    (hraises : ∀ w' ∈ before ++ [w], writeRaises (x w') w' = false)
    (htakes : (x w).first.answer .insert false = .ok) (hkey : EntryText w.ipv4Dst)
    (h : Settled s w.dpid w.ipv4Dst) :
    Agrees (writeRoutes x (before ++ w :: rest) s) w.dpid w.ipv4Dst := by
  have hw : w ∈ before ++ [w] := by simp
  rw [List.append_cons, writeRoutes_append rest hswitch hraises]
  refine agrees_writeRoutes hkey ?_
  rw [writeRoutes_append [w] (fun w' hw' => hswitch w' (List.mem_append_left _ hw'))
    fun w' hw' => hraises w' (List.mem_append_left _ hw')]
  have hsettled : Settled (writeRoutes x before s) w.dpid w.ipv4Dst :=
    writeRoutes_induction (P := fun s => Settled s w.dpid w.ipv4Dst) before
      (fun s w' _ hs => (change_writeRoute (x w') s w').settled hkey hs) h
  have hconnected : ((writeRoutes x before s).switches w.dpid).isSome = true := by
    rw [switches_writeRoutes]
    exact hswitch w hw
  have hagrees := agrees_writeRoute hconnected (hraises w hw) htakes hsettled
  unfold writeRoutes
  rcases hr : writeRoute (x w) (writeRoutes x before s) w with ⟨_ | accepted, s'⟩
  · rw [hr] at hagrees
    exact hagrees
  · rw [hr] at hagrees
    exact hagrees

/-- A refill of one switch writes to that one. -/
theorem dpid_of_mem_routeWrites {digest : List ℕ → List ℕ} {t : Net} {limits : Limits}
    {down : List (Node × ℕ)} {w : Write} {dpid : ℕ} (h : w ∈ routeWrites digest t limits down)
    (honly : limits.onlyDpid = some dpid) : w.dpid = dpid := by
  obtain ⟨dst, -, src, path, -, -, hw⟩ := mem_routeWrites.mp h
  unfold routeWrite at hw
  split at hw
  · split at hw
    · cases hw
    split at hw
    · cases hw
    next hdpid =>
    split at hw
    · cases hw
    split at hw
    · cases hw
    split at hw
    · cases hw
    obtain ⟨outPort, -, rfl⟩ := Option.map_eq_some_iff.mp hw
    rw [honly] at hdpid
    exact (by simpa using hdpid : dpid = _).symm
  · cases hw

/-! ### Readopts -/

/-- What a readopt needs: every host route that is recorded for the switch is one the refill comes
to, without a write before it that raises, and the switch takes it. -/
def Refilled (digest : List ℕ → List ℕ) (s : Manager) (dpid : ℕ) (r : Readopt) : Prop :=
  ∀ key port, s.installed.get? (dpid, key) = some port → '/' ∉ key.toList →
    r.installRoutes = true ∧ ∃ before w rest,
      routeWrites digest s.net { s.limits (some dpid) with
        routesWithheld := s.routesWithheld.filter (· ≠ dpid) } s.down = before ++ w :: rest ∧
      w.ipv4Dst = key ∧ (∀ w' ∈ before ++ [w], writeRaises (r.exchange w') w' = false) ∧
      (r.exchange w).first.answer .insert false = .ok

theorem get?_foldl_erase {K V : Type*} [DecidableEq K] (ks : List K) (d : Dict K V) (k : K) :
    (ks.foldl Dict.erase d).get? k = if k ∈ ks then none else d.get? k := by
  induction ks generalizing d with
  | nil => simp
  | cons k' ks ih =>
    rw [List.foldl_cons, ih, Dict.get?_erase]
    by_cases hk : k = k'
    · simp [hk]
    · simp [hk]

/-- The record after the push of a pipeline. -/
theorem get?_readopted (s : Manager) (dpid client : ℕ) (k : ℕ × String) :
    (readopted s dpid client).installed.get? k =
      if k.1 = dpid ∧ '/' ∈ k.2.toList then none else s.installed.get? k := by
  rw [readopted, get?_foldl_erase]
  by_cases hk : k ∈ s.installed.keys
  · simp [hk]
  · have hnone : s.installed.get? k = none := by
      simpa [Dict.mem_keys_iff] using hk
    simp [hk, hnone]

theorem keyed_readopted {s : Manager} (dpid client : ℕ) (h : Keyed s) :
    Keyed (readopted s dpid client) := by
  intro k port hport
  rw [get?_readopted] at hport
  split at hport
  · cases hport
  · exact h k port hport

/-- The record and the tables agree, after the push, on every other switch. -/
theorem agrees_readopted_of_ne {s : Manager} {dpid client dpid' : ℕ} {key : String}
    (hne : dpid' ≠ dpid) (h : Agrees s dpid' key) : Agrees (readopted s dpid client) dpid' key := by
  intro port hport
  rw [get?_readopted, if_neg (by simp [hne])] at hport
  obtain ⟨p, hp, hheld⟩ := h port hport
  exact ⟨p, hp, by rw [← hheld]; exact congrFun (Function.update_of_ne hne _ _) p⟩

/-- **A readopt keeps the record true, where every host route is refilled.** -/
theorem describes_readoptSwitch {digest : List ℕ → List ℕ} {s : Manager} {dpid : ℕ} {r : Readopt}
    (hkeyed : Keyed s) (h : Describes s)
    (hrefilled : (r.pushes s dpid && r.pushed) = true → Refilled digest s dpid r) :
    Describes (readoptSwitch digest s dpid r) := by
  unfold readoptSwitch
  split
  · next hpushed =>
    have hkeyed' := keyed_readopted dpid r.client hkeyed
    -- a destination is either one the push has left true, or one the refill has to write
    have hcases : ∀ dpid' key, Agrees (readopted s dpid r.client) dpid' key ∨
        dpid' = dpid ∧ '/' ∉ key.toList ∧ ∃ port, s.installed.get? (dpid, key) = some port := by
      intro dpid' key
      by_cases hne : dpid' = dpid
      · subst hne
        cases hport : (readopted s dpid' r.client).installed.get? (dpid', key) with
        | none => exact .inl fun port hsome => absurd (hport.symm.trans hsome) nofun
        | some port =>
          rw [get?_readopted] at hport
          split at hport
          · cases hport
          · next hslash => exact .inr ⟨rfl, fun hmem => hslash ⟨rfl, hmem⟩, port, hport⟩
      · exact .inl (agrees_readopted_of_ne hne (h dpid' key))
    dsimp only
    split
    · next hinstall =>
      intro dpid' key port hport
      have hkey : EntryText key := keyed_installRoutes hkeyed' (dpid', key) port hport
      rcases hcases dpid' key with hagrees | ⟨rfl, hslash, held, hheld⟩
      · exact agrees_installRoutes hkey hagrees port hport
      · obtain ⟨-, before, w, rest, hwrites, rfl, hraises, htakes⟩ :=
          hrefilled hpushed key held hheld hslash
        have hdpid : ∀ w' ∈ before ++ [w], w'.dpid = dpid' := by
          intro w' hw'
          have hmem : w' ∈ before ++ w :: rest := by
            rw [List.append_cons]
            exact List.mem_append_left rest hw'
          rw [← hwrites] at hmem
          exact dpid_of_mem_routeWrites hmem rfl
        have hw : w.dpid = dpid' := hdpid w (by simp)
        have hagrees : Agrees (writeRoutes r.exchange (before ++ w :: rest)
            { readopted s dpid' r.client with
              destPaths := calculateAllPaths digest s.net.graph s.down }) w.dpid w.ipv4Dst := by
          refine agrees_of_write (fun w' hw' => ?_) hraises htakes hkey (.inl fun p _ => ?_)
          · show (Function.update s.switches dpid' (some r.client) w'.dpid).isSome = true
            rw [hdpid w' hw', Function.update_self]
            rfl
          · show Function.update s.lpm dpid' (fun _ => none) w.dpid p = none
            rw [hw, Function.update_self]
        rw [hw, ← hwrites] at hagrees
        exact hagrees port hport
    · next hinstall =>
      intro dpid' key
      rcases hcases dpid' key with hagrees | ⟨rfl, hslash, held, hheld⟩
      · exact hagrees
      · exact absurd (hrefilled hpushed key held hheld hslash).1 hinstall
  · exact h

theorem keyed_readoptSwitch {digest : List ℕ → List ℕ} {s : Manager} (dpid : ℕ) (r : Readopt)
    (h : Keyed s) : Keyed (readoptSwitch digest s dpid r) := by
  have hreadopted := keyed_readopted dpid r.client h
  unfold readoptSwitch
  dsimp only
  split
  · split
    · exact keyed_installRoutes hreadopted
    · exact hreadopted
  · exact h

/-! ### Runs -/

section Runs

variable {F : Type} {fl : Floats F} {digest : List ℕ → List ℕ}

/-- What an operation needs: a readopt that pushes a pipeline, that every host route of its switch
is refilled; any other, nothing. -/
def Covers (digest : List ℕ → List ℕ) (s : Manager) : Op F → Prop
  | .readoptSwitch dpid r => (r.pushes s dpid && r.pushed) = true → Refilled digest s dpid r
  | _ => True

/-- The proxy as it starts, with no route recorded. -/
def Manager.start (switches : ℕ → Option ℕ) (net : Net) (attachedOnly : Bool) (lpm : ℕ → Lpm) :
    Manager where
  switches := switches
  net := net
  routesToAttachedHostsOnly := attachedOnly
  lpm := lpm

theorem keyed_step {s : Manager} (op : Op F) (h : Keyed s) : Keyed (step fl digest s op) := by
  cases op with
  | routeFlow dpid m actions priority x =>
    exact (change_routeFlow s dpid m actions priority x).keyed h
  | unrouteFlow dpid m x => exact (change_unrouteFlow s dpid m x).keyed h
  | modifyFlow dpid m actions priority x =>
    exact (change_modifyFlow s dpid m actions priority x).keyed h
  | installInitialRoutes onlyDpid x => exact keyed_installRoutes h
  | readoptSwitch dpid r => exact keyed_readoptSwitch dpid r h
  | observe net down routesWithheld => exact h

/-- **One operation keeps the record true**, where it is covered. -/
theorem describes_step {s : Manager} {op : Op F} (hkeyed : Keyed s) (h : Describes s)
    (hcovers : Covers digest s op) : Describes (step fl digest s op) := by
  cases op with
  | routeFlow dpid m actions priority x =>
    exact (change_routeFlow s dpid m actions priority x).describes hkeyed h
  | unrouteFlow dpid m x => exact (change_unrouteFlow s dpid m x).describes hkeyed h
  | modifyFlow dpid m actions priority x =>
    exact (change_modifyFlow s dpid m actions priority x).describes hkeyed h
  | installInitialRoutes onlyDpid x => exact describes_installRoutes hkeyed h
  | readoptSwitch dpid r => exact describes_readoptSwitch hkeyed h hcovers
  | observe net down routesWithheld => exact h

theorem describes_of_covers {s : Manager} {ops : List (Op F)} (hkeyed : Keyed s)
    (h : Describes s) (hcovers : ∀ before op after, ops = before ++ op :: after →
      Covers digest (before.foldl (step fl digest) s) op) :
    Describes (ops.foldl (step fl digest) s) := by
  induction ops generalizing s with
  | nil => exact h
  | cons op ops ih =>
    refine ih (keyed_step op hkeyed) (describes_step hkeyed h (hcovers [] op ops rfl)) ?_
    intro before op' after hops
    exact hcovers (op :: before) op' after (by rw [hops]; rfl)

/-- **The record describes the switches.**  In every run in which each readopt that pushes a pipeline
refills every host route recorded for its switch, every record names, after every operation, an
entry that its switch holds, with the same prefix and the same port. -/
theorem run_describes (fl : Floats F) (digest : List ℕ → List ℕ) (switches : ℕ → Option ℕ)
    (net : Net) (attachedOnly : Bool) (lpm : ℕ → Lpm) (ops : List (Op F))
    (hcovers : ∀ before op after, ops = before ++ op :: after →
      Covers digest (before.foldl (step fl digest) (.start switches net attachedOnly lpm)) op) :
    ∀ before after, ops = before ++ after →
      Describes (before.foldl (step fl digest) (.start switches net attachedOnly lpm)) := by
  intro before after hops
  have hempty : ∀ k, (Manager.start switches net attachedOnly lpm).installed.get? k = none :=
    fun k => Dict.get?_empty k
  refine describes_of_covers (fun k port hport => ?_) (fun dpid key port hport => ?_) ?_
  · rw [hempty] at hport
    cases hport
  · rw [hempty] at hport
    cases hport
  · intro before' op after' hbefore
    refine hcovers before' op (after' ++ after) ?_
    rw [hops, hbefore, List.append_assoc, List.cons_append]

end Runs

/-- A switch that does every update that can be done. -/
def willing : Answers where
  answer
    | .insert, false => .ok
    | .insert, true => .alreadyExists
    | .modify, true => .ok
    | .modify, false => .notFound
    | .delete, true => .ok
    | .delete, false => .notFound
  insert_present := nofun
  modify_absent := nofun
  delete_absent := nofun
  present u := by cases u <;> nofun
  absent u := by cases u <;> nofun

/-- The calls to that switch. -/
def served : Exchange where
  first := willing
  second := willing

local instance neZero_sixteen : NeZero 16 := ⟨by decide⟩

/-- One switch with one host, and nothing in its table. -/
def oneHost : Manager :=
  .start (fun dpid => if dpid = 1 then some 0 else none)
    { graph := grow [.node (sw 1), .edge (sw 1) h1 1, .edge h1 (sw 1) 0]
      typed := fun _ => true
      mac := fun _ => none } false fun _ _ => none

/-- A readopt of the switch, by a new client. -/
def readoptOne : Readopt where
  client := 1
  exchange _ := served

/-- The routes are installed and the switch is readopted. -/
def refilledRun : List (Op Empty) :=
  [.installInitialRoutes none fun _ => served, .readoptSwitch 1 readoptOne]

theorem refilled_oneHost :
    Refilled id (step Floats.empty id oneHost (.installInitialRoutes none fun _ => served)) 1
      readoptOne := by
  intro key port hport _
  have hentries : (step Floats.empty id oneHost
      (.installInitialRoutes none fun _ => served)).installed.entries = [((1, "10.0.0.1"), 1)] := by
    decide +kernel
  have hmem := (Dict.mem_entries_iff _ _ _).mpr hport
  rw [hentries] at hmem
  obtain ⟨rfl, rfl⟩ : key = "10.0.0.1" ∧ port = 1 := by simpa using hmem
  refine ⟨rfl, [], ⟨1, "10.0.0.1", "00:00:00:00:00:00", 1⟩, [], by decide +kernel, rfl, ?_, rfl⟩
  decide +kernel

theorem refilledRun_describes :
    (∀ before after, refilledRun = before ++ after →
      Describes (before.foldl (step Floats.empty id) oneHost)) ∧
    (refilledRun.foldl (step Floats.empty id) oneHost).installed.get? (1, "10.0.0.1") = some 1 := by
  refine ⟨run_describes Floats.empty id _ _ _ _ refilledRun ?_, by decide +kernel⟩
  intro before op after hops
  rcases before with _ | ⟨first, _ | ⟨second, before⟩⟩
  · obtain ⟨rfl, -⟩ := List.cons.inj hops
    trivial
  · obtain ⟨rfl, htail⟩ := List.cons.inj hops
    obtain ⟨rfl, -⟩ := List.cons.inj htail
    exact fun _ => refilled_oneHost
  · obtain ⟨-, htail⟩ := List.cons.inj hops
    obtain ⟨-, htail⟩ := List.cons.inj htail
    simp at htail

/-- A route to an address that no host has is installed, and the switch is readopted. -/
def strayRun : List (Op Empty) :=
  [.routeFlow 1 ⟨[("nw_dst", .str "10.9.9.9")], by decide⟩
    (.arr [.obj [("type", .str "OUTPUT"), ("port", .int 3)]]) .null served,
    .readoptSwitch 1 readoptOne]

/-- **A readopt leaves the record of a route that is not a host's**, when the switch has lost it. -/
theorem readopt_not_describes : ¬ Describes (strayRun.foldl (step Floats.empty id) oneHost) := by
  intro h
  obtain ⟨p, hp, hheld⟩ := h 1 "10.9.9.9" 3 (by decide +kernel)
  have hprefix : prefixOf "10.9.9.9" = some ⟨[10, 9, 9, 9], 32⟩ := by decide +kernel
  obtain rfl := Option.some.inj (hp.symm.trans hprefix)
  have hlost : (strayRun.foldl (step Floats.empty id) oneHost).lpm 1 ⟨[10, 9, 9, 9], 32⟩ = none := by
    decide +kernel
  exact Option.some_ne_none _ (hheld.symm.trans hlost)

end NDTwin.Topology
