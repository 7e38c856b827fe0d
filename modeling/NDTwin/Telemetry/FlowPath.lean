import NDTwin.Classifier.Update
import NDTwin.Lib.Dict
import NDTwin.Lib.Forwarding
import NDTwin.Lib.Ipv4
import NDTwin.Twin.Graph

/-!
# Paths of flows

Once in a while the collector looks for the path of every flow of its table.  It starts with the edge
of the source address, asks the classifier at each switch for the port the flow leaves by and goes on
along the edge of that port, until it comes to a vertex without a dpid, which is a host.  The path is
published if nothing has gone wrong on the way, and else the flow has no path.

Addresses are kept in network order.  The machine is little-endian, so `ntohl` reverses their bytes.

## Main definitions

* `walk`, `flowPath` — the search for the path of a flow.
* `calFlowPathByQueried` — a pass over the table.
* `Joins` — a path leads from the source host of a flow to its destination host.
* `Homeward` — where the rules lead to a host, it is the destination of the flow.

## Main results

* `paths_join_iff` — **the paths of a pass join the hosts of their flows exactly when the rules lead
  no flow to another host.**
* `path_to_other_host` — a flow that is led to another host has a path, which stops short of its
  destination.
-/

namespace NDTwin.Telemetry

open Twin Forwarding

/-! ### Flows -/

/-- Which fields of a key say what a flow is. -/
inductive FlowKeyFamily where
  | ipv4 | ipv6 | l2
  deriving DecidableEq, Repr

/-- The key of a flow, with the addresses in network order. -/
structure FlowKey where
  srcIP : BitVec 32
  dstIP : BitVec 32
  srcPort : BitVec 16
  dstPort : BitVec 16
  protocol : BitVec 8 := 0
  icmpType : BitVec 16 := 0
  icmpCode : BitVec 16 := 0
  family : FlowKeyFamily := .ipv4
  ethType : BitVec 16 := 0
  srcMac : BitVec 64 := 0
  dstMac : BitVec 64 := 0
  srcIp6 : List (BitVec 8) := List.replicate 16 0
  dstIp6 : List (BitVec 8) := List.replicate 16 0
  deriving DecidableEq, Repr

/-- `ntohl(x)`. -/
def ntohl (x : BitVec 32) : BitVec 32 :=
  x.extractLsb' 0 8 ++ (x.extractLsb' 8 8 ++ (x.extractLsb' 16 8 ++ x.extractLsb' 24 8))

/-- `ipToString(ip)`. -/
def ipToString (ip : BitVec 32) : String := Ipv4.ntoa (Ipv4.toBytes 4 (ntohl ip).toNat)

/-- What the classifier is asked for. -/
def FlowKey.toClassifier (flow : FlowKey) : Classifier.FlowKey where
  ipProto := flow.protocol
  ipv4Dst := ntohl flow.dstIP
  ipv4Src := ntohl flow.srcIP
  tpDst := flow.dstPort
  tpSrc := flow.srcPort
  ethType := 0x0800

/-! ### The search -/

/-- A vertex, by its address or its dpid, and an interface. -/
abbrev Path := List (ℕ × ℕ)

/-- Why a flow has no path. -/
inductive WalkFailure where
  | zeroIp
  | hostEdge (flow : FlowKey)
  | noTable (dpid : ℕ)
  | noRule (dpid : ℕ)
  | dpidPort (dpid port : ℕ)
  /-- Not recorded, but warned of each time. -/
  | exceeds100 (flow : FlowKey)
  deriving DecidableEq, Repr

/-- What is recorded of a failure: its key, and its message. -/
def WalkFailure.record : WalkFailure → Option (String × String)
  | zeroIp => some ("zero-ip", "flow path skipped: source or destination IP is 0")
  | hostEdge flow =>
    some ("host-edge:" ++ ipToString flow.srcIP,
      "no host edge for " ++ ipToString flow.srcIP ++ "; flows from it cannot be traced (first seen for "
        ++ ipToString flow.srcIP ++ " to " ++ ipToString flow.dstIP ++ " proto "
        ++ toString flow.protocol.toNat ++ ")")
  | noTable dpid =>
    some ("no-table:" ++ toString dpid,
      "no flow table for dpid " ++ toString dpid
        ++ "; the control plane has not reported it, so paths through it stay empty")
  | noRule dpid =>
    some ("no-rule:" ++ toString dpid,
      "dpid " ++ toString dpid
        ++ " has a flow table but no rule matches this flow; paths through it stay empty")
  | dpidPort dpid port =>
    some ("dpid-port:" ++ toString dpid ++ ":" ++ toString port,
      "edge not found by dpid/port " ++ toString dpid ++ ":" ++ toString port
        ++ "; the topology file has no link there, so paths through it stay empty")
  | exceeds100 _ => none

section Walk

variable (g : Graph) (switches : Classifier.Switches) (flow : FlowKey)

/-- The vertex an edge leads to.  Every edge of the graph has one. -/
def targetOf (e : Edge) : VertexProperties := (g.vertex e.target).getD { vertexType := .switch }

/-- The port a flow leaves a switch by, and the edge of that port. -/
def leave (dpid : ℕ) : Except WalkFailure (ℕ × Edge) :=
  match (Classifier.lookup switches (.ofNat 64 dpid) flow.toClassifier 0).map
    Classifier.RuleEffect.outputPorts with
  | none | some [] =>
    if Classifier.knowsSwitch switches (.ofNat 64 dpid) then .error (.noRule dpid)
    else .error (.noTable dpid)
  | some (outPort :: _) =>
    match findEdgeByDpidAndPort g dpid outPort.toNat with
    | none => .error (.dpidPort dpid outPort.toNat)
    | some next => .ok (outPort.toNat, next)

/-- The loop, with the hops it has left. -/
def walk : ℕ → Edge → Path → Except WalkFailure Path
  | 0, _, _ => .error (.exceeds100 flow)
  | hops + 1, edge, path =>
    if (targetOf g edge).dpid = 0 then
      if flow.dstIP.toNat ∈ (targetOf g edge).ip then .ok (path ++ [(flow.dstIP.toNat, 0)])
      -- another host ends the loop too, and nothing is held against the path
      else .ok path
    else
      match leave g switches flow (targetOf g edge).dpid with
      | .error failure => .error failure
      | .ok (outPort, next) => walk hops next (path ++ [((targetOf g edge).dpid, outPort)])

/-- The path of a flow. -/
def flowPath : Except WalkFailure Path :=
  if flow.toClassifier.ipv4Src = 0 ∨ flow.toClassifier.ipv4Dst = 0 then .error .zeroIp
  else
    match findEdgeByHostIp g flow.srcIP.toNat with
    | none => .error (.hostEdge flow)
    | some edge => walk g switches flow 100 edge [(flow.srcIP.toNat, edge.props.dstInterface)]

end Walk

/-- The flow table: the path of each flow. -/
abbrev FlowInfoTable := Dict FlowKey Path

/-- What is stored for a flow. -/
def storedPath (g : Graph) (switches : Classifier.Switches) (flow : FlowKey) : Path :=
  match flowPath g switches flow with
  | .ok path => path
  | .error _ => []

/-- The path of a flow is stored, unless the flow is gone. -/
def commit (g : Graph) (switches : Classifier.Switches) (table : FlowInfoTable) (flow : FlowKey) :
    FlowInfoTable :=
  match table.get? flow with
  | none => table
  | some _ => table.set flow (storedPath g switches flow)

/-- A pass of `calFlowPathByQueried()` over the flows that were in the table. -/
def calFlowPathByQueried (g : Graph) (switches : Classifier.Switches) (table : FlowInfoTable) :
    FlowInfoTable :=
  table.keys.foldl (commit g switches) table

/-! ### What a path is for -/

/-- A host that has an address. -/
def HostAt (g : Graph) (v : ℕ) (ip : BitVec 32) : Prop :=
  ∃ p, g.vertex v = some p ∧ p.dpid = 0 ∧ ip.toNat ∈ p.ip

/-- Hops that lead from the end of an edge, switch by switch, to the host of an address. -/
inductive Leads (g : Graph) (dstIP : BitVec 32) : Edge → Path → Prop
  | host {e : Edge} (h : HostAt g e.target dstIP) : Leads g dstIP e [(dstIP.toNat, 0)]
  | hop {e e' : Edge} {p : VertexProperties} {port : ℕ} {path : Path}
    (hvertex : g.vertex e.target = some p) (hswitch : p.dpid ≠ 0)
    (hedge : findEdgeByDpidAndPort g p.dpid port = some e') (hrest : Leads g dstIP e' path) :
    Leads g dstIP e ((p.dpid, port) :: path)

/-- A path that starts at the source host of a flow and ends at its destination host. -/
def Joins (g : Graph) (flow : FlowKey) (path : Path) : Prop :=
  ∃ e rest, findEdgeByHostIp g flow.srcIP.toNat = some e ∧ HostAt g e.source flow.srcIP ∧
    path = (flow.srcIP.toNat, e.props.dstInterface) :: rest ∧ Leads g flow.dstIP e rest

theorem Leads.getLast? {g : Graph} {dstIP : BitVec 32} {e : Edge} {path : Path}
    (h : Leads g dstIP e path) : path.getLast? = some (dstIP.toNat, 0) := by
  induction h with
  | host _ => rfl
  | hop _ _ _ _ ih => rw [List.getLast?_cons, ih, Option.getD_some]

/-- Such a path ends with the hop of the destination. -/
theorem Joins.getLast? {g : Graph} {flow : FlowKey} {path : Path} (h : Joins g flow path) :
    path.getLast? = some (flow.dstIP.toNat, 0) := by
  obtain ⟨e, rest, -, -, rfl, hleads⟩ := h
  rw [List.getLast?_cons, hleads.getLast?, Option.getD_some]

/-! ### Where the rules lead -/

section Rules

variable (g : Graph) (switches : Classifier.Switches) (flow : FlowKey)

/-- Where a flow goes from the end of an edge: it has arrived at a vertex without a dpid, and goes on
along another edge elsewhere. -/
def onward (e : Edge) : Except WalkFailure (Hop Edge) :=
  if (targetOf g e).dpid = 0 then .ok .delivered
  else (leave g switches flow (targetOf g e).dpid).map fun next => .next next.2

/-- Wherever the rules lead a flow to a host, over at most 100 edges, the first edge is that of its
source host, and the last leads to its destination host. -/
def Homeward : Prop :=
  flow.toClassifier.ipv4Src ≠ 0 → flow.toClassifier.ipv4Dst ≠ 0 →
    ∀ e edges last, findEdgeByHostIp g flow.srcIP.toNat = some e →
      Delivers (onward g switches flow) e edges → edges.length ≤ 100 → edges.getLast? = some last →
        HostAt g e.source flow.srcIP ∧ HostAt g last.target flow.dstIP

end Rules

/-! ### The walk follows the rules -/

section Follows

variable {g : Graph} {switches : Classifier.Switches} {flow : FlowKey}

theorem vertex_of_dpid_ne {e : Edge} (h : (targetOf g e).dpid ≠ 0) :
    g.vertex e.target = some (targetOf g e) := by
  rw [targetOf] at h ⊢
  cases hvertex : g.vertex e.target with
  | none =>
    rw [hvertex] at h
    exact absurd rfl h
  | some p => rfl

theorem hostAt_target_iff {e : Edge} {ip : BitVec 32} :
    HostAt g e.target ip ↔ (targetOf g e).dpid = 0 ∧ ip.toNat ∈ (targetOf g e).ip := by
  rw [HostAt, targetOf]
  cases g.vertex e.target with
  | none => simp
  | some p => simp

/-- A way that stops at a host of another address leads to no host. -/
theorem not_leads_nil (e : Edge) (dstIP : BitVec 32) : ¬ Leads g dstIP e [] := by
  intro h
  cases h

/-- A hop leads where the edge of its port does. -/
theorem leads_hop_iff {e e' : Edge} {port : ℕ} {path : Path} {dstIP : BitVec 32}
    (hswitch : (targetOf g e).dpid ≠ 0)
    (hedge : findEdgeByDpidAndPort g (targetOf g e).dpid port = some e') :
    Leads g dstIP e (((targetOf g e).dpid, port) :: path) ↔ Leads g dstIP e' path := by
  have hvertex := vertex_of_dpid_ne hswitch
  constructor
  · intro h
    generalize hhead : ((targetOf g e).dpid, port) = head at h
    cases h with
    | host hhost => exact absurd (hostAt_target_iff.mp hhost).1 hswitch
    | hop hvertex' _ hedge' hrest =>
      rw [hvertex, Option.some.injEq] at hvertex'
      subst hvertex'
      cases hhead
      rw [hedge, Option.some.injEq] at hedge'
      rw [hedge']
      exact hrest
  · intro h
    exact .hop hvertex hswitch hedge h

theorem findEdge_of_leave {dpid port : ℕ} {next : Edge}
    (h : leave g switches flow dpid = .ok (port, next)) :
    findEdgeByDpidAndPort g dpid port = some next := by
  rw [leave] at h
  split at h
  · split at h <;> cases h
  · split at h <;> cases h
  · split at h
    · cases h
    · next hnext =>
      cases h
      exact hnext

theorem onward_eq_delivered_iff {e : Edge} :
    onward g switches flow e = .ok .delivered ↔ (targetOf g e).dpid = 0 := by
  rw [onward]
  split
  · next hhost => simp [hhost]
  · next hswitch =>
    refine iff_of_false ?_ hswitch
    intro h
    cases hleave : leave g switches flow (targetOf g e).dpid <;> rw [hleave] at h <;> cases h

theorem onward_eq_next_iff {e e' : Edge} :
    onward g switches flow e = .ok (.next e') ↔
      (targetOf g e).dpid ≠ 0 ∧
        ∃ port, leave g switches flow (targetOf g e).dpid = .ok (port, e') := by
  rw [onward]
  split
  · next hhost => simp [hhost]
  · next hswitch =>
    cases leave g switches flow (targetOf g e).dpid with
    | error failure => simp [Except.map]
    | ok next => simp [Except.map, hswitch, Prod.ext_iff]

/-- What a walk has found: the edges it went along, and hops that lead to the destination if the last
of the edges does. -/
theorem walk_eq_ok {hops : ℕ} {e : Edge} {path found : Path}
    (h : walk g switches flow hops e path = .ok found) :
    ∃ edges last rest, Delivers (onward g switches flow) e edges ∧ edges.length ≤ hops ∧
      edges.getLast? = some last ∧ found = path ++ rest ∧
      (Leads g flow.dstIP e rest ↔ HostAt g last.target flow.dstIP) := by
  induction hops generalizing e path with
  | zero =>
    rw [walk] at h
    cases h
  | succ hops ih =>
    rw [walk] at h
    by_cases hhost : (targetOf g e).dpid = 0
    · have harrived : Delivers (onward g switches flow) e [e] :=
        .last (onward_eq_delivered_iff.mpr hhost)
      rw [if_pos hhost] at h
      by_cases hdst : flow.dstIP.toNat ∈ (targetOf g e).ip
      · rw [if_pos hdst] at h
        cases h
        have hat : HostAt g e.target flow.dstIP := hostAt_target_iff.mpr ⟨hhost, hdst⟩
        exact ⟨[e], e, _, harrived, by simp, rfl, rfl, iff_of_true (.host hat) hat⟩
      · rw [if_neg hdst] at h
        cases h
        refine ⟨[e], e, [], harrived, by simp, rfl, (List.append_nil _).symm, ?_⟩
        exact iff_of_false (not_leads_nil e _) fun hat => hdst (hostAt_target_iff.mp hat).2
    · rw [if_neg hhost] at h
      cases hleave : leave g switches flow (targetOf g e).dpid with
      | error failure =>
        rw [hleave] at h
        cases h
      | ok next =>
        obtain ⟨port, e'⟩ := next
        rw [hleave] at h
        obtain ⟨edges, last, rest, hdelivers, hlength, hlast, hfound, hleads⟩ := ih h
        have hstep := onward_eq_next_iff.mpr ⟨hhost, port, hleave⟩
        refine ⟨e :: edges, last, _, .step hstep hdelivers, by simpa using hlength, ?_,
          by rw [hfound, List.append_assoc], ?_⟩
        · rw [List.getLast?_cons, hlast]
          rfl
        · exact (leads_hop_iff hhost (findEdge_of_leave hleave)).trans hleads

/-- A flow that is led to a host has a path. -/
theorem walk_of_delivers {e : Edge} {edges : List Edge} (h : Delivers (onward g switches flow) e edges)
    {hops : ℕ} (hhops : edges.length ≤ hops) (path : Path) :
    ∃ found, walk g switches flow hops e path = .ok found := by
  induction h generalizing hops path with
  | last hlast =>
    obtain ⟨hops, rfl⟩ : ∃ k, hops = k + 1 := ⟨hops - 1, by simp at hhops; omega⟩
    rw [walk, if_pos (onward_eq_delivered_iff.mp hlast)]
    split
    · exact ⟨_, rfl⟩
    · exact ⟨_, rfl⟩
  | step hstep hrest ih =>
    obtain ⟨hops, rfl⟩ : ∃ k, hops = k + 1 := ⟨hops - 1, by simp at hhops; omega⟩
    obtain ⟨hswitch, port, hleave⟩ := onward_eq_next_iff.mp hstep
    rw [walk, if_neg hswitch, hleave]
    exact ih (by simpa using hhops) _

/-! ### Published paths -/

theorem flowPath_of_ne {e : Edge} (hsrc : flow.toClassifier.ipv4Src ≠ 0)
    (hdst : flow.toClassifier.ipv4Dst ≠ 0) (he : findEdgeByHostIp g flow.srcIP.toNat = some e) :
    flowPath g switches flow =
      walk g switches flow 100 e [(flow.srcIP.toNat, e.props.dstInterface)] := by
  rw [flowPath, if_neg (not_or.mpr ⟨hsrc, hdst⟩), he]

theorem flowPath_eq_ok {path : Path} (h : flowPath g switches flow = .ok path) :
    flow.toClassifier.ipv4Src ≠ 0 ∧ flow.toClassifier.ipv4Dst ≠ 0 ∧
      ∃ e, findEdgeByHostIp g flow.srcIP.toNat = some e ∧
        walk g switches flow 100 e [(flow.srcIP.toNat, e.props.dstInterface)] = .ok path := by
  rw [flowPath] at h
  split at h
  · cases h
  · next hzero =>
    obtain ⟨hsrc, hdst⟩ := not_or.mp hzero
    refine ⟨hsrc, hdst, ?_⟩
    split at h
    · cases h
    · next e he => exact ⟨e, he, h⟩

/-- A path that was found is not empty. -/
theorem ne_nil_of_flowPath {path : Path} (h : flowPath g switches flow = .ok path) : path ≠ [] := by
  obtain ⟨-, -, e, -, hwalk⟩ := flowPath_eq_ok h
  obtain ⟨edges, last, rest, -, -, -, rfl, -⟩ := walk_eq_ok hwalk
  exact List.cons_ne_nil _ _

/-- A path joins the hosts of its flow if the edges it goes along do. -/
theorem joins_iff {e last : Edge} {rest : Path} (he : findEdgeByHostIp g flow.srcIP.toNat = some e)
    (hleads : Leads g flow.dstIP e rest ↔ HostAt g last.target flow.dstIP) :
    Joins g flow ([(flow.srcIP.toNat, e.props.dstInterface)] ++ rest) ↔
      HostAt g e.source flow.srcIP ∧ HostAt g last.target flow.dstIP := by
  rw [← hleads]
  constructor
  · rintro ⟨e', rest', he', hsource, hpath, hrest⟩
    rw [he, Option.some.injEq] at he'
    subst he'
    rw [List.singleton_append, List.cons.injEq] at hpath
    rw [hpath.2]
    exact ⟨hsource, hrest⟩
  · rintro ⟨hsource, hrest⟩
    exact ⟨e, rest, he, hsource, rfl, hrest⟩

/-- The path of a flow joins its hosts exactly when the rules lead it to no other host. -/
theorem flowPath_joins_iff :
    (∀ path, flowPath g switches flow = .ok path → Joins g flow path) ↔
      Homeward g switches flow := by
  constructor
  · intro hjoins hsrc hdst e edges last he hdelivers hlength hlast
    obtain ⟨path, hwalk⟩ := walk_of_delivers hdelivers hlength
      [(flow.srcIP.toNat, e.props.dstInterface)]
    have hpath := hjoins path (by rw [flowPath_of_ne hsrc hdst he, hwalk])
    obtain ⟨edges', last', rest, hdelivers', -, hlast', rfl, hleads⟩ := walk_eq_ok hwalk
    -- the rules determine the edges
    rw [hdelivers'.unique hdelivers, hlast, Option.some.injEq] at hlast'
    subst hlast'
    exact (joins_iff he hleads).mp hpath
  · intro hhome path hpath
    obtain ⟨hsrc, hdst, e, he, hwalk⟩ := flowPath_eq_ok hpath
    obtain ⟨edges, last, rest, hdelivers, hlength, hlast, rfl, hleads⟩ := walk_eq_ok hwalk
    exact (joins_iff he hleads).mpr (hhome hsrc hdst e edges last he hdelivers hlength hlast)

/-! ### A pass over the table -/

theorem get?_commit (table : FlowInfoTable) (flow key : FlowKey) :
    (commit g switches table flow).get? key =
      (table.get? key).map fun path => if key = flow then storedPath g switches key else path := by
  rw [commit]
  by_cases hkey : key = flow
  · subst hkey
    cases htable : table.get? key with
    | none => simp [htable]
    | some path => simp
  · cases table.get? flow with
    | none => simp [hkey]
    | some path => simp [hkey, Dict.get?_set_of_ne]

theorem get?_foldl_commit (flows : List FlowKey) (table : FlowInfoTable) (key : FlowKey) :
    (flows.foldl (commit g switches) table).get? key =
      (table.get? key).map fun path =>
        if key ∈ flows then storedPath g switches key else path := by
  induction flows generalizing table with
  | nil => simp
  | cons flow flows ih =>
    rw [List.foldl_cons, ih, get?_commit, Option.map_map]
    congr 1
    funext path
    by_cases hflow : key = flow
    · simp [hflow]
    · simp [hflow]

/-- A pass stores a path for every flow of the table. -/
theorem get?_calFlowPathByQueried (table : FlowInfoTable) (flow : FlowKey) :
    (calFlowPathByQueried g switches table).get? flow =
      (table.get? flow).map fun _ => storedPath g switches flow := by
  rw [calFlowPathByQueried, get?_foldl_commit]
  cases hflow : table.get? flow with
  | none => rfl
  | some path =>
    have hmem : flow ∈ table.keys := (Dict.mem_keys_iff table flow).mpr (by rw [hflow]; rfl)
    simp [hmem]

/-- What is stored is the path that was found, or none. -/
theorem storedPath_joins_iff :
    (storedPath g switches flow ≠ [] → Joins g flow (storedPath g switches flow)) ↔
      ∀ path, flowPath g switches flow = .ok path → Joins g flow path := by
  rw [storedPath]
  cases hpath : flowPath g switches flow with
  | error failure => simp
  | ok path => simp [ne_nil_of_flowPath hpath]

end Follows

/-- **The paths of a pass join the hosts of their flows exactly when the rules lead no flow to another
host.** -/
theorem paths_join_iff (g : Graph) (switches : Classifier.Switches) (table : FlowInfoTable) :
    (∀ flow path, (calFlowPathByQueried g switches table).get? flow = some path → path ≠ [] →
      Joins g flow path) ↔
      ∀ flow ∈ table.keys, Homeward g switches flow := by
  constructor
  · intro hjoins flow hflow
    obtain ⟨path, hpath⟩ := Option.isSome_iff_exists.mp ((Dict.mem_keys_iff table flow).mp hflow)
    rw [← flowPath_joins_iff, ← storedPath_joins_iff]
    intro hne
    refine hjoins flow _ ?_ hne
    rw [get?_calFlowPathByQueried, hpath, Option.map_some]
  · intro hhome flow path hpath hne
    rw [get?_calFlowPathByQueried, Option.map_eq_some_iff] at hpath
    obtain ⟨old, hold, rfl⟩ := hpath
    have hmem : flow ∈ table.keys := (Dict.mem_keys_iff table flow).mpr (by rw [hold]; rfl)
    exact storedPath_joins_iff.mpr (flowPath_joins_iff.mpr (hhome flow hmem)) hne

/-! ### A rule that sends everything to one host -/

/-- A switch with the hosts `10.0.0.1` at port 1 and `10.0.0.2` at port 2. -/
def twoHosts : Graph where
  vertices :=
    [{ vertexType := .switch, dpid := 1 }, { vertexType := .host, ip := [0x0100000a] },
      { vertexType := .host, ip := [0x0200000a] }]
  edges :=
    [⟨0, 1, { srcDpid := 1, srcInterface := 1, dstIp := [0x0100000a], dstDpid := 0, dstInterface := 0 }⟩,
      ⟨0, 2, { srcDpid := 1, srcInterface := 2, dstIp := [0x0200000a], dstDpid := 0, dstInterface := 0 }⟩,
      ⟨1, 0, { srcIp := [0x0100000a], srcDpid := 0, srcInterface := 0, dstDpid := 1, dstInterface := 1 }⟩,
      ⟨2, 0, { srcIp := [0x0200000a], srcDpid := 0, srcInterface := 0, dstDpid := 1, dstInterface := 2 }⟩]
  ordered := by decide
  ends_lt := by decide

/-- The rule of the switch: whatever is IPv4 leaves by port 2. -/
def outByTwo : Json Empty :=
  .arr [.obj [("dpid", .int 1), ("flows", .obj [("1", .arr [
    .obj [("table_id", .int 0), ("priority", .int 10), ("match", .obj [("dl_type", .int 2048)]),
      ("actions", .arr [.str "OUTPUT:2"])]])])]]

/-- The classifier after a poll. -/
def oneRule : Classifier.Switches :=
  (Classifier.updateFromQueriedTables Classifier.Sorter.stable ∅ outByTwo).1

/-- A flow from `10.0.0.1` to `10.0.0.3`, which no host has. -/
def strayFlow : FlowKey :=
  { srcIP := 0x0100000a, dstIP := 0x0300000a, srcPort := 1000, dstPort := 80, protocol := 6 }

/-- **A flow that is led to another host has a path**, which stops short of its destination. -/
theorem path_to_other_host :
    (calFlowPathByQueried twoHosts oneRule (Dict.empty.set strayFlow [])).get? strayFlow =
        some [(0x0100000a, 1), (1, 2)] ∧
      ¬ Joins twoHosts strayFlow [(0x0100000a, 1), (1, 2)] := by
  constructor
  · decide +kernel
  · intro h
    have hlast := h.getLast?
    contradiction

end NDTwin.Telemetry
