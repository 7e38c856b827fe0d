import Mathlib.Data.List.TakeWhile
import NDTwin.Routing.Match
import NDTwin.Topology.CanonicalPath

/-!
# Routes written and routes followed

On a refill the proxy computes every canonical path that avoids the links it
believes down, and writes at each switch, for each host, the port towards the
next hop.  A path is advertised by following the record of what was written,
switch by switch, the way a packet would.

## Main definitions

* `Net` — the graph, with what it says of its nodes.
* `calculateAllPaths`, `routeWrites`, `installInitialRoutes` — the refill.
* `prefixRoutes`, `lpmOutPort`, `installedPath` — following the record.
* `Cabled` — every host on one switch, every port to one neighbour.

## Main results

* `get?_installInitialRoutes` — what a refill leaves in the record.
* `installedPath_refill` — **after a refill the path that is followed is the canonical one.**
-/

namespace NDTwin.Topology

open OrderedGraph

/-! ### The graph -/

/-- The graph of the fabric.  A node that no switch session and no host entry stands behind has no
type; a host has the hardware address it was added with. -/
structure Net where
  graph : OrderedGraph Node ℕ
  typed : Node → Bool
  mac : Node → Option String

/-- `down_edges(net, down_endpoints)`: the edges that leave by an endpoint that is down. -/
def downEdges (net : OrderedGraph Node ℕ) (down : List (Node × ℕ)) : List (Node × Node) :=
  net.edges.filterMap fun e => if (e.1.1, e.2) ∈ down then some e.1 else none

/-! ### The refill -/

/-- `calculate_all_paths(exclude_endpoints)`: for every destination, the paths to it. -/
def calculateAllPaths (digest : List ℕ → List ℕ) (net : OrderedGraph Node ℕ)
    (exclude : List (Node × ℕ)) : List (Node × List (Node × List Node)) :=
  let drop := downEdges net exclude
  let search := if drop = [] then net else net.without drop
  net.nodes.map fun dst => (dst, canonicalPathsTo digest search dst)

/-- One route written to a switch, as a `/32`. -/
structure Write where
  dpid : ℕ
  ipv4Dst : String
  nextHopMac : String
  outPort : ℕ
  deriving DecidableEq, Repr

/-- What a refill is limited by: one switch only, the switches that are withheld, and whether
routes across other switches are left out. -/
structure Limits where
  onlyDpid : Option ℕ := none
  routesWithheld : List ℕ := []
  routesToAttachedHostsOnly : Bool := false

/-- The route one switch gets for one destination, if any. -/
def routeWrite (t : Net) (limits : Limits) (dst : Node) (srcPath : Node × List Node) :
    Option Write :=
  match dst, srcPath.1 with
  | .host ipv4Dst _, .switch dpid _ =>
    if !t.typed dst || !t.typed srcPath.1 then none
    else if limits.onlyDpid.any (· ≠ dpid) then none
    else if dpid ∈ limits.routesWithheld then none
    else
      match (srcPath.2.drop (srcPath.2.idxOf srcPath.1 + 1)).head? with
      | none => none
      | some nextNode =>
        if limits.routesToAttachedHostsOnly && nextNode ≠ dst then none
        else (t.graph.edgeData srcPath.1 nextNode).map fun outPort =>
          ⟨dpid, ipv4Dst, (t.mac dst).getD "00:00:00:00:00:00", outPort⟩
  | _, _ => none

/-- The routes a refill writes, in order. -/
def routeWrites (digest : List ℕ → List ℕ) (t : Net) (limits : Limits)
    (down : List (Node × ℕ)) : List Write :=
  (calculateAllPaths digest t.graph down).flatMap fun p => p.2.filterMap (routeWrite t limits p.1)

/-- The record of the routes the switches hold: `(dpid, destination)` to a port, where the
destination is an address or `network/len`. -/
abbrev Installed := Dict (ℕ × String) ℕ

/-- The record after one write: only what the switch accepted goes in. -/
def noteRoute (accepts : Write → Bool) (installed : Installed) (w : Write) : Installed :=
  if accepts w then installed.set (w.dpid, w.ipv4Dst) w.outPort else installed

/-- `install_initial_routes(only_dpid)`, where the switches answer each write by `accepts`: the
record, and how many writes were accepted of those attempted. -/
def installInitialRoutes (digest : List ℕ → List ℕ) (t : Net) (limits : Limits)
    (down : List (Node × ℕ)) (accepts : Write → Bool) (installed : Installed) :
    Installed × ℕ × ℕ :=
  let writes := routeWrites digest t limits down
  (writes.foldl (noteRoute accepts) installed, writes.countP accepts, writes.length)

/-! ### Following the record -/

/-- A prefix route of the record. -/
structure PrefixRoute where
  prefixLen : ℤ
  network : ℕ
  mask : ℕ
  outPort : ℕ
  deriving DecidableEq, Repr

/-- A negative shift count. -/
inductive ValueError where
  | negativeShift
  deriving DecidableEq, Repr

/-- One entry of the record as a prefix route, if it is one. -/
def prefixRoute (dst : String) (outPort : ℕ) : Except ValueError (Option PrefixRoute) :=
  match Routing.partition '/' dst.toList with
  | (_, none) => .ok none
  | (addr, some length) =>
    match Ipv4.aton (String.ofList addr), PyInt.ofString 10 (String.ofList length) with
    | some bytes, some prefixLen =>
      if 32 < prefixLen then .error .negativeShift
      else
        let mask := (0xFFFFFFFF <<< (32 - prefixLen).toNat) &&& 0xFFFFFFFF
        .ok (some ⟨prefixLen, Ipv4.ofBytes bytes &&& mask, mask, outPort⟩)
    | _, _ => .ok none

/-- `prefix_routes(installed)`: each switch's prefix routes, longest first. -/
def prefixRoutes (installed : Installed) : Except ValueError (ℕ → List PrefixRoute) := do
  let routes ← installed.entries.mapM fun e => do
    let route ← prefixRoute e.1.2 e.2
    return (e.1.1, route)
  return fun dpid =>
    (routes.filterMap fun r => if r.1 = dpid then r.2 else none).mergeSort
      fun a b => b.prefixLen ≤ a.prefixLen

/-- `lpm_out_port(installed, prefixes, dpid, dst_ip)`. -/
def lpmOutPort (installed : Installed) (prefixes : ℕ → List PrefixRoute) (node dst : Node) :
    Option ℕ :=
  match node, dst with
  | .switch dpid _, .host ip _ =>
    match installed.get? (dpid, ip) with
    | some outPort => some outPort
    | none =>
      match Ipv4.aton ip with
      | none => none
      | some bytes =>
        ((prefixes dpid).find? fun r => Ipv4.ofBytes bytes &&& r.mask = r.network).map
          PrefixRoute.outPort
  | _, _ => none

/-- The walk of `installed_path`, from a node on, `hops` being the nodes before it. -/
def follow (net : OrderedGraph Node ℕ) (installed : Installed) (prefixes : ℕ → List PrefixRoute)
    (down : List (Node × ℕ)) (dst : Node) : ℕ → List Node → Node → Option (List Node)
  | 0, _, _ => none
  | n + 1, hops, current =>
    if current = dst then some (hops ++ [current])
    else
      match lpmOutPort installed prefixes current dst with
      | none => none
      | some outPort =>
        if (current, outPort) ∈ down then none
        else
          match (net.successors current).find? fun v => net.edgeData current v = some outPort with
          | none => none
          | some nxt =>
            if nxt ∈ hops ++ [current] then none
            else follow net installed prefixes down dst n (hops ++ [current]) nxt

/-- `installed_path(net, installed, src_host, dst_host, down_endpoints)`. -/
def installedPath (net : OrderedGraph Node ℕ) (installed : Installed) (src dst : Node)
    (down : List (Node × ℕ)) : Except ValueError (Option (List Node)) := do
  let prefixes ← prefixRoutes installed
  return match net.successors src with
    | [] => none
    | first :: _ => follow net installed prefixes down dst (net.nodes.length + 1) [src] first

/-! ### Cabling -/

/-- Every node is a switch or a host of the fabric, every host hangs off one switch by an address
of four bytes, and the ports of a switch lead to distinct neighbours. -/
structure Cabled (t : Net) : Prop where
  typed : ∀ v ∈ t.graph.nodes, t.typed v = true
  attached : ∀ ip h, .host ip h ∈ t.graph.nodes → ∃ dpid hdpid, ∀ v,
    (t.graph.Adj (.host ip h) v ↔ v = .switch dpid hdpid) ∧
      (t.graph.Adj v (.host ip h) ↔ v = .switch dpid hdpid)
  address : ∀ ip h, .host ip h ∈ t.graph.nodes → (Ipv4.pton ip).isSome
  ports : ∀ dpid h v w p, t.graph.edgeData (.switch dpid h) v = some p →
    t.graph.edgeData (.switch dpid h) w = some p → v = w

/-- The destinations that the record holds routes for: addresses and networks. -/
def RouteKey (dst : String) : Prop :=
  ∃ bytes prefixLen, bytes.length = 4 ∧ (∀ b ∈ bytes, b < 256) ∧ 1 ≤ prefixLen ∧ prefixLen ≤ 32 ∧
    dst = Routing.routeText bytes prefixLen

/-- The graph a refill searches. -/
def search (net : OrderedGraph Node ℕ) (down : List (Node × ℕ)) : OrderedGraph Node ℕ :=
  net.without (downEdges net down)

theorem mem_downEdges {net : OrderedGraph Node ℕ} {down : List (Node × ℕ)} {u v : Node} {p : ℕ}
    (h : net.edgeData u v = some p) : (u, v) ∈ downEdges net down ↔ (u, p) ∈ down := by
  unfold downEdges
  rw [List.mem_filterMap]
  constructor
  · rintro ⟨⟨ends, q⟩, hmem, hsome⟩
    split at hsome
    · next hdown =>
      obtain rfl : ends = (u, v) := by simpa using hsome
      have hq := edgeData_eq_some_iff.mpr hmem
      obtain rfl : q = p := by simpa [h] using hq.symm
      exact hdown
    · cases hsome
  · intro hdown
    exact ⟨((u, v), p), edgeData_eq_some_iff.mp h, by simp [hdown]⟩

theorem adj_search {net : OrderedGraph Node ℕ} {down : List (Node × ℕ)} {u v : Node} :
    (search net down).Adj u v ↔ ∃ p, net.edgeData u v = some p ∧ (u, p) ∉ down := by
  rw [search, adj_without]
  constructor
  · rintro ⟨hadj, hdrop⟩
    obtain ⟨p, hp⟩ := exists_edgeData hadj
    exact ⟨p, hp, fun hdown => hdrop ((mem_downEdges hp).mpr hdown)⟩
  · rintro ⟨p, hp, hdown⟩
    refine ⟨List.mem_map_of_mem (edgeData_eq_some_iff.mp hp), ?_⟩
    exact fun hdrop => hdown ((mem_downEdges hp).mp hdrop)

theorem adj_of_search {net : OrderedGraph Node ℕ} {down : List (Node × ℕ)} {u v : Node}
    (h : (search net down).Adj u v) : net.Adj u v := by
  rw [search, adj_without] at h
  exact h.1

/-! ### What a refill writes -/

theorem calculateAllPaths_eq (digest : List ℕ → List ℕ) (net : OrderedGraph Node ℕ)
    (down : List (Node × ℕ)) :
    calculateAllPaths digest net down =
      net.nodes.map fun dst => (dst, canonicalPathsTo digest (search net down) dst) := by
  unfold calculateAllPaths search
  by_cases hdrop : downEdges net down = []
  · have hsame : net.without [] = net := by simp [without]
    simp only [hdrop, if_true, hsame]
  · simp only [if_neg hdrop]

/-- The paths to a destination are the canonical ones. -/
theorem mem_canonicalPathsTo {E : Type} (digest : List ℕ → List ℕ) (net : OrderedGraph Node E)
    (dst src : Node) (path : List Node) :
    (src, path) ∈ canonicalPathsTo digest net dst ↔
      src ≠ dst ∧ canonicalPath digest net src dst = some path := by
  unfold canonicalPathsTo
  rw [List.mem_filterMap]
  constructor
  · rintro ⟨v, -, hv⟩
    split at hv
    · cases hv
    · next hne =>
      obtain ⟨p, hp, heq⟩ := Option.map_eq_some_iff.mp hv
      obtain ⟨rfl, rfl⟩ := Prod.mk.inj heq
      exact ⟨hne, hp⟩
  · rintro ⟨hne, hp⟩
    refine ⟨src, ?_, ?_⟩
    · obtain ⟨n, hn, -⟩ := hops_of_canonicalPath digest hp
      rw [Dict.mem_keys_iff, show (hopDistancesTo net dst).get? src = some n from
        (get?_hopSweep net dst src n).mpr hn]
      rfl
    · rw [if_neg hne, show canonicalPathOn digest net src dst (hopDistancesTo net dst) = some path
        from hp]
      rfl

theorem mem_routeWrites {digest : List ℕ → List ℕ} {t : Net} {limits : Limits}
    {down : List (Node × ℕ)} {w : Write} :
    w ∈ routeWrites digest t limits down ↔
      ∃ dst ∈ t.graph.nodes, ∃ src path, src ≠ dst ∧
        canonicalPath digest (search t.graph down) src dst = some path ∧
        routeWrite t limits dst (src, path) = some w := by
  unfold routeWrites
  rw [calculateAllPaths_eq]
  simp only [List.mem_flatMap, List.mem_map, List.mem_filterMap]
  constructor
  · rintro ⟨-, ⟨dst, hdst, rfl⟩, ⟨src, path⟩, hpath, hw⟩
    obtain ⟨hne, hpath⟩ := (mem_canonicalPathsTo digest _ _ _ _).mp hpath
    exact ⟨dst, hdst, src, path, hne, hpath, hw⟩
  · rintro ⟨dst, hdst, src, path, hne, hpath, hw⟩
    exact ⟨_, ⟨dst, hdst, rfl⟩, (src, path),
      (mem_canonicalPathsTo digest _ _ _ _).mpr ⟨hne, hpath⟩, hw⟩

/-- What a switch is told for a host, where nothing limits the refill. -/
theorem routeWrite_eq (t : Net) {dpid : ℕ} {hdpid} {ip : String} {hip} (nxt : Node)
    (rest : List Node) (hsrc : t.typed (.switch dpid hdpid) = true)
    (hdst : t.typed (.host ip hip) = true) :
    routeWrite t {} (.host ip hip) (.switch dpid hdpid, .switch dpid hdpid :: nxt :: rest) =
      (t.graph.edgeData (.switch dpid hdpid) nxt).map fun outPort =>
        ⟨dpid, ip, (t.mac (.host ip hip)).getD "00:00:00:00:00:00", outPort⟩ := by
  simp [routeWrite, hsrc, hdst]

/-- A write is for a switch and a host. -/
theorem ends_of_routeWrite {t : Net} {limits : Limits} {dst src : Node} {path : List Node}
    {w : Write} (h : routeWrite t limits dst (src, path) = some w) :
    (∃ hdpid, src = .switch w.dpid hdpid) ∧ ∃ hip, dst = .host w.ipv4Dst hip := by
  unfold routeWrite at h
  split at h
  · next ip hip dpid hdpid hsrc =>
    have hsrc : src = .switch dpid hdpid := hsrc
    split at h
    · cases h
    split at h
    · cases h
    split at h
    · cases h
    split at h
    · cases h
    split at h
    · cases h
    obtain ⟨outPort, -, rfl⟩ := Option.map_eq_some_iff.mp h
    exact ⟨⟨hdpid, hsrc⟩, hip, rfl⟩
  · cases h

/-- A path of a source that is not the destination goes on to a next hop. -/
theorem exists_next {E : Type} {digest : List ℕ → List ℕ} {net : OrderedGraph Node E}
    {src dst : Node} {path : List Node} (hne : src ≠ dst)
    (h : canonicalPath digest net src dst = some path) :
    ∃ nxt rest, path = src :: nxt :: rest ∧ net.Adj src nxt := by
  obtain ⟨n, -, hshort, -⟩ := hops_of_canonicalPath digest h
  rcases hshort.1.cases with ⟨-, rfl, -⟩ | ⟨nxt, q, rfl, hadj, hq⟩
  · exact absurd rfl hne
  · rcases q with _ | ⟨v, rest⟩
    · cases hq.1
    · obtain rfl : v = nxt := by simpa using hq.1
      exact ⟨v, rest, rfl, hadj⟩

/-! ### What the record holds after a refill -/

/-- The last write of a key stands, and without one the value there was. -/
theorem get?_foldl_noteRoute {accepts : Write → Bool} (haccepts : ∀ w, accepts w = true)
    {k : ℕ × String} {outPort : ℕ} (writes : List Write) (installed : Installed)
    (hall : ∀ w ∈ writes, (w.dpid, w.ipv4Dst) = k → w.outPort = outPort)
    (hsome : installed.get? k = some outPort ∨ ∃ w ∈ writes, (w.dpid, w.ipv4Dst) = k) :
    (writes.foldl (noteRoute accepts) installed).get? k = some outPort := by
  induction writes generalizing installed with
  | nil =>
    rcases hsome with h | ⟨w, hw, -⟩
    · exact h
    · cases hw
  | cons w writes ih =>
    rw [List.foldl_cons, noteRoute, if_pos (haccepts w)]
    refine ih _ (fun w' hw' => hall w' (List.mem_cons_of_mem _ hw')) ?_
    by_cases hk : (w.dpid, w.ipv4Dst) = k
    · left
      rw [← hk, Dict.get?_set_self, hall w List.mem_cons_self hk]
    · rcases hsome with h | ⟨w', hw', hk'⟩
      · left
        rw [Dict.get?_set_of_ne _ _ (Ne.symm hk), h]
      · right
        rcases List.mem_cons.mp hw' with rfl | hw'
        · exact absurd hk' hk
        · exact ⟨w', hw', hk'⟩

/-- The record after a refill sends a host's packets, at every switch that can reach it, to the
next hop of the canonical path. -/
theorem get?_installInitialRoutes {digest : List ℕ → List ℕ} {t : Net} (ht : Cabled t)
    {down : List (Node × ℕ)} {accepts : Write → Bool} (haccepts : ∀ w, accepts w = true)
    (installed : Installed) {dpid : ℕ} {hdpid} {ip : String} {hip} {nxt : Node} {rest : List Node}
    (hpath : canonicalPath digest (search t.graph down) (.switch dpid hdpid) (.host ip hip) =
      some (.switch dpid hdpid :: nxt :: rest))
    {outPort : ℕ} (hport : t.graph.edgeData (.switch dpid hdpid) nxt = some outPort) :
    (installInitialRoutes digest t {} down accepts installed).1.get? (dpid, ip) =
      some outPort := by
  obtain ⟨n, -, hshort, -⟩ := hops_of_canonicalPath digest hpath
  have hsrcmem : .switch dpid hdpid ∈ t.graph.nodes := hshort.1.2.2.2 _ (by simp)
  have hdstmem : .host ip hip ∈ t.graph.nodes :=
    hshort.1.2.2.2 _ (List.mem_of_getLast? hshort.1.2.1)
  have hwrite := routeWrite_eq t nxt rest (ht.typed _ hsrcmem) (ht.typed _ hdstmem)
  rw [hport, Option.map_some] at hwrite
  have hmem : ∃ w ∈ routeWrites digest t {} down, (w.dpid, w.ipv4Dst) = (dpid, ip) :=
    ⟨_, mem_routeWrites.mpr ⟨_, hdstmem, _, _, by simp, hpath, hwrite⟩, rfl⟩
  refine get?_foldl_noteRoute haccepts _ installed ?_ (.inr hmem)
  · intro w hw hkey
    obtain ⟨hdpid', hip'⟩ := Prod.mk.inj hkey
    obtain ⟨dst, -, src, path, -, hpath', hw⟩ := mem_routeWrites.mp hw
    obtain ⟨⟨_, rfl⟩, ⟨_, rfl⟩⟩ := ends_of_routeWrite hw
    subst hdpid' hip'
    obtain rfl : Node.switch w.dpid hdpid :: nxt :: rest = path :=
      Option.some.inj (hpath.symm.trans hpath')
    rw [hwrite] at hw
    rw [← Option.some.inj hw]

/-! ### The prefixes of the record -/

/-- No destination that the record holds makes the prefixes fail. -/
theorem prefixRoute_of_routeKey {dst : String} (h : RouteKey dst) (outPort : ℕ) :
    ∃ route, prefixRoute dst outPort = .ok route := by
  obtain ⟨bytes, prefixLen, hlen, hbytes, hone, hle, rfl⟩ := h
  by_cases hbare : prefixLen = 32
  · refine ⟨none, ?_⟩
    rw [Routing.routeText, if_pos hbare, prefixRoute,
      Routing.partition_of_notMem (Routing.slash_notMem_ntoa bytes)]
  · -- a network: the length that is read back is the one that was written
    have hread := Routing.ofString_toDigits prefixLen (by omega)
    rw [Routing.routeText, if_neg hbare, prefixRoute, String.toList_ofList,
      Routing.partition_append (Routing.slash_notMem_ntoa bytes)]
    simp only [String.ofList_toList, Ipv4.aton_of_pton (Ipv4.pton_ntoa hlen hbytes), hread]
    rw [if_neg (by omega)]
    exact ⟨_, rfl⟩

/-- A record of routes has prefixes. -/
theorem exists_prefixRoutes {installed : Installed}
    (h : ∀ k ∈ installed.keys, RouteKey k.2) :
    ∃ prefixes, prefixRoutes installed = .ok prefixes := by
  have hmap (es : List ((ℕ × String) × ℕ)) (hes : ∀ e ∈ es, RouteKey e.1.2) :
      ∃ routes, es.mapM (fun e => do
        let route ← prefixRoute e.1.2 e.2
        return (e.1.1, route)) = (.ok routes : Except ValueError _) := by
    induction es with
    | nil => exact ⟨[], rfl⟩
    | cons e es ih =>
      obtain ⟨route, hroute⟩ := prefixRoute_of_routeKey (hes e List.mem_cons_self) e.2
      obtain ⟨routes, hroutes⟩ := ih fun e' he' => hes e' (List.mem_cons_of_mem _ he')
      refine ⟨(e.1.1, route) :: routes, ?_⟩
      rw [List.mapM_cons, hroute, hroutes]
      rfl
  obtain ⟨routes, hroutes⟩ := hmap installed.entries fun e he => h e.1 (List.mem_map_of_mem he)
  unfold prefixRoutes
  rw [hroutes]
  exact ⟨_, rfl⟩

/-- An address is a destination of the record. -/
theorem routeKey_of_pton {ip : String} (h : (Ipv4.pton ip).isSome) : RouteKey ip := by
  obtain ⟨bytes, hbytes⟩ := Option.isSome_iff_exists.mp h
  obtain ⟨hlen, hlt, -⟩ := Ipv4.pton_eq_some.mp hbytes
  refine ⟨bytes, 32, hlen, hlt, by decide, by decide, ?_⟩
  rw [Routing.routeText, if_pos rfl, Ipv4.ntoa_pton hbytes]

/-- The record after a refill is a record of routes. -/
theorem routeKey_installInitialRoutes (digest : List ℕ → List ℕ) {t : Net} (ht : Cabled t)
    (down : List (Node × ℕ)) (accepts : Write → Bool) {installed : Installed}
    (h : ∀ k ∈ installed.keys, RouteKey k.2) :
    ∀ k ∈ (installInitialRoutes digest t {} down accepts installed).1.keys, RouteKey k.2 := by
  have hwrites : ∀ w ∈ routeWrites digest t {} down, RouteKey w.ipv4Dst := by
    intro w hw
    obtain ⟨dst, hdst, src, path, -, -, hw⟩ := mem_routeWrites.mp hw
    obtain ⟨-, hip, rfl⟩ := ends_of_routeWrite hw
    exact routeKey_of_pton (ht.address _ hip hdst)
  show ∀ k ∈ ((routeWrites digest t {} down).foldl (noteRoute accepts) installed).keys, RouteKey k.2
  generalize routeWrites digest t {} down = writes at hwrites
  induction writes generalizing installed with
  | nil => exact h
  | cons w writes ih =>
    rw [List.foldl_cons]
    refine ih ?_ fun w' hw' => hwrites w' (List.mem_cons_of_mem _ hw')
    intro k hk
    unfold noteRoute at hk
    split at hk
    · rw [Dict.keys_set] at hk
      split at hk
      · exact h k hk
      · rcases List.mem_append.mp hk with hk | hk
        · exact h k hk
        · rw [List.mem_singleton.mp hk]
          exact hwrites w List.mem_cons_self
    · exact h k hk

/-! ### Following the canonical path -/

/-- A port of a switch leads to the neighbour it is cabled to. -/
theorem find?_successors {t : Net} (ht : Cabled t) {dpid : ℕ} {hdpid} {nxt : Node} {outPort : ℕ}
    (hport : t.graph.edgeData (.switch dpid hdpid) nxt = some outPort) :
    (t.graph.successors (.switch dpid hdpid)).find?
      (fun v => t.graph.edgeData (.switch dpid hdpid) v = some outPort) = some nxt := by
  have hmem : nxt ∈ t.graph.successors (.switch dpid hdpid) :=
    mem_successors.mpr (List.mem_map_of_mem (edgeData_eq_some_iff.mp hport))
  rcases hfind : (t.graph.successors (.switch dpid hdpid)).find?
      (fun v => t.graph.edgeData (.switch dpid hdpid) v = some outPort) with _ | v
  · have := List.find?_eq_none.mp hfind nxt hmem
    simp [hport] at this
  · have hv : t.graph.edgeData (.switch dpid hdpid) v = some outPort := by
      simpa using List.find?_some hfind
    rw [ht.ports dpid hdpid v nxt outPort hv hport]

/-- The record after a refill leads along a canonical path, from a node that was reached from its
switch or over its link. -/
theorem follow_refill {digest : List ℕ → List ℕ} {t : Net} (ht : Cabled t)
    {down : List (Node × ℕ)} {accepts : Write → Bool} (haccepts : ∀ w, accepts w = true)
    (installed : Installed) (prefixes : ℕ → List PrefixRoute) {ip : String} {hip}
    (rest pre : List Node) {before current : Node} (n : ℕ)
    (hpath : canonicalPath digest (search t.graph down) current (.host ip hip) =
      some (current :: rest))
    (hbefore : before ∈ pre) (hadj : t.graph.Adj before current)
    (hnodup : (pre ++ current :: rest).Nodup) (hn : rest.length < n) :
    follow t.graph (installInitialRoutes digest t {} down accepts installed).1 prefixes down
      (.host ip hip) n pre current = some (pre ++ current :: rest) := by
  -- by induction on what is left of the path; each node is a switch that holds the next hop
  induction rest generalizing pre before current n with
  | nil =>
    obtain ⟨-, -, hshort, -⟩ := hops_of_canonicalPath digest hpath
    obtain rfl : current = .host ip hip := by simpa using hshort.1.2.1
    rcases n with _ | n
    · cases hn
    · simp [follow]
  | cons nxt rest ih =>
    obtain ⟨-, -, hshort, -⟩ := hops_of_canonicalPath digest hpath
    have hlast : Node.host ip hip ∈ nxt :: rest := by
      have hget : (nxt :: rest).getLast? = some (.host ip hip) := by
        simpa using hshort.1.2.1
      exact List.mem_of_getLast? hget
    have hne : current ≠ .host ip hip := by
      rintro rfl
      exact (List.nodup_cons.mp (List.nodup_append.mp hnodup).2.1).1 hlast
    have hnext : (search t.graph down).Adj current nxt :=
      (List.isChain_cons_cons.mp hshort.1.2.2.1).1
    obtain ⟨outPort, hport, hup⟩ := adj_search.mp hnext
    rcases n with _ | n
    · cases hn
    cases hcurrent : current with
    | host ip' hip' =>
      -- a host in the middle would be left to the switch it was reached from
      subst hcurrent
      obtain ⟨dpid, hdpid, hattached⟩ := ht.attached ip' hip' (hnext.left_mem)
      have hb := (hattached before).2.mp hadj
      have hx := (hattached nxt).1.mp (adj_of_search hnext)
      have hdis := (List.nodup_append.mp hnodup).2.2
      exact absurd (hb.trans hx.symm) (hdis before hbefore nxt (by simp))
    | switch dpid hdpid =>
      subst hcurrent
      have hroute := get?_installInitialRoutes ht haccepts installed hpath hport
      have hfind := find?_successors ht hport
      have hfresh : nxt ∉ pre ++ [Node.switch dpid hdpid] := by
        have hsplit : ((pre ++ [Node.switch dpid hdpid]) ++ nxt :: rest).Nodup := by
          rw [List.append_assoc]
          exact hnodup
        intro hmem
        exact (List.nodup_append.mp hsplit).2.2 nxt hmem nxt (by simp) rfl
      have hstep := ih (pre ++ [Node.switch dpid hdpid]) n (canonicalPath_tail digest hpath)
        (List.mem_append_right pre (List.mem_singleton.mpr rfl)) (adj_of_search hnext)
        (by rw [List.append_assoc]; exact hnodup) (by simpa using hn)
      rw [follow, if_neg hne]
      simp only [lpmOutPort, hroute]
      rw [if_neg hup]
      simp only [hfind]
      rw [if_neg hfresh, hstep, List.append_assoc]
      rfl

/-- **After a refill the path that is followed is the canonical one.**  On every cabling, for all
endpoints that are down and whatever routes the record held, once every write of a refill has been
accepted: between any two hosts that the links which are up connect, following the record reaches
the destination, by the canonical path of the graph without the links that are down. -/
theorem installedPath_refill (digest : List ℕ → List ℕ) (t : Net) (ht : Cabled t)
    (down : List (Node × ℕ)) (accepts : Write → Bool) (haccepts : ∀ w, accepts w = true)
    (installed : Installed) (hkeys : ∀ k ∈ installed.keys, RouteKey k.2) (ip ip' : String)
    (hip hip') (hne : ip ≠ ip')
    (hreach : ∃ p, (t.graph.without (downEdges t.graph down)).Walk (.host ip hip)
      (.host ip' hip') p) :
    ∃ p, installedPath t.graph (installInitialRoutes digest t {} down accepts installed).1
        (.host ip hip) (.host ip' hip') down = .ok (some p) ∧
      canonicalPath digest (t.graph.without (downEdges t.graph down)) (.host ip hip)
        (.host ip' hip') = some p ∧
      p.getLast? = some (.host ip' hip') := by
  show ∃ p, _ ∧ canonicalPath digest (search t.graph down) _ _ = some p ∧ _
  rcases hpath : canonicalPath digest (search t.graph down) (.host ip hip) (.host ip' hip') with
    _ | p
  · exact absurd hreach ((canonicalPath_eq_none_iff digest _ _ _).mp hpath)
  obtain ⟨-, -, hshort, -⟩ := hops_of_canonicalPath digest hpath
  refine ⟨p, ?_, rfl, hshort.1.2.1⟩
  have hnodes : Node.host ip hip ≠ .host ip' hip' := by
    intro h
    exact hne (Node.host.inj h)
  obtain ⟨nxt, rest, rfl, hadj⟩ := exists_next hnodes hpath
  obtain ⟨dpid, hdpid, hattached⟩ := ht.attached ip hip hadj.left_mem
  -- the only neighbour of the source is its switch
  have hfirst : ∃ tail, t.graph.successors (.host ip hip) = nxt :: tail := by
    have hx := (hattached nxt).1.mp (adj_of_search hadj)
    have hall : ∀ v ∈ t.graph.successors (.host ip hip), v = nxt := by
      intro v hv
      rw [hx]
      exact (hattached v).1.mp (mem_successors.mp hv)
    rcases hsucc : t.graph.successors (.host ip hip) with _ | ⟨v, tail⟩
    · have := mem_successors.mpr (adj_of_search hadj)
      rw [hsucc] at this
      cases this
    · rw [hall v (by simp [hsucc])]
      exact ⟨tail, rfl⟩
  obtain ⟨tail, hsucc⟩ := hfirst
  obtain ⟨prefixes, hprefixes⟩ :=
    exists_prefixRoutes (routeKey_installInitialRoutes digest ht down accepts hkeys)
  unfold installedPath
  rw [hprefixes, hsucc]
  have hlen : (Node.host ip hip :: nxt :: rest).length ≤ t.graph.nodes.length :=
    (List.Nodup.subperm hshort.nodup hshort.1.2.2.2).length_le
  have hfollow := follow_refill ht haccepts installed prefixes rest [.host ip hip]
    (t.graph.nodes.length + 1) (canonicalPath_tail digest hpath) (List.mem_singleton.mpr rfl)
    (adj_of_search hadj) hshort.nodup (by simp only [List.length_cons] at hlen; omega)
  exact congrArg Except.ok hfollow

/-- The fabric with two ways round, every node of it known. -/
def twoWaysNet : Net where
  graph := grow twoWays
  typed := fun _ => true
  mac := fun _ => none

theorem ends_twoWays : (grow twoWays).edges.map Prod.fst =
    [(sw 1, h1), (h1, sw 1), (sw 1, sw 2), (sw 2, sw 1), (sw 1, sw 3), (sw 3, sw 1), (sw 2, sw 4),
      (sw 4, sw 2), (sw 3, sw 4), (sw 4, sw 3), (sw 4, h2), (h2, sw 4)] := by
  decide +kernel

theorem cabled_twoWays : Cabled twoWaysNet where
  typed _ _ := rfl
  attached ip h hmem := by
    have hnodes : twoWaysNet.graph.nodes = [sw 1, h1, sw 2, sw 3, sw 4, h2] := by decide +kernel
    have hadj (u v : Node) : twoWaysNet.graph.Adj u v ↔ (u, v) ∈ (grow twoWays).edges.map Prod.fst :=
      Iff.rfl
    rw [hnodes] at hmem
    have hhost : Node.host ip h = h1 ∨ Node.host ip h = h2 := by
      simpa [sw, h1, h2] using hmem
    rcases hhost with hhost | hhost
    · refine ⟨1, by decide, ?_⟩
      intro v
      rw [hhost, hadj, hadj, ends_twoWays]
      simp [sw, h1, h2]
    · refine ⟨4, by decide, ?_⟩
      intro v
      rw [hhost, hadj, hadj, ends_twoWays]
      simp [sw, h1, h2]
  address ip h hmem := by
    have hnodes : twoWaysNet.graph.nodes = [sw 1, h1, sw 2, sw 3, sw 4, h2] := by decide +kernel
    rw [hnodes] at hmem
    have hhost : ip = "10.0.0.1" ∨ ip = "10.0.0.2" := by simpa [sw, h1, h2] using hmem
    rcases hhost with rfl | rfl
    · decide
    · decide
  ports dpid h v w p hv hw := by
    have hall : ∀ e ∈ (grow twoWays).edges, ∀ e' ∈ (grow twoWays).edges,
        e.1.1 = e'.1.1 → e.2 = e'.2 → e.1.2 = e'.1.2 := by
      decide +kernel
    exact hall _ (edgeData_eq_some_iff.mp hv) _ (edgeData_eq_some_iff.mp hw) rfl rfl

/-- A record with a stale route into the link that is down, and a prefix route. -/
def stale : Installed := Dict.ofList [((1, "10.0.0.2"), 2), ((3, "10.0.0.0/24"), 1)]

theorem installedPath_refill_twoWays :
    ∃ p, installedPath twoWaysNet.graph
        (installInitialRoutes id twoWaysNet {} [(sw 1, 2)] (fun _ => true) stale).1 h1 h2
        [(sw 1, 2)] = .ok (some p) ∧
      canonicalPath id (twoWaysNet.graph.without (downEdges twoWaysNet.graph [(sw 1, 2)])) h1 h2 =
        some p ∧
      p.getLast? = some h2 := by
  refine installedPath_refill id twoWaysNet cabled_twoWays [(sw 1, 2)] (fun _ => true)
    (fun _ => rfl) stale ?_ "10.0.0.1" "10.0.0.2" (by decide) (by decide) (by decide) ?_
  · have hkeys : stale.keys = [(1, "10.0.0.2"), (3, "10.0.0.0/24")] := by decide +kernel
    intro k hk
    rw [hkeys] at hk
    rcases List.mem_cons.mp hk with rfl | hk
    · exact ⟨[10, 0, 0, 2], 32, rfl, by decide, by decide, by decide, by decide⟩
    · obtain rfl := List.mem_singleton.mp hk
      exact ⟨[10, 0, 0, 0], 24, rfl, by decide, by decide, by decide, by decide⟩
  · by_contra hno
    have hnone := (canonicalPath_eq_none_iff id _ _ _).mpr hno
    have hsome : canonicalPath id
        (twoWaysNet.graph.without (downEdges twoWaysNet.graph [(sw 1, 2)])) h1 h2 =
          some [h1, sw 1, sw 3, sw 4, h2] := by
      decide +kernel
    exact Option.some_ne_none _ (hsome.symm.trans hnone)

end NDTwin.Topology
