import NDTwin.Lib.Fallible
import NDTwin.Routing.Prefixes
import NDTwin.Topology.InstalledPath

/-!
# Following the record of routes

The path that is advertised is found by following the record of what was written, switch by switch.
A packet at a switch leaves by the port of the longest prefix in the record that contains its
destination; `Reaches` says where that leads.

## Main definitions

* `Wired` — every host on one switch, every port to one neighbour.
* `Forwards` — the port of the longest prefix that contains an address.
* `Reaches` — a walk that leaves every switch by that port, over links that are up.

## Main results

* `lpmOutPort_eq_some_iff` — **the port that is looked up is that of the longest prefix.**
* `follow_eq_some_iff` — following the record finds the walk.
* `installedPath_iff_reaches` — **a path is found if and only if the walk reaches the destination.**
-/

namespace NDTwin.Topology

open OrderedGraph Routing

/-! ### What a walk is -/

/-- A graph in which every host hangs off one switch by an address of four bytes, and the ports of a
switch lead to distinct neighbours. -/
structure Wired (net : OrderedGraph Node ℕ) : Prop where
  attached : ∀ ip h, .host ip h ∈ net.nodes → ∃ dpid hdpid, ∀ v,
    (net.Adj (.host ip h) v ↔ v = .switch dpid hdpid) ∧
      (net.Adj v (.host ip h) ↔ v = .switch dpid hdpid)
  address : ∀ ip h, .host ip h ∈ net.nodes → (Ipv4.pton ip).isSome
  ports : ∀ dpid h v w p, net.edgeData (.switch dpid h) v = some p →
    net.edgeData (.switch dpid h) w = some p → v = w

/-- Every destination of a record is its own route key. -/
def CanonicalKeys (installed : Installed) : Prop :=
  ∀ k ∈ installed.keys, canonicalRouteKey (.str k.2 : Json Empty) = some k.2

/-- A switch sends an address out of the port of the longest network in the record that has it. -/
def Forwards (installed : Installed) (dpid address outPort : ℕ) : Prop :=
  ∃ p : Prefix, installed.get? (dpid, p.key) = some outPort ∧ p.Contains address ∧
    ∀ q : Prefix, (installed.get? (dpid, q.key)).isSome = true → q.Contains address → q.len ≤ p.len

/-- The walk of a packet to a destination: it leaves every switch by the port the switch sends it out
of, over a link that is there and is not down. -/
inductive Reaches (net : OrderedGraph Node ℕ) (installed : Installed) (down : List (Node × ℕ))
    (address : ℕ) (dst : Node) : Node → List Node → Prop
  | arrived : Reaches net installed down address dst dst [dst]
  | hop {dpid : ℕ} {hdpid : dpid < 2 ^ 64} {outPort : ℕ} {nxt : Node} {rest : List Node}
    (hroute : Forwards installed dpid address outPort)
    (hup : (.switch dpid hdpid, outPort) ∉ down)
    (hlink : net.edgeData (.switch dpid hdpid) nxt = some outPort)
    (hrest : Reaches net installed down address dst nxt rest) :
    Reaches net installed down address dst (.switch dpid hdpid) (.switch dpid hdpid :: rest)

/-! ### The longest prefix -/

theorem Forwards.unique {installed : Installed} {dpid address outPort outPort' : ℕ}
    (h : Forwards installed dpid address outPort) (h' : Forwards installed dpid address outPort') :
    outPort = outPort' := by
  obtain ⟨p, hp, hcontains, hlongest⟩ := h
  obtain ⟨q, hq, hcontains', hlongest'⟩ := h'
  have hle := hlongest q (by rw [hq]; rfl) hcontains'
  have hge := hlongest' p (by rw [hp]; rfl) hcontains
  obtain rfl := Prefix.eq_of_contains (Nat.le_antisymm hge hle) hcontains hcontains'
  rw [hp] at hq
  exact Option.some.inj hq

/-- A route of a network, as the lookup holds it. -/
def routeOf (p : Prefix) (outPort : ℕ) : PrefixRoute where
  prefixLen := p.len
  network := p.network
  mask := (0xFFFFFFFF <<< (32 - p.len)) &&& 0xFFFFFFFF
  outPort := outPort

theorem routeOf_matches {p : Prefix} {address : ℕ} (h : address < 2 ^ 32) (outPort : ℕ) :
    address &&& (routeOf p outPort).mask = (routeOf p outPort).network ↔ p.Contains address := by
  rw [Prefix.contains_iff h]
  rfl

/-- An entry of the record that is not a host route. -/
theorem prefixRoute_key (p : Prefix) (outPort : ℕ) :
    prefixRoute p.key outPort = .ok (if p.len = 32 then none else some (routeOf p outPort)) := by
  obtain ⟨hlen, hlt, hof⟩ := p.bytes_key
  have hnot := slash_notMem_ntoa (Ipv4.toBytes 4 p.network)
  by_cases hbare : p.len = 32
  · rw [Prefix.key, routeText, if_pos hbare, prefixRoute, partition_of_notMem hnot, if_pos hbare]
  · have hle := p.len_le
    have hread := ofString_toDigits p.len (by omega)
    rw [Prefix.key, routeText, if_neg hbare, prefixRoute, String.toList_ofList, partition_append hnot]
    simp only [String.ofList_toList, Ipv4.aton_of_pton (Ipv4.pton_ntoa hlen hlt), hread, hof]
    rw [if_neg (by omega), if_neg hbare]
    have hsub : ((32 : ℤ) - (p.len : ℤ)).toNat = 32 - p.len := by omega
    have hself : p.network &&& ((0xFFFFFFFF <<< (32 - p.len)) &&& 0xFFFFFFFF) = p.network := by
      show network p.network p.len = p.network
      rw [network_eq p.network_lt, Nat.div_mul_cancel p.aligned]
    rw [hsub, hself]
    rfl

/-- The routes of a switch that are not host routes. -/
def NetworkRoutes (installed : Installed) (dpid : ℕ) (routes : List PrefixRoute) : Prop :=
  ∀ r, r ∈ routes ↔ ∃ p : Prefix, ∃ outPort, installed.get? (dpid, p.key) = some outPort ∧
    p.len ≠ 32 ∧ r = routeOf p outPort

/-- What `prefix_routes` makes of an entry of the record. -/
def entryRoute (e : (ℕ × String) × ℕ) : Except ValueError (ℕ × Option PrefixRoute) := do
  let route ← prefixRoute e.1.2 e.2
  return (e.1.1, route)

theorem entryRoute_key (dpid : ℕ) (p : Prefix) (outPort : ℕ) : entryRoute ((dpid, p.key), outPort) =
    .ok (dpid, if p.len = 32 then none else some (routeOf p outPort)) := by
  rw [entryRoute, prefixRoute_key]
  rfl

/-- The routes that are read off the record. -/
theorem mem_routes_iff {installed : Installed} (h : CanonicalKeys installed)
    {routes : List (ℕ × Option PrefixRoute)} (hroutes : installed.entries.mapM entryRoute = .ok routes)
    (dpid : ℕ) : NetworkRoutes installed dpid
      (routes.filterMap fun r => if r.1 = dpid then r.2 else none) := by
  have hboth := Fallible.forall₂_of_mapM hroutes
  intro r
  rw [List.mem_filterMap]
  constructor
  · rintro ⟨⟨dpid', route⟩, hmem, hr⟩
    obtain ⟨⟨⟨dpid₁, dst⟩, outPort⟩, hentry, hread⟩ := Fallible.exists_mem_of_forall₂ hboth hmem
    obtain ⟨p, rfl⟩ :=
      exists_prefix_of_canonicalRouteKey (h (dpid₁, dst) (List.mem_map_of_mem hentry))
    rw [entryRoute_key] at hread
    obtain ⟨rfl, rfl⟩ := Prod.mk.inj (Except.ok.inj hread)
    have hget := (installed.mem_entries_iff _ _).mp hentry
    by_cases hdpid : dpid₁ = dpid
    · by_cases hlen : p.len = 32
      · simp [hlen] at hr
      · simp only [if_pos hdpid, if_neg hlen, Option.some.injEq] at hr
        exact ⟨p, outPort, hdpid ▸ hget, hlen, hr.symm⟩
    · simp [hdpid] at hr
  · rintro ⟨p, outPort, hget, hlen, rfl⟩
    have hentry := (installed.mem_entries_iff _ _).mpr hget
    obtain ⟨route, hmem, hread⟩ := Fallible.exists_mem_of_forall₂ hboth.flip hentry
    rw [entryRoute_key, if_neg hlen] at hread
    cases hread
    exact ⟨_, hmem, by simp⟩

/-- A record with canonical keys has its prefixes, each switch's sorted by length. -/
theorem prefixRoutes_spec {installed : Installed} (h : CanonicalKeys installed) :
    ∃ prefixes, prefixRoutes installed = .ok prefixes ∧
      ∀ dpid, (prefixes dpid).Pairwise (fun a b => b.prefixLen ≤ a.prefixLen) ∧
        NetworkRoutes installed dpid (prefixes dpid) := by
  have hread : ∀ e ∈ installed.entries, ∃ route, entryRoute e = .ok route := by
    rintro ⟨⟨dpid, dst⟩, outPort⟩ he
    obtain ⟨p, rfl⟩ := exists_prefix_of_canonicalRouteKey (h (dpid, dst) (List.mem_map_of_mem he))
    exact ⟨_, entryRoute_key dpid p outPort⟩
  obtain ⟨routes, hroutes⟩ := Fallible.mapM_of_forall hread
  refine ⟨_, Fallible.bind_of_ok hroutes, fun dpid => ⟨?_, fun r => ?_⟩⟩
  · have htrans : ∀ a b c : PrefixRoute, decide (b.prefixLen ≤ a.prefixLen) = true →
        decide (c.prefixLen ≤ b.prefixLen) = true → decide (c.prefixLen ≤ a.prefixLen) = true := by
      intro a b c hab hbc
      rw [decide_eq_true_eq] at hab hbc ⊢
      omega
    have htotal : ∀ a b : PrefixRoute,
        (decide (b.prefixLen ≤ a.prefixLen) || decide (a.prefixLen ≤ b.prefixLen)) = true := by
      intro a b
      rw [Bool.or_eq_true, decide_eq_true_eq, decide_eq_true_eq]
      omega
    have hsorted := List.pairwise_mergeSort htrans htotal
      (routes.filterMap fun r => if r.1 = dpid then r.2 else none)
    exact hsorted.imp fun hab => of_decide_eq_true hab
  · rw [List.mem_mergeSort]
    exact mem_routes_iff h hroutes dpid r

/-- The first route of a sorted list that matches is the longest. -/
theorem find?_longest {routes : List PrefixRoute} {test : PrefixRoute → Bool} {r : PrefixRoute}
    (hsorted : routes.Pairwise fun a b => b.prefixLen ≤ a.prefixLen)
    (h : routes.find? test = some r) :
    r ∈ routes ∧ test r = true ∧ ∀ s ∈ routes, test s = true → s.prefixLen ≤ r.prefixLen := by
  obtain ⟨htest, pre, post, rfl, hpre⟩ := List.find?_eq_some_iff_append.mp h
  refine ⟨by simp, htest, ?_⟩
  intro s hs hmatch
  rcases List.mem_append.mp hs with hs | hs
  · have hnot := hpre s hs
    rw [hmatch] at hnot
    cases hnot
  · rcases List.mem_cons.mp hs with rfl | hs
    · exact le_rfl
    · exact (List.pairwise_cons.mp (List.pairwise_append.mp hsorted).2.1).1 s hs

/-- The network of one address. -/
def hostPrefix (address : ℕ) (h : address < 2 ^ 32) : Prefix := .of address 32 h (by decide) le_rfl

theorem hostPrefix_contains {address : ℕ} (h : address < 2 ^ 32) :
    (hostPrefix address h).Contains address :=
  (Prefix.contains_iff h).mpr rfl

/-- An address is the route key of its own network. -/
theorem key_hostPrefix {ip : String} {bytes : List ℕ} (hip : Ipv4.pton ip = some bytes)
    (h : Ipv4.ofBytes bytes < 2 ^ 32) : (hostPrefix (Ipv4.ofBytes bytes) h).key = ip := by
  obtain ⟨hlen, hlt, -⟩ := Ipv4.pton_eq_some.mp hip
  have hnetwork : (hostPrefix (Ipv4.ofBytes bytes) h).network = Ipv4.ofBytes bytes :=
    network_full (by simpa using h)
  rw [Prefix.key, hnetwork, ← hlen, Ipv4.toBytes_ofBytes hlt]
  exact (if_pos rfl).trans (Ipv4.ntoa_pton hip)

/-- The lookup of an address: the host route, and else the first of the sorted routes. -/
theorem lpmOutPort_eq {installed : Installed} {prefixes : ℕ → List PrefixRoute} {dpid : ℕ} {ip : String}
    {bytes : List ℕ} (hip : Ipv4.pton ip = some bytes) (hdpid hfits) :
    lpmOutPort installed prefixes (.switch dpid hdpid) (.host ip hfits) =
      (installed.get? (dpid, ip)).or (((prefixes dpid).find? fun r =>
        Ipv4.ofBytes bytes &&& r.mask = r.network).map PrefixRoute.outPort) := by
  simp only [lpmOutPort, Ipv4.aton_of_pton hip]
  cases installed.get? (dpid, ip) with
  | none => rfl
  | some outPort => rfl

/-- **The port that is looked up is that of the longest prefix.** -/
theorem lpmOutPort_eq_some_iff {installed : Installed} {prefixes : ℕ → List PrefixRoute} {dpid : ℕ}
    (hsorted : (prefixes dpid).Pairwise fun a b => b.prefixLen ≤ a.prefixLen)
    (hroutes : NetworkRoutes installed dpid (prefixes dpid)) {ip : String} {bytes : List ℕ}
    (hip : Ipv4.pton ip = some bytes) (hdpid hfits) (outPort : ℕ) :
    lpmOutPort installed prefixes (.switch dpid hdpid) (.host ip hfits) = some outPort ↔
      Forwards installed dpid (Ipv4.ofBytes bytes) outPort := by
  have haddress := ofBytes_lt_of_pton hip
  have hkey := key_hostPrefix hip haddress
  have hhost : ∀ p : Prefix, p.len = 32 → p.Contains (Ipv4.ofBytes bytes) → p.key = ip := by
    intro p hp hcontains
    rw [Prefix.eq_of_contains (q := hostPrefix _ haddress) hp hcontains (hostPrefix_contains haddress),
      hkey]
  rw [lpmOutPort_eq hip]
  cases hget : installed.get? (dpid, ip) with
  | some port =>
    have hforwards : Forwards installed dpid (Ipv4.ofBytes bytes) port :=
      ⟨hostPrefix _ haddress, by rw [hkey, hget], hostPrefix_contains haddress,
        fun q _ _ => q.len_le⟩
    constructor
    · intro h
      obtain rfl : port = outPort := Option.some.inj h
      exact hforwards
    · intro h
      rw [h.unique hforwards]
      rfl
  | none =>
    -- without a host route every network that has the address is among the sorted routes
    have hmem : ∀ (p : Prefix) (port : ℕ), installed.get? (dpid, p.key) = some port →
        p.Contains (Ipv4.ofBytes bytes) → routeOf p port ∈ prefixes dpid := by
      intro p port hp hcontains
      refine (hroutes _).mpr ⟨p, port, hp, fun hp32 => ?_, rfl⟩
      rw [hhost p hp32 hcontains, hget] at hp
      cases hp
    rw [Option.none_or]
    constructor
    · intro h
      obtain ⟨r, hfind, rfl⟩ := Option.map_eq_some_iff.mp h
      obtain ⟨hr, htest, hlongest⟩ := find?_longest hsorted hfind
      obtain ⟨p, port, hp, -, rfl⟩ := (hroutes r).mp hr
      refine ⟨p, hp, (routeOf_matches haddress port).mp (of_decide_eq_true htest), ?_⟩
      intro q hq hcontains
      obtain ⟨port', hport'⟩ := Option.isSome_iff_exists.mp hq
      have hle := hlongest _ (hmem q port' hport' hcontains)
        (decide_eq_true ((routeOf_matches haddress port').mpr hcontains))
      exact Int.ofNat_le.mp hle
    · intro h
      obtain ⟨p, hp, hcontains, hlongest⟩ := id h
      cases hfind : (prefixes dpid).find? fun r => Ipv4.ofBytes bytes &&& r.mask = r.network with
      | none =>
        have hnone := List.find?_eq_none.mp hfind _ (hmem p outPort hp hcontains)
        exact absurd (decide_eq_true ((routeOf_matches haddress outPort).mpr hcontains)) hnone
      | some r =>
        obtain ⟨hr, htest, hle⟩ := find?_longest hsorted hfind
        obtain ⟨q, port, hq, -, rfl⟩ := (hroutes r).mp hr
        have hqcontains := (routeOf_matches haddress port).mp (of_decide_eq_true htest)
        have hpq := hle _ (hmem p outPort hp hcontains)
          (decide_eq_true ((routeOf_matches haddress outPort).mpr hcontains))
        have hqp := hlongest q (by rw [hq]; rfl) hqcontains
        obtain rfl := Prefix.eq_of_contains (Nat.le_antisymm (Int.ofNat_le.mp hpq) hqp) hcontains
          hqcontains
        rw [hp] at hq
        cases hq
        rfl

/-! ### The walk -/

section Walk

variable {net : OrderedGraph Node ℕ} {installed : Installed} {down : List (Node × ℕ)} {address : ℕ}
  {dst : Node}

/-- A walk visits switches, and ends at its destination. -/
theorem Reaches.mem {current v : Node} {rest : List Node}
    (h : Reaches net installed down address dst current rest) (hv : v ∈ rest) :
    v = dst ∨ (∃ dpid hdpid, v = .switch dpid hdpid) ∧ v ∈ net.nodes := by
  induction h with
  | arrived => exact .inl (List.mem_singleton.mp hv)
  | hop hroute hup hlink hrest ih =>
    rcases List.mem_cons.mp hv with rfl | hv
    · have hadj : net.Adj _ _ := List.mem_map_of_mem (edgeData_eq_some_iff.mp hlink)
      exact .inr ⟨⟨_, _, rfl⟩, hadj.left_mem⟩
    · exact ih hv

theorem Reaches.start_mem {current : Node} {rest : List Node}
    (h : Reaches net installed down address dst current rest) : current ∈ rest := by
  cases h <;> exact List.mem_cons_self

theorem Reaches.dst_mem {current : Node} {rest : List Node}
    (h : Reaches net installed down address dst current rest) : dst ∈ rest := by
  induction h with
  | arrived => exact List.mem_cons_self
  | hop hroute hup hlink hrest ih => exact List.mem_cons_of_mem _ ih

variable {prefixes : ℕ → List PrefixRoute}

theorem edgeData_of_find? {u v : Node} {outPort : ℕ} (h : (net.successors u).find?
    (fun v => net.edgeData u v = some outPort) = some v) : net.edgeData u v = some outPort := by
  simpa using List.find?_some h

/-- Where the port of a switch leads. -/
theorem find?_successors_iff (hports : ∀ dpid h v w p, net.edgeData (.switch dpid h) v = some p →
    net.edgeData (.switch dpid h) w = some p → v = w) {dpid : ℕ} {hdpid} {outPort : ℕ} {nxt : Node} :
    (net.successors (.switch dpid hdpid)).find?
      (fun v => net.edgeData (.switch dpid hdpid) v = some outPort) = some nxt ↔
        net.edgeData (.switch dpid hdpid) nxt = some outPort := by
  constructor
  · intro h
    exact edgeData_of_find? h
  · intro h
    have hmem : nxt ∈ net.successors (.switch dpid hdpid) :=
      mem_successors.mpr (List.mem_map_of_mem (edgeData_eq_some_iff.mp h))
    cases hfind : (net.successors (.switch dpid hdpid)).find?
        (fun v => net.edgeData (.switch dpid hdpid) v = some outPort) with
    | none =>
      have hnone := List.find?_eq_none.mp hfind nxt hmem
      exact absurd (decide_eq_true h) hnone
    | some v => rw [hports dpid hdpid v nxt outPort (edgeData_of_find? hfind) h]

/-- What is found by following the record is a walk. -/
theorem reaches_of_follow
    (hlpm : ∀ dpid hdpid outPort, lpmOutPort installed prefixes (.switch dpid hdpid) dst = some outPort →
      Forwards installed dpid address outPort)
    {n : ℕ} {hops : List Node} {current : Node} {path : List Node}
    (h : follow net installed prefixes down dst n hops current = some path)
    (hnodup : (hops ++ [current]).Nodup) :
    ∃ rest, Reaches net installed down address dst current rest ∧ path = hops ++ rest ∧
      path.Nodup := by
  induction n generalizing hops current with
  | zero => cases h
  | succ n ih =>
    rw [follow] at h
    split at h
    · next hdst =>
      subst hdst
      cases h
      exact ⟨_, .arrived, rfl, hnodup⟩
    · split at h
      · cases h
      · next outPort hport =>
        split at h
        · cases h
        · next hup =>
          split at h
          · cases h
          · next nxt hfind =>
            split at h
            · cases h
            · next hfresh =>
              have hnext : (hops ++ [current] ++ [nxt]).Nodup :=
                List.nodup_append.mpr ⟨hnodup, List.nodup_singleton nxt, fun a ha b hb => by
                  rintro rfl
                  exact hfresh (List.mem_singleton.mp hb ▸ ha)⟩
              obtain ⟨rest, hrest, rfl, hpath⟩ := ih h hnext
              cases current with
              | host ip hip => simp [lpmOutPort] at hport
              | switch dpid hdpid =>
                refine ⟨.switch dpid hdpid :: rest, ?_, by simp, hpath⟩
                exact .hop (hlpm dpid hdpid outPort hport) hup (edgeData_of_find? hfind) hrest

/-- A walk is found by following the record, if it is followed far enough. -/
theorem follow_of_reaches (hports : ∀ dpid h v w p, net.edgeData (.switch dpid h) v = some p →
      net.edgeData (.switch dpid h) w = some p → v = w)
    (hlpm : ∀ dpid hdpid outPort, Forwards installed dpid address outPort →
      lpmOutPort installed prefixes (.switch dpid hdpid) dst = some outPort)
    {current : Node} {rest : List Node}
    (h : Reaches net installed down address dst current rest) {n : ℕ} {hops : List Node}
    (hn : rest.length ≤ n) (hnodup : (hops ++ rest).Nodup) :
    follow net installed prefixes down dst n hops current = some (hops ++ rest) := by
  induction h generalizing n hops with
  | arrived =>
    obtain ⟨n, rfl⟩ : ∃ k, n = k + 1 := ⟨n - 1, by simp at hn; omega⟩
    rw [follow, if_pos rfl]
  | @hop dpid hdpid outPort nxt rest hroute hup hlink hrest ih =>
    obtain ⟨n, rfl⟩ : ∃ k, n = k + 1 := ⟨n - 1, by simp at hn; omega⟩
    have happend : hops ++ .switch dpid hdpid :: rest = (hops ++ [.switch dpid hdpid]) ++ rest := by
      simp
    rw [happend] at hnodup ⊢
    -- neither the destination nor the next node has been visited
    have hfresh : ∀ v ∈ rest, v ∉ hops ++ [Node.switch dpid hdpid] :=
      fun v hv hmem => (List.nodup_append.mp hnodup).2.2 v hmem v hv rfl
    have hne : Node.switch dpid hdpid ≠ dst := by
      rintro rfl
      exact hfresh _ hrest.dst_mem (by simp)
    rw [follow, if_neg hne]
    simp only [hlpm dpid hdpid outPort hroute]
    rw [if_neg hup]
    simp only [(find?_successors_iff hports).mpr hlink]
    rw [if_neg (hfresh nxt hrest.start_mem)]
    exact ih (by simpa using hn) hnodup

/-- **A path is found if and only if the walk reaches the destination.**  On every graph with each
host on one switch and each port of a switch to one neighbour, for all endpoints that are down, every
record with canonical route keys and any two hosts: a path is answered exactly if the walk from the
source's switch, by the port of the longest prefix that contains the destination, reaches it over
links that are there and not down and visits no node twice, and then the path is that walk. -/
theorem installedPath_iff_reaches {net : OrderedGraph Node ℕ} (hnet : Wired net)
    (down : List (Node × ℕ)) {installed : Installed} (hkeys : CanonicalKeys installed)
    {ip ip' : String} {hip hip'} (hsrc : .host ip hip ∈ net.nodes) (hdst : .host ip' hip' ∈ net.nodes)
    (hne : ip ≠ ip') :
    ∃ bytes answer, Ipv4.pton ip' = some bytes ∧
      installedPath net installed (.host ip hip) (.host ip' hip') down = .ok answer ∧
      ∀ path, answer = some path ↔ ∃ dpid hdpid rest,
        net.Adj (.host ip hip) (.switch dpid hdpid) ∧
        Reaches net installed down (Ipv4.ofBytes bytes) (.host ip' hip') (.switch dpid hdpid) rest ∧
        rest.Nodup ∧ path = .host ip hip :: rest := by
  obtain ⟨bytes, hbytes⟩ := Option.isSome_iff_exists.mp (hnet.address ip' hip' hdst)
  obtain ⟨prefixes, hprefixes, hspec⟩ := prefixRoutes_spec hkeys
  obtain ⟨dpid, hdpid, hattached⟩ := hnet.attached ip hip hsrc
  have hlpm (d hd) (outPort : ℕ) := lpmOutPort_eq_some_iff (hspec d).1 (hspec d).2 hbytes hd hip' outPort
  have hsucc : ∃ tail, net.successors (.host ip hip) = .switch dpid hdpid :: tail := by
    cases hcons : net.successors (.host ip hip) with
    | nil =>
      have hmem := mem_successors.mpr ((hattached (.switch dpid hdpid)).1.mpr rfl)
      rw [hcons] at hmem
      cases hmem
    | cons v tail =>
      have hv : v ∈ net.successors (.host ip hip) := by
        rw [hcons]
        exact List.mem_cons_self
      rw [(hattached v).1.mp (mem_successors.mp hv)]
      exact ⟨tail, rfl⟩
  obtain ⟨tail, hsucc⟩ := hsucc
  refine ⟨bytes, follow net installed prefixes down (.host ip' hip') (net.nodes.length + 1)
    [.host ip hip] (.switch dpid hdpid), hbytes, ?_, fun path => ⟨fun h => ?_, ?_⟩⟩
  · rw [installedPath, hprefixes, hsucc]
    rfl
  · obtain ⟨rest, hrest, rfl, hnodup⟩ := reaches_of_follow
      (fun d hd outPort => (hlpm d hd outPort).mp) h (by simp)
    exact ⟨dpid, hdpid, rest, (hattached _).1.mpr rfl, hrest, (List.nodup_cons.mp hnodup).2, rfl⟩
  · rintro ⟨d, hd, rest, hadj, hrest, hnodup, rfl⟩
    rw [(hattached _).1.mp hadj] at hrest
    have hsubset : rest ⊆ net.nodes := by
      intro v hv
      rcases hrest.mem hv with rfl | ⟨-, hv⟩
      · exact hdst
      · exact hv
    have hlen := (List.subperm_of_subset hnodup hsubset).length_le
    have hnotMem : Node.host ip hip ∉ rest := by
      intro hmem
      rcases hrest.mem hmem with heq | ⟨⟨_, _, heq⟩, -⟩
      · exact hne (Node.host.inj heq)
      · cases heq
    exact follow_of_reaches hnet.ports (fun d hd outPort => (hlpm d hd outPort).mpr) hrest (by omega)
      (List.nodup_cons.mpr ⟨hnotMem, hnodup⟩)

end Walk

/-- A record with a host route, a prefix route and a longer one that does not have the host. -/
def aggregate : Installed :=
  Dict.ofList [((1, "10.0.0.2"), 2), ((2, "10.0.0.0/24"), 2), ((2, "10.0.0.64/26"), 1),
    ((4, "10.0.0.2"), 1)]

theorem installedPath_iff_reaches_twoWays :
    ∃ bytes answer, Ipv4.pton "10.0.0.2" = some bytes ∧
      installedPath (grow twoWays) aggregate h1 h2 [] = .ok answer ∧
      ∀ path, answer = some path ↔ ∃ dpid hdpid rest,
        (grow twoWays).Adj h1 (.switch dpid hdpid) ∧
        Reaches (grow twoWays) aggregate [] (Ipv4.ofBytes bytes) h2 (.switch dpid hdpid) rest ∧
        rest.Nodup ∧ path = h1 :: rest := by
  have hkeys : CanonicalKeys aggregate := by
    have hall : aggregate.keys = [(1, "10.0.0.2"), (2, "10.0.0.0/24"), (2, "10.0.0.64/26"),
        (4, "10.0.0.2")] := by
      decide +kernel
    intro k hk
    rw [hall] at hk
    simp only [List.mem_cons, List.not_mem_nil, or_false] at hk
    rcases hk with rfl | rfl | rfl | rfl <;> decide
  have hwired : Wired (grow twoWays) :=
    ⟨cabled_twoWays.attached, cabled_twoWays.address, cabled_twoWays.ports⟩
  exact installedPath_iff_reaches hwired [] hkeys (by decide +kernel) (by decide +kernel) (by decide)

end NDTwin.Topology
