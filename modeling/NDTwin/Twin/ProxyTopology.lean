import Mathlib.Algebra.Group.Nat.Defs
import NDTwin.Topology.InstalledPath
import NDTwin.Twin.Declarations
import NDTwin.Twin.PowerOff

/-!
# The topology that the proxy serves

The proxy answers the twin's polls in the shape of another controller: dpids and ports as texts of
hexadecimal digits, one entry for each direction of a link, and nothing of a link whose source the
watchdog believes down.  The twin reads the texts back, looks the edge up by the dpid and the port of
its source, and lifts what it finds.

## Main definitions

* `renderSwitches`, `renderHosts`, `renderLinks` — the three answers.
* `ProxyLink`, `ProxyHost` — what the answers list, in terms of the proxy's own graph.
* `Discovered` — the twin's graph after a poll of the proxy.

## Main results

* `tryParseHexUint64_dpidHex`, `portStringToUint_portHex` — the texts are read back.
* `edge_mem_linkTargets`, `vertex_mem_switchTargets` — what the entries of an answer name.
* `discovered_edge` — **of the edges between switches, a poll lifts exactly those whose link the
  proxy has and does not believe down.**
* `discovered_vertex` — **a poll lifts exactly the switches that the proxy has a session with, and
  what its hosts are looked up as.**
-/

namespace NDTwin.Twin

open Json Topology

/-! ### The answers -/

section Render

/-- `_dpid_hex(dpid)`. -/
def dpidHex (dpid : ℕ) : String := String.ofList (CText.hexText 16 dpid)

/-- `_port_hex(port)`. -/
def portHex (port : ℕ) : String := String.ofList (CText.hexText 8 port)

variable {F : Type*}

/-- `_port_endpoint(dpid, port, mac)`. -/
def portEndpoint (dpid port : ℕ) (mac : Option String) : Json F :=
  .obj (("dpid", .str (dpidHex dpid)) :: ("port_no", .str (portHex port)) ::
    ("name", .str ("s" ++ toString dpid ++ "-eth" ++ toString port)) ::
    (mac.map fun addr => ("hw_addr", Json.str addr)).toList)

/-- An entry of `render_switches`. -/
def switchAnswer (dpid : ℕ) : Json F :=
  .obj [("dpid", .str (dpidHex dpid)), ("ports", .arr [])]

/-- `render_switches(switch_dpids)`. -/
def renderSwitches (dpids : List ℕ) : Json F :=
  .arr ((dpids.mergeSort fun a b => decide (a ≤ b)).map switchAnswer)

/-- An entry of `render_links`: an edge between two switches that is not down at its source. -/
def linkAnswer (t : Net) (down : List (Node × ℕ)) (e : (Node × Node) × ℕ) : Option (Json F) :=
  match e.1.1, e.1.2 with
  | .switch src _, .switch dst _ =>
    if !t.typed e.1.1 || !t.typed e.1.2 then none
    else if down.contains (e.1.1, e.2) then none
    else
      some (.obj [("src", portEndpoint src e.2 none),
        ("dst", portEndpoint dst ((t.graph.edgeData e.1.2 e.1.1).getD 0) none)])
  | _, _ => none

/-- `render_links(net, down_endpoints)`. -/
def renderLinks (t : Net) (down : List (Node × ℕ)) : Json F :=
  .arr (t.graph.edges.filterMap (linkAnswer t down))

/-- The first switch that a host is attached to, and its port to the host. -/
def attachment (t : Net) (node : Node) : Option (ℕ × ℕ) :=
  (t.graph.predecessors node).findSome? fun neighbour =>
    match neighbour with
    | .switch dpid _ =>
      if t.typed neighbour then some (dpid, (t.graph.edgeData neighbour node).getD 0) else none
    | .host _ _ => none

/-- An entry of `render_hosts`: a host with a mac that is attached to a switch. -/
def hostAnswer (t : Net) (node : Node) : Option (Json F) :=
  match node with
  | .host ip _ =>
    if !t.typed node then none
    else
      match t.mac node, attachment t node with
      | some mac, some (dpid, port) =>
        if mac = "" then none
        else some (.obj [("mac", .str mac), ("ipv4", .arr [.str ip]), ("ipv6", .arr []),
          ("port", portEndpoint dpid port (some mac))])
      | _, _ => none
  | .switch _ _ => none

/-- `render_hosts(net)`. -/
def renderHosts (t : Net) : Json F := .arr (t.graph.nodes.filterMap (hostAnswer t))

/-- The twin's graph after a poll of the proxy, which has sessions with the switches `dpids`. -/
def Discovered (F : Type*) (g : Graph) (t : Net) (dpids : List ℕ) (down : List (Node × ℕ)) : Graph :=
  discover g (some (renderSwitches dpids : Json F)) (some (renderHosts t)) (some (renderLinks t down))

end Render

/-! ### What the answers list -/

/-- A link between switches that the proxy lists, from a switch by a port. -/
def ProxyLink (t : Net) (down : List (Node × ℕ)) (src dst port : ℕ) : Prop :=
  ∃ hsrc hdst, ((Node.switch src hsrc, Node.switch dst hdst), port) ∈ t.graph.edges ∧
    t.typed (.switch src hsrc) = true ∧ t.typed (.switch dst hdst) = true ∧
    (Node.switch src hsrc, port) ∉ down

/-- A host that the proxy lists, with its mac. -/
def ProxyHost (t : Net) (mac : String) : Prop :=
  ∃ ip hip, Node.host ip hip ∈ t.graph.nodes ∧ t.typed (.host ip hip) = true ∧
    t.mac (.host ip hip) = some mac ∧ mac ≠ "" ∧ (attachment t (.host ip hip)).isSome = true

/-! ### Texts -/

theorem tryParseHexUint64_dpidHex {dpid : ℕ} (h : dpid < 2 ^ 64) :
    tryParseHexUint64 (dpidHex dpid) = some dpid := by
  have hempty : dpidHex dpid ≠ "" := by
    intro hnil
    refine CText.hexText_ne_nil 16 dpid ?_
    simpa [dpidHex] using congrArg String.toList hnil
  have hdigits : (dpidHex dpid).toList.all (CText.isDigitOf 16) = true := by
    rw [List.all_eq_true, dpidHex, String.toList_ofList]
    intro c hc
    exact CText.isDigitOf_of_mem_hexText hc
  rw [tryParseHexUint64, if_neg (by simp [hempty, hdigits]), dpidHex, String.toList_ofList,
    CText.stoull_hexText 16 h]
  simp only [BitVec.toNat_ofNat, Nat.mod_eq_of_lt h]

theorem portStringToUint_portHex {port : ℕ} (h : port < 2 ^ 32) :
    portStringToUint (portHex port) = port := by
  have hlt : port < 2 ^ 64 := h.trans (by decide)
  rw [portStringToUint, portHex, String.toList_ofList, CText.stoull_hexText 8 hlt]
  simp only [BitVec.toNat_ofNat, Nat.mod_eq_of_lt hlt, Nat.mod_eq_of_lt h]

section Entries

variable {F : Type*}

theorem readSwitch_switchAnswer {dpid : ℕ} (h : dpid < 2 ^ 64) :
    readSwitch (switchAnswer dpid : Json F) = .ok (some dpid) := by
  have hread : readSwitch (switchAnswer dpid : Json F) = .ok (tryParseHexUint64 (dpidHex dpid)) :=
    rfl
  rw [hread, tryParseHexUint64_dpidHex h]

theorem valueString_portEndpoint (dpid port : ℕ) (mac : Option String) :
    valueString (portEndpoint dpid port mac : Json F) "dpid" = .ok (dpidHex dpid) ∧
      valueString (portEndpoint dpid port mac : Json F) "port_no" = .ok (portHex port) :=
  ⟨rfl, rfl⟩

/-- What is read of an entry of the links is what it was made from. -/
theorem readLink_endpoints {src srcPort dst dstPort : ℕ} (hsrc : src < 2 ^ 64) (hdst : dst < 2 ^ 64)
    (hport : srcPort < 2 ^ 32) :
    readLink (.obj [("src", portEndpoint src srcPort none),
      ("dst", portEndpoint dst dstPort none)] : Json F) = .ok (some ⟨src, srcPort, dst⟩) := by
  have hfound : (.obj [("src", portEndpoint src srcPort none),
      ("dst", portEndpoint dst dstPort none)] : Json F).find "src" =
        some (portEndpoint src srcPort none) ∧
      (.obj [("src", portEndpoint src srcPort none),
        ("dst", portEndpoint dst dstPort none)] : Json F).find "dst" =
        some (portEndpoint dst dstPort none) := ⟨rfl, rfl⟩
  simp only [readLink, hfound.1, hfound.2, valueString_portEndpoint, bind, Except.bind, pure,
    Except.pure, tryParseHexUint64_dpidHex hsrc, tryParseHexUint64_dpidHex hdst,
    portStringToUint_portHex hport]

/-- What is read of an entry of the hosts, none of which throws. -/
theorem read_hostEntry (mac ip : String) (dpid port : ℕ) :
    readHostMac (.obj [("mac", .str mac), ("ipv4", .arr [.str ip]), ("ipv6", .arr []),
        ("port", portEndpoint dpid port (some mac))] : Json F) = .ok (tryMacToUint64 mac) ∧
      ∀ g, hostThrows g (.obj [("mac", .str mac), ("ipv4", .arr [.str ip]), ("ipv6", .arr []),
        ("port", portEndpoint dpid port (some mac))] : Json F) = false := by
  have hmac : readHostMac (.obj [("mac", .str mac), ("ipv4", .arr [.str ip]), ("ipv6", .arr []),
      ("port", portEndpoint dpid port (some mac))] : Json F) = .ok (tryMacToUint64 mac) := rfl
  have hip : readHostIp (.obj [("mac", .str mac), ("ipv4", .arr [.str ip]), ("ipv6", .arr []),
      ("port", portEndpoint dpid port (some mac))] : Json F) = .ok (tryIpStringToUint32 ip) := rfl
  have hattached : readHostAttachment (.obj [("mac", .str mac), ("ipv4", .arr [.str ip]),
      ("ipv6", .arr []), ("port", portEndpoint dpid port (some mac))] : Json F) =
      .ok (tryParseHexUint64 (dpidHex dpid)) := rfl
  refine ⟨hmac, ?_⟩
  intro g
  rw [hostThrows, hmac]
  cases tryMacToUint64 mac with
  | none => rfl
  | some m =>
    simp only [hip]
    cases tryIpStringToUint32 ip with
    | none => rfl
    | some addr => simp [hattached, Except.isOk, Except.toBool]

/-! ### What the entries name -/

/-- A loop that no entry leaves reaches them all. -/
theorem reached_eq_self {α : Type*} {throws : α → Bool} {as : List α}
    (h : ∀ a ∈ as, throws a = false) : reached throws as = as := by
  induction as with
  | nil => rfl
  | cons a as ih =>
    rw [reached, h a List.mem_cons_self, if_neg Bool.false_ne_true,
      ih fun b hb => h b (List.mem_cons_of_mem _ hb)]

theorem linkAnswer_eq_some {t : Net} {down : List (Node × ℕ)} {e : (Node × Node) × ℕ}
    {entry : Json F} (h : linkAnswer t down e = some entry) :
    ∃ src dst hsrc hdst, e.1 = (Node.switch src hsrc, Node.switch dst hdst) ∧
      t.typed (.switch src hsrc) = true ∧ t.typed (.switch dst hdst) = true ∧
      (Node.switch src hsrc, e.2) ∉ down ∧
      entry = .obj [("src", portEndpoint src e.2 none),
        ("dst", portEndpoint dst ((t.graph.edgeData e.1.2 e.1.1).getD 0) none)] := by
  obtain ⟨⟨u, w⟩, port⟩ := e
  cases u with
  | host ip hip => simp [linkAnswer] at h
  | switch src hsrc =>
    cases w with
    | host ip hip => simp [linkAnswer] at h
    | switch dst hdst =>
      simp only [linkAnswer] at h
      split at h
      · cases h
      · rename_i htyped
        split at h <;> cases h
        rename_i hup
        have hboth : t.typed (.switch src hsrc) = true ∧ t.typed (.switch dst hdst) = true := by
          simpa using htyped
        exact ⟨src, dst, hsrc, hdst, rfl, hboth.1, hboth.2, by simpa using hup, rfl⟩

/-- The proxy's ports fit the twin's. -/
def PortsFit (t : Net) : Prop := ∀ e ∈ t.graph.edges, e.2 < 2 ^ 32

/-- **The edges that the entries of the links name.** -/
theorem edge_mem_linkTargets {t : Net} (hports : PortsFit t) (g : Graph) (down : List (Node × ℕ))
    (d : ℕ × ℕ) :
    .edge d ∈ (t.graph.edges.filterMap (linkAnswer (F := F) t down)).flatMap (linkTargets g) ↔
      ∃ src dst port, ProxyLink t down src dst port ∧ (findSwitchByDpid g src).isSome = true ∧
        (findSwitchByDpid g dst).isSome = true ∧
        (findEdgeByDpidAndPort g src port).map Edge.ends = some d := by
  have hentry : ∀ {e entry}, e ∈ t.graph.edges → linkAnswer (F := F) t down e = some entry →
      ∃ src dst, ProxyLink t down src dst e.2 ∧ readLink entry = .ok (some ⟨src, e.2, dst⟩) := by
    intro e entry he h
    obtain ⟨src, dst, hsrc, hdst, hends, hsrctyped, hdsttyped, hup, rfl⟩ := linkAnswer_eq_some h
    obtain ⟨ends, port⟩ := e
    obtain rfl : ends = _ := hends
    exact ⟨src, dst, ⟨hsrc, hdst, he, hsrctyped, hdsttyped, hup⟩,
      readLink_endpoints hsrc hdst (hports _ he)⟩
  have htargets : ∀ {entry : Json F} {src dst port : ℕ},
      readLink entry = .ok (some ⟨src, port, dst⟩) →
      (.edge d ∈ linkTargets g entry ↔ (findSwitchByDpid g src).isSome = true ∧
        (findSwitchByDpid g dst).isSome = true ∧
        (findEdgeByDpidAndPort g src port).map Edge.ends = some d) := by
    intro entry src dst port hread
    simp only [linkTargets, hread]
    cases findSwitchByDpid g src with
    | none => simp
    | some v =>
      cases findSwitchByDpid g dst with
      | none => simp
      | some w => simp
  rw [List.mem_flatMap]
  constructor
  · rintro ⟨entry, hmem, hd⟩
    obtain ⟨e, he, hanswer⟩ := List.mem_filterMap.mp hmem
    obtain ⟨src, dst, hlink, hread⟩ := hentry he hanswer
    exact ⟨src, dst, e.2, hlink, (htargets hread).mp hd⟩
  · rintro ⟨src, dst, port, ⟨hsrc, hdst, he, hsrctyped, hdsttyped, hup⟩, hknown⟩
    have hanswer : linkAnswer (F := F) t down
        ((Node.switch src hsrc, Node.switch dst hdst), port) =
        some (.obj [("src", portEndpoint src port none), ("dst", portEndpoint dst
          ((t.graph.edgeData (.switch dst hdst) (.switch src hsrc)).getD 0) none)]) := by
      simp [linkAnswer, hsrctyped, hdsttyped, hup]
    refine ⟨_, List.mem_filterMap.mpr ⟨_, he, hanswer⟩, (htargets ?_).mpr hknown⟩
    exact readLink_endpoints hsrc hdst (hports _ he)

theorem linkThrows_linkAnswer {t : Net} (hports : PortsFit t) {down : List (Node × ℕ)}
    {entry : Json F} (h : entry ∈ t.graph.edges.filterMap (linkAnswer t down)) :
    linkThrows entry = false := by
  obtain ⟨e, he, hanswer⟩ := List.mem_filterMap.mp h
  obtain ⟨src, dst, hsrc, hdst, -, -, -, -, rfl⟩ := linkAnswer_eq_some hanswer
  rw [linkThrows, readLink_endpoints hsrc hdst (hports e he)]
  rfl

/-- **The vertices that the entries of the switches name.** -/
theorem vertex_mem_switchTargets (g : Graph) {dpids : List ℕ} (hdpids : ∀ d ∈ dpids, d < 2 ^ 64)
    (v : ℕ) :
    .vertex v ∈ ((dpids.mergeSort fun a b => decide (a ≤ b)).map
        (switchAnswer (F := F))).flatMap (switchTargets g) ↔
      ∃ dpid ∈ dpids, findSwitchByDpid g dpid = some v := by
  rw [List.mem_flatMap]
  constructor
  · rintro ⟨entry, hmem, hv⟩
    obtain ⟨dpid, hdpid, rfl⟩ := List.mem_map.mp hmem
    rw [List.mem_mergeSort] at hdpid
    refine ⟨dpid, hdpid, ?_⟩
    simpa [switchTargets, readSwitch_switchAnswer (hdpids dpid hdpid)] using hv
  · rintro ⟨dpid, hdpid, hv⟩
    refine ⟨switchAnswer dpid, List.mem_map_of_mem (List.mem_mergeSort.mpr hdpid), ?_⟩
    simp [switchTargets, readSwitch_switchAnswer (hdpids dpid hdpid), hv]

theorem switchThrows_switchAnswer {dpids : List ℕ} (hdpids : ∀ d ∈ dpids, d < 2 ^ 64)
    {entry : Json F}
    (h : entry ∈ (dpids.mergeSort fun a b => decide (a ≤ b)).map (switchAnswer (F := F))) :
    switchThrows entry = false := by
  obtain ⟨dpid, hdpid, rfl⟩ := List.mem_map.mp h
  rw [List.mem_mergeSort] at hdpid
  rw [switchThrows, readSwitch_switchAnswer (hdpids dpid hdpid)]
  rfl

theorem hostAnswer_eq_some {t : Net} {node : Node} {entry : Json F} :
    hostAnswer t node = some entry ↔ ∃ ip hip mac dpid port, node = .host ip hip ∧
      t.typed node = true ∧ t.mac node = some mac ∧ attachment t node = some (dpid, port) ∧
      mac ≠ "" ∧ entry = .obj [("mac", .str mac), ("ipv4", .arr [.str ip]), ("ipv6", .arr []),
        ("port", portEndpoint dpid port (some mac))] := by
  constructor
  · intro h
    cases node with
    | switch dpid hdpid => simp [hostAnswer] at h
    | host ip hip =>
      rw [hostAnswer] at h
      split at h
      · cases h
      rename_i htyped
      cases hmac : t.mac (.host ip hip) with
      | none => simp [hmac] at h
      | some mac =>
        cases hattached : attachment t (.host ip hip) with
        | none => simp [hmac, hattached] at h
        | some at_ =>
          simp only [hmac, hattached] at h
          split at h <;> cases h
          rename_i hne
          exact ⟨ip, hip, mac, at_.1, at_.2, rfl, by simpa using htyped, rfl, rfl, hne, rfl⟩
  · rintro ⟨ip, hip, mac, dpid, port, rfl, htyped, hmac, hattached, hne, rfl⟩
    simp [hostAnswer, htyped, hmac, hattached, hne]

/-- **The vertices that the entries of the hosts name.** -/
theorem namesByMac_renderHosts (g : Graph) (t : Net) (v : ℕ) :
    NamesByMac g v (some (renderHosts t : Json F)) ↔
      ∃ mac, ProxyHost t mac ∧ ∃ m, tryMacToUint64 mac = some m ∧ findVertexByMac g m = some v := by
  have hthrows : ∀ entry ∈ t.graph.nodes.filterMap (hostAnswer (F := F) t),
      hostThrows g entry = false := by
    intro entry h
    obtain ⟨node, -, hanswer⟩ := List.mem_filterMap.mp h
    obtain ⟨ip, hip, mac, dpid, port, -, -, -, -, -, rfl⟩ := hostAnswer_eq_some.mp hanswer
    exact (read_hostEntry mac ip dpid port).2 g
  have hreached : reached (hostThrows g) (renderHosts t : Json F).elements =
      t.graph.nodes.filterMap (hostAnswer t) := reached_eq_self hthrows
  constructor
  · rintro ⟨answer, hanswer, entry, hentry, m, hm, hv⟩
    obtain rfl := Option.some.inj hanswer
    rw [hreached] at hentry
    obtain ⟨node, hnode, hrendered⟩ := List.mem_filterMap.mp hentry
    obtain ⟨ip, hip, mac, dpid, port, rfl, htyped, hmac, hattached, hne, rfl⟩ :=
      hostAnswer_eq_some.mp hrendered
    rw [(read_hostEntry mac ip dpid port).1] at hm
    exact ⟨mac, ⟨ip, hip, hnode, htyped, hmac, hne, by simp [hattached]⟩, m, Except.ok.inj hm, hv⟩
  · rintro ⟨mac, ⟨ip, hip, hnode, htyped, hmac, hne, hattached⟩, m, hm, hv⟩
    obtain ⟨⟨dpid, port⟩, hat⟩ := Option.isSome_iff_exists.mp hattached
    refine ⟨renderHosts t, rfl, .obj [("mac", .str mac), ("ipv4", .arr [.str ip]),
      ("ipv6", .arr []), ("port", portEndpoint dpid port (some mac))], ?_, m, ?_, hv⟩
    · rw [hreached]
      exact List.mem_filterMap.mpr ⟨_, hnode, hostAnswer_eq_some.mpr
        ⟨ip, hip, mac, dpid, port, rfl, htyped, hmac, hat, hne, rfl⟩⟩
    · rw [(read_hostEntry mac ip dpid port).1, hm]

/-! ### A poll of the proxy -/

/-- The proxy lists the link of an edge, between two switches that the twin knows. -/
def ListsEdge (g : Graph) (t : Net) (down : List (Node × ℕ)) (e : Edge) : Prop :=
  ∃ dst, ProxyLink t down e.props.srcDpid dst e.props.srcInterface ∧
    (findSwitchByDpid g e.props.srcDpid).isSome = true ∧ (findSwitchByDpid g dst).isSome = true ∧
    (findEdgeByDpidAndPort g e.props.srcDpid e.props.srcInterface).map Edge.ends = some e.ends

/-- The entries of the links name an edge exactly when the proxy lists its link. -/
theorem edge_mem_linkTargets_iff {t : Net} (hports : PortsFit t) {g : Graph}
    (down : List (Node × ℕ)) {e : Edge} (he : e ∈ g.edges) :
    .edge e.ends ∈
        (t.graph.edges.filterMap (linkAnswer (F := F) t down)).flatMap (linkTargets g) ↔
      ListsEdge g t down e := by
  rw [edge_mem_linkTargets hports]
  constructor
  · rintro ⟨src, dst, port, hlink, hsrc, hdst, hfound⟩
    obtain ⟨e', hfind, hends⟩ := Option.map_eq_some_iff.mp hfound
    -- no two edges have the same ends, so the one that is found is this one
    have hprops : e'.props = e.props := by
      have hedge := Graph.edge_of_mem (List.mem_of_find?_eq_some hfind)
      rw [hends, Graph.edge_of_mem he] at hedge
      exact (Option.some.inj hedge).symm
    obtain ⟨rfl, rfl⟩ : e.props.srcDpid = src ∧ e.props.srcInterface = port := by
      simpa [hprops] using List.find?_some hfind
    exact ⟨dst, hlink, hsrc, hdst, hfound⟩
  · rintro ⟨dst, hlink, hsrc, hdst, hfound⟩
    exact ⟨_, dst, _, hlink, hsrc, hdst, hfound⟩

end Entries

/-- **What a poll of the proxy makes of an edge between switches**: it is lifted exactly when the
proxy lists its link, and it is lifted up unless it was declared down. -/
theorem discovered_edge (F : Type*) (g : Graph) (t : Net) (hports : PortsFit t) (dpids : List ℕ)
    (down : List (Node × ℕ)) (e : Edge) (he : e ∈ g.edges) (hsrc : e.props.srcDpid ≠ 0)
    (hdst : e.props.dstDpid ≠ 0) :
    ∃ p, (Discovered F g t dpids down).edge e.ends = some p ∧
      { p with isUp := e.props.isUp, isEnabled := e.props.isEnabled } = e.props ∧
      (p.isEnabled = true ↔ e.props.isEnabled = true ∨ ListsEdge g t down e) ∧
      (p.isUp = true ↔ e.props.isUp = true ∨
        (ListsEdge g t down e ∧ e.props.declaredDown = false)) := by
  -- the switches change no edge
  have hswitches : updateSwitches g (some (renderSwitches dpids : Json F)) = switchLift.apply g
      ((reached switchThrows (renderSwitches dpids : Json F).elements).flatMap (switchTargets g)) :=
    switchKind.ingest_eq g _
  generalize (reached switchThrows (renderSwitches dpids : Json F).elements).flatMap
    (switchTargets g) = ts₁ at hswitches
  have hedge₁ : (switchLift.apply g ts₁).edge e.ends = some e.props := by
    rw [Lift.edge_apply, Graph.edge_of_mem he]
    simp [switchLift]
  -- the hosts change none between switches
  have hhosts : updateHosts (switchLift.apply g ts₁) (some (renderHosts t : Json F)) =
      hostLift.apply (switchLift.apply g ts₁)
        ((reached (hostThrows (switchLift.apply g ts₁)) (renderHosts t : Json F).elements).flatMap
          (hostTargets (switchLift.apply g ts₁))) :=
    hostKind.ingest_eq _ _
  have hnot : .edge e.ends ∉
      (reached (hostThrows (switchLift.apply g ts₁)) (renderHosts t : Json F).elements).flatMap
        (hostTargets (switchLift.apply g ts₁)) := by
    intro hmem
    obtain ⟨entry, -, hentry⟩ := List.mem_flatMap.mp hmem
    obtain ⟨p, hp, hzero⟩ := host_of_mem_hostTargets hentry
    rw [hedge₁] at hp
    rw [← Option.some.inj hp] at hzero
    exact hzero.elim hsrc hdst
  generalize (reached (hostThrows (switchLift.apply g ts₁))
    (renderHosts t : Json F).elements).flatMap (hostTargets (switchLift.apply g ts₁)) = ts₂
    at hhosts hnot
  have hedge₂ : (hostLift.apply (switchLift.apply g ts₁) ts₂).edge e.ends = some e.props := by
    rw [Lift.edge_apply, hedge₁]
    simp [hnot]
  -- and the links change those that are listed
  have hlinks : Discovered F g t dpids down =
      linkLift.apply (hostLift.apply (switchLift.apply g ts₁) ts₂)
        ((t.graph.edges.filterMap (linkAnswer (F := F) t down)).flatMap
          (linkTargets (hostLift.apply (switchLift.apply g ts₁) ts₂))) := by
    rw [Discovered, discover, hswitches, hhosts]
    refine (linkKind.ingest_eq _ _).trans ?_
    have hreached : reached linkThrows (renderLinks t down : Json F).elements =
        t.graph.edges.filterMap (linkAnswer t down) :=
      reached_eq_self fun entry hentry => linkThrows_linkAnswer hports hentry
    exact congrArg (fun entries => linkLift.apply _ (List.flatMap _ entries)) hreached
  have hlisted : .edge e.ends ∈ (t.graph.edges.filterMap (linkAnswer (F := F) t down)).flatMap
      (linkTargets (hostLift.apply (switchLift.apply g ts₁) ts₂)) ↔ ListsEdge g t down e := by
    rw [← edge_mem_linkTargets_iff (F := F) hports down he, edge_mem_linkTargets hports,
      edge_mem_linkTargets hports]
    simp only [Lift.findSwitchByDpid_apply, linkEdge_apply]
  rw [hlinks, Lift.edge_apply, hedge₂, Option.map_some]
  by_cases h : ListsEdge g t down e
  · refine ⟨linkLift.onEdge e.props, by rw [if_pos (hlisted.mpr h)], ?_⟩
    simp [h, linkLift, or_comm]
  · refine ⟨e.props, by rw [if_neg fun hmem => h (hlisted.mp hmem)], ?_⟩
    simp [h]

/-- Two switches and the link between them, which no poll has lifted yet. -/
def darkLink : Graph :=
  deadPair.mapEdges fun e =>
    { e.props with srcInterface := 2, isUp := false, isEnabled := false }

/-- The edge of that link. -/
def darkEdge : Edge :=
  ⟨0, 1, { srcDpid := 1, srcInterface := 2, dstDpid := 2, dstInterface := 1, isUp := false,
           isEnabled := false }⟩

theorem portsFit_twoWaysNet : PortsFit twoWaysNet := by
  unfold PortsFit
  decide +kernel

theorem discovered_edge_darkLink :
    ∃ p, (Discovered Empty darkLink twoWaysNet [1, 2] []).edge (0, 1) = some p ∧
      { p with isUp := false, isEnabled := false } = darkEdge.props ∧
      (p.isEnabled = true ↔ false = true ∨ ListsEdge darkLink twoWaysNet [] darkEdge) ∧
      (p.isUp = true ↔ false = true ∨
        (ListsEdge darkLink twoWaysNet [] darkEdge ∧ darkEdge.props.declaredDown = false)) :=
  discovered_edge Empty darkLink twoWaysNet portsFit_twoWaysNet [1, 2] [] darkEdge (by decide)
    (by decide) (by decide)

/-- **What a poll of the proxy makes of a vertex**: it is lifted exactly when the proxy has a session
with a switch that is looked up as this one, or lists a host with a mac that is; and a switch that
was powered off by command is lifted up by no session. -/
theorem discovered_vertex (F : Type*) (g : Graph) (t : Net) (dpids : List ℕ)
    (hdpids : ∀ d ∈ dpids, d < 2 ^ 64) (down : List (Node × ℕ)) (v : ℕ) (p : VertexProperties)
    (hp : g.vertex v = some p) :
    ∃ q, (Discovered F g t dpids down).vertex v = some q ∧
      { q with isUp := p.isUp, isEnabled := p.isEnabled } = p ∧
      (q.isEnabled = true ↔ p.isEnabled = true ∨
        (∃ dpid ∈ dpids, findSwitchByDpid g dpid = some v) ∨
        ∃ mac, ProxyHost t mac ∧ ∃ m, tryMacToUint64 mac = some m ∧
          findVertexByMac g m = some v) ∧
      (q.isUp = true ↔ p.isUp = true ∨
        ((∃ dpid ∈ dpids, findSwitchByDpid g dpid = some v) ∧ p.adminPoweredOff = false) ∨
        ∃ mac, ProxyHost t mac ∧ ∃ m, tryMacToUint64 mac = some m ∧
          findVertexByMac g m = some v) := by
  have hkeys : SameKeys g (updateSwitches g (some (renderSwitches dpids : Json F))) :=
    .updateFrom switchKind g _
  have hreached : reached (fun entry => switchThrows entry)
      (renderSwitches dpids : Json F).elements =
      (dpids.mergeSort fun a b => decide (a ≤ b)).map switchAnswer :=
    reached_eq_self fun entry hentry => switchThrows_switchAnswer hdpids hentry
  have hlisted : (∃ dpid ∈ dpids, findSwitchByDpid g dpid = some v) ↔
      switchKind.Reaches g v (some (renderSwitches dpids : Json F)) := by
    rw [← vertex_mem_switchTargets (F := F) g hdpids v, ← hreached]
    simp [EntryKind.Reaches, List.mem_flatMap, switchKind]
  have hnamed : (∃ mac, ProxyHost t mac ∧ ∃ m, tryMacToUint64 mac = some m ∧
        findVertexByMac g m = some v) ↔
      hostKind.Reaches (updateSwitches g (some (renderSwitches dpids : Json F))) v
        (some (renderHosts t : Json F)) := by
    rw [hostKind_reaches_iff, hkeys.namesByMac_iff, namesByMac_renderHosts]
  have hlinks : ∀ (g' : Graph) {q : VertexProperties}, g'.vertex v = some q →
      (updateLinks g' (some (renderLinks t down : Json F))).vertex v = some q := by
    intro g' q hq
    rcases linkKind.vertex_updateFrom (some (renderLinks t down : Json F)) hq with h | h
    · exact h.2
    · exact h.2
  obtain ⟨p₁, hp₁, hswitch⟩ : ∃ p₁,
      (updateSwitches g (some (renderSwitches dpids : Json F))).vertex v = some p₁ ∧
      ((switchKind.Reaches g v (some (renderSwitches dpids : Json F)) ∧ p₁ = switchLift.onVertex p) ∨
        (¬ switchKind.Reaches g v (some (renderSwitches dpids : Json F)) ∧ p₁ = p)) := by
    rcases switchKind.vertex_updateFrom (some (renderSwitches dpids : Json F)) hp with h | h
    · exact ⟨_, h.2, .inl ⟨h.1, rfl⟩⟩
    · exact ⟨_, h.2, .inr ⟨h.1, rfl⟩⟩
  obtain ⟨q, hq, hhost⟩ : ∃ q, (updateHosts (updateSwitches g
        (some (renderSwitches dpids : Json F))) (some (renderHosts t : Json F))).vertex v = some q ∧
      ((hostKind.Reaches (updateSwitches g (some (renderSwitches dpids : Json F))) v
          (some (renderHosts t : Json F)) ∧ q = hostLift.onVertex p₁) ∨
        (¬ hostKind.Reaches (updateSwitches g (some (renderSwitches dpids : Json F))) v
          (some (renderHosts t : Json F)) ∧ q = p₁)) := by
    rcases hostKind.vertex_updateFrom (some (renderHosts t : Json F)) hp₁ with h | h
    · exact ⟨_, h.2, .inl ⟨h.1, rfl⟩⟩
    · exact ⟨_, h.2, .inr ⟨h.1, rfl⟩⟩
  refine ⟨q, hlinks _ hq, ?_⟩
  rw [hlisted, hnamed]
  rcases hhost with ⟨hh, rfl⟩ | ⟨hh, rfl⟩
  · rcases hswitch with ⟨hs, rfl⟩ | ⟨hs, rfl⟩
    · simp [hh, hostLift, switchLift]
    · simp [hh, hostLift]
  · rcases hswitch with ⟨hs, rfl⟩ | ⟨hs, rfl⟩
    · simp [hs, hh, switchLift, or_comm]
    · simp [hs, hh]

theorem discovered_vertex_darkLink :
    ∃ q, (Discovered Empty darkLink twoWaysNet [1, 2] []).vertex 0 = some q ∧
      { q with isUp := false, isEnabled := true } =
        { vertexType := .switch, dpid := 1, isUp := false } ∧
      (q.isEnabled = true ↔ true = true ∨
        (∃ dpid ∈ [1, 2], findSwitchByDpid darkLink dpid = some 0) ∨
        ∃ mac, ProxyHost twoWaysNet mac ∧ ∃ m, tryMacToUint64 mac = some m ∧
          findVertexByMac darkLink m = some 0) ∧
      (q.isUp = true ↔ false = true ∨
        ((∃ dpid ∈ [1, 2], findSwitchByDpid darkLink dpid = some 0) ∧ false = false) ∨
        ∃ mac, ProxyHost twoWaysNet mac ∧ ∃ m, tryMacToUint64 mac = some m ∧
          findVertexByMac darkLink m = some 0) :=
  discovered_vertex Empty darkLink twoWaysNet [1, 2] (by decide) [] 0
    { vertexType := .switch, dpid := 1, isUp := false } (by decide)

end NDTwin.Twin
