import NDTwin.Lib.CText
import NDTwin.Lib.Ipv4
import NDTwin.Lib.JsonAccess
import NDTwin.Twin.Graph

/-!
# What discovery says

The control plane is asked for its switches, hosts and links, and answers each with an array of
entries.  An entry lifts the flags of what it names.  A field that cannot be parsed costs its entry;
a field of another type throws, out of the loop over the entries.

## Main definitions

* `tryParseHexUint64`, `tryMacToUint64`, `tryIpStringToUint32`, `portStringToUint` — the fields.
* `updateSwitch`, `updateHost`, `updateLink` — one entry.
* `updateSwitches`, `updateHosts`, `updateLinks` — a whole answer.

## Main results

* `ingest_eq_iff` — when a loop that an entry may leave does what the entries do one by one.
* `update_entrywise_iff` — **a malformed entry costs only itself exactly when it does not throw, or
  nothing is left for the entries after it to do.**
* `updateSwitches_not_entrywise` — an entry that is no object costs the switch after it.
-/

namespace NDTwin.Twin

open Json

/-! ### Fields -/

/-- `tryParseHexUint64(text)`. -/
def tryParseHexUint64 (text : String) : Option ℕ :=
  if text = "" || !text.toList.all (CText.isDigitOf 16) then none
  else
    match CText.stoull 16 text.toList with
    | .ok value => some value.toNat
    | .error _ => none

/-- The pairs of hexadecimal digits of an address, between separators. -/
def macBytes : List Char → Option (List ℕ)
  | [a, b] =>
    if CText.isDigitOf 16 a && CText.isDigitOf 16 b then
      some [CText.digitValue a * 16 + CText.digitValue b]
    else none
  | a :: b :: sep :: rest =>
    if CText.isDigitOf 16 a && CText.isDigitOf 16 b && (sep = ':' || sep = '-') then
      (macBytes rest).map ((CText.digitValue a * 16 + CText.digitValue b) :: ·)
    else none
  | _ => none

/-- `tryMacToUint64(mac)`. -/
def tryMacToUint64 (mac : String) : Option ℕ :=
  if mac.toList.length ≠ 17 then none else (macBytes mac.toList).map Ipv4.ofBytes

/-- `tryIpStringToUint32(ipStr)`, whose bytes are in network order. -/
def tryIpStringToUint32 (ipStr : String) : Option ℕ :=
  if ipStr = "" then none
  else (Ipv4.aton (String.ofList (CText.cStr ipStr.toList))).map fun bytes =>
    Ipv4.ofBytes bytes.reverse

/-- `portStringToUint(portStr)`: zero for what is not a number. -/
def portStringToUint (portStr : String) : ℕ :=
  match CText.stoull 16 portStr.toList with
  | .ok value => value.toNat % 2 ^ 32
  | .error _ => 0

/-! ### One entry -/

variable {F : Type*}

/-- The flags of a vertex that discovery has seen. -/
def markVertexUp (g : Graph) (v : ℕ) : Graph :=
  g.setVertex v fun p => { p with isUp := true, isEnabled := true }

/-- The flags of an edge that discovery has seen. -/
def markEdgeUp (g : Graph) (e : Edge) : Graph :=
  g.setEdge e.ends fun p => { p with isUp := true, isEnabled := true }

/-- What is read of a switches entry: a dpid, or nothing where it cannot be parsed. -/
def readSwitch (entry : Json F) : Except AccessError (Option ℕ) :=
  match valueString entry "dpid" with
  | .error e => .error e
  | .ok text => .ok (tryParseHexUint64 text)

/-- An entry of the switches.  A switch that was powered off by command is not lifted. -/
def updateSwitch (g : Graph) (entry : Json F) : Graph × Option AccessError :=
  match readSwitch entry with
  | .error e => (g, some e)
  | .ok none => (g, none)
  | .ok (some dpid) =>
    match findSwitchByDpid g dpid with
    | none => (g, none)
    | some v => (g.setVertex v fun p =>
        { p with isUp := if p.adminPoweredOff then p.isUp else true, isEnabled := true }, none)

/-- What is read of a hosts entry first: its mac, or nothing where it has no address or its mac
cannot be parsed. -/
def readHostMac (entry : Json F) : Except AccessError (Option ℕ) :=
  match entry.find "ipv4" with
  | none => .ok none
  | some ipv4 =>
    if ipv4.isEmpty then .ok none
    else
      match valueString entry "mac" with
      | .error e => .error e
      | .ok mac => .ok (tryMacToUint64 mac)

/-- What is read of a hosts entry next: its first address, or nothing where that cannot be
parsed. -/
def readHostIp (entry : Json F) : Except AccessError (Option ℕ) :=
  match first ((entry.find "ipv4").getD .null) with
  | .error e => .error e
  | .ok (.str ipStr) => .ok (tryIpStringToUint32 ipStr)
  | .ok _ => .ok none

/-- What is read of a hosts entry last: the dpid of the switch it is attached to, or nothing where
it has none or that cannot be parsed. -/
def readHostAttachment (entry : Json F) : Except AccessError (Option ℕ) :=
  match entry.find "port" with
  | none => .ok none
  | some port =>
    match port.find "dpid" with
    | none => .ok none
    | some _ =>
      match valueString port "dpid" with
      | .error e => .error e
      | .ok dpid => .ok (tryParseHexUint64 dpid)

/-- An edge found for a host, lifted if its end that should be the host's is. -/
def liftHostEdge (g : Graph) (found : Option Edge) (hostEnd : EdgeProperties → ℕ) : Graph :=
  match found with
  | none => g
  | some e => if hostEnd e.props = 0 then markEdgeUp g e else g

/-- An entry of the hosts: its vertex, and then the edge from it and the edge to it. -/
def updateHost (g : Graph) (entry : Json F) : Graph × Option AccessError :=
  match readHostMac entry with
  | .error e => (g, some e)
  | .ok none => (g, none)
  | .ok (some mac) =>
    let g := match findVertexByMac g mac with
      | none => g
      | some v => markVertexUp g v
    match readHostIp entry with
    | .error e => (g, some e)
    | .ok none => (g, none)
    | .ok (some ip) =>
      if (findSwitchByIp g ip).isSome then (g, none)
      else
        let g := liftHostEdge g (findEdgeByHostIp g ip) EdgeProperties.srcDpid
        match readHostAttachment entry with
        | .error e => (g, some e)
        | .ok none => (g, none)
        | .ok (some dpid) =>
          match (findSwitchByDpid g dpid).bind g.vertex with
          | none => (g, none)
          | some p =>
            match p.ip.head? with
            | none => (g, none)
            | some attachIp =>
              (liftHostEdge g (findEdgeBySrcAndDstIp g attachIp ip) EdgeProperties.dstDpid, none)

/-- What a links entry names. -/
structure LinkEntry where
  srcDpid : ℕ
  srcPort : ℕ
  dstDpid : ℕ
  deriving DecidableEq, Repr

/-- What is read of a links entry, or nothing where an end is missing or a dpid cannot be parsed.
The port of the target is read too, and not used. -/
def readLink (entry : Json F) : Except AccessError (Option LinkEntry) :=
  match entry.find "src", entry.find "dst" with
  | some src, some dst => do
    let srcDpidStr ← valueString src "dpid"
    let srcPortStr ← valueString src "port_no"
    let dstDpidStr ← valueString dst "dpid"
    let _ ← valueString dst "port_no"
    match tryParseHexUint64 srcDpidStr, tryParseHexUint64 dstDpidStr with
    | some srcDpid, some dstDpid => return some ⟨srcDpid, portStringToUint srcPortStr, dstDpid⟩
    | _, _ => return none
  | _, _ => .ok none

/-- An entry of the links.  A link that was declared down is not lifted. -/
def updateLink (g : Graph) (entry : Json F) : Graph × Option AccessError :=
  match readLink entry with
  | .error e => (g, some e)
  | .ok none => (g, none)
  | .ok (some link) =>
    match findSwitchByDpid g link.srcDpid, findSwitchByDpid g link.dstDpid with
    | some _, some _ =>
      match findEdgeByDpidAndPort g link.srcDpid link.srcPort with
      | none => (g, none)
      | some e => (g.setEdge e.ends fun p =>
          { p with isUp := if p.declaredDown then p.isUp else true, isEnabled := true }, none)
    | _, _ => (g, none)

/-! ### A whole answer -/

/-- The entries one after the other, until one throws. -/
def ingest (update : Graph → Json F → Graph × Option AccessError) :
    Graph → List (Json F) → Graph
  | g, [] => g
  | g, entry :: entries =>
    match update g entry with
    | (g, none) => ingest update g entries
    | (g, some _) => g

/-- An answer, nothing where it is empty or cannot be parsed. -/
def updateFrom (update : Graph → Json F → Graph × Option AccessError) (g : Graph) :
    Option (Json F) → Graph
  | none => g
  | some answer => ingest update g answer.elements

/-- `updateSwitches(topologyData)`. -/
def updateSwitches (g : Graph) (answer : Option (Json F)) : Graph := updateFrom updateSwitch g answer

/-- `updateHosts(topologyData)`. -/
def updateHosts (g : Graph) (answer : Option (Json F)) : Graph := updateFrom updateHost g answer

/-- `updateLinks(topologyData)`. -/
def updateLinks (g : Graph) (answer : Option (Json F)) : Graph := updateFrom updateLink g answer

/-! ### What entries lift -/

/-- What an entry may lift. -/
inductive Target where
  | vertex (v : ℕ)
  | edge (ends : ℕ × ℕ)
  deriving DecidableEq, Repr

/-- What lifting does: it is done once, and it leaves alone what the lookups read. -/
structure Lift where
  onVertex : VertexProperties → VertexProperties
  onEdge : EdgeProperties → EdgeProperties
  onVertex_onVertex : ∀ p, onVertex (onVertex p) = onVertex p
  onEdge_onEdge : ∀ p, onEdge (onEdge p) = onEdge p
  vertexType_onVertex : ∀ p, (onVertex p).vertexType = p.vertexType
  mac_onVertex : ∀ p, (onVertex p).mac = p.mac
  ip_onVertex : ∀ p, (onVertex p).ip = p.ip
  dpid_onVertex : ∀ p, (onVertex p).dpid = p.dpid
  srcIp_onEdge : ∀ p, (onEdge p).srcIp = p.srcIp
  dstIp_onEdge : ∀ p, (onEdge p).dstIp = p.dstIp
  srcDpid_onEdge : ∀ p, (onEdge p).srcDpid = p.srcDpid
  dstDpid_onEdge : ∀ p, (onEdge p).dstDpid = p.dstDpid
  srcInterface_onEdge : ∀ p, (onEdge p).srcInterface = p.srcInterface

namespace Lift

/-- The graph with targets lifted. -/
def apply (L : Lift) (g : Graph) (ts : List Target) : Graph :=
  (g.mapVertices fun i p => if .vertex i ∈ ts then L.onVertex p else p).mapEdges
    fun e => if .edge e.ends ∈ ts then L.onEdge e.props else e.props

/-- A target that lifting does not change. -/
def Stands (L : Lift) (g : Graph) : Target → Prop
  | .vertex v => ∀ p, g.vertex v = some p → L.onVertex p = p
  | .edge d => ∀ e ∈ g.edges, e.ends = d → L.onEdge e.props = e.props

variable (L : Lift) (g : Graph)

theorem vertex_apply (ts : List Target) (v : ℕ) :
    (L.apply g ts).vertex v =
      (g.vertex v).map fun p => if .vertex v ∈ ts then L.onVertex p else p := by
  rw [apply, Graph.vertex_mapEdges, Graph.vertex_mapVertices]

theorem edges_apply (ts : List Target) :
    (L.apply g ts).edges = g.edges.map fun e =>
      { e with props := if .edge e.ends ∈ ts then L.onEdge e.props else e.props } := rfl

/-- Two graphs with the same vertices and the same edges are the same. -/
theorem apply_eq_iff {ts : List Target} {g' : Graph} :
    L.apply g ts = g' ↔
      (∀ v, (g.vertex v).map (fun p => if .vertex v ∈ ts then L.onVertex p else p) = g'.vertex v) ∧
        (g.edges.map fun e =>
          { e with props := if .edge e.ends ∈ ts then L.onEdge e.props else e.props }) =
            g'.edges := by
  constructor
  · rintro rfl
    exact ⟨fun v => (L.vertex_apply g ts v).symm, (L.edges_apply g ts).symm⟩
  · rintro ⟨hvertices, hedges⟩
    refine Graph.ext (List.ext_getElem? fun v => ?_) hedges
    exact (L.vertex_apply g ts v).trans (hvertices v)

theorem apply_nil : L.apply g [] = g := by
  refine (L.apply_eq_iff g).mpr ⟨fun v => ?_, ?_⟩
  · simp
  · simp

theorem apply_apply (s t : List Target) : L.apply (L.apply g s) t = L.apply g (s ++ t) := by
  refine (L.apply_eq_iff _).mpr ⟨fun v => ?_, ?_⟩
  · rw [vertex_apply, vertex_apply, Option.map_map]
    refine congrArg (Option.map · _) (funext fun p => ?_)
    by_cases hs : .vertex v ∈ s
    · by_cases ht : .vertex v ∈ t
      · simp [hs, ht, L.onVertex_onVertex]
      · simp [hs, ht]
    · simp [hs]
  · rw [edges_apply, edges_apply, List.map_map]
    refine List.map_congr_left ?_
    intro e _
    by_cases hs : .edge e.ends ∈ s
    · by_cases ht : .edge e.ends ∈ t
      · simp [hs, ht, L.onEdge_onEdge]
      · simp [hs, ht]
    · simp [hs]

/-- **Further targets change nothing exactly when each was lifted before or stands.** -/
theorem apply_append_eq_iff (s t : List Target) :
    L.apply g s = L.apply g (s ++ t) ↔ ∀ x ∈ t, x ∈ s ∨ L.Stands g x := by
  rw [L.apply_eq_iff g]
  constructor
  · rintro ⟨hvertices, hedges⟩ x hx
    by_cases hs : x ∈ s
    · exact .inl hs
    refine .inr ?_
    cases x with
    | vertex v =>
      intro p hp
      have hv := hvertices v
      rw [vertex_apply, hp] at hv
      simpa [hs, hx, eq_comm] using hv
    | edge d =>
      rintro e he rfl
      rw [edges_apply] at hedges
      have heq := List.map_inj_left.mp hedges e he
      simpa [hs, hx, eq_comm] using heq
  · intro h
    refine ⟨?_, ?_⟩
    · intro v
      rw [vertex_apply]
      cases hp : g.vertex v with
      | none => rfl
      | some p =>
        by_cases ht : .vertex v ∈ t
        · rcases h _ ht with hs | hstands
          · simp [hs]
          · simp [ht, hstands p hp]
        · simp [ht]
    · rw [edges_apply]
      refine List.map_congr_left ?_
      intro e he
      by_cases ht : .edge e.ends ∈ t
      · rcases h _ ht with hs | hstands
        · simp [hs]
        · simp [ht, hstands e he rfl]
      · simp [ht]

/-! Lifting leaves the lookups as they were. -/

theorem findIdx?_apply {pred : VertexProperties → Bool} (h : ∀ p, pred (L.onVertex p) = pred p)
    (ts : List Target) :
    (L.apply g ts).vertices.findIdx? pred = g.vertices.findIdx? pred := by
  have hmap : (L.apply g ts).vertices.map pred = g.vertices.map pred := by
    refine List.ext_getElem? ?_
    intro v
    rw [List.getElem?_map, List.getElem?_map]
    show Option.map pred ((L.apply g ts).vertex v) = Option.map pred (g.vertex v)
    rw [vertex_apply, Option.map_map]
    refine congrArg (Option.map · _) (funext fun p => ?_)
    by_cases ht : .vertex v ∈ ts
    · simp [ht, h]
    · simp [ht]
  have hfind (vertices : List VertexProperties) :
      vertices.findIdx? pred = (vertices.map pred).findIdx? id := by
    rw [List.findIdx?_map]
    rfl
  rw [hfind, hmap, ← hfind]

theorem find?_apply (pred : EdgeProperties → Bool) (h : ∀ p, pred (L.onEdge p) = pred p)
    (ts : List Target) :
    (L.apply g ts).edges.find? (fun e => pred e.props) =
      (g.edges.find? fun e => pred e.props).map fun e =>
        { e with props := if .edge e.ends ∈ ts then L.onEdge e.props else e.props } := by
  rw [edges_apply, List.find?_map]
  refine congrArg (Option.map _) (congrArg (List.find? · _) (funext fun e => ?_))
  by_cases ht : .edge e.ends ∈ ts
  · simp [ht, h]
  · simp [ht]

@[simp] theorem findSwitchByDpid_apply (ts : List Target) (dpid : ℕ) :
    findSwitchByDpid (L.apply g ts) dpid = findSwitchByDpid g dpid :=
  L.findIdx?_apply g (fun p => by rw [L.vertexType_onVertex, L.dpid_onVertex]) ts

@[simp] theorem findVertexByMac_apply (ts : List Target) (mac : ℕ) :
    findVertexByMac (L.apply g ts) mac = findVertexByMac g mac :=
  L.findIdx?_apply g (fun p => by rw [L.mac_onVertex]) ts

@[simp] theorem findSwitchByIp_apply (ts : List Target) (ip : ℕ) :
    findSwitchByIp (L.apply g ts) ip = findSwitchByIp g ip :=
  L.findIdx?_apply g (fun p => by rw [L.vertexType_onVertex, L.ip_onVertex]) ts

/-- The first address of a vertex. -/
theorem firstAddress_apply (ts : List Target) (v : Option ℕ) :
    ((v.bind (L.apply g ts).vertex).bind fun p => p.ip.head?) =
      (v.bind g.vertex).bind fun p => p.ip.head? := by
  cases v with
  | none => rfl
  | some v =>
    rw [Option.bind_some, Option.bind_some, vertex_apply]
    cases hp : g.vertex v with
    | none => rfl
    | some p =>
      by_cases ht : .vertex v ∈ ts
      · simp [ht, L.ip_onVertex]
      · simp [ht]

end Lift

/-! ### What each kind of entry lifts -/

/-- What a switches entry lifts. -/
def switchLift : Lift where
  onVertex p := { p with isUp := if p.adminPoweredOff then p.isUp else true, isEnabled := true }
  onEdge p := p
  onVertex_onVertex p := by simp
  onEdge_onEdge _ := rfl
  vertexType_onVertex _ := rfl
  mac_onVertex _ := rfl
  ip_onVertex _ := rfl
  dpid_onVertex _ := rfl
  srcIp_onEdge _ := rfl
  dstIp_onEdge _ := rfl
  srcDpid_onEdge _ := rfl
  dstDpid_onEdge _ := rfl
  srcInterface_onEdge _ := rfl

/-- What a hosts entry lifts. -/
def hostLift : Lift where
  onVertex p := { p with isUp := true, isEnabled := true }
  onEdge p := { p with isUp := true, isEnabled := true }
  onVertex_onVertex _ := rfl
  onEdge_onEdge _ := rfl
  vertexType_onVertex _ := rfl
  mac_onVertex _ := rfl
  ip_onVertex _ := rfl
  dpid_onVertex _ := rfl
  srcIp_onEdge _ := rfl
  dstIp_onEdge _ := rfl
  srcDpid_onEdge _ := rfl
  dstDpid_onEdge _ := rfl
  srcInterface_onEdge _ := rfl

/-- What a links entry lifts. -/
def linkLift : Lift where
  onVertex p := p
  onEdge p := { p with isUp := if p.declaredDown then p.isUp else true, isEnabled := true }
  onVertex_onVertex _ := rfl
  onEdge_onEdge p := by simp
  vertexType_onVertex _ := rfl
  mac_onVertex _ := rfl
  ip_onVertex _ := rfl
  dpid_onVertex _ := rfl
  srcIp_onEdge _ := rfl
  dstIp_onEdge _ := rfl
  srcDpid_onEdge _ := rfl
  dstDpid_onEdge _ := rfl
  srcInterface_onEdge _ := rfl

/-- An edge found for a host, if its end that should be the host's is. -/
def hostEdgeTargets (found : Option Edge) (hostEnd : EdgeProperties → ℕ) : List Target :=
  match found with
  | none => []
  | some e => if hostEnd e.props = 0 then [.edge e.ends] else []

/-- The switch that a switches entry names. -/
def switchTargets (g : Graph) (entry : Json F) : List Target :=
  match readSwitch entry with
  | .ok (some dpid) => (findSwitchByDpid g dpid).toList.map .vertex
  | _ => []

/-- The vertex and the two edges that a hosts entry names, as far as they are read. -/
def hostTargets (g : Graph) (entry : Json F) : List Target :=
  match readHostMac entry with
  | .ok (some mac) =>
    (findVertexByMac g mac).toList.map .vertex ++
      match readHostIp entry with
      | .ok (some ip) =>
        if (findSwitchByIp g ip).isSome then []
        else
          hostEdgeTargets (findEdgeByHostIp g ip) EdgeProperties.srcDpid ++
            match readHostAttachment entry with
            | .ok (some dpid) =>
              match ((findSwitchByDpid g dpid).bind g.vertex).bind fun p => p.ip.head? with
              | none => []
              | some attachIp =>
                hostEdgeTargets (findEdgeBySrcAndDstIp g attachIp ip) EdgeProperties.dstDpid
            | _ => []
      | _ => []
  | _ => []

/-- The edge that a links entry names. -/
def linkTargets (g : Graph) (entry : Json F) : List Target :=
  match readLink entry with
  | .ok (some link) =>
    match findSwitchByDpid g link.srcDpid, findSwitchByDpid g link.dstDpid with
    | some _, some _ =>
      ((findEdgeByDpidAndPort g link.srcDpid link.srcPort).map Edge.ends).toList.map .edge
    | _, _ => []
  | _ => []

/-- A switches entry throws: it is no object, or its dpid is no string. -/
def switchThrows (entry : Json F) : Bool := !(readSwitch entry).isOk

/-- A hosts entry throws: its mac is no string, or, with a mac that can be parsed, its addresses
are no array, or, for a first address that is no switch's, the dpid of its port is no string. -/
def hostThrows (g : Graph) (entry : Json F) : Bool :=
  match readHostMac entry with
  | .error _ => true
  | .ok none => false
  | .ok (some _) =>
    match readHostIp entry with
    | .error _ => true
    | .ok none => false
    | .ok (some ip) => (findSwitchByIp g ip).isNone && !(readHostAttachment entry).isOk

/-- A links entry throws: it has both ends, and one of them is no object or has a dpid or a port
that is no string. -/
def linkThrows (entry : Json F) : Bool := !(readLink entry).isOk

/-! ### A loop that an entry may leave -/

/-- The entries up to the first that throws, and that one. -/
def reached {α : Type*} (throws : α → Bool) : List α → List α
  | [] => []
  | a :: as => if throws a then [a] else a :: reached throws as

/-- The entries after the first that throws. -/
def unreached {α : Type*} (throws : α → Bool) : List α → List α
  | [] => []
  | a :: as => if throws a then as else unreached throws as

theorem reached_append_unreached {α : Type*} (throws : α → Bool) (as : List α) :
    reached throws as ++ unreached throws as = as := by
  induction as with
  | nil => rfl
  | cons a as ih =>
    cases hthrows : throws a with
    | true => simp [reached, unreached, hthrows]
    | false => simp [reached, unreached, hthrows, ih]

/-- A kind of entry: what one of them does is to lift its targets, and it may throw, and lifting
changes neither the targets of an entry nor whether it throws. -/
structure EntryKind (F : Type*) where
  update : Graph → Json F → Graph × Option AccessError
  lift : Lift
  targets : Graph → Json F → List Target
  throws : Graph → Json F → Bool
  update_fst : ∀ g entry, (update g entry).1 = lift.apply g (targets g entry)
  update_snd : ∀ g entry, (update g entry).2.isSome = throws g entry
  targets_apply : ∀ g ts entry, targets (lift.apply g ts) entry = targets g entry
  throws_apply : ∀ g ts entry, throws (lift.apply g ts) entry = throws g entry

namespace EntryKind

variable (K : EntryKind F)

/-- A loop lifts the targets of the entries it reaches. -/
theorem ingest_eq (g : Graph) (as : List (Json F)) :
    ingest K.update g as =
      K.lift.apply g ((reached (K.throws g) as).flatMap (K.targets g)) := by
  -- the entries after the first see a graph with targets lifted, which changes no target of theirs
  induction as generalizing g with
  | nil => exact (K.lift.apply_nil g).symm
  | cons a as ih =>
    have hfst := K.update_fst g a
    have hsnd := K.update_snd g a
    rw [ingest, reached]
    rcases hupdate : K.update g a with ⟨g', thrown⟩
    rw [hupdate] at hfst hsnd
    cases thrown with
    | none =>
      have hgoes : K.throws g a = false := hsnd.symm
      have hthrows : K.throws g' = K.throws g := by
        rw [show g' = _ from hfst]
        exact funext (K.throws_apply g _)
      have htargets : K.targets g' = K.targets g := by
        rw [show g' = _ from hfst]
        exact funext (K.targets_apply g _)
      rw [hgoes, if_neg Bool.false_ne_true, List.flatMap_cons, ← K.lift.apply_apply]
      show ingest K.update g' as = _
      rw [ih, hthrows, htargets, show g' = _ from hfst]
    | some e =>
      have hleaves : K.throws g a = true := hsnd.symm
      rw [hleaves, if_pos rfl, List.flatMap_cons, List.flatMap_nil, List.append_nil]
      exact hfst

/-- The entries one by one lift the targets of all of them. -/
theorem foldl_ingest_eq (g : Graph) (as : List (Json F)) :
    as.foldl (fun g a => ingest K.update g [a]) g =
      K.lift.apply g (as.flatMap (K.targets g)) := by
  induction as generalizing g with
  | nil => exact (K.lift.apply_nil g).symm
  | cons a as ih =>
    have hone : ingest K.update g [a] = K.lift.apply g (K.targets g a) := by
      rw [K.ingest_eq, reached]
      cases K.throws g a with
      | true => simp
      | false => simp [reached]
    have htargets : K.targets (K.lift.apply g (K.targets g a)) = K.targets g :=
      funext (K.targets_apply g _)
    rw [List.foldl_cons, ih, hone, htargets, K.lift.apply_apply, List.flatMap_cons]

/-- What the loop leaves out changes nothing: every target of an entry that is not reached is a
target of one that is, or stands already. -/
def CostsNothing (g : Graph) (as : List (Json F)) : Prop :=
  ∀ a ∈ unreached (K.throws g) as, ∀ t ∈ K.targets g a,
    (∃ b ∈ reached (K.throws g) as, t ∈ K.targets g b) ∨ K.lift.Stands g t

/-- **A loop does what the entries do one by one exactly when what it leaves out changes
nothing.** -/
theorem ingest_eq_iff (g : Graph) (as : List (Json F)) :
    ingest K.update g as = as.foldl (fun g a => ingest K.update g [a]) g ↔ K.CostsNothing g as := by
  rw [ingest_eq, foldl_ingest_eq]
  have hsplit : as.flatMap (K.targets g) =
      (reached (K.throws g) as).flatMap (K.targets g) ++
        (unreached (K.throws g) as).flatMap (K.targets g) := by
    rw [← List.flatMap_append, reached_append_unreached]
  rw [hsplit, K.lift.apply_append_eq_iff]
  constructor
  · intro h a ha t ht
    exact (h t (List.mem_flatMap.mpr ⟨a, ha, ht⟩)).imp_left List.mem_flatMap.mp
  · intro h t ht
    obtain ⟨a, ha, hta⟩ := List.mem_flatMap.mp ht
    exact (h a ha t hta).imp_left List.mem_flatMap.mpr

end EntryKind

/-! ### The three kinds of entries -/

theorem setVertex_eq_apply (L : Lift) (g : Graph) (v : ℕ) :
    g.setVertex v L.onVertex = L.apply g [.vertex v] := by
  refine ((L.apply_eq_iff g).mpr ⟨fun i => ?_, ?_⟩).symm
  · rw [Graph.vertex_setVertex]
    by_cases hi : i = v
    · simp [hi]
    · simp [hi]
  · simp [Graph.setVertex]

theorem setEdge_eq_apply (L : Lift) (g : Graph) (d : ℕ × ℕ) :
    g.setEdge d L.onEdge = L.apply g [.edge d] := by
  refine ((L.apply_eq_iff g).mpr ⟨fun i => ?_, ?_⟩).symm
  · simp [Graph.setEdge]
  · simp [Graph.setEdge, Graph.mapEdges]

/-- What a switches entry does. -/
theorem updateSwitch_eq (g : Graph) (entry : Json F) :
    (updateSwitch g entry).1 = switchLift.apply g (switchTargets g entry) ∧
      (updateSwitch g entry).2.isSome = switchThrows entry := by
  rw [updateSwitch, switchTargets, switchThrows]
  rcases readSwitch entry with e | dpid | dpid
  · exact ⟨(switchLift.apply_nil g).symm, rfl⟩
  · exact ⟨(switchLift.apply_nil g).symm, rfl⟩
  · dsimp only
    cases findSwitchByDpid g dpid with
    | none => exact ⟨(switchLift.apply_nil g).symm, rfl⟩
    | some v => exact ⟨setVertex_eq_apply switchLift g v, rfl⟩

/-- What a links entry does. -/
theorem updateLink_eq (g : Graph) (entry : Json F) :
    (updateLink g entry).1 = linkLift.apply g (linkTargets g entry) ∧
      (updateLink g entry).2.isSome = linkThrows entry := by
  rw [updateLink, linkTargets, linkThrows]
  rcases readLink entry with e | link | link
  · exact ⟨(linkLift.apply_nil g).symm, rfl⟩
  · exact ⟨(linkLift.apply_nil g).symm, rfl⟩
  · dsimp only
    cases findSwitchByDpid g link.srcDpid with
    | none => exact ⟨(linkLift.apply_nil g).symm, rfl⟩
    | some u =>
      cases findSwitchByDpid g link.dstDpid with
      | none => exact ⟨(linkLift.apply_nil g).symm, rfl⟩
      | some v =>
        dsimp only
        cases findEdgeByDpidAndPort g link.srcDpid link.srcPort with
        | none => exact ⟨(linkLift.apply_nil g).symm, rfl⟩
        | some e => exact ⟨setEdge_eq_apply linkLift g e.ends, rfl⟩

theorem liftHostEdge_eq (g : Graph) (found : Option Edge) (hostEnd : EdgeProperties → ℕ) :
    liftHostEdge g found hostEnd = hostLift.apply g (hostEdgeTargets found hostEnd) := by
  cases found with
  | none => exact (hostLift.apply_nil g).symm
  | some e =>
    by_cases hhost : hostEnd e.props = 0
    · simp only [liftHostEdge, hostEdgeTargets, if_pos hhost]
      exact setEdge_eq_apply hostLift g e.ends
    · simp only [liftHostEdge, hostEdgeTargets, if_neg hhost]
      exact (hostLift.apply_nil g).symm

/-- An edge found after lifting is the edge found before, and its ends are what they were. -/
theorem hostEdgeTargets_map {hostEnd : EdgeProperties → ℕ}
    (hend : ∀ p, hostEnd (hostLift.onEdge p) = hostEnd p) (ts : List Target)
    (found : Option Edge) :
    hostEdgeTargets (found.map fun e =>
        { e with props := if .edge e.ends ∈ ts then hostLift.onEdge e.props else e.props }) hostEnd =
      hostEdgeTargets found hostEnd := by
  cases found with
  | none => rfl
  | some e =>
    by_cases ht : .edge e.ends ∈ ts
    · simp [hostEdgeTargets, ht, hend]
    · simp [hostEdgeTargets, ht]

@[simp] theorem hostEdgeTargets_findEdgeByHostIp (g : Graph) (ts : List Target) (ip : ℕ) :
    hostEdgeTargets (findEdgeByHostIp (hostLift.apply g ts) ip) EdgeProperties.srcDpid =
      hostEdgeTargets (findEdgeByHostIp g ip) EdgeProperties.srcDpid := by
  have hfind := hostLift.find?_apply g (fun p => ip ∈ p.srcIp)
    (fun p => by rw [hostLift.srcIp_onEdge]) ts
  exact (congrArg (hostEdgeTargets · EdgeProperties.srcDpid) hfind).trans
    (hostEdgeTargets_map hostLift.srcDpid_onEdge ts _)

@[simp] theorem hostEdgeTargets_findEdgeBySrcAndDstIp (g : Graph) (ts : List Target)
    (srcIp dstIp : ℕ) :
    hostEdgeTargets (findEdgeBySrcAndDstIp (hostLift.apply g ts) srcIp dstIp)
        EdgeProperties.dstDpid =
      hostEdgeTargets (findEdgeBySrcAndDstIp g srcIp dstIp) EdgeProperties.dstDpid := by
  have hfind := hostLift.find?_apply g (fun p => srcIp ∈ p.srcIp && dstIp ∈ p.dstIp)
    (fun p => by rw [hostLift.srcIp_onEdge, hostLift.dstIp_onEdge]) ts
  exact (congrArg (hostEdgeTargets · EdgeProperties.dstDpid) hfind).trans
    (hostEdgeTargets_map hostLift.dstDpid_onEdge ts _)

theorem markHost_eq (g : Graph) (found : Option ℕ) :
    (match found with
      | none => g
      | some v => markVertexUp g v) = hostLift.apply g (found.toList.map .vertex) := by
  cases found with
  | none => exact (hostLift.apply_nil g).symm
  | some v => exact setVertex_eq_apply hostLift g v

/-- What a hosts entry does: its vertex, the edge from it and the edge to it, as far as it is
read. -/
theorem updateHost_eq (g : Graph) (entry : Json F) :
    (updateHost g entry).1 = hostLift.apply g (hostTargets g entry) ∧
      (updateHost g entry).2.isSome = hostThrows g entry := by
  rw [updateHost, hostTargets, hostThrows]
  rcases readHostMac entry with e | mac | mac
  · exact ⟨(hostLift.apply_nil g).symm, rfl⟩
  · exact ⟨(hostLift.apply_nil g).symm, rfl⟩
  dsimp only
  rw [markHost_eq, ← hostLift.apply_apply]
  rcases readHostIp entry with e | ip | ip
  · exact ⟨(hostLift.apply_nil _).symm, rfl⟩
  · exact ⟨(hostLift.apply_nil _).symm, rfl⟩
  dsimp only
  rw [hostLift.findSwitchByIp_apply]
  cases hswitch : findSwitchByIp g ip with
  | some v => exact ⟨(hostLift.apply_nil _).symm, rfl⟩
  | none =>
    rw [Option.isSome_none, if_neg Bool.false_ne_true, if_neg Bool.false_ne_true,
      liftHostEdge_eq, hostEdgeTargets_findEdgeByHostIp, ← hostLift.apply_apply]
    rcases readHostAttachment entry with e | dpid | dpid
    · exact ⟨(hostLift.apply_nil _).symm, rfl⟩
    · exact ⟨(hostLift.apply_nil _).symm, rfl⟩
    dsimp only
    rw [← hostLift.firstAddress_apply g (((findVertexByMac g mac).toList.map .vertex)),
      ← hostLift.firstAddress_apply (hostLift.apply g _)
        (hostEdgeTargets (findEdgeByHostIp g ip) EdgeProperties.srcDpid),
      hostLift.findSwitchByDpid_apply, hostLift.findSwitchByDpid_apply]
    rcases (findSwitchByDpid g dpid).bind _ with _ | p
    · exact ⟨(hostLift.apply_nil _).symm, rfl⟩
    dsimp only [Option.bind_some]
    cases p.ip.head? with
    | none => exact ⟨(hostLift.apply_nil _).symm, rfl⟩
    | some attachIp =>
      dsimp only
      rw [liftHostEdge_eq, hostEdgeTargets_findEdgeBySrcAndDstIp,
        hostEdgeTargets_findEdgeBySrcAndDstIp]
      exact ⟨rfl, rfl⟩

theorem linkEdge_apply (L : Lift) (g : Graph) (ts : List Target) (dpid port : ℕ) :
    (findEdgeByDpidAndPort (L.apply g ts) dpid port).map Edge.ends =
      (findEdgeByDpidAndPort g dpid port).map Edge.ends := by
  have hfind := L.find?_apply g (fun p => p.srcDpid = dpid && p.srcInterface = port)
    (fun p => by rw [L.srcDpid_onEdge, L.srcInterface_onEdge]) ts
  refine (congrArg (Option.map Edge.ends) hfind).trans ?_
  rw [Option.map_map]
  rfl

/-- The switches entries. -/
def switchKind : EntryKind F where
  update := updateSwitch
  lift := switchLift
  targets := switchTargets
  throws _ := switchThrows
  update_fst g entry := (updateSwitch_eq g entry).1
  update_snd g entry := (updateSwitch_eq g entry).2
  targets_apply g ts entry := by simp only [switchTargets, Lift.findSwitchByDpid_apply]
  throws_apply _ _ _ := rfl

/-- The hosts entries. -/
def hostKind : EntryKind F where
  update := updateHost
  lift := hostLift
  targets := hostTargets
  throws := hostThrows
  update_fst g entry := (updateHost_eq g entry).1
  update_snd g entry := (updateHost_eq g entry).2
  targets_apply g ts entry := by
    simp only [hostTargets, Lift.findVertexByMac_apply, Lift.findSwitchByIp_apply,
      Lift.findSwitchByDpid_apply, Lift.firstAddress_apply, hostEdgeTargets_findEdgeByHostIp,
      hostEdgeTargets_findEdgeBySrcAndDstIp]
  throws_apply g ts entry := by simp only [hostThrows, Lift.findSwitchByIp_apply]

/-- The links entries. -/
def linkKind : EntryKind F where
  update := updateLink
  lift := linkLift
  targets := linkTargets
  throws _ := linkThrows
  update_fst g entry := (updateLink_eq g entry).1
  update_snd g entry := (updateLink_eq g entry).2
  targets_apply g ts entry := by
    simp only [linkTargets, Lift.findSwitchByDpid_apply, linkEdge_apply]
  throws_apply _ _ _ := rfl

/-! ### A malformed entry -/

/-- The entries of an array, each answered alone, one after the other. -/
def oneByOne (update : Graph → Option (Json F) → Graph) (g : Graph) (as : List (Json F)) : Graph :=
  as.foldl (fun g a => update g (some (.arr [a]))) g

/-- **A malformed entry costs only itself exactly when what comes after the first entry that throws
would change nothing**: whatever an entry after it names was named up to it, or stands already. -/
theorem update_entrywise_iff (g : Graph) (as : List (Json F)) :
    (updateSwitches g (some (.arr as)) = oneByOne updateSwitches g as ↔
        switchKind.CostsNothing g as) ∧
      (updateHosts g (some (.arr as)) = oneByOne updateHosts g as ↔ hostKind.CostsNothing g as) ∧
      (updateLinks g (some (.arr as)) = oneByOne updateLinks g as ↔ linkKind.CostsNothing g as) :=
  ⟨switchKind.ingest_eq_iff g as, hostKind.ingest_eq_iff g as, linkKind.ingest_eq_iff g as⟩

/-- Two switches that no poll has lifted yet. -/
def darkPair : Graph where
  vertices :=
    [{ vertexType := .switch, dpid := 1, isUp := false, isEnabled := false },
      { vertexType := .switch, dpid := 2, isUp := false, isEnabled := false }]
  edges := []
  ordered := .nil
  ends_lt := nofun

/-- An answer whose first entry is a number. -/
def numberFirst : List (Json Empty) := [.int 7, .obj [("dpid", .str "1")]]

/-- A number among the entries costs the switch after it: alone, its entry would lift it. -/
theorem updateSwitches_not_entrywise :
    updateSwitches darkPair (some (.arr numberFirst)) ≠
        oneByOne updateSwitches darkPair numberFirst ∧
      (updateSwitches darkPair (some (.arr numberFirst))).vertex 0 =
        some { vertexType := .switch, dpid := 1, isUp := false, isEnabled := false } ∧
      (oneByOne updateSwitches darkPair numberFirst).vertex 0 =
        some { vertexType := .switch, dpid := 1 } := by
  have hwhole : (updateSwitches darkPair (some (.arr numberFirst))).vertex 0 =
      some { vertexType := .switch, dpid := 1, isUp := false, isEnabled := false } := by
    decide +kernel
  have hone : (oneByOne updateSwitches darkPair numberFirst).vertex 0 =
      some { vertexType := .switch, dpid := 1 } := by
    decide +kernel
  refine ⟨?_, hwhole, hone⟩
  intro heq
  rw [heq, hone] at hwhole
  simp at hwhole

end NDTwin.Twin
