import Mathlib.Data.List.Basic
import Mathlib.Data.Nat.Notation
import Mathlib.Data.Prod.Lex

/-!
# The graph of the twin

The kernel keeps one directed graph of the fabric.  A vertex is a switch or a host and is known by
its place among the vertices; an edge is one direction of a link and is known by its ends, of which
no two edges have the same.  The edges are visited vertex by vertex, those of one vertex by their
targets.

What an edge says of its ends (a dpid and an interface for each) is read from the topology file and
is never changed; the flags are.

## Main definitions

* `VertexProperties`, `EdgeProperties`, `Graph` — what is kept.
* `Graph.vertex`, `Graph.edge` — the properties of a vertex and of an edge.
* `Graph.setVertex`, `Graph.setEdge`, `Graph.mapEdges` — how the flags change.
* `findSwitchByDpid`, `findVertexByMac`, `findSwitchByIp`, `findEdgeBySrcAndDstDpid`,
  `findEdgeByDpidAndPort`, `findEdgeByHostIp`, `findEdgeBySrcAndDstIp` — the lookups.
-/

namespace NDTwin.Twin

/-- What a vertex is. -/
inductive VertexType where
  | switch | host
  deriving DecidableEq, Repr

/-- Why the twin last moved something down. -/
inductive DownReason where
  | none | switchUnreachable | declared
  deriving DecidableEq, Repr

/-- What is kept of a vertex. -/
structure VertexProperties where
  vertexType : VertexType
  mac : ℕ := 0
  ip : List ℕ := []
  dpid : ℕ := 0
  isUp : Bool := true
  isEnabled : Bool := true
  adminDisabled : Bool := false
  adminPoweredOff : Bool := false
  downReason : DownReason := .none
  bridgeNameForMininet : String := ""
  deriving DecidableEq, Repr

/-- What is kept of an edge. -/
structure EdgeProperties where
  isUp : Bool := true
  isEnabled : Bool := true
  adminDisabled : Bool := false
  downReason : DownReason := .none
  declaredDown : Bool := false
  failureReported : Bool := false
  srcIp : List ℕ := []
  srcDpid : ℕ
  srcInterface : ℕ
  dstIp : List ℕ := []
  dstDpid : ℕ
  dstInterface : ℕ
  deriving DecidableEq, Repr

/-- `isUsable` of a vertex. -/
def VertexProperties.isUsable (v : VertexProperties) : Bool :=
  v.isUp && v.isEnabled && !v.adminDisabled

/-- One direction of a link. -/
structure Edge where
  source : ℕ
  target : ℕ
  props : EdgeProperties
  deriving DecidableEq, Repr

/-- What an edge is known by. -/
def Edge.ends (e : Edge) : ℕ × ℕ := (e.source, e.target)

@[simp] theorem Edge.ends_withProps (e : Edge) (p : EdgeProperties) :
    ({ e with props := p } : Edge).ends = e.ends := rfl

/-- The graph, with its edges in the order in which they are visited. -/
@[ext]
structure Graph where
  vertices : List VertexProperties
  edges : List Edge
  ordered : (edges.map Edge.ends).Pairwise (Prod.Lex (· < ·) (· < ·))
  ends_lt : ∀ d ∈ edges.map Edge.ends, d.1 < vertices.length ∧ d.2 < vertices.length

namespace Graph

/-- The properties of a vertex. -/
def vertex (g : Graph) (v : ℕ) : Option VertexProperties := g.vertices[v]?

/-- The properties of an edge. -/
def edge (g : Graph) (d : ℕ × ℕ) : Option EdgeProperties :=
  (g.edges.find? fun e => e.ends = d).map Edge.props

/-- The graph with every edge's properties changed. -/
def mapEdges (g : Graph) (f : Edge → EdgeProperties) : Graph where
  vertices := g.vertices
  edges := g.edges.map fun e => { e with props := f e }
  ordered := by
    rw [List.map_map]
    exact g.ordered
  ends_lt := by
    rw [List.map_map]
    exact g.ends_lt

/-- The graph with every vertex's properties changed. -/
def mapVertices (g : Graph) (f : ℕ → VertexProperties → VertexProperties) : Graph where
  vertices := g.vertices.mapIdx f
  edges := g.edges
  ordered := g.ordered
  ends_lt := by
    rw [List.length_mapIdx]
    exact g.ends_lt

/-- The graph with one vertex's properties changed. -/
def setVertex (g : Graph) (v : ℕ) (f : VertexProperties → VertexProperties) : Graph :=
  g.mapVertices fun i p => if i = v then f p else p

/-- The graph with the properties of one edge changed. -/
def setEdge (g : Graph) (d : ℕ × ℕ) (f : EdgeProperties → EdgeProperties) : Graph :=
  g.mapEdges fun e => if e.ends = d then f e.props else e.props

@[simp] theorem vertices_mapEdges (g : Graph) (f : Edge → EdgeProperties) :
    (g.mapEdges f).vertices = g.vertices := rfl

@[simp] theorem vertex_mapEdges (g : Graph) (f : Edge → EdgeProperties) (v : ℕ) :
    (g.mapEdges f).vertex v = g.vertex v := rfl

@[simp] theorem edges_mapVertices (g : Graph) (f : ℕ → VertexProperties → VertexProperties) :
    (g.mapVertices f).edges = g.edges := rfl

@[simp] theorem vertex_mapVertices (g : Graph) (f : ℕ → VertexProperties → VertexProperties)
    (v : ℕ) : (g.mapVertices f).vertex v = (g.vertex v).map (f v) := by
  simp [vertex, mapVertices]

theorem vertex_setVertex (g : Graph) (v : ℕ) (f : VertexProperties → VertexProperties) (i : ℕ) :
    (g.setVertex v f).vertex i = if i = v then (g.vertex i).map f else g.vertex i := by
  rw [setVertex, vertex_mapVertices]
  by_cases hi : i = v
  · simp [hi]
  · simp [hi]

/-- The edges after a change, one for each edge before it. -/
theorem mem_edges_mapEdges {g : Graph} {f : Edge → EdgeProperties} {e : Edge} :
    e ∈ (g.mapEdges f).edges ↔ ∃ e' ∈ g.edges, { e' with props := f e' } = e :=
  List.mem_map

theorem edge_mapEdges (g : Graph) (f : Edge → EdgeProperties) (d : ℕ × ℕ) :
    (g.mapEdges f).edge d = (g.edges.find? fun e => e.ends = d).map f := by
  rw [edge, mapEdges, List.find?_map, Option.map_map]
  rfl

@[simp] theorem edge_mapVertices (g : Graph) (f : ℕ → VertexProperties → VertexProperties)
    (d : ℕ × ℕ) : (g.mapVertices f).edge d = g.edge d := rfl

theorem edge_setEdge (g : Graph) (d : ℕ × ℕ) (f : EdgeProperties → EdgeProperties) (d' : ℕ × ℕ) :
    (g.setEdge d f).edge d' = if d' = d then (g.edge d').map f else g.edge d' := by
  rw [setEdge, edge_mapEdges, edge]
  cases he : g.edges.find? fun e => e.ends = d' with
  | none => simp
  | some e =>
    have hends : e.ends = d' := by simpa using List.find?_some he
    by_cases hd : d' = d
    · simp [hends, hd]
    · simp [hends, hd]

/-- No two edges have the same ends. -/
theorem edge_of_mem {g : Graph} {e : Edge} (he : e ∈ g.edges) : g.edge e.ends = some e.props := by
  have hunique : g.edges.Pairwise fun a b => a.ends ≠ b.ends := by
    refine (List.pairwise_map.mp g.ordered).imp ?_
    intro a b hab heq
    rw [heq, Prod.lex_def] at hab
    omega
  have hfound : g.edges.find? (fun e' => e'.ends = e.ends) = some e := by
    obtain ⟨before, after, hsplit⟩ := List.append_of_mem he
    rw [hsplit, List.find?_append]
    rw [hsplit, List.pairwise_append] at hunique
    have hnone : before.find? (fun e' => e'.ends = e.ends) = none := by
      rw [List.find?_eq_none]
      intro b hb
      simpa using hunique.2.2 b hb e (by simp)
    simp [hnone]
  rw [edge, hfound, Option.map_some]

end Graph

/-! ### Lookups -/

/-- `findSwitchByDpid(dpid)`. -/
def findSwitchByDpid (g : Graph) (dpid : ℕ) : Option ℕ :=
  g.vertices.findIdx? fun v => v.vertexType = .switch && v.dpid = dpid

/-- `findVertexByMac(mac)`. -/
def findVertexByMac (g : Graph) (mac : ℕ) : Option ℕ := g.vertices.findIdx? fun v => v.mac = mac

/-- `findSwitchByIp(ip)`. -/
def findSwitchByIp (g : Graph) (ip : ℕ) : Option ℕ :=
  g.vertices.findIdx? fun v => v.vertexType = .switch && v.ip.head? = some ip

/-- `findEdgeBySrcAndDstDpid(src, dst)`. -/
def findEdgeBySrcAndDstDpid (g : Graph) (src dst : ℕ) : Option Edge :=
  g.edges.find? fun e => e.props.srcDpid = src && e.props.dstDpid = dst

/-- `findEdgeByDpidAndPort(dpid, port)`. -/
def findEdgeByDpidAndPort (g : Graph) (dpid port : ℕ) : Option Edge :=
  g.edges.find? fun e => e.props.srcDpid = dpid && e.props.srcInterface = port

/-- `findEdgeByHostIp(hostIp)`. -/
def findEdgeByHostIp (g : Graph) (hostIp : ℕ) : Option Edge :=
  g.edges.find? fun e => hostIp ∈ e.props.srcIp

/-- `findEdgeBySrcAndDstIp(src_ip, dst_ip)`. -/
def findEdgeBySrcAndDstIp (g : Graph) (srcIp dstIp : ℕ) : Option Edge :=
  g.edges.find? fun e => srcIp ∈ e.props.srcIp && dstIp ∈ e.props.dstIp

end NDTwin.Twin
