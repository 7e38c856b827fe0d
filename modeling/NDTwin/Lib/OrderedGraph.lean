import Mathlib.Data.List.Basic
import Mathlib.Data.List.Chain
import Mathlib.Data.List.Induction
import Mathlib.Data.List.Nodup

/-!
# Directed graphs in insertion order

A graph as a program builds it: nodes and edges are added one at a time, each
is listed once, in the order in which it was first added, and an edge carries a
value that a later addition of the same edge replaces.

## Main definitions

* `OrderedGraph V E` — nodes, and edges with their values.
* `addNode`, `addEdge`, `grow` — the two ways a graph grows, and a graph built so.
* `successors`, `predecessors`, `edgeData` — what a program reads.
* `without` — the same graph with some edges left out.
* `Walk`, `Shortest` — walks between two nodes, and the shortest ones.

## Main results

* `mem_nodes_grow`, `adj_grow` — what a graph that was built holds, in whatever
  order it was built.
* `mem_successors`, `mem_predecessors` — both list the edges.
* `adj_without` — leaving edges out.
* `walk_cons`, `Walk.cases` — walks node by node.
-/

/-- A directed graph in insertion order. -/
structure OrderedGraph (V E : Type*) where
  nodes : List V
  edges : List ((V × V) × E)
  nodup_nodes : nodes.Nodup
  nodup_edges : (edges.map Prod.fst).Nodup
  ends_mem : ∀ e ∈ edges, e.1.1 ∈ nodes ∧ e.1.2 ∈ nodes

namespace OrderedGraph

variable {V E : Type*}

/-- The graph without nodes. -/
def empty : OrderedGraph V E := ⟨[], [], .nil, .nil, by simp⟩

/-- An edge leads from one node to another. -/
def Adj (g : OrderedGraph V E) (u v : V) : Prop := (u, v) ∈ g.edges.map Prod.fst

variable [DecidableEq V]

instance (g : OrderedGraph V E) (u v : V) : Decidable (g.Adj u v) :=
  inferInstanceAs (Decidable ((u, v) ∈ g.edges.map Prod.fst))

/-- The nodes the edges of a node lead to. -/
def successors (g : OrderedGraph V E) (u : V) : List V :=
  (g.edges.filter fun e => e.1.1 = u).map fun e => e.1.2

/-- The nodes whose edges lead to a node. -/
def predecessors (g : OrderedGraph V E) (v : V) : List V :=
  (g.edges.filter fun e => e.1.2 = v).map fun e => e.1.1

/-- The value of an edge. -/
def edgeData (g : OrderedGraph V E) (u v : V) : Option E :=
  (g.edges.find? fun e => e.1 = (u, v)).map Prod.snd

/-! ### Growing -/

/-- The nodes with one more. -/
def insertNode (vs : List V) (v : V) : List V := if v ∈ vs then vs else vs ++ [v]

theorem mem_insertNode {vs : List V} {v w : V} : w ∈ insertNode vs v ↔ w ∈ vs ∨ w = v := by
  unfold insertNode
  split
  · next h =>
    constructor
    · exact .inl
    · rintro (hw | rfl)
      · exact hw
      · exact h
  · simp

theorem nodup_insertNode {vs : List V} (h : vs.Nodup) (v : V) : (insertNode vs v).Nodup := by
  unfold insertNode
  split
  · exact h
  · next hv => exact List.nodup_append.mpr ⟨h, by simp, by
      intro a ha b hb
      rw [List.mem_singleton] at hb
      rintro rfl
      exact hv (hb ▸ ha)⟩

/-- A node more. -/
def addNode (g : OrderedGraph V E) (v : V) : OrderedGraph V E where
  nodes := insertNode g.nodes v
  edges := g.edges
  nodup_nodes := nodup_insertNode g.nodup_nodes v
  nodup_edges := g.nodup_edges
  ends_mem e he :=
    ⟨mem_insertNode.mpr (.inl (g.ends_mem e he).1), mem_insertNode.mpr (.inl (g.ends_mem e he).2)⟩

/-- The edges with one more, or with the value of one changed. -/
def insertEdge (u v : V) (x : E) : List ((V × V) × E) → List ((V × V) × E)
  | [] => [((u, v), x)]
  | e :: es => if e.1 = (u, v) then ((u, v), x) :: es else e :: insertEdge u v x es

theorem ends_insertEdge (u v : V) (x : E) (es : List ((V × V) × E)) :
    (insertEdge u v x es).map Prod.fst = insertNode (es.map Prod.fst) (u, v) := by
  induction es with
  | nil => rfl
  | cons e es ih =>
    by_cases h : e.1 = (u, v)
    · simp [insertEdge, insertNode, h]
    · have hne : (u, v) ≠ e.1 := fun h' => h h'.symm
      simp only [insertEdge, if_neg h, List.map_cons, ih, insertNode, List.mem_cons, hne, false_or]
      split <;> rfl

/-- An edge more, with its two nodes. -/
def addEdge (g : OrderedGraph V E) (u v : V) (x : E) : OrderedGraph V E where
  nodes := insertNode (insertNode g.nodes u) v
  edges := insertEdge u v x g.edges
  nodup_nodes := nodup_insertNode (nodup_insertNode g.nodup_nodes u) v
  nodup_edges := by
    rw [ends_insertEdge]
    exact nodup_insertNode g.nodup_edges _
  ends_mem e he := by
    have hends : e.1 ∈ insertNode (g.edges.map Prod.fst) (u, v) := by
      rw [← ends_insertEdge u v x]
      exact List.mem_map_of_mem he
    simp only [mem_insertNode]
    rcases mem_insertNode.mp hends with h | h
    · obtain ⟨e', he', heq⟩ := List.mem_map.mp h
      have := g.ends_mem e' he'
      rw [← heq]
      exact ⟨.inl (.inl this.1), .inl (.inl this.2)⟩
    · rw [h]
      exact ⟨.inl (.inr rfl), .inr rfl⟩

theorem adj_addNode (g : OrderedGraph V E) (w u v : V) : (g.addNode w).Adj u v ↔ g.Adj u v :=
  Iff.rfl

theorem adj_addEdge (g : OrderedGraph V E) (a b : V) (x : E) (u v : V) :
    (g.addEdge a b x).Adj u v ↔ g.Adj u v ∨ (u = a ∧ v = b) := by
  show (u, v) ∈ (insertEdge a b x g.edges).map Prod.fst ↔ _
  rw [ends_insertEdge, mem_insertNode, Prod.mk.injEq]
  exact Iff.rfl

/-- The values of the edges after one more. -/
theorem edgeData_addEdge (g : OrderedGraph V E) (a b : V) (x : E) (u v : V) :
    (g.addEdge a b x).edgeData u v = if (u, v) = (a, b) then some x else g.edgeData u v := by
  have hfind : ∀ es : List ((V × V) × E),
      ((insertEdge a b x es).find? fun e => e.1 = (u, v)).map Prod.snd =
        if (u, v) = (a, b) then some x else (es.find? fun e => e.1 = (u, v)).map Prod.snd := by
    intro es
    induction es with
    | nil =>
      rw [insertEdge]
      by_cases h : (u, v) = (a, b)
      · simp [h]
      · rw [if_neg h, List.find?_cons_of_neg (by simpa using Ne.symm h)]
    | cons e es ih =>
      rw [insertEdge]
      by_cases he : e.1 = (a, b)
      · rw [if_pos he]
        by_cases h : (u, v) = (a, b)
        · simp [h]
        · rw [if_neg h, List.find?_cons_of_neg (by simpa using Ne.symm h),
            List.find?_cons_of_neg (by simpa [he] using Ne.symm h)]
      · rw [if_neg he]
        by_cases h : e.1 = (u, v)
        · rw [List.find?_cons_of_pos (by simpa using h), List.find?_cons_of_pos (by simpa using h),
            if_neg fun heq => he (h.trans heq)]
        · rw [List.find?_cons_of_neg (by simpa using h), List.find?_cons_of_neg (by simpa using h),
            ih]
  exact hfind g.edges

/-- One addition to a graph. -/
inductive Addition (V E : Type*) where
  | node (v : V)
  | edge (u v : V) (x : E)

/-- The nodes an addition brings. -/
def Addition.ends : Addition V E → List V
  | .node v => [v]
  | .edge u v _ => [u, v]

/-- The graph after an addition. -/
def add (g : OrderedGraph V E) : Addition V E → OrderedGraph V E
  | .node v => g.addNode v
  | .edge u v x => g.addEdge u v x

/-- The graph built by a list of additions. -/
def grow (as : List (Addition V E)) : OrderedGraph V E := as.foldl add empty

/-- The nodes of a graph that was built are those the additions brought. -/
theorem mem_nodes_grow (as : List (Addition V E)) (v : V) :
    v ∈ (grow as).nodes ↔ ∃ a ∈ as, v ∈ a.ends := by
  induction as using List.reverseRecOn with
  | nil => simp [grow, empty]
  | append_singleton as a ih =>
    have hgrow : grow (as ++ [a]) = (grow as).add a := by simp [grow]
    have hstep : v ∈ ((grow as).add a).nodes ↔ v ∈ (grow as).nodes ∨ v ∈ a.ends := by
      cases a with
      | node w => simp [add, addNode, mem_insertNode, Addition.ends]
      | edge u w x => simp [add, addEdge, mem_insertNode, Addition.ends, or_assoc]
    rw [hgrow, hstep, ih]
    simp only [List.mem_append, List.mem_singleton, or_and_right, exists_or, exists_eq_left]

/-- Its edges are those that were added. -/
theorem adj_grow (as : List (Addition V E)) (u v : V) :
    (grow as).Adj u v ↔ ∃ x, .edge u v x ∈ as := by
  induction as using List.reverseRecOn with
  | nil => simp [grow, empty, Adj]
  | append_singleton as a ih =>
    have hgrow : grow (as ++ [a]) = (grow as).add a := by simp [grow]
    rw [hgrow]
    cases a with
    | node w =>
      rw [add, adj_addNode, ih]
      simp
    | edge a b x =>
      rw [add, adj_addEdge, ih]
      simp [exists_or]

/-! ### Reading -/

theorem mem_successors {g : OrderedGraph V E} {u v : V} : v ∈ g.successors u ↔ g.Adj u v := by
  simp [successors, Adj]

theorem mem_predecessors {g : OrderedGraph V E} {u v : V} : u ∈ g.predecessors v ↔ g.Adj u v := by
  simp [predecessors, Adj]

omit [DecidableEq V] in
theorem Adj.left_mem {g : OrderedGraph V E} {u v : V} (h : g.Adj u v) : u ∈ g.nodes := by
  obtain ⟨e, he, heq⟩ := List.mem_map.mp h
  have := (g.ends_mem e he).1
  rwa [heq] at this

omit [DecidableEq V] in
theorem Adj.right_mem {g : OrderedGraph V E} {u v : V} (h : g.Adj u v) : v ∈ g.nodes := by
  obtain ⟨e, he, heq⟩ := List.mem_map.mp h
  have := (g.ends_mem e he).2
  rwa [heq] at this

/-- The value of an edge is the one it is listed with. -/
theorem edgeData_eq_some_iff {g : OrderedGraph V E} {u v : V} {x : E} :
    g.edgeData u v = some x ↔ ((u, v), x) ∈ g.edges := by
  unfold edgeData
  rw [Option.map_eq_some_iff]
  constructor
  · rintro ⟨⟨ends, y⟩, hfind, rfl⟩
    have hends : ends = (u, v) := by simpa using List.find?_some hfind
    subst hends
    exact List.mem_of_find?_eq_some hfind
  · intro hmem
    rcases hfind : g.edges.find? (fun e => e.1 = (u, v)) with _ | e
    · have := List.find?_eq_none.mp hfind _ hmem
      simp at this
    · have hends : e.1 = (u, v) := by simpa using List.find?_some hfind
      have heq := List.inj_on_of_nodup_map g.nodup_edges
        (List.mem_of_find?_eq_some hfind) hmem hends
      exact ⟨e, hfind, by rw [heq]⟩

theorem exists_edgeData {g : OrderedGraph V E} {u v : V} (h : g.Adj u v) :
    ∃ x, g.edgeData u v = some x := by
  obtain ⟨⟨ends, x⟩, he, rfl⟩ := List.mem_map.mp h
  exact ⟨x, edgeData_eq_some_iff.mpr he⟩

/-! ### Leaving edges out -/

/-- The graph without some of its edges. -/
def without (g : OrderedGraph V E) (drop : List (V × V)) : OrderedGraph V E where
  nodes := g.nodes
  edges := g.edges.filter fun e => e.1 ∉ drop
  nodup_nodes := g.nodup_nodes
  nodup_edges := g.nodup_edges.sublist (List.filter_sublist.map _)
  ends_mem e he := g.ends_mem e (List.mem_filter.mp he).1

theorem adj_without (g : OrderedGraph V E) (drop : List (V × V)) (u v : V) :
    (g.without drop).Adj u v ↔ g.Adj u v ∧ (u, v) ∉ drop := by
  simp only [Adj, without, List.mem_map, List.mem_filter, decide_eq_true_eq]
  constructor
  · rintro ⟨e, ⟨he, hdrop⟩, heq⟩
    exact ⟨⟨e, he, heq⟩, heq ▸ hdrop⟩
  · rintro ⟨⟨e, he, heq⟩, hdrop⟩
    exact ⟨e, ⟨he, heq ▸ hdrop⟩, heq⟩

/-! ### Walks -/

/-- A walk of a graph from one node to another, as the list of its nodes. -/
def Walk (g : OrderedGraph V E) (src dst : V) (p : List V) : Prop :=
  p.head? = some src ∧ p.getLast? = some dst ∧ p.IsChain g.Adj ∧ ∀ v ∈ p, v ∈ g.nodes

/-- A walk no longer than any other between its ends. -/
def Shortest (g : OrderedGraph V E) (src dst : V) (p : List V) : Prop :=
  g.Walk src dst p ∧ ∀ q, g.Walk src dst q → p.length ≤ q.length

omit [DecidableEq V] in
theorem walk_singleton {g : OrderedGraph V E} {v : V} (hv : v ∈ g.nodes) : g.Walk v v [v] := by
  simp [Walk, hv]

omit [DecidableEq V] in
theorem walk_cons {g : OrderedGraph V E} {u v dst : V} {p : List V} (hadj : g.Adj u v)
    (hp : g.Walk v dst p) : g.Walk u dst (u :: p) := by
  obtain ⟨hhead, hlast, hchain, hmem⟩ := hp
  rcases p with _ | ⟨w, p⟩
  · cases hhead
  obtain rfl : w = v := by simpa using hhead
  refine ⟨rfl, by simpa using hlast, .cons_cons hadj hchain, ?_⟩
  intro x hx
  rcases List.mem_cons.mp hx with rfl | hx
  · exact hadj.left_mem
  · exact hmem x hx

omit [DecidableEq V] in
/-- A walk is one node, or an edge and a walk. -/
theorem Walk.cases {g : OrderedGraph V E} {u dst : V} {p : List V} (hp : g.Walk u dst p) :
    (p = [u] ∧ u = dst ∧ u ∈ g.nodes) ∨ ∃ v q, p = u :: q ∧ g.Adj u v ∧ g.Walk v dst q := by
  obtain ⟨hhead, hlast, hchain, hmem⟩ := hp
  rcases p with _ | ⟨w, _ | ⟨v, q⟩⟩
  · cases hhead
  · obtain rfl : w = u := by simpa using hhead
    exact .inl ⟨rfl, by simpa using hlast, hmem w (by simp)⟩
  · obtain rfl : w = u := by simpa using hhead
    rw [List.isChain_cons_cons] at hchain
    refine .inr ⟨v, v :: q, rfl, hchain.1, rfl, by simpa using hlast, hchain.2, ?_⟩
    intro x hx
    exact hmem x (List.mem_cons_of_mem _ hx)

end OrderedGraph
