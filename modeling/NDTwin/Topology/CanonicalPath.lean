import Mathlib.Algebra.Group.Nat.Defs
import Mathlib.Data.List.Lex
import Mathlib.Data.Prod.Lex
import NDTwin.Lib.Descent
import NDTwin.Lib.JsonText

/-!
# Canonical shortest paths

Paths between hosts are shortest paths, and where there are several the choice
is made by a digest of the destination, the node and the candidate: never by
the order in which links were discovered, and never by where the packet came
from.  So the path that is advertised and the rules that the switches hold for
themselves are the same thing.

The digest is a parameter: nothing depends on which one it is.

## Main definitions

* `Node` — switches and hosts.
* `nodeToken`, `hopRank`, `hopDistancesTo` — ranks and distances.
* `canonicalNextHop`, `canonicalPath`, `canonicalPathsTo` — the choice.

## Main results

* `nodeToken_inj` — the rank of two candidates is never a tie.
* `canonicalPath_consistent` — **canonical paths are shortest, depend on the graph alone and agree
  hop by hop.**
-/

namespace NDTwin.Topology

open OrderedGraph

variable {E : Type}

/-! ### Nodes -/

/-- A switch by its 64-bit dpid, or a host by its address.  An address that has no rank, because
its length does not fit two bytes, names no host. -/
inductive Node where
  | switch (dpid : ℕ) (dpid_lt : dpid < 2 ^ 64)
  | host (ip : String) (ip_fits : ip.toByteArray.size < 2 ^ 16 - 2)
  deriving DecidableEq

/-- `str.encode("utf-8")`. -/
def utf8 (s : String) : List ℕ := s.toByteArray.data.toList.map UInt8.toNat

/-- `_node_token(node)`: the tag `i:` or `s:`, and the name. -/
def nodeToken : Node → List ℕ
  | .switch dpid _ => 105 :: 58 :: utf8 (Nat.repr dpid)
  | .host ip _ => 115 :: 58 :: utf8 ip

/-- A token with its length before it, in two bytes. -/
def prefixed (tok : List ℕ) : List ℕ := tok.length / 256 :: tok.length % 256 :: tok

variable (digest : List ℕ → List ℕ)

/-- `_hop_rank(dst, here, candidate)`. -/
def hopRank (dst here candidate : Node) : List ℕ :=
  digest (prefixed (nodeToken dst) ++ prefixed (nodeToken here) ++ prefixed (nodeToken candidate))

/-- The key a candidate is chosen by. -/
def hopKey (dst here candidate : Node) : List ℕ ×ₗ List ℕ :=
  toLex (hopRank digest dst here candidate, nodeToken candidate)

/-! ### Paths -/

/-- `hop_distances_to(net, dst)`. -/
def hopDistancesTo (net : OrderedGraph Node E) (dst : Node) : Dict Node ℕ := net.hopSweep dst

/-- `canonical_next_hop(net, node, dst, dist)`. -/
def canonicalNextHop (net : OrderedGraph Node E) (node dst : Node) (dist : Dict Node ℕ) :
    Option Node :=
  match dist.get? node with
  | none => none
  | some n =>
    ((net.successors node).filter fun nxt => (dist.get? nxt).map (· + 1) = some n).argmin
      (hopKey digest dst node)

/-- The walk of `canonical_path`, hop by hop. -/
def walkHops (net : OrderedGraph Node E) (dst : Node) (dist : Dict Node ℕ) :
    ℕ → Node → Option (List Node)
  | 0, node => some [node]
  | n + 1, node =>
    match canonicalNextHop digest net node dst dist with
    | none => none
    | some nxt => (walkHops net dst dist n nxt).map (node :: ·)

/-- `canonical_path(net, src, dst, dist)`. -/
def canonicalPathOn (net : OrderedGraph Node E) (src dst : Node) (dist : Dict Node ℕ) :
    Option (List Node) :=
  match dist.get? src with
  | none => none
  | some n => (walkHops digest net dst dist n src).filter fun path => path.getLast? = some dst

/-- `canonical_path(net, src, dst)`. -/
def canonicalPath (net : OrderedGraph Node E) (src dst : Node) : Option (List Node) :=
  canonicalPathOn digest net src dst (hopDistancesTo net dst)

/-- `canonical_paths_to(net, dst)`. -/
def canonicalPathsTo (net : OrderedGraph Node E) (dst : Node) : List (Node × List Node) :=
  (hopDistancesTo net dst).keys.filterMap fun src =>
    if src = dst then none
    else (canonicalPathOn digest net src dst (hopDistancesTo net dst)).map (src, ·)

/-! ### Ranks -/

theorem utf8_inj {s t : String} (h : utf8 s = utf8 t) : s = t := by
  have hmap : Function.Injective UInt8.toNat := fun _ _ => UInt8.toNat_inj.mp
  have hlist := List.map_injective_iff.mpr hmap h
  apply String.toByteArray_inj.mp
  exact ByteArray.ext (Array.toList_inj.mp hlist)

/-- Two nodes never have the same token. -/
theorem nodeToken_inj {u v : Node} (h : nodeToken u = nodeToken v) : u = v := by
  cases u with
  | switch dpid _ =>
    cases v with
    | switch dpid' _ =>
      simp only [nodeToken, List.cons.injEq, true_and] at h
      have hrepr := utf8_inj h
      rw [Nat.repr_eq_ofList_toDigits, Nat.repr_eq_ofList_toDigits] at hrepr
      have hdpid : dpid = dpid' := Json.toDigits_inj (String.ofList_injective hrepr)
      subst hdpid
      rfl
    | host ip _ => simp [nodeToken] at h
  | host ip _ =>
    cases v with
    | switch dpid _ => simp [nodeToken] at h
    | host ip' _ =>
      simp only [nodeToken, List.cons.injEq, true_and] at h
      have hip := utf8_inj h
      subst hip
      rfl

theorem hopKey_injective (dst here : Node) : Function.Injective (hopKey digest dst here) := by
  intro u v h
  have := (Prod.ext_iff.mp (toLex.injective h)).2
  exact nodeToken_inj this

/-! ### The choice as a descent -/

theorem canonicalNextHop_eq (net : OrderedGraph Node E) (node dst : Node) (dist : Dict Node ℕ) :
    canonicalNextHop digest net node dst dist =
      net.nextHop (hopKey digest dst) dist.get? node := rfl

theorem walkHops_eq (net : OrderedGraph Node E) (dst : Node) (dist : Dict Node ℕ) (n : ℕ)
    (node : Node) :
    walkHops digest net dst dist n node =
      descend (fun v => canonicalNextHop digest net v dst dist) n node := by
  induction n generalizing node with
  | zero => rfl
  | succ n ih =>
    rw [walkHops, descend]
    rcases canonicalNextHop digest net node dst dist with _ | nxt
    · rfl
    · simp only [ih]

/-- One hop closer each time. -/
theorem canonicalNextHop_spec (net : OrderedGraph Node E) {dst node : Node} {n : ℕ}
    (h : net.Hops dst node (n + 1)) :
    ∃ nxt, canonicalNextHop digest net node dst (hopDistancesTo net dst) = some nxt ∧
      net.Adj node nxt ∧ net.Hops dst nxt n :=
  nextHop_spec (hopKey digest dst) (fun v n => get?_hopSweep net dst v n) h

/-- **A node with a hop count has the path of that many hops.** -/
theorem canonicalPath_of_hops (net : OrderedGraph Node E) {src dst : Node} {n : ℕ}
    (h : net.Hops dst src n) :
    ∃ p, canonicalPath digest net src dst = some p ∧ net.Shortest src dst p ∧
      descend (fun v => canonicalNextHop digest net v dst (hopDistancesTo net dst)) n src =
        some p := by
  obtain ⟨p, hp, hshort⟩ := descend_spec
    (fun _ _ hv => canonicalNextHop_spec digest net hv) h
  refine ⟨p, ?_, hshort, hp⟩
  unfold canonicalPath canonicalPathOn
  rw [show (hopDistancesTo net dst).get? src = some n from (get?_hopSweep net dst src n).mpr h]
  simp only [walkHops_eq, hp]
  simp [hshort.1.2.1]

/-- A node with a walk to the destination has a hop count. -/
theorem exists_hops {net : OrderedGraph Node E} {src dst : Node} {p : List Node}
    (h : net.Walk src dst p) : ∃ n, net.Hops dst src n := by
  classical
  have hex : ∃ k, ∃ q, net.Walk src dst q ∧ q.length = k := ⟨p.length, p, h, rfl⟩
  obtain ⟨q, hq, hlen⟩ := Nat.find_spec hex
  have hpos : 0 < q.length := by
    rcases q with _ | ⟨v, q⟩
    · cases hq.1
    · simp
  refine ⟨Nat.find hex - 1, ⟨q, hq, by omega⟩, ?_⟩
  intro r hr
  have := Nat.find_min' hex ⟨r, hr, rfl⟩
  omega

/-- The path that is found belongs to a hop count. -/
theorem hops_of_canonicalPath {net : OrderedGraph Node E} {src dst : Node} {p : List Node}
    (h : canonicalPath digest net src dst = some p) :
    ∃ n, net.Hops dst src n ∧ net.Shortest src dst p ∧
      descend (fun v => canonicalNextHop digest net v dst (hopDistancesTo net dst)) n src =
        some p := by
  unfold canonicalPath canonicalPathOn at h
  rcases hn : (hopDistancesTo net dst).get? src with _ | n
  · simp [hn] at h
  have hhops : net.Hops dst src n := (get?_hopSweep net dst src n).mp hn
  obtain ⟨p', hp', hshort, hdesc⟩ := canonicalPath_of_hops digest net hhops
  unfold canonicalPath canonicalPathOn at hp'
  obtain rfl : p' = p := Option.some.inj (hp'.symm.trans h)
  exact ⟨n, hhops, hshort, hdesc⟩

theorem canonicalPath_eq_none_iff (net : OrderedGraph Node E) (src dst : Node) :
    canonicalPath digest net src dst = none ↔ ¬∃ p, net.Walk src dst p := by
  constructor
  · rintro hnone ⟨p, hp⟩
    obtain ⟨n, hn⟩ := exists_hops hp
    obtain ⟨q, hq, -⟩ := canonicalPath_of_hops digest net hn
    rw [hnone] at hq
    cases hq
  · intro hno
    rcases hp : canonicalPath digest net src dst with _ | p
    · rfl
    · obtain ⟨n, -, hshort, -⟩ := hops_of_canonicalPath digest hp
      exact absurd ⟨p, hshort.1⟩ hno

/-- The rest of a path is the path from there, and each node is followed by its next hop. -/
theorem canonicalPath_suffix {net : OrderedGraph Node E} {src dst node : Node}
    {pre rest : List Node} (h : canonicalPath digest net src dst = some (pre ++ node :: rest)) :
    canonicalPath digest net node dst = some (node :: rest) ∧
      ∀ nxt ∈ rest.head?,
        canonicalNextHop digest net node dst (hopDistancesTo net dst) = some nxt := by
  obtain ⟨n, -, hshort, hdesc⟩ := hops_of_canonicalPath digest h
  have hsuffix := descend_suffix hdesc
  constructor
  · obtain ⟨m, hm⟩ := exists_hops hshort.1.suffix
    obtain ⟨q, hq, hqshort, hqdesc⟩ := canonicalPath_of_hops digest net hm
    -- the two walks from the node are as long as each other: a longer rest would not be shortest
    have hle : (node :: rest).length ≤ q.length := by
      have hwalk : net.Walk src dst (pre ++ q) := by
        obtain ⟨hhead, hlast, hchain, hmem⟩ := hshort.1
        obtain ⟨hqhead, hqlast, hqchain, hqmem⟩ := hqshort.1
        rcases q with _ | ⟨w, q⟩
        · cases hqhead
        obtain rfl : w = node := by simpa using hqhead
        refine ⟨?_, by simpa using hqlast, ?_, ?_⟩
        · rcases pre with _ | ⟨u, pre⟩
          · simpa using hhead
          · simpa using hhead
        · rw [List.isChain_append] at hchain ⊢
          exact ⟨hchain.1, hqchain, fun a ha b hb => hchain.2.2 a ha b (by simpa using hb)⟩
        · intro v hv
          rcases List.mem_append.mp hv with hv | hv
          · exact hmem v (List.mem_append_left _ hv)
          · exact hqmem v hv
      have := hshort.2 _ hwalk
      simp only [List.length_append] at this
      omega
    have hge := hqshort.2 _ hshort.1.suffix
    have hlen := length_descend hqdesc
    simp only [List.length_cons] at hle hge
    obtain rfl : m = rest.length := by omega
    rw [hq, ← hqdesc, hsuffix]
  · intro nxt hnxt
    rcases rest with _ | ⟨w, rest⟩
    · cases hnxt
    · obtain rfl : w = nxt := by simpa using hnxt
      exact descend_next hdesc

theorem canonicalPath_tail {net : OrderedGraph Node E} {src dst node : Node} {rest : List Node}
    (h : canonicalPath digest net src dst = some (src :: node :: rest)) :
    canonicalPath digest net node dst = some (node :: rest) := by
  rw [← List.singleton_append] at h
  exact (canonicalPath_suffix digest h).1

/-- Two graphs with the same nodes and edges have the same paths. -/
theorem canonicalPath_congr {net net' : OrderedGraph Node E}
    (hnodes : ∀ v, v ∈ net.nodes ↔ v ∈ net'.nodes) (hadj : ∀ u v, net.Adj u v ↔ net'.Adj u v)
    (src dst : Node) : canonicalPath digest net src dst = canonicalPath digest net' src dst := by
  have hchain (p : List Node) : p.IsChain net.Adj ↔ p.IsChain net'.Adj := by
    have hrel : net.Adj = net'.Adj := funext fun u => funext fun v => propext (hadj u v)
    rw [hrel]
  have hwalk (v : Node) (p : List Node) : net.Walk v dst p ↔ net'.Walk v dst p := by
    simp only [Walk, hnodes, hchain]
  have hhops (v : Node) (n : ℕ) : net.Hops dst v n ↔ net'.Hops dst v n := by
    simp only [Hops, hwalk]
  have hdist (v : Node) : (hopDistancesTo net dst).get? v = (hopDistancesTo net' dst).get? v := by
    refine Option.ext ?_
    intro n
    exact (get?_hopSweep net dst v n).trans ((hhops v n).trans (get?_hopSweep net' dst v n).symm)
  have hnext (v : Node) : canonicalNextHop digest net v dst (hopDistancesTo net dst) =
      canonicalNextHop digest net' v dst (hopDistancesTo net' dst) := by
    rw [canonicalNextHop_eq, canonicalNextHop_eq, funext hdist]
    exact nextHop_congr (hopKey_injective digest dst) hadj v
  unfold canonicalPath canonicalPathOn
  rw [hdist]
  simp only [walkHops_eq, funext hnext]

/-- **Canonical shortest paths are consistent.**  For every graph and destination: there is a path
exactly where the destination can be reached, and it is a shortest one; graphs built from the same
additions in any order have the same paths; and a path visits no node twice, is followed from each
of its nodes on by that node's own path, and goes on from there to that node's own next hop. -/
theorem canonicalPath_consistent (net : OrderedGraph Node E) (dst : Node) :
    (∀ src, canonicalPath digest net src dst = none ↔ ¬∃ p, net.Walk src dst p) ∧
    (∀ src p, canonicalPath digest net src dst = some p → net.Shortest src dst p) ∧
    (∀ (as as' : List (Addition Node E)), as.Perm as' → ∀ src,
      canonicalPath digest (grow as) src dst = canonicalPath digest (grow as') src dst) ∧
    (∀ net' : OrderedGraph Node E, (∀ v, v ∈ net.nodes ↔ v ∈ net'.nodes) →
      (∀ u v, net.Adj u v ↔ net'.Adj u v) → ∀ src,
        canonicalPath digest net src dst = canonicalPath digest net' src dst) ∧
    (∀ src p, canonicalPath digest net src dst = some p → p.Nodup ∧
      ∀ pre node rest, p = pre ++ node :: rest →
        canonicalPath digest net node dst = some (node :: rest) ∧
        ∀ nxt ∈ rest.head?,
          canonicalNextHop digest net node dst (hopDistancesTo net dst) = some nxt) := by
  refine ⟨fun src => canonicalPath_eq_none_iff digest net src dst, ?_, ?_, ?_, ?_⟩
  · intro src p hp
    obtain ⟨n, -, hshort, -⟩ := hops_of_canonicalPath digest hp
    exact hshort
  · intro as as' hperm src
    refine canonicalPath_congr digest (fun v => ?_) (fun u v => ?_) src dst
    · simp only [mem_nodes_grow, hperm.mem_iff]
    · simp only [adj_grow, hperm.mem_iff]
  · intro net' hnodes hadj src
    exact canonicalPath_congr digest hnodes hadj src dst
  · intro src p hp
    obtain ⟨n, -, hshort, -⟩ := hops_of_canonicalPath digest hp
    refine ⟨hshort.nodup, ?_⟩
    rintro pre node rest rfl
    exact canonicalPath_suffix digest hp

/-! ### Two ways round -/

/-- A switch of the fabric below. -/
def sw (n : Fin 16) : Node := .switch n (Nat.lt_trans n.isLt (by decide))

/-- A host of the fabric below. -/
def h1 : Node := .host "10.0.0.1" (by decide)

/-- Another host. -/
def h2 : Node := .host "10.0.0.2" (by decide)

/-- The calls of a discovery: a host at either end of two ways of equal length. -/
def twoWays : List (Addition Node ℕ) :=
  [.node (sw 1), .edge (sw 1) h1 1, .edge h1 (sw 1) 0, .edge (sw 1) (sw 2) 2,
    .edge (sw 2) (sw 1) 1, .edge (sw 1) (sw 3) 3, .edge (sw 3) (sw 1) 1, .edge (sw 2) (sw 4) 2,
    .edge (sw 4) (sw 2) 2, .edge (sw 3) (sw 4) 2, .edge (sw 4) (sw 3) 3, .edge (sw 4) h2 1,
    .edge h2 (sw 4) 0]

theorem canonicalPath_consistent_twoWays :
    canonicalPath id (grow twoWays) h1 h2 = canonicalPath id (grow twoWays.reverse) h1 h2 ∧
    ∃ p, canonicalPath id (grow twoWays) h1 h2 = some p ∧
      (grow twoWays).Shortest h1 h2 p ∧ p.Nodup ∧
      canonicalPath id (grow twoWays) (sw 1) h2 = some p.tail := by
  obtain ⟨-, hshort, hperm, -, hrest⟩ := canonicalPath_consistent id (grow twoWays) h2
  have hpath : canonicalPath id (grow twoWays) h1 h2 = some [h1, sw 1, sw 2, sw 4, h2] := by
    decide +kernel
  refine ⟨hperm twoWays twoWays.reverse twoWays.reverse_perm.symm h1, _, hpath,
    hshort h1 _ hpath, (hrest h1 _ hpath).1, ?_⟩
  exact ((hrest h1 _ hpath).2 [h1] (sw 1) _ rfl).1

end NDTwin.Topology
