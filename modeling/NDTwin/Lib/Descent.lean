import Mathlib.Data.List.MinMax
import NDTwin.Lib.HopSweep

/-!
# Shortest paths by descent

When every node knows its hop count to a destination, a path is found by going
from each node to a successor that is one hop closer.  Where several are, the
one with the least key is taken; as the choice never mentions where the path
began, the rest of a path is the path of the node it starts from.

## Main definitions

* `nextHop` — the successor one hop closer that has the least key.
* `descend` — the nodes met by taking the next hop a number of times.

## Main results

* `descend_spec` — **descending by the hop counts walks a shortest path.**
* `descend_suffix` — **the rest of a path is the path from there.**
* `nextHop_congr` — **the choice depends on the edges and not on their order.**
-/

namespace OrderedGraph

variable {V E K : Type*}

/-! ### Hop counts along an edge -/

theorem hops_zero_iff {g : OrderedGraph V E} {dst v : V} :
    g.Hops dst v 0 ↔ v = dst ∧ dst ∈ g.nodes := by
  constructor
  · rintro ⟨⟨p, hp, hlen⟩, -⟩
    rcases hp.cases with ⟨-, rfl, hmem⟩ | ⟨w, q, rfl, -, hq⟩
    · exact ⟨rfl, hmem⟩
    · obtain rfl : q = [] := List.length_eq_zero_iff.mp (by simpa using hlen)
      cases hq.1
  · rintro ⟨rfl, hmem⟩
    refine ⟨⟨[v], walk_singleton hmem, rfl⟩, ?_⟩
    rintro p ⟨hhead, -⟩
    rcases p with _ | ⟨w, p⟩
    · cases hhead
    · simp

/-- A node's count is at most one more than that of any successor. -/
theorem Hops.le_succ {g : OrderedGraph V E} {dst v w : V} {m n : ℕ} (hv : g.Hops dst v m)
    (hw : g.Hops dst w n) (hadj : g.Adj v w) : m ≤ n + 1 := by
  obtain ⟨p, hp, hlen⟩ := hw.1
  have := hv.2 (v :: p) (walk_cons hadj hp)
  rw [List.length_cons] at this
  omega

/-- A node away from the destination has a successor that is one hop closer. -/
theorem Hops.exists_closer {g : OrderedGraph V E} {dst v : V} {n : ℕ}
    (h : g.Hops dst v (n + 1)) : ∃ w, g.Adj v w ∧ g.Hops dst w n := by
  obtain ⟨⟨p, hp, hlen⟩, hmin⟩ := h
  rcases hp.cases with ⟨rfl, -, -⟩ | ⟨w, q, rfl, hadj, hq⟩
  · simp at hlen
  refine ⟨w, hadj, ⟨q, hq, by simpa using hlen⟩, ?_⟩
  intro r hr
  have := hmin (v :: r) (walk_cons hadj hr)
  rw [List.length_cons] at this
  omega

variable [DecidableEq V] [LinearOrder K]

/-! ### The next hop -/

/-- Among the successors that are one hop closer, the one with the least key. -/
def nextHop (g : OrderedGraph V E) (key : V → V → K) (dist : V → Option ℕ) (v : V) : Option V :=
  match dist v with
  | none => none
  | some n => ((g.successors v).filter fun w => (dist w).map (· + 1) = some n).argmin (key v)

/-- With the right counts, the next hop is a successor that is one hop closer. -/
theorem nextHop_spec {g : OrderedGraph V E} (key : V → V → K) {dst : V} {dist : V → Option ℕ}
    (hdist : ∀ v n, dist v = some n ↔ g.Hops dst v n) {v : V} {n : ℕ}
    (hv : g.Hops dst v (n + 1)) :
    ∃ w, g.nextHop key dist v = some w ∧ g.Adj v w ∧ g.Hops dst w n := by
  have hmem (w : V) : w ∈ (g.successors v).filter (fun w => (dist w).map (· + 1) = some (n + 1)) ↔
      g.Adj v w ∧ g.Hops dst w n := by
    rw [List.mem_filter, mem_successors, decide_eq_true_eq, ← hdist]
    simp
  have hnext : g.nextHop key dist v =
      ((g.successors v).filter fun w => (dist w).map (· + 1) = some (n + 1)).argmin (key v) := by
    unfold nextHop
    rw [(hdist v (n + 1)).mpr hv]
  rw [hnext]
  rcases harg : ((g.successors v).filter fun w =>
      (dist w).map (· + 1) = some (n + 1)).argmin (key v) with _ | w
  · obtain ⟨w, hw⟩ := hv.exists_closer
    rw [List.argmin_eq_none] at harg
    have := (hmem w).mpr hw
    rw [harg] at this
    cases this
  · exact ⟨w, rfl, (hmem w).mp (List.argmin_mem harg)⟩

omit [DecidableEq V] in
/-- The least key is that of the members, whatever their order. -/
theorem argmin_congr {f : V → K} (hf : Function.Injective f) {l l' : List V}
    (h : ∀ v, v ∈ l ↔ v ∈ l') : l.argmin f = l'.argmin f := by
  rcases hl : l.argmin f with _ | a
  · rw [List.argmin_eq_none] at hl
    obtain rfl : l' = [] := by
      rw [List.eq_nil_iff_forall_not_mem]
      intro v hv
      have := (h v).mpr hv
      rw [hl] at this
      cases this
    rfl
  · have ha := List.argmin_mem hl
    rcases hl' : l'.argmin f with _ | b
    · rw [List.argmin_eq_none] at hl'
      have := (h a).mp ha
      rw [hl'] at this
      cases this
    · have hb := List.argmin_mem hl'
      have hab := List.le_of_mem_argmin ((h b).mpr hb) hl
      have hba := List.le_of_mem_argmin ((h a).mp ha) hl'
      rw [hf (le_antisymm hab hba)]

/-- The choice depends on the edges and not on their order. -/
theorem nextHop_congr {g g' : OrderedGraph V E} {key : V → V → K}
    (hkey : ∀ v, Function.Injective (key v)) {dist : V → Option ℕ}
    (hadj : ∀ u v, g.Adj u v ↔ g'.Adj u v) (v : V) :
    g.nextHop key dist v = g'.nextHop key dist v := by
  unfold nextHop
  rcases dist v with _ | n
  · rfl
  · refine argmin_congr (hkey v) ?_
    intro w
    rw [List.mem_filter, List.mem_filter, mem_successors, mem_successors, hadj]

/-! ### The descent -/

omit [DecidableEq V] in
/-- The nodes met by taking the next hop `n` times. -/
def descend (next : V → Option V) : ℕ → V → Option (List V)
  | 0, v => some [v]
  | n + 1, v =>
    match next v with
    | none => none
    | some w => (descend next n w).map (v :: ·)

omit [DecidableEq V] in
theorem descend_succ {next : V → Option V} {n : ℕ} {v : V} {p : List V}
    (h : descend next (n + 1) v = some p) :
    ∃ w q, next v = some w ∧ descend next n w = some q ∧ p = v :: q := by
  rw [descend] at h
  rcases hw : next v with _ | w
  · simp [hw] at h
  · simp only [hw, Option.map_eq_some_iff] at h
    obtain ⟨q, hq, rfl⟩ := h
    exact ⟨w, q, rfl, hq, rfl⟩

omit [DecidableEq V] in
theorem length_descend {next : V → Option V} {n : ℕ} {v : V} {p : List V}
    (h : descend next n v = some p) : p.length = n + 1 := by
  induction n generalizing v p with
  | zero =>
    cases h
    rfl
  | succ n ih =>
    obtain ⟨w, q, -, hq, rfl⟩ := descend_succ h
    rw [List.length_cons, ih hq]

omit [DecidableEq V] in
theorem head?_descend {next : V → Option V} {n : ℕ} {v : V} {p : List V}
    (h : descend next n v = some p) : p.head? = some v := by
  rcases n with _ | n
  · cases h
    rfl
  · obtain ⟨w, q, -, -, rfl⟩ := descend_succ h
    rfl

omit [DecidableEq V] in
/-- The rest of a path is the path from there. -/
theorem descend_suffix {next : V → Option V} {n : ℕ} {v w : V} {pre rest : List V}
    (h : descend next n v = some (pre ++ w :: rest)) :
    descend next rest.length w = some (w :: rest) := by
  induction pre generalizing n v with
  | nil =>
    obtain rfl : w = v := by simpa using head?_descend h
    have hlen := length_descend h
    obtain rfl : rest.length = n := by simpa using hlen
    exact h
  | cons u pre ih =>
    rcases n with _ | n
    · have hlen := length_descend h
      simp at hlen
    · obtain ⟨x, q, -, hq, hp⟩ := descend_succ h
      obtain ⟨-, rfl⟩ := List.cons.inj hp
      exact ih hq

omit [DecidableEq V] in
/-- Each node of a path is followed by its next hop. -/
theorem descend_next {next : V → Option V} {n : ℕ} {v u w : V} {pre rest : List V}
    (h : descend next n v = some (pre ++ u :: w :: rest)) : next u = some w := by
  have hsuffix := descend_suffix h
  obtain ⟨x, q, hx, hq, hp⟩ := descend_succ hsuffix
  obtain ⟨-, rfl⟩ := List.cons.inj hp
  obtain rfl : w = x := by simpa using head?_descend hq
  exact hx

omit [DecidableEq V] [LinearOrder K] in
/-- Going one hop closer each time walks a shortest path. -/
theorem descend_spec {g : OrderedGraph V E} {dst : V} {next : V → Option V}
    (hnext : ∀ v n, g.Hops dst v (n + 1) → ∃ w, next v = some w ∧ g.Adj v w ∧ g.Hops dst w n)
    {v : V} {n : ℕ} (hv : g.Hops dst v n) :
    ∃ p, descend next n v = some p ∧ g.Shortest v dst p := by
  have hwalk : ∃ p, descend next n v = some p ∧ g.Walk v dst p := by
    induction n generalizing v with
    | zero =>
      obtain ⟨rfl, hmem⟩ := hops_zero_iff.mp hv
      exact ⟨[v], rfl, walk_singleton hmem⟩
    | succ n ih =>
      obtain ⟨w, hw, hadj, hhops⟩ := hnext v n hv
      obtain ⟨p, hp, hpw⟩ := ih hhops
      exact ⟨v :: p, by simp [descend, hw, hp], walk_cons hadj hpw⟩
  obtain ⟨p, hp, hpw⟩ := hwalk
  refine ⟨p, hp, hpw, ?_⟩
  intro q hq
  rw [length_descend hp]
  exact hv.2 q hq

/-! ### Shortest walks -/

omit [DecidableEq V] [LinearOrder K] in
/-- The rest of a walk is a walk. -/
theorem Walk.suffix {g : OrderedGraph V E} {src dst v : V} {pre rest : List V}
    (h : g.Walk src dst (pre ++ v :: rest)) : g.Walk v dst (v :: rest) := by
  obtain ⟨-, hlast, hchain, hmem⟩ := h
  refine ⟨rfl, by simpa using hlast, (List.isChain_append.mp hchain).2.1, ?_⟩
  intro u hu
  exact hmem u (List.mem_append_right pre hu)

omit [DecidableEq V] [LinearOrder K] in
/-- A shortest walk visits no node twice. -/
theorem Shortest.nodup {g : OrderedGraph V E} {src dst : V} {p : List V}
    (h : g.Shortest src dst p) : p.Nodup := by
  induction p generalizing src with
  | nil => exact .nil
  | cons v p ih =>
    obtain ⟨hwalk, hmin⟩ := h
    rcases hwalk.cases with ⟨hp, -, -⟩ | ⟨w, q, hp, hadj, hq⟩
    · rw [hp]
      simp
    obtain ⟨rfl, rfl⟩ := List.cons.inj hp
    refine List.nodup_cons.mpr ⟨?_, ih ⟨hq, ?_⟩⟩
    · -- from a second visit on, the walk would be shorter
      intro hv
      obtain ⟨s, t, rfl⟩ := List.append_of_mem hv
      have := hmin (v :: t) hq.suffix
      simp only [List.length_cons, List.length_append] at this
      omega
    · intro r hr
      have := hmin (v :: r) (walk_cons hadj hr)
      simpa using this

end OrderedGraph
