import Mathlib.Data.List.Perm.Subperm
import NDTwin.Lib.Dict
import NDTwin.Lib.OrderedGraph

/-!
# Hop counts by one sweep

A breadth-first sweep against the edges finds, for one destination, how many
hops every node is away from it.  The sweep keeps a dictionary of the counts it
knows and a queue of the nodes whose predecessors it has not looked at; what it
finds does not depend on the order in which the graph lists its edges.

## Main definitions

* `Hops g dst v n` — `n` is the least number of hops from `v` to `dst`.
* `visit`, `sweep`, `hopSweep` — the sweep.
* `Swept` — its invariant.

## Main results

* `Swept.step` — **looking at the next node of the queue keeps the invariant.**
* `get?_hopSweep` — **the sweep finds exactly the hop counts.**
-/

namespace OrderedGraph

variable {V E : Type*}

/-- The least number of hops from a node to a destination. -/
def Hops (g : OrderedGraph V E) (dst v : V) (n : ℕ) : Prop :=
  (∃ p, g.Walk v dst p ∧ p.length = n + 1) ∧ ∀ p, g.Walk v dst p → n + 1 ≤ p.length

theorem Hops.unique {g : OrderedGraph V E} {dst v : V} {m n : ℕ} (hm : g.Hops dst v m)
    (hn : g.Hops dst v n) : m = n := by
  obtain ⟨⟨p, hp, hplen⟩, hmin⟩ := hm
  obtain ⟨⟨q, hq, hqlen⟩, hqmin⟩ := hn
  have := hmin q hq
  have := hqmin p hp
  omega

variable [DecidableEq V]

/-! ### The sweep -/

/-- A node's predecessors: those without a count get one and are queued. -/
def visit (n : ℕ) (preds : List V) (s : Dict V ℕ × List V) : Dict V ℕ × List V :=
  preds.foldl (fun s p => if (s.1.get? p).isSome then s else (s.1.set p (n + 1), s.2 ++ [p])) s

/-- The sweep over the nodes of the queue, at most `fuel` of them. -/
def sweep (g : OrderedGraph V E) : ℕ → Dict V ℕ × List V → Dict V ℕ × List V
  | 0, s => s
  | _ + 1, (dist, []) => (dist, [])
  | fuel + 1, (dist, v :: queue) =>
    sweep g fuel (visit ((dist.get? v).getD 0) (g.predecessors v) (dist, queue))

/-- The hop counts to a destination: every node enters the queue at most once. -/
def hopSweep (g : OrderedGraph V E) (dst : V) : Dict V ℕ :=
  if dst ∈ g.nodes then (sweep g g.nodes.length (Dict.empty.set dst 0, [dst])).1 else .empty

/-! ### One visit -/

/-- A visit gives a count to the predecessors that had none, and queues just these. -/
theorem visit_spec (n : ℕ) (preds : List V) (dist : Dict V ℕ) (queue : List V) :
    ∃ new : List V, (visit n preds (dist, queue)).2 = queue ++ new ∧ new.Nodup ∧
      (∀ v, v ∈ new ↔ v ∈ preds ∧ dist.get? v = none) ∧
      (∀ v, (visit n preds (dist, queue)).1.get? v =
        if v ∈ new then some (n + 1) else dist.get? v) ∧
      (visit n preds (dist, queue)).1.keys = dist.keys ++ new := by
  induction preds generalizing dist queue with
  | nil => exact ⟨[], by simp [visit]⟩
  | cons p preds ih =>
    by_cases hp : (dist.get? p).isSome
    · -- it has a count, so nothing happens
      have hvisit : visit n (p :: preds) (dist, queue) = visit n preds (dist, queue) := by
        simp [visit, hp]
      rw [hvisit]
      obtain ⟨new, hqueue, hnodup, hmem, hget, hkeys⟩ := ih dist queue
      refine ⟨new, hqueue, hnodup, ?_, hget, hkeys⟩
      intro v
      rw [hmem, List.mem_cons]
      constructor
      · rintro ⟨hv, hnone⟩
        exact ⟨.inr hv, hnone⟩
      · rintro ⟨rfl | hv, hnone⟩
        · simp [hnone] at hp
        · exact ⟨hv, hnone⟩
    · have hnone : dist.get? p = none := by simpa using hp
      have hvisit : visit n (p :: preds) (dist, queue) =
          visit n preds (dist.set p (n + 1), queue ++ [p]) := by
        simp [visit, hnone]
      rw [hvisit]
      obtain ⟨new, hqueue, hnodup, hmem, hget, hkeys⟩ := ih (dist.set p (n + 1)) (queue ++ [p])
      have hpnew : p ∉ new := by
        intro h
        simpa using ((hmem p).mp h).2
      have hpkeys : p ∉ dist.keys := by
        rw [dist.mem_keys_iff]
        exact hp
      refine ⟨p :: new, ?_, List.nodup_cons.mpr ⟨hpnew, hnodup⟩, ?_, ?_, ?_⟩
      · rw [hqueue, List.append_assoc]
        rfl
      · intro v
        rw [List.mem_cons, List.mem_cons, hmem, Dict.get?_set]
        by_cases hv : v = p
        · simp [hv, hnone]
        · simp [hv]
      · intro v
        rw [hget, Dict.get?_set]
        by_cases hv : v = p
        · simp [hv, hpnew]
        · simp [hv]
      · rw [hkeys, Dict.keys_set, if_neg hpkeys, List.append_assoc]
        rfl

/-! ### The invariant -/

/-- What holds of the counts and the queue between two steps of the sweep. -/
structure Swept (g : OrderedGraph V E) (dst : V) (dist : Dict V ℕ) (queue : List V) : Prop where
  start : dist.get? dst = some 0
  sound : ∀ v n, dist.get? v = some n → ∃ p, g.Walk v dst p ∧ p.length = n + 1
  queued : ∀ q ∈ queue, (dist.get? q).isSome
  closed : ∀ v n, dist.get? v = some n → v ∉ queue → ∀ u, g.Adj u v →
    ∃ m, dist.get? u = some m ∧ m ≤ n + 1
  ordered : queue.Pairwise fun q q' => ∀ n n', dist.get? q = some n → dist.get? q' = some n' →
    n ≤ n'
  near : ∀ v n q m, dist.get? v = some n → q ∈ queue → dist.get? q = some m → n ≤ m + 1

theorem swept_start {g : OrderedGraph V E} {dst : V} (hdst : dst ∈ g.nodes) :
    Swept g dst (Dict.empty.set dst 0) [dst] := by
  have hget (v : V) : ((Dict.empty : Dict V ℕ).set dst 0).get? v =
      if v = dst then some 0 else none := by
    rw [Dict.get?_set, Dict.get?_empty]
  have hsome (v : V) (n : ℕ) (h : ((Dict.empty : Dict V ℕ).set dst 0).get? v = some n) :
      v = dst ∧ n = 0 := by
    rw [hget] at h
    split at h
    · next hv => exact ⟨hv, by simpa using h.symm⟩
    · cases h
  refine ⟨by simp, ?_, by simp, ?_, by simp, ?_⟩
  · intro v n h
    obtain ⟨rfl, rfl⟩ := hsome v n h
    exact ⟨[v], walk_singleton hdst, rfl⟩
  · intro v n h hv
    obtain ⟨rfl, -⟩ := hsome v n h
    simp at hv
  · intro v n q m h _ _
    obtain ⟨-, rfl⟩ := hsome v n h
    omega

/-- Looking at the next node of the queue keeps the invariant. -/
theorem Swept.step {g : OrderedGraph V E} {dst v : V} {dist : Dict V ℕ} {queue : List V}
    (h : Swept g dst dist (v :: queue)) {n : ℕ} (hv : dist.get? v = some n) :
    Swept g dst (visit n (g.predecessors v) (dist, queue)).1
      (visit n (g.predecessors v) (dist, queue)).2 := by
  obtain ⟨new, hqueue, hnodup, hmem, hget, -⟩ := visit_spec n (g.predecessors v) dist queue
  generalize (visit n (g.predecessors v) (dist, queue)).1 = dist' at hget ⊢
  rw [hqueue]
  have hadj (u : V) : u ∈ new ↔ g.Adj u v ∧ dist.get? u = none := by
    rw [hmem, mem_predecessors]
  -- the counts there were stay, those that are new are one more than the node's
  have hold {u : V} {m : ℕ} (hu : dist.get? u = some m) : dist'.get? u = some m := by
    rw [hget, if_neg, hu]
    intro hnew
    rw [((hadj u).mp hnew).2] at hu
    cases hu
  have hcases {u : V} {m : ℕ} (hu : dist'.get? u = some m) :
      (u ∈ new ∧ m = n + 1) ∨ dist.get? u = some m := by
    rw [hget] at hu
    split at hu
    · next hnew => exact .inl ⟨hnew, by simpa using hu.symm⟩
    · exact .inr hu
  have hlater {q : V} {m : ℕ} (hq : q ∈ queue) (hm : dist.get? q = some m) : n ≤ m :=
    (List.rel_of_pairwise_cons h.ordered hq) n m hv hm
  have hquit {q : V} (hq : q ∈ queue) {m : ℕ} (hm : dist'.get? q = some m) :
      dist.get? q = some m := by
    obtain ⟨m', hm'⟩ := Option.isSome_iff_exists.mp (h.queued q (List.mem_cons_of_mem _ hq))
    rw [hold hm'] at hm
    rw [hm', hm]
  refine ⟨hold h.start, ?_, ?_, ?_, ?_, ?_⟩
  · intro u m hu
    rcases hcases hu with ⟨hnew, rfl⟩ | hu
    · obtain ⟨p, hp, hlen⟩ := h.sound v n hv
      exact ⟨u :: p, walk_cons ((hadj u).mp hnew).1 hp, by rw [List.length_cons, hlen]⟩
    · exact h.sound u m hu
  · intro q hq
    rcases List.mem_append.mp hq with hq | hq
    · obtain ⟨m, hm⟩ := Option.isSome_iff_exists.mp (h.queued q (List.mem_cons_of_mem _ hq))
      rw [hold hm]
      rfl
    · rw [hget, if_pos hq]
      rfl
  · intro w m hw hnot u hu
    rw [List.mem_append, not_or] at hnot
    have hw : dist.get? w = some m := by
      rcases hcases hw with ⟨hnew, -⟩ | hw
      · exact absurd hnew hnot.2
      · exact hw
    by_cases hwv : w = v
    · -- the node just looked at: each of its predecessors had a count or has got one
      subst hwv
      obtain rfl : n = m := by simpa [hv] using hw
      rcases hu' : dist.get? u with _ | k
      · exact ⟨n + 1, by rw [hget, if_pos ((hadj u).mpr ⟨hu, hu'⟩)], Nat.le_refl _⟩
      · exact ⟨k, hold hu', h.near u k w n hu' List.mem_cons_self hv⟩
    · have hwq : w ∉ v :: queue := by simp [hwv, hnot.1]
      obtain ⟨k, hk, hle⟩ := h.closed w m hw hwq u hu
      exact ⟨k, hold hk, hle⟩
  · rw [List.pairwise_append]
    refine ⟨?_, ?_, ?_⟩
    · refine (List.Pairwise.of_cons h.ordered).imp_of_mem ?_
      intro q q' hq hq' hle m m' hm hm'
      exact hle m m' (hquit hq hm) (hquit hq' hm')
    · rw [List.pairwise_iff_forall_sublist]
      intro q q' hsub m m' hm hm'
      have hq : q ∈ new := hsub.subset (by simp)
      have hq' : q' ∈ new := hsub.subset (by simp)
      rw [hget, if_pos hq] at hm
      rw [hget, if_pos hq'] at hm'
      cases hm
      cases hm'
      exact Nat.le_refl _
    · intro q hq q' hq' m m' hm hm'
      rw [hget, if_pos hq'] at hm'
      cases hm'
      exact h.near q m v n (hquit hq hm) List.mem_cons_self hv
  · intro u k q m hu hq hm
    have hkn : k ≤ n + 1 := by
      rcases hcases hu with ⟨-, rfl⟩ | hu
      · exact Nat.le_refl _
      · exact h.near u k v n hu List.mem_cons_self hv
    have hnm : n ≤ m := by
      rcases List.mem_append.mp hq with hq | hq
      · exact hlater hq (hquit hq hm)
      · rw [hget, if_pos hq] at hm
        cases hm
        omega
    omega

/-! ### The whole sweep -/

/-- A sweep keeps the invariant, and with fuel for every node still to come it empties the
queue. -/
theorem sweep_spec (g : OrderedGraph V E) {dst : V} (fuel : ℕ) (dist : Dict V ℕ) (queue : List V)
    (h : Swept g dst dist queue) (hkeys : ∀ v ∈ dist.keys, v ∈ g.nodes)
    (hfuel : g.nodes.length + queue.length ≤ fuel + dist.keys.length) :
    ∃ dist', sweep g fuel (dist, queue) = (dist', []) ∧ Swept g dst dist' [] := by
  have hle (d : Dict V ℕ) (hd : ∀ v ∈ d.keys, v ∈ g.nodes) : d.keys.length ≤ g.nodes.length :=
    (List.Nodup.subperm d.nodup hd).length_le
  induction fuel generalizing dist queue with
  | zero =>
    have := hle dist hkeys
    obtain rfl : queue = [] := List.length_eq_zero_iff.mp (by omega)
    exact ⟨dist, rfl, h⟩
  | succ fuel ih =>
    rcases queue with _ | ⟨v, queue⟩
    · exact ⟨dist, rfl, h⟩
    obtain ⟨n, hv⟩ := Option.isSome_iff_exists.mp (h.queued v List.mem_cons_self)
    have hstep := h.step hv
    obtain ⟨new, hqueue, -, hmem, -, hkeys'⟩ := visit_spec n (g.predecessors v) dist queue
    have hsweep : sweep g (fuel + 1) (dist, v :: queue) =
        sweep g fuel (visit n (g.predecessors v) (dist, queue)) := by
      rw [sweep, hv]
      rfl
    rw [hsweep]
    generalize visit n (g.predecessors v) (dist, queue) = s at hstep hqueue hkeys' ⊢
    obtain ⟨dist', queue'⟩ := s
    refine ih dist' queue' hstep ?_ ?_
    · intro w hw
      rw [hkeys'] at hw
      rcases List.mem_append.mp hw with hw | hw
      · exact hkeys w hw
      · exact (mem_predecessors.mp ((hmem w).mp hw).1).left_mem
    · have hklen := congrArg List.length hkeys'
      have hqlen := congrArg List.length hqueue
      simp only [List.length_append, List.length_cons] at hfuel hklen hqlen
      omega

/-- **The sweep finds exactly the hop counts.** -/
theorem get?_hopSweep (g : OrderedGraph V E) (dst v : V) (n : ℕ) :
    (g.hopSweep dst).get? v = some n ↔ g.Hops dst v n := by
  unfold hopSweep
  split
  · next hdst =>
    have hkeys : ((Dict.empty : Dict V ℕ).set dst 0).keys = [dst] := rfl
    obtain ⟨dist, hsweep, hswept⟩ := sweep_spec g g.nodes.length (Dict.empty.set dst 0) [dst]
      (swept_start hdst) (by simp [hkeys, hdst]) (by simp [hkeys])
    rw [hsweep]
    -- nothing is queued, so a count bounds every walk, by induction on the walk
    have hbound (p : List V) : ∀ u, g.Walk u dst p →
        ∃ m, dist.get? u = some m ∧ m + 1 ≤ p.length := by
      induction p with
      | nil =>
        intro u hp
        cases hp.1
      | cons w p ih =>
        intro u hp
        rcases hp.cases with ⟨hp, rfl, -⟩ | ⟨x, q, hp, hadj, hq⟩
        · exact ⟨0, hswept.start, by simp⟩
        · obtain ⟨rfl, rfl⟩ := List.cons.inj hp
          obtain ⟨m, hm, hle⟩ := ih x hq
          obtain ⟨k, hk, hkm⟩ := hswept.closed x m hm (by simp) w hadj
          exact ⟨k, hk, by rw [List.length_cons]; omega⟩
    have hhops (m : ℕ) (hm : dist.get? v = some m) : g.Hops dst v m := by
      refine ⟨hswept.sound v m hm, ?_⟩
      intro p hp
      obtain ⟨k, hk, hle⟩ := hbound p v hp
      obtain rfl : k = m := by simpa [hm] using hk.symm
      exact hle
    constructor
    · exact hhops n
    · intro hn
      obtain ⟨p, hp, -⟩ := hn.1
      obtain ⟨m, hm, -⟩ := hbound p v hp
      rw [hm, (hhops m hm).unique hn]
  · next hdst =>
    simp only [Dict.get?_empty, reduceCtorEq, false_iff]
    rintro ⟨⟨p, ⟨-, hlast, -, hmem⟩, -⟩, -⟩
    exact hdst (hmem dst (List.mem_of_getLast? hlast))

end OrderedGraph
