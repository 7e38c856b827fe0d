import NDTwin.Lib.Fixed
import NDTwin.Twin.AdminDisable
import NDTwin.Twin.Discovery

/-!
# What an unusable switch takes down

After every poll the twin derives what the control plane does not say: an edge at a switch that has
been unusable for two polls in a row cannot carry traffic, and a host all of whose switches are such
cannot be reached.  The polls a switch has been unusable for are counted by its dpid, in 32 bits.

Between the polls anything may change what a switch, a host or a link is marked as, and nothing
changes what they are.

## Main definitions

* `countUnusable`, `reconcileDerivedLiveness`, `updateGraph` — one poll.
* `Step`, `Monitor.run` — polls, and changes between them.
* `reconciledOn` — the graphs that the polls of a run were reconciled on.
* `streak` — for how many polls in a row a switch has been unusable.

## Main results

* `run_unusablePolls` — the count of a switch is its streak, in 32 bits.
* `derived_reconcile` — **what carries the reason after a poll, in terms of the counts.**
* `run_derived` — **below `2 ^ 32` polls in a row, what carries the reason is exactly what has been
  cut off at the last two polls, and it is not up.**
* `deadSwitch_released` — after `2 ^ 32` polls the count is zero, and the edge is released.
-/

namespace NDTwin.Twin

open Fixed Json

/-! ### One poll -/

/-- `kMissesBeforeIsolating`. -/
def kMissesBeforeIsolating : ℕ := 2

/-- The first pass of `reconcileDerivedLiveness()`: the counts after it, and the switches that have
been unusable for long enough. -/
def countUnusable : List (VertexProperties × ℕ) → (ℕ → ℕ) → (ℕ → ℕ) × List ℕ
  | [], polls => (polls, [])
  | (p, v) :: rest, polls =>
    if p.vertexType ≠ .switch then countUnusable rest polls
    else if p.isUsable then countUnusable rest (Function.update polls p.dpid 0)
    else
      let misses := succU 32 (polls p.dpid)
      let after := countUnusable rest (Function.update polls p.dpid misses)
      (after.1, if kMissesBeforeIsolating ≤ misses then v :: after.2 else after.2)

/-- An edge with a switch at one of its ends that isolates it. -/
def Edge.Cut (isolating : List ℕ) (e : Edge) : Prop := e.source ∈ isolating ∨ e.target ∈ isolating

instance (isolating : List ℕ) (e : Edge) : Decidable (e.Cut isolating) :=
  inferInstanceAs (Decidable (_ ∨ _))

/-- What the second pass makes of an edge.  It releases, and does not raise. -/
def reconcileEdge (isolating : List ℕ) (e : Edge) : EdgeProperties :=
  if e.Cut isolating then { e.props with isUp := false, downReason := .switchUnreachable }
  else if e.props.downReason = .switchUnreachable then { e.props with downReason := .none }
  else e.props

/-- A vertex that is a switch. -/
def IsSwitch (g : Graph) (v : ℕ) : Prop := ∃ p, g.vertex v = some p ∧ p.vertexType = .switch

instance (g : Graph) (v : ℕ) : Decidable (IsSwitch g v) :=
  decidable_of_iff ((g.vertex v).any fun p => p.vertexType = .switch) (by
    simp [IsSwitch, Option.any_eq_true])

/-- The switches a vertex has edges to. -/
def attachments (g : Graph) (v : ℕ) : List ℕ :=
  ((g.edges.filter fun e => e.source = v).map Edge.target).filter fun peer => IsSwitch g peer

/-- What the third pass makes of a vertex: a host is unreachable when every switch it is attached
to isolates it, and nothing is said of a host that is attached to none. -/
def reconcileVertex (g : Graph) (isolating : List ℕ) (v : ℕ) (p : VertexProperties) :
    VertexProperties :=
  if p.vertexType ≠ .host then p
  else if 0 < (attachments g v).length ∧
      ((attachments g v).filter (· ∈ isolating)).length = (attachments g v).length then
    { p with isUp := false, downReason := .switchUnreachable }
  else if p.downReason = .switchUnreachable then { p with downReason := .none }
  else p

/-- What is kept: the graph, and how many polls each dpid has been unusable for. -/
structure Monitor where
  graph : Graph
  unusablePolls : ℕ → ℕ

/-- `reconcileDerivedLiveness()`. -/
def Monitor.reconcileDerivedLiveness (m : Monitor) : Monitor where
  graph :=
    let isolating := (countUnusable m.graph.vertices.zipIdx m.unusablePolls).2
    let g := m.graph.mapEdges (reconcileEdge isolating)
    g.mapVertices (reconcileVertex g isolating)
  unusablePolls := (countUnusable m.graph.vertices.zipIdx m.unusablePolls).1

variable {F : Type*}

/-- The graph after the three answers of a poll. -/
def discover (g : Graph) (switches hosts links : Option (Json F)) : Graph :=
  updateLinks (updateHosts (updateSwitches g switches) hosts) links

/-- `updateGraph(switchesStr, hostsStr, linksStr)`. -/
def Monitor.updateGraph (m : Monitor) (switches hosts links : Option (Json F)) : Monitor :=
  Monitor.reconcileDerivedLiveness { m with graph := discover m.graph switches hosts links }

/-! ### Runs -/

/-- A change between polls: of anything but of what a vertex is. -/
structure Change where
  onVertex : ℕ → VertexProperties → VertexProperties
  onEdge : Edge → EdgeProperties
  vertexType_onVertex : ∀ v p, (onVertex v p).vertexType = p.vertexType
  dpid_onVertex : ∀ v p, (onVertex v p).dpid = p.dpid

/-- The graph after a change. -/
def Change.apply (c : Change) (g : Graph) : Graph :=
  (g.mapVertices c.onVertex).mapEdges c.onEdge

/-- A step of a run. -/
inductive Step (F : Type*) where
  | change (c : Change)
  | poll (switches hosts links : Option (Json F))

/-- One step. -/
def Monitor.step (m : Monitor) : Step F → Monitor
  | .change c => { m with graph := c.apply m.graph }
  | .poll switches hosts links => m.updateGraph switches hosts links

/-- A run. -/
def Monitor.run (m : Monitor) (steps : List (Step F)) : Monitor := steps.foldl Monitor.step m

/-- A twin that has not polled yet. -/
def Monitor.start (g : Graph) : Monitor where
  graph := g
  unusablePolls _ := 0

/-- The graphs that the polls of a run were reconciled on, in their order. -/
def reconciledOn (m : Monitor) : List (Step F) → List Graph
  | [] => []
  | .change c :: steps => reconciledOn (m.step (.change c : Step F)) steps
  | .poll switches hosts links :: steps =>
    discover m.graph switches hosts links ::
      reconciledOn (m.step (.poll switches hosts links)) steps

/-- A vertex that is a switch and not usable. -/
def UnusableSwitch (g : Graph) (v : ℕ) : Prop :=
  ∃ p, g.vertex v = some p ∧ p.vertexType = .switch ∧ p.isUsable = false

instance (g : Graph) (v : ℕ) : Decidable (UnusableSwitch g v) :=
  decidable_of_iff ((g.vertex v).any fun p => p.vertexType = .switch && p.isUsable = false) (by
    simp [UnusableSwitch, Option.any_eq_true])

/-- For how many polls in a row, up to the last, a vertex has been an unusable switch. -/
def streak (gs : List Graph) (v : ℕ) : ℕ := (gs.reverse.takeWhile fun g => UnusableSwitch g v).length

/-- No two switches have the same dpid. -/
def DistinctDpids (g : Graph) : Prop :=
  ∀ v w p q, g.vertex v = some p → g.vertex w = some q → p.vertexType = .switch →
    q.vertexType = .switch → p.dpid = q.dpid → v = w

/-! ### What things are -/

/-- Two graphs with the same vertices and edges, however they are marked. -/
structure SameShape (g g' : Graph) : Prop where
  kind : ∀ v, (g'.vertex v).map (fun p => (p.vertexType, p.dpid)) =
    (g.vertex v).map fun p => (p.vertexType, p.dpid)
  ends : g'.edges.map Edge.ends = g.edges.map Edge.ends

namespace SameShape

theorem refl (g : Graph) : SameShape g g := ⟨fun _ => rfl, rfl⟩

theorem trans {g g' g'' : Graph} (h : SameShape g g') (h' : SameShape g' g'') : SameShape g g'' :=
  ⟨fun v => (h'.kind v).trans (h.kind v), h'.ends.trans h.ends⟩

theorem mapEdges (g : Graph) (f : Edge → EdgeProperties) : SameShape g (g.mapEdges f) := by
  refine ⟨fun _ => rfl, ?_⟩
  rw [Graph.mapEdges, List.map_map]
  rfl

theorem mapVertices (g : Graph) {f : ℕ → VertexProperties → VertexProperties}
    (htype : ∀ v p, (f v p).vertexType = p.vertexType) (hdpid : ∀ v p, (f v p).dpid = p.dpid) :
    SameShape g (g.mapVertices f) := by
  refine ⟨?_, rfl⟩
  intro v
  rw [Graph.vertex_mapVertices, Option.map_map]
  exact congrArg (Option.map · _) (funext fun p => Prod.ext (htype v p) (hdpid v p))

/-- A vertex of the one is a vertex of the other, and the same kind of thing. -/
theorem vertex {g g' : Graph} (h : SameShape g g') {v : ℕ} {p' : VertexProperties}
    (hp' : g'.vertex v = some p') :
    ∃ p, g.vertex v = some p ∧ p'.vertexType = p.vertexType ∧ p'.dpid = p.dpid := by
  have hkind := h.kind v
  rw [hp', Option.map_some] at hkind
  obtain ⟨p, hp, heq⟩ := Option.map_eq_some_iff.mp hkind.symm
  obtain ⟨htype, hdpid⟩ := Prod.mk.inj heq
  exact ⟨p, hp, htype.symm, hdpid.symm⟩

theorem symm {g g' : Graph} (h : SameShape g g') : SameShape g' g :=
  ⟨fun v => (h.kind v).symm, h.ends.symm⟩

theorem isSwitch {g g' : Graph} (h : SameShape g g') (v : ℕ) : IsSwitch g' v ↔ IsSwitch g v := by
  constructor
  · rintro ⟨p', hp', htype⟩
    obtain ⟨p, hp, hsame, -⟩ := h.vertex hp'
    exact ⟨p, hp, hsame ▸ htype⟩
  · rintro ⟨p, hp, htype⟩
    obtain ⟨p', hp', hsame, -⟩ := h.symm.vertex hp
    exact ⟨p', hp', hsame ▸ htype⟩

theorem distinctDpids {g g' : Graph} (h : SameShape g g') (hdistinct : DistinctDpids g) :
    DistinctDpids g' := by
  intro v w p' q' hp' hq' hpswitch hqswitch hdpid
  obtain ⟨p, hp, hptype, hpdpid⟩ := h.vertex hp'
  obtain ⟨q, hq, hqtype, hqdpid⟩ := h.vertex hq'
  refine hdistinct v w p q hp hq (hptype ▸ hpswitch) (hqtype ▸ hqswitch) ?_
  rw [← hpdpid, ← hqdpid, hdpid]

theorem lift (L : Lift) (g : Graph) (ts : List Target) : SameShape g (L.apply g ts) := by
  refine .trans (.mapVertices g (fun v p => ?_) fun v p => ?_) (.mapEdges _ _)
  · split
    · exact L.vertexType_onVertex p
    · rfl
  · split
    · exact L.dpid_onVertex p
    · rfl

/-- An answer changes only how things are marked. -/
theorem updateFrom (K : EntryKind F) (g : Graph) (answer : Option (Json F)) :
    SameShape g (Twin.updateFrom K.update g answer) := by
  cases answer with
  | none => exact .refl g
  | some answer =>
    rw [Twin.updateFrom, K.ingest_eq]
    exact .lift K.lift g _

theorem discover (g : Graph) (switches hosts links : Option (Json F)) :
    SameShape g (Twin.discover g switches hosts links) := by
  have hswitches : SameShape g (updateSwitches g switches) := .updateFrom switchKind g switches
  have hhosts := SameShape.updateFrom hostKind (updateSwitches g switches) hosts
  exact (hswitches.trans hhosts).trans (.updateFrom linkKind _ links)

theorem reconcile (m : Monitor) : SameShape m.graph m.reconcileDerivedLiveness.graph := by
  refine .trans (.mapEdges _ _) (.mapVertices _ (fun v p => ?_) fun v p => ?_)
  · unfold reconcileVertex
    split_ifs <;> rfl
  · unfold reconcileVertex
    split_ifs <;> rfl

theorem step (m : Monitor) (s : Step F) : SameShape m.graph (m.step s).graph := by
  cases s with
  | change c =>
    exact .trans (.mapVertices _ c.vertexType_onVertex c.dpid_onVertex) (.mapEdges _ _)
  | poll switches hosts links =>
    have hdiscover := SameShape.discover m.graph switches hosts links
    exact hdiscover.trans
      (.reconcile { m with graph := Twin.discover m.graph switches hosts links })

theorem run (m : Monitor) (steps : List (Step F)) : SameShape m.graph (m.run steps).graph := by
  induction steps generalizing m with
  | nil => exact .refl _
  | cons s steps ih => exact .trans (.step m s) (ih (m.step s))

end SameShape

/-! ### The counts -/

/-- Vertices of which no two switches have the same dpid. -/
def Apart (vs : List (VertexProperties × ℕ)) : Prop :=
  vs.Pairwise fun a b => a.1.vertexType = .switch → b.1.vertexType = .switch → a.1.dpid ≠ b.1.dpid

theorem apart_zipIdx {g : Graph} (h : DistinctDpids g) : Apart g.vertices.zipIdx := by
  refine List.pairwise_iff_getElem.mpr ?_
  intro i j hi hj hlt hiswitch hjswitch hdpid
  rw [List.length_zipIdx] at hi hj
  simp only [List.getElem_zipIdx] at hiswitch hjswitch hdpid
  have heq := h i j _ _ (List.getElem?_eq_getElem hi) (List.getElem?_eq_getElem hj) hiswitch
    hjswitch hdpid
  omega

/-- The count of a dpid that no switch has is left. -/
theorem countUnusable_of_forall_ne {vs : List (VertexProperties × ℕ)} (polls : ℕ → ℕ) {d : ℕ}
    (h : ∀ a ∈ vs, a.1.vertexType = .switch → a.1.dpid ≠ d) :
    (countUnusable vs polls).1 d = polls d := by
  induction vs generalizing polls with
  | nil => rfl
  | cons a vs ih =>
    obtain ⟨p, v⟩ := a
    have hrest := fun a ha => h a (List.mem_cons_of_mem _ ha)
    by_cases hswitch : p.vertexType = .switch
    · have hne : d ≠ p.dpid := (h (p, v) List.mem_cons_self hswitch).symm
      cases husable : p.isUsable with
      | true => simp [countUnusable, hswitch, husable, ih _ hrest, Function.update_of_ne hne]
      | false => simp [countUnusable, hswitch, husable, ih _ hrest, Function.update_of_ne hne]
    · simp [countUnusable, hswitch, ih _ hrest]

/-- **What the first pass does to the count of a switch.** -/
theorem countUnusable_fst {vs : List (VertexProperties × ℕ)} (hapart : Apart vs) (polls : ℕ → ℕ)
    {p : VertexProperties} {v : ℕ} (hmem : (p, v) ∈ vs) (hswitch : p.vertexType = .switch) :
    (countUnusable vs polls).1 p.dpid =
      if p.isUsable then 0 else succU 32 (polls p.dpid) := by
  induction vs generalizing polls with
  | nil => cases hmem
  | cons a vs ih =>
    obtain ⟨hhead, htail⟩ := List.pairwise_cons.mp hapart
    rcases List.mem_cons.mp hmem with rfl | hin
    · -- no later switch has the dpid, so its count is left as this one set it
      have hrest (polls : ℕ → ℕ) : (countUnusable vs polls).1 p.dpid = polls p.dpid :=
        countUnusable_of_forall_ne polls fun b hb hbswitch => (hhead b hb hswitch hbswitch).symm
      cases husable : p.isUsable with
      | true => simp [countUnusable, hswitch, husable, hrest]
      | false => simp [countUnusable, hswitch, husable, hrest]
    · obtain ⟨q, w⟩ := a
      by_cases hqswitch : q.vertexType = .switch
      · have hne : p.dpid ≠ q.dpid := (hhead (p, v) hin hqswitch hswitch).symm
        cases husable : q.isUsable with
        | true =>
          simp only [countUnusable, hqswitch, husable]
          simpa [Function.update_of_ne hne] using ih htail (Function.update polls q.dpid 0) hin
        | false =>
          simp only [countUnusable, hqswitch, husable]
          simpa [Function.update_of_ne hne] using
            ih htail (Function.update polls q.dpid (succU 32 (polls q.dpid))) hin
      · simpa [countUnusable, hqswitch] using ih htail polls hin

/-- **The switches the first pass finds**: those it has counted often enough. -/
theorem mem_countUnusable {vs : List (VertexProperties × ℕ)} (hapart : Apart vs) (polls : ℕ → ℕ)
    (v : ℕ) : v ∈ (countUnusable vs polls).2 ↔ ∃ p, (p, v) ∈ vs ∧ p.vertexType = .switch ∧
      p.isUsable = false ∧ kMissesBeforeIsolating ≤ succU 32 (polls p.dpid) := by
  induction vs generalizing polls with
  | nil => simp [countUnusable]
  | cons a vs ih =>
    obtain ⟨q, w⟩ := a
    obtain ⟨hhead, htail⟩ := List.pairwise_cons.mp hapart
    by_cases hqswitch : q.vertexType = .switch
    · -- the later switches have other dpids, so they are counted as they would be without this one
      have hothers (n : ℕ) : (∃ p, (p, v) ∈ vs ∧ p.vertexType = .switch ∧ p.isUsable = false ∧
          kMissesBeforeIsolating ≤ succU 32 (Function.update polls q.dpid n p.dpid)) ↔
          ∃ p, (p, v) ∈ vs ∧ p.vertexType = .switch ∧ p.isUsable = false ∧
            kMissesBeforeIsolating ≤ succU 32 (polls p.dpid) := by
        refine exists_congr fun p => and_congr_right fun hmem => and_congr_right ?_
        intro hswitch
        rw [Function.update_of_ne (hhead (p, v) hmem hqswitch hswitch).symm]
      cases husable : q.isUsable with
      | true =>
        simp only [countUnusable, hqswitch, husable, ne_eq, not_true_eq_false, if_false, if_true]
        rw [ih htail, hothers]
        simp [or_and_right, exists_or, husable]
      | false =>
        simp only [countUnusable, hqswitch, husable, ne_eq, not_true_eq_false, if_false,
          Bool.false_eq_true]
        by_cases hmisses : kMissesBeforeIsolating ≤ succU 32 (polls q.dpid)
        · rw [if_pos hmisses, List.mem_cons, ih htail, hothers]
          simp [or_and_right, exists_or, husable, hqswitch, hmisses]
        · rw [if_neg hmisses, ih htail, hothers]
          simp [or_and_right, exists_or, husable, hqswitch, hmisses]
    · simp only [countUnusable, ne_eq, hqswitch, not_false_eq_true, if_true]
      rw [ih htail]
      simp [or_and_right, exists_or, hqswitch]

/-! ### Streaks -/

/-- A switch was unusable at each of the last two polls. -/
def UnusableTwice (gs : List Graph) (v : ℕ) : Prop :=
  ∃ before g₁ g₂, gs = before ++ [g₁, g₂] ∧ UnusableSwitch g₁ v ∧ UnusableSwitch g₂ v

theorem streak_concat (gs : List Graph) (g : Graph) (v : ℕ) :
    streak (gs ++ [g]) v = if UnusableSwitch g v then streak gs v + 1 else 0 := by
  rw [streak, List.reverse_concat, List.takeWhile_cons]
  by_cases hunusable : UnusableSwitch g v
  · simp [hunusable, streak]
  · simp [hunusable]

/-- Being unusable at the last two polls is a streak of two. -/
theorem unusableTwice_iff (gs : List Graph) (v : ℕ) : UnusableTwice gs v ↔ 2 ≤ streak gs v := by
  constructor
  · rintro ⟨before, g₁, g₂, rfl, h₁, h₂⟩
    rw [show before ++ [g₁, g₂] = before ++ [g₁] ++ [g₂] by simp, streak_concat, if_pos h₂,
      streak_concat, if_pos h₁]
    omega
  · intro h
    -- the last graph of a positive streak is one at which the switch was unusable
    have hlast (gs : List Graph) (hpos : 0 < streak gs v) :
        ∃ before g, gs = before ++ [g] ∧ UnusableSwitch g v ∧ streak gs v = streak before v + 1 := by
      rcases List.eq_nil_or_concat gs with rfl | ⟨before, g, rfl⟩
      · simp [streak] at hpos
      · rw [List.concat_eq_append] at hpos ⊢
        rw [streak_concat] at hpos ⊢
        by_cases hunusable : UnusableSwitch g v
        · exact ⟨before, g, rfl, hunusable, if_pos hunusable⟩
        · rw [if_neg hunusable] at hpos
          omega
    obtain ⟨before, g₂, rfl, h₂, hstreak⟩ := hlast gs (by omega)
    obtain ⟨before, g₁, rfl, h₁, -⟩ := hlast before (by omega)
    exact ⟨before, g₁, g₂, by simp, h₁, h₂⟩

theorem reconciledOn_append (m : Monitor) (steps steps' : List (Step F)) :
    reconciledOn m (steps ++ steps') =
      reconciledOn m steps ++ reconciledOn (m.run steps) steps' := by
  induction steps generalizing m with
  | nil => rfl
  | cons s steps ih =>
    cases s with
    | change c => exact ih (m.step (.change c : Step F))
    | poll switches hosts links =>
      exact congrArg (_ :: ·) (ih (m.step (.poll switches hosts links)))

/-- The count of every switch is its streak, in 32 bits. -/
def Counted (m : Monitor) (gs : List Graph) : Prop :=
  ∀ v p, m.graph.vertex v = some p → p.vertexType = .switch →
    m.unusablePolls p.dpid = streak gs v % 2 ^ 32

theorem Counted.of_sameShape {m : Monitor} {gs : List Graph} (h : Counted m gs) {g : Graph}
    (hshape : SameShape m.graph g) : Counted { m with graph := g } gs := by
  intro v p' hp' hswitch'
  obtain ⟨p, hp, htype, hdpid⟩ := hshape.vertex hp'
  rw [hdpid]
  exact h v p hp (htype ▸ hswitch')

theorem unusableSwitch_iff {g : Graph} {v : ℕ} {p : VertexProperties} (hp : g.vertex v = some p)
    (hswitch : p.vertexType = .switch) : UnusableSwitch g v ↔ p.isUsable = false := by
  constructor
  · rintro ⟨q, hq, -, husable⟩
    rw [hp, Option.some.injEq] at hq
    exact hq ▸ husable
  · intro husable
    exact ⟨p, hp, hswitch, husable⟩

theorem mem_zipIdx {g : Graph} {v : ℕ} {p : VertexProperties} :
    (p, v) ∈ g.vertices.zipIdx ↔ g.vertex v = some p :=
  List.mem_zipIdx_iff_getElem?

section Poll

variable {m : Monitor} {gs : List Graph} (hdistinct : DistinctDpids m.graph) (hcounted : Counted m gs)
include hdistinct hcounted

/-- The counts after a reconciliation, where they were the streaks before it. -/
theorem counted_reconcile : Counted m.reconcileDerivedLiveness (gs ++ [m.graph]) := by
  intro v p' hp' hswitch'
  obtain ⟨p, hp, htype, hdpid⟩ := (SameShape.reconcile m).vertex hp'
  have hswitch : p.vertexType = .switch := htype ▸ hswitch'
  have hcount := countUnusable_fst (apart_zipIdx hdistinct) m.unusablePolls (mem_zipIdx.mpr hp)
    hswitch
  rw [hdpid, streak_concat]
  refine hcount.trans ?_
  rw [hcounted v p hp hswitch, succU_mod]
  cases husable : p.isUsable with
  | true =>
    have hnot : ¬ UnusableSwitch m.graph v := by
      rw [unusableSwitch_iff hp hswitch, husable]
      simp
    rw [if_pos rfl, if_neg hnot, Nat.zero_mod]
  | false =>
    rw [if_neg Bool.false_ne_true, if_pos ((unusableSwitch_iff hp hswitch).mpr husable)]

/-- The switches that isolate what they carry: those with a streak of two, in 32 bits. -/
theorem mem_isolating (v : ℕ) :
    v ∈ (countUnusable m.graph.vertices.zipIdx m.unusablePolls).2 ↔
      2 ≤ streak (gs ++ [m.graph]) v % 2 ^ 32 := by
  rw [mem_countUnusable (apart_zipIdx hdistinct), streak_concat]
  constructor
  · rintro ⟨p, hmem, hswitch, husable, hmisses⟩
    have hp := mem_zipIdx.mp hmem
    rw [hcounted v p hp hswitch, succU_mod] at hmisses
    rw [if_pos ((unusableSwitch_iff hp hswitch).mpr husable)]
    exact hmisses
  · intro h
    by_cases hunusable : UnusableSwitch m.graph v
    · rw [if_pos hunusable] at h
      obtain ⟨p, hp, hswitch, husable⟩ := hunusable
      refine ⟨p, mem_zipIdx.mpr hp, hswitch, husable, ?_⟩
      rw [hcounted v p hp hswitch, succU_mod]
      exact h
    · rw [if_neg hunusable] at h
      simp at h

end Poll

/-- The counts along a run, and that no two switches have the same dpid. -/
theorem run_unusablePolls {g : Graph} (hdistinct : DistinctDpids g) (steps : List (Step F)) :
    Counted ((Monitor.start g).run steps) (reconciledOn (.start g) steps) := by
  induction steps using List.reverseRecOn with
  | nil => exact fun _ _ _ _ => rfl
  | append_singleton steps s ih =>
    have hshape := SameShape.run (.start g) steps
    rw [Monitor.run, List.foldl_concat, reconciledOn_append]
    cases s with
    | change c =>
      rw [reconciledOn, reconciledOn, List.append_nil]
      exact ih.of_sameShape (SameShape.step _ (.change c : Step F))
    | poll switches hosts links =>
      have hdiscover := SameShape.discover ((Monitor.start g).run steps).graph switches hosts links
      exact counted_reconcile ((hshape.trans hdiscover).distinctDpids hdistinct)
        (ih.of_sameShape hdiscover)

/-! ### What carries the reason -/

/-- A vertex with an edge to a switch. -/
def Attached (g : Graph) (v s : ℕ) : Prop :=
  IsSwitch g s ∧ ∃ e ∈ g.edges, e.source = v ∧ e.target = s

theorem mem_attachments {g : Graph} {v s : ℕ} : s ∈ attachments g v ↔ Attached g v s := by
  simp only [attachments, Attached, List.mem_filter, List.mem_map, decide_eq_true_eq]
  constructor
  · rintro ⟨⟨e, ⟨he, hsource⟩, htarget⟩, hswitch⟩
    exact ⟨hswitch, e, he, hsource, htarget⟩
  · rintro ⟨hswitch, e, he, hsource, htarget⟩
    exact ⟨⟨e, ⟨he, hsource⟩, htarget⟩, hswitch⟩

theorem SameShape.attached {g g' : Graph} (h : SameShape g g') (v s : ℕ) :
    Attached g' v s ↔ Attached g v s := by
  have hends (g : Graph) : (∃ e ∈ g.edges, e.source = v ∧ e.target = s) ↔
      (v, s) ∈ g.edges.map Edge.ends := by
    simp [Edge.ends]
  rw [Attached, Attached, h.isSwitch, hends, hends, h.ends]

/-- All attachments are isolated when as many of them are as there are. -/
theorem isolatedAttachments_iff (g : Graph) (isolating : List ℕ) (v : ℕ) :
    (0 < (attachments g v).length ∧
        ((attachments g v).filter (· ∈ isolating)).length = (attachments g v).length) ↔
      (∃ s, Attached g v s) ∧ ∀ s, Attached g v s → s ∈ isolating := by
  rw [List.length_pos_iff_exists_mem, List.length_filter_eq_length_iff]
  simp only [mem_attachments, decide_eq_true_eq]

theorem reconcileEdge_carries (isolating : List ℕ) (e : Edge) :
    ((reconcileEdge isolating e).downReason = .switchUnreachable ↔ e.Cut isolating) ∧
      ((reconcileEdge isolating e).downReason = .switchUnreachable →
        (reconcileEdge isolating e).isUp = false) := by
  unfold reconcileEdge
  by_cases hcut : e.Cut isolating
  · simp [hcut]
  · by_cases hreason : e.props.downReason = .switchUnreachable
    · simp [hcut, hreason]
    · simp [hcut, hreason]

theorem reconcileVertex_carries (g : Graph) (isolating : List ℕ) (v : ℕ) {p : VertexProperties}
    (hhost : p.vertexType = .host) :
    ((reconcileVertex g isolating v p).downReason = .switchUnreachable ↔
        (∃ s, Attached g v s) ∧ ∀ s, Attached g v s → s ∈ isolating) ∧
      ((reconcileVertex g isolating v p).downReason = .switchUnreachable →
        (reconcileVertex g isolating v p).isUp = false) := by
  rw [← isolatedAttachments_iff]
  unfold reconcileVertex
  rw [if_neg (not_not.mpr hhost)]
  by_cases hisolated : 0 < (attachments g v).length ∧
      ((attachments g v).filter (· ∈ isolating)).length = (attachments g v).length
  · rw [if_pos hisolated]
    simp only [hisolated, forall_const, and_self]
  · rw [if_neg hisolated]
    by_cases hreason : p.downReason = .switchUnreachable
    · simp only [hisolated, if_pos hreason]
      simp
    · simp only [hisolated, if_neg hreason]
      simp [hreason]

/-- What is derived, of the graphs that the polls were reconciled on: an edge is down for a switch
at one of its ends, and a host for all the switches it is attached to, that have been unusable as
`bad` says. -/
structure Derived (bad : ℕ → Prop) (g : Graph) : Prop where
  edge : ∀ e ∈ g.edges, e.props.downReason = .switchUnreachable ↔ ∃ v, e.At v ∧ bad v
  host : ∀ v p, g.vertex v = some p → p.vertexType = .host →
    (p.downReason = .switchUnreachable ↔
      (∃ s, Attached g v s) ∧ ∀ s, Attached g v s → bad s)
  edge_down : ∀ e ∈ g.edges, e.props.downReason = .switchUnreachable → e.props.isUp = false
  host_down : ∀ v p, g.vertex v = some p → p.vertexType = .host →
    p.downReason = .switchUnreachable → p.isUp = false

/-- **What carries the reason after a reconciliation**: what the switches that have been counted
often enough isolate. -/
theorem derived_reconcile (m : Monitor) :
    Derived (· ∈ (countUnusable m.graph.vertices.zipIdx m.unusablePolls).2)
      m.reconcileDerivedLiveness.graph := by
  have hvertex {v : ℕ} {p : VertexProperties}
      (hp : m.reconcileDerivedLiveness.graph.vertex v = some p) :
      ∃ g p', SameShape g m.reconcileDerivedLiveness.graph ∧
        reconcileVertex g (countUnusable m.graph.vertices.zipIdx m.unusablePolls).2 v p' = p ∧
          p'.vertexType = p.vertexType := by
    rw [Monitor.reconcileDerivedLiveness, Graph.vertex_mapVertices] at hp
    obtain ⟨p', hp', rfl⟩ := Option.map_eq_some_iff.mp hp
    refine ⟨_, p', (SameShape.mapEdges _ _).symm.trans (.reconcile m), rfl, ?_⟩
    unfold reconcileVertex
    split_ifs <;> rfl
  have hedge {e : Edge} (he : e ∈ m.reconcileDerivedLiveness.graph.edges) :
      ∃ e', e'.ends = e.ends ∧
        reconcileEdge (countUnusable m.graph.vertices.zipIdx m.unusablePolls).2 e' = e.props := by
    obtain ⟨e', -, rfl⟩ := Graph.mem_edges_mapEdges.mp he
    exact ⟨e', rfl, rfl⟩
  refine ⟨?_, ?_, ?_, ?_⟩
  · intro e he
    obtain ⟨e', hends, hprops⟩ := hedge he
    obtain ⟨hsource, htarget⟩ := Prod.mk.inj hends
    rw [← hprops, (reconcileEdge_carries _ e').1, Edge.Cut, hsource, htarget]
    simp only [Edge.At, or_and_right, exists_or, exists_eq_left']
  · intro v p hp hhost
    obtain ⟨g, p', hshape, hprops, htype⟩ := hvertex hp
    rw [← hprops, (reconcileVertex_carries g _ v (htype.trans hhost)).1]
    simp only [hshape.attached]
  · intro e he
    obtain ⟨e', -, hprops⟩ := hedge he
    rw [← hprops]
    exact (reconcileEdge_carries _ e').2
  · intro v p hp hhost
    obtain ⟨g, p', -, hprops, htype⟩ := hvertex hp
    rw [← hprops]
    exact (reconcileVertex_carries g _ v (htype.trans hhost)).2

/-- **What carries the reason after the last poll of a run**, whose streaks are counted in 32
bits. -/
theorem derived_run {g : Graph} (hdistinct : DistinctDpids g) (steps : List (Step F))
    (switches hosts links : Option (Json F)) :
    Derived
      (fun v => 2 ≤ streak
        (reconciledOn (.start g) (steps ++ [Step.poll switches hosts links])) v % 2 ^ 32)
      ((Monitor.start g).run (steps ++ [Step.poll switches hosts links])).graph := by
  have hshape := SameShape.run (.start g) steps
  have hdiscover := SameShape.discover ((Monitor.start g).run steps).graph switches hosts links
  have hcounted := (run_unusablePolls hdistinct steps).of_sameShape hdiscover
  have hderived := derived_reconcile
    ⟨discover ((Monitor.start g).run steps).graph switches hosts links,
      ((Monitor.start g).run steps).unusablePolls⟩
  simp only [mem_isolating ((hshape.trans hdiscover).distinctDpids hdistinct) hcounted] at hderived
  rw [Monitor.run, List.foldl_concat, reconciledOn_append]
  exact hderived

/-- **What carries the reason after a poll is exactly what switches that were unusable at each of the
last two polls cut off, and it is not up**, as long as no switch has been unusable at `2 ^ 32` polls
in a row. -/
theorem run_derived {g : Graph} (hdistinct : DistinctDpids g) (steps : List (Step F))
    (switches hosts links : Option (Json F))
    (hlimit : ∀ v, streak
      (reconciledOn (.start g) (steps ++ [.poll switches hosts links])) v < 2 ^ 32) :
    Derived (UnusableTwice (reconciledOn (.start g) (steps ++ [.poll switches hosts links])))
      ((Monitor.start g).run (steps ++ [.poll switches hosts links])).graph := by
  have hderived := derived_run hdistinct steps switches hosts links
  have hbad (v : ℕ) :
      (2 ≤ streak (reconciledOn (.start g) (steps ++ [.poll switches hosts links])) v % 2 ^ 32) ↔
        UnusableTwice (reconciledOn (.start g) (steps ++ [.poll switches hosts links])) v := by
    rw [Nat.mod_eq_of_lt (hlimit v), unusableTwice_iff]
  simpa only [hbad] using hderived

/-! ### A switch that stays dead -/

/-- Two switches and the link between them, the first of them down. -/
def deadPair : Graph where
  vertices :=
    [{ vertexType := .switch, dpid := 1, isUp := false }, { vertexType := .switch, dpid := 2 }]
  edges :=
    [⟨0, 1, { srcDpid := 1, srcInterface := 1, dstDpid := 2, dstInterface := 1 }⟩]
  ordered := List.pairwise_singleton _ _
  ends_lt := by decide

/-- A poll that nothing answers. -/
def quiet : Step Empty := .poll none none none

theorem distinctDpids_deadPair : DistinctDpids deadPair := by
  intro v w p q hp hq _ _ hdpid
  match v, w with
  | 0, 0 => rfl
  | 1, 1 => rfl
  | 0, 1 =>
    cases hp
    cases hq
    cases hdpid
  | 1, 0 =>
    cases hp
    cases hq
    cases hdpid
  | _ + 2, _ => cases hp
  | _, _ + 2 => cases hq

theorem streak_le_length (gs : List Graph) (v : ℕ) : streak gs v ≤ gs.length := by
  rw [streak, ← gs.length_reverse]
  exact (List.takeWhile_prefix _).length_le

/-- Three polls, with the switch down at each of them. -/
theorem run_derived_deadPair :
    DistinctDpids deadPair ∧
      (∀ v, streak (reconciledOn (.start deadPair) ([quiet, quiet] ++ [quiet])) v < 2 ^ 32) ∧
      Derived (UnusableTwice (reconciledOn (.start deadPair) ([quiet, quiet] ++ [quiet])))
        ((Monitor.start deadPair).run ([quiet, quiet] ++ [quiet])).graph := by
  have hlimit (v : ℕ) :
      streak (reconciledOn (.start deadPair) ([quiet, quiet] ++ [quiet])) v < 2 ^ 32 := by
    refine lt_of_le_of_lt (streak_le_length _ v) ?_
    show 3 < 2 ^ 32
    decide
  exact ⟨distinctDpids_deadPair, hlimit,
    run_derived distinctDpids_deadPair [quiet, quiet] none none none hlimit⟩

/-- A reconciliation leaves a switch as it was. -/
theorem vertex_reconcile {m : Monitor} {v : ℕ} {p : VertexProperties}
    (hp : m.graph.vertex v = some p) (hswitch : p.vertexType = .switch) :
    m.reconcileDerivedLiveness.graph.vertex v = some p := by
  rw [Monitor.reconcileDerivedLiveness, Graph.vertex_mapVertices, Graph.vertex_mapEdges, hp,
    Option.map_some, reconcileVertex, if_pos (by simp [hswitch])]

/-- Polls that nothing answers are reconciled on graphs with the same switches. -/
theorem reconciledOn_quiet (m : Monitor) {v : ℕ} {p : VertexProperties}
    (hp : m.graph.vertex v = some p) (hswitch : p.vertexType = .switch) (n : ℕ) :
    (reconciledOn m (List.replicate n quiet)).length = n ∧
      ∀ g ∈ reconciledOn m (List.replicate n quiet), g.vertex v = some p := by
  induction n generalizing m with
  | zero => exact ⟨rfl, nofun⟩
  | succ n ih =>
    obtain ⟨hlength, hall⟩ := ih (m.step quiet) (vertex_reconcile hp hswitch)
    rw [List.replicate_succ]
    refine ⟨congrArg (· + 1) hlength, ?_⟩
    intro g hg
    rcases List.mem_cons.mp hg with rfl | hg
    · exact hp
    · exact hall g hg

/-- The streak of a switch that is unusable, or usable, at every poll. -/
theorem streak_quiet (g : Graph) {v : ℕ} {p : VertexProperties} (hp : g.vertex v = some p)
    (hswitch : p.vertexType = .switch) (n : ℕ) :
    streak (reconciledOn (.start g) (List.replicate n quiet)) v = if p.isUsable then 0 else n := by
  obtain ⟨hlength, hall⟩ := reconciledOn_quiet (.start g) hp hswitch n
  generalize reconciledOn (.start g) (List.replicate n quiet) = gs at hlength hall
  induction gs using List.reverseRecOn generalizing n with
  | nil =>
    rw [← hlength]
    exact (ite_self 0).symm
  | append_singleton gs g' ih =>
    rw [List.length_append, List.length_singleton] at hlength
    have hrest := ih gs.length rfl fun g' hg' => hall g' (List.mem_append_left _ hg')
    have hlast := hall g' List.mem_concat_self
    simp only [streak_concat, hrest, unusableSwitch_iff hlast hswitch, ← hlength]
    cases p.isUsable with
    | true => rfl
    | false => rfl

/-- After as many polls as the count has values, the link of a dead switch is released. -/
theorem not_derived_deadPair {n : ℕ} (hn : n + 1 = 2 ^ 32) :
    ¬ Derived (UnusableTwice (reconciledOn (.start deadPair) (List.replicate n quiet ++ [quiet])))
      ((Monitor.start deadPair).run (List.replicate n quiet ++ [quiet])).graph := by
  intro hderived
  have hcounts := derived_run distinctDpids_deadPair (List.replicate n quiet) none none none
  have hsteps : List.replicate n quiet ++ [quiet] = List.replicate (n + 1) quiet :=
    List.replicate_succ'.symm
  have hdead := streak_quiet deadPair (v := 0) rfl rfl (n + 1)
  have halive := streak_quiet deadPair (v := 1) rfl rfl (n + 1)
  rw [← hsteps] at hdead halive
  have hshape := SameShape.run (.start deadPair) (List.replicate n quiet ++ [quiet])
  -- the edge between the two is still there
  obtain ⟨e, he, hends⟩ : ∃ e ∈ ((Monitor.start deadPair).run
      (List.replicate n quiet ++ [quiet])).graph.edges, e.ends = (0, 1) := by
    refine List.mem_map.mp ?_
    rw [hshape.ends]
    decide
  obtain ⟨hsource, htarget⟩ := Prod.mk.inj hends
  have htwice : UnusableTwice
      (reconciledOn (.start deadPair) (List.replicate n quiet ++ [quiet])) 0 := by
    rw [unusableTwice_iff, hdead, if_neg (by decide), hn]
    decide
  have hcarries := (hderived.edge e he).mpr ⟨0, .inl hsource, htwice⟩
  obtain ⟨v, hat, hbad⟩ := (hcounts.edge e he).mp hcarries
  -- the streak of the one end is `2 ^ 32`, and that of the other is zero
  rcases hat with hat | hat
  · obtain rfl : v = 0 := hat.symm.trans hsource
    rw [← quiet, hdead, if_neg (by decide), hn, Nat.mod_self] at hbad
    omega
  · obtain rfl : v = 1 := hat.symm.trans htarget
    rw [← quiet, halive, if_pos (by decide), Nat.zero_mod] at hbad
    omega

/-- **A switch that stays dead is forgotten**: at its `2 ^ 32`-nd poll the count is zero, and its
link no longer carries the reason. -/
theorem deadSwitch_released :
    DistinctDpids deadPair ∧
      ¬ Derived
        (UnusableTwice (reconciledOn (.start deadPair)
          (List.replicate (2 ^ 32 - 1) quiet ++ [quiet])))
        ((Monitor.start deadPair).run (List.replicate (2 ^ 32 - 1) quiet ++ [quiet])).graph :=
  ⟨distinctDpids_deadPair, not_derived_deadPair (by decide)⟩

end NDTwin.Twin
