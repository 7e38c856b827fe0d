import NDTwin.Twin.LinkReports
import NDTwin.Twin.Liveness

/-!
# Declarations that stand

Four parties write the flags of an edge: topology polls, the derivation of liveness, the reports of
the control plane, and the operator who injects failures and takes them back.  An edge that was
declared down is to stay down until its declaration is withdrawn, and the reports withdraw only what
was reported.

Whether a failure was reported since the last withdrawal is read off the history, not off the flag
that is kept for it.

## Main definitions

* `Kernel`, `LinkEvent`, `Deployment.step` — the kernel and what happens to it.
* `ReportedSince` — a failure report since the last withdrawal.
* `Withdraws` — what ends a declaration.

## Main results

* `keeps_discover`, `keeps_reconcile` — neither a poll nor the derivation lifts what is declared down.
* `declared_stands` — **a declaration stands until it is withdrawn.**
-/

namespace NDTwin.Twin

open Json Netem

/-! ### Events -/

/-- What is kept: the graph with its counts, the queues this kernel has attached, and the world. -/
structure Kernel (W : Type*) where
  monitor : Monitor
  ledger : InjectedNetemLedger
  world : W

/-- The graph of a kernel. -/
def Kernel.graph {W : Type*} (k : Kernel W) : Graph := k.monitor.graph

/-- How commands are run, and whether the network is simulated. -/
structure Deployment (W : Type*) where
  runTc : W → List String → TcOutcome × W
  clock : W → ℤ
  formatTime : ℤ → String
  mininet : Bool

/-- What happens. -/
inductive LinkEvent (F : Type*) where
  | poll (switches hosts links : Option (Json F))
  | reconcile
  | failureReport (data : LinkRequest)
  | recoveryReport (data : LinkRequest)
  | inject (data : LinkRequest)
  | injectRecovery (data : LinkRequest)

namespace Deployment

variable {W F : Type*} (D : Deployment W)

/-- The kernel with another graph. -/
def withGraph (k : Kernel W) (g : Graph) : Kernel W :=
  { k with monitor := { k.monitor with graph := g } }

/-- An injected recovery. -/
def injectRecovery (k : Kernel W) (data : LinkRequest) :
    RecoveryReply × Graph × InjectedNetemLedger × W :=
  handleInjectLinkRecovery D.runTc D.formatTime D.mininet k.graph data k.ledger k.world

/-- One event, from its beginning to its end. -/
def step (k : Kernel W) : LinkEvent F → Kernel W
  | .poll switches hosts links => { k with monitor := k.monitor.updateGraph switches hosts links }
  | .reconcile => { k with monitor := k.monitor.reconcileDerivedLiveness }
  | .failureReport data => withGraph k (handleLinkFailure k.graph data).2
  | .recoveryReport data => withGraph k (handleLinkRecovery k.graph data).2
  | .inject data =>
    let (_, g, ledger, w) := handleInjectLinkFailure D.runTc D.clock D.formatTime D.mininet k.graph
      data k.ledger k.world
    { withGraph k g with ledger, world := w }
  | .injectRecovery data =>
    let (_, g, ledger, w) := D.injectRecovery k data
    { withGraph k g with ledger, world := w }

/-- A run. -/
def run (k : Kernel W) (events : List (LinkEvent F)) : Kernel W := events.foldl D.step k

@[simp] theorem run_concat (k : Kernel W) (events : List (LinkEvent F)) (event : LinkEvent F) :
    D.run k (events ++ [event]) = D.step (D.run k events) event := by
  rw [run, List.foldl_append, List.foldl_cons, List.foldl_nil, run]

end Deployment

section History

variable {W F : Type*} (D : Deployment W)

/-- The event is a recovery of the edge: reported, or injected and carried out. -/
def Recovers (k : Kernel W) (d : ℕ × ℕ) : LinkEvent F → Prop
  | .recoveryReport data => d ∈ reportedEnds k.graph data
  | .injectRecovery data => d ∈ injectedEnds k.graph data ∧ (D.injectRecovery k data).1.Withdrew
  | _ => False

/-- A failure report for the edge has been received since its last withdrawal. -/
inductive ReportedSince (k₀ : Kernel W) (d : ℕ × ℕ) : List (LinkEvent F) → Prop where
  | report {past : List (LinkEvent F)} {data : LinkRequest}
      (h : d ∈ reportedEnds (D.run k₀ past).graph data) :
      ReportedSince k₀ d (past ++ [.failureReport data])
  | later {past : List (LinkEvent F)} {event : LinkEvent F} (h : ReportedSince k₀ d past)
      (hkeeps : ¬ Recovers D (D.run k₀ past) d event) : ReportedSince k₀ d (past ++ [event])

/-- The event withdraws what is declared for the edge: an injected recovery that is carried out, or
the report of a recovery after that of a failure. -/
def Withdraws (k₀ : Kernel W) (d : ℕ × ℕ) (past : List (LinkEvent F)) (event : LinkEvent F) :
    Prop :=
  Recovers D (D.run k₀ past) d event ∧
    ∀ data, event = .recoveryReport data → ReportedSince D k₀ d past

end History

/-! ### What polls leave alone -/

/-- The flags that are not observed are kept, and an edge between two switches that is declared down
is not lifted. -/
structure Keeps (p p' : EdgeProperties) : Prop where
  declaredDown : p'.declaredDown = p.declaredDown
  failureReported : p'.failureReported = p.failureReported
  srcDpid : p'.srcDpid = p.srcDpid
  dstDpid : p'.dstDpid = p.dstDpid
  isUp : p.declaredDown = true → p.srcDpid ≠ 0 → p.dstDpid ≠ 0 → p.isUp = false → p'.isUp = false

theorem Keeps.refl (p : EdgeProperties) : Keeps p p := ⟨rfl, rfl, rfl, rfl, fun _ _ _ h => h⟩

theorem Keeps.trans {p p' p'' : EdgeProperties} (h : Keeps p p') (h' : Keeps p' p'') :
    Keeps p p'' where
  declaredDown := h'.declaredDown.trans h.declaredDown
  failureReported := h'.failureReported.trans h.failureReported
  srcDpid := h'.srcDpid.trans h.srcDpid
  dstDpid := h'.dstDpid.trans h.dstDpid
  isUp hdeclared hsrc hdst hdown := by
    refine h'.isUp ?_ ?_ ?_ (h.isUp hdeclared hsrc hdst hdown)
    · rw [h.declaredDown, hdeclared]
    · rw [h.srcDpid]
      exact hsrc
    · rw [h.dstDpid]
      exact hdst

/-- The edge is kept, and so are its flags. -/
def KeepsEdge (d : ℕ × ℕ) (g g' : Graph) : Prop :=
  ∃ f, g'.edge d = (g.edge d).map f ∧ ∀ p, g.edge d = some p → Keeps p (f p)

theorem KeepsEdge.trans {d : ℕ × ℕ} {g g' g'' : Graph} (h : KeepsEdge d g g')
    (h' : KeepsEdge d g' g'') : KeepsEdge d g g'' := by
  obtain ⟨f, hf, hkeeps⟩ := h
  obtain ⟨f', hf', hkeeps'⟩ := h'
  refine ⟨f' ∘ f, ?_, ?_⟩
  · rw [hf', hf, Option.map_map]
  · intro p hp
    refine (hkeeps p hp).trans (hkeeps' (f p) ?_)
    rw [hf, hp, Option.map_some]

theorem Lift.edge_apply (L : Lift) (g : Graph) (ts : List Target) (d : ℕ × ℕ) :
    (L.apply g ts).edge d =
      (g.edge d).map fun p => if .edge d ∈ ts then L.onEdge p else p := by
  rw [Lift.apply, Graph.edge_mapEdges, Graph.edges_mapVertices, Graph.edge, Option.map_map]
  cases he : g.edges.find? fun e => e.ends = d with
  | none => rfl
  | some e =>
    have hends : e.ends = d := by simpa using List.find?_some he
    simp [hends]

section Polls

variable {F : Type*}

/-- A kind of entry keeps an edge when lifting does. -/
theorem EntryKind.keepsEdge (K : EntryKind F) (g : Graph) (answer : Option (Json F)) (d : ℕ × ℕ)
    (h : ∀ entry p, g.edge d = some p → .edge d ∈ K.targets g entry → Keeps p (K.lift.onEdge p)) :
    KeepsEdge d g (Twin.updateFrom K.update g answer) := by
  cases answer with
  | none => exact ⟨id, by simp [Twin.updateFrom], fun p _ => Keeps.refl p⟩
  | some answer =>
    rw [Twin.updateFrom, K.ingest_eq]
    refine ⟨_, K.lift.edge_apply g _ d, ?_⟩
    intro p hp
    by_cases hd : .edge d ∈ (reached (K.throws g) answer.elements).flatMap (K.targets g)
    · obtain ⟨entry, -, hentry⟩ := List.mem_flatMap.mp hd
      rw [if_pos hd]
      exact h entry p hp hentry
    · rw [if_neg hd]
      exact Keeps.refl p

theorem mem_hostEdgeTargets {g : Graph} {found : Option Edge} (hfound : ∀ e ∈ found, e ∈ g.edges)
    {hostEnd : EdgeProperties → ℕ} {d : ℕ × ℕ}
    (h : .edge d ∈ hostEdgeTargets found hostEnd) : ∃ p, g.edge d = some p ∧ hostEnd p = 0 := by
  cases found with
  | none => simp [hostEdgeTargets] at h
  | some e =>
    by_cases hhost : hostEnd e.props = 0
    · obtain rfl : d = e.ends := by simpa [hostEdgeTargets, hhost] using h
      exact ⟨e.props, Graph.edge_of_mem (hfound e rfl), hhost⟩
    · simp [hostEdgeTargets, hhost] at h

/-- The edges that hosts entries lift have a host at one end. -/
theorem host_of_mem_hostTargets {g : Graph} {entry : Json F} {d : ℕ × ℕ}
    (h : .edge d ∈ hostTargets g entry) :
    ∃ p, g.edge d = some p ∧ (p.srcDpid = 0 ∨ p.dstDpid = 0) := by
  have hmem : ∀ (pred : Edge → Bool), ∀ e ∈ g.edges.find? pred, e ∈ g.edges :=
    fun pred e he => List.mem_of_find?_eq_some he
  unfold hostTargets at h
  split at h
  · next mac hmac =>
    rcases List.mem_append.mp h with hvertex | h
    · simp at hvertex
    split at h
    · next ip hip =>
      split at h
      · simp at h
      rcases List.mem_append.mp h with hout | h
      · obtain ⟨p, hp, hzero⟩ := mem_hostEdgeTargets (hmem _) hout
        exact ⟨p, hp, .inl hzero⟩
      split at h
      · split at h
        · simp at h
        · obtain ⟨p, hp, hzero⟩ := mem_hostEdgeTargets (hmem _) h
          exact ⟨p, hp, .inr hzero⟩
      · simp at h
    · simp at h
  · simp at h

/-- **A poll** does not lift an edge between two switches that is declared down. -/
theorem keeps_discover (g : Graph) (switches hosts links : Option (Json F)) (d : ℕ × ℕ) :
    KeepsEdge d g (discover g switches hosts links) := by
  refine ((switchKind.keepsEdge g switches d ?_).trans (hostKind.keepsEdge _ hosts d ?_)).trans
    (linkKind.keepsEdge _ links d ?_)
  · intro entry p _ _
    exact Keeps.refl p
  · intro entry p hp hentry
    obtain ⟨p', hp', hzero⟩ := host_of_mem_hostTargets hentry
    obtain rfl : p = p' := Option.some.inj (hp.symm.trans hp')
    exact ⟨rfl, rfl, rfl, rfl, fun _ hsrc hdst => absurd hzero (not_or.mpr ⟨hsrc, hdst⟩)⟩
  · intro entry p _ _
    refine ⟨rfl, rfl, rfl, rfl, ?_⟩
    intro hdeclared _ _ hdown
    simp [linkKind, linkLift, hdeclared, hdown]

/-- **The derivation** releases, and does not lift. -/
theorem keeps_reconcile (m : Monitor) (d : ℕ × ℕ) :
    KeepsEdge d m.graph m.reconcileDerivedLiveness.graph := by
  have hedge : ∀ isolating e, Keeps e.props (reconcileEdge isolating e) := by
    intro isolating e
    unfold reconcileEdge
    split
    · exact ⟨rfl, rfl, rfl, rfl, fun _ _ _ _ => rfl⟩
    · split
      · exact ⟨rfl, rfl, rfl, rfl, fun _ _ _ h => h⟩
      · exact Keeps.refl _
  simp only [Monitor.reconcileDerivedLiveness]
  cases he : m.graph.edges.find? fun e => e.ends = d with
  | none =>
    refine ⟨id, ?_, fun p _ => Keeps.refl p⟩
    rw [Graph.edge_mapVertices, Graph.edge_mapEdges, Graph.edge, he]
    rfl
  | some e =>
    refine ⟨fun _ =>
      reconcileEdge (countUnusable m.graph.vertices.zipIdx m.unusablePolls).2 e, ?_, ?_⟩
    · rw [Graph.edge_mapVertices, Graph.edge_mapEdges, Graph.edge, he]
      rfl
    · intro p hp
      obtain rfl : e.props = p := by simpa [Graph.edge, he] using hp
      exact hedge _ e

theorem keeps_updateGraph (m : Monitor) (switches hosts links : Option (Json F)) (d : ℕ × ℕ) :
    KeepsEdge d m.graph (m.updateGraph switches hosts links).graph :=
  (keeps_discover m.graph switches hosts links d).trans (keeps_reconcile _ d)

end Polls

/-! ### Whole runs -/

section Runs

variable {W F : Type*} {D : Deployment W}

/-- No edge of a topology that was just loaded is declared down or reported. -/
def Loaded (g : Graph) : Prop :=
  ∀ e ∈ g.edges, e.props.declaredDown = false ∧ e.props.failureReported = false

/-- What the flags of an edge say: what is declared down is down and lies between two switches, and
what is noted as reported was reported. -/
structure Told (D : Deployment W) (k₀ : Kernel W) (d : ℕ × ℕ) (past : List (LinkEvent F))
    (p : EdgeProperties) : Prop where
  declared : p.declaredDown = true → p.isUp = false ∧ p.srcDpid ≠ 0 ∧ p.dstDpid ≠ 0
  reported : p.failureReported = true → ReportedSince D k₀ d past

/-- Edges that a request is carried out on lie between two switches. -/
theorem switches_of_mem_reportedEnds {g : Graph} {data : LinkRequest} {d : ℕ × ℕ}
    (hd : d ∈ reportedEnds g data) {p : EdgeProperties} (hp : g.edge d = some p) :
    p.srcDpid ≠ 0 ∧ p.dstDpid ≠ 0 := by
  unfold reportedEnds requestedEdges at hd
  split at hd
  · simp at hd
  next hzero =>
  have hfound : ∀ src dst e, src ≠ 0 → dst ≠ 0 → findEdgeBySrcAndDstDpid g src dst = some e →
      d = e.ends → p.srcDpid ≠ 0 ∧ p.dstDpid ≠ 0 := by
    rintro src dst e hsrc hdst he rfl
    rw [Graph.edge_of_mem (List.mem_of_find?_eq_some he)] at hp
    obtain rfl := Option.some.inj hp
    obtain ⟨hs, ht⟩ := dpids_of_findEdge he
    rw [hs, ht]
    exact ⟨hsrc, hdst⟩
  simp only [Bool.or_eq_true, decide_eq_true_eq, not_or] at hzero
  split at hd
  · simp at hd
  · next fwd hfwd =>
    simp only [Prod.mk.injEq] at hfwd
    exact hfound _ _ fwd hzero.1 hzero.2 hfwd.1 (by simpa using hd)
  · next fwd rev hboth =>
    simp only [Prod.mk.injEq] at hboth
    rcases List.mem_pair.mp hd with hd | hd
    · exact hfound _ _ fwd hzero.1 hzero.2 hboth.1 hd
    · exact hfound _ _ rev hzero.2 hzero.1 hboth.2 hd

/-- What an injection is carried out on, a report would be too. -/
theorem mem_reportedEnds_of_mem_injectedEnds {g : Graph} {data : LinkRequest} {d : ℕ × ℕ}
    (hd : d ∈ injectedEnds g data) : d ∈ reportedEnds g data := by
  unfold injectedEnds at hd
  unfold reportedEnds
  split at hd
  · simp at hd
  next hzero =>
  rw [if_neg hzero]
  split at hd
  · next hboth =>
    rw [hboth]
    exact hd
  · simp at hd

/-- Where an edge is kept, its flags say what they said. -/
theorem Told.keeps {k₀ : Kernel W} {d : ℕ × ℕ} {past past' : List (LinkEvent F)}
    {p p' : EdgeProperties} (h : Told D k₀ d past p) (hkeeps : Keeps p p')
    (hpast : ReportedSince D k₀ d past → ReportedSince D k₀ d past') : Told D k₀ d past' p' where
  declared hdeclared := by
    rw [hkeeps.declaredDown] at hdeclared
    obtain ⟨hdown, hsrc, hdst⟩ := h.declared hdeclared
    refine ⟨hkeeps.isUp hdeclared hsrc hdst hdown, ?_, ?_⟩
    · rw [hkeeps.srcDpid]
      exact hsrc
    · rw [hkeeps.dstDpid]
      exact hdst
  reported hreported := hpast (h.reported (hkeeps.failureReported ▸ hreported))

/-- What an event makes of an edge whose flags say what they should: they say so again, and a
declaration is gone only if the event withdraws it. -/
theorem told_step {k₀ : Kernel W} {d : ℕ × ℕ} {past : List (LinkEvent F)} {p : EdgeProperties}
    (hp : (D.run k₀ past).graph.edge d = some p) (h : Told D k₀ d past p) (event : LinkEvent F) :
    ∃ p', (D.run k₀ (past ++ [event])).graph.edge d = some p' ∧
      Told D k₀ d (past ++ [event]) p' ∧
      (p.declaredDown = true → ¬ Withdraws D k₀ d past event → p'.declaredDown = true) := by
  rw [Deployment.run_concat]
  have hkept : ∀ g', KeepsEdge d (D.run k₀ past).graph g' → ¬ Recovers D (D.run k₀ past) d event →
      ∃ p', g'.edge d = some p' ∧ Told D k₀ d (past ++ [event]) p' ∧
        (p.declaredDown = true → ¬ Withdraws D k₀ d past event → p'.declaredDown = true) := by
    rintro g' ⟨f, hf, hkeeps⟩ hrecovers
    refine ⟨f p, by rw [hf, hp, Option.map_some], h.keeps (hkeeps p hp) fun hpast =>
      .later hpast hrecovers, fun hdeclared _ => ?_⟩
    rw [(hkeeps p hp).declaredDown, hdeclared]
  have hsame : ∀ g' : Graph, g'.edge d = some p → KeepsEdge d (D.run k₀ past).graph g' :=
    fun g' hg' => ⟨id, by rw [hg', hp]; rfl, fun q _ => Keeps.refl q⟩
  cases event with
  | poll switches hosts links => exact hkept _ (keeps_updateGraph _ switches hosts links d) id
  | reconcile => exact hkept _ (keeps_reconcile _ d) id
  | failureReport data =>
    have hedge := changed_handleLinkFailure (D.run k₀ past).graph data d
    rw [hp, Option.map_some] at hedge
    by_cases hd : d ∈ reportedEnds (D.run k₀ past).graph data
    · rw [if_pos hd] at hedge
      have hswitches := switches_of_mem_reportedEnds hd hp
      exact ⟨_, hedge, ⟨fun _ => ⟨rfl, hswitches⟩, fun _ => .report hd⟩, fun _ _ => rfl⟩
    · rw [if_neg hd] at hedge
      exact hkept _ (hsame _ hedge) id
  | inject data =>
    have hedge := changed_handleInjectLinkFailure D.runTc D.clock D.formatTime D.mininet
      (D.run k₀ past).graph data (D.run k₀ past).ledger (D.run k₀ past).world d
    rw [hp, Option.map_some] at hedge
    by_cases hd : d ∈ injectedEnds (D.run k₀ past).graph data
    · rw [if_pos hd] at hedge
      have hswitches := switches_of_mem_reportedEnds (mem_reportedEnds_of_mem_injectedEnds hd) hp
      exact ⟨_, hedge, ⟨fun _ => ⟨rfl, hswitches⟩, fun hreported => .later (h.reported hreported) id⟩,
        fun _ _ => rfl⟩
    · rw [if_neg hd] at hedge
      exact hkept _ (hsame _ hedge) id
  | recoveryReport data =>
    have hedge := changed_handleLinkRecovery (D.run k₀ past).graph data d
    rw [hp, Option.map_some] at hedge
    by_cases hd : d ∈ reportedEnds (D.run k₀ past).graph data
    · simp only [if_pos hd, recoverProps_fst] at hedge
      by_cases hretained : !p.failureReported && p.declaredDown
      · -- nothing was reported for this declaration, so it is left as it is
        rw [if_pos hretained] at hedge
        simp only [Bool.and_eq_true, Bool.not_eq_true'] at hretained
        refine ⟨p, hedge, ⟨h.declared, ?_⟩, fun hdeclared _ => hdeclared⟩
        intro hreported
        rw [hretained.1] at hreported
        cases hreported
      · rw [if_neg hretained] at hedge
        refine ⟨_, hedge, ⟨nofun, nofun⟩, fun hdeclared hstays => absurd ⟨hd, ?_⟩ hstays⟩
        rintro _ -
        simp only [hdeclared, Bool.and_true, Bool.not_eq_true', Bool.not_eq_false] at hretained
        exact h.reported hretained
    · rw [if_neg hd] at hedge
      exact hkept _ (hsame _ hedge) hd
  | injectRecovery data =>
    have hcases := changed_handleInjectLinkRecovery D.runTc D.formatTime D.mininet
      (D.run k₀ past).graph data (D.run k₀ past).ledger (D.run k₀ past).world
    rcases hcases with ⟨hwithdrew, hchanged⟩ | ⟨hrefused, hgraph⟩
    · have hedge := hchanged d
      rw [hp, Option.map_some] at hedge
      by_cases hd : d ∈ injectedEnds (D.run k₀ past).graph data
      · rw [if_pos hd] at hedge
        refine ⟨_, hedge, ⟨nofun, nofun⟩, fun _ hstays => absurd ⟨⟨hd, hwithdrew⟩, ?_⟩ hstays⟩
        nofun
      · rw [if_neg hd] at hedge
        exact hkept _ (hsame _ hedge) fun hrecovers => hd hrecovers.1
    · refine hkept _ (hsame _ ?_) fun hrecovers => hrefused hrecovers.2
      exact (congrArg (fun g => Graph.edge g d) hgraph).trans hp

/-- No event adds an edge. -/
theorem edge_step_eq_none {k : Kernel W} {d : ℕ × ℕ} (h : k.graph.edge d = none)
    (event : LinkEvent F) : (D.step k event).graph.edge d = none := by
  have hchanged : ∀ {f ds g'}, Changed f ds k.graph g' → g'.edge d = none := by
    intro f ds g' hg'
    rw [hg' d, h, Option.map_none]
  have hkept : ∀ {g'}, KeepsEdge d k.graph g' → g'.edge d = none := by
    rintro g' ⟨f, hf, -⟩
    rw [hf, h, Option.map_none]
  cases event with
  | poll switches hosts links => exact hkept (keeps_updateGraph _ switches hosts links d)
  | reconcile => exact hkept (keeps_reconcile _ d)
  | failureReport data => exact hchanged (changed_handleLinkFailure _ data)
  | recoveryReport data => exact hchanged (changed_handleLinkRecovery _ data)
  | inject data =>
    exact hchanged (changed_handleInjectLinkFailure D.runTc D.clock D.formatTime D.mininet k.graph
      data k.ledger k.world)
  | injectRecovery data =>
    rcases changed_handleInjectLinkRecovery D.runTc D.formatTime D.mininet k.graph data k.ledger
      k.world with ⟨-, hg'⟩ | ⟨-, hg'⟩
    · exact hchanged hg'
    · exact (congrArg (fun g => Graph.edge g d) hg').trans h

/-- The flags of every edge of a topology that was just loaded say what they should, after every
run. -/
theorem told_run {k₀ : Kernel W} (hloaded : Loaded k₀.graph) {d : ℕ × ℕ}
    {past : List (LinkEvent F)} {p : EdgeProperties}
    (hp : (D.run k₀ past).graph.edge d = some p) : Told D k₀ d past p := by
  induction past using List.reverseRecOn generalizing p with
  | nil =>
    obtain ⟨e, he, rfl⟩ := Option.map_eq_some_iff.mp hp
    obtain ⟨hdeclared, hreported⟩ := hloaded e (List.mem_of_find?_eq_some he)
    refine ⟨?_, ?_⟩
    · intro h
      rw [hdeclared] at h
      cases h
    · intro h
      rw [hreported] at h
      cases h
  | append_singleton past event ih =>
    cases hbefore : (D.run k₀ past).graph.edge d with
    | none =>
      rw [Deployment.run_concat, edge_step_eq_none hbefore event] at hp
      cases hp
    | some q =>
      obtain ⟨p', hp', htold, -⟩ := told_step hbefore (ih hbefore) event
      obtain rfl := Option.some.inj (hp.symm.trans hp')
      exact htold

/-- **A declaration stands**: an edge that is declared down stays declared down, and down, through
everything that does not withdraw the declaration. -/
theorem declared_stands {k₀ : Kernel W} (hloaded : Loaded k₀.graph) {d : ℕ × ℕ}
    {before after : List (LinkEvent F)} {p : EdgeProperties}
    (hp : (D.run k₀ before).graph.edge d = some p) (hdeclared : p.declaredDown = true)
    (hkept : ∀ past event, past ++ [event] <+: after → ¬ Withdraws D k₀ d (before ++ past) event) :
    ∃ p', (D.run k₀ (before ++ after)).graph.edge d = some p' ∧ p'.declaredDown = true ∧
      p'.isUp = false := by
  have hstands : ∃ p', (D.run k₀ (before ++ after)).graph.edge d = some p' ∧
      p'.declaredDown = true := by
    induction after using List.reverseRecOn with
    | nil => exact ⟨p, by rw [List.append_nil, hp], hdeclared⟩
    | append_singleton after event ih =>
      obtain ⟨q, hq, hqdeclared⟩ :=
        ih fun past event' h => hkept past event' (h.trans (List.prefix_append _ _))
      obtain ⟨p', hp', -, hstays⟩ := told_step hq (told_run hloaded hq) event
      rw [List.append_assoc] at hp'
      exact ⟨p', hp', hstays hqdeclared (hkept after event List.prefix_rfl)⟩
  obtain ⟨p', hp', hdeclared'⟩ := hstands
  exact ⟨p', hp', hdeclared', ((told_run hloaded hp').declared hdeclared').1⟩

/-! ### A controller that restarts -/

theorem ReportedSince.exists_report {k₀ : Kernel W} {d : ℕ × ℕ} {past : List (LinkEvent F)}
    (h : ReportedSince D k₀ d past) : ∃ data, .failureReport data ∈ past := by
  induction h with
  | @report past data _ => exact ⟨data, by simp⟩
  | later _ _ ih =>
    obtain ⟨data, hdata⟩ := ih
    exact ⟨data, List.mem_append_left _ hdata⟩

end Runs

/-- A simulated network on a machine without shapers. -/
def plainDeployment : Deployment Unit where
  runTc := plainRunner
  clock _ := 0
  formatTime _ := ""
  mininet := true

/-- The fabric of two switches, just loaded. -/
def freshKernel : Kernel Unit := ⟨Monitor.start twoSwitches, {}, ()⟩

/-- A links answer with one end of the link. -/
def linkListed : Json Empty :=
  .arr [.obj [("src", .obj [("dpid", .str "1"), ("port_no", .str "1")]),
    ("dst", .obj [("dpid", .str "2"), ("port_no", .str "1")])]]

/-- An injected failure survives a controller that lists the link and reports it as recovered. -/
theorem declared_stands_restart :
    ∃ p, (plainDeployment.run freshKernel ([.inject ⟨1, 1, 2, 1⟩] ++
        [.poll none none (some linkListed), .recoveryReport ⟨1, 1, 2, 1⟩])).graph.edge (0, 1) =
      some p ∧ p.declaredDown = true ∧ p.isUp = false := by
  have hinjected : (plainDeployment.run (F := Empty) freshKernel [.inject ⟨1, 1, 2, 1⟩]).graph.edge
      (0, 1) = some
        { isUp := false, declaredDown := true, srcDpid := 1, srcInterface := 1, dstDpid := 2,
          dstInterface := 1 } := by
    decide +kernel
  refine declared_stands (by unfold Loaded; decide) hinjected rfl ?_
  rintro past event hprefix ⟨hrecovers, hreported⟩
  cases past with
  | nil =>
    obtain ⟨rfl, -⟩ := List.cons_prefix_cons.mp hprefix
    exact hrecovers
  | cons first past =>
    obtain ⟨rfl, hrest⟩ := List.cons_prefix_cons.mp hprefix
    cases past with
    | nil =>
      obtain ⟨rfl, -⟩ := List.cons_prefix_cons.mp hrest
      obtain ⟨data, hdata⟩ := (hreported _ rfl).exists_report
      simp at hdata
    | cons second past => simp at hrest

end NDTwin.Twin
