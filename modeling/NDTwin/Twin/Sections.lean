import NDTwin.Lib.Machine
import NDTwin.Twin.Declarations

/-!
# Requests section by section

The graph is locked for each write of it and not for a whole request.  A failure report notes that it
was received and then declares the edge down, and an injected recovery withdraws the declaration and
then raises the edge: each in two sections, and other requests and polls come in between.  A recovery
report and an injected failure are one section each, as is every write of a poll.

## Main definitions

* `Session`, `Session.step` — one edge, the requests that are between their sections, and a section.
* `Consistent` — **not both up and declared down, and a declaration that was not injected can be
  withdrawn by a recovery report.**
* `InOrder` — what a second section must find.

## Main results

* `consistent_of_inOrder` — runs whose second sections find it are consistent in every state.
* `not_consistent` — two runs that end in an inconsistent state.
-/

namespace NDTwin.Twin

open Json

/-- What is kept while requests for one edge are handled. -/
structure Session where
  monitor : Monitor
  /-- Failure reports that have noted and not yet declared. -/
  reporting : ℕ := 0
  /-- Injected recoveries that have withdrawn and not yet raised. -/
  withdrawing : ℕ := 0
  /-- Whether an injection has named the edge since its last withdrawal. -/
  injected : Bool := false

/-- One section, of a request for the edge or of a poll. -/
inductive LockedSection (F : Type*) where
  /-- The first section of a failure report. -/
  | noteFailure
  /-- The second. -/
  | declareReported
  /-- A recovery report. -/
  | recover
  /-- An injected failure. -/
  | inject
  /-- The first section of an injected recovery. -/
  | withdraw
  /-- The second. -/
  | raise
  /-- The write of a switches entry. -/
  | switchEntry (entry : Json F)
  /-- The writes of a hosts entry: its vertex, the edge from it and the edge to it. -/
  | hostVertex (mac : ℕ)
  | hostEdgeFrom (ip : ℕ)
  | hostEdgeTo (attachIp ip : ℕ)
  /-- The write of a links entry. -/
  | linkEntry (entry : Json F)
  | reconcile

namespace Session

variable {F : Type*}

/-- The graph of a session. -/
def graph (s : Session) : Graph := s.monitor.graph

/-- The session with another graph. -/
def withGraph (s : Session) (g : Graph) : Session :=
  { s with monitor := { s.monitor with graph := g } }

/-- A recovery report would leave the declaration of the edge. -/
def retained (s : Session) (e : Edge) : Bool :=
  match s.graph.edge e.ends with
  | none => false
  | some p => (recoverProps p).2 = .retained

/-- One section.  A second section is there only after a first. -/
def step (e : Edge) (s : Session) : LockedSection F → Option Session
  | .noteFailure =>
    some { s.withGraph (noteFailureReported s.graph e) with reporting := s.reporting + 1 }
  | .declareReported =>
    if s.reporting = 0 then none
    else some { s.withGraph (setEdgeDownByDeclaration s.graph e) with reporting := s.reporting - 1 }
  | .recover =>
    some { s.withGraph (applyReportedLinkRecovery s.graph e).2 with
      injected := s.injected && s.retained e }
  | .inject => some { s.withGraph (setEdgeDownByDeclaration s.graph e) with injected := true }
  | .withdraw =>
    some { s.withGraph (clearEdgeDeclaredDown s.graph e) with
      withdrawing := s.withdrawing + 1
      injected := false }
  | .raise =>
    if s.withdrawing = 0 then none
    else some { s.withGraph (setEdgeUp s.graph e) with withdrawing := s.withdrawing - 1 }
  | .switchEntry entry => some (s.withGraph (updateSwitch s.graph entry).1)
  | .hostVertex mac =>
    match findVertexByMac s.graph mac with
    | none => some s
    | some v => some (s.withGraph (markVertexUp s.graph v))
  | .hostEdgeFrom ip =>
    some (s.withGraph (liftHostEdge s.graph (findEdgeByHostIp s.graph ip) EdgeProperties.srcDpid))
  | .hostEdgeTo attachIp ip =>
    some (s.withGraph (liftHostEdge s.graph (findEdgeBySrcAndDstIp s.graph attachIp ip)
      EdgeProperties.dstDpid))
  | .linkEntry entry => some (s.withGraph (updateLink s.graph entry).1)
  | .reconcile => some { s with monitor := s.monitor.reconcileDerivedLiveness }

/-- No request for the edge is in progress. -/
def AtRest (s : Session) : Prop := s.reporting = 0 ∧ s.withdrawing = 0

end Session

/-- The flags of the edge are consistent. -/
structure Consistent (e : Edge) (s : Session) : Prop where
  notBoth : ∀ p, s.graph.edge e.ends = some p → ¬ (p.isUp = true ∧ p.declaredDown = true)
  withdrawable : s.injected = false → ∀ p, s.graph.edge e.ends = some p → p.declaredDown = true →
    p.failureReported = true ∧ (recoverProps p).2 = .applied

/-- An injected recovery that comes to raise the edge finds it not declared down again, and a failure
report that comes to declare it down finds its note, or an injection to go with. -/
def InOrder {F : Type*} (e : Edge) (s : Session) : LockedSection F → Prop
  | .raise => ∀ p, s.graph.edge e.ends = some p → p.declaredDown = false
  | .declareReported =>
    s.injected = true ∨ ∀ p, s.graph.edge e.ends = some p → p.failureReported = true
  | _ => True

/-! ### What a section keeps -/

section Keeping

variable {F : Type*}

theorem keepsEdge_lift (L : Lift) (g : Graph) (ts : List Target) (d : ℕ × ℕ)
    (h : ∀ p, g.edge d = some p → .edge d ∈ ts → Keeps p (L.onEdge p)) :
    KeepsEdge d g (L.apply g ts) := by
  refine ⟨_, L.edge_apply g ts d, ?_⟩
  intro p hp
  by_cases hd : .edge d ∈ ts
  · rw [if_pos hd]
    exact h p hp hd
  · rw [if_neg hd]
    exact Keeps.refl p

/-- A write for a host lifts no edge between two switches. -/
theorem keepsEdge_liftHostEdge (g : Graph) {found : Option Edge} (hfound : ∀ e ∈ found, e ∈ g.edges)
    {hostEnd : EdgeProperties → ℕ} (hend : ∀ p, hostEnd p = 0 → p.srcDpid = 0 ∨ p.dstDpid = 0)
    (d : ℕ × ℕ) : KeepsEdge d g (liftHostEdge g found hostEnd) := by
  rw [liftHostEdge_eq]
  refine keepsEdge_lift hostLift g _ d ?_
  intro p hp hd
  obtain ⟨p', hp', hzero⟩ := mem_hostEdgeTargets hfound hd
  obtain rfl : p = p' := Option.some.inj (hp.symm.trans hp')
  exact ⟨rfl, rfl, rfl, rfl, fun _ hsrc hdst => absurd (hend p hzero) (not_or.mpr ⟨hsrc, hdst⟩)⟩

/-- What the flags of an edge between two switches say, in the middle of requests too. -/
structure Ordered (injected : Bool) (p : EdgeProperties) : Prop where
  srcDpid : p.srcDpid ≠ 0
  dstDpid : p.dstDpid ≠ 0
  down : p.declaredDown = true → p.isUp = false
  reported : injected = false → p.declaredDown = true → p.failureReported = true

theorem Ordered.keeps {injected : Bool} {p p' : EdgeProperties} (h : Ordered injected p)
    (hkeeps : Keeps p p') : Ordered injected p' where
  srcDpid := hkeeps.srcDpid ▸ h.srcDpid
  dstDpid := hkeeps.dstDpid ▸ h.dstDpid
  down hdeclared := by
    rw [hkeeps.declaredDown] at hdeclared
    exact hkeeps.isUp hdeclared h.srcDpid h.dstDpid (h.down hdeclared)
  reported hinjected hdeclared := by
    rw [hkeeps.declaredDown] at hdeclared
    rw [hkeeps.failureReported]
    exact h.reported hinjected hdeclared

/-- The flags of the edge say what they should. -/
def Session.Ordered (e : Edge) (s : Session) : Prop :=
  ∃ p, s.graph.edge e.ends = some p ∧ Twin.Ordered s.injected p

theorem Session.Ordered.keeps {e : Edge} {s : Session} (h : s.Ordered e) {g : Graph}
    (hkeeps : KeepsEdge e.ends s.graph g) : (s.withGraph g).Ordered e := by
  obtain ⟨p, hp, hordered⟩ := h
  obtain ⟨f, hf, hkept⟩ := hkeeps
  refine ⟨f p, ?_, hordered.keeps (hkept p hp)⟩
  show g.edge e.ends = some (f p)
  rw [hf, hp, Option.map_some]

theorem Session.Ordered.consistent {e : Edge} {s : Session} (h : s.Ordered e) : Consistent e s := by
  obtain ⟨p, hp, hordered⟩ := h
  constructor
  · rintro q hq ⟨hup, hdeclared⟩
    obtain rfl := Option.some.inj (hp.symm.trans hq)
    rw [hordered.down hdeclared] at hup
    cases hup
  · intro hinjected q hq hdeclared
    obtain rfl := Option.some.inj (hp.symm.trans hq)
    have hreported := hordered.reported hinjected hdeclared
    exact ⟨hreported, by simp [recoverProps, hreported]⟩

/-- A section that writes the edge. -/
theorem Session.ordered_of_setEdge {e : Edge} {s s' : Session} {p : EdgeProperties}
    (hp : s.graph.edge e.ends = some p) (f : EdgeProperties → EdgeProperties)
    (hgraph : s'.graph = s.graph.setEdge e.ends f) (h : Twin.Ordered s'.injected (f p)) :
    s'.Ordered e := by
  refine ⟨f p, ?_, h⟩
  rw [hgraph, Graph.edge_setEdge, if_pos rfl, hp, Option.map_some]

/-- **One section.** -/
theorem Session.Ordered.step {e : Edge} {s s' : Session} {l : LockedSection F} (h : s.Ordered e)
    (hl : InOrder e s l) (hstep : s.step e l = some s') : s'.Ordered e := by
  obtain ⟨p, hp, hordered⟩ := id h
  cases l with
  | noteFailure =>
    cases hstep
    exact Session.ordered_of_setEdge hp (fun p => { p with failureReported := true }) rfl
      ⟨hordered.srcDpid, hordered.dstDpid, hordered.down, fun _ _ => rfl⟩
  | declareReported =>
    simp only [Session.step] at hstep
    split at hstep
    · cases hstep
    cases hstep
    refine Session.ordered_of_setEdge hp declareProps rfl
      ⟨hordered.srcDpid, hordered.dstDpid, fun _ => rfl, ?_⟩
    -- the note is still there, or else an injection has named the edge
    intro hinjected _
    rcases hl with hl | hl
    · rw [show s.injected = false from hinjected] at hl
      cases hl
    · exact hl p hp
  | recover =>
    cases hstep
    refine Session.ordered_of_setEdge hp (fun p => (recoverProps p).1) rfl ?_
    rw [recoverProps_fst]
    split
    · next hretained =>
      refine ⟨hordered.srcDpid, hordered.dstDpid, hordered.down, ?_⟩
      intro hinjected hdeclared
      have hkept : s.retained e = true := by
        simp [Session.retained, hp, recoverProps, hretained]
      exact hordered.reported (by simpa [hkept] using hinjected) hdeclared
    · exact ⟨hordered.srcDpid, hordered.dstDpid, nofun, nofun⟩
  | inject =>
    cases hstep
    exact Session.ordered_of_setEdge hp declareProps rfl
      ⟨hordered.srcDpid, hordered.dstDpid, fun _ => rfl, nofun⟩
  | withdraw =>
    cases hstep
    exact Session.ordered_of_setEdge hp
      (fun p => { p with declaredDown := false, failureReported := false }) rfl
      ⟨hordered.srcDpid, hordered.dstDpid, nofun, nofun⟩
  | raise =>
    simp only [Session.step] at hstep
    split at hstep
    · cases hstep
    cases hstep
    have hfree := hl p hp
    refine Session.ordered_of_setEdge hp (fun p => { p with isUp := true, downReason := .none }) rfl
      ⟨hordered.srcDpid, hordered.dstDpid, ?_, hordered.reported⟩
    intro hdeclared
    rw [show p.declaredDown = true from hdeclared] at hfree
    cases hfree
  | switchEntry entry =>
    cases hstep
    rw [(updateSwitch_eq s.graph entry).1]
    exact h.keeps (keepsEdge_lift switchLift _ _ _ fun p _ _ => Keeps.refl p)
  | hostVertex mac =>
    simp only [Session.step] at hstep
    split at hstep
    · cases hstep
      exact h
    · cases hstep
      exact ⟨p, hp, hordered⟩
  | hostEdgeFrom ip =>
    cases hstep
    exact h.keeps (keepsEdge_liftHostEdge _ (fun e he => List.mem_of_find?_eq_some he)
      (fun _ => .inl) _)
  | hostEdgeTo attachIp ip =>
    cases hstep
    exact h.keeps (keepsEdge_liftHostEdge _ (fun e he => List.mem_of_find?_eq_some he)
      (fun _ => .inr) _)
  | linkEntry entry =>
    cases hstep
    rw [(updateLink_eq s.graph entry).1]
    refine h.keeps (keepsEdge_lift linkLift _ _ _ fun p _ _ => ⟨rfl, rfl, rfl, rfl, ?_⟩)
    intro hdeclared _ _ hdown
    simp [linkLift, hdeclared, hdown]
  | reconcile =>
    cases hstep
    obtain ⟨f, hf, hkept⟩ := keeps_reconcile s.monitor e.ends
    refine ⟨f p, ?_, hordered.keeps (hkept p hp)⟩
    rw [Session.graph, hf]
    exact congrArg (Option.map f) hp

end Keeping

/-- **Requests in order are consistent**: along every interleaving of the sections of any number of
requests for an edge between two switches, and of polls, in which the second sections find what they
rely on, the flags of the edge are consistent in every state, and so whenever no request is in
progress. -/
theorem consistent_of_inOrder {F : Type*} {e : Edge} {m : Monitor} {p : EdgeProperties}
    (hp : m.graph.edge e.ends = some p) (hsrc : p.srcDpid ≠ 0) (hdst : p.dstDpid ≠ 0)
    (hloaded : p.declaredDown = false) {tr : List (LockedSection F)} {s : Session}
    (hok : Machine.Guarded (Session.step e) (InOrder e) { monitor := m } tr)
    (hrun : Machine.run (Session.step e) { monitor := m } tr = some s) : Consistent e s := by
  have hstart : Session.Ordered e { monitor := m } := by
    refine ⟨p, hp, hsrc, hdst, ?_, ?_⟩
    · intro hdeclared
      rw [hloaded] at hdeclared
      cases hdeclared
    · intro _ hdeclared
      rw [hloaded] at hdeclared
      cases hdeclared
  refine Session.Ordered.consistent ?_
  exact hok.invariant (P := fun _ s => Session.Ordered e s) hstart
    (fun _ _ _ _ hl h hstep => h.step hl hstep) hrun

/-! ### The link between two switches -/

/-- The edge from the first switch to the second. -/
def firstEdge : Edge := ⟨0, 1, { srcDpid := 1, srcInterface := 1, dstDpid := 2, dstInterface := 1 }⟩

/-- Runs on that edge. -/
def runSections (tr : List (LockedSection Empty)) : Option Session :=
  Machine.run (Session.step firstEdge) { monitor := Monitor.start twoSwitches } tr

/-- A failure report, a poll in the middle of it, its recovery, and an injection that is taken back. -/
def orderlyRun : List (LockedSection Empty) :=
  [.noteFailure, .reconcile, .declareReported, .recover, .inject, .withdraw, .raise]

theorem consistent_orderlyRun : ∃ s, runSections orderlyRun = some s ∧ s.AtRest ∧
    Consistent firstEdge s := by
  have hok : Machine.Guarded (Session.step firstEdge) (InOrder firstEdge)
      { monitor := Monitor.start twoSwitches } orderlyRun := by
    iterate 2 refine Machine.guarded_cons trivial rfl ?_
    refine Machine.guarded_cons (.inr ?_) rfl ?_
    · rintro p ⟨⟩
      rfl
    iterate 3 refine Machine.guarded_cons trivial rfl ?_
    refine Machine.guarded_cons ?_ rfl (Machine.guarded_nil _ _)
    rintro p ⟨⟩
    rfl
  have hedge : (Monitor.start twoSwitches).graph.edge firstEdge.ends = some firstEdge.props := by
    decide
  refine ⟨_, rfl, ⟨rfl, rfl⟩, ?_⟩
  exact consistent_of_inOrder hedge (by decide) (by decide) rfl hok rfl

/-- **Sections that fall between those of another request**: an injected failure between the sections
of an injected recovery leaves the edge up and declared down, and an injected recovery between the
sections of a failure report leaves a declaration that no recovery report withdraws. -/
theorem not_consistent :
    (∃ s, runSections [.withdraw, .inject, .raise] = some s ∧ s.AtRest ∧
      ¬ Consistent firstEdge s) ∧
    ∃ s, runSections [.noteFailure, .withdraw, .raise, .declareReported] = some s ∧ s.AtRest ∧
      s.injected = false ∧ ¬ Consistent firstEdge s := by
  refine ⟨⟨_, rfl, ⟨rfl, rfl⟩, ?_⟩, _, rfl, ⟨rfl, rfl⟩, rfl, ?_⟩
  · intro h
    exact h.notBoth
      { declaredDown := true, srcDpid := 1, srcInterface := 1, dstDpid := 2, dstInterface := 1 }
      (by decide) ⟨rfl, rfl⟩
  · intro h
    have hreported := (h.withdrawable rfl
      { isUp := false, declaredDown := true, srcDpid := 1, srcInterface := 1, dstDpid := 2,
        dstInterface := 1 } (by decide) rfl).1
    cases hreported

end NDTwin.Twin
