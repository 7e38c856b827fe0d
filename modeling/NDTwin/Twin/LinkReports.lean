import NDTwin.Twin.InjectLink

/-!
# Links that are reported and withdrawn

A link fails in one of two ways: the control plane reports that it broke, or an operator injects a
failure.  Both declare its edges down, and the report leaves a second note.  A recovery that the
control plane reports withdraws a declaration only where there is such a note; an operator who
injects a recovery withdraws whatever is declared, unless all there is to take back is a queue that
somebody else has attached.

The writers of the flags take the lock of the graph once, except `setEdgeDownByReportedFailure`, which
takes it twice.

## Main definitions

* `noteFailureReported`, `setEdgeDownByReportedFailure`, `applyReportedLinkRecovery`,
  `clearEdgeDeclaredDown`, `setEdgeUp` — the writers of the flags.
* `handleLinkFailure`, `handleLinkRecovery`, `handleInjectLinkRecovery` — the handlers.
* `reportedEnds`, `injectedEnds` — the edges that a request is carried out on.

## Main results

* `changed_handleLinkFailure`, `changed_handleLinkRecovery`, `changed_handleInjectLinkFailure`,
  `changed_handleInjectLinkRecovery` — **what each handler does to the edges.**
-/

namespace NDTwin.Twin

open Netem

/-! ### The writers -/

/-- The first section of `setEdgeDownByReportedFailure(e)`. -/
def noteFailureReported (g : Graph) (e : Edge) : Graph :=
  g.setEdge e.ends fun p => { p with failureReported := true }

/-- `setEdgeDownByReportedFailure(e)`. -/
def setEdgeDownByReportedFailure (g : Graph) (e : Edge) : Graph :=
  setEdgeDownByDeclaration (noteFailureReported g e) e

/-- `setEdgeUp(e)`. -/
def setEdgeUp (g : Graph) (e : Edge) : Graph :=
  g.setEdge e.ends fun p => { p with isUp := true, downReason := .none }

/-- `clearEdgeDeclaredDown(e)`. -/
def clearEdgeDeclaredDown (g : Graph) (e : Edge) : Graph :=
  g.setEdge e.ends fun p => { p with declaredDown := false, failureReported := false }

/-- What became of a recovery report. -/
inductive LinkRecoveryOutcome where
  | applied | retained
  deriving DecidableEq, Repr

/-- What a recovery report makes of an edge: a declaration that nothing was reported for stands. -/
def recoverProps (p : EdgeProperties) : EdgeProperties × LinkRecoveryOutcome :=
  if !p.failureReported && p.declaredDown then (p, .retained)
  else
    ({ p with failureReported := false, declaredDown := false, isUp := true, downReason := .none },
      .applied)

/-- `applyReportedLinkRecovery(e)`, of an edge that was just found. -/
def applyReportedLinkRecovery (g : Graph) (e : Edge) : LinkRecoveryOutcome × Graph :=
  ((recoverProps e.props).2, g.setEdge e.ends fun p => (recoverProps p).1)

/-! ### The handlers -/

/-- What a report is answered with. -/
inductive ReportReply where
  | hostEdge
  | edgeNotFound
  /-- The forward direction was acted on. -/
  | reverseEdgeMissing
  | processed (retained : Bool)
  deriving DecidableEq, Repr

/-- `handleLinkFailure`, for a payload that could be parsed. -/
def handleLinkFailure (g : Graph) (data : LinkRequest) : ReportReply × Graph :=
  if data.srcDpid = 0 || data.dstDpid = 0 then (.hostEdge, g)
  else
    match findEdgeBySrcAndDstDpid g data.srcDpid data.dstDpid with
    | none => (.edgeNotFound, g)
    | some fwd =>
      let g := setEdgeDownByReportedFailure g fwd
      match findEdgeBySrcAndDstDpid g data.dstDpid data.srcDpid with
      | none => (.reverseEdgeMissing, g)
      | some rev => (.processed false, setEdgeDownByReportedFailure g rev)

/-- `handleLinkRecovery`, for a payload that could be parsed. -/
def handleLinkRecovery (g : Graph) (data : LinkRequest) : ReportReply × Graph :=
  if data.srcDpid = 0 || data.dstDpid = 0 then (.hostEdge, g)
  else
    match findEdgeBySrcAndDstDpid g data.srcDpid data.dstDpid with
    | none => (.edgeNotFound, g)
    | some fwd =>
      let (fwdOutcome, g) := applyReportedLinkRecovery g fwd
      match findEdgeBySrcAndDstDpid g data.dstDpid data.srcDpid with
      | none => (.reverseEdgeMissing, g)
      | some rev =>
        let (revOutcome, g) := applyReportedLinkRecovery g rev
        (.processed (fwdOutcome = .retained || revOutcome = .retained), g)

/-- What an injected recovery is answered with. -/
inductive RecoveryReply where
  | hostEdge
  | edgeNotFound
  | reverseEdgeMissing
  /-- Nothing is declared, nothing attached is this kernel's, and something is attached. -/
  | conflict (netemNotOurs : List String) (why : String)
  | notMininet
  | restored (tc : List Report) (netemLeftStanding : List String)

/-- The declarations were withdrawn. -/
def RecoveryReply.Withdrew : RecoveryReply → Prop
  | .notMininet | .restored .. => True
  | _ => False

section Handler

variable {W : Type*} (run : W → List String → TcOutcome × W) (clock : W → ℤ)
  (formatTime : ℤ → String)

/-- The sightings of the interfaces, one after the other. -/
def inspectAll (ledger : InjectedNetemLedger) : List String → W → List (String × NetemSighting) × W
  | [], w => ([], w)
  | iface :: ifaces, w =>
    let (seen, w) := inspectNetem run formatTime iface ledger w
    let (rest, w) := inspectAll ledger ifaces w
    ((iface, seen) :: rest, w)

/-- The interfaces whose queue somebody else has attached. -/
def foreignInterfaces (sighted : List (String × NetemSighting)) : List String :=
  (sighted.filter fun s => s.2.provenance = .foreign).map Prod.fst

/-- Each end is restored as it was sighted. -/
def restoreAll : List (String × NetemSighting) → InjectedNetemLedger → W →
    List Report × InjectedNetemLedger × W
  | [], ledger, w => ([], ledger, w)
  | (iface, seen) :: rest, ledger, w =>
    if iface = "" then
      let (reports, ledger, w) := restoreAll rest ledger w
      ({ interface := none, refused := "the topology file gives this switch no bridge_name" } ::
        reports, ledger, w)
    else
      let (report, ledger, w) := restoreSightedNetem run iface seen ledger w
      let (reports, ledger, w) := restoreAll rest ledger w
      (report :: reports, ledger, w)

/-- Both directions are withdrawn, each in two sections. -/
def withdrawBoth (g : Graph) (fwd rev : Edge) : Graph :=
  setEdgeUp (clearEdgeDeclaredDown (setEdgeUp (clearEdgeDeclaredDown g fwd) fwd) rev) rev

/-- Why the queue of one of the ends is somebody else's. -/
def foreignWhy (sighted : List (String × NetemSighting)) : String :=
  match sighted.head?, sighted.getLast? with
  | some first, some last => if first.2.provenance = .foreign then first.2.why else last.2.why
  | _, _ => ""

/-- `handleInjectLinkRecovery`, for a payload that could be parsed. -/
def handleInjectLinkRecovery (mininet : Bool) (g : Graph) (data : LinkRequest)
    (ledger : InjectedNetemLedger) (w : W) : RecoveryReply × Graph × InjectedNetemLedger × W :=
  if data.srcDpid = 0 || data.dstDpid = 0 then (.hostEdge, g, ledger, w)
  else
    match requestedEdges g data with
    | (none, _) => (.edgeNotFound, g, ledger, w)
    | (some _, none) => (.reverseEdgeMissing, g, ledger, w)
    | (some fwd, some rev) =>
      if !mininet then (.notMininet, withdrawBoth g fwd rev, ledger, w)
      else
        let ifaces := [mininetIfaceFor g data.srcDpid data.srcInterface,
          mininetIfaceFor g data.dstDpid data.dstInterface]
        let (sighted, w) := inspectAll run formatTime ledger ifaces w
        let declared := fwd.props.declaredDown || rev.props.declaredDown
        let anyOurs := sighted.any fun s => s.2.provenance = .ours
        let foreign := foreignInterfaces sighted
        if !declared && !anyOurs && !foreign.isEmpty then
          (.conflict foreign (foreignWhy sighted), g, ledger, w)
        else
          let (tc, ledger, w) := restoreAll run sighted ledger w
          let leftStanding := foreignInterfaces (sighted.filter fun s => s.1 ≠ "")
          (.restored tc leftStanding, withdrawBoth g fwd rev, ledger, w)

end Handler

/-! ### What a request does to an edge -/

/-- The edges that a report is carried out on. -/
def reportedEnds (g : Graph) (data : LinkRequest) : List (ℕ × ℕ) :=
  if data.srcDpid = 0 || data.dstDpid = 0 then []
  else
    match requestedEdges g data with
    | (none, _) => []
    | (some fwd, none) => [fwd.ends]
    | (some fwd, some rev) => [fwd.ends, rev.ends]

/-- The edges that an injection is carried out on: both directions, or none. -/
def injectedEnds (g : Graph) (data : LinkRequest) : List (ℕ × ℕ) :=
  if data.srcDpid = 0 || data.dstDpid = 0 then []
  else
    match requestedEdges g data with
    | (some fwd, some rev) => [fwd.ends, rev.ends]
    | _ => []

/-- What an injected failure makes of an edge. -/
def declareProps (p : EdgeProperties) : EdgeProperties :=
  { p with isUp := false, declaredDown := true }

/-- What a reported failure makes of an edge. -/
def reportProps (p : EdgeProperties) : EdgeProperties :=
  { p with isUp := false, declaredDown := true, failureReported := true }

/-- What an injected recovery makes of an edge. -/
def withdrawProps (p : EdgeProperties) : EdgeProperties :=
  { p with declaredDown := false, failureReported := false, isUp := true, downReason := .none }

/-- The graph is the other with some edges changed. -/
def Changed (f : EdgeProperties → EdgeProperties) (ds : List (ℕ × ℕ)) (g g' : Graph) : Prop :=
  ∀ d, g'.edge d = (g.edge d).map fun p => if d ∈ ds then f p else p

theorem Changed.nil (f : EdgeProperties → EdgeProperties) (g : Graph) : Changed f [] g g := by
  intro d
  simp

theorem Changed.setEdge (f : EdgeProperties → EdgeProperties) (g : Graph) (d : ℕ × ℕ) :
    Changed f [d] g (g.setEdge d f) := by
  intro d'
  rw [Graph.edge_setEdge]
  by_cases hd : d' = d
  · simp [hd]
  · simp [hd]

theorem Changed.append {f : EdgeProperties → EdgeProperties} {ds ds' : List (ℕ × ℕ)}
    {g g' g'' : Graph} (h : Changed f ds g g') (h' : Changed f ds' g' g'')
    (hf : ∀ p, f (f p) = f p) : Changed f (ds ++ ds') g g'' := by
  intro d
  rw [h' d, h d, Option.map_map]
  refine congrArg (Option.map · _) (funext fun p => ?_)
  by_cases hd : d ∈ ds
  · by_cases hd' : d ∈ ds'
    · simp [hd, hd', hf]
    · simp [hd, hd']
  · simp [hd]

/-- Two changes of one edge are one. -/
theorem Changed.comp {f h : EdgeProperties → EdgeProperties} (g : Graph) (d : ℕ × ℕ) :
    Changed (h ∘ f) [d] g ((g.setEdge d f).setEdge d h) := by
  intro d'
  rw [Graph.edge_setEdge, Graph.edge_setEdge]
  by_cases hd : d' = d
  · simp [hd, Function.comp_def]
  · simp [hd]

theorem changed_setEdgeDownByReportedFailure (g : Graph) (e : Edge) :
    Changed reportProps [e.ends] g (setEdgeDownByReportedFailure g e) := Changed.comp g e.ends

theorem changed_withdraw (g : Graph) (e : Edge) :
    Changed withdrawProps [e.ends] g (setEdgeUp (clearEdgeDeclaredDown g e) e) :=
  Changed.comp g e.ends

/-- A recovery report leaves an edge alone, or does what an injected recovery does. -/
theorem recoverProps_fst (p : EdgeProperties) : (recoverProps p).1 =
    if !p.failureReported && p.declaredDown then p else withdrawProps p := by
  unfold recoverProps
  split <;> rfl

theorem recoverProps_recoverProps (p : EdgeProperties) :
    (recoverProps (recoverProps p).1).1 = (recoverProps p).1 := by
  rw [recoverProps_fst p]
  split
  · next hretained => rw [recoverProps_fst, if_pos hretained]
  · rfl

/-- A change of flags leaves the edge that is found for two dpids. -/
theorem ends_findEdge_setEdge (g : Graph) (d : ℕ × ℕ) {f : EdgeProperties → EdgeProperties}
    (src dst : ℕ) (hf : ∀ p, (f p).srcDpid = p.srcDpid ∧ (f p).dstDpid = p.dstDpid) :
    (findEdgeBySrcAndDstDpid (g.setEdge d f) src dst).map Edge.ends =
      (findEdgeBySrcAndDstDpid g src dst).map Edge.ends := by
  have hsame : ∀ e : Edge, (if e.ends = d then f e.props else e.props).srcDpid = e.props.srcDpid ∧
      (if e.ends = d then f e.props else e.props).dstDpid = e.props.dstDpid := by
    intro e
    by_cases hd : e.ends = d
    · simpa [hd] using hf e.props
    · simp [hd]
  simp only [findEdgeBySrcAndDstDpid, Graph.setEdge, Graph.mapEdges, List.find?_map,
    Function.comp_def, hsame, Option.map_map]
  rfl

/-- **A failure report** marks its edges down, declared and reported. -/
theorem changed_handleLinkFailure (g : Graph) (data : LinkRequest) :
    Changed reportProps (reportedEnds g data) g (handleLinkFailure g data).2 := by
  rw [handleLinkFailure, reportedEnds, requestedEdges]
  by_cases hzero : data.srcDpid = 0 || data.dstDpid = 0
  · rw [if_pos hzero, if_pos hzero]
    exact Changed.nil _ g
  rw [if_neg hzero, if_neg hzero]
  cases findEdgeBySrcAndDstDpid g data.srcDpid data.dstDpid with
  | none => exact Changed.nil _ g
  | some fwd =>
    have hfwd := changed_setEdgeDownByReportedFailure g fwd
    -- the reverse edge is looked up when the forward one is down already
    have hrev : (findEdgeBySrcAndDstDpid (setEdgeDownByReportedFailure g fwd) data.dstDpid
        data.srcDpid).map Edge.ends =
          (findEdgeBySrcAndDstDpid g data.dstDpid data.srcDpid).map Edge.ends := by
      refine (ends_findEdge_setEdge (noteFailureReported g fwd) fwd.ends _ _ ?_).trans
        (ends_findEdge_setEdge g fwd.ends _ _ ?_)
      · exact fun _ => ⟨rfl, rfl⟩
      · exact fun _ => ⟨rfl, rfl⟩
    dsimp only
    cases hfound : findEdgeBySrcAndDstDpid (setEdgeDownByReportedFailure g fwd) data.dstDpid
        data.srcDpid with
    | none =>
      rw [hfound, Option.map_none, eq_comm, Option.map_eq_none_iff] at hrev
      rw [hrev]
      exact hfwd
    | some rev =>
      rw [hfound, Option.map_some, eq_comm, Option.map_eq_some_iff] at hrev
      obtain ⟨rev', hrev', hends⟩ := hrev
      simp only [hrev', hends]
      exact hfwd.append (changed_setEdgeDownByReportedFailure _ rev) fun _ => rfl

/-- **A recovery report** recovers its edges. -/
theorem changed_handleLinkRecovery (g : Graph) (data : LinkRequest) :
    Changed (fun p => (recoverProps p).1) (reportedEnds g data) g (handleLinkRecovery g data).2 := by
  rw [handleLinkRecovery, reportedEnds, requestedEdges]
  by_cases hzero : data.srcDpid = 0 || data.dstDpid = 0
  · rw [if_pos hzero, if_pos hzero]
    exact Changed.nil _ g
  rw [if_neg hzero, if_neg hzero]
  cases findEdgeBySrcAndDstDpid g data.srcDpid data.dstDpid with
  | none => exact Changed.nil _ g
  | some fwd =>
    have hfwd := Changed.setEdge (fun p => (recoverProps p).1) g fwd.ends
    have hdpids : ∀ p, (recoverProps p).1.srcDpid = p.srcDpid ∧
        (recoverProps p).1.dstDpid = p.dstDpid := by
      intro p
      rw [recoverProps_fst]
      split <;> exact ⟨rfl, rfl⟩
    have hrev := ends_findEdge_setEdge g fwd.ends data.dstDpid data.srcDpid hdpids
    simp only [applyReportedLinkRecovery]
    cases hfound : findEdgeBySrcAndDstDpid (g.setEdge fwd.ends fun p => (recoverProps p).1)
        data.dstDpid data.srcDpid with
    | none =>
      rw [hfound, Option.map_none, eq_comm, Option.map_eq_none_iff] at hrev
      rw [hrev]
      exact hfwd
    | some rev =>
      rw [hfound, Option.map_some, eq_comm, Option.map_eq_some_iff] at hrev
      obtain ⟨rev', hrev', hends⟩ := hrev
      simp only [hrev', hends]
      exact hfwd.append (Changed.setEdge _ _ rev.ends) recoverProps_recoverProps

section Handler

variable {W : Type*} (run : W → List String → TcOutcome × W) (clock : W → ℤ)
  (formatTime : ℤ → String)

/-- **An injected failure** declares both directions down. -/
theorem changed_handleInjectLinkFailure (mininet : Bool) (g : Graph) (data : LinkRequest)
    (ledger : InjectedNetemLedger) (w : W) : Changed declareProps (injectedEnds g data) g
      (handleInjectLinkFailure run clock formatTime mininet g data ledger w).2.1 := by
  rw [handleInjectLinkFailure, injectedEnds]
  by_cases hzero : data.srcDpid = 0 || data.dstDpid = 0
  · rw [if_pos hzero, if_pos hzero]
    exact Changed.nil _ g
  rw [if_neg hzero, if_neg hzero]
  rcases requestedEdges g data with ⟨_ | fwd, _ | rev⟩
  · exact Changed.nil _ g
  · exact Changed.nil _ g
  · exact Changed.nil _ g
  · have hboth : Changed declareProps [fwd.ends, rev.ends] g
        (setEdgeDownByDeclaration (setEdgeDownByDeclaration g fwd) rev) :=
      (Changed.setEdge declareProps g fwd.ends).append
        (Changed.setEdge declareProps _ rev.ends) fun _ => rfl
    cases mininet with
    | false => exact hboth
    | true => exact hboth

/-- **An injected recovery** withdraws both directions, where it is carried out. -/
theorem changed_handleInjectLinkRecovery (mininet : Bool) (g : Graph) (data : LinkRequest)
    (ledger : InjectedNetemLedger) (w : W) :
    let (reply, g', _) := handleInjectLinkRecovery run formatTime mininet g data ledger w
    (reply.Withdrew ∧ Changed withdrawProps (injectedEnds g data) g g') ∨
      (¬ reply.Withdrew ∧ g' = g) := by
  rw [handleInjectLinkRecovery, injectedEnds]
  by_cases hzero : data.srcDpid = 0 || data.dstDpid = 0
  · rw [if_pos hzero]
    exact .inr ⟨id, rfl⟩
  rw [if_neg hzero, if_neg hzero]
  rcases requestedEdges g data with ⟨_ | fwd, _ | rev⟩
  · exact .inr ⟨id, rfl⟩
  · exact .inr ⟨id, rfl⟩
  · exact .inr ⟨id, rfl⟩
  · have hboth : Changed withdrawProps [fwd.ends, rev.ends] g (withdrawBoth g fwd rev) :=
      (changed_withdraw g fwd).append (changed_withdraw _ rev) fun _ => rfl
    cases mininet with
    | false => exact .inl ⟨trivial, hboth⟩
    | true =>
      dsimp only
      split
      · exact .inl ⟨trivial, hboth⟩
      · split
        · exact .inr ⟨id, rfl⟩
        · exact .inl ⟨trivial, hboth⟩

end Handler

end NDTwin.Twin
