import NDTwin.Netem.LinkFault
import NDTwin.Twin.AdminDisable

/-!
# Injecting a link failure

A request names both ends of a link, by the dpid of the switch and the number of the interface.
The edge that is declared down is looked up by the dpids; the interfaces that are cut are named by
the dpids and the interfaces of the request.  The two are never compared.

## Main definitions

* `LinkRequest`, `handleInjectLinkFailure` — the request and what is done with it.
* `mininetIfaceFor` — the interface of a port of a switch.
* `CutsDeclared` — what is cut is what is declared down.

## Main results

* `attached_cutLinkEnds` — a cut that is attached is attached at every interface that was named.
* `inject_cutsDeclared_iff` — **what is cut is what is declared exactly when the request names the
  interfaces of the edge.**
* `inject_not_cutsDeclared` — a request for another interface cuts that one.
-/

namespace NDTwin.Twin

open Netem

/-! ### The handler -/

/-- The two ends of a link, as a request names them. -/
structure LinkRequest where
  srcDpid : ℕ
  srcInterface : ℕ
  dstDpid : ℕ
  dstInterface : ℕ
  deriving DecidableEq, Repr

/-- `mininetInterfaceName(bridge, port)`. -/
def mininetInterfaceName (bridge : String) (port : ℕ) : String := bridge ++ "-eth" ++ toString port

/-- `mininetIfaceFor(graph, dpid, port)`, empty where the graph cannot name it. -/
def mininetIfaceFor (g : Graph) (dpid port : ℕ) : String :=
  match g.vertices.find? fun v =>
      v.vertexType = .switch && v.dpid = dpid && v.bridgeNameForMininet ≠ "" with
  | none => ""
  | some v => mininetInterfaceName v.bridgeNameForMininet port

/-- `setEdgeDownByDeclaration(e)`. -/
def setEdgeDownByDeclaration (g : Graph) (e : Edge) : Graph :=
  g.setEdge e.ends fun p => { p with isUp := false, declaredDown := true }

/-- The two directions of the link that a request is about: what `findEdgeBySrcAndDstDpid` finds. -/
def requestedEdges (g : Graph) (data : LinkRequest) : Option Edge × Option Edge :=
  (findEdgeBySrcAndDstDpid g data.srcDpid data.dstDpid,
    findEdgeBySrcAndDstDpid g data.dstDpid data.srcDpid)

/-- What a request is answered with. -/
inductive InjectReply where
  | hostEdge
  | edgeNotFound
  | reverseEdgeMissing
  | notMininet
  | cut (result : CutResult)
  deriving DecidableEq, Repr

section Handler

variable {W : Type*} (run : W → List String → TcOutcome × W) (clock : W → ℤ)
  (formatTime : ℤ → String)

/-- `handleInjectLinkFailure`, for a payload that could be parsed. -/
def handleInjectLinkFailure (mininet : Bool) (g : Graph) (data : LinkRequest)
    (ledger : InjectedNetemLedger) (w : W) : InjectReply × Graph × InjectedNetemLedger × W :=
  if data.srcDpid = 0 || data.dstDpid = 0 then (.hostEdge, g, ledger, w)
  else
    match requestedEdges g data with
    | (none, _) => (.edgeNotFound, g, ledger, w)
    | (some _, none) => (.reverseEdgeMissing, g, ledger, w)
    | (some fwd, some rev) =>
      let g := setEdgeDownByDeclaration (setEdgeDownByDeclaration g fwd) rev
      if !mininet then (.notMininet, g, ledger, w)
      else
        let srcIface := mininetIfaceFor g data.srcDpid data.srcInterface
        let dstIface := mininetIfaceFor g data.dstDpid data.dstInterface
        let (result, ledger, w) :=
          cutLinkEnds run clock formatTime [srcIface, dstIface] "100%" ledger w
        (.cut result, g, ledger, w)

end Handler

/-- The interfaces that a cut has left cut. -/
def cutInterfaces (result : CutResult) : List String :=
  (result.tc.filter fun e => e.report.ok).map End.iface

/-- **What is cut is what is declared down**: the interfaces that are cut are those of the source and
of the target of either edge. -/
def CutsDeclared (g : Graph) (data : LinkRequest) (result : CutResult) : Prop :=
  ∀ fwd rev, requestedEdges g data = (some fwd, some rev) →
    cutInterfaces result = [mininetIfaceFor g fwd.props.srcDpid fwd.props.srcInterface,
      mininetIfaceFor g fwd.props.dstDpid fwd.props.dstInterface] ∧
    cutInterfaces result = [mininetIfaceFor g rev.props.dstDpid rev.props.dstInterface,
      mininetIfaceFor g rev.props.srcDpid rev.props.srcInterface]

/-- The request names the interfaces of the edges that are found for it. -/
def NamesInterfaces (g : Graph) (data : LinkRequest) : Prop :=
  ∀ fwd rev, requestedEdges g data = (some fwd, some rev) →
    (data.srcInterface = fwd.props.srcInterface ∧ data.dstInterface = fwd.props.dstInterface) ∧
    (data.srcInterface = rev.props.dstInterface ∧ data.dstInterface = rev.props.srcInterface)

/-! ### A cut that is attached -/

section Attached

variable {W : Type*} {run : W → List String → TcOutcome × W} {clock : W → ℤ}
  {formatTime : ℤ → String}

theorem name_of_cutInterface {loss iface : String} {w : W}
    (hok : (cutInterface run loss iface w).1.ok = true) : isMininetInterfaceName iface = true := by
  unfold cutInterface at hok
  split at hok
  · cases hok
  · next hname => simpa using hname

theorem ifaces_planEnds (ifaces : List String) (w : W) :
    (planEnds run ifaces w).1.map End.iface = ifaces := by
  have hone (iface : String) (w : W) : (planEnd run iface w).1.iface = iface := by
    unfold planEnd
    split
    · rfl
    split
    · rfl
    dsimp only
    split
    · rfl
    · rcases planAttach (run w (showArgs iface)).1.output with why | place
      · rfl
      · rfl
  induction ifaces generalizing w with
  | nil => rfl
  | cons iface ifaces ih => rw [planEnds, List.map_cons, hone, ih]

/-- Phase 2 has attached at every end, unless something blocked it. -/
theorem attachEnds_of_not_blocked {loss : String} {ends : List End} {ledger : InjectedNetemLedger}
    {w : W} (h : (attachEnds run clock loss ends ledger w).blocked = none) :
    (attachEnds run clock loss ends ledger w).ends.map End.iface = ends.map End.iface ∧
      ∀ e ∈ (attachEnds run clock loss ends ledger w).ends,
        e.report.ok = true ∧ isMininetInterfaceName e.iface = true := by
  induction ends generalizing ledger w with
  | nil => simp [attachEnds]
  | cons e es ih =>
    have hname : (cutInterface run loss e.iface w).1.ok = true →
        isMininetInterfaceName e.iface = true := name_of_cutInterface
    rcases hcut : cutInterface run loss e.iface w with ⟨report, w₁⟩
    rw [hcut] at hname
    cases hok : report.ok with
    | false => simp [attachEnds, hcut, hok] at h
    | true =>
      simp only [attachEnds, hcut, hok, Bool.not_true, Bool.false_eq_true, if_false] at h ⊢
      obtain ⟨hifaces, hall⟩ := ih h
      refine ⟨by rw [List.map_cons, List.map_cons, hifaces], ?_⟩
      intro e' he'
      rcases List.mem_cons.mp he' with rfl | he'
      · exact ⟨hok, hname hok⟩
      · exact hall e' he'

/-- **A cut that is attached is attached at every interface that was named.** -/
theorem attached_cutLinkEnds {ifaces : List String} {loss : String} {ledger : InjectedNetemLedger}
    {w : W} (h : (cutLinkEnds run clock formatTime ifaces loss ledger w).1.attached = true) :
    cutInterfaces (cutLinkEnds run clock formatTime ifaces loss ledger w).1 = ifaces ∧
      ∀ iface ∈ ifaces, isMininetInterfaceName iface = true := by
  have hifaces : (planEnds run ifaces w).1.map End.iface = ifaces := ifaces_planEnds ifaces w
  unfold cutLinkEnds at h ⊢
  rcases hends : planEnds run ifaces w with ⟨ends, blocked, w₁⟩
  rw [hends] at hifaces
  simp only [hends] at h ⊢
  cases blocked with
  | some blocked => cases h
  | none =>
    simp only at h ⊢
    cases hblocked : (attachEnds run clock loss ends ledger w₁).blocked with
    | some why =>
      rw [hblocked] at h
      cases h
    | none =>
      obtain ⟨hsame, hall⟩ := attachEnds_of_not_blocked hblocked
      simp only [cutInterfaces]
      rw [List.filter_eq_self.mpr fun e he => (hall e he).1, hsame]
      refine ⟨hifaces, ?_⟩
      intro iface hmem
      rw [← show ends.map End.iface = ifaces from hifaces, ← hsame] at hmem
      obtain ⟨e, he, rfl⟩ := List.mem_map.mp hmem
      exact (hall e he).2

end Attached

/-! ### What is cut and what is declared -/

theorem mininetIfaceFor_setEdgeDownByDeclaration (g : Graph) (e : Edge) (dpid port : ℕ) :
    mininetIfaceFor (setEdgeDownByDeclaration g e) dpid port = mininetIfaceFor g dpid port := rfl

theorem mininetInterfaceName_inj {bridge : String} {port port' : ℕ}
    (h : mininetInterfaceName bridge port = mininetInterfaceName bridge port') : port = port' := by
  have hlist := congrArg String.toList h
  simp only [mininetInterfaceName, String.toList_append] at hlist
  have hdigits : port.repr.toList = port'.repr.toList := List.append_cancel_left hlist
  rw [Nat.toList_repr, Nat.toList_repr] at hdigits
  rw [← Nat.ofDigitChars_ten_toDigits (n := port), hdigits, Nat.ofDigitChars_ten_toDigits]

/-- An interface that can be named is that of one port. -/
theorem mininetIfaceFor_inj {g : Graph} {dpid port port' : ℕ} (hne : mininetIfaceFor g dpid port ≠ "")
    (h : mininetIfaceFor g dpid port = mininetIfaceFor g dpid port') : port = port' := by
  unfold mininetIfaceFor at h hne
  split at h
  · next hnone =>
    rw [hnone] at hne
    exact absurd rfl hne
  · exact mininetInterfaceName_inj h

theorem dpids_of_findEdge {g : Graph} {src dst : ℕ} {e : Edge}
    (h : findEdgeBySrcAndDstDpid g src dst = some e) :
    e.props.srcDpid = src ∧ e.props.dstDpid = dst := by
  have hp := List.find?_some h
  simpa using hp

section Handler

variable {W : Type*} {run : W → List String → TcOutcome × W} {clock : W → ℤ}
  {formatTime : ℤ → String}

/-- A request that has come to a cut found both edges, and cut what it named. -/
theorem cut_of_handle {mininet : Bool} {g g' : Graph} {data : LinkRequest}
    {ledger ledger' : InjectedNetemLedger} {w w' : W} {result : CutResult}
    (h : handleInjectLinkFailure run clock formatTime mininet g data ledger w =
      (.cut result, g', ledger', w')) :
    (∃ fwd rev, requestedEdges g data = (some fwd, some rev)) ∧
      result = (cutLinkEnds run clock formatTime [mininetIfaceFor g data.srcDpid data.srcInterface,
        mininetIfaceFor g data.dstDpid data.dstInterface] "100%" ledger w).1 := by
  unfold handleInjectLinkFailure at h
  split at h
  · cases h
  split at h
  · cases h
  · cases h
  · next fwd rev hedges =>
    dsimp only at h
    split at h
    · cases h
    · simp only [mininetIfaceFor_setEdgeDownByDeclaration, Prod.mk.injEq, InjectReply.cut.injEq] at h
      exact ⟨⟨fwd, rev, hedges⟩, h.1.symm⟩

/-- **What is cut is what is declared down exactly when the request names the interfaces of the
edge**, for every graph and every request that is carried out. -/
theorem inject_cutsDeclared_iff {mininet : Bool} {g g' : Graph} {data : LinkRequest}
    {ledger ledger' : InjectedNetemLedger} {w w' : W} {result : CutResult}
    (h : handleInjectLinkFailure run clock formatTime mininet g data ledger w =
      (.cut result, g', ledger', w')) (hattached : result.attached = true) :
    CutsDeclared g data result ↔ NamesInterfaces g data := by
  obtain ⟨-, hresult⟩ := cut_of_handle h
  rw [hresult] at hattached
  obtain ⟨hcut, hnames⟩ := attached_cutLinkEnds hattached
  rw [← hresult] at hcut
  -- both interfaces have a name, so each is that of one port
  have hne : ∀ iface ∈ [mininetIfaceFor g data.srcDpid data.srcInterface,
      mininetIfaceFor g data.dstDpid data.dstInterface], iface ≠ "" := by
    intro iface hmem hempty
    have hname := hnames iface hmem
    rw [hempty] at hname
    exact absurd hname (by decide)
  have hsrc := hne _ (List.mem_cons_self)
  have hdst := hne _ (List.mem_cons_of_mem _ List.mem_cons_self)
  constructor
  · intro hdeclared fwd rev hedges
    obtain ⟨hfwd, hrev⟩ := hdeclared fwd rev hedges
    obtain ⟨hfwdSrc, hfwdDst⟩ := dpids_of_findEdge (Prod.mk.inj hedges).1
    obtain ⟨hrevSrc, hrevDst⟩ := dpids_of_findEdge (Prod.mk.inj hedges).2
    rw [hcut, hfwdSrc, hfwdDst] at hfwd
    rw [hcut, hrevSrc, hrevDst] at hrev
    simp only [List.cons.injEq, and_true] at hfwd hrev
    exact ⟨⟨mininetIfaceFor_inj hsrc hfwd.1, mininetIfaceFor_inj hdst hfwd.2⟩,
      mininetIfaceFor_inj hsrc hrev.1, mininetIfaceFor_inj hdst hrev.2⟩
  · intro hnamed fwd rev hedges
    obtain ⟨⟨hfwd, hfwd'⟩, hrev, hrev'⟩ := hnamed fwd rev hedges
    obtain ⟨hfwdSrc, hfwdDst⟩ := dpids_of_findEdge (Prod.mk.inj hedges).1
    obtain ⟨hrevSrc, hrevDst⟩ := dpids_of_findEdge (Prod.mk.inj hedges).2
    rw [hcut]
    constructor
    · rw [hfwdSrc, hfwdDst, ← hfwd, ← hfwd']
    · rw [hrevSrc, hrevDst, ← hrev, ← hrev']

end Handler

/-- A machine without shapers, on which every command succeeds. -/
def plainRunner (_ : Unit) (_ : List String) : TcOutcome × Unit :=
  (⟨true, 0, "qdisc noqueue 0: root refcnt 2"⟩, ())

/-- A request on that machine, in the fabric of two switches. -/
def injectTwoSwitches (srcInterface dstInterface : ℕ) :
    InjectReply × Graph × InjectedNetemLedger × Unit :=
  handleInjectLinkFailure plainRunner (fun _ => 0) (fun _ => "") true twoSwitches
    ⟨1, srcInterface, 2, dstInterface⟩ {} ()

/-- What the cut of a request comes to. -/
def InjectReply.result : InjectReply → CutResult
  | .cut result => result
  | _ => ⟨false, [], none⟩

theorem inject_cutsDeclared_twoSwitches :
    (injectTwoSwitches 1 1).1.result.attached = true ∧
      CutsDeclared twoSwitches ⟨1, 1, 2, 1⟩ (injectTwoSwitches 1 1).1.result := by
  have hcut : injectTwoSwitches 1 1 = (.cut (injectTwoSwitches 1 1).1.result,
      (injectTwoSwitches 1 1).2.1, (injectTwoSwitches 1 1).2.2.1, ()) := rfl
  have hattached : (injectTwoSwitches 1 1).1.result.attached = true := by decide +kernel
  refine ⟨hattached, (inject_cutsDeclared_iff hcut hattached).mpr ?_⟩
  intro fwd rev hedges
  have hfound : requestedEdges twoSwitches ⟨1, 1, 2, 1⟩ =
      (some ⟨0, 1, { srcDpid := 1, srcInterface := 1, dstDpid := 2, dstInterface := 1 }⟩,
        some ⟨1, 0, { srcDpid := 2, srcInterface := 1, dstDpid := 1, dstInterface := 1 }⟩) := by
    decide
  rw [hfound] at hedges
  cases hedges
  exact ⟨⟨rfl, rfl⟩, rfl, rfl⟩

/-- **A request for another interface cuts that one**: the link between two switches is declared
down, and an interface of either that the link does not end at is cut. -/
theorem inject_not_cutsDeclared :
    (injectTwoSwitches 2 2).1.result.attached = true ∧
      ¬ CutsDeclared twoSwitches ⟨1, 2, 2, 2⟩ (injectTwoSwitches 2 2).1.result := by
  refine ⟨by decide +kernel, ?_⟩
  intro h
  have hfound : requestedEdges twoSwitches ⟨1, 2, 2, 2⟩ =
      (some ⟨0, 1, { srcDpid := 1, srcInterface := 1, dstDpid := 2, dstInterface := 1 }⟩,
        some ⟨1, 0, { srcDpid := 2, srcInterface := 1, dstDpid := 1, dstInterface := 1 }⟩) := by
    decide
  obtain ⟨hfwd, -⟩ := h _ _ hfound
  exact absurd hfwd (by decide +kernel)

end NDTwin.Twin
