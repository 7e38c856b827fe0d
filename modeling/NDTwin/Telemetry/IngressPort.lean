import NDTwin.Classifier.FailedPolls
import NDTwin.Telemetry.FlowPath

/-!
# The port a flow enters a switch by

The search for the path of a flow asks the classifier at each switch for a rule, always with one key,
which is made before the search begins.  The rules of a switch may ask for the port by which a packet
enters it, and the key has a field for that port, but the field is left at 0.  So the search finds the
rules for a flow that enters each switch by port 0.

## Main definitions

* `entering` — the key of a flow that enters a switch along an edge.
* `BestRule` — a rule of the highest priority among those of a switch that a packet agrees with.
* `HopsFollow`, `FollowsRules` — **each hop of a path is the first output port of such a rule.**
* `LikePortZero`, `PortBlind` — a switch sends a flow on as if it had entered by port 0.

## Main results

* `walk_follows_iff` — what a walk has found, hop by hop.
* `hops_follow_rules_iff` — **when the hops of all published paths follow the rules.**
* `portBlind_of_ignoresInPort` — they do where no rule asks for the port.
* `path_ignores_in_port` — a path along a rule that another rule overrides.
-/

namespace NDTwin.Telemetry

open Twin Forwarding

/-- The key of a flow that enters the switch at the end of an edge. -/
def entering (flow : FlowKey) (e : Edge) : Classifier.FlowKey :=
  { flow.toClassifier with inPort := .ofNat 32 e.props.dstInterface }

/-- A rule of the first table of a switch that a packet agrees with, and of the highest priority among
these. -/
def BestRule (switches : Classifier.Switches) (dpid : ℕ) (key : Classifier.FlowKey)
    (r : Classifier.Rule) : Prop :=
  Classifier.HeldMatch switches (.ofNat 64 dpid) key 0 r ∧
    ∀ r', Classifier.HeldMatch switches (.ofNat 64 dpid) key 0 r' → r'.priority ≤ r.priority

section Rules

variable (g : Graph) (switches : Classifier.Switches) (flow : FlowKey)

/-- Hops from the end of an edge on.  At a switch the hop is the first output port of a best rule for
the port that the edge leads to, and the next edge is that of the output port; at a host there are no
more switches. -/
inductive HopsFollow : Edge → Path → Prop
  | host {e : Edge} {rest : Path} (hhost : (targetOf g e).dpid = 0)
    (hrest : rest = [] ∨ rest = [(flow.dstIP.toNat, 0)]) : HopsFollow e rest
  | hop {e next : Edge} {r : Classifier.Rule} {port : BitVec 32} {rest : Path}
    (hswitch : (targetOf g e).dpid ≠ 0)
    (hbest : BestRule switches (targetOf g e).dpid (entering flow e) r)
    (hport : r.effect.outputPorts.head? = some port)
    (hnext : findEdgeByDpidAndPort g (targetOf g e).dpid port.toNat = some next)
    (hrest : HopsFollow next rest) : HopsFollow e (((targetOf g e).dpid, port.toNat) :: rest)

/-- **A path whose hops follow the rules**, from the edge of the source host on. -/
def FollowsRules (path : Path) : Prop :=
  ∃ e rest, findEdgeByHostIp g flow.srcIP.toNat = some e ∧
    path = (flow.srcIP.toNat, e.props.dstInterface) :: rest ∧ HopsFollow g switches flow e rest

/-- The first output port of the rule that is found for the flow at port 0. -/
def portAtZero (dpid : ℕ) : Option (BitVec 32) :=
  (Classifier.lookup switches (.ofNat 64 dpid) flow.toClassifier 0).bind
    (·.outputPorts.head?)

/-- At the end of an edge a best rule for the port that the edge leads to has the same first output
port as the rule that is found for port 0. -/
def LikePortZero (e : Edge) : Prop :=
  ∃ r, BestRule switches (targetOf g e).dpid (entering flow e) r ∧
    r.effect.outputPorts.head? = portAtZero switches flow (targetOf g e).dpid

/-- So it is at every switch on the way of the flow, where the rules for port 0 lead it over at most
100 edges to a host. -/
def PortBlind : Prop :=
  flow.toClassifier.ipv4Src ≠ 0 → flow.toClassifier.ipv4Dst ≠ 0 →
    ∀ e edges, findEdgeByHostIp g flow.srcIP.toNat = some e →
      Delivers (onward g switches flow) e edges → edges.length ≤ 100 →
        ∀ e' ∈ edges, (targetOf g e').dpid ≠ 0 → LikePortZero g switches flow e'

end Rules

/-! ### The walk, hop by hop -/

section Hops

variable {g : Graph} {switches : Classifier.Switches} {flow : FlowKey}

theorem portAtZero_of_leave {dpid port : ℕ} {next : Edge}
    (h : leave g switches flow dpid = .ok (port, next)) :
    ∃ p, portAtZero switches flow dpid = some p ∧ port = p.toNat ∧
      findEdgeByDpidAndPort g dpid p.toNat = some next := by
  rw [leave] at h
  unfold portAtZero
  cases hlookup : Classifier.lookup switches (.ofNat 64 dpid) flow.toClassifier 0 with
  | none =>
    simp only [hlookup, Option.map_none] at h
    split at h <;> cases h
  | some effect =>
    cases hports : effect.outputPorts with
    | nil =>
      simp only [hlookup, Option.map_some, hports] at h
      split at h <;> cases h
    | cons p ports =>
      simp only [hlookup, Option.map_some, hports] at h
      split at h
      · cases h
      · next hnext =>
        cases h
        exact ⟨p, by simp [hports], rfl, hnext⟩

/-- A hop by the port that is found for port 0 follows the rules if a best rule for the port of the
edge has it too. -/
theorem hopsFollow_hop_iff {e next : Edge} {p : BitVec 32} {rest : Path}
    (hswitch : (targetOf g e).dpid ≠ 0)
    (hp : portAtZero switches flow (targetOf g e).dpid = some p)
    (hnext : findEdgeByDpidAndPort g (targetOf g e).dpid p.toNat = some next) :
    HopsFollow g switches flow e (((targetOf g e).dpid, p.toNat) :: rest) ↔
      LikePortZero g switches flow e ∧ HopsFollow g switches flow next rest := by
  constructor
  · intro h
    generalize hhead : ((targetOf g e).dpid, p.toNat) = head at h
    cases h with
    | host hhost _ => exact absurd hhost hswitch
    | @hop _ next' r port _ _ hbest hport hnext' hrest =>
      have hsame : p = port := BitVec.eq_of_toNat_eq (congrArg Prod.snd hhead)
      subst hsame
      rw [hnext, Option.some.injEq] at hnext'
      subst hnext'
      exact ⟨⟨r, hbest, hport.trans hp.symm⟩, hrest⟩
  · rintro ⟨⟨r, hbest, hport⟩, hrest⟩
    exact .hop hswitch hbest (hport.trans hp) hnext hrest

/-- What a walk has found: hops along the edges of its way, which follow the rules if at each switch
on the way the flow is sent on as from port 0. -/
theorem walk_follows_iff {hops : ℕ} {e : Edge} {path found : Path}
    (h : walk g switches flow hops e path = .ok found) :
    ∃ edges rest, Delivers (onward g switches flow) e edges ∧ edges.length ≤ hops ∧
      found = path ++ rest ∧
      (HopsFollow g switches flow e rest ↔
        ∀ e' ∈ edges, (targetOf g e').dpid ≠ 0 → LikePortZero g switches flow e') := by
  induction hops generalizing e path with
  | zero =>
    rw [walk] at h
    cases h
  | succ hops ih =>
    rw [walk] at h
    by_cases hhost : (targetOf g e).dpid = 0
    · rw [if_pos hhost] at h
      have harrived : Delivers (onward g switches flow) e [e] :=
        .last (onward_eq_delivered_iff.mpr hhost)
      have hno : ∀ e' ∈ [e], (targetOf g e').dpid ≠ 0 → LikePortZero g switches flow e' := by
        intro e' he' hswitch
        rw [List.mem_singleton.mp he'] at hswitch
        exact absurd hhost hswitch
      split at h
      · cases h
        exact ⟨[e], _, harrived, by simp, rfl, iff_of_true (.host hhost (.inr rfl)) hno⟩
      · cases h
        exact ⟨[e], [], harrived, by simp, (List.append_nil _).symm,
          iff_of_true (.host hhost (.inl rfl)) hno⟩
    · rw [if_neg hhost] at h
      cases hleave : leave g switches flow (targetOf g e).dpid with
      | error failure =>
        rw [hleave] at h
        cases h
      | ok left =>
        obtain ⟨port, next⟩ := left
        rw [hleave] at h
        obtain ⟨p, hp, rfl, hnext⟩ := portAtZero_of_leave hleave
        obtain ⟨edges, rest, hdelivers, hlength, hfound, hfollows⟩ := ih h
        refine ⟨e :: edges, ((targetOf g e).dpid, p.toNat) :: rest,
          .step (onward_eq_next_iff.mpr ⟨hhost, _, hleave⟩) hdelivers, by simpa using hlength,
          by rw [hfound, List.append_assoc]; rfl, ?_⟩
        rw [hopsFollow_hop_iff hhost hp hnext, hfollows, List.forall_mem_cons]
        simp only [ne_eq, hhost, not_false_eq_true, true_implies]

/-- The path of a flow follows the rules exactly when the switches on its way are blind to the
port. -/
theorem flowPath_followsRules_iff :
    (∀ path, flowPath g switches flow = .ok path → FollowsRules g switches flow path) ↔
      PortBlind g switches flow := by
  constructor
  · intro hfollows hsrc hdst e edges he hdelivers hlength
    obtain ⟨path, hwalk⟩ := walk_of_delivers hdelivers hlength
      [(flow.srcIP.toNat, e.props.dstInterface)]
    obtain ⟨e₀, rest₀, he₀, hpath₀, hrest₀⟩ :=
      hfollows path (by rw [flowPath_of_ne hsrc hdst he, hwalk])
    rw [he, Option.some.injEq] at he₀
    subst he₀
    obtain ⟨edges', rest, hdelivers', -, rfl, hiff⟩ := walk_follows_iff hwalk
    -- the rules determine the edges, and the path what comes after the source
    rw [hdelivers'.unique hdelivers] at hiff
    rw [List.singleton_append, List.cons.injEq] at hpath₀
    rw [hpath₀.2] at hiff
    exact hiff.mp hrest₀
  · intro hblind path hpath
    obtain ⟨hsrc, hdst, e, he, hwalk⟩ := flowPath_eq_ok hpath
    obtain ⟨edges, rest, hdelivers, hlength, rfl, hiff⟩ := walk_follows_iff hwalk
    exact ⟨e, rest, he, rfl, hiff.mpr (hblind hsrc hdst e edges he hdelivers hlength)⟩

theorem storedPath_followsRules_iff :
    (storedPath g switches flow ≠ [] →
        FollowsRules g switches flow (storedPath g switches flow)) ↔
      ∀ path, flowPath g switches flow = .ok path → FollowsRules g switches flow path := by
  rw [storedPath]
  cases hpath : flowPath g switches flow with
  | error failure => simp
  | ok path => simp [ne_nil_of_flowPath hpath]

end Hops

/-- **The hops of all published paths follow the rules exactly when, at every switch on the way of a
flow, a best rule for the port that it enters by has the same first output port as the rule that is
found for port 0.** -/
theorem hops_follow_rules_iff (g : Graph) (switches : Classifier.Switches) (table : FlowInfoTable) :
    (∀ flow path, (calFlowPathByQueried g switches table).get? flow = some path → path ≠ [] →
      FollowsRules g switches flow path) ↔
      ∀ flow ∈ table.keys, PortBlind g switches flow := by
  constructor
  · intro hfollows flow hflow
    obtain ⟨old, hold⟩ := Option.isSome_iff_exists.mp ((Dict.mem_keys_iff table flow).mp hflow)
    rw [← flowPath_followsRules_iff, ← storedPath_followsRules_iff]
    intro hne
    refine hfollows flow _ ?_ hne
    rw [get?_calFlowPathByQueried, hold, Option.map_some]
  · intro hblind flow path hpath hne
    rw [get?_calFlowPathByQueried, Option.map_eq_some_iff] at hpath
    obtain ⟨old, hold, rfl⟩ := hpath
    have hmem : flow ∈ table.keys := (Dict.mem_keys_iff table flow).mpr (by rw [hold]; rfl)
    exact storedPath_followsRules_iff.mpr (flowPath_followsRules_iff.mpr (hblind flow hmem)) hne

/-! ### Rules that do not ask for the port -/

/-- A rule that matches a packet whatever port it enters by. -/
def IgnoresInPort (r : Classifier.Rule) : Prop :=
  ∀ key port, r.maskedValue = Classifier.packKey key &&& r.mask ↔
    r.maskedValue = Classifier.packKey { key with inPort := port } &&& r.mask

theorem heldMatch_entering_iff {switches : Classifier.Switches} {flow : FlowKey} {e : Edge} {dpid : ℕ}
    {r : Classifier.Rule}
    (h : ∀ id, Classifier.heldOf switches (.ofNat 64 dpid) id = some r → IgnoresInPort r) :
    Classifier.HeldMatch switches (.ofNat 64 dpid) (entering flow e) 0 r ↔
      Classifier.HeldMatch switches (.ofNat 64 dpid) flow.toClassifier 0 r := by
  refine and_congr_right fun hheld => and_congr_right ?_
  intro _
  obtain ⟨id, hid⟩ := hheld
  exact (h id hid flow.toClassifier _).symm

/-- At every switch on the way of a flow a rule has been found. -/
theorem exists_portAtZero {g : Graph} {switches : Classifier.Switches} {flow : FlowKey} {e e' : Edge}
    {edges : List Edge} (h : Delivers (onward g switches flow) e edges) (he' : e' ∈ edges)
    (hswitch : (targetOf g e').dpid ≠ 0) :
    ∃ p, portAtZero switches flow (targetOf g e').dpid = some p := by
  obtain ⟨rest, hrest, -⟩ := h.suffix he'
  cases hrest with
  | last hlast => exact absurd (onward_eq_delivered_iff.mp hlast) hswitch
  | step hstep _ =>
    obtain ⟨-, port, hleave⟩ := onward_eq_next_iff.mp hstep
    obtain ⟨p, hp, -, -⟩ := portAtZero_of_leave hleave
    exact ⟨p, hp⟩

/-- **Where no rule asks for the port**, and the tables are in order, every path follows the rules. -/
theorem portBlind_of_ignoresInPort {g : Graph} {switches : Classifier.Switches}
    (hready : switches.Ready)
    (h : ∀ dpid id r, Classifier.heldOf switches dpid id = some r → IgnoresInPort r)
    (flow : FlowKey) : PortBlind g switches flow := by
  intro _ _ e edges _ hdelivers _ e' he' hswitch
  obtain ⟨p, hp⟩ := exists_portAtZero hdelivers he' hswitch
  obtain ⟨effect, heffect, hport⟩ := Option.bind_eq_some_iff.mp hp
  obtain ⟨r, hheld, rfl, hbest⟩ := (hready.bestHeld _ flow.toClassifier 0).best effect heffect
  refine ⟨r, ⟨(heldMatch_entering_iff fun id => h _ id r).mpr hheld, fun r' hr' => ?_⟩,
    hport.trans hp.symm⟩
  exact hbest r' ((heldMatch_entering_iff fun id => h _ id r').mp hr')

/-! ### A rule for one port -/

/-- The rules of the switch of `twoHosts`: whatever is IPv4 leaves by port 2, except what enters by
port 1, which leaves by port 3. -/
def onePortApart : Json Empty :=
  .arr [.obj [("dpid", .int 1), ("flows", .obj [("1", .arr [
    .obj [("table_id", .int 0), ("priority", .int 10), ("match", .obj [("dl_type", .int 2048)]),
      ("actions", .arr [.str "OUTPUT:2"])],
    .obj [("table_id", .int 0), ("priority", .int 20),
      ("match", .obj [("in_port", .int 1), ("dl_type", .int 2048)]),
      ("actions", .arr [.str "OUTPUT:3"])]])])]]

/-- The classifier after a poll. -/
def twoRules : Classifier.Switches :=
  (Classifier.updateFromQueriedTables Classifier.Sorter.stable ∅ onePortApart).1

/-- A flow from `10.0.0.1`, which is at port 1, to `10.0.0.2`. -/
def fromPortOne : FlowKey :=
  { srcIP := 0x0100000a, dstIP := 0x0200000a, srcPort := 1000, dstPort := 80, protocol := 6 }

/-- The rules of a switch, by going through its index. -/
theorem exists_heldOf_iff {switches : Classifier.Switches} {dpid : BitVec 64} {r : Classifier.Rule} :
    (∃ id, Classifier.heldOf switches dpid id = some r) ↔
      ∃ s ∈ ((switches.lookup dpid).getD {}).rulesById.entries, s.2.rule = r := by
  constructor
  · rintro ⟨id, hid⟩
    obtain ⟨s, hs, rfl⟩ := Option.map_eq_some_iff.mp hid
    exact ⟨⟨id, s⟩, AList.mem_lookup_iff.mp hs, rfl⟩
  · rintro ⟨⟨id, s⟩, hs, rfl⟩
    exact ⟨id, Option.map_eq_some_iff.mpr ⟨s, AList.mem_lookup_iff.mpr hs, rfl⟩⟩

/-- The edge from the host at port 1. -/
def firstEdge : Edge :=
  ⟨1, 0, { srcIp := [0x0100000a], srcDpid := 0, srcInterface := 0, dstDpid := 1, dstInterface := 1 }⟩

/-- The rule for port 1 is held, and no rule of its priority has the output port 2. -/
theorem bestRule_not_two {r : Classifier.Rule}
    (h : BestRule twoRules 1 (entering fromPortOne firstEdge) r) :
    r.effect.outputPorts.head? ≠ some 2 := by
  have hheld : ∃ s ∈ ((twoRules.lookup (.ofNat 64 1)).getD {}).rulesById.entries,
      s.2.rule.tableId = 0 ∧
        s.2.rule.maskedValue =
          Classifier.packKey (entering fromPortOne firstEdge) &&& s.2.rule.mask ∧
        s.2.rule.priority = 20 := by decide +kernel
  have hports : ∀ s ∈ ((twoRules.lookup (.ofNat 64 1)).getD {}).rulesById.entries,
      20 ≤ s.2.rule.priority → s.2.rule.effect.outputPorts.head? ≠ some 2 := by decide +kernel
  obtain ⟨s, hs, htable, hmatch, hpriority⟩ := hheld
  obtain ⟨s', hs', hr⟩ := exists_heldOf_iff.mp h.1.1
  have hle := h.2 s.2.rule ⟨exists_heldOf_iff.mpr ⟨s, hs, rfl⟩, htable, hmatch⟩
  rw [← hr] at hle ⊢
  exact hports s' hs' (by omega)

/-- **The path goes out of port 2**, where the rule for port 1 sends the flow out of port 3. -/
theorem path_ignores_in_port :
    (calFlowPathByQueried twoHosts twoRules (Dict.empty.set fromPortOne [])).get? fromPortOne =
        some [(0x0100000a, 1), (1, 2), (0x0200000a, 0)] ∧
      ¬ FollowsRules twoHosts twoRules fromPortOne
        [(0x0100000a, 1), (1, 2), (0x0200000a, 0)] := by
  constructor
  · decide +kernel
  · rintro ⟨e, rest, he, hpath, hfollows⟩
    have hfirst : findEdgeByHostIp twoHosts fromPortOne.srcIP.toNat = some firstEdge := by
      decide +kernel
    rw [hfirst, Option.some.injEq] at he
    subst he
    obtain ⟨-, rfl⟩ := List.cons.inj hpath
    generalize hrest : [(1, 2), (0x0200000a, 0)] = rest at hfollows
    cases hfollows with
    | host hhost _ => exact absurd hhost (by decide +kernel)
    | @hop _ _ r port _ _ hbest hport _ _ =>
      have htwo : port = 2 := BitVec.eq_of_toNat_eq (congrArg Prod.snd (List.cons.inj hrest).1).symm
      rw [htwo] at hport
      exact bestRule_not_two hbest hport

end NDTwin.Telemetry
