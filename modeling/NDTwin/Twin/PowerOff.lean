import NDTwin.Twin.Liveness

/-!
# Switches that were powered off

A switch that is powered off by command is marked, and a switches answer that lists it does not raise
it: being listed is no evidence that it is powered.  A hosts answer names vertices by their macs, and
the vertex with a mac need not be a host.

## Main definitions

* `setVertexPoweredOffByCommand` — the command.
* `NamesByMac` — a hosts answer that names a vertex.

## Main results

* `isUp_polls` — **which switches that were powered off a sequence of polls raises.**
* `poweredOff_stays_iff` — a switch that was powered off stays down exactly when no hosts answer names
  it.
* `poweredOff_raised` — an entry with the mac of all zeros raises the first switch.
-/

namespace NDTwin.Twin

open Json

variable {F : Type*}

/-- `setVertexPoweredOffByCommand(v)`. -/
def setVertexPoweredOffByCommand (g : Graph) (v : ℕ) : Graph :=
  g.setVertex v fun p => { p with isUp := false, adminPoweredOff := true }

/-- The three answers of a poll. -/
structure Answers (F : Type*) where
  switches : Option (Json F)
  hosts : Option (Json F)
  links : Option (Json F)

/-- Polls one after the other. -/
def Monitor.polls (m : Monitor) (answers : List (Answers F)) : Monitor :=
  answers.foldl (fun m a => m.updateGraph a.switches a.hosts a.links) m

theorem Monitor.polls_concat (m : Monitor) (answers : List (Answers F)) (a : Answers F) :
    m.polls (answers ++ [a]) = (m.polls answers).updateGraph a.switches a.hosts a.links := by
  rw [polls, List.foldl_append]
  rfl

/-- A hosts entry that the loop comes to has an address, and a mac that is that of the vertex. -/
def NamesByMac (g : Graph) (v : ℕ) (hosts : Option (Json F)) : Prop :=
  ∃ answer ∈ hosts, ∃ entry ∈ reached (hostThrows g) answer.elements, ∃ mac,
    readHostMac entry = .ok (some mac) ∧ findVertexByMac g mac = some v

/-! ### What the lookups read -/

/-- Two graphs whose vertices are looked up in the same way. -/
def SameKeys (g g' : Graph) : Prop :=
  ∀ v, (g'.vertex v).map (fun p => (p.vertexType, p.mac, p.ip)) =
    (g.vertex v).map fun p => (p.vertexType, p.mac, p.ip)

namespace SameKeys

theorem refl (g : Graph) : SameKeys g g := fun _ => rfl

theorem trans {g g' g'' : Graph} (h : SameKeys g g') (h' : SameKeys g' g'') : SameKeys g g'' :=
  fun v => (h' v).trans (h v)

theorem mapVertices (g : Graph) {f : ℕ → VertexProperties → VertexProperties}
    (hf : ∀ v p, ((f v p).vertexType, (f v p).mac, (f v p).ip) = (p.vertexType, p.mac, p.ip)) :
    SameKeys g (g.mapVertices f) := by
  intro v
  rw [Graph.vertex_mapVertices, Option.map_map]
  exact congrArg (Option.map · _) (funext fun p => hf v p)

theorem lift (L : Lift) (g : Graph) (ts : List Target) : SameKeys g (L.apply g ts) := by
  refine mapVertices g ?_
  intro v p
  split
  · rw [L.vertexType_onVertex, L.mac_onVertex, L.ip_onVertex]
  · rfl

theorem updateFrom (K : EntryKind F) (g : Graph) (answer : Option (Json F)) :
    SameKeys g (Twin.updateFrom K.update g answer) := by
  cases answer with
  | none => exact .refl g
  | some answer =>
    rw [Twin.updateFrom, K.ingest_eq]
    exact .lift K.lift g _

theorem reconcile (m : Monitor) : SameKeys m.graph m.reconcileDerivedLiveness.graph := by
  refine mapVertices _ ?_
  intro v p
  unfold reconcileVertex
  split_ifs <;> rfl

theorem updateGraph (m : Monitor) (a : Answers F) :
    SameKeys m.graph (m.updateGraph a.switches a.hosts a.links).graph := by
  have hswitches : SameKeys m.graph (updateSwitches m.graph a.switches) :=
    .updateFrom switchKind m.graph a.switches
  have hhosts := SameKeys.updateFrom hostKind (updateSwitches m.graph a.switches) a.hosts
  have hlinks := SameKeys.updateFrom linkKind
    (updateHosts (updateSwitches m.graph a.switches) a.hosts) a.links
  exact ((hswitches.trans hhosts).trans hlinks).trans (.reconcile _)

theorem polls (m : Monitor) (answers : List (Answers F)) :
    SameKeys m.graph (m.polls answers).graph := by
  induction answers using List.reverseRecOn with
  | nil => exact .refl _
  | append_singleton answers a ih =>
    rw [Monitor.polls_concat]
    exact ih.trans (.updateGraph _ a)

/-- A lookup that reads only the keys finds the same. -/
theorem findIdx? {g g' : Graph} (h : SameKeys g g') (pred : VertexType × ℕ × List ℕ → Bool) :
    (g'.vertices.findIdx? fun p => pred (p.vertexType, p.mac, p.ip)) =
      g.vertices.findIdx? fun p => pred (p.vertexType, p.mac, p.ip) := by
  have hmap : g'.vertices.map (fun p => (p.vertexType, p.mac, p.ip)) =
      g.vertices.map fun p => (p.vertexType, p.mac, p.ip) := by
    refine List.ext_getElem? ?_
    intro v
    rw [List.getElem?_map, List.getElem?_map]
    exact h v
  have hfind (vertices : List VertexProperties) :
      (vertices.findIdx? fun p => pred (p.vertexType, p.mac, p.ip)) =
        (vertices.map fun p => (p.vertexType, p.mac, p.ip)).findIdx? pred := by
    rw [List.findIdx?_map]
    rfl
  rw [hfind, hmap, ← hfind]

theorem findVertexByMac {g g' : Graph} (h : SameKeys g g') (mac : ℕ) :
    Twin.findVertexByMac g' mac = Twin.findVertexByMac g mac := h.findIdx? fun k => k.2.1 = mac

theorem findSwitchByIp {g g' : Graph} (h : SameKeys g g') (ip : ℕ) :
    Twin.findSwitchByIp g' ip = Twin.findSwitchByIp g ip :=
  h.findIdx? fun k => k.1 = .switch && k.2.2.head? = some ip

/-- A hosts answer names the same vertices. -/
theorem namesByMac_iff {g g' : Graph} (h : SameKeys g g') (v : ℕ) (hosts : Option (Json F)) :
    NamesByMac g' v hosts ↔ NamesByMac g v hosts := by
  have hthrows : hostThrows (F := F) g' = hostThrows g := by
    funext entry
    simp only [hostThrows, h.findSwitchByIp]
  simp only [NamesByMac, hthrows, h.findVertexByMac]

end SameKeys

/-! ### One poll -/

theorem vertex_mem_hostTargets {g : Graph} {entry : Json F} {v : ℕ} :
    .vertex v ∈ hostTargets g entry ↔
      ∃ mac, readHostMac entry = .ok (some mac) ∧ findVertexByMac g mac = some v := by
  have hedges : ∀ found hostEnd, .vertex v ∉ hostEdgeTargets found hostEnd := by
    intro found hostEnd
    unfold hostEdgeTargets
    split
    · simp
    · split <;> simp
  rw [hostTargets]
  cases hmac : readHostMac entry with
  | error e => simp
  | ok mac =>
    cases mac with
    | none => simp
    | some mac =>
      -- the rest of the targets are edges
      have hrest : ∀ ts : List Target, .vertex v ∉ ts →
          (.vertex v ∈ (findVertexByMac g mac).toList.map Target.vertex ++ ts ↔
            findVertexByMac g mac = some v) := by
        intro ts hts
        simp [hts]
      simp only [Except.ok.injEq, Option.some.injEq, exists_eq_left']
      refine hrest _ ?_
      split
      · split
        · simp
        · rw [List.mem_append, not_or]
          refine ⟨hedges _ _, ?_⟩
          split
          · split
            · simp
            · exact hedges _ _
          · simp
      · simp

/-- An answer has an entry that names the vertex among those that the loop comes to. -/
def EntryKind.Reaches (K : EntryKind F) (g : Graph) (v : ℕ) (answer : Option (Json F)) : Prop :=
  ∃ json ∈ answer, ∃ entry ∈ reached (K.throws g) json.elements, .vertex v ∈ K.targets g entry

/-- What an answer makes of a vertex. -/
theorem EntryKind.vertex_updateFrom (K : EntryKind F) {g : Graph} (answer : Option (Json F)) {v : ℕ}
    {p : VertexProperties} (hp : g.vertex v = some p) :
    (K.Reaches g v answer ∧ (updateFrom K.update g answer).vertex v = some (K.lift.onVertex p)) ∨
      (¬ K.Reaches g v answer ∧ (updateFrom K.update g answer).vertex v = some p) := by
  cases answer with
  | none => exact .inr ⟨by simp [Reaches], hp⟩
  | some json =>
    have hreaches : K.Reaches g v (some json) ↔
        .vertex v ∈ (reached (K.throws g) json.elements).flatMap (K.targets g) := by
      simp [Reaches, List.mem_flatMap]
    rw [updateFrom, K.ingest_eq, K.lift.vertex_apply, hp, Option.map_some, hreaches]
    by_cases hv : .vertex v ∈ (reached (K.throws g) json.elements).flatMap (K.targets g)
    · exact .inl ⟨hv, by rw [if_pos hv]⟩
    · exact .inr ⟨hv, by rw [if_neg hv]⟩

theorem hostKind_reaches_iff {g : Graph} {v : ℕ} {hosts : Option (Json F)} :
    hostKind.Reaches g v hosts ↔ NamesByMac g v hosts := by
  simp only [EntryKind.Reaches, NamesByMac, hostKind, vertex_mem_hostTargets]

/-- What a poll makes of a switch that was powered off. -/
theorem vertex_updateGraph (m : Monitor) (a : Answers F) {v : ℕ} {p : VertexProperties}
    (hp : m.graph.vertex v = some p) (hswitch : p.vertexType = .switch)
    (hoff : p.adminPoweredOff = true) :
    ∃ q, (m.updateGraph a.switches a.hosts a.links).graph.vertex v = some q ∧
      q.vertexType = .switch ∧ q.adminPoweredOff = true ∧
      (q.isUp = true ↔ p.isUp = true ∨ NamesByMac m.graph v a.hosts) := by
  -- a switches answer leaves a switch that was powered off as it is, up or down
  obtain ⟨p₁, hp₁, htype₁, hoff₁, hup₁⟩ : ∃ p₁, (updateSwitches m.graph a.switches).vertex v =
      some p₁ ∧ p₁.vertexType = .switch ∧ p₁.adminPoweredOff = true ∧ p₁.isUp = p.isUp := by
    rcases switchKind.vertex_updateFrom a.switches hp with ⟨-, hp₁⟩ | ⟨-, hp₁⟩
    · exact ⟨_, hp₁, hswitch, hoff, by simp [switchKind, switchLift, hoff]⟩
    · exact ⟨_, hp₁, hswitch, hoff, rfl⟩
  have hkeys : SameKeys m.graph (updateSwitches m.graph a.switches) :=
    .updateFrom switchKind m.graph a.switches
  obtain ⟨p₂, hp₂, htype₂, hoff₂, hup₂⟩ : ∃ p₂,
      (updateHosts (updateSwitches m.graph a.switches) a.hosts).vertex v = some p₂ ∧
        p₂.vertexType = .switch ∧ p₂.adminPoweredOff = true ∧
        (p₂.isUp = true ↔ p.isUp = true ∨ NamesByMac m.graph v a.hosts) := by
    rw [← hkeys.namesByMac_iff, ← hostKind_reaches_iff, ← hup₁]
    rcases hostKind.vertex_updateFrom a.hosts hp₁ with ⟨hreaches, hp₂⟩ | ⟨hmisses, hp₂⟩
    · exact ⟨_, hp₂, htype₁, hoff₁, iff_of_true rfl (.inr hreaches)⟩
    · exact ⟨_, hp₂, htype₁, hoff₁, by simp [hmisses]⟩
  have hp₃ : (discover m.graph a.switches a.hosts a.links).vertex v = some p₂ := by
    rcases linkKind.vertex_updateFrom a.links hp₂ with ⟨-, hp₃⟩ | ⟨-, hp₃⟩
    · exact hp₃
    · exact hp₃
  refine ⟨p₂, ?_, htype₂, hoff₂, hup₂⟩
  simp only [Monitor.updateGraph, Monitor.reconcileDerivedLiveness, Graph.vertex_mapVertices,
    Graph.vertex_mapEdges, hp₃, Option.map_some]
  rw [reconcileVertex, if_pos (by rw [htype₂]; decide)]

/-- **A sequence of polls** raises a switch that was powered off exactly when a hosts answer names
it. -/
theorem isUp_polls (m : Monitor) (answers : List (Answers F)) {v : ℕ} {p : VertexProperties}
    (hp : m.graph.vertex v = some p) (hswitch : p.vertexType = .switch)
    (hoff : p.adminPoweredOff = true) :
    ∃ q, (m.polls answers).graph.vertex v = some q ∧
      q.vertexType = .switch ∧ q.adminPoweredOff = true ∧
      (q.isUp = true ↔ p.isUp = true ∨ ∃ a ∈ answers, NamesByMac m.graph v a.hosts) := by
  induction answers using List.reverseRecOn with
  | nil => exact ⟨p, hp, hswitch, hoff, by simp⟩
  | append_singleton answers a ih =>
    obtain ⟨q, hq, hqswitch, hqoff, hup⟩ := ih
    obtain ⟨q', hq', hswitch', hoff', hup'⟩ := vertex_updateGraph _ a hq hqswitch hqoff
    refine ⟨q', by rw [Monitor.polls_concat, hq'], hswitch', hoff', ?_⟩
    rw [hup', hup, (SameKeys.polls m answers).namesByMac_iff, or_assoc]
    refine or_congr_right ?_
    simp [or_and_right, exists_or]

/-- The vertex is not up in any state that the polls go through. -/
def StaysDown (m : Monitor) (v : ℕ) (answers : List (Answers F)) : Prop :=
  ∀ before, before <+: answers → ∀ p, (m.polls before).graph.vertex v = some p → p.isUp = false

/-- **A commanded power-off survives discovery exactly when no hosts answer names the switch by its
mac.** -/
theorem poweredOff_stays_iff (m : Monitor) (answers : List (Answers F)) {v : ℕ}
    {p : VertexProperties} (hp : m.graph.vertex v = some p) (hswitch : p.vertexType = .switch)
    (hoff : p.adminPoweredOff = true) (hdown : p.isUp = false) :
    StaysDown m v answers ↔ ∀ a ∈ answers, ¬ NamesByMac m.graph v a.hosts := by
  constructor
  · intro h a ha hnames
    obtain ⟨q, hq, -, -, hup⟩ := isUp_polls m answers hp hswitch hoff
    have hqup := hup.mpr (.inr ⟨a, ha, hnames⟩)
    rw [h answers List.prefix_rfl q hq] at hqup
    cases hqup
  · intro h before hbefore q hq
    obtain ⟨q', hq', -, -, hup⟩ := isUp_polls m before hp hswitch hoff
    obtain rfl := Option.some.inj (hq.symm.trans hq')
    rw [← Bool.not_eq_true, hup, hdown]
    rintro (hup | ⟨a, ha, hnames⟩)
    · cases hup
    · exact h a (hbefore.subset ha) hnames

/-! ### The mac of all zeros -/

theorem ordered_nil : (([] : List Edge).map Edge.ends).Pairwise
    (Prod.Lex (· < ·) (· < ·)) := .nil

/-- Two switches without macs, as the shipped topologies have them, and a host, just loaded. -/
def switchesAndHost : Graph where
  vertices := [{ vertexType := .switch, dpid := 1, ip := [1], isUp := false, isEnabled := false },
    { vertexType := .switch, dpid := 2, ip := [2], isUp := false, isEnabled := false },
    { vertexType := .host, mac := 1, ip := [3], isUp := false, isEnabled := false }]
  edges := []
  ordered := ordered_nil
  ends_lt := nofun

/-- The first switch is powered off. -/
def firstOff : Monitor := Monitor.start (setVertexPoweredOffByCommand switchesAndHost 0)

/-- A poll that lists the switch, and one host with a mac. -/
def listing (mac : String) : Answers Empty where
  switches := some (.arr [.obj [("dpid", .str "1")]])
  hosts := some (.arr [.obj [("mac", .str mac), ("ipv4", .arr [.str "10.0.0.9"])]])
  links := none

theorem poweredOff_stays_listing : StaysDown firstOff 0 [listing "00:00:00:00:00:01"] := by
  have hfirst : firstOff.graph.vertex 0 = some
      { vertexType := .switch, dpid := 1, ip := [1], isUp := false, isEnabled := false,
        adminPoweredOff := true } := by
    decide
  refine (poweredOff_stays_iff firstOff _ hfirst rfl rfl rfl).mpr ?_
  rintro a ha ⟨answer, hanswer, entry, hentry, mac, hmac, hfound⟩
  obtain rfl := List.mem_singleton.mp ha
  obtain rfl := Option.some.inj hanswer
  have hmem : entry ∈ [_] :=
    reached_append_unreached _ _ ▸ List.mem_append_left (unreached _ _) hentry
  obtain rfl := List.mem_singleton.mp hmem
  -- the entry has the mac of the host
  have hread : readHostMac (F := Empty) (.obj [("mac", .str "00:00:00:00:00:01"),
      ("ipv4", .arr [.str "10.0.0.9"])]) = .ok (some 1) := by
    rfl
  rw [hread] at hmac
  cases hmac
  exact absurd hfound (by decide)

/-- **A host without a mac raises a switch**: the switches have none either, and the first of them is
the first vertex that is found. -/
theorem poweredOff_raised : ¬ StaysDown firstOff 0 [listing "00:00:00:00:00:00"] := by
  intro h
  have hraised : (firstOff.polls [listing "00:00:00:00:00:00"]).graph.vertex 0 = some
      { vertexType := .switch, dpid := 1, ip := [1], isUp := true, adminPoweredOff := true } := by
    decide +kernel
  cases h _ List.prefix_rfl _ hraised

end NDTwin.Twin
