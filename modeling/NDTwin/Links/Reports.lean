import NDTwin.Links.Watchdog

/-!
# What the watchdog tells the switches and the kernel

A pass that has changed a belief reports it to the kernel and reroutes.  The route writes hang on
the lists of accepted reports, so a pass whose reports are all refused reroutes nothing; the
beliefs themselves are told again until the kernel has accepted each of them.

## Main definitions

* `Rerouted` — a pass that changes a belief installs the routes from the changed beliefs.
* `Watched`, `Watched.run` — the watchdog together with every report it has sent.
* `lastReport`, `lastAccepted` — what the kernel was last told about a direction, and what it
  last accepted.

## Main results

* `runWatchdogPass_reroutes_iff` — **exactly when a pass reroutes what it has found**: when it has
  found nothing, or one of its reports is accepted.
* `Watched.Settled`, `settled_run` — the invariant of the reports over every run.
* `run_reports` — **the kernel's last accepted report is the belief**, or the report is retried.
-/

namespace NDTwin.Links

/-! ### Rerouting -/

/-- If the pass changes the belief about a direction, it installs the routes, and does so from
the beliefs as they are after the change. -/
def Rerouted (w : Watch) (reading : Reading) (now : ℚ) (kernel : Option Kernel)
    (inFlight : Link → List Evidence) : Prop :=
  let pass := runWatchdogPass w reading now kernel inFlight
  (∃ link, pass.1.believesDown link ≠ w.believesDown link) →
    ∃ beacons, Action.installInitialRoutes beacons ∈ pass.2.2 ∧
      ∀ link, (standing beacons link).down = pass.1.believesDown link

/-- The belief about a direction is to change: it has been silent for longer than it may, or it
has been heard again. -/
def Changes (w : Watch) (t : ℚ) (entry : Beacon) : Prop :=
  silent w.beaconInterval t entry ≠ entry.down

/-- The reports of a pass at `t` include one that the kernel accepts. -/
def SomeAccepted (w : Watch) (t : ℚ) (kernel : Option Kernel) : Prop :=
  ∃ link entry, w.beacons.get? link = some entry ∧ (entry.acked = false ∨ Changes w t entry) ∧
    notifyLink kernel link (silent w.beaconInterval t entry) = true

theorem acked_judged_eq_false {w : Watch} {t : ℚ} {link : Link} {entry : Beacon}
    (h : w.beacons.get? link = some entry) :
    (standing (judged w t) link).acked = false ↔ entry.acked = false ∨ Changes w t entry := by
  rw [standing_judged w t h, Changes]
  cases entry.acked with
  | false => simp
  | true => simp

theorem result_checkLinkBeacons (w : Watch) (t : ℚ) (kernel : Option Kernel)
    (inFlight : Link → List Evidence) :
    ((checkLinkBeacons w t kernel inFlight).result.down ≠ [] ∨
        (checkLinkBeacons w t kernel inFlight).result.up ≠ []) ↔ SomeAccepted w t kernel := by
  rw [checkLinkBeacons_eq, result_loop]
  constructor
  · rintro (h | ⟨link, down, hmem, hacc⟩)
    · rcases h with h | h
      · exact absurd rfl h
      · exact absurd rfl h
    · rw [mem_unackedBeliefs] at hmem
      cases hget : w.beacons.get? link with
      | none =>
        rw [standing_judged_of_none w t hget] at hmem
        cases hmem
      | some entry =>
        have hdue := (acked_judged_eq_false hget).mp (congrArg Standing.acked hmem)
        rw [standing_judged w t hget] at hmem
        have hdown : silent w.beaconInterval t entry = down := congrArg Standing.down hmem
        exact ⟨link, entry, hget, hdue, hdown ▸ hacc⟩
  · rintro ⟨link, entry, hget, hdue, hacc⟩
    refine .inr ⟨link, silent w.beaconInterval t entry, ?_, hacc⟩
    rw [mem_unackedBeliefs]
    have hacked := (acked_judged_eq_false hget).mpr hdue
    rw [standing_judged w t hget] at hacked ⊢
    exact Standing.ext rfl hacked

theorem mem_reroute_iff {p : Pass} (hroutes : p.watch.routesToAttachedHostsOnly = false)
    (beacons : Dict Link Beacon) :
    Action.installInitialRoutes beacons ∈ p.reports.map .report ++ reroute p ↔
      (p.result.down ≠ [] ∨ p.result.up ≠ []) ∧ beacons = p.watch.beacons := by
  have hreports : Action.installInitialRoutes beacons ∉ p.reports.map .report := by simp
  rw [List.mem_append, or_iff_right hreports, reroute]
  split
  · next h => simp [hroutes, h]
  · next h => simp [h]

/-- The beliefs change exactly where silence and belief disagree. -/
theorem believesDown_checkLinkBeacons_ne_iff (w : Watch) (t : ℚ) (kernel : Option Kernel)
    (inFlight : Link → List Evidence) (link : Link) :
    (checkLinkBeacons w t kernel inFlight).watch.believesDown link ≠ w.believesDown link ↔
      ∃ entry, w.beacons.get? link = some entry ∧ Changes w t entry := by
  rw [believesDown_eq, believesDown_eq, down_standing_checkLinkBeacons]
  cases hget : w.beacons.get? link with
  | none =>
    rw [standing_judged_of_none w t hget, standing, hget]
    simp
  | some entry =>
    rw [standing_judged w t hget, standing_of_get? hget]
    simp [Changes, Beacon.standing]

/-- **Exactly when a pass reroutes what it has found**, on a fabric whose routes the proxy writes:
when no belief changes at the clock reading it judges at, or when the kernel accepts one of the
reports that are due there. -/
theorem runWatchdogPass_reroutes_iff (w : Watch) (reading : Reading) (now : ℚ)
    (kernel : Option Kernel) (inFlight : Link → List Evidence)
    (hroutes : w.routesToAttachedHostsOnly = false) :
    Rerouted w reading now kernel inFlight ↔
      ∀ t, judgedAt w now reading = some t →
        (∀ link entry, (ingestLinkEvidence w reading now).1.beacons.get? link = some entry →
          ¬ Changes (ingestLinkEvidence w reading now).1 t entry) ∨
        SomeAccepted (ingestLinkEvidence w reading now).1 t kernel := by
  have hentered : ∀ link, (ingestLinkEvidence w reading now).1.believesDown link =
      w.believesDown link := by
    intro link
    rw [believesDown_eq, believesDown_eq, standing_ingestLinkEvidence]
  have hflag : (ingestLinkEvidence w reading now).1.routesToAttachedHostsOnly = false :=
    (congrArg (fun f => f.2.1) (settings_ingestLinkEvidence w now reading)).trans hroutes
  cases hat : judgedAt w now reading with
  | none =>
    -- nothing has been judged, so nothing has changed
    refine iff_of_true ?_ nofun
    rintro ⟨link, hlink⟩
    rw [runWatchdogPass_of_none kernel inFlight w now reading hat] at hlink
    exact absurd (hentered link) hlink
  | some t =>
    rw [Rerouted, runWatchdogPass_of_some kernel inFlight w now reading hat]
    generalize (ingestLinkEvidence w reading now).1 = u at hentered hflag ⊢
    have hflag' : (checkLinkBeacons u t kernel inFlight).watch.routesToAttachedHostsOnly = false := by
      have hfixed := fixed_checkLinkBeacons kernel inFlight u t
      exact (congrArg (fun f => f.2.2.2.1) hfixed).trans hflag
    have hchange : (∃ link, (checkLinkBeacons u t kernel inFlight).watch.believesDown link ≠
        w.believesDown link) ↔ ∃ link entry, u.beacons.get? link = some entry ∧ Changes u t entry := by
      refine exists_congr ?_
      intro link
      rw [← hentered link, believesDown_checkLinkBeacons_ne_iff]
    have hinstall : (∃ beacons, Action.installInitialRoutes beacons ∈
          (checkLinkBeacons u t kernel inFlight).reports.map .report ++
            reroute (checkLinkBeacons u t kernel inFlight) ∧
        ∀ link, (standing beacons link).down =
          (checkLinkBeacons u t kernel inFlight).watch.believesDown link) ↔
        SomeAccepted u t kernel := by
      rw [← result_checkLinkBeacons u t kernel inFlight]
      constructor
      · rintro ⟨beacons, hmem, -⟩
        exact ((mem_reroute_iff hflag' beacons).mp hmem).1
      · intro hresult
        refine ⟨_, (mem_reroute_iff hflag' _).mpr ⟨hresult, rfl⟩, ?_⟩
        intro link
        rw [believesDown_eq]
    simp only [hchange, hinstall, Option.some.injEq, forall_eq']
    constructor
    · intro h
      by_cases hsome : ∃ link entry, u.beacons.get? link = some entry ∧ Changes u t entry
      · exact .inr (h hsome)
      · refine .inl fun link entry hget hch => hsome ⟨link, entry, hget, hch⟩
    · rintro (hnone | hacc) ⟨link, entry, hget, hch⟩
      · exact absurd hch (hnone link entry hget)
      · exact hacc

/-- A cable between two switches, one direction of it. -/
def cable : Link := ⟨1, 1, 5, 2⟩

/-- A fabric that has heard one beacon. -/
def beaconed : Watch := handlePacketIn {} 5 2 (some (1, 1)) 0

/-- The link fails, and the kernel takes the report: the pass reroutes. -/
theorem beaconed_rerouted :
    beaconed.routesToAttachedHostsOnly = false ∧
      Rerouted beaconed .unusable 16 (some fun _ _ => .accepted) (fun _ => []) := by
  refine ⟨rfl, (runWatchdogPass_reroutes_iff _ _ _ _ _ rfl).mpr ?_⟩
  intro t ht
  cases ht
  exact .inr ⟨cable, { heardAt := 0, seen := true }, rfl, .inr (by unfold Changes; decide +kernel), rfl⟩

/-- The action is a writing of the routes. -/
def Action.isInstall : Action → Bool
  | .report _ => false
  | .installInitialRoutes _ => true
  | .pushDestinationPaths => false

/-- The link fails while the kernel is away: the belief changes and no route is written. -/
theorem beaconed_not_rerouted :
    beaconed.routesToAttachedHostsOnly = false ∧
      ¬ Rerouted beaconed .unusable 16 (some fun _ _ => .refused) (fun _ => []) := by
  refine ⟨rfl, ?_⟩
  intro h
  have hchange : (runWatchdogPass beaconed .unusable 16 (some fun _ _ => .refused)
      fun _ => []).1.believesDown cable ≠ beaconed.believesDown cable := by
    decide +kernel
  obtain ⟨beacons, hmem, -⟩ := h ⟨cable, hchange⟩
  have hnone : ((runWatchdogPass beaconed .unusable 16 (some fun _ _ => .refused)
      fun _ => []).2.2.any Action.isInstall) = false := by
    decide +kernel
  exact Bool.false_ne_true (hnone ▸ List.any_eq_true.mpr ⟨_, hmem, rfl⟩)

/-! ### Every report of a run -/

/-- What a pass is given: what its poll reads, the clock, how the kernel answers, and what arrives
while it reports. -/
structure PassInput where
  reading : Reading
  now : ℚ
  kernel : Option Kernel
  inFlight : Link → List Evidence

/-- The watchdog with every report it has sent, oldest first. -/
structure Watched where
  watch : Watch
  reports : List LinkReport := []

/-- The pass from a state. -/
def Watched.pass (r : Watched) (p : PassInput) : Watch × PassResult × List Action :=
  runWatchdogPass r.watch p.reading p.now p.kernel p.inFlight

/-- The reports among what a pass did. -/
def sentReports (actions : List Action) : List LinkReport :=
  actions.filterMap fun
    | .report report => some report
    | .installInitialRoutes _ => none
    | .pushDestinationPaths => none

/-- The state after a pass. -/
def Watched.afterPass (r : Watched) (p : PassInput) : Watched :=
  ⟨(r.pass p).1, r.reports ++ sentReports (r.pass p).2.2⟩

/-- The state after evidence has arrived between two passes. -/
def Watched.receive (r : Watched) (evs : List Evidence) : Watched :=
  { r with watch := evs.foldl Watch.receive r.watch }

/-- What happens to the watchdog: evidence arrives, or its one thread makes a pass. -/
inductive Event where
  | arrived (ev : Evidence)
  | pass (p : PassInput)

/-- The state after an event. -/
def Watched.step (r : Watched) : Event → Watched
  | .arrived ev => r.receive [ev]
  | .pass p => r.afterPass p

/-- The state after a run. -/
def Watched.run (r : Watched) (events : List Event) : Watched := events.foldl Watched.step r

/-- The reports about a direction. -/
def about (reports : List LinkReport) (link : Link) : List LinkReport :=
  reports.filter fun report => report.link = link

/-- The latest report about a direction. -/
def lastReport (reports : List LinkReport) (link : Link) : Option LinkReport :=
  (about reports link).getLast?

/-- What the latest accepted report about a direction said. -/
def lastAccepted (reports : List LinkReport) (link : Link) : Option Bool :=
  (((about reports link).filter LinkReport.accepted).getLast?).map LinkReport.down

theorem about_append (reports sent : List LinkReport) (link : Link) :
    about (reports ++ sent) link = about reports link ++ about sent link :=
  List.filter_append _ _

theorem mem_of_about {sent : List LinkReport} {link : Link} {report : LinkReport}
    (h : about sent link = [report]) : report ∈ sent := by
  have hmem : report ∈ about sent link := by
    rw [h]
    exact List.mem_singleton_self report
  exact (List.mem_filter.mp hmem).1

theorem lastAccepted_append_of_none {reports sent : List LinkReport} {link : Link}
    (h : about sent link = []) : lastAccepted (reports ++ sent) link = lastAccepted reports link := by
  rw [lastAccepted, about_append, h, List.append_nil, lastAccepted]

theorem lastReport_append_of_one {reports sent : List LinkReport} {link : Link}
    {report : LinkReport} (h : about sent link = [report]) :
    lastReport (reports ++ sent) link = some report := by
  rw [lastReport, about_append, h, List.getLast?_append]
  rfl

theorem lastAccepted_append_of_one {reports sent : List LinkReport} {link : Link}
    {report : LinkReport} (h : about sent link = [report]) (hacc : report.accepted = true) :
    lastAccepted (reports ++ sent) link = some report.down := by
  rw [lastAccepted, about_append, h, List.filter_append, List.getLast?_append]
  simp [hacc]

/-! ### What one pass sends -/

theorem sentReports_report (reports : List LinkReport) :
    sentReports (reports.map .report) = reports := by
  rw [sentReports, List.filterMap_map]
  exact List.filterMap_some

theorem sentReports_reroute (p : Pass) : sentReports (reroute p) = [] := by
  rw [reroute]
  split
  · split
    · rfl
    · rfl
  · rfl

theorem sentReports_pass {r : Watched} {p : PassInput} {t : ℚ}
    (h : judgedAt r.watch p.now p.reading = some t) :
    sentReports (r.pass p).2.2 =
      (unackedBeliefs (judged (ingestLinkEvidence r.watch p.reading p.now).1 t)).map
        (reportOf p.kernel) := by
  rw [Watched.pass, runWatchdogPass_of_some _ _ _ _ _ h]
  show sentReports (_ ++ _) = _
  rw [sentReports, List.filterMap_append]
  show sentReports _ ++ sentReports _ = _
  rw [sentReports_report, sentReports_reroute, List.append_nil, reports_checkLinkBeacons]

/-- A pass reports a direction once if its belief is due, and not otherwise. -/
theorem about_reports (kernel : Option Kernel) (beacons : Dict Link Beacon) (link : Link) :
    about ((unackedBeliefs beacons).map (reportOf kernel)) link =
      if (standing beacons link).acked then []
      else [reportOf kernel (link, (standing beacons link).down)] := by
  rw [about, List.filter_map]
  show ((unackedBeliefs beacons).filter fun item => decide (item.1 = link)).map _ = _
  rw [unackedBeliefs_about]
  split
  · rfl
  · rfl

/-- A direction whose accepted belief stands after the judging has not been judged anew. -/
theorem standing_judged_of_acked {w : Watch} {t : ℚ} {link : Link}
    (h : (standing (judged w t) link).acked = true) :
    standing (judged w t) link = standing w.beacons link := by
  cases hget : w.beacons.get? link with
  | none => rw [standing_judged_of_none w t hget, standing, hget]; rfl
  | some entry =>
    rw [standing_judged w t hget] at h ⊢
    rw [standing_of_get? hget]
    simp only [Bool.and_eq_true, beq_iff_eq] at h
    refine Standing.ext h.2 ?_
    show (_ && _) = entry.acked
    rw [h.1, h.2]
    simp

/-- A marked belief is due again only because the judging has changed it. -/
theorem down_judged_ne {w : Watch} {t : ℚ} {link : Link}
    (h : (standing (judged w t) link).acked = false)
    (hacked : (standing w.beacons link).acked = true) :
    (standing (judged w t) link).down ≠ (standing w.beacons link).down := by
  cases hget : w.beacons.get? link with
  | none =>
    rw [standing_judged_of_none w t hget] at h
    cases h
  | some entry =>
    rw [standing_judged w t hget] at h ⊢
    rw [standing_of_get? hget] at hacked ⊢
    have hentry : entry.acked = true := hacked
    simpa [hentry, Beacon.standing] using h

/-! ### The invariant of the reports -/

/-- Passes judge, or have never had anything to judge. -/
def Watched.Judging (r : Watched) : Prop :=
  r.watch.linkEvidence = none ∨ r.watch.evidenceJudgedAt ≠ none ∨
    ∀ link, (standing r.watch.beacons link).acked = true

/-- What holds between the entries and the reports: a marked belief is the one the kernel last
accepted, or the one it starts from; an unmarked one has just been refused. -/
structure Watched.Settled (r : Watched) : Prop where
  told : ∀ link, (standing r.watch.beacons link).acked = true →
    (lastAccepted r.reports link = none ∧ (standing r.watch.beacons link).down = false) ∨
      lastAccepted r.reports link = some (standing r.watch.beacons link).down
  owed : ∀ link, (standing r.watch.beacons link).acked = false →
    ∃ report, lastReport r.reports link = some report ∧ report.accepted = false
  judging : r.Judging

theorem judging_of_fixed {w w' : Watch} {reports reports' : List LinkReport}
    (hfixed : w'.fixed = w.fixed) (hstanding : standing w'.beacons = standing w.beacons)
    (h : Watched.Judging ⟨w, reports⟩) : Watched.Judging ⟨w', reports'⟩ := by
  have hev : w'.linkEvidence = w.linkEvidence := congrArg (fun f => f.1) hfixed
  have hat : w'.evidenceJudgedAt = w.evidenceJudgedAt := congrArg (fun f => f.2.1) hfixed
  simp only [Watched.Judging, hev, hat, hstanding] at h ⊢
  exact h

theorem settled_receive {r : Watched} (h : r.Settled) (evs : List Evidence) :
    (r.receive evs).Settled := by
  have hstanding := standing_receive_all r.watch evs
  refine ⟨?_, ?_, judging_of_fixed (fixed_receive_all r.watch evs) hstanding h.judging⟩
  · show ∀ link, (standing (evs.foldl Watch.receive r.watch).beacons link).acked = true → _
    rw [Watched.receive, hstanding]
    exact h.told
  · show ∀ link, (standing (evs.foldl Watch.receive r.watch).beacons link).acked = false → _
    rw [hstanding]
    exact h.owed

/-- A pass that does not judge finds evidence attached that has never been usable. -/
theorem judgedAt_eq_none {w : Watch} {now : ℚ} {reading : Reading}
    (h : judgedAt w now reading = none) :
    w.linkEvidence ≠ none ∧ w.evidenceJudgedAt = none ∧
      (ingestLinkEvidence w reading now).1.evidenceJudgedAt = none := by
  rw [judgedAt, ingestLinkEvidence] at h
  rw [ingestLinkEvidence]
  cases hev : w.linkEvidence with
  | none => simp [hev] at h
  | some ev =>
    cases reading with
    | usable r => simp [hev, HeartbeatEvidence.poll] at h
    | unusable =>
      cases hat : w.evidenceJudgedAt with
      | none => simp [HeartbeatEvidence.poll]
      | some t => simp [hev, HeartbeatEvidence.poll, hat] at h

/-- A pass that judges leaves a state whose passes judge. -/
theorem judging_of_judgedAt {w : Watch} {now t : ℚ} {reading : Reading}
    (h : judgedAt w now reading = some t) :
    (ingestLinkEvidence w reading now).1.linkEvidence = none ∨
      (ingestLinkEvidence w reading now).1.evidenceJudgedAt ≠ none := by
  rw [judgedAt, ingestLinkEvidence] at h
  rw [ingestLinkEvidence]
  cases hev : w.linkEvidence with
  | none => exact .inl hev
  | some ev =>
    cases reading with
    | usable r => exact .inr (by simp [HeartbeatEvidence.poll])
    | unusable =>
      cases hat : w.evidenceJudgedAt with
      | none => simp [hev, HeartbeatEvidence.poll, hat] at h
      | some t => exact .inr (by simp [HeartbeatEvidence.poll])

/-- A belief that is due is judged by the next pass. -/
theorem judgedAt_ne_none {r : Watched} (h : r.Judging) {link : Link}
    (hlink : (standing r.watch.beacons link).acked = false) (p : PassInput) :
    ∃ t, judgedAt r.watch p.now p.reading = some t := by
  rw [← Option.ne_none_iff_exists']
  intro hnone
  obtain ⟨hev, hat, -⟩ := judgedAt_eq_none hnone
  rcases h with h | h | h
  · exact hev h
  · exact h hat
  · rw [h link] at hlink
    cases hlink

/-- Where a direction stands after a pass, and what the pass has said about it. -/
theorem afterPass_of_some {r : Watched} {p : PassInput} {t : ℚ}
    (h : judgedAt r.watch p.now p.reading = some t) (link : Link) :
    let s := standing (judged (ingestLinkEvidence r.watch p.reading p.now).1 t) link
    let accepted := notifyLink p.kernel link s.down
    (s.acked = true ∧ standing (r.pass p).1.beacons link = s ∧ s = standing r.watch.beacons link ∧
        about (sentReports (r.pass p).2.2) link = [] ∧ link ∉ (r.pass p).2.1.unacked) ∨
      (s.acked = false ∧ standing (r.pass p).1.beacons link = ⟨s.down, accepted⟩ ∧
        about (sentReports (r.pass p).2.2) link = [⟨link, s.down, accepted⟩] ∧
        (link ∈ (r.pass p).2.1.unacked ↔ accepted = false)) := by
  have habout := about_reports p.kernel
    (judged (ingestLinkEvidence r.watch p.reading p.now).1 t) link
  rw [← sentReports_pass h] at habout
  have hstanding := standing_checkLinkBeacons p.kernel p.inFlight
    (ingestLinkEvidence r.watch p.reading p.now).1 t link
  have hunacked : link ∈ (r.pass p).2.1.unacked ↔ ∃ down,
      standing (judged (ingestLinkEvidence r.watch p.reading p.now).1 t) link = ⟨down, false⟩ ∧
        notifyLink p.kernel link down = false := by
    rw [Watched.pass, runWatchdogPass_of_some _ _ _ _ _ h]
    show link ∈ (checkLinkBeacons _ t p.kernel p.inFlight).result.unacked ↔ _
    rw [checkLinkBeacons_eq, unacked_loop]
    simp [mem_unackedBeliefs]
  have hwatch : (r.pass p).1 = (checkLinkBeacons (ingestLinkEvidence r.watch p.reading p.now).1 t
      p.kernel p.inFlight).watch := by
    rw [Watched.pass, runWatchdogPass_of_some _ _ _ _ _ h]
  rw [← hwatch] at hstanding
  cases hs : (standing (judged (ingestLinkEvidence r.watch p.reading p.now).1 t) link).acked with
  | true =>
    refine .inl ⟨hs, ?_, ?_, ?_, ?_⟩
    · rw [hstanding, hs]
      simp
    · rw [standing_judged_of_acked hs, standing_ingestLinkEvidence]
    · rw [habout, hs]
      rfl
    · rw [hunacked]
      rintro ⟨down, heq, -⟩
      rw [heq] at hs
      cases hs
  | false =>
    refine .inr ⟨hs, ?_, ?_, ?_⟩
    · rw [hstanding, hs]
      cases hacc : notifyLink p.kernel link
          (standing (judged (ingestLinkEvidence r.watch p.reading p.now).1 t) link).down with
      | true => simp
      | false => simp [Standing.ext_iff, hs]
    · rw [habout, hs]
      rfl
    · rw [hunacked]
      constructor
      · rintro ⟨down, heq, hacc⟩
        rw [heq]
        exact hacc
      · intro hacc
        exact ⟨_, Standing.ext rfl hs, hacc⟩

theorem afterPass_of_none {r : Watched} {p : PassInput}
    (h : judgedAt r.watch p.now p.reading = none) :
    standing (r.pass p).1.beacons = standing r.watch.beacons ∧ sentReports (r.pass p).2.2 = [] := by
  rw [Watched.pass, runWatchdogPass_of_none _ _ _ _ _ h]
  exact ⟨standing_ingestLinkEvidence _ _ _, rfl⟩

theorem judging_afterPass {r : Watched} (h : r.Judging) (p : PassInput) :
    (r.afterPass p).Judging := by
  cases hat : judgedAt r.watch p.now p.reading with
  | none =>
    -- evidence that has never been usable: everything is as it was, and all of it is marked
    refine .inr (.inr fun link => ?_)
    obtain ⟨hev, hnone, -⟩ := judgedAt_eq_none hat
    show (standing (r.pass p).1.beacons link).acked = true
    rw [(afterPass_of_none hat).1]
    rcases h with h | h | h
    · exact absurd h hev
    · exact absurd hnone h
    · exact h link
  | some t =>
    have hfixed : (r.pass p).1.fixed = (ingestLinkEvidence r.watch p.reading p.now).1.fixed := by
      rw [Watched.pass, runWatchdogPass_of_some _ _ _ _ _ hat]
      exact fixed_checkLinkBeacons _ _ _ _
    rcases judging_of_judgedAt hat with h | h
    · exact .inl ((congrArg (fun f => f.1) hfixed).trans h)
    · refine .inr (.inl ?_)
      have hsame : (r.pass p).1.evidenceJudgedAt =
          (ingestLinkEvidence r.watch p.reading p.now).1.evidenceJudgedAt :=
        congrArg (fun f => f.2.1) hfixed
      show (r.pass p).1.evidenceJudgedAt ≠ none
      rw [hsame]
      exact h

/-- **One pass keeps the reports settled**, whatever the kernel answers and whatever arrives while
it does. -/
theorem settled_afterPass {r : Watched} (h : r.Settled) (p : PassInput) :
    (r.afterPass p).Settled := by
  refine ⟨?_, ?_, judging_afterPass h.judging p⟩
  · intro link hacked
    have hacked : (standing (r.pass p).1.beacons link).acked = true := hacked
    show (lastAccepted (r.reports ++ sentReports (r.pass p).2.2) link = none ∧
        (standing (r.pass p).1.beacons link).down = false) ∨
      lastAccepted (r.reports ++ sentReports (r.pass p).2.2) link =
        some (standing (r.pass p).1.beacons link).down
    cases hat : judgedAt r.watch p.now p.reading with
    | none =>
      obtain ⟨hsame, hsent⟩ := afterPass_of_none hat
      rw [hsame] at hacked ⊢
      rw [hsent, List.append_nil]
      exact h.told link hacked
    | some t =>
      rcases afterPass_of_some hat link with ⟨-, heq, hold, habout, -⟩ | ⟨-, heq, habout, -⟩
      · rw [lastAccepted_append_of_none habout]
        rw [heq, hold] at hacked ⊢
        exact h.told link hacked
      · rw [heq] at hacked ⊢
        exact .inr (lastAccepted_append_of_one habout hacked)
  · intro link hunacked
    have hunacked : (standing (r.pass p).1.beacons link).acked = false := hunacked
    show ∃ report, lastReport (r.reports ++ sentReports (r.pass p).2.2) link = some report ∧ _
    cases hat : judgedAt r.watch p.now p.reading with
    | none =>
      obtain ⟨hsame, hsent⟩ := afterPass_of_none hat
      rw [hsame] at hunacked
      rw [hsent, List.append_nil]
      exact h.owed link hunacked
    | some t =>
      rcases afterPass_of_some hat link with ⟨hs, heq, -, -, -⟩ | ⟨-, heq, habout, -⟩
      · rw [heq, hs] at hunacked
        cases hunacked
      · rw [heq] at hunacked
        exact ⟨_, lastReport_append_of_one habout, hunacked⟩

/-- A manager before anything has arrived: with or without a heartbeat to read, with or without a
running watchdog. -/
def Watch.start (linkEvidence : Option HeartbeatEvidence)
    (watchdogRunning routesToAttachedHostsOnly : Bool) (beaconInterval : ℚ) : Watch :=
  { linkEvidence, watchdogRunning, routesToAttachedHostsOnly, beaconInterval }

variable (linkEvidence : Option HeartbeatEvidence)
  (watchdogRunning routesToAttachedHostsOnly : Bool) (beaconInterval : ℚ)

theorem settled_start :
    Watched.Settled
      ⟨Watch.start linkEvidence watchdogRunning routesToAttachedHostsOnly beaconInterval, []⟩ where
  told := fun _ _ => .inl ⟨rfl, rfl⟩
  owed := fun _ h => Bool.noConfusion h
  judging := .inr (.inr fun _ => rfl)

/-- **The reports are settled after every run.** -/
theorem settled_run {r : Watched} (h : r.Settled) (events : List Event) :
    (r.run events).Settled := by
  induction events generalizing r with
  | nil => exact h
  | cons ev events ih =>
    refine ih ?_
    cases ev with
    | arrived ev => exact settled_receive h [ev]
    | pass p => exact settled_afterPass h p

/-- A belief that is due after a pass is reported by the next one, whatever arrives between. -/
theorem reported_again {r : Watched} (h : r.Settled) {link : Link}
    (hlink : (standing r.watch.beacons link).acked = false) (evs : List Evidence) (p : PassInput) :
    ∃ report ∈ sentReports ((r.receive evs).pass p).2.2, report.link = link := by
  have hlink' : (standing (r.receive evs).watch.beacons link).acked = false := by
    show (standing (evs.foldl Watch.receive r.watch).beacons link).acked = false
    rw [standing_receive_all]
    exact hlink
  obtain ⟨t, hat⟩ := judgedAt_ne_none (settled_receive h evs).judging hlink' p
  rcases afterPass_of_some hat link with ⟨hs, -, hold, -, -⟩ | ⟨-, -, habout, -⟩
  · rw [hold, hlink'] at hs
    cases hs
  · exact ⟨_, mem_of_about habout, rfl⟩

/-- **The kernel's last accepted report is the belief.**  In every run, after every pass, a
direction with an entry is either listed as unacknowledged and reported again by the next pass,
or marked: then the kernel last accepted exactly its belief, or has accepted nothing about it and
it is believed up.  And a direction is reported only when its belief is not the one last accepted,
or the report before was not accepted. -/
theorem run_reports (events : List Event) (p : PassInput) (link : Link) :
    let r := Watched.run
      ⟨Watch.start linkEvidence watchdogRunning routesToAttachedHostsOnly beaconInterval, []⟩ events
    let after := r.afterPass p
    (∀ entry, after.watch.beacons.get? link = some entry →
      (link ∈ (r.pass p).2.1.unacked ∧ ∀ evs p',
          ∃ report ∈ sentReports ((after.receive evs).pass p').2.2, report.link = link) ∨
        (entry.acked = true ∧
          ((lastAccepted after.reports link = none ∧ entry.down = false) ∨
            lastAccepted after.reports link = some entry.down))) ∧
      ∀ report ∈ sentReports (r.pass p).2.2, report.link = link →
        report.down ≠ (lastAccepted r.reports link).getD false ∨
          ∃ earlier, lastReport r.reports link = some earlier ∧ earlier.accepted = false := by
  intro r after
  have hr : r.Settled := settled_run (settled_start _ _ _ _) events
  have hafter : after.Settled := settled_afterPass hr p
  constructor
  · intro entry hget
    have hstands : standing after.watch.beacons link = entry.standing := standing_of_get? hget
    cases hacked : entry.acked with
    | true =>
      have htold := hafter.told link
      rw [hstands] at htold
      exact .inr ⟨rfl, htold hacked⟩
    | false =>
      have hdue : (standing after.watch.beacons link).acked = false := by
        rw [hstands]
        exact hacked
      refine .inl ⟨?_, fun evs p' => reported_again hafter hdue evs p'⟩
      have hdue' : (standing (r.pass p).1.beacons link).acked = false := hdue
      cases hat : judgedAt r.watch p.now p.reading with
      | none =>
        -- nothing was judged, so nothing was ever due
        rw [(afterPass_of_none hat).1] at hdue'
        obtain ⟨t, hsome⟩ := judgedAt_ne_none hr.judging hdue' p
        rw [hsome] at hat
        cases hat
      | some t =>
        rcases afterPass_of_some hat link with ⟨hs, heq, -, -, -⟩ | ⟨-, heq, -, hlisted⟩
        · rw [heq, hs] at hdue'
          cases hdue'
        · rw [heq] at hdue'
          exact hlisted.mpr hdue'
  · intro report hmem hlink
    have habout : report ∈ about (sentReports (r.pass p).2.2) link :=
      List.mem_filter.mpr ⟨hmem, by simpa using hlink⟩
    cases hat : judgedAt r.watch p.now p.reading with
    | none =>
      rw [(afterPass_of_none hat).2] at hmem
      cases hmem
    | some t =>
      rcases afterPass_of_some hat link with ⟨-, -, -, hnone, -⟩ | ⟨hs, -, hone, -⟩
      · rw [hnone] at habout
        cases habout
      · rw [hone] at habout
        cases List.mem_singleton.mp habout
        cases hbefore : (standing r.watch.beacons link).acked with
        | false => exact .inr (hr.owed link hbefore)
        | true =>
          -- a marked belief is reported because the judging has changed it
          left
          have hchanged := down_judged_ne (w := (ingestLinkEvidence r.watch p.reading p.now).1) hs
            (by rw [standing_ingestLinkEvidence]; exact hbefore)
          rw [standing_ingestLinkEvidence] at hchanged
          rcases hr.told link hbefore with ⟨hnever, hup⟩ | hlast
          · rw [hnever, Option.getD_none, ← hup]
            exact hchanged
          · rw [hlast, Option.getD_some]
            exact hchanged

end NDTwin.Links
