import Mathlib.Algebra.Order.Ring.Rat
import NDTwin.Lib.Dict

/-!
# The link watchdog

One entry a direction of a link says when the direction was last heard, whether the proxy
believes it down, and whether the kernel has accepted that belief.  Beacons and reports from
outside move the first; one watchdog thread, pass after pass, decides the second and settles the
third.  On a fabric without beacons the passes are fed by a heartbeat whose report they read.

Clock readings are seconds on the monotonic clock.

## Main definitions

* `Beacon`, `Watch` — the entry of a direction, and what the watchdog keeps.
* `handlePacketIn`, `seedExpectedLinks`, `reportExternalLinkState` — how evidence arrives.
* `HeartbeatEvidence.poll`, `ingestLinkEvidence` — the heartbeat's report as evidence.
* `checkLinkBeacons`, `runWatchdogPass` — a pass, with what it does in the order in which it
  does it.

## Main results

* `standing_receive`, `standing_ingestLinkEvidence` — **evidence changes no belief**: it only says
  when a direction was heard.
* `standing_checkLinkBeacons`, `reports_checkLinkBeacons` — **a pass judges every direction by its
  silence, reports what the kernel has not accepted, and marks what it accepts.**
-/

namespace NDTwin.Links

/-! ### State -/

/-- A direction of a link: `(src_dpid, src_port, dst_dpid, dst_port)`. -/
structure Link where
  srcDpid : ℤ
  srcPort : ℤ
  dstDpid : ℤ
  dstPort : ℤ
  deriving DecidableEq, Repr

/-- An entry of `_link_beacons`: `down` is what the watchdog believes, `acked` whether the kernel
has been told. -/
structure Beacon where
  heardAt : ℚ
  down : Bool := false
  acked : Bool := true
  seen : Bool
  source : Option String := none
  deriving DecidableEq, Repr

/-- `_external_reports`: what `report_external_link_state` was told and did. -/
structure ExternalReports where
  received : ℕ := 0
  routedThroughWatchdog : ℕ := 0
  recordedOnly : ℕ := 0
  last : Option (Link × Bool × String) := none
  deriving DecidableEq, Repr

/-- A usable reading of the heartbeat's report. -/
structure Report where
  session : Option String
  startedMono : ℚ
  writtenMono : ℚ
  heard : Link → Option ℚ

/-- What `read_report` answers: a report that is evidence, or no evidence. -/
inductive Reading where
  | unusable
  | usable (report : Report)

/-- `HeartbeatEvidence`.  The epoch is `None` in the source until the first usable reading sets
it; nothing reads it before that. -/
structure HeartbeatEvidence where
  declared : List Link
  session : Option String := none
  epoch : ℚ := 0
  wasUsable : Bool := false

/-- What the watchdog keeps of a `TopologyManager`.  `beaconInterval` is
`LLDP_BEACON_INTERVAL_S`: five seconds, unless the environment overrides it. -/
structure Watch where
  beacons : Dict Link Beacon := .empty
  lastPacketIn : Dict ℤ ℚ := .empty
  lastLldpFrom : Dict ℤ ℚ := .empty
  externalReports : ExternalReports := {}
  watchdogRunning : Bool := true
  linkEvidence : Option HeartbeatEvidence := none
  evidenceJudgedAt : Option ℚ := none
  routesToAttachedHostsOnly : Bool := false
  beaconInterval : ℚ := 5

/-- The belief about a direction; one without an entry has not been called down. -/
def Watch.believesDown (w : Watch) (link : Link) : Bool := (w.beacons.get? link).any Beacon.down

/-- `_link_timeout(entry)`: `LINK_BEACON_TIMEOUT_S`, or `LINK_STARTUP_GRACE_S` for a direction
that has never spoken. -/
def linkTimeout (interval : ℚ) (entry : Beacon) : ℚ :=
  if entry.seen then 3 * interval else 6 * interval

/-! ### Evidence -/

/-- `handle_packet_in(device_id, ingress_port, payload)`, the part under `_liveness_lock`.
`lldp` is what `parse_lldp_packet` made of the payload. -/
def handlePacketIn (w : Watch) (deviceId ingressPort : ℤ) (lldp : Option (ℤ × ℤ)) (now : ℚ) :
    Watch :=
  let w := { w with lastPacketIn := w.lastPacketIn.set deviceId now }
  match lldp with
  | none => w
  | some (srcDpid, srcPort) =>
    let w := { w with lastLldpFrom := w.lastLldpFrom.set srcDpid now }
    if srcDpid = deviceId then w
    else
      let link : Link := ⟨srcDpid, srcPort, deviceId, ingressPort⟩
      let entry : Beacon := match w.beacons.get? link with
        | none => { heardAt := now, seen := true }
        | some entry => { entry with heardAt := now, seen := true }
      { w with beacons := w.beacons.set link entry }

/-- `seed_expected_links(path)`, for the links the topology file declares. -/
def seedExpectedLinks (w : Watch) (links : List Link) (now : ℚ) : Watch :=
  { w with beacons := links.foldl (fun beacons link =>
      match beacons.get? link with
      | none => beacons.set link { heardAt := now, seen := false }
      | some _ => beacons) w.beacons }

/-- The entry `_enter_evidence(link, heard, at, source)` leaves. -/
def evidenceEntry (entry : Option Beacon) (heard : Bool) (at' : ℚ) (source : String) : Beacon :=
  match entry with
  | none => { heardAt := at', seen := heard, source := some source }
  | some entry =>
    if heard then { entry with seen := true, heardAt := max entry.heardAt at', source := some source }
    -- silence is not evidence of recovery: a direction believed down keeps its time
    else if entry.down then { entry with source := some source }
    else { entry with heardAt := max entry.heardAt at', source := some source }

/-- `_enter_evidence(link, heard, at, source)`. -/
def enterEvidence (w : Watch) (link : Link) (heard : Bool) (at' : ℚ) (source : String) : Watch :=
  { w with
    beacons := w.beacons.set link (evidenceEntry (w.beacons.get? link) heard at' source)
    externalReports := { w.externalReports with
      routedThroughWatchdog := w.externalReports.routedThroughWatchdog + 1 } }

/-- The branch of `report_external_link_state` for a report as of now. -/
def enterReportNow (w : Watch) (link : Link) (up : Bool) (now : ℚ) : Watch :=
  let entry : Beacon := (w.beacons.get? link).getD { heardAt := now, seen := true }
  let entry := { entry with seen := true }
  -- silence past the timeout, or a beacon heard now
  let heardAt := if up then now else now - linkTimeout w.beaconInterval entry - 1
  { w with
    beacons := w.beacons.set link { entry with heardAt := heardAt }
    externalReports := { w.externalReports with
      routedThroughWatchdog := w.externalReports.routedThroughWatchdog + 1 } }

/-- `report_external_link_state(src_dpid, src_port, dst_dpid, dst_port, up, source, at)`. -/
def reportExternalLinkState (w : Watch) (link : Link) (up : Bool) (source : String)
    (at' : Option ℚ) (now : ℚ) : Watch :=
  let w := { w with externalReports := { w.externalReports with
    received := w.externalReports.received + 1
    last := some (link, up, source) } }
  if w.watchdogRunning then
    match at' with
    | some t => enterEvidence w link up t source
    | none => enterReportNow w link up now
  else
    { w with externalReports := { w.externalReports with
      recordedOnly := w.externalReports.recordedOnly + 1 } }

/-- What can arrive while a pass waits for the kernel. -/
inductive Evidence where
  | packetIn (deviceId ingressPort : ℤ) (lldp : Option (ℤ × ℤ)) (now : ℚ)
  | seeded (links : List Link) (now : ℚ)
  | external (link : Link) (up : Bool) (source : String) (at' : Option ℚ) (now : ℚ)

/-- The state after evidence has arrived. -/
def Watch.receive (w : Watch) : Evidence → Watch
  | .packetIn deviceId ingressPort lldp now => handlePacketIn w deviceId ingressPort lldp now
  | .seeded links now => seedExpectedLinks w links now
  | .external link up source at' now => reportExternalLinkState w link up source at' now

/-! ### The heartbeat -/

/-- The evidence about one declared direction: heard at a time, or silent since the epoch. -/
def evidenceItem (epoch : ℚ) (link : Link) : Option ℚ → Link × Bool × ℚ
  | some last => if epoch ≤ last then (link, true, last) else (link, false, epoch)
  | none => (link, false, epoch)

/-- `HeartbeatEvidence.poll()` for the reading taken. -/
def HeartbeatEvidence.poll (ev : HeartbeatEvidence) :
    Reading → HeartbeatEvidence × Option (List (Link × Bool × ℚ))
  | .unusable => ({ ev with wasUsable := false }, none)
  | .usable r =>
    let epoch :=
      -- a new daemon: silence counts from its own start
      if r.session ≠ ev.session then r.startedMono
      -- the same daemon, back after a gap
      else if !ev.wasUsable then r.writtenMono
      else ev.epoch
    ({ ev with session := r.session, epoch := epoch, wasUsable := true },
      some (ev.declared.map fun link => evidenceItem epoch link (r.heard link)))

/-- What `_ingest_link_evidence` answers: judge at the clock, judge nothing, or judge at a time. -/
inductive JudgeAt where
  | clock
  | nothing
  | time (t : ℚ)
  deriving DecidableEq, Repr

/-- The loop that enters the items of a poll. -/
def reportItems (w : Watch) (items : List (Link × Bool × ℚ)) (now : ℚ) : Watch :=
  items.foldl (fun w item =>
    reportExternalLinkState w item.1 item.2.1 "heartbeat" (some item.2.2) now) w

/-- `_ingest_link_evidence()`, where `reading` is what the poll reads. -/
def ingestLinkEvidence (w : Watch) (reading : Reading) (now : ℚ) : Watch × JudgeAt :=
  match w.linkEvidence with
  | none => (w, .clock)
  | some ev =>
    let (ev', items) := ev.poll reading
    let w := { w with linkEvidence := some ev' }
    match items with
    | none =>
      match w.evidenceJudgedAt with
      | none => (w, .nothing)
      | some t => (w, .time t)
    | some items =>
      ({ reportItems w items now with evidenceJudgedAt := some now }, .time now)

/-! ### A pass -/

/-- How the kernel notifier takes one report. -/
inductive Answer where
  | accepted | refused | raised
  deriving DecidableEq, Repr

/-- The kernel notifier during one pass: its answer to a report of a direction and a belief. -/
def Kernel := Link → Bool → Answer

/-- `_notify_link(link, down)`. -/
def notifyLink (kernel : Option Kernel) (link : Link) (down : Bool) : Bool :=
  match kernel with
  | none => true
  | some report => match report link down with
    | .accepted => true
    | .refused => false
    | .raised => false

/-- `(now - entry["at"]) > self._link_timeout(entry)`. -/
def silent (interval now : ℚ) (entry : Beacon) : Bool :=
  decide (linkTimeout interval entry < now - entry.heardAt)

/-- The judging of one entry in `check_link_beacons`. -/
def judge (interval now : ℚ) (entry : Beacon) : Beacon :=
  if silent interval now entry ≠ entry.down then
    { entry with down := silent interval now entry, acked := false }
  else entry

/-- A report of a belief, and whether `_notify_link` answered that it was accepted. -/
structure LinkReport where
  link : Link
  down : Bool
  accepted : Bool
  deriving DecidableEq, Repr

/-- What `check_link_beacons` returns. -/
structure PassResult where
  down : List Link := []
  up : List Link := []
  unacked : List Link := []
  deriving DecidableEq, Repr

/-- A pass under way: the state, the answer so far, and the reports sent. -/
structure Pass where
  watch : Watch
  result : PassResult := {}
  reports : List LinkReport := []

/-- An accepted report marks the belief that was reported, if it is still the belief. -/
def acknowledge (beacons : Dict Link Beacon) (link : Link) (down : Bool) : Dict Link Beacon :=
  match beacons.get? link with
  | some entry => if entry.down = down then beacons.set link { entry with acked := true } else beacons
  | none => beacons

/-- One turn of the reporting loop.  `inFlight link` arrives while the report about `link` is on
its way, which is all that arrives until its acknowledgement takes the lock. -/
def reportLink (kernel : Option Kernel) (inFlight : Link → List Evidence) (p : Pass)
    (item : Link × Bool) : Pass :=
  let accepted := notifyLink kernel item.1 item.2
  let w := (inFlight item.1).foldl Watch.receive p.watch
  let reports := p.reports ++ [⟨item.1, item.2, accepted⟩]
  if accepted then
    ⟨{ w with beacons := acknowledge w.beacons item.1 item.2 },
      if item.2 then { p.result with down := p.result.down ++ [item.1] }
      else { p.result with up := p.result.up ++ [item.1] }, reports⟩
  else ⟨w, { p.result with unacked := p.result.unacked ++ [item.1] }, reports⟩

/-- The directions whose belief the kernel has not accepted, with the belief. -/
def unackedBeliefs (beacons : Dict Link Beacon) : List (Link × Bool) :=
  (beacons.entries.filter fun e => !e.2.acked).map fun e => (e.1, e.2.down)

/-- `check_link_beacons(now)`. -/
def checkLinkBeacons (w : Watch) (now : ℚ) (kernel : Option Kernel)
    (inFlight : Link → List Evidence) : Pass :=
  let judged := w.beacons.mapValues (judge w.beaconInterval now)
  (unackedBeliefs judged).foldl (reportLink kernel inFlight) ⟨{ w with beacons := judged }, {}, []⟩

/-- What a pass does besides keeping its entries: it reports, installs routes from the beliefs it
then has, and pushes the paths. -/
inductive Action where
  | report (report : LinkReport)
  | installInitialRoutes (beacons : Dict Link Beacon)
  | pushDestinationPaths

/-- `run_watchdog_pass()`: the state after it, what it returns, and what it did.  `now` is the
clock reading it judges at, where it judges at the clock. -/
def runWatchdogPass (w : Watch) (reading : Reading) (now : ℚ) (kernel : Option Kernel)
    (inFlight : Link → List Evidence) : Watch × PassResult × List Action :=
  let (w, judgeAt) := ingestLinkEvidence w reading now
  let p : Pass := match judgeAt with
    | .nothing => ⟨w, {}, []⟩
    | .clock => checkLinkBeacons w now kernel inFlight
    | .time t => checkLinkBeacons w t kernel inFlight
  let reroute :=
    if p.result.down ≠ [] ∨ p.result.up ≠ [] then
      (if p.watch.routesToAttachedHostsOnly then []
        else [Action.installInitialRoutes p.watch.beacons]) ++ [.pushDestinationPaths]
    else []
  (p.watch, p.result, p.reports.map .report ++ reroute)

/-! ### Where a direction stands -/

/-- The belief about a direction and whether the kernel has accepted it. -/
@[ext] structure Standing where
  down : Bool
  acked : Bool
  deriving DecidableEq, Repr

/-- Where an entry stands. -/
def Beacon.standing (entry : Beacon) : Standing := ⟨entry.down, entry.acked⟩

/-- Where a direction stands: one without an entry is as a new entry would be. -/
def standing (beacons : Dict Link Beacon) (link : Link) : Standing :=
  ((beacons.get? link).map Beacon.standing).getD ⟨false, true⟩

theorem standing_of_get? {beacons : Dict Link Beacon} {link : Link} {entry : Beacon}
    (h : beacons.get? link = some entry) : standing beacons link = entry.standing := by
  rw [standing, h]
  rfl

theorem believesDown_eq (w : Watch) (link : Link) :
    w.believesDown link = (standing w.beacons link).down := by
  rw [Watch.believesDown, standing]
  cases w.beacons.get? link with
  | none => rfl
  | some entry => rfl

theorem standing_set (beacons : Dict Link Beacon) (link link' : Link) (entry : Beacon) :
    standing (beacons.set link entry) link' =
      if link' = link then entry.standing else standing beacons link' := by
  rw [standing, Dict.get?_set]
  split
  · rfl
  · rfl

/-- Setting an entry to one that stands where the old one stood changes nothing. -/
theorem standing_set_self {beacons : Dict Link Beacon} {link : Link} {entry : Beacon}
    (h : entry.standing = standing beacons link) :
    standing (beacons.set link entry) = standing beacons := by
  funext link'
  rw [standing_set]
  split
  · next heq => rw [heq, h]
  · rfl

/-! ### Evidence changes no belief -/

theorem standing_handlePacketIn (w : Watch) (deviceId ingressPort : ℤ) (lldp : Option (ℤ × ℤ))
    (now : ℚ) :
    standing (handlePacketIn w deviceId ingressPort lldp now).beacons = standing w.beacons := by
  cases lldp with
  | none => rfl
  | some info =>
    simp only [handlePacketIn]
    split
    · rfl
    · refine standing_set_self ?_
      rw [standing]
      cases w.beacons.get? ⟨info.1, info.2, deviceId, ingressPort⟩ with
      | none => rfl
      | some entry => rfl

theorem standing_seedExpectedLinks (w : Watch) (links : List Link) (now : ℚ) :
    standing (seedExpectedLinks w links now).beacons = standing w.beacons := by
  simp only [seedExpectedLinks]
  generalize w.beacons = beacons
  induction links generalizing beacons with
  | nil => rfl
  | cons link links ih =>
    rw [List.foldl_cons, ih]
    cases h : beacons.get? link with
    | none =>
      refine standing_set_self ?_
      rw [standing, h]
      rfl
    | some entry => rfl

theorem standing_enterEvidence (w : Watch) (link : Link) (heard : Bool) (at' : ℚ)
    (source : String) :
    standing (enterEvidence w link heard at' source).beacons = standing w.beacons := by
  refine standing_set_self ?_
  rw [standing]
  cases w.beacons.get? link with
  | none => rfl
  | some entry =>
    simp only [evidenceEntry]
    split
    · rfl
    · split
      · rfl
      · rfl

theorem standing_enterReportNow (w : Watch) (link : Link) (up : Bool) (now : ℚ) :
    standing (enterReportNow w link up now).beacons = standing w.beacons := by
  refine standing_set_self ?_
  rw [standing]
  cases w.beacons.get? link with
  | none => rfl
  | some entry => rfl

theorem standing_reportExternalLinkState (w : Watch) (link : Link) (up : Bool) (source : String)
    (at' : Option ℚ) (now : ℚ) :
    standing (reportExternalLinkState w link up source at' now).beacons = standing w.beacons := by
  simp only [reportExternalLinkState]
  split
  · cases at' with
    | some t => exact standing_enterEvidence _ link up t source
    | none => exact standing_enterReportNow _ link up now
  · rfl

/-- **Evidence changes no belief.** -/
theorem standing_receive (w : Watch) (ev : Evidence) :
    standing (w.receive ev).beacons = standing w.beacons := by
  cases ev with
  | packetIn deviceId ingressPort lldp now =>
    exact standing_handlePacketIn w deviceId ingressPort lldp now
  | seeded links now => exact standing_seedExpectedLinks w links now
  | external link up source at' now =>
    exact standing_reportExternalLinkState w link up source at' now

theorem standing_receive_all (w : Watch) (evs : List Evidence) :
    standing (evs.foldl Watch.receive w).beacons = standing w.beacons := by
  induction evs generalizing w with
  | nil => rfl
  | cons ev evs ih => rw [List.foldl_cons, ih, standing_receive]

theorem standing_reportItems (w : Watch) (items : List (Link × Bool × ℚ)) (now : ℚ) :
    standing (reportItems w items now).beacons = standing w.beacons := by
  rw [reportItems]
  induction items generalizing w with
  | nil => rfl
  | cons item items ih => rw [List.foldl_cons, ih, standing_reportExternalLinkState]

/-- **Reading the heartbeat changes no belief.** -/
theorem standing_ingestLinkEvidence (w : Watch) (reading : Reading) (now : ℚ) :
    standing (ingestLinkEvidence w reading now).1.beacons = standing w.beacons := by
  rw [ingestLinkEvidence]
  cases w.linkEvidence with
  | none => rfl
  | some ev =>
    cases reading with
    | unusable =>
      simp only [HeartbeatEvidence.poll]
      cases w.evidenceJudgedAt with
      | none => rfl
      | some t => rfl
    | usable r => exact standing_reportItems _ _ now

/-! ### What evidence leaves alone -/

/-- The parts of the state that only the passes themselves change. -/
def Watch.fixed (w : Watch) : Option HeartbeatEvidence × Option ℚ × Bool × Bool × ℚ :=
  (w.linkEvidence, w.evidenceJudgedAt, w.watchdogRunning, w.routesToAttachedHostsOnly,
    w.beaconInterval)

theorem fixed_reportExternalLinkState (w : Watch) (link : Link) (up : Bool) (source : String)
    (at' : Option ℚ) (now : ℚ) :
    (reportExternalLinkState w link up source at' now).fixed = w.fixed := by
  simp only [reportExternalLinkState]
  split
  · cases at' with
    | some t => rfl
    | none => rfl
  · rfl

theorem fixed_receive (w : Watch) (ev : Evidence) : (w.receive ev).fixed = w.fixed := by
  cases ev with
  | packetIn deviceId ingressPort lldp now =>
    cases lldp with
    | none => rfl
    | some info =>
      simp only [Watch.receive, handlePacketIn]
      split
      · rfl
      · rfl
  | seeded links now => rfl
  | external link up source at' now =>
    exact fixed_reportExternalLinkState w link up source at' now

theorem fixed_receive_all (w : Watch) (evs : List Evidence) :
    (evs.foldl Watch.receive w).fixed = w.fixed := by
  induction evs generalizing w with
  | nil => rfl
  | cons ev evs ih => rw [List.foldl_cons, ih, fixed_receive]

theorem fixed_reportItems (w : Watch) (items : List (Link × Bool × ℚ)) (now : ℚ) :
    (reportItems w items now).fixed = w.fixed := by
  rw [reportItems]
  induction items generalizing w with
  | nil => rfl
  | cons item items ih => rw [List.foldl_cons, ih, fixed_reportExternalLinkState]

/-! ### What is due -/

theorem judge_down (interval now : ℚ) (entry : Beacon) :
    (judge interval now entry).down = silent interval now entry := by
  rw [judge]
  split
  · rfl
  · next h => exact (not_not.mp h).symm

theorem judge_acked (interval now : ℚ) (entry : Beacon) :
    (judge interval now entry).acked = (entry.acked && silent interval now entry == entry.down) := by
  rw [judge]
  split
  · next h => simp [h]
  · next h => simp [not_not.mp h]

/-- A direction is among those whose belief is due to the kernel at most once, and there exactly
when the kernel has not accepted its belief. -/
theorem unackedBeliefs_about (beacons : Dict Link Beacon) (link : Link) :
    (unackedBeliefs beacons).filter (fun item => item.1 = link) =
      if (standing beacons link).acked then [] else [(link, (standing beacons link).down)] := by
  rw [unackedBeliefs, List.filter_map]
  show ((beacons.entries.filter _).filter fun e => decide (e.1 = link)).map _ = _
  rw [List.filter_comm, beacons.filter_key link, standing]
  cases beacons.get? link with
  | none => rfl
  | some entry =>
    cases h : entry.acked with
    | false => simp [h, Beacon.standing]
    | true => simp [h, Beacon.standing]

theorem mem_unackedBeliefs (beacons : Dict Link Beacon) (link : Link) (down : Bool) :
    (link, down) ∈ unackedBeliefs beacons ↔ standing beacons link = ⟨down, false⟩ := by
  have hmem : (link, down) ∈ unackedBeliefs beacons ↔
      (link, down) ∈ (unackedBeliefs beacons).filter fun item => item.1 = link := by
    rw [List.mem_filter]
    simp
  rw [hmem, unackedBeliefs_about, Standing.ext_iff]
  cases (standing beacons link).acked with
  | true => simp
  | false => simp [eq_comm]

theorem nodup_unackedBeliefs (beacons : Dict Link Beacon) :
    ((unackedBeliefs beacons).map Prod.fst).Nodup := by
  rw [unackedBeliefs, List.map_map]
  exact beacons.nodup.sublist (List.filter_sublist.map _)

/-! ### The reporting loop -/

theorem standing_acknowledge (beacons : Dict Link Beacon) {link : Link} {down : Bool}
    (h : standing beacons link = ⟨down, false⟩) (link' : Link) :
    standing (acknowledge beacons link down) link' =
      if link' = link then ⟨down, true⟩ else standing beacons link' := by
  rw [acknowledge]
  cases hget : beacons.get? link with
  | none =>
    rw [standing, hget] at h
    cases h
  | some entry =>
    have hdown : entry.down = down := by
      rw [standing_of_get? hget] at h
      exact congrArg Standing.down h
    show standing (if _ then _ else _) link' = _
    rw [if_pos hdown, standing_set]
    split
    · rw [Beacon.standing, hdown]
    · rfl

variable (kernel : Option Kernel) (inFlight : Link → List Evidence)

/-- The report a turn of the loop sends. -/
def reportOf (item : Link × Bool) : LinkReport := ⟨item.1, item.2, notifyLink kernel item.1 item.2⟩

theorem reports_reportLink (p : Pass) (item : Link × Bool) :
    (reportLink kernel inFlight p item).reports = p.reports ++ [reportOf kernel item] := by
  simp only [reportLink]
  split
  · rfl
  · rfl

theorem fixed_reportLink (p : Pass) (item : Link × Bool) :
    (reportLink kernel inFlight p item).watch.fixed = p.watch.fixed := by
  simp only [reportLink]
  split
  · exact fixed_receive_all p.watch _
  · exact fixed_receive_all p.watch _

theorem standing_reportLink {p : Pass} {link : Link} {down : Bool}
    (h : standing p.watch.beacons link = ⟨down, false⟩) (link' : Link) :
    standing (reportLink kernel inFlight p (link, down)).watch.beacons link' =
      if link' = link ∧ notifyLink kernel link down then ⟨down, true⟩
      else standing p.watch.beacons link' := by
  have harrived := standing_receive_all p.watch (inFlight link)
  simp only [reportLink]
  split
  · next hacc =>
    rw [standing_acknowledge _ (harrived ▸ h), harrived]
    simp [hacc]
  · next hacc =>
    rw [harrived]
    simp [hacc]

theorem reports_loop (todo : List (Link × Bool)) (p : Pass) :
    (todo.foldl (reportLink kernel inFlight) p).reports =
      p.reports ++ todo.map (reportOf kernel) := by
  induction todo generalizing p with
  | nil => simp
  | cons item todo ih => rw [List.foldl_cons, ih, reports_reportLink]; simp

theorem fixed_loop (todo : List (Link × Bool)) (p : Pass) :
    (todo.foldl (reportLink kernel inFlight) p).watch.fixed = p.watch.fixed := by
  induction todo generalizing p with
  | nil => rfl
  | cons item todo ih => rw [List.foldl_cons, ih, fixed_reportLink]

/-- The loop marks the beliefs that are accepted, each of which is still unmarked when its turn
comes. -/
theorem standing_loop (todo : List (Link × Bool)) (p : Pass) (hnodup : (todo.map Prod.fst).Nodup)
    (htodo : ∀ link down, (link, down) ∈ todo → standing p.watch.beacons link = ⟨down, false⟩)
    (link : Link) :
    standing (todo.foldl (reportLink kernel inFlight) p).watch.beacons link =
      if (link, (standing p.watch.beacons link).down) ∈ todo ∧
          notifyLink kernel link (standing p.watch.beacons link).down then
        ⟨(standing p.watch.beacons link).down, true⟩
      else standing p.watch.beacons link := by
  induction todo generalizing p with
  | nil => simp
  | cons item todo ih =>
    obtain ⟨hnot, hnodup⟩ := List.nodup_cons.mp hnodup
    have hturn := standing_reportLink kernel inFlight
      (htodo item.1 item.2 List.mem_cons_self)
    rw [List.foldl_cons, ih _ hnodup, hturn link]
    · by_cases hlink : link = item.1
      · subst hlink
        have hdown := htodo item.1 item.2 List.mem_cons_self
        have hrest : ∀ down, (item.1, down) ∉ todo := fun down hmem =>
          hnot (List.mem_map.mpr ⟨_, hmem, rfl⟩)
        rw [hdown]
        cases hacc : notifyLink kernel item.1 item.2 with
        | false => simp [hrest]
        | true => simp
      · have hne : ∀ down, (link, down) ≠ item := by
          rintro down rfl
          exact hlink rfl
        simp [hlink, hne]
    · -- the entries still to come are those of other directions
      intro link' down hmem
      have hne : link' ≠ item.1 := by
        rintro rfl
        exact hnot (List.mem_map.mpr ⟨_, hmem, rfl⟩)
      rw [hturn link', if_neg fun h => hne h.1]
      exact htodo link' down (List.mem_cons_of_mem _ hmem)

/-- The loop's answer lists a direction as reported when one of its reports was accepted. -/
theorem result_loop (todo : List (Link × Bool)) (p : Pass) :
    ((todo.foldl (reportLink kernel inFlight) p).result.down ≠ [] ∨
        (todo.foldl (reportLink kernel inFlight) p).result.up ≠ []) ↔
      (p.result.down ≠ [] ∨ p.result.up ≠ []) ∨
        ∃ link down, (link, down) ∈ todo ∧ notifyLink kernel link down = true := by
  induction todo generalizing p with
  | nil => simp
  | cons item todo ih =>
    rw [List.foldl_cons, ih]
    obtain ⟨link, down⟩ := item
    cases hacc : notifyLink kernel link down with
    | false =>
      have hsame : ((reportLink kernel inFlight p (link, down)).result.down ≠ [] ∨
          (reportLink kernel inFlight p (link, down)).result.up ≠ []) ↔
            (p.result.down ≠ [] ∨ p.result.up ≠ []) := by
        simp [reportLink, hacc]
      rw [hsame]
      refine or_congr_right ⟨?_, ?_⟩
      · rintro ⟨l, d, hmem, hl⟩
        exact ⟨l, d, List.mem_cons_of_mem _ hmem, hl⟩
      · rintro ⟨l, d, hmem, hl⟩
        rcases List.mem_cons.mp hmem with heq | hmem
        · cases heq
          rw [hacc] at hl
          cases hl
        · exact ⟨l, d, hmem, hl⟩
    | true =>
      have hlisted : (reportLink kernel inFlight p (link, down)).result.down ≠ [] ∨
          (reportLink kernel inFlight p (link, down)).result.up ≠ [] := by
        cases down with
        | false => simp [reportLink, hacc]
        | true => simp [reportLink, hacc]
      exact iff_of_true (.inl hlisted) (.inr ⟨link, down, List.mem_cons_self, hacc⟩)

/-- The loop's answer lists as unacknowledged the directions whose report was not accepted. -/
theorem unacked_loop (todo : List (Link × Bool)) (p : Pass) :
    (todo.foldl (reportLink kernel inFlight) p).result.unacked =
      p.result.unacked ++
        (todo.filter fun item => !notifyLink kernel item.1 item.2).map Prod.fst := by
  induction todo generalizing p with
  | nil => simp
  | cons item todo ih =>
    rw [List.foldl_cons, ih]
    cases hacc : notifyLink kernel item.1 item.2 with
    | false => simp [reportLink, hacc]
    | true =>
      have hsame : (reportLink kernel inFlight p item).result.unacked = p.result.unacked := by
        simp only [reportLink, hacc, if_true]
        split
        · rfl
        · rfl
      simp [hsame, hacc]

/-! ### A pass over the entries -/

variable (w : Watch) (now : ℚ)

/-- The entries as a pass has judged them. -/
def judged : Dict Link Beacon := w.beacons.mapValues (judge w.beaconInterval now)

theorem checkLinkBeacons_eq :
    checkLinkBeacons w now kernel inFlight =
      (unackedBeliefs (judged w now)).foldl (reportLink kernel inFlight)
        ⟨{ w with beacons := judged w now }, {}, []⟩ :=
  rfl

/-- Where a direction stands once it has been judged: believed as it is silent, and unaccepted if
that is new. -/
theorem standing_judged {link : Link} {entry : Beacon} (h : w.beacons.get? link = some entry) :
    standing (judged w now) link =
      ⟨silent w.beaconInterval now entry,
        entry.acked && silent w.beaconInterval now entry == entry.down⟩ := by
  have hget : (judged w now).get? link = some (judge w.beaconInterval now entry) := by
    rw [judged, Dict.get?_mapValues, h]
    rfl
  rw [standing_of_get? hget, Beacon.standing, judge_down, judge_acked]

theorem standing_judged_of_none {link : Link} (h : w.beacons.get? link = none) :
    standing (judged w now) link = ⟨false, true⟩ := by
  rw [standing, judged, Dict.get?_mapValues, h]
  rfl

theorem reports_checkLinkBeacons :
    (checkLinkBeacons w now kernel inFlight).reports =
      (unackedBeliefs (judged w now)).map (reportOf kernel) := by
  rw [checkLinkBeacons_eq, reports_loop, List.nil_append]

theorem fixed_checkLinkBeacons :
    (checkLinkBeacons w now kernel inFlight).watch.fixed = w.fixed := by
  rw [checkLinkBeacons_eq, fixed_loop]
  rfl

/-- **A pass judges every direction and marks what the kernel accepts**, whatever arrives while it
reports. -/
theorem standing_checkLinkBeacons (link : Link) :
    standing (checkLinkBeacons w now kernel inFlight).watch.beacons link =
      if (standing (judged w now) link).acked = false ∧
          notifyLink kernel link (standing (judged w now) link).down then
        ⟨(standing (judged w now) link).down, true⟩
      else standing (judged w now) link := by
  have hdue : (link, (standing (judged w now) link).down) ∈ unackedBeliefs (judged w now) ↔
      (standing (judged w now) link).acked = false := by
    rw [mem_unackedBeliefs, Standing.ext_iff]
    simp
  rw [checkLinkBeacons_eq, standing_loop kernel inFlight _ _ (nodup_unackedBeliefs _)]
  · simp only [hdue]
  · intro link' down hmem
    exact (mem_unackedBeliefs _ _ _).mp hmem

theorem down_standing_checkLinkBeacons (link : Link) :
    (standing (checkLinkBeacons w now kernel inFlight).watch.beacons link).down =
      (standing (judged w now) link).down := by
  rw [standing_checkLinkBeacons]
  split
  · rfl
  · rfl

/-! ### A whole pass -/

variable (reading : Reading)

/-- The clock reading a pass judges at, if it judges. -/
def judgedAt : Option ℚ :=
  match (ingestLinkEvidence w reading now).2 with
  | .clock => some now
  | .nothing => none
  | .time t => some t

/-- What a pass does about routes, for what it has reported. -/
def reroute (p : Pass) : List Action :=
  if p.result.down ≠ [] ∨ p.result.up ≠ [] then
    (if p.watch.routesToAttachedHostsOnly then []
      else [Action.installInitialRoutes p.watch.beacons]) ++ [.pushDestinationPaths]
  else []

theorem runWatchdogPass_of_none (h : judgedAt w now reading = none) :
    runWatchdogPass w reading now kernel inFlight =
      ((ingestLinkEvidence w reading now).1, {}, []) := by
  rw [judgedAt] at h
  rcases hin : ingestLinkEvidence w reading now with ⟨w', judgeAt⟩
  rw [hin] at h
  cases judgeAt with
  | clock => cases h
  | time t => cases h
  | nothing => simp [runWatchdogPass, hin]

theorem runWatchdogPass_of_some {t : ℚ} (h : judgedAt w now reading = some t) :
    runWatchdogPass w reading now kernel inFlight =
      let p := checkLinkBeacons (ingestLinkEvidence w reading now).1 t kernel inFlight
      (p.watch, p.result, p.reports.map .report ++ reroute p) := by
  rw [judgedAt] at h
  rcases hin : ingestLinkEvidence w reading now with ⟨w', judgeAt⟩
  rw [hin] at h
  cases judgeAt with
  | clock =>
    cases h
    simp only [runWatchdogPass, hin]
    rfl
  | time t =>
    cases h
    simp only [runWatchdogPass, hin]
    rfl
  | nothing => cases h

/-- Reading the heartbeat leaves the settings alone. -/
theorem settings_ingestLinkEvidence :
    (ingestLinkEvidence w reading now).1.fixed.2.2 = w.fixed.2.2 := by
  rw [ingestLinkEvidence]
  cases w.linkEvidence with
  | none => rfl
  | some ev =>
    cases reading with
    | unusable =>
      simp only [HeartbeatEvidence.poll]
      cases w.evidenceJudgedAt with
      | none => rfl
      | some t => rfl
    | usable r =>
      have hfixed := fixed_reportItems
        { w with linkEvidence := some (ev.poll (.usable r)).1 } ((ev.poll (.usable r)).2.getD []) now
      exact congrArg (fun f => f.2.2) hfixed

end NDTwin.Links
