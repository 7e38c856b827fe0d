import NDTwin.Links.Watchdog

/-!
# The silence of the heartbeat

On a fabric that only the heartbeat feeds, a direction that was not heard while nobody could hear
it has not gone quiet.  After a gap in a session's readings the silence of every direction counts
from the first reading after the gap; a reading of another session than the last counts it from
that session's own start.  While there is no evidence nothing is judged anew.

## Main definitions

* `Fed`, `Fed.run` — such a fabric, with the readings it has taken.
* `Resumed` — a session's readings, with a gap in them and the reading that ended it.

## Main results

* `epoch_of_resumed` — the time from which a poll counts silence.
* `heardFrom_reportItems` — entering evidence moves every direction believed up to it.
* `run_silence` — **the heartbeat's silence is never charged to a link** within a session's
  readings, and **an unusable reading changes no belief**, over every run.
* `restarted_silence` — a session that was not the one being read counts from its own start.
-/

namespace NDTwin.Links

/-! ### Runs -/

/-- A fabric fed by the heartbeat, with every reading taken, oldest first. -/
structure Fed where
  watch : Watch
  readings : List Reading := []

/-- A reading is taken by itself, as when the watchdog starts, or by a pass.  Nothing but the
passes enters evidence here, so nothing arrives while one of them reports. -/
inductive FedStep where
  | poll (reading : Reading)
  | pass (reading : Reading) (now : ℚ) (kernel : Option Kernel)

/-- The pass from a state. -/
def Fed.pass (f : Fed) (reading : Reading) (now : ℚ) (kernel : Option Kernel) : Watch :=
  (runWatchdogPass f.watch reading now kernel fun _ => []).1

/-- The state after a step. -/
def Fed.step (f : Fed) : FedStep → Fed
  | .poll reading =>
    ⟨{ f.watch with linkEvidence := f.watch.linkEvidence.map fun ev => (ev.poll reading).1 },
      f.readings ++ [reading]⟩
  | .pass reading now kernel => ⟨f.pass reading now kernel, f.readings ++ [reading]⟩

/-- The state after a run. -/
def Fed.run (f : Fed) (steps : List FedStep) : Fed := steps.foldl Fed.step f

/-- `start_heartbeat_watchdog` before its first read, for the declared links. -/
def Fed.start (declared : List Link) (routesToAttachedHostsOnly : Bool) (beaconInterval : ℚ) :
    Fed :=
  ⟨{ linkEvidence := some { declared }, routesToAttachedHostsOnly, beaconInterval }, []⟩

/-! ### The epoch -/

/-- The evidence after a list of readings. -/
def HeartbeatEvidence.after (ev : HeartbeatEvidence) (readings : List Reading) :
    HeartbeatEvidence :=
  readings.foldl (fun ev reading => (ev.poll reading).1) ev

theorem after_append (ev : HeartbeatEvidence) (readings readings' : List Reading) :
    ev.after (readings ++ readings') = (ev.after readings).after readings' :=
  List.foldl_append

theorem after_cons (ev : HeartbeatEvidence) (reading : Reading) (readings : List Reading) :
    ev.after (reading :: readings) = (ev.poll reading).1.after readings :=
  rfl

@[simp] theorem poll_declared (ev : HeartbeatEvidence) (reading : Reading) :
    (ev.poll reading).1.declared = ev.declared := by
  cases reading with
  | unusable => rfl
  | usable r => rfl

@[simp] theorem poll_usable_session (ev : HeartbeatEvidence) (r : Report) :
    (ev.poll (.usable r)).1.session = r.session :=
  rfl

@[simp] theorem poll_usable_wasUsable (ev : HeartbeatEvidence) (r : Report) :
    (ev.poll (.usable r)).1.wasUsable = true :=
  rfl

theorem poll_usable_epoch (ev : HeartbeatEvidence) (r : Report) :
    (ev.poll (.usable r)).1.epoch =
      if r.session ≠ ev.session then r.startedMono
      else if !ev.wasUsable then r.writtenMono else ev.epoch :=
  rfl

theorem declared_after (ev : HeartbeatEvidence) (readings : List Reading) :
    (ev.after readings).declared = ev.declared := by
  induction readings generalizing ev with
  | nil => rfl
  | cons reading readings ih => rw [after_cons, ih, poll_declared]

/-- While only one session is read, it stays the session being read. -/
theorem session_after {ev : HeartbeatEvidence} {readings : List Reading} {session : Option String}
    (hev : ev.session = session) (h : ∀ q, Reading.usable q ∈ readings → q.session = session) :
    (ev.after readings).session = session := by
  induction readings generalizing ev with
  | nil => exact hev
  | cons reading readings ih =>
    rw [after_cons]
    refine ih ?_ fun q hq => h q (List.mem_cons_of_mem _ hq)
    cases reading with
    | unusable => exact hev
    | usable r => exact h r List.mem_cons_self

/-- While one session is read without a gap, the epoch stays. -/
theorem epoch_after {ev : HeartbeatEvidence} {readings : List Reading}
    (husable : ev.wasUsable = true)
    (h : ∀ q, Reading.usable q ∈ readings → q.session = ev.session)
    (hgap : Reading.unusable ∉ readings) : (ev.after readings).epoch = ev.epoch := by
  induction readings generalizing ev with
  | nil => rfl
  | cons reading readings ih =>
    cases reading with
    | unusable => exact absurd List.mem_cons_self hgap
    | usable r =>
      have hsession : r.session = ev.session := h r List.mem_cons_self
      have hepoch : (ev.poll (.usable r)).1.epoch = ev.epoch := by
        rw [poll_usable_epoch, husable, hsession]
        simp
      rw [after_cons, ih rfl _ fun hmem => hgap (List.mem_cons_of_mem _ hmem), hepoch]
      intro q hq
      rw [poll_usable_session, hsession]
      exact h q (List.mem_cons_of_mem _ hq)

/-- In `readings`, since a usable reading of `session` only readings of `session` have been
usable, some were not, and `back` is the first usable one after the last of these. -/
def Resumed (session : Option String) (readings : List Reading) (back : Report) : Prop :=
  ∃ before first gap since,
    readings = before ++ .usable first :: (gap ++ .unusable :: .usable back :: since) ∧
      (∀ q, .usable q ∈ .usable first :: (gap ++ .unusable :: .usable back :: since) →
        q.session = session) ∧
      .unusable ∉ since

/-- **Silence counts from the reading that ended the last gap.** -/
theorem epoch_of_resumed (ev : HeartbeatEvidence) {session : Option String}
    {readings : List Reading} {back : Report} (h : Resumed session readings back) :
    (ev.after readings).epoch = back.writtenMono := by
  obtain ⟨before, first, gap, since, rfl, hsession, hsince⟩ := h
  have hfirst : first.session = session := hsession first List.mem_cons_self
  have hback : back.session = session := hsession back (by simp)
  rw [after_append, after_cons, after_append, after_cons, after_cons]
  have hgap : (((ev.after before).poll (.usable first)).1.after gap).session = session :=
    session_after hfirst fun q hq => hsession q (by simp [hq])
  rw [epoch_after rfl _ hsince]
  · -- the reading after the gap is of the session being read
    rw [poll_usable_epoch]
    have hsame : ¬ back.session ≠
        ((((ev.after before).poll (.usable first)).1.after gap).poll .unusable).1.session := by
      rw [not_not, hback]
      exact hgap.symm
    rw [if_neg hsame]
    rfl
  · intro q hq
    rw [poll_usable_session, hback]
    exact hsession q (by simp [hq])

/-! ### A pass into which nothing arrives -/

/-- When a direction was heard, and whether it ever was: all that a judgement reads. -/
def Beacon.heard (entry : Beacon) : ℚ × Bool := (entry.heardAt, entry.seen)

theorem silent_congr {interval t : ℚ} {entry entry' : Beacon} (h : entry.heard = entry'.heard) :
    silent interval t entry = silent interval t entry' := by
  have hat : entry.heardAt = entry'.heardAt := congrArg Prod.fst h
  have hseen : entry.seen = entry'.seen := congrArg Prod.snd h
  rw [silent, silent, linkTimeout, linkTimeout, hat, hseen]

theorem heard_judge (interval t : ℚ) (entry : Beacon) :
    (judge interval t entry).heard = entry.heard := by
  rw [judge]
  split
  · rfl
  · rfl

theorem heard_acknowledge (beacons : Dict Link Beacon) (link : Link) (down : Bool) (link' : Link) :
    ((acknowledge beacons link down).get? link').map Beacon.heard =
      (beacons.get? link').map Beacon.heard := by
  rw [acknowledge]
  cases hget : beacons.get? link with
  | none => rfl
  | some entry =>
    show (Dict.get? (if _ then _ else _) link').map _ = _
    split
    · rw [Dict.get?_set]
      split
      · next heq =>
        rw [heq, hget]
        rfl
      · rfl
    · rfl

theorem heard_loop (kernel : Option Kernel) (todo : List (Link × Bool)) (p : Pass) (link : Link) :
    ((todo.foldl (reportLink kernel fun _ => []) p).watch.beacons.get? link).map Beacon.heard =
      (p.watch.beacons.get? link).map Beacon.heard := by
  induction todo generalizing p with
  | nil => rfl
  | cons item todo ih =>
    rw [List.foldl_cons, ih]
    simp only [reportLink, List.foldl_nil]
    split
    · exact heard_acknowledge p.watch.beacons item.1 item.2 link
    · rfl

theorem heard_checkLinkBeacons (w : Watch) (t : ℚ) (kernel : Option Kernel) (link : Link) :
    ((checkLinkBeacons w t kernel fun _ => []).watch.beacons.get? link).map Beacon.heard =
      (w.beacons.get? link).map Beacon.heard := by
  rw [checkLinkBeacons_eq, heard_loop]
  show ((judged w t).get? link).map _ = _
  rw [judged, Dict.get?_mapValues, Option.map_map]
  cases w.beacons.get? link with
  | none => rfl
  | some entry => exact congrArg some (heard_judge _ _ entry)

/-- What such a pass leaves of an entry. -/
theorem get?_checkLinkBeacons {w : Watch} {t : ℚ} {kernel : Option Kernel} {link : Link}
    {entry : Beacon}
    (h : (checkLinkBeacons w t kernel fun _ => []).watch.beacons.get? link = some entry) :
    ∃ old, w.beacons.get? link = some old ∧ entry.heard = old.heard ∧
      entry.down = silent w.beaconInterval t entry := by
  have hheard := heard_checkLinkBeacons w t kernel link
  rw [h] at hheard
  cases hold : w.beacons.get? link with
  | none =>
    rw [hold] at hheard
    cases hheard
  | some old =>
    rw [hold] at hheard
    have hsame : entry.heard = old.heard := Option.some.inj hheard
    have hdown := down_standing_checkLinkBeacons kernel (fun _ => []) w t link
    rw [standing_of_get? h, standing_judged w t hold] at hdown
    refine ⟨old, rfl, hsame, ?_⟩
    rw [silent_congr hsame]
    exact hdown

/-! ### Evidence that is entered -/

/-- A direction has an entry, and if it is believed up its silence counts from `t` at the
earliest. -/
def HeardFrom (t : ℚ) (link : Link) (beacons : Dict Link Beacon) : Prop :=
  ∃ entry, beacons.get? link = some entry ∧ (entry.down = false → t ≤ entry.heardAt)

theorem heardAt_evidenceEntry {t at' : ℚ} (hat : t ≤ at') (entry : Option Beacon) (heard : Bool)
    (source : String) (h : (evidenceEntry entry heard at' source).down = false) :
    t ≤ (evidenceEntry entry heard at' source).heardAt := by
  cases entry with
  | none => exact hat
  | some entry =>
    simp only [evidenceEntry] at h ⊢
    split at h
    · next hheard =>
      rw [if_pos hheard]
      exact hat.trans (le_max_right _ _)
    · next hheard =>
      rw [if_neg hheard]
      split at h
      · next hdown =>
        -- believed down: not the case
        rw [hdown] at h
        cases h
      · next hdown =>
        rw [if_neg hdown]
        exact hat.trans (le_max_right _ _)

/-- A report as of a time, while the watchdog runs, enters the evidence. -/
theorem beacons_reportExternalLinkState {w : Watch} (hrun : w.watchdogRunning = true) (link : Link)
    (up : Bool) (source : String) (at' now : ℚ) :
    (reportExternalLinkState w link up source (some at') now).beacons =
      w.beacons.set link (evidenceEntry (w.beacons.get? link) up at' source) := by
  rw [reportExternalLinkState]
  show Watch.beacons (if w.watchdogRunning = true then _ else _) = _
  rw [if_pos hrun]
  rfl

theorem watchdogRunning_reportExternalLinkState (w : Watch) (link : Link) (up : Bool)
    (source : String) (at' : Option ℚ) (now : ℚ) :
    (reportExternalLinkState w link up source at' now).watchdogRunning = w.watchdogRunning :=
  congrArg (fun f => f.2.2.1) (fixed_reportExternalLinkState w link up source at' now)

/-- Entering items from `t` on keeps what has been entered, and enters every direction among
them. -/
theorem heardFrom_reportItems {t : ℚ} {items : List (Link × Bool × ℚ)}
    (hitems : ∀ item ∈ items, t ≤ item.2.2) {w : Watch} (hrun : w.watchdogRunning = true) (now : ℚ)
    {link : Link} (h : HeardFrom t link w.beacons ∨ link ∈ items.map Prod.fst) :
    HeardFrom t link (reportItems w items now).beacons := by
  rw [reportItems]
  induction items generalizing w with
  | nil => exact h.resolve_right (List.not_mem_nil)
  | cons item items ih =>
    rw [List.foldl_cons]
    have hbeacons := beacons_reportExternalLinkState hrun item.1 item.2.1 "heartbeat" item.2.2 now
    refine ih (fun i hi => hitems i (List.mem_cons_of_mem _ hi)) ?_ ?_
    · rw [watchdogRunning_reportExternalLinkState]
      exact hrun
    · by_cases hlink : link = item.1
      · left
        rw [hbeacons, hlink]
        exact ⟨_, Dict.get?_set_self _ _ _,
          heardAt_evidenceEntry (hitems item List.mem_cons_self) _ _ _⟩
      · rw [List.map_cons, List.mem_cons, or_iff_right hlink] at h
        refine h.imp_left ?_
        rintro ⟨entry, hget, hheard⟩
        refine ⟨entry, ?_, hheard⟩
        rw [hbeacons, Dict.get?_set_of_ne _ _ hlink]
        exact hget

theorem evidenceItem_fst (epoch : ℚ) (link : Link) (last : Option ℚ) :
    (evidenceItem epoch link last).1 = link := by
  cases last with
  | none => rfl
  | some last =>
    rw [evidenceItem]
    split
    · rfl
    · rfl

theorem le_evidenceItem (epoch : ℚ) (link : Link) (last : Option ℚ) :
    epoch ≤ (evidenceItem epoch link last).2.2 := by
  cases last with
  | none => exact le_rfl
  | some last =>
    rw [evidenceItem]
    split
    · next hle => exact hle
    · exact le_rfl

/-- A poll names every declared direction, with a time from the epoch on. -/
theorem items_poll (ev : HeartbeatEvidence) (r : Report) :
    ∃ items, (ev.poll (.usable r)).2 = some items ∧ items.map Prod.fst = ev.declared ∧
      ∀ item ∈ items, (ev.poll (.usable r)).1.epoch ≤ item.2.2 := by
  refine ⟨_, rfl, ?_, ?_⟩
  · rw [List.map_map]
    exact (List.map_congr_left fun link _ => evidenceItem_fst _ link _).trans (List.map_id _)
  · intro item hitem
    obtain ⟨link, -, rfl⟩ := List.mem_map.mp hitem
    exact le_evidenceItem _ _ _

/-! ### What a pass of a fed fabric does -/

/-- The state with the evidence a poll has left. -/
def Watch.withEvidence (w : Watch) (ev : HeartbeatEvidence) : Watch :=
  { w with linkEvidence := some ev }

theorem ingest_usable {w : Watch} {ev : HeartbeatEvidence} (h : w.linkEvidence = some ev)
    (r : Report) (now : ℚ) :
    ∃ items, (ev.poll (.usable r)).2 = some items ∧
      ingestLinkEvidence w (.usable r) now =
        ({ reportItems (w.withEvidence (ev.poll (.usable r)).1) items now with
            evidenceJudgedAt := some now }, .time now) := by
  refine ⟨_, rfl, ?_⟩
  rw [ingestLinkEvidence, h]
  rfl

theorem ingest_unusable {w : Watch} {ev : HeartbeatEvidence} (h : w.linkEvidence = some ev)
    (now : ℚ) :
    ingestLinkEvidence w .unusable now =
      (w.withEvidence (ev.poll .unusable).1,
        match w.evidenceJudgedAt with
        | none => .nothing
        | some t => .time t) := by
  rw [ingestLinkEvidence, h]
  simp only [HeartbeatEvidence.poll, Watch.withEvidence]
  cases w.evidenceJudgedAt with
  | none => rfl
  | some t => rfl

/-- What holds of a fed fabric: its evidence is what its readings make it, its watchdog runs, and
every belief is the one of the last judgement. -/
structure Fed.Frozen (declared : List Link) (f : Fed) : Prop where
  evidence : f.watch.linkEvidence = some (HeartbeatEvidence.after { declared } f.readings)
  running : f.watch.watchdogRunning = true
  judged : ∀ t, f.watch.evidenceJudgedAt = some t → ∀ link entry,
    f.watch.beacons.get? link = some entry → entry.down = silent f.watch.beaconInterval t entry

variable {declared : List Link} {f : Fed}

theorem Fed.Frozen.poll (h : f.Frozen declared) (reading : Reading) :
    (f.step (.poll reading)).Frozen declared where
  evidence := by
    show f.watch.linkEvidence.map _ = some (HeartbeatEvidence.after _ (f.readings ++ [reading]))
    rw [h.evidence, after_append]
    rfl
  running := h.running
  judged := h.judged

/-- **An unusable reading changes no belief.** -/
theorem Fed.Frozen.pass_unusable (h : f.Frozen declared) (now : ℚ) (kernel : Option Kernel) :
    ∀ link, (f.pass .unusable now kernel).believesDown link = f.watch.believesDown link := by
  intro link
  have hin := ingest_unusable h.evidence now
  cases hat : f.watch.evidenceJudgedAt with
  | none =>
    rw [hat] at hin
    have hnone : judgedAt f.watch now .unusable = none := by rw [judgedAt, hin]
    rw [Fed.pass, runWatchdogPass_of_none _ _ _ _ _ hnone, hin]
    rfl
  | some t =>
    -- judged where every belief already was
    rw [hat] at hin
    have hsome : judgedAt f.watch now .unusable = some t := by rw [judgedAt, hin]
    rw [Fed.pass, runWatchdogPass_of_some _ _ _ _ _ hsome, hin, believesDown_eq, believesDown_eq]
    show (standing (checkLinkBeacons _ t kernel fun _ => []).watch.beacons link).down = _
    rw [down_standing_checkLinkBeacons]
    show (standing (Links.judged f.watch t) link).down = _
    cases hget : f.watch.beacons.get? link with
    | none =>
      rw [standing_judged_of_none _ _ hget, standing, hget]
      rfl
    | some entry =>
      rw [standing_judged _ _ hget, standing_of_get? hget]
      exact (h.judged t hat link entry hget).symm

/-- The pass with a usable reading judges the evidence it has just entered. -/
theorem pass_usable (h : f.Frozen declared) (r : Report) (now : ℚ) (kernel : Option Kernel) :
    ∃ u : Watch, f.pass (.usable r) now kernel = (checkLinkBeacons u now kernel fun _ => []).watch ∧
      u.linkEvidence = some (HeartbeatEvidence.after { declared } (f.readings ++ [Reading.usable r])) ∧
      u.evidenceJudgedAt = some now ∧ u.fixed.2.2 = f.watch.fixed.2.2 ∧
      standing u.beacons = standing f.watch.beacons ∧
      ∀ link ∈ declared, HeardFrom
        (HeartbeatEvidence.after { declared } (f.readings ++ [Reading.usable r])).epoch link u.beacons := by
  obtain ⟨items, hitems, hin⟩ := ingest_usable h.evidence r now
  have hafter : HeartbeatEvidence.after { declared } (f.readings ++ [Reading.usable r]) =
      ((HeartbeatEvidence.after { declared } f.readings).poll (.usable r)).1 := by
    rw [after_append]
    rfl
  have hsome : judgedAt f.watch now (.usable r) = some now := by rw [judgedAt, hin]
  have hfixed := fixed_reportItems (f.watch.withEvidence
    ((HeartbeatEvidence.after { declared } f.readings).poll (.usable r)).1) items now
  refine ⟨(ingestLinkEvidence f.watch (.usable r) now).1, ?_, ?_, ?_, ?_, ?_, ?_⟩
  · rw [Fed.pass, runWatchdogPass_of_some _ _ _ _ _ hsome]
  · rw [hin, hafter]
    exact congrArg (fun f => f.1) hfixed
  · rw [hin]
  · exact settings_ingestLinkEvidence _ _ _
  · exact standing_ingestLinkEvidence _ _ _
  · intro link hlink
    obtain ⟨items', hitems', hnames, htimes⟩ :=
      items_poll (HeartbeatEvidence.after { declared } f.readings) r
    rw [hitems] at hitems'
    cases hitems'
    rw [hin, hafter]
    have hrun : (f.watch.withEvidence
        ((HeartbeatEvidence.after { declared } f.readings).poll (.usable r)).1).watchdogRunning =
          true := h.running
    refine heardFrom_reportItems htimes hrun now (.inr ?_)
    rw [hnames, declared_after]
    exact hlink

/-- A judgement leaves every belief as the judgement it was. -/
theorem judged_of_check {u : Watch} {t : ℚ} {kernel : Option Kernel}
    (hat : u.evidenceJudgedAt = some t) (t' : ℚ)
    (h : (checkLinkBeacons u t kernel fun _ => []).watch.evidenceJudgedAt = some t') (link : Link)
    (entry : Beacon)
    (hget : (checkLinkBeacons u t kernel fun _ => []).watch.beacons.get? link = some entry) :
    entry.down =
      silent (checkLinkBeacons u t kernel fun _ => []).watch.beaconInterval t' entry := by
  have hfixed := fixed_checkLinkBeacons kernel (fun _ => []) u t
  have hat' : (checkLinkBeacons u t kernel fun _ => []).watch.evidenceJudgedAt =
      u.evidenceJudgedAt := congrArg (fun f => f.2.1) hfixed
  have hinterval : (checkLinkBeacons u t kernel fun _ => []).watch.beaconInterval =
      u.beaconInterval := congrArg (fun f => f.2.2.2.2) hfixed
  rw [hat', hat] at h
  cases h
  obtain ⟨old, -, -, hdown⟩ := get?_checkLinkBeacons hget
  rw [hinterval]
  exact hdown

/-- **One pass keeps a fed fabric frozen where its last judgement left it.** -/
theorem Fed.Frozen.pass (h : f.Frozen declared) (reading : Reading) (now : ℚ)
    (kernel : Option Kernel) : (f.step (.pass reading now kernel)).Frozen declared := by
  cases reading with
  | usable r =>
    obtain ⟨u, hpass, hev, hat, hset, -, -⟩ := pass_usable h r now kernel
    have hfixed := fixed_checkLinkBeacons kernel (fun _ => []) u now
    refine ⟨?_, ?_, ?_⟩
    · show (f.pass (.usable r) now kernel).linkEvidence = some _
      rw [hpass]
      exact (congrArg (fun f => f.1) hfixed).trans hev
    · show (f.pass (.usable r) now kernel).watchdogRunning = true
      rw [hpass]
      have hrun : u.watchdogRunning = f.watch.watchdogRunning := congrArg (fun f => f.1) hset
      exact (congrArg (fun f => f.2.2.1) hfixed).trans (hrun.trans h.running)
    · show ∀ t, (f.pass (.usable r) now kernel).evidenceJudgedAt = some t → ∀ link entry,
        (f.pass (.usable r) now kernel).beacons.get? link = some entry →
          entry.down = silent (f.pass (.usable r) now kernel).beaconInterval t entry
      rw [hpass]
      exact judged_of_check hat
  | unusable =>
    have hin := ingest_unusable h.evidence now
    have hev : some ((HeartbeatEvidence.after { declared } f.readings).poll .unusable).1 =
        some (HeartbeatEvidence.after { declared } (f.readings ++ [Reading.unusable])) := by
      rw [after_append]
      rfl
    cases hat : f.watch.evidenceJudgedAt with
    | none =>
      rw [hat] at hin
      have hnone : judgedAt f.watch now .unusable = none := by rw [judgedAt, hin]
      have hpass : f.pass .unusable now kernel = f.watch.withEvidence
          ((HeartbeatEvidence.after { declared } f.readings).poll .unusable).1 := by
        rw [Fed.pass, runWatchdogPass_of_none _ _ _ _ _ hnone, hin]
      refine ⟨?_, ?_, ?_⟩
      · show (f.pass .unusable now kernel).linkEvidence = _
        rw [hpass]
        exact hev
      · show (f.pass .unusable now kernel).watchdogRunning = true
        rw [hpass]
        exact h.running
      · show ∀ t, (f.pass .unusable now kernel).evidenceJudgedAt = some t → _
        rw [hpass]
        show ∀ t, f.watch.evidenceJudgedAt = some t → _
        rw [hat]
        simp
    | some t =>
      rw [hat] at hin
      have hsome : judgedAt f.watch now .unusable = some t := by rw [judgedAt, hin]
      have hpass : f.pass .unusable now kernel = (checkLinkBeacons (f.watch.withEvidence
          ((HeartbeatEvidence.after { declared } f.readings).poll .unusable).1) t kernel
            fun _ => []).watch := by
        rw [Fed.pass, runWatchdogPass_of_some _ _ _ _ _ hsome, hin]
      have hfixed := fixed_checkLinkBeacons kernel (fun _ => []) (f.watch.withEvidence
        ((HeartbeatEvidence.after { declared } f.readings).poll .unusable).1) t
      refine ⟨?_, ?_, ?_⟩
      · show (f.pass .unusable now kernel).linkEvidence = _
        rw [hpass]
        exact (congrArg (fun f => f.1) hfixed).trans hev
      · show (f.pass .unusable now kernel).watchdogRunning = true
        rw [hpass]
        exact (congrArg (fun f => f.2.2.1) hfixed).trans h.running
      · show ∀ t, (f.pass .unusable now kernel).evidenceJudgedAt = some t → ∀ link entry,
          (f.pass .unusable now kernel).beacons.get? link = some entry →
            entry.down = silent (f.pass .unusable now kernel).beaconInterval t entry
        rw [hpass]
        exact judged_of_check hat

theorem frozen_start (declared : List Link) (routesToAttachedHostsOnly : Bool)
    (beaconInterval : ℚ) :
    (Fed.start declared routesToAttachedHostsOnly beaconInterval).Frozen declared :=
  ⟨rfl, rfl, nofun⟩

theorem frozen_run (h : f.Frozen declared) (steps : List FedStep) :
    (f.run steps).Frozen declared := by
  induction steps generalizing f with
  | nil => exact h
  | cons step steps ih =>
    refine ih ?_
    cases step with
    | poll reading => exact h.poll reading
    | pass reading now kernel => exact h.pass reading now kernel

/-- **The heartbeat's silence is never charged to a link.**  In every run of a fed fabric, if a
pass with a usable reading calls a declared direction down, and in that session's readings since
it has been the session being read there was a gap, then the silence was counted from no earlier
than the reading that ended the last gap.  A pass with an unusable reading changes no belief. -/
theorem run_silence (declared : List Link) (routesToAttachedHostsOnly : Bool) (beaconInterval : ℚ)
    (steps : List FedStep) (now : ℚ) (kernel : Option Kernel) :
    let f := (Fed.start declared routesToAttachedHostsOnly beaconInterval).run steps
    (∀ r link back, link ∈ declared → f.watch.believesDown link = false →
      (f.pass (.usable r) now kernel).believesDown link = true →
      Resumed r.session (f.readings ++ [.usable r]) back →
        ∃ entry, (f.pass (.usable r) now kernel).beacons.get? link = some entry ∧
          linkTimeout (f.pass (.usable r) now kernel).beaconInterval entry < now - entry.heardAt ∧
          back.writtenMono ≤ entry.heardAt) ∧
      ∀ link, (f.pass .unusable now kernel).believesDown link = f.watch.believesDown link := by
  intro f
  have hf : f.Frozen declared := frozen_run (frozen_start declared _ _) steps
  refine ⟨?_, hf.pass_unusable now kernel⟩
  intro r link back hlink hup hdown hresumed
  obtain ⟨u, hpass, -, -, -, hstanding, hheard⟩ := pass_usable hf r now kernel
  obtain ⟨old, hold, hfrom⟩ := hheard link hlink
  rw [epoch_of_resumed _ hresumed] at hfrom
  rw [hpass] at hdown ⊢
  -- the direction was up before the judgement, so its time is from the epoch on
  have holdup : old.down = false := by
    have hsame := congrFun hstanding link
    rw [standing_of_get? hold] at hsame
    rw [believesDown_eq, ← hsame] at hup
    exact hup
  have hfixed := fixed_checkLinkBeacons kernel (fun _ => []) u now
  have hinterval : (checkLinkBeacons u now kernel fun _ => []).watch.beaconInterval =
      u.beaconInterval := congrArg (fun f => f.2.2.2.2) hfixed
  cases hget : (checkLinkBeacons u now kernel fun _ => []).watch.beacons.get? link with
  | none =>
    rw [Watch.believesDown, hget] at hdown
    cases hdown
  | some entry =>
    obtain ⟨old', hold', hsame, hsilent⟩ := get?_checkLinkBeacons hget
    rw [hold] at hold'
    cases hold'
    have hat : entry.heardAt = old.heardAt := congrArg Prod.fst hsame
    rw [Watch.believesDown, hget] at hdown
    have hdown' : entry.down = true := hdown
    rw [hsilent, silent, decide_eq_true_iff] at hdown'
    refine ⟨entry, rfl, ?_, ?_⟩
    · rw [hinterval]
      exact hdown'
    · rw [hat]
      exact hfrom holdup

/-- One direction of the only declared cable. -/
def onlyCable : Link := ⟨1, 1, 2, 1⟩

/-- A report of a daemon that started at 0 and heard the cable once, at 8. -/
def reportAt (written : ℚ) : Report := ⟨some "a", 0, written, fun _ => some 8⟩

/-- Heard, then a gap of readings, then back and silent for twenty seconds. -/
def gapRun : Fed :=
  (Fed.start [onlyCable] false 5).run
    [.pass (.usable (reportAt 10)) 10 none, .pass .unusable 20 none,
      .pass (.usable (reportAt 30)) 30 none]

/-- The cable is called down, and its silence was counted from the reading after the gap. -/
theorem gapRun_silence :
    gapRun.watch.believesDown onlyCable = false ∧
      (gapRun.pass (.usable (reportAt 50)) 50 none).believesDown onlyCable = true ∧
      ∃ entry, (gapRun.pass (.usable (reportAt 50)) 50 none).beacons.get? onlyCable = some entry ∧
        (30 : ℚ) ≤ entry.heardAt := by
  have hup : gapRun.watch.believesDown onlyCable = false := by decide +kernel
  have hdown : (gapRun.pass (.usable (reportAt 50)) 50 none).believesDown onlyCable = true := by
    decide +kernel
  have hresumed : Resumed (some "a") (gapRun.readings ++ [.usable (reportAt 50)]) (reportAt 30) := by
    refine ⟨[], reportAt 10, [], [.usable (reportAt 50)], rfl, ?_, by simp⟩
    intro q hq
    simp only [List.nil_append, List.mem_cons, Reading.usable.injEq, reduceCtorEq, false_or,
      List.not_mem_nil, or_false] at hq
    rcases hq with rfl | rfl | rfl
    · rfl
    · rfl
    · rfl
  obtain ⟨entry, hget, -, hfrom⟩ := (run_silence [onlyCable] false 5
    [.pass (.usable (reportAt 10)) 10 none, .pass .unusable 20 none,
      .pass (.usable (reportAt 30)) 30 none] 50 none).1 (reportAt 50) onlyCable (reportAt 30)
        (by simp) hup hdown hresumed
  exact ⟨hup, hdown, entry, hget, hfrom⟩

/-- A report of a daemon that started at 50 and has heard nothing. -/
def lateReport : Report := ⟨some "b", 50, 150, fun _ => none⟩

/-- A daemon that has started at 50 is first read at 150, after an unusable reading at 100.  The
cable is called down by a silence that counts from 50, not from the reading after the unusable
one. -/
theorem restarted_silence :
    let f := (Fed.start [onlyCable] false 5).run [.pass .unusable 100 none]
    lateReport.startedMono < 100 ∧ lateReport.startedMono ≤ lateReport.writtenMono ∧
      lateReport.writtenMono ≤ 150 ∧ f.readings = [.unusable] ∧
      f.watch.believesDown onlyCable = false ∧
      (f.pass (.usable lateReport) 150 none).believesDown onlyCable = true ∧
      ((f.pass (.usable lateReport) 150 none).beacons.get? onlyCable).map Beacon.heardAt =
        some 50 ∧
      (50 : ℚ) < lateReport.writtenMono := by
  refine ⟨?_, ?_, ?_, rfl, rfl, ?_, ?_, ?_⟩
  · decide +kernel
  · decide +kernel
  · decide +kernel
  · decide +kernel
  · decide +kernel
  · decide +kernel

end NDTwin.Links
