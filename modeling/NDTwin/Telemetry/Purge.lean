import NDTwin.Lib.Machine
import NDTwin.Telemetry.FlowTable

/-!
# Purging idle flows

One thread goes through the table of flows once a second and takes out those that were last seen
`FLOW_IDLE_TIMEOUT` ago.  It finds them under a shared lock, gives that lock up, and then erases them
one by one, each under a lock of its own.  Samples are entered in between, and an erasure does not
look again at what it erases.

A step is what happens under one lock.

## Main definitions

* `PurgeState`, `PurgeState.step` — the table and the pass in progress, one lock at a time.
* `lastSample` — when a flow was last seen, by what has happened.
* `PurgesOnlyIdle` — **every flow that is erased was last seen long enough ago.**
* `Unlisted` — a sample that is not of a flow that is about to be erased.

## Main results

* `Purging.step` — what every step keeps, and `Purging.Due.step` what a step keeps that meets the
  condition.
* `purgesOnlyIdle_of_unlisted` — runs of such steps purge only idle flows.
* `refreshed_flow_erased` — a flow that is seen again between the two locks is erased all the same.
-/

namespace NDTwin.Telemetry

open Machine

/-- `FLOW_IDLE_TIMEOUT`, in milliseconds. -/
def flowIdleTimeout : ℤ := 15000

/-- What a pass tests of a flow under the shared lock. -/
def FlowInfo.Idle (info : FlowInfo) (now : ℤ) : Prop :=
  ¬ now ≤ info.endTime ∧ flowIdleTimeout ≤ now - info.endTime

instance (info : FlowInfo) (now : ℤ) : Decidable (info.Idle now) :=
  inferInstanceAs (Decidable (¬ now ≤ info.endTime ∧ flowIdleTimeout ≤ now - info.endTime))

/-- The flows that a pass lists. -/
def idleFlows (table : FlowTable) (now : ℤ) : List FlowKey :=
  (table.entries.filter fun e => e.2.Idle now).map Prod.fst

theorem mem_idleFlows {table : FlowTable} {now : ℤ} {key : FlowKey} :
    key ∈ idleFlows table now ↔ ∃ info, table.get? key = some info ∧ info.Idle now := by
  simp only [idleFlows, List.mem_map, List.mem_filter, decide_eq_true_eq, Prod.exists,
    Dict.mem_entries_iff]
  constructor
  · rintro ⟨_, info, ⟨hinfo, hidle⟩, rfl⟩
    exact ⟨info, hinfo, hidle⟩
  · rintro ⟨info, hinfo, hidle⟩
    exact ⟨key, info, ⟨hinfo, hidle⟩, rfl⟩

/-- The table, the flows that the pass in progress has still to erase, and what the system clock last
showed. -/
structure PurgeState where
  table : FlowTable
  toRemove : List FlowKey
  clock : ℤ

/-- What happens under one lock, with the clock that is read there. -/
inductive PurgeAct where
  | sample (u : FlowUpdate)
  /-- A pass begins. -/
  | list (now : ℤ)
  /-- The next flow that it listed. -/
  | erase (now : ℤ)

namespace PurgeState

/-- A collector that was just made. -/
def start (clock : ℤ) : PurgeState := ⟨.empty, [], clock⟩

/-- One step.  The clock does not go back, and a pass begins when the one before has ended. -/
def step (s : PurgeState) : PurgeAct → Option PurgeState
  | .sample u =>
    if s.clock ≤ u.endedAt then
      some { s with table := noteSample s.table u, clock := u.endedAt }
    else none
  | .list now =>
    if s.clock ≤ now ∧ s.toRemove = [] then
      some { s with toRemove := idleFlows s.table now, clock := now }
    else none
  | .erase now =>
    match s.toRemove with
    | [] => none
    | key :: keys =>
      if s.clock ≤ now then some ⟨s.table.erase key, keys, now⟩ else none

/-- What a step can do. -/
theorem step_cases {s s' : PurgeState} {act : PurgeAct} (h : s.step act = some s') :
    (∃ u, act = .sample u ∧ s.clock ≤ u.endedAt ∧
        s' = { s with table := noteSample s.table u, clock := u.endedAt }) ∨
      (∃ now, act = .list now ∧ s.clock ≤ now ∧ s.toRemove = [] ∧
        s' = { s with toRemove := idleFlows s.table now, clock := now }) ∨
      ∃ now key keys, act = .erase now ∧ s.clock ≤ now ∧ s.toRemove = key :: keys ∧
        s' = ⟨s.table.erase key, keys, now⟩ := by
  cases act with
  | sample u =>
    simp only [step, Option.ite_none_right_eq_some, Option.some.injEq] at h
    exact .inl ⟨u, rfl, h.1, h.2.symm⟩
  | list now =>
    simp only [step, Option.ite_none_right_eq_some, Option.some.injEq] at h
    exact .inr (.inl ⟨now, rfl, h.1.1, h.1.2, h.2.symm⟩)
  | erase now =>
    simp only [step] at h
    cases hlist : s.toRemove with
    | nil => simp [hlist] at h
    | cons key keys =>
      simp only [hlist, Option.ite_none_right_eq_some, Option.some.injEq] at h
      exact .inr (.inr ⟨now, key, keys, rfl, h.1, rfl, h.2.symm⟩)

end PurgeState

/-! ### When a flow was last seen -/

/-- The sample that a step enters. -/
def PurgeAct.entered : PurgeAct → Option FlowUpdate
  | .sample u => some u
  | .list _ | .erase _ => none

/-- The system clock at the last sample of a flow. -/
def lastSample (tr : List PurgeAct) (key : FlowKey) : Option ℤ :=
  ((samplesOf key (tr.filterMap PurgeAct.entered)).getLast?).map (·.endedAt)

theorem lastSample_sample (tr : List PurgeAct) (u : FlowUpdate) (key : FlowKey) :
    lastSample (tr ++ [PurgeAct.sample u]) key =
      if u.flow? = some key then some u.endedAt else lastSample tr key := by
  have hlist : (tr ++ [PurgeAct.sample u]).filterMap PurgeAct.entered =
      tr.filterMap PurgeAct.entered ++ [u] := by
    rw [List.filterMap_append]
    rfl
  rw [lastSample, hlist, samplesOf_concat]
  by_cases hflow : u.flow? = some key
  · rw [if_pos hflow, if_pos hflow, List.getLast?_concat, Option.map_some]
  · rw [if_neg hflow, if_neg hflow, lastSample]

theorem lastSample_of_entered {act : PurgeAct} (hact : act.entered = none) (tr : List PurgeAct)
    (key : FlowKey) : lastSample (tr ++ [act]) key = lastSample tr key := by
  rw [lastSample, List.filterMap_append, List.filterMap_cons_none hact, List.filterMap_nil,
    List.append_nil, lastSample]

/-- **Only idle flows are purged.**  At every erasure of a run that finds its flow, the last sample of
that flow is at least `FLOW_IDLE_TIMEOUT` old. -/
def PurgesOnlyIdle (s₀ : PurgeState) (tr : List PurgeAct) : Prop :=
  ∀ before now, before ++ [.erase now] <+: tr →
    ∀ s key keys, run PurgeState.step s₀ before = some s → s.clock ≤ now →
      s.toRemove = key :: keys → (s.table.get? key).isSome →
      ∃ t, lastSample before key = some t ∧ flowIdleTimeout ≤ now - t

/-! ### What the steps keep -/

/-- The table has for each flow the time of its last sample, and that time is past. -/
structure Purging (tr : List PurgeAct) (s : PurgeState) : Prop where
  last : ∀ key info, s.table.get? key = some info → lastSample tr key = some info.endTime
  past : ∀ key info, s.table.get? key = some info → info.endTime ≤ s.clock

namespace Purging

theorem start (clock : ℤ) : Purging [] (PurgeState.start clock) where
  last _ _ h := absurd h (by simp [PurgeState.start])
  past _ _ h := absurd h (by simp [PurgeState.start])

theorem step {tr : List PurgeAct} {s s' : PurgeState} {act : PurgeAct} (h : Purging tr s)
    (hstep : s.step act = some s') : Purging (tr ++ [act]) s' := by
  obtain ⟨u, rfl, hclock, rfl⟩ | ⟨now, rfl, hclock, -, rfl⟩ |
    ⟨now, key₀, keys, rfl, hclock, -, rfl⟩ := PurgeState.step_cases hstep
  · refine ⟨?_, ?_⟩
    · intro key info hinfo
      rw [get?_noteSample] at hinfo
      rw [lastSample_sample]
      split at hinfo
      · next hflow =>
        cases hinfo
        rw [if_pos hflow, FlowUpdate.endTime_enter]
      · next hflow =>
        rw [if_neg hflow]
        exact h.last key info hinfo
    · intro key info hinfo
      rw [get?_noteSample] at hinfo
      split at hinfo
      · cases hinfo
        rw [FlowUpdate.endTime_enter]
      · exact (h.past key info hinfo).trans hclock
  · refine ⟨?_, ?_⟩
    · intro key info hinfo
      rw [lastSample_of_entered rfl]
      exact h.last key info hinfo
    · intro key info hinfo
      exact (h.past key info hinfo).trans hclock
  · refine ⟨?_, ?_⟩
    · intro key info hinfo
      rw [lastSample_of_entered rfl]
      rw [Dict.get?_erase] at hinfo
      split at hinfo
      · exact absurd hinfo (by simp)
      · exact h.last key info hinfo
    · intro key info hinfo
      rw [Dict.get?_erase] at hinfo
      split at hinfo
      · exact absurd hinfo (by simp)
      · exact (h.past key info hinfo).trans hclock

end Purging

/-- A sample is not of a flow that the pass in progress has listed and not yet erased. -/
def Unlisted (s : PurgeState) : PurgeAct → Prop
  | .sample u => ∀ key ∈ s.toRemove, u.flow? ≠ some key
  | .list _ | .erase _ => True

/-- The flows that are listed are still idle. -/
def Due (s : PurgeState) : Prop :=
  ∀ key ∈ s.toRemove, ∀ info, s.table.get? key = some info →
    flowIdleTimeout ≤ s.clock - info.endTime

/-- A listed flow stays idle as long as no sample of it arrives: its time does not change, and the
clock goes on. -/
theorem Due.step {s s' : PurgeState} {act : PurgeAct} (h : Due s) (hok : Unlisted s act)
    (hstep : s.step act = some s') : Due s' := by
  obtain ⟨u, rfl, hclock, rfl⟩ | ⟨now, rfl, hclock, -, rfl⟩ |
    ⟨now, key₀, keys, rfl, hclock, hlist, rfl⟩ := PurgeState.step_cases hstep
  · intro key hkey info hinfo
    rw [get?_noteSample, if_neg (hok key hkey)] at hinfo
    have hbefore := h key hkey info hinfo
    show flowIdleTimeout ≤ u.endedAt - info.endTime
    omega
  · intro key hkey info hinfo
    obtain ⟨info', hinfo', hidle⟩ := mem_idleFlows.mp hkey
    have hsame : info' = info := Option.some.inj (hinfo'.symm.trans hinfo)
    exact hsame ▸ hidle.2
  · intro key hkey info hinfo
    rw [Dict.get?_erase] at hinfo
    split at hinfo
    · exact absurd hinfo (by simp)
    · have hbefore := h key (hlist ▸ List.mem_cons_of_mem _ hkey) info hinfo
      show flowIdleTimeout ≤ now - info.endTime
      omega

/-- What holds in every state of a run in which no sample arrives for a listed flow. -/
theorem purging_due {clock : ℤ} {tr : List PurgeAct} {s : PurgeState}
    (hok : Guarded PurgeState.step Unlisted (PurgeState.start clock) tr)
    (h : run PurgeState.step (PurgeState.start clock) tr = some s) : Purging tr s ∧ Due s := by
  refine Guarded.invariant (P := fun tr s => Purging tr s ∧ Due s) ⟨Purging.start clock, ?_⟩ ?_ hok h
  · intro key hkey
    exact absurd hkey List.not_mem_nil
  · intro tr s act s' hact hs hstep
    exact ⟨hs.1.step hstep, hs.2.step hact hstep⟩

/-- **Only idle flows are purged**, by every run in which no sample arrives for a flow between the
moment a pass lists it and its erasure. -/
theorem purgesOnlyIdle_of_unlisted (clock : ℤ) (tr : List PurgeAct)
    (hok : Guarded PurgeState.step Unlisted (PurgeState.start clock) tr) :
    PurgesOnlyIdle (PurgeState.start clock) tr := by
  intro before now hbefore s key keys hrun hclock hlist hfound
  have hguarded : Guarded PurgeState.step Unlisted (PurgeState.start clock) before := by
    intro first act hfirst
    exact hok first act (hfirst.trans ((List.prefix_append _ _).trans hbefore))
  obtain ⟨hpurging, hdue⟩ := purging_due hguarded hrun
  obtain ⟨info, hinfo⟩ := Option.isSome_iff_exists.mp hfound
  have hidle := hdue key (hlist ▸ List.mem_cons_self) info hinfo
  refine ⟨info.endTime, hpurging.last key info hinfo, ?_⟩
  omega

/-! ### A flow that comes back -/

local instance neZero_four : NeZero 4 := ⟨by decide⟩

/-- A flow that was idle is seen again while the pass goes on. -/
def seenAgain : List PurgeAct :=
  [.sample (udpSample 1 0), .list 15000, .sample (udpSample 1 15000), .erase 15001]

/-- **The flow is erased a millisecond after its last sample.** -/
theorem refreshed_flow_erased : ¬ PurgesOnlyIdle (PurgeState.start 0) seenAgain := by
  intro h
  have herased := h [.sample (udpSample 1 0), .list 15000, .sample (udpSample 1 15000)] 15001
    List.prefix_rfl _ udpFlow [] rfl (by decide) rfl rfl
  obtain ⟨t, hlast, hidle⟩ := herased
  have ht : (15000 : ℤ) = t := Option.some.inj hlast
  rw [← ht] at hidle
  exact absurd hidle (by decide)

/-- The same without the second sample, and the flow goes. -/
theorem purgesOnlyIdle_of_unlisted_once :
    PurgesOnlyIdle (PurgeState.start 0) [.sample (udpSample 1 0), .list 15000, .erase 15001] ∧
      (run PurgeState.step (PurgeState.start 0)
        [.sample (udpSample 1 0), .list 15000, .erase 15001]).map (·.table.keys) = some [] := by
  refine ⟨purgesOnlyIdle_of_unlisted 0 _ ?_, rfl⟩
  exact guarded_cons (fun _ hkey => absurd hkey List.not_mem_nil) rfl
    (guarded_cons trivial rfl (guarded_cons trivial rfl (guarded_nil _ _)))

end NDTwin.Telemetry
