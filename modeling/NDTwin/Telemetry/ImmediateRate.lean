import Mathlib.Algebra.BigOperators.Ring.List
import Mathlib.Data.List.Dedup
import NDTwin.Telemetry.FlowTable

/-!
# The immediate rate of a flow

When it is asked for, the rate of a flow is worked out from the queues of the interfaces that reported
it: the sums of the queues, scaled by the sampling rates, are averaged over the interfaces that saw the
flow within the last second.  Whether an interface is one of these is asked of the size of its queue,
which is not brought up to date until the sum is taken.  An interface with lengths that are all too old
adds nothing to the total and is counted.

## Main definitions

* `calAvgFlowSendingRatesImmediately` — the rates of all flows.
* `RateAct`, `tableAfter`, `ClockInOrder` — samples and earlier calls, at times that do not go back.
* `activeHops`, `windowedBits`, `windowedPackets`, `averageOver` — the average over the interfaces
  that saw the flow, by what has happened.
* `Windowed` — **a queue has what is in the window.**
* `staleHops` — the interfaces whose lengths are all too old.
* `Undiluted` — when these, and the width of a `uint64_t`, do not change the average.

## Main results

* `hopsKept_tableAfter` — after every history, each queue has what is in the window.
* `calFlow_rates` — what the rates of a flow come out as.
* `immediateRate_iff` — **when they are the average**, for every history and every flow.
* `stale_hop_counted` — a flow whose rate is halved by an interface that it has left.
-/

namespace NDTwin.Telemetry

open Fixed

/-! ### The function -/

/-- `MICE_FLOW_UNDER_THRESHOLD`. -/
def miceFlowUnderThreshold : ℕ := 10000000

/-- The rates of a flow, and whether there are any. -/
structure EstimatedRates where
  flowSendingRate : ℕ := 0
  packetSendingRate : ℕ := 0
  hasActiveHops : Bool := false

/-- `computeEstimatedRates(accumulatedFlowRate, accumulatedPacketRate, hopsCounter)`. -/
def computeEstimatedRates (flowRate packetRate : ℕ) (hopsCounter : ℤ) : EstimatedRates :=
  if hopsCounter ≤ 0 then {}
  else ⟨flowRate / hopsCounter.toNat, packetRate / hopsCounter.toNat, true⟩

/-- `currentSamplingRate`. -/
def FlowStats.currentSamplingRate (stats : FlowStats) : ℕ :=
  if 0 < stats.samplingRate then stats.samplingRate else 1

/-- What is accumulated over the interfaces of a flow: two `uint64_t` and an `int`. -/
structure Accumulated where
  estimatedBytes : ℕ
  estimatedPackets : ℕ
  hopsCounter : ℤ

/-- One interface.  The size is asked for before the queue is refreshed, and again after. -/
def addHop (now : ℤ) (acc : Accumulated) (stats : FlowStats) : Accumulated :=
  if stats.packetQueue.size ≠ 0 then
    let (sum, queue) := stats.packetQueue.getSum now
    { hopsCounter := succS 32 acc.hopsCounter
      estimatedBytes :=
        (acc.estimatedBytes + sum * stats.currentSamplingRate % 2 ^ 64) % 2 ^ 64
      estimatedPackets :=
        (acc.estimatedPackets + queue.size * stats.currentSamplingRate % 2 ^ 64) % 2 ^ 64 }
  else acc

/-- What the call leaves of an interface. -/
def refreshHop (now : ℤ) (stats : FlowStats) : FlowStats :=
  if stats.packetQueue.size ≠ 0 then
    { stats with packetQueue := (stats.packetQueue.getSum now).2 }
  else stats

/-- One flow. -/
def calFlow (now : ℤ) (info : FlowInfo) : FlowInfo :=
  let acc := info.agentFlowStats.entries.foldl (fun acc e => addHop now acc e.2) ⟨0, 0, 0⟩
  let rates := computeEstimatedRates (acc.estimatedBytes * 8 % 2 ^ 64) acc.estimatedPackets
    acc.hopsCounter
  let info := { info with agentFlowStats := info.agentFlowStats.mapValues (refreshHop now) }
  if rates.hasActiveHops then
    { info with
      estimatedFlowSendingRateImmediately := rates.flowSendingRate
      isElephantFlowImmediately := miceFlowUnderThreshold ≤ rates.flowSendingRate
      estimatedPacketSendingRateImmediately := rates.packetSendingRate }
  else
    { info with
      estimatedFlowSendingRateImmediately := 0
      estimatedPacketSendingRateImmediately := 0
      isElephantFlowImmediately := false }

/-- `calAvgFlowSendingRatesImmediately()`, when the steady clock shows `now`. -/
def calAvgFlowSendingRatesImmediately (now : ℤ) (table : FlowTable) : FlowTable :=
  table.mapValues (calFlow now)

/-! ### Histories -/

/-- What happens to the table. -/
inductive RateAct where
  | sample (u : FlowUpdate)
  | calculate (now : ℤ)

namespace RateAct

/-- What it does. -/
def act (table : FlowTable) : RateAct → FlowTable
  | .sample u => noteSample table u
  | .calculate now => calAvgFlowSendingRatesImmediately now table

/-- The sample that is entered. -/
def entered : RateAct → Option FlowUpdate
  | .sample u => some u
  | .calculate _ => none

/-- The first reading of the steady clock. -/
def began : RateAct → ℤ
  | .sample u => u.sampledAt
  | .calculate now => now

/-- The last reading of the steady clock. -/
def ended : RateAct → ℤ
  | .sample u => u.refreshedAt
  | .calculate now => now

end RateAct

/-- The table after a history. -/
def tableAfter (tr : List RateAct) : FlowTable := tr.foldl RateAct.act .empty

/-- The steady clock does not go back. -/
def ClockInOrder (tr : List RateAct) : Prop := tr.Pairwise fun a b => a.ended ≤ b.began

instance (tr : List RateAct) : Decidable (ClockInOrder tr) :=
  inferInstanceAs (Decidable (tr.Pairwise fun a b => a.ended ≤ b.began))

/-- The samples of a flow in a history. -/
def flowSamples (tr : List RateAct) (key : FlowKey) : List FlowUpdate :=
  samplesOf key (tr.filterMap RateAct.entered)

/-! ### The average -/

section Average

variable (us : List FlowUpdate)

/-- The samples that one interface took. -/
def takenBy (hop : AgentKey) : List FlowUpdate := us.filter fun u => u.agentKey = hop

/-- The lengths that one interface reported. -/
def reportsOf (hop : AgentKey) : List ExtractedSFlowData :=
  (takenBy us hop).map FlowUpdate.reported

/-- The lengths in the window. -/
def windowOf (now : ℤ) (hop : AgentKey) : List ExtractedSFlowData :=
  (reportsOf us hop).filter fun x => ¬ x.Expired now

/-- The sampling rate of an interface, which its last sample tells; 0 stands for no sampling. -/
def hopRate (hop : AgentKey) : ℕ :=
  let rate := (((takenBy us hop).getLast?).map (·.samplingRate)).getD 1
  if 0 < rate then rate else 1

/-- The interfaces with a sample in the window. -/
def activeHops (now : ℤ) : List AgentKey :=
  ((us.map (·.agentKey)).dedup).filter fun hop => windowOf us now hop ≠ []

/-- The bits of the window, scaled up and over all these interfaces. -/
def windowedBits (now : ℤ) : ℕ :=
  ((activeHops us now).map fun hop =>
    8 * AutoRefreshQueue.bytes (windowOf us now hop) * hopRate us hop).sum

/-- The same with the number of samples. -/
def windowedPackets (now : ℤ) : ℕ :=
  ((activeHops us now).map fun hop => (windowOf us now hop).length * hopRate us hop).sum

end Average

/-- An average that is 0 where there is nothing to average. -/
def averageOver (hops total : ℕ) : ℕ := if hops = 0 then 0 else total / hops

/-! ### What is in a queue -/

/-- **A queue has what is in the window** of the lengths that were reported: at `now`, and at every
time after. -/
structure Windowed (now : ℤ) (reports : List ExtractedSFlowData) (q : AutoRefreshQueue) : Prop where
  summed : q.Summed
  sorted : q.Sorted
  past : ∀ x ∈ q.queue, x.timestampInMilliseconds ≤ now
  window : ∀ t, now ≤ t →
    (q.queue.filter fun x => ¬ x.Expired t) = reports.filter fun x => ¬ x.Expired t

namespace Windowed

variable {now now' : ℤ} {reports : List ExtractedSFlowData} {q : AutoRefreshQueue}

theorem empty (now : ℤ) : Windowed now [] {} where
  summed := rfl
  sorted := .nil
  past _ hx := absurd hx List.not_mem_nil
  window _ _ := rfl

theorem mono (h : Windowed now reports q) (hle : now ≤ now') : Windowed now' reports q :=
  { h with
    past := fun x hx => (h.past x hx).trans hle
    window := fun t ht => h.window t (hle.trans ht) }

/-- What is not expired at a later time is not expired at an earlier one. -/
theorem filter_filter_expired {t : ℤ} (ht : now ≤ t) (xs : List ExtractedSFlowData) :
    ((xs.filter fun x => ¬ x.Expired now).filter fun x => ¬ x.Expired t) =
      xs.filter fun x => ¬ x.Expired t := by
  rw [List.filter_filter]
  refine List.filter_congr ?_
  intro x _
  by_cases hx : x.Expired now
  · simp [hx, hx.mono ht]
  · simp [hx]

theorem refresh (h : Windowed now reports q) (hle : now ≤ now') :
    Windowed now' reports (q.refresh now') := by
  have hqueue := AutoRefreshQueue.queue_refresh h.sorted now'
  refine ⟨h.summed.refresh now', ?_, ?_, ?_⟩
  · rw [AutoRefreshQueue.Sorted, hqueue]
    exact h.sorted.filter _
  · intro x hx
    rw [hqueue] at hx
    exact (h.past x (List.mem_filter.mp hx).1).trans hle
  · intro t ht
    rw [hqueue, filter_filter_expired ht]
    exact h.window t (hle.trans ht)

/-- A length that is added is the newest. -/
theorem concat (h : Windowed now reports q) {x : ExtractedSFlowData}
    (hx : now ≤ x.timestampInMilliseconds) :
    Windowed x.timestampInMilliseconds (reports ++ [x])
      ⟨q.queue ++ [x], (q.sum + x.packetFrameLengthInByte) % 2 ^ 64⟩ := by
  refine ⟨?_, ?_, ?_, ?_⟩
  · rw [AutoRefreshQueue.Summed, h.summed, AutoRefreshQueue.bytes_append,
      AutoRefreshQueue.bytes_cons]
    simp [AutoRefreshQueue.bytes, Nat.add_mod]
  · refine List.pairwise_append.mpr ⟨h.sorted, List.pairwise_singleton _ _, ?_⟩
    intro y hy z hz
    rw [List.mem_singleton.mp hz]
    exact (h.past y hy).trans hx
  · intro y hy
    rcases List.mem_append.mp hy with hy | hy
    · exact (h.past y hy).trans hx
    · rw [List.mem_singleton.mp hy]
  · intro t ht
    rw [List.filter_append, List.filter_append, h.window t (hx.trans ht)]

theorem push (h : Windowed now reports q) {x : ExtractedSFlowData}
    (hx : now ≤ x.timestampInMilliseconds) (hle : x.timestampInMilliseconds ≤ now') :
    Windowed now' (reports ++ [x]) (q.push x now') :=
  (h.concat hx).refresh hle

end Windowed

/-! ### What is kept of a flow -/

/-- The interfaces of a flow after its samples `us`: each that took one has the window of the lengths
that it reported, and the rate of its last sample. -/
structure HopsKept (now : ℤ) (us : List FlowUpdate) (stats : Dict AgentKey FlowStats) : Prop where
  known : ∀ hop, (stats.get? hop).isSome ↔ hop ∈ us.map (·.agentKey)
  window : ∀ hop st, stats.get? hop = some st → Windowed now (reportsOf us hop) st.packetQueue
  rate : ∀ hop st, stats.get? hop = some st → st.currentSamplingRate = hopRate us hop

theorem takenBy_concat (us : List FlowUpdate) (u : FlowUpdate) (hop : AgentKey) :
    takenBy (us ++ [u]) hop = if u.agentKey = hop then takenBy us hop ++ [u] else takenBy us hop := by
  rw [takenBy, List.filter_append]
  by_cases hhop : u.agentKey = hop
  · simp [hhop, takenBy]
  · simp [hhop, takenBy]

theorem takenBy_eq_nil {us : List FlowUpdate} {hop : AgentKey}
    (h : hop ∉ us.map (·.agentKey)) : takenBy us hop = [] := by
  refine List.filter_eq_nil_iff.mpr ?_
  intro u hu
  have hne : u.agentKey ≠ hop := fun heq => h (List.mem_map.mpr ⟨u, hu, heq⟩)
  simpa using hne

namespace HopsKept

variable {now now' : ℤ} {us : List FlowUpdate} {stats : Dict AgentKey FlowStats}

theorem empty (now : ℤ) : HopsKept now [] .empty where
  known hop := by simp
  window _ _ h := absurd h (by simp)
  rate _ _ h := absurd h (by simp)

theorem mono (h : HopsKept now us stats) (hle : now ≤ now') : HopsKept now' us stats :=
  { h with window := fun hop st hst => (h.window hop st hst).mono hle }

/-- The queue of an interface before a sample, which is empty where the interface is new. -/
theorem windowed_getD (h : HopsKept now us stats) (hop : AgentKey) :
    Windowed now (reportsOf us hop) ((stats.get? hop).getD {}).packetQueue := by
  cases hst : stats.get? hop with
  | some st => exact h.window hop st hst
  | none =>
    have hnew : hop ∉ us.map (·.agentKey) := by
      rw [← h.known, hst]
      simp
    rw [reportsOf, takenBy_eq_nil hnew]
    exact Windowed.empty now

/-- A sample, for an interface whose counters may begin anew. -/
theorem set (h : HopsKept now us stats) {u : FlowUpdate} (hu : now ≤ u.sampledAt) {st : FlowStats}
    (hrate : st.samplingRate = u.samplingRate)
    (hqueue : st.packetQueue =
      ((stats.get? u.agentKey).getD {}).packetQueue.push u.reported u.refreshedAt) :
    HopsKept u.refreshedAt (us ++ [u]) (stats.set u.agentKey st) := by
  have hlater : now ≤ u.refreshedAt := hu.trans u.sampledAt_le
  refine ⟨?_, ?_, ?_⟩
  · intro hop
    rw [Dict.get?_set, List.map_append, List.mem_append, ← h.known]
    by_cases hhop : hop = u.agentKey
    · simp [hhop]
    · simp [hhop]
  · intro hop st' hst'
    rw [Dict.get?_set] at hst'
    rw [reportsOf, takenBy_concat]
    by_cases hhop : hop = u.agentKey
    · rw [if_pos hhop, Option.some_inj] at hst'
      rw [if_pos hhop.symm, List.map_append, ← hst', hqueue, hhop]
      exact (h.windowed_getD u.agentKey).push hu u.sampledAt_le
    · rw [if_neg hhop] at hst'
      rw [if_neg (Ne.symm hhop)]
      exact (h.window hop st' hst').mono hlater
  · intro hop st' hst'
    rw [Dict.get?_set] at hst'
    unfold hopRate
    rw [takenBy_concat]
    by_cases hhop : hop = u.agentKey
    · rw [if_pos hhop, Option.some_inj] at hst'
      rw [if_pos hhop.symm, List.getLast?_concat, ← hst', FlowStats.currentSamplingRate, hrate]
      rfl
    · rw [if_neg hhop] at hst'
      rw [if_neg (Ne.symm hhop)]
      exact h.rate hop st' hst'

theorem refresh (h : HopsKept now us stats) (hle : now ≤ now') :
    HopsKept now' us (stats.mapValues (refreshHop now')) := by
  refine ⟨?_, ?_, ?_⟩
  · intro hop
    rw [Dict.get?_mapValues, Option.isSome_map, h.known]
  · intro hop st' hst'
    rw [Dict.get?_mapValues] at hst'
    obtain ⟨st, hst, rfl⟩ := Option.map_eq_some_iff.mp hst'
    unfold refreshHop
    split
    · exact (h.window hop st hst).refresh hle
    · exact (h.window hop st hst).mono hle
  · intro hop st' hst'
    rw [Dict.get?_mapValues] at hst'
    obtain ⟨st, hst, rfl⟩ := Option.map_eq_some_iff.mp hst'
    rw [← h.rate hop st hst, FlowStats.currentSamplingRate, FlowStats.currentSamplingRate]
    unfold refreshHop
    split <;> rfl

end HopsKept

/-- The same for a flow that may not be there. -/
def FlowKept (now : ℤ) (us : List FlowUpdate) : Option FlowInfo → Prop
  | some info => HopsKept now us info.agentFlowStats
  | none => us = []

theorem FlowKept.mono {now now' : ℤ} {us : List FlowUpdate} {info : Option FlowInfo}
    (h : FlowKept now us info) (hle : now ≤ now') : FlowKept now' us info := by
  cases info with
  | some info => exact HopsKept.mono h hle
  | none => exact h

theorem FlowKept.enter {now : ℤ} {us : List FlowUpdate} {info : Option FlowInfo}
    (h : FlowKept now us info) {u : FlowUpdate} (hu : now ≤ u.sampledAt) :
    FlowKept u.refreshedAt (us ++ [u]) (some (u.enter info)) := by
  cases info with
  | some info =>
    exact HopsKept.set h hu (u.samplingRate_addTo _) (u.packetQueue_addTo _)
  | none =>
    obtain rfl : us = [] := h
    exact (HopsKept.empty now).set hu rfl rfl

theorem agentFlowStats_calFlow (now : ℤ) (info : FlowInfo) :
    (calFlow now info).agentFlowStats = info.agentFlowStats.mapValues (refreshHop now) := by
  unfold calFlow
  dsimp only
  split <;> rfl

theorem FlowKept.calculate {now now' : ℤ} {us : List FlowUpdate} {info : Option FlowInfo}
    (h : FlowKept now us info) (hle : now ≤ now') : FlowKept now' us (info.map (calFlow now')) := by
  cases info with
  | some info =>
    show HopsKept now' us (calFlow now' info).agentFlowStats
    rw [agentFlowStats_calFlow]
    exact HopsKept.refresh h hle
  | none => exact h

theorem tableAfter_concat (tr : List RateAct) (a : RateAct) :
    tableAfter (tr ++ [a]) = a.act (tableAfter tr) := by
  rw [tableAfter, List.foldl_append]
  rfl

theorem flowSamples_sample (tr : List RateAct) (u : FlowUpdate) (key : FlowKey) :
    flowSamples (tr ++ [RateAct.sample u]) key =
      if u.flow? = some key then flowSamples tr key ++ [u] else flowSamples tr key := by
  have hlist : (tr ++ [RateAct.sample u]).filterMap RateAct.entered =
      tr.filterMap RateAct.entered ++ [u] := by
    rw [List.filterMap_append]
    rfl
  rw [flowSamples, hlist, samplesOf_concat, flowSamples]

theorem flowSamples_calculate (tr : List RateAct) (now : ℤ) (key : FlowKey) :
    flowSamples (tr ++ [RateAct.calculate now]) key = flowSamples tr key := by
  rw [flowSamples, List.filterMap_append, List.filterMap_cons_none rfl, List.filterMap_nil,
    List.append_nil, flowSamples]

/-- One thing that happens, to every flow. -/
theorem flowKept_act {now : ℤ} {tr : List RateAct} {a : RateAct}
    (h : ∀ key, FlowKept now (flowSamples tr key) ((tableAfter tr).get? key)) (ha : now ≤ a.began)
    (key : FlowKey) :
    FlowKept a.ended (flowSamples (tr ++ [a]) key) ((tableAfter (tr ++ [a])).get? key) := by
  rw [tableAfter_concat]
  cases a with
  | sample u =>
    rw [flowSamples_sample, RateAct.act, get?_noteSample]
    by_cases hflow : u.flow? = some key
    · rw [if_pos hflow, if_pos hflow]
      exact (h key).enter ha
    · rw [if_neg hflow, if_neg hflow]
      exact (h key).mono (ha.trans u.sampledAt_le)
  | calculate now' =>
    rw [flowSamples_calculate, RateAct.act, calAvgFlowSendingRatesImmediately, Dict.get?_mapValues]
    exact (h key).calculate ha

/-- **After every history each queue has what is in the window.** -/
theorem flowKept_tableAfter {tr : List RateAct} (horder : ClockInOrder tr) {now : ℤ}
    (hnow : ∀ a ∈ tr, a.ended ≤ now) (key : FlowKey) :
    FlowKept now (flowSamples tr key) ((tableAfter tr).get? key) := by
  induction tr using List.reverseRecOn generalizing now key with
  | nil => rfl
  | append_singleton tr a ih =>
    obtain ⟨htr, -, hlast⟩ := List.pairwise_append.mp horder
    have hbefore : ∀ b ∈ tr, b.ended ≤ a.began := fun b hb => hlast b hb a (List.mem_singleton_self a)
    exact (flowKept_act (fun key => ih htr hbefore key) le_rfl key).mono (hnow a (by simp))

/-! ### What the loop accumulates -/

/-- What is left of a queue when it is refreshed. -/
def FlowStats.windowAt (now : ℤ) (st : FlowStats) : List ExtractedSFlowData :=
  st.packetQueue.queue.filter fun x => ¬ x.Expired now

/-- The queue has lengths, and all of them are too old. -/
def FlowStats.Stale (now : ℤ) (st : FlowStats) : Prop :=
  st.packetQueue.queue ≠ [] ∧ ∀ x ∈ st.packetQueue.queue, x.Expired now

instance (now : ℤ) (st : FlowStats) : Decidable (st.Stale now) :=
  inferInstanceAs (Decidable (_ ∧ _))

/-- The interfaces of a flow that have only lengths that are too old. -/
def staleHops (now : ℤ) (info : FlowInfo) : ℕ :=
  info.agentFlowStats.entries.countP fun e => e.2.Stale now

theorem addHop_eq {now : ℤ} {st : FlowStats} (hsummed : st.packetQueue.Summed)
    (hsorted : st.packetQueue.Sorted) (b p h : ℕ) :
    addHop now ⟨b % 2 ^ 64, p % 2 ^ 64, (h : ℤ).bmod (2 ^ 32)⟩ st =
      ⟨(b + AutoRefreshQueue.bytes (st.windowAt now) * st.currentSamplingRate) % 2 ^ 64,
        (p + (st.windowAt now).length * st.currentSamplingRate) % 2 ^ 64,
        ((h + ((if st.windowAt now ≠ [] then 1 else 0) + if st.Stale now then 1 else 0) : ℕ) :
          ℤ).bmod (2 ^ 32)⟩ := by
  have hqueue : (st.packetQueue.refresh now).queue = st.windowAt now :=
    AutoRefreshQueue.queue_refresh hsorted now
  have hsum : (st.packetQueue.refresh now).sum =
      AutoRefreshQueue.bytes (st.windowAt now) % 2 ^ 64 := by
    rw [← hqueue]
    exact hsummed.refresh now
  unfold addHop
  by_cases hempty : st.packetQueue.queue = []
  · have hwindow : st.windowAt now = [] := by rw [FlowStats.windowAt, hempty]; rfl
    have hfresh : ¬ st.Stale now := fun hstale => hstale.1 hempty
    rw [if_neg (by simp [AutoRefreshQueue.size, hempty]), hwindow, if_neg hfresh]
    simp [AutoRefreshQueue.bytes]
  · -- of the two ways in which an interface is counted just one is the case
    have hcount : (if st.windowAt now ≠ [] then 1 else 0) + (if st.Stale now then 1 else 0) = 1 := by
      have hiff : st.Stale now ↔ st.windowAt now = [] := by
        rw [FlowStats.Stale, FlowStats.windowAt, List.filter_eq_nil_iff]
        simp [hempty]
      by_cases hwindow : st.windowAt now = []
      · simp [hwindow, hiff]
      · simp [hwindow, hiff]
    rw [if_pos (by simpa [AutoRefreshQueue.size] using hempty), hcount]
    simp only [AutoRefreshQueue.getSum, AutoRefreshQueue.size, hsum, hqueue, succS_bmod]
    simp [Nat.add_mod, Nat.mul_mod]

theorem foldl_addHop (now : ℤ) {es : List (AgentKey × FlowStats)}
    (hes : ∀ e ∈ es, e.2.packetQueue.Summed ∧ e.2.packetQueue.Sorted) (b p h : ℕ) :
    es.foldl (fun acc e => addHop now acc e.2) ⟨b % 2 ^ 64, p % 2 ^ 64, (h : ℤ).bmod (2 ^ 32)⟩ =
      ⟨(b + (es.map fun e =>
          AutoRefreshQueue.bytes (e.2.windowAt now) * e.2.currentSamplingRate).sum) % 2 ^ 64,
        (p + (es.map fun e => (e.2.windowAt now).length * e.2.currentSamplingRate).sum) % 2 ^ 64,
        ((h + (es.countP (fun e => e.2.windowAt now ≠ []) + es.countP fun e => e.2.Stale now) : ℕ) :
          ℤ).bmod (2 ^ 32)⟩ := by
  induction es generalizing b p h with
  | nil => simp
  | cons e es ih =>
    obtain ⟨hsummed, hsorted⟩ := hes e List.mem_cons_self
    have hrest := ih fun e' he' => hes e' (List.mem_cons_of_mem _ he')
    rw [List.foldl_cons, addHop_eq hsummed hsorted, hrest]
    simp only [List.map_cons, List.sum_cons, List.countP_cons, decide_eq_true_eq]
    refine (Accumulated.mk.injEq ..).mpr ⟨?_, ?_, ?_⟩
    · rw [Nat.add_assoc]
    · rw [Nat.add_assoc]
    · refine congrArg (fun n : ℕ => (n : ℤ).bmod (2 ^ 32)) ?_
      omega

/-- The rates are the averages of what was accumulated. -/
theorem calFlow_average (now : ℤ) (info : FlowInfo) :
    let acc := info.agentFlowStats.entries.foldl (fun acc e => addHop now acc e.2) ⟨0, 0, 0⟩
    (calFlow now info).estimatedFlowSendingRateImmediately =
        averageOver acc.hopsCounter.toNat (acc.estimatedBytes * 8 % 2 ^ 64) ∧
      (calFlow now info).estimatedPacketSendingRateImmediately =
        averageOver acc.hopsCounter.toNat acc.estimatedPackets := by
  intro acc
  unfold calFlow computeEstimatedRates averageOver
  dsimp only
  by_cases hnone : acc.hopsCounter ≤ 0
  · simp [acc, hnone]
  · simp [acc, hnone]

/-! ### The interfaces of the table and those of the history -/

theorem sum_map_filter {α : Type*} {p : α → Bool} {f : α → ℕ} {xs : List α}
    (h : ∀ x ∈ xs, p x = false → f x = 0) : ((xs.filter p).map f).sum = (xs.map f).sum := by
  induction xs with
  | nil => rfl
  | cons x xs ih =>
    have ih := ih fun y hy => h y (List.mem_cons_of_mem _ hy)
    cases hx : p x with
    | true => rw [List.filter_cons_of_pos hx, List.map_cons, List.map_cons, List.sum_cons,
        List.sum_cons, ih]
    | false =>
      rw [List.filter_cons_of_neg (by simp [hx]), List.map_cons, List.sum_cons, ih,
        h x List.mem_cons_self hx, Nat.zero_add]

namespace HopsKept

variable {now : ℤ} {us : List FlowUpdate} {stats : Dict AgentKey FlowStats}

theorem keys_perm (h : HopsKept now us stats) : stats.keys.Perm (us.map (·.agentKey)).dedup := by
  refine (List.perm_ext_iff_of_nodup stats.nodup (List.nodup_dedup _)).mpr ?_
  intro hop
  show hop ∈ stats.keys ↔ _
  rw [List.mem_dedup, ← h.known, ← Dict.mem_keys_iff]

theorem windowAt (h : HopsKept now us stats) {e : AgentKey × FlowStats} (he : e ∈ stats.entries) :
    e.2.windowAt now = windowOf us now e.1 :=
  (h.window e.1 e.2 ((stats.mem_entries_iff e.1 e.2).mp he)).window now le_rfl

/-- A total over the interfaces of the table is one over the active interfaces, where the others add
nothing. -/
theorem sum_entries (h : HopsKept now us stats) {f : FlowStats → ℕ} {g : AgentKey → ℕ}
    (hfg : ∀ e ∈ stats.entries, f e.2 = g e.1) (hg : ∀ hop, windowOf us now hop = [] → g hop = 0) :
    (stats.entries.map fun e => f e.2).sum = ((activeHops us now).map g).sum := by
  calc (stats.entries.map fun e => f e.2).sum
      = (stats.keys.map g).sum := by
        rw [Dict.keys, List.map_map]
        exact congrArg List.sum (List.map_congr_left hfg)
    _ = (((us.map (·.agentKey)).dedup).map g).sum := (h.keys_perm.map g).sum_eq
    _ = ((activeHops us now).map g).sum :=
        (sum_map_filter fun hop _ hhop => hg hop (by simpa using hhop)).symm

theorem countP_entries (h : HopsKept now us stats) :
    (stats.entries.countP fun e => e.2.windowAt now ≠ []) = (activeHops us now).length := by
  calc (stats.entries.countP fun e => e.2.windowAt now ≠ [])
      = stats.entries.countP ((fun hop => decide (windowOf us now hop ≠ [])) ∘ Prod.fst) := by
        refine List.countP_congr ?_
        intro e he
        rw [h.windowAt he]
        rfl
    _ = stats.keys.countP fun hop => windowOf us now hop ≠ [] := by
        rw [Dict.keys, List.countP_map]
    _ = (activeHops us now).length := by
        rw [h.keys_perm.countP_eq, List.countP_eq_length_filter]
        rfl

/-- **What the rates of a flow come out as**, where an `int` can count the interfaces. -/
theorem calFlow_rates {info : FlowInfo} (h : HopsKept now us info.agentFlowStats)
    (hcount : (activeHops us now).length + staleHops now info < 2 ^ 31) :
    let hops := (activeHops us now).length + staleHops now info
    (calFlow now info).estimatedFlowSendingRateImmediately =
        averageOver hops (windowedBits us now % 2 ^ 64) ∧
      (calFlow now info).estimatedPacketSendingRateImmediately =
        averageOver hops (windowedPackets us now % 2 ^ 64) := by
  intro hops
  have hmem : ∀ e ∈ info.agentFlowStats.entries, info.agentFlowStats.get? e.1 = some e.2 :=
    fun e he => (Dict.mem_entries_iff _ e.1 e.2).mp he
  have hes : ∀ e ∈ info.agentFlowStats.entries,
      e.2.packetQueue.Summed ∧ e.2.packetQueue.Sorted := by
    intro e he
    have hwindowed := h.window e.1 e.2 (hmem e he)
    exact ⟨hwindowed.summed, hwindowed.sorted⟩
  have hbytes : 8 * (info.agentFlowStats.entries.map fun e =>
      AutoRefreshQueue.bytes (e.2.windowAt now) * e.2.currentSamplingRate).sum =
      windowedBits us now := by
    rw [h.sum_entries
      (f := fun st => AutoRefreshQueue.bytes (st.windowAt now) * st.currentSamplingRate)
      (g := fun hop => AutoRefreshQueue.bytes (windowOf us now hop) * hopRate us hop)
      (fun e he => by rw [h.windowAt he, h.rate e.1 e.2 (hmem e he)])
      (fun hop hhop => by simp [hhop, AutoRefreshQueue.bytes]), windowedBits, ← List.sum_map_mul_left]
    simp only [Nat.mul_assoc]
  have hpackets : (info.agentFlowStats.entries.map fun e =>
      (e.2.windowAt now).length * e.2.currentSamplingRate).sum = windowedPackets us now :=
    h.sum_entries (f := fun st => (st.windowAt now).length * st.currentSamplingRate)
      (g := fun hop => (windowOf us now hop).length * hopRate us hop)
      (fun e he => by rw [h.windowAt he, h.rate e.1 e.2 (hmem e he)])
      (fun hop hhop => by simp [hhop])
  have hacc := foldl_addHop now hes 0 0 0
  rw [hpackets, h.countP_entries] at hacc
  simp only [Nat.zero_mod, Nat.zero_add, Nat.cast_zero, Int.zero_bmod] at hacc
  have haverage := calFlow_average now info
  dsimp only at haverage
  rw [hacc] at haverage
  dsimp only at haverage
  have hcounted : (((activeHops us now).length + staleHops now info : ℕ) : ℤ).bmod (2 ^ 32) = _ :=
    bmod_of_lt hcount
  rw [← staleHops, hcounted, Int.toNat_natCast, Nat.mod_mul_mod, Nat.mul_comm _ 8, hbytes] at haverage
  exact haverage

end HopsKept

/-! ### When this is the average -/

/-- When more parts than have a share, and a total cut to 64 bits, do not change an average. -/
theorem mod_div_add_eq_iff {x m k : ℕ} (hm : 0 < m) (hle : m ≤ 2 ^ 64) :
    x % 2 ^ 64 / (m + k) = x / m ↔ x < 2 ^ 64 ∧ k * (x / m) ≤ x % m := by
  have hdiv := Nat.div_add_mod x m
  by_cases hx : x < 2 ^ 64
  · rw [Nat.mod_eq_of_lt hx, Nat.div_eq_iff (by omega)]
    have hrem := Nat.mod_lt x hm
    have hexpand : x / m * (m + k) = m * (x / m) + k * (x / m) := by ring
    constructor
    · rintro ⟨hlow, -⟩
      exact ⟨hx, by omega⟩
    · rintro ⟨-, hfit⟩
      exact ⟨by omega, by omega⟩
  · -- at least 2 ^ 64 is cut off, which is a share for each of the parts
    refine iff_of_false (fun heq => ?_) fun h => hx h.1
    have hcut : x % 2 ^ 64 + 2 ^ 64 ≤ x := by omega
    have hless : x % 2 ^ 64 / (m + k) ≤ x % 2 ^ 64 / m :=
      Nat.div_le_div_left (Nat.le_add_right m k) hm
    have hshare : x % 2 ^ 64 / m + 1 ≤ x / m := by
      rw [← Nat.add_div_right _ hm]
      exact Nat.div_le_div_right (by omega)
    omega

/-- The rates of a flow are not changed by what should not count: no interface is active, or for the
bits and for the packets in the window the total is that of a `uint64_t` and the remainder of their
division by the active interfaces has room for the share of every stale one. -/
def Undiluted (us : List FlowUpdate) (now : ℤ) (info : FlowInfo) : Prop :=
  activeHops us now = [] ∨
    ∀ total ∈ [windowedBits us now, windowedPackets us now], total < 2 ^ 64 ∧
      staleHops now info * (total / (activeHops us now).length) ≤
        total % (activeHops us now).length

/-- **When the immediate rates are the average** over the interfaces that saw the flow: for every
history of samples and calls at times that do not go back, a call at a time `now`, and every flow of
the table with no more interfaces that have lengths than an `int` can count. -/
theorem immediateRate_iff (tr : List RateAct) (now : ℤ)
    (horder : ClockInOrder (tr ++ [.calculate now])) (key : FlowKey) (info info' : FlowInfo)
    (hinfo : (tableAfter tr).get? key = some info)
    (hinfo' : (tableAfter (tr ++ [.calculate now])).get? key = some info')
    (hcount : (activeHops (flowSamples tr key) now).length + staleHops now info < 2 ^ 31) :
    let us := flowSamples tr key
    let hops := (activeHops us now).length
    (info'.estimatedFlowSendingRateImmediately = averageOver hops (windowedBits us now) ∧
        info'.estimatedPacketSendingRateImmediately = averageOver hops (windowedPackets us now)) ↔
      Undiluted us now info := by
  intro us hops
  obtain ⟨htr, -, hlast⟩ := List.pairwise_append.mp horder
  have hkept : FlowKept now us ((tableAfter tr).get? key) :=
    flowKept_tableAfter htr (fun a ha => hlast a ha _ (List.mem_singleton_self _)) key
  rw [hinfo] at hkept
  have hcalled : info' = calFlow now info := by
    rw [tableAfter_concat, RateAct.act, calAvgFlowSendingRatesImmediately, Dict.get?_mapValues,
      hinfo] at hinfo'
    exact (Option.some.inj hinfo').symm
  obtain ⟨hbits, hpackets⟩ := HopsKept.calFlow_rates hkept hcount
  rw [hcalled, hbits, hpackets, Undiluted]
  by_cases hnone : activeHops us now = []
  · -- no total either
    have hzero : windowedBits us now = 0 ∧ windowedPackets us now = 0 := by
      simp [windowedBits, windowedPackets, hnone]
    have hhops : hops = 0 := by simp [hops, hnone]
    simp [hzero.1, hzero.2, hnone, averageOver]
  · have hpos : 0 < hops := List.length_pos_iff.mpr hnone
    have hle : hops ≤ 2 ^ 64 :=
      (Nat.le_add_right hops _).trans (hcount.le.trans (Nat.pow_le_pow_right two_pos (by omega)))
    have haverage (n x : ℕ) (hn : 0 < n) : averageOver n x = x / n := if_neg (by omega)
    rw [haverage _ _ hpos, haverage _ _ hpos, haverage _ _ (Nat.add_pos_left hpos _),
      haverage _ _ (Nat.add_pos_left hpos _), mod_div_add_eq_iff hpos hle,
      mod_div_add_eq_iff hpos hle]
    simp only [hnone, false_or, List.forall_mem_cons, List.not_mem_nil, false_implies,
      implies_true, and_true]
    exact Iff.rfl

/-! ### A flow that changes its way -/

/-- A flow is seen by one switch, and more than a second later by another. -/
def reroutedFlow : List RateAct := [.sample (udpSample 1 0), .sample (udpSample 2 1500)]

/-- **The switch that the flow has left is counted.**  A call at the time of the second sample finds
half of the rate. -/
theorem stale_hop_counted :
    ClockInOrder (reroutedFlow ++ [.calculate 1500]) ∧
      ¬ ∀ info', (tableAfter (reroutedFlow ++ [.calculate 1500])).get? udpFlow = some info' →
        info'.estimatedFlowSendingRateImmediately =
          averageOver (activeHops (flowSamples reroutedFlow udpFlow) 1500).length
            (windowedBits (flowSamples reroutedFlow udpFlow) 1500) := by
  refine ⟨by decide, ?_⟩
  intro h
  have hhalf : ((tableAfter (reroutedFlow ++ [.calculate 1500])).get? udpFlow).map
      (·.estimatedFlowSendingRateImmediately) = some 600000 := by decide +kernel
  have hwhole : averageOver (activeHops (flowSamples reroutedFlow udpFlow) 1500).length
      (windowedBits (flowSamples reroutedFlow udpFlow) 1500) = 1200000 := by decide +kernel
  obtain ⟨info', hinfo', hrate⟩ := Option.map_eq_some_iff.mp hhalf
  rw [h info' hinfo', hwhole] at hrate
  exact absurd hrate (by decide)

/-- One sample, half a second old. -/
theorem immediateRate_iff_once :
    ∃ info info', (tableAfter [.sample (udpSample 1 0)]).get? udpFlow = some info ∧
      (tableAfter ([.sample (udpSample 1 0)] ++ [.calculate 500])).get? udpFlow = some info' ∧
      info'.estimatedFlowSendingRateImmediately = 1200000 ∧
      Undiluted (flowSamples [.sample (udpSample 1 0)] udpFlow) 500 info := by
  have horder : ClockInOrder ([.sample (udpSample 1 0)] ++ [.calculate 500]) := by decide
  refine ⟨_, _, rfl, rfl, rfl, ?_⟩
  exact (immediateRate_iff [.sample (udpSample 1 0)] 500 horder udpFlow _ _ rfl rfl (by decide)).mp
    ⟨rfl, rfl⟩

end NDTwin.Telemetry
