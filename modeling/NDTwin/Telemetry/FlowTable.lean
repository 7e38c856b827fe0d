import NDTwin.Lib.Fixed
import NDTwin.Telemetry.Banks
import NDTwin.Telemetry.FrameIdentity

/-!
# The table of flows

A sample of an IPv4 frame is entered under the key of its flow, and there under the interface of the
switch that took it.  Each interface has a queue of the lengths that it reported within the last
second.  A queue is brought up to date when it is added to and when its sum is asked for, but not when
its size is.

The machine has two clocks.  The system clock says when a flow was last seen, and the steady clock how
old a length in a queue is.

## Main definitions

* `AutoRefreshQueue` — the queue, with `push`, `getSum` and `size`.
* `FlowInfo`, `FlowTable` — what is kept of a flow.
* `FlowUpdate`, `noteSample` — a sample, and what it does to the table.
* `samplesOf` — the samples of a flow.

## Main results

* `AutoRefreshQueue.queue_refresh` — in a queue in order of time, what stays is what is in the window.
* `AutoRefreshQueue.Summed` — the sum is that of the lengths, as a `uint64_t`.
* `get?_noteSample` — a sample changes its own flow only.
-/

namespace NDTwin.Telemetry

open Fixed

/-! ### The window -/

/-- `TIME_UNIT_INTERVAL`, in milliseconds. -/
def timeUnitInterval : ℤ := 1000

/-- A length, and the steady clock when it was reported. -/
structure ExtractedSFlowData where
  packetFrameLengthInByte : ℕ
  timestampInMilliseconds : ℤ
  deriving DecidableEq, Repr

/-- The length is older than the window. -/
def ExtractedSFlowData.Expired (now : ℤ) (x : ExtractedSFlowData) : Prop :=
  timeUnitInterval < now - x.timestampInMilliseconds

instance (now : ℤ) (x : ExtractedSFlowData) : Decidable (x.Expired now) :=
  inferInstanceAs (Decidable (timeUnitInterval < now - x.timestampInMilliseconds))

theorem ExtractedSFlowData.Expired.mono {now now' : ℤ} {x : ExtractedSFlowData}
    (h : x.Expired now) (hle : now ≤ now') : x.Expired now' := by
  unfold ExtractedSFlowData.Expired at h ⊢
  omega

theorem ExtractedSFlowData.Expired.of_le {now : ℤ} {x y : ExtractedSFlowData} (h : y.Expired now)
    (hle : x.timestampInMilliseconds ≤ y.timestampInMilliseconds) : x.Expired now := by
  unfold ExtractedSFlowData.Expired at h ⊢
  omega

/-- The lengths of a window, the oldest first, and their sum. -/
structure AutoRefreshQueue where
  queue : List ExtractedSFlowData := []
  sum : ℕ := 0
  deriving DecidableEq, Repr

namespace AutoRefreshQueue

/-- The loop of `refresh`, at the front of the queue. -/
def refreshFrom (now : ℤ) : List ExtractedSFlowData → ℕ → AutoRefreshQueue
  | [], sum => ⟨[], sum⟩
  | x :: xs, sum =>
    if x.Expired now then refreshFrom now xs (subU 64 sum x.packetFrameLengthInByte)
    else ⟨x :: xs, sum⟩

/-- `refresh()`. -/
def refresh (q : AutoRefreshQueue) (now : ℤ) : AutoRefreshQueue := refreshFrom now q.queue q.sum

/-- `push(sample)`, where the steady clock shows `now` when the queue is refreshed. -/
def push (q : AutoRefreshQueue) (x : ExtractedSFlowData) (now : ℤ) : AutoRefreshQueue :=
  refresh ⟨q.queue ++ [x], (q.sum + x.packetFrameLengthInByte) % 2 ^ 64⟩ now

/-- `getSum()`, with the queue that it leaves. -/
def getSum (q : AutoRefreshQueue) (now : ℤ) : ℕ × AutoRefreshQueue :=
  ((q.refresh now).sum, q.refresh now)

/-- `size()`. -/
def size (q : AutoRefreshQueue) : ℕ := q.queue.length

/-- The lengths in a list. -/
def bytes (xs : List ExtractedSFlowData) : ℕ := (xs.map (·.packetFrameLengthInByte)).sum

/-- **The sum is that of the lengths**, as a `uint64_t`. -/
def Summed (q : AutoRefreshQueue) : Prop := q.sum = bytes q.queue % 2 ^ 64

/-- The lengths are in the order of their times. -/
def Sorted (q : AutoRefreshQueue) : Prop :=
  q.queue.Pairwise fun x y => x.timestampInMilliseconds ≤ y.timestampInMilliseconds

theorem bytes_cons (x : ExtractedSFlowData) (xs : List ExtractedSFlowData) :
    bytes (x :: xs) = x.packetFrameLengthInByte + bytes xs := by
  simp [bytes]

theorem bytes_append (xs ys : List ExtractedSFlowData) :
    bytes (xs ++ ys) = bytes xs + bytes ys := by
  simp [bytes]

/-- What the loop leaves: in a list in order of time, once a length is not expired none after it
is. -/
theorem queue_refreshFrom {now : ℤ} {xs : List ExtractedSFlowData} (sum : ℕ)
    (hsorted : xs.Pairwise fun x y => x.timestampInMilliseconds ≤ y.timestampInMilliseconds) :
    (refreshFrom now xs sum).queue = xs.filter fun x => ¬ x.Expired now := by
  induction xs generalizing sum with
  | nil => rfl
  | cons x xs ih =>
    obtain ⟨hhead, htail⟩ := List.pairwise_cons.mp hsorted
    unfold refreshFrom
    by_cases hx : x.Expired now
    · rw [if_pos hx, ih _ htail, List.filter_cons_of_neg (by simpa using hx)]
    · rw [if_neg hx]
      refine (List.filter_eq_self.mpr ?_).symm
      intro y hy
      rcases List.mem_cons.mp hy with rfl | hy
      · simpa using hx
      · have hstays : ¬ y.Expired now := fun hold => hx (hold.of_le (hhead y hy))
        simpa using hstays

theorem queue_refresh {q : AutoRefreshQueue} (hsorted : q.Sorted) (now : ℤ) :
    (q.refresh now).queue = q.queue.filter fun x => ¬ x.Expired now :=
  queue_refreshFrom q.sum hsorted

theorem summed_refreshFrom {now : ℤ} {xs : List ExtractedSFlowData} {sum : ℕ}
    (hsum : sum = bytes xs % 2 ^ 64) : (refreshFrom now xs sum).Summed := by
  induction xs generalizing sum with
  | nil => exact hsum
  | cons x xs ih =>
    unfold refreshFrom
    split
    · refine ih ?_
      rw [hsum, bytes_cons, subU_add_mod]
    · exact hsum

theorem Summed.refresh {q : AutoRefreshQueue} (h : q.Summed) (now : ℤ) : (q.refresh now).Summed :=
  summed_refreshFrom h

end AutoRefreshQueue

/-! ### The table -/

/-- What one interface reported of a flow. -/
structure FlowStats where
  ingressByteCountCurrent : ℕ := 0
  egressByteCountCurrent : ℕ := 0
  ingressPacketCountCurrent : ℕ := 0
  egressPacketCountCurrent : ℕ := 0
  samplingRate : ℕ := 1
  packetQueue : AutoRefreshQueue := {}

/-- What is kept of a flow. -/
structure FlowInfo where
  agentFlowStats : Dict AgentKey FlowStats := .empty
  estimatedFlowSendingRateImmediately : ℕ := 0
  estimatedPacketSendingRateImmediately : ℕ := 0
  startTime : ℤ := 0
  endTime : ℤ := 0
  isElephantFlowImmediately : Bool := false
  isAck : Bool := false
  isPureAck : Bool := false

/-- `m_flowInfoTable`, with what the flows are measured by. -/
abbrev FlowTable := Dict FlowKey FlowInfo

/-- A sample that is about to be entered, with the clocks as they are read on the way. -/
structure FlowUpdate where
  identity : FrameIdentity
  isPureAck : Bool := false
  agentKey : AgentKey
  agentKey_lt : agentKey.1 < 2 ^ 32 ∧ agentKey.2 < 2 ^ 32
  isIngress : Bool := true
  frameLength : ℕ
  samplingRate : ℕ
  /-- The system clock when a flow is made. -/
  startedAt : ℤ
  /-- The system clock when the flow is last seen. -/
  endedAt : ℤ
  /-- The steady clock when the length is reported. -/
  sampledAt : ℤ
  /-- The steady clock when the queue is refreshed. -/
  refreshedAt : ℤ
  sampledAt_le : sampledAt ≤ refreshedAt

namespace FlowUpdate

variable (u : FlowUpdate)

/-- The flow that the sample is entered for: `isClassifiableIpv4`. -/
def flow? : Option FlowKey :=
  if u.identity.identified = true ∧ u.identity.key.family = .ipv4 ∧
      u.identity.ipv4FragmentOffset = 0 ∧
      (u.identity.key.protocol = ipProtoTcp ∨ u.identity.key.protocol = ipProtoUdp ∨
        u.identity.key.protocol = ipProtoIcmp) then
    some u.identity.key
  else none

/-- The length that the sample reports. -/
def reported : ExtractedSFlowData := ⟨u.frameLength, u.sampledAt⟩

/-- The counters and the queue of an interface that are added to. -/
def addTo (stats : FlowStats) : FlowStats :=
  let stats := { stats with samplingRate := u.samplingRate }
  let stats :=
    if u.isIngress then { stats with
      ingressByteCountCurrent := (stats.ingressByteCountCurrent + u.frameLength) % 2 ^ 64
      ingressPacketCountCurrent := (stats.ingressPacketCountCurrent + 1) % 2 ^ 64 }
    else { stats with
      egressByteCountCurrent := (stats.egressByteCountCurrent + u.frameLength) % 2 ^ 64
      egressPacketCountCurrent := (stats.egressPacketCountCurrent + 1) % 2 ^ 64 }
  { stats with packetQueue := stats.packetQueue.push u.reported u.refreshedAt }

/-- The counters and the queue of the first interface of a new flow. -/
def begun : FlowStats where
  ingressByteCountCurrent := if u.isIngress then u.frameLength else 0
  egressByteCountCurrent := if u.isIngress then 0 else u.frameLength
  ingressPacketCountCurrent := if u.isIngress then 1 else 0
  egressPacketCountCurrent := if u.isIngress then 0 else 1
  samplingRate := u.samplingRate
  packetQueue := AutoRefreshQueue.push {} u.reported u.refreshedAt

/-- The flow after the sample, where `none` is a new flow. -/
def enter : Option FlowInfo → FlowInfo
  | some info =>
    { info with
      isPureAck := u.isPureAck
      isAck := u.identity.tcpAck
      agentFlowStats := info.agentFlowStats.set u.agentKey
        (u.addTo ((info.agentFlowStats.get? u.agentKey).getD {}))
      endTime := u.endedAt }
  | none =>
    { startTime := u.startedAt
      endTime := u.endedAt
      agentFlowStats := Dict.empty.set u.agentKey u.begun }

@[simp] theorem endTime_enter (info : Option FlowInfo) : (u.enter info).endTime = u.endedAt := by
  cases info <;> rfl

@[simp] theorem samplingRate_addTo (stats : FlowStats) :
    (u.addTo stats).samplingRate = u.samplingRate := by
  unfold addTo
  split <;> rfl

@[simp] theorem packetQueue_addTo (stats : FlowStats) :
    (u.addTo stats).packetQueue = stats.packetQueue.push u.reported u.refreshedAt := by
  unfold addTo
  split <;> rfl

end FlowUpdate

/-- The update of the flow table in `handlePacket`. -/
def noteSample (table : FlowTable) (u : FlowUpdate) : FlowTable :=
  match u.flow? with
  | some key => table.set key (u.enter (table.get? key))
  | none => table

/-- A sample changes its own flow only. -/
theorem get?_noteSample (table : FlowTable) (u : FlowUpdate) (key : FlowKey) :
    (noteSample table u).get? key =
      if u.flow? = some key then some (u.enter (table.get? key)) else table.get? key := by
  unfold noteSample
  cases hflow : u.flow? with
  | none => rfl
  | some key' =>
    dsimp only
    rw [Dict.get?_set]
    by_cases hkey : key = key'
    · rw [if_pos hkey, if_pos (by rw [hkey]), hkey]
    · rw [if_neg hkey, if_neg (by simpa using Ne.symm hkey)]

/-- The samples of a flow among those that have arrived, the oldest first. -/
def samplesOf (key : FlowKey) (us : List FlowUpdate) : List FlowUpdate :=
  us.filter fun u => u.flow? = some key

theorem samplesOf_concat (key : FlowKey) (us : List FlowUpdate) (u : FlowUpdate) :
    samplesOf key (us ++ [u]) =
      if u.flow? = some key then samplesOf key us ++ [u] else samplesOf key us := by
  rw [samplesOf, List.filter_append]
  by_cases hflow : u.flow? = some key
  · simp [hflow, samplesOf]
  · simp [hflow, samplesOf]

/-! ### A flow of UDP -/

/-- A flow of UDP. -/
def udpFlow : FlowKey :=
  { srcIP := 0x0100000a, dstIP := 0x0200000a, srcPort := 5000, dstPort := 5001,
    protocol := ipProtoUdp }

/-- A sample of it by the first interface of a switch, with both clocks at one reading. -/
def udpSample (agent : Fin 4) (now : ℤ) : FlowUpdate where
  identity := { key := udpFlow, identified := true }
  agentKey := (agent, 1)
  agentKey_lt := ⟨by omega, by omega⟩
  frameLength := 1500
  samplingRate := 100
  startedAt := now
  endedAt := now
  sampledAt := now
  refreshedAt := now
  sampledAt_le := Int.le_refl now

end NDTwin.Telemetry
