import Mathlib.Data.List.DropRight
import NDTwin.Lib.Dict
import NDTwin.Telemetry.Collector
import NDTwin.Twin.Graph

/-!
# Bytes of links

In a simulated network the bytes of a flow sample, its frame length times the sampling rate, are banked
under the switch that sampled it and a port: the port it came in by in one bank, the port it left by in
another.  Once in a while either bank is drained.  The first pays each entry to the port at the other
end of the link, and the second pays the entries whose port leads to a host.

The entries of a bank are drained in the order in which they came in here, and in that of their keys in
the collector; no amount depends on it.

## Main definitions

* `bankedKey`, `bankSample` — where the bytes of a sample go.
* `getAgentKeyFromTheOtherSide`, `findEdgeToHostByAgentIpAndPort` — what a drain asks the topology.
* `settle`, `drain` — what a drain pays, and what it leaves.
* `bankedSince` — the bytes since the previous drain of a bank.
* `carried` — the bytes of earlier intervals that no drain has paid.

## Main results

* `drains_exact_iff` — **every drain pays the bytes of its interval exactly when nothing is carried
  to a key that it pays.**
* `carried_egress` — the second bank carries nothing.
* `drain_pays_late` — a drain that skips an entry leaves its bytes to a later one.
-/

namespace NDTwin.Telemetry

open Twin

/-- A switch, by its address, and a port. -/
abbrev AgentKey := ℕ × ℕ

/-- The two accumulators. -/
inductive Bank where
  | ingress | egress
  deriving DecidableEq, Repr

/-! ### Banking -/

section Banking

variable (lookupOfport : ℕ → ℕ)

/-- The entry of a bank that a sample goes to. -/
def bankedKey (agentIp : ℕ) (sample : FlowSample) : Bank → Option AgentKey
  | .ingress =>
    if lookupOfport sample.inputPort ≠ 0 then some (agentIp, lookupOfport sample.inputPort)
    -- bytes that nothing is known about are kept where they name no link
    else if lookupOfport sample.outputPort = 0 then some (agentIp, 0)
    else none
  | .egress =>
    if lookupOfport sample.outputPort ≠ 0 then some (agentIp, lookupOfport sample.outputPort)
    else none

/-- `uint64_t(frameLength) * samplingRate`. -/
def sampledBytes (sample : FlowSample) : ℕ := sample.frameLength * sample.samplingRate % 2 ^ 64

/-- `bank[key] += bytes`. -/
def credit (bank : Dict AgentKey ℕ) (key : AgentKey) (bytes : ℕ) : Dict AgentKey ℕ :=
  bank.set key (((bank.get? key).getD 0 + bytes) % 2 ^ 64)

/-- A sample in a bank. -/
def bankSample (agentIp : ℕ) (sample : FlowSample) (banks : Bank → Dict AgentKey ℕ) (b : Bank) :
    Dict AgentKey ℕ :=
  match bankedKey lookupOfport agentIp sample b with
  | none => banks b
  | some key => credit (banks b) key (sampledBytes sample)

end Banking

/-! ### Draining -/

/-- `getAgentKeyFromTheOtherSide(key)`. -/
def getAgentKeyFromTheOtherSide (g : Graph) (key : AgentKey) : Option AgentKey :=
  match g.edges.find? fun e => e.props.dstIp.head? = some key.1 && e.props.dstInterface = key.2 with
  | none => none
  | some e => e.props.srcIp.head?.map fun ip => (ip, e.props.srcInterface)

/-- `findEdgeToHostByAgentIpAndPort(key)`. -/
def findEdgeToHostByAgentIpAndPort (g : Graph) (key : AgentKey) : Option Edge :=
  match g.edges.find? fun e => e.props.srcIp.head? = some key.1 && e.props.srcInterface = key.2 with
  | none => none
  | some e => if e.props.dstDpid = 0 then some e else none

/-- What a drain hands to `updateLinkInfoLeftLinkBandwidth` for an entry. -/
structure Payment where
  key : AgentKey
  paidTo : AgentKey
  bytes : ℕ
  deriving DecidableEq, Repr

/-- What a drain does with an entry: what it pays, and what it leaves there. -/
def settle (g : Graph) (b : Bank) (key : AgentKey) (bytes : ℕ) : Option Payment × ℕ :=
  match b with
  | .ingress =>
    match getAgentKeyFromTheOtherSide g key with
    -- the other side is missed, and the entry is skipped
    | none => (none, bytes)
    | some other => (some ⟨key, other, bytes⟩, 0)
  | .egress =>
    if (findEdgeToHostByAgentIpAndPort g key).isSome then (some ⟨key, key, bytes⟩, 0) else (none, 0)

/-- A drain of a bank. -/
def drain (g : Graph) (b : Bank) (bank : Dict AgentKey ℕ) : List Payment × Dict AgentKey ℕ :=
  (bank.entries.filterMap fun e => (settle g b e.1 e.2).1,
    bank.mapWithKey fun key bytes => (settle g b key bytes).2)

/-! ### Runs -/

/-- The banks, and the topology. -/
structure BankState where
  banks : Bank → Dict AgentKey ℕ
  graph : Graph

/-- What happens. -/
inductive BankAct where
  | sample (agentIp : ℕ) (sample : FlowSample)
  | topology (g : Graph)
  | drain (b : Bank)

/-- A drain of this bank. -/
def BankAct.drains (b : Bank) : BankAct → Bool
  | .drain b' => b' = b
  | _ => false

section Runs

variable (lookupOfport : ℕ → ℕ)

namespace BankState

/-- One step. -/
def step (s : BankState) : BankAct → BankState
  | .sample agentIp sample => { s with banks := bankSample lookupOfport agentIp sample s.banks }
  | .topology g => { s with graph := g }
  | .drain b => { s with banks := Function.update s.banks b (Telemetry.drain s.graph b (s.banks b)).2 }

/-- A collector that was just started, after some steps. -/
def run (g₀ : Graph) (tr : List BankAct) : BankState :=
  tr.foldl (step lookupOfport) ⟨fun _ => .empty, g₀⟩

theorem run_concat (g₀ : Graph) (tr : List BankAct) (act : BankAct) :
    run lookupOfport g₀ (tr ++ [act]) = step lookupOfport (run lookupOfport g₀ tr) act := by
  rw [run, List.foldl_append]
  rfl

/-- What a drain pays. -/
def payments (s : BankState) (b : Bank) : List Payment := (Telemetry.drain s.graph b (s.banks b)).1

end BankState

/-- The bytes that a step banks under a key. -/
def bytesFor (b : Bank) (key : AgentKey) : BankAct → ℕ
  | .sample agentIp sample =>
    if bankedKey lookupOfport agentIp sample b = some key then
      sample.frameLength * sample.samplingRate
    else 0
  | _ => 0

/-- The bytes that were banked under a key since the previous drain of the bank. -/
def bankedSince (b : Bank) (key : AgentKey) (tr : List BankAct) : ℕ :=
  ((tr.rtakeWhile fun act => !act.drains b).map (bytesFor lookupOfport b key)).sum

/-- A drain leaves nothing of an entry. -/
def empties (g : Graph) : Bank → AgentKey → Bool
  | .ingress, key => (getAgentKeyFromTheOtherSide g key).isSome
  | .egress, _ => true

/-- A drain pays an entry. -/
def Pays (g : Graph) : Bank → AgentKey → Prop
  | .ingress, key => (getAgentKeyFromTheOtherSide g key).isSome = true
  | .egress, key => (findEdgeToHostByAgentIpAndPort g key).isSome = true

/-- What the steps so far say about one key of one bank. -/
structure Tally where
  graph : Graph
  /-- Bytes of earlier intervals that no drain has emptied. -/
  carried : ℕ
  /-- Bytes since the previous drain of the bank. -/
  interval : ℕ

/-- One step of a tally. -/
def Tally.step (b : Bank) (key : AgentKey) (t : Tally) (act : BankAct) : Tally :=
  match act with
  | .sample _ _ => { t with interval := t.interval + bytesFor lookupOfport b key act }
  | .topology g => { t with graph := g }
  | .drain b' =>
    if b' = b then
      ⟨t.graph, if empties t.graph b key then 0 else t.carried + t.interval, 0⟩
    else t

/-- The tally of a whole run. -/
def tally (g₀ : Graph) (b : Bank) (key : AgentKey) (tr : List BankAct) : Tally :=
  tr.foldl (Tally.step lookupOfport b key) ⟨g₀, 0, 0⟩

/-- The bytes that were banked under a key before the previous drain of the bank, and after the last
drain that left nothing of them. -/
def carried (g₀ : Graph) (b : Bank) (key : AgentKey) (tr : List BankAct) : ℕ :=
  (tally lookupOfport g₀ b key tr).carried

/-- The topology after some steps. -/
def topologyAfter (g₀ : Graph) (tr : List BankAct) : Graph :=
  tr.foldl (fun g act => match act with | .topology g' => g' | _ => g) g₀

/-! ### The tally of a run -/

variable (g₀ : Graph) (b : Bank) (key : AgentKey)

theorem tally_concat (tr : List BankAct) (act : BankAct) :
    tally lookupOfport g₀ b key (tr ++ [act]) =
      (tally lookupOfport g₀ b key tr).step lookupOfport b key act := by
  rw [tally, List.foldl_append]
  rfl

theorem topologyAfter_concat (tr : List BankAct) (act : BankAct) :
    topologyAfter g₀ (tr ++ [act]) =
      match act with | .topology g' => g' | _ => topologyAfter g₀ tr := by
  rw [topologyAfter, List.foldl_append]
  rfl

theorem graph_run (tr : List BankAct) :
    (BankState.run lookupOfport g₀ tr).graph = topologyAfter g₀ tr := by
  induction tr using List.reverseRecOn with
  | nil => rfl
  | append_singleton tr act ih =>
    rw [BankState.run_concat, topologyAfter_concat]
    cases act with
    | sample agentIp sample => exact ih
    | topology g => rfl
    | drain b' => exact ih

theorem graph_tally (tr : List BankAct) :
    (tally lookupOfport g₀ b key tr).graph = topologyAfter g₀ tr := by
  induction tr using List.reverseRecOn with
  | nil => rfl
  | append_singleton tr act ih =>
    rw [tally_concat, topologyAfter_concat]
    cases act with
    | sample agentIp sample => exact ih
    | topology g => rfl
    | drain b' =>
      simp only [Tally.step]
      split <;> exact ih

theorem bankedSince_concat (tr : List BankAct) (act : BankAct) :
    bankedSince lookupOfport b key (tr ++ [act]) =
      if act.drains b then 0
      else bankedSince lookupOfport b key tr + bytesFor lookupOfport b key act := by
  rw [bankedSince, List.rtakeWhile_concat]
  cases act.drains b with
  | false => simp [bankedSince]
  | true => simp

theorem interval_tally (tr : List BankAct) :
    (tally lookupOfport g₀ b key tr).interval = bankedSince lookupOfport b key tr := by
  induction tr using List.reverseRecOn with
  | nil => rfl
  | append_singleton tr act ih =>
    rw [tally_concat, bankedSince_concat]
    cases act with
    | sample agentIp sample => simp [Tally.step, BankAct.drains, ih]
    | topology g => simp [Tally.step, BankAct.drains, bytesFor, ih]
    | drain b' =>
      by_cases hb : b' = b
      · simp [Tally.step, BankAct.drains, hb]
      · simp [Tally.step, BankAct.drains, bytesFor, hb, ih]

/-! ### What an entry holds -/

/-- An entry holds what the tally says, and a key without one was never given a byte. -/
def Tally.Accounts (t : Tally) (entry : Option ℕ) : Prop :=
  match entry with
  | none => t.carried = 0 ∧ t.interval = 0
  | some bytes => bytes = (t.carried + t.interval) % 2 ^ 64

theorem Tally.Accounts.getD {t : Tally} {entry : Option ℕ} (h : t.Accounts entry) :
    entry.getD 0 = (t.carried + t.interval) % 2 ^ 64 := by
  cases entry with
  | none => simp [h.1, h.2]
  | some bytes => exact h

/-- A sample goes to the entry of its key. -/
theorem accounts_bankSample {agentIp : ℕ} {sample : FlowSample} {banks : Bank → Dict AgentKey ℕ}
    {t : Tally} (h : t.Accounts ((banks b).get? key)) :
    (t.step lookupOfport b key (.sample agentIp sample)).Accounts
      ((bankSample lookupOfport agentIp sample banks b).get? key) := by
  simp only [bankSample, Tally.step, bytesFor]
  cases hkey : bankedKey lookupOfport agentIp sample b with
  | none => simpa using h
  | some key' =>
    simp only [credit, Dict.get?_set]
    by_cases heq : key = key'
    · subst heq
      simp only [↓reduceIte]
      -- the accumulator wraps where the tally does not
      show _ = _
      rw [h.getD, sampledBytes]
      simp only
      omega
    · rw [if_neg heq, if_neg (by simpa using fun h' => heq h'.symm)]
      exact h

/-- What a drain leaves of an entry. -/
theorem settle_snd (g : Graph) (bytes : ℕ) :
    (settle g b key bytes).2 = if empties g b key then 0 else bytes := by
  cases b with
  | ingress =>
    cases hother : getAgentKeyFromTheOtherSide g key with
    | none => simp [settle, empties, hother]
    | some other => simp [settle, empties, hother]
  | egress =>
    simp only [settle, empties]
    split <;> rfl

/-- A drain of the bank ends the interval. -/
theorem accounts_drain {bank : Dict AgentKey ℕ} {t : Tally} (h : t.Accounts (bank.get? key)) :
    (t.step lookupOfport b key (.drain b)).Accounts ((drain t.graph b bank).2.get? key) := by
  simp only [drain, Tally.step, ↓reduceIte, Dict.get?_mapWithKey]
  cases hentry : bank.get? key with
  | none =>
    rw [hentry] at h
    obtain ⟨hcarried, hinterval⟩ := h
    simp [Tally.Accounts, hcarried, hinterval]
  | some bytes =>
    rw [hentry] at h
    show (settle _ b key bytes).2 = _
    rw [settle_snd]
    split
    · rfl
    · exact h

theorem accounts_run (tr : List BankAct) :
    (tally lookupOfport g₀ b key tr).Accounts
      (((BankState.run lookupOfport g₀ tr).banks b).get? key) := by
  induction tr using List.reverseRecOn with
  | nil => exact ⟨rfl, rfl⟩
  | append_singleton tr act ih =>
    rw [tally_concat, BankState.run_concat]
    cases act with
    | sample agentIp sample => exact accounts_bankSample lookupOfport b key ih
    | topology g => exact ih
    | drain b' =>
      by_cases hb : b' = b
      · subst hb
        have hgraph : (BankState.run lookupOfport g₀ tr).graph =
            (tally lookupOfport g₀ b' key tr).graph := by
          rw [graph_run, graph_tally]
        simp only [BankState.step, Function.update_self, hgraph]
        exact accounts_drain lookupOfport b' key ih
      · -- a drain of the other bank
        simp only [BankState.step, Function.update_of_ne (Ne.symm hb), Tally.step, if_neg hb]
        exact ih

/-! ### Payments -/

/-- A drain pays an entry what the entry holds. -/
theorem settle_fst (g : Graph) (bytes : ℕ) (pay : Payment) (h : (settle g b key bytes).1 = some pay) :
    Pays g b key ∧ pay.key = key ∧ pay.bytes = bytes := by
  cases b with
  | ingress =>
    cases hother : getAgentKeyFromTheOtherSide g key with
    | none => simp [settle, hother] at h
    | some other =>
      simp only [settle, hother, Option.some.injEq] at h
      subst h
      exact ⟨by simp [Pays, hother], rfl, rfl⟩
  | egress =>
    by_cases hhost : (findEdgeToHostByAgentIpAndPort g key).isSome
    · simp only [settle, hhost, ↓reduceIte, Option.some.injEq] at h
      subst h
      exact ⟨hhost, rfl, rfl⟩
    · simp [settle, hhost] at h

/-- An entry that can be paid is paid. -/
theorem settle_fst_isSome {g : Graph} (bytes : ℕ) (hpays : Pays g b key) :
    ((settle g b key bytes).1).isSome := by
  cases b with
  | ingress =>
    obtain ⟨other, hother⟩ := Option.isSome_iff_exists.mp hpays
    simp [settle, hother]
  | egress =>
    have hhost : (findEdgeToHostByAgentIpAndPort g key).isSome = true := hpays
    simp [settle, hhost]

theorem mem_payments {s : BankState} {pay : Payment} (hpay : pay ∈ s.payments b) :
    (s.banks b).get? pay.key = some pay.bytes ∧ Pays s.graph b pay.key := by
  simp only [BankState.payments, drain, List.mem_filterMap] at hpay
  obtain ⟨e, he, hsettle⟩ := hpay
  obtain ⟨hpays, hkey, hbytes⟩ := settle_fst b e.1 s.graph e.2 pay hsettle
  rw [hkey, hbytes]
  exact ⟨(Dict.mem_entries_iff _ _ _).mp he, hpays⟩

theorem exists_payment {s : BankState} {bytes : ℕ} (hentry : (s.banks b).get? key = some bytes)
    (hpays : Pays s.graph b key) : ∃ pay ∈ s.payments b, pay.key = key ∧ pay.bytes = bytes := by
  obtain ⟨pay, hpay⟩ := Option.isSome_iff_exists.mp (settle_fst_isSome b key bytes hpays)
  obtain ⟨-, hkey, hbytes⟩ := settle_fst b key s.graph bytes pay hpay
  refine ⟨pay, ?_, hkey, hbytes⟩
  simp only [BankState.payments, drain, List.mem_filterMap]
  exact ⟨(key, bytes), (Dict.mem_entries_iff _ _ _).mpr hentry, hpay⟩

/-! ### Exact drains -/

/-- Every drain of a run pays, for every key, the bytes of its own interval. -/
def ExactDrains (tr : List BankAct) : Prop :=
  ∀ before b, before ++ [.drain b] <+: tr →
    ∀ pay ∈ (BankState.run lookupOfport g₀ before).payments b,
      pay.bytes = bankedSince lookupOfport b pay.key before

/-- Whenever a drain can pay a key, no bytes of an earlier interval are left there, and those of its
own fit the accumulator. -/
def Settled (tr : List BankAct) : Prop :=
  ∀ before b key, before ++ [.drain b] <+: tr → Pays (topologyAfter g₀ before) b key →
    carried lookupOfport g₀ b key before % 2 ^ 64 = 0 ∧ bankedSince lookupOfport b key before < 2 ^ 64

/-- **Every drain pays the bytes of its interval exactly when nothing is carried to a key that it
pays.** -/
theorem drains_exact_iff (tr : List BankAct) :
    ExactDrains lookupOfport g₀ tr ↔ Settled lookupOfport g₀ tr := by
  constructor
  · intro hexact before b key hbefore hpays
    have hentry := accounts_run lookupOfport g₀ b key before
    rw [← graph_run lookupOfport] at hpays
    rw [carried, ← interval_tally lookupOfport g₀]
    cases hget : ((BankState.run lookupOfport g₀ before).banks b).get? key with
    | none =>
      rw [hget] at hentry
      rw [hentry.1, hentry.2]
      decide
    | some bytes =>
      rw [hget] at hentry
      obtain ⟨pay, hpay, hkey, hbytes⟩ := exists_payment b key hget hpays
      have hpaid := hexact before b hbefore pay hpay
      rw [hkey, hbytes, hentry, ← interval_tally lookupOfport g₀] at hpaid
      omega
  · intro hsettled before b hbefore pay hpay
    obtain ⟨hget, hpays⟩ := mem_payments b hpay
    rw [graph_run] at hpays
    obtain ⟨hcarried, hinterval⟩ := hsettled before b pay.key hbefore hpays
    have hentry := accounts_run lookupOfport g₀ b pay.key before
    rw [hget] at hentry
    -- what the entry holds is what is carried to it and what came in since
    have hbytes : pay.bytes = (carried lookupOfport g₀ b pay.key before +
        bankedSince lookupOfport b pay.key before) % 2 ^ 64 := by
      rw [← interval_tally lookupOfport g₀]
      exact hentry
    omega

/-- The second bank carries nothing. -/
theorem carried_egress (tr : List BankAct) : carried lookupOfport g₀ .egress key tr = 0 := by
  induction tr using List.reverseRecOn with
  | nil => rfl
  | append_singleton tr act ih =>
    rw [carried, tally_concat]
    cases act with
    | sample agentIp sample => exact ih
    | topology g => exact ih
    | drain b =>
      simp only [Tally.step, empties, ↓reduceIte]
      split
      · rfl
      · exact ih

end Runs

/-! ### A link that is found late -/

/-- A graph of two vertices that are not joined. -/
def unjoined : Graph where
  vertices := [{ vertexType := .switch, dpid := 1, ip := [1] }, { vertexType := .host, ip := [2] }]
  edges := []
  ordered := by decide
  ends_lt := by decide

/-- The same graph, with the link from the host to port 5 of the switch. -/
def joined : Graph where
  vertices := unjoined.vertices
  edges := [⟨1, 0, { srcIp := [2], srcDpid := 0, srcInterface := 0,
                     dstIp := [1], dstDpid := 1, dstInterface := 5 }⟩]
  ordered := by decide
  ends_lt := by decide

/-- A sample that came in by port 5, a drain, and a second drain once the link is known. -/
def lateLink : List BankAct :=
  [.sample 1 ⟨5, 0, 10, 100, []⟩, .drain .ingress, .topology joined, .drain .ingress]

/-- A drain that skips an entry leaves its bytes to a later one. -/
theorem drain_pays_late : ¬ ExactDrains id unjoined lateLink := by
  intro h
  have hpaid := h (lateLink.take 3) .ingress ⟨[], rfl⟩ ⟨(1, 5), (2, 0), 1000⟩ (by decide)
  have hinterval : bankedSince id .ingress (1, 5) (lateLink.take 3) = 0 := by decide
  rw [hinterval] at hpaid
  contradiction

end NDTwin.Telemetry
