import Mathlib.Tactic.NormNum
import NDTwin.Lib.Fallible
import NDTwin.Lib.Words

/-!
# Sampled packets as datagrams

The P4 pipeline clones one packet in so many to the controller, and the proxy tells the collector
of them in sFlow datagrams.  The collector reads fixed word offsets, so the shape is that of the
software switch it was written for: a flow sample has two records, of which the first says nothing
and is there because it is skipped.

Numbers are what the language has, and packing one that does not fit in 32 bits raises.

## Main definitions

* `SampledPacket`, `SwitchAgent` — a packet, and the agent of a switch.
* `pack` — numbers as words of a datagram.
* `buildFlowSample`, `buildDatagram` — datagrams.

## Main results

* `buildFlowSample_ok`, `buildDatagram_ok` — **the words of a sample, and of a datagram.**
-/

namespace NDTwin.Telemetry

open Fallible Words

/-- One packet cloned to the CPU.  `frame` may already be truncated, `frameLength` is its length
before. -/
structure SampledPacket where
  ingressPort : ℤ
  egressPort : ℤ
  frameLength : ℤ
  samplingRate : ℤ
  frame : List UInt8

/-- Per-switch agent state. -/
structure SwitchAgent where
  agentIp : String
  subAgentId : ℤ := 0
  datagramSequence : ℤ := 0
  sampleSequence : ℤ := 0
  samplePool : ℤ := 0
  dropped : ℤ := 0

/-- `x & 0xFFFFFFFF`. -/
def low32 (x : ℤ) : ℤ := x % 2 ^ 32

/-- `next_datagram_sequence()`. -/
def SwitchAgent.nextDatagramSequence (agent : SwitchAgent) : ℤ × SwitchAgent :=
  let next := low32 (agent.datagramSequence + 1)
  (next, { agent with datagramSequence := next })

/-- `next_sample_sequence()`. -/
def SwitchAgent.nextSampleSequence (agent : SwitchAgent) : ℤ × SwitchAgent :=
  let next := low32 (agent.sampleSequence + 1)
  (next, { agent with sampleSequence := next })

/-- `advance_pool(sampling_rate)`. -/
def SwitchAgent.advancePool (agent : SwitchAgent) (samplingRate : ℤ) : ℤ × SwitchAgent :=
  let pool := low32 (agent.samplePool + samplingRate)
  (pool, { agent with samplePool := pool })

/-- What building a datagram raises. -/
inductive BuildError where
  /-- A number that does not fit. -/
  | structError
  /-- An agent address that is none. -/
  | osError
  /-- A datagram without samples. -/
  | valueError
  deriving DecidableEq, Repr

/-- `struct.pack(">I...", *numbers)`. -/
def pack : List ℤ → Except BuildError (List UInt8)
  | [] => .ok []
  | n :: numbers =>
    if 0 ≤ n ∧ n < 2 ^ 32 then do
      let bytes ← pack numbers
      return bytes32 n.toNat ++ bytes
    else .error .structError

/-- `_pad_to_word(data)`. -/
def padToWord (data : List UInt8) : List UInt8 :=
  let remainder := data.length % 4
  if remainder = 0 then data else data ++ List.replicate (4 - remainder) 0

/-- The record that says nothing: `extended_switch`, all zero. -/
def extendedSwitchRecord : Except BuildError (List UInt8) := do
  let extendedSwitch ← pack [0, 0, 0, 0]
  let header ← pack [1001, extendedSwitch.length]
  return header ++ extendedSwitch

/-- The record of the raw packet header. -/
def rawHeaderRecord (sample : SampledPacket) (frame : List UInt8) :
    Except BuildError (List UInt8) := do
  let fields ← pack [1, sample.frameLength, 0, frame.length]
  let body := fields ++ padToWord frame
  let header ← pack [1, body.length]
  return header ++ body

/-- A flow sample around its two records, and the agent it leaves. -/
def flowSampleOf (sample : SampledPacket) (agent : SwitchAgent) :
    Except BuildError (List UInt8) → Except BuildError (List UInt8) →
      Except BuildError (List UInt8) × SwitchAgent
  | .ok record0, .ok record1 =>
    let (sequence, agent) := agent.nextSampleSequence
    let (pool, agent) := agent.advancePool sample.samplingRate
    (do
      -- the source id says in its highest byte that it is an interface
      let fields ← pack [sequence, 2 * 2 ^ 24 + sample.ingressPort % 2 ^ 24, sample.samplingRate,
        pool, agent.dropped, sample.ingressPort, sample.egressPort, 2]
      let body := fields ++ record0 ++ record1
      let header ← pack [1, body.length]
      return header ++ body, agent)
  | .error e, _ => (.error e, agent)
  | _, .error e => (.error e, agent)

/-- `build_flow_sample(sample, agent, max_header_bytes)`, and the agent it leaves. -/
def buildFlowSample (sample : SampledPacket) (maxHeaderBytes : ℕ) (agent : SwitchAgent) :
    Except BuildError (List UInt8) × SwitchAgent :=
  flowSampleOf sample agent extendedSwitchRecord
    (rawHeaderRecord sample (sample.frame.take maxHeaderBytes))

/-- Bytes, and then more of them with the agent that is left. -/
def andThenBytes (first : Except BuildError (List UInt8) × SwitchAgent)
    (next : SwitchAgent → Except BuildError (List UInt8) × SwitchAgent) :
    Except BuildError (List UInt8) × SwitchAgent :=
  match first with
  | (.error e, agent) => (.error e, agent)
  | (.ok bytes, agent) =>
    let (rest, agent) := next agent
    (rest.map (bytes ++ ·), agent)

/-- The samples of a datagram, one after the other. -/
def buildFlowSamples (maxHeaderBytes : ℕ) : List SampledPacket → SwitchAgent →
    Except BuildError (List UInt8) × SwitchAgent
  | [], agent => (.ok [], agent)
  | sample :: samples, agent =>
    andThenBytes (buildFlowSample sample maxHeaderBytes agent)
      (buildFlowSamples maxHeaderBytes samples)

/-- The header of a datagram. -/
def datagramHeader (address : UInt8 × UInt8 × UInt8 × UInt8)
    (subAgentId sequence uptimeMs count : ℤ) : Except BuildError (List UInt8) := do
  let version ← pack [5, 1]
  let fields ← pack [subAgentId, sequence, uptimeMs]
  let count ← pack [count]
  return version ++ [address.1, address.2.1, address.2.2.1, address.2.2.2] ++ fields ++ count

/-- `build_datagram(samples, agent, uptime_ms, max_header_bytes)`, and the agent it leaves.
`inetAton` is the platform's, and packs an address into four bytes. -/
def buildDatagram (inetAton : String → Option (UInt8 × UInt8 × UInt8 × UInt8))
    (samples : List SampledPacket) (agent : SwitchAgent) (uptimeMs : ℤ) (maxHeaderBytes : ℕ) :
    Except BuildError (List UInt8) × SwitchAgent :=
  if samples.isEmpty then (.error .valueError, agent)
  else match inetAton agent.agentIp with
    | none => (.error .osError, agent)
    | some address =>
      let (sequence, agent) := agent.nextDatagramSequence
      andThenBytes (datagramHeader address agent.subAgentId sequence uptimeMs samples.length, agent)
        (buildFlowSamples maxHeaderBytes samples)

/-! ### What is packed -/

/-- A number fits in 32 bits. -/
def Fits32 (n : ℤ) : Prop := 0 ≤ n ∧ n < 2 ^ 32

theorem fits32_low32 (x : ℤ) : Fits32 (low32 x) :=
  ⟨Int.emod_nonneg x (by norm_num), Int.emod_lt_of_pos x (by norm_num)⟩

theorem fits32_natCast {n : ℕ} (h : n < 2 ^ 32) : Fits32 n := ⟨Int.natCast_nonneg n, by exact_mod_cast h⟩

theorem toNat_lt_of_fits32 {n : ℤ} (h : Fits32 n) : n.toNat < 2 ^ 32 := by
  have := h.2
  omega

/-- Numbers are packed exactly when they fit. -/
theorem pack_eq_ok_iff (ns : List ℤ) : (∃ bytes, pack ns = .ok bytes) ↔ ∀ n ∈ ns, Fits32 n := by
  induction ns with
  | nil => exact iff_of_true ⟨[], rfl⟩ nofun
  | cons n ns ih =>
    rw [List.forall_mem_cons, ← ih, pack]
    by_cases hn : 0 ≤ n ∧ n < 2 ^ 32
    · rw [if_pos hn, and_iff_right (a := Fits32 n) hn]
      constructor
      · rintro ⟨bytes, h⟩
        obtain ⟨rest, hrest, -⟩ := exists_of_bind_ok h
        exact ⟨rest, hrest⟩
      · rintro ⟨rest, h⟩
        rw [bind_of_ok h]
        exact ⟨_, rfl⟩
    · rw [if_neg hn]
      exact iff_of_false nofun fun h => hn h.1

/-- **Numbers that were packed are read as words.** -/
theorem words32_pack {ns : List ℤ} {bytes : List UInt8} (h : pack ns = .ok bytes)
    (rest : List UInt8) : words32 (bytes ++ rest) = ns.map Int.toNat ++ words32 rest := by
  induction ns generalizing bytes with
  | nil =>
    cases h
    rfl
  | cons n ns ih =>
    rw [pack] at h
    split at h
    · next hn =>
      obtain ⟨tail, htail, h⟩ := exists_of_bind_ok h
      cases h
      rw [List.append_assoc, words32_bytes32_append (toNat_lt_of_fits32 hn), ih htail]
      rfl
    · cases h

theorem length_pack {ns : List ℤ} {bytes : List UInt8} (h : pack ns = .ok bytes) :
    bytes.length = 4 * ns.length := by
  induction ns generalizing bytes with
  | nil =>
    cases h
    rfl
  | cons n ns ih =>
    rw [pack] at h
    split at h
    · obtain ⟨tail, htail, h⟩ := exists_of_bind_ok h
      cases h
      rw [List.length_append, length_bytes32, ih htail, List.length_cons]
      omega
    · cases h

/-- How long a padded text is. -/
theorem length_padToWord (data : List UInt8) : (padToWord data).length = (data.length + 3) / 4 * 4 := by
  rw [padToWord]
  split_ifs with hzero
  · omega
  · rw [List.length_append, List.length_replicate]
    omega

theorem padToWord_take (data : List UInt8) : (padToWord data).take data.length = data := by
  rw [padToWord]
  split_ifs with hzero
  · exact List.take_length
  · exact List.take_left

/-! ### The words of a datagram -/

/-- The first words of a sample, up to the frame. -/
def sampleFields (sample : SampledPacket) (frame : List UInt8) (sequence source pool dropped : ℕ) :
    List ℕ :=
  [1, 80 + (padToWord frame).length, sequence, source, sample.samplingRate.toNat, pool, dropped,
    sample.ingressPort.toNat, sample.egressPort.toNat, 2, 1001, 16, 0, 0, 0, 0, 1,
    16 + (padToWord frame).length, 1, sample.frameLength.toNat, 0, frame.length]

/-- The words of a sample, whatever its sequence number, source, pool and drop count are. -/
def IsSample (sample : SampledPacket) (maxHeaderBytes : ℕ) (words : List ℕ) : Prop :=
  ∃ sequence source pool dropped,
    words = sampleFields sample (sample.frame.take maxHeaderBytes) sequence source pool dropped ++
      words32 (padToWord (sample.frame.take maxHeaderBytes))

theorem extendedSwitchRecord_eq : ∃ bytes, extendedSwitchRecord = .ok bytes ∧ bytes.length = 24 ∧
    ∀ rest, words32 (bytes ++ rest) = [1001, 16, 0, 0, 0, 0] ++ words32 rest := by
  have hzero : Fits32 0 := by norm_num [Fits32]
  obtain ⟨zeros, hzeros⟩ := (pack_eq_ok_iff [0, 0, 0, 0]).mpr (by simp [hzero])
  have hlen := length_pack hzeros
  obtain ⟨header, hheader⟩ := (pack_eq_ok_iff [1001, (zeros.length : ℕ)]).mpr (by
    simp [hlen, Fits32])
  have hlen' := length_pack hheader
  simp only [List.length_cons, List.length_nil] at hlen hlen'
  refine ⟨header ++ zeros, ?_, ?_, ?_⟩
  · rw [extendedSwitchRecord, bind_of_ok hzeros, bind_of_ok hheader]
    rfl
  · rw [List.length_append, hlen, hlen']
  · intro rest
    rw [List.append_assoc, words32_pack hheader, words32_pack hzeros, hlen]
    simp

theorem rawHeaderRecord_ok {sample : SampledPacket} {frame bytes : List UInt8}
    (h : rawHeaderRecord sample frame = .ok bytes) :
    bytes.length = 24 + (padToWord frame).length ∧
      words32 bytes = [1, 16 + (padToWord frame).length, 1, sample.frameLength.toNat, 0,
        frame.length] ++ words32 (padToWord frame) := by
  obtain ⟨fields, hfields, h⟩ := exists_of_bind_ok h
  obtain ⟨header, hheader, h⟩ := exists_of_bind_ok h
  cases h
  have hlen := length_pack hfields
  have hlen' := length_pack hheader
  simp only [List.length_cons, List.length_nil] at hlen hlen'
  refine ⟨?_, ?_⟩
  · rw [List.length_append, List.length_append, hlen, hlen']
    omega
  · rw [words32_pack hheader, words32_pack hfields, List.length_append, hlen]
    simp only [List.map_cons, List.map_nil, Int.toNat_natCast]
    simp

/-- **The words of a sample.** -/
theorem buildFlowSample_ok {sample : SampledPacket} {maxHeaderBytes : ℕ} {agent : SwitchAgent}
    {bytes : List UInt8} (h : (buildFlowSample sample maxHeaderBytes agent).1 = .ok bytes) :
    bytes.length % 4 = 0 ∧ IsSample sample maxHeaderBytes (words32 bytes) := by
  obtain ⟨record0, hrecord0, hlen0, hwords0⟩ := extendedSwitchRecord_eq
  rw [buildFlowSample, hrecord0] at h
  -- the records are there, and the rest is packed
  cases hrecord1 : rawHeaderRecord sample (sample.frame.take maxHeaderBytes) with
  | error e =>
    rw [hrecord1] at h
    cases h
  | ok record1 =>
    rw [hrecord1, flowSampleOf] at h
    obtain ⟨hlen1, hwords1⟩ := rawHeaderRecord_ok hrecord1
    obtain ⟨fields, hfields, h⟩ := exists_of_bind_ok h
    obtain ⟨header, hheader, h⟩ := exists_of_bind_ok h
    cases h
    have hlen := length_pack hfields
    have hlen' := length_pack hheader
    simp only [List.length_cons, List.length_nil] at hlen hlen'
    have hpadded := length_padToWord (sample.frame.take maxHeaderBytes)
    have hbody : (fields ++ record0 ++ record1).length =
        80 + (padToWord (sample.frame.take maxHeaderBytes)).length := by
      rw [List.length_append, List.length_append, hlen, hlen0, hlen1]
      omega
    refine ⟨?_, agent.nextSampleSequence.1.toNat,
      (2 * 2 ^ 24 + sample.ingressPort % 2 ^ 24).toNat,
      (agent.nextSampleSequence.2.advancePool sample.samplingRate).1.toNat,
      (agent.nextSampleSequence.2.advancePool sample.samplingRate).2.dropped.toNat, ?_⟩
    · rw [List.length_append, hlen', hbody, hpadded]
      omega
    · rw [words32_pack hheader, hbody, List.append_assoc fields, words32_pack hfields, hwords0,
        hwords1, sampleFields]
      simp only [List.map_cons, List.map_nil, Int.toNat_natCast, List.cons_append, List.nil_append]
      simp

theorem andThenBytes_ok {first : Except BuildError (List UInt8) × SwitchAgent}
    {next : SwitchAgent → Except BuildError (List UInt8) × SwitchAgent} {bytes : List UInt8} :
    (andThenBytes first next).1 = .ok bytes ↔ ∃ bytes₁ bytes₂, first.1 = .ok bytes₁ ∧
      (next first.2).1 = .ok bytes₂ ∧ bytes = bytes₁ ++ bytes₂ := by
  obtain ⟨answer, agent⟩ := first
  cases answer with
  | error e => exact iff_of_false nofun fun ⟨_, _, h, _⟩ => nomatch h
  | ok bytes₁ =>
    show Except.map _ (next agent).1 = _ ↔ _
    cases (next agent).1 with
    | error e => exact iff_of_false nofun fun ⟨_, _, _, h, _⟩ => nomatch h
    | ok bytes₂ =>
      constructor
      · intro h
        cases h
        exact ⟨bytes₁, bytes₂, rfl, rfl, rfl⟩
      · rintro ⟨_, _, h₁, h₂, rfl⟩
        cases h₁
        cases h₂
        rfl

/-- The words of samples one after the other. -/
inductive AreSamples (maxHeaderBytes : ℕ) : List SampledPacket → List ℕ → Prop where
  | nil : AreSamples maxHeaderBytes [] []
  | cons {sample : SampledPacket} {samples : List SampledPacket} {words rest : List ℕ}
      (h : IsSample sample maxHeaderBytes words) (hrest : AreSamples maxHeaderBytes samples rest) :
      AreSamples maxHeaderBytes (sample :: samples) (words ++ rest)

theorem buildFlowSamples_ok {maxHeaderBytes : ℕ} {samples : List SampledPacket} {agent : SwitchAgent}
    {bytes : List UInt8} (h : (buildFlowSamples maxHeaderBytes samples agent).1 = .ok bytes) :
    bytes.length % 4 = 0 ∧ AreSamples maxHeaderBytes samples (words32 bytes) := by
  induction samples generalizing agent bytes with
  | nil =>
    cases h
    exact ⟨rfl, .nil⟩
  | cons sample samples ih =>
    obtain ⟨bytes₁, bytes₂, hfirst, hothers, rfl⟩ := andThenBytes_ok.mp h
    obtain ⟨hlen₁, hwords₁⟩ := buildFlowSample_ok hfirst
    obtain ⟨hlen₂, hwords₂⟩ := ih hothers
    refine ⟨?_, ?_⟩
    · rw [List.length_append]
      omega
    · rw [words32_append hlen₁]
      exact .cons hwords₁ hwords₂

/-- **The words of a datagram**: seven of the header, the last of which counts the samples. -/
theorem buildDatagram_ok {inetAton : String → Option (UInt8 × UInt8 × UInt8 × UInt8)}
    {samples : List SampledPacket} {agent : SwitchAgent} {uptimeMs : ℤ} {maxHeaderBytes : ℕ}
    {bytes : List UInt8}
    (h : (buildDatagram inetAton samples agent uptimeMs maxHeaderBytes).1 = .ok bytes) :
    bytes.length % 4 = 0 ∧ ∃ address subAgentId sequence uptime payload,
      words32 bytes = [5, 1, address, subAgentId, sequence, uptime, samples.length] ++ payload ∧
        AreSamples maxHeaderBytes samples payload := by
  rw [buildDatagram] at h
  split at h
  · cases h
  · split at h
    · cases h
    · next address haddress =>
      obtain ⟨a, b, c, d⟩ := address
      obtain ⟨header, payload, hheader, hpayload, rfl⟩ := andThenBytes_ok.mp h
      obtain ⟨version, hversion, hheader⟩ := exists_of_bind_ok hheader
      obtain ⟨fields, hfields, hheader⟩ := exists_of_bind_ok hheader
      obtain ⟨count, hcount, hheader⟩ := exists_of_bind_ok hheader
      cases hheader
      obtain ⟨hlen, hwords⟩ := buildFlowSamples_ok hpayload
      have hlen₁ := length_pack hversion
      have hlen₂ := length_pack hfields
      have hlen₃ := length_pack hcount
      simp only [List.length_cons, List.length_nil] at hlen₁ hlen₂ hlen₃
      refine ⟨?_, word32 a b c d, agent.nextDatagramSequence.2.subAgentId.toNat,
        agent.nextDatagramSequence.1.toNat, uptimeMs.toNat, words32 payload, ?_, hwords⟩
      · simp only [List.length_append, hlen₁, hlen₂, hlen₃, List.length_cons, List.length_nil]
        omega
      · rw [List.append_assoc, List.append_assoc, List.append_assoc, words32_pack hversion]
        show _ ++ word32 a b c d :: words32 (fields ++ (count ++ payload)) = _
        rw [words32_pack hfields, words32_pack hcount]
        simp only [List.map_cons, List.map_nil, Int.toNat_natCast, List.cons_append,
          List.nil_append]
        rfl

/-! ### What can be built -/

/-- The numbers of a packet fit in 32 bits. -/
structure SampledPacket.Fits (sample : SampledPacket) : Prop where
  ingressPort : Fits32 sample.ingressPort
  egressPort : Fits32 sample.egressPort
  frameLength : Fits32 sample.frameLength
  samplingRate : Fits32 sample.samplingRate

theorem fits32_source (port : ℤ) : Fits32 (2 * 2 ^ 24 + port % 2 ^ 24) := by
  have hpos : 0 ≤ port % 2 ^ 24 := Int.emod_nonneg port (by norm_num)
  have hlt : port % 2 ^ 24 < 2 ^ 24 := Int.emod_lt_of_pos port (by norm_num)
  exact ⟨by omega, by omega⟩

/-- A packet that fits becomes a sample. -/
theorem exists_buildFlowSample {sample : SampledPacket} (hsample : sample.Fits)
    {maxHeaderBytes : ℕ} (hmax : maxHeaderBytes ≤ 256) {agent : SwitchAgent}
    (hdropped : Fits32 agent.dropped) :
    (∃ bytes, (buildFlowSample sample maxHeaderBytes agent).1 = .ok bytes) ∧
      (buildFlowSample sample maxHeaderBytes agent).2.dropped = agent.dropped := by
  have hframe : (sample.frame.take maxHeaderBytes).length ≤ 256 :=
    (List.length_take_le maxHeaderBytes sample.frame).trans hmax
  have hpadded := length_padToWord (sample.frame.take maxHeaderBytes)
  have hone : Fits32 1 := by norm_num [Fits32]
  have htwo : Fits32 2 := by norm_num [Fits32]
  have hzero : Fits32 0 := by norm_num [Fits32]
  obtain ⟨record0, hrecord0, hlen0, -⟩ := extendedSwitchRecord_eq
  obtain ⟨record1, hrecord1⟩ : ∃ record1,
      rawHeaderRecord sample (sample.frame.take maxHeaderBytes) = .ok record1 := by
    obtain ⟨fields, hfields⟩ := (pack_eq_ok_iff [1, sample.frameLength, 0,
      ((sample.frame.take maxHeaderBytes).length : ℕ)]).mpr (by
        simpa [hone, hzero, hsample.frameLength] using
          fits32_natCast (hframe.trans_lt (by norm_num)))
    have hlen := length_pack hfields
    simp only [List.length_cons, List.length_nil] at hlen
    obtain ⟨header, hheader⟩ := (pack_eq_ok_iff [1,
      ((fields ++ padToWord (sample.frame.take maxHeaderBytes)).length : ℕ)]).mpr (by
        have hfits : Fits32 ((fields ++ padToWord (sample.frame.take maxHeaderBytes)).length : ℕ) :=
          fits32_natCast (by rw [List.length_append]; omega)
        simpa [hone] using hfits)
    refine ⟨header ++ (fields ++ padToWord (sample.frame.take maxHeaderBytes)), ?_⟩
    rw [rawHeaderRecord, bind_of_ok hfields, bind_of_ok hheader]
    rfl
  obtain ⟨hlen1, -⟩ := rawHeaderRecord_ok hrecord1
  rw [buildFlowSample, hrecord0, hrecord1, flowSampleOf]
  refine ⟨?_, rfl⟩
  obtain ⟨fields, hfields⟩ := (pack_eq_ok_iff [agent.nextSampleSequence.1,
    2 * 2 ^ 24 + sample.ingressPort % 2 ^ 24, sample.samplingRate,
    (agent.nextSampleSequence.2.advancePool sample.samplingRate).1,
    (agent.nextSampleSequence.2.advancePool sample.samplingRate).2.dropped, sample.ingressPort,
    sample.egressPort, 2]).mpr (by
      simp only [List.mem_cons, List.not_mem_nil, or_false, forall_eq_or_imp, forall_eq]
      exact ⟨fits32_low32 _, fits32_source _, hsample.samplingRate, fits32_low32 _, hdropped,
        hsample.ingressPort, hsample.egressPort, htwo⟩)
  have hlen := length_pack hfields
  simp only [List.length_cons, List.length_nil] at hlen
  obtain ⟨header, hheader⟩ := (pack_eq_ok_iff [1,
    ((fields ++ record0 ++ record1).length : ℕ)]).mpr (by
      have hfits : Fits32 ((fields ++ record0 ++ record1).length : ℕ) :=
        fits32_natCast (by rw [List.length_append, List.length_append]; omega)
      simpa [hone] using hfits)
  refine ⟨header ++ (fields ++ record0 ++ record1), ?_⟩
  show (pack _ >>= _) = _
  rw [bind_of_ok hfields]
  show (pack _ >>= _) = _
  rw [bind_of_ok hheader]
  rfl

theorem exists_buildFlowSamples {samples : List SampledPacket} (hsamples : ∀ s ∈ samples, s.Fits)
    {maxHeaderBytes : ℕ} (hmax : maxHeaderBytes ≤ 256) (agent : SwitchAgent)
    (hdropped : Fits32 agent.dropped) :
    ∃ bytes, (buildFlowSamples maxHeaderBytes samples agent).1 = .ok bytes := by
  induction samples generalizing agent with
  | nil => exact ⟨[], rfl⟩
  | cons sample samples ih =>
    obtain ⟨⟨bytes₁, hfirst⟩, hkept⟩ :=
      exists_buildFlowSample (hsamples sample List.mem_cons_self) hmax hdropped
    obtain ⟨bytes₂, hothers⟩ := ih (fun s hs => hsamples s (List.mem_cons_of_mem _ hs))
      (buildFlowSample sample maxHeaderBytes agent).2 (hkept.symm ▸ hdropped)
    exact ⟨bytes₁ ++ bytes₂, andThenBytes_ok.mpr ⟨bytes₁, bytes₂, hfirst, hothers, rfl⟩⟩

/-- **Packets that fit become a datagram.** -/
theorem exists_buildDatagram {inetAton : String → Option (UInt8 × UInt8 × UInt8 × UInt8)}
    {samples : List SampledPacket} (hne : samples ≠ []) (hcount : samples.length < 2 ^ 32)
    (hsamples : ∀ s ∈ samples, s.Fits) {agent : SwitchAgent} (hdropped : Fits32 agent.dropped)
    (hsub : Fits32 agent.subAgentId) (haddress : (inetAton agent.agentIp).isSome = true)
    {uptimeMs : ℤ} (huptime : Fits32 uptimeMs) {maxHeaderBytes : ℕ} (hmax : maxHeaderBytes ≤ 256) :
    ∃ bytes, (buildDatagram inetAton samples agent uptimeMs maxHeaderBytes).1 = .ok bytes := by
  obtain ⟨address, haddress⟩ := Option.isSome_iff_exists.mp haddress
  have hone : Fits32 1 := by norm_num [Fits32]
  have hfive : Fits32 5 := by norm_num [Fits32]
  rw [buildDatagram, if_neg (by simpa using hne), haddress]
  obtain ⟨version, hversion⟩ := (pack_eq_ok_iff [5, 1]).mpr (by simp [hone, hfive])
  obtain ⟨fields, hfields⟩ := (pack_eq_ok_iff [agent.nextDatagramSequence.2.subAgentId,
    agent.nextDatagramSequence.1, uptimeMs]).mpr (by
      simp only [List.mem_cons, List.not_mem_nil, or_false, forall_eq_or_imp, forall_eq]
      exact ⟨hsub, fits32_low32 _, huptime⟩)
  obtain ⟨count, hcount⟩ := (pack_eq_ok_iff [(samples.length : ℕ)]).mpr (by
    simpa using fits32_natCast hcount)
  obtain ⟨payload, hpayload⟩ :=
    exists_buildFlowSamples hsamples hmax agent.nextDatagramSequence.2 hdropped
  have hheader : datagramHeader address agent.nextDatagramSequence.2.subAgentId
      agent.nextDatagramSequence.1 uptimeMs samples.length = .ok (version ++
        [address.1, address.2.1, address.2.2.1, address.2.2.2] ++ fields ++ count) := by
    rw [datagramHeader, bind_of_ok hversion, bind_of_ok hfields, bind_of_ok hcount]
    rfl
  exact ⟨_, andThenBytes_ok.mpr ⟨_, payload, hheader, hpayload, rfl⟩⟩

end NDTwin.Telemetry
