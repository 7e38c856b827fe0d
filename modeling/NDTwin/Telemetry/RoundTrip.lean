import NDTwin.Telemetry.Collector
import NDTwin.Telemetry.Emitter

/-!
# What the proxy sends is what the collector reads

The proxy writes datagrams in one language and the collector reads them in another, through offsets
that are only right together.  A sample is 22 words and the words of its frame, and reading one
moves the position to the next, as long as the position is one: it is kept in 32 bits, so in a
datagram of more words than that the reader is back at its beginning.

## Main definitions

* `expected` — what is to be read of a packet.
* `WithinReach` — the fixed part of every sample can be addressed.

## Main results

* `readFlow_isSample` — **one sample is read as it was written.**
* `parseSamples_areSamples` — **samples are read one after the other.**
* `handlePacket_buildDatagram` — **the round trip.**
* `handlePacket_wraps` — a sample behind the first `2 ^ 32` words is lost.
-/

namespace NDTwin.Telemetry

open Fixed Words

/-- What is to be read of a packet. -/
def expected (maxHeaderBytes : ℕ) (sample : SampledPacket) : FlowSample where
  inputPort := sample.ingressPort.toNat
  outputPort := sample.egressPort.toNat
  samplingRate := sample.samplingRate.toNat
  frameLength := sample.frameLength.toNat
  header := sample.frame.take maxHeaderBytes

/-- How many words the frame of a sample takes. -/
def frameWords (maxHeaderBytes : ℕ) (sample : SampledPacket) : ℕ :=
  ((sample.frame.take maxHeaderBytes).length + 3) / 4

/-- The fixed part of every sample lies within the first `2 ^ 32` words. -/
def WithinReach (maxHeaderBytes : ℕ) : ℕ → List SampledPacket → Prop
  | _, [] => True
  | position, sample :: samples =>
    position + 22 ≤ 2 ^ 32 ∧
      WithinReach maxHeaderBytes (position + 22 + frameWords maxHeaderBytes sample) samples

theorem length_isSample {sample : SampledPacket} {maxHeaderBytes : ℕ} {words : List ℕ}
    (h : IsSample sample maxHeaderBytes words) :
    words.length = 22 + frameWords maxHeaderBytes sample := by
  obtain ⟨sequence, source, pool, dropped, rfl⟩ := h
  rw [List.length_append, length_words32, length_padToWord, frameWords,
    Nat.mul_div_cancel _ (by norm_num)]
  rfl

/-! ### One sample -/

theorem liftBytes_eq (n : ℕ) (words : List ℕ) : liftBytes n words = (words.flatMap bytes32).take n := by
  induction words generalizing n with
  | nil => simp [liftBytes]
  | cons word words ih =>
    rw [liftBytes, List.flatMap_cons, List.take_append, length_bytes32, ih]
    split_ifs with hzero
    · simp [hzero]
    · rfl

/-- A word at an offset from the position. -/
theorem getElem?_offset {before words : List ℕ} (skipped k : ℕ)
    (h : before.length + skipped + k < 2 ^ 32) :
    (before ++ words)[addU 32 (before.length + skipped) k]? = words[skipped + k]? := by
  rw [addU_of_lt h, List.getElem?_append_right (by omega)]
  congr 1
  omega

/-- The frame between its bounds. -/
theorem readSampledHeader_frame (before fields after : List ℕ) {frame : List UInt8}
    (hframe : frame.length ≤ maxSampledHeaderBytes) :
    readSampledHeader (before ++ (fields ++ (words32 (padToWord frame) ++ after)))
      (before.length + fields.length)
      (before.length + fields.length + (frame.length + 3) / 4) frame.length = frame := by
  have hlen := length_padToWord frame
  rw [readSampledHeader]
  split_ifs with hnone
  · -- nothing was captured
    have hzero : frame.length = 0 := by omega
    rw [List.eq_nil_of_length_eq_zero hzero]
  · -- as many bytes as were declared, which are all of them where the frame ends with a word
    have havailable : (if 0 < frame.length ∧ frame.length < (before.length + fields.length +
        (frame.length + 3) / 4 - (before.length + fields.length)) * 4 then frame.length
        else (before.length + fields.length + (frame.length + 3) / 4 -
          (before.length + fields.length)) * 4) = frame.length := by
      split_ifs with hdeclared
      · rfl
      · omega
    have hdrop : (before ++ (fields ++ (words32 (padToWord frame) ++ after))).drop
        (before.length + fields.length) = words32 (padToWord frame) ++ after := by
      rw [← List.append_assoc, ← List.length_append]
      exact List.drop_left
    simp only [havailable, hdrop]
    rw [liftBytes_eq, List.flatMap_append, flatMap_bytes32_words32 (by omega),
      Nat.min_eq_left hframe, List.take_append_of_le_length (by omega)]
    exact padToWord_take frame

/-- **One sample is read as it was written**, and the position moves to the next. -/
theorem readFlow_isSample {sample : SampledPacket} {maxHeaderBytes : ℕ} (hmax : maxHeaderBytes ≤ 256)
    {words : List ℕ} (h : IsSample sample maxHeaderBytes words) {before : List ℕ} (after : List ℕ)
    (hreach : before.length + 22 ≤ 2 ^ 32) :
    (before ++ (words ++ after))[before.length]? = some 1 ∧
      readFlow .mininet (before ++ (words ++ after)) before.length 1 =
        some (expected maxHeaderBytes sample, (before.length + words.length) % 2 ^ 32) := by
  have hlength := length_isSample h
  obtain ⟨sequence, source, pool, dropped, rfl⟩ := h
  have hframe : (sample.frame.take maxHeaderBytes).length ≤ maxSampledHeaderBytes :=
    (List.length_take_le maxHeaderBytes sample.frame).trans hmax
  have hpadded := length_padToWord (sample.frame.take maxHeaderBytes)
  rw [frameWords] at hlength
  generalize hfields : sampleFields sample (sample.frame.take maxHeaderBytes) sequence source pool
    dropped = fields at hlength ⊢
  have hcount : fields.length = 22 := by
    rw [← hfields]
    rfl
  set frame := sample.frame.take maxHeaderBytes with hframedef
  -- the words at fixed offsets, before and after the skipped record
  have hat : ∀ skipped k v, skipped + k < 22 → fields[skipped + k]? = some v →
      (before ++ (fields ++ words32 (padToWord frame) ++ after))[
        addU 32 (before.length + skipped) k]? = some v := by
    intro skipped k v hk hv
    rw [getElem?_offset skipped k (by omega), List.append_assoc,
      List.getElem?_append_left (by omega), hv]
  have hskip : addU 32 before.length (16 / 4 + 2) = before.length + 6 := by
    rw [addU_of_lt (by omega)]
  constructor
  · rw [List.getElem?_append_right (Nat.le_refl _), Nat.sub_self, ← hfields]
    rfl
  · have hlen := hat 0 1 (80 + (padToWord frame).length) (by omega) (by rw [← hfields]; rfl)
    have hrate := hat 0 4 sample.samplingRate.toNat (by omega) (by rw [← hfields]; rfl)
    have hinput := hat 0 7 sample.ingressPort.toNat (by omega) (by rw [← hfields]; rfl)
    have houtput := hat 0 8 sample.egressPort.toNat (by omega) (by rw [← hfields]; rfl)
    have hrecord := hat 0 11 16 (by omega) (by rw [← hfields]; rfl)
    have horiginal := hat 6 13 sample.frameLength.toNat (by omega) (by rw [← hfields]; rfl)
    have hcaptured := hat 6 15 frame.length (by omega) (by rw [← hfields]; rfl)
    rw [Nat.add_zero] at hlen hrate hinput houtput hrecord
    have hend : sampleEndWord (before ++ (fields ++ words32 (padToWord frame) ++ after)).length
        (before.length + 6) (80 + (padToWord frame).length) (16 / 4 + 2) =
          before.length + fields.length + (frame.length + 3) / 4 := by
      rw [sampleEndWord, if_pos]
      · omega
      · simp only [List.length_append, length_words32]
        omega
    have hnext : nextSample .mininet (before.length + 6) (80 + (padToWord frame).length) 16 =
        (before.length + (fields ++ words32 (padToWord frame)).length) % 2 ^ 32 := by
      rw [nextSample, addU, subU, hlength]
      omega
    have hheader := readSampledHeader_frame before fields after hframe
    rw [hcount, ← List.append_assoc fields] at hheader
    rw [hcount] at hend
    have hread : readFlow .mininet (before ++ (fields ++ words32 (padToWord frame) ++ after))
        before.length 1 = some (⟨sample.ingressPort.toNat, sample.egressPort.toNat,
          sample.samplingRate.toNat, sample.frameLength.toNat, frame⟩,
          (before.length + (fields ++ words32 (padToWord frame)).length) % 2 ^ 32) := by
      simp only [readFlow, hlen, hrate, hinput, houtput, hrecord, hskip, horiginal, hcaptured,
        skippedWords, hend, hnext, hheader, if_true, bind, Option.bind, pure]
    exact hread

/-! ### The loop -/

/-- **Samples are read one after the other**, and what is left of the loop goes on behind them.  The
position is what 32 bits keep of it, and the one before is where the last of them began. -/
theorem parseSamples_areSamples {maxHeaderBytes : ℕ} (hmax : maxHeaderBytes ≤ 256)
    {samples : List SampledPacket} {words : List ℕ} (h : AreSamples maxHeaderBytes samples words)
    (before after : List ℕ) (hreach : WithinReach maxHeaderBytes before.length samples)
    {previousIndex : ℕ} (hprevious : previousIndex < before.length) (left : ℕ) :
    ∃ previousIndex', parseSamples .mininet (before ++ (words ++ after)) (samples.length + left)
        (before.length % 2 ^ 32) previousIndex =
      ((samples.map fun s => .flow (expected maxHeaderBytes s)) ++
        (parseSamples .mininet (before ++ (words ++ after)) left
          ((before.length + words.length) % 2 ^ 32) previousIndex').1,
        (parseSamples .mininet (before ++ (words ++ after)) left
          ((before.length + words.length) % 2 ^ 32) previousIndex').2) := by
  induction h generalizing before previousIndex with
  | nil =>
    refine ⟨previousIndex, ?_⟩
    simp
  | @cons sample samples words rest hsample hrest ih =>
    obtain ⟨hfirst, hothers⟩ := hreach
    have hlength := length_isSample hsample
    have hat := readFlow_isSample hmax hsample (rest ++ after) hfirst
    rw [← List.append_assoc words] at hat
    obtain ⟨htype, hread⟩ := hat
    have hposition : (before ++ words).length = before.length + words.length := List.length_append
    obtain ⟨previousIndex', hnext⟩ := ih (before ++ words)
      (by rw [hposition, hlength, ← Nat.add_assoc]; exact hothers)
      (by rw [hposition]; omega : before.length < (before ++ words).length)
    rw [List.append_assoc before, ← List.append_assoc words, hposition,
      Nat.add_assoc before.length] at hnext
    refine ⟨previousIndex', ?_⟩
    have hmod : before.length % 2 ^ 32 = before.length := Nat.mod_eq_of_lt (by omega)
    have hleft : (sample :: samples).length + left = (samples.length + left) + 1 := by
      rw [List.length_cons]
      omega
    have hsize : ¬ (before ++ (words ++ rest ++ after)).length ≤ before.length + 1 := by
      simp only [List.length_append]
      omega
    rw [hleft, hmod, parseSamples, if_neg (by omega), if_neg hsize, htype]
    simp only [Option.getD_some, hread, hnext, List.length_append]
    simp

/-! ### The datagram -/

theorem length_areSamples {maxHeaderBytes : ℕ} {samples : List SampledPacket} {words : List ℕ}
    (h : AreSamples maxHeaderBytes samples words) : 22 * samples.length ≤ words.length := by
  induction h with
  | nil => exact Nat.le_refl 0
  | cons hsample _ ih =>
    have hlength := length_isSample hsample
    rw [List.length_cons, List.length_append]
    omega

/-- The header of a datagram leads to its samples. -/
theorem handlePacket_eq {mode : DeploymentMode} {bytes : List UInt8} {count : ℕ}
    {payload : List ℕ} {address subAgentId sequence uptime : ℕ} (haligned : bytes.length % 4 = 0)
    (hwords : words32 bytes = [5, 1, address, subAgentId, sequence, uptime, count] ++ payload)
    (hcount : 2 * count ≤ payload.length) :
    handlePacket mode bytes = parseSamples mode
      ([5, 1, address, subAgentId, sequence, uptime, count] ++ payload) count 7 0 := by
  have hlength := length_words32 bytes
  rw [hwords, List.length_append] at hlength
  simp only [List.length_cons, List.length_nil] at hlength
  rw [handlePacket, if_neg (by omega), if_neg (by omega), hwords]
  have hmany : ¬ (([5, 1, address, subAgentId, sequence, uptime, count] ++ payload).length - 7) / 2 <
      count := by
    simp only [List.length_append, List.length_cons, List.length_nil]
    omega
  exact if_neg hmany

/-- What was read is a packet that was sent: its ports, its rate and its length, and as much of its
frame as is sent. -/
structure ReadAs (maxHeaderBytes : ℕ) (sent : SampledPacket) (read : FlowSample) : Prop where
  inputPort : (read.inputPort : ℤ) = sent.ingressPort
  outputPort : (read.outputPort : ℤ) = sent.egressPort
  samplingRate : (read.samplingRate : ℤ) = sent.samplingRate
  frameLength : (read.frameLength : ℤ) = sent.frameLength
  header : read.header = sent.frame.take (min sent.frame.length maxHeaderBytes)

/-- From the bytes exactly the packets are read, in order, and all of them. -/
def ReadsBack (maxHeaderBytes : ℕ) (samples : List SampledPacket) (bytes : List UInt8) : Prop :=
  ∃ read, handlePacket .mininet bytes = (read.map .flow, .finished) ∧
    List.Forall₂ (ReadAs maxHeaderBytes) samples read

theorem readAs_expected {sample : SampledPacket} (h : sample.Fits) (maxHeaderBytes : ℕ) :
    ReadAs maxHeaderBytes sample (expected maxHeaderBytes sample) where
  inputPort := Int.toNat_of_nonneg h.ingressPort.1
  outputPort := Int.toNat_of_nonneg h.egressPort.1
  samplingRate := Int.toNat_of_nonneg h.samplingRate.1
  frameLength := Int.toNat_of_nonneg h.frameLength.1
  header := by
    rw [expected, List.take_eq_take_iff]
    omega

/-- **The round trip**: from the bytes that are built of packets exactly those packets are read, in
order, with their ports, their rate, their length and the part of their frame that was sent, as long
as the fixed part of every sample lies within the first `2 ^ 32` words. -/
theorem handlePacket_buildDatagram {inetAton : String → Option (UInt8 × UInt8 × UInt8 × UInt8)}
    {samples : List SampledPacket} (hsamples : ∀ s ∈ samples, s.Fits) {agent : SwitchAgent}
    {uptimeMs : ℤ} {maxHeaderBytes : ℕ} (hmax : maxHeaderBytes ≤ 256)
    (hreach : WithinReach maxHeaderBytes 7 samples) {bytes : List UInt8}
    (h : (buildDatagram inetAton samples agent uptimeMs maxHeaderBytes).1 = .ok bytes) :
    ReadsBack maxHeaderBytes samples bytes := by
  obtain ⟨haligned, address, subAgentId, sequence, uptime, payload, hwords, hpayload⟩ :=
    buildDatagram_ok h
  have hlength := length_areSamples hpayload
  refine ⟨samples.map (expected maxHeaderBytes), ?_, ?_⟩
  · rw [handlePacket_eq haligned hwords (by omega)]
    obtain ⟨previousIndex, hparsed⟩ := parseSamples_areSamples hmax hpayload
      [5, 1, address, subAgentId, sequence, uptime, samples.length] [] hreach (by decide : 0 < 7) 0
    rw [List.append_nil] at hparsed
    rw [List.map_map]
    simpa [parseSamples, Function.comp_def] using hparsed
  · rw [List.forall₂_map_right_iff, List.forall₂_same]
    exact fun s hs => readAs_expected (hsamples s hs) maxHeaderBytes

/-! ### A switch that samples one flow -/

/-- An address as the platform packs it. -/
def packAddress (address : String) : Option (UInt8 × UInt8 × UInt8 × UInt8) :=
  if address = "192.168.123.11" then some (192, 168, 123, 11) else none

/-- The agent of the first switch. -/
def firstAgent : SwitchAgent := { agentIp := "192.168.123.11" }

/-- A packet of 60 bytes, which is one sample of 37 words. -/
def shortPacket : SampledPacket where
  ingressPort := 1
  egressPort := 2
  frameLength := 60
  samplingRate := 256
  frame := List.replicate 60 0

theorem fits_shortPacket : shortPacket.Fits where
  ingressPort := by norm_num [shortPacket, Fits32]
  egressPort := by norm_num [shortPacket, Fits32]
  frameLength := by norm_num [shortPacket, Fits32]
  samplingRate := by norm_num [shortPacket, Fits32]

theorem exists_datagram {n : ℕ} (hpos : 0 < n) (hlt : n < 2 ^ 32) : ∃ bytes,
    (buildDatagram packAddress (List.replicate n shortPacket) firstAgent 0 128).1 = .ok bytes := by
  have hzero : Fits32 0 := by norm_num [Fits32]
  refine exists_buildDatagram ?_ ?_ ?_ hzero hzero rfl hzero (by norm_num)
  · exact fun hnil => by simp_all
  · rw [List.length_replicate]
    exact hlt
  · intro s hs
    rw [List.eq_of_mem_replicate hs]
    exact fits_shortPacket

/-- As many short packets as fit. -/
theorem withinReach_replicate {n position : ℕ} (h : position + 37 * n ≤ 2 ^ 32) :
    WithinReach 128 position (List.replicate n shortPacket) := by
  induction n generalizing position with
  | zero => trivial
  | succ n ih =>
    have hwords : frameWords 128 shortPacket = 15 := rfl
    refine ⟨by omega, ih ?_⟩
    rw [hwords]
    omega

/-- Two samples in one datagram. -/
theorem handlePacket_two : ∃ bytes,
    (buildDatagram packAddress [shortPacket, shortPacket] firstAgent 0 128).1 = .ok bytes ∧
      ReadsBack 128 [shortPacket, shortPacket] bytes := by
  obtain ⟨bytes, hbytes⟩ := exists_datagram (n := 2) (by norm_num) (by norm_num)
  refine ⟨bytes, hbytes, handlePacket_buildDatagram ?_ (by norm_num)
    (withinReach_replicate (n := 2) (by norm_num)) hbytes⟩
  intro s hs
  rw [List.eq_of_mem_replicate (n := 2) hs]
  exact fits_shortPacket

theorem areSamples_concat {maxHeaderBytes : ℕ} {samples : List SampledPacket}
    {sample : SampledPacket} {words : List ℕ}
    (h : AreSamples maxHeaderBytes (samples ++ [sample]) words) :
    ∃ first last, words = first ++ last ∧ AreSamples maxHeaderBytes samples first := by
  induction samples generalizing words with
  | nil => exact ⟨[], words, rfl, .nil⟩
  | cons s samples ih =>
    cases h with
    | @cons _ _ words rest hsample hrest =>
      obtain ⟨first, last, rfl, hfirst⟩ := ih hrest
      exact ⟨words ++ first, last, (List.append_assoc _ _ _).symm, .cons hsample hfirst⟩

theorem length_areSamples_replicate {n : ℕ} {words : List ℕ}
    (h : AreSamples 128 (List.replicate n shortPacket) words) : words.length = 37 * n := by
  induction n generalizing words with
  | zero =>
    cases h
    rfl
  | succ n ih =>
    cases h with
    | cons hsample hrest =>
      have hwords : frameWords 128 shortPacket = 15 := rfl
      rw [List.length_append, length_isSample hsample, hwords, ih hrest]
      omega

/-- **The position wraps**: `37 * 116080197` words of samples and 7 of the header are `2 ^ 32`, so
the sample behind them is not read, and the datagram is taken for malformed. -/
theorem handlePacket_wraps : (∀ s ∈ List.replicate 116080198 shortPacket, s.Fits) ∧
    ∃ bytes, (buildDatagram packAddress (List.replicate 116080198 shortPacket) firstAgent 0
        128).1 = .ok bytes ∧
      (handlePacket .mininet bytes).2 = .noProgress ∧
      ¬ ReadsBack 128 (List.replicate 116080198 shortPacket) bytes := by
  refine ⟨fun s hs => List.eq_of_mem_replicate hs ▸ fits_shortPacket, ?_⟩
  obtain ⟨bytes, hbytes⟩ := exists_datagram (n := 116080198) (by norm_num) (by norm_num)
  refine ⟨bytes, hbytes, ?_⟩
  have hverdict : (handlePacket .mininet bytes).2 = .noProgress := by
    obtain ⟨haligned, address, subAgentId, sequence, uptime, payload, hwords, hpayload⟩ :=
      buildDatagram_ok hbytes
    have hlength := length_areSamples hpayload
    rw [handlePacket_eq haligned hwords (by omega)]
    rw [List.replicate_succ' (n := 116080197)] at hpayload
    obtain ⟨first, last, rfl, hfirst⟩ := areSamples_concat hpayload
    have hcount := length_areSamples_replicate hfirst
    obtain ⟨previousIndex, hparsed⟩ := parseSamples_areSamples (by norm_num) hfirst
      [5, 1, address, subAgentId, sequence, uptime,
        (List.replicate 116080198 shortPacket).length] last
      (withinReach_replicate (by norm_num)) (by decide : 0 < 7) 1
    simp only [List.length_replicate, List.length_cons, List.length_nil, Nat.reduceAdd,
      Nat.reduceMod, Nat.reducePow, hcount, Nat.reduceMul] at hparsed ⊢
    rw [hparsed]
    -- the loop is back at the beginning of the datagram
    rw [parseSamples, if_pos (Nat.zero_le previousIndex)]
  refine ⟨hverdict, ?_⟩
  rintro ⟨read, hread, -⟩
  rw [hread] at hverdict
  cases hverdict

end NDTwin.Telemetry
