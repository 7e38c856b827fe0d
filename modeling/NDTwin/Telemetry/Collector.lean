import NDTwin.Lib.Fixed
import NDTwin.Lib.Words

/-!
# Datagrams as samples

The collector reads a datagram through fixed word offsets.  Two vendors are known by the types of
their samples, and in a simulated network the first record of a flow sample is skipped before
anything is read about the packet.  The read position is an unsigned number of 32 bits, which is
moved by lengths that the datagram states; reading past the end throws, and what was handled by then
stays handled.

## Main definitions

* `readSampledHeader` — the sampled frame, between three bounds.
* `readCounter`, `readFlow` — one sample, and the position after it.
* `parseSamples`, `handlePacket` — the samples of a datagram, and how reading it ended.
-/

namespace NDTwin.Telemetry

open Fixed Words

/-- Whether the network is simulated. -/
inductive DeploymentMode where
  | mininet | testbed
  deriving DecidableEq, Repr

/-- A counter sample. -/
structure CounterSample where
  interfaceIndex : ℕ
  interfaceSpeed : ℕ
  inputOctets : ℕ
  outputOctets : ℕ
  deriving DecidableEq, Repr

/-- What is read of a flow sample, its ports as the datagram has them. -/
structure FlowSample where
  inputPort : ℕ
  outputPort : ℕ
  samplingRate : ℕ
  frameLength : ℕ
  header : List UInt8
  deriving DecidableEq, Repr

/-- A sample that was handled. -/
inductive Sample where
  | counter (sample : CounterSample)
  | flow (sample : FlowSample)
  deriving DecidableEq, Repr

/-- How reading a datagram ended. -/
inductive Verdict where
  /-- Too short for a header, or not made of words. -/
  | ignored
  | unsupportedVersion
  /-- It claims more samples than it can hold. -/
  | tooManySamples
  /-- All samples were read. -/
  | finished
  /-- Malformed: the read position did not advance. -/
  | noProgress
  | reachedEnd
  /-- A sample of unknown type and of no length. -/
  | unknownSample
  /-- Malformed: a read past the end. -/
  | truncated
  deriving DecidableEq, Repr

/-- `kMaxSampledHeaderBytes`. -/
def maxSampledHeaderBytes : ℕ := 256

/-- The loop of `readSampledHeader`: bytes of words, until there are enough or no words are
left. -/
def liftBytes (availableBytes : ℕ) : List ℕ → List UInt8
  | [] => []
  | word :: words =>
    if availableBytes = 0 then []
    else (bytes32 word).take availableBytes ++ liftBytes (availableBytes - 4) words

/-- `readSampledHeader(data, startWord, endWord, declaredCapturedBytes)`. -/
def readSampledHeader (data : List ℕ) (startWord endWord declaredCapturedBytes : ℕ) : List UInt8 :=
  if endWord ≤ startWord then []
  else
    let availableBytes := (endWord - startWord) * 4
    let availableBytes :=
      if 0 < declaredCapturedBytes ∧ declaredCapturedBytes < availableBytes then
        declaredCapturedBytes
      else availableBytes
    liftBytes (min availableBytes maxSampledHeaderBytes) (data.drop startWord)

/-- Two words as a number of 64 bits. -/
def readUint64 (data : List ℕ) (high low : ℕ) : Option ℕ := do
  return (← data[high]?) * 2 ^ 32 + (← data[low]?)

/-- A counter sample of type 2 or 4, and the position after it. -/
def readCounter (data : List ℕ) (index sampleType : ℕ) : Option (CounterSample × ℕ) := do
  -- the first vendor has another record before the one that is read
  let base := if sampleType = 2 then 4 + 15 else 5
  let sampleLen ← data[addU 32 index 1]?
  let interfaceIndex ← data[addU 32 index (base + 3)]?
  let interfaceSpeed ← readUint64 data (addU 32 index (base + 5)) (addU 32 index (base + 6))
  let inputOctets ← readUint64 data (addU 32 index (base + 9)) (addU 32 index (base + 10))
  let outputOctets ← readUint64 data (addU 32 index (base + 17)) (addU 32 index (base + 18))
  return (⟨interfaceIndex, interfaceSpeed, inputOctets, outputOctets⟩,
    addU 32 index (sampleLen / 4 + 2))

/-- The words of the record that is skipped. -/
def skippedWords (mode : DeploymentMode) (flowDataLength : ℕ) : ℕ :=
  match mode with
  | .mininet => flowDataLength / 4 + 2
  | .testbed => 0

/-- Where a sample ends: the end of the datagram, where its own lengths do not say. -/
def sampleEndWord (words index sampleLen skipped : ℕ) : ℕ :=
  let advanceWords := sampleLen / 4 + 2 - skipped
  if 0 < advanceWords ∧ index + advanceWords ≤ words then index + advanceWords else words

/-- The position after a flow sample, from where the skipped record has left it. -/
def nextSample (mode : DeploymentMode) (index sampleLen flowDataLength : ℕ) : ℕ :=
  match mode with
  | .mininet => addU 32 index (subU 32 (sampleLen / 4 + 2) (flowDataLength / 4 + 2))
  | .testbed => addU 32 index (sampleLen / 4 + 2)

/-- A flow sample of type 1 or 3, and the position after it. -/
def readFlow (mode : DeploymentMode) (data : List ℕ) (index sampleType : ℕ) :
    Option (FlowSample × ℕ) := do
  let sampleLen ← data[addU 32 index 1]?
  if sampleType = 1 then
    let samplingRate ← data[addU 32 index 4]?
    let inputPort ← data[addU 32 index 7]?
    let outputPort ← data[addU 32 index 8]?
    let (flowDataLength, index) ← match mode with
      | .mininet => do
        let flowDataLength ← data[addU 32 index 11]?
        pure (flowDataLength, addU 32 index (flowDataLength / 4 + 2))
      | .testbed => pure (0, index)
    let frameLength ← data[addU 32 index 13]?
    let declaredCapturedBytes ← data[addU 32 index 15]?
    let endWord := sampleEndWord data.length index sampleLen (skippedWords mode flowDataLength)
    let header := readSampledHeader data (index + 16) endWord declaredCapturedBytes
    return (⟨inputPort, outputPort, samplingRate, frameLength, header⟩,
      nextSample mode index sampleLen flowDataLength)
  else
    let samplingRate ← data[addU 32 index 5]?
    let inputPort ← data[addU 32 index 9]?
    let outputPort ← data[addU 32 index 11]?
    let frameLength ← data[addU 32 index (12 + 4)]?
    -- this vendor's layout does not say how much was captured
    let endWord := sampleEndWord data.length index sampleLen (skippedWords mode 0)
    let header := readSampledHeader data (index + 20) endWord 0
    return (⟨inputPort, outputPort, samplingRate, frameLength, header⟩,
      nextSample mode index sampleLen 0)

/-- The loop over the samples: those that were handled, and how it ended. -/
def parseSamples (mode : DeploymentMode) (data : List ℕ) :
    (left index previousIndex : ℕ) → List Sample × Verdict
  | 0, _, _ => ([], .finished)
  | left + 1, index, previousIndex =>
    if index ≤ previousIndex then ([], .noProgress)
    else if data.length ≤ index + 1 then ([], .reachedEnd)
    else
      let sampleType := (data[index]?).getD 0
      if sampleType = 2 ∨ sampleType = 4 then
        match readCounter data index sampleType with
        | none => ([], .truncated)
        | some (sample, next) =>
          let (rest, verdict) := parseSamples mode data left next index
          (.counter sample :: rest, verdict)
      else if sampleType = 1 ∨ sampleType = 3 then
        match readFlow mode data index sampleType with
        | none => ([], .truncated)
        | some (sample, next) =>
          let (rest, verdict) := parseSamples mode data left next index
          (.flow sample :: rest, verdict)
      else
        let sampleLen := (data[addU 32 index 1]?).getD 0
        if 0 < sampleLen then parseSamples mode data left (addU 32 index (sampleLen / 4 + 2)) index
        else ([], .unknownSample)

/-- `handlePacket(buffer, len)`: the samples it handles, and how reading ended. -/
def handlePacket (mode : DeploymentMode) (buffer : List UInt8) : List Sample × Verdict :=
  if buffer.length < 7 * 4 then ([], .ignored)
  else if buffer.length % 4 ≠ 0 then ([], .ignored)
  else
    let data := words32 buffer
    let version := (data[0]?).getD 0
    if version ≠ 5 then ([], .unsupportedVersion)
    else
      let sampleCount := (data[6]?).getD 0
      let maxPossibleSamples := (data.length - 7) / 2
      if maxPossibleSamples < sampleCount then ([], .tooManySamples)
      else parseSamples mode data sampleCount 7 0

end NDTwin.Telemetry
