import Mathlib.Data.List.Chain
import NDTwin.Lib.Reads
import NDTwin.Telemetry.Collector

/-!
# The walk over the samples

The collector walks over the samples of a datagram by the lengths that the samples declare, and reads
each of them through a view that refuses to read past the end.  Here the walk is a program that reads
a memory in which the datagram is followed by anything, so that what is read, and where, can be said.

In a simulated network the read position is moved forward inside a flow sample of the first vendor and
corrected after it.  A flow sample of the second vendor is corrected too, though nothing was moved.

## Main definitions

* `readSample`, `walkSamples`, `walkPacket` — `handlePacket`, as a program that reads.
* `memory` — a datagram in memory, followed by anything.
* `Readable`, `stride` — a sample that the walk can leave, and how far it goes on from there.
* `FollowsLengths` — the walk goes from sample to sample by the declared lengths, inside the datagram.
* `Steady` — no sample follows the first one that is corrected without having been moved.

## Main results

* `walkPacket_eq` — **the program does what `handlePacket` does.**
* `within_walkPacket` — no word outside the datagram is read.
* `next_sampleAt` — where the walk goes on, in 32 bits and whatever the lengths.
* `followsLengths_iff` — **the walk follows the declared lengths exactly on steady datagrams.**
-/

namespace NDTwin.Telemetry

open Fixed Words

/-! ### The program -/

/-- A word of the datagram, as a number. -/
def word (words i : ℕ) : Checked UInt32 ℕ := do
  let w ← Checked.get words i
  return w.toNat

/-- Two words as a number of 64 bits. -/
def word64 (words high low : ℕ) : Checked UInt32 ℕ := do
  let h ← word words high
  let l ← word words low
  return h * 2 ^ 32 + l

/-- A counter sample, as `readCounter` has it. -/
def counterSample (words index sampleType : ℕ) : Checked UInt32 (CounterSample × ℕ) := do
  let base := if sampleType = 2 then 4 + 15 else 5
  let sampleLen ← word words (addU 32 index 1)
  let interfaceIndex ← word words (addU 32 index (base + 3))
  let interfaceSpeed ← word64 words (addU 32 index (base + 5)) (addU 32 index (base + 6))
  let inputOctets ← word64 words (addU 32 index (base + 9)) (addU 32 index (base + 10))
  let outputOctets ← word64 words (addU 32 index (base + 17)) (addU 32 index (base + 18))
  return (⟨interfaceIndex, interfaceSpeed, inputOctets, outputOctets⟩,
    addU 32 index (sampleLen / 4 + 2))

/-- The loop of `readSampledHeader`, for at most so many turns. -/
def liftWords (words : ℕ) : (turns availableBytes next : ℕ) → Reads UInt32 (List UInt8)
  | 0, _, _ => pure []
  | turns + 1, availableBytes, next =>
    if availableBytes = 0 ∨ words ≤ next then pure []
    else do
      let value ← Reads.get next
      let rest ← liftWords words turns (availableBytes - 4) (next + 1)
      return (bytes32 value.toNat).take availableBytes ++ rest

/-- The sampled frame, as `readSampledHeader` has it. -/
def sampledHeader (words startWord endWord declaredCapturedBytes : ℕ) : Reads UInt32 (List UInt8) :=
  if endWord ≤ startWord then pure []
  else
    let availableBytes := (endWord - startWord) * 4
    let availableBytes :=
      if 0 < declaredCapturedBytes ∧ declaredCapturedBytes < availableBytes then
        declaredCapturedBytes
      else availableBytes
    let availableBytes := min availableBytes maxSampledHeaderBytes
    liftWords words availableBytes availableBytes startWord

/-- The record that is skipped in a simulated network: its length, and the position after it. -/
def skipRecord (mode : DeploymentMode) (words index : ℕ) : Checked UInt32 (ℕ × ℕ) :=
  match mode with
  | .mininet => do
    let flowDataLength ← word words (addU 32 index 11)
    return (flowDataLength, addU 32 index (flowDataLength / 4 + 2))
  | .testbed => pure (0, index)

/-- A flow sample, as `readFlow` has it. -/
def flowSample (mode : DeploymentMode) (words index sampleType : ℕ) :
    Checked UInt32 (FlowSample × ℕ) := do
  let sampleLen ← word words (addU 32 index 1)
  if sampleType = 1 then
    let samplingRate ← word words (addU 32 index 4)
    let inputPort ← word words (addU 32 index 7)
    let outputPort ← word words (addU 32 index 8)
    let (flowDataLength, index) ← skipRecord mode words index
    let frameLength ← word words (addU 32 index 13)
    let declaredCapturedBytes ← word words (addU 32 index 15)
    let endWord := sampleEndWord words index sampleLen (skippedWords mode flowDataLength)
    let header ← OptionT.lift (sampledHeader words (index + 16) endWord declaredCapturedBytes)
    return (⟨inputPort, outputPort, samplingRate, frameLength, header⟩,
      nextSample mode index sampleLen flowDataLength)
  else
    let samplingRate ← word words (addU 32 index 5)
    let inputPort ← word words (addU 32 index 9)
    let outputPort ← word words (addU 32 index 11)
    let frameLength ← word words (addU 32 index (12 + 4))
    let endWord := sampleEndWord words index sampleLen (skippedWords mode 0)
    let header ← OptionT.lift (sampledHeader words (index + 20) endWord 0)
    return (⟨inputPort, outputPort, samplingRate, frameLength, header⟩,
      nextSample mode index sampleLen 0)

/-- What comes of a sample that is examined. -/
inductive Examined where
  /-- It is handled, and the walk goes on from a position. -/
  | handled (sample : Sample) (next : ℕ)
  /-- It is of unknown type, and the walk goes on from a position. -/
  | skipped (next : ℕ)
  /-- It is of unknown type and of no length. -/
  | unknown
  deriving DecidableEq, Repr

/-- One turn of the loop, past its guards. -/
def readSample (mode : DeploymentMode) (words index : ℕ) : Checked UInt32 Examined := do
  let sampleType ← word words index
  if sampleType = 2 ∨ sampleType = 4 then
    let (sample, next) ← counterSample words index sampleType
    return .handled (.counter sample) next
  else if sampleType = 1 ∨ sampleType = 3 then
    let (sample, next) ← flowSample mode words index sampleType
    return .handled (.flow sample) next
  else
    let sampleLen ← word words (addU 32 index 1)
    if 0 < sampleLen then return .skipped (addU 32 index (sampleLen / 4 + 2)) else return .unknown

/-- What a walk comes to: the samples it handled, how it ended, and where the samples that it examined
begin. -/
structure Walked where
  samples : List Sample
  verdict : Verdict
  examined : List ℕ

/-- The loop over the samples. -/
def walkSamples (mode : DeploymentMode) (words : ℕ) :
    (left index previousIndex : ℕ) → Reads UInt32 Walked
  | 0, _, _ => pure ⟨[], .finished, []⟩
  | left + 1, index, previousIndex =>
    if index ≤ previousIndex then pure ⟨[], .noProgress, []⟩
    else if words ≤ index + 1 then pure ⟨[], .reachedEnd, []⟩
    else do
      match ← (readSample mode words index).run with
      | none => return ⟨[], .truncated, [index]⟩
      | some .unknown => return ⟨[], .unknownSample, [index]⟩
      | some (.skipped next) =>
        let rest ← walkSamples mode words left next index
        return { rest with examined := index :: rest.examined }
      | some (.handled sample next) =>
        let rest ← walkSamples mode words left next index
        return ⟨sample :: rest.samples, rest.verdict, index :: rest.examined⟩

/-- `handlePacket(buffer, len)`. -/
def walkPacket (mode : DeploymentMode) (len : ℕ) : Reads UInt32 Walked :=
  if len < 7 * 4 then pure ⟨[], .ignored, []⟩
  else if len % 4 ≠ 0 then pure ⟨[], .ignored, []⟩
  else do
    let words := len / 4
    match ← (word words 0).run with
    | none => return ⟨[], .truncated, []⟩
    | some version =>
      if version ≠ 5 then return ⟨[], .unsupportedVersion, []⟩
      else
        -- the agent's address is read too
        match ← (do let _ ← word words 2; word words 6 : Checked UInt32 ℕ).run with
        | none => return ⟨[], .truncated, []⟩
        | some sampleCount =>
          let maxPossibleSamples := (words - 7) / 2
          if maxPossibleSamples < sampleCount then return ⟨[], .tooManySamples, []⟩
          else walkSamples mode words sampleCount 7 0

/-! ### Bounds -/

section Within

open Checked

theorem within_word (words i : ℕ) : Within words (word words i) :=
  (within_get words i).bind fun w => within_pure words w.toNat

theorem within_word64 (words high low : ℕ) : Within words (word64 words high low) :=
  (within_word words high).bind fun h => (within_word words low).bind fun l =>
    within_pure words (h * 2 ^ 32 + l)

theorem within_counterSample (words index sampleType : ℕ) :
    Within words (counterSample words index sampleType) := by
  refine (within_word _ _).bind fun sampleLen => (within_word _ _).bind ?_
  intro interfaceIndex
  refine (within_word64 _ _ _).bind ?_
  intro interfaceSpeed
  refine (within_word64 _ _ _).bind ?_
  intro inputOctets
  exact (within_word64 _ _ _).bind fun outputOctets => within_pure _ _

theorem within_liftWords (words turns availableBytes next : ℕ) :
    Reads.Within words (liftWords words turns availableBytes next) := by
  induction turns generalizing availableBytes next with
  | zero => exact Reads.within_pure words []
  | succ turns ih =>
    unfold liftWords
    split
    · exact Reads.within_pure words []
    · next h =>
      refine (Reads.within_get (by omega)).bind ?_
      intro value
      exact (ih _ _).bind fun rest => Reads.within_pure words _

theorem within_sampledHeader (words startWord endWord declaredCapturedBytes : ℕ) :
    Reads.Within words (sampledHeader words startWord endWord declaredCapturedBytes) := by
  unfold sampledHeader
  split
  · exact Reads.within_pure words []
  · exact within_liftWords _ _ _ _

theorem within_skipRecord (mode : DeploymentMode) (words index : ℕ) :
    Within words (skipRecord mode words index) := by
  cases mode with
  | mininet => exact (within_word _ _).bind fun flowDataLength => within_pure _ _
  | testbed => exact within_pure _ _

theorem within_flowSample (mode : DeploymentMode) (words index sampleType : ℕ) :
    Within words (flowSample mode words index sampleType) := by
  unfold flowSample
  refine (within_word _ _).bind ?_
  intro sampleLen
  split
  · refine (within_word _ _).bind fun samplingRate => (within_word _ _).bind ?_
    intro inputPort
    refine (within_word _ _).bind ?_
    intro outputPort
    refine (within_skipRecord mode words index).bind ?_
    intro p
    refine (within_word _ _).bind fun frameLength => (within_word _ _).bind ?_
    intro declared
    exact (within_lift (within_sampledHeader _ _ _ _)).bind fun header => within_pure _ _
  · refine (within_word _ _).bind fun samplingRate => (within_word _ _).bind ?_
    intro inputPort
    refine (within_word _ _).bind fun outputPort => (within_word _ _).bind ?_
    intro frameLength
    exact (within_lift (within_sampledHeader _ _ _ _)).bind fun header => within_pure _ _

theorem within_readSample (mode : DeploymentMode) (words index : ℕ) :
    Within words (readSample mode words index) := by
  refine (within_word _ _).bind ?_
  intro sampleType
  split
  · exact (within_counterSample _ _ _).bind fun p => within_pure _ _
  · split
    · exact (within_flowSample _ _ _ _).bind fun p => within_pure _ _
    · refine (within_word _ _).bind ?_
      intro sampleLen
      split <;> exact within_pure _ _

theorem within_walkSamples (mode : DeploymentMode) (words left index previousIndex : ℕ) :
    Reads.Within words (walkSamples mode words left index previousIndex) := by
  induction left generalizing index previousIndex with
  | zero => exact Reads.within_pure words _
  | succ left ih =>
    unfold walkSamples
    split
    · exact Reads.within_pure words _
    · split
      · exact Reads.within_pure words _
      · refine Reads.Within.bind (within_readSample mode words index) ?_
        intro examined
        split
        · exact Reads.within_pure words _
        · exact Reads.within_pure words _
        · exact (ih _ _).bind fun rest => Reads.within_pure words _
        · exact (ih _ _).bind fun rest => Reads.within_pure words _

/-- **No word outside the datagram is read.** -/
theorem within_walkPacket (mode : DeploymentMode) (len : ℕ) :
    Reads.Within (len / 4) (walkPacket mode len) := by
  unfold walkPacket
  split
  · exact Reads.within_pure _ _
  · split
    · exact Reads.within_pure _ _
    · refine Reads.Within.bind (within_word (len / 4) 0) ?_
      intro version
      split
      · exact Reads.within_pure _ _
      · split
        · exact Reads.within_pure _ _
        · refine Reads.Within.bind ((within_word (len / 4) 2).bind fun _ => within_word (len / 4) 6)
            fun sampleCount => ?_
          split
          · exact Reads.within_pure _ _
          · dsimp only
            split
            · exact Reads.within_pure _ _
            · exact within_walkSamples _ _ _ _ _

end Within

/-! ### The program and the parser -/

/-- A datagram in memory, followed by anything. -/
def memory (data : List ℕ) (beyond : ℕ → UInt32) (i : ℕ) : UInt32 :=
  match data[i]? with
  | some w => UInt32.ofNat w
  | none => beyond i

/-- What comes of the sample at a position, by the parser. -/
def sampleAt (mode : DeploymentMode) (data : List ℕ) (index : ℕ) : Option Examined :=
  let sampleType := (data[index]?).getD 0
  if sampleType = 2 ∨ sampleType = 4 then
    (readCounter data index sampleType).map fun p => .handled (.counter p.1) p.2
  else if sampleType = 1 ∨ sampleType = 3 then
    (readFlow mode data index sampleType).map fun p => .handled (.flow p.1) p.2
  else
    let sampleLen := (data[addU 32 index 1]?).getD 0
    if 0 < sampleLen then some (.skipped (addU 32 index (sampleLen / 4 + 2))) else some .unknown

section Run

open Checked

variable {data : List ℕ} (hdata : ∀ w ∈ data, w < 2 ^ 32) (beyond : ℕ → UInt32)

include hdata

theorem memory_toNat {i : ℕ} (h : i < data.length) : (memory data beyond i).toNat = data[i] := by
  unfold memory
  rw [List.getElem?_eq_getElem h]
  exact UInt32.toNat_ofNat_of_lt' (hdata _ (List.getElem_mem h))

theorem run?_word (i : ℕ) : run? (memory data beyond) (word data.length i) = data[i]? := by
  unfold word
  rw [run?_bind, run?_get]
  split
  · next h =>
    rw [List.getElem?_eq_getElem h]
    exact congrArg some (memory_toNat hdata beyond h)
  · next h => exact (List.getElem?_eq_none (by omega)).symm

theorem run?_word64 (high low : ℕ) :
    run? (memory data beyond) (word64 data.length high low) = readUint64 data high low := by
  unfold word64 readUint64
  simp only [run?_bind, run?_word hdata, run?_pure]
  rfl

theorem run?_counterSample (index sampleType : ℕ) :
    run? (memory data beyond) (counterSample data.length index sampleType)
      = readCounter data index sampleType := by
  unfold counterSample readCounter
  simp only [run?_bind, run?_word hdata, run?_word64 hdata, run?_pure]
  rfl

/-- The words are lifted into bytes from where the header begins. -/
theorem run_liftWords {turns availableBytes : ℕ} (h : availableBytes ≤ turns) (next : ℕ) :
    Reads.run (memory data beyond) (liftWords data.length turns availableBytes next)
      = liftBytes availableBytes (data.drop next) := by
  induction turns generalizing availableBytes next with
  | zero =>
    obtain rfl : availableBytes = 0 := by omega
    cases data.drop next <;> rfl
  | succ turns ih =>
    unfold liftWords
    by_cases hnext : next < data.length
    · rw [List.drop_eq_getElem_cons hnext, liftBytes]
      by_cases hzero : availableBytes = 0
      · rw [if_pos (Or.inl hzero), if_pos hzero]
        rfl
      · rw [if_neg (by omega), if_neg hzero]
        simp only [Reads.run_bind, Reads.run_get, Reads.run_pure, memory_toNat hdata beyond hnext]
        rw [ih (by omega)]
    · rw [if_pos (Or.inr (by omega)), List.drop_eq_nil_of_le (by omega)]
      rfl

theorem run_sampledHeader (startWord endWord declaredCapturedBytes : ℕ) :
    Reads.run (memory data beyond)
        (sampledHeader data.length startWord endWord declaredCapturedBytes)
      = readSampledHeader data startWord endWord declaredCapturedBytes := by
  unfold sampledHeader readSampledHeader
  split
  · rfl
  · exact run_liftWords hdata beyond le_rfl startWord

theorem run?_flowSample (mode : DeploymentMode) (index sampleType : ℕ) :
    run? (memory data beyond) (flowSample mode data.length index sampleType)
      = readFlow mode data index sampleType := by
  unfold flowSample readFlow
  rw [run?_bind, run?_word hdata]
  refine congrArg (Option.bind _) (funext fun sampleLen => ?_)
  split
  · cases mode <;>
    · simp only [skipRecord, run?_bind, run?_word hdata, run?_lift, run_sampledHeader hdata,
        run?_pure, Option.bind_assoc]
      rfl
  · simp only [run?_bind, run?_word hdata, run?_lift, run_sampledHeader hdata, run?_pure]
    rfl

/-- Reading a sample in memory, by the parser. -/
theorem run?_readSample (mode : DeploymentMode) {index : ℕ} (h : index + 1 < data.length) :
    run? (memory data beyond) (readSample mode data.length index) = sampleAt mode data index := by
  have htype : data[index]? = some (data[index]?.getD 0) := by
    rw [List.getElem?_eq_getElem (by omega : index < data.length)]
    rfl
  have hnext : addU 32 index 1 < data.length := by
    unfold addU
    omega
  have hlen : data[addU 32 index 1]? = some (data[addU 32 index 1]?.getD 0) := by
    rw [List.getElem?_eq_getElem hnext]
    rfl
  unfold readSample sampleAt
  rw [run?_bind, run?_word hdata, htype]
  dsimp only [Option.bind_some, Option.getD_some]
  split
  · rw [run?_bind, run?_counterSample hdata]
    cases readCounter data index _ <;> rfl
  · split
    · rw [run?_bind, run?_flowSample hdata]
      cases readFlow mode data index _ <;> rfl
    · rw [run?_bind, run?_word hdata, hlen]
      dsimp only [Option.bind_some, Option.getD_some]
      split <;> rfl

/-- One turn of the loop. -/
theorem run_walkSamples_succ (mode : DeploymentMode) (left index previousIndex : ℕ) :
    Reads.run (memory data beyond) (walkSamples mode data.length (left + 1) index previousIndex)
      = if index ≤ previousIndex then ⟨[], .noProgress, []⟩
        else if data.length ≤ index + 1 then ⟨[], .reachedEnd, []⟩
        else
          match sampleAt mode data index with
          | none => ⟨[], .truncated, [index]⟩
          | some .unknown => ⟨[], .unknownSample, [index]⟩
          | some (.skipped next) =>
            let rest := Reads.run (memory data beyond)
              (walkSamples mode data.length left next index)
            { rest with examined := index :: rest.examined }
          | some (.handled sample next) =>
            let rest := Reads.run (memory data beyond)
              (walkSamples mode data.length left next index)
            ⟨sample :: rest.samples, rest.verdict, index :: rest.examined⟩ := by
  rw [walkSamples]
  split
  · rfl
  · split
    · rfl
    · next hend =>
      have hread : Reads.run (memory data beyond) (readSample mode data.length index).run
          = sampleAt mode data index := run?_readSample hdata beyond mode (by omega)
      rw [Reads.run_bind, hread]
      match sampleAt mode data index with
      | none => rfl
      | some .unknown => rfl
      | some (.skipped next) => exact Reads.run_bind _ _ _
      | some (.handled sample next) => exact Reads.run_bind _ _ _

/-- The samples that the loop handles, and how it ends. -/
theorem run_walkSamples (mode : DeploymentMode) (left index previousIndex : ℕ) :
    ((Reads.run (memory data beyond) (walkSamples mode data.length left index previousIndex)).samples,
      (Reads.run (memory data beyond)
        (walkSamples mode data.length left index previousIndex)).verdict)
      = parseSamples mode data left index previousIndex := by
  induction left generalizing index previousIndex with
  | zero => rfl
  | succ left ih =>
    rw [run_walkSamples_succ hdata, parseSamples, sampleAt]
    dsimp only
    split
    · rfl
    · split
      · rfl
      · by_cases hcounter : data[index]?.getD 0 = 2 ∨ data[index]?.getD 0 = 4
        · rw [if_pos hcounter, if_pos hcounter]
          cases readCounter data index _ with
          | none => rfl
          | some p =>
            dsimp only [Option.map_some]
            rw [← ih]
        · rw [if_neg hcounter, if_neg hcounter]
          by_cases hflow : data[index]?.getD 0 = 1 ∨ data[index]?.getD 0 = 3
          · rw [if_pos hflow, if_pos hflow]
            cases readFlow mode data index _ with
            | none => rfl
            | some p =>
              dsimp only [Option.map_some]
              rw [← ih]
          · rw [if_neg hflow, if_neg hflow]
            by_cases hlen : 0 < data[addU 32 index 1]?.getD 0
            · rw [if_pos hlen, if_pos hlen]
              exact ih _ _
            · rw [if_neg hlen, if_neg hlen]

end Run

/-- What the walk over a datagram comes to. -/
def walked (mode : DeploymentMode) (buffer : List UInt8) (beyond : ℕ → UInt32) : Walked :=
  Reads.run (memory (words32 buffer) beyond) (walkPacket mode buffer.length)

/-- The walk over a datagram that is long enough and made of words. -/
theorem walked_eq (mode : DeploymentMode) {buffer : List UInt8} (beyond : ℕ → UInt32)
    (hlen : 7 * 4 ≤ buffer.length) (hwords : buffer.length % 4 = 0) :
    walked mode buffer beyond
      = if (words32 buffer)[0]?.getD 0 ≠ 5 then ⟨[], .unsupportedVersion, []⟩
        else if ((words32 buffer).length - 7) / 2 < (words32 buffer)[6]?.getD 0 then
          ⟨[], .tooManySamples, []⟩
        else Reads.run (memory (words32 buffer) beyond)
          (walkSamples mode (words32 buffer).length ((words32 buffer)[6]?.getD 0) 7 0) := by
  have hdata : ∀ w ∈ words32 buffer, w < 2 ^ 32 := fun w hw => lt_of_mem_words32 hw
  have hcount := length_words32 buffer
  have hread (i : ℕ) (hi : i < 7) :
      Checked.run? (memory (words32 buffer) beyond) (word (words32 buffer).length i)
        = some ((words32 buffer)[i]?.getD 0) := by
    rw [run?_word hdata beyond, List.getElem?_eq_getElem (by omega)]
    rfl
  have hversion : Reads.run (memory (words32 buffer) beyond) (word (words32 buffer).length 0).run
      = some ((words32 buffer)[0]?.getD 0) := hread 0 (by omega)
  have hsamples : Reads.run (memory (words32 buffer) beyond)
      (do let _ ← word (words32 buffer).length 2; word (words32 buffer).length 6 :
        Checked UInt32 ℕ).run = some ((words32 buffer)[6]?.getD 0) := by
    refine (Checked.run?_bind _ _ _).trans ?_
    rw [hread 2 (by omega), Option.bind_some, hread 6 (by omega)]
  unfold walked walkPacket
  rw [if_neg (by omega), if_neg (by omega), ← hcount]
  dsimp only
  rw [Reads.run_bind, hversion]
  dsimp only
  split
  · rfl
  · rw [Reads.run_bind, hsamples]
    dsimp only
    split <;> rfl

/-- **The program does what `handlePacket` does.** -/
theorem walkPacket_eq (mode : DeploymentMode) (buffer : List UInt8) (beyond : ℕ → UInt32) :
    ((walked mode buffer beyond).samples, (walked mode buffer beyond).verdict)
      = handlePacket mode buffer := by
  unfold handlePacket
  split
  · next hlen =>
    rw [walked, walkPacket, if_pos hlen]
    rfl
  · split
    · next hlen hwords =>
      rw [walked, walkPacket, if_neg hlen, if_pos hwords]
      rfl
    · next hlen hwords =>
      rw [walked_eq mode beyond (by omega) (by omega)]
      dsimp only
      split
      · rfl
      · split
        · rfl
        · exact run_walkSamples (fun w hw => lt_of_mem_words32 hw) beyond mode _ _ _

/-! ### The position after a sample -/

/-- The length that the sample at a position declares. -/
def declaredLength (data : List ℕ) (index : ℕ) : ℕ := (data[addU 32 index 1]?).getD 0

/-- Some words, by their distance from a position, are inside the datagram. -/
def Inside (data : List ℕ) (index : ℕ) (offsets : List ℕ) : Prop :=
  ∀ o ∈ offsets, addU 32 index o < data.length

instance (data : List ℕ) (index : ℕ) (offsets : List ℕ) : Decidable (Inside data index offsets) :=
  inferInstanceAs (Decidable (∀ o ∈ offsets, addU 32 index o < data.length))

@[simp] theorem inside_nil (data : List ℕ) (index : ℕ) : Inside data index [] :=
  fun _ h => absurd h List.not_mem_nil

@[simp] theorem inside_cons (data : List ℕ) (index o : ℕ) (offsets : List ℕ) :
    Inside data index (o :: offsets)
      ↔ addU 32 index o < data.length ∧ Inside data index offsets := List.forall_mem_cons

/-- The words that are read of a sample, by its type. -/
def fieldOffsets : DeploymentMode → (sampleType : ℕ) → List ℕ
  | _, 2 => [1, 22, 24, 25, 28, 29, 36, 37]
  | _, 4 => [1, 8, 10, 11, 14, 15, 22, 23]
  | .testbed, 1 => [1, 4, 7, 8, 13, 15]
  | .mininet, 1 => [1, 4, 7, 8, 11]
  | _, 3 => [1, 5, 9, 11, 16]
  | _, _ => [1]

/-- The sample at a position can be read and left: its fields are inside the datagram, also those
after a record that is skipped, and it declares a length if its type is unknown. -/
def Readable (mode : DeploymentMode) (data : List ℕ) (index : ℕ) : Prop :=
  let sampleType := (data[index]?).getD 0
  Inside data index (fieldOffsets mode sampleType)
    ∧ (mode = .mininet ∧ sampleType = 1 →
      Inside data (addU 32 index ((data[addU 32 index 11]?).getD 0 / 4 + 2)) [13, 15])
    ∧ (sampleType ∈ [1, 2, 3, 4] ∨ 0 < declaredLength data index)

instance (mode : DeploymentMode) (data : List ℕ) (index : ℕ) : Decidable (Readable mode data index) :=
  inferInstanceAs (Decidable (_ ∧ (_ → _) ∧ (_ ∨ _)))

/-- A sample is corrected for a record that was not skipped. -/
def Corrected (mode : DeploymentMode) (data : List ℕ) (index : ℕ) : Prop :=
  mode = .mininet ∧ (data[index]?).getD 0 = 3

instance (mode : DeploymentMode) (data : List ℕ) (index : ℕ) :
    Decidable (Corrected mode data index) :=
  inferInstanceAs (Decidable (_ ∧ _))

/-- How far the walk goes on from a sample. -/
def stride (mode : DeploymentMode) (data : List ℕ) (index : ℕ) : ℕ :=
  if Corrected mode data index then declaredLength data index / 4
  else declaredLength data index / 4 + 2

/-- Where the walk goes on after a sample. -/
def Examined.next? : Examined → Option ℕ
  | .handled _ next => some next
  | .skipped next => some next
  | .unknown => none

theorem lookup_bind {γ : Type} (data : List ℕ) (i : ℕ) (f : ℕ → Option γ) :
    (data[i]? >>= f) = if i < data.length then f (data[i]?.getD 0) else none := by
  split
  · next h =>
    rw [List.getElem?_eq_getElem h]
    rfl
  · next h =>
    rw [List.getElem?_eq_none (by omega)]
    rfl

theorem readUint64_bind {γ : Type} (data : List ℕ) (high low : ℕ) (f : ℕ → Option γ) :
    (readUint64 data high low >>= f)
      = if high < data.length then
          if low < data.length then f (data[high]?.getD 0 * 2 ^ 32 + data[low]?.getD 0) else none
        else none := by
  unfold readUint64
  simp only [lookup_bind]
  split
  · split <;> rfl
  · rfl

/-- The position after a counter sample. -/
theorem map_readCounter (data : List ℕ) (index sampleType : ℕ) :
    (readCounter data index sampleType).map Prod.snd
      = if Inside data index
            (if sampleType = 2 then [1, 22, 24, 25, 28, 29, 36, 37] else [1, 8, 10, 11, 14, 15, 22, 23])
          then some (addU 32 index (declaredLength data index / 4 + 2))
        else none := by
  unfold readCounter declaredLength
  split <;>
  · simp only [lookup_bind, readUint64_bind, inside_cons, inside_nil, and_true, ite_and,
      apply_ite (Option.map Prod.snd), Option.map_none]
    rfl

/-- The correction undoes the skipping, whatever the lengths. -/
theorem nextSample_skipped (index sampleLen flowDataLength : ℕ) :
    nextSample .mininet (addU 32 index (flowDataLength / 4 + 2)) sampleLen flowDataLength
      = addU 32 index (sampleLen / 4 + 2) := by
  simp only [nextSample, addU, subU]
  omega

/-- Where nothing is skipped, the correction takes two words off. -/
theorem nextSample_zero (mode : DeploymentMode) (index sampleLen : ℕ) :
    nextSample mode index sampleLen 0
      = addU 32 index (if mode = .mininet then sampleLen / 4 else sampleLen / 4 + 2) := by
  cases mode with
  | mininet =>
    simp only [nextSample, addU, subU, if_true]
    omega
  | testbed => rfl

/-- A sample that declares a length has the word for it. -/
theorem inside_of_declaredLength {data : List ℕ} {index : ℕ} (h : 0 < declaredLength data index) :
    addU 32 index 1 < data.length := by
  by_contra hout
  rw [declaredLength, List.getElem?_eq_none (by omega)] at h
  exact absurd h (lt_irrefl 0)

/-- The position after a flow sample of the first vendor. -/
theorem map_readFlow_one (mode : DeploymentMode) (data : List ℕ) (index : ℕ) :
    (readFlow mode data index 1).map Prod.snd
      = if Inside data index (fieldOffsets mode 1)
            ∧ (mode = .mininet →
              Inside data (addU 32 index ((data[addU 32 index 11]?).getD 0 / 4 + 2)) [13, 15])
          then some (addU 32 index (declaredLength data index / 4 + 2))
        else none := by
  unfold readFlow
  cases mode with
  | mininet =>
    simp only [if_true, pure_bind, lookup_bind, fieldOffsets, inside_cons, inside_nil, and_true,
      true_imp_iff, ite_and, nextSample_skipped, apply_ite (Option.map Prod.snd), Option.map_none]
    rfl
  | testbed =>
    simp only [if_true, pure_bind, lookup_bind, fieldOffsets, inside_cons, inside_nil, and_true,
      reduceCtorEq, false_imp_iff, ite_and, apply_ite (Option.map Prod.snd), Option.map_none]
    rfl

/-- The position after a flow sample of the second vendor. -/
theorem map_readFlow_three (mode : DeploymentMode) (data : List ℕ) (index : ℕ) :
    (readFlow mode data index 3).map Prod.snd
      = if Inside data index (fieldOffsets mode 3) then
          some (nextSample mode index (declaredLength data index) 0)
        else none := by
  have hfields : fieldOffsets mode 3 = [1, 5, 9, 11, 16] := by cases mode <;> rfl
  unfold readFlow
  rw [hfields]
  simp only [OfNat.ofNat_ne_one, reduceIte, lookup_bind, inside_cons, inside_nil, and_true, ite_and,
    apply_ite (Option.map Prod.snd), Option.map_none]
  rfl

/-- **The walk goes on from the samples that are readable, by their stride.** -/
theorem next_sampleAt (mode : DeploymentMode) (data : List ℕ) (index : ℕ) :
    (sampleAt mode data index).bind Examined.next?
      = if Readable mode data index then some (addU 32 index (stride mode data index)) else none := by
  have hcounter (o : Option (CounterSample × ℕ)) :
      (o.map fun p => Examined.handled (.counter p.1) p.2).bind Examined.next? = o.map Prod.snd := by
    cases o <;> rfl
  have hflow (o : Option (FlowSample × ℕ)) :
      (o.map fun p => Examined.handled (.flow p.1) p.2).bind Examined.next? = o.map Prod.snd := by
    cases o <;> rfl
  have hmode : ∀ sampleType, sampleType ∉ [1, 2, 3, 4] → fieldOffsets mode sampleType = [1] := by
    intro sampleType h
    match sampleType with
    | 0 => rfl
    | 1 | 2 | 3 | 4 => exact absurd (by decide) h
    | n + 5 => rfl
  by_cases h1 : data[index]?.getD 0 = 1
  · simp [sampleAt, Readable, stride, Corrected, h1, hflow, map_readFlow_one]
  by_cases h2 : data[index]?.getD 0 = 2
  · simp [sampleAt, Readable, stride, Corrected, h2, hcounter, map_readCounter, fieldOffsets]
  by_cases h3 : data[index]?.getD 0 = 3
  · simp [sampleAt, Readable, stride, Corrected, h3, hflow, map_readFlow_three, nextSample_zero]
  by_cases h4 : data[index]?.getD 0 = 4
  · simp [sampleAt, Readable, stride, Corrected, h4, hcounter, map_readCounter, fieldOffsets]
  have hunknown : data[index]?.getD 0 ∉ [1, 2, 3, 4] := by simp [h1, h2, h3, h4]
  have hsample : sampleAt mode data index
      = if 0 < declaredLength data index then
          some (.skipped (addU 32 index (declaredLength data index / 4 + 2)))
        else some .unknown := by
    unfold sampleAt
    rw [if_neg (by simp [h2, h4]), if_neg (by simp [h1, h3])]
    rfl
  rw [hsample]
  by_cases hlen : 0 < declaredLength data index
  · have hread : Readable mode data index := by
      simpa [Readable, hmode _ hunknown, h1, hlen] using inside_of_declaredLength hlen
    have hstride : stride mode data index = declaredLength data index / 4 + 2 :=
      if_neg fun h => h3 h.2
    rw [if_pos hread, if_pos hlen, hstride]
    rfl
  · have hread : ¬ Readable mode data index := fun h => h.2.2.elim hunknown hlen
    rw [if_neg hread, if_neg hlen]
    rfl

/-! ### The walk and the lengths -/

/-- A position that is reached from before it was reached without wrapping around. -/
theorem addU_eq_of_lt {index words : ℕ} (hindex : index < 2 ^ 32) (hwords : words < 2 ^ 32)
    (h : index < addU 32 index words) : addU 32 index words = index + words := by
  unfold addU at h ⊢
  omega

section Walk

variable {data : List ℕ} (hdata : ∀ w ∈ data, w < 2 ^ 32) (beyond : ℕ → UInt32)
  (mode : DeploymentMode)

include hdata

/-- Where the samples begin that one turn of the loop and the turns after it examine. -/
theorem examined_succ (left index previousIndex : ℕ) :
    (Reads.run (memory data beyond)
        (walkSamples mode data.length (left + 1) index previousIndex)).examined
      = if index ≤ previousIndex ∨ data.length ≤ index + 1 then []
        else if Readable mode data index then
          index :: (Reads.run (memory data beyond) (walkSamples mode data.length left
            (addU 32 index (stride mode data index)) index)).examined
        else [index] := by
  have hturn : (Reads.run (memory data beyond)
        (walkSamples mode data.length (left + 1) index previousIndex)).examined
      = if index ≤ previousIndex ∨ data.length ≤ index + 1 then []
        else index :: ((sampleAt mode data index).bind Examined.next?).elim [] fun next =>
          (Reads.run (memory data beyond) (walkSamples mode data.length left next index)).examined := by
    rw [run_walkSamples_succ hdata]
    by_cases hprevious : index ≤ previousIndex
    · rw [if_pos hprevious, if_pos (Or.inl hprevious)]
    by_cases hend : data.length ≤ index + 1
    · rw [if_neg hprevious, if_pos hend, if_pos (Or.inr hend)]
    rw [if_neg hprevious, if_neg hend, if_neg (by omega)]
    match sampleAt mode data index with
    | none => rfl
    | some .unknown => rfl
    | some (.skipped next) => rfl
    | some (.handled sample next) => rfl
  rw [hturn, next_sampleAt]
  split
  · rfl
  · split <;> rfl

/-- At most so many samples are examined as are counted. -/
theorem length_examined_le (left index previousIndex : ℕ) :
    (Reads.run (memory data beyond)
      (walkSamples mode data.length left index previousIndex)).examined.length ≤ left := by
  induction left generalizing index previousIndex with
  | zero => exact le_rfl
  | succ left ih =>
    rw [examined_succ hdata]
    split
    · exact Nat.zero_le _
    · split
      · exact Nat.succ_le_succ (ih _ _)
      · exact Nat.succ_le_succ (Nat.zero_le left)

/-- The first sample that is examined, if any is, begins at the read position. -/
theorem head?_examined (left index previousIndex : ℕ) :
    (Reads.run (memory data beyond)
        (walkSamples mode data.length left index previousIndex)).examined.head?
      = if left = 0 ∨ index ≤ previousIndex ∨ data.length ≤ index + 1 then none
        else some index := by
  cases left with
  | zero => rfl
  | succ left =>
    rw [examined_succ hdata]
    by_cases h : index ≤ previousIndex ∨ data.length ≤ index + 1
    · rw [if_pos h, if_pos (Or.inr h)]
      rfl
    · have hall : ¬ (left + 1 = 0 ∨ index ≤ previousIndex ∨ data.length ≤ index + 1) := by omega
      rw [if_neg h, if_neg hall]
      split <;> rfl

theorem declaredLength_lt (index : ℕ) : declaredLength data index < 2 ^ 32 := by
  unfold declaredLength
  by_cases h : addU 32 index 1 < data.length
  · rw [List.getElem?_eq_getElem h]
    exact hdata _ (List.getElem_mem h)
  · rw [List.getElem?_eq_none (by omega)]
    exact Nat.two_pow_pos 32

end Walk

/-- Of two samples that are examined one after the other, the second begins where the first one's
length says. -/
def Follows (data : List ℕ) (a b : ℕ) : Prop := b = a + (data[a + 1]?).getD 0 / 4 + 2

/-- What follows a sample that the walk leaves, for the position it goes to. -/
theorem follows_addU_iff {data : List ℕ} (hdata : ∀ w ∈ data, w < 2 ^ 32) (mode : DeploymentMode)
    {index : ℕ} (hindex : index < 2 ^ 32) (h : index < addU 32 index (stride mode data index)) :
    Follows data index (addU 32 index (stride mode data index)) ↔ ¬ Corrected mode data index := by
  have hlen := declaredLength_lt hdata index
  have hlt := addU_lt 32 index (stride mode data index)
  have hword : (data[index + 1]?).getD 0 = declaredLength data index := by
    rw [declaredLength, addU_of_lt (by omega)]
  have hnext := addU_eq_of_lt hindex (by unfold stride; split <;> omega) h
  rw [Follows, hword, hnext, stride]
  split
  · next hcorrected => exact iff_of_false (by omega) fun h => h hcorrected
  · next hcorrected => exact iff_of_true (by omega) hcorrected

/-- No sample follows the first one, on the walk along the declared lengths, that is corrected
without having been moved. -/
def SteadyFrom (mode : DeploymentMode) (data : List ℕ) : (left index : ℕ) → Prop
  | 0, _ => True
  | left + 1, index =>
    Readable mode data index →
      if Corrected mode data index then
        let next := addU 32 index (declaredLength data index / 4)
        left = 0 ∨ next ≤ index ∨ data.length ≤ next + 1
      else
        let next := addU 32 index (declaredLength data index / 4 + 2)
        next ≤ index ∨ data.length ≤ next + 1 ∨ SteadyFrom mode data left next

/-- **The walk follows the lengths exactly if it is steady.** -/
theorem isChain_examined_iff {data : List ℕ} (hdata : ∀ w ∈ data, w < 2 ^ 32) (beyond : ℕ → UInt32)
    (mode : DeploymentMode) (left : ℕ) {index previousIndex : ℕ} (hindex : index < 2 ^ 32)
    (hprevious : previousIndex < index) (hend : index + 1 < data.length) :
    (Reads.run (memory data beyond)
        (walkSamples mode data.length left index previousIndex)).examined.IsChain (Follows data)
      ↔ SteadyFrom mode data left index := by
  induction left generalizing index previousIndex with
  | zero => exact iff_of_true List.isChain_nil trivial
  | succ left ih =>
    rw [examined_succ hdata, if_neg (by omega), SteadyFrom]
    by_cases hread : Readable mode data index
    · have hlen := declaredLength_lt hdata index
      have hhead := head?_examined hdata beyond mode left (addU 32 index (stride mode data index)) index
      have hlt := addU_lt 32 index (stride mode data index)
      rw [if_pos hread, List.isChain_cons, hhead, forall_prop_of_true hread]
      by_cases hstop : left = 0 ∨ addU 32 index (stride mode data index) ≤ index
          ∨ data.length ≤ addU 32 index (stride mode data index) + 1
      · -- nothing more is examined
        rw [if_pos hstop] at hhead ⊢
        rw [List.head?_eq_none_iff.mp hhead]
        refine iff_of_true ⟨by simp, List.isChain_nil⟩ ?_
        unfold stride at hstop
        split
        · next hcorrected => rwa [if_pos hcorrected] at hstop
        · next hcorrected =>
          rw [if_neg hcorrected] at hstop
          rcases hstop with rfl | hstop
          · exact Or.inr (Or.inr trivial)
          · exact hstop.imp_right Or.inl
      · have hfollows := follows_addU_iff hdata mode hindex (by omega)
        rw [if_neg hstop, ih hlt (by omega) (by omega)]
        simp only [Option.mem_some_iff, forall_eq', hfollows]
        by_cases hcorrected : Corrected mode data index
        · unfold stride at hstop
          rw [if_pos hcorrected] at hstop ⊢
          exact iff_of_false (fun h => h.1 hcorrected) hstop
        · unfold stride at hstop ⊢
          rw [if_neg hcorrected] at hstop ⊢
          rw [if_neg hcorrected]
          constructor
          · exact fun h => Or.inr (Or.inr h.2)
          · exact fun h => ⟨hcorrected, (h.resolve_left (by omega)).resolve_left (by omega)⟩
    · rw [if_neg hread]
      exact iff_of_true (List.isChain_singleton index) fun h => absurd h hread

/-- The walk goes from sample to sample by the lengths that they declare: it begins at the first word
after the header, examines no more samples than the datagram can hold and reads nothing outside. -/
structure FollowsLengths (mode : DeploymentMode) (buffer : List UInt8) (beyond : ℕ → UInt32) :
    Prop where
  first : ∀ a ∈ (walked mode buffer beyond).examined.head?, a = 7
  next : (walked mode buffer beyond).examined.IsChain (Follows (words32 buffer))
  count_le : (walked mode buffer beyond).examined.length ≤ (buffer.length / 4 - 7) / 2
  inside : ∀ i ∈ Reads.visited (memory (words32 buffer) beyond) (walkPacket mode buffer.length),
    i < buffer.length / 4

/-- The header of a datagram is accepted. -/
def Accepted (buffer : List UInt8) : Prop :=
  7 * 4 ≤ buffer.length ∧ buffer.length % 4 = 0 ∧ (words32 buffer)[0]?.getD 0 = 5
    ∧ (words32 buffer)[6]?.getD 0 ≤ ((words32 buffer).length - 7) / 2

/-- If the header is accepted, no sample follows the first one that is corrected without having been
moved. -/
def Steady (mode : DeploymentMode) (buffer : List UInt8) : Prop :=
  Accepted buffer → SteadyFrom mode (words32 buffer) ((words32 buffer)[6]?.getD 0) 7

theorem walked_of_accepted (mode : DeploymentMode) {buffer : List UInt8} (beyond : ℕ → UInt32)
    (h : Accepted buffer) :
    walked mode buffer beyond = Reads.run (memory (words32 buffer) beyond)
      (walkSamples mode (words32 buffer).length ((words32 buffer)[6]?.getD 0) 7 0) := by
  obtain ⟨hlen, hwords, hversion, hcount⟩ := h
  rw [walked_eq mode beyond hlen hwords, if_neg (not_not.mpr hversion), if_neg (by omega)]

/-- Of a datagram that is not accepted nothing is examined. -/
theorem examined_of_not_accepted (mode : DeploymentMode) {buffer : List UInt8} (beyond : ℕ → UInt32)
    (h : ¬ Accepted buffer) : (walked mode buffer beyond).examined = [] := by
  by_cases hlen : buffer.length < 7 * 4
  · rw [walked, walkPacket, if_pos hlen]
    rfl
  by_cases hwords : buffer.length % 4 = 0
  · rw [walked_eq mode beyond (by omega) hwords]
    split
    · rfl
    · next hversion =>
      split
      · rfl
      · next hcount => exact absurd ⟨by omega, hwords, not_not.mp hversion, by omega⟩ h
  · rw [walked, walkPacket, if_neg hlen, if_pos hwords]
    rfl

/-- **The walk follows the declared lengths exactly on steady datagrams.** -/
theorem followsLengths_iff (mode : DeploymentMode) (buffer : List UInt8) (beyond : ℕ → UInt32) :
    FollowsLengths mode buffer beyond ↔ Steady mode buffer := by
  have hdata : ∀ w ∈ words32 buffer, w < 2 ^ 32 := fun w hw => lt_of_mem_words32 hw
  have hwords := length_words32 buffer
  have hinside := within_walkPacket mode buffer.length (memory (words32 buffer) beyond)
  by_cases haccepted : Accepted buffer
  · have hwalked := walked_of_accepted mode beyond haccepted
    have hcount := length_examined_le hdata beyond mode ((words32 buffer)[6]?.getD 0) 7 0
    have hhead := head?_examined hdata beyond mode ((words32 buffer)[6]?.getD 0) 7 0
    have hmax := haccepted.2.2.2
    have hchain : (walked mode buffer beyond).examined.IsChain (Follows (words32 buffer))
        ↔ SteadyFrom mode (words32 buffer) ((words32 buffer)[6]?.getD 0) 7 := by
      rw [hwalked]
      rcases Nat.eq_zero_or_pos ((words32 buffer)[6]?.getD 0) with hzero | hpos
      · rw [hzero]
        exact iff_of_true List.isChain_nil trivial
      · exact isChain_examined_iff hdata beyond mode _ (by omega) (by omega) (by omega)
    rw [Steady, forall_prop_of_true haccepted, ← hchain]
    constructor
    · exact fun h => h.next
    · intro hnext
      refine ⟨?_, hnext, ?_, hinside⟩
      · intro a ha
        rw [hwalked, hhead] at ha
        split at ha
        · simp at ha
        · exact (Option.mem_some_iff.mp ha).symm
      · rw [hwalked]
        omega
  · have hnil := examined_of_not_accepted mode beyond haccepted
    refine iff_of_true ⟨?_, ?_, ?_, hinside⟩ fun h => absurd h haccepted
    · simp [hnil]
    · simp [hnil]
    · simp [hnil]

/-- Outside a simulated network nothing is corrected, and every datagram is steady. -/
theorem steady_testbed (buffer : List UInt8) : Steady .testbed buffer := by
  have hsteady : ∀ left index, SteadyFrom .testbed (words32 buffer) left index := by
    intro left
    induction left with
    | zero => exact fun index => trivial
    | succ left ih =>
      intro index hread
      rw [if_neg fun h => nomatch h.1]
      exact Or.inr (Or.inr (ih _))
  exact fun _ => hsteady _ _

/-- A datagram of two flow samples of the second vendor, each of 24 words. -/
def twoSamples : List UInt8 :=
  ([5, 1, 0x0A000001, 0, 1, 1000, 2,
    3, 88, 1, 0, 1, 256, 256, 0, 0, 1, 0, 2, 1, 1, 32, 1, 1500, 4, 16, 0,
    0, 0x00020000, 0x00000001, 0x08004500,
    3, 88, 2, 0, 1, 256, 512, 0, 0, 1, 0, 2, 1, 1, 32, 1, 1500, 4, 16, 0,
    0, 0x00020000, 0x00000001, 0x08004500] : List ℕ).flatMap bytes32

/-- In a simulated network the second sample is looked for two words before it begins, in the frame
that the first one has sampled. -/
theorem not_followsLengths_twoSamples : ¬ FollowsLengths .mininet twoSamples fun _ => 0 := by
  have hexamined : (walked .mininet twoSamples fun _ => 0).examined = [7, 29] := by decide +kernel
  intro h
  have hnext := h.next
  rw [hexamined, List.isChain_pair] at hnext
  exact absurd hnext (by unfold Follows; decide +kernel)

end NDTwin.Telemetry
