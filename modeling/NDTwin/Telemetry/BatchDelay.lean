import NDTwin.Telemetry.Batching

/-!
# How long a sample waits in a batch

`Batching` takes `emit` apart into operations of several threads.  Here the calls come one after
the other, and the question is how old a sample can be that is still in a buffer when a call
returns.  The age of a buffer is kept once, as the time of the first sample since the last flush, and
is looked at by the calls of the *other* switches only: the sweep leaves out the switch that emits.

## Main definitions

* `EmitCall` — one call, with the clock and the socket as it meets them.
* `BatchState`, `flushOne`, `emit`, `emitAll` — the buffers, a flush, a call and a history of calls.
* `Stamped` — **the recorded time of a buffer is that of its oldest sample.**

## Main results

* `stamped_emitAll` — this holds after every history.
* `slot_emit_other`, `slot_emit_self` — what a call leaves of each buffer and its recorded time.
* `batchDelay_bounded` — when a call returns, no other switch's buffer holds a sample of the maximal
  delay, and when the emitting switch's own does.
* `own_sample_waits` — a switch that is alone waits for its batch to fill.
-/

namespace NDTwin.Telemetry

/-- What happens to a datagram. -/
inductive Delivery where
  /-- `build_datagram` raised. -/
  | notBuilt
  /-- `sendto` raised an `OSError`. -/
  | notSent
  | sent
  deriving DecidableEq, Repr

/-- A call of `emit`. -/
structure EmitCall (α : Type*) where
  dpid : ℕ
  sample : α
  /-- The clock when the sample is accepted. -/
  now : ℤ
  /-- The clock when the sweep looks at a switch. -/
  reading : ℕ → ℤ
  now_le : ∀ d, now ≤ reading d
  /-- What happens to a datagram of a switch. -/
  delivery : ℕ → Delivery

/-- The buffers of an emitter, each sample with the time at which it was accepted, and its
counters. -/
structure BatchState (α : Type*) where
  pending : Dict ℕ (List (ℤ × α))
  pendingSince : Dict ℕ ℤ
  batchesFlushedFull : ℕ
  batchesFlushedAged : ℕ
  datagramsSent : ℕ
  samplesSent : ℕ
  sendErrors : ℕ

namespace BatchState

variable {α : Type*}

/-- An emitter that was just made. -/
def start : BatchState α where
  pending := .empty
  pendingSince := .empty
  batchesFlushedFull := 0
  batchesFlushedAged := 0
  datagramsSent := 0
  samplesSent := 0
  sendErrors := 0

/-- What waits for a switch. -/
def buffer (s : BatchState α) (d : ℕ) : List (ℤ × α) := (s.pending.get? d).getD []

/-- A datagram of `samples` samples, and whether it went out. -/
def deliver (s : BatchState α) (samples : ℕ) : Delivery → Bool × BatchState α
  | .notBuilt => (false, s)
  | .notSent => (false, { s with sendErrors := s.sendErrors + 1 })
  | .sent => (true, { s with
      datagramsSent := s.datagramsSent + 1
      samplesSent := s.samplesSent + samples })

/-- `_flush_one`. -/
def flushOne (cfg : EmitterConfig) (s : BatchState α) (d : ℕ) (delivery : Delivery) :
    Bool × BatchState α :=
  let samples := s.buffer d
  let s' := { s with pending := s.pending.erase d, pendingSince := s.pendingSince.erase d }
  if samples.isEmpty then (true, s')
  else if cfg.registered d then s'.deliver samples.length delivery
  else (false, s')

/-- `self._pending.setdefault(dpid, []).append(sample)`, and the same for the time. -/
def accept (s : BatchState α) (d : ℕ) (now : ℤ) (sample : α) : BatchState α :=
  { s with
    pending := s.pending.set d (s.buffer d ++ [(now, sample)])
    pendingSince :=
      if (s.pendingSince.get? d).isSome then s.pendingSince else s.pendingSince.set d now }

/-- `len(self._pending[dpid]) >= self.batch_size`, and the flush. -/
def flushFull (cfg : EmitterConfig) (s : BatchState α) (d : ℕ) (delivery : Delivery) :
    Bool × BatchState α :=
  if cfg.batchSize ≤ (s.buffer d).length then
    flushOne cfg { s with batchesFlushedFull := s.batchesFlushedFull + 1 } d delivery
  else (true, s)

/-- The switches that the sweep at the end of a call finds. -/
def agedOut (cfg : EmitterConfig) (s : BatchState α) (c : EmitCall α) : List ℕ :=
  (s.pendingSince.entries.filter fun e =>
    e.1 ≠ c.dpid ∧ cfg.batchMaxDelay ≤ c.reading e.1 - e.2).map Prod.fst

/-- One switch that the sweep found. -/
def flushAged (cfg : EmitterConfig) (c : EmitCall α) (s : BatchState α) (d : ℕ) : BatchState α :=
  (flushOne cfg { s with batchesFlushedAged := s.batchesFlushedAged + 1 } d (c.delivery d)).2

/-- `emit`, with what it returns. -/
def emit (cfg : EmitterConfig) (s : BatchState α) (c : EmitCall α) : Bool × BatchState α :=
  if cfg.registered c.dpid then
    if 1 < cfg.batchSize then
      let (ok, s') := (s.accept c.dpid c.now c.sample).flushFull cfg c.dpid (c.delivery c.dpid)
      (ok, (s'.agedOut cfg c).foldl (flushAged cfg c) s')
    else s.deliver 1 (c.delivery c.dpid)
  else (false, s)

/-- The calls of a history, one after the other. -/
def emitAll (cfg : EmitterConfig) (calls : List (EmitCall α)) : BatchState α :=
  calls.foldl (fun s c => (s.emit cfg c).2) start

/-! ### What each part does to the buffers -/

/-- The buffer of a switch and its recorded time, where there are any. -/
def slot (s : BatchState α) (d : ℕ) : Option (List (ℤ × α)) × Option ℤ :=
  (s.pending.get? d, s.pendingSince.get? d)

theorem buffer_eq_slot (s : BatchState α) (d : ℕ) : s.buffer d = (s.slot d).1.getD [] := rfl

theorem since_eq_slot (s : BatchState α) (d : ℕ) : s.pendingSince.get? d = (s.slot d).2 := rfl

theorem slot_deliver (s : BatchState α) (n : ℕ) (v : Delivery) : (s.deliver n v).2.slot = s.slot := by
  cases v <;> rfl

/-- A flush empties the buffer whatever happens to the datagram. -/
theorem slot_flushOne (cfg : EmitterConfig) (s : BatchState α) (d d' : ℕ) (v : Delivery) :
    (s.flushOne cfg d v).2.slot d' = if d' = d then (none, none) else s.slot d' := by
  have herased : (s.flushOne cfg d v).2.slot d' =
      ((s.pending.erase d).get? d', (s.pendingSince.erase d).get? d') := by
    unfold flushOne
    dsimp only
    split
    · rfl
    · split
      · rw [slot_deliver]
        rfl
      · rfl
  rw [herased, Dict.get?_erase, Dict.get?_erase]
  split <;> rfl

theorem slot_accept (s : BatchState α) (d d' : ℕ) (now : ℤ) (x : α) :
    (s.accept d now x).slot d' =
      if d' = d then (some (s.buffer d ++ [(now, x)]), some ((s.pendingSince.get? d).getD now))
      else s.slot d' := by
  have hsince : (s.accept d now x).pendingSince.get? d' =
      if d' = d then some ((s.pendingSince.get? d).getD now) else s.pendingSince.get? d' := by
    cases hold : s.pendingSince.get? d with
    | some t =>
      have hkept : (s.accept d now x).pendingSince = s.pendingSince := if_pos (by rw [hold]; rfl)
      rw [hkept, Option.getD_some]
      by_cases hd : d' = d
      · rw [if_pos hd, hd, hold]
      · rw [if_neg hd]
    | none =>
      have hset : (s.accept d now x).pendingSince = s.pendingSince.set d now :=
        if_neg (by simp [hold])
      rw [hset, Dict.get?_set, Option.getD_none]
  have hpending : (s.accept d now x).pending.get? d' =
      if d' = d then some (s.buffer d ++ [(now, x)]) else s.pending.get? d' :=
    Dict.get?_set _ d d' _
  rw [slot, hsince, hpending]
  split <;> rfl

/-- The sweep empties the buffers that it found, and no other. -/
theorem slot_sweep (cfg : EmitterConfig) (c : EmitCall α) (ds : List ℕ) (s : BatchState α) (d : ℕ) :
    (ds.foldl (flushAged cfg c) s).slot d = if d ∈ ds then (none, none) else s.slot d := by
  induction ds generalizing s with
  | nil => rfl
  | cons d₀ ds ih =>
    rw [List.foldl_cons, ih, flushAged, slot_flushOne]
    by_cases hmem : d ∈ ds
    · simp [hmem]
    · by_cases hd : d = d₀
      · simp [hd]
      · rw [if_neg hmem, if_neg hd, if_neg (by simp [hmem, hd])]
        rfl

theorem slot_flushFull {cfg : EmitterConfig} (s : BatchState α) (d d' : ℕ) (v : Delivery) :
    (s.flushFull cfg d v).2.slot d' =
      if d' = d ∧ cfg.batchSize ≤ (s.buffer d).length then (none, none) else s.slot d' := by
  unfold flushFull
  by_cases hfull : cfg.batchSize ≤ (s.buffer d).length
  · rw [if_pos hfull, slot_flushOne]
    simp only [hfull, and_true]
    rfl
  · rw [if_neg hfull, if_neg fun h => hfull h.2]

theorem mem_agedOut {cfg : EmitterConfig} {s : BatchState α} {c : EmitCall α} {d : ℕ} :
    d ∈ s.agedOut cfg c ↔
      d ≠ c.dpid ∧ ∃ t, s.pendingSince.get? d = some t ∧
        cfg.batchMaxDelay ≤ c.reading d - t := by
  simp only [agedOut, List.mem_map, List.mem_filter, decide_eq_true_eq, Prod.exists,
    Dict.mem_entries_iff]
  constructor
  · rintro ⟨_, t, ⟨hsince, hne, hold⟩, rfl⟩
    exact ⟨hne, t, hsince, hold⟩
  · rintro ⟨hne, t, hsince, hold⟩
    exact ⟨d, t, ⟨hsince, hne, hold⟩, rfl⟩

/-! ### What a call leaves -/

section Call

variable {cfg : EmitterConfig} {c : EmitCall α}

theorem emit_of_registered (s : BatchState α) (hreg : cfg.registered c.dpid = true)
    (hbatch : 1 < cfg.batchSize) :
    let s' := ((s.accept c.dpid c.now c.sample).flushFull cfg c.dpid (c.delivery c.dpid)).2
    (s.emit cfg c).2 = (s'.agedOut cfg c).foldl (flushAged cfg c) s' := by
  simp only [emit, hreg, if_true, hbatch]

/-- A call changes nothing of another switch before its sweep, so the sweep finds what was aged when
the call began. -/
theorem mem_agedOut_flushFull (s : BatchState α) (v : Delivery) (d : ℕ) :
    d ∈ (((s.accept c.dpid c.now c.sample).flushFull cfg c.dpid v).2).agedOut cfg c ↔
      d ∈ s.agedOut cfg c := by
  rw [mem_agedOut, mem_agedOut]
  refine and_congr_right ?_
  intro hd
  rw [since_eq_slot, slot_flushFull, if_neg fun h => hd h.1, slot_accept, if_neg hd, ← since_eq_slot]

/-- Another switch is flushed if it is aged, and else left alone. -/
theorem slot_emit_other (s : BatchState α) (hreg : cfg.registered c.dpid = true)
    (hbatch : 1 < cfg.batchSize) {d : ℕ} (hd : d ≠ c.dpid) :
    (s.emit cfg c).2.slot d = if d ∈ s.agedOut cfg c then (none, none) else s.slot d := by
  rw [emit_of_registered s hreg hbatch, slot_sweep, slot_flushFull]
  simp only [mem_agedOut_flushFull, hd, false_and, if_false, slot_accept]

/-- The switch that emits is flushed if its batch is full, and has one sample more if not. -/
theorem slot_emit_self (s : BatchState α) (hreg : cfg.registered c.dpid = true)
    (hbatch : 1 < cfg.batchSize) :
    (s.emit cfg c).2.slot c.dpid =
      if cfg.batchSize ≤ (s.buffer c.dpid).length + 1 then (none, none)
      else (some (s.buffer c.dpid ++ [(c.now, c.sample)]),
        some ((s.pendingSince.get? c.dpid).getD c.now)) := by
  have hself : c.dpid ∉ s.agedOut cfg c := fun h => (mem_agedOut.mp h).1 rfl
  rw [emit_of_registered s hreg hbatch, slot_sweep,
    if_neg (mt (mem_agedOut_flushFull s _ _).mp hself), slot_flushFull, buffer_eq_slot, slot_accept,
    if_pos rfl, Option.getD_some, List.length_append, List.length_singleton]
  simp only [true_and]

theorem buffer_emit_other (s : BatchState α) (hreg : cfg.registered c.dpid = true)
    (hbatch : 1 < cfg.batchSize) {d : ℕ} (hd : d ≠ c.dpid) :
    (s.emit cfg c).2.buffer d = if d ∈ s.agedOut cfg c then [] else s.buffer d := by
  rw [buffer_eq_slot, slot_emit_other s hreg hbatch hd]
  split <;> rfl

theorem buffer_emit_self (s : BatchState α) (hreg : cfg.registered c.dpid = true)
    (hbatch : 1 < cfg.batchSize) :
    (s.emit cfg c).2.buffer c.dpid =
      if cfg.batchSize ≤ (s.buffer c.dpid).length + 1 then []
      else s.buffer c.dpid ++ [(c.now, c.sample)] := by
  rw [buffer_eq_slot, slot_emit_self s hreg hbatch]
  split <;> rfl

end Call

/-! ### The recorded time -/

/-- What a sequence of calls keeps: the recorded time of a buffer is the time of its first sample,
the samples are in the order of their times, none is from after `t`, and no buffer is full. -/
structure Stamped (cfg : EmitterConfig) (t : ℤ) (s : BatchState α) : Prop where
  since : ∀ d, s.pendingSince.get? d = (s.buffer d).head?.map Prod.fst
  sorted : ∀ d, (s.buffer d).Pairwise fun x y => x.1 ≤ y.1
  past : ∀ d, ∀ x ∈ s.buffer d, x.1 ≤ t
  short : ∀ d, (s.buffer d).length < cfg.batchSize

namespace Stamped

variable {cfg : EmitterConfig} {c : EmitCall α} {s : BatchState α} {t t' : ℤ}

theorem mono (h : Stamped cfg t s) (ht : t ≤ t') : Stamped cfg t' s :=
  { h with past := fun d x hx => Int.le_trans (h.past d x hx) ht }

/-- No sample is older than the recorded time. -/
theorem since_le (h : Stamped cfg t s) {d : ℕ} {x : ℤ × α} (hx : x ∈ s.buffer d) :
    ∃ t₀, s.pendingSince.get? d = some t₀ ∧ t₀ ≤ x.1 := by
  have hsorted := h.sorted d
  have hsince := h.since d
  cases hbuf : s.buffer d with
  | nil => rw [hbuf] at hx; exact absurd hx List.not_mem_nil
  | cons y ys =>
    rw [hbuf] at hx hsorted hsince
    refine ⟨y.1, hsince, ?_⟩
    rcases List.mem_cons.mp hx with rfl | hmem
    · exact Int.le_refl _
    · exact List.rel_of_pairwise_cons hsorted hmem

/-- A call keeps it, whether or not its switch is registered. -/
theorem emit (h : Stamped cfg t s) (hbatch : 1 < cfg.batchSize) (ht : t ≤ c.now) :
    Stamped cfg c.now (s.emit cfg c).2 := by
  cases hreg : cfg.registered c.dpid with
  | false =>
    have hsame : (s.emit cfg c).2 = s := by simp only [BatchState.emit, hreg, Bool.false_eq_true,
      if_false]
    rw [hsame]
    exact h.mono ht
  | true =>
    have hlong := h.short c.dpid
    refine ⟨?_, ?_, ?_, ?_⟩
    -- each of the four is split into the switch that emits and the others
    · intro d
      by_cases hd : d = c.dpid
      · rw [hd, since_eq_slot, slot_emit_self s hreg hbatch, buffer_emit_self s hreg hbatch, h.since]
        split
        · rfl
        · cases hbuf : s.buffer c.dpid <;> rfl
      · rw [since_eq_slot, slot_emit_other s hreg hbatch hd, buffer_emit_other s hreg hbatch hd]
        split
        · rfl
        · exact h.since d
    · intro d
      by_cases hd : d = c.dpid
      · rw [hd, buffer_emit_self s hreg hbatch]
        split
        · exact .nil
        · refine List.pairwise_append.mpr ⟨h.sorted _, List.pairwise_singleton _ _, ?_⟩
          intro x hx y hy
          rw [List.mem_singleton.mp hy]
          exact Int.le_trans (h.past _ x hx) ht
      · rw [buffer_emit_other s hreg hbatch hd]
        split
        · exact .nil
        · exact h.sorted d
    · intro d x hx
      by_cases hd : d = c.dpid
      · rw [hd, buffer_emit_self s hreg hbatch] at hx
        split at hx
        · exact absurd hx List.not_mem_nil
        · rcases List.mem_append.mp hx with hold | hnew
          · exact Int.le_trans (h.past _ x hold) ht
          · exact Int.le_of_eq (congrArg Prod.fst (List.mem_singleton.mp hnew))
      · rw [buffer_emit_other s hreg hbatch hd] at hx
        split at hx
        · exact absurd hx List.not_mem_nil
        · exact Int.le_trans (h.past d x hx) ht
    · intro d
      by_cases hd : d = c.dpid
      · rw [hd, buffer_emit_self s hreg hbatch]
        split
        · exact Nat.zero_lt_of_lt hlong
        · rw [List.length_append, List.length_singleton]
          omega
      · rw [buffer_emit_other s hreg hbatch hd]
        split
        · exact Nat.zero_lt_of_lt hlong
        · exact h.short d

end Stamped

theorem stamped_start {cfg : EmitterConfig} (hbatch : 1 < cfg.batchSize) (t : ℤ) :
    Stamped cfg t (start : BatchState α) where
  since _ := rfl
  sorted _ := .nil
  past _ _ hx := absurd hx List.not_mem_nil
  short _ := Nat.zero_lt_of_lt hbatch

/-- The samples are accepted at times that do not go back. -/
def InOrder (calls : List (EmitCall α)) : Prop := calls.Pairwise fun c c' => c.now ≤ c'.now

instance (calls : List (EmitCall α)) : Decidable (InOrder calls) :=
  inferInstanceAs (Decidable (calls.Pairwise fun c c' => c.now ≤ c'.now))

theorem emitAll_concat (cfg : EmitterConfig) (calls : List (EmitCall α)) (c : EmitCall α) :
    emitAll cfg (calls ++ [c]) = ((emitAll cfg calls).emit cfg c).2 := by
  rw [emitAll, List.foldl_append]
  rfl

/-- By induction on the history, from its end. -/
theorem stamped_emitAll {cfg : EmitterConfig} (hbatch : 1 < cfg.batchSize)
    {calls : List (EmitCall α)} (horder : InOrder calls) {t : ℤ} (ht : ∀ c ∈ calls, c.now ≤ t) :
    Stamped cfg t (emitAll cfg calls) := by
  induction calls using List.reverseRecOn generalizing t with
  | nil => exact stamped_start hbatch t
  | append_singleton calls c ih =>
    obtain ⟨hcalls, -, hlast⟩ := List.pairwise_append.mp horder
    rw [emitAll_concat]
    have hbefore := ih hcalls fun c' hc' => hlast c' hc' c (List.mem_singleton_self c)
    exact (hbefore.emit hbatch (Int.le_refl _)).mono (ht c (by simp))

/-- **How long samples wait.**  After every sequential history, when a call returns that ran at a
time `t`:

* no other switch's buffer holds a sample that was accepted the maximal delay or more before `t`;
* the buffer of the switch that emitted holds less than a batch;
* and it holds such a sample just if the call did not fill the batch and the buffer held one when
  the call began, or the delay is such that the new sample is one. -/
theorem batchDelay_bounded {cfg : EmitterConfig} (hbatch : 1 < cfg.batchSize)
    (calls : List (EmitCall α)) (c : EmitCall α)
    (hreg : ∀ c' ∈ calls ++ [c], cfg.registered c'.dpid = true)
    (horder : InOrder (calls ++ [c])) :
    let before := emitAll cfg calls
    let after := emitAll cfg (calls ++ [c])
    (∀ d, d ≠ c.dpid → ∀ x ∈ after.buffer d, c.now - x.1 < cfg.batchMaxDelay) ∧
      (after.buffer c.dpid).length < cfg.batchSize ∧
      ((∃ x ∈ after.buffer c.dpid, cfg.batchMaxDelay ≤ c.now - x.1) ↔
        (before.buffer c.dpid).length + 1 < cfg.batchSize ∧
          ((∃ x ∈ before.buffer c.dpid, cfg.batchMaxDelay ≤ c.now - x.1) ∨
            cfg.batchMaxDelay ≤ 0)) := by
  intro before after
  obtain ⟨hcalls, -, hlast⟩ := List.pairwise_append.mp horder
  have hstamped : Stamped cfg c.now before :=
    stamped_emitAll hbatch hcalls fun c' hc' => hlast c' hc' c (List.mem_singleton_self c)
  have hc : cfg.registered c.dpid = true := hreg c (by simp)
  have hafter : after = (before.emit cfg c).2 := emitAll_concat cfg calls c
  refine ⟨?_, ?_, ?_⟩
  · intro d hd x hx
    rw [hafter, buffer_emit_other before hc hbatch hd] at hx
    split at hx
    · exact absurd hx List.not_mem_nil
    · next hnot =>
      -- the sample is no older than the recorded time, at which the sweep looked
      obtain ⟨t₀, hsince, hle⟩ := hstamped.since_le hx
      have hyoung : ¬ cfg.batchMaxDelay ≤ c.reading d - t₀ := fun hold =>
        hnot (mem_agedOut.mpr ⟨hd, t₀, hsince, hold⟩)
      have hlater := c.now_le d
      omega
  · rw [hafter]
    exact (hstamped.emit hbatch (Int.le_refl _)).short c.dpid
  · rw [hafter, buffer_emit_self before hc hbatch]
    by_cases hfull : cfg.batchSize ≤ (before.buffer c.dpid).length + 1
    · rw [if_pos hfull]
      have hnot : ¬ (before.buffer c.dpid).length + 1 < cfg.batchSize := by omega
      simp [hnot]
    · rw [if_neg hfull]
      have hnot : (before.buffer c.dpid).length + 1 < cfg.batchSize := by omega
      simp [hnot, or_and_right, exists_or]

/-! ### A switch alone, and two -/

/-- Batches of three, and a maximal delay of one. -/
def threes : EmitterConfig where
  batchSize := 3
  batchMaxDelay := 1
  registered _ := true

/-- A call of a switch at a time, during which the clock stands still. -/
def callAt (dpid : ℕ) (now : ℤ) : EmitCall Unit where
  dpid := dpid
  sample := ()
  now := now
  reading _ := now
  now_le _ := Int.le_refl _
  delivery _ := .sent

/-- **The switch that emits is not swept.**  Its first sample is still there ten units later, when its
second call returns. -/
theorem own_sample_waits :
    1 < threes.batchSize ∧ InOrder [callAt 1 0, callAt 1 10] ∧
      (∀ c ∈ [callAt 1 0, callAt 1 10], threes.registered c.dpid = true) ∧
      ¬ ∀ d, ∀ x ∈ (emitAll threes [callAt 1 0, callAt 1 10]).buffer d,
        (callAt 1 10).now - x.1 < threes.batchMaxDelay := by
  refine ⟨by decide, by decide, fun c _ => rfl, ?_⟩
  intro h
  have hwaits : ((0 : ℤ), ()) ∈ (emitAll threes [callAt 1 0, callAt 1 10]).buffer 1 := by
    decide +kernel
  exact absurd (h 1 _ hwaits) (by decide)

/-- The same sample is gone when another switch's call returns. -/
theorem batchDelay_bounded_two :
    InOrder ([callAt 1 0] ++ [callAt 2 10]) ∧ (emitAll threes [callAt 1 0]).buffer 1 = [(0, ())] ∧
      ∀ d, d ≠ 2 → ∀ x ∈ (emitAll threes ([callAt 1 0] ++ [callAt 2 10])).buffer d,
        10 - x.1 < 1 := by
  have horder : InOrder ([callAt 1 0] ++ [callAt 2 10]) := by decide
  exact ⟨horder, rfl,
    (batchDelay_bounded (by decide) [callAt 1 0] (callAt 2 10) (fun _ _ => rfl) horder).1⟩

end BatchState

end NDTwin.Telemetry
