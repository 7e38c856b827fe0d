import Mathlib.Logic.Relation
import NDTwin.Telemetry.BatchDelay

/-!
# A call that no other thread comes between

`Batching` has `emit` operation by operation, for the threads of all the switches at once;
`BatchDelay` has it as one function on the buffers.  Here a receive thread does the operations of
one call, from the first to the last, and no other thread does any: it comes back to where it was,
and leaves the buffers that the function leaves.

## Main definitions

* `Agrees` — the lists and the wire of the machine hold what the buffers and the counters say.
* `EmitCall.Next` — the next operation of a call that runs alone.

## Main results

* `flush_alone`, `sweep_alone`, `accept_alone` — the parts of a call.
* `run_emit` — **a call that runs alone is `BatchState.emit`.**
* `run_emitAll` — and so are the calls of a whole history, from the start.
-/

namespace NDTwin.Telemetry

variable {α : Type*}

/-- What the machine holds is what the buffers hold, and what it has sent is what was counted. -/
structure Agrees (s : EmitterState α) (b : BatchState α) : Prop where
  pending : ∀ d, (s.pending d).map (fun n => (s.lists d)[n]?) =
    (b.pending.get? d).map fun samples => some (samples.map Prod.snd)
  since : s.pendingSince = b.pendingSince
  datagrams : s.wire.length = b.datagramsSent
  samples : (s.wire.flatMap Prod.snd).length = b.samplesSent

theorem agrees_start : Agrees (.start : EmitterState α) .start where
  pending _ := rfl
  since := rfl
  datagrams := rfl
  samples := rfl

namespace EmitCall

/-- The clock at the next operation of a call. -/
def clock (c : EmitCall α) (s : EmitterState α) : ℤ :=
  match s.pc c.dpid with
  | .sweep _ _ position _ => (s.pendingSince.entries[position]?).elim c.now fun e => c.reading e.1
  | _ => c.now

/-- Whether the datagram goes out that the call is about to send. -/
def sends (c : EmitCall α) (s : EmitterState α) : Bool :=
  match s.pc c.dpid with
  | .send dpid _ _ _ => c.delivery dpid = .sent
  | .sendOne _ => c.delivery c.dpid = .sent
  | _ => true

/-- The next operation of a call, and of no other thread. -/
def Next (cfg : EmitterConfig) (c : EmitCall α) (s s' : EmitterState α) : Prop :=
  s.advance cfg c.dpid (c.clock s) (c.sends s) = some s'

end EmitCall

section Alone

open Relation (ReflTransGen)

variable (cfg : EmitterConfig) (c : EmitCall α) {s : EmitterState α} {b : BatchState α}

theorem goto_goto (t : ℕ) (p q : Pc α) : (s.goto t p).goto t q = s.goto t q := by
  simp only [EmitterState.goto, Function.update_idem]

theorem goto_pc (t : ℕ) (p : Pc α) : (s.goto t p).pc t = p := Function.update_self ..

theorem goto_changes (t : ℕ) (p : Pc α) : (s.goto t p).changes = s.changes := rfl

theorem goto_pending (t : ℕ) (p : Pc α) : (s.goto t p).pending = s.pending := rfl

theorem goto_pendingSince (t : ℕ) (p : Pc α) : (s.goto t p).pendingSince = s.pendingSince := rfl

/-- The list that is pending for a switch holds its buffer. -/
theorem Agrees.list (h : Agrees s b) {d n : ℕ} (hn : s.pending d = some n) :
    (s.lists d)[n]? = some ((b.buffer d).map Prod.snd) := by
  have hd := h.pending d
  rw [hn, Option.map_some] at hd
  obtain ⟨samples, hsamples, heq⟩ := Option.map_eq_some_iff.mp hd.symm
  rw [BatchState.buffer, hsamples, Option.getD_some, ← heq]

theorem Agrees.buffer_nil (h : Agrees s b) {d : ℕ} (hn : s.pending d = none) : b.buffer d = [] := by
  have hd := h.pending d
  rw [hn, Option.map_none, eq_comm, Option.map_eq_none_iff] at hd
  rw [BatchState.buffer, hd, Option.getD_none]

/-! ### A flush -/

/-- The machine once a switch has nothing pending. -/
def EmitterState.without (s : EmitterState α) (d changes : ℕ) : EmitterState α :=
  { s with
    pending := Function.update s.pending d none
    pendingSince := s.pendingSince.erase d
    changes }

/-- `build_datagram` goes through the whole list. -/
theorem build_alone {d n : ℕ} (next : AfterFlush) (read rest : List α)
    (hlist : (s.lists d)[n]? = some (read ++ rest)) :
    ReflTransGen (c.Next cfg) (s.goto c.dpid (.build d n read next))
      (s.goto c.dpid (.send d n (read ++ rest) next)) := by
  have hheld : (s.goto c.dpid (.build d n read next)).listAt d n = read ++ rest := listAt_eq hlist
  induction rest generalizing read with
  | nil =>
    refine .single ?_
    simp only [EmitCall.Next, EmitterState.advance, goto_pc, goto_goto, hheld, List.append_nil,
      List.getElem?_length]
  | cons x rest ih =>
    have hsplit : read ++ x :: rest = (read ++ [x]) ++ rest := by simp
    rw [hsplit] at hlist
    rw [hsplit]
    refine .head ?_ (ih (read ++ [x]) hlist (listAt_eq hlist))
    simp only [EmitCall.Next, EmitterState.advance, goto_pc, goto_goto, hheld,
      List.getElem?_append_right (Nat.le_refl _), Nat.sub_self, List.getElem?_cons_zero]

/-- The two `pop`s of a flush. -/
theorem pops_alone (d : ℕ) (next : AfterFlush) : ∃ changes,
    ReflTransGen (c.Next cfg) (s.goto c.dpid (.popPending d next))
      ((s.without d changes).goto c.dpid (.anySamples d (s.pending d) next)) := by
  have hfirst : c.Next cfg (s.goto c.dpid (.popPending d next))
      ({ s with pending := Function.update s.pending d none }.goto c.dpid
        (.popSince d (s.pending d) next)) := by
    simp only [EmitCall.Next, EmitterState.advance, goto_pc, goto_goto]
    rfl
  cases hsince : s.pendingSince.get? d with
  | none =>
    refine ⟨s.changes, .head hfirst (.single ?_)⟩
    simp only [EmitCall.Next, EmitterState.advance, goto_pc, goto_goto, goto_pendingSince, hsince,
      Option.isSome_none, Bool.false_eq_true, if_false, EmitterState.without,
      Dict.erase_of_get?_eq_none hsince]
  | some t =>
    refine ⟨s.changes + 1, .head hfirst (.single ?_)⟩
    simp only [EmitCall.Next, EmitterState.advance, goto_pc, goto_goto, goto_pendingSince, hsince,
      Option.isSome_some, if_true]
    rfl

/-- What a flush takes out of the machine it takes out of the buffers. -/
theorem Agrees.without (h : Agrees s b) (d changes : ℕ) : Agrees (s.without d changes)
    { b with pending := b.pending.erase d, pendingSince := b.pendingSince.erase d } where
  pending d' := by
    show (Function.update s.pending d none d').map _ = ((b.pending.erase d).get? d').map _
    rw [Dict.get?_erase]
    by_cases hd : d' = d
    · rw [hd, Function.update_self, if_pos rfl]
      rfl
    · rw [Function.update_of_ne hd, if_neg hd]
      exact h.pending d'
  since := congrArg (Dict.erase · d) h.since
  datagrams := h.datagrams
  samples := h.samples

/-- The machine once a datagram was given to the socket. -/
def EmitterState.delivered (s : EmitterState α) (d : ℕ) (samples : List α) (v : Delivery) :
    EmitterState α :=
  { s with wire := if v = .sent then s.wire ++ [(d, samples)] else s.wire }

theorem delivered_goto (t : ℕ) (p : Pc α) (d : ℕ) (samples : List α) (v : Delivery) :
    (if decide (v = .sent) = true then
        some { s.goto t p with wire := s.wire ++ [(d, samples)] }
      else some (s.goto t p)) = some ((s.delivered d samples v).goto t p) := by
  cases v <;> rfl

/-- What was sent is counted. -/
theorem Agrees.deliver (h : Agrees s b) (d : ℕ) (samples : List α) (v : Delivery) :
    Agrees (s.delivered d samples v) (b.deliver samples.length v).2 := by
  cases v with
  | notBuilt | notSent => exact ⟨h.pending, h.since, h.datagrams, h.samples⟩
  | sent =>
    refine ⟨h.pending, h.since, ?_, ?_⟩
    · simp [EmitterState.delivered, BatchState.deliver, h.datagrams]
    · simp [EmitterState.delivered, BatchState.deliver, h.samples]

/-- **`_flush_one`**, whoever it is for and whatever comes after it. -/
theorem flush_alone (h : Agrees s b) (d : ℕ) (next : AfterFlush) : ∃ s' : EmitterState α,
    ReflTransGen (c.Next cfg) (s.goto c.dpid (.popPending d next)) (s'.goto c.dpid next.resume) ∧
      s'.pc = s.pc ∧ Agrees s' (b.flushOne cfg d (c.delivery d)).2 := by
  obtain ⟨changes, hpops⟩ := pops_alone cfg c d next
  have hout := h.without d changes
  cases hp : s.pending d with
  | none =>
    refine ⟨s.without d changes, hpops.tail ?_, rfl, ?_⟩
    · rw [hp]
      simp only [EmitCall.Next, EmitterState.advance, goto_pc, goto_goto]
    · simpa only [BatchState.flushOne, h.buffer_nil hp, List.isEmpty_nil, if_true] using hout
  | some n =>
    rw [hp] at hpops
    have hlist : ((s.without d changes).lists d)[n]? = some ((b.buffer d).map Prod.snd) := h.list hp
    have hheld : ((s.without d changes).goto c.dpid (.anySamples d (some n) next)).listAt d n =
        (b.buffer d).map Prod.snd := listAt_eq hlist
    cases hempty : (b.buffer d).isEmpty with
    | true =>
      refine ⟨s.without d changes, hpops.tail ?_, rfl, ?_⟩
      · simp only [EmitCall.Next, EmitterState.advance, goto_pc, goto_goto, hheld, List.isEmpty_map,
          hempty, if_true]
      · simpa only [BatchState.flushOne, hempty, if_true] using hout
    | false =>
      cases hreg : cfg.registered d with
      | false =>
        refine ⟨s.without d changes, hpops.tail ?_, rfl, ?_⟩
        · simp only [EmitCall.Next, EmitterState.advance, goto_pc, goto_goto, hheld,
            List.isEmpty_map, hempty, Bool.false_eq_true, if_false, hreg]
        · simpa only [BatchState.flushOne, hempty, hreg, Bool.false_eq_true, if_false] using hout
      | true =>
        -- the list is gone through, and sent
        have hbuild := hpops.tail (c := (s.without d changes).goto c.dpid (.build d n [] next)) (by
          simp only [EmitCall.Next, EmitterState.advance, goto_pc, goto_goto, hheld,
            List.isEmpty_map, hempty, Bool.false_eq_true, if_false, hreg, if_true])
        have hsend := hbuild.trans (build_alone cfg c next [] _ hlist)
        refine ⟨(s.without d changes).delivered d ((b.buffer d).map Prod.snd) (c.delivery d),
          hsend.tail ?_, rfl, ?_⟩
        · simp only [EmitCall.Next, EmitterState.advance, goto_pc, goto_goto, EmitCall.sends,
            List.nil_append]
          exact delivered_goto c.dpid next.resume d _ (c.delivery d)
        · have hcounted := hout.deliver d ((b.buffer d).map Prod.snd) (c.delivery d)
          rw [List.length_map] at hcounted
          simpa only [BatchState.flushOne, hempty, hreg, Bool.false_eq_true, if_false, if_true]
            using hcounted

/-- The flushes of the switches that a sweep has found. -/
theorem aged_alone (h : Agrees s b) (others : List ℕ) : ∃ s' : EmitterState α,
    ReflTransGen (c.Next cfg) (s.goto c.dpid (AfterFlush.aged others).resume) (s'.goto c.dpid .idle) ∧
      s'.pc = s.pc ∧ Agrees s' (others.foldl (BatchState.flushAged cfg c) b) := by
  induction others generalizing s b with
  | nil => exact ⟨s, .refl, rfl, h⟩
  | cons d others ih =>
    have hcounted : Agrees s { b with batchesFlushedAged := b.batchesFlushedAged + 1 } :=
      ⟨h.pending, h.since, h.datagrams, h.samples⟩
    obtain ⟨m, hflush, hpc, hm⟩ := flush_alone cfg c hcounted d (.aged others)
    obtain ⟨s', hrest, hpc', hs'⟩ := ih hm
    exact ⟨s', hflush.trans hrest, hpc'.trans hpc, hs'⟩

/-! ### The sweep -/

/-- The sweep goes through the entries that are left, with nobody changing them. -/
theorem sweep_alone (read rest : List (ℕ × ℤ)) (aged : List ℕ)
    (hentries : s.pendingSince.entries = read ++ rest) :
    ReflTransGen (c.Next cfg)
      (s.goto c.dpid (.sweep s.pendingSince.entries.length s.changes read.length aged))
      (s.goto c.dpid (AfterFlush.aged (aged ++ (rest.filter fun e =>
        e.1 ≠ c.dpid ∧ cfg.batchMaxDelay ≤ c.reading e.1 - e.2).map Prod.fst)).resume) := by
  induction rest generalizing read aged with
  | nil =>
    refine .single ?_
    have hend : s.pendingSince.entries[read.length]? = none := by
      rw [hentries, List.append_nil, List.getElem?_length]
    simp only [EmitCall.Next, EmitterState.advance, goto_pc, goto_goto, goto_pendingSince,
      goto_changes, ne_eq, not_true_eq_false, or_self, if_false, EmitterState.sweepAt, hend,
      List.filter_nil, List.map_nil, List.append_nil]
  | cons e rest ih =>
    obtain ⟨d, since⟩ := e
    have hentry : s.pendingSince.entries[read.length]? = some (d, since) := by
      rw [hentries, List.getElem?_append_right (Nat.le_refl _), Nat.sub_self, List.getElem?_cons_zero]
    have hsplit : s.pendingSince.entries = (read ++ [(d, since)]) ++ rest := by
      rw [hentries, List.append_assoc, List.singleton_append]
    have hlength : (read ++ [(d, since)]).length = read.length + 1 := List.length_append
    by_cases hold : d ≠ c.dpid ∧ cfg.batchMaxDelay ≤ c.reading d - since
    · have hrest := ih (read ++ [(d, since)]) (aged ++ [d]) hsplit
      rw [hlength, List.append_assoc, List.singleton_append] at hrest
      rw [List.filter_cons_of_pos (by simpa only [decide_eq_true_eq] using hold), List.map_cons]
      refine .head ?_ hrest
      simp only [EmitCall.Next, EmitterState.advance, EmitCall.clock, goto_pc, goto_goto,
        goto_pendingSince, goto_changes, ne_eq, not_true_eq_false, or_self, if_false,
        EmitterState.sweepAt, hentry, Option.elim_some, if_pos hold]
    · have hrest := ih (read ++ [(d, since)]) aged hsplit
      rw [hlength] at hrest
      rw [List.filter_cons_of_neg (by simpa only [decide_eq_true_eq] using hold)]
      refine .head ?_ hrest
      simp only [EmitCall.Next, EmitterState.advance, EmitCall.clock, goto_pc, goto_goto,
        goto_pendingSince, goto_changes, ne_eq, not_true_eq_false, or_self, if_false,
        EmitterState.sweepAt, hentry, Option.elim_some, if_neg hold]

/-! ### The whole call -/

/-- `setdefault` gives the list of the switch, or puts an empty one. -/
theorem enqueue_alone (h : Agrees s b) : ∃ (s' : EmitterState α) (n : ℕ),
    c.Next cfg (s.goto c.dpid (.enqueue c.sample)) (s'.goto c.dpid (.append n c.sample)) ∧
      s'.pc = s.pc ∧ s'.pending c.dpid = some n ∧
      Agrees s' { b with pending := b.pending.set c.dpid (b.buffer c.dpid) } := by
  cases hp : s.pending c.dpid with
  | some n =>
    refine ⟨s, n, ?_, rfl, hp, ?_, h.since, h.datagrams, h.samples⟩
    · simp only [EmitCall.Next, EmitterState.advance, goto_pc, goto_goto, goto_pending, hp]
    · intro d
      rw [Dict.get?_set]
      by_cases hd : d = c.dpid
      · rw [if_pos hd, hd, hp, Option.map_some, h.list hp, Option.map_some]
      · rw [if_neg hd]
        exact h.pending d
  | none =>
    refine ⟨{ s with
      lists := Function.update s.lists c.dpid (s.lists c.dpid ++ [[]])
      pending := Function.update s.pending c.dpid (some (s.lists c.dpid).length) },
      (s.lists c.dpid).length, ?_, rfl, Function.update_self .., ?_, h.since, h.datagrams, h.samples⟩
    · simp only [EmitCall.Next, EmitterState.advance, goto_pc, goto_goto, goto_pending, hp]
      rfl
    · intro d
      rw [Dict.get?_set]
      by_cases hd : d = c.dpid
      · simp [hd, h.buffer_nil hp]
      · simp only [Function.update_of_ne hd, if_neg hd]
        exact h.pending d

/-- `append`, on the list that is pending. -/
theorem append_alone {n : ℕ} (hn : s.pending c.dpid = some n)
    (h : Agrees s { b with pending := b.pending.set c.dpid (b.buffer c.dpid) }) :
    ∃ s' : EmitterState α,
      c.Next cfg (s.goto c.dpid (.append n c.sample)) (s'.goto c.dpid .stamp) ∧ s'.pc = s.pc ∧
        s'.pending c.dpid = some n ∧ Agrees s' { b with
          pending := b.pending.set c.dpid (b.buffer c.dpid ++ [(c.now, c.sample)]) } := by
  refine ⟨{ s with
    lists := Function.update s.lists c.dpid ((s.lists c.dpid).modify n (· ++ [c.sample])) },
    ?_, rfl, hn, ?_, h.since, h.datagrams, h.samples⟩
  · simp only [EmitCall.Next, EmitterState.advance, goto_pc, goto_goto]
    rfl
  · intro d
    have hbefore := h.pending d
    rw [Dict.get?_set] at hbefore ⊢
    by_cases hd : d = c.dpid
    · subst hd
      rw [if_pos rfl, hn, Option.map_some, Option.map_some, Option.some.injEq] at hbefore
      simp [hn, hbefore]
    · rw [if_neg hd] at hbefore ⊢
      simpa only [Function.update_of_ne hd] using hbefore

/-- The time is recorded, and the list looked up again. -/
theorem stamp_alone {n : ℕ} (hn : s.pending c.dpid = some n) (h : Agrees s { b with
      pending := b.pending.set c.dpid (b.buffer c.dpid ++ [(c.now, c.sample)]) }) :
    ∃ s' : EmitterState α,
      ReflTransGen (c.Next cfg) (s.goto c.dpid .stamp) (s'.goto c.dpid (.measure n)) ∧ s'.pc = s.pc ∧
        s'.pending c.dpid = some n ∧ Agrees s' (b.accept c.dpid c.now c.sample) := by
  have hlookup : ∀ m : EmitterState α, m.pending c.dpid = some n →
      c.Next cfg (m.goto c.dpid .lookup) (m.goto c.dpid (.measure n)) := by
    intro m hm
    simp only [EmitCall.Next, EmitterState.advance, goto_pc, goto_goto, goto_pending, hm]
  have hsince : s.pendingSince = b.pendingSince := h.since
  cases hstamped : (s.pendingSince.get? c.dpid).isSome with
  | true =>
    refine ⟨s, .head ?_ (.single (hlookup s hn)), rfl, hn, h.pending, ?_, h.datagrams, h.samples⟩
    · simp only [EmitCall.Next, EmitterState.advance, goto_pc, goto_goto, goto_pendingSince, hstamped,
        if_true]
    · rw [hsince] at hstamped
      simp only [BatchState.accept, hstamped, if_true, hsince]
  | false =>
    refine ⟨{ s with
      pendingSince := s.pendingSince.set c.dpid c.now
      changes := s.changes + 1 }, .head ?_ (.single (hlookup _ hn)), rfl, hn, h.pending, ?_,
      h.datagrams, h.samples⟩
    · simp only [EmitCall.Next, EmitterState.advance, goto_pc, goto_goto, goto_pendingSince, hstamped,
        Bool.false_eq_true, if_false, EmitCall.clock]
      rfl
    · rw [hsince] at hstamped
      simp only [BatchState.accept, hstamped, Bool.false_eq_true, if_false, hsince]

/-- The sweep at the end of a call, and its flushes. -/
theorem items_alone (h : Agrees s b) : ∃ s' : EmitterState α,
    ReflTransGen (c.Next cfg) (s.goto c.dpid .items) (s'.goto c.dpid .idle) ∧ s'.pc = s.pc ∧
      Agrees s' ((b.agedOut cfg c).foldl (BatchState.flushAged cfg c) b) := by
  have hitems : c.Next cfg (s.goto c.dpid .items)
      (s.goto c.dpid (.sweep s.pendingSince.entries.length s.changes 0 [])) := by
    simp only [EmitCall.Next, EmitterState.advance, goto_pc, goto_goto, goto_pendingSince,
      goto_changes]
  have hentries : s.pendingSince.entries = b.pendingSince.entries :=
    congrArg Dict.entries h.since
  have hsweep := sweep_alone cfg c [] s.pendingSince.entries [] rfl
  rw [List.nil_append, hentries] at hsweep
  rw [hentries] at hitems
  obtain ⟨s', hflushes, hpc, hs'⟩ := aged_alone cfg c h (b.agedOut cfg c)
  exact ⟨s', .head hitems (hsweep.trans hflushes), hpc, hs'⟩

/-- The flush of a batch that is full, if it is. -/
theorem measure_alone {n : ℕ} (hn : s.pending c.dpid = some n) (h : Agrees s b) :
    ∃ s' : EmitterState α,
      ReflTransGen (c.Next cfg) (s.goto c.dpid (.measure n)) (s'.goto c.dpid .items) ∧
        s'.pc = s.pc ∧ Agrees s' (b.flushFull cfg c.dpid (c.delivery c.dpid)).2 := by
  have hlength : ((s.goto c.dpid (.measure n)).listAt c.dpid n).length =
      (b.buffer c.dpid).length := by
    rw [show (s.goto c.dpid (.measure n)).listAt c.dpid n = s.listAt c.dpid n from rfl,
      listAt_eq (h.list hn), List.length_map]
  by_cases hfull : cfg.batchSize ≤ (b.buffer c.dpid).length
  · have hcounted : Agrees s { b with batchesFlushedFull := b.batchesFlushedFull + 1 } :=
      ⟨h.pending, h.since, h.datagrams, h.samples⟩
    obtain ⟨s', hflush, hpc, hs'⟩ := flush_alone cfg c hcounted c.dpid .sweep
    refine ⟨s', .head ?_ hflush, hpc, ?_⟩
    · simp only [EmitCall.Next, EmitterState.advance, goto_pc, goto_goto, hlength, if_pos hfull]
    · simpa only [BatchState.flushFull, if_pos hfull] using hs'
  · refine ⟨s, .single ?_, rfl, ?_⟩
    · simp only [EmitCall.Next, EmitterState.advance, goto_pc, goto_goto, hlength, if_neg hfull]
    · simpa only [BatchState.flushFull, if_neg hfull] using h

/-- A sample that is not batched. -/
theorem sendOne_alone (h : Agrees s b) : ∃ s' : EmitterState α,
    c.Next cfg (s.goto c.dpid (.sendOne c.sample)) (s'.goto c.dpid .idle) ∧ s'.pc = s.pc ∧
      Agrees s' (b.deliver 1 (c.delivery c.dpid)).2 := by
  refine ⟨s.delivered c.dpid [c.sample] (c.delivery c.dpid), ?_, rfl,
    h.deliver c.dpid [c.sample] (c.delivery c.dpid)⟩
  simp only [EmitCall.Next, EmitterState.advance, goto_pc, goto_goto, EmitCall.sends]
  exact delivered_goto c.dpid .idle c.dpid [c.sample] (c.delivery c.dpid)

/-- **A call that runs alone is `BatchState.emit`**: from its first operation to its last, it leaves
the buffers and the counters that the function leaves, and its thread idle. -/
theorem run_emit (h : Agrees s b) (hidle : s.pc c.dpid = .idle) : ∃ m s' : EmitterState α,
    s.step cfg (.emit c.dpid c.sample) = some m ∧ ReflTransGen (c.Next cfg) m s' ∧
      s'.pc = s.pc ∧ Agrees s' (b.emit cfg c).2 := by
  have hback : ∀ s' : EmitterState α, s'.pc = s.pc → (s'.goto c.dpid .idle).pc = s.pc := by
    intro s' hpc
    rw [EmitterState.goto, hpc, ← hidle, Function.update_eq_self]
  cases hreg : cfg.registered c.dpid with
  | false =>
    refine ⟨s, s, ?_, .refl, rfl, ?_⟩
    · simp only [EmitterState.step, hidle, hreg, Bool.false_eq_true, if_false]
    · simpa only [BatchState.emit, hreg, Bool.false_eq_true, if_false] using h
  | true =>
    by_cases hbatch : 1 < cfg.batchSize
    · obtain ⟨s₁, n, henqueue, hpc₁, hn₁, hs₁⟩ := enqueue_alone cfg c h
      obtain ⟨s₂, happend, hpc₂, hn₂, hs₂⟩ := append_alone cfg c hn₁ hs₁
      obtain ⟨s₃, hstamp, hpc₃, hn₃, hs₃⟩ := stamp_alone cfg c hn₂ hs₂
      obtain ⟨s₄, hmeasure, hpc₄, hs₄⟩ := measure_alone cfg c hn₃ hs₃
      obtain ⟨s₅, hitems, hpc₅, hs₅⟩ := items_alone cfg c hs₄
      refine ⟨s.goto c.dpid (.enqueue c.sample), s₅.goto c.dpid .idle, ?_,
        .head henqueue (.head happend (hstamp.trans (hmeasure.trans hitems))), ?_, ?_⟩
      · simp only [EmitterState.step, hidle, hreg, hbatch, if_true]
      · exact hback s₅ (by rw [hpc₅, hpc₄, hpc₃, hpc₂, hpc₁])
      · rw [BatchState.emit_of_registered b hreg hbatch]
        exact ⟨hs₅.pending, hs₅.since, hs₅.datagrams, hs₅.samples⟩
    · obtain ⟨s', hsend, hpc, hs'⟩ := sendOne_alone cfg c h
      refine ⟨s.goto c.dpid (.sendOne c.sample), s'.goto c.dpid .idle, ?_, .single hsend,
        hback s' hpc, ?_⟩
      · simp only [EmitterState.step, hidle, hreg, hbatch, if_true, if_false]
      · simp only [BatchState.emit, hreg, hbatch, if_true, if_false]
        exact ⟨hs'.pending, hs'.since, hs'.datagrams, hs'.samples⟩

variable {cfg c} in
/-- The operations of a call, as a run of the machine. -/
theorem run_of_next {s' : EmitterState α} (h : ReflTransGen (c.Next cfg) s s') :
    ∃ tr, Machine.run (EmitterState.step cfg) s tr = some s' := by
  induction h using ReflTransGen.head_induction_on with
  | refl => exact ⟨[], rfl⟩
  | @head s m hnext _ ih =>
    obtain ⟨tr, htr⟩ := ih
    refine ⟨.advance c.dpid (c.clock s) (c.sends s) :: tr, ?_⟩
    rw [Machine.run, EmitterState.step, hnext]
    exact htr

/-- **A history of calls**, each of which runs alone, is `BatchState.emitAll`. -/
theorem run_emitAll (calls : List (EmitCall α)) : ∃ tr s,
    Machine.run (EmitterState.step cfg) .start tr = some s ∧ (∀ t, s.pc t = .idle) ∧
      Agrees s (BatchState.emitAll cfg calls) := by
  induction calls using List.reverseRecOn with
  | nil => exact ⟨[], .start, rfl, fun _ => rfl, agrees_start⟩
  | append_singleton calls c ih =>
    obtain ⟨tr, s, hrun, hidle, hs⟩ := ih
    obtain ⟨m, s', hemit, hnext, hpc, hs'⟩ := run_emit cfg c hs (hidle c.dpid)
    obtain ⟨tr', hrun'⟩ := run_of_next hnext
    refine ⟨tr ++ .emit c.dpid c.sample :: tr', s', ?_, ?_, ?_⟩
    · rw [Machine.run_append, hrun, Option.bind_some, Machine.run, hemit, Option.bind_some]
      exact hrun'
    · intro t
      rw [hpc, hidle t]
    · rw [BatchState.emitAll_concat]
      exact hs'

end Alone

end NDTwin.Telemetry
