import Mathlib.Data.Int.Notation
import Mathlib.Data.List.Flatten
import Mathlib.Logic.Function.Basic
import NDTwin.Lib.Dict
import NDTwin.Lib.Machine

/-!
# Batches of samples

With batching on, a sample waits in the buffer of its switch until the buffer is full, or until the
`emit` of any switch finds that it has waited long enough: each `emit` ends with a sweep over all the
other switches.  Every switch has a receive thread of its own, and nothing is locked, so a sweep can
take a buffer away in the middle of another thread's `emit`.

A step is one operation on a dictionary or a list.  The lists that `setdefault` has put into the
dictionary are kept in the order in which they were made, and a reference to one is its position.

## Main definitions

* `Pc` — where a receive thread is in `emit` and `_flush_one`.
* `EmitterState`, `EmitterState.step` — the emitter and its threads, one operation at a time.
* `Exact` — **nothing raised, lost, doubled or out of order.**
* `Undisturbed` — what a step must not do to another thread.

## Main results

* `exact_of_undisturbed` — runs of undisturbed steps are exact.
* `not_exact` — a sweep between another thread's `setdefault` and its `append`.
-/

namespace NDTwin.Telemetry

/-- What an emitter is made with, and the switches that were registered. -/
structure EmitterConfig where
  batchSize : ℕ
  batchMaxDelay : ℤ
  registered : ℕ → Bool

/-- What `emit` goes on with when `_flush_one` returns. -/
inductive AfterFlush where
  /-- The sweep over all the other switches. -/
  | sweep
  /-- The switches that the sweep found and that are still to be flushed. -/
  | aged (others : List ℕ)
  deriving DecidableEq, Repr

/-- The operation that a receive thread does next. -/
inductive Pc (α : Type*) where
  /-- No `emit` in progress. -/
  | idle
  /-- `self._pending.setdefault(dpid, [])`. -/
  | enqueue (sample : α)
  /-- `.append(sample)` on the list that was given. -/
  | append (list : ℕ) (sample : α)
  /-- `self._pending_since.setdefault(dpid, time.monotonic())`. -/
  | stamp
  /-- `self._pending[dpid]`. -/
  | lookup
  /-- `len(..) >= self.batch_size`. -/
  | measure (list : ℕ)
  /-- `samples = self._pending.pop(dpid, [])`, where `none` is the empty list made here. -/
  | popPending (dpid : ℕ) (next : AfterFlush)
  /-- `self._pending_since.pop(dpid, None)`. -/
  | popSince (dpid : ℕ) (list : Option ℕ) (next : AfterFlush)
  /-- `if not samples`, and whether the switch is registered. -/
  | anySamples (dpid : ℕ) (list : Option ℕ) (next : AfterFlush)
  /-- `build_datagram`, which goes through the list. -/
  | build (dpid list : ℕ) (read : List α) (next : AfterFlush)
  /-- `self._sock.sendto(datagram, self.collector)`. -/
  | send (dpid list : ℕ) (samples : List α) (next : AfterFlush)
  /-- The same without batching. -/
  | sendOne (sample : α)
  /-- `self._pending_since.items()`. -/
  | items
  /-- The next entry, of a dictionary that had `size` of them when this began, after `changes` changes
  of its keys. -/
  | sweep (size changes position : ℕ) (aged : List ℕ)
  /-- An exception has ended the thread. -/
  | raised
  deriving DecidableEq, Repr

/-- The rest of `emit` after a flush. -/
def AfterFlush.resume {α : Type*} : AfterFlush → Pc α
  | .sweep => .items
  | .aged [] => .idle
  | .aged (other :: others) => .popPending other (.aged others)

/-- The emitter, its receive threads and what they have sent. -/
structure EmitterState (α : Type*) where
  /-- The lists that were made for a switch, the oldest first. -/
  lists : ℕ → List (List α)
  pending : ℕ → Option ℕ
  pendingSince : Dict ℕ ℤ
  /-- How often a key was put into `pendingSince` or taken out of it. -/
  changes : ℕ
  wire : List (ℕ × List α)
  pc : ℕ → Pc α

namespace EmitterState

variable {α : Type*}

/-- An emitter that was just made. -/
def start : EmitterState α where
  lists _ := []
  pending _ := none
  pendingSince := .empty
  changes := 0
  wire := []
  pc _ := .idle

/-- A thread goes on. -/
def goto (s : EmitterState α) (t : ℕ) (p : Pc α) : EmitterState α :=
  { s with pc := Function.update s.pc t p }

/-- What is in a list. -/
def listAt (s : EmitterState α) (dpid list : ℕ) : List α := ((s.lists dpid)[list]?).getD []

/-- The sweep of a thread reads the entry at a position, or ends where there is none. -/
def sweepAt (cfg : EmitterConfig) (s : EmitterState α) (t : ℕ) (now : ℤ) (size changes position : ℕ)
    (aged : List ℕ) : EmitterState α :=
  match s.pendingSince.entries[position]? with
  | some (dpid, since) =>
    if dpid ≠ t ∧ cfg.batchMaxDelay ≤ now - since then
      s.goto t (.sweep size changes (position + 1) (aged ++ [dpid]))
    else s.goto t (.sweep size changes (position + 1) aged)
  | none => s.goto t (AfterFlush.aged aged).resume

/-- One operation of the receive thread of the switch `t`.  The clock shows `now`, and `sent` says
whether the datagram could be built and sent. -/
def advance (cfg : EmitterConfig) (s : EmitterState α) (t : ℕ) (now : ℤ) (sent : Bool) :
    Option (EmitterState α) :=
  match s.pc t with
  | .idle | .raised => none
  | .enqueue sample =>
    match s.pending t with
    | some list => some (s.goto t (.append list sample))
    | none =>
      let list := (s.lists t).length
      some { s.goto t (.append list sample) with
        lists := Function.update s.lists t (s.lists t ++ [[]])
        pending := Function.update s.pending t (some list) }
  | .append list sample =>
    some { s.goto t .stamp with
      lists := Function.update s.lists t ((s.lists t).modify list (· ++ [sample])) }
  | .stamp =>
    if (s.pendingSince.get? t).isSome then some (s.goto t .lookup)
    else some { s.goto t .lookup with
      pendingSince := s.pendingSince.set t now
      changes := s.changes + 1 }
  | .lookup =>
    match s.pending t with
    | some list => some (s.goto t (.measure list))
    | none => some (s.goto t .raised)  -- KeyError
  | .measure list =>
    if cfg.batchSize ≤ (s.listAt t list).length then some (s.goto t (.popPending t .sweep))
    else some (s.goto t .items)
  | .popPending dpid next =>
    some { s.goto t (.popSince dpid (s.pending dpid) next) with
      pending := Function.update s.pending dpid none }
  | .popSince dpid list next =>
    if (s.pendingSince.get? dpid).isSome then
      some { s.goto t (.anySamples dpid list next) with
        pendingSince := s.pendingSince.erase dpid
        changes := s.changes + 1 }
    else some (s.goto t (.anySamples dpid list next))
  | .anySamples _ none next => some (s.goto t next.resume)
  | .anySamples dpid (some list) next =>
    if (s.listAt dpid list).isEmpty then some (s.goto t next.resume)
    else if cfg.registered dpid then some (s.goto t (.build dpid list [] next))
    else some (s.goto t next.resume)
  | .build dpid list read next =>
    match (s.listAt dpid list)[read.length]? with
    | some sample => some (s.goto t (.build dpid list (read ++ [sample]) next))
    | none => some (s.goto t (.send dpid list read next))
  | .send dpid _ samples next =>
    if sent then some { s.goto t next.resume with wire := s.wire ++ [(dpid, samples)] }
    else some (s.goto t next.resume)
  | .sendOne sample =>
    if sent then some { s.goto t .idle with wire := s.wire ++ [(t, [sample])] }
    else some (s.goto t .idle)
  | .items => some (s.goto t (.sweep s.pendingSince.entries.length s.changes 0 []))
  | .sweep size changes position aged =>
    -- an iterator over a dictionary that has grown or shrunk raises RuntimeError, also at the end,
    -- and one over as many other keys may raise it
    if s.pendingSince.entries.length ≠ size ∨ s.changes ≠ changes then some (s.goto t .raised)
    else some (s.sweepAt cfg t now size changes position aged)

end EmitterState

/-- What happens next. -/
inductive EmitterAct (α : Type*) where
  /-- The receive thread of a switch calls `emit`. -/
  | emit (t : ℕ) (sample : α)
  /-- It does its next operation. -/
  | advance (t : ℕ) (now : ℤ) (sent : Bool)
  /-- Its sweep does not notice that keys were exchanged for as many others, and goes on wherever its
  iterator is among them. -/
  | resume (t : ℕ) (now : ℤ) (position : ℕ)
  deriving DecidableEq, Repr

namespace EmitterState

variable {α : Type*}

/-- One step. -/
def step (cfg : EmitterConfig) (s : EmitterState α) : EmitterAct α → Option (EmitterState α)
  | .emit t sample =>
    match s.pc t with
    | .idle =>
      if cfg.registered t then
        if 1 < cfg.batchSize then some (s.goto t (.enqueue sample))
        else some (s.goto t (.sendOne sample))
      else some s
    | _ => none
  | .advance t now sent => s.advance cfg t now sent
  | .resume t now position =>
    match s.pc t with
    | .sweep size changes _ aged =>
      if s.pendingSince.entries.length = size ∧ s.changes ≠ changes then
        some (s.sweepAt cfg t now size changes position aged)
      else none
    | _ => none

end EmitterState

section Exactness

variable {α : Type*}

/-- The samples that were emitted for a switch. -/
def emittedFor (dpid : ℕ) (tr : List (EmitterAct α)) : List α :=
  tr.flatMap fun
    | .emit t sample => if t = dpid then [sample] else []
    | .advance .. | .resume .. => []

namespace EmitterState

/-- The samples of each datagram of a switch. -/
def sentFor (s : EmitterState α) (dpid : ℕ) : List (List α) :=
  (s.wire.filter (·.1 = dpid)).map Prod.snd

/-- What is buffered for a switch. -/
def pendingFor (s : EmitterState α) (dpid : ℕ) : List α :=
  match s.pending dpid with
  | some list => s.listAt dpid list
  | none => []

end EmitterState

/-- No `emit` has raised, and when none is in progress what was sent for a switch, and then what is
buffered for it, is what was emitted for it. -/
def Exact (cfg : EmitterConfig) (tr : List (EmitterAct α)) (s : EmitterState α) : Prop :=
  (∀ t, s.pc t ≠ .raised) ∧ ((∀ t, s.pc t = .idle) →
    ∀ dpid, cfg.registered dpid → (s.sentFor dpid).flatten ++ s.pendingFor dpid = emittedFor dpid tr)

/-- The datagram of this step, if any, is built and sent. -/
def EmitterAct.Sends : EmitterAct α → Prop
  | .emit .. | .resume .. => True
  | .advance _ _ sent => sent = true

instance : DecidablePred (EmitterAct.Sends (α := α))
  | .emit .. | .resume .. => .isTrue trivial
  | .advance _ _ sent => inferInstanceAs (Decidable (sent = true))

/-- An `emit` has been given the list of its switch and has still to look it up again. -/
def Pc.Filling : Pc α → Prop
  | .append .. | .stamp | .lookup => True
  | _ => False

/-- The list of a switch that a thread has taken and not yet sent. -/
def Pc.taken : Pc α → Option (ℕ × ℕ)
  | .popSince dpid list _ | .anySamples dpid list _ => list.map (dpid, ·)
  | .build dpid list _ _ | .send dpid list _ _ => some (dpid, list)
  | _ => none

/-- The step does not take the list of a switch away from an `emit` of this switch that is still to
look it up, does not send a list before an older one of the switch, and does not go on with a sweep
over a dictionary whose keys have changed since the sweep began. -/
def Undisturbed (s : EmitterState α) : EmitterAct α → Prop
  | .emit .. => True
  | .resume .. => False
  | .advance t _ _ =>
    match s.pc t with
    | .popPending dpid _ => ¬ (s.pc dpid).Filling
    | .send dpid list _ _ => ∀ t' list', (s.pc t').taken = some (dpid, list') → list ≤ list'
    | .sweep size changes _ _ => s.pendingSince.entries.length = size ∧ s.changes = changes
    | _ => True

/-! ### The invariant -/

/-- The sample of an `emit` that is not in a list yet. -/
def Pc.unplaced : Pc α → List α
  | .enqueue sample | .append _ sample => [sample]
  | _ => []

/-- What a thread has found out is still so. -/
def Pc.Sound (cfg : EmitterConfig) (s : EmitterState α) (t : ℕ) : Pc α → Prop
  | .enqueue _ => cfg.registered t = true
  | .append list _ => s.pending t = some list
  | .stamp | .lookup => ∃ list, s.pending t = some list
  | .build dpid list read _ => ∃ samples, (s.lists dpid)[list]? = some samples ∧ read <+: samples
  | .send dpid list samples _ => (s.lists dpid)[list]? = some samples
  | .sendOne _ | .raised => False
  | _ => True

/-- Each list of a switch was sent, is taken by one thread, or is pending; the lists that were sent
are the oldest, and the one that is pending is the newest. -/
structure Batched (cfg : EmitterConfig) (tr : List (EmitterAct α)) (s : EmitterState α) : Prop where
  sent : ∀ d, s.sentFor d <+: s.lists d
  pending : ∀ d n, s.pending d = some n →
    n + 1 = (s.lists d).length ∧ (s.sentFor d).length ≤ n ∧ cfg.registered d = true
  filled : ∀ d n, s.pending d = some n → (s.lists d)[n]? = some [] → ∃ x, s.pc d = .append n x
  taken : ∀ t d n, (s.pc t).taken = some (d, n) → (s.sentFor d).length ≤ n ∧
    s.pending d ≠ some n ∧ cfg.registered d = true ∧ ∃ x xs, (s.lists d)[n]? = some (x :: xs)
  takenOnce : ∀ t t' d n, (s.pc t).taken = some (d, n) → (s.pc t').taken = some (d, n) → t = t'
  covered : ∀ d n, (s.sentFor d).length ≤ n → n < (s.lists d).length →
    s.pending d = some n ∨ ∃ t, (s.pc t).taken = some (d, n)
  emitted : ∀ d, cfg.registered d = true →
    emittedFor d tr = (s.lists d).flatten ++ (s.pc d).unplaced
  sound : ∀ t, (s.pc t).Sound cfg s t

variable {cfg : EmitterConfig} {tr : List (EmitterAct α)} {s : EmitterState α}

theorem batched_start : Batched cfg ([] : List (EmitterAct α)) .start where
  sent _ := List.prefix_rfl
  pending _ _ h := nomatch h
  filled _ _ h := nomatch h
  taken _ _ _ h := nomatch h
  takenOnce _ _ _ _ h := nomatch h
  covered _ n _ h := absurd h (Nat.not_lt_zero n)
  emitted _ _ := rfl
  sound _ := trivial

/-- **The lists at rest**: what was sent is all but the list that is pending. -/
theorem Batched.exact (h : Batched cfg tr s) : Exact cfg tr s := by
  constructor
  · intro t ht
    have hsound := h.sound t
    rw [ht] at hsound
    exact hsound
  · intro hidle d hreg
    have hnot : ∀ t n, (s.pc t).taken ≠ some (d, n) := by
      intro t n ht
      rw [hidle t] at ht
      cases ht
    have hplaced : (s.pc d).unplaced = [] := by
      rw [hidle d]
      rfl
    rw [h.emitted d hreg, hplaced, List.append_nil]
    obtain ⟨rest, hrest⟩ := h.sent d
    rw [← hrest, List.flatten_append, EmitterState.pendingFor]
    -- what is left of the lists is the pending one, or nothing
    have hlength : (s.lists d).length = (s.sentFor d).length + rest.length := by
      rw [← hrest, List.length_append]
    cases hp : s.pending d with
    | none =>
      cases hc : rest with
      | nil => simp
      | cons r rs =>
        exfalso
        rcases h.covered d (s.sentFor d).length (Nat.le_refl _) (by rw [hlength, hc]; simp) with hn | ⟨t, ht⟩
        · rw [hp] at hn
          cases hn
        · exact hnot t _ ht
    | some n =>
      obtain ⟨hlast, hle, -⟩ := h.pending d n hp
      have hn : n = (s.sentFor d).length := by
        rcases h.covered d (s.sentFor d).length (Nat.le_refl _) (by omega) with hn | ⟨t, ht⟩
        · rw [hp, Option.some.injEq] at hn
          exact hn
        · exact absurd ht (hnot t _)
      obtain ⟨r, rfl⟩ : ∃ r, rest = [r] := List.length_eq_one_iff.mp (by omega)
      simp [EmitterState.listAt, ← hrest, hn]

/-! ### What one operation keeps -/

/-- What a thread has found out depends on the buffer it is filling and on the list it has taken. -/
theorem Pc.Sound.mono {s' : EmitterState α} {t : ℕ} {p : Pc α}
    (hpending : p.Filling → s'.pending t = s.pending t)
    (hlists : ∀ d n xs, p.taken = some (d, n) → (s.lists d)[n]? = some xs →
      (s'.lists d)[n]? = some xs)
    (h : p.Sound cfg s t) : p.Sound cfg s' t := by
  cases p with
  | append | stamp | lookup => simpa only [Pc.Sound, hpending trivial] using h
  | build d n read next =>
    obtain ⟨samples, hsamples, hread⟩ := h
    exact ⟨samples, hlists d n samples rfl hsamples, hread⟩
  | send d n samples next => exact hlists d n samples rfl h
  | _ => exact h

theorem emittedFor_append (d : ℕ) (tr tr' : List (EmitterAct α)) :
    emittedFor d (tr ++ tr') = emittedFor d tr ++ emittedFor d tr' := List.flatMap_append

@[simp] theorem emittedFor_advance (d t : ℕ) (now : ℤ) (sent : Bool) :
    emittedFor d [(.advance t now sent : EmitterAct α)] = [] := rfl

/-- A thread that goes on with what it has taken. -/
theorem taken_update {t : ℕ} {p : Pc α} (htaken : p.taken = (s.pc t).taken) (t' : ℕ) :
    (Function.update s.pc t p t').taken = (s.pc t').taken := by
  rcases eq_or_ne t' t with rfl | ht'
  · rw [Function.update_self, htaken]
  · rw [Function.update_of_ne ht']

/-- An empty list is still being filled when a thread that does not fill one goes on. -/
theorem Batched.filled_update (h : Batched cfg tr s) {t d n : ℕ} (p : Pc α)
    (hnot : ∀ n x, s.pc t ≠ .append n x) (hd : s.pending d = some n)
    (hn : (s.lists d)[n]? = some []) : ∃ x, Function.update s.pc t p d = .append n x := by
  obtain ⟨x, hx⟩ := h.filled d n hd hn
  have hne : d ≠ t := fun hdt => hnot n x (hdt ▸ hx)
  exact ⟨x, by rw [Function.update_of_ne hne, hx]⟩

/-- What was emitted is accounted for when a thread goes on that places no sample. -/
theorem Batched.emitted_update (h : Batched cfg tr s) {t d : ℕ} {p : Pc α}
    (hunplaced : p.unplaced = (s.pc t).unplaced) (hreg : cfg.registered d = true) (now : ℤ)
    (sent : Bool) : emittedFor d (tr ++ [EmitterAct.advance t now sent]) =
      (s.lists d).flatten ++ (Function.update s.pc t p d).unplaced := by
  rw [emittedFor_append, h.emitted d hreg, emittedFor_advance, List.append_nil]
  rcases eq_or_ne d t with rfl | hd
  · rw [Function.update_self, hunplaced]
  · rw [Function.update_of_ne hd]

/-- A thread goes on without touching the lists. -/
theorem Batched.goto (h : Batched cfg tr s) {t : ℕ} {p : Pc α} {act : EmitterAct α}
    {s' : EmitterState α} (hlists : s'.lists = s.lists) (hpending : s'.pending = s.pending)
    (hwire : s'.wire = s.wire) (hpc : s'.pc = Function.update s.pc t p)
    (hnot : ∀ n x, s.pc t ≠ .append n x) (htaken : p.taken = (s.pc t).taken)
    (hunplaced : (s.pc t).unplaced ++ emittedFor t [act] = p.unplaced)
    (hother : ∀ d ≠ t, emittedFor d [act] = []) (hsound : p.Sound cfg s t) :
    Batched cfg (tr ++ [act]) s' := by
  have hsent : ∀ d, s'.sentFor d = s.sentFor d := by
    intro d
    rw [EmitterState.sentFor, hwire]
    rfl
  have hsame : ∀ t', (s'.pc t').taken = (s.pc t').taken := by
    intro t'
    rw [hpc]
    exact taken_update htaken t'
  refine ⟨?_, ?_, ?_, ?_, ?_, ?_, ?_, ?_⟩
  · intro d
    rw [hsent, hlists]
    exact h.sent d
  · intro d n hd
    rw [hsent, hlists]
    rw [hpending] at hd
    exact h.pending d n hd
  · intro d n hd hn
    rw [hpending] at hd
    rw [hlists] at hn
    rw [hpc]
    exact h.filled_update p hnot hd hn
  · intro t' d n ht'
    rw [hsent, hlists, hpending]
    rw [hsame] at ht'
    exact h.taken t' d n ht'
  · intro t₁ t₂ d n h₁ h₂
    rw [hsame] at h₁ h₂
    exact h.takenOnce t₁ t₂ d n h₁ h₂
  · intro d n hle hlt
    rw [hsent] at hle
    rw [hlists] at hlt
    rw [hpending]
    refine (h.covered d n hle hlt).imp_right ?_
    rintro ⟨t', ht'⟩
    exact ⟨t', by rw [hsame, ht']⟩
  · intro d hreg
    rw [emittedFor_append, h.emitted d hreg, hlists, hpc, List.append_assoc]
    rcases eq_or_ne d t with rfl | hd
    · rw [Function.update_self, hunplaced]
    · rw [Function.update_of_ne hd, hother d hd, List.append_nil]
  · intro t'
    refine Pc.Sound.mono (s := s) (fun _ => by rw [hpending])
      (fun d n xs _ hxs => by rw [hlists, hxs]) ?_
    rw [hpc]
    rcases eq_or_ne t' t with rfl | ht'
    · rw [Function.update_self]
      exact hsound
    · rw [Function.update_of_ne ht']
      exact h.sound t'

/-- A sweep, or a full buffer, takes a list away. -/
theorem Batched.pop (h : Batched cfg tr s) {t d : ℕ} {next : AfterFlush}
    (hpc : s.pc t = .popPending d next) (hfree : ¬ (s.pc d).Filling) (now : ℤ) (sent : Bool) :
    Batched cfg (tr ++ [EmitterAct.advance t now sent])
      { s.goto t (.popSince d (s.pending d) next) with
        pending := Function.update s.pending d none } := by
  -- the thread had taken nothing yet, and takes what was pending
  have htaken : ∀ t' d' n, (Function.update s.pc t (.popSince d (s.pending d) next) t').taken =
      some (d', n) ↔ (t' = t ∧ d' = d ∧ s.pending d = some n) ∨ (s.pc t').taken = some (d', n) := by
    intro t' d' n
    rcases eq_or_ne t' t with rfl | ht'
    · rw [Function.update_self]
      simp only [Pc.taken, Option.map_eq_some_iff, Prod.mk.injEq, hpc]
      grind
    · rw [Function.update_of_ne ht']
      simp [ht']
  refine ⟨h.sent, ?_, ?_, ?_, ?_, ?_, ?_, ?_⟩
  · intro d' n hd'
    rcases eq_or_ne d' d with rfl | hne
    · simp at hd'
    · exact h.pending d' n (by simpa [Function.update_of_ne hne] using hd')
  · intro d' n hd' hn
    rcases eq_or_ne d' d with rfl | hne
    · simp at hd'
    · exact h.filled_update _ (by simp [hpc]) (by simpa [Function.update_of_ne hne] using hd') hn
  · intro t' d' n ht'
    rcases (htaken t' d' n).mp ht' with ⟨rfl, rfl, hn⟩ | ht'
    · obtain ⟨hlast, hle, hreg⟩ := h.pending d' n hn
      refine ⟨hle, by simp, hreg, ?_⟩
      obtain ⟨xs, hxs⟩ : ∃ xs, (s.lists d')[n]? = some xs :=
        ⟨_, List.getElem?_eq_getElem (by omega)⟩
      cases xs with
      | nil =>
        obtain ⟨x, hx⟩ := h.filled d' n hn hxs
        rw [hx] at hfree
        exact absurd trivial hfree
      | cons x xs => exact ⟨x, xs, hxs⟩
    · obtain ⟨hle, hpending, hreg, hne⟩ := h.taken t' d' n ht'
      refine ⟨hle, ?_, hreg, hne⟩
      rcases eq_or_ne d' d with rfl | hd'
      · simp
      · simpa [Function.update_of_ne hd'] using hpending
  · intro t₁ t₂ d' n h₁ h₂
    rcases (htaken t₁ d' n).mp h₁ with ⟨ht₁, hd', hn⟩ | hold₁
    · rcases (htaken t₂ d' n).mp h₂ with ⟨ht₂, -, -⟩ | hold₂
      · rw [ht₁, ht₂]
      · exact absurd (hd' ▸ hn) (h.taken t₂ d' n hold₂).2.1
    · rcases (htaken t₂ d' n).mp h₂ with ⟨-, hd', hn⟩ | hold₂
      · exact absurd (hd' ▸ hn) (h.taken t₁ d' n hold₁).2.1
      · exact h.takenOnce t₁ t₂ d' n hold₁ hold₂
  · intro d' n hle hlt
    rcases h.covered d' n hle hlt with hn | ⟨t', ht'⟩
    · rcases eq_or_ne d' d with rfl | hd'
      · exact .inr ⟨t, (htaken t d' n).mpr (.inl ⟨rfl, rfl, hn⟩)⟩
      · exact .inl (by simpa [Function.update_of_ne hd'] using hn)
    · exact .inr ⟨t', (htaken t' d' n).mpr (.inr ht')⟩
  · intro d' hreg
    exact h.emitted_update (by rw [hpc]; rfl) hreg now sent
  · intro t'
    rcases eq_or_ne t' t with rfl | ht'
    · simp only [EmitterState.goto, Function.update_self]
      trivial
    · refine Pc.Sound.mono ?_ (fun _ _ _ _ hxs => hxs) (s := s) ?_
      · intro hfilling
        simp only [EmitterState.goto, Function.update_of_ne ht'] at hfilling
        have hne : t' ≠ d := by
          rintro rfl
          exact hfree hfilling
        simp [Function.update_of_ne hne]
      · simp only [EmitterState.goto, Function.update_of_ne ht']
        exact h.sound t'

/-- A new list for a switch that has none. -/
theorem Batched.enqueue (h : Batched cfg tr s) {t : ℕ} {x : α} (hpc : s.pc t = .enqueue x)
    (hnone : s.pending t = none) (now : ℤ) (sent : Bool) :
    Batched cfg (tr ++ [EmitterAct.advance t now sent])
      { s.goto t (.append (s.lists t).length x) with
        lists := Function.update s.lists t (s.lists t ++ [[]])
        pending := Function.update s.pending t (some (s.lists t).length) } := by
  have hgrown : ∀ (d n : ℕ) (xs : List α), (s.lists d)[n]? = some xs →
      (Function.update s.lists t (s.lists t ++ [[]]) d)[n]? = some xs := by
    intro d n xs hxs
    rcases eq_or_ne d t with rfl | hd
    · rw [Function.update_self, List.getElem?_append_left (List.getElem?_eq_some_iff.mp hxs).1, hxs]
    · rw [Function.update_of_ne hd, hxs]
  have htaken := taken_update (s := s) (t := t) (p := .append (s.lists t).length x)
    (by rw [hpc]; rfl)
  refine ⟨?_, ?_, ?_, ?_, ?_, ?_, ?_, ?_⟩
  · intro d
    rcases eq_or_ne d t with rfl | hd
    · simp only [Function.update_self]
      exact (h.sent d).trans (List.prefix_append _ _)
    · simp only [Function.update_of_ne hd]
      exact h.sent d
  · intro d n hd
    rcases eq_or_ne d t with rfl | hne
    · have hreg := h.sound d
      rw [hpc] at hreg
      obtain rfl : (s.lists d).length = n := by simpa using hd
      exact ⟨by simp, (h.sent d).length_le, hreg⟩
    · simp only [Function.update_of_ne hne] at hd ⊢
      exact h.pending d n hd
  · intro d n hd hn
    rcases eq_or_ne d t with rfl | hne
    · obtain rfl : (s.lists d).length = n := by simpa using hd
      exact ⟨x, by simp [EmitterState.goto]⟩
    · simpa [EmitterState.goto, Function.update_of_ne hne] using
        h.filled d n (by simpa [Function.update_of_ne hne] using hd)
          (by simpa [Function.update_of_ne hne] using hn)
  · intro t' d n ht'
    obtain ⟨hle, hpending, hreg, y, ys, hys⟩ := h.taken t' d n ((htaken t').symm.trans ht')
    refine ⟨hle, ?_, hreg, y, ys, hgrown d n _ hys⟩
    rcases eq_or_ne d t with rfl | hne
    · have hlt := (List.getElem?_eq_some_iff.mp hys).1
      simp only [Function.update_self, ne_eq, Option.some.injEq]
      omega
    · simpa [Function.update_of_ne hne] using hpending
  · intro t₁ t₂ d n h₁ h₂
    exact h.takenOnce t₁ t₂ d n ((htaken t₁).symm.trans h₁) ((htaken t₂).symm.trans h₂)
  · intro d n hle hlt
    rcases eq_or_ne d t with rfl | hne
    · rcases eq_or_ne n (s.lists d).length with rfl | hn
      · exact .inl (by simp)
      · have hlt : n < (s.lists d).length + 1 := by simpa using hlt
        rcases h.covered d n hle (by omega) with hn | ⟨t', ht'⟩
        · rw [hnone] at hn
          cases hn
        · exact .inr ⟨t', (htaken t').trans ht'⟩
    · rcases h.covered d n hle (by simpa [Function.update_of_ne hne] using hlt) with hn | ⟨t', ht'⟩
      · exact .inl (by simpa [Function.update_of_ne hne] using hn)
      · exact .inr ⟨t', (htaken t').trans ht'⟩
  · intro d hreg
    rw [emittedFor_append, h.emitted d hreg, emittedFor_advance, List.append_nil]
    rcases eq_or_ne d t with rfl | hd
    · simp [EmitterState.goto, hpc, Pc.unplaced]
    · simp [EmitterState.goto, Function.update_of_ne hd]
  · intro t'
    rcases eq_or_ne t' t with rfl | ht'
    · simp [EmitterState.goto, Pc.Sound]
    · refine Pc.Sound.mono (s := s) ?_ (fun d n xs _ => hgrown d n xs) ?_
      · simp [Function.update_of_ne ht']
      · simpa only [EmitterState.goto, Function.update_of_ne ht'] using h.sound t'

theorem flatten_modify_last {L : List (List α)} {n : ℕ} (hn : n + 1 = L.length) (x : α) :
    (L.modify n (· ++ [x])).flatten = L.flatten ++ [x] := by
  obtain ⟨first, last, rfl⟩ := List.eq_nil_or_concat' L |>.resolve_left (by rintro rfl; cases hn)
  obtain rfl : n = first.length := by simpa using hn
  rw [List.modify_eq_take_drop]
  simp

theorem prefix_modify {l L : List (List α)} (h : l <+: L) {n : ℕ} (hn : l.length ≤ n)
    (f : List α → List α) : l <+: L.modify n f := by
  rw [List.prefix_iff_getElem?] at h ⊢
  intro i hi
  rw [List.getElem?_modify_ne f L (by omega), h i hi]

/-- The sample goes into the list, which is still the one of the switch. -/
theorem Batched.append (h : Batched cfg tr s) {t n : ℕ} {x : α} (hpc : s.pc t = .append n x)
    (now : ℤ) (sent : Bool) :
    Batched cfg (tr ++ [EmitterAct.advance t now sent])
      { s.goto t .stamp with
        lists := Function.update s.lists t ((s.lists t).modify n (· ++ [x])) } := by
  have hn : s.pending t = some n := by simpa [hpc, Pc.Sound] using h.sound t
  obtain ⟨hlast, hle, -⟩ := h.pending t n hn
  have hlength : ∀ d, (Function.update s.lists t ((s.lists t).modify n (· ++ [x])) d).length =
      (s.lists d).length := by
    intro d
    rcases eq_or_ne d t with rfl | hd
    · simp
    · rw [Function.update_of_ne hd]
  -- lists that are not pending stay as they are
  have hsame : ∀ d m, s.pending d ≠ some m →
      (Function.update s.lists t ((s.lists t).modify n (· ++ [x])) d)[m]? = (s.lists d)[m]? := by
    intro d m hm
    rcases eq_or_ne d t with rfl | hd
    · have hne : n ≠ m := by
        rintro rfl
        exact hm hn
      simp [hne]
    · rw [Function.update_of_ne hd]
  have htaken := taken_update (s := s) (t := t) (p := .stamp) (by rw [hpc]; rfl)
  refine ⟨?_, ?_, ?_, ?_, ?_, ?_, ?_, ?_⟩
  · intro d
    rcases eq_or_ne d t with rfl | hd
    · simp only [Function.update_self]
      exact prefix_modify (h.sent d) hle _
    · simp only [Function.update_of_ne hd]
      exact h.sent d
  · intro d m hd
    simp only [hlength]
    exact h.pending d m hd
  · intro d m hd hm
    rcases eq_or_ne d t with rfl | hne
    · obtain rfl : n = m := Option.some.inj (hn.symm.trans hd)
      simp at hm
    · simpa [EmitterState.goto, Function.update_of_ne hne] using
        h.filled d m hd (by simpa [Function.update_of_ne hne] using hm)
  · intro t' d m ht'
    obtain ⟨hle, hpending, hreg, y, ys, hys⟩ := h.taken t' d m ((htaken t').symm.trans ht')
    exact ⟨hle, hpending, hreg, y, ys, (hsame d m hpending).trans hys⟩
  · intro t₁ t₂ d m h₁ h₂
    exact h.takenOnce t₁ t₂ d m ((htaken t₁).symm.trans h₁) ((htaken t₂).symm.trans h₂)
  · intro d m hle hlt
    refine (h.covered d m hle (by simpa [hlength] using hlt)).imp_right ?_
    rintro ⟨t', ht'⟩
    exact ⟨t', (htaken t').trans ht'⟩
  · intro d hreg
    rw [emittedFor_append, h.emitted d hreg, emittedFor_advance, List.append_nil]
    rcases eq_or_ne d t with rfl | hd
    · simp [EmitterState.goto, hpc, Pc.unplaced, flatten_modify_last hlast]
    · simp [EmitterState.goto, Function.update_of_ne hd]
  · intro t'
    rcases eq_or_ne t' t with rfl | ht'
    · simpa [EmitterState.goto, Pc.Sound] using ⟨n, hn⟩
    · have hpc' : Function.update s.pc t .stamp t' = s.pc t' := Function.update_of_ne ht' _ _
      simp only [EmitterState.goto, hpc']
      refine Pc.Sound.mono (s := s) (fun _ => rfl) ?_ (h.sound t')
      intro d m xs hm hxs
      exact (hsame d m (h.taken t' d m hm).2.1).trans hxs

theorem sentFor_concat (s s' : EmitterState α) {d : ℕ} {samples : List α}
    (hwire : s'.wire = s.wire ++ [(d, samples)]) (d' : ℕ) :
    s'.sentFor d' = s.sentFor d' ++ if d = d' then [samples] else [] := by
  rw [EmitterState.sentFor, hwire, List.filter_append, List.map_append, EmitterState.sentFor]
  by_cases hd : d = d'
  · simp [hd]
  · simp [hd]

theorem taken_resume (next : AfterFlush) : (next.resume : Pc α).taken = none := by
  cases next with
  | sweep => rfl
  | aged others => cases others <;> rfl

theorem unplaced_resume (next : AfterFlush) : (next.resume : Pc α).unplaced = [] := by
  cases next with
  | sweep => rfl
  | aged others => cases others <;> rfl

theorem sound_resume (t : ℕ) (next : AfterFlush) : (next.resume : Pc α).Sound cfg s t := by
  cases next with
  | sweep => trivial
  | aged others => cases others <;> trivial

/-- The oldest list that is still here is sent. -/
theorem Batched.send (h : Batched cfg tr s) {t d n : ℕ} {samples : List α} {next : AfterFlush}
    (hpc : s.pc t = .send d n samples next)
    (holdest : ∀ t' m, (s.pc t').taken = some (d, m) → n ≤ m) (now : ℤ) (sent : Bool) :
    Batched cfg (tr ++ [EmitterAct.advance t now sent])
      { s.goto t next.resume with wire := s.wire ++ [(d, samples)] } := by
  have hheld : (s.pc t).taken = some (d, n) := by rw [hpc]; rfl
  have hlist : (s.lists d)[n]? = some samples := by simpa [hpc, Pc.Sound] using h.sound t
  obtain ⟨hle, hpending, -, -⟩ := h.taken t d n hheld
  have hlt := (List.getElem?_eq_some_iff.mp hlist).1
  -- no list between those that were sent and this one
  have hn : n = (s.sentFor d).length := by
    rcases h.covered d (s.sentFor d).length (Nat.le_refl _) (by omega) with hp | ⟨t', ht'⟩
    · have := (h.pending d _ hp).1
      omega
    · have := holdest t' _ ht'
      omega
  have hsent := sentFor_concat s { s.goto t next.resume with wire := s.wire ++ [(d, samples)] } rfl
  have htaken : ∀ t' d' m, (Function.update s.pc t next.resume t').taken = some (d', m) ↔
      (s.pc t').taken = some (d', m) ∧ (d', m) ≠ (d, n) := by
    intro t' d' m
    rcases eq_or_ne t' t with rfl | ht'
    · rw [Function.update_self, taken_resume, hheld]
      grind
    · rw [Function.update_of_ne ht']
      refine ⟨fun hm => ⟨hm, ?_⟩, fun hm => hm.1⟩
      rintro hdm
      exact ht' (h.takenOnce t' t d n (hdm ▸ hm) hheld)
  have hlength : ∀ d', ((s.sentFor d') ++ if d = d' then [samples] else []).length =
      (s.sentFor d').length + if d = d' then 1 else 0 := by
    intro d'
    by_cases hd : d = d' <;> simp [hd]
  refine ⟨?_, ?_, ?_, ?_, ?_, ?_, ?_, ?_⟩
  · intro d'
    rw [hsent d']
    by_cases hd : d = d'
    · subst hd
      rw [if_pos rfl, List.prefix_iff_getElem?]
      intro i hi
      rw [List.length_append, List.length_singleton] at hi
      rcases Nat.lt_succ_iff_lt_or_eq.mp hi with hi | rfl
      · rw [List.getElem_append_left hi]
        exact List.prefix_iff_getElem?.mp (h.sent d) i hi
      · rw [List.getElem_concat_length rfl, ← hn]
        exact hlist
    · rw [if_neg hd, List.append_nil]
      exact h.sent d'
  · intro d' m hm
    obtain ⟨hlast, hm', hreg⟩ := h.pending d' m hm
    refine ⟨hlast, ?_, hreg⟩
    rw [hsent d', hlength]
    by_cases hd : d = d'
    · subst hd
      have hne : m ≠ n := by
        rintro rfl
        exact hpending hm
      rw [if_pos rfl]
      omega
    · rw [if_neg hd]
      exact hm'
  · intro d' m hd' hm
    exact h.filled_update _ (by simp [hpc]) hd' hm
  · intro t' d' m ht'
    obtain ⟨hm, hne⟩ := (htaken t' d' m).mp ht'
    obtain ⟨hle', hrest⟩ := h.taken t' d' m hm
    refine ⟨?_, hrest⟩
    rw [hsent d', hlength]
    by_cases hd : d = d'
    · subst hd
      have hne : m ≠ n := by
        rintro rfl
        exact hne rfl
      rw [if_pos rfl]
      omega
    · rw [if_neg hd]
      exact hle'
  · intro t₁ t₂ d' m h₁ h₂
    exact h.takenOnce t₁ t₂ d' m ((htaken t₁ d' m).mp h₁).1 ((htaken t₂ d' m).mp h₂).1
  · intro d' m hm hlt'
    rw [hsent d', hlength] at hm
    refine (h.covered d' m (by omega) hlt').imp_right ?_
    rintro ⟨t', ht'⟩
    refine ⟨t', (htaken t' d' m).mpr ⟨ht', ?_⟩⟩
    rintro hdm
    obtain ⟨rfl, rfl⟩ := Prod.mk.inj hdm
    rw [if_pos rfl] at hm
    omega
  · intro d' hreg
    refine h.emitted_update ?_ hreg now sent
    rw [unplaced_resume, hpc]
    rfl
  · intro t'
    refine Pc.Sound.mono (s := s) (fun _ => rfl) (fun _ _ _ _ hxs => hxs) ?_
    rcases eq_or_ne t' t with rfl | ht'
    · simp only [EmitterState.goto, Function.update_self]
      exact sound_resume t' next
    · simpa only [EmitterState.goto, Function.update_of_ne ht'] using h.sound t'

/-- A thread goes on with the list it has taken, if any, and without touching the lists. -/
theorem Batched.quiet (h : Batched cfg tr s) {t : ℕ} {q : Pc α} {since : Dict ℕ ℤ} {changes : ℕ}
    (hpc : s.pc t = q) (p : Pc α) (hnot : ∀ n x, q ≠ .append n x) (htaken : p.taken = q.taken)
    (hunplaced : q.unplaced = p.unplaced) (hsound : p.Sound cfg s t) (now : ℤ) (sent : Bool) :
    Batched cfg (tr ++ [EmitterAct.advance t now sent])
      { s.goto t p with pendingSince := since, changes } := by
  subst hpc
  refine h.goto rfl rfl rfl rfl hnot htaken ?_ (fun _ _ => rfl) hsound
  rw [emittedFor_advance, List.append_nil, hunplaced]

theorem listAt_eq {d n : ℕ} {xs : List α} (h : (s.lists d)[n]? = some xs) : s.listAt d n = xs := by
  rw [EmitterState.listAt, h, Option.getD_some]

/-- One operation of a thread. -/
theorem Batched.advance (h : Batched cfg tr s) {t : ℕ} {now : ℤ} {s' : EmitterState α}
    (hact : Undisturbed s (.advance t now true)) (hstep : s.advance cfg t now true = some s') :
    Batched cfg (tr ++ [EmitterAct.advance t now true]) s' := by
  have hsound := h.sound t
  cases hpc : s.pc t with
  | idle | raised => simp [EmitterState.advance, hpc] at hstep
  | sendOne x =>
    rw [hpc] at hsound
    exact hsound.elim
  | enqueue x =>
    cases hp : s.pending t with
    | none =>
      simp only [EmitterState.advance, hpc, hp, Option.some.injEq] at hstep
      subst hstep
      exact h.enqueue hpc hp now true
    | some n =>
      simp only [EmitterState.advance, hpc, hp, Option.some.injEq] at hstep
      subst hstep
      exact h.quiet hpc (.append n x) (by simp) rfl rfl hp now true
  | append n x =>
    simp only [EmitterState.advance, hpc, Option.some.injEq] at hstep
    subst hstep
    exact h.append hpc now true
  | stamp =>
    rw [hpc] at hsound
    simp only [EmitterState.advance, hpc] at hstep
    split at hstep <;> cases hstep
    · exact h.quiet hpc .lookup (by simp) rfl rfl hsound now true
    · exact h.quiet hpc .lookup (by simp) rfl rfl hsound now true
  | lookup =>
    rw [hpc] at hsound
    obtain ⟨n, hn⟩ := hsound
    simp only [EmitterState.advance, hpc, hn, Option.some.injEq] at hstep
    subst hstep
    exact h.quiet hpc (.measure n) (by simp) rfl rfl trivial now true
  | measure n =>
    simp only [EmitterState.advance, hpc] at hstep
    split at hstep <;> cases hstep
    · exact h.quiet hpc (.popPending t .sweep) (by simp) rfl rfl trivial now true
    · exact h.quiet hpc .items (by simp) rfl rfl trivial now true
  | popPending d next =>
    simp only [EmitterState.advance, hpc, Option.some.injEq] at hstep
    subst hstep
    simp only [Undisturbed, hpc] at hact
    exact h.pop hpc hact now true
  | popSince d list next =>
    simp only [EmitterState.advance, hpc] at hstep
    split at hstep <;> cases hstep
    · exact h.quiet hpc (.anySamples d list next) (by simp) rfl rfl trivial now true
    · exact h.quiet hpc (.anySamples d list next) (by simp) rfl rfl trivial now true
  | anySamples d list next =>
    cases list with
    | none =>
      simp only [EmitterState.advance, hpc, Option.some.injEq] at hstep
      subst hstep
      exact h.quiet hpc next.resume (by simp) (taken_resume next) (unplaced_resume next).symm
        (sound_resume t next) now true
    | some n =>
      -- a list that was taken is not empty, and its switch is registered
      obtain ⟨-, -, hreg, x, xs, hxs⟩ := h.taken t d n (by rw [hpc]; rfl)
      simp only [EmitterState.advance, hpc, listAt_eq hxs, hreg, List.isEmpty_cons, if_true,
        Option.some.injEq, Bool.false_eq_true, if_false] at hstep
      subst hstep
      exact h.quiet hpc (.build d n [] next) (by simp) rfl rfl ⟨_, hxs, List.nil_prefix⟩ now true
  | build d n read next =>
    rw [hpc] at hsound
    obtain ⟨samples, hsamples, rest, rfl⟩ := hsound
    simp only [EmitterState.advance, hpc, listAt_eq hsamples] at hstep
    cases rest with
    | nil =>
      simp only [List.append_nil, List.getElem?_length, Option.some.injEq] at hstep hsamples
      subst hstep
      exact h.quiet hpc (.send d n read next) (by simp) rfl rfl hsamples now true
    | cons x rest =>
      simp only [List.getElem?_append_right (Nat.le_refl _), Nat.sub_self, List.getElem?_cons_zero,
        Option.some.injEq] at hstep
      subst hstep
      refine h.quiet hpc (.build d n (read ++ [x]) next) (by simp) rfl rfl ⟨_, hsamples, rest, ?_⟩
        now true
      simp
  | send d n samples next =>
    simp only [EmitterState.advance, hpc, if_true, Option.some.injEq] at hstep
    subst hstep
    simp only [Undisturbed, hpc] at hact
    exact h.send hpc hact now true
  | items =>
    simp only [EmitterState.advance, hpc, Option.some.injEq] at hstep
    subst hstep
    exact h.quiet hpc (.sweep _ _ 0 []) (by simp) rfl rfl trivial now true
  | sweep size changes position aged =>
    simp only [Undisturbed, hpc] at hact
    simp only [EmitterState.advance, hpc, hact.1, hact.2, ne_eq, not_true_eq_false, or_self,
      if_false, Option.some.injEq] at hstep
    subst hstep
    unfold EmitterState.sweepAt
    split
    · next dpid since hentry =>
      split
      · exact h.quiet hpc (.sweep size changes (position + 1) (aged ++ [dpid])) (by simp) rfl rfl
          trivial now true
      · exact h.quiet hpc (.sweep size changes (position + 1) aged) (by simp) rfl rfl trivial now true
    · exact h.quiet hpc (AfterFlush.aged aged).resume (by simp) (taken_resume _)
        (unplaced_resume _).symm (sound_resume t _) now true

/-- **One step**, which does not disturb another thread and whose datagram is sent. -/
theorem Batched.step (hbatch : 1 < cfg.batchSize) (h : Batched cfg tr s) {act : EmitterAct α}
    {s' : EmitterState α} (hact : Undisturbed s act) (hsends : act.Sends)
    (hstep : s.step cfg act = some s') : Batched cfg (tr ++ [act]) s' := by
  cases act with
  | emit t x =>
    cases hpc : s.pc t with
    | idle =>
      cases hreg : cfg.registered t with
      | false =>
        simp only [EmitterState.step, hpc, hreg, Bool.false_eq_true, if_false,
          Option.some.injEq] at hstep
        subst hstep
        refine { h with emitted := ?_ }
        intro d hd
        have hne : t ≠ d := by
          rintro rfl
          rw [hreg] at hd
          cases hd
        rw [emittedFor_append, h.emitted d hd]
        simp [emittedFor, hne]
      | true =>
        simp only [EmitterState.step, hpc, hreg, hbatch, if_true, Option.some.injEq] at hstep
        subst hstep
        refine h.goto rfl rfl rfl rfl (by simp [hpc]) (by rw [hpc]; rfl) ?_ ?_ hreg
        · rw [hpc]
          simp [emittedFor, Pc.unplaced]
        · intro d hd
          simp [emittedFor, hd.symm]
    | _ => simp [EmitterState.step, hpc] at hstep
  | advance t now sent =>
    obtain rfl : sent = true := hsends
    exact h.advance hact hstep
  | resume t now position => exact hact.elim

/-- **Batching is exact** as long as no step disturbs another thread: along every run whose sends all
succeed no `emit` raises, and at rest each switch has its samples once and in order. -/
theorem exact_of_undisturbed (hbatch : 1 < cfg.batchSize) (hsends : ∀ act ∈ tr, act.Sends)
    (hok : Machine.Guarded (EmitterState.step cfg) Undisturbed .start tr)
    (hrun : Machine.run (EmitterState.step cfg) .start tr = some s) : Exact cfg tr s := by
  have hboth : Machine.Guarded (EmitterState.step cfg)
      (fun s act => Undisturbed s act ∧ act.Sends) .start tr := by
    intro before act hact m hm
    exact ⟨hok before act hact m hm, hsends act (hact.subset (by simp))⟩
  refine Batched.exact (Machine.Guarded.invariant (P := Batched cfg) batched_start ?_ hboth hrun)
  intro tr s act s' hact h hstep
  exact h.step hbatch hact.1 hact.2 hstep

end Exactness

/-! ### Two switches -/

/-- Batches of two, and a delay of five. -/
def twoSwitches : EmitterConfig where
  batchSize := 2
  batchMaxDelay := 5
  registered dpid := dpid = 1 ∨ dpid = 2

/-- The operations of a thread at one time. -/
def operations (t : ℕ) (now : ℤ) (n : ℕ) : List (EmitterAct ℕ) :=
  List.replicate n (.advance t now true)

/-- The first switch fills half a batch, and the second finds it aged, up to the flush. -/
def agedBatch : List (EmitterAct ℕ) :=
  .emit 1 7 :: operations 1 0 8 ++ .emit 2 8 :: operations 2 10 9

/-- The second switch sends what it found. -/
def sweptRun : List (EmitterAct ℕ) := agedBatch ++ operations 2 10 6

/-- The sweep of one switch sends the batch of another. -/
theorem exact_sweptRun : ∃ s, Machine.run (EmitterState.step twoSwitches) .start sweptRun = some s ∧
    Exact twoSwitches sweptRun s ∧ s.sentFor 1 = [[7]] ∧ s.pendingFor 2 = [8] := by
  refine ⟨_, rfl, exact_of_undisturbed (by decide) (by decide) ?_ rfl, rfl, rfl⟩
  -- only the flush of the other switch, and the sweeps, have anything to show
  iterate 7 refine Machine.guarded_cons trivial rfl ?_
  iterate 2 refine Machine.guarded_cons ⟨by decide, by decide⟩ rfl ?_
  iterate 7 refine Machine.guarded_cons trivial rfl ?_
  iterate 3 refine Machine.guarded_cons ⟨by decide, by decide⟩ rfl ?_
  refine Machine.guarded_cons (fun h => h) rfl ?_
  iterate 4 refine Machine.guarded_cons trivial rfl ?_
  refine Machine.guarded_cons ?_ rfl (Machine.guarded_nil _ _)
  intro t list _
  exact Nat.zero_le list

/-- The first switch emits again, and is swept between its `setdefault` and its `append`. -/
def lostRun : List (EmitterAct ℕ) :=
  agedBatch ++ .emit 1 9 :: operations 1 10 1 ++ operations 2 10 6 ++ operations 1 10 3

/-- **A sweep takes the list away**: the sample is appended to a list that was already sent, so it is
neither sent nor buffered, and the lookup of the list raises. -/
theorem not_exact : (∀ act ∈ lostRun, act.Sends) ∧
    ∃ s, Machine.run (EmitterState.step twoSwitches) .start lostRun = some s ∧
      s.pc 1 = .raised ∧ emittedFor 1 lostRun = [7, 9] ∧ s.sentFor 1 = [[7]] ∧
      s.pendingFor 1 = [] ∧ ¬ Exact twoSwitches lostRun s := by
  refine ⟨by decide, _, rfl, rfl, rfl, rfl, rfl, ?_⟩
  intro h
  exact h.1 1 rfl

end NDTwin.Telemetry
