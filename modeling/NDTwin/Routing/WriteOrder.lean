import Mathlib.Logic.Function.Basic
import NDTwin.Lib.Machine
import NDTwin.Routing.Match
import NDTwin.Routing.RuleJournal

/-!
# The order of writes and of their records

`route_flow`, `unroute_flow` and `modify_flow` of one destination share the slot's lock.  Each
takes it, writes to the switch and notes the write in the journal; the note is made after the
lock is released, except that a withdrawal which restores the control plane's route makes it
inside.  Between the release and the note another call may take the lock, write and make its
own note first: then the file's order is not the switch's.

A thread is one call on one slot, and every write it sends is accepted.  `RuleJournal.record`
appends its line under a lock of its own, so a note is one step.

## Main definitions

* `Slot`, `FlowCall`, `noteEntry` — the slot, a call on it, and the record of its write.
* `Thread`, `State`, `Act`, `step` — the calls and their steps.
* `standing` — what folding a file says of an entry.
* `KeepsOrder` — what the journal is for.
* `Undisturbed` — no write is taken while another call is between its release and its note.

## Main results

* `Inv.step` — the invariant, and that every step keeps it while the run is undisturbed.
* `run_keepsOrder` — **an undisturbed run keeps the switch's order**, and a write that is taken
  inside the window can always be followed by notes in the wrong order.
-/

namespace NDTwin
namespace Routing
namespace WriteOrder

open Journal Keyed

/-! ### What a file says of an entry -/

section Standing

variable {F K : Type*} (fl : Floats F) (keyDigest : IdentityKey F → K) [DecidableEq K]

/-- The rule records of a file, `RuleJournal.entries`. -/
def ruleEntries (file : List (RuleLine F)) : List (RuleEntry F) :=
  (scan file).filterMap fun entry =>
    match entry with
    | some (.rule entry) => some entry
    | _ => none

/-- The application's rule that a record leaves in the switch: none after a delete, which
hands the slot back. -/
def leaves (entry : RuleEntry F) : Option (RuleSpec F) :=
  if entry.op = .delete then none else some ⟨entry.matchObj, entry.actions, entry.priority⟩

/-- What folding a file says stands in the switch for an entry. -/
def standing (k : K) (file : List (RuleLine F)) : Option (RuleSpec F) :=
  let records := (ruleEntries file).map (ruleRecord fl keyDigest)
  ((foldRecords (fun _ => false) (records.map Line.record)).find? fun item => item.key = k).bind
    fun item => if item.op = .delete then none else some item.spec

/-- The fold says of an entry what its last record says. -/
theorem standing_eq (k : K) (file : List (RuleLine F)) :
    standing fl keyDigest k file =
      (ofKey (ruleIdentity fl keyDigest) k (ruleEntries file)).getLast?.bind leaves := by
  have hown : ofKey Record.key k ((ruleEntries file).map (ruleRecord fl keyDigest)) =
      (ofKey (ruleIdentity fl keyDigest) k (ruleEntries file)).map (ruleRecord fl keyDigest) :=
    ofKey_map Record.key _ k _
  unfold standing
  dsimp only
  rw [find?_foldRecords, filterMap_record?_map_record, hown, netOf, List.head?_map,
    List.getLast?_map]
  generalize ofKey (ruleIdentity fl keyDigest) k (ruleEntries file) = own
  cases hl : own.getLast? with
  | none => cases hf : own.head? <;> rfl
  | some l =>
    cases hf : own.head? with
    | none =>
      rw [List.head?_eq_none_iff] at hf
      subst hf
      cases hl
    | some f =>
      cases hfo : f.op <;> cases hlo : l.op <;>
        simp [netItem, ruleRecord, wasAbsent, foldOp, leaves, hfo, hlo]

theorem ruleEntries_append_rule (file : List (RuleLine F)) (entry : RuleEntry F) :
    ruleEntries (recordRule file entry) = ruleEntries file ++ [entry] := by
  rw [ruleEntries, recordRule, scan_append, List.filterMap_append]
  rfl

/-- One more record of an entry is the last one. -/
theorem standing_recordRule (k : K) (file : List (RuleLine F)) (entry : RuleEntry F)
    (hk : ruleIdentity fl keyDigest entry = k) :
    standing fl keyDigest k (recordRule file entry) = leaves entry := by
  rw [standing_eq, ruleEntries_append_rule, ofKey_append_singleton, if_pos hk,
    List.getLast?_concat]
  rfl

end Standing

/-! ### Calls -/

/-- A switch's `ipv4_lpm` slot, by a match that names only a destination. -/
structure Slot (F : Type*) where
  dpid : Dpid
  /-- The match, after `canonical_destination`. -/
  m : Match F
  destinationOnly : needsFiveTuple m = false

/-- A call of `route_flow`, `unroute_flow` or `modify_flow` on the slot. -/
structure FlowCall (F : Type*) where
  verb : RuleOp
  /-- The actions of the request, which a delete has none of. -/
  actions : Json F
  priority : Json F

/-- The record `_note_in_journal` makes of a call's write.  The cookie is the one of the client
the switch has when the note is made. -/
def noteEntry {F : Type*} (fl : Floats F) (slot : Slot F) (call : FlowCall F) (cookie : Option ℤ) :
    RuleEntry F where
  op := call.verb
  dpid := slot.dpid
  matchFields := .obj slot.m.fields
  actions := if call.verb = .delete then .arr [] else call.actions
  priority := call.priority
  cookie := cookie
  rule := journalRule fl slot.m call.priority

/-- Where a call is. -/
inductive Thread where
  | idle
  /-- Waiting for the slot's lock. -/
  | waiting
  /-- In the lock, before the write. -/
  | locked
  /-- In the lock, after the write; the note is made inside (`unroute_flow`'s restore). -/
  | recording
  /-- In the lock, after the write; the note is made after the release. -/
  | wrote
  /-- In the lock, with nothing left to do. -/
  | leaving
  /-- Out of the lock, before the note. -/
  | noting
  | finished
  deriving DecidableEq, Repr

/-- Whether a call is inside the slot's lock. -/
def Thread.holds : Thread → Bool
  | .locked | .recording | .wrote | .leaving => true
  | _ => false

/-- Whether a call has written and not noted it yet. -/
def Thread.owes : Thread → Bool
  | .recording | .wrote | .noting => true
  | _ => false

/-- Whether a call is past its write. -/
def Thread.past : Thread → Bool
  | .recording | .wrote | .leaving | .noting | .finished => true
  | _ => false

/-- The state of the system, with two logs that only the statements below read. -/
structure State (T F : Type*) where
  /-- Who holds the slot's lock. -/
  lock : Option T
  threads : T → Thread
  /-- The application's rule that the switch has in the slot. -/
  entry : Option (RuleSpec F)
  file : List (RuleLine F)
  /-- The calls in the order the switch took their writes. -/
  took : List T
  /-- The calls in the order of their records in the file. -/
  noted : List T

/-- What a call may do next. -/
inductive Act (T : Type*) where
  | call (t : T)
  | acquire (t : T)
  /-- A modify names a priority that the slot does not hold. -/
  | refuse (t : T)
  /-- The switch takes the write; a withdrawal restores the control plane's route or removes
  the entry. -/
  | write (t : T) (restore : Bool)
  | release (t : T)
  /-- `RuleJournal.record`, which the disk may refuse. -/
  | note (t : T) (cookie : Option ℤ) (diskOk : Bool)

section Steps

variable {T F K : Type*} [DecidableEq T] (fl : Floats F) (slot : Slot F) (calls : T → FlowCall F)

/-- The same state with one thread elsewhere. -/
def State.goto (s : State T F) (t : T) (θ : Thread) : State T F :=
  { s with threads := Function.update s.threads t θ }

/-- The note of a call, if the disk takes it. -/
def State.note (s : State T F) (t : T) (cookie : Option ℤ) (diskOk : Bool) : State T F :=
  if diskOk then
    { s with file := recordRule s.file (noteEntry fl slot (calls t) cookie), noted := s.noted ++ [t] }
  else s

/-- One step. -/
def step (s : State T F) : Act T → Option (State T F)
  | .call t =>
    match s.threads t with
    | .idle => some (s.goto t .waiting)
    | _ => none
  | .acquire t =>
    match s.threads t, s.lock with
    | .waiting, none => some { s.goto t .locked with lock := some t }
    | _, _ => none
  | .refuse t =>
    match s.threads t, (calls t).verb with
    | .locked, .modify => some (s.goto t .leaving)
    | _, _ => none
  | .write t restore =>
    match s.threads t with
    | .locked =>
      let θ := if (calls t).verb = .delete ∧ restore = true then Thread.recording else .wrote
      some { s.goto t θ with
        entry := leaves (noteEntry fl slot (calls t) none), took := s.took ++ [t] }
    | _ => none
  | .release t =>
    match s.threads t with
    | .wrote => some { s.goto t .noting with lock := none }
    | .leaving => some { s.goto t .finished with lock := none }
    | _ => none
  | .note t cookie diskOk =>
    match s.threads t with
    | .recording => some ((s.goto t .leaving).note fl slot calls t cookie diskOk)
    | .noting => some ((s.goto t .finished).note fl slot calls t cookie diskOk)
    | _ => none

variable (keyDigest : IdentityKey F → K) [DecidableEq K]

/-- The identity of the slot's records: the destination alone, whatever the priority. -/
def slotIdentity : K :=
  keyDigest (.rule (Json.dumps fl (.arr [.str "ipv4_lpm", (destination fl slot.m).getD .null])))

/-- Before any call, over a file that says what the switch has in the slot. -/
def start (file : List (RuleLine F)) : State T F :=
  ⟨none, fun _ => .idle, standing fl keyDigest (slotIdentity fl slot keyDigest) file, file, [], []⟩

/-- What the journal is for: its records are in the order the switch took the writes, and
when it has them all, folding it says what the switch has in the slot. -/
def KeepsOrder (s : State T F) : Prop :=
  s.noted.Sublist s.took ∧ (s.noted.length = s.took.length →
    standing fl keyDigest (slotIdentity fl slot keyDigest) s.file = s.entry)

/-- No write of a run is taken while another call is between its release and its note. -/
def Undisturbed (s₀ : State T F) (tr : List (Act T)) : Prop :=
  ∀ tr₁ t restore tr₂ s, tr = tr₁ ++ .write t restore :: tr₂ →
    Machine.run (step fl slot calls) s₀ tr₁ = some s → ∀ u, s.threads u ≠ .noting

end Steps

/-! ### What one step can do -/

section Effects

variable {T F : Type*} [DecidableEq T] {fl : Floats F} {slot : Slot F} {calls : T → FlowCall F}

/-- What a step of the call `t` does to the switch and the file. -/
inductive Does (fl : Floats F) (slot : Slot F) (calls : T → FlowCall F) (t : T) (a : Act T) (s s' : State T F) :
    Prop where
  | nothing (howes : (s'.threads t).owes = (s.threads t).owes)
    (hpast : (s.threads t).past = true → (s'.threads t).past = true) (hentry : s'.entry = s.entry)
    (hfile : s'.file = s.file) (htook : s'.took = s.took) (hnoted : s'.noted = s.noted)
  | writes (restore : Bool) (ha : a = .write t restore) (hlocked : s.threads t = .locked)
    (howes : (s'.threads t).owes = true) (hpast : (s'.threads t).past = true)
    (hentry : s'.entry = leaves (noteEntry fl slot (calls t) none)) (hfile : s'.file = s.file)
    (htook : s'.took = s.took ++ [t]) (hnoted : s'.noted = s.noted)
  | notes (cookie : Option ℤ) (diskOk : Bool) (howes : (s.threads t).owes = true)
    (howes' : (s'.threads t).owes = false) (hpast : (s'.threads t).past = true)
    (hentry : s'.entry = s.entry) (htook : s'.took = s.took)
    (hfile : s'.file = if diskOk then recordRule s.file (noteEntry fl slot (calls t) cookie) else s.file)
    (hnoted : s'.noted = if diskOk then s.noted ++ [t] else s.noted)

/-- **What a step can do.** -/
structure Effect (fl : Floats F) (slot : Slot F) (calls : T → FlowCall F) (t : T) (a : Act T) (s s' : State T F) :
    Prop where
  other : ∀ u, u ≠ t → s'.threads u = s.threads u
  lock : ((s'.threads t).holds = (s.threads t).holds ∧ s'.lock = s.lock) ∨
    ((s.threads t).holds = false ∧ (s'.threads t).holds = true ∧ s.lock = none ∧
      s'.lock = some t) ∨
    ((s.threads t).holds = true ∧ (s'.threads t).holds = false ∧ s'.lock = none)
  does : Does fl slot calls t a s s'

theorem step_effect {s s' : State T F} {a : Act T} (h : step fl slot calls s a = some s') :
    ∃ t, Effect fl slot calls t a s s' := by
  have hother : ∀ t θ u, u ≠ t → (s.goto t θ).threads u = s.threads u :=
    fun t θ u hu => Function.update_of_ne hu _ _
  have hself : ∀ t θ, (s.goto t θ).threads t = θ := fun t θ => Function.update_self _ _ _
  cases a with
  | call t =>
    simp only [step] at h
    split at h <;> cases h
    next hθ =>
    refine ⟨t, hother t _, Or.inl ⟨?_, rfl⟩, .nothing ?_ ?_ rfl rfl rfl rfl⟩ <;>
      simp [hself, hθ, Thread.holds, Thread.owes, Thread.past]
  | acquire t =>
    simp only [step] at h
    split at h <;> cases h
    next hθ hfree =>
    refine ⟨t, hother t _, Or.inr (Or.inl ⟨?_, ?_, hfree, rfl⟩), .nothing ?_ ?_ rfl rfl rfl rfl⟩ <;>
      simp [hself, hθ, Thread.holds, Thread.owes, Thread.past]
  | refuse t =>
    simp only [step] at h
    split at h <;> cases h
    next hθ _ =>
    refine ⟨t, hother t _, Or.inl ⟨?_, rfl⟩, .nothing ?_ ?_ rfl rfl rfl rfl⟩ <;>
      simp [hself, hθ, Thread.holds, Thread.owes, Thread.past]
  | write t restore =>
    simp only [step] at h
    split at h <;> cases h
    next hθ =>
    refine ⟨t, hother t _, Or.inl ⟨?_, rfl⟩, .writes restore rfl hθ ?_ ?_ rfl rfl rfl rfl⟩
    · rw [hself, hθ]; split <;> rfl
    · rw [hself]; split <;> rfl
    · rw [hself]; split <;> rfl
  | release t =>
    simp only [step] at h
    split at h <;> cases h
    all_goals
      next hθ =>
      refine ⟨t, hother t _, Or.inr (Or.inr ⟨?_, ?_, rfl⟩), .nothing ?_ ?_ rfl rfl rfl rfl⟩ <;>
        simp [hself, hθ, Thread.holds, Thread.owes, Thread.past]
  | note t cookie diskOk =>
    simp only [step] at h
    split at h <;> cases h
    all_goals
      next hθ =>
      refine ⟨t, ?_, Or.inl ⟨?_, ?_⟩, .notes cookie diskOk ?_ ?_ ?_ ?_ ?_ ?_ ?_⟩ <;>
        cases diskOk <;>
        simp +contextual [State.note, State.goto, hθ, Thread.holds, Thread.owes, Thread.past]

end Effects

/-! ### The invariant -/

section Invariant

variable {T F K : Type*} {fl : Floats F} {slot : Slot F} {calls : T → FlowCall F}

/-- What holds of every run. -/
structure Logged (s : State T F) : Prop where
  lock : ∀ t, s.lock = some t ↔ (s.threads t).holds = true
  past : ∀ t ∈ s.took, (s.threads t).past = true
  owes : ∀ t, (s.threads t).owes = true → t ∈ s.took

/-- **The invariant** of an undisturbed run. -/
structure Inv (fl : Floats F) (slot : Slot F) (calls : T → FlowCall F)
    (keyDigest : IdentityKey F → K) [DecidableEq K] (s : State T F) : Prop where
  logged : Logged s
  order : s.noted.Sublist s.took
  /-- A write that is not noted yet is the last one the switch took. -/
  inFlight : ∀ t, (s.threads t).owes = true →
    ∃ before, s.took = before ++ [t] ∧ s.noted.Sublist before
  entry : ∀ before t, s.took = before ++ [t] → s.entry = leaves (noteEntry fl slot (calls t) none)
  fold : s.noted.length = s.took.length →
    standing fl keyDigest (slotIdentity fl slot keyDigest) s.file = s.entry

variable {keyDigest : IdentityKey F → K} [DecidableEq K]

theorem logged_start (file : List (RuleLine F)) :
    Logged (start fl slot keyDigest file : State T F) where
  lock t := by simp [start, Thread.holds]
  past t ht := by cases ht
  owes t ht := by cases ht

theorem inv_start (file : List (RuleLine F)) :
    Inv fl slot calls keyDigest (start fl slot keyDigest file : State T F) where
  logged := logged_start file
  order := List.Sublist.slnil
  inFlight t ht := by cases ht
  entry before t h := by simp [start] at h
  fold _ := rfl

variable [DecidableEq T] {s s' : State T F} {a : Act T} {t : T}

theorem Effect.past_mono (e : Effect fl slot calls t a s s') {u : T}
    (hu : (s.threads u).past = true) : (s'.threads u).past = true := by
  by_cases hut : u = t
  · subst hut
    cases e.does with
    | nothing _ hpast => exact hpast hu
    | writes _ _ _ _ hpast => exact hpast
    | notes _ _ _ _ hpast => exact hpast
  · rw [e.other u hut]
    exact hu

theorem Logged.step (h : Logged s) (e : Effect fl slot calls t a s s') : Logged s' where
  lock u := by
    have hself := h.lock t
    have hthere := h.lock u
    by_cases hu : u = t
    · subst hu
      rcases e.lock with ⟨hθ, hl⟩ | ⟨-, hθ', -, hl⟩ | ⟨-, hθ', hl⟩
      · rw [hl, hθ]; exact hself
      · rw [hl, hθ']; simp
      · rw [hl, hθ']; simp
    · rw [e.other u hu, ← hthere]
      rcases e.lock with ⟨-, hl⟩ | ⟨-, -, hfree, hl⟩ | ⟨hθ, -, hl⟩
      · rw [hl]
      · rw [hl, hfree]; simp [Ne.symm hu]
      · rw [hl, hself.mpr hθ]; simp [Ne.symm hu]
  past u hu := by
    cases e.does with
    | nothing _ _ _ _ htook => exact e.past_mono (h.past u (htook ▸ hu))
    | notes _ _ _ _ _ _ htook => exact e.past_mono (h.past u (htook ▸ hu))
    | writes _ _ _ _ hpast _ _ htook =>
      rw [htook, List.mem_append, List.mem_singleton] at hu
      rcases hu with hu | rfl
      · exact e.past_mono (h.past u hu)
      · exact hpast
  owes u hu := by
    have hold : u ≠ t → u ∈ s.took := fun hut => h.owes u (by rw [← e.other u hut]; exact hu)
    by_cases hut : u = t
    · subst hut
      cases e.does with
      | nothing howes _ _ _ htook =>
        rw [htook]
        exact h.owes u (howes ▸ hu)
      | writes _ _ _ _ _ _ _ htook => simp [htook]
      | notes _ _ _ howes' => rw [howes'] at hu; cases hu
    · cases e.does with
      | nothing _ _ _ _ htook => rw [htook]; exact hold hut
      | writes _ _ _ _ _ _ _ htook => rw [htook]; exact List.mem_append_left _ (hold hut)
      | notes _ _ _ _ _ _ htook => rw [htook]; exact hold hut

omit [DecidableEq T] in
/-- When a write is taken outside every window, no other call owes a note. -/
theorem Logged.owes_of_locked (h : Logged s) (hlocked : s.threads t = .locked)
    (hwindow : ∀ u, s.threads u ≠ .noting) (u : T) : (s.threads u).owes = false := by
  by_contra hu
  rw [Bool.not_eq_false] at hu
  -- whoever owes one in the lock is the one that writes
  have hholds : (s.threads u).holds = true := by
    cases hθ : s.threads u with
    | noting => exact absurd hθ (hwindow u)
    | recording | wrote => rfl
    | idle | waiting | locked | leaving | finished => rw [hθ] at hu; cases hu
  have hlock := (h.lock t).mpr (by rw [hlocked]; rfl)
  rw [(h.lock u).mpr hholds] at hlock
  cases hlock
  rw [hlocked] at hu
  cases hu

omit [DecidableEq T] in
theorem standing_note (file : List (RuleLine F)) (cookie : Option ℤ) :
    standing fl keyDigest (slotIdentity fl slot keyDigest)
      (recordRule file (noteEntry fl slot (calls t) cookie))
        = leaves (noteEntry fl slot (calls t) none) := by
  have hidentity : ruleIdentity fl keyDigest (noteEntry fl slot (calls t) cookie)
      = slotIdentity fl slot keyDigest := by
    simp [ruleIdentity, noteEntry, journalRule, slot.destinationOnly, slotIdentity]
  exact standing_recordRule fl keyDigest _ file _ hidentity

/-- **Every step keeps the invariant**, if a write is taken outside every window. -/
theorem Inv.step (h : Inv fl slot calls keyDigest s)
    (hwindow : ∀ t restore, a = .write t restore → ∀ u, s.threads u ≠ .noting)
    (hstep : WriteOrder.step fl slot calls s a = some s') : Inv fl slot calls keyDigest s' := by
  obtain ⟨t, e⟩ := step_effect hstep
  have hlogged := h.logged.step e
  cases e.does with
  | nothing howes hpast hentry hfile htook hnoted =>
    refine ⟨hlogged, by rw [hnoted, htook]; exact h.order, ?_, ?_, ?_⟩
    · intro u hu
      rw [htook, hnoted]
      by_cases hut : u = t
      · subst hut
        exact h.inFlight u (howes ▸ hu)
      · exact h.inFlight u (by rw [← e.other u hut]; exact hu)
    · rw [htook, hentry]
      exact h.entry
    · rw [hnoted, htook, hfile, hentry]
      exact h.fold
  | writes restore ha hlocked howes hpast hentry hfile htook hnoted =>
    have hnone := h.logged.owes_of_locked hlocked (hwindow t restore ha)
    refine ⟨hlogged, ?_, ?_, ?_, ?_⟩
    · rw [hnoted, htook]
      exact h.order.trans (List.sublist_append_left _ _)
    · intro u hu
      by_cases hut : u = t
      · subst hut
        exact ⟨s.took, htook, hnoted ▸ h.order⟩
      · rw [e.other u hut, hnone u] at hu
        cases hu
    · intro before u hu
      rw [htook] at hu
      obtain ⟨-, hlast⟩ := List.append_inj' hu rfl
      cases hlast
      exact hentry
    · intro hlen
      -- the write has no note yet
      have hle := h.order.length_le
      rw [hnoted, htook, List.length_append, List.length_singleton] at hlen
      omega
  | notes cookie diskOk howes howes' hpast hentry htook hfile hnoted =>
    obtain ⟨before, hbefore, hsub⟩ := h.inFlight t howes
    have hlast : ∀ u, (s'.threads u).owes = true → False := by
      intro u hu
      have hut : u ≠ t := by
        rintro rfl
        rw [howes'] at hu
        cases hu
      obtain ⟨before', hbefore', -⟩ := h.inFlight u (by rw [← e.other u hut]; exact hu)
      obtain ⟨-, heq⟩ := List.append_inj' (hbefore'.symm.trans hbefore) rfl
      cases heq
      exact hut rfl
    have horder : s'.noted.Sublist s'.took := by
      rw [hnoted, htook]
      cases diskOk with
      | true =>
        rw [hbefore]
        exact hsub.append (List.Sublist.refl _)
      | false => exact h.order
    refine ⟨hlogged, horder, fun u hu => (hlast u hu).elim, ?_, ?_⟩
    · rw [htook, hentry]
      exact h.entry
    · intro hlen
      rw [hentry, hfile]
      cases diskOk with
      | true =>
        rw [h.entry before t hbefore]
        exact standing_note s.file cookie
      | false =>
        exact h.fold (by rw [hnoted, htook] at hlen; exact hlen)

theorem Undisturbed.nil : Undisturbed fl slot calls s [] := by
  intro tr₁ t restore tr₂ m h
  simp at h

theorem Undisturbed.cons {tr : List (Act T)}
    (ha : (∀ t restore, a ≠ .write t restore) ∨ ∀ u, s.threads u ≠ .noting)
    (hstep : WriteOrder.step fl slot calls s a = some s') (h : Undisturbed fl slot calls s' tr) :
    Undisturbed fl slot calls s (a :: tr) := by
  intro tr₁ t restore tr₂ m htr hrun
  cases tr₁ with
  | nil =>
    cases htr
    cases hrun
    exact ha.resolve_left fun hno => hno t restore rfl
  | cons b tr₁ =>
    rw [List.cons_append, List.cons.injEq] at htr
    obtain ⟨rfl, rfl⟩ := htr
    simp only [Machine.run, hstep, Option.bind_some] at hrun
    exact h tr₁ t restore tr₂ m rfl hrun

/-- A run whose writes are taken outside every window keeps the invariant. -/
theorem inv_run {file : List (RuleLine F)} {tr : List (Act T)}
    (h : Machine.run (WriteOrder.step fl slot calls) (start fl slot keyDigest file) tr = some s)
    (hwindow : Undisturbed fl slot calls (start fl slot keyDigest file) tr) :
    Inv fl slot calls keyDigest s := by
  refine Machine.run_invariant
    (P := fun tr s => Undisturbed fl slot calls (start fl slot keyDigest file) tr →
      Inv fl slot calls keyDigest s) (fun _ => inv_start file) ?_ h hwindow
  intro tr s a s' hrun ih hstep hwindow
  refine (ih fun tr₁ t restore tr₂ m htr => ?_).step (fun t restore ha => ?_) hstep
  · exact hwindow tr₁ t restore (tr₂ ++ [a]) m (by rw [htr]; simp)
  · exact hwindow tr t restore [] s (by rw [ha]) hrun

theorem logged_run {file : List (RuleLine F)} {tr : List (Act T)}
    (h : Machine.run (WriteOrder.step fl slot calls) (start fl slot keyDigest file) tr = some s) :
    Logged s :=
  Machine.run_invariant (P := fun _ s => Logged s) (logged_start file)
    (fun _ _ _ _ _ hlogged hstep => (step_effect hstep).elim fun _ e => hlogged.step e) h

omit [DecidableEq T] in
/-- A list that ends in its only `t` has nothing after it. -/
theorem not_sublist_of_notMem {l l' : List T} {u : T} (ht : t ∉ l) :
    ¬ (l' ++ [t, u]).Sublist (l ++ [t]) := by
  intro hsub
  have hpair : [t, u].Sublist (l ++ [t]) := (List.sublist_append_right l' _).trans hsub
  obtain ⟨l₁, l₂, hl, h₁, h₂⟩ := List.sublist_append_iff.mp hpair
  cases l₁ with
  | nil =>
    rw [List.nil_append] at hl
    subst hl
    have := h₂.length_le
    simp at this
  | cons x l₁ =>
    rw [List.cons_append, List.cons.injEq] at hl
    exact ht (h₁.subset (by simp [hl.1]))

/-- A call that has written may make its note before one that has released its lock. -/
theorem exists_run_notes {u : T} (hu : s.threads u = .noting)
    (ht : s.threads t = .recording ∨ s.threads t = .wrote) :
    ∃ tr s', Machine.run (WriteOrder.step fl slot calls) s tr = some s' ∧
      s'.noted = s.noted ++ [t, u] ∧ s'.took = s.took := by
  have hut : u ≠ t := by
    rintro rfl
    rw [hu] at ht
    rcases ht with ht | ht <;> cases ht
  rcases ht with ht | ht
  · let s₁ := (s.goto t .leaving).note fl slot calls t none true
    let s₂ := (s₁.goto u .finished).note fl slot calls u none true
    have hu₁ : s₁.threads u = .noting := (Function.update_of_ne hut _ _).trans hu
    refine ⟨[.note t none true, .note u none true], s₂, ?_, ?_, rfl⟩
    · have h₁ : WriteOrder.step fl slot calls s (.note t none true) = some s₁ := by
        simp only [WriteOrder.step, ht, s₁]
      have h₂ : WriteOrder.step fl slot calls s₁ (.note u none true) = some s₂ := by
        simp only [WriteOrder.step, hu₁, s₂]
      simp [Machine.run, h₁, h₂]
    · simp [s₂, s₁, State.note, State.goto]
  · let s₀ : State T F := { s.goto t .noting with lock := none }
    let s₁ := (s₀.goto t .finished).note fl slot calls t none true
    let s₂ := (s₁.goto u .finished).note fl slot calls u none true
    have ht₀ : s₀.threads t = .noting := Function.update_self _ _ _
    have hu₁ : s₁.threads u = .noting :=
      (Function.update_of_ne hut _ _).trans ((Function.update_of_ne hut _ _).trans hu)
    refine ⟨[.release t, .note t none true, .note u none true], s₂, ?_, ?_, rfl⟩
    · have h₀ : WriteOrder.step fl slot calls s (.release t) = some s₀ := by
        simp only [WriteOrder.step, ht, s₀]
      have h₁ : WriteOrder.step fl slot calls s₀ (.note t none true) = some s₁ := by
        simp only [WriteOrder.step, ht₀, s₁]
      have h₂ : WriteOrder.step fl slot calls s₁ (.note u none true) = some s₂ := by
        simp only [WriteOrder.step, hu₁, s₂]
      simp [Machine.run, h₀, h₁, h₂]
    · simp [s₂, s₁, s₀, State.note, State.goto]

/-- What a write inside a window can lead to: the other note first. -/
theorem Logged.disordered (h : Logged s) {restore : Bool} {u : T} (hu : s.threads u = .noting)
    (hstep : WriteOrder.step fl slot calls s (.write t restore) = some s') :
    ∃ tr s'', Machine.run (WriteOrder.step fl slot calls) s' tr = some s'' ∧
      ¬ s''.noted.Sublist s''.took := by
  simp only [WriteOrder.step] at hstep
  split at hstep <;> cases hstep
  next hlocked =>
  have hut : u ≠ t := by
    rintro rfl
    rw [hu] at hlocked
    cases hlocked
  have hnew : t ∉ s.took := fun hmem => by
    have hpast := h.past t hmem
    rw [hlocked] at hpast
    cases hpast
  let θ : Thread := if (calls t).verb = .delete ∧ restore = true then .recording else .wrote
  let m : State T F :=
    { s.goto t θ with entry := leaves (noteEntry fl slot (calls t) none), took := s.took ++ [t] }
  have hum : m.threads u = .noting := (Function.update_of_ne hut _ _).trans hu
  have htm : m.threads t = .recording ∨ m.threads t = .wrote := by
    simp only [m, θ, State.goto, Function.update_self]
    split <;> simp
  have hnotes : ∃ tr s'', Machine.run (WriteOrder.step fl slot calls) m tr = some s'' ∧
      s''.noted = m.noted ++ [t, u] ∧ s''.took = m.took := exists_run_notes hum htm
  obtain ⟨tr, s'', hrun, hnoted, htook⟩ := hnotes
  refine ⟨tr, s'', hrun, ?_⟩
  rw [hnoted, htook]
  exact not_sublist_of_notMem hnew

/-! ### Runs -/

/-- **A run that no write disturbs keeps the switch's order**: the records of the file are in
the order of the writes, and once it has them all, folding it says what the switch has.  And
nothing less will do: after a write inside another call's window the notes may come in the
wrong order. -/
theorem run_keepsOrder (fl : Floats F) (slot : Slot F) (calls : T → FlowCall F)
    (keyDigest : IdentityKey F → K) (file : List (RuleLine F)) (tr : List (Act T))
    (h : Machine.run (WriteOrder.step fl slot calls) (start fl slot keyDigest file) tr = some s) :
    (Undisturbed fl slot calls (start fl slot keyDigest file) tr → KeepsOrder fl slot keyDigest s) ∧
    (∀ t restore s', WriteOrder.step fl slot calls s (.write t restore) = some s' →
      (∃ u, s.threads u = .noting) →
      ∃ tr' s'', Machine.run (WriteOrder.step fl slot calls) s' tr' = some s'' ∧
        ¬ KeepsOrder fl slot keyDigest s'') := by
  refine ⟨?_, ?_⟩
  · intro hwindow
    have hinv := inv_run h hwindow
    exact ⟨hinv.order, hinv.fold⟩
  · intro t restore s' hstep hu
    obtain ⟨u, hu⟩ := hu
    obtain ⟨tr', s'', hrun, hdis⟩ := (logged_run h).disordered hu hstep
    exact ⟨tr', s'', hrun, fun hkeeps => hdis hkeeps.1⟩

end Invariant

/-! ### Two calls -/

section Witness

/-- The slot of `10.0.0.2` on switch `1`. -/
def hostSlot : Slot Empty where
  dpid := .int 1
  m := ⟨[("nw_dst", .str "10.0.0.2")], by decide⟩
  destinationOnly := by decide

/-- An install and a delete. -/
def installAndDelete (isDelete : Bool) : FlowCall Empty where
  verb := if isDelete then .delete else .install
  actions := .arr [.obj [("type", .str "OUTPUT"), ("port", .int 2)]]
  priority := .int 100

/-- A delete is taken in the window of an install and noted first: the switch has no rule of
the application's, and the file says that it has. -/
theorem not_keepsOrder_overtaken :
    let tr : List (Act Bool) := [.call false, .acquire false, .call true, .write false false,
      .release false, .acquire true, .write true false, .release true, .note true (some 7) true,
      .note false (some 7) true]
    ∃ s, Machine.run (step .empty hostSlot installAndDelete) (start .empty hostSlot textDigest []) tr
        = some s ∧
      s.threads false = .finished ∧ s.threads true = .finished ∧ s.took = [false, true] ∧
      s.noted = [true, false] ∧ s.entry = none ∧
      (standing .empty textDigest (slotIdentity .empty hostSlot textDigest) s.file).isSome ∧
      ¬ KeepsOrder .empty hostSlot textDigest s := by
  refine ⟨_, rfl, rfl, rfl, rfl, rfl, rfl, by decide, ?_⟩
  intro h
  exact absurd h.1 (by decide)

/-- An install and a delete, neither taken in the other's window. -/
theorem run_keepsOrder_apart :
    let tr : List (Act Bool) := [.call false, .acquire false, .call true, .write false false,
      .release false, .acquire true, .note false (some 7) true, .write true true,
      .note true (some 7) true, .release true]
    ∃ s, Machine.run (step .empty hostSlot installAndDelete) (start .empty hostSlot textDigest []) tr
        = some s ∧
      s.noted = [false, true] ∧ KeepsOrder .empty hostSlot textDigest s := by
  intro tr
  refine ⟨_, rfl, rfl, (run_keepsOrder .empty hostSlot installAndDelete textDigest [] tr rfl).1 ?_⟩
  refine .cons (.inl (by simp)) rfl <| .cons (.inl (by simp)) rfl <| .cons (.inl (by simp)) rfl <|
    .cons (.inr (by decide)) rfl <| .cons (.inl (by simp)) rfl <| .cons (.inl (by simp)) rfl <|
    .cons (.inl (by simp)) rfl <| .cons (.inr (by decide)) rfl <| .cons (.inl (by simp)) rfl <|
    .cons (.inl (by simp)) rfl <| .nil

end Witness

end WriteOrder
end Routing
end NDTwin
