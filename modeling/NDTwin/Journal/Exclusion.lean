import NDTwin.Journal.Tables
import NDTwin.Lib.Machine

/-!
# Writes and re-adoptions of one switch

API writes and re-adoptions of a switch run in threads of their own.  A write looks at the
`pending` flag, waits for the journal's lock, looks again, and then writes to the switch
and to the file; a re-adoption (`replaying`) raises the flag first, waits for the lock,
pushes and replays while it holds it, and lowers the flag before it lets go.  The flag is
a count, since re-adoptions may overlap, and a re-adoption that ends by an exception, also
one that never got the lock, lowers it exactly once.

A thread is one call.  Each section that holds a lock is one atomic step, and so is a
write to the switch, an append, the reading of the file and its replacement.

## Main definitions

* `Thread` — where a call is in `write_and_journal` or in `replaying`.
* `advance`, `step` — one atomic step of one thread.
* `FileOp` — the file's history as if appends and snapshots were atomic.
* `Exclusive` — what the lock and the flag are for.

## Main results

* `Inv.step` — the invariant, and that every step keeps it.
* `run_exclusive` — **writes and re-adoptions exclude each other**, in every interleaving.
* `run_writeAndJournal` — a call that runs alone is `writeAndJournal`.
-/

namespace NDTwin
namespace Journal
namespace Exclusion

/-! ### Threads -/

section Threads

/-- Where a `write_and_journal` call is. -/
inductive WriterAt (K S : Type*) where
  /-- The call has its journal; the first look at the flag comes next. -/
  | entered
  /-- It waits for the journal's lock. -/
  | waiting
  /-- It holds the lock; the second look at the flag comes next. -/
  | locked
  /-- It asks for the client. -/
  | asking
  /-- It has the client; the write comes next. -/
  | writing
  /-- The switch has answered, and this record is to be appended. -/
  | recording (rec : Record K S)
  /-- It is about to release the lock. -/
  | leaving (recorded : Bool)
  /-- It has returned, or raised. -/
  | finished (recorded : Bool)

/-- Where a `replaying` block is. -/
inductive BlockAt (K S : Type*) where
  /-- The flag is up; the block waits for the journal's lock. -/
  | waiting
  /-- Its body runs, and may have read the file. -/
  | body (seen : Option (List (Line K S)))
  /-- The inner `finally` has run; the lock is about to be released. -/
  | unlocking
  /-- The outer `finally` comes next. -/
  | outer
  | finished

/-- One call.  `dropped` is the block's own list of the same name. -/
inductive Thread (K S : Type*) where
  | idle
  | writer (spec : S) (op : Op) (at_ : WriterAt K S)
  | block (at_ : BlockAt K S) (dropped : Bool)

variable {K S : Type*}

/-- Whether a thread is inside its `with journal.lock`. -/
def Thread.holds : Thread K S → Bool
  | .writer _ _ .locked => true
  | .writer _ _ .asking => true
  | .writer _ _ .writing => true
  | .writer _ _ (.recording _) => true
  | .writer _ _ (.leaving _) => true
  | .block (.body _) _ => true
  | .block .unlocking _ => true
  | _ => false

/-- Whether a thread is a block. -/
def Thread.isBlock : Thread K S → Bool
  | .block _ _ => true
  | _ => false

/-- Whether a thread is a block that has lowered the flag. -/
def Thread.dropped : Thread K S → Bool
  | .block _ dropped => dropped
  | _ => false

/-- Whether a thread is a block that still has the flag up. -/
def Thread.isOpen (θ : Thread K S) : Bool := θ.isBlock && !θ.dropped

/-- An operation on the file that no other comes between. -/
inductive FileOp (T K S : Type*) where
  /-- `record`, by a writer. -/
  | append (t : T) (header : Header) (rec : Record K S)
  /-- A block's read of the file and its replacement by what `f` makes of it. -/
  | snapshot (t : T) (f : List (Line K S) → List (Line K S))

variable {T : Type*}

/-- What an operation makes of the file. -/
def FileOp.apply (file : List (Line K S)) : FileOp T K S → List (Line K S)
  | .append _ header rec => (recordLine true header file rec).2
  | .snapshot _ f => f file

/-- The record an operation appends, and whose it is. -/
def FileOp.appended? : FileOp T K S → Option (T × Record K S)
  | .append t _ rec => some (t, rec)
  | .snapshot _ _ => none

/-- What the threads share, and two logs that only the statements below read. -/
structure Shared (T K S : Type*) where
  /-- `_pending[dpid]`, an absent entry being `0`. -/
  pending : ℕ
  /-- Who holds the journal's lock. -/
  lock : Option T
  file : List (Line K S)
  /-- The recorded writes, in the order the switch took them. -/
  took : List (T × Record K S)
  /-- The file's history. -/
  ops : List (FileOp T K S)

/-- The state of the system. -/
structure State (T K S : Type*) where
  shared : Shared T K S
  threads : T → Thread K S

/-- The state before any call, over a given file. -/
def start (file : List (Line K S)) : State T K S :=
  ⟨⟨0, none, file, [], []⟩, fun _ => .idle⟩

end Threads

/-! ### Steps -/

/-- What a thread may do next. -/
inductive Kind (K S X : Type*) where
  /-- `write_and_journal(spec, op)` is called. -/
  | call (spec : S) (op : Op)
  /-- The look at the flag before the lock. -/
  | check
  | acquire
  /-- The wait for the lock times out, `SwitchBusy`. -/
  | timeout
  /-- The look at the flag under the lock. -/
  | recheck
  /-- `get_client()`, which may find the switch gone. -/
  | client (gone : Bool)
  /-- The switch takes the write and answers. -/
  | write (answer : Except X (Op × K)) (key : Option K)
  /-- The record goes to the file, if the disk takes it. -/
  | append (header : Header) (diskOk : Bool)
  | release
  /-- `replaying` is entered and raises the flag. -/
  | enter
  /-- An exception ends the block while it waits for the lock. -/
  | abort
  /-- The body reads the file. -/
  | read
  /-- The body replaces the file by what it makes of what it read. -/
  | snapshot (f : List (Line K S) → List (Line K S))
  /-- `drop()`, in the inner `finally` or in the outer one. -/
  | drop

/-- A step: which thread does what. -/
structure Act (T K S X : Type*) where
  thread : T
  kind : Kind K S X

section Steps

variable {T K S X : Type*} (isNotFound : X → Bool) (enabled : Bool)

/-- The `drop` closure: the count goes down the first time it is called. -/
def drop (shared : Shared T K S) (dropped : Bool) : Shared T K S :=
  if dropped then shared else { shared with pending := shared.pending - 1 }

/-- One step of the thread `t`, which is at `θ`. -/
def advance (t : T) (θ : Thread K S) (sh : Shared T K S) :
    Kind K S X → Option (Thread K S × Shared T K S)
  | .call spec op =>
    match θ with
    | .idle => some (.writer spec op .entered, sh)
    | _ => none
  | .check =>
    match θ with
    | .writer spec op .entered =>
      if 0 < sh.pending then some (.writer spec op (.finished false), sh)
      else some (.writer spec op .waiting, sh)
    | _ => none
  | .acquire =>
    match θ, sh.lock with
    | .writer spec op .waiting, none =>
      some (.writer spec op .locked, { sh with lock := some t })
    | .block .waiting dropped, none =>
      some (.block (.body none) dropped, { sh with lock := some t })
    | _, _ => none
  | .timeout =>
    match θ with
    | .writer spec op .waiting => some (.writer spec op (.finished false), sh)
    | _ => none
  | .recheck =>
    match θ with
    | .writer spec op .locked =>
      if 0 < sh.pending then some (.writer spec op (.leaving false), sh)
      else some (.writer spec op .asking, sh)
    | _ => none
  | .client gone =>
    match θ with
    | .writer spec op .asking =>
      if gone then some (.writer spec op (.leaving false), sh)
      else some (.writer spec op .writing, sh)
    | _ => none
  | .write answer key =>
    match θ with
    | .writer spec op .writing =>
      match journalRecord isNotFound enabled spec op answer key with
      | some rec => some (.writer spec op (.recording rec), { sh with took := sh.took ++ [(t, rec)] })
      | none => some (.writer spec op (.leaving false), sh)
    | _ => none
  | .append header diskOk =>
    match θ with
    | .writer spec op (.recording rec) =>
      if diskOk then
        some (.writer spec op (.leaving true),
          { sh with
            file := (recordLine true header sh.file rec).2
            ops := sh.ops ++ [.append t header rec] })
      else some (.writer spec op (.leaving false), sh)
    | _ => none
  | .release =>
    match θ with
    | .writer spec op (.leaving recorded) =>
      some (.writer spec op (.finished recorded), { sh with lock := none })
    | .block .unlocking dropped => some (.block .outer dropped, { sh with lock := none })
    | _ => none
  | .enter =>
    match θ with
    | .idle => some (.block .waiting false, { sh with pending := sh.pending + 1 })
    | _ => none
  | .abort =>
    match θ with
    | .block .waiting dropped => some (.block .outer dropped, sh)
    | _ => none
  | .read =>
    match θ with
    | .block (.body _) dropped => some (.block (.body (some sh.file)) dropped, sh)
    | _ => none
  | .snapshot f =>
    match θ with
    | .block (.body (some seen)) dropped =>
      some (.block (.body none) dropped,
        { sh with file := f seen, ops := sh.ops ++ [.snapshot t f] })
    | _ => none
  | .drop =>
    match θ with
    | .block (.body _) dropped => some (.block .unlocking true, drop sh dropped)
    | .block .outer dropped => some (.block .finished true, drop sh dropped)
    | _ => none

variable [DecidableEq T]

/-- One step of the system. -/
def step (s : State T K S) (a : Act T K S X) : Option (State T K S) :=
  (advance isNotFound enabled a.thread (s.threads a.thread) s.shared a.kind).map fun p =>
    ⟨p.2, Function.update s.threads a.thread p.1⟩

end Steps

/-! ### What one step can do -/

section Effects

variable {T K S X : Type*}

/-- Whether a call has had its record taken by the disk. -/
def Thread.recorded : Thread K S → Bool
  | .writer _ _ (.leaving recorded) => recorded
  | .writer _ _ (.finished recorded) => recorded
  | _ => false

/-- **What one step of a thread can do**, as far as the other threads can tell. -/
structure Effect (t : T) (θ : Thread K S) (sh : Shared T K S) (k : Kind K S X) (θ' : Thread K S)
    (sh' : Shared T K S) : Prop where
  lock : (θ'.holds = θ.holds ∧ sh'.lock = sh.lock) ∨
    (θ.holds = false ∧ θ'.holds = true ∧ sh.lock = none ∧ sh'.lock = some t) ∨
    (θ.holds = true ∧ θ'.holds = false ∧ sh'.lock = none ∧ k = .release)
  flag : (θ'.isOpen = θ.isOpen ∧ sh'.pending = sh.pending) ∨
    (θ.isOpen = false ∧ θ'.isOpen = true ∧ sh'.pending = sh.pending + 1) ∨
    (θ.isOpen = true ∧ θ'.isOpen = false ∧ sh'.pending = sh.pending - 1)
  block : θ'.isBlock = true ↔ θ.isBlock = true ∨ k = .enter
  dropped : θ'.dropped = true ↔ θ.dropped = true ∨ k = .drop
  /-- The file and the logs are touched only under the lock. -/
  frame : θ.holds = false → sh'.file = sh.file ∧ sh'.ops = sh.ops ∧ sh'.took = sh.took
  seen : ∀ seen d, θ' = .block (.body (some seen)) d → seen = sh'.file
  ops : (sh'.ops = sh.ops ∧ sh'.file = sh.file ∧ (θ'.recorded = true → θ.recorded = true)) ∨
    (∃ spec op header rec, θ = .writer spec op (.recording rec) ∧ sh'.took = sh.took ∧
      sh'.ops = sh.ops ++ [.append t header rec] ∧
      sh'.file = (recordLine true header sh.file rec).2) ∨
    (∃ seen d f, θ = .block (.body (some seen)) d ∧ sh'.took = sh.took ∧
      sh'.ops = sh.ops ++ [.snapshot t f] ∧ sh'.file = f seen ∧ θ'.recorded = false)
  took : (sh'.took = sh.took ∧ ∀ spec op rec, θ' ≠ .writer spec op (.recording rec)) ∨
    (∃ spec op rec, θ' = .writer spec op (.recording rec) ∧ sh'.took = sh.took ++ [(t, rec)] ∧
      sh'.ops = sh.ops)

theorem advance_effect {isNotFound : X → Bool} {enabled : Bool} {t : T} {θ θ' : Thread K S}
    {sh sh' : Shared T K S} {k : Kind K S X}
    (h : advance isNotFound enabled t θ sh k = some (θ', sh')) : Effect t θ sh k θ' sh' := by
  cases k with
  | acquire =>
    simp only [advance] at h
    split at h <;> cases h
    all_goals
      constructor <;> simp_all [Thread.holds, Thread.isOpen, Thread.isBlock, Thread.dropped,
        Thread.recorded]
  | write answer key =>
    simp only [advance] at h
    split at h <;> try cases h
    split at h <;> cases h <;> constructor <;>
      simp [Thread.holds, Thread.isOpen, Thread.isBlock, Thread.dropped,
        Thread.recorded]
  | append header diskOk =>
    simp only [advance] at h
    split at h <;> try cases h
    split at h <;> cases h <;> constructor <;>
      simp [Thread.holds, Thread.isOpen, Thread.isBlock, Thread.dropped,
        Thread.recorded]
  | drop =>
    simp only [advance] at h
    split at h <;> cases h
    all_goals
      next dropped =>
      cases dropped <;> constructor <;>
        simp [drop, Thread.holds, Thread.isOpen, Thread.isBlock, Thread.dropped, Thread.recorded]
  | check | recheck | client =>
    simp only [advance] at h
    split at h <;> try cases h
    split at h <;> cases h <;> constructor <;>
      simp [Thread.holds, Thread.isOpen, Thread.isBlock, Thread.dropped,
        Thread.recorded]
  | call | timeout | release | enter | abort | read | snapshot =>
    simp only [advance] at h
    split at h <;> cases h
    all_goals
      constructor <;> simp [Thread.holds, Thread.isOpen, Thread.isBlock, Thread.dropped,
        Thread.recorded]

/-- What a step of the system is: an effect of one thread, the others as they were. -/
theorem step_effect [DecidableEq T] {isNotFound : X → Bool} {enabled : Bool} {s s' : State T K S}
    {a : Act T K S X} (h : step isNotFound enabled s a = some s') :
    Effect a.thread (s.threads a.thread) s.shared a.kind (s'.threads a.thread) s'.shared ∧
      ∀ t, t ≠ a.thread → s'.threads t = s.threads t := by
  obtain ⟨⟨θ', sh'⟩, hadv, rfl⟩ := Option.map_eq_some_iff.mp h
  refine ⟨?_, fun t ht => Function.update_of_ne ht _ _⟩
  simpa only [Function.update_self] using advance_effect hadv

end Effects

/-! ### The invariant -/

section Invariant

variable {T K S X : Type*}

/-- **The invariant** of the system after the steps `tr`, over the file it began with. -/
structure Inv (file₀ : List (Line K S)) (tr : List (Act T K S X)) (s : State T K S) : Prop where
  /-- The lock is held by the one thread that is inside it. -/
  lock : ∀ t, s.shared.lock = some t ↔ (s.threads t).holds = true
  /-- The count is the number of blocks with the flag up. -/
  flag : ∃ opened : List T, opened.Nodup ∧ (∀ b, b ∈ opened ↔ (s.threads b).isOpen = true) ∧
    s.shared.pending = opened.length
  block : ∀ b, ⟨b, .enter⟩ ∈ tr ↔ (s.threads b).isBlock = true
  dropped : ∀ b, ⟨b, .drop⟩ ∈ tr ↔ (s.threads b).dropped = true
  /-- What a block has read is still what the file holds. -/
  seen : ∀ t seen d, s.threads t = .block (.body (some seen)) d → seen = s.shared.file
  file : s.shared.file = s.shared.ops.foldl FileOp.apply file₀
  order : (s.shared.ops.filterMap FileOp.appended?).Sublist s.shared.took
  /-- A write not yet in the file is the last one the switch took. -/
  inFlight : ∀ t spec op rec, s.threads t = .writer spec op (.recording rec) →
    ∃ before, s.shared.took = before ++ [(t, rec)] ∧
      (s.shared.ops.filterMap FileOp.appended?).Sublist before
  recorded : ∀ t, (s.threads t).recorded = true →
    ∃ rec, (t, rec) ∈ s.shared.ops.filterMap FileOp.appended?

theorem inv_start (file₀ : List (Line K S)) :
    Inv file₀ ([] : List (Act T K S X)) (start file₀) where
  lock t := by simp [start, Thread.holds]
  flag := ⟨[], List.nodup_nil, by simp [start, Thread.isOpen, Thread.isBlock], rfl⟩
  block b := by simp [start, Thread.isBlock]
  dropped b := by simp [start, Thread.dropped]
  seen t seen d h := by simp [start] at h
  file := rfl
  order := by simp [start]
  inFlight t spec op rec h := by simp [start] at h
  recorded t h := by simp [start, Thread.recorded] at h

variable [DecidableEq T] {isNotFound : X → Bool} {enabled : Bool}
variable {file₀ : List (Line K S)} {tr : List (Act T K S X)} {s s' : State T K S}
variable {a : Act T K S X}

/-- While a thread is inside the lock, no other touches the file or the logs. -/
theorem Inv.frame (h : Inv file₀ tr s) (hs : step isNotFound enabled s a = some s') {t : T}
    (ht : t ≠ a.thread) (hold : (s.threads t).holds = true) :
    s'.shared.file = s.shared.file ∧ s'.shared.ops = s.shared.ops ∧
      s'.shared.took = s.shared.took := by
  refine (step_effect hs).1.frame ?_
  by_contra hne
  rw [Bool.not_eq_false] at hne
  have hlock := (h.lock t).mpr hold
  rw [(h.lock a.thread).mpr hne] at hlock
  cases hlock
  exact ht rfl

theorem Inv.step_lock (h : Inv file₀ tr s) (hs : step isNotFound enabled s a = some s') (t : T) :
    s'.shared.lock = some t ↔ (s'.threads t).holds = true := by
  obtain ⟨heff, hother⟩ := step_effect hs
  have hself := h.lock a.thread
  by_cases ht : t = a.thread
  · subst ht
    rcases heff.lock with ⟨hθ, hl⟩ | ⟨-, hθ, -, hl⟩ | ⟨-, hθ, hl, -⟩
    · rw [hl, hθ]; exact hself
    · simp [hl, hθ]
    · simp [hl, hθ]
  · have hthere := h.lock t
    rw [hother t ht]
    rcases heff.lock with ⟨-, hl⟩ | ⟨-, -, hfree, hl⟩ | ⟨hθ, -, hl, -⟩
    · rw [hl]; exact hthere
    · rw [hl, ← hthere, hfree]
      simp [Ne.symm ht]
    · rw [hl, ← hthere, hself.mpr hθ]
      simp [Ne.symm ht]

theorem Inv.step_flag (h : Inv file₀ tr s) (hs : step isNotFound enabled s a = some s') :
    ∃ opened : List T, opened.Nodup ∧ (∀ b, b ∈ opened ↔ (s'.threads b).isOpen = true) ∧
      s'.shared.pending = opened.length := by
  obtain ⟨heff, hother⟩ := step_effect hs
  obtain ⟨opened, hnodup, hmem, hlen⟩ := h.flag
  rcases heff.flag with ⟨hθ, hp⟩ | ⟨hθ, hθ', hp⟩ | ⟨hθ, hθ', hp⟩
  · refine ⟨opened, hnodup, ?_, hp.trans hlen⟩
    intro b
    by_cases hb : b = a.thread
    · rw [hmem, hb, hθ]
    · rw [hmem, hother b hb]
  · -- a block enters
    have hnew : a.thread ∉ opened := by rw [hmem, hθ]; simp
    refine ⟨a.thread :: opened, List.nodup_cons.mpr ⟨hnew, hnodup⟩, ?_, ?_⟩
    · intro b
      by_cases hb : b = a.thread
      · simp [hb, hθ']
      · simp [hb, hmem, hother b hb]
    · rw [hp, hlen, List.length_cons]
  · -- a block drops the flag
    have hold : a.thread ∈ opened := (hmem _).mpr hθ
    refine ⟨opened.erase a.thread, hnodup.erase _, ?_, ?_⟩
    · intro b
      rw [hnodup.mem_erase_iff]
      by_cases hb : b = a.thread
      · simp [hb, hθ']
      · simp [hb, hmem, hother b hb]
    · rw [hp, hlen, List.length_erase_of_mem hold]

/-- A mark that one kind of step leaves on its thread is on it when the run has such a
step. -/
theorem mark_iff {mark : Thread K S → Bool} {k : Kind K S X}
    (hold : ∀ b, ⟨b, k⟩ ∈ tr ↔ mark (s.threads b) = true)
    (hstep : mark (s'.threads a.thread) = true ↔ mark (s.threads a.thread) = true ∨ a.kind = k)
    (hother : ∀ t, t ≠ a.thread → s'.threads t = s.threads t) (b : T) :
    ⟨b, k⟩ ∈ tr ++ [a] ↔ mark (s'.threads b) = true := by
  rw [List.mem_append, List.mem_singleton, hold]
  by_cases hb : b = a.thread
  · subst hb
    have heq : (⟨a.thread, k⟩ : Act T K S X) = a ↔ a.kind = k :=
      ⟨fun h => by rw [← h], fun h => by rw [← h]⟩
    rw [hstep, heq]
  · rw [hother b hb]
    constructor
    · rintro (hm | rfl)
      · exact hm
      · exact absurd rfl hb
    · exact Or.inl

theorem Inv.step_seen (h : Inv file₀ tr s) (hs : step isNotFound enabled s a = some s') (t : T)
    (seen : List (Line K S)) (d : Bool) (ht : s'.threads t = .block (.body (some seen)) d) :
    seen = s'.shared.file := by
  obtain ⟨heff, hother⟩ := step_effect hs
  by_cases hta : t = a.thread
  · subst hta
    exact heff.seen seen d ht
  · rw [hother t hta] at ht
    have hold : (s.threads t).holds = true := by rw [ht]; rfl
    rw [(h.frame hs hta hold).1]
    exact h.seen t seen d ht

theorem Inv.step_file (h : Inv file₀ tr s) (hs : step isNotFound enabled s a = some s') :
    s'.shared.file = s'.shared.ops.foldl FileOp.apply file₀ := by
  obtain ⟨heff, -⟩ := step_effect hs
  rcases heff.ops with ⟨hops, hfile, -⟩ | ⟨spec, op, header, rec, -, -, hops, hfile⟩ |
    ⟨seen, d, f, hθ, -, hops, hfile, -⟩
  · rw [hops, hfile]; exact h.file
  · rw [hops, hfile, List.foldl_append, ← h.file]
    rfl
  · -- the block replaces what it read, and that is what is there
    rw [hops, hfile, List.foldl_append, ← h.file, h.seen _ seen d hθ]
    rfl

theorem Inv.step_order (h : Inv file₀ tr s) (hs : step isNotFound enabled s a = some s') :
    (s'.shared.ops.filterMap FileOp.appended?).Sublist s'.shared.took := by
  obtain ⟨heff, -⟩ := step_effect hs
  have hgrow : s.shared.took.Sublist s'.shared.took := by
    rcases heff.took with ⟨ht, -⟩ | ⟨spec, op, rec, -, ht, -⟩ <;> rw [ht]
    exact List.sublist_append_left _ _
  rcases heff.ops with ⟨hops, -, -⟩ | ⟨spec, op, header, rec, hθ, ht, hops, -⟩ |
    ⟨seen, d, f, -, -, hops, -, -⟩
  · rw [hops]; exact h.order.trans hgrow
  · obtain ⟨before, htook, hsub⟩ := h.inFlight _ spec op rec hθ
    rw [hops, ht, htook, List.filterMap_append]
    exact hsub.append (List.Sublist.refl _)
  · have hnone : [FileOp.snapshot a.thread f].filterMap FileOp.appended? = [] := rfl
    rw [hops, List.filterMap_append, hnone, List.append_nil]
    exact h.order.trans hgrow

theorem Inv.step_inFlight (h : Inv file₀ tr s) (hs : step isNotFound enabled s a = some s')
    (t : T) (spec : S) (op : Op) (rec : Record K S)
    (ht : s'.threads t = .writer spec op (.recording rec)) :
    ∃ before, s'.shared.took = before ++ [(t, rec)] ∧
      (s'.shared.ops.filterMap FileOp.appended?).Sublist before := by
  obtain ⟨heff, hother⟩ := step_effect hs
  by_cases hta : t = a.thread
  · subst hta
    rcases heff.took with ⟨-, hno⟩ | ⟨spec', op', rec', hθ, htook, hops⟩
    · exact absurd ht (hno spec op rec)
    · rw [hθ] at ht
      cases ht
      exact ⟨_, htook, hops ▸ h.order⟩
  · rw [hother t hta] at ht
    have hold : (s.threads t).holds = true := by rw [ht]; rfl
    obtain ⟨-, hops, htook⟩ := h.frame hs hta hold
    rw [hops, htook]
    exact h.inFlight t spec op rec ht

theorem Inv.step_recorded (h : Inv file₀ tr s) (hs : step isNotFound enabled s a = some s')
    (t : T) (ht : (s'.threads t).recorded = true) :
    ∃ rec, (t, rec) ∈ s'.shared.ops.filterMap FileOp.appended? := by
  obtain ⟨heff, hother⟩ := step_effect hs
  have hgrow : ∀ p, p ∈ s.shared.ops.filterMap FileOp.appended? →
      p ∈ s'.shared.ops.filterMap FileOp.appended? := by
    intro p hp
    rcases heff.ops with ⟨hops, -⟩ | ⟨_, _, _, _, -, -, hops, -⟩ | ⟨_, _, _, -, -, hops, -⟩ <;>
      rw [hops]
    · exact hp
    · rw [List.filterMap_append]; exact List.mem_append_left _ hp
    · rw [List.filterMap_append]; exact List.mem_append_left _ hp
  have hbefore : (s.threads t).recorded = true →
      ∃ rec, (t, rec) ∈ s'.shared.ops.filterMap FileOp.appended? := by
    intro hrec
    obtain ⟨rec, hmem⟩ := h.recorded t hrec
    exact ⟨rec, hgrow _ hmem⟩
  by_cases hta : t = a.thread
  · subst hta
    rcases heff.ops with ⟨-, -, himp⟩ | ⟨_, _, header, rec, -, -, hops, -⟩ |
      ⟨_, _, _, -, -, -, -, hno⟩
    · exact hbefore (himp ht)
    · refine ⟨rec, ?_⟩
      rw [hops, List.filterMap_append]
      exact List.mem_append_right _ (by simp [FileOp.appended?])
    · rw [hno] at ht
      cases ht
  · rw [hother t hta] at ht
    exact hbefore ht

/-- **Every step keeps the invariant.** -/
theorem Inv.step (h : Inv file₀ tr s) (hs : step isNotFound enabled s a = some s') :
    Inv file₀ (tr ++ [a]) s' where
  lock := h.step_lock hs
  flag := h.step_flag hs
  block := mark_iff h.block (step_effect hs).1.block (step_effect hs).2
  dropped := mark_iff h.dropped (step_effect hs).1.dropped (step_effect hs).2
  seen := h.step_seen hs
  file := h.step_file hs
  order := h.step_order hs
  inFlight := h.step_inFlight hs
  recorded := h.step_recorded hs

theorem Inv.run (h : Inv file₀ tr s) {tr' : List (Act T K S X)}
    (hrun : Machine.run (Exclusion.step isNotFound enabled) s tr' = some s') :
    Inv file₀ (tr ++ tr') s' :=
  Machine.run_induction (P := Inv file₀) h (fun _ _ _ _ h hs => h.step hs) hrun

theorem inv_run (h : Machine.run (Exclusion.step isNotFound enabled) (start file₀) tr = some s) :
    Inv file₀ tr s :=
  (inv_start file₀).run h

/-- A thread that holds the lock holds it until it releases it. -/
theorem lock_until_release {tr' : List (Act T K S X)} {b : T} (h : Inv file₀ tr s)
    (hlock : s.shared.lock = some b)
    (hrun : Machine.run (Exclusion.step isNotFound enabled) s tr' = some s')
    (hno : ⟨b, .release⟩ ∉ tr') : s'.shared.lock = some b := by
  induction tr' generalizing tr s with
  | nil =>
    cases hrun
    exact hlock
  | cons a tr' ih =>
    obtain ⟨m, hm, hrest⟩ := Option.bind_eq_some_iff.mp hrun
    simp only [List.mem_cons, not_or] at hno
    refine ih (h.step hm) ?_ hrest hno.2
    rcases (step_effect hm).1.lock with ⟨-, hl⟩ | ⟨-, -, hfree, -⟩ | ⟨hold, -, -, hk⟩
    · rw [hl]; exact hlock
    · rw [hfree] at hlock
      cases hlock
    · have hself := (h.lock a.thread).mpr hold
      rw [hlock] at hself
      cases hself
      exact absurd (by rw [← hk]) hno.1

/-- What the lock and the flag are for, in a run `tr` from the file `file₀` to the state
`s`: no write reaches the switch while a block has the lock; the flag is up exactly while
some block has entered and not dropped it; and the file is what its history makes of it
when appends and snapshots are atomic, the appended records being recorded writes in the
order the switch took them, every one whose call says so among them. -/
structure Exclusive (file₀ : List (Line K S)) (tr : List (Act T K S X)) (s : State T K S) :
    Prop where
  excluded : ∀ tr₁ tr₂ tr₃ b w answer key,
    tr = tr₁ ++ ⟨b, .acquire⟩ :: (tr₂ ++ ⟨w, .write answer key⟩ :: tr₃) →
    ⟨b, .enter⟩ ∈ tr₁ → ⟨b, .release⟩ ∈ tr₂
  pending : 0 < s.shared.pending ↔ ∃ b, ⟨b, .enter⟩ ∈ tr ∧ ⟨b, .drop⟩ ∉ tr
  file : s.shared.file = s.shared.ops.foldl FileOp.apply file₀
  order : (s.shared.ops.filterMap FileOp.appended?).Sublist s.shared.took
  recorded : ∀ t spec op, s.threads t = .writer spec op (.finished true) →
    ∃ rec, (t, rec) ∈ s.shared.ops.filterMap FileOp.appended?

variable (isNotFound enabled) in
/-- **Writes and re-adoptions of one switch exclude each other**, in every interleaving of
any number of calls. -/
theorem run_exclusive
    (h : Machine.run (Exclusion.step isNotFound enabled) (start file₀) tr = some s) :
    Exclusive file₀ tr s := by
  have hinv := inv_run h
  refine ⟨?_, ?_, hinv.file, hinv.order, fun t spec op ht => hinv.recorded t (by rw [ht]; rfl)⟩
  · rintro tr₁ tr₂ tr₃ b w answer key rfl henter
    by_contra hno
    obtain ⟨m₁, m₂, hm₁, hacq, hrest⟩ := Machine.run_at h
    obtain ⟨m₃, m₄, hm₃, hwrite, -⟩ := Machine.run_at hrest
    have hinv₁ := inv_run hm₁
    have hinv₂ := hinv₁.step hacq
    -- the block has the lock from its acquisition on
    have hlock₂ : m₂.shared.lock = some b := by
      refine (hinv₂.lock b).mpr ?_
      obtain ⟨⟨θ, sh⟩, hadv, rfl⟩ := Option.map_eq_some_iff.mp hacq
      simp only [advance] at hadv
      split at hadv <;> cases hadv <;> simp [Function.update_self, Thread.holds]
    have hlock₃ := lock_until_release hinv₂ hlock₂ hm₃ hno
    have hinv₃ := hinv₂.run hm₃
    have hblock : (m₃.threads b).isBlock = true := by
      rw [← hinv₃.block]
      simp [henter]
    -- and a thread that writes has it too
    have hwriter : (m₃.threads w).holds = true ∧ (m₃.threads w).isBlock = false := by
      obtain ⟨⟨θ, sh⟩, hadv, -⟩ := Option.map_eq_some_iff.mp hwrite
      simp only [advance] at hadv
      split at hadv
      · next spec op heq => rw [heq]; exact ⟨rfl, rfl⟩
      · cases hadv
    have hlockw := (hinv₃.lock w).mpr hwriter.1
    rw [hlock₃] at hlockw
    cases hlockw
    rw [hblock] at hwriter
    cases hwriter.2
  · obtain ⟨opened, -, hmem, hlen⟩ := hinv.flag
    rw [hlen, List.length_pos_iff_exists_mem]
    refine exists_congr ?_
    intro b
    rw [hmem, hinv.block, hinv.dropped, Thread.isOpen, Bool.and_eq_true, Bool.not_eq_true',
      Bool.not_eq_true]

/-- Two re-adoptions that overlap, the second given up while it waits; a write before them,
one refused in between, and one after. -/
theorem run_exclusive_overlap :
    let ok (n : ℕ) : Kind ℕ (ℕ × ℕ) Refusal := .write (.ok (.insert, n)) (some n)
    let header : Header := ⟨none, none, none, some "boot"⟩
    let tr : List (Act ℕ ℕ (ℕ × ℕ) Refusal) :=
      [⟨1, .call (1, 5) .insert⟩, ⟨1, .check⟩, ⟨1, .acquire⟩, ⟨1, .recheck⟩, ⟨1, .client false⟩,
        ⟨2, .enter⟩, ⟨1, ok 1⟩, ⟨1, .append header true⟩, ⟨3, .call (3, 7) .insert⟩, ⟨1, .release⟩,
        ⟨4, .enter⟩, ⟨2, .acquire⟩, ⟨2, .read⟩, ⟨3, .check⟩, ⟨2, .snapshot id⟩, ⟨2, .drop⟩,
        ⟨4, .abort⟩, ⟨2, .release⟩, ⟨4, .drop⟩, ⟨5, .call (5, 9) .insert⟩, ⟨5, .check⟩, ⟨2, .drop⟩,
        ⟨5, .acquire⟩, ⟨5, .recheck⟩, ⟨5, .client false⟩, ⟨5, ok 5⟩, ⟨5, .append header true⟩,
        ⟨5, .release⟩]
    ∃ s, Machine.run (Exclusion.step Refusal.refusals.isNotFound true) (start []) tr = some s ∧
      s.shared.file.filterMap Line.record?
        = [⟨.insert, 1, (1, 5), .ok⟩, ⟨.insert, 5, (5, 9), .ok⟩] ∧
      Exclusive [] tr s :=
  ⟨_, rfl, by decide, run_exclusive Refusal.refusals.isNotFound true rfl⟩

/-- **A call that runs alone is `writeAndJournal`**: from a state with the lock free and the
flag down, its steps one after the other leave the file that function leaves. -/
theorem run_writeAndJournal {W : Type*} (client : Client W K S X) (journal : SwitchJournal K S)
    (world : W) (spec : S) (op : Op) (header : Header) (diskOk : Bool) {t : T}
    (hidle : s.threads t = .idle) (hfree : s.shared.lock = none) (hflag : s.shared.pending = 0)
    (hfile : s.shared.file = journal.file) :
    let answer := client.writeTableEntry world spec op
    let key := client.tableEntryKey answer.2 spec
    let rec? := journalRecord isNotFound enabled spec op answer.1 key
    let calls : List (Kind K S X) := [.call spec op, .check, .acquire, .recheck, .client false,
      .write answer.1 key] ++ (if rec?.isSome then [.append header diskOk] else []) ++ [.release]
    ∃ s', Machine.run (Exclusion.step isNotFound enabled) s (calls.map fun k => ⟨t, k⟩) = some s' ∧
      s'.shared.file =
        (writeAndJournal client isNotFound enabled diskOk header journal world spec op).2.1.file ∧
      s'.shared.lock = none ∧
      s'.threads t = .writer spec op (.finished (rec?.isSome && diskOk)) := by
  intro answer key rec? calls
  have hwrite := writeAndJournal_file client isNotFound enabled diskOk header journal world spec op
  dsimp only at hwrite
  cases hrec : journalRecord isNotFound enabled spec op answer.1 key with
  | none =>
    rw [show journalRecord isNotFound enabled spec op _ _ = none from hrec] at hwrite
    simp only [List.append_assoc, hrec, Option.isSome_none, Bool.false_eq_true, ↓reduceIte,
      List.nil_append, List.cons_append, List.map_cons, List.map_nil, Machine.run, step, advance, hidle,
      Option.map_some, Option.bind_fun_some, Option.bind_some, Function.update_idem,
      Function.update_self, hflag, Nat.lt_irrefl, hfree, hfile, Option.some.injEq, hwrite,
      Bool.false_and, exists_eq_left', and_self, calls, rec?]
  | some rec =>
    rw [show journalRecord isNotFound enabled spec op _ _ = some rec from hrec] at hwrite
    cases diskOk with
    | true =>
      simp only [List.append_assoc, hrec, Option.isSome_some, ↓reduceIte, List.cons_append,
        List.nil_append, List.map_cons, List.map_nil, Machine.run, step, advance, hidle,
        Option.map_some, Bool.false_eq_true, Option.bind_fun_some, Option.bind_some,
        Function.update_idem, Function.update_self, hflag, Nat.lt_irrefl, hfree, hfile,
        Option.some.injEq, hwrite, Bool.and_self, exists_eq_left', and_self, calls, rec?]
    | false =>
      simp only [List.append_assoc, hrec, Option.isSome_some, ↓reduceIte, List.cons_append,
        List.nil_append, List.map_cons, List.map_nil, Machine.run, step, advance, hidle,
        Option.map_some, Bool.false_eq_true, Option.bind_fun_some, Option.bind_some,
        Function.update_idem, Function.update_self, hflag, Nat.lt_irrefl, hfree, hfile,
        Option.some.injEq, hwrite, recordLine, Bool.and_false, exists_eq_left', and_self, calls,
        rec?]

end Invariant

end Exclusion
end Journal
end NDTwin
