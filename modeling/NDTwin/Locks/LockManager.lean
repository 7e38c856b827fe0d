import Mathlib.Algebra.Group.Nat.Defs
import Mathlib.Data.Int.Notation
import Mathlib.Data.List.Basic
import Mathlib.Data.List.Range
import Mathlib.Logic.Function.Basic
import Mathlib.Order.Basic
import NDTwin.Lib.Fixed

/-!
# Leases on locks

The kernel has three locks that applications take for a time.  Each successful acquire starts a
lease with an id of its own; a lease ends when it is released, or when some acquire, renew or
release finds that its time has run out.  Reading a lock ends nothing.

Clock readings are nanoseconds, durations are asked for in seconds.

## Main definitions

* `LockState`, `LockManager` — the state.
* `acquireLock`, `renewLease`, `release`, `snapshot` — the calls.
* `Moves` — all that one call can do to one lock.
* `trace` — a run of calls at their clock readings, with what each of them answered.

## Main results

* `step_moves` — **every call moves every lock as `Moves` says.**
* `run_leases` — **leases are exclusive**: over any run, whatever the clock does.
* `run_leases_limits` — where the ids of 64 bits begin again, and what a read counts.
-/

namespace NDTwin.Locks

open Fixed

/-! ### State -/

/-- The locks; any other name is unknown. -/
inductive LockType where
  | routing | graph | power
  deriving DecidableEq, Repr

/-- `stringToLockType(str)`, `none` for an unknown one. -/
def stringToLockType (str : String) : Option LockType :=
  if str = "routing_lock" then some .routing
  else if str = "graph_lock" then some .graph
  else if str = "power_lock" then some .power
  else none

/-- The state of a single lock. -/
structure LockState where
  isLocked : Bool := false
  expiryTime : ℤ := 0
  leaseId : ℕ := 0
  expiredLeaseId : ℕ := 0
  expiredLeaseCount : ℕ := 0
  unattributedActions : ℕ := 0
  deriving DecidableEq, Repr

/-- The locks there are states of, and the next lease id. -/
structure LockManager where
  locks : LockType → Option LockState := fun _ => none
  nextLeaseId : ℕ := 1
  requireLeaseId : Bool := false

/-- The state of a lock, new where there is none. -/
def LockManager.lock (m : LockManager) (type : LockType) : LockState := (m.locks type).getD {}

/-- A new state for a lock. -/
def LockManager.put (m : LockManager) (type : LockType) (st : LockState) : LockManager :=
  { m with locks := Function.update m.locks type (some st) }

/-- Nanoseconds. -/
def seconds (n : ℤ) : ℤ := n * 1000000000

/-- `duration_cast<seconds>(d).count()`. -/
def toSeconds (d : ℤ) : ℤ := d.tdiv 1000000000

/-! ### Calls -/

/-- Whether a lease has run out. -/
def LockState.expired (st : LockState) (now : ℤ) : Bool := st.isLocked && st.expiryTime ≤ now

/-- The state after `reapIfExpired` has ended a lease. -/
def LockState.reaped (st : LockState) : LockState :=
  { st with
    isLocked := false
    expiredLeaseId := st.leaseId
    expiredLeaseCount := succU 64 st.expiredLeaseCount }

/-- `reapIfExpired(type, state, now)`: the state, and whether a lease was ended. -/
def reapIfExpired (st : LockState) (now : ℤ) : LockState × Bool :=
  if st.expired now then (st.reaped, true) else (st, false)

/-- A lock on a new lease. -/
def LockState.taken (st : LockState) (now ttlSeconds : ℤ) (leaseId : ℕ) : LockState :=
  { st with isLocked := true, expiryTime := now + seconds ttlSeconds, leaseId }

/-- What an acquire answers, with the report of it. -/
inductive Acquired where
  | invalidName
  | blocked (blockingLeaseId : ℕ) (remainingSeconds : ℤ)
  | taken (leaseId : ℕ) (reclaimedExpiredLease : Bool)
  deriving DecidableEq, Repr

/-- `acquireLock(lockNameStr, ttlSeconds, report)`. -/
def acquireLock (m : LockManager) (now : ℤ) (lockNameStr : String) (ttlSeconds : ℤ) :
    LockManager × Acquired :=
  match stringToLockType lockNameStr with
  | none => (m, .invalidName)
  | some type =>
    let (st, reclaimed) := reapIfExpired (m.lock type) now
    if st.isLocked && now < st.expiryTime then
      (m.put type st, .blocked st.leaseId (toSeconds (st.expiryTime - now)))
    else
      ({ m.put type (st.taken now ttlSeconds m.nextLeaseId) with
          nextLeaseId := succU 64 m.nextLeaseId },
        .taken m.nextLeaseId reclaimed)

/-- What a release or a renewal comes to; `done` names the lease acted on. -/
inductive Outcome where
  | done (actedLeaseId : ℕ)
  | expired
  | notHeld
  | leaseMismatch
  | leaseRequired
  deriving DecidableEq, Repr

/-- The common part of `release` and `renewLease`: the checks, and the action on a live lease. -/
def onLease (m : LockManager) (now : ℤ) (lockNameStr : String) (leaseId : ℕ)
    (act : LockState → LockState) : LockManager × Outcome :=
  match stringToLockType lockNameStr with
  | none => (m, .notHeld)
  | some type =>
    match m.locks type with
    | none => (m, .notHeld)
    | some st =>
      if (reapIfExpired st now).2 then (m.put type (reapIfExpired st now).1, .expired)
      else if !st.isLocked then (m, .notHeld)
      else if leaseId ≠ 0 ∧ leaseId ≠ st.leaseId then (m, .leaseMismatch)
      else if leaseId = 0 then
        if m.requireLeaseId then (m, .leaseRequired)
        else (m.put type
          (act { st with unattributedActions := succU 64 st.unattributedActions }), .done st.leaseId)
      else (m.put type (act st), .done st.leaseId)

/-- `release(lockNameStr, leaseId, actedLeaseId)`. -/
def release (m : LockManager) (now : ℤ) (lockNameStr : String) (leaseId : ℕ) :
    LockManager × Outcome :=
  onLease m now lockNameStr leaseId fun st => { st with isLocked := false }

/-- `renewLease(lockNameStr, ttlSeconds, leaseId, actedLeaseId)`. -/
def renewLease (m : LockManager) (now : ℤ) (lockNameStr : String) (ttlSeconds : ℤ) (leaseId : ℕ) :
    LockManager × Outcome :=
  onLease m now lockNameStr leaseId fun st => { st with expiryTime := now + seconds ttlSeconds }

/-- A read of one lock. -/
structure LockSnapshot where
  held : Bool := false
  leaseId : ℕ := 0
  remainingSeconds : ℤ := 0
  expiredLeaseCount : ℕ := 0
  lastExpiredLeaseId : ℕ := 0
  unattributedActions : ℕ := 0
  deriving DecidableEq, Repr

/-- `snapshot(lockNameStr)`. -/
def snapshot (m : LockManager) (now : ℤ) (lockNameStr : String) : LockSnapshot :=
  match stringToLockType lockNameStr with
  | none => {}
  | some type =>
    match m.locks type with
    | none => {}
    | some st =>
      let held := st.isLocked && now < st.expiryTime
      { held
        leaseId := if held then st.leaseId else 0
        remainingSeconds := if held then toSeconds (st.expiryTime - now) else 0
        expiredLeaseCount := st.expiredLeaseCount
        lastExpiredLeaseId := st.expiredLeaseId
        unattributedActions := st.unattributedActions }

/-! ### Runs -/

/-- A call. -/
inductive Call where
  | acquireLock (lockNameStr : String) (ttlSeconds : ℤ)
  | renewLease (lockNameStr : String) (ttlSeconds : ℤ) (leaseId : ℕ)
  | release (lockNameStr : String) (leaseId : ℕ)
  | snapshot (lockNameStr : String)
  deriving DecidableEq, Repr

/-- What a call answers. -/
inductive Answer where
  | acquired (a : Acquired)
  | renewed (o : Outcome)
  | released (o : Outcome)
  | read (s : LockSnapshot)
  deriving DecidableEq, Repr

/-- One call at a clock reading. -/
def step (m : LockManager) (now : ℤ) : Call → LockManager × Answer
  | .acquireLock name ttl => ((acquireLock m now name ttl).1, .acquired (acquireLock m now name ttl).2)
  | .renewLease name ttl id =>
    ((renewLease m now name ttl id).1, .renewed (renewLease m now name ttl id).2)
  | .release name id => ((release m now name id).1, .released (release m now name id).2)
  | .snapshot name => (m, .read (snapshot m now name))

/-- A call that has been answered, with the state it found. -/
structure Event where
  found : LockManager
  now : ℤ
  call : Call
  answer : Answer

/-- A run of calls, each at its clock reading. -/
def trace (m : LockManager) : List (ℤ × Call) → List Event
  | [] => []
  | c :: calls => ⟨m, c.1, c.2, (step m c.1 c.2).2⟩ :: trace (step m c.1 c.2).1 calls

/-- The state after a run of calls. -/
def final (m : LockManager) : List (ℤ × Call) → LockManager
  | [] => m
  | c :: calls => final (step m c.1 c.2).1 calls

/-- The lease an event started on a lock. -/
def Event.acquired (type : LockType) (e : Event) : Option ℕ :=
  match e.call, e.answer with
  | .acquireLock name _, .acquired (.taken id _) =>
    if stringToLockType name = some type then some id else none
  | _, _ => none

/-- The lease an event released on a lock. -/
def Event.released (type : LockType) (e : Event) : Option ℕ :=
  match e.call, e.answer with
  | .release name _, .released (.done id) =>
    if stringToLockType name = some type then some id else none
  | _, _ => none

/-- The lease an event started on any lock. -/
def Event.handedOut (e : Event) : Option ℕ :=
  match e.answer with
  | .acquired (.taken id _) => some id
  | _ => none

/-! ### What one call can do -/

/-- What a call does to a lock beside changing its state. -/
inductive Act where
  | none
  | acquired (id : ℕ)
  | released (id : ℕ)

/-- All that one call can do to one lock. -/
inductive Moves (now : ℤ) (next : ℕ) : LockState → LockState → Act → Prop where
  | keep (st : LockState) : Moves now next st st .none
  | reap (st : LockState) : st.expired now = true → Moves now next st st.reaped .none
  | extend (st : LockState) (expiryTime : ℤ) (unattributedActions : ℕ) : st.isLocked = true →
    st.expired now = false →
      Moves now next st { st with expiryTime, unattributedActions } .none
  | release (st : LockState) (unattributedActions : ℕ) : st.isLocked = true →
    st.expired now = false →
      Moves now next st { st with isLocked := false, unattributedActions } (.released st.leaseId)
  | acquire (st : LockState) (ttl : ℤ) : st.isLocked = false →
    Moves now next st (st.taken now ttl next) (.acquired next)
  | takeOver (st : LockState) (ttl : ℤ) : st.expired now = true →
    Moves now next st (st.reaped.taken now ttl next) (.acquired next)

/-- What an event does to a lock. -/
def Event.act (type : LockType) (e : Event) : Act :=
  match e.acquired type with
  | some id => .acquired id
  | none =>
    match e.released type with
    | some id => .released id
    | none => .none

/-- The event of one call. -/
def event (m : LockManager) (now : ℤ) (c : Call) : Event := ⟨m, now, c, (step m now c).2⟩

theorem trace_cons (m : LockManager) (c : ℤ × Call) (calls : List (ℤ × Call)) :
    trace m (c :: calls) = event m c.1 c.2 :: trace (step m c.1 c.2).1 calls := rfl

theorem final_cons (m : LockManager) (c : ℤ × Call) (calls : List (ℤ × Call)) :
    final m (c :: calls) = final (step m c.1 c.2).1 calls := rfl

@[simp] theorem lock_put_self (m : LockManager) (type : LockType) (st : LockState) :
    (m.put type st).lock type = st := by
  simp [LockManager.put, LockManager.lock]

theorem lock_put_of_ne (m : LockManager) {type type' : LockType} (st : LockState)
    (hne : type' ≠ type) : (m.put type st).lock type' = m.lock type' := by
  simp [LockManager.put, LockManager.lock, Function.update_of_ne hne]

@[simp] theorem nextLeaseId_put (m : LockManager) (type : LockType) (st : LockState) :
    (m.put type st).nextLeaseId = m.nextLeaseId := rfl

theorem reapIfExpired_of_expired {st : LockState} {now : ℤ} (h : st.expired now = true) :
    reapIfExpired st now = (st.reaped, true) := by
  simp [reapIfExpired, h]

theorem reapIfExpired_of_not {st : LockState} {now : ℤ} (h : st.expired now = false) :
    reapIfExpired st now = (st, false) := by
  simp [reapIfExpired, h]

/-- A lease that is held and not run out still has time left. -/
theorem lt_of_isLocked {st : LockState} {now : ℤ} (hlocked : st.isLocked = true)
    (h : st.expired now = false) : now < st.expiryTime := by
  simpa [LockState.expired, hlocked] using h

/-- The three ends of an acquire on a known lock. -/
theorem acquireLock_cases (m : LockManager) (now : ℤ) {name : String} (ttl : ℤ) {type : LockType}
    (hname : stringToLockType name = some type) :
    ((m.lock type).isLocked = true ∧ (m.lock type).expired now = false ∧
      acquireLock m now name ttl = (m.put type (m.lock type),
        .blocked (m.lock type).leaseId (toSeconds ((m.lock type).expiryTime - now)))) ∨
    ((m.lock type).isLocked = false ∧
      acquireLock m now name ttl =
        ({ m.put type ((m.lock type).taken now ttl m.nextLeaseId) with
            nextLeaseId := succU 64 m.nextLeaseId }, .taken m.nextLeaseId false)) ∨
    ((m.lock type).expired now = true ∧
      acquireLock m now name ttl =
        ({ m.put type ((m.lock type).reaped.taken now ttl m.nextLeaseId) with
            nextLeaseId := succU 64 m.nextLeaseId }, .taken m.nextLeaseId true)) := by
  rcases hexp : (m.lock type).expired now with _ | _
  · rcases hlocked : (m.lock type).isLocked with _ | _
    · right; left
      refine ⟨rfl, ?_⟩
      simp [acquireLock, hname, reapIfExpired_of_not hexp, hlocked]
    · left
      have hlt := lt_of_isLocked hlocked hexp
      refine ⟨rfl, rfl, ?_⟩
      simp [acquireLock, hname, reapIfExpired_of_not hexp, hlocked, hlt]
  · right; right
    refine ⟨rfl, ?_⟩
    simp [acquireLock, hname, reapIfExpired_of_expired hexp, LockState.reaped]

/-- The ends of a release or a renewal: nothing changes, a lease that has run out is ended, or the
action is taken on the live one. -/
theorem onLease_cases (m : LockManager) (now : ℤ) (name : String) (id : ℕ)
    (act : LockState → LockState) :
    ((onLease m now name id act).1 = m ∧ ∀ n, (onLease m now name id act).2 ≠ .done n) ∨
    (∃ type, stringToLockType name = some type ∧ (m.lock type).expired now = true ∧
      onLease m now name id act = (m.put type (m.lock type).reaped, .expired)) ∨
    (∃ type n, stringToLockType name = some type ∧ (m.lock type).isLocked = true ∧
      (m.lock type).expired now = false ∧ (id = 0 ∨ id = (m.lock type).leaseId) ∧
      onLease m now name id act =
        (m.put type (act { m.lock type with unattributedActions := n }),
          .done (m.lock type).leaseId)) := by
  unfold onLease
  rcases hname : stringToLockType name with _ | type
  · left
    simp
  rcases hst : m.locks type with _ | st
  · left
    simp [hst]
  have hlock : m.lock type = st := by simp [LockManager.lock, hst]
  rcases hexp : st.expired now with _ | _
  · rcases hlocked : st.isLocked with _ | _
    · left
      simp [hst, reapIfExpired_of_not hexp, hlocked]
    · by_cases hmis : id ≠ 0 ∧ id ≠ st.leaseId
      · left
        simp [hst, reapIfExpired_of_not hexp, hlocked, hmis]
      · by_cases hzero : id = 0
        · rcases hreq : m.requireLeaseId with _ | _
          · right; right
            refine ⟨type, succU 64 st.unattributedActions, rfl, ?_, ?_, .inl hzero, ?_⟩
            · rw [hlock, hlocked]
            · rw [hlock, hexp]
            · simp [hst, reapIfExpired_of_not hexp, hlocked, hzero, hlock]
          · left
            simp [hst, reapIfExpired_of_not hexp, hlocked, hzero]
        · right; right
          have hid : id = st.leaseId := by
            by_contra hne
            exact hmis ⟨hzero, hne⟩
          have hne : st.leaseId ≠ 0 := hid ▸ hzero
          refine ⟨type, st.unattributedActions, rfl, ?_, ?_, .inr ?_, ?_⟩
          · rw [hlock, hlocked]
          · rw [hlock, hexp]
          · rw [hlock, hid]
          · rw [hlock]
            show _ = (m.put type (act st), Outcome.done st.leaseId)
            simp [hst, reapIfExpired_of_not hexp, hlocked, hid, hne]
  · right; left
    refine ⟨type, rfl, ?_, ?_⟩
    · rw [hlock, hexp]
    · simp [hst, reapIfExpired_of_expired hexp, hlock]

/-! ### One call -/

theorem event_act_acquire {m : LockManager} {now : ℤ} {name : String} {ttl : ℤ}
    {type : LockType} {m' : LockManager} {id : ℕ} {reclaimed : Bool}
    (hname : stringToLockType name = some type)
    (h : acquireLock m now name ttl = (m', .taken id reclaimed)) :
    (event m now (.acquireLock name ttl)).act type = .acquired id := by
  simp [event, step, h, Event.act, Event.acquired, hname]

/-- An event that starts no lease on a lock and ends none does nothing to it. -/
theorem act_eq_none {e : Event} {type : LockType} (hacq : e.acquired type = none)
    (hrel : e.released type = none) : e.act type = .none := by
  simp [Event.act, hacq, hrel]

/-- A release or a renewal moves each lock as `Moves` says, where its action does. -/
theorem onLease_moves (m : LockManager) (now : ℤ) (name : String) (id : ℕ)
    (act : LockState → LockState) (type : LockType) (does : Act)
    (hkeep : (∀ n, (onLease m now name id act).2 ≠ .done n) → does = .none)
    (hother : stringToLockType name ≠ some type → does = .none)
    (hact : ∀ n, (m.lock type).isLocked = true → (m.lock type).expired now = false →
      (onLease m now name id act).2 = .done (m.lock type).leaseId →
      stringToLockType name = some type →
      Moves now m.nextLeaseId (m.lock type)
        (act { m.lock type with unattributedActions := n }) does) :
    Moves now m.nextLeaseId (m.lock type) ((onLease m now name id act).1.lock type) does := by
  rcases onLease_cases m now name id act with
    ⟨hm, hdone⟩ | ⟨type', hname, hexp, heq⟩ | ⟨type', n, hname, hlocked, hexp, -, heq⟩
  · rw [hm, hkeep hdone]
    exact .keep _
  · rw [hkeep (by simp [heq]), heq]
    by_cases htype : type = type'
    · subst htype
      rw [lock_put_self]
      exact .reap _ hexp
    · rw [lock_put_of_ne m _ htype]
      exact .keep _
  · by_cases htype : type = type'
    · subst htype
      have hmoves := hact n hlocked hexp (by rw [heq]) hname
      rwa [heq, lock_put_self]
    · have hne : stringToLockType name ≠ some type := by
        rw [hname]
        simpa using fun h : type' = type => htype h.symm
      rw [hother hne, heq, lock_put_of_ne m _ htype]
      exact .keep _

/-- **Every call moves every lock as `Moves` says.** -/
theorem step_moves (m : LockManager) (now : ℤ) (c : Call) (type : LockType) :
    Moves now m.nextLeaseId (m.lock type) ((step m now c).1.lock type)
      ((event m now c).act type) := by
  cases c with
  | acquireLock name ttl =>
    rcases hname : stringToLockType name with _ | type'
    · have heq : acquireLock m now name ttl = (m, .invalidName) := by simp [acquireLock, hname]
      have hnone : (event m now (.acquireLock name ttl)).act type = .none :=
        act_eq_none (by simp [event, step, heq, Event.acquired])
          (by simp [event, step, Event.released])
      rw [hnone]
      simp only [step, heq]
      exact .keep _
    by_cases htype : type = type'
    · subst htype
      rcases acquireLock_cases m now ttl hname with
        ⟨-, -, heq⟩ | ⟨hfree, heq⟩ | ⟨hexp, heq⟩
      · have hnone : (event m now (.acquireLock name ttl)).act type = .none :=
          act_eq_none (by simp [event, step, heq, Event.acquired])
            (by simp [event, step, Event.released])
        rw [hnone]
        simp only [step, heq, lock_put_self]
        exact .keep _
      · rw [event_act_acquire hname heq]
        simp only [step, heq]
        exact lock_put_self m type _ ▸ .acquire _ ttl hfree
      · rw [event_act_acquire hname heq]
        simp only [step, heq]
        exact lock_put_self m type _ ▸ .takeOver _ ttl hexp
    · -- the call is about another lock
      have hne : stringToLockType name ≠ some type := by
        rw [hname]
        simpa using fun h : type' = type => htype h.symm
      have hnone : (event m now (.acquireLock name ttl)).act type = .none := by
        refine act_eq_none ?_ (by simp [event, step, Event.released])
        simp only [event, step, Event.acquired]
        split <;> simp_all
      have hlock : (acquireLock m now name ttl).1.lock type = m.lock type := by
        rcases acquireLock_cases m now ttl hname with
          ⟨-, -, heq⟩ | ⟨-, heq⟩ | ⟨-, heq⟩ <;> rw [heq] <;> exact lock_put_of_ne m _ htype
      rw [hnone]
      simp only [step, hlock]
      exact .keep _
  | renewLease name ttl id =>
    have hnone : (event m now (.renewLease name ttl id)).act type = .none :=
      act_eq_none (by simp [event, step, Event.acquired]) (by simp [event, step, Event.released])
    rw [hnone]
    refine onLease_moves m now name id _ type .none (fun _ => rfl) (fun _ => rfl) ?_
    intro n hlocked hexp _ _
    exact .extend _ _ n hlocked hexp
  | release name id =>
    refine onLease_moves m now name id _ type _ ?_ ?_ ?_
    · intro hdone
      refine act_eq_none (by simp [event, step, Event.acquired]) ?_
      rcases ho : (release m now name id).2 with n | _ | _ | _ | _
      · exact absurd ho (hdone n)
      all_goals simp [event, step, Event.released, ho]
    · intro hne
      refine act_eq_none (by simp [event, step, Event.acquired]) ?_
      simp only [event, step, Event.released]
      split <;> simp_all
    · intro n hlocked hexp hdone hname
      have hact : (event m now (.release name id)).act type = .released (m.lock type).leaseId := by
        simp [event, step, release, Event.act, Event.acquired, Event.released, hdone, hname]
      rw [hact]
      exact .release _ n hlocked hexp
  | snapshot name =>
    have hnone : (event m now (.snapshot name)).act type = .none :=
      act_eq_none (by simp [event, step, Event.acquired]) (by simp [event, step, Event.released])
    rw [hnone]
    exact .keep _

/-- A call hands out the next id and moves on, or leaves the next id as it is. -/
theorem step_nextLeaseId (m : LockManager) (now : ℤ) (c : Call) :
    ((event m now c).handedOut = none ∧ (step m now c).1.nextLeaseId = m.nextLeaseId) ∨
    ((event m now c).handedOut = some m.nextLeaseId ∧
      (step m now c).1.nextLeaseId = succU 64 m.nextLeaseId) := by
  have honLease (name : String) (id : ℕ) (act : LockState → LockState) :
      (onLease m now name id act).1.nextLeaseId = m.nextLeaseId := by
    rcases onLease_cases m now name id act with ⟨hm, -⟩ | ⟨_, _, _, heq⟩ | ⟨_, _, _, _, _, _, heq⟩
    · rw [hm]
    · rw [heq, nextLeaseId_put]
    · rw [heq, nextLeaseId_put]
  cases c with
  | acquireLock name ttl =>
    rcases hname : stringToLockType name with _ | type
    · left
      simp [event, step, acquireLock, hname, Event.handedOut]
    · rcases acquireLock_cases m now ttl hname with ⟨-, -, heq⟩ | ⟨-, heq⟩ | ⟨-, heq⟩
      · left
        simp [event, step, heq, Event.handedOut]
      · right
        simp [event, step, heq, Event.handedOut]
      · right
        simp [event, step, heq, Event.handedOut]
  | renewLease name ttl id => exact .inl ⟨rfl, honLease ..⟩
  | release name id => exact .inl ⟨rfl, honLease ..⟩
  | snapshot name => exact .inl ⟨rfl, rfl⟩

/-- **A release or a renewal that names another lease than the live one changes nothing.** -/
theorem onLease_of_ne (m : LockManager) {now : ℤ} {name : String} {type : LockType} {id : ℕ}
    (act : LockState → LockState) (hname : stringToLockType name = some type)
    (hlive : now < (m.lock type).expiryTime)
    (hzero : id ≠ 0) (hne : id ≠ (m.lock type).leaseId) : (onLease m now name id act).1 = m := by
  have hexp : (m.lock type).expired now = false := by simp [LockState.expired, hlive]
  rcases onLease_cases m now name id act with
    ⟨hm, -⟩ | ⟨type', hname', hexp', -⟩ | ⟨type', n, hname', -, -, hid, -⟩
  · exact hm
  · obtain rfl : type = type' := by simpa [hname] using hname'
    rw [hexp] at hexp'
    cases hexp'
  · obtain rfl : type = type' := by simpa [hname] using hname'
    rcases hid with hid | hid
    · exact absurd hid hzero
    · exact absurd hid hne

/-! ### Runs: the ids -/

/-- Up to the last 64-bit number, the ids handed out are the numbers from the next one on. -/
theorem handedOut_trace (m : LockManager) (calls : List (ℤ × Call))
    (h : m.nextLeaseId + ((trace m calls).filterMap Event.handedOut).length ≤ 2 ^ 64) :
    (trace m calls).filterMap Event.handedOut =
      List.range' m.nextLeaseId ((trace m calls).filterMap Event.handedOut).length := by
  induction calls generalizing m with
  | nil => rfl
  | cons c calls ih =>
    rw [trace_cons] at h ⊢
    rcases step_nextLeaseId m c.1 c.2 with ⟨hnone, hnext⟩ | ⟨hsome, hnext⟩
    · rw [List.filterMap_cons_none hnone] at h ⊢
      rw [← hnext] at h ⊢
      exact ih _ h
    · rw [List.filterMap_cons_some hsome] at h ⊢
      rw [List.length_cons] at h ⊢
      rw [List.range'_succ]
      congr 1
      by_cases hlast : m.nextLeaseId + 1 = 2 ^ 64
      · -- the last number was handed out, so nothing after it was
        have hnil : (trace (step m c.1 c.2).1 calls).filterMap Event.handedOut = [] :=
          List.length_eq_zero_iff.mp (by omega)
        rw [hnil]
        rfl
      · have hsucc : succU 64 m.nextLeaseId = m.nextLeaseId + 1 := succU_of_lt (by omega)
        rw [hsucc] at hnext
        rw [← hnext]
        exact ih _ (by omega)

/-! ### Runs: the ends of leases -/

theorem released_of_act {e : Event} {type : LockType} {id : ℕ} (h : e.act type = .released id) :
    e.released type = some id := by
  unfold Event.act at h
  rcases hacq : e.acquired type with _ | id'
  · rcases hrel : e.released type with _ | id'
    · simp [hacq, hrel] at h
    · simpa [hacq, hrel] using h
  · simp [hacq] at h

theorem acquired_of_act {e : Event} {type : LockType} {id : ℕ} (h : e.acquired type = some id) :
    e.act type = .acquired id := by
  simp [Event.act, h]

/-- What a call does to a lock that is on a lease: the lease goes on, or it is released, or it had
run out. -/
theorem step_of_isLocked (m : LockManager) (now : ℤ) (c : Call) {type : LockType}
    (hlocked : (m.lock type).isLocked = true) :
    (((step m now c).1.lock type).isLocked = true ∧
      ((step m now c).1.lock type).leaseId = (m.lock type).leaseId ∧
      (event m now c).acquired type = none) ∨
    (event m now c).released type = some (m.lock type).leaseId ∨
    (m.lock type).expiryTime ≤ now := by
  have hmoves := step_moves m now c type
  have hover : (m.lock type).expired now = true → (m.lock type).expiryTime ≤ now := by
    simp [LockState.expired, hlocked]
  have hnot (h : (event m now c).act type = .none) : (event m now c).acquired type = none := by
    rcases hacq : (event m now c).acquired type with _ | id
    · rfl
    · rw [acquired_of_act hacq] at h
      cases h
  generalize hst : m.lock type = st at hmoves hlocked hover ⊢
  generalize (step m now c).1.lock type = st' at hmoves ⊢
  generalize hact : (event m now c).act type = act at hmoves
  cases hmoves with
  | keep => exact .inl ⟨hlocked, rfl, hnot hact⟩
  | reap hexp => exact .inr (.inr (hover hexp))
  | extend _ _ _ _ => exact .inl ⟨hlocked, rfl, hnot hact⟩
  | release _ _ _ => exact .inr (.inl (released_of_act hact))
  | acquire _ hfree =>
    rw [hlocked] at hfree
    cases hfree
  | takeOver _ hexp => exact .inr (.inr (hover hexp))

/-- A lock on a lease is acquired again only after a release of that lease, or after its time has
run out. -/
theorem ended_of_acquired (type : LockType) (id : ℕ) (m : LockManager) (calls : List (ℤ × Call))
    (hlocked : (m.lock type).isLocked = true) (hid : (m.lock type).leaseId = id)
    {mid post : List Event} {e : Event} {id' : ℕ} (htrace : trace m calls = mid ++ e :: post)
    (hacq : e.acquired type = some id') :
    (∃ e' ∈ mid, e'.released type = some id) ∨
      ∃ e' ∈ mid ++ [e], (e'.found.lock type).isLocked = true ∧
        (e'.found.lock type).leaseId = id ∧ (e'.found.lock type).expiryTime ≤ e'.now := by
  -- by induction on what lies between: each call keeps the lease, or is the end that is asked for
  induction mid generalizing m calls with
  | nil =>
    rcases calls with _ | ⟨c, calls⟩
    · cases htrace
    rw [trace_cons] at htrace
    obtain ⟨rfl, -⟩ := List.cons.inj htrace
    rcases step_of_isLocked m c.1 c.2 hlocked with ⟨-, -, hnone⟩ | hrel | hover
    · rw [hacq] at hnone
      cases hnone
    · -- one call does not both release and acquire
      rcases hc : c.2 with _ | _ | _ | _ <;>
        simp [event, step, hc, Event.acquired, Event.released] at hacq hrel
    · exact .inr ⟨event m c.1 c.2, by simp, hlocked, hid, hover⟩
  | cons e₀ mid ih =>
    rcases calls with _ | ⟨c, calls⟩
    · cases htrace
    rw [trace_cons, List.cons_append] at htrace
    obtain ⟨rfl, hrest⟩ := List.cons.inj htrace
    rcases step_of_isLocked m c.1 c.2 hlocked with ⟨hlocked', hid', -⟩ | hrel | hover
    · refine (ih _ calls hlocked' (hid'.trans hid) hrest).imp ?_ ?_
      · rintro ⟨e', hmem, hrel⟩
        exact ⟨e', List.mem_cons_of_mem _ hmem, hrel⟩
      · rintro ⟨e', hmem, hend⟩
        exact ⟨e', List.mem_cons_of_mem _ hmem, hend⟩
    · exact .inl ⟨event m c.1 c.2, List.mem_cons_self, hid ▸ hrel⟩
    · exact .inr ⟨event m c.1 c.2, List.mem_cons_self, hlocked, hid, hover⟩

/-- An acquire leaves the lock on the lease it hands out. -/
theorem lock_of_acquired {m : LockManager} {now : ℤ} {c : Call} {type : LockType} {id : ℕ}
    (hacq : (event m now c).acquired type = some id) :
    ((step m now c).1.lock type).isLocked = true ∧ ((step m now c).1.lock type).leaseId = id := by
  have hmoves := acquired_of_act hacq ▸ step_moves m now c type
  generalize m.lock type = st at hmoves
  generalize (step m now c).1.lock type = st' at hmoves ⊢
  cases hmoves with
  | acquire _ _ => exact ⟨rfl, rfl⟩
  | takeOver _ _ => exact ⟨rfl, rfl⟩

/-- Between two acquires of one lock there is an end of the first lease. -/
theorem ended_between (type : LockType) (m : LockManager) (calls : List (ℤ × Call))
    {pre mid post : List Event} {e₁ e₂ : Event} {id₁ id₂ : ℕ}
    (htrace : trace m calls = pre ++ e₁ :: (mid ++ e₂ :: post))
    (hacq₁ : e₁.acquired type = some id₁) (hacq₂ : e₂.acquired type = some id₂) :
    (∃ e ∈ mid, e.released type = some id₁) ∨
      ∃ e ∈ mid ++ [e₂], (e.found.lock type).isLocked = true ∧
        (e.found.lock type).leaseId = id₁ ∧ (e.found.lock type).expiryTime ≤ e.now := by
  induction pre generalizing m calls with
  | nil =>
    rcases calls with _ | ⟨c, calls⟩
    · cases htrace
    rw [trace_cons] at htrace
    obtain ⟨rfl, hrest⟩ := List.cons.inj htrace
    obtain ⟨hlocked, hid⟩ := lock_of_acquired hacq₁
    exact ended_of_acquired type id₁ _ calls hlocked hid hrest hacq₂
  | cons e₀ pre ih =>
    rcases calls with _ | ⟨c, calls⟩
    · cases htrace
    rw [trace_cons, List.cons_append] at htrace
    exact ih _ calls (List.cons.inj htrace).2

/-! ### Runs: the count -/

/-- One if a lock is on a lease. -/
def LockState.onLease (st : LockState) : ℕ := if st.isLocked then 1 else 0

/-- How many leases of a lock a run has started. -/
def acquires (type : LockType) (es : List Event) : ℕ := es.countP fun e => (e.acquired type).isSome

/-- How many leases of a lock a run has released. -/
def releases (type : LockType) (es : List Event) : ℕ := es.countP fun e => (e.released type).isSome

/-- How many leases a run has started. -/
def handedOut (es : List Event) : ℕ := (es.filterMap Event.handedOut).length

theorem acquires_le_handedOut (type : LockType) (es : List Event) :
    acquires type es ≤ handedOut es := by
  unfold acquires handedOut
  rw [List.length_filterMap_eq_countP]
  refine List.countP_mono_left ?_
  intro e _ h
  obtain ⟨found, now, call, answer⟩ := e
  rcases call with _ | _ | _ | _ <;> rcases answer with (_ | _ | _) | _ | _ | _ <;>
    simp_all [Event.acquired, Event.handedOut]

/-- One call keeps the balance of started and ended leases, while the count of those that ran out
has room. -/
theorem step_balance (m : LockManager) (now : ℤ) (c : Call) (type : LockType)
    (hroom : (m.lock type).expiredLeaseCount + (m.lock type).onLease < 2 ^ 64) :
    releases type [event m now c] + ((step m now c).1.lock type).expiredLeaseCount +
        ((step m now c).1.lock type).onLease =
      acquires type [event m now c] + (m.lock type).expiredLeaseCount + (m.lock type).onLease := by
  have hmoves := step_moves m now c type
  have hacq : acquires type [event m now c] =
      match (event m now c).act type with | .acquired _ => 1 | _ => 0 := by
    unfold acquires Event.act
    rcases ha : (event m now c).acquired type with _ | id
    · rcases (event m now c).released type with _ | id <;> simp [ha]
    · simp [ha]
  have hrel : releases type [event m now c] =
      match (event m now c).act type with | .released _ => 1 | _ => 0 := by
    have hone : (event m now c).acquired type = none ∨ (event m now c).released type = none := by
      rcases c with _ | _ | _ | _ <;> simp [event, step, Event.acquired, Event.released]
    unfold releases Event.act
    rcases hone with hone | hone
    · rcases hr : (event m now c).released type with _ | id <;> simp [hone, hr]
    · rcases (event m now c).acquired type with _ | id <;> simp [hone]
  rw [hacq, hrel]
  have hsucc (n : ℕ) (h : n + 1 < 2 ^ 64) : succU 64 n = n + 1 := succU_of_lt h
  generalize m.lock type = st at hmoves hroom ⊢
  generalize (step m now c).1.lock type = st' at hmoves ⊢
  generalize (event m now c).act type = act at hmoves ⊢
  have hexpired (hexp : st.expired now = true) : st.isLocked = true := by
    simp only [LockState.expired, Bool.and_eq_true] at hexp
    exact hexp.1
  cases hmoves with
  | keep => rfl
  | reap hexp =>
    have hlocked := hexpired hexp
    simp only [LockState.onLease, hlocked, if_true] at hroom ⊢
    simp only [LockState.reaped, hsucc _ hroom]
    simp
  | extend _ _ _ _ => rfl
  | release _ hlocked _ =>
    simp only [LockState.onLease, hlocked, if_true]
    simp
    omega
  | acquire _ hfree =>
    simp only [LockState.onLease, hfree, LockState.taken]
    simp
    omega
  | takeOver _ hexp =>
    have hlocked := hexpired hexp
    simp only [LockState.onLease, hlocked, if_true] at hroom ⊢
    simp only [LockState.reaped, LockState.taken, hsucc _ hroom]
    simp
    omega

/-- A run keeps the balance. -/
theorem run_balance (m : LockManager) (calls : List (ℤ × Call)) (type : LockType)
    (hroom : (m.lock type).expiredLeaseCount + (m.lock type).onLease +
      acquires type (trace m calls) < 2 ^ 64) :
    releases type (trace m calls) + ((final m calls).lock type).expiredLeaseCount +
        ((final m calls).lock type).onLease =
      acquires type (trace m calls) + (m.lock type).expiredLeaseCount + (m.lock type).onLease := by
  induction calls generalizing m with
  | nil => rfl
  | cons c calls ih =>
    have hsplit (es : List Event) (e : Event) :
        acquires type (e :: es) = acquires type [e] + acquires type es ∧
          releases type (e :: es) = releases type [e] + releases type es := by
      simp [acquires, releases, List.countP_cons, Nat.add_comm]
    obtain ⟨hacq, hrel⟩ := hsplit (trace (step m c.1 c.2).1 calls) (event m c.1 c.2)
    rw [trace_cons, hacq] at hroom
    rw [trace_cons, final_cons, hacq, hrel]
    have hstep := step_balance m c.1 c.2 type (by omega)
    have hrest := ih (step m c.1 c.2).1 (by omega)
    omega

/-! ### Exclusive leases -/

/-- **Leases are exclusive.**  In every run of calls, whatever the clock does: while fewer than
2 ^ 64 leases have been started their ids grow over all locks; between two acquires of one lock
the first lease was released or its time had run out; naming another lease than the live one
changes nothing; and each lock's leases are accounted for, where a lease that has run out counts
as held until some call ends it. -/
theorem run_leases (requireLeaseId : Bool) (calls : List (ℤ × Call)) :
    (handedOut (trace { requireLeaseId } calls) < 2 ^ 64 →
      ((trace { requireLeaseId } calls).filterMap Event.handedOut).Pairwise (· < ·)) ∧
    (∀ type pre mid post e₁ e₂ id₁ id₂,
      trace { requireLeaseId } calls = pre ++ e₁ :: (mid ++ e₂ :: post) →
      e₁.acquired type = some id₁ → e₂.acquired type = some id₂ →
      (∃ e ∈ mid, e.released type = some id₁) ∨
        ∃ e ∈ mid ++ [e₂], (e.found.lock type).isLocked = true ∧
          (e.found.lock type).leaseId = id₁ ∧ (e.found.lock type).expiryTime ≤ e.now) ∧
    (∀ e ∈ trace { requireLeaseId } calls, ∀ name id type,
      (e.call = .release name id ∨ ∃ ttl, e.call = .renewLease name ttl id) →
      stringToLockType name = some type → id ≠ 0 → id ≠ (e.found.lock type).leaseId →
      (e.found.lock type).isLocked = true → e.now < (e.found.lock type).expiryTime →
      (step e.found e.now e.call).1 = e.found) ∧
    (handedOut (trace { requireLeaseId } calls) < 2 ^ 64 → ∀ type,
      acquires type (trace { requireLeaseId } calls) =
        releases type (trace { requireLeaseId } calls) +
          ((final { requireLeaseId } calls).lock type).expiredLeaseCount +
          ((final { requireLeaseId } calls).lock type).onLease) := by
  refine ⟨?_, ?_, ?_, ?_⟩
  · intro hroom
    have hone : ({ requireLeaseId } : LockManager).nextLeaseId = 1 := rfl
    rw [handedOut_trace { requireLeaseId } calls (by rw [hone]; exact Nat.add_comm _ _ ▸ hroom)]
    exact List.pairwise_lt_range'
  · intro type pre mid post e₁ e₂ id₁ id₂ htrace hacq₁ hacq₂
    exact ended_between type _ calls htrace hacq₁ hacq₂
  · intro e _ name id type hcall hname hzero hne _ hlive
    rcases hcall with hcall | ⟨ttl, hcall⟩
    · rw [hcall]
      exact onLease_of_ne e.found _ hname hlive hzero hne
    · rw [hcall]
      exact onLease_of_ne e.found _ hname hlive hzero hne
  · intro hroom type
    have hle := acquires_le_handedOut type (trace { requireLeaseId } calls)
    have hfree : (({ requireLeaseId } : LockManager).lock type) = {} := rfl
    have hbal := run_balance { requireLeaseId } calls type
      (by rw [hfree]; simp only [LockState.onLease]; simp; omega)
    rw [hfree] at hbal
    simp only [LockState.onLease] at hbal ⊢
    simpa using hbal.symm

/-- A lease taken, a release that names another one, and the lock taken over when its time has run
out. -/
def takenOver : List (ℤ × Call) :=
  [(0, .acquireLock "graph_lock" 5), (seconds 1, .release "graph_lock" 7),
    (seconds 6, .acquireLock "graph_lock" 5)]

theorem run_leases_takenOver :
    (handedOut (trace {} takenOver) < 2 ^ 64 ∧
      ((trace {} takenOver).filterMap Event.handedOut).Pairwise (· < ·)) ∧
    (∃ pre e₁ mid e₂ post, trace {} takenOver = pre ++ e₁ :: (mid ++ e₂ :: post) ∧
      e₁.acquired .graph = some 1 ∧ e₂.acquired .graph = some 2 ∧
      ((∃ e ∈ mid, e.released .graph = some 1) ∨
        ∃ e ∈ mid ++ [e₂], (e.found.lock .graph).isLocked = true ∧
          (e.found.lock .graph).leaseId = 1 ∧ (e.found.lock .graph).expiryTime ≤ e.now)) ∧
    (∃ e ∈ trace {} takenOver, e.call = .release "graph_lock" 7 ∧
      (e.found.lock .graph).leaseId = 1 ∧ (step e.found e.now e.call).1 = e.found) ∧
    acquires .graph (trace {} takenOver) =
      releases .graph (trace {} takenOver) +
        ((final {} takenOver).lock .graph).expiredLeaseCount +
        ((final {} takenOver).lock .graph).onLease := by
  obtain ⟨hids, hends, hnames, hcount⟩ := run_leases false takenOver
  have hroom : handedOut (trace {} takenOver) < 2 ^ 64 := by decide
  refine ⟨⟨hroom, hids hroom⟩, ?_, ?_, hcount hroom .graph⟩
  · exact ⟨[], _, [_], _, [], rfl, rfl, rfl,
      hends .graph [] [_] [] _ _ 1 2 rfl rfl rfl⟩
  · refine ⟨_, List.mem_cons_of_mem _ List.mem_cons_self, rfl, rfl, ?_⟩
    exact hnames _ (List.mem_cons_of_mem _ List.mem_cons_self) "graph_lock" 7 .graph (.inl rfl)
      rfl (by decide) (by decide) rfl (by decide)

/-! ### The last id, and what a read counts -/

/-- One lease of a second after another. -/
def everySecond (now : ℤ) : ℕ → List (ℤ × Call)
  | 0 => []
  | n + 1 => (now, .acquireLock "graph_lock" 1) :: everySecond (now + seconds 1) n

theorem le_of_mem_everySecond {now : ℤ} {n : ℕ} {c : ℤ × Call} (h : c ∈ everySecond now n) :
    now ≤ c.1 := by
  induction n generalizing now with
  | zero => cases h
  | succ n ih =>
    rcases List.mem_cons.mp h with rfl | h
    · exact Int.le_refl now
    · have := ih h
      simp only [seconds] at this
      omega

theorem pairwise_everySecond (now : ℤ) (n : ℕ) :
    (everySecond now n).Pairwise fun c c' => c.1 ≤ c'.1 := by
  induction n generalizing now with
  | zero => exact .nil
  | succ n ih =>
    refine .cons ?_ (ih _)
    intro c hc
    have := le_of_mem_everySecond hc
    simp only [seconds] at this
    show now ≤ c.1
    omega

/-- The ids that are handed out one after another begin again after the last number. -/
theorem handedOut_everySecond (m : LockManager) (now : ℤ) (n : ℕ)
    (hfree : (m.lock .graph).isLocked = true → (m.lock .graph).expiryTime ≤ now)
    (hnext : m.nextLeaseId < 2 ^ 64) :
    (trace m (everySecond now n)).filterMap Event.handedOut =
      (List.range n).map fun i => (m.nextLeaseId + i) % 2 ^ 64 := by
  induction n generalizing m now with
  | zero => rfl
  | succ n ih =>
    have hname : stringToLockType "graph_lock" = some .graph := by decide
    have hacq : ∃ st reclaimed, acquireLock m now "graph_lock" 1 =
        ({ m.put .graph (LockState.taken st now 1 m.nextLeaseId) with
            nextLeaseId := succU 64 m.nextLeaseId }, .taken m.nextLeaseId reclaimed) := by
      rcases acquireLock_cases m now 1 hname with ⟨hlocked, hexp, -⟩ | ⟨-, heq⟩ | ⟨-, heq⟩
      · have := lt_of_isLocked hlocked hexp
        have := hfree hlocked
        omega
      · exact ⟨_, _, heq⟩
      · exact ⟨_, _, heq⟩
    obtain ⟨st, reclaimed, heq⟩ := hacq
    have hstep : step m now (.acquireLock "graph_lock" 1) =
        ({ m.put .graph (LockState.taken st now 1 m.nextLeaseId) with
            nextLeaseId := succU 64 m.nextLeaseId },
          .acquired (.taken m.nextLeaseId reclaimed)) := by
      simp only [step, heq]
    have hhanded : (event m now (.acquireLock "graph_lock" 1)).handedOut = some m.nextLeaseId := by
      simp only [event, hstep, Event.handedOut]
    show (trace m ((now, .acquireLock "graph_lock" 1) :: everySecond (now + seconds 1) n)).filterMap
      Event.handedOut = _
    rw [trace_cons, List.filterMap_cons_some hhanded, hstep]
    rw [ih _ (now + seconds 1) ?_ (Nat.mod_lt _ (by decide))]
    · rw [List.range_succ_eq_map, List.map_cons, List.map_map]
      congr 1
      · exact (Nat.mod_eq_of_lt hnext).symm
      · refine List.map_congr_left ?_
        intro i _
        show ((m.nextLeaseId + 1) % 2 ^ 64 + i) % 2 ^ 64 = (m.nextLeaseId + (i + 1)) % 2 ^ 64
        omega
    · intro _
      exact Int.le_of_eq (congrArg LockState.expiryTime (lock_put_self m .graph _))

/-- Counted up to its size, a word of numbers begins again. -/
theorem not_pairwise_mod {size : ℕ} (hsize : 1 < size) :
    ¬((List.range size).map fun i => (1 + i) % size).Pairwise (· < ·) := by
  intro h
  rw [List.pairwise_iff_getElem] at h
  have hlt := h 0 (size - 1) (by simp; omega) (by simp; omega) (by omega)
  simp only [List.getElem_map, List.getElem_range] at hlt
  rw [show 1 + (size - 1) = size by omega, Nat.mod_self] at hlt
  exact absurd hlt (by omega)

/-- A clock that does not go back is not enough: after 2 ^ 64 leases the ids begin again, and a
lease that has run out reads as neither held nor expired until a call ends it. -/
theorem run_leases_limits :
    (∃ calls : List (ℤ × Call), calls.Pairwise (fun c c' => c.1 ≤ c'.1) ∧
      ¬((trace {} calls).filterMap Event.handedOut).Pairwise (· < ·)) ∧
    (∃ calls : List (ℤ × Call), calls.Pairwise (fun c c' => c.1 ≤ c'.1) ∧
      ∃ s, (trace {} calls).getLast?.map Event.answer = some (.read s) ∧
        acquires .graph (trace {} calls) ≠
          releases .graph (trace {} calls) + s.expiredLeaseCount + if s.held then 1 else 0) := by
  constructor
  · refine ⟨everySecond 0 (2 ^ 64), pairwise_everySecond 0 _, ?_⟩
    have hfree : (({} : LockManager).lock .graph).isLocked = true →
        (({} : LockManager).lock .graph).expiryTime ≤ 0 := by
      intro h
      cases h
    rw [handedOut_everySecond {} 0 (2 ^ 64) hfree (by decide)]
    exact not_pairwise_mod (by decide)
  · refine ⟨[(0, .acquireLock "graph_lock" 5), (seconds 10, .snapshot "graph_lock")],
      by simp [seconds], _, rfl, by decide⟩

end NDTwin.Locks
