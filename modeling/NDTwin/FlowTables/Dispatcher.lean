import NDTwin.FlowTables.Batch
import NDTwin.Lib.Machine

/-!
# The dispatcher

Jobs that have been accepted are queued by switch, and every switch has a thread that takes bursts
off its queue and hands them to the sender.  A thread is made when the first job for its switch is
queued.  One mutex guards the queues, the map of the threads and the running flag; a thread with
nothing to do sleeps on a condition variable.  `stop()` clears the flag, takes the threads out of
the map, wakes them all and waits for them.

What is done under the mutex is one step here.  A notification is a step of its own, after the
mutex has been let go of, and a thread that sleeps may also wake for no reason.  Any number of
callers are in the middle of their calls at a time.

## Main definitions

* `Worker`, `StopAt`, `System` — the threads, the call of `stop()`, and all of it together.
* `fillBurst`, `enqueueJobs`, `workerLock`, `workerSend` — what is done.
* `Label`, `step` — the steps of every party.
* `Delivered` — what has been sent, is in hand and is queued is what was accepted.

## Main results

* `step_inv`, `run_inv` — the invariant of the queues, the threads and the map.
* `run_delivered` — **every switch is sent the jobs accepted for it, in order and once, in bursts,
  and all of them when `stop()` returns; the jobs refused are counted, in 64 bits.**
* `stop_returns` — **once `stop()` has been called it can always return, without a spurious wakeup
  and without another call.**
* `refused_not_counted` — after `2 ^ 64` refusals the count is zero.
-/

namespace NDTwin.Dispatcher

open FlowTables (FlowJob)

variable {F : Type}

/-! ### The parties -/

/-- Where a thread is in `workerLoop_`. -/
inductive WorkerAt where
  /-- It is about to take the mutex and look whether there is something to do. -/
  | atLock
  /-- It waits for a notification. -/
  | asleep
  /-- It has let go of the mutex, with a burst. -/
  | unlocked
  /-- It has left the loop. -/
  | left
  deriving DecidableEq, Repr

/-- A thread, with the variables of `workerLoop_(dpid)`.  The burst is cleared only when the next
one is taken. -/
structure Worker (F : Type) where
  dpid : ℕ
  place : WorkerAt := .atLock
  burst : List (FlowJob F) := []

/-- Where the call of `stop()` is, with the threads it has taken out of the map. -/
inductive StopAt where
  | notCalled
  | unlocked (toJoin : List ℕ)
  | joining (toJoin : List ℕ)
  | returned
  deriving DecidableEq, Repr

/-- The dispatcher, its threads, the callers and what they have seen. -/
structure System (F : Type) where
  burstSize : ℕ
  running : Bool := false
  queues : ℕ → List (FlowJob F) := fun _ => []
  /-- The map of the threads: a dpid, and which thread it is. -/
  workers : List (ℕ × ℕ) := []
  droppedAfterStop : ℕ := 0
  threads : List (Worker F) := []
  /-- The calls of `enqueue` that have let go of the mutex and not yet notified. -/
  notifying : ℕ := 0
  stopAt : StopAt := .notCalled
  /-- The jobs accepted, in the order of the calls. -/
  accepted : List (FlowJob F) := []
  /-- The jobs refused. -/
  refused : ℕ := 0
  /-- The bursts the sender was called with, each with the switch whose thread called it. -/
  sent : List (ℕ × List (FlowJob F)) := []

/-- After `start()`. -/
def started (burstSize : ℕ) : System F where
  burstSize := burstSize
  running := true

/-! ### What is done -/

/-- A thread as it begins. -/
def newWorker (dpid : ℕ) : Worker F := { dpid := dpid }

/-- A thread for a switch, if it has none. -/
def spawnWorker (s : System F) (dpid : ℕ) : System F :=
  if (s.workers.lookup dpid).isSome then s
  else { s with
    workers := s.workers ++ [(dpid, s.threads.length)]
    threads := s.threads ++ [newWorker dpid] }

/-- A job at the end of its queue, and a thread for it. -/
def enqueueJob (s : System F) (job : FlowJob F) : System F :=
  spawnWorker { s with queues := Function.update s.queues job.dpid (s.queues job.dpid ++ [job]) }
    job.dpid

/-- `enqueue(jobs)` under the mutex, and `enqueue(job)` for a single one.  Once stopped it refuses,
and does not notify. -/
def enqueueJobs (s : System F) (jobs : List (FlowJob F)) : System F :=
  if !s.running then
    { s with
      droppedAfterStop := (s.droppedAfterStop + jobs.length) % 2 ^ 64
      refused := s.refused + jobs.length }
  else
    let s := jobs.foldl enqueueJob s
    { s with notifying := s.notifying + 1, accepted := s.accepted ++ jobs }

/-- `cv_.notify_all()`. -/
def notifyAll (s : System F) : System F :=
  { s with threads := s.threads.map fun w =>
      if w.place = .asleep then { w with place := .atLock } else w }

/-- The loop that fills a burst: the burst, and what is left in the queue. -/
def fillBurst (burstSize : ℕ) : List (FlowJob F) → List (FlowJob F) →
    List (FlowJob F) × List (FlowJob F)
  | [], burst => (burst, [])
  | job :: queue, burst =>
    if burst.length < burstSize then fillBurst burstSize queue (burst ++ [job])
    else (burst, job :: queue)

/-- What a thread does under the mutex: it goes to sleep, leaves, or takes a burst. -/
def workerLock (s : System F) (t : ℕ) (w : Worker F) : System F :=
  if s.running && (s.queues w.dpid).isEmpty then
    { s with threads := s.threads.set t { w with place := .asleep } }
  else if !s.running && (s.queues w.dpid).isEmpty then
    { s with threads := s.threads.set t { w with place := .left } }
  else
    let filled := fillBurst s.burstSize (s.queues w.dpid) []
    { s with
      threads := s.threads.set t { w with place := .unlocked, burst := filled.1 }
      queues := Function.update s.queues w.dpid filled.2 }

/-- What a thread does after it has let go of the mutex: it sends what it took. -/
def workerSend (s : System F) (t : ℕ) (w : Worker F) : System F :=
  { s with
    threads := s.threads.set t { w with place := .atLock }
    sent := if w.burst.isEmpty then s.sent else s.sent ++ [(w.dpid, w.burst)] }

/-- `stop()` under the mutex. -/
def stopUnderLock (s : System F) : System F :=
  { s with running := false, workers := [], stopAt := .unlocked (s.workers.map Prod.snd) }

/-! ### The steps -/

/-- A step of one of the parties. -/
inductive Label (F : Type) where
  | enqueue (jobs : List (FlowJob F))
  | notify
  | lock (t : ℕ)
  | wake (t : ℕ)
  | send (t : ℕ)
  | stop
  | stopNotify
  | join
  | stopReturn

/-- What is done with a thread, if there is one and it is at a place. -/
def ofThread (s : System F) (t : ℕ) (place : WorkerAt) (f : Worker F → System F) :
    Option (System F) :=
  match s.threads[t]? with
  | some w => if w.place = place then some (f w) else none
  | none => none

/-- One step, if it is possible. -/
def step (s : System F) : Label F → Option (System F)
  | .enqueue jobs => some (enqueueJobs s jobs)
  | .notify =>
    if s.notifying = 0 then none else some { notifyAll s with notifying := s.notifying - 1 }
  | .lock t => ofThread s t .atLock (workerLock s t)
  | .wake t => ofThread s t .asleep fun w =>
      { s with threads := s.threads.set t { w with place := .atLock } }
  | .send t => ofThread s t .unlocked (workerSend s t)
  | .stop => if s.stopAt = .notCalled then some (stopUnderLock s) else none
  | .stopNotify =>
    match s.stopAt with
    | .unlocked toJoin => some { notifyAll s with stopAt := .joining toJoin }
    | _ => none
  | .join =>
    match s.stopAt with
    | .joining (t :: toJoin) => ofThread s t .left fun _ => { s with stopAt := .joining toJoin }
    | _ => none
  | .stopReturn =>
    match s.stopAt with
    | .joining [] => some { s with stopAt := .returned }
    | _ => none

/-! ### What has become of the jobs -/

/-- What a thread has in hand. -/
def Worker.inHand (w : Worker F) : List (FlowJob F) := if w.place = .unlocked then w.burst else []

/-- What the threads of a switch have in hand. -/
def inHandOf (threads : List (Worker F)) (dpid : ℕ) : List (FlowJob F) :=
  threads.flatMap fun w => if w.dpid = dpid then w.inHand else []

/-- What a switch has been sent. -/
def System.sentTo (s : System F) (dpid : ℕ) : List (FlowJob F) :=
  s.sent.flatMap fun b => if b.1 = dpid then b.2 else []

/-- What was accepted for a switch. -/
def System.acceptedFor (s : System F) (dpid : ℕ) : List (FlowJob F) :=
  s.accepted.filter fun job => job.dpid = dpid

/-- A burst for a switch: not empty, not too long, and of jobs for it. -/
structure IsBurst (burstSize dpid : ℕ) (burst : List (FlowJob F)) : Prop where
  nonempty : burst ≠ []
  length_le : burst.length ≤ burstSize
  dpid_eq : ∀ job ∈ burst, job.dpid = dpid

/-! ### Threads -/

theorem inHandOf_append (threads threads' : List (Worker F)) (dpid : ℕ) :
    inHandOf (threads ++ threads') dpid = inHandOf threads dpid ++ inHandOf threads' dpid :=
  List.flatMap_append

/-- Threads of other switches have nothing in hand for a switch. -/
theorem inHandOf_eq_nil {threads : List (Worker F)} {dpid : ℕ}
    (h : dpid ∉ threads.map Worker.dpid) : inHandOf threads dpid = [] := by
  refine List.flatMap_eq_nil_iff.mpr fun w hw => if_neg ?_
  rintro rfl
  exact h (List.mem_map_of_mem hw)

section SetThread

variable {threads : List (Worker F)} {t : ℕ} {w w' : Worker F}
  (hdistinct : (threads.map Worker.dpid).Nodup) (ht : threads[t]? = some w)
include ht

theorem dpids_set (hdpid : w'.dpid = w.dpid) :
    (threads.set t w').map Worker.dpid = threads.map Worker.dpid := by
  obtain ⟨hlt, hw⟩ := List.getElem?_eq_some_iff.mp ht
  rw [List.map_set, hdpid, ← hw]
  refine List.ext_getElem (by simp) ?_
  intro i hi _
  rw [List.getElem_set]
  split
  · next heq => simp [heq]
  · rfl

include hdistinct

/-- What the thread of a switch has in hand is all that is in hand for the switch. -/
theorem inHandOf_set (hdpid : w'.dpid = w.dpid) (dpid : ℕ) :
    inHandOf (threads.set t w') dpid =
      if w.dpid = dpid then w'.inHand else inHandOf threads dpid := by
  obtain ⟨hlt, hw⟩ := List.getElem?_eq_some_iff.mp ht
  obtain ⟨before, after, hthreads, -, hset⟩ : ∃ before after, threads = before ++ threads[t] :: after ∧
      before.length = t ∧ threads.set t w' = before ++ w' :: after := List.exists_of_set hlt
  rw [hw] at hthreads
  rw [hthreads, List.map_append, List.map_cons, List.nodup_middle, List.nodup_cons] at hdistinct
  obtain ⟨hother, -⟩ := hdistinct
  rw [List.mem_append, not_or] at hother
  have hmid (w : Worker F) : inHandOf (before ++ w :: after) dpid =
      inHandOf before dpid ++ (if w.dpid = dpid then w.inHand else []) ++ inHandOf after dpid := by
    rw [inHandOf_append, List.append_assoc]
    rfl
  rw [hset, hthreads, hmid, hmid, hdpid]
  by_cases hd : w.dpid = dpid
  · subst hd
    rw [inHandOf_eq_nil hother.1, inHandOf_eq_nil hother.2]
    simp
  · simp [hd]

theorem inHandOf_self : inHandOf threads w.dpid = w.inHand := by
  have hset : inHandOf (threads.set t w) w.dpid = w.inHand :=
    (inHandOf_set hdistinct ht rfl w.dpid).trans (if_pos rfl)
  rw [← hset]
  obtain ⟨hlt, hw⟩ := List.getElem?_eq_some_iff.mp ht
  rw [← hw, List.set_getElem_self]

end SetThread

/-! ### The invariant -/

/-- How far a call of `stop()` has come. -/
def StopInv (s : System F) : StopAt → Prop
  | .notCalled => s.running = true
  | .unlocked toJoin => s.running = false ∧ ∀ t, t < s.threads.length ↔ t ∈ toJoin
  | .joining toJoin => s.running = false ∧ (∀ t ∈ toJoin, t < s.threads.length) ∧
      (∀ t w, s.threads[t]? = some w → t ∈ toJoin ∨ w.place = .left) ∧
      ∀ w ∈ s.threads, w.place ≠ .asleep
  | .returned => s.running = false ∧ ∀ w ∈ s.threads, w.place = .left

/-- Threads may move on during a call of `stop()`, but one that has left stays there, and none goes
to sleep any more. -/
theorem StopInv.mono {s s' : System F} {stopAt : StopAt} (h : StopInv s stopAt)
    (hrunning : s'.running = s.running) (hlength : s'.threads.length = s.threads.length)
    (hplace : ∀ (t : ℕ) (v' : Worker F), s'.threads[t]? = some v' → ∃ v, s.threads[t]? = some v ∧
      (v.place = .left → v'.place = .left) ∧
      (v'.place = .asleep → v.place = .asleep ∨ s.running = true)) :
    StopInv s' stopAt := by
  cases stopAt with
  | notCalled => exact hrunning.trans h
  | unlocked toJoin =>
    refine ⟨hrunning.trans h.1, ?_⟩
    intro t
    rw [hlength]
    exact h.2 t
  | joining toJoin =>
    obtain ⟨hstopped, hbound, hjoin, hawake⟩ := h
    refine ⟨hrunning.trans hstopped, ?_, ?_, ?_⟩
    · intro t ht
      rw [hlength]
      exact hbound t ht
    · intro t v' hv'
      obtain ⟨v, hv, hleft, -⟩ := hplace t v' hv'
      exact (hjoin t v hv).imp_right hleft
    · intro v' hv' hasleep
      obtain ⟨t, ht⟩ := List.mem_iff_getElem?.mp hv'
      obtain ⟨v, hv, -, hwas⟩ := hplace t v' ht
      rcases hwas hasleep with hwas | hwas
      · exact hawake v (List.mem_of_getElem? hv) hwas
      · rw [hstopped] at hwas
        cases hwas
  | returned =>
    refine ⟨hrunning.trans h.1, ?_⟩
    intro v' hv'
    obtain ⟨t, ht⟩ := List.mem_iff_getElem?.mp hv'
    obtain ⟨v, hv, hleft, -⟩ := hplace t v' ht
    exact hleft (h.2 v (List.mem_of_getElem? hv))

/-- **The invariant of the dispatcher.** -/
structure Inv (s : System F) : Prop where
  /-- What was accepted for a switch is what it was sent, what is in hand and what is queued. -/
  order : ∀ d, s.sentTo d ++ inHandOf s.threads d ++ s.queues d = s.acceptedFor d
  queued : ∀ d, ∀ job ∈ s.queues d, job.dpid = d
  sent : ∀ b ∈ s.sent, IsBurst s.burstSize b.1 b.2
  hand : ∀ w ∈ s.threads, w.place = .unlocked → IsBurst s.burstSize w.dpid w.burst
  /-- No switch has two threads, and one with jobs has one. -/
  distinct : (s.threads.map Worker.dpid).Nodup
  served : ∀ d, s.queues d ≠ [] → d ∈ s.threads.map Worker.dpid
  /-- A thread leaves when nothing can come any more. -/
  left : ∀ w ∈ s.threads, w.place = .left → s.running = false ∧ s.queues w.dpid = []
  mapped : s.running = true → s.workers = (s.threads.map Worker.dpid).zipIdx
  stop : StopInv s s.stopAt
  dropped : s.droppedAfterStop = s.refused % 2 ^ 64

theorem inv_started (burstSize : ℕ) : Inv (started burstSize : System F) where
  order _ := rfl
  queued _ _ := nofun
  sent _ := nofun
  hand _ := nofun
  distinct := List.nodup_nil
  served _ h := absurd rfl h
  left _ := nofun
  mapped _ := rfl
  stop := rfl
  dropped := rfl

/-- One thread, which has not left, moves on, and may take from its queue or add to what was
sent. -/
theorem Inv.setThread {s : System F} (h : Inv s) {t : ℕ} {w : Worker F}
    (ht : s.threads[t]? = some w) (w' : Worker F) (hdpid : w'.dpid = w.dpid)
    (hstays : w.place ≠ .left)
    {queues : ℕ → List (FlowJob F)} {sent : List (ℕ × List (FlowJob F))}
    (horder : ∀ d, { s with sent := sent }.sentTo d ++
      (if w.dpid = d then w'.inHand else inHandOf s.threads d) ++ queues d = s.acceptedFor d)
    (hqueues : ∀ d, queues d ⊆ s.queues d)
    (hsent : ∀ b ∈ sent, b ∈ s.sent ∨ IsBurst s.burstSize b.1 b.2)
    (hhand : w'.place = .unlocked → IsBurst s.burstSize w.dpid w'.burst)
    (hleft : w'.place = .left → s.running = false ∧ queues w.dpid = [])
    (hasleep : w'.place = .asleep → s.running = true) :
    Inv { s with threads := s.threads.set t w', queues := queues, sent := sent } := by
  have hmem {v : Worker F} (hv : v ∈ s.threads.set t w') : v ∈ s.threads ∨ v = w' :=
    List.mem_or_eq_of_mem_set hv
  have hdpids := dpids_set ht hdpid
  have hnil {d : ℕ} (hd : s.queues d = []) : queues d = [] := by
    have hsub := hqueues d
    rw [hd] at hsub
    exact List.subset_nil.mp hsub
  refine ⟨fun d => ?_, fun d job hjob => h.queued d job (hqueues d hjob), fun b hb => ?_,
    fun v hv hplace => ?_, ?_, fun d hd => ?_, fun v hv hplace => ?_, fun hrunning => ?_, ?_,
    h.dropped⟩
  · show _ ++ inHandOf (s.threads.set t w') d ++ _ = _
    rw [inHandOf_set h.distinct ht hdpid]
    exact horder d
  · rcases hsent b hb with hb | hb
    · exact h.sent b hb
    · exact hb
  · rcases hmem hv with hv | rfl
    · exact h.hand v hv hplace
    · exact hdpid ▸ hhand hplace
  · show ((s.threads.set t w').map Worker.dpid).Nodup
    rw [hdpids]
    exact h.distinct
  · show d ∈ (s.threads.set t w').map Worker.dpid
    rw [hdpids]
    exact h.served d fun hd' => hd (hnil hd')
  · rcases hmem hv with hv | rfl
    · obtain ⟨hrunning, hempty⟩ := h.left v hv hplace
      exact ⟨hrunning, hnil hempty⟩
    · rw [hdpid]
      exact hleft hplace
  · show s.workers = ((s.threads.set t w').map Worker.dpid).zipIdx
    rw [hdpids]
    exact h.mapped hrunning
  · refine StopInv.mono h.stop rfl List.length_set ?_
    intro i v hv
    by_cases hi : t = i
    · -- the thread that moves on has not left, and goes to sleep only while the flag is set
      subst hi
      rw [List.getElem?_set_self (List.getElem?_eq_some_iff.mp ht).1, Option.some.injEq] at hv
      subst hv
      exact ⟨w, ht, fun hplace => absurd hplace hstays, fun hplace => .inr (hasleep hplace)⟩
    · rw [List.getElem?_set_ne hi] at hv
      exact ⟨v, hv, id, .inl⟩

/-! ### What each step keeps -/

/-- The loop fills a burst from the front of the queue. -/
theorem fillBurst_append (burstSize : ℕ) (queue burst : List (FlowJob F)) :
    (fillBurst burstSize queue burst).1 ++ (fillBurst burstSize queue burst).2 = burst ++ queue := by
  induction queue generalizing burst with
  | nil => rfl
  | cons job queue ih =>
    rw [fillBurst]
    split
    · rw [ih, List.append_assoc, List.singleton_append]
    · rfl

theorem length_fillBurst_le {burstSize : ℕ} (queue : List (FlowJob F)) {burst : List (FlowJob F)}
    (h : burst.length ≤ burstSize) : (fillBurst burstSize queue burst).1.length ≤ burstSize := by
  induction queue generalizing burst with
  | nil => exact h
  | cons job queue ih =>
    rw [fillBurst]
    split
    · next hlt =>
      refine ih ?_
      rw [List.length_append, List.length_singleton]
      omega
    · exact h

theorem length_le_fillBurst (burstSize : ℕ) (queue burst : List (FlowJob F)) :
    burst.length ≤ (fillBurst burstSize queue burst).1.length := by
  induction queue generalizing burst with
  | nil => exact le_rfl
  | cons job queue ih =>
    rw [fillBurst]
    split
    · have hih := ih (burst ++ [job])
      rw [List.length_append, List.length_singleton] at hih
      omega
    · exact le_rfl

/-- A burst from a queue that is not empty. -/
theorem isBurst_fillBurst {burstSize dpid : ℕ} (hpos : 0 < burstSize) {queue : List (FlowJob F)}
    (hne : queue ≠ []) (hdpid : ∀ job ∈ queue, job.dpid = dpid) :
    IsBurst burstSize dpid (fillBurst burstSize queue []).1 := by
  have happend := fillBurst_append burstSize queue []
  refine ⟨?_, length_fillBurst_le queue (Nat.zero_le _), fun job hjob => hdpid job ?_⟩
  · cases queue with
    | nil => exact absurd rfl hne
    | cons job queue =>
      rw [fillBurst, if_pos (show ([] : List (FlowJob F)).length < burstSize from hpos)]
      have hle := length_le_fillBurst burstSize queue ([] ++ [job])
      intro hnil
      rw [hnil] at hle
      simp at hle
  · rw [List.nil_append] at happend
    rw [← happend]
    exact List.mem_append_left _ hjob

theorem inv_workerLock {s : System F} (h : Inv s) (hpos : 0 < s.burstSize) {t : ℕ} {w : Worker F}
    (ht : s.threads[t]? = some w) (hplace : w.place = .atLock) : Inv (workerLock s t w) := by
  have hhand : w.inHand = [] := by rw [Worker.inHand, hplace, if_neg (by decide)]
  have hstays : w.place ≠ .left := by rw [hplace]; decide
  -- a thread with nothing in hand has nothing in hand after it has gone to sleep or left
  have hkeeps {w' : Worker F} (hdpid : w'.dpid = w.dpid) (hhand' : w'.inHand = []) (d : ℕ) :
      s.sentTo d ++ (if w.dpid = d then w'.inHand else inHandOf s.threads d) ++ s.queues d =
        s.acceptedFor d := by
    rw [← h.order d]
    by_cases hd : w.dpid = d
    · rw [if_pos hd, hhand', ← hd, inHandOf_self h.distinct ht, hhand]
    · rw [if_neg hd]
  unfold workerLock
  by_cases hempty : (s.queues w.dpid).isEmpty = true
  · rcases Bool.eq_false_or_eq_true s.running with hrunning | hrunning
    · rw [if_pos (by simp [hrunning, hempty])]
      exact h.setThread ht { w with place := .asleep } rfl hstays (hkeeps rfl rfl)
        (fun _ => List.Subset.refl _) (fun _ hb => .inl hb) nofun nofun fun _ => hrunning
    · rw [if_neg (by simp [hrunning]), if_pos (by simp [hrunning, hempty])]
      exact h.setThread ht { w with place := .left } rfl hstays (hkeeps rfl rfl)
        (fun _ => List.Subset.refl _) (fun _ hb => .inl hb) nofun
        (fun _ => ⟨hrunning, List.isEmpty_iff.mp hempty⟩) nofun
  · rw [Bool.not_eq_true] at hempty
    rw [hempty, Bool.and_false, Bool.and_false, if_neg Bool.false_ne_true, if_neg Bool.false_ne_true]
    have hne : s.queues w.dpid ≠ [] := by
      intro hnil
      rw [hnil] at hempty
      cases hempty
    have happend := fillBurst_append s.burstSize (s.queues w.dpid) []
    rw [List.nil_append] at happend
    refine h.setThread ht
      { w with place := .unlocked, burst := (fillBurst s.burstSize (s.queues w.dpid) []).1 } rfl hstays
      (fun d => ?_) (fun d => ?_) (fun _ hb => .inl hb)
      (fun _ => isBurst_fillBurst hpos hne (h.queued w.dpid)) nofun nofun
    · rw [← h.order d]
      by_cases hd : w.dpid = d
      · subst hd
        rw [if_pos rfl, Function.update_self, inHandOf_self h.distinct ht, hhand, List.append_nil]
        show s.sentTo w.dpid ++ (fillBurst s.burstSize (s.queues w.dpid) []).1 ++ _ = _
        rw [List.append_assoc, happend]
      · rw [if_neg hd, Function.update_of_ne (Ne.symm hd)]
    · by_cases hd : d = w.dpid
      · subst hd
        rw [Function.update_self]
        conv_rhs => rw [← happend]
        exact List.subset_append_right _ _
      · rw [Function.update_of_ne hd]
        exact List.Subset.refl _

theorem inv_wake {s : System F} (h : Inv s) {t : ℕ} {w : Worker F} (ht : s.threads[t]? = some w)
    (hplace : w.place = .asleep) :
    Inv { s with threads := s.threads.set t { w with place := .atLock } } := by
  have hhand : w.inHand = [] := by rw [Worker.inHand, hplace, if_neg (by decide)]
  have hstays : w.place ≠ .left := by rw [hplace]; decide
  refine h.setThread ht { w with place := .atLock } rfl hstays (fun d => ?_)
    (fun _ => List.Subset.refl _) (fun _ hb => .inl hb) nofun nofun nofun
  rw [← h.order d]
  by_cases hd : w.dpid = d
  · rw [if_pos hd, ← hd, inHandOf_self h.distinct ht, hhand]
    rfl
  · rw [if_neg hd]

theorem inv_workerSend {s : System F} (h : Inv s) {t : ℕ} {w : Worker F}
    (ht : s.threads[t]? = some w) (hplace : w.place = .unlocked) : Inv (workerSend s t w) := by
  have hburst := h.hand w (List.mem_of_getElem? ht) hplace
  have hhand : w.inHand = w.burst := by rw [Worker.inHand, hplace, if_pos rfl]
  have hstays : w.place ≠ .left := by rw [hplace]; decide
  have hne : w.burst.isEmpty = false := by
    rw [← Bool.not_eq_true, List.isEmpty_iff]
    exact hburst.nonempty
  rw [workerSend, hne, if_neg Bool.false_ne_true]
  refine h.setThread ht { w with place := .atLock } rfl hstays (fun d => ?_)
    (fun _ => List.Subset.refl _) (fun b hb => ?_) nofun nofun nofun
  · rw [← h.order d, System.sentTo, List.flatMap_append]
    show (s.sentTo d ++ _) ++ _ ++ _ = _
    by_cases hd : w.dpid = d
    · subst hd
      rw [if_pos rfl, inHandOf_self h.distinct ht, hhand]
      simp [Worker.inHand]
    · simp [hd]
  · rcases List.mem_append.mp hb with hb | hb
    · exact .inl hb
    · obtain rfl := List.mem_singleton.mp hb
      exact .inr hburst

/-- Threads that were asleep are about to look again. -/
theorem inv_notifyAll {s : System F} (h : Inv s) : Inv (notifyAll s) := by
  have hdpids : (notifyAll s).threads.map Worker.dpid = s.threads.map Worker.dpid := by
    rw [notifyAll, List.map_map]
    refine List.map_congr_left ?_
    intro w _
    show (if w.place = .asleep then { w with place := .atLock } else w).dpid = w.dpid
    split <;> rfl
  have hmem {w : Worker F} (hw : w ∈ (notifyAll s).threads) :
      (w ∈ s.threads ∧ w.place ≠ .asleep) ∨ w.place = .atLock := by
    obtain ⟨v, hv, rfl⟩ := List.mem_map.mp hw
    by_cases hasleep : v.place = .asleep
    · rw [if_pos hasleep]
      exact .inr rfl
    · rw [if_neg hasleep]
      exact .inl ⟨hv, hasleep⟩
  have hof {w : Worker F} (hw : w ∈ (notifyAll s).threads) (hplace : w.place ≠ .atLock) :
      w ∈ s.threads :=
    ((hmem hw).resolve_right hplace).1
  have hhand (d : ℕ) : inHandOf (notifyAll s).threads d = inHandOf s.threads d := by
    rw [notifyAll, inHandOf, List.flatMap_map]
    refine List.flatMap_congr ?_
    intro w _
    by_cases hasleep : w.place = .asleep
    · simp [hasleep, Worker.inHand]
    · simp [hasleep]
  refine ⟨fun d => ?_, h.queued, h.sent, fun w hw hplace => ?_, hdpids ▸ h.distinct,
    fun d hd => hdpids ▸ h.served d hd, fun w hw hplace => ?_, fun hrunning => ?_, ?_, h.dropped⟩
  · rw [hhand]
    exact h.order d
  · exact h.hand w (hof hw (by rw [hplace]; decide)) hplace
  · exact h.left w (hof hw (by rw [hplace]; decide)) hplace
  · show s.workers = ((notifyAll s).threads.map Worker.dpid).zipIdx
    rw [hdpids]
    exact h.mapped hrunning
  · refine StopInv.mono h.stop rfl (List.length_map _) ?_
    intro i v hv
    rw [notifyAll, List.getElem?_map] at hv
    obtain ⟨w, hw, rfl⟩ := Option.map_eq_some_iff.mp hv
    refine ⟨w, hw, ?_, ?_⟩
    · intro hplace
      rw [if_neg (by rw [hplace]; decide)]
      exact hplace
    · intro hplace
      split at hplace
      · cases hplace
      · exact .inl hplace

theorem lookup_zipIdx_isSome (dpids : List ℕ) (n d : ℕ) :
    ((dpids.zipIdx n).lookup d).isSome = true ↔ d ∈ dpids := by
  induction dpids generalizing n with
  | nil => simp
  | cons dpid dpids ih =>
    rw [List.zipIdx_cons, List.lookup_cons]
    by_cases hd : d = dpid
    · simp [hd]
    · have hbeq : (d == dpid) = false := by simpa using hd
      rw [hbeq, List.mem_cons]
      simpa [hd] using ih (n + 1)

theorem Inv.stopAt_of_running {s : System F} (h : Inv s) (hrunning : s.running = true) :
    s.stopAt = .notCalled := by
  have hstop := h.stop
  cases hat : s.stopAt with
  | notCalled => rfl
  | _ =>
    rw [hat] at hstop
    rw [hstop.1] at hrunning
    cases hrunning

/-- After a thread has been made for a switch, the switch has one. -/
theorem inv_spawnWorker {s : System F} (h : Inv s) (hrunning : s.running = true) (dpid : ℕ) :
    Inv (spawnWorker s dpid) ∧ dpid ∈ (spawnWorker s dpid).threads.map Worker.dpid := by
  have hmapped : (s.workers.lookup dpid).isSome = true ↔ dpid ∈ s.threads.map Worker.dpid := by
    rw [h.mapped hrunning]
    exact lookup_zipIdx_isSome _ 0 _
  unfold spawnWorker
  by_cases hthere : (s.workers.lookup dpid).isSome = true
  · rw [if_pos hthere]
    exact ⟨h, hmapped.mp hthere⟩
  rw [if_neg hthere]
  have hnew : dpid ∉ s.threads.map Worker.dpid := fun hmem => hthere (hmapped.mpr hmem)
  have hmap : (s.threads ++ [(newWorker dpid : Worker F)]).map Worker.dpid =
      s.threads.map Worker.dpid ++ [dpid] := List.map_append
  -- the new thread has nothing in hand and has not left
  have hmem {w : Worker F} (hw : w ∈ s.threads ++ [newWorker dpid]) (hplace : w.place ≠ .atLock) :
      w ∈ s.threads := by
    rcases List.mem_append.mp hw with hw | hw
    · exact hw
    · rw [List.mem_singleton.mp hw] at hplace
      exact absurd rfl hplace
  refine ⟨⟨fun d => ?_, h.queued, h.sent, fun w hw hplace => ?_, ?_, fun d hd => ?_,
    fun w hw hplace => ?_, fun _ => ?_, ?_, h.dropped⟩, ?_⟩
  · have hfresh : inHandOf [(newWorker dpid : Worker F)] d = [] := by
      simp [inHandOf, Worker.inHand, newWorker]
    show s.sentTo d ++ inHandOf (s.threads ++ [newWorker dpid]) d ++ s.queues d = s.acceptedFor d
    rw [inHandOf_append, hfresh, List.append_nil, h.order d]
  · exact h.hand w (hmem hw (by rw [hplace]; decide)) hplace
  · show ((s.threads ++ [newWorker dpid]).map Worker.dpid).Nodup
    rw [hmap]
    refine List.nodup_append.mpr ⟨h.distinct, List.nodup_singleton _, fun a ha b hb hab => ?_⟩
    rw [hab, List.mem_singleton.mp hb] at ha
    exact hnew ha
  · show d ∈ (s.threads ++ [newWorker dpid]).map Worker.dpid
    rw [hmap]
    exact List.mem_append_left _ (h.served d hd)
  · exact h.left w (hmem hw (by rw [hplace]; decide)) hplace
  · show s.workers ++ [(dpid, s.threads.length)] =
      ((s.threads ++ [newWorker dpid]).map Worker.dpid).zipIdx
    rw [hmap, List.zipIdx_append, ← h.mapped hrunning, List.length_map, Nat.zero_add]
    rfl
  · show StopInv _ s.stopAt
    rw [h.stopAt_of_running hrunning]
    exact hrunning
  · show dpid ∈ (s.threads ++ [newWorker dpid]).map Worker.dpid
    rw [hmap]
    exact List.mem_append_right _ List.mem_cons_self

/-- A job is accepted and put at the end of the queue of a switch that has a thread. -/
theorem inv_push {s : System F} (h : Inv s) (hrunning : s.running = true) {job : FlowJob F}
    (hthread : job.dpid ∈ s.threads.map Worker.dpid) :
    Inv { s with
      queues := Function.update s.queues job.dpid (s.queues job.dpid ++ [job])
      accepted := s.accepted ++ [job] } := by
  have hqueue (d : ℕ) : Function.update s.queues job.dpid (s.queues job.dpid ++ [job]) d =
      s.queues d ++ if job.dpid = d then [job] else [] := by
    by_cases hd : job.dpid = d
    · subst hd
      rw [Function.update_self, if_pos rfl]
    · rw [Function.update_of_ne (Ne.symm hd), if_neg hd, List.append_nil]
  refine ⟨fun d => ?_, fun d j hj => ?_, h.sent, h.hand, h.distinct, fun d hd => ?_,
    fun w hw hplace => ?_, h.mapped, ?_, h.dropped⟩
  · have haccepted : [job].filter (fun j => j.dpid = d) = if job.dpid = d then [job] else [] := by
      by_cases hd : job.dpid = d
      · simp [hd]
      · simp [hd]
    show s.sentTo d ++ inHandOf s.threads d ++ Function.update s.queues _ _ d =
      (s.accepted ++ [job]).filter _
    rw [List.filter_append, haccepted, hqueue, ← List.append_assoc, h.order d]
    rfl
  · have hin : j ∈ s.queues d ++ if job.dpid = d then [job] else [] := hqueue d ▸ hj
    rcases List.mem_append.mp hin with hin | hin
    · exact h.queued d j hin
    · split at hin
      · next hd => rwa [List.mem_singleton.mp hin]
      · cases hin
  · by_cases hjob : job.dpid = d
    · exact hjob ▸ hthread
    · refine h.served d fun hnil => hd ?_
      refine (hqueue d).trans ?_
      rw [if_neg hjob, List.append_nil, hnil]
  · have hstopped := (h.left w hw hplace).1
    rw [hrunning] at hstopped
    cases hstopped
  · show StopInv _ s.stopAt
    rw [h.stopAt_of_running hrunning]
    exact hrunning

/-- A job is queued, with a thread for it, and accepted. -/
def acceptJob (s : System F) (job : FlowJob F) : System F :=
  { enqueueJob s job with accepted := s.accepted ++ [job] }

theorem acceptJob_eq (s : System F) (job : FlowJob F) :
    acceptJob s job =
      let s' := spawnWorker s job.dpid
      { s' with
        queues := Function.update s'.queues job.dpid (s'.queues job.dpid ++ [job])
        accepted := s'.accepted ++ [job] } := by
  by_cases hthere : (s.workers.lookup job.dpid).isSome = true
  · simp only [acceptJob, enqueueJob, spawnWorker, hthere, if_true]
  · simp only [acceptJob, enqueueJob, spawnWorker, hthere]
    rfl

theorem inv_acceptJob {s : System F} (h : Inv s) (hrunning : s.running = true) (job : FlowJob F) :
    Inv (acceptJob s job) ∧ (acceptJob s job).running = true := by
  obtain ⟨hspawn, hthread⟩ := inv_spawnWorker h hrunning job.dpid
  have hstill : (spawnWorker s job.dpid).running = true := by
    unfold spawnWorker
    split
    · exact hrunning
    · exact hrunning
  rw [acceptJob_eq]
  exact ⟨inv_push hspawn hstill hthread, hstill⟩

theorem enqueueJob_accepted (s : System F) (accepted : List (FlowJob F)) (job : FlowJob F) :
    enqueueJob { s with accepted := accepted } job =
      { enqueueJob s job with accepted := accepted } := by
  by_cases hthere : (s.workers.lookup job.dpid).isSome = true
  · simp only [enqueueJob, spawnWorker, hthere, if_true]
  · simp only [enqueueJob, spawnWorker, hthere]
    rfl

theorem foldl_enqueueJob_accepted (s : System F) (accepted jobs : List (FlowJob F)) :
    jobs.foldl enqueueJob { s with accepted := accepted } =
      { jobs.foldl enqueueJob s with accepted := accepted } := by
  induction jobs generalizing s with
  | nil => rfl
  | cons job jobs ih => rw [List.foldl_cons, enqueueJob_accepted, ih, List.foldl_cons]

/-- Jobs that are queued together are accepted one by one. -/
theorem foldl_acceptJob (s : System F) (jobs : List (FlowJob F)) :
    jobs.foldl acceptJob s = { jobs.foldl enqueueJob s with accepted := s.accepted ++ jobs } := by
  induction jobs generalizing s with
  | nil =>
    rw [List.append_nil]
    rfl
  | cons job jobs ih =>
    rw [List.foldl_cons, ih, acceptJob, foldl_enqueueJob_accepted, List.foldl_cons,
      List.append_assoc, List.singleton_append]

theorem inv_foldl_acceptJob {s : System F} (h : Inv s) (hrunning : s.running = true)
    (jobs : List (FlowJob F)) : Inv (jobs.foldl acceptJob s) := by
  induction jobs generalizing s with
  | nil => exact h
  | cons job jobs ih =>
    obtain ⟨hone, hstill⟩ := inv_acceptJob h hrunning job
    exact ih hone hstill

/-- What is not looked at by the invariant: how many callers are about to notify. -/
theorem Inv.withNotifying {s : System F} (h : Inv s) (n : ℕ) : Inv { s with notifying := n } where
  order := h.order
  queued := h.queued
  sent := h.sent
  hand := h.hand
  distinct := h.distinct
  served := h.served
  left := h.left
  mapped := h.mapped
  stop := h.stop.mono rfl rfl fun _ v hv => ⟨v, hv, id, .inl⟩
  dropped := h.dropped

/-- What the invariant says of a call of `stop()` is all that changes with it. -/
theorem Inv.withStopAt {s : System F} (h : Inv s) {stopAt : StopAt} (hstop : StopInv s stopAt) :
    Inv { s with stopAt := stopAt } where
  order := h.order
  queued := h.queued
  sent := h.sent
  hand := h.hand
  distinct := h.distinct
  served := h.served
  left := h.left
  mapped := h.mapped
  stop := hstop.mono rfl rfl fun _ v hv => ⟨v, hv, id, .inl⟩
  dropped := h.dropped

theorem inv_enqueueJobs {s : System F} (h : Inv s) (jobs : List (FlowJob F)) :
    Inv (enqueueJobs s jobs) := by
  unfold enqueueJobs
  rcases Bool.eq_false_or_eq_true s.running with hrunning | hrunning
  · rw [if_neg (by simp [hrunning])]
    have haccept := (inv_foldl_acceptJob h hrunning jobs).withNotifying
      ((jobs.foldl enqueueJob s).notifying + 1)
    rw [foldl_acceptJob] at haccept
    have hsame : (jobs.foldl enqueueJob s).accepted = s.accepted := by
      have hfold := congrArg System.accepted (foldl_enqueueJob_accepted s s.accepted jobs)
      exact hfold
    dsimp only
    rw [hsame]
    exact haccept
  · rw [if_pos (by simp [hrunning])]
    refine ⟨h.order, h.queued, h.sent, h.hand, h.distinct, h.served, h.left, h.mapped,
      h.stop.mono rfl rfl fun _ v hv => ⟨v, hv, id, .inl⟩, ?_⟩
    show (s.droppedAfterStop + jobs.length) % 2 ^ 64 = (s.refused + jobs.length) % 2 ^ 64
    rw [h.dropped, Nat.mod_add_mod]

theorem inv_stopUnderLock {s : System F} (h : Inv s) (hat : s.stopAt = .notCalled) :
    Inv (stopUnderLock s) := by
  have hrunning : s.running = true := by
    have hstop := h.stop
    rw [hat] at hstop
    exact hstop
  refine ⟨h.order, h.queued, h.sent, h.hand, h.distinct, h.served, fun w hw hplace => ?_, nofun,
    ⟨rfl, fun t => ?_⟩, h.dropped⟩
  · exact ⟨rfl, (h.left w hw hplace).2⟩
  · -- the map held every thread
    show t < s.threads.length ↔ t ∈ s.workers.map Prod.snd
    rw [h.mapped hrunning, List.zipIdx_map_snd]
    simp

theorem ofThread_eq_some {s s' : System F} {t : ℕ} {place : WorkerAt} {f : Worker F → System F} :
    ofThread s t place f = some s' ↔
      ∃ w, s.threads[t]? = some w ∧ w.place = place ∧ f w = s' := by
  unfold ofThread
  cases s.threads[t]? with
  | none => simp
  | some w => simp

/-- **Every step keeps the invariant.** -/
theorem step_inv {s s' : System F} {l : Label F} (h : Inv s) (hpos : 0 < s.burstSize)
    (hstep : step s l = some s') : Inv s' := by
  cases l with
  | enqueue jobs =>
    cases hstep
    exact inv_enqueueJobs h jobs
  | notify =>
    rw [step] at hstep
    split at hstep
    · cases hstep
    · cases hstep
      exact (inv_notifyAll h).withNotifying _
  | lock t =>
    obtain ⟨w, ht, hplace, rfl⟩ := ofThread_eq_some.mp hstep
    exact inv_workerLock h hpos ht hplace
  | wake t =>
    obtain ⟨w, ht, hplace, rfl⟩ := ofThread_eq_some.mp hstep
    exact inv_wake h ht hplace
  | send t =>
    obtain ⟨w, ht, hplace, rfl⟩ := ofThread_eq_some.mp hstep
    exact inv_workerSend h ht hplace
  | stop =>
    rw [step] at hstep
    split at hstep
    · next hat =>
      cases hstep
      exact inv_stopUnderLock h hat
    · cases hstep
  | stopNotify =>
    have hstop := h.stop
    rw [step] at hstep
    split at hstep
    · next toJoin hat =>
      cases hstep
      rw [hat] at hstop
      refine (inv_notifyAll h).withStopAt ⟨hstop.1, fun t ht => ?_, fun t w ht => .inl ?_,
        fun w hw hasleep => ?_⟩
      · rw [notifyAll, List.length_map]
        exact (hstop.2 t).mpr ht
      · refine (hstop.2 t).mp ?_
        have hlt := (List.getElem?_eq_some_iff.mp ht).1
        rwa [notifyAll, List.length_map] at hlt
      · obtain ⟨v, hv, rfl⟩ := List.mem_map.mp hw
        split at hasleep
        · cases hasleep
        · next hnot => exact hnot hasleep
    · cases hstep
  | join =>
    have hstop := h.stop
    rw [step] at hstep
    split at hstep
    · next t toJoin hat =>
      rw [hat] at hstop
      obtain ⟨hrunning, hbound, hjoin, hawake⟩ := hstop
      obtain ⟨w, ht, hplace, rfl⟩ := ofThread_eq_some.mp hstep
      refine h.withStopAt ⟨hrunning, fun i hi => hbound i (List.mem_cons_of_mem t hi),
        fun i v hv => ?_, hawake⟩
      rcases hjoin i v hv with hi | hleft
      · rcases List.mem_cons.mp hi with rfl | hi
        · rw [ht, Option.some.injEq] at hv
          exact .inr (hv ▸ hplace)
        · exact .inl hi
      · exact .inr hleft
    · cases hstep
  | stopReturn =>
    have hstop := h.stop
    rw [step] at hstep
    split at hstep
    · next hat =>
      cases hstep
      rw [hat] at hstop
      obtain ⟨hrunning, -, hjoin, -⟩ := hstop
      refine h.withStopAt ⟨hrunning, fun w hw => ?_⟩
      obtain ⟨t, ht⟩ := List.mem_iff_getElem?.mp hw
      exact (hjoin t w ht).resolve_left List.not_mem_nil
    · cases hstep

theorem burstSize_foldl_enqueueJob (s : System F) (jobs : List (FlowJob F)) :
    (jobs.foldl enqueueJob s).burstSize = s.burstSize := by
  induction jobs generalizing s with
  | nil => rfl
  | cons job jobs ih =>
    rw [List.foldl_cons, ih, enqueueJob, spawnWorker]
    split <;> rfl

theorem step_burstSize {s s' : System F} {l : Label F} (hstep : step s l = some s') :
    s'.burstSize = s.burstSize := by
  cases l with
  | enqueue jobs =>
    cases hstep
    unfold enqueueJobs
    split
    · rfl
    · exact burstSize_foldl_enqueueJob s jobs
  | lock t =>
    obtain ⟨w, -, -, rfl⟩ := ofThread_eq_some.mp hstep
    unfold workerLock
    split_ifs <;> rfl
  | wake t =>
    obtain ⟨w, -, -, rfl⟩ := ofThread_eq_some.mp hstep
    rfl
  | send t =>
    obtain ⟨w, -, -, rfl⟩ := ofThread_eq_some.mp hstep
    rfl
  | join =>
    rw [step] at hstep
    split at hstep
    · obtain ⟨w, -, -, rfl⟩ := ofThread_eq_some.mp hstep
      rfl
    · cases hstep
  | _ =>
    rw [step] at hstep
    split at hstep
    all_goals
      cases hstep
      try rfl

theorem run_inv {burstSize : ℕ} (hpos : 0 < burstSize) {tr : List (Label F)} {s : System F}
    (h : Machine.run step (started burstSize) tr = some s) : Inv s ∧ s.burstSize = burstSize := by
  refine Machine.run_invariant (P := fun _ s => Inv s ∧ s.burstSize = burstSize)
    ⟨inv_started burstSize, rfl⟩ ?_ h
  rintro _ s l s' - ⟨hinv, hsize⟩ hl
  exact ⟨step_inv hinv (hsize ▸ hpos) hl, (step_burstSize hl).trans hsize⟩

/-! ### What is delivered -/

/-- **What has become of the jobs.** -/
structure Delivered (burstSize : ℕ) (s : System F) : Prop where
  /-- What a switch was sent, what is in hand for it and what is queued, one after the other, are the
  jobs accepted for it, in their order. -/
  order : ∀ d, s.sentTo d ++ inHandOf s.threads d ++ s.queues d = s.acceptedFor d
  /-- No switch has two threads, so what is in hand for it is one burst. -/
  oneWorker : (s.threads.map Worker.dpid).Nodup
  /-- No job appears twice if none was accepted twice. -/
  once : s.accepted.Nodup → ∀ d, (s.sentTo d ++ inHandOf s.threads d ++ s.queues d).Nodup
  sent : ∀ b ∈ s.sent, IsBurst burstSize b.1 b.2
  inHand : ∀ w ∈ s.threads, w.place = .unlocked → IsBurst burstSize w.dpid w.burst
  /-- When `stop()` has returned, every job that was accepted has been sent. -/
  returned : s.stopAt = .returned → ∀ d, s.sentTo d = s.acceptedFor d
  dropped : s.refused < 2 ^ 64 → s.droppedAfterStop = s.refused

/-- When every thread has left, nothing is in hand and nothing is queued. -/
theorem Inv.sentTo_of_returned {s : System F} (h : Inv s) (hat : s.stopAt = .returned) (d : ℕ) :
    s.sentTo d = s.acceptedFor d := by
  have hstop := h.stop
  rw [hat] at hstop
  obtain ⟨-, hleft⟩ := hstop
  have hhand : inHandOf s.threads d = [] := by
    refine List.flatMap_eq_nil_iff.mpr ?_
    intro w hw
    rw [Worker.inHand, hleft w hw]
    simp
  have hqueue : s.queues d = [] := by
    by_contra hne
    obtain ⟨w, hw, rfl⟩ := List.mem_map.mp (h.served d hne)
    exact hne (h.left w hw (hleft w hw)).2
  rw [← h.order d, hhand, hqueue, List.append_nil, List.append_nil]

/-- **Every switch is sent the jobs accepted for it**, in every interleaving of calls, threads and one
`stop()`. -/
theorem run_delivered {burstSize : ℕ} (hpos : 0 < burstSize) {tr : List (Label F)} {s : System F}
    (h : Machine.run step (started burstSize) tr = some s) : Delivered burstSize s := by
  obtain ⟨hinv, rfl⟩ := run_inv hpos h
  refine ⟨hinv.order, hinv.distinct, fun hnodup d => ?_, hinv.sent, hinv.hand,
    hinv.sentTo_of_returned, fun hlt => ?_⟩
  · rw [hinv.order d]
    exact hnodup.filter _
  · rw [hinv.dropped, Nat.mod_eq_of_lt hlt]

/-! ### `stop()` returns -/

/-- A step that a thread or the call of `stop()` takes of its own accord. -/
def Label.IsOwn : Label F → Prop
  | .lock _ | .send _ | .stopNotify | .join | .stopReturn => True
  | _ => False

/-- A state can be reached by steps of the threads and of the call of `stop()` alone. -/
def Reaches (s s' : System F) : Prop :=
  ∃ tr, (∀ l ∈ tr, l.IsOwn) ∧ Machine.run step s tr = some s'

theorem Reaches.refl (s : System F) : Reaches s s := ⟨[], nofun, rfl⟩

theorem Reaches.step {s s' s'' : System F} {l : Label F} (hl : l.IsOwn)
    (hstep : Dispatcher.step s l = some s') (h : Reaches s' s'') : Reaches s s'' := by
  obtain ⟨tr, hown, hrun⟩ := h
  refine ⟨l :: tr, ?_, ?_⟩
  · intro l' hl'
    rcases List.mem_cons.mp hl' with rfl | hl'
    · exact hl
    · exact hown l' hl'
  · rw [Machine.run, hstep]
    exact hrun

theorem Reaches.trans {s s' s'' : System F} (h : Reaches s s') (h' : Reaches s' s'') :
    Reaches s s'' := by
  obtain ⟨tr, hown, hrun⟩ := h
  obtain ⟨tr', hown', hrun'⟩ := h'
  refine ⟨tr ++ tr', ?_, ?_⟩
  · intro l hl
    rcases List.mem_append.mp hl with hl | hl
    · exact hown l hl
    · exact hown' l hl
  · rw [Machine.run_append, hrun]
    exact hrun'

/-- What is left alone while one thread moves on. -/
structure OnlyThread (t : ℕ) (s s' : System F) : Prop where
  running : s'.running = s.running
  burstSize : s'.burstSize = s.burstSize
  stopAt : s'.stopAt = s.stopAt
  length : s'.threads.length = s.threads.length
  other : ∀ i, i ≠ t → s'.threads[i]? = s.threads[i]?

theorem OnlyThread.trans {t : ℕ} {s s' s'' : System F} (h : OnlyThread t s s')
    (h' : OnlyThread t s' s'') : OnlyThread t s s'' where
  running := h'.running.trans h.running
  burstSize := h'.burstSize.trans h.burstSize
  stopAt := h'.stopAt.trans h.stopAt
  length := h'.length.trans h.length
  other i hi := (h'.other i hi).trans (h.other i hi)

theorem OnlyThread.set (s : System F) (t : ℕ) (w : Worker F) (queues : ℕ → List (FlowJob F))
    (sent : List (ℕ × List (FlowJob F))) :
    OnlyThread t s { s with threads := s.threads.set t w, queues := queues, sent := sent } where
  running := rfl
  burstSize := rfl
  stopAt := rfl
  length := List.length_set
  other _ hi := List.getElem?_set_ne hi.symm

theorem length_fillBurst_snd_lt {burstSize : ℕ} (hpos : 0 < burstSize) {queue : List (FlowJob F)}
    (hne : queue ≠ []) : (fillBurst burstSize queue []).2.length < queue.length := by
  have happend := congrArg List.length (fillBurst_append burstSize queue [])
  cases queue with
  | nil => exact absurd rfl hne
  | cons job queue =>
    rw [fillBurst, if_pos (show ([] : List (FlowJob F)).length < burstSize from hpos)] at happend ⊢
    have hone := length_le_fillBurst burstSize queue ([] ++ [job])
    simp only [List.length_append, List.length_cons, List.length_nil] at happend hone ⊢
    omega

/-- A thread sends what it has taken. -/
theorem reaches_atLock {s : System F} {t : ℕ} {w : Worker F} (ht : s.threads[t]? = some w)
    (hplace : w.place = .unlocked) :
    ∃ s', Reaches s s' ∧ OnlyThread t s s' ∧ s'.queues = s.queues ∧
      s'.threads[t]? = some { w with place := .atLock } := by
  have hlt := (List.getElem?_eq_some_iff.mp ht).1
  refine ⟨workerSend s t w, .step (l := .send t) trivial ?_ (.refl _), .set s t _ _ _, rfl, ?_⟩
  · exact ofThread_eq_some.mpr ⟨w, ht, hplace, rfl⟩
  · exact List.getElem?_set_self hlt

/-- Once the flag is cleared, a thread empties its queue and leaves. -/
theorem reaches_left_of_atLock {s : System F} (hpos : 0 < s.burstSize) (hstopped : s.running = false)
    {t : ℕ} {w : Worker F} (ht : s.threads[t]? = some w) (hplace : w.place = .atLock) :
    ∃ s' w', Reaches s s' ∧ OnlyThread t s s' ∧ s'.threads[t]? = some w' ∧ w'.place = .left := by
  -- on the length of the queue, which every burst makes shorter
  induction hn : (s.queues w.dpid).length using Nat.strong_induction_on generalizing s w with
  | _ n ih =>
    have hlt := (List.getElem?_eq_some_iff.mp ht).1
    have hstep : step s (.lock t) = some (workerLock s t w) :=
      ofThread_eq_some.mpr ⟨w, ht, hplace, rfl⟩
    unfold workerLock at hstep
    rw [if_neg (by simp [hstopped])] at hstep
    by_cases hempty : (s.queues w.dpid).isEmpty = true
    · rw [if_pos (by simp [hstopped, hempty])] at hstep
      exact ⟨_, _, .step (l := .lock t) trivial hstep (.refl _), .set s t _ _ _,
        List.getElem?_set_self hlt, rfl⟩
    · rw [if_neg (by simp [hempty])] at hstep
      have hne : s.queues w.dpid ≠ [] := fun hnil => hempty (by rw [hnil]; rfl)
      have hshorter := length_fillBurst_snd_lt hpos hne
      -- the burst is taken, then it is sent, and then the rest of the queue is shorter
      have htaken := OnlyThread.set s t
        { w with place := .unlocked, burst := (fillBurst s.burstSize (s.queues w.dpid) []).1 }
        (Function.update s.queues w.dpid (fillBurst s.burstSize (s.queues w.dpid) []).2) s.sent
      obtain ⟨s₂, hreach₂, honly₂, hqueues₂, ht₂⟩ :=
        reaches_atLock (s := { s with
          threads := s.threads.set t
            { w with place := .unlocked, burst := (fillBurst s.burstSize (s.queues w.dpid) []).1 }
          queues := Function.update s.queues w.dpid (fillBurst s.burstSize (s.queues w.dpid) []).2 })
          (List.getElem?_set_self hlt) rfl
      have honly := htaken.trans honly₂
      have hlength : (s₂.queues w.dpid).length < n := by
        rw [hqueues₂, ← hn]
        dsimp only
        rw [Function.update_self]
        exact hshorter
      obtain ⟨s', w', hreach', honly', ht', hleft⟩ :=
        ih _ hlength (honly.burstSize ▸ hpos) (honly.running.trans hstopped) ht₂ rfl rfl
      exact ⟨s', w', (Reaches.step (l := .lock t) trivial hstep hreach₂).trans hreach',
        honly.trans honly', ht', hleft⟩

theorem reaches_left {s : System F} (hpos : 0 < s.burstSize) (hstopped : s.running = false)
    {t : ℕ} {w : Worker F} (ht : s.threads[t]? = some w) (hawake : w.place ≠ .asleep) :
    ∃ s' w', Reaches s s' ∧ OnlyThread t s s' ∧ s'.threads[t]? = some w' ∧ w'.place = .left := by
  cases hplace : w.place with
  | atLock => exact reaches_left_of_atLock hpos hstopped ht hplace
  | asleep => exact absurd hplace hawake
  | left => exact ⟨s, w, .refl s, ⟨rfl, rfl, rfl, rfl, fun _ _ => rfl⟩, ht, hplace⟩
  | unlocked =>
    obtain ⟨s₁, hreach, honly, -, ht₁⟩ := reaches_atLock ht hplace
    obtain ⟨s', w', hreach', honly', ht', hleft⟩ := reaches_left_of_atLock
      (honly.burstSize ▸ hpos) (honly.running.trans hstopped) ht₁ rfl
    exact ⟨s', w', hreach.trans hreach', honly.trans honly', ht', hleft⟩

/-- The threads that are waited for leave one after the other. -/
theorem reaches_returned {s : System F} (hpos : 0 < s.burstSize) (hstopped : s.running = false)
    {toJoin : List ℕ} (hat : s.stopAt = .joining toJoin)
    (hbound : ∀ t ∈ toJoin, t < s.threads.length) (hawake : ∀ w ∈ s.threads, w.place ≠ .asleep) :
    ∃ s', Reaches s s' ∧ s'.stopAt = .returned := by
  induction toJoin generalizing s with
  | nil =>
    have hstep : step s .stopReturn = some { s with stopAt := .returned } := by
      rw [step, hat]
    exact ⟨_, .step (l := .stopReturn) trivial hstep (.refl _), rfl⟩
  | cons t toJoin ih =>
    have ht := List.getElem?_eq_getElem (hbound t List.mem_cons_self)
    obtain ⟨s₁, w, hreach, honly, hw, hleft⟩ :=
      reaches_left hpos hstopped ht (hawake _ (List.mem_of_getElem? ht))
    have hjoin : step s₁ .join = some { s₁ with stopAt := .joining toJoin } := by
      rw [step, honly.stopAt, hat]
      exact ofThread_eq_some.mpr ⟨w, hw, hleft, rfl⟩
    have hawake₁ (v : Worker F) (hv : v ∈ s₁.threads) : v.place ≠ .asleep := by
      obtain ⟨i, hi⟩ := List.mem_iff_getElem?.mp hv
      by_cases hit : i = t
      · rw [hit, hw, Option.some.injEq] at hi
        rw [← hi, hleft]
        decide
      · rw [honly.other i hit] at hi
        exact hawake v (List.mem_of_getElem? hi)
    obtain ⟨s', hreach', hreturned⟩ := ih (s := { s₁ with stopAt := .joining toJoin })
      (honly.burstSize ▸ hpos) (honly.running.trans hstopped) rfl
      (fun i hi => honly.length ▸ hbound i (List.mem_cons_of_mem t hi)) hawake₁
    exact ⟨s', hreach.trans (.step (l := .join) trivial hjoin hreach'), hreturned⟩

/-- **Once `stop()` has been called it can return**: no thread sleeps through its notification, so
the threads, each by itself, empty their queues and leave. -/
theorem stop_returns {burstSize : ℕ} (hpos : 0 < burstSize) {tr : List (Label F)} {s : System F}
    (h : Machine.run step (started burstSize) tr = some s) (hcalled : s.stopAt ≠ .notCalled) :
    ∃ s', Reaches s s' ∧ s'.stopAt = .returned := by
  obtain ⟨hinv, hsize⟩ := run_inv hpos h
  have hpos' : 0 < s.burstSize := hsize ▸ hpos
  have hjoining {s : System F} (hinv : Inv s) (hpos : 0 < s.burstSize) {toJoin : List ℕ}
      (hat : s.stopAt = .joining toJoin) : ∃ s', Reaches s s' ∧ s'.stopAt = .returned := by
    have hstop := hinv.stop
    rw [hat] at hstop
    exact reaches_returned hpos hstop.1 hat hstop.2.1 hstop.2.2.2
  cases hat : s.stopAt with
  | notCalled => exact absurd hat hcalled
  | unlocked toJoin =>
    have hstep : step s .stopNotify = some { notifyAll s with stopAt := .joining toJoin } := by
      rw [step, hat]
    obtain ⟨s', hreach, hreturned⟩ := hjoining (step_inv hinv hpos' hstep)
      (step_burstSize hstep ▸ hpos') rfl
    exact ⟨s', .step (l := .stopNotify) trivial hstep hreach, hreturned⟩
  | joining toJoin => exact hjoining hinv hpos' hat
  | returned => exact ⟨s, .refl s, hat⟩

/-! ### Refusals -/

/-- A job for a switch. -/
def probeJob (dpid : ℕ) (priority : ℤ) : FlowJob Empty where
  dpid := dpid
  op := .install
  priority := priority
  matchFields := .null

/-- Two switches: a burst is sent, another one is in hand when `stop()` is called, a call comes too
late, and the rest is sent before `stop()` returns. -/
def drainRun : List (Label Empty) :=
  [.enqueue [probeJob 1 10, probeJob 2 20, probeJob 1 11, probeJob 1 12], .lock 0, .lock 1, .notify,
    .send 0, .lock 0, .stop, .enqueue [probeJob 1 13], .send 1, .stopNotify, .lock 1, .send 0,
    .lock 0, .join, .join, .stopReturn]

/-- Everything is delivered there. -/
theorem run_delivered_drainRun :
    0 < 2 ∧ ∃ s, Machine.run step (started 2) drainRun = some s ∧ s.stopAt = .returned ∧
      s.refused = 1 ∧ Delivered 2 s := by
  have hend : (Machine.run step (started 2) drainRun).map (fun s => (s.stopAt, s.refused)) =
      some (.returned, 1) := by
    decide +kernel
  obtain ⟨s, hs, hfields⟩ := Option.map_eq_some_iff.mp hend
  obtain ⟨hat, hrefused⟩ := Prod.mk.inj hfields
  exact ⟨by decide, s, hs, hat, hrefused, run_delivered (by decide) hs⟩

/-- Calls after `stop()` are refused. -/
theorem run_refused_calls {s : System F} (hstopped : s.running = false) (job : FlowJob F) (n : ℕ) :
    ∃ s', Machine.run step s (List.replicate n (.enqueue [job])) = some s' ∧
      s'.refused = s.refused + n := by
  induction n generalizing s with
  | zero => exact ⟨s, rfl, rfl⟩
  | succ n ih =>
    have hstep : step s (.enqueue [job]) = some { s with
        droppedAfterStop := (s.droppedAfterStop + 1) % 2 ^ 64
        refused := s.refused + 1 } := by
      rw [step, enqueueJobs, if_pos (by simp [hstopped])]
      rfl
    obtain ⟨s', hrun, hrefused⟩ := ih (s := { s with
      droppedAfterStop := (s.droppedAfterStop + 1) % 2 ^ 64
      refused := s.refused + 1 }) hstopped
    refine ⟨s', ?_, ?_⟩
    · rw [List.replicate_succ, Machine.run, hstep]
      exact hrun
    · rw [hrefused]
      show s.refused + 1 + n = s.refused + (n + 1)
      omega

/-- The number of refusals is counted in 64 bits. -/
theorem exists_refused (n : ℕ) :
    ∃ s : System Empty, Machine.run step (started 1)
        (.stop :: List.replicate n (.enqueue [probeJob 1 10])) = some s ∧
      s.refused = n ∧ s.droppedAfterStop = n % 2 ^ 64 := by
  obtain ⟨s, hrun, hrefused⟩ := run_refused_calls (s := stopUnderLock (started 1)) rfl
    (probeJob 1 10) n
  have hall : Machine.run step (started 1)
      (.stop :: List.replicate n (.enqueue [probeJob 1 10])) = some s := hrun
  have hcount : s.refused = n := hrefused.trans (Nat.zero_add n)
  obtain ⟨hinv, -⟩ := run_inv Nat.one_pos hall
  exact ⟨s, hall, hcount, hcount ▸ hinv.dropped⟩

/-- **After `2 ^ 64` refusals the count is zero.** -/
theorem refused_not_counted :
    ∃ s : System Empty, Machine.run step (started 1)
        (.stop :: List.replicate (2 ^ 64) (.enqueue [probeJob 1 10])) = some s ∧
      s.refused = 2 ^ 64 ∧ s.droppedAfterStop = 0 := by
  obtain ⟨s, hrun, hrefused, hdropped⟩ := exists_refused (2 ^ 64)
  exact ⟨s, hrun, hrefused, hdropped.trans (Nat.mod_self _)⟩

end NDTwin.Dispatcher
