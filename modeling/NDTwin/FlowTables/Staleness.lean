import NDTwin.FlowTables.Served
import NDTwin.Lib.Dict
import NDTwin.Lib.Keyed
import NDTwin.Lib.Machine

/-!
# How old a cached table is

Every poll replaces the cached document.  A switch that was asked and not read is put back from the
document before, with the time of the first poll that failed and a count of how many did; one that
was not asked, because it is down, is left out.  What a switch is marked with is therefore read off
the document before, and the document before is all that is left of the history.

## Main definitions

* `Poll`, `Poll.result` — a poll, and what it learned of a switch.
* `publish`, `published` — the document after a poll, and after a sequence of them.
* `TableEvent`, `documentAfter` — polls and the edits of batches, one after the other.
* `ReadBy` — some poll has read the switch.
* `KeepsNeverRead` — the events that keep the mark of a switch that was never read true.

## Main results

* `ofKey_publish` — **what a poll leaves of a switch**: the table just read, the entry of the
  document before with its marks, or nothing.
* `published_marks` — **the marks are those of the history**, for a switch that every poll since
  its last read has asked.
* `neverRead_iff` — **the mark says that the switch was never read**, in every run of such events.
* `dropped_table_lost`, `neverRead_false` — a switch that was down loses its table and is said never
  to have been read.
-/

namespace NDTwin.FlowTables

open Fixed Json Keyed

variable {F : Type}

/-! ### Polls -/

/-- What the answer of a switch brings: its table, or why it was not read. -/
def PollAnswer.read : PollAnswer F → Except String (Json F)
  | .noResponse => .error "no_response"
  | .unparseable => .error "unparseable"
  | .reply flows slow =>
    match classifyFlowStatsReply flows slow with
    | .reportedFailure => .error "reported_failure"
    | .notUnderstood => .error "wrong_shape"
    | .suspectTimedOut => .error "suspect_timeout"
    | .usable => .ok flows

/-- One round of the poller: the answers of the switches that are up, and the time. -/
structure Poll (F : Type) where
  answers : Dict ℕ (PollAnswer F)
  now : ℤ

/-- What a poll learned of a switch; nothing, if it was not asked. -/
def Poll.result (p : Poll F) (d : ℕ) : Option (Except String (Json F)) :=
  (p.answers.get? d).map PollAnswer.read

/-- The document after a poll. -/
def publish (cache : Cache F) (p : Poll F) : Cache F :=
  applyFetchedTables (fetchOpenFlowTablesInternal p.answers.entries) p.now cache

/-- The document after a sequence of polls. -/
def published (polls : List (Poll F)) : Cache F := polls.foldl publish []

theorem published_concat (polls : List (Poll F)) (p : Poll F) :
    published (polls ++ [p]) = publish (published polls) p :=
  List.foldl_concat ..

/-! ### What one poll leaves -/

/-- The entry a poll makes of a switch that was read. -/
def freshEntry (polled : ℕ × PollAnswer F) : Option (CachedSwitch F) :=
  polled.2.read.toOption.map fun flows => { dpid := polled.1, flows }

/-- What a poll notes of a switch that was not read. -/
def unreadSwitch (polled : ℕ × PollAnswer F) : Option UnreadSwitch :=
  match polled.2.read with
  | .ok _ => none
  | .error reason => some ⟨polled.1, reason⟩

theorem fetchOne_eq (fetched : FlowTableFetch F) (polled : ℕ × PollAnswer F) :
    fetchOne fetched polled =
      { tables := fetched.tables ++ (freshEntry polled).toList
        unread := fetched.unread ++ (unreadSwitch polled).toList } := by
  obtain ⟨d, answer⟩ := polled
  cases answer with
  | noResponse => simp [fetchOne, freshEntry, unreadSwitch, PollAnswer.read, Except.toOption]
  | unparseable => simp [fetchOne, freshEntry, unreadSwitch, PollAnswer.read, Except.toOption]
  | reply flows slow =>
    cases hverdict : classifyFlowStatsReply flows slow <;>
      simp [fetchOne, freshEntry, unreadSwitch, PollAnswer.read, Except.toOption, hverdict]

theorem fetchOpenFlowTablesInternal_eq (answers : List (ℕ × PollAnswer F)) :
    fetchOpenFlowTablesInternal answers =
      { tables := answers.filterMap freshEntry, unread := answers.filterMap unreadSwitch } := by
  have hfold : ∀ (rest : List (ℕ × PollAnswer F)) (fetched : FlowTableFetch F),
      rest.foldl fetchOne fetched =
        { tables := fetched.tables ++ rest.filterMap freshEntry
          unread := fetched.unread ++ rest.filterMap unreadSwitch } := by
    intro rest
    induction rest with
    | nil =>
      intro fetched
      simp
    | cons polled rest ih =>
      intro fetched
      rw [List.foldl_cons, ih, fetchOne_eq]
      cases hfresh : freshEntry polled <;> cases hunread : unreadSwitch polled <;>
        simp [hfresh, hunread]
  exact hfold answers {}

theorem carriedEntry_dpid {previous : Option (CachedSwitch F)} {u : UnreadSwitch} {now : ℤ}
    (h : ∀ sw ∈ previous, sw.dpid = u.dpid) : (carriedEntry previous u now).dpid = u.dpid := by
  cases previous with
  | none => rfl
  | some sw => exact h sw rfl

/-- The entries of a switch after the unread ones are put back: those it had, or else the entry
that is made of the first mention of it. -/
theorem ofKey_carryForwardUnreadTables (fresh previous : Cache F) (unread : List UnreadSwitch)
    (now : ℤ) (d : ℕ) :
    ofKey CachedSwitch.dpid d (carryForwardUnreadTables fresh previous unread now) =
      if ofKey CachedSwitch.dpid d fresh = [] then
        ((ofKey UnreadSwitch.dpid d unread).head?.map fun u =>
          carriedEntry (previous.find? fun sw => sw.dpid = d) u now).toList
      else ofKey CachedSwitch.dpid d fresh := by
  rw [carryForwardUnreadTables]
  -- over the unread switches in turn; what is put back for one is fresh to the next
  induction unread generalizing fresh with
  | nil => by_cases hfresh : ofKey CachedSwitch.dpid d fresh = [] <;> simp [hfresh]
  | cons u unread ih =>
    have hhas : (fresh.any fun sw => sw.dpid = u.dpid) = true ↔
        ofKey CachedSwitch.dpid u.dpid fresh ≠ [] := by
      simp [ofKey, List.filter_eq_nil_iff]
    have hcarried : (carriedEntry (previous.find? fun sw => sw.dpid = u.dpid) u now).dpid = u.dpid :=
      carriedEntry_dpid fun sw hsw => by simpa using List.find?_some hsw
    rw [List.foldl_cons, ih, carryOne]
    by_cases hu : u.dpid = d
    · -- this is the switch in question: it has an entry from now on
      subst hu
      have hself : ofKey UnreadSwitch.dpid u.dpid (u :: unread) =
          u :: ofKey UnreadSwitch.dpid u.dpid unread := by simp [ofKey]
      by_cases hfresh : ofKey CachedSwitch.dpid u.dpid fresh = []
      · rw [if_neg (fun h => hhas.mp h hfresh), ofKey_append_singleton, if_pos hcarried, hself]
        simp [hfresh]
      · rw [if_pos (hhas.mpr hfresh)]
        simp [hfresh]
    · -- another switch: what is put back for it has its own key
      have hother : ofKey UnreadSwitch.dpid d (u :: unread) = ofKey UnreadSwitch.dpid d unread := by
        simp [ofKey, hu]
      have hsame : ofKey CachedSwitch.dpid d
          (if (fresh.any fun sw => sw.dpid = u.dpid) = true then fresh
            else fresh ++ [carriedEntry (previous.find? fun sw => sw.dpid = u.dpid) u now]) =
          ofKey CachedSwitch.dpid d fresh := by
        split
        · rfl
        · rw [ofKey_append_singleton, if_neg (by rw [hcarried]; exact hu)]
      rw [hsame, hother]

/-- **What a poll leaves of a switch**: the table just read, the entry of the document before with
its marks, or nothing. -/
theorem ofKey_publish (cache : Cache F) (p : Poll F) (d : ℕ) :
    ofKey CachedSwitch.dpid d (publish cache p) =
      match p.result d with
      | none => []
      | some (.ok flows) => [{ dpid := d, flows }]
      | some (.error reason) =>
        [carriedEntry (ofKey CachedSwitch.dpid d cache).head? ⟨d, reason⟩ p.now] := by
  -- a poll has at most one answer of a switch, so at most one of the two lists has an entry of it
  have htables : ofKey CachedSwitch.dpid d (p.answers.entries.filterMap freshEntry) =
      (((p.answers.get? d).map fun a => (d, a)).toList).filterMap freshEntry := by
    rw [← Dict.filter_key]
    refine ofKey_filterMap _ (fun polled sw hsw => ?_) d _
    obtain ⟨flows, -, rfl⟩ := Option.map_eq_some_iff.mp hsw
    rfl
  have hunread : ofKey UnreadSwitch.dpid d (p.answers.entries.filterMap unreadSwitch) =
      (((p.answers.get? d).map fun a => (d, a)).toList).filterMap unreadSwitch := by
    rw [← Dict.filter_key]
    refine ofKey_filterMap _ (fun polled u hu => ?_) d _
    rw [unreadSwitch] at hu
    split at hu
    · cases hu
    · cases hu
      rfl
  rw [publish, applyFetchedTables, ofKey_carryForwardUnreadTables, fetchOpenFlowTablesInternal_eq,
    htables, hunread, find?_eq_head?_ofKey, Poll.result]
  cases p.answers.get? d with
  | none => rfl
  | some answer =>
    cases hread : answer.read with
    | ok flows => simp [freshEntry, hread, Except.toOption]
    | error reason => simp [freshEntry, unreadSwitch, hread, Except.toOption]

/-! ### The marks -/

/-- A poll asked a switch and did not read it. -/
def Poll.Unread (p : Poll F) (d : ℕ) : Prop := ∃ reason, p.result d = some (.error reason)

/-- The entry a run of failed polls starts from: the one before it, or an empty table of a switch
of which nothing is known. -/
def entryBefore (cache : Cache F) (d : ℕ) : CachedSwitch F :=
  (ofKey CachedSwitch.dpid d cache).head?.getD { dpid := d, flows := .obj [], neverRead := true }

/-- The first failed poll of a run marks the entry before it as stale. -/
theorem carriedEntry_first {earlier : List (Poll F)} {d : ℕ}
    (hstart : ∀ q ∈ earlier.getLast?, ¬ q.Unread d) (reason : String) (now : ℤ) :
    carriedEntry (ofKey CachedSwitch.dpid d (published earlier)).head? ⟨d, reason⟩ now =
      { entryBefore (published earlier) d with stale := some ⟨now, 1, reason⟩ } := by
  cases earlier using List.reverseRecOn with
  | nil => rfl
  | append_singleton earlier q =>
    rw [entryBefore, published_concat, ofKey_publish]
    cases hq : q.result d with
    | none => rfl
    | some result =>
      cases result with
      | ok flows => rfl
      | error reason' => exact absurd ⟨reason', hq⟩ (hstart q (by simp))

/-- A further one counts on. -/
theorem carriedEntry_again {sw : CachedSwitch F} {since n : ℤ} {old : String}
    (hsw : sw.stale = some ⟨since, n.bmod (2 ^ 64), old⟩) {u : UnreadSwitch} {now : ℤ} :
    carriedEntry (some sw) u now =
      { sw with stale := some ⟨since, (n + 1).bmod (2 ^ 64), u.reason⟩ } := by
  rw [carriedEntry, hsw]
  simp only [Option.map_some, Option.getD_some, succS_bmod]

/-- A run of failed polls keeps the entry before it, with the time of the first of them and how many
they are, as an `int64_t`. -/
theorem ofKey_published_unread {earlier later : List (Poll F)} {p : Poll F} {d : ℕ}
    {reason : String} (hstart : ∀ q ∈ earlier.getLast?, ¬ q.Unread d)
    (hlater : ∀ q ∈ later, q.Unread d) (hp : p.result d = some (.error reason)) :
    ofKey CachedSwitch.dpid d (published (earlier ++ (later ++ [p]))) =
      [{ entryBefore (published earlier) d with
         stale := some ⟨(later.headD p).now, (later.length + 1 : ℤ).bmod (2 ^ 64), reason⟩ }] := by
  -- by induction on the polls that failed, from the last one back
  induction later using List.reverseRecOn generalizing p reason with
  | nil =>
    have hone : (1 : ℤ).bmod (2 ^ 64) = 1 := Int.bmod_eq_of_le_mul_two (by norm_num) (by decide)
    rw [List.nil_append, published_concat, ofKey_publish, hp, List.length_nil, Nat.cast_zero,
      Int.zero_add, hone]
    simp only [carriedEntry_first hstart, List.headD_nil]
  | append_singleton later q ih =>
    obtain ⟨reason', hq⟩ := hlater q (by simp)
    have hbefore := ih (fun q' hq' => hlater q' (by simp [hq'])) hq
    have hfirst : (later ++ [q]).headD p = later.headD q := by cases later <;> rfl
    rw [← List.append_assoc, published_concat, ofKey_publish, hp, hbefore, hfirst]
    have hlength : ((later ++ [q]).length : ℤ) = later.length + 1 := by simp
    rw [hlength]
    exact congrArg (fun sw => [sw]) (carriedEntry_again rfl)

/-- **The marks are those of the history.**  After any sequence of polls a switch that was not read
has one entry, and one that was read has the table just read and no marks.  The marks of a switch
that was not read give the time of the first of the run of polls that failed on it, up to this one,
and the length of the run where it is one of an `int64_t`; if the poll before that run has read the
switch, its table is kept. -/
theorem published_marks (history : List (Poll F)) (p : Poll F) :
    (∀ d, p.Unread d → (ofKey CachedSwitch.dpid d (published (history ++ [p]))).length = 1) ∧
    (∀ d flows, p.result d = some (.ok flows) →
      ofKey CachedSwitch.dpid d (published (history ++ [p])) =
        [{ dpid := d, flows, stale := none, neverRead := false }]) ∧
    ∀ (earlier later : List (Poll F)) (d : ℕ) (reason : String), history = earlier ++ later →
      (∀ q ∈ earlier.getLast?, ¬ q.Unread d) → (∀ q ∈ later, q.Unread d) →
      p.result d = some (.error reason) →
      ∃ flows neverRead polls, ofKey CachedSwitch.dpid d (published (history ++ [p])) =
          [{ dpid := d, flows, neverRead
             stale := some ⟨(later.headD p).now, polls, reason⟩ }] ∧
        (later.length + 1 < 2 ^ 63 → polls = later.length + 1) ∧
        ∀ r ∈ earlier.getLast?, ∀ lastRead, r.result d = some (.ok lastRead) →
          flows = lastRead ∧ neverRead = false := by
  refine ⟨?_, ?_, ?_⟩
  · rintro d ⟨reason, hp⟩
    rw [published_concat, ofKey_publish, hp]
    rfl
  · intro d flows hp
    rw [published_concat, ofKey_publish, hp]
  · -- the run of failed polls that ends here, and what stood before it
    rintro earlier later d reason rfl hstart hlater hp
    have hkept := ofKey_published_unread hstart hlater hp
    have hdpid : (entryBefore (published earlier) d).dpid = d := by
      rw [entryBefore]
      cases hfirst : (ofKey CachedSwitch.dpid d (published earlier)).head? with
      | none => rfl
      | some sw => exact ((mem_ofKey _).mp (List.mem_of_mem_head? hfirst)).2
    refine ⟨(entryBefore (published earlier) d).flows, (entryBefore (published earlier) d).neverRead,
      (later.length + 1 : ℤ).bmod (2 ^ 64), ?_, ?_, ?_⟩
    · rw [List.append_assoc, hkept]
      simp [hdpid]
    · intro hshort
      exact bmod_of_lt hshort
    · intro r hr lastRead hread
      obtain ⟨before, rfl⟩ := List.getLast?_eq_some_iff.mp hr
      rw [entryBefore, published_concat, ofKey_publish, hread]
      exact ⟨rfl, rfl⟩

/-- A poll that asks switch 1 alone. -/
def askOne (answer : PollAnswer Empty) (now : ℤ) : Poll Empty :=
  ⟨⟨[(1, answer)], List.nodup_singleton _⟩, now⟩

/-- A poll that asks no switch. -/
def askNone (now : ℤ) : Poll Empty := ⟨Dict.empty, now⟩

/-- A table with one rule. -/
def ruleTable : Json Empty := .obj [("1", .arr [.obj [("priority", .int 10)]])]

/-- A switch that was down for a poll, and is not read by the next, no longer has the table of its
last read. -/
theorem dropped_table_lost :
    ¬ ∀ (earlier : List (Poll Empty)) (r : Poll Empty) (later : List (Poll Empty)) (p : Poll Empty)
      (d : ℕ) (lastRead : Json Empty), r.result d = some (.ok lastRead) →
      (∀ q ∈ later, ∀ flows, q.result d ≠ some (.ok flows)) → p.Unread d →
      ∀ sw ∈ published (earlier ++ r :: (later ++ [p])), sw.dpid = d → sw.flows = lastRead := by
  intro h
  have hlost := h [] (askOne (.reply ruleTable false) 10) [askNone 20] (askOne .noResponse 30) 1 ruleTable
    rfl (by simp [askNone, Poll.result, Dict.empty, Dict.get?, Dict.find]) ⟨_, rfl⟩
  have hflows := hlost _ (List.mem_singleton_self _) rfl
  cases hflows

/-! ### Polls and edits -/

/-- What changes the document: a poll comes back, or the entries of a batch are written. -/
inductive TableEvent (F : Type) where
  | poll (p : Poll F)
  | edit (isSwitch : ℕ → Bool) (b : Batch F)

variable (native : Native F)

/-- The document after an event; what an edit had done before it threw stays. -/
def TableEvent.apply (cache : Cache F) : TableEvent F → Cache F
  | .poll p => publish cache p
  | .edit isSwitch b => (updateOpenFlowTables native isSwitch b cache).1

/-- The document after a run. -/
def documentAfter (events : List (TableEvent F)) : Cache F :=
  events.foldl (TableEvent.apply native) []

/-- Some poll of the run has read the switch. -/
def ReadBy (events : List (TableEvent F)) (d : ℕ) : Prop :=
  ∃ p, .poll p ∈ events ∧ ∃ flows, p.result d = some (.ok flows)

/-- The document has an entry for the switch. -/
def HasEntry (cache : Cache F) (d : ℕ) : Prop := ∃ sw ∈ cache, sw.dpid = d

/-- The events that keep the mark true, after a run: a poll that fails on no switch that was read
and has no entry any more, and an edit that makes no entry for a switch that was not read. -/
def KeepsNeverRead (before : List (TableEvent F)) : TableEvent F → Prop
  | .poll p => ∀ d, p.Unread d → ReadBy before d → HasEntry (documentAfter native before) d
  | .edit isSwitch b => ∀ e ∈ b.installs ++ b.modifies ++ b.deletes, ∀ d, dpidOf native e = .ok d →
      isSwitch d = true → HasEntry (documentAfter native before) d ∨ ReadBy before d

variable {native}

theorem readBy_concat_edit {events : List (TableEvent F)} {isSwitch : ℕ → Bool} {b : Batch F}
    {d : ℕ} : ReadBy (events ++ [TableEvent.edit isSwitch b]) d ↔ ReadBy events d := by
  simp [ReadBy]

theorem readBy_concat_poll {events : List (TableEvent F)} {p : Poll F} {d : ℕ} :
    ReadBy (events ++ [TableEvent.poll p]) d ↔ ReadBy events d ∨ ∃ flows, p.result d = some (.ok flows) := by
  constructor
  · rintro ⟨q, hq, hread⟩
    rcases List.mem_append.mp hq with hq | hq
    · exact .inl ⟨q, hq, hread⟩
    · cases List.mem_singleton.mp hq
      exact .inr hread
  · rintro (⟨q, hq, hread⟩ | hread)
    · exact ⟨q, List.mem_append_left _ hq, hread⟩
    · exact ⟨p, List.mem_append_right _ (List.mem_singleton_self _), hread⟩

/-- The mark of every entry says whether its switch was read. -/
def MarksNeverRead (read : ℕ → Prop) (cache : Cache F) : Prop :=
  ∀ sw ∈ cache, sw.neverRead = true ↔ ¬ read sw.dpid

/-- An edit of one switch leaves the marks alone, keeps every entry, and makes at most one: for
that switch, if it has none and the topology knows it. -/
theorem withFlows_marks {isSwitch : ℕ → Bool} {d : ℕ} (edit : Json F → Edit (Json F))
    {read : ℕ → Prop} {cache : Cache F} (h : MarksNeverRead read cache)
    (hnew : isSwitch d = true → HasEntry cache d ∨ read d) :
    MarksNeverRead read (withFlows isSwitch d edit cache).1 ∧
      ∀ d', HasEntry cache d' → HasEntry (withFlows isSwitch d edit cache).1 d' := by
  induction cache with
  | nil =>
    rw [withFlows]
    split
    · -- the entry that is made carries no mark, so its switch must have been read
      rename_i hswitch
      have hread : read d := (hnew hswitch).resolve_left (by simp [HasEntry])
      refine ⟨?_, by simp [HasEntry]⟩
      intro sw hsw
      rw [List.mem_singleton.mp hsw]
      simp [hread]
    · exact ⟨by simp [MarksNeverRead], fun d' hd' => hd'⟩
  | cons sw cache ih =>
    have hhead := h sw List.mem_cons_self
    have htail : MarksNeverRead read cache := fun sw' hsw' => h sw' (List.mem_cons_of_mem _ hsw')
    -- an entry that is changed keeps its switch and its mark
    have hchanged : ∀ flows, MarksNeverRead read ({ sw with flows } :: cache) ∧
        ∀ d', HasEntry (sw :: cache) d' → HasEntry ({ sw with flows } :: cache) d' := by
      intro flows
      refine ⟨?_, ?_⟩
      · intro sw' hsw'
        rcases List.mem_cons.mp hsw' with rfl | hsw'
        · exact hhead
        · exact htail sw' hsw'
      · rintro d' ⟨sw', hsw', hd'⟩
        rcases List.mem_cons.mp hsw' with rfl | hsw'
        · exact ⟨_, List.mem_cons_self, hd'⟩
        · exact ⟨sw', List.mem_cons_of_mem _ hsw', hd'⟩
    rw [withFlows]
    split
    · cases sw.flows with
      | obj fields => exact hchanged _
      | null => exact hchanged _
      | _ => exact ⟨h, fun d' hd' => hd'⟩
    · rename_i hne
      have hnew' : isSwitch d = true → HasEntry cache d ∨ read d := by
        intro hswitch
        rcases hnew hswitch with ⟨sw', hsw', hd'⟩ | hread
        · rcases List.mem_cons.mp hsw' with rfl | hsw'
          · exact absurd hd' hne
          · exact .inl ⟨sw', hsw', hd'⟩
        · exact .inr hread
      obtain ⟨hmarks, hkeeps⟩ := ih htail hnew'
      refine ⟨?_, ?_⟩
      · intro sw' hsw'
        rcases List.mem_cons.mp hsw' with rfl | hsw'
        · exact hhead
        · exact hmarks sw' hsw'
      · rintro d' ⟨sw', hsw', hd'⟩
        rcases List.mem_cons.mp hsw' with rfl | hsw'
        · exact ⟨sw', List.mem_cons_self, hd'⟩
        · obtain ⟨sw'', hsw'', hd''⟩ := hkeeps d' ⟨sw', hsw', hd'⟩
          exact ⟨sw'', List.mem_cons_of_mem _ hsw'', hd''⟩

/-- What every edit of a switch the batch names keeps, the batch keeps. -/
theorem updateOpenFlowTables_keeps_of_withFlows {P : Cache F → Prop} {isSwitch : ℕ → Bool}
    {b : Batch F}
    (hedit : ∀ e ∈ b.installs ++ b.modifies ++ b.deletes, ∀ d, dpidOf native e = .ok d →
      ∀ edit cache, P cache → P (withFlows isSwitch d edit cache).1)
    {cache : Cache F} (h : P cache) : P (updateOpenFlowTables native isSwitch b cache).1 := by
  -- an entry whose switch or key cannot be read throws before anything is changed
  refine updateOpenFlowTables_induction ?_ ?_ ?_ h
  · intro e he cache hcache
    rw [installOne]
    split
    · exact hcache
    · rename_i d hd
      exact hedit e (by simp [he]) d hd _ cache hcache
  · intro e he
    exact editByKey_keeps fun d key cache hd => hedit e (by simp [he]) d hd _ cache
  · intro e he
    exact editByKey_keeps fun d key cache hd => hedit e (by simp [he]) d hd _ cache

/-- A batch whose entries make no entry for a switch that was not read keeps the marks. -/
theorem updateOpenFlowTables_marks {isSwitch : ℕ → Bool} {b : Batch F} {read : ℕ → Prop}
    {cache : Cache F} (h : MarksNeverRead read cache)
    (hnew : ∀ e ∈ b.installs ++ b.modifies ++ b.deletes, ∀ d, dpidOf native e = .ok d →
      isSwitch d = true → HasEntry cache d ∨ read d) :
    MarksNeverRead read (updateOpenFlowTables native isSwitch b cache).1 := by
  have hboth : MarksNeverRead read (updateOpenFlowTables native isSwitch b cache).1 ∧
      ∀ d, HasEntry cache d → HasEntry (updateOpenFlowTables native isSwitch b cache).1 d := by
    refine updateOpenFlowTables_keeps_of_withFlows
      (P := fun cache' => MarksNeverRead read cache' ∧ ∀ d, HasEntry cache d → HasEntry cache' d)
      ?_ ⟨h, fun d hd => hd⟩
    rintro e he d hd edit cache' ⟨hmarks, hkeeps⟩
    obtain ⟨hmarks', hkeeps'⟩ := withFlows_marks edit hmarks fun hswitch =>
      (hnew e he d hd hswitch).imp_left (hkeeps d)
    exact ⟨hmarks', fun d' hd' => hkeeps' d' (hkeeps d' hd')⟩
  exact hboth.1

/-- A poll that fails on no switch that was read and has no entry keeps the marks. -/
theorem publish_marks {p : Poll F} {read : ℕ → Prop} {cache : Cache F}
    (h : MarksNeverRead read cache) (hnone : ∀ d, p.Unread d → read d → HasEntry cache d) :
    MarksNeverRead (fun d => read d ∨ ∃ flows, p.result d = some (.ok flows)) (publish cache p) := by
  intro sw hsw
  have hmem : sw ∈ ofKey CachedSwitch.dpid sw.dpid (publish cache p) := (mem_ofKey _).mpr ⟨hsw, rfl⟩
  rw [ofKey_publish] at hmem
  cases hresult : p.result sw.dpid with
  | none =>
    rw [hresult] at hmem
    cases hmem
  | some result =>
    rw [hresult] at hmem
    cases result with
    | ok flows =>
      have hfresh : sw.neverRead = false := congrArg CachedSwitch.neverRead (List.mem_singleton.mp hmem)
      simp [hfresh, hresult]
    | error reason =>
      have hcarried := congrArg CachedSwitch.neverRead (List.mem_singleton.mp hmem)
      have hnot : ¬ ∃ flows, p.result sw.dpid = some (.ok flows) := by simp [hresult]
      cases hprev : (ofKey CachedSwitch.dpid sw.dpid cache).head? with
      | none =>
        -- there is no entry to put back, so the switch was not read before either
        have hread : ¬ read sw.dpid := by
          intro hread
          obtain ⟨sw', hsw', hd⟩ := hnone sw.dpid ⟨reason, hresult⟩ hread
          rw [List.head?_eq_none_iff] at hprev
          have := (mem_ofKey CachedSwitch.dpid).mpr ⟨hsw', hd⟩
          rw [hprev] at this
          cases this
        rw [hprev] at hcarried
        simp [hcarried, carriedEntry, hread, hnot]
      | some sw' =>
        -- the mark is carried over, and this poll has not read the switch
        obtain ⟨hsw', hd⟩ := (mem_ofKey _).mp (List.mem_of_mem_head? hprev)
        have hbefore := h sw' hsw'
        rw [hd] at hbefore
        rw [hprev] at hcarried
        simp only [carriedEntry] at hcarried
        rw [hcarried, hbefore]
        simp [hnot]

/-- **The mark says that the switch was never read**: in every document a run of such events goes
through, an entry carries it if and only if no poll so far has read its switch. -/
theorem neverRead_iff {before events : List (TableEvent F)}
    (h : Machine.Meets (KeepsNeverRead native) events) (hbefore : before <+: events)
    {sw : CachedSwitch F} (hsw : sw ∈ documentAfter native before) :
    sw.neverRead = true ↔ ¬ ReadBy before sw.dpid := by
  have hmarks : MarksNeverRead (ReadBy before) (documentAfter native before) := by
    refine h.foldl_invariant (P := fun events cache => MarksNeverRead (ReadBy events) cache) ?_ ?_
      hbefore
    · intro sw hsw
      cases hsw
    · intro before event hevent ih
      cases event with
      | poll p =>
        have hpoll := publish_marks ih hevent
        intro sw hsw
        rw [hpoll sw hsw, readBy_concat_poll]
      | edit isSwitch b =>
        have hedit := updateOpenFlowTables_marks ih hevent
        intro sw hsw
        rw [hedit sw hsw, readBy_concat_edit]
  exact hmarks sw hsw

/-- An install at switch 1. -/
def installOnOne : Batch Empty := ⟨[.obj [("actions", .arr []), ("dpid", .int 1)]], [], []⟩

/-- Switch 1 is not read, gets an install, is read, and is not read again. -/
def markedEvents : List (TableEvent Empty) :=
  [.poll (askOne .noResponse 0), .edit (· = 1) installOnOne,
    .poll (askOne (.reply ruleTable false) 10), .poll (askOne .noResponse 20)]

theorem askOne_unread {answer : PollAnswer Empty} {now : ℤ} {d : ℕ}
    (h : (askOne answer now).Unread d) : d = 1 := by
  by_contra hne
  obtain ⟨reason, h⟩ := h
  rw [Poll.result, askOne, Dict.get?, Dict.find, if_neg (Ne.symm hne)] at h
  cases h

theorem meets_markedEvents : Machine.Meets (KeepsNeverRead noFloats) markedEvents := by
  have hfirst : Machine.Meets (KeepsNeverRead noFloats) [.poll (askOne .noResponse 0)] := by
    refine @Machine.Meets.concat _ _ [] _ .nil ?_
    rintro d - ⟨p, hp, -⟩
    cases hp
  have hsecond : Machine.Meets (KeepsNeverRead noFloats)
      [.poll (askOne .noResponse 0), .edit (· = 1) installOnOne] := by
    refine @Machine.Meets.concat _ _ [_] _ hfirst ?_
    intro e he d hd hswitch
    exact .inl ⟨_, List.mem_singleton_self _, (of_decide_eq_true hswitch).symm⟩
  have hthird : Machine.Meets (KeepsNeverRead noFloats)
      [.poll (askOne .noResponse 0), .edit (· = 1) installOnOne,
      .poll (askOne (.reply ruleTable false) 10)] := by
    refine @Machine.Meets.concat _ _ [_, _] _ hsecond ?_
    rintro d hunread -
    exact ⟨_, List.mem_singleton_self _, (askOne_unread hunread).symm⟩
  refine @Machine.Meets.concat _ _ [_, _, _] _ hthird ?_
  rintro d hunread -
  exact ⟨_, List.mem_singleton_self _, (askOne_unread hunread).symm⟩

/-- The switch carries the mark up to the poll that reads it, and not after that. -/
theorem neverRead_markedEvents :
    (∃ sw ∈ documentAfter noFloats (markedEvents.take 2), sw.neverRead = true ∧
      ¬ ReadBy (markedEvents.take 2) sw.dpid) ∧
    ∃ sw ∈ documentAfter noFloats markedEvents, sw.neverRead = false ∧
      ReadBy markedEvents sw.dpid := by
  constructor
  · refine ⟨_, List.mem_singleton_self _, rfl, ?_⟩
    exact (neverRead_iff meets_markedEvents (List.take_prefix 2 _)
      (List.mem_singleton_self _)).mp rfl
  · refine ⟨_, List.mem_singleton_self _, rfl, ?_⟩
    have hiff := neverRead_iff meets_markedEvents List.prefix_rfl (List.mem_singleton_self _)
    exact not_not.mp fun h => Bool.false_ne_true (hiff.mpr h)

/-- **The mark can be wrong both ways**: a switch that was read, was down and is not read carries
it, and one that was never read does not once an install has made its entry. -/
theorem neverRead_false :
    (¬ ∀ sw ∈ documentAfter noFloats [.poll (askOne (.reply ruleTable false) 10),
        .poll (askNone 20), .poll (askOne .noResponse 30)],
      (sw.neverRead = true ↔ ¬ ReadBy [.poll (askOne (.reply ruleTable false) 10),
        .poll (askNone 20), .poll (askOne .noResponse 30)] sw.dpid)) ∧
    ¬ ∀ sw ∈ documentAfter noFloats [.edit (· = 1) installOnOne, .poll (askOne .noResponse 30)],
      (sw.neverRead = true ↔
        ¬ ReadBy [.edit (· = 1) installOnOne, .poll (askOne .noResponse 30)] sw.dpid) := by
  constructor
  · intro h
    refine (h _ (List.mem_singleton_self _)).mp rfl ?_
    exact ⟨_, List.mem_cons_self, ruleTable, rfl⟩
  · intro h
    have hnot : ¬ ReadBy [.edit (· = 1) installOnOne, .poll (askOne .noResponse 30)] 1 := by
      rintro ⟨p, hp, flows, hread⟩
      simp only [List.mem_cons, reduceCtorEq, TableEvent.poll.injEq, List.not_mem_nil, or_false,
        false_or] at hp
      subst hp
      cases hread
    have hmark := (h _ (List.mem_singleton_self _)).mpr hnot
    cases hmark

end NDTwin.FlowTables
