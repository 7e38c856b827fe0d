import NDTwin.FlowTables.Cache
import NDTwin.FlowTables.Outcomes
import NDTwin.Lib.Machine

/-!
# The view that is served

Requests, the dispatcher's workers, the poller and readers meet at the cached tables.  A request is
queued first and written into the tables later, and a worker may send its jobs, a poll may replace
the tables, and another request may be written before that.  A reader keeps the tables still, but
outcomes go on being recorded while it reads.

A row is known by where it came from: an install of a queued batch, or the reply to a poll; a
modify leaves it where it came from.  Where a delete threw in the middle of a table, null stands in
the place of rows that were moved.

## Main definitions

* `Kernel`, `Event`, `step` — the run.
* `getOpenFlowTables` — the view.
* `PutByInstall`, `Polled` — where a row came from.
* `ShowsSwitch` — what the view may show of a switch.

## Main results

* `updateOpenFlowTables_keeps`, `applyFetchedTables_keeps` — **every row comes from somewhere.**
* `run_sound` — the invariant of every run.
* `run_served` — **the view shows no install that was not confirmed.**
* `run_not_served` — a reply may use the token's name, and tokens run out.
-/

namespace NDTwin.FlowTables

open Fixed Json

variable {F : Type} (native : Native F)

/-! ### Runs -/

/-- The result of a job, and when it was recorded. -/
structure Outcome (F : Type) where
  nowUnixMs : ℤ
  job : FlowJob F
  result : OpResult

/-- What the parties share.  `pending` are the batches that are queued and not yet written into the
tables, `queued` is every batch that has been queued. -/
structure Kernel (F : Type) where
  cache : Cache F := []
  log : DispatchOutcomeLog F := {}
  nextPendingToken : ℕ := 1
  nextRequestId : ℕ := 1
  pending : List (Batch F) := []
  queued : List (Batch F) := []

/-- What happens: a request is read up to the queue, a queued batch is written into the tables, the
outcome of a job is recorded, a poll comes back.  The topology may change in between. -/
inductive Event (F : Type) where
  | request (kindOf : ℕ → Option SwitchKind) (j : Json F)
  | update (isSwitch : ℕ → Bool) (i : ℕ)
  | outcome (o : Outcome F)
  | poll (answers : List (ℕ × PollAnswer F)) (now : ℤ)

/-- One step of a run.  An update that throws leaves what it had done. -/
def step (s : Kernel F) : Event F → Option (Kernel F)
  | .request kindOf j =>
    match admitBatch native kindOf s.nextPendingToken j with
    | (.error _, next) => some { s with nextPendingToken := next }
    | (.ok admitted, next) => some { s with
        nextPendingToken := next
        nextRequestId := succU 64 s.nextRequestId
        log := s.log.noteRequestEnqueued s.nextRequestId admitted.jobs.length
        pending := s.pending ++ [admitted.batch]
        queued := s.queued ++ [admitted.batch] }
  | .update isSwitch i =>
    match s.pending[i]? with
    | none => none
    | some b => some { s with
        cache := (updateOpenFlowTables native isSwitch b s.cache).1
        pending := s.pending.eraseIdx i }
  | .outcome o => some { s with log := s.log.record o.nowUnixMs o.job o.result }
  | .poll answers now =>
    some { s with cache := applyFetchedTables (fetchOpenFlowTablesInternal answers) now s.cache }

/-- Outcomes recorded one after the other. -/
def recordAll (log : DispatchOutcomeLog F) (outcomes : List (Outcome F)) : DispatchOutcomeLog F :=
  outcomes.foldl (fun log o => log.record o.nowUnixMs o.job o.result) log

/-- `getOpenFlowTables()`.  Of the outcomes recorded `during` the read, `moment token` had been when
the token was asked for. -/
def getOpenFlowTables (s : Kernel F) (during : List (Outcome F)) (moment : ℕ → ℕ) :
    Except AccessError (Cache F) :=
  stripUnprogrammedEntries native
    (some fun token => (recordAll s.log (during.take (moment token))).isProgrammed token) s.cache

/-! ### Where rows come from -/

/-- The rows of a reply, or of a switch's tables. -/
def rowsOf : Json F → List (Json F)
  | .obj tables => tables.flatMap fun p => p.2.elements
  | flows => flows.elements

/-- The replies a run has been given. -/
def Event.replies : Event F → List (Json F)
  | .poll answers _ => answers.filterMap fun a => match a.2 with
    | .reply flows _ => some flows
    | _ => none
  | _ => []

/-- The outcome an event records. -/
def Event.outcome? : Event F → Option (Outcome F)
  | .outcome o => some o
  | _ => none

/-- A row put by an install with a token, as later modifies left it. -/
inductive PutByInstall (queued : List (Batch F)) (token : ℕ) : Json F → Prop where
  | install {b : Batch F} {e row : Json F} (hb : b ∈ queued) (he : e ∈ b.installs)
      (htoken : e.find pendingTokenField = some (.int token)) (hrow : newFlow native e = .ok row) :
      PutByInstall queued token row
  | modify {b : Batch F} {e row row' : Json F} (hb : b ∈ queued) (he : e ∈ b.modifies)
      (hput : PutByInstall queued token row) (hrow : modifiedFlow native e row = .ok row') :
      PutByInstall queued token row'

/-- A row that came with a reply, as later modifies left it. -/
inductive Polled (queued : List (Batch F)) (replies : List (Json F)) : Json F → Prop where
  | poll {flows row : Json F} (hflows : flows ∈ replies) (hrow : row ∈ rowsOf flows) :
      Polled queued replies row
  | modify {b : Batch F} {e row row' : Json F} (hb : b ∈ queued) (he : e ∈ b.modifies)
      (hpolled : Polled queued replies row) (hrow : modifiedFlow native e row = .ok row') :
      Polled queued replies row'

variable {native}

theorem PutByInstall.mono {queued queued' : List (Batch F)} (h : queued ⊆ queued') {token : ℕ}
    {row : Json F} (hput : PutByInstall native queued token row) :
    PutByInstall native queued' token row := by
  induction hput with
  | install hb he htoken hrow => exact .install (h hb) he htoken hrow
  | modify hb he _ hrow ih => exact .modify (h hb) he ih hrow

theorem Polled.mono {queued queued' : List (Batch F)} {replies replies' : List (Json F)}
    (h : queued ⊆ queued') (h' : replies ⊆ replies') {row : Json F}
    (hpolled : Polled native queued replies row) : Polled native queued' replies' row := by
  induction hpolled with
  | poll hflows hrow => exact .poll (h' hflows) hrow
  | modify hb he _ hrow ih => exact .modify (h hb) he ih hrow

/-! ### Edits keep what holds of every row -/

section Keeps

variable {own installed : Json F → Prop}

/-- Of a table: its rows are ones that may stand in an array, and where it is no array, ones that
no install has put. -/
def TableOk (own installed : Json F → Prop) : Json F → Prop
  | .arr rows => ∀ row ∈ rows, own row ∨ installed row
  | v => ∀ row ∈ v.elements, own row

/-- The same of the tables of a switch. -/
def FlowsOk (own installed : Json F → Prop) : Json F → Prop
  | .obj tables => ∀ p ∈ tables, TableOk own installed p.2
  | flows => ∀ row ∈ flows.elements, own row

/-- The same of the whole document. -/
def CacheOk (own installed : Json F → Prop) (cache : Cache F) : Prop :=
  ∀ sw ∈ cache, FlowsOk own installed sw.flows

theorem withFlows_keeps {edit : Json F → Edit (Json F)}
    (hedit : ∀ v, TableOk own installed v → TableOk own installed (edit v).1) (isSwitch : ℕ → Bool) (dpid : ℕ)
    {cache : Cache F} (h : CacheOk own installed cache) :
    CacheOk own installed (withFlows isSwitch dpid edit cache).1 := by
  have hnull : TableOk own installed (edit .null).1 := hedit .null nofun
  have hempty : TableOk own installed (edit (.arr [])).1 := hedit (.arr []) nofun
  induction cache with
  | nil =>
    rw [withFlows]
    split
    · intro sw hsw
      rw [List.mem_singleton.mp hsw]
      intro p hp
      rw [List.mem_singleton.mp hp]
      exact hempty
    · exact h
  | cons sw cache ih =>
    have hhead := h sw List.mem_cons_self
    have htail : CacheOk own installed cache := fun sw' hsw' => h sw' (List.mem_cons_of_mem _ hsw')
    rw [withFlows]
    split
    · cases hflows : sw.flows with
      | obj fields =>
        rw [hflows] at hhead
        intro sw' hsw'
        rcases List.mem_cons.mp hsw' with rfl | hsw'
        · intro p hp
          rcases mem_put hp with rfl | hp
          · refine hedit _ ?_
            cases hlookup : fields.lookup (toString dpid) with
            | none => exact nofun
            | some v => exact hhead _ (mem_of_lookup hlookup)
          · exact hhead p hp
        · exact htail sw' hsw'
      | null =>
        intro sw' hsw'
        rcases List.mem_cons.mp hsw' with rfl | hsw'
        · intro p hp
          rw [List.mem_singleton.mp hp]
          exact hnull
        · exact htail sw' hsw'
      | _ => exact h
    · intro sw' hsw'
      rcases List.mem_cons.mp hsw' with rfl | hsw'
      · exact hhead
      · exact ih htail sw' hsw'

theorem editAll_keeps {σ ε : Type} {P : σ → Prop} {edit : ε → σ → Edit σ} {es : List ε}
    (hedit : ∀ e ∈ es, ∀ s, P s → P (edit e s).1) {s : σ} (h : P s) : P (editAll edit es s).1 := by
  induction es generalizing s with
  | nil => exact h
  | cons e es ih =>
    have hstep := hedit e List.mem_cons_self s h
    have hrest : ∀ s, P s → P (editAll edit es s).1 := fun s hs =>
      ih (fun e' he' => hedit e' (List.mem_cons_of_mem _ he')) hs
    rw [editAll]
    generalize edit e s = left at hstep
    obtain ⟨s', err⟩ := left
    cases err with
    | none => exact hrest s' hstep
    | some err => exact hstep

theorem pushFlow_keeps {e : Json F} (hrow : ∀ row, newFlow native e = .ok row → installed row)
    {v : Json F} (h : TableOk own installed v) : TableOk own installed (pushFlow native e v).1 := by
  rw [pushFlow]
  cases hnew : newFlow native e with
  | error err => exact h
  | ok row =>
    cases v with
    | null =>
      intro row' hrow'
      rw [List.mem_singleton.mp hrow']
      exact .inr (hrow row hnew)
    | arr rows =>
      intro row' hrow'
      rcases List.mem_append.mp hrow' with hrow' | hrow'
      · exact h row' hrow'
      · rw [List.mem_singleton.mp hrow']
        exact .inr (hrow row hnew)
    | _ => exact h

/-- What a modify leaves. -/
theorem mem_modifyRows {e : Json F} {key : RowKey} {rows : List (Json F)} {row' : Json F}
    (h : row' ∈ (modifyRows native e key rows).1) :
    row' ∈ rows ∨ ∃ row ∈ rows, modifiedFlow native e row = .ok row' := by
  induction rows with
  | nil => cases h
  | cons row rows ih =>
    rw [modifyRows] at h
    split at h
    · exact .inl h
    · split at h
      · split at h
        · next row'' hmod =>
          rcases List.mem_cons.mp h with rfl | h
          · exact .inr ⟨row, List.mem_cons_self, hmod⟩
          · exact .inl (List.mem_cons_of_mem row h)
        · exact .inl h
      · rcases List.mem_cons.mp h with rfl | h
        · exact .inl List.mem_cons_self
        · rcases ih h with h | ⟨r, hr, hmod⟩
          · exact .inl (List.mem_cons_of_mem row h)
          · exact .inr ⟨r, List.mem_cons_of_mem row hr, hmod⟩

theorem modifyFlow_keeps {e : Json F}
    (hown : ∀ row row', own row → modifiedFlow native e row = .ok row' → own row')
    (hput : ∀ row row', installed row → modifiedFlow native e row = .ok row' → installed row')
    (key : RowKey) {v : Json F} (h : TableOk own installed v) :
    TableOk own installed (modifyFlow native e key v).1 := by
  cases v with
  | arr rows =>
    intro row' hrow'
    rcases mem_modifyRows hrow' with hrow' | ⟨row, hrow, hmod⟩
    · exact h row' hrow'
    · exact (h row hrow).imp (hown row row' · hmod) (hput row row' · hmod)
  | obj fields =>
    intro row' hrow'
    obtain ⟨p, hp, rfl⟩ := List.mem_map.mp hrow'
    rcases mem_modifyRows (List.of_mem_zip hp).2 with hrow' | ⟨row, hrow, hmod⟩
    · exact h _ hrow'
    · exact hown row _ (h row hrow) hmod
  | _ => exact h

theorem deleteFlow_keeps (hnull : own .null) (key : RowKey) {v : Json F}
    (h : TableOk own installed v) : TableOk own installed (deleteFlow native key v).1 := by
  cases v with
  | arr rows =>
    intro row hrow
    rcases mem_removeIf hrow with hrow | rfl
    · exact h row hrow
    · exact .inl hnull
  | obj fields =>
    intro row hrow
    obtain ⟨p, hp, rfl⟩ := List.mem_map.mp hrow
    rcases mem_removeIf (List.of_mem_zip hp).2 with hrow | hrow
    · exact h _ hrow
    · rw [hrow]
      exact hnull
  | _ => exact h

/-- What every edit of a batch keeps, the batch keeps, whether it throws or not. -/
theorem updateOpenFlowTables_induction {P : Cache F → Prop} {isSwitch : ℕ → Bool} {b : Batch F}
    (hinstall : ∀ e ∈ b.installs, ∀ cache, P cache → P (installOne native isSwitch e cache).1)
    (hmodify : ∀ e ∈ b.modifies, ∀ cache, P cache → P (modifyOne native isSwitch e cache).1)
    (hdelete : ∀ e ∈ b.deletes, ∀ cache, P cache → P (deleteOne native isSwitch e cache).1)
    {cache : Cache F} (h : P cache) : P (updateOpenFlowTables native isSwitch b cache).1 := by
  have hinstalls := editAll_keeps hinstall h
  rw [updateOpenFlowTables]
  generalize editAll (installOne native isSwitch) b.installs cache = left at hinstalls
  obtain ⟨cache₁, err⟩ := left
  cases err with
  | some err => exact hinstalls
  | none =>
    have hmodifies := editAll_keeps hmodify hinstalls
    simp only
    generalize editAll (modifyOne native isSwitch) b.modifies cache₁ = left at hmodifies
    obtain ⟨cache₂, err⟩ := left
    cases err with
    | some err => exact hmodifies
    | none => exact editAll_keeps hdelete hmodifies

/-- An edit of a switch by key keeps what the edit of its rows keeps. -/
theorem editByKey_keeps {P : Cache F → Prop} {isSwitch : ℕ → Bool}
    {edit : Json F → RowKey → Json F → Edit (Json F)} {e : Json F}
    (hedit : ∀ d key cache, dpidOf native e = .ok d → P cache →
      P (withFlows isSwitch d (edit e key) cache).1)
    (cache : Cache F) (h : P cache) : P (editByKey native isSwitch edit e cache).1 := by
  rw [editByKey]
  split
  · exact h
  · rename_i d hd
    split
    · exact h
    · exact hedit d _ cache hd h

/-- **A batch keeps what holds of every row**, whether it throws or not. -/
theorem updateOpenFlowTables_keeps {b : Batch F} (hnull : own .null)
    (hnew : ∀ e ∈ b.installs, ∀ row, newFlow native e = .ok row → installed row)
    (hown : ∀ e ∈ b.modifies, ∀ row row', own row → modifiedFlow native e row = .ok row' → own row')
    (hmod : ∀ e ∈ b.modifies, ∀ row row', installed row → modifiedFlow native e row = .ok row' →
      installed row')
    (isSwitch : ℕ → Bool) {cache : Cache F} (h : CacheOk own installed cache) :
    CacheOk own installed (updateOpenFlowTables native isSwitch b cache).1 := by
  refine updateOpenFlowTables_induction ?_ ?_ ?_ h
  · intro e he cache hcache
    rw [installOne]
    split
    · exact hcache
    · exact withFlows_keeps (fun v hv => pushFlow_keeps (hnew e he) hv) isSwitch _ hcache
  · intro e he
    exact editByKey_keeps fun d key cache _ hcache =>
      withFlows_keeps (fun v hv => modifyFlow_keeps (hown e he) (hmod e he) key hv) isSwitch d hcache
  · intro e _
    exact editByKey_keeps fun d key cache _ hcache =>
      withFlows_keeps (fun v hv => deleteFlow_keeps hnull key hv) isSwitch d hcache

/-- The tables a poll has read are replies it was given. -/
theorem mem_tables_of_fetch {answers : List (ℕ × PollAnswer F)} {now : ℤ} {sw : CachedSwitch F}
    (h : sw ∈ (fetchOpenFlowTablesInternal answers).tables) :
    sw.flows ∈ (Event.poll answers now).replies := by
  have hfold : ∀ (rest : List (ℕ × PollAnswer F)) (fetched : FlowTableFetch F),
      sw ∈ (rest.foldl fetchOne fetched).tables →
        sw ∈ fetched.tables ∨ sw.flows ∈ (Event.poll rest now).replies := by
    intro rest
    induction rest with
    | nil => exact fun fetched hsw => .inl hsw
    | cons polled rest ih =>
      intro fetched hsw
      have hrest : ∀ flows, flows ∈ (Event.poll rest now).replies →
          flows ∈ (Event.poll (polled :: rest) now).replies := by
        intro flows hflows
        obtain ⟨a, ha, hreply⟩ := List.mem_filterMap.mp hflows
        exact List.mem_filterMap.mpr ⟨a, List.mem_cons_of_mem _ ha, hreply⟩
      rcases ih _ hsw with hsw | hsw
      · obtain ⟨dpid, answer⟩ := polled
        cases answer with
        | noResponse => exact .inl hsw
        | unparseable => exact .inl hsw
        | reply flows slow =>
          cases hverdict : classifyFlowStatsReply flows slow with
          | usable =>
            simp only [fetchOne, hverdict, List.mem_append, List.mem_singleton] at hsw
            rcases hsw with hsw | rfl
            · exact .inl hsw
            · exact .inr (List.mem_filterMap.mpr ⟨_, List.mem_cons_self, rfl⟩)
          | _ =>
            simp only [fetchOne, hverdict] at hsw
            exact .inl hsw
      · exact .inr (hrest _ hsw)
  rcases hfold answers {} h with h | h
  · cases h
  · exact h

/-- A reply is one to read when its rows are. -/
theorem flowsOk_of_rowsOf {flows : Json F} (h : ∀ row ∈ rowsOf flows, own row) :
    FlowsOk own installed flows := by
  cases flows with
  | obj tables =>
    intro p hp
    have hp' : ∀ row ∈ p.2.elements, own row := fun row hrow =>
      h row (List.mem_flatMap.mpr ⟨p, hp, hrow⟩)
    cases htable : p.2 with
    | arr rows =>
      rw [htable] at hp'
      exact fun row hrow => .inl (hp' row hrow)
    | _ =>
      rw [htable] at hp'
      exact hp'
  | _ => exact h

/-- **A poll keeps what holds of every row.** -/
theorem applyFetchedTables_keeps {answers : List (ℕ × PollAnswer F)} {now : ℤ}
    (hpoll : ∀ flows ∈ (Event.poll answers now).replies, ∀ row ∈ rowsOf flows, own row)
    {cache : Cache F} (h : CacheOk own installed cache) :
    CacheOk own installed (applyFetchedTables (fetchOpenFlowTablesInternal answers) now cache) := by
  have hcarry : ∀ (unread : List UnreadSwitch) (fresh : Cache F), CacheOk own installed fresh →
      CacheOk own installed (unread.foldl (carryOne cache now) fresh) := by
    intro unread
    induction unread with
    | nil => exact fun fresh hfresh => hfresh
    | cons u unread ih =>
      intro fresh hfresh
      refine ih _ ?_
      rw [carryOne]
      split
      · exact hfresh
      · intro sw hsw
        rcases List.mem_append.mp hsw with hsw | hsw
        · exact hfresh sw hsw
        · rw [List.mem_singleton.mp hsw]
          cases hfind : cache.find? fun sw => sw.dpid = u.dpid with
          | none => exact nofun
          | some sw' => exact h sw' (List.mem_of_find?_eq_some hfind)
  exact hcarry _ _ fun sw hsw => flowsOk_of_rowsOf (hpoll _ (mem_tables_of_fetch hsw))

end Keeps

/-! ### Tokens of rows -/

theorem find_modifiedFlow {e row row' : Json F} (h : modifiedFlow native e row = .ok row') :
    row'.find pendingTokenField = row.find pendingTokenField := by
  cases row with
  | obj fields =>
    rw [modifiedFlow] at h
    cases hpriority : e.valueInt native.cast "priority" 0 with
    | error err => simp [hpriority, bind, Except.bind] at h
    | ok priority =>
      cases hmatch : e.value "match" (.obj []) with
      | error err => simp [hpriority, hmatch, bind, Except.bind] at h
      | ok matchFields =>
        cases hactions : e.value "actions" (.arr []) with
        | error err => simp [hpriority, hmatch, hactions, bind, Except.bind] at h
        | ok actions =>
          simp only [hpriority, hmatch, hactions, bind, Except.bind, pure, Except.pure,
            Except.ok.injEq] at h
          subst h
          show List.lookup _ _ = List.lookup _ _
          rw [lookup_put_of_ne _ _ (by decide), lookup_put_of_ne _ _ (by decide),
            lookup_put_of_ne _ _ (by decide)]
  | _ =>
    cases h
    rfl

theorem find_newFlow {e row token : Json F} (h : newFlow native e = .ok row)
    (htoken : e.find pendingTokenField = some token) : row.find pendingTokenField = some token := by
  rw [newFlow] at h
  cases hpriority : e.valueInt native.cast "priority" 0 with
  | error err => simp [hpriority, bind, Except.bind] at h
  | ok priority =>
    cases hmatch : e.value "match" (.obj []) with
    | error err => simp [hpriority, hmatch, bind, Except.bind] at h
    | ok matchFields =>
      cases hactions : e.value "actions" (.arr []) with
      | error err => simp [hpriority, hmatch, hactions, bind, Except.bind] at h
      | ok actions =>
        cases htable : e.valueInt native.cast "table_id" 0 with
        | error err => simp [hpriority, hmatch, hactions, htable, bind, Except.bind] at h
        | ok tableId =>
          simp only [hpriority, hmatch, hactions, htable, htoken, bind, Except.bind, pure,
            Except.pure, Except.ok.injEq] at h
          subst h
          exact lookup_put_self _ _ _

theorem PutByInstall.find_eq {queued : List (Batch F)} {token : ℕ} {row : Json F}
    (h : PutByInstall native queued token row) :
    row.find pendingTokenField = some (.int token) := by
  induction h with
  | install _ _ htoken hrow => exact find_newFlow hrow htoken
  | modify _ _ _ hrow ih => rw [find_modifiedFlow hrow, ih]

/-- No row of the replies has a member of the token's name. -/
def Reserved (replies : List (Json F)) : Prop :=
  ∀ flows ∈ replies, ∀ row ∈ rowsOf flows, row.find pendingTokenField = none

theorem Polled.find_eq {queued : List (Batch F)} {replies : List (Json F)}
    (hreplies : Reserved replies) {row : Json F} (h : Polled native queued replies row) :
    row.find pendingTokenField = none := by
  induction h with
  | poll hflows hrow => exact hreplies _ hflows _ hrow
  | modify _ _ _ hrow ih => rw [find_modifiedFlow hrow, ih]

theorem tokenOf_of_none {row : Json F} (h : row.find pendingTokenField = none) :
    tokenOf native row = .ok 0 := by
  cases row with
  | obj fields =>
    have hlookup : fields.lookup pendingTokenField = none := h
    simp [tokenOf, value, hlookup, getUint64, bind, Except.bind]
  | _ => rfl

theorem tokenOf_of_some {row : Json F} {token : ℕ} (hlt : token < 2 ^ 64)
    (h : row.find pendingTokenField = some (.int token)) : tokenOf native row = .ok token := by
  cases row with
  | obj fields =>
    have hlookup : fields.lookup pendingTokenField = some (.int token) := h
    simp only [tokenOf, value, hlookup, getUint64, bind, Except.bind, Option.getD_some]
    rw [BitVec.ofInt_natCast, BitVec.toNat_ofNat, Nat.mod_eq_of_lt hlt]
  | _ => cases h

theorem find_eraseToken (row : Json F) : (eraseToken row).find pendingTokenField = none := by
  cases row with
  | obj fields =>
    refine List.lookup_eq_none_iff.mpr ?_
    intro p hp
    have hne := (List.mem_filter.mp hp).2
    simpa using fun h => (of_decide_eq_true hne) h.symm
  | _ => rfl

theorem eraseToken_of_none {row : Json F} (h : row.find pendingTokenField = none) :
    eraseToken row = row := by
  cases row with
  | obj fields =>
    have hlookup : fields.lookup pendingTokenField = none := h
    refine congrArg Json.obj (List.filter_eq_self.mpr fun p hp => ?_)
    have hne := List.lookup_eq_none_iff.mp hlookup p hp
    simpa using fun h => (bne_iff_ne.mp (by simpa [bne] using hne)) h.symm
  | _ => rfl

/-! ### The view of a document -/

variable (native) in
/-- The token of a row, 0 where it has none. -/
def token (row : Json F) : ℕ := ((tokenOf native row).toOption).getD 0

variable (native) in
/-- A row is shown when it has no token, or its token is confirmed. -/
def visible (isProgrammed : ℕ → Bool) (row : Json F) : Bool :=
  token native row = 0 || isProgrammed (token native row)

section View

variable (native) {own installed : Json F → Prop} (hown : ∀ row, own row → row.find pendingTokenField = none)
  (hinst : ∀ row, installed row →
    ∃ t : ℕ, 0 < t ∧ t < 2 ^ 64 ∧ row.find pendingTokenField = some (.int t))
  (isProgrammed : ℕ → Bool)

include hown in
theorem visible_of_own {row : Json F} (h : own row) :
    visible native isProgrammed row = true ∧ eraseToken row = row := by
  have htoken : token native row = 0 := by
    rw [token, tokenOf_of_none (hown row h)]
    rfl
  exact ⟨by simp [visible, htoken], eraseToken_of_none (hown row h)⟩

include hown hinst in
theorem servedRows_eq {rows : List (Json F)} (h : ∀ row ∈ rows, own row ∨ installed row) :
    servedRows native (some isProgrammed) rows =
      .ok ((rows.filter (visible native isProgrammed)).map eraseToken) := by
  induction rows with
  | nil => rfl
  | cons row rows ih =>
    have hrest := ih fun row' hrow' => h row' (List.mem_cons_of_mem _ hrow')
    have htoken : tokenOf native row = .ok (token native row) := by
      rcases h row List.mem_cons_self with hrow | hrow
      · rw [token, tokenOf_of_none (hown row hrow)]
        rfl
      · obtain ⟨t, -, hlt, hfind⟩ := hinst row hrow
        rw [token, tokenOf_of_some hlt hfind]
        rfl
    rw [servedRows, htoken, hrest]
    cases hvisible : visible native isProgrammed row with
    | true =>
      have hkept : ¬ (token native row ≠ 0 ∧ (!(some isProgrammed).any (· (token native row))) = true) := by
        rintro ⟨hne, hnot⟩
        simp [visible, hne] at hvisible
        simp [hvisible] at hnot
      simp only [bind, Except.bind, if_neg hkept, pure, Except.pure]
      rw [List.filter_cons_of_pos hvisible, List.map_cons]
    | false =>
      have hheld : token native row ≠ 0 ∧ (!(some isProgrammed).any (· (token native row))) = true := by
        simpa [visible] using hvisible
      simp only [bind, Except.bind, if_pos hheld, pure, Except.pure]
      rw [List.filter_cons_of_neg (by simp [hvisible])]

include hown in
/-- Where no install has put a row, every row is shown as it is. -/
theorem shown_of_own {rows : List (Json F)} (h : ∀ row ∈ rows, own row) :
    (rows.filter (visible native isProgrammed)).map eraseToken = rows := by
  have hall : rows.filter (visible native isProgrammed) = rows :=
    List.filter_eq_self.mpr fun row hrow =>
      (visible_of_own native hown isProgrammed (h row hrow)).1
  rw [hall]
  exact (List.map_congr_left fun row hrow =>
    (visible_of_own native hown isProgrammed (h row hrow)).2).trans (List.map_id rows)

include hown hinst in
theorem servedTables_eq {tables : List (String × Json F)}
    (h : ∀ p ∈ tables, TableOk own installed p.2) :
    ∃ shown, servedTables native (some isProgrammed) tables = .ok shown ∧
      (shown.flatMap fun p => p.2.elements) =
        ((tables.flatMap fun p => p.2.elements).filter
          (visible native isProgrammed)).map eraseToken := by
  induction tables with
  | nil => exact ⟨[], rfl, rfl⟩
  | cons p tables ih =>
    obtain ⟨shown, hshown, hrows⟩ := ih fun p' hp' => h p' (List.mem_cons_of_mem _ hp')
    have hp := h p List.mem_cons_self
    obtain ⟨key, table⟩ := p
    have hother : (∀ row ∈ table.elements, own row) →
        (((key, table) :: shown).flatMap fun p => p.2.elements) =
          ((((key, table) :: tables).flatMap fun p => p.2.elements).filter
            (visible native isProgrammed)).map eraseToken := by
      intro hall
      rw [List.flatMap_cons, List.flatMap_cons, List.filter_append, List.map_append, hrows,
        shown_of_own native hown isProgrammed hall]
    cases table with
    | arr rows =>
      refine ⟨(key, .arr ((rows.filter (visible native isProgrammed)).map eraseToken)) :: shown,
        ?_, ?_⟩
      · rw [servedTables, servedRows_eq native hown hinst isProgrammed hp, hshown]
        rfl
      · rw [List.flatMap_cons, List.flatMap_cons, List.filter_append, List.map_append, hrows]
        rfl
    | _ =>
      refine ⟨(key, _) :: shown, ?_, hother hp⟩
      rw [servedTables, hshown]
      · rfl
      · exact nofun

include hown hinst in
/-- **The view of a document**: each switch with the rows that are shown, without their tokens. -/
theorem stripUnprogrammedEntries_eq {cache : Cache F} (h : CacheOk own installed cache) :
    ∃ view, stripUnprogrammedEntries native (some isProgrammed) cache = .ok view ∧
      List.Forall₂ (fun sw shown => shown = { sw with flows := shown.flows } ∧
        rowsOf shown.flows =
          ((rowsOf sw.flows).filter (visible native isProgrammed)).map eraseToken) cache view := by
  induction cache with
  | nil => exact ⟨[], rfl, .nil⟩
  | cons sw cache ih =>
    obtain ⟨view, hview, hall⟩ := ih fun sw' hsw' => h sw' (List.mem_cons_of_mem _ hsw')
    have hsw := h sw List.mem_cons_self
    cases hflows : sw.flows with
    | obj tables =>
      rw [hflows] at hsw
      obtain ⟨shown, hshown, hrows⟩ := servedTables_eq native hown hinst isProgrammed hsw
      refine ⟨{ sw with flows := .obj shown } :: view, ?_, .cons ⟨rfl, ?_⟩ hall⟩
      · simp only [stripUnprogrammedEntries, hflows, hshown, hview, bind, Except.bind, pure,
          Except.pure]
      · rw [hflows]
        exact hrows
    | _ =>
      rw [hflows] at hsw
      refine ⟨sw :: view, ?_, .cons ⟨rfl, ?_⟩ hall⟩
      · simp only [stripUnprogrammedEntries, hflows, hview, bind, Except.bind, pure, Except.pure]
        rw [← hflows]
      · rw [hflows]
        exact (shown_of_own native hown isProgrammed hsw).symm

end View

/-! ### The tokens of a run -/

variable (native) in
/-- How many tokens a request is given: one for each install, unless it is refused before that. -/
def mintedBy : Event F → ℕ
  | .request _ j => match readBatch j with
    | .ok b => if shapeProblems native b = [] then b.installs.length else 0
    | .error _ => 0
  | _ => 0

variable (native) in
/-- How many tokens a run has given away. -/
def minted (events : List (Event F)) : ℕ := (events.map (mintedBy native)).sum

theorem minted_append_singleton (events : List (Event F)) (event : Event F) :
    minted native (events ++ [event]) = minted native events + mintedBy native event := by
  simp [minted]

/-- **Each install has a token of its own**, counted on from the first one. -/
theorem annotateInstalls_spec {entries : List (Json F)} (hobj : ∀ e ∈ entries, e.isObj = true)
    {first : ℕ} (hfirst : first < 2 ^ 64) :
    (annotateInstalls first entries).2 = (first + entries.length) % 2 ^ 64 ∧
      ∀ e ∈ (annotateInstalls first entries).1, ∃ i < entries.length,
        e.find pendingTokenField = some (.int ((first + i) % 2 ^ 64 : ℕ)) := by
  induction entries generalizing first with
  | nil => exact ⟨(Nat.mod_eq_of_lt hfirst).symm, nofun⟩
  | cons entry entries ih =>
    have hentry := hobj entry List.mem_cons_self
    cases entry with
    | obj fields =>
      obtain ⟨ih₁, ih₂⟩ := ih (fun e he => hobj e (List.mem_cons_of_mem _ he)) (succU_lt 64 first)
      have hstep := succU_add_mod 64 first
      refine ⟨?_, ?_⟩
      · show (annotateInstalls (succU 64 first) entries).2 = _
        rw [ih₁, hstep, List.length_cons]
      · intro e he
        rcases List.mem_cons.mp he with rfl | he
        · refine ⟨0, Nat.succ_pos _, ?_⟩
          show List.lookup _ _ = _
          rw [lookup_put_self, Nat.add_zero, Nat.mod_eq_of_lt hfirst]
        · obtain ⟨i, hi, hfind⟩ := ih₂ e he
          exact ⟨i + 1, Nat.succ_lt_succ hi, by rw [hfind, hstep]⟩
    | _ => cases hentry

theorem isObj_of_shaped {e : Json F} (h : Shaped e) : e.isObj = true := by
  obtain ⟨fields, rfl, -⟩ := h
  rfl

/-- What a request does to the counter, and how its installs are stamped if it is queued. -/
theorem admitBatch_tokens (native : Native F) (kindOf : ℕ → Option SwitchKind) {first : ℕ}
    (hfirst : first < 2 ^ 64) (j : Json F) :
    (admitBatch native kindOf first j).2 =
        (first + mintedBy native (.request kindOf j)) % 2 ^ 64 ∧
      ∀ admitted, (admitBatch native kindOf first j).1 = .ok admitted →
        ∀ e ∈ admitted.batch.installs, ∃ i < mintedBy native (.request kindOf j),
          e.find pendingTokenField = some (.int ((first + i) % 2 ^ 64 : ℕ)) := by
  rw [admitBatch, mintedBy]
  cases hread : readBatch j with
  | error refusal => exact ⟨(Nat.mod_eq_of_lt hfirst).symm, by simp⟩
  | ok b =>
    by_cases hproblems : shapeProblems native b = []
    · have hnil := hproblems
      simp only [shapeProblems, List.append_eq_nil_iff] at hnil
      have hobj : ∀ e ∈ b.installs, e.isObj = true := fun e he =>
        isObj_of_shaped (describeFlowEntryShapeProblem_eq_none
          (collectShapeProblems_eq_nil hnil.1.1 e he))
      obtain ⟨hnext, hstamped⟩ := annotateInstalls_spec hobj hfirst
      simp only [hproblems, ne_eq, not_true_eq_false, if_false, if_true]
      split
      · exact ⟨hnext, by simp⟩
      · split
        · exact ⟨hnext, by simp⟩
        · split
          · exact ⟨hnext, by simp⟩
          · refine ⟨hnext, ?_⟩
            intro admitted hadmitted
            cases hadmitted
            exact hstamped
    · simp only [hproblems, ne_eq, not_false_eq_true, if_true, if_false]
      exact ⟨(Nat.mod_eq_of_lt hfirst).symm, by simp⟩

/-! ### The invariant of a run -/

/-- An outcome of a job with the token said that a switch has its rule. -/
def Confirmed (outcomes : List (Outcome F)) (token : ℕ) : Prop :=
  ∃ o ∈ outcomes, o.job.token = token ∧ o.result.ok = true ∧ o.result.confirmsProgramming = true

variable (native) in
/-- What holds along every run: every row comes from somewhere, what is confirmed was confirmed by
an outcome, and every install has a token, which while tokens last is not 0. -/
structure Sound (events : List (Event F)) (s : Kernel F) : Prop where
  cache : CacheOk
    (fun row => Polled native s.queued (events.flatMap Event.replies) row ∨ row = .null)
    (fun row => ∃ t, PutByInstall native s.queued t row) s.cache
  pending : s.pending ⊆ s.queued
  log : ∀ t ≠ 0, s.log.isProgrammed t = true → Confirmed (events.filterMap Event.outcome?) t
  counter : s.nextPendingToken = (1 + minted native events) % 2 ^ 64
  stamped : ∀ b ∈ s.queued, ∀ e ∈ b.installs, ∃ t : ℕ, t < 2 ^ 64 ∧
    e.find pendingTokenField = some (.int t) ∧ (minted native events < 2 ^ 64 → 0 < t)

theorem CacheOk.mono {own own' installed installed' : Json F → Prop} (hown : ∀ row, own row → own' row)
    (hinst : ∀ row, installed row → installed' row) {cache : Cache F}
    (h : CacheOk own installed cache) : CacheOk own' installed' cache := by
  intro sw hsw
  have hsw' := h sw hsw
  cases hflows : sw.flows with
  | obj tables =>
    rw [hflows] at hsw'
    intro p hp
    have hp' := hsw' p hp
    cases htable : p.2 with
    | arr rows =>
      rw [htable] at hp'
      exact fun row hrow => (hp' row hrow).imp (hown row) (hinst row)
    | _ =>
      rw [htable] at hp'
      exact fun row hrow => hown row (hp' row hrow)
  | _ =>
    rw [hflows] at hsw'
    exact fun row hrow => hown row (hsw' row hrow)

theorem Confirmed.mono {outcomes outcomes' : List (Outcome F)} (h : outcomes ⊆ outcomes') {t : ℕ}
    (hc : Confirmed outcomes t) : Confirmed outcomes' t := by
  obtain ⟨o, ho, hconfirms⟩ := hc
  exact ⟨o, h ho, hconfirms⟩

/-- The document stays as it was when more is known of the run. -/
theorem Sound.cache_mono {events : List (Event F)} {s : Kernel F} (h : Sound native events s)
    {queued : List (Batch F)} (hqueued : s.queued ⊆ queued) (event : Event F) :
    CacheOk
      (fun row => Polled native queued ((events ++ [event]).flatMap Event.replies) row ∨
        row = .null)
      (fun row => ∃ t, PutByInstall native queued t row) s.cache := by
  refine h.cache.mono (fun row hrow => hrow.imp_left ?_) fun row ⟨t, ht⟩ => ⟨t, ht.mono hqueued⟩
  refine Polled.mono hqueued ?_
  intro flows hflows
  rw [List.flatMap_append]
  exact List.mem_append_left _ hflows

theorem Sound.log_mono {events : List (Event F)} {s : Kernel F} (h : Sound native events s)
    (event : Event F) : ∀ t ≠ 0, s.log.isProgrammed t = true →
      Confirmed ((events ++ [event]).filterMap Event.outcome?) t := by
  intro t ht hprogrammed
  refine (h.log t ht hprogrammed).mono ?_
  intro o ho
  rw [List.filterMap_append]
  exact List.mem_append_left _ ho

/-- An event that gives no token away changes nothing of the counter and of the stamps. -/
theorem Sound.counter_of_zero {events : List (Event F)} {s : Kernel F} (h : Sound native events s)
    (event : Event F) (hzero : mintedBy native event = 0) :
    minted native (events ++ [event]) = minted native events ∧
      s.nextPendingToken = (1 + minted native (events ++ [event])) % 2 ^ 64 := by
  have heq : minted native (events ++ [event]) = minted native events := by
    rw [minted_append_singleton, hzero, Nat.add_zero]
  exact ⟨heq, by rw [heq]; exact h.counter⟩

/-- A request. -/
theorem Sound.request {events : List (Event F)} {s s' : Kernel F} (h : Sound native events s)
    {kindOf : ℕ → Option SwitchKind} {j : Json F}
    (hstep : step native s (.request kindOf j) = some s') :
    Sound native (events ++ [Event.request kindOf j]) s' := by
  have hlt : s.nextPendingToken < 2 ^ 64 := by
    rw [h.counter]
    exact Nat.mod_lt _ (by norm_num)
  obtain ⟨hnext, hstamped⟩ := admitBatch_tokens native kindOf hlt j
  have hcounter : (admitBatch native kindOf s.nextPendingToken j).2 =
      (1 + minted native (events ++ [Event.request kindOf j])) % 2 ^ 64 := by
    rw [hnext, h.counter, minted_append_singleton, Nat.mod_add_mod, Nat.add_assoc]
  have hold : ∀ b ∈ s.queued, ∀ e ∈ b.installs, ∃ t : ℕ, t < 2 ^ 64 ∧
      e.find pendingTokenField = some (.int t) ∧
        (minted native (events ++ [Event.request kindOf j]) < 2 ^ 64 → 0 < t) := by
    intro b hb e he
    obtain ⟨t, ht, hfind, hpos⟩ := h.stamped b hb e he
    refine ⟨t, ht, hfind, fun hminted => hpos ?_⟩
    rw [minted_append_singleton] at hminted
    omega
  rw [step] at hstep
  rcases hanswered : admitBatch native kindOf s.nextPendingToken j with ⟨answer, next⟩
  rw [hanswered] at hstep hcounter hstamped
  cases answer with
  | error refusal =>
    cases hstep
    exact ⟨h.cache_mono (List.Subset.refl _) _, h.pending, h.log_mono _, hcounter, hold⟩
  | ok admitted =>
    cases hstep
    have hsub : s.queued ⊆ s.queued ++ [admitted.batch] := List.subset_append_left _ _
    refine ⟨h.cache_mono hsub _, ?_, ?_, hcounter, ?_⟩
    · exact List.append_subset.mpr ⟨List.Subset.trans h.pending hsub, List.subset_append_right _ _⟩
    · intro t ht hprogrammed
      refine h.log_mono _ t ht ?_
      simpa [DispatchOutcomeLog.isProgrammed] using hprogrammed
    · intro b hb e he
      rcases List.mem_append.mp hb with hb | hb
      · exact hold b hb e he
      · -- the tokens of this batch are the next ones
        rw [List.mem_singleton.mp hb] at he
        obtain ⟨i, hi, hfind⟩ := hstamped admitted rfl e he
        refine ⟨_, Nat.mod_lt _ (by norm_num), hfind, ?_⟩
        intro hminted
        rw [minted_append_singleton] at hminted
        rw [h.counter, Nat.mod_add_mod, Nat.mod_eq_of_lt (by omega)]
        omega

/-- A queued batch is written into the tables. -/
theorem Sound.update {events : List (Event F)} {s s' : Kernel F} (h : Sound native events s)
    {isSwitch : ℕ → Bool} {i : ℕ} (hstep : step native s (.update isSwitch i) = some s') :
    Sound native (events ++ [Event.update isSwitch i]) s' := by
  obtain ⟨hminted, hcounter⟩ := h.counter_of_zero (.update isSwitch i) rfl
  rw [step] at hstep
  cases hpending : s.pending[i]? with
  | none =>
    rw [hpending] at hstep
    cases hstep
  | some b =>
    rw [hpending] at hstep
    cases hstep
    have hb : b ∈ s.queued := h.pending (List.mem_of_getElem? hpending)
    refine ⟨?_, ?_, h.log_mono _, hcounter, ?_⟩
    · refine updateOpenFlowTables_keeps (.inr rfl) ?_ ?_ ?_ isSwitch
        (h.cache_mono (List.Subset.refl _) _)
      · intro e he row hrow
        obtain ⟨t, -, hfind, -⟩ := h.stamped b hb e he
        exact ⟨t, .install hb he hfind hrow⟩
      · rintro e he row row' (hrow | rfl) hmod
        · exact .inl (.modify hb he hrow hmod)
        · cases hmod
          exact .inr rfl
      · rintro e he row row' ⟨t, hput⟩ hmod
        exact ⟨t, .modify hb he hput hmod⟩
    · exact List.Subset.trans (List.eraseIdx_sublist _ _).subset h.pending
    · rw [hminted]
      exact h.stamped

/-- An outcome is recorded. -/
theorem Sound.outcome {events : List (Event F)} {s s' : Kernel F} (h : Sound native events s)
    {o : Outcome F} (hstep : step native s (.outcome o) = some s') :
    Sound native (events ++ [Event.outcome o]) s' := by
  obtain ⟨hminted, hcounter⟩ := h.counter_of_zero (.outcome o) rfl
  cases hstep
  refine ⟨h.cache_mono (List.Subset.refl _) _, h.pending, ?_, hcounter, ?_⟩
  · intro t ht hprogrammed
    rcases DispatchOutcomeLog.isProgrammed_record ht hprogrammed with hbefore | hnow
    · exact h.log_mono _ t ht hbefore
    · refine ⟨o, ?_, hnow⟩
      rw [List.filterMap_append]
      exact List.mem_append_right _ (List.mem_singleton_self o)
  · rw [hminted]
    exact h.stamped

/-- A poll comes back. -/
theorem Sound.poll {events : List (Event F)} {s s' : Kernel F} (h : Sound native events s)
    {answers : List (ℕ × PollAnswer F)} {now : ℤ}
    (hstep : step native s (.poll answers now) = some s') :
    Sound native (events ++ [Event.poll answers now]) s' := by
  obtain ⟨hminted, hcounter⟩ := h.counter_of_zero (.poll answers now) rfl
  cases hstep
  refine ⟨?_, h.pending, h.log_mono _, hcounter, ?_⟩
  · refine applyFetchedTables_keeps (fun flows hflows row hrow => .inl (.poll ?_ hrow))
      (h.cache_mono (List.Subset.refl _) _)
    rw [List.flatMap_append]
    exact List.mem_append_right _ (List.mem_flatMap.mpr ⟨_, List.mem_singleton_self _, hflows⟩)
  · rw [hminted]
    exact h.stamped

theorem Sound.init : Sound native [] {} where
  cache _ hsw := absurd hsw List.not_mem_nil
  pending _ hb := hb
  log t ht hprogrammed := by simp [DispatchOutcomeLog.isProgrammed, ht] at hprogrammed
  counter := by norm_num [minted]
  stamped _ hb := absurd hb List.not_mem_nil

/-- **The invariant of every run.** -/
theorem run_sound {events : List (Event F)} {s : Kernel F}
    (h : Machine.run (step native) {} events = some s) : Sound native events s := by
  refine Machine.run_invariant (P := Sound native) Sound.init ?_ h
  intro events s event s' _ hsound hstep
  cases event with
  | request kindOf j => exact hsound.request hstep
  | update isSwitch i => exact hsound.update hstep
  | outcome o => exact hsound.outcome hstep
  | poll answers now => exact hsound.poll hstep

/-! ### What is served -/

variable (native) in
/-- What the view may show of a switch, in a run with these replies and outcomes: `keep` is which
of its rows are shown. -/
structure ShowsSwitch (queued : List (Batch F)) (replies : List (Json F))
    (outcomes : List (Outcome F)) (keep : Json F → Bool) (sw shown : CachedSwitch F) : Prop where
  /-- Only the tables differ. -/
  same : shown = { sw with flows := shown.flows }
  /-- The rows that are kept are shown, in order, without their tokens. -/
  rows : rowsOf shown.flows = ((rowsOf sw.flows).filter keep).map eraseToken
  /-- Every row comes from somewhere. -/
  known : ∀ row ∈ rowsOf sw.flows,
    Polled native queued replies row ∨ (∃ t, PutByInstall native queued t row) ∨ row = .null
  /-- A row that an install has put has a token, and is kept only when it is confirmed. -/
  confirmed : ∀ row ∈ rowsOf sw.flows, ∀ t, PutByInstall native queued t row →
    row.find pendingTokenField = some (.int t) ∧ t ≠ 0 ∧
      (keep row = true → Confirmed outcomes t)
  /-- A row that came with a poll is kept. -/
  polled : ∀ row ∈ rowsOf sw.flows, Polled native queued replies row → keep row = true
  /-- No token is shown. -/
  stripped : ∀ row ∈ rowsOf shown.flows, row.find pendingTokenField = none

variable (native) in
/-- The view of a run is what it may be, switch by switch. -/
def Served (events : List (Event F)) (s : Kernel F) (during : List (Outcome F)) (moment : ℕ → ℕ) :
    Prop :=
  ∃ view keep, getOpenFlowTables native s during moment = .ok view ∧
    List.Forall₂ (ShowsSwitch native s.queued (events.flatMap Event.replies)
      (events.filterMap Event.outcome? ++ during) keep) s.cache view

theorem PutByInstall.stamped {queued : List (Batch F)} {P : ℕ → Prop}
    (h : ∀ b ∈ queued, ∀ e ∈ b.installs, ∃ t : ℕ, P t ∧ e.find pendingTokenField = some (.int t))
    {t : ℕ} {row : Json F} (hput : PutByInstall native queued t row) : P t := by
  induction hput with
  | install hb he htoken _ =>
    obtain ⟨t', hP, hfind⟩ := h _ hb _ he
    rw [htoken] at hfind
    cases hfind
    exact hP
  | modify _ _ _ _ ih => exact ih

theorem confirmed_recordAll {log : DispatchOutcomeLog F} {before during : List (Outcome F)}
    (h : ∀ t ≠ 0, log.isProgrammed t = true → Confirmed before t) {t : ℕ} (ht : t ≠ 0)
    (hprogrammed : (recordAll log during).isProgrammed t = true) :
    Confirmed (before ++ during) t := by
  induction during generalizing log before with
  | nil =>
    rw [List.append_nil]
    exact h t ht hprogrammed
  | cons o during ih =>
    have hstep : ∀ t ≠ 0, (log.record o.nowUnixMs o.job o.result).isProgrammed t = true →
        Confirmed (before ++ [o]) t := by
      intro t ht hone
      rcases DispatchOutcomeLog.isProgrammed_record ht hone with hbefore | hnow
      · exact (h t ht hbefore).mono (List.subset_append_left _ _)
      · exact ⟨o, List.mem_append_right _ (List.mem_singleton_self o), hnow⟩
    have hrest := ih hstep hprogrammed
    rwa [List.append_assoc] at hrest

theorem known_of_flowsOk {own installed : Json F → Prop} {flows : Json F}
    (h : FlowsOk own installed flows) : ∀ row ∈ rowsOf flows, own row ∨ installed row := by
  cases flows with
  | obj tables =>
    intro row hrow
    obtain ⟨p, hp, hrow⟩ := List.mem_flatMap.mp hrow
    have hp' := h p hp
    cases htable : p.2 with
    | arr rows =>
      rw [htable] at hp' hrow
      exact hp' row hrow
    | _ =>
      rw [htable] at hp' hrow
      exact .inl (hp' row hrow)
  | _ => exact fun row hrow => .inl (h row hrow)

/-- **The view shows no install that was not confirmed**, shows every row of a poll, and no token:
in every run whose replies leave the token's name alone and in which tokens last, whatever is
recorded while it is read. -/
theorem run_served {events : List (Event F)} {s : Kernel F}
    (h : Machine.run (step native) {} events = some s)
    (hreserved : Reserved (events.flatMap Event.replies)) (hminted : minted native events < 2 ^ 64)
    (during : List (Outcome F)) (moment : ℕ → ℕ) : Served native events s during moment := by
  have hsound := run_sound h
  have hstamped : ∀ {t : ℕ} {row : Json F}, PutByInstall native s.queued t row →
      0 < t ∧ t < 2 ^ 64 := by
    intro t row hput
    refine hput.stamped (P := fun t => 0 < t ∧ t < 2 ^ 64) ?_
    intro b hb e he
    obtain ⟨t, hlt, hfind, hpos⟩ := hsound.stamped b hb e he
    exact ⟨t, ⟨hpos hminted, hlt⟩, hfind⟩
  have hown : ∀ row, (Polled native s.queued (events.flatMap Event.replies) row ∨ row = .null) →
      row.find pendingTokenField = none := by
    rintro row (hpolled | rfl)
    · exact hpolled.find_eq hreserved
    · rfl
  have hinst : ∀ row, (∃ t, PutByInstall native s.queued t row) →
      ∃ t : ℕ, 0 < t ∧ t < 2 ^ 64 ∧ row.find pendingTokenField = some (.int t) := by
    rintro row ⟨t, hput⟩
    exact ⟨t, (hstamped hput).1, (hstamped hput).2, hput.find_eq⟩
  obtain ⟨view, hview, hall⟩ := stripUnprogrammedEntries_eq native hown hinst
    (fun token => (recordAll s.log (during.take (moment token))).isProgrammed token) hsound.cache
  refine ⟨view, visible native fun token =>
    (recordAll s.log (during.take (moment token))).isProgrammed token, hview, ?_⟩
  refine ((List.forall₂_and_left s.cache view).mpr ⟨hsound.cache, hall⟩).imp ?_
  rintro sw shown ⟨hsw, hsame, hrows⟩
  refine ⟨hsame, hrows, ?_, ?_, ?_, ?_⟩
  · intro row hrow
    rcases known_of_flowsOk hsw row hrow with (hpolled | hnull) | hput
    · exact .inl hpolled
    · exact .inr (.inr hnull)
    · exact .inr (.inl hput)
  · intro row _ t hput
    have hne : t ≠ 0 := (hstamped hput).1.ne'
    refine ⟨hput.find_eq, hne, ?_⟩
    intro hkeep
    -- the answer for its token was given at some moment of the read
    have htoken : token native row = t := by
      rw [token, tokenOf_of_some (hstamped hput).2 hput.find_eq]
      rfl
    have hanswer : (recordAll s.log (during.take (moment t))).isProgrammed t = true := by
      simpa [visible, htoken, hne] using hkeep
    refine (confirmed_recordAll hsound.log hne hanswer).mono ?_
    exact List.append_subset.mpr ⟨List.subset_append_left _ _,
      List.Subset.trans (List.take_subset _ _) (List.subset_append_right _ _)⟩
  · intro row _ hpolled
    exact (visible_of_own native hown _ (.inl hpolled)).1
  · intro row hrow
    rw [hrows] at hrow
    obtain ⟨row', -, rfl⟩ := List.mem_map.mp hrow
    exact find_eraseToken row'

/-! ### Runs of a fabric with one switch -/

/-- A fabric with one switch, which runs the P4 pipeline. -/
def oneBmv2 (d : ℕ) : Option SwitchKind := if d = 1 then some .bmv2 else none

/-- A request to drop everything at switch 1. -/
def dropRequest : Json Empty :=
  .obj [("install_flow_entries", .arr [.obj [("actions", .arr []), ("dpid", .int 1)]])]

/-- A poll that brings one row of switch 1. -/
def pollOf (row : Json Empty) : Event Empty :=
  .poll [(1, .reply (.obj [("1", .arr [row])]) false)] 0

/-- The row of a rule with counters. -/
def countedRow : Json Empty := .obj [("packet_count", .int 3), ("priority", .int 10)]

/-- The switch has the rule of the first request. -/
def confirmation : Outcome Empty :=
  { nowUnixMs := 0
    job := { dpid := 1, op := .install, priority := 0, matchFields := .obj [], token := 1 }
    result := { ok := true, httpStatus := 200, confirmsProgramming := true } }

/-- A poll, a request, and the confirmation of its job before it is written into the tables. -/
def confirmedRun : List (Event Empty) :=
  [pollOf countedRow, .request oneBmv2 dropRequest, .outcome confirmation,
    .update (fun d => (oneBmv2 d).isSome) 0]

/-- Both rows are shown: the one of the poll, and the one of the install. -/
theorem confirmedRun_served :
    ∃ s, Machine.run (step noFloats) {} confirmedRun = some s ∧
      Served noFloats confirmedRun s [] (fun _ => 0) ∧
      (getOpenFlowTables noFloats s [] fun _ => 0).map
        (List.map fun sw => (rowsOf sw.flows).length) = .ok [2] := by
  refine ⟨_, rfl, run_served rfl ?_ (by decide +kernel) [] _, rfl⟩
  intro flows hflows row hrow
  have hflows' : flows = .obj [("1", .arr [countedRow])] := by
    simpa [confirmedRun, pollOf, Event.replies] using hflows
  subst hflows'
  rw [List.mem_singleton.mp hrow]
  rfl

/-- A row of a poll that has a member of the token's name. -/
def markedRow : Json Empty := .obj [(pendingTokenField, .int 7)]

/-- Requests for a switch that is not there are refused, and use up a token each. -/
theorem run_refused (n : ℕ) (s : Kernel Empty) (hs : s.nextPendingToken < 2 ^ 64) :
    Machine.run (step noFloats) s (List.replicate n (.request (fun _ => none) dropRequest)) =
      some { s with nextPendingToken := (s.nextPendingToken + n) % 2 ^ 64 } := by
  induction n generalizing s with
  | zero =>
    rw [Nat.add_zero, Nat.mod_eq_of_lt hs]
    rfl
  | succ n ih =>
    have hstep : step noFloats s (.request (fun _ => none) dropRequest) =
        some { s with nextPendingToken := succU 64 s.nextPendingToken } := rfl
    rw [List.replicate_succ, Machine.run, hstep, Option.bind_some,
      ih _ (succU_lt ..), succU_add_mod]

/-- So many refused requests that the next token is 0, and then one that is queued and written into
the tables. -/
def spentRun : List (Event Empty) :=
  List.replicate (2 ^ 64 - 1) (.request (fun _ => none) dropRequest) ++
    [.request oneBmv2 dropRequest, .update (fun d => (oneBmv2 d).isSome) 0]

theorem run_spentRun : Machine.run (step noFloats) {} spentRun =
    Machine.run (step noFloats) { nextPendingToken := 0 }
      [.request oneBmv2 dropRequest, .update (fun d => (oneBmv2 d).isSome) 0] := by
  rw [spentRun, Machine.run_append, run_refused _ _ (by norm_num)]
  norm_num

theorem outcomes_spentRun : spentRun.filterMap Event.outcome? = [] := by
  rw [spentRun, List.filterMap_append, List.filterMap_replicate_of_none rfl]
  rfl

/-- A row of the view was kept. -/
theorem ShowsSwitch.keep_of_rows {queued : List (Batch F)} {replies : List (Json F)}
    {outcomes : List (Outcome F)} {keep : Json F → Bool} {sw shown : CachedSwitch F}
    (h : ShowsSwitch native queued replies outcomes keep sw shown) {row : Json F}
    (hsw : rowsOf sw.flows = [row]) : keep row = true ↔ rowsOf shown.flows ≠ [] := by
  rw [h.rows, hsw]
  cases hkeep : keep row with
  | false => simp [hkeep]
  | true => simp [hkeep]

/-- **A reply may use the token's name, and tokens run out**: a row of a poll is withheld when it
has a member of that name, and the install that comes after 2⁶⁴ - 1 tokens is shown without being
confirmed. -/
theorem run_not_served :
    (∃ s, Machine.run (step noFloats) {} [pollOf markedRow] = some s ∧
      ¬ Served noFloats [pollOf markedRow] s [] fun _ => 0) ∧
    ∃ s, Machine.run (step noFloats) {} spentRun = some s ∧
      ¬ Served noFloats spentRun s [] fun _ => 0 := by
  constructor
  · refine ⟨_, rfl, ?_⟩
    rintro ⟨view, keep, hview, hall⟩
    cases hview
    rcases hall with _ | ⟨hsw, -⟩
    have hpolled := hsw.polled markedRow (List.mem_singleton_self _)
      (.poll (List.mem_singleton_self _) (List.mem_singleton_self _))
    exact (hsw.keep_of_rows rfl).mp hpolled rfl
  · rw [run_spentRun]
    refine ⟨_, rfl, ?_⟩
    rintro ⟨view, keep, hview, hall⟩
    cases hview
    rcases hall with _ | ⟨hsw, -⟩
    have hput := hsw.confirmed _ (List.mem_singleton_self _) 0
      (.install (List.mem_singleton_self _) (List.mem_singleton_self _) rfl rfl)
    have hkept := (hsw.keep_of_rows rfl).mpr nofun
    obtain ⟨o, ho, -⟩ := hput.2.2 hkept
    rw [List.append_nil, outcomes_spentRun] at ho
    cases ho

end NDTwin.FlowTables
