import Mathlib.Logic.Function.Basic
import NDTwin.Classifier.Invariant
import NDTwin.Classifier.Update
import NDTwin.Lib.Machine

/-!
# The classifier as a table of polled rules

What a switch's tables are for is to answer from the rules last polled.  Marking and sweeping come
to this: the identities kept are those polled, and under each is the rule that was there before,
or else the first one polled.  Where no polled rule has the identity of a different rule, that is
the last poll itself.

## Main definitions

* `refresh` — what a poll of one switch makes of the rules held under each identity.
* `applications`, `lastApplied` — the flow arrays polls apply, and the last of a switch.
* `PollDistinct`, `Adopted` — no two different rules of one identity within a poll, and none
  across two polls of a switch.
* `Refines` — an answer that a plain scan over a list of rules may give.

## Main results

* `updateOneSwitch_spec` — **a poll of a switch refines `refresh`.**
* `run_held` — the rules held after any run of polls.
* `run_lookup_refines` — **lookups are scans over the rules last polled**, in every run whose polls
  meet the two conditions.
* `lookup_stale` — a poll that turns an output port into a group of the same number is not seen.
-/

namespace NDTwin.Classifier

open BestFirst

variable {F : Type}

/-! ### One switch -/

/-- The rules held under each identity after a poll: of those polled, the one that was there, or
else the first one polled. -/
def refresh (held : RuleId → Option Rule) (rules : List Rule) (id : RuleId) : Option Rule :=
  (rules.find? fun r => r.id = id).map fun r => (held id).getD r

/-- The rules of a flow array that can be read. -/
def parsed (flows : List (Json F)) : List Rule :=
  flows.filterMap fun flow => (parseRuleFromJson flow).toOption

/-- Everything held was seen by the last poll, and lookups are ready. -/
structure SwitchClassifier.Good (sw : SwitchClassifier) : Prop where
  wf : sw.WF
  settled : sw.Settled
  fresh : ∀ id s, sw.rulesById.lookup id = some s → s.lastSeenEpoch = sw.epoch

theorem SwitchClassifier.Good.new : SwitchClassifier.Good {} where
  wf := SwitchClassifier.WF.new
  settled _ _ h := by cases h
  fresh _ _ h := by cases h

/-- A flow array that is read to its end is put in rule by rule. -/
theorem upsertFlows_eq {sw sw' : SwitchClassifier} {flows : List (Json F)}
    (h : upsertFlows sw flows = (sw', none)) : sw' = (parsed flows).foldl upsertRule sw := by
  induction flows generalizing sw with
  | nil =>
    cases h
    rfl
  | cons flow flows ih =>
    rw [upsertFlows] at h
    cases hr : parseRuleFromJson flow with
    | error e =>
      rw [hr] at h
      cases h
    | ok r =>
      rw [hr] at h
      rw [ih h, parsed, parsed, List.filterMap_cons_some (by rw [hr]; rfl), List.foldl_cons]

/-- Flows that all can be read are read to their end. -/
theorem upsertFlows_of_ok {flows : List (Json F)} {rules : List Rule} (sw : SwitchClassifier)
    (h : List.Forall₂ (fun flow r => parseRuleFromJson flow = .ok r) flows rules) :
    upsertFlows sw flows = (rules.foldl upsertRule sw, none) := by
  induction h generalizing sw with
  | nil => rfl
  | cons hr _ ih =>
    rw [upsertFlows, hr]
    exact ih _

/-- What is held after the rules of a poll are put in, before the sweep. -/
theorem foldl_upsertRule (sw : SwitchClassifier) (rules : List Rule) :
    (sw.WF → (rules.foldl upsertRule sw).WF) ∧ (rules.foldl upsertRule sw).epoch = sw.epoch ∧
      ∀ id, (rules.foldl upsertRule sw).rulesById.lookup id =
        match rules.find? fun r => r.id = id with
        | some r => some ⟨(sw.ruleOf id).getD r, sw.epoch⟩
        | none => sw.rulesById.lookup id := by
  induction rules generalizing sw with
  | nil => simp
  | cons r rules ih =>
    obtain ⟨hwf, hepoch, hlookup⟩ := ih (upsertRule sw r)
    refine ⟨fun h => hwf (h.upsertRule r), hepoch.trans (epoch_upsertRule sw r), ?_⟩
    intro id
    rw [List.foldl_cons, hlookup, epoch_upsertRule, ruleOf_upsertRule, rulesById_upsertRule]
    by_cases hid : r.id = id
    · subst hid
      rw [List.find?_cons_of_pos (by simp), if_pos rfl, if_pos rfl]
      cases rules.find? fun r' => r'.id = r.id <;> rfl
    · rw [List.find?_cons_of_neg (by simp [hid]), if_neg (Ne.symm hid), if_neg (Ne.symm hid)]

/-- What a poll of a switch leaves under each identity, where nothing of before has its stamp. -/
theorem rulesById_updateOneSwitch {sort : BitVec 8 → List (KeyBytes × ℤ) → List (KeyBytes × ℤ)}
    {sw sw' : SwitchClassifier} {flows : List (Json F)}
    (hstale : ∀ id s, sw.rulesById.lookup id = some s → s.lastSeenEpoch ≠ sw.epoch + 1)
    (hupdate : updateOneSwitch sort sw flows = (sw', none)) :
    sw'.epoch = sw.epoch + 1 ∧ ∀ id, sw'.rulesById.lookup id =
      ((parsed flows).find? fun r => r.id = id).map fun r => ⟨(sw.ruleOf id).getD r, sw'.epoch⟩ := by
  rw [updateOneSwitch] at hupdate
  cases hflows : upsertFlows { sw with epoch := sw.epoch + 1 } flows with
  | mk sw₁ thrown =>
    rw [hflows] at hupdate
    cases thrown with
    | some e => cases hupdate
    | none =>
      cases hupdate
      obtain ⟨-, hepoch, hlookup⟩ :=
        foldl_upsertRule { sw with epoch := sw.epoch + 1 } (parsed flows)
      rw [← upsertFlows_eq hflows] at hepoch hlookup
      have hepoch' : (sweep sw₁).epoch = sw₁.epoch := (foldl_deleteRule sw₁ (toDelete sw₁)).2.1
      refine ⟨hepoch'.trans hepoch, ?_⟩
      intro id
      show (sweep sw₁).rulesById.lookup id = _
      rw [rulesById_sweep, hlookup]
      -- what an earlier poll saw last was not seen by this one
      cases (parsed flows).find? fun r => r.id = id with
      | some r =>
        have hstamp : (rebuildTables sort (sweep sw₁)).epoch = sw.epoch + 1 := hepoch'.trans hepoch
        simp [Option.filter, hepoch, hstamp]
        rfl
      | none =>
        cases hs : sw.rulesById.lookup id with
        | none => simp [Option.filter]
        | some s =>
          have hne : s.lastSeenEpoch ≠ sw₁.epoch := hepoch ▸ hstale id s hs
          simp [Option.filter, hne]

/-- **A poll of a switch refines `refresh`** and leaves the switch ready for lookups. -/
theorem updateOneSwitch_spec {sw sw' : SwitchClassifier} (h : sw.Good) (sorter : Sorter) (i : ℕ)
    {flows : List (Json F)} (hupdate : updateOneSwitch (sorter.sort i) sw flows = (sw', none)) :
    sw'.Good ∧ sw'.ruleOf = refresh sw.ruleOf (parsed flows) := by
  have hstale : ∀ id s, sw.rulesById.lookup id = some s → s.lastSeenEpoch ≠ sw.epoch + 1 := by
    intro id s hs
    rw [h.fresh id s hs]
    simp
  obtain ⟨-, hrules⟩ := rulesById_updateOneSwitch hstale hupdate
  rw [updateOneSwitch] at hupdate
  cases hflows : upsertFlows { sw with epoch := sw.epoch + 1 } flows with
  | mk sw₁ thrown =>
    rw [hflows] at hupdate
    cases thrown with
    | some e => cases hupdate
    | none =>
      cases hupdate
      have hwf := (foldl_upsertRule { sw with epoch := sw.epoch + 1 } (parsed flows)).1
      rw [← upsertFlows_eq hflows] at hwf
      have hwf₁ : sw₁.WF := hwf ⟨h.wf.tables, h.wf.home, h.wf.nodup, h.wf.stored, h.wf.ids⟩
      obtain ⟨hwf', hsettled⟩ :=
        ((foldl_deleteRule sw₁ (toDelete sw₁)).1 hwf₁).rebuildTables sorter i
      refine ⟨⟨hwf', hsettled, ?_⟩, ?_⟩
      · intro id s hs
        rw [hrules] at hs
        obtain ⟨r, -, rfl⟩ := Option.map_eq_some_iff.mp hs
        rfl
      · funext id
        rw [SwitchClassifier.ruleOf, hrules, Option.map_map]
        rfl

/-! ### All switches -/

/-- Every switch is ready for lookups. -/
def Switches.Good (switches : Switches) : Prop :=
  ∀ dpid sw, switches.lookup dpid = some sw → sw.Good

/-- The rules held for a switch under each identity. -/
def heldOf (switches : Switches) (dpid : BitVec 64) : RuleId → Option Rule :=
  ((switches.lookup dpid).getD {}).ruleOf

/-- The flow arrays a poll applies, with the rules in them. -/
def applicationsOf (entries : List (Json F)) : List (BitVec 64 × List Rule) :=
  entries.filterMap fun sw =>
    match readSwitch sw with
    | .ok (some (dpid, flows)) => some (dpid, parsed flows)
    | _ => none

theorem applicationsOf_cons_none {entry : Json F} (entries : List (Json F))
    (h : readSwitch entry = .ok none) : applicationsOf (entry :: entries) = applicationsOf entries := by
  simp [applicationsOf, h]

theorem applicationsOf_cons_some {entry : Json F} (entries : List (Json F)) {dpid : BitVec 64}
    {flows : List (Json F)} (h : readSwitch entry = .ok (some (dpid, flows))) :
    applicationsOf (entry :: entries) = (dpid, parsed flows) :: applicationsOf entries := by
  simp [applicationsOf, h]

/-- The flow arrays a poll applies: none if it is no array of switches. -/
def applications : Json F → List (BitVec 64 × List Rule)
  | .arr entries => applicationsOf entries
  | _ => []

/-- A flow array replaces what is held for its switch. -/
def applyTo (held : BitVec 64 → RuleId → Option Rule) (a : BitVec 64 × List Rule) :
    BitVec 64 → RuleId → Option Rule :=
  Function.update held a.1 (refresh (held a.1) a.2)

/-- What holds of every switch and of a new one holds of a switch that is looked up or made. -/
theorem Switches.forall_getD {P : SwitchClassifier → Prop} {switches : Switches}
    (h : ∀ dpid sw, switches.lookup dpid = some sw → P sw) (hnew : P {}) (dpid : BitVec 64) :
    P ((switches.lookup dpid).getD {}) := by
  cases hsw : switches.lookup dpid with
  | none => exact hnew
  | some sw => exact h dpid sw hsw

/-- What holds of every switch goes on to hold when one that has it is put in. -/
theorem Switches.forall_insert {P : SwitchClassifier → Prop} {switches : Switches}
    (h : ∀ dpid sw, switches.lookup dpid = some sw → P sw) {dpid : BitVec 64}
    {sw : SwitchClassifier} (hsw : P sw) (dpid' : BitVec 64) (sw' : SwitchClassifier)
    (hsw' : (switches.insert dpid sw).lookup dpid' = some sw') : P sw' := by
  by_cases hd : dpid' = dpid
  · subst hd
    rw [AList.lookup_insert, Option.some_inj] at hsw'
    rw [← hsw']
    exact hsw
  · rw [AList.lookup_insert_ne hd] at hsw'
    exact h dpid' sw' hsw'

theorem heldOf_insert (switches : Switches) (dpid : BitVec 64) (sw : SwitchClassifier) :
    heldOf (switches.insert dpid sw) = Function.update (heldOf switches) dpid sw.ruleOf := by
  funext dpid'
  unfold heldOf
  by_cases hd : dpid' = dpid
  · subst hd
    simp
  · simp [hd]

theorem updateSwitches_spec {switches switches' : Switches} (h : switches.Good) (sorter : Sorter)
    {i : ℕ} {entries : List (Json F)}
    (hupdate : updateSwitches sorter i switches entries = (switches', none)) :
    switches'.Good ∧ heldOf switches' = (applicationsOf entries).foldl applyTo (heldOf switches) := by
  induction entries generalizing i switches with
  | nil =>
    cases hupdate
    exact ⟨h, rfl⟩
  | cons entry entries ih =>
    rw [updateSwitches] at hupdate
    cases hread : readSwitch entry with
    | error e =>
      rw [hread] at hupdate
      cases hupdate
    | ok listed =>
      rw [hread] at hupdate
      cases listed with
      | none =>
        rw [applicationsOf_cons_none entries hread]
        exact ih h hupdate
      | some listed =>
        obtain ⟨dpid, flows⟩ := listed
        cases hone : updateOneSwitch (sorter.sort i) ((switches.lookup dpid).getD {}) flows with
        | mk sw thrown =>
          simp only [hone] at hupdate
          cases thrown with
          | some e => cases hupdate
          | none =>
            obtain ⟨hgood, hrules⟩ := updateOneSwitch_spec
              (Switches.forall_getD h SwitchClassifier.Good.new dpid) sorter i hone
            obtain ⟨hgood', hheld⟩ := ih (Switches.forall_insert h hgood) hupdate
            refine ⟨hgood', ?_⟩
            rw [hheld, heldOf_insert, hrules, applicationsOf_cons_some entries hread, List.foldl_cons]
            rfl

/-! ### Runs -/

/-- A poll that returns normally, with the order its sorts leave. -/
def poll (switches : Switches) (p : Sorter × Json F) : Option Switches :=
  match updateFromQueriedTables p.1 switches p.2 with
  | (switches', none) => some switches'
  | (_, some _) => none

/-- The flow arrays a run of polls applies. -/
def history (polls : List (Sorter × Json F)) : List (BitVec 64 × List Rule) :=
  polls.flatMap fun p => applications p.2

theorem history_append_singleton (polls : List (Sorter × Json F)) (p : Sorter × Json F) :
    history (polls ++ [p]) = history polls ++ applications p.2 := by
  simp [history]

theorem poll_spec {switches switches' : Switches} (h : switches.Good) {p : Sorter × Json F}
    (hpoll : poll switches p = some switches') :
    switches'.Good ∧ heldOf switches' = (applications p.2).foldl applyTo (heldOf switches) := by
  obtain ⟨sorter, newTables⟩ := p
  rw [poll] at hpoll
  cases hupdate : updateFromQueriedTables sorter switches newTables with
  | mk switches₁ thrown =>
    simp only [hupdate] at hpoll
    cases thrown with
    | some e => cases hpoll
    | none =>
      cases hpoll
      cases newTables with
      | arr entries => exact updateSwitches_spec h sorter hupdate
      | _ =>
        cases hupdate
        exact ⟨h, rfl⟩

/-- The rules held after any run of polls that return normally. -/
theorem run_held {polls : List (Sorter × Json F)} {switches : Switches}
    (hrun : Machine.run poll ∅ polls = some switches) :
    switches.Good ∧ heldOf switches = (history polls).foldl applyTo fun _ _ => none := by
  refine Machine.run_invariant (P := fun polls switches => Switches.Good switches ∧
    heldOf switches = (history polls).foldl applyTo fun _ _ => none) ?_ ?_ hrun
  · refine ⟨?_, rfl⟩
    intro dpid sw hsw
    cases hsw
  · intro polls switches p switches' _ hinv hpoll
    obtain ⟨hgood, hheld⟩ := poll_spec hinv.1 hpoll
    refine ⟨hgood, ?_⟩
    rw [hheld, hinv.2, history_append_singleton, List.foldl_append]

/-! ### The last poll -/

/-- The rules of the flow array last applied to each switch. -/
def lastApplied (apps : List (BitVec 64 × List Rule)) : BitVec 64 → List Rule :=
  apps.foldl (fun last a => Function.update last a.1 a.2) fun _ => []

/-- The rules a poll lists for a switch, in all the flow arrays it applies to it. -/
def polled (apps : List (BitVec 64 × List Rule)) (dpid : BitVec 64) : List Rule :=
  (apps.filter fun a => a.1 = dpid).flatMap Prod.snd

/-- The rules of the first flow array a poll applies to a switch. -/
def firstPolled (apps : List (BitVec 64 × List Rule)) (dpid : BitVec 64) : List Rule :=
  match apps.find? fun a => a.1 = dpid with
  | some a => a.2
  | none => []

/-- Within a poll, rules of one switch with the same table and core hash are equal. -/
def PollDistinct (newTables : Json F) : Prop :=
  ∀ dpid, ∀ r ∈ polled (applications newTables) dpid, ∀ r' ∈ polled (applications newTables) dpid,
    r.id = r'.id → r = r'

/-- No polled rule shares its table and core hash with a different rule of the flow array last
applied to its switch. -/
def Adopted (before : List (Sorter × Json F)) (newTables : Json F) : Prop :=
  ∀ dpid, ∀ r ∈ lastApplied (history before) dpid,
    ∀ r' ∈ firstPolled (applications newTables) dpid, r.id = r'.id → r = r'

/-- An answer that a plain scan over a list of rules may give: nothing where no rule matches, and
else the effect of a matching rule of the highest priority. -/
def Refines (rules : List Rule) (t : BitVec 8) (key : FlowKey) (answer : Option RuleEffect) : Prop :=
  (answer = none ↔ ¬∃ r ∈ rules, Matches r t key) ∧
    ∀ effect, answer = some effect → ∃ r ∈ rules, Matches r t key ∧ r.effect = effect ∧
      ∀ r' ∈ rules, Matches r' t key → r'.priority ≤ r.priority

/-- The flow arrays are applied one after the other to what was last applied before. -/
theorem lastApplied_append (apps apps' : List (BitVec 64 × List Rule)) :
    lastApplied (apps ++ apps') =
      apps'.foldl (fun last a => Function.update last a.1 a.2) (lastApplied apps) :=
  List.foldl_append

/-- What is held is what was last applied, one rule to an identity. -/
structure Holds (held : BitVec 64 → RuleId → Option Rule) (last : BitVec 64 → List Rule) : Prop where
  find : ∀ dpid id, held dpid id = (last dpid).find? fun r => r.id = id
  distinct : ∀ dpid, ∀ r ∈ last dpid, ∀ r' ∈ last dpid, r.id = r'.id → r = r'

theorem Holds.held_iff {held : BitVec 64 → RuleId → Option Rule} {last : BitVec 64 → List Rule}
    (h : Holds held last) (dpid : BitVec 64) (r : Rule) :
    held dpid r.id = some r ↔ r ∈ last dpid := by
  rw [h.find]
  constructor
  · exact List.mem_of_find?_eq_some
  · intro hr
    cases hfind : (last dpid).find? fun r' => r'.id = r.id with
    | none => exact absurd (List.find?_eq_none.mp hfind r hr) (by simp)
    | some r' =>
      have hid : r'.id = r.id := by simpa using List.find?_some hfind
      rw [h.distinct dpid r' (List.mem_of_find?_eq_some hfind) r hr hid]

/-- A flow array none of whose rules is mistaken for one that was there is held as it is. -/
theorem Holds.applyTo {held : BitVec 64 → RuleId → Option Rule} {last : BitVec 64 → List Rule}
    (h : Holds held last) {dpid : BitVec 64} {rules : List Rule}
    (hdistinct : ∀ r ∈ rules, ∀ r' ∈ rules, r.id = r'.id → r = r')
    (hadopted : ∀ r ∈ last dpid, ∀ r' ∈ rules, r.id = r'.id → r = r') :
    Holds (applyTo held (dpid, rules)) (Function.update last dpid rules) := by
  constructor
  · intro dpid' id
    unfold Classifier.applyTo
    by_cases hd : dpid' = dpid
    · subst hd
      rw [Function.update_self, Function.update_self, refresh, h.find dpid' id]
      cases hnew : rules.find? fun r => r.id = id with
      | none => rfl
      | some r' =>
        cases hold : (last dpid').find? fun r => r.id = id with
        | none => rfl
        | some r =>
          have hr' : r'.id = id := by simpa using List.find?_some hnew
          have hr : r.id = id := by simpa using List.find?_some hold
          rw [hadopted r (List.mem_of_find?_eq_some hold) r' (List.mem_of_find?_eq_some hnew)
            (hr.trans hr'.symm)]
          rfl
    · rw [Function.update_of_ne hd, Function.update_of_ne hd]
      exact h.find dpid' id
  · intro dpid'
    by_cases hd : dpid' = dpid
    · subst hd
      rw [Function.update_self]
      exact hdistinct
    · rw [Function.update_of_ne hd]
      exact h.distinct dpid'

/-- A whole poll none of whose rules is mistaken for another is held as it is. -/
theorem Holds.foldl_applyTo {held : BitVec 64 → RuleId → Option Rule}
    {last : BitVec 64 → List Rule} {apps : List (BitVec 64 × List Rule)} (h : Holds held last)
    (hdistinct : ∀ dpid, ∀ r ∈ polled apps dpid, ∀ r' ∈ polled apps dpid, r.id = r'.id → r = r')
    (hadopted : ∀ dpid, ∀ r ∈ last dpid, ∀ r' ∈ firstPolled apps dpid, r.id = r'.id → r = r') :
    Holds (apps.foldl Classifier.applyTo held)
      (apps.foldl (fun last a => Function.update last a.1 a.2) last) := by
  induction apps generalizing held last with
  | nil => exact h
  | cons a apps ih =>
    obtain ⟨dpid, rules⟩ := a
    have hsub : ∀ d, ∀ r ∈ polled apps d, r ∈ polled ((dpid, rules) :: apps) d := by
      intro d r hr
      by_cases hd : dpid = d
      · simp only [polled, List.filter_cons, hd, decide_true, if_true, List.flatMap_cons,
          List.mem_append]
        exact Or.inr hr
      · simpa [polled, List.filter_cons, hd] using hr
    have hfirst : ∀ r ∈ rules, r ∈ polled ((dpid, rules) :: apps) dpid := by
      intro r hr
      simp [polled, hr]
    have hrest : ∀ d, ∀ r ∈ firstPolled apps d, r ∈ polled apps d := by
      intro d r hr
      unfold firstPolled at hr
      cases hfind : apps.find? fun a => a.1 = d with
      | none => rw [hfind] at hr; cases hr
      | some a =>
        rw [hfind] at hr
        have hmem := List.mem_of_find?_eq_some hfind
        have hd := List.find?_some hfind
        exact List.mem_flatMap.mpr ⟨a, List.mem_filter.mpr ⟨hmem, hd⟩, hr⟩
    refine ih (h.applyTo ?_ ?_) ?_ ?_
    · intro r hr r' hr'
      exact hdistinct dpid r (hfirst r hr) r' (hfirst r' hr')
    · intro r hr r' hr'
      exact hadopted dpid r hr r' (by simpa [firstPolled] using hr')
    · intro d r hr r' hr'
      exact hdistinct d r (hsub d r hr) r' (hsub d r' hr')
    · intro d r hr r' hr'
      have hr : r ∈ Function.update last dpid rules d := hr
      by_cases hd : d = dpid
      · -- a second array of one poll: its rules and the first's are of the same poll
        subst hd
        rw [Function.update_self] at hr
        exact hdistinct d r (hfirst r hr) r' (hsub d r' (hrest d r' hr'))
      · rw [Function.update_of_ne hd] at hr
        refine hadopted d r hr r' ?_
        simpa [firstPolled, List.find?_cons, Ne.symm hd] using hr'

/-- After a run whose polls mistake no rule for another, what is held is what was last applied. -/
theorem run_holds {polls : List (Sorter × Json F)} (hdistinct : ∀ p ∈ polls, PollDistinct p.2)
    (hadopted : ∀ before p after, polls = before ++ p :: after → Adopted before p.2) :
    Holds ((history polls).foldl applyTo fun _ _ => none) (lastApplied (history polls)) := by
  induction polls using List.reverseRecOn with
  | nil => exact ⟨fun _ _ => rfl, fun _ _ hr => by cases hr⟩
  | append_singleton polls p ih =>
    rw [history_append_singleton, List.foldl_append, lastApplied_append]
    refine Holds.foldl_applyTo (ih ?_ ?_) (hdistinct p (by simp)) (hadopted polls p [] rfl)
    · intro q hq
      exact hdistinct q (by simp [hq])
    · intro before q after hsplit
      exact hadopted before q (after ++ [p]) (by rw [hsplit]; simp)

/-- A lookup over a switch that holds just the rules of a list is a scan over the list. -/
theorem refines_of_held_iff {switches : Switches} (hgood : switches.Good) {dpid : BitVec 64}
    {rules : List Rule} (hheld : ∀ r, heldOf switches dpid r.id = some r ↔ r ∈ rules)
    (key : FlowKey) (t : BitVec 8) : Refines rules t key (lookup switches dpid key t) := by
  have hbest : IsBest Rule.priority {r | r ∈ rules ∧ Matches r t key}
      ((switches.lookup dpid).bind fun sw => lookupInTableNoLock sw t key) := by
    have hset : {r | r ∈ rules ∧ Matches r t key} =
        {r | heldOf switches dpid r.id = some r ∧ Matches r t key} := by
      ext r
      rw [Set.mem_ofPred_eq, Set.mem_ofPred_eq, hheld]
    rw [hset]
    cases hsw : switches.lookup dpid with
    | none =>
      rintro r ⟨hr, -⟩
      rw [heldOf, hsw] at hr
      cases hr
    | some sw =>
      rw [heldOf, hsw]
      have hready := hgood dpid sw hsw
      exact isBest_lookupInTableNoLock hready.wf (hready.wf.inOrder hready.settled) t key
  have hlookup : lookup switches dpid key t =
      ((switches.lookup dpid).bind fun sw => lookupInTableNoLock sw t key).map Rule.effect := by
    rw [lookup]
    cases switches.lookup dpid <;> rfl
  rw [hlookup]
  constructor
  · rw [Option.map_eq_none_iff, hbest.eq_none_iff]
    rfl
  · intro effect heffect
    obtain ⟨r, hr, rfl⟩ := Option.map_eq_some_iff.mp heffect
    rw [hr] at hbest
    obtain ⟨⟨hmem, hmatches⟩, hmax⟩ := hbest
    exact ⟨r, hmem, hmatches, rfl, fun r' hr' hm' => hmax r' ⟨hr', hm'⟩⟩

/-- A lookup over a switch that holds what was last applied to it is a scan over that. -/
theorem refines_lookup {switches : Switches} (hgood : switches.Good) {last : BitVec 64 → List Rule}
    (hholds : Holds (heldOf switches) last) (dpid : BitVec 64) (key : FlowKey) (t : BitVec 8) :
    Refines (last dpid) t key (lookup switches dpid key t) :=
  refines_of_held_iff hgood (hholds.held_iff dpid) key t

/-- **Lookups are scans over the rules last polled**: for every run of polls that return
normally, where no poll lists two different rules of one table and core hash for a switch and none
lists a different rule of a table and core hash that the switch's last flow array has. -/
theorem run_lookup_refines (polls : List (Sorter × Json F)) (switches : Switches)
    (hrun : Machine.run poll ∅ polls = some switches) (hdistinct : ∀ p ∈ polls, PollDistinct p.2)
    (hadopted : ∀ before p after, polls = before ++ p :: after → Adopted before p.2)
    (dpid : BitVec 64) (key : FlowKey) (t : BitVec 8) :
    Refines (lastApplied (history polls) dpid) t key (lookup switches dpid key t) := by
  obtain ⟨hgood, hheld⟩ := run_held hrun
  have hholds := run_holds hdistinct hadopted
  rw [← hheld] at hholds
  exact refines_lookup hgood hholds dpid key t

/-! ### A rule that changes -/

/-- A poll of one switch with one rule, on packets to `10.0.0.0/24`. -/
def pollOf (action : String) : Sorter × Json Empty :=
  (Sorter.stable, .arr [.obj [("dpid", .int 1), ("flows", .obj [("1", .arr [.obj [
    ("table_id", .int 0), ("priority", .int 10),
    ("match", .obj [("dl_type", .int 2048), ("nw_dst", .str "10.0.0.0/24")]),
    ("actions", .arr [.str action])]])])]])

/-- A packet to `10.0.0.7`. -/
def packet : FlowKey := { ethType := 2048, ipv4Dst := 0x0a000007 }

/-- The rule the poll is read as. -/
def ruleWith (effect : RuleEffect) : Rule where
  tableId := 0
  priority := 10
  mask := packKey { ethType := BitVec.allOnes 16, ipv4Dst := 0xffffff00 }
  maskedValue := packKey { ethType := 2048, ipv4Dst := 0x0a000000 }
  effect := effect

theorem pollDistinct_of_single {newTables : Json F} {dpid : BitVec 64} {r : Rule}
    (h : applications newTables = [(dpid, [r])]) : PollDistinct newTables := by
  intro d r₁ hr₁ r₂ hr₂ _
  rw [h] at hr₁ hr₂
  by_cases hd : dpid = d
  · simp only [polled, hd, decide_true, List.filter_cons_of_pos, List.filter_nil,
      List.flatMap_cons, List.flatMap_nil, List.append_nil, List.mem_singleton] at hr₁ hr₂
    rw [hr₁, hr₂]
  · simp [polled, hd] at hr₁

theorem applications_pollOf_five :
    applications (pollOf "OUTPUT:5").2 = [(1, [ruleWith { outputPorts := [5] }])] := by
  decide +kernel

/-- A changed output port is answered. -/
theorem run_lookup_refines_changed :
    ∃ switches, Machine.run poll ∅ [pollOf "OUTPUT:5", pollOf "OUTPUT:6"] = some switches ∧
      Refines (lastApplied (history [pollOf "OUTPUT:5", pollOf "OUTPUT:6"]) 1) 0 packet
        (lookup switches 1 packet 0) ∧
      lookup switches 1 packet 0 = some { outputPorts := [6] } := by
  have hsix : applications (pollOf "OUTPUT:6").2 = [(1, [ruleWith { outputPorts := [6] }])] := by
    decide +kernel
  have hanswer : (Machine.run poll ∅ [pollOf "OUTPUT:5", pollOf "OUTPUT:6"]).map
      (fun s => lookup s 1 packet 0) = some (some { outputPorts := [6] }) := by
    decide +kernel
  obtain ⟨switches, hrun, hlookup⟩ := Option.map_eq_some_iff.mp hanswer
  refine ⟨switches, hrun, run_lookup_refines _ switches hrun ?_ ?_ 1 packet 0, hlookup⟩
  · intro p hp
    rcases List.mem_pair.mp hp with rfl | rfl
    · exact pollDistinct_of_single applications_pollOf_five
    · exact pollDistinct_of_single hsix
  · intro before p after hsplit
    rcases before with _ | ⟨q, _ | ⟨q', before⟩⟩
    · intro d r hr
      cases hr
    · obtain ⟨rfl, rfl, rfl⟩ : pollOf "OUTPUT:5" = q ∧ pollOf "OUTPUT:6" = p ∧ [] = after := by
        simpa using hsplit
      intro d r hr r' hr' hid
      have hlast : history [pollOf "OUTPUT:5"] = [(1, [ruleWith { outputPorts := [5] }])] := by
        simp [history, applications_pollOf_five]
      rw [hlast] at hr
      rw [hsix] at hr'
      have hne : (ruleWith { outputPorts := [5] }).id ≠ (ruleWith { outputPorts := [6] }).id := by
        decide +kernel
      by_cases hd : d = 1
      · subst hd
        have hr : r = ruleWith { outputPorts := [5] } := by simpa [lastApplied] using hr
        have hr' : r' = ruleWith { outputPorts := [6] } := by simpa [firstPolled] using hr'
        rw [hr, hr'] at hid
        exact absurd hid hne
      · have hr : r ∈ Function.update (fun _ => []) (1 : BitVec 64)
            [ruleWith { outputPorts := [5] }] d := hr
        rw [Function.update_of_ne hd] at hr
        cases hr
    · simp at hsplit

/-- A rule that goes from an output port to a group of the same number keeps its hash, so the poll
takes it for the rule that is there and the lookup goes on answering with the port. -/
theorem lookup_stale :
    ∃ switches, Machine.run poll ∅ [pollOf "OUTPUT:5", pollOf "GROUP:5"] = some switches ∧
      (∀ p ∈ [pollOf "OUTPUT:5", pollOf "GROUP:5"], PollDistinct p.2) ∧
      lastApplied (history [pollOf "OUTPUT:5", pollOf "GROUP:5"]) 1 =
        [ruleWith { groupId := some 5 }] ∧
      lookup switches 1 packet 0 = some { outputPorts := [5] } ∧
      ¬Refines (lastApplied (history [pollOf "OUTPUT:5", pollOf "GROUP:5"]) 1) 0 packet
        (lookup switches 1 packet 0) := by
  have hgroup : applications (pollOf "GROUP:5").2 = [(1, [ruleWith { groupId := some 5 }])] := by
    decide +kernel
  have hanswer : (Machine.run poll ∅ [pollOf "OUTPUT:5", pollOf "GROUP:5"]).map
      (fun s => lookup s 1 packet 0) = some (some { outputPorts := [5] }) := by
    decide +kernel
  obtain ⟨switches, hrun, hlookup⟩ := Option.map_eq_some_iff.mp hanswer
  have hlast : lastApplied (history [pollOf "OUTPUT:5", pollOf "GROUP:5"]) 1 =
      [ruleWith { groupId := some 5 }] := by
    simp [history, applications_pollOf_five, hgroup, lastApplied]
  refine ⟨switches, hrun, ?_, hlast, hlookup, ?_⟩
  · intro p hp
    rcases List.mem_pair.mp hp with rfl | rfl
    · exact pollDistinct_of_single applications_pollOf_five
    · exact pollDistinct_of_single hgroup
  · intro h
    rw [hlast] at h
    obtain ⟨r, hr, -, heffect, -⟩ := h.2 _ hlookup
    rw [List.mem_singleton.mp hr] at heffect
    cases heffect

end NDTwin.Classifier
