import NDTwin.Classifier.Refine

/-!
# Polls that end in an exception

A flow entry that cannot be read ends a poll where it stands: the rules before it are in the index
and in their buckets, but the loop that rebuilds the order of the subtables is not reached, and a
lookup goes by that order whatever its flag says.  A rule that was put in under a new mask is then
not found, and one that raised the highest priority of its subtable may be passed over.

The order stays right where every rule before the entry was known already, or went into a subtable
that reaches its priority; and the next poll of the switch that is read to its end rebuilds it.

## Main definitions

* `afterCalls` — the switches after a run of polls, whether they threw or not.
* `Covers` — a rule that may be put in without the order being rebuilt.
* `KeepsOrder`, `LeavesOrder` — a poll after which the order is right.
* `BestHeld` — an answer that a plain scan over the index may give.

## Main results

* `upsertRule_inOrder` — a rule that is covered leaves the order right.
* `updateOneSwitch_recovers` — **a poll that is read to its end puts the order right.**
* `updateOneSwitch_ready` — what a poll of one switch leaves, whether it threw or not.
* `bestHeld_of_leavesOrder` — **lookups answer from the index**, in every state of such a run.
* `rule_not_found` — a poll that threw leaves a rule in the index that no lookup finds.
-/

namespace NDTwin.Classifier

open BestFirst

variable {F : Type}

/-! ### Up to the exception -/

/-- The rules of a flow array before the first entry that cannot be read. -/
def upToThrow : List (Json F) → List Rule
  | [] => []
  | flow :: flows =>
    match parseRuleFromJson flow with
    | .error _ => []
    | .ok r => r :: upToThrow flows

/-- Some entry of a flow array cannot be read. -/
def Throws (flows : List (Json F)) : Prop := ∃ flow ∈ flows, ∃ e, parseRuleFromJson flow = .error e

/-- What is put in before an exception stays. -/
theorem upsertFlows_fst (sw : SwitchClassifier) (flows : List (Json F)) :
    (upsertFlows sw flows).1 = (upToThrow flows).foldl upsertRule sw := by
  induction flows generalizing sw with
  | nil => rfl
  | cons flow flows ih =>
    rw [upsertFlows, upToThrow]
    cases parseRuleFromJson flow with
    | error e => rfl
    | ok r => exact ih _

theorem throws_of_upsertFlows {sw : SwitchClassifier} {flows : List (Json F)} {e : Thrown}
    (h : (upsertFlows sw flows).2 = some e) : Throws flows := by
  induction flows generalizing sw with
  | nil => cases h
  | cons flow flows ih =>
    rw [upsertFlows] at h
    cases hr : parseRuleFromJson flow with
    | error e' => exact ⟨flow, List.mem_cons_self, e', hr⟩
    | ok r =>
      rw [hr] at h
      obtain ⟨flow', hflow', hthrows⟩ := ih h
      exact ⟨flow', List.mem_cons_of_mem _ hflow', hthrows⟩

/-! ### The order of the subtables -/

/-- A rule that may be put in without the order being rebuilt: its identity is known, or its table
has a subtable of its mask that reaches its priority. -/
def SwitchClassifier.Covers (sw : SwitchClassifier) (r : Rule) : Prop :=
  (sw.rulesById.lookup r.id).isSome = true ∨
    ∃ st, (sw.getTable r.tableId).byMask.lookup r.mask = some st ∧ r.priority ≤ st.maxPriority

/-- A subtable that takes the place of one of the same highest priority leaves the order right. -/
theorem TableClassifier.Ordered.put {tc : TableClassifier} (h : tc.Ordered) {mask : KeyBytes}
    {st st' : Subtable} (hst : tc.byMask.lookup mask = some st)
    (hmax : st'.maxPriority = st.maxPriority) (dirty : Bool) :
    TableClassifier.Ordered
      { tc with byMask := tc.byMask.insert mask st', priorityOrderDirty := dirty } := by
  -- the masks that are listed stay, and so does the highest priority under each
  have hlookup : ∀ m, ((tc.byMask.insert mask st').lookup m).map Subtable.maxPriority =
      (tc.byMask.lookup m).map Subtable.maxPriority := by
    intro m
    by_cases hm : m = mask
    · subst hm
      rw [AList.lookup_insert, hst, Option.map_some, Option.map_some, hmax]
    · rw [AList.lookup_insert_ne hm]
  constructor
  · intro m hm
    rcases (AList.mem_insert _).mp hm with rfl | hm
    · exact h.complete m (AList.lookup_isSome.mp (by rw [hst]; rfl))
    · exact h.complete m hm
  · have hsorted := h.sorted
    rw [TableClassifier.scanned, ← List.pairwise_map (f := Subtable.maxPriority)
      (R := fun a b => b ≤ a), List.map_filterMap] at hsorted ⊢
    simpa only [hlookup] using hsorted

/-- A rule that goes into a subtable that reaches its priority does not raise it. -/
theorem Subtable.WF.maxPriority_insert {st : Subtable} (h : st.WF) {r : Rule}
    (hr : r.priority ≤ st.maxPriority) : (st.insert r).maxPriority = st.maxPriority := by
  refine le_antisymm ?_ (le_frontPriority _ _)
  unfold Subtable.insert
  refine frontPriority_le le_rfl ?_
  intro r' hr'
  rcases (List.mem_orderedInsert ByPriority).mp hr' with rfl | hr'
  · exact hr
  · exact h.bounded _ r' hr'

theorem upsertRule_tables_of_some {sw : SwitchClassifier} {r : Rule} {s : Stored}
    (h : sw.rulesById.lookup r.id = some s) : (upsertRule sw r).tables = sw.tables := by
  rw [upsertRule_of_some h]

/-- The table a new rule is put into, with its subtable. -/
theorem getTable_upsertRule_of_none {sw : SwitchClassifier} {r : Rule}
    (h : sw.rulesById.lookup r.id = none) (t : BitVec 8) :
    (upsertRule sw r).getTable t = if t = r.tableId then
        { sw.getTable r.tableId with
          byMask := (sw.getTable r.tableId).byMask.insert r.mask
            (((sw.getTable r.tableId).getOrCreateSubtable r.mask).insert r)
          priorityOrderDirty := true }
      else sw.getTable t := by
  rw [upsertRule_of_none h]
  exact SwitchClassifier.getTable_put sw r.tableId t _

/-- A rule that is covered leaves the order right. -/
theorem upsertRule_inOrder {sw : SwitchClassifier} (hwf : sw.WF) (h : sw.InOrder) {r : Rule}
    (hr : sw.Covers r) : (upsertRule sw r).InOrder := by
  cases hs : sw.rulesById.lookup r.id with
  | some s =>
    -- a rule that is known is only marked as seen
    intro t tc htc
    rw [upsertRule_tables_of_some hs] at htc
    exact h t tc htc
  | none =>
    obtain hknown | ⟨st, hst, hprio⟩ := hr
    · rw [hs] at hknown
      cases hknown
    · cases htable : sw.tables.lookup r.tableId with
      | none =>
        rw [SwitchClassifier.getTable, htable] at hst
        cases hst
      | some tc =>
        have hget : sw.getTable r.tableId = tc := by rw [SwitchClassifier.getTable, htable]; rfl
        have hstWF : st.WF := (hwf.tables r.tableId).subtable r.mask st hst
        have hcreate : (sw.getTable r.tableId).getOrCreateSubtable r.mask = st := by
          rw [TableClassifier.getOrCreateSubtable, hst]
          rfl
        intro t tc' htc'
        have hget' : (upsertRule sw r).getTable t = tc' := by
          rw [SwitchClassifier.getTable, htc']
          rfl
        rw [getTable_upsertRule_of_none hs, hcreate] at hget'
        by_cases ht : t = r.tableId
        · -- its own table, where the subtable it goes into reaches its priority already
          rw [if_pos ht] at hget'
          rw [← hget']
          refine TableClassifier.Ordered.put ?_ hst (hstWF.maxPriority_insert hprio) true
          rw [hget]
          exact h r.tableId tc htable
        · rw [upsertRule_of_none hs] at htc'
          rw [insertRuleIntoTables, AList.lookup_insert_ne ht] at htc'
          exact h t tc' htc'

/-- What a rule that is put in covers was covered before, and more. -/
theorem SwitchClassifier.Covers.upsertRule {sw : SwitchClassifier} {r r' : Rule}
    (h : sw.Covers r') : (upsertRule sw r).Covers r' := by
  obtain hknown | ⟨st, hst, hprio⟩ := h
  · left
    rw [rulesById_upsertRule]
    split
    · rfl
    · exact hknown
  · right
    cases hs : sw.rulesById.lookup r.id with
    | some s =>
      refine ⟨st, ?_, hprio⟩
      rw [SwitchClassifier.getTable, upsertRule_tables_of_some hs]
      exact hst
    | none =>
      rw [getTable_upsertRule_of_none hs]
      by_cases ht : r'.tableId = r.tableId
      · rw [if_pos ht]
        rw [ht] at hst
        by_cases hm : r'.mask = r.mask
        · rw [hm] at hst ⊢
          refine ⟨_, AList.lookup_insert _, ?_⟩
          rw [TableClassifier.getOrCreateSubtable, hst]
          exact hprio.trans (le_frontPriority _ _)
        · exact ⟨st, (AList.lookup_insert_ne hm).trans hst, hprio⟩
      · rw [if_neg ht]
        exact ⟨st, hst, hprio⟩

/-- Rules that are all covered leave the order right, one after the other. -/
theorem foldl_upsertRule_inOrder {sw : SwitchClassifier} (hwf : sw.WF) (h : sw.InOrder)
    {rules : List Rule} (hrules : ∀ r ∈ rules, sw.Covers r) :
    (rules.foldl upsertRule sw).InOrder := by
  induction rules generalizing sw with
  | nil => exact h
  | cons r rules ih =>
    refine ih (hwf.upsertRule r) (upsertRule_inOrder hwf h (hrules r List.mem_cons_self)) ?_
    intro r' hr'
    exact (hrules r' (List.mem_cons_of_mem _ hr')).upsertRule

/-! ### One switch -/

/-- Every rule of the index has a priority a lookup can see. -/
def SwitchClassifier.NonNegative (sw : SwitchClassifier) : Prop :=
  ∀ id s, sw.rulesById.lookup id = some s → 0 ≤ s.rule.priority

/-- A switch whose lookups answer from its index. -/
structure SwitchClassifier.Ready (sw : SwitchClassifier) : Prop where
  wf : sw.WF
  inOrder : sw.InOrder
  nonNegative : sw.NonNegative

theorem SwitchClassifier.Ready.new : SwitchClassifier.Ready {} where
  wf := SwitchClassifier.WF.new
  inOrder _ _ h := by cases h
  nonNegative _ _ h := by cases h

theorem foldl_upsertRule_nonNegative {sw : SwitchClassifier} (h : sw.NonNegative)
    {rules : List Rule} (hrules : ∀ r ∈ rules, 0 ≤ r.priority) :
    (rules.foldl upsertRule sw).NonNegative := by
  intro id s hs
  rw [(foldl_upsertRule sw rules).2.2] at hs
  cases hfind : rules.find? fun r => r.id = id with
  | none =>
    rw [hfind] at hs
    exact h id s hs
  | some r =>
    rw [hfind] at hs
    cases hs
    cases hold : sw.rulesById.lookup id with
    | none =>
      rw [SwitchClassifier.ruleOf, hold]
      exact hrules r (List.mem_of_find?_eq_some hfind)
    | some s' =>
      rw [SwitchClassifier.ruleOf, hold]
      exact h id s' hold

theorem sweep_nonNegative {sw : SwitchClassifier} (h : sw.NonNegative) : (sweep sw).NonNegative := by
  intro id s hs
  rw [rulesById_sweep] at hs
  exact h id s (Option.eq_some_of_filter_eq_some hs)

/-- What the rules of a poll leave before the sweep, whether it threw or not. -/
theorem upsertFlows_keeps {sw : SwitchClassifier} (hwf : sw.WF) (hnonNegative : sw.NonNegative)
    {flows : List (Json F)} (hprio : ∀ r ∈ upToThrow flows, 0 ≤ r.priority) :
    (upsertFlows { sw with epoch := sw.epoch + 1 } flows).1.WF ∧
      (upsertFlows { sw with epoch := sw.epoch + 1 } flows).1.NonNegative := by
  have hbefore : SwitchClassifier.WF { sw with epoch := sw.epoch + 1 } :=
    ⟨hwf.tables, hwf.home, hwf.nodup, hwf.stored, hwf.ids⟩
  have hnonNegative' : SwitchClassifier.NonNegative { sw with epoch := sw.epoch + 1 } := hnonNegative
  rw [upsertFlows_fst]
  exact ⟨(foldl_upsertRule _ _).1 hbefore, foldl_upsertRule_nonNegative hnonNegative' hprio⟩

/-- **A poll that is read to its end puts the order right**, whatever it was before. -/
theorem updateOneSwitch_recovers {sw : SwitchClassifier} (hwf : sw.WF)
    (hnonNegative : sw.NonNegative) (sorter : Sorter) (i : ℕ) {flows : List (Json F)}
    (hprio : ∀ r ∈ upToThrow flows, 0 ≤ r.priority)
    (hok : (updateOneSwitch (sorter.sort i) sw flows).2 = none) :
    (updateOneSwitch (sorter.sort i) sw flows).1.Ready := by
  have hput := upsertFlows_keeps hwf hnonNegative hprio
  rw [updateOneSwitch] at hok ⊢
  generalize upsertFlows { sw with epoch := sw.epoch + 1 } flows = left at hput hok
  obtain ⟨sw₁, thrown⟩ := left
  cases thrown with
  | some e => cases hok
  | none =>
    -- every table that was touched is flagged, so the last loop rebuilds its order
    have hswept : (sweep sw₁).WF := (foldl_deleteRule sw₁ (toDelete sw₁)).1 hput.1
    obtain ⟨hwf', hsettled⟩ := hswept.rebuildTables sorter i
    exact ⟨hwf', hwf'.inOrder hsettled, sweep_nonNegative hput.2⟩

/-- **A poll of one switch leaves it ready**, if it had no negative priority to put in, and, where
it threw, only rules that were covered before the entry it threw at. -/
theorem updateOneSwitch_ready {sw : SwitchClassifier} (h : sw.Ready) (sorter : Sorter) (i : ℕ)
    {flows : List (Json F)} (hprio : ∀ r ∈ upToThrow flows, 0 ≤ r.priority)
    (hcovers : Throws flows → ∀ r ∈ upToThrow flows, sw.Covers r) :
    (updateOneSwitch (sorter.sort i) sw flows).1.Ready := by
  cases hthrown : (upsertFlows { sw with epoch := sw.epoch + 1 } flows).2 with
  | none =>
    refine updateOneSwitch_recovers h.wf h.nonNegative sorter i hprio ?_
    rw [updateOneSwitch]
    generalize upsertFlows { sw with epoch := sw.epoch + 1 } flows = left at hthrown
    obtain ⟨sw₁, thrown⟩ := left
    cases hthrown
    rfl
  | some e =>
    -- the order was not rebuilt, and did not need to be
    have hput := upsertFlows_keeps h.wf h.nonNegative hprio
    have hleft : (updateOneSwitch (sorter.sort i) sw flows).1 =
        (upsertFlows { sw with epoch := sw.epoch + 1 } flows).1 := by
      rw [updateOneSwitch]
      generalize upsertFlows { sw with epoch := sw.epoch + 1 } flows = left at hthrown
      obtain ⟨sw₁, thrown⟩ := left
      cases hthrown
      rfl
    have hinOrder : (upsertFlows { sw with epoch := sw.epoch + 1 } flows).1.InOrder := by
      rw [upsertFlows_fst]
      refine foldl_upsertRule_inOrder ?_ ?_ (hcovers (throws_of_upsertFlows hthrown))
      · exact ⟨h.wf.tables, h.wf.home, h.wf.nodup, h.wf.stored, h.wf.ids⟩
      · exact h.inOrder
    rw [hleft]
    exact ⟨hput.1, hinOrder, hput.2⟩

/-! ### All switches -/

/-- Every switch is ready. -/
def Switches.Ready (switches : Switches) : Prop :=
  ∀ dpid sw, switches.lookup dpid = some sw → sw.Ready

/-- A poll after which the order is right: no rule it puts in has a negative priority, and where a
flow array throws, the rules before the entry it throws at are covered by its switch as that is
then. -/
def KeepsOrder (sorter : Sorter) (i : ℕ) (switches : Switches) : List (Json F) → Prop
  | [] => True
  | entry :: entries =>
    match readSwitch entry with
    | .error _ => True
    | .ok none => KeepsOrder sorter (i + 1) switches entries
    | .ok (some (dpid, flows)) =>
      (∀ r ∈ upToThrow flows, 0 ≤ r.priority) ∧
      (Throws flows → ∀ r ∈ upToThrow flows, ((switches.lookup dpid).getD {}).Covers r) ∧
      KeepsOrder sorter (i + 1) (switches.insert dpid
        (updateOneSwitch (sorter.sort i) ((switches.lookup dpid).getD {}) flows).1) entries

theorem updateSwitches_ready {switches : Switches} (h : switches.Ready) (sorter : Sorter) {i : ℕ}
    {entries : List (Json F)} (hkeeps : KeepsOrder sorter i switches entries) :
    (updateSwitches sorter i switches entries).1.Ready := by
  induction entries generalizing i switches with
  | nil => exact h
  | cons entry entries ih =>
    rw [updateSwitches]
    rw [KeepsOrder] at hkeeps
    cases hread : readSwitch entry with
    | error e => exact h
    | ok listed =>
      rw [hread] at hkeeps
      cases listed with
      | none => exact ih h hkeeps
      | some listed =>
        obtain ⟨dpid, flows⟩ := listed
        obtain ⟨hprio, hcovers, hrest⟩ := hkeeps
        have hone := updateOneSwitch_ready
          (Switches.forall_getD h SwitchClassifier.Ready.new dpid) sorter i hprio hcovers
        cases hupdate : updateOneSwitch (sorter.sort i) ((switches.lookup dpid).getD {}) flows with
        | mk sw thrown =>
          rw [hupdate] at hone hrest
          simp only [hupdate]
          cases thrown with
          | some e => exact Switches.forall_insert h hone
          | none => exact ih (Switches.forall_insert h hone) hrest

/-! ### Runs -/

/-- The switches a poll lists. -/
def listed : Json F → List (Json F)
  | .arr entries => entries
  | _ => []

/-- The switches after a poll, whether it threw or not. -/
def call (switches : Switches) (p : Sorter × Json F) : Switches :=
  (updateFromQueriedTables p.1 switches p.2).1

/-- The switches after a run of polls. -/
def afterCalls (calls : List (Sorter × Json F)) : Switches := calls.foldl call ∅

/-- A poll that leaves the order right, after a run. -/
def LeavesOrder (before : List (Sorter × Json F)) (p : Sorter × Json F) : Prop :=
  KeepsOrder p.1 0 (afterCalls before) (listed p.2)

theorem call_ready {before : List (Sorter × Json F)} {p : Sorter × Json F}
    (h : (afterCalls before).Ready) (hp : LeavesOrder before p) :
    (call (afterCalls before) p).Ready := by
  obtain ⟨sorter, newTables⟩ := p
  rw [call]
  cases newTables with
  | arr entries => exact updateSwitches_ready h sorter hp
  | _ => exact h

/-- A rule that is in a switch's index, of a table, and that a packet agrees with. -/
def HeldMatch (switches : Switches) (dpid : BitVec 64) (key : FlowKey) (t : BitVec 8) (r : Rule) :
    Prop :=
  (∃ id, heldOf switches dpid id = some r) ∧ r.tableId = t ∧ r.maskedValue = packKey key &&& r.mask

/-- The answer is the effect of a rule of the index of the highest priority that the packet agrees
with, or nothing where there is none. -/
structure BestHeld (switches : Switches) (dpid : BitVec 64) (key : FlowKey) (t : BitVec 8) : Prop where
  nothing : lookup switches dpid key t = none → ∀ r, ¬ HeldMatch switches dpid key t r
  best : ∀ effect, lookup switches dpid key t = some effect →
    ∃ r, HeldMatch switches dpid key t r ∧ r.effect = effect ∧
      ∀ r', HeldMatch switches dpid key t r' → r'.priority ≤ r.priority

theorem Switches.Ready.bestHeld {switches : Switches} (h : switches.Ready) (dpid : BitVec 64)
    (key : FlowKey) (t : BitVec 8) : BestHeld switches dpid key t := by
  cases hsw : switches.lookup dpid with
  | none =>
    have hlookup : lookup switches dpid key t = none := by rw [lookup, hsw]
    constructor
    · rintro - r ⟨⟨id, hr⟩, -⟩
      rw [heldOf, hsw] at hr
      cases hr
    · intro effect heffect
      rw [hlookup] at heffect
      cases heffect
  | some sw =>
    have hready := h dpid sw hsw
    -- a rule that is held is seen by the scan, since its priority is not negative
    have hheld : ∀ r, HeldMatch switches dpid key t r ↔ sw.ruleOf r.id = some r ∧ Matches r t key := by
      intro r
      rw [HeldMatch, heldOf, hsw]
      constructor
      · rintro ⟨⟨id, hr⟩, htable, hvalue⟩
        have hid := hready.wf.ids id r hr
        obtain ⟨s, hs, rfl⟩ := Option.map_eq_some_iff.mp hr
        subst hid
        exact ⟨hr, htable, hready.nonNegative _ s hs, hvalue⟩
      · rintro ⟨hr, htable, -, hvalue⟩
        exact ⟨⟨r.id, hr⟩, htable, hvalue⟩
    have hbest := isBest_lookupInTableNoLock hready.wf hready.inOrder t key
    have hlookup : lookup switches dpid key t = (lookupInTableNoLock sw t key).map Rule.effect := by
      rw [lookup, hsw]
    constructor
    · intro hnone r hr
      rw [hlookup, Option.map_eq_none_iff] at hnone
      rw [hnone] at hbest
      exact hbest r ((hheld r).mp hr)
    · intro effect heffect
      rw [hlookup] at heffect
      obtain ⟨r, hfound, rfl⟩ := Option.map_eq_some_iff.mp heffect
      rw [hfound] at hbest
      refine ⟨r, (hheld r).mpr hbest.1, rfl, ?_⟩
      intro r' hr'
      exact hbest.2 r' ((hheld r').mp hr')

/-- **Lookups answer from the index**, in every state that a run of polls goes through, polls that
end in an exception included, if each of them leaves the order right. -/
theorem bestHeld_of_leavesOrder {before calls : List (Sorter × Json F)}
    (h : Machine.Meets LeavesOrder calls) (hbefore : before <+: calls) (dpid : BitVec 64)
    (key : FlowKey) (t : BitVec 8) : BestHeld (afterCalls before) dpid key t := by
  have hready : (afterCalls before).Ready := by
    refine h.foldl_invariant (P := fun _ switches => Switches.Ready switches) ?_ ?_ hbefore
    · intro dpid sw hsw
      cases hsw
    · intro before p hp ih
      exact call_ready ih hp
  exact hready.bestHeld dpid key t

/-! ### A row that cannot be read -/

/-- The row of a rule for packets to `10.0.0.0/24`. -/
def readableRow (priority : ℤ) : Json Empty :=
  .obj [("table_id", .int 0), ("priority", .int priority),
    ("match", .obj [("dl_type", .int 2048), ("nw_dst", .str "10.0.0.0/24")]),
    ("actions", .arr [.str "OUTPUT:5"])]

/-- A row that matches on the local port, which the controller gives by name. -/
def localRow : Json Empty := .obj [("match", .obj [("in_port", .str "LOCAL")])]

/-- Switch 1 with its rows. -/
def switchOne (rows : List (Json Empty)) : Json Empty :=
  .obj [("dpid", .int 1), ("flows", .obj [("1", .arr rows)])]

/-- A poll of switch 1. -/
def pollOne (rows : List (Json Empty)) : Sorter × Json Empty :=
  (Sorter.stable, .arr [switchOne rows])

theorem readSwitch_switchOne (rows : List (Json Empty)) :
    readSwitch (switchOne rows) = .ok (some (1, rows)) := rfl

theorem keepsOrder_switchOne {sorter : Sorter} {switches : Switches} {rows : List (Json Empty)}
    (hprio : ∀ r ∈ upToThrow rows, 0 ≤ r.priority)
    (hcovers : Throws rows → ∀ r ∈ upToThrow rows, ((switches.lookup 1).getD {}).Covers r) :
    KeepsOrder sorter 0 switches [switchOne rows] := by
  rw [KeepsOrder, readSwitch_switchOne]
  exact ⟨hprio, hcovers, trivial⟩

theorem parseRuleFromJson_readableRow :
    parseRuleFromJson (readableRow 10) = .ok (ruleWith { outputPorts := [5] }) := by
  decide +kernel

theorem parseRuleFromJson_localRow : ∃ e, parseRuleFromJson localRow = .error e := by
  refine ⟨.number .invalidArgument, ?_⟩
  decide +kernel

/-- A poll, and one that lists the same rule and throws at the row after it. -/
def repeatedPolls : List (Sorter × Json Empty) :=
  [pollOne [readableRow 10], pollOne [readableRow 10, localRow]]

theorem upToThrow_readableRow (rows : List (Json Empty)) :
    upToThrow (readableRow 10 :: rows) = ruleWith { outputPorts := [5] } :: upToThrow rows := by
  rw [upToThrow, parseRuleFromJson_readableRow]

theorem upToThrow_localRow (rows : List (Json Empty)) : upToThrow (localRow :: rows) = [] := by
  obtain ⟨e, he⟩ := parseRuleFromJson_localRow
  rw [upToThrow, he]

theorem meets_repeatedPolls : Machine.Meets LeavesOrder repeatedPolls := by
  have hprio : ∀ r ∈ [ruleWith { outputPorts := [5] }], 0 ≤ r.priority := by decide +kernel
  have hfirst : Machine.Meets LeavesOrder [pollOne [readableRow 10]] := by
    refine @Machine.Meets.concat _ _ [] _ .nil (keepsOrder_switchOne ?_ ?_)
    · rw [upToThrow_readableRow]
      exact hprio
    · rintro ⟨flow, hflow, e, he⟩
      rw [List.mem_singleton.mp hflow, parseRuleFromJson_readableRow] at he
      cases he
  refine @Machine.Meets.concat _ _ [_] _ hfirst (keepsOrder_switchOne ?_ ?_)
  · rw [upToThrow_readableRow, upToThrow_localRow]
    exact hprio
  · -- the rule before the row that throws is the one of the first poll
    intro _ r hr
    rw [upToThrow_readableRow, upToThrow_localRow] at hr
    rw [List.mem_singleton.mp hr]
    left
    decide +kernel

/-- The rule is found after the first poll, and after the one that threw. -/
theorem bestHeld_repeatedPolls :
    BestHeld (afterCalls [pollOne [readableRow 10]]) 1 packet 0 ∧
      BestHeld (afterCalls repeatedPolls) 1 packet 0 ∧
      lookup (afterCalls repeatedPolls) 1 packet 0 = some { outputPorts := [5] } := by
  have hfirst : [pollOne [readableRow 10]] <+: repeatedPolls := List.take_prefix 1 repeatedPolls
  refine ⟨?_, ?_, by decide +kernel⟩
  · exact bestHeld_of_leavesOrder meets_repeatedPolls hfirst 1 packet 0
  · exact bestHeld_of_leavesOrder meets_repeatedPolls (List.prefix_refl repeatedPolls) 1 packet 0

/-- **A poll that threw leaves a rule in the index that no lookup finds**: the row after it cannot
be read, so its subtable is not listed.  A rule of negative priority is not found either, whether
the poll threw or not. -/
theorem rule_not_found :
    ((updateFromQueriedTables Sorter.stable ∅ (pollOne [readableRow 10, localRow]).2).2.isSome ∧
      ¬ BestHeld (afterCalls [pollOne [readableRow 10, localRow]]) 1 packet 0) ∧
    ¬ BestHeld (afterCalls [pollOne [readableRow (-1)]]) 1 packet 0 := by
  refine ⟨⟨by decide +kernel, ?_⟩, ?_⟩
  · have hnone : lookup (afterCalls [pollOne [readableRow 10, localRow]]) 1 packet 0 = none := by
      decide +kernel
    intro h
    refine h.nothing hnone (ruleWith { outputPorts := [5] })
      ⟨⟨(ruleWith { outputPorts := [5] }).id, ?_⟩, rfl, ?_⟩
    · decide +kernel
    · decide +kernel
  · have hnone : lookup (afterCalls [pollOne [readableRow (-1)]]) 1 packet 0 = none := by
      decide +kernel
    let negative : Rule := { ruleWith { outputPorts := [5] } with priority := -1 }
    intro h
    refine h.nothing hnone negative ⟨⟨negative.id, ?_⟩, rfl, ?_⟩
    · decide +kernel
    · decide +kernel

end NDTwin.Classifier
