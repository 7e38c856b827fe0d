import NDTwin.Classifier.Table

/-!
# What the table keeps

Every change of a poll keeps the buckets in order, the subtables' highest priorities above what
they hold, and the two views of the rules, by identity and by place, the same.  Where the order of
the subtables is up to date, a lookup is then a plain scan over the rules held.

## Main definitions

* `Subtable.WF`, `TableClassifier.WF`, `SwitchClassifier.WF` — the invariants.
* `SwitchClassifier.ruleOf` — the rule held under an identity.
* `Matches` — a rule that applies to a packet.

## Main results

* `SwitchClassifier.WF.upsertRule`, `.deleteRule`, `.sweep`, `.rebuildTables` — **every change
  keeps the invariant.**
* `isBest_lookupInTableNoLock` — **a lookup finds a best matching rule of those held.**
-/

namespace NDTwin.Classifier

open BestFirst

theorem byPriority_refl_or (a b : Rule) : ByPriority a b ∨ ByPriority b a := le_total _ _

instance : Std.Total ByPriority := ⟨byPriority_refl_or⟩

instance : IsTrans Rule ByPriority := ⟨fun _ _ _ hab hbc => le_trans hbc hab⟩

/-! ### Subtables -/

/-- Buckets in order, and no rule above the subtable's highest priority. -/
structure Subtable.WF (st : Subtable) : Prop where
  sorted : ∀ value, (st.bucket value).Pairwise ByPriority
  bounded : ∀ value, ∀ r ∈ st.bucket value, r.priority ≤ st.maxPriority

theorem Subtable.WF.new (mask : KeyBytes) : Subtable.WF { mask } where
  sorted _ := List.Pairwise.nil
  bounded _ _ hr := by cases hr

theorem Subtable.bucket_insert (st : Subtable) (r : Rule) (value : KeyBytes) :
    (st.insert r).bucket value =
      if value = r.maskedValue then (st.bucket value).orderedInsert ByPriority r
      else st.bucket value := by
  unfold Subtable.insert Subtable.bucket
  by_cases h : value = r.maskedValue
  · subst h
    simp
  · simp [h]

theorem le_frontPriority (low : ℤ) (rules : List Rule) : low ≤ frontPriority low rules := by
  cases rules with
  | nil => exact le_refl _
  | cons r rules => exact le_max_right _ _

theorem priority_le_frontPriority {rules : List Rule} (hsorted : rules.Pairwise ByPriority)
    (low : ℤ) : ∀ r ∈ rules, r.priority ≤ frontPriority low rules := by
  intro r hr
  cases rules with
  | nil => cases hr
  | cons a rules =>
    have hle : r.priority ≤ a.priority := (isBest_head? hsorted).2 r hr
    exact hle.trans (le_max_left _ _)

theorem frontPriority_le {low p : ℤ} {rules : List Rule} (hlow : low ≤ p)
    (hrules : ∀ r ∈ rules, r.priority ≤ p) : frontPriority low rules ≤ p := by
  cases rules with
  | nil => exact hlow
  | cons r rules => exact max_le (hrules r (by simp)) hlow

theorem Subtable.WF.insert {st : Subtable} (h : st.WF) (r : Rule) : (st.insert r).WF := by
  have hsorted : ((st.bucket r.maskedValue).orderedInsert ByPriority r).Pairwise ByPriority :=
    (h.sorted r.maskedValue).orderedInsert r
  constructor
  · intro value
    rw [Subtable.bucket_insert]
    split
    · next hv => rw [hv]; exact hsorted
    · exact h.sorted value
  · intro value r' hr'
    rw [Subtable.bucket_insert] at hr'
    split at hr'
    · next hv =>
      rw [hv] at hr'
      exact priority_le_frontPriority hsorted _ r' hr'
    · exact (h.bounded value r' hr').trans (le_frontPriority _ _)

theorem bucket_eraseFromBuckets (st : Subtable) (r : Rule) (value : KeyBytes) :
    ((eraseFromBuckets st.buckets r).lookup value).getD [] =
      if value = r.maskedValue then (st.bucket value).erase r else st.bucket value := by
  unfold eraseFromBuckets Subtable.bucket
  by_cases h : value = r.maskedValue
  · subst h
    cases hrules : st.buckets.lookup r.maskedValue with
    | none => simp [hrules]
    | some rules =>
      by_cases hr : r ∈ rules
      · by_cases hlast : rules.erase r = []
        · simp [hr, hlast]
        · simp [hr, hlast]
      · simp [hr, hrules, List.erase_of_not_mem hr]
  · cases st.buckets.lookup r.maskedValue with
    | none => simp [h]
    | some rules =>
      simp only [if_neg h]
      split
      · split <;> simp [h]
      · rfl

theorem Subtable.bucket_remove (st : Subtable) (r : Rule) (value : KeyBytes) :
    (st.remove r).bucket value =
      if value = r.maskedValue then (st.bucket value).erase r else st.bucket value :=
  bucket_eraseFromBuckets st r value

/-- The highest priority, recomputed, is above the front of every bucket. -/
theorem frontPriority_le_foldl (buckets : List (Sigma fun _ : KeyBytes => List Rule)) (low : ℤ) :
    low ≤ buckets.foldl (fun mp b => frontPriority mp b.2) low ∧
      ∀ b ∈ buckets, ∀ low', low' ≤ low →
        frontPriority low' b.2 ≤ buckets.foldl (fun mp b => frontPriority mp b.2) low := by
  induction buckets generalizing low with
  | nil => simp
  | cons b buckets ih =>
    obtain ⟨hlow, hrest⟩ := ih (frontPriority low b.2)
    refine ⟨(le_frontPriority _ _).trans hlow, ?_⟩
    intro b' hb' low' hle
    rcases List.mem_cons.mp hb' with rfl | hb'
    · refine le_trans ?_ hlow
      cases b'.2 with
      | nil => exact hle
      | cons r _ => exact max_le (le_max_left _ _) (hle.trans (le_max_right _ _))
    · exact hrest b' hb' low' (hle.trans (le_frontPriority _ _))

theorem Subtable.WF.remove {st : Subtable} (h : st.WF) (r : Rule) : (st.remove r).WF := by
  have hsorted : ∀ value, ((st.remove r).bucket value).Pairwise ByPriority := by
    intro value
    rw [Subtable.bucket_remove]
    split
    · exact (h.sorted value).sublist List.erase_sublist
    · exact h.sorted value
  refine ⟨hsorted, ?_⟩
  intro value r' hr'
  -- a rule is in some bucket of the map, and that bucket's front is above it
  cases hb : (st.remove r).buckets.lookup value with
  | none =>
    rw [Subtable.bucket, hb] at hr'
    cases hr'
  | some rules =>
    have hmem : r' ∈ rules := by rw [Subtable.bucket, hb] at hr'; exact hr'
    have hentry := AList.mem_lookup_iff.mp hb
    have hsub : rules.Pairwise ByPriority := by
      have := hsorted value
      rw [Subtable.bucket, hb] at this
      exact this
    exact (priority_le_frontPriority hsub (-1) r' hmem).trans
      ((frontPriority_le_foldl _ (-1)).2 _ hentry (-1) (le_refl _))

/-! ### Tables -/

/-- The bucket of a mask and a masked value. -/
def TableClassifier.bucket (tc : TableClassifier) (mask value : KeyBytes) : List Rule :=
  match tc.byMask.lookup mask with
  | none => []
  | some st => st.bucket value

/-- The order lists every subtable, by falling priority. -/
structure TableClassifier.Ordered (tc : TableClassifier) : Prop where
  complete : ∀ mask, mask ∈ tc.byMask → mask ∈ tc.subtablesByPriority
  sorted : tc.scanned.Pairwise fun a b => b.maxPriority ≤ a.maxPriority

/-- Subtables in order, each under its own mask, and listed in order unless that is out of date. -/
structure TableClassifier.WF (tc : TableClassifier) : Prop where
  mask_eq : ∀ mask st, tc.byMask.lookup mask = some st → st.mask = mask
  subtable : ∀ mask st, tc.byMask.lookup mask = some st → st.WF
  ordered : tc.priorityOrderDirty = false → tc.Ordered

theorem TableClassifier.WF.new : TableClassifier.WF {} where
  mask_eq _ _ h := by cases h
  subtable _ _ h := by cases h
  ordered h := by cases h

/-- A subtable put in place of another of its mask leaves the order out of date. -/
theorem TableClassifier.WF.put {tc : TableClassifier} (h : tc.WF) {mask : KeyBytes} {st : Subtable}
    (hmask : st.mask = mask) (hst : st.WF) :
    TableClassifier.WF { tc with byMask := tc.byMask.insert mask st, priorityOrderDirty := true } := by
  refine ⟨?_, ?_, fun hdirty => by cases hdirty⟩
  · intro mask' st' hst'
    by_cases hm : mask' = mask
    · subst hm
      rw [AList.lookup_insert, Option.some_inj] at hst'
      rw [← hst', hmask]
    · rw [AList.lookup_insert_ne hm] at hst'
      exact h.mask_eq mask' st' hst'
  · intro mask' st' hst'
    by_cases hm : mask' = mask
    · subst hm
      rw [AList.lookup_insert, Option.some_inj] at hst'
      rw [← hst']
      exact hst
    · rw [AList.lookup_insert_ne hm] at hst'
      exact h.subtable mask' st' hst'

theorem TableClassifier.bucket_put (tc : TableClassifier) (mask : KeyBytes) (st : Subtable)
    (dirty : Bool) (mask' value : KeyBytes) :
    TableClassifier.bucket
        { tc with byMask := tc.byMask.insert mask st, priorityOrderDirty := dirty } mask' value =
      if mask' = mask then st.bucket value else tc.bucket mask' value := by
  unfold TableClassifier.bucket
  by_cases hm : mask' = mask
  · subst hm
    simp
  · simp [hm]

theorem TableClassifier.bucket_getOrCreateSubtable (tc : TableClassifier) (mask value : KeyBytes) :
    (tc.getOrCreateSubtable mask).bucket value = tc.bucket mask value := by
  unfold TableClassifier.getOrCreateSubtable TableClassifier.bucket
  cases tc.byMask.lookup mask <;> rfl

theorem TableClassifier.WF.getOrCreateSubtable {tc : TableClassifier} (h : tc.WF)
    (mask : KeyBytes) :
    (tc.getOrCreateSubtable mask).mask = mask ∧ (tc.getOrCreateSubtable mask).WF := by
  unfold TableClassifier.getOrCreateSubtable
  cases hst : tc.byMask.lookup mask with
  | none => exact ⟨rfl, Subtable.WF.new mask⟩
  | some st => exact ⟨h.mask_eq mask st hst, h.subtable mask st hst⟩

/-- A sorted list of masks and priorities names the subtables in order. -/
theorem TableClassifier.ordered_of_sort {tc : TableClassifier}
    {sort : List (KeyBytes × ℤ) → List (KeyBytes × ℤ)} (hperm : ∀ l, (sort l).Perm l)
    (hsorted : ∀ l, (sort l).Pairwise fun a b => b.2 ≤ a.2) (dirty : Bool) :
    TableClassifier.Ordered { tc with
      subtablesByPriority := (sort tc.priorities).map Prod.fst, priorityOrderDirty := dirty } := by
  have hlookup : ∀ p ∈ sort tc.priorities, ∃ st, tc.byMask.lookup p.1 = some st ∧
      st.maxPriority = p.2 := by
    intro p hp
    have hp := (hperm _).mem_iff.mp hp
    obtain ⟨st, hst, rfl⟩ := List.mem_map.mp hp
    exact ⟨st.2, AList.mem_lookup_iff.mpr hst, rfl⟩
  constructor
  · intro mask hmask
    obtain ⟨st, hst⟩ := Option.isSome_iff_exists.mp (AList.lookup_isSome.mpr hmask)
    have hentry : (mask, st.maxPriority) ∈ tc.priorities :=
      List.mem_map.mpr ⟨⟨mask, st⟩, AList.mem_lookup_iff.mp hst, rfl⟩
    exact List.mem_map.mpr ⟨_, (hperm _).mem_iff.mpr hentry, rfl⟩
  · show (((sort tc.priorities).map Prod.fst).filterMap _).Pairwise _
    rw [List.filterMap_map, List.pairwise_filterMap]
    refine (hsorted tc.priorities).imp_of_mem ?_
    intro p q hp hq hle st hst st' hst'
    obtain ⟨sp, hsp, hpp⟩ := hlookup p hp
    obtain ⟨sq, hsq, hqq⟩ := hlookup q hq
    have hsp' : tc.byMask.lookup p.1 = some st := hst
    have hsq' : tc.byMask.lookup q.1 = some st' := hst'
    rw [hsp, Option.some_inj] at hsp'
    rw [hsq, Option.some_inj] at hsq'
    rw [← hsp', ← hsq', hpp, hqq]
    exact hle

theorem TableClassifier.WF.rebuild {tc : TableClassifier} (h : tc.WF)
    {sort : List (KeyBytes × ℤ) → List (KeyBytes × ℤ)} (hperm : ∀ l, (sort l).Perm l)
    (hsorted : ∀ l, (sort l).Pairwise fun a b => b.2 ≤ a.2) :
    (tc.rebuildPriorityOrderIfNeeded sort).WF ∧
      (tc.rebuildPriorityOrderIfNeeded sort).priorityOrderDirty = false := by
  unfold TableClassifier.rebuildPriorityOrderIfNeeded
  split
  · exact ⟨⟨h.mask_eq, h.subtable, fun _ => ordered_of_sort hperm hsorted false⟩, rfl⟩
  · next hclean => exact ⟨h, by simpa using hclean⟩

theorem TableClassifier.bucket_rebuild (tc : TableClassifier)
    (sort : List (KeyBytes × ℤ) → List (KeyBytes × ℤ)) (mask value : KeyBytes) :
    (tc.rebuildPriorityOrderIfNeeded sort).bucket mask value = tc.bucket mask value := by
  unfold TableClassifier.rebuildPriorityOrderIfNeeded
  split <;> rfl

/-! ### Switches -/

/-- The bucket of a table, a mask and a masked value. -/
def SwitchClassifier.bucket (sw : SwitchClassifier) (t : BitVec 8) (mask value : KeyBytes) :
    List Rule :=
  (sw.getTable t).bucket mask value

/-- The rule held under an identity. -/
def SwitchClassifier.ruleOf (sw : SwitchClassifier) (id : RuleId) : Option Rule :=
  (sw.rulesById.lookup id).map Stored.rule

/-- Tables in order, and the rules found by place the same as those found by identity. -/
structure SwitchClassifier.WF (sw : SwitchClassifier) : Prop where
  tables : ∀ t, (sw.getTable t).WF
  home : ∀ t mask value, ∀ r ∈ sw.bucket t mask value,
    r.tableId = t ∧ r.mask = mask ∧ r.maskedValue = value
  nodup : ∀ t mask value, (sw.bucket t mask value).Nodup
  stored : ∀ r, r ∈ sw.bucket r.tableId r.mask r.maskedValue ↔ sw.ruleOf r.id = some r
  ids : ∀ id r, sw.ruleOf id = some r → r.id = id

theorem SwitchClassifier.WF.new : SwitchClassifier.WF {} where
  tables _ := TableClassifier.WF.new
  home _ _ _ _ hr := by cases hr
  nodup _ _ _ := List.nodup_nil
  stored r := by
    constructor
    · intro hr; cases hr
    · intro hr; cases hr
  ids _ _ hr := by cases hr

theorem SwitchClassifier.getTable_put (sw : SwitchClassifier) (t t' : BitVec 8)
    (tc : TableClassifier) :
    SwitchClassifier.getTable { sw with tables := sw.tables.insert t tc } t' =
      if t' = t then tc else sw.getTable t' := by
  unfold SwitchClassifier.getTable
  by_cases ht : t' = t
  · subst ht
    simp
  · simp [ht]

theorem bucket_insertRuleIntoTables (sw : SwitchClassifier) (r : Rule) (t : BitVec 8)
    (mask value : KeyBytes) :
    (insertRuleIntoTables sw r).bucket t mask value =
      if t = r.tableId ∧ mask = r.mask ∧ value = r.maskedValue then
        (sw.bucket t mask value).orderedInsert ByPriority r
      else sw.bucket t mask value := by
  unfold SwitchClassifier.bucket insertRuleIntoTables
  rw [SwitchClassifier.getTable_put]
  by_cases ht : t = r.tableId
  · subst ht
    rw [if_pos rfl, TableClassifier.bucket_put]
    by_cases hm : mask = r.mask
    · subst hm
      rw [if_pos rfl, Subtable.bucket_insert, TableClassifier.bucket_getOrCreateSubtable]
      simp
    · simp [hm]
  · simp [ht]

theorem removeRuleFromTables_of_none {sw : SwitchClassifier} {r : Rule}
    (h : (sw.getTable r.tableId).byMask.lookup r.mask = none) : removeRuleFromTables sw r = sw := by
  simp [removeRuleFromTables, h]

theorem removeRuleFromTables_of_some {sw : SwitchClassifier} {r : Rule} {st : Subtable}
    (h : (sw.getTable r.tableId).byMask.lookup r.mask = some st) :
    removeRuleFromTables sw r = { sw with
      tables := sw.tables.insert r.tableId { sw.getTable r.tableId with
        byMask := (sw.getTable r.tableId).byMask.insert r.mask (st.remove r)
        priorityOrderDirty := true } } := by
  simp [removeRuleFromTables, h]

theorem bucket_removeRuleFromTables (sw : SwitchClassifier) (r : Rule) (t : BitVec 8)
    (mask value : KeyBytes) :
    (removeRuleFromTables sw r).bucket t mask value =
      if t = r.tableId ∧ mask = r.mask ∧ value = r.maskedValue then (sw.bucket t mask value).erase r
      else sw.bucket t mask value := by
  unfold SwitchClassifier.bucket
  cases hst : (sw.getTable r.tableId).byMask.lookup r.mask with
  | none =>
    rw [removeRuleFromTables_of_none hst]
    split
    · next hat =>
      obtain ⟨rfl, rfl, rfl⟩ := hat
      simp [TableClassifier.bucket, hst]
    · rfl
  | some st =>
    rw [removeRuleFromTables_of_some hst, SwitchClassifier.getTable_put]
    by_cases ht : t = r.tableId
    · subst ht
      rw [if_pos rfl, TableClassifier.bucket_put]
      by_cases hm : mask = r.mask
      · subst hm
        rw [if_pos rfl, Subtable.bucket_remove]
        simp [TableClassifier.bucket, hst]
      · simp [hm]
    · simp [ht]

theorem SwitchClassifier.WF.tables_insert {sw : SwitchClassifier} (h : ∀ t, (sw.getTable t).WF)
    (r : Rule) (t : BitVec 8) : ((insertRuleIntoTables sw r).getTable t).WF := by
  unfold insertRuleIntoTables
  rw [SwitchClassifier.getTable_put]
  split
  · obtain ⟨hmask, hst⟩ := (h r.tableId).getOrCreateSubtable r.mask
    exact (h r.tableId).put hmask (hst.insert r)
  · exact h t

theorem SwitchClassifier.WF.tables_remove {sw : SwitchClassifier} (h : ∀ t, (sw.getTable t).WF)
    (r : Rule) (t : BitVec 8) : ((removeRuleFromTables sw r).getTable t).WF := by
  cases hst : (sw.getTable r.tableId).byMask.lookup r.mask with
  | none =>
    rw [removeRuleFromTables_of_none hst]
    exact h t
  | some st =>
    rw [removeRuleFromTables_of_some hst, SwitchClassifier.getTable_put]
    split
    · have hmask := (h r.tableId).mask_eq r.mask st hst
      exact (h r.tableId).put hmask (((h r.tableId).subtable r.mask st hst).remove r)
    · exact h t

/-- A rule of a new identity, put in its place, keeps the two views the same. -/
theorem SwitchClassifier.WF.of_insert {sw sw' : SwitchClassifier} {r : Rule} (h : sw.WF)
    (hnone : sw.ruleOf r.id = none) (htables : ∀ t, (sw'.getTable t).WF)
    (hbucket : ∀ t mask value, sw'.bucket t mask value =
      if t = r.tableId ∧ mask = r.mask ∧ value = r.maskedValue then
        (sw.bucket t mask value).orderedInsert ByPriority r
      else sw.bucket t mask value)
    (hruleOf : ∀ id, sw'.ruleOf id = if id = r.id then some r else sw.ruleOf id) : sw'.WF := by
  have hfresh : r ∉ sw.bucket r.tableId r.mask r.maskedValue := by
    rw [h.stored r, hnone]
    simp
  refine ⟨htables, ?_, ?_, ?_, ?_⟩
  · intro t mask value r' hr'
    rw [hbucket] at hr'
    split at hr'
    · next hat =>
      rcases (List.mem_orderedInsert _).mp hr' with rfl | hr'
      · exact ⟨hat.1.symm, hat.2.1.symm, hat.2.2.symm⟩
      · exact h.home t mask value r' hr'
    · exact h.home t mask value r' hr'
  · intro t mask value
    rw [hbucket]
    split
    · next hat =>
      obtain ⟨rfl, rfl, rfl⟩ := hat
      exact (List.perm_orderedInsert _ r _).nodup_iff.mpr (List.nodup_cons.mpr ⟨hfresh, h.nodup _ _ _⟩)
    · exact h.nodup t mask value
  · intro r'
    rw [hruleOf, hbucket]
    by_cases hid : r'.id = r.id
    · -- no rule of the new identity was there before
      have hold : r' ∉ sw.bucket r'.tableId r'.mask r'.maskedValue := by
        rw [h.stored r', hid, hnone]
        simp
      rw [if_pos hid, Option.some_inj]
      split
      · rw [List.mem_orderedInsert]
        exact ⟨fun hr' => (hr'.resolve_right hold).symm, fun hr' => Or.inl hr'.symm⟩
      · next hat =>
        refine ⟨fun hr' => absurd hr' hold, ?_⟩
        rintro rfl
        exact absurd ⟨rfl, rfl, rfl⟩ hat
    · have hne : r' ≠ r := by
        rintro rfl
        exact hid rfl
      rw [if_neg hid, ← h.stored r']
      split
      · rw [List.mem_orderedInsert]
        exact or_iff_right hne
      · rfl
  · intro id r' hr'
    rw [hruleOf] at hr'
    split at hr'
    · next hid => cases hr'; exact hid.symm
    · exact h.ids id r' hr'

theorem upsertRule_of_none {sw : SwitchClassifier} {r : Rule}
    (h : sw.rulesById.lookup r.id = none) :
    upsertRule sw r = { insertRuleIntoTables sw r with
      rulesById := sw.rulesById.insert r.id ⟨r, sw.epoch⟩ } := by
  unfold upsertRule
  rw [h]
  rfl

theorem upsertRule_of_some {sw : SwitchClassifier} {r : Rule} {s : Stored}
    (h : sw.rulesById.lookup r.id = some s) :
    upsertRule sw r =
      { sw with rulesById := sw.rulesById.insert r.id { s with lastSeenEpoch := sw.epoch } } := by
  unfold upsertRule
  rw [h]

/-- A rule already known by its identity stays what it was. -/
theorem rulesById_upsertRule (sw : SwitchClassifier) (r : Rule) (id : RuleId) :
    (upsertRule sw r).rulesById.lookup id =
      if id = r.id then some ⟨((sw.rulesById.lookup id).map Stored.rule).getD r, sw.epoch⟩
      else sw.rulesById.lookup id := by
  cases hr : sw.rulesById.lookup r.id with
  | none =>
    rw [upsertRule_of_none hr]
    by_cases hid : id = r.id
    · subst hid
      simp [hr]
    · simp [hid]
  | some s =>
    rw [upsertRule_of_some hr]
    by_cases hid : id = r.id
    · subst hid
      simp [hr]
    · simp [hid]

theorem epoch_upsertRule (sw : SwitchClassifier) (r : Rule) :
    (upsertRule sw r).epoch = sw.epoch := by
  cases hr : sw.rulesById.lookup r.id with
  | none => rw [upsertRule_of_none hr]; rfl
  | some s => rw [upsertRule_of_some hr]

theorem ruleOf_upsertRule (sw : SwitchClassifier) (r : Rule) (id : RuleId) :
    (upsertRule sw r).ruleOf id =
      if id = r.id then some ((sw.ruleOf id).getD r) else sw.ruleOf id := by
  unfold SwitchClassifier.ruleOf
  rw [rulesById_upsertRule]
  split <;> rfl

theorem SwitchClassifier.WF.upsertRule {sw : SwitchClassifier} (h : sw.WF) (r : Rule) :
    (upsertRule sw r).WF := by
  have hruleOf := ruleOf_upsertRule sw r
  cases hr : sw.rulesById.lookup r.id with
  | none =>
    have hnone : sw.ruleOf r.id = none := by simp [SwitchClassifier.ruleOf, hr]
    refine h.of_insert hnone ?_ ?_ ?_
    · rw [upsertRule_of_none hr]
      exact WF.tables_insert h.tables r
    · rw [upsertRule_of_none hr]
      exact bucket_insertRuleIntoTables sw r
    · intro id
      rw [hruleOf]
      split
      · next hid => rw [hid, hnone]; rfl
      · rfl
  | some s =>
    have hs : sw.ruleOf r.id = some s.rule := by simp [SwitchClassifier.ruleOf, hr]
    have hsame : ∀ id, (Classifier.upsertRule sw r).ruleOf id = sw.ruleOf id := by
      intro id
      rw [hruleOf]
      split
      · next hid => rw [hid, hs]; rfl
      · rfl
    refine ⟨?_, ?_, ?_, ?_, fun id r' hr' => h.ids id r' (hsame id ▸ hr')⟩
    · rw [upsertRule_of_some hr]
      exact h.tables
    · rw [upsertRule_of_some hr]
      exact h.home
    · rw [upsertRule_of_some hr]
      exact h.nodup
    · intro r'
      rw [hsame, ← h.stored r', upsertRule_of_some hr]
      rfl

theorem rulesById_removeRuleFromTables (sw : SwitchClassifier) (r : Rule) :
    (removeRuleFromTables sw r).rulesById = sw.rulesById ∧
      (removeRuleFromTables sw r).epoch = sw.epoch := by
  cases hst : (sw.getTable r.tableId).byMask.lookup r.mask with
  | none => rw [removeRuleFromTables_of_none hst]; exact ⟨rfl, rfl⟩
  | some st => rw [removeRuleFromTables_of_some hst]; exact ⟨rfl, rfl⟩

theorem deleteRule_of_none {sw : SwitchClassifier} {id : RuleId}
    (h : sw.rulesById.lookup id = none) : deleteRule sw id = sw := by
  unfold deleteRule
  rw [h]

theorem deleteRule_of_some {sw : SwitchClassifier} {id : RuleId} {s : Stored}
    (h : sw.rulesById.lookup id = some s) :
    deleteRule sw id = { removeRuleFromTables sw s.rule with
      rulesById := sw.rulesById.erase id } := by
  unfold deleteRule
  rw [h, ← (rulesById_removeRuleFromTables sw s.rule).1]

theorem rulesById_deleteRule (sw : SwitchClassifier) (id id' : RuleId) :
    (deleteRule sw id).rulesById.lookup id' =
      if id' = id then none else sw.rulesById.lookup id' := by
  cases hs : sw.rulesById.lookup id with
  | none =>
    rw [deleteRule_of_none hs]
    split
    · next hid => rw [hid]; exact hs
    · rfl
  | some s =>
    rw [deleteRule_of_some hs]
    by_cases hid : id' = id
    · subst hid
      simp
    · simp [hid]

theorem SwitchClassifier.WF.deleteRule {sw : SwitchClassifier} (h : sw.WF) (id : RuleId) :
    (deleteRule sw id).WF := by
  cases hs : sw.rulesById.lookup id with
  | none =>
    rw [deleteRule_of_none hs]
    exact h
  | some s =>
    have hruleOf : ∀ id', (Classifier.deleteRule sw id).ruleOf id' =
        if id' = id then none else sw.ruleOf id' := by
      intro id'
      unfold SwitchClassifier.ruleOf
      rw [rulesById_deleteRule]
      split <;> rfl
    have hs' : sw.ruleOf id = some s.rule := by simp [SwitchClassifier.ruleOf, hs]
    have hid : s.rule.id = id := h.ids id s.rule hs'
    have hdelete := deleteRule_of_some hs
    have hbucket : ∀ t mask value, (Classifier.deleteRule sw id).bucket t mask value =
        if t = s.rule.tableId ∧ mask = s.rule.mask ∧ value = s.rule.maskedValue then
          (sw.bucket t mask value).erase s.rule
        else sw.bucket t mask value := by
      intro t mask value
      rw [hdelete]
      exact bucket_removeRuleFromTables sw s.rule t mask value
    refine ⟨?_, ?_, ?_, ?_, ?_⟩
    · intro t
      rw [hdelete]
      exact WF.tables_remove h.tables s.rule t
    · intro t mask value r hr
      rw [hbucket] at hr
      split at hr
      · exact h.home t mask value r (List.mem_of_mem_erase hr)
      · exact h.home t mask value r hr
    · intro t mask value
      rw [hbucket]
      split
      · exact (h.nodup t mask value).erase _
      · exact h.nodup t mask value
    · intro r
      rw [hruleOf, hbucket]
      by_cases hr : r = s.rule
      · subst hr
        rw [if_pos ⟨rfl, rfl, rfl⟩, if_pos hid, (h.nodup _ _ _).mem_erase_iff]
        simp
      · -- another rule of the deleted identity was not there
        have hmem : (r ∈ if r.tableId = s.rule.tableId ∧ r.mask = s.rule.mask ∧
            r.maskedValue = s.rule.maskedValue then
              (sw.bucket r.tableId r.mask r.maskedValue).erase s.rule
            else sw.bucket r.tableId r.mask r.maskedValue) ↔ sw.ruleOf r.id = some r := by
          rw [← h.stored r]
          split
          · exact List.mem_erase_of_ne hr
          · rfl
        rw [hmem]
        split
        · next hrid =>
          rw [hrid, hs', Option.some_inj]
          exact ⟨fun heq => absurd heq.symm hr, fun hnone => by cases hnone⟩
        · rfl
    · intro id' r hr
      rw [hruleOf] at hr
      split at hr
      · cases hr
      · exact h.ids id' r hr

theorem epoch_deleteRule (sw : SwitchClassifier) (id : RuleId) :
    (deleteRule sw id).epoch = sw.epoch := by
  cases hs : sw.rulesById.lookup id with
  | none => rw [deleteRule_of_none hs]
  | some s => rw [deleteRule_of_some hs]; exact (rulesById_removeRuleFromTables sw s.rule).2

/-- A list of deletions, one after the other. -/
theorem foldl_deleteRule (sw : SwitchClassifier) (ids : List RuleId) :
    (sw.WF → (ids.foldl deleteRule sw).WF) ∧ (ids.foldl deleteRule sw).epoch = sw.epoch ∧
      ∀ id, (ids.foldl deleteRule sw).rulesById.lookup id =
        if id ∈ ids then none else sw.rulesById.lookup id := by
  induction ids generalizing sw with
  | nil => simp
  | cons id ids ih =>
    obtain ⟨hwf, hepoch, hlookup⟩ := ih (deleteRule sw id)
    refine ⟨fun h => hwf (h.deleteRule id), hepoch.trans (epoch_deleteRule sw id), ?_⟩
    intro id'
    rw [List.foldl_cons, hlookup, rulesById_deleteRule]
    by_cases hid : id' = id
    · simp [hid]
    · simp [hid]

theorem mem_toDelete {sw : SwitchClassifier} {id : RuleId} :
    id ∈ toDelete sw ↔ ∃ s, sw.rulesById.lookup id = some s ∧ s.lastSeenEpoch ≠ sw.epoch := by
  unfold toDelete
  rw [List.mem_map]
  constructor
  · rintro ⟨⟨id', s⟩, hs, rfl⟩
    obtain ⟨hmem, hseen⟩ := List.mem_filter.mp hs
    exact ⟨s, AList.mem_lookup_iff.mpr hmem, by simpa using hseen⟩
  · rintro ⟨s, hs, hseen⟩
    exact ⟨⟨id, s⟩, List.mem_filter.mpr ⟨AList.mem_lookup_iff.mp hs, by simpa using hseen⟩, rfl⟩

/-- The sweep keeps what the poll has seen. -/
theorem rulesById_sweep (sw : SwitchClassifier) (id : RuleId) :
    (sweep sw).rulesById.lookup id =
      (sw.rulesById.lookup id).filter fun s => s.lastSeenEpoch = sw.epoch := by
  unfold sweep
  rw [(foldl_deleteRule sw (toDelete sw)).2.2]
  cases hs : sw.rulesById.lookup id with
  | none => simp
  | some s =>
    by_cases hseen : s.lastSeenEpoch = sw.epoch
    · have hkept : id ∉ toDelete sw := by
        rw [mem_toDelete, hs]
        rintro ⟨s', hs', hne⟩
        cases hs'
        exact hne hseen
      simp [Option.filter, hkept, hseen]
    · have hgone : id ∈ toDelete sw := mem_toDelete.mpr ⟨s, hs, hseen⟩
      simp [Option.filter, hgone, hseen]

theorem getTable_rebuildTables (sort : BitVec 8 → List (KeyBytes × ℤ) → List (KeyBytes × ℤ))
    (sw : SwitchClassifier) (t : BitVec 8) :
    (rebuildTables sort sw).tables.lookup t =
      (sw.tables.lookup t).map fun tc => tc.rebuildPriorityOrderIfNeeded (sort t) :=
  List.dlookup_map₂ (l := sw.tables.entries)
    (f := fun t tc => TableClassifier.rebuildPriorityOrderIfNeeded tc (sort t)) t

/-- No table has an order that is out of date. -/
def SwitchClassifier.Settled (sw : SwitchClassifier) : Prop :=
  ∀ t tc, sw.tables.lookup t = some tc → tc.priorityOrderDirty = false

theorem bucket_rebuildTables (sort : BitVec 8 → List (KeyBytes × ℤ) → List (KeyBytes × ℤ))
    (sw : SwitchClassifier) (t : BitVec 8) (mask value : KeyBytes) :
    (rebuildTables sort sw).bucket t mask value = sw.bucket t mask value := by
  unfold SwitchClassifier.bucket SwitchClassifier.getTable
  rw [getTable_rebuildTables]
  cases sw.tables.lookup t with
  | none => rfl
  | some tc => exact TableClassifier.bucket_rebuild tc (sort t) mask value

theorem SwitchClassifier.WF.rebuildTables {sw : SwitchClassifier} (h : sw.WF) (sorter : Sorter)
    (i : ℕ) : (rebuildTables (sorter.sort i) sw).WF ∧ (rebuildTables (sorter.sort i) sw).Settled := by
  have hbucket := bucket_rebuildTables (sorter.sort i) sw
  have htable : ∀ t tc, sw.tables.lookup t = some tc →
      (tc.rebuildPriorityOrderIfNeeded (sorter.sort i t)).WF ∧
        (tc.rebuildPriorityOrderIfNeeded (sorter.sort i t)).priorityOrderDirty = false := by
    intro t tc htc
    have hwf := h.tables t
    rw [SwitchClassifier.getTable, htc] at hwf
    exact TableClassifier.WF.rebuild hwf (sorter.perm i t) (sorter.sorted i t)
  refine ⟨⟨?_, ?_, ?_, ?_, h.ids⟩, ?_⟩
  · intro t
    rw [SwitchClassifier.getTable, getTable_rebuildTables]
    cases htc : sw.tables.lookup t with
    | none => exact TableClassifier.WF.new
    | some tc => exact (htable t tc htc).1
  · intro t mask value
    rw [hbucket]
    exact h.home t mask value
  · intro t mask value
    rw [hbucket]
    exact h.nodup t mask value
  · intro r
    rw [hbucket]
    exact h.stored r
  · intro t tc htc
    rw [getTable_rebuildTables] at htc
    obtain ⟨tc', htc', rfl⟩ := Option.map_eq_some_iff.mp htc
    exact (htable t tc' htc').2

/-! ### Lookups -/

/-- A rule that a lookup of a packet in a table may return. -/
def Matches (r : Rule) (t : BitVec 8) (key : FlowKey) : Prop :=
  r.tableId = t ∧ 0 ≤ r.priority ∧ r.maskedValue = packKey key &&& r.mask

instance (r : Rule) (t : BitVec 8) (key : FlowKey) : Decidable (Matches r t key) :=
  inferInstanceAs (Decidable (_ ∧ _ ∧ _))

/-- The rules of a subtable that a packet agrees with. -/
def Subtable.matching (st : Subtable) (key : FlowKey) : Set Rule :=
  {r | r ∈ st.bucket (packKey key &&& st.mask)}

/-- The subtables scanned are all there are. -/
theorem TableClassifier.mem_scanned {tc : TableClassifier} (h : tc.Ordered) {st : Subtable} :
    st ∈ tc.scanned ↔ ∃ mask, tc.byMask.lookup mask = some st := by
  unfold TableClassifier.scanned
  rw [List.mem_filterMap]
  constructor
  · rintro ⟨mask, -, hst⟩
    exact ⟨mask, hst⟩
  · rintro ⟨mask, hst⟩
    have hmask : mask ∈ tc.byMask := AList.lookup_isSome.mp (by simp [hst])
    exact ⟨mask, h.complete mask hmask, hst⟩

theorem TableClassifier.WF.of_mem_scanned {tc : TableClassifier} (h : tc.WF) {st : Subtable}
    (hst : st ∈ tc.scanned) : tc.byMask.lookup st.mask = some st ∧ st.WF := by
  obtain ⟨mask, -, hmask⟩ := List.mem_filterMap.mp hst
  rw [h.mask_eq mask st hmask]
  exact ⟨hmask, h.subtable mask st hmask⟩

/-- Every table lists all its subtables in order, whatever its flag says. -/
def SwitchClassifier.InOrder (sw : SwitchClassifier) : Prop :=
  ∀ t tc, sw.tables.lookup t = some tc → tc.Ordered

theorem SwitchClassifier.WF.inOrder {sw : SwitchClassifier} (h : sw.WF) (hsettled : sw.Settled) :
    sw.InOrder := by
  intro t tc htc
  have hget : sw.getTable t = tc := by rw [SwitchClassifier.getTable, htc]; rfl
  exact (hget ▸ h.tables t).ordered (hsettled t tc htc)

/-- **A lookup finds a best matching rule of those held**, whatever the order of the subtables. -/
theorem isBest_lookupInTableNoLock {sw : SwitchClassifier} (h : sw.WF) (hinOrder : sw.InOrder)
    (t : BitVec 8) (key : FlowKey) :
    IsBest Rule.priority {r | sw.ruleOf r.id = some r ∧ Matches r t key}
      (lookupInTableNoLock sw t key) := by
  have hheld : ∀ r, (sw.ruleOf r.id = some r ∧ Matches r t key) ↔
      -1 < r.priority ∧ r ∈ sw.bucket t r.mask (packKey key &&& r.mask) := by
    intro r
    constructor
    · rintro ⟨hr, rfl, hpos, hvalue⟩
      rw [← hvalue]
      exact ⟨by omega, (h.stored r).mpr hr⟩
    · rintro ⟨hpos, hr⟩
      obtain ⟨rfl, -, hvalue⟩ := h.home t _ _ r hr
      rw [← hvalue] at hr
      exact ⟨(h.stored r).mp hr, rfl, by omega, hvalue⟩
  unfold lookupInTableNoLock
  cases htc : sw.tables.lookup t with
  | none =>
    intro r hr
    have hmem := ((hheld r).mp hr).2
    rw [SwitchClassifier.bucket, SwitchClassifier.getTable, htc] at hmem
    cases hmem
  | some tc =>
    have hget : sw.getTable t = tc := by rw [SwitchClassifier.getTable, htc]; rfl
    have hwf : tc.WF := hget ▸ h.tables t
    have hordered : tc.Ordered := hinOrder t tc htc
    have hsub : ∀ st ∈ tc.scanned, tc.byMask.lookup st.mask = some st ∧ st.WF :=
      fun st hst => hwf.of_mem_scanned hst
    have hset : {r | sw.ruleOf r.id = some r ∧ Matches r t key} =
        {r | -1 < r.priority ∧ ∃ st ∈ tc.scanned, r ∈ st.matching key} := by
      ext r
      rw [Set.mem_ofPred_eq, Set.mem_ofPred_eq, hheld, SwitchClassifier.bucket, hget]
      refine and_congr_right ?_
      intro _
      constructor
      · intro hr
        cases hst : tc.byMask.lookup r.mask with
        | none =>
          rw [TableClassifier.bucket, hst] at hr
          cases hr
        | some st =>
          rw [TableClassifier.bucket, hst, ← hwf.mask_eq r.mask st hst] at hr
          exact ⟨st, (TableClassifier.mem_scanned hordered).mpr ⟨r.mask, hst⟩, hr⟩
      · rintro ⟨st, hst, hr⟩
        have hlook := (hsub st hst).1
        have hbucket : r ∈ sw.bucket t st.mask (packKey key &&& st.mask) := by
          rw [SwitchClassifier.bucket, hget, TableClassifier.bucket, hlook]
          exact hr
        obtain ⟨-, hmask, -⟩ := h.home t _ _ r hbucket
        rw [hmask, TableClassifier.bucket, hlook]
        exact hr
    rw [hset]
    exact isBest_scan hordered.sorted
      (fun st hst => isBest_head? ((hsub st hst).2.sorted (packKey key &&& st.mask)))
      (fun st hst r hr => (hsub st hst).2.bounded (packKey key &&& st.mask) r hr) (-1)

end NDTwin.Classifier
