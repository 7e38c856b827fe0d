import NDTwin.Classifier.Refine

/-!
# Rules of one priority

The order of subtables of one priority is nobody's choice: it follows the order of a hash map and
a sort that need not keep it.  Where all the rules of a first poll have one priority, any of those
that match a packet can be the answer, each in the order that meets its subtable first.

## Main definitions

* `Sorter.first` — the order that meets one mask first.

## Main results

* `lookup_first` — **the first subtable met decides.**
-/

namespace NDTwin.Classifier

open BestFirst

variable {F : Type}

/-! ### The order -/

/-- Falling priority, and the subtable of one mask before the others of its priority. -/
def FirstMask (mask : KeyBytes) (a b : KeyBytes × ℤ) : Prop :=
  b.2 < a.2 ∨ a.2 = b.2 ∧ (a.1 = mask ∨ b.1 ≠ mask)

instance (mask : KeyBytes) : DecidableRel (FirstMask mask) := fun a b =>
  inferInstanceAs (Decidable (b.2 < a.2 ∨ a.2 = b.2 ∧ (a.1 = mask ∨ b.1 ≠ mask)))

instance (mask : KeyBytes) : Std.Total (FirstMask mask) := ⟨by
  intro a b
  unfold FirstMask
  rcases lt_trichotomy a.2 b.2 with h | h | h
  · exact Or.inr (Or.inl h)
  · by_cases ha : a.1 = mask
    · exact Or.inl (Or.inr ⟨h, Or.inl ha⟩)
    · exact Or.inr (Or.inr ⟨h.symm, Or.inr ha⟩)
  · exact Or.inl (Or.inl h)⟩

instance (mask : KeyBytes) : IsTrans (KeyBytes × ℤ) (FirstMask mask) := ⟨by
  rintro a b c (hab | ⟨hab, hab'⟩) (hbc | ⟨hbc, hbc'⟩)
  · exact Or.inl (hbc.trans hab)
  · exact Or.inl (hbc ▸ hab)
  · exact Or.inl (hab ▸ hbc)
  · refine Or.inr ⟨hab.trans hbc, ?_⟩
    rcases hbc' with hb | hc
    · exact hab'.imp_right fun hb' => absurd hb hb'
    · exact Or.inr hc⟩

/-- The sort that meets the subtable of one mask first. -/
def Sorter.first (mask : KeyBytes) : Sorter where
  sort _ _ l := l.insertionSort (FirstMask mask)
  perm _ _ l := List.perm_insertionSort _ l
  sorted _ _ l := by
    refine (List.pairwise_insertionSort (FirstMask mask) l).imp ?_
    rintro a b (h | ⟨h, -⟩)
    · exact h.le
    · exact h.ge

/-- Where the subtable of the mask has the highest priority, it comes first. -/
theorem Sorter.head?_first {mask : KeyBytes} {l : List (KeyBytes × ℤ)} {p : ℤ} (i : ℕ)
    (t : BitVec 8) (hmem : (mask, p) ∈ l) (hmax : ∀ q ∈ l, q.2 ≤ p) :
    (((Sorter.first mask).sort i t l).map Prod.fst).head? = some mask := by
  have hperm := (Sorter.first mask).perm i t l
  have hsorted : ((Sorter.first mask).sort i t l).Pairwise (FirstMask mask) :=
    List.pairwise_insertionSort (FirstMask mask) l
  cases hl : (Sorter.first mask).sort i t l with
  | nil =>
    rw [hl] at hperm
    rw [List.nil_perm.mp hperm] at hmem
    cases hmem
  | cons a rest =>
    rw [hl] at hperm hsorted
    have ha : a.2 ≤ p := hmax a (hperm.mem_iff.mp (by simp))
    rcases List.mem_cons.mp (hperm.mem_iff.mpr hmem) with rfl | hrest
    · rfl
    · rcases (List.pairwise_cons.mp hsorted).1 _ hrest with h | ⟨-, h⟩
      · exact absurd h (not_lt_of_ge ha)
      · rcases h with h | h
        · rw [List.map_cons, List.head?_cons, h]
        · exact absurd rfl h

/-! ### A first poll -/

/-- Every table is out of date, and no subtable or rule is above a priority. -/
structure SwitchClassifier.Capped (sw : SwitchClassifier) (p : ℤ) : Prop where
  dirty : ∀ t tc, sw.tables.lookup t = some tc → tc.priorityOrderDirty = true
  subtable : ∀ t mask st, (sw.getTable t).byMask.lookup mask = some st → st.maxPriority ≤ p
  rules : ∀ t mask value, ∀ r ∈ sw.bucket t mask value, r.priority ≤ p

theorem SwitchClassifier.Capped.insert {sw : SwitchClassifier} {p : ℤ} (hp : -1 ≤ p)
    (h : sw.Capped p) {r : Rule} (hr : r.priority ≤ p) : (insertRuleIntoTables sw r).Capped p := by
  have hrules : ∀ t mask value, ∀ r' ∈ (insertRuleIntoTables sw r).bucket t mask value,
      r'.priority ≤ p := by
    intro t mask value r' hr'
    rw [bucket_insertRuleIntoTables] at hr'
    split at hr'
    · rcases (List.mem_orderedInsert _).mp hr' with rfl | hr'
      · exact hr
      · exact h.rules t mask value r' hr'
    · exact h.rules t mask value r' hr'
  refine ⟨?_, ?_, hrules⟩
  · intro t tc htc
    unfold insertRuleIntoTables at htc
    by_cases ht : t = r.tableId
    · subst ht
      rw [AList.lookup_insert, Option.some_inj] at htc
      rw [← htc]
    · rw [AList.lookup_insert_ne ht] at htc
      exact h.dirty t tc htc
  · intro t mask st hst
    unfold insertRuleIntoTables at hst
    rw [SwitchClassifier.getTable_put] at hst
    split at hst
    · by_cases hm : mask = r.mask
      · subst hm
        rw [AList.lookup_insert, Option.some_inj] at hst
        rw [← hst]
        refine frontPriority_le ?_ ?_
        · unfold TableClassifier.getOrCreateSubtable
          cases hold : (sw.getTable r.tableId).byMask.lookup r.mask with
          | none => exact hp
          | some st' => exact h.subtable _ _ st' hold
        · intro r' hr'
          rw [TableClassifier.bucket_getOrCreateSubtable] at hr'
          rcases (List.mem_orderedInsert _).mp hr' with rfl | hr'
          · exact hr
          · exact h.rules r.tableId r.mask r.maskedValue r' hr'
      · rw [AList.lookup_insert_ne hm] at hst
        exact h.subtable _ mask st hst
    · exact h.subtable t mask st hst

theorem SwitchClassifier.Capped.upsertRule {sw : SwitchClassifier} {p : ℤ} (hp : -1 ≤ p)
    (h : sw.Capped p) {r : Rule} (hr : r.priority ≤ p) : (upsertRule sw r).Capped p := by
  cases hs : sw.rulesById.lookup r.id with
  | none =>
    have hinsert := h.insert hp hr
    rw [upsertRule_of_none hs]
    exact ⟨hinsert.dirty, hinsert.subtable, hinsert.rules⟩
  | some s =>
    rw [upsertRule_of_some hs]
    exact ⟨h.dirty, h.subtable, h.rules⟩

theorem SwitchClassifier.Capped.foldl {sw : SwitchClassifier} {p : ℤ} (hp : -1 ≤ p)
    (h : sw.Capped p) {rules : List Rule} (hrules : ∀ r ∈ rules, r.priority ≤ p) :
    (rules.foldl Classifier.upsertRule sw).Capped p := by
  induction rules generalizing sw with
  | nil => exact h
  | cons r rules ih =>
    exact ih (h.upsertRule hp (hrules r (by simp))) fun r' hr' => hrules r' (by simp [hr'])

theorem SwitchClassifier.Capped.new (epoch : BitVec 64) (p : ℤ) :
    SwitchClassifier.Capped { epoch } p where
  dirty _ _ h := by cases h
  subtable _ _ _ h := by cases h
  rules _ _ _ _ h := by cases h

/-- What a first poll holds: the first rule of each identity. -/
theorem rulesById_first (rules : List Rule) (epoch : BitVec 64) (id : RuleId) :
    (rules.foldl upsertRule { epoch }).rulesById.lookup id =
      (rules.find? fun r => r.id = id).map fun r => ⟨r, epoch⟩ := by
  rw [(foldl_upsertRule { epoch } rules).2.2]
  cases rules.find? fun r => r.id = id <;> rfl

/-- Nothing is swept after a first poll. -/
theorem sweep_first (rules : List Rule) (epoch : BitVec 64) :
    sweep (rules.foldl upsertRule { epoch }) = rules.foldl upsertRule { epoch } := by
  have hepoch := (foldl_upsertRule { epoch } rules).2.1
  have hnone : toDelete (rules.foldl upsertRule { epoch }) = [] := by
    rw [List.eq_nil_iff_forall_not_mem]
    intro id hid
    obtain ⟨s, hs, hseen⟩ := mem_toDelete.mp hid
    rw [rulesById_first] at hs
    obtain ⟨r, -, rfl⟩ := Option.map_eq_some_iff.mp hs
    exact hseen hepoch.symm
  rw [sweep, hnone]
  rfl

/-- A table whose order has just been rebuilt scans the subtable of a mask first, if that has the
highest priority. -/
theorem scanned_first {tc : TableClassifier} {mask : KeyBytes} {st : Subtable} {p : ℤ} (i : ℕ)
    (t : BitVec 8) (hdirty : tc.priorityOrderDirty = true) (hst : tc.byMask.lookup mask = some st)
    (hp : st.maxPriority = p) (hmax : ∀ m st', tc.byMask.lookup m = some st' → st'.maxPriority ≤ p) :
    ∃ rest, (tc.rebuildPriorityOrderIfNeeded ((Sorter.first mask).sort i t)).scanned =
      st :: rest := by
  have hhead : (((Sorter.first mask).sort i t tc.priorities).map Prod.fst).head? = some mask := by
    refine Sorter.head?_first i t (p := p) ?_ ?_
    · exact List.mem_map.mpr ⟨⟨mask, st⟩, AList.mem_lookup_iff.mp hst, by rw [← hp]⟩
    · intro q hq
      obtain ⟨⟨m, st'⟩, hst', rfl⟩ := List.mem_map.mp hq
      exact hmax m st' (AList.mem_lookup_iff.mpr hst')
  unfold TableClassifier.rebuildPriorityOrderIfNeeded TableClassifier.scanned
  rw [if_pos hdirty]
  cases horder : ((Sorter.first mask).sort i t tc.priorities).map Prod.fst with
  | nil => rw [horder] at hhead; cases hhead
  | cons m rest =>
    rw [horder] at hhead
    cases hhead
    exact ⟨_, List.filterMap_cons_some hst⟩

/-- The subtable that is listed first answers, if its bucket has a rule of the highest priority
there is. -/
theorem scan_rebuilt_first {tc : TableClassifier} (hwf : tc.WF)
    (hdirty : tc.priorityOrderDirty = true) {mask : KeyBytes} {st : Subtable} {p : ℤ} (hp : 0 ≤ p)
    (hst : tc.byMask.lookup mask = some st) (hmax : st.maxPriority = p)
    (hcapped : ∀ m st', tc.byMask.lookup m = some st' → st'.maxPriority ≤ p) {key : FlowKey}
    {r : Rule} (hfront : (st.bucket (packKey key &&& st.mask)).head? = some r)
    (hr : p ≤ r.priority) (i : ℕ) (t : BitVec 8) :
    scan Subtable.maxPriority (fun st => (st.bucket (packKey key &&& st.mask)).head?) Rule.priority
      (tc.rebuildPriorityOrderIfNeeded ((Sorter.first mask).sort i t)).scanned none (-1) = some r := by
  obtain ⟨rest, hscanned⟩ := scanned_first i t hdirty hst hmax hcapped
  obtain ⟨hwf', hclean⟩ := hwf.rebuild ((Sorter.first mask).perm i t) ((Sorter.first mask).sorted i t)
  have hsorted := (hwf'.ordered hclean).sorted
  have hbyMask : (tc.rebuildPriorityOrderIfNeeded ((Sorter.first mask).sort i t)).byMask =
      tc.byMask := by
    unfold TableClassifier.rebuildPriorityOrderIfNeeded
    split <;> rfl
  have hrest : ∀ st' ∈ rest, st'.maxPriority ≤ p ∧ st'.WF := by
    intro st' hst'
    have hmem : st' ∈ (tc.rebuildPriorityOrderIfNeeded ((Sorter.first mask).sort i t)).scanned := by
      rw [hscanned]
      exact List.mem_cons_of_mem _ hst'
    obtain ⟨hlookup, hwfst⟩ := hwf'.of_mem_scanned hmem
    rw [hbyMask] at hlookup
    exact ⟨hcapped _ st' hlookup, hwfst⟩
  have hin : r ∈ st.bucket (packKey key &&& st.mask) := List.mem_of_mem_head? hfront
  rw [hscanned] at hsorted ⊢
  refine scan_cons_of_max hfront (by omega) ((hwf.subtable mask st hst).bounded _ r hin)
    (List.pairwise_cons.mp hsorted).2
    (fun st' hst' => isBest_head? ((hrest st' hst').2.sorted (packKey key &&& st'.mask)))
    (fun st' hst' r' hr' => (hrest st' hst').2.bounded (packKey key &&& st'.mask) r' hr')
    fun st' hst' r' hr' => ?_
  have hle' := (hrest st' hst').2.bounded (packKey key &&& st'.mask) r' hr'
  have hcap' := (hrest st' hst').1
  omega

/-- **The first subtable met decides**: after a first poll whose rules all have one priority, an
order that meets a matching rule's mask first answers with a rule of its mask and value. -/
theorem lookup_first {sw : SwitchClassifier} {rules : List Rule} {p : ℤ} (hp : 0 ≤ p)
    (hprio : ∀ r ∈ rules, r.priority = p) (epoch : BitVec 64) (i : ℕ) {r : Rule} {t : BitVec 8}
    {key : FlowKey}
    (hsw : sw = rebuildTables ((Sorter.first r.mask).sort i)
      (sweep (rules.foldl upsertRule { epoch })))
    (hheld : sw.ruleOf r.id = some r) (hmatches : Matches r t key) :
    ∃ r', sw.ruleOf r'.id = some r' ∧ r'.mask = r.mask ∧ r'.maskedValue = r.maskedValue ∧
      lookupInTableNoLock sw t key = some r' := by
  rw [sweep_first] at hsw
  have hcap := (SwitchClassifier.Capped.new epoch p).foldl (by omega) fun r hr => (hprio r hr).le
  have hempty := SwitchClassifier.WF.new
  have hwf₁ := (foldl_upsertRule { epoch } rules).1
    ⟨hempty.tables, hempty.home, hempty.nodup, hempty.stored, hempty.ids⟩
  obtain ⟨hwf, hsettled⟩ := hwf₁.rebuildTables (Sorter.first r.mask) i
  have hbucket := bucket_rebuildTables ((Sorter.first r.mask).sort i) (rules.foldl upsertRule { epoch })
  have htables := getTable_rebuildTables ((Sorter.first r.mask).sort i)
    (rules.foldl upsertRule { epoch })
  have hruleOf : sw.ruleOf = (rules.foldl upsertRule { epoch }).ruleOf := by rw [hsw]; rfl
  rw [← hsw] at hwf hsettled hbucket htables
  obtain ⟨rfl, -, hvalue⟩ := hmatches
  -- the rule is one of those polled, so it has the one priority
  have hr : r.priority = p := by
    rw [hruleOf, SwitchClassifier.ruleOf, rulesById_first, Option.map_map] at hheld
    obtain ⟨r', hfind, hr'⟩ := Option.map_eq_some_iff.mp hheld
    cases hr'
    exact hprio _ (List.mem_of_find?_eq_some hfind)
  have hplace : r ∈ sw.bucket r.tableId r.mask (packKey key &&& r.mask) := by
    rw [← hvalue]
    exact (hwf.stored r).mpr hheld
  have hplace₁ := hplace
  rw [hbucket, SwitchClassifier.bucket] at hplace₁
  cases htc : (rules.foldl upsertRule { epoch }).tables.lookup r.tableId with
  | none =>
    rw [SwitchClassifier.getTable, htc] at hplace₁
    cases hplace₁
  | some tc =>
    have hget : (rules.foldl upsertRule { epoch }).getTable r.tableId = tc := by
      rw [SwitchClassifier.getTable, htc]
      rfl
    have htcwf : tc.WF := hget ▸ hwf₁.tables r.tableId
    rw [hget] at hplace₁
    cases hst : tc.byMask.lookup r.mask with
    | none =>
      rw [TableClassifier.bucket, hst] at hplace₁
      cases hplace₁
    | some st =>
      have hmask : st.mask = r.mask := htcwf.mask_eq r.mask st hst
      have hstwf : st.WF := htcwf.subtable r.mask st hst
      have hin : r ∈ st.bucket (packKey key &&& st.mask) := by
        rw [TableClassifier.bucket, hst] at hplace₁
        rw [hmask]
        exact hplace₁
      have hcapped : ∀ m st', tc.byMask.lookup m = some st' → st'.maxPriority ≤ p := by
        intro m st' hst'
        exact hcap.subtable r.tableId m st' (by rw [hget]; exact hst')
      have hmax : st.maxPriority = p := by
        refine le_antisymm (hcapped r.mask st hst) ?_
        rw [← hr]
        exact hstwf.bounded _ r hin
      have htc' : sw.tables.lookup r.tableId =
          some (tc.rebuildPriorityOrderIfNeeded ((Sorter.first r.mask).sort i r.tableId)) := by
        rw [htables, htc]
        rfl
      -- the front of its bucket is the answer
      cases hfront : (st.bucket (packKey key &&& st.mask)).head? with
      | none =>
        rw [List.head?_eq_none_iff.mp hfront] at hin
        cases hin
      | some r' =>
        have hbest := isBest_head? (hstwf.sorted (packKey key &&& st.mask))
        rw [hfront] at hbest
        obtain ⟨hr', hle⟩ := hbest
        have hge : p ≤ r'.priority := hr ▸ hle r hin
        have hhome : r' ∈ sw.bucket r.tableId r.mask (packKey key &&& r.mask) := by
          rw [hbucket, SwitchClassifier.bucket, hget, TableClassifier.bucket, hst, ← hmask]
          exact hr'
        obtain ⟨ht', hm', hv'⟩ := hwf.home _ _ _ r' hhome
        refine ⟨r', ?_, hm', hv'.trans hvalue.symm, ?_⟩
        · rw [← hwf.stored r', ht', hm', hv']
          exact hhome
        · rw [lookupInTableNoLock, htc']
          exact scan_rebuilt_first htcwf (hcap.dirty r.tableId tc htc) hp hst hmax hcapped hfront hge
            i r.tableId

end NDTwin.Classifier
