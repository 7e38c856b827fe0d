import Mathlib.Data.List.AList
import Mathlib.Data.List.Sort
import NDTwin.Classifier.Key
import NDTwin.Lib.BestFirst

/-!
# The tuple-space table

The rules of a table are grouped by mask into subtables, and within a subtable by masked value
into buckets, each in falling order of priority.  A subtable keeps the highest priority in it, and
the table a list of its subtables in falling order of that, which is rebuilt only where something
has changed.

The source's maps have no order of their own: the subtables are listed in the order a `Sorter`
gives them, which is any order by falling priority.  A rule's pointers to its subtable and bucket
are the mask and the masked value it has.

## Main definitions

* `Subtable`, `TableClassifier`, `SwitchClassifier` — the state.
* `insertRuleIntoTables`, `removeRuleFromTables`, `upsertRule`, `sweep` — a poll's changes to it.
* `rebuildPriorityOrderIfNeeded` — the order of the subtables.
* `lookupInTableNoLock` — the best matching rule.
-/

namespace NDTwin.Classifier

/-- Falling order of priority. -/
def ByPriority (a b : Rule) : Prop := b.priority ≤ a.priority

instance : DecidableRel ByPriority := fun a b => inferInstanceAs (Decidable (b.priority ≤ a.priority))

/-! ### Subtables -/

/-- The rules with one mask, by masked value. -/
structure Subtable where
  mask : KeyBytes
  maxPriority : ℤ := -1
  buckets : AList fun _ : KeyBytes => List Rule := ∅

/-- The bucket of a masked value, empty where there is none. -/
def Subtable.bucket (st : Subtable) (value : KeyBytes) : List Rule :=
  (st.buckets.lookup value).getD []

/-- The priority of the first rule of a bucket, unless `low` is higher. -/
def frontPriority (low : ℤ) : List Rule → ℤ
  | [] => low
  | r :: _ => max r.priority low

/-- `recomputeMaxPriority()`. -/
def Subtable.recomputeMaxPriority (st : Subtable) : Subtable :=
  { st with maxPriority := st.buckets.entries.foldl (fun mp b => frontPriority mp b.2) (-1) }

/-- A rule into its bucket, before those of no higher priority. -/
def Subtable.insert (st : Subtable) (r : Rule) : Subtable :=
  let rules := (st.bucket r.maskedValue).orderedInsert ByPriority r
  { st with
    buckets := st.buckets.insert r.maskedValue rules
    maxPriority := frontPriority st.maxPriority rules }

/-- The buckets less a rule, and less its bucket if that is empty then. -/
def eraseFromBuckets (buckets : AList fun _ : KeyBytes => List Rule) (r : Rule) :
    AList fun _ : KeyBytes => List Rule :=
  match buckets.lookup r.maskedValue with
  | none => buckets
  | some rules =>
    if r ∈ rules then
      if rules.erase r = [] then buckets.erase r.maskedValue
      else buckets.insert r.maskedValue (rules.erase r)
    else buckets

/-- A rule out of its bucket. -/
def Subtable.remove (st : Subtable) (r : Rule) : Subtable :=
  { st with buckets := eraseFromBuckets st.buckets r }.recomputeMaxPriority

/-! ### Tables -/

/-- The rules of an OpenFlow table.  `subtablesByPriority` points to subtables, each of which is
the one of its mask. -/
structure TableClassifier where
  byMask : AList fun _ : KeyBytes => Subtable := ∅
  subtablesByPriority : List KeyBytes := []
  priorityOrderDirty : Bool := true

/-- `getOrCreateSubtable(mask)`; a new subtable enters the map with its first rule. -/
def TableClassifier.getOrCreateSubtable (tc : TableClassifier) (mask : KeyBytes) : Subtable :=
  (tc.byMask.lookup mask).getD { mask }

/-- The order of the subtables, by mask and highest priority. -/
def TableClassifier.priorities (tc : TableClassifier) : List (KeyBytes × ℤ) :=
  tc.byMask.entries.map fun st => (st.1, st.2.maxPriority)

/-- What a sort of subtables by falling priority may do, in whatever order it finds them. -/
structure Sorter where
  /-- The order, which may differ from one switch of a poll to the next and between its tables. -/
  sort : ℕ → BitVec 8 → List (KeyBytes × ℤ) → List (KeyBytes × ℤ)
  perm : ∀ i t l, (sort i t l).Perm l
  sorted : ∀ i t l, (sort i t l).Pairwise fun a b => b.2 ≤ a.2

/-- The sort that keeps what it finds in the order it finds it. -/
def Sorter.stable : Sorter where
  sort _ _ l := l.insertionSort fun a b => b.2 ≤ a.2
  perm _ _ l := List.perm_insertionSort _ l
  sorted _ _ l := by
    have : Std.Total fun a b : KeyBytes × ℤ => b.2 ≤ a.2 := ⟨fun a b => le_total b.2 a.2⟩
    have : IsTrans (KeyBytes × ℤ) fun a b => b.2 ≤ a.2 := ⟨fun _ _ _ hab hbc => le_trans hbc hab⟩
    exact List.pairwise_insertionSort _ l

/-- `rebuildPriorityOrderIfNeeded()`. -/
def TableClassifier.rebuildPriorityOrderIfNeeded (tc : TableClassifier)
    (sort : List (KeyBytes × ℤ) → List (KeyBytes × ℤ)) : TableClassifier :=
  if tc.priorityOrderDirty then
    { tc with
      subtablesByPriority := (sort tc.priorities).map Prod.fst
      priorityOrderDirty := false }
  else tc

/-- The subtables in the order they are scanned. -/
def TableClassifier.scanned (tc : TableClassifier) : List Subtable :=
  tc.subtablesByPriority.filterMap fun mask => tc.byMask.lookup mask

/-! ### Switches -/

/-- A rule the classifier holds and the poll that saw it last. -/
structure Stored where
  rule : Rule
  lastSeenEpoch : BitVec 64
  deriving DecidableEq, Repr

/-- The tables of a switch. -/
structure SwitchClassifier where
  tables : AList fun _ : BitVec 8 => TableClassifier := ∅
  rulesById : AList fun _ : RuleId => Stored := ∅
  epoch : BitVec 64 := 0

/-- `getTable(tableId)`, which makes an empty table where there is none. -/
def SwitchClassifier.getTable (sw : SwitchClassifier) (tableId : BitVec 8) : TableClassifier :=
  (sw.tables.lookup tableId).getD {}

/-- `insertRuleIntoTables(sw, r)`. -/
def insertRuleIntoTables (sw : SwitchClassifier) (r : Rule) : SwitchClassifier :=
  let tc := sw.getTable r.tableId
  let st := (tc.getOrCreateSubtable r.mask).insert r
  let tc := { tc with byMask := tc.byMask.insert r.mask st, priorityOrderDirty := true }
  { sw with tables := sw.tables.insert r.tableId tc }

/-- `removeRuleFromTables(sw, r)`. -/
def removeRuleFromTables (sw : SwitchClassifier) (r : Rule) : SwitchClassifier :=
  let tc := sw.getTable r.tableId
  match tc.byMask.lookup r.mask with
  | none => sw
  | some st =>
    let tc := { tc with byMask := tc.byMask.insert r.mask (st.remove r), priorityOrderDirty := true }
    { sw with tables := sw.tables.insert r.tableId tc }

/-- `upsertRule(sw, pr)`: a rule with a known identity is only marked as seen. -/
def upsertRule (sw : SwitchClassifier) (r : Rule) : SwitchClassifier :=
  match sw.rulesById.lookup r.id with
  | none =>
    let sw' := insertRuleIntoTables sw r
    { sw' with rulesById := sw'.rulesById.insert r.id ⟨r, sw.epoch⟩ }
  | some s =>
    { sw with rulesById := sw.rulesById.insert r.id { s with lastSeenEpoch := sw.epoch } }

/-- A rule out of the switch, if it is still there. -/
def deleteRule (sw : SwitchClassifier) (id : RuleId) : SwitchClassifier :=
  match sw.rulesById.lookup id with
  | none => sw
  | some s =>
    let sw' := removeRuleFromTables sw s.rule
    { sw' with rulesById := sw'.rulesById.erase id }

/-- The rules the poll has not seen. -/
def toDelete (sw : SwitchClassifier) : List RuleId :=
  (sw.rulesById.entries.filter fun s => s.2.lastSeenEpoch ≠ sw.epoch).map Sigma.fst

/-- The end of a poll: what it has not seen goes. -/
def sweep (sw : SwitchClassifier) : SwitchClassifier := (toDelete sw).foldl deleteRule sw

/-- The last loop of a poll: every table whose order is out of date has it rebuilt. -/
def rebuildTables (sort : BitVec 8 → List (KeyBytes × ℤ) → List (KeyBytes × ℤ))
    (sw : SwitchClassifier) : SwitchClassifier :=
  { sw with
    tables := ⟨sw.tables.entries.map fun t => ⟨t.1, t.2.rebuildPriorityOrderIfNeeded (sort t.1)⟩,
      List.NodupKeys.map₂ (fun t tc => tc.rebuildPriorityOrderIfNeeded (sort t)) _
        sw.tables.nodupKeys⟩ }

/-- `lookupInTableNoLock(sw, tableId, key)`. -/
def lookupInTableNoLock (sw : SwitchClassifier) (tableId : BitVec 8) (key : FlowKey) :
    Option Rule :=
  match sw.tables.lookup tableId with
  | none => none
  | some tc =>
    BestFirst.scan Subtable.maxPriority (fun st => (st.bucket (packKey key &&& st.mask)).head?)
      Rule.priority tc.scanned none (-1)

end NDTwin.Classifier
