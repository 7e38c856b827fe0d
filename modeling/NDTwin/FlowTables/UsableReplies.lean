import NDTwin.Classifier.Widened
import NDTwin.FlowTables.Cache

/-!
# Replies that are counted as read

The poller counts a reply as read where it has an entry in any list, or came too fast for a timeout.
The classifier looks for the entries of the switch once more, by the switch's own id or the only
member there is, and leaves its rules alone where it finds no array.  A reply with a list for each
of several tables is counted and not loaded, and so is one that is fast and has no list at all.

## Main definitions

* `tableEntry` — the entry of the poll that is made from a reply.
* `Consumed` — the classifier finds the entries of the reply and holds their rules afterwards.
* `OneTable` — the reply is the list of entries, has one member, or has the switch's own list.

## Main results

* `updateFromQueriedTables_entry` — what the classifier does with the entry of a reply.
* `consumed_iff` — **a reply that is counted as read is loaded exactly where it has one table and
  its entries can be read.**
* `usable_not_consumed` — a reply with three tables.
-/

namespace NDTwin.FlowTables

open Classifier

variable {F : Type}

/-- The entry of a poll that is made from the reply of a switch. -/
def tableEntry (dpid : BitVec 64) (flows : Json F) : Json F :=
  .obj [("dpid", .int dpid.toNat), ("flows", flows)]

/-- What is held for a switch. -/
def switchOf (switches : Switches) (dpid : BitVec 64) : SwitchClassifier :=
  (switches.lookup dpid).getD {}

/-- No rule of a switch has the stamp of the next poll, which only comes round again after `2 ^ 64`
polls that were broken off. -/
def Unstamped (switches : Switches) (dpid : BitVec 64) : Prop :=
  ∀ id s, (switchOf switches dpid).rulesById.lookup id = some s →
    s.lastSeenEpoch ≠ (switchOf switches dpid).epoch + 1

/-- So it is after every run of polls that return normally. -/
theorem unstamped_of_run {polls : List (Sorter × Json F)} {switches : Switches}
    (hrun : Machine.run poll ∅ polls = some switches) (dpid : BitVec 64) :
    Unstamped switches dpid := by
  intro id s hs
  have hgood : (switchOf switches dpid).Good :=
    Switches.forall_getD (run_held hrun).1 SwitchClassifier.Good.new dpid
  rw [hgood.fresh id s hs]
  simp

/-- Polled after the switches before it, the entry of a reply leaves its switch with the rules of
the listed entries and no others. -/
def Replaces (dpid : BitVec 64) (flows : Json F) (entries : List (Json F)) : Prop :=
  ∀ (sorter : Sorter) (switches mid : Switches) (earlier : List (Json F)),
    updateFromQueriedTables sorter switches (.arr earlier) = (mid, none) → Unstamped mid dpid →
    ∃ switches', updateFromQueriedTables sorter switches (.arr (earlier ++ [tableEntry dpid flows])) =
        (switches', none) ∧
      ∀ id, (heldOf switches' dpid id).isSome = true ↔
        ∃ flow ∈ entries, ∃ r, parseRuleFromJson flow = .ok r ∧ r.id = id

/-- The classifier finds an array of entries in the reply, and replaces the rules of the switch. -/
def Consumed (dpid : BitVec 64) (flows : Json F) : Prop :=
  ∃ entries, extractFlowArray flows dpid = some (.arr entries) ∧ Replaces dpid flows entries

/-- A reply whose entries are in one place: it is the list of them, has no other member, or has them
under the switch's own id. -/
inductive OneTable (dpid : BitVec 64) : Json F → List (Json F) → Prop where
  | array (entries : List (Json F)) : OneTable dpid (.arr entries) entries
  | single (key : String) (j : Json F) : OneTable dpid (.obj [(key, j)]) (listed j)
  | own (fields : List (String × Json F)) (entries : List (Json F))
      (h : fields.lookup (toString dpid.toNat) = some (.arr entries)) :
      OneTable dpid (.obj fields) entries

/-! ### Where the entries are -/

/-- The only member of a reply that is counted as read is a list. -/
theorem isArray_of_usable {key : String} {j : Json F} {slow : Bool}
    (h : classifyFlowStatsReply (.obj [(key, j)]) slow = .usable) : ∃ entries, j = .arr entries := by
  unfold classifyFlowStatsReply at h
  cases j with
  | arr entries => exact ⟨entries, rfl⟩
  | _ =>
    split at h
    · cases h
    · simp [isFullArray, isArray] at h

/-- **The classifier finds the entries exactly where they are in one place**, in a reply that is
counted as read. -/
theorem extractFlowArray_iff {flows : Json F} {slow : Bool}
    (h : classifyFlowStatsReply flows slow = .usable) (dpid : BitVec 64) (entries : List (Json F)) :
    extractFlowArray flows dpid = some (.arr entries) ↔ OneTable dpid flows entries := by
  constructor
  · intro hextract
    unfold extractFlowArray at hextract
    cases flows with
    | arr xs =>
      cases hextract
      exact .array entries
    | obj fields =>
      simp only at hextract
      cases hown : fields.lookup (toString dpid.toNat) with
      | some j =>
        rw [hown] at hextract
        cases hextract
        exact .own fields entries hown
      | none =>
        rw [hown] at hextract
        match fields, hextract with
        | [(key, j)], hextract =>
          cases hextract
          exact .single key (.arr entries)
    | _ => cases hextract
  · intro hone
    cases hone with
    | array => rfl
    | single key j =>
      obtain ⟨entries, rfl⟩ := isArray_of_usable h
      unfold extractFlowArray
      simp only
      cases hown : List.lookup (toString dpid.toNat) [(key, Json.arr entries)] with
      | none => rfl
      | some j =>
        rw [List.lookup_cons] at hown
        split at hown
        · cases hown
          rfl
        · cases hown
    | own fields entries hown =>
      unfold extractFlowArray
      simp only [hown]

/-! ### What the classifier does with the entry -/

theorem updateSwitches_append {sorter : Sorter} {i : ℕ} {switches mid : Switches}
    {earlier : List (Json F)} (h : updateSwitches sorter i switches earlier = (mid, none))
    (rest : List (Json F)) :
    updateSwitches sorter i switches (earlier ++ rest) =
      updateSwitches sorter (i + earlier.length) mid rest := by
  induction earlier generalizing i switches with
  | nil =>
    cases h
    rfl
  | cons entry earlier ih =>
    rw [updateSwitches] at h
    rw [List.cons_append, updateSwitches, List.length_cons]
    have hindex : i + (earlier.length + 1) = i + 1 + earlier.length := by omega
    rw [hindex]
    cases hread : readSwitch entry with
    | error e =>
      rw [hread] at h
      cases h
    | ok listed =>
      rw [hread] at h
      cases listed with
      | none => exact ih h
      | some listed =>
        obtain ⟨d, flows⟩ := listed
        simp only at h ⊢
        cases hone : updateOneSwitch (sorter.sort i) ((switches.lookup d).getD {}) flows with
        | mk sw thrown =>
          rw [hone] at h
          cases thrown with
          | some e => cases h
          | none => exact ih h

/-- **What the classifier does with the entry of a reply** in which it finds the entries: it polls
the switch with them, after the switches before. -/
theorem updateFromQueriedTables_entry {sorter : Sorter} {switches mid : Switches}
    {earlier : List (Json F)}
    (h : updateFromQueriedTables sorter switches (.arr earlier) = (mid, none)) {dpid : BitVec 64}
    {flows : Json F} {entries : List (Json F)}
    (hextract : extractFlowArray flows dpid = some (.arr entries)) :
    updateFromQueriedTables sorter switches (.arr (earlier ++ [tableEntry dpid flows])) =
      let polled := updateOneSwitch (sorter.sort earlier.length) (switchOf mid dpid) entries
      (mid.insert dpid polled.1, polled.2) := by
  have hread : readSwitch (tableEntry dpid flows) = .ok (some (dpid, entries)) := by
    obtain ⟨hatDpid, hatFlows⟩ := at?_kernelTables (.int dpid.toNat) flows
    exact readSwitch_of_ok hatDpid (parseU64_toNat dpid) hatFlows hextract
  show updateSwitches sorter 0 switches _ = _
  rw [updateSwitches_append h, updateSwitches, hread, Nat.zero_add]
  dsimp only [switchOf]
  obtain ⟨st, thrown⟩ := updateOneSwitch (sorter.sort earlier.length) ((mid.lookup dpid).getD {})
    entries
  cases thrown <;> rfl

/-- A poll of a switch that ends without an exception has read every entry. -/
theorem readable_of_updateOneSwitch {sort : BitVec 8 → List (KeyBytes × ℤ) → List (KeyBytes × ℤ)}
    {sw : SwitchClassifier} {entries : List (Json F)}
    (h : (updateOneSwitch sort sw entries).2 = none) : ∀ flow ∈ entries, EntryReadable flow := by
  have hflows : (upsertFlows { sw with epoch := sw.epoch + 1 } entries).2 = none := by
    rw [updateOneSwitch] at h
    cases hupsert : upsertFlows { sw with epoch := sw.epoch + 1 } entries with
    | mk sw₁ thrown =>
      rw [hupsert] at h
      cases thrown with
      | none => rfl
      | some e => cases h
  generalize ({ sw with epoch := sw.epoch + 1 } : SwitchClassifier) = sw₀ at hflows
  clear h
  induction entries generalizing sw₀ with
  | nil => exact fun flow hflow => absurd hflow List.not_mem_nil
  | cons flow entries ih =>
    rw [upsertFlows] at hflows
    cases hr : parseRuleFromJson flow with
    | error e =>
      rw [hr] at hflows
      cases hflows
    | ok r =>
      rw [hr] at hflows
      exact List.forall_mem_cons.mpr ⟨(parseRuleFromJson_spec hr).2.2, ih _ hflows⟩

/-- A poll of a switch whose entries can be read ends without an exception. -/
theorem updateOneSwitch_of_readable (sort : BitVec 8 → List (KeyBytes × ℤ) → List (KeyBytes × ℤ))
    (sw : SwitchClassifier) {entries : List (Json F)} (h : ∀ flow ∈ entries, EntryReadable flow) :
    (updateOneSwitch sort sw entries).2 = none := by
  have hrules : ∀ flow ∈ entries, ∃ r, parseRuleFromJson flow = .ok r :=
    fun flow hflow => exists_parseRuleFromJson (h flow hflow)
  obtain ⟨rules, hrules⟩ := Fallible.mapM_of_forall hrules
  rw [updateOneSwitch, upsertFlows_of_ok _ (Fallible.forall₂_of_mapM hrules)]

/-- The identities held after a poll are those of the entries. -/
theorem isSome_ruleOf_iff {sort : BitVec 8 → List (KeyBytes × ℤ) → List (KeyBytes × ℤ)}
    {sw sw' : SwitchClassifier} {entries : List (Json F)}
    (hstale : ∀ id s, sw.rulesById.lookup id = some s → s.lastSeenEpoch ≠ sw.epoch + 1)
    (hupdate : updateOneSwitch sort sw entries = (sw', none)) (id : RuleId) :
    (sw'.ruleOf id).isSome = true ↔
      ∃ flow ∈ entries, ∃ r, parseRuleFromJson flow = .ok r ∧ r.id = id := by
  rw [SwitchClassifier.ruleOf, (rulesById_updateOneSwitch hstale hupdate).2, Option.isSome_map,
    Option.isSome_map, List.find?_isSome]
  constructor
  · rintro ⟨r, hr, hid⟩
    obtain ⟨flow, hflow, hparse⟩ := List.mem_filterMap.mp hr
    refine ⟨flow, hflow, r, ?_, by simpa using hid⟩
    cases h : parseRuleFromJson flow with
    | error e => simp [h, Except.toOption] at hparse
    | ok r' =>
      rw [h] at hparse
      exact congrArg Except.ok (Option.some_inj.mp hparse)
  · rintro ⟨flow, hflow, r, hr, hid⟩
    exact ⟨r, List.mem_filterMap.mpr ⟨flow, hflow, by rw [hr]; rfl⟩, by simpa using hid⟩

/-- **A reply that is counted as read is loaded exactly where it has one table and its entries can
be read.** -/
theorem consumed_iff (flows : Json F) (slow : Bool) (dpid : BitVec 64)
    (h : classifyFlowStatsReply flows slow = .usable) :
    Consumed dpid flows ↔
      ∃ entries, OneTable dpid flows entries ∧ ∀ flow ∈ entries, EntryReadable flow := by
  constructor
  · rintro ⟨entries, hextract, hreplaces⟩
    refine ⟨entries, (extractFlowArray_iff h dpid entries).mp hextract, ?_⟩
    -- a classifier that holds nothing yet has to get to the end of the entries, too
    have hempty : Unstamped (∅ : Switches) dpid := by
      intro id s hs
      cases hs
    have hnone : updateFromQueriedTables Sorter.stable (∅ : Switches) (.arr [] : Json F) =
        (∅, none) := rfl
    obtain ⟨switches', hupdate, -⟩ := hreplaces Sorter.stable ∅ ∅ [] hnone hempty
    rw [updateFromQueriedTables_entry hnone hextract] at hupdate
    exact readable_of_updateOneSwitch (congrArg Prod.snd hupdate)
  · rintro ⟨entries, hone, hreadable⟩
    have hextract := (extractFlowArray_iff h dpid entries).mpr hone
    refine ⟨entries, hextract, ?_⟩
    intro sorter switches mid earlier hearlier hunstamped
    have hended :=
      updateOneSwitch_of_readable (sorter.sort earlier.length) (switchOf mid dpid) hreadable
    rw [updateFromQueriedTables_entry hearlier hextract]
    cases hupdate : updateOneSwitch (sorter.sort earlier.length) (switchOf mid dpid) entries with
    | mk sw' thrown =>
      rw [hupdate] at hended
      cases hended
      refine ⟨mid.insert dpid sw', rfl, ?_⟩
      intro id
      rw [heldOf_insert, Function.update_self]
      exact isSome_ruleOf_iff hunstamped hupdate id

/-- A reply with the switch's own list is loaded. -/
theorem consumed_iff_ownList :
    Consumed 1 (.obj [("1", .arr [rowWith "OUTPUT:5"])] : Json Empty) :=
  (consumed_iff (.obj [("1", .arr [rowWith "OUTPUT:5"])]) true 1 (by decide)).mpr
    ⟨[rowWith "OUTPUT:5"], .single "1" _, fun flow hflow => by
      rw [List.mem_singleton.mp hflow]
      exact (parseRuleFromJson_spec parseRuleFromJson_rowWith_five).2.2⟩

/-- The reply of a switch that uses several tables, with a list for each of them. -/
def severalTables : Json Empty :=
  .obj [("0", .arr []), ("1", .arr []), ("2", .arr [rowWith "OUTPUT:5"])]

/-- It is counted as read, however long it took, and the classifier finds nothing in it: a rule held
from before stays. -/
theorem usable_not_consumed :
    classifyFlowStatsReply severalTables true = .usable ∧
      extractFlowArray severalTables 7 = none ∧ ¬Consumed 7 severalTables ∧
      heldOf (call (afterCalls [onePoll 7 (rowWith "OUTPUT:5")])
        (Sorter.stable, .arr [tableEntry 7 severalTables])) 7
          (ruleWith { outputPorts := [5] }).id = some (ruleWith { outputPorts := [5] }) := by
  have hextract : extractFlowArray severalTables 7 = none := rfl
  refine ⟨by decide, hextract, ?_, ?_⟩
  · rintro ⟨entries, hentries, -⟩
    rw [hextract] at hentries
    cases hentries
  · have hread : readSwitch (tableEntry 7 severalTables) = .ok none := by
      obtain ⟨hatDpid, hatFlows⟩ := at?_kernelTables (.int (7 : BitVec 64).toNat) severalTables
      simp only [readSwitch, tableEntry, hatDpid, hatFlows, bind, Except.bind, parseU64_toNat,
        hextract, pure, Except.pure]
    have hcall : ∀ switches : Switches,
        call switches (Sorter.stable, .arr [tableEntry 7 severalTables]) = switches := by
      intro switches
      rw [call, updateFromQueriedTables, updateSwitches, hread]
      rfl
    rw [hcall]
    exact heldOf_onePoll parseRuleFromJson_rowWith_five 7

end NDTwin.FlowTables
