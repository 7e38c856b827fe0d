import NDTwin.Classifier.Parse
import NDTwin.Classifier.Table

/-!
# Polls and lookups

A poll lists switches with their flow entries.  Each listed switch that has a readable array of
entries is updated by marking and sweeping; an exception leaves what the poll has done so far in
place and ends it.

## Main definitions

* `updateOneSwitch` — one switch's entries.
* `updateFromQueriedTables` — a whole poll, with the exception it left by, if any.
* `lookup`, `knowsSwitch`, `getRuleCount` — the questions.
-/

namespace NDTwin.Classifier

variable {F : Type}

/-- All the switches. -/
abbrev Switches := AList fun _ : BitVec 64 => SwitchClassifier

/-- The loop over a switch's entries: each is read and put in before the next is read. -/
def upsertFlows (sw : SwitchClassifier) : List (Json F) → SwitchClassifier × Option Thrown
  | [] => (sw, none)
  | flow :: rest =>
    match parseRuleFromJson flow with
    | .error e => (sw, some e)
    | .ok r => upsertFlows (upsertRule sw r) rest

/-- `updateOneSwitch(dpid, flowArray)`, on the switch of that id. -/
def updateOneSwitch (sort : BitVec 8 → List (KeyBytes × ℤ) → List (KeyBytes × ℤ))
    (sw : SwitchClassifier) (flowArray : List (Json F)) : SwitchClassifier × Option Thrown :=
  match upsertFlows { sw with epoch := sw.epoch + 1 } flowArray with
  | (sw, some e) => (sw, some e)
  | (sw, none) => (rebuildTables sort (sweep sw), none)

/-- One listed switch: its id and its entries, or `none` where it has no array of them. -/
def readSwitch (sw : Json F) : Except Thrown (Option (BitVec 64 × List (Json F))) := do
  let dpid ← parseU64 (← at? sw "dpid")
  let flowNode ← at? sw "flows"
  match extractFlowArray flowNode dpid with
  | some (.arr flows) => return some (dpid, flows)
  | _ => return none

theorem isInteger_toNat (dpid : BitVec 64) : isInteger dpid.toNat = true := by
  have := dpid.isLt
  simp only [isInteger, Bool.and_eq_true, decide_eq_true_eq]
  omega

theorem parseU64_toNat (dpid : BitVec 64) : parseU64 (.int dpid.toNat : Json F) = .ok dpid := by
  rw [parseU64, if_pos (isInteger_toNat dpid), BitVec.ofInt_natCast, BitVec.ofNat_toNat,
    BitVec.setWidth_eq]

theorem at?_kernelTables (dpid body : Json F) :
    at? (.obj [("dpid", dpid), ("flows", body)]) "dpid" = .ok dpid ∧
      at? (.obj [("dpid", dpid), ("flows", body)]) "flows" = .ok body := ⟨rfl, rfl⟩

/-- A switch's entries are found under its own id. -/
theorem extractFlowArray_own (dpid : BitVec 64) (j : Json F) :
    extractFlowArray (.obj [(toString dpid.toNat, j)]) dpid = some j := by
  unfold extractFlowArray
  simp only [List.lookup_cons_self]

theorem readSwitch_of_ok {sw d node : Json F} {dpid : BitVec 64} {flows : List (Json F)}
    (hatDpid : at? sw "dpid" = .ok d) (hdpid : parseU64 d = .ok dpid)
    (hatFlows : at? sw "flows" = .ok node) (hflows : extractFlowArray node dpid = some (.arr flows)) :
    readSwitch sw = .ok (some (dpid, flows)) := by
  simp only [readSwitch, hatDpid, hatFlows, bind, Except.bind, hdpid, hflows, pure, Except.pure]

/-- The loop over the listed switches, the `i`-th of them first. -/
def updateSwitches (sorter : Sorter) (i : ℕ) (switches : Switches) :
    List (Json F) → Switches × Option Thrown
  | [] => (switches, none)
  | sw :: rest =>
    match readSwitch sw with
    | .error e => (switches, some e)
    | .ok none => updateSwitches sorter (i + 1) switches rest
    | .ok (some (dpid, flows)) =>
      match updateOneSwitch (sorter.sort i) ((switches.lookup dpid).getD {}) flows with
      | (st, some e) => (switches.insert dpid st, some e)
      | (st, none) => updateSwitches sorter (i + 1) (switches.insert dpid st) rest

/-- `updateFromQueriedTables(newTables)`. -/
def updateFromQueriedTables (sorter : Sorter) (switches : Switches) (newTables : Json F) :
    Switches × Option Thrown :=
  match newTables with
  | .arr entries => updateSwitches sorter 0 switches entries
  | _ => (switches, none)

/-- `knowsSwitch(dpid)`. -/
def knowsSwitch (switches : Switches) (dpid : BitVec 64) : Bool := (switches.lookup dpid).isSome

/-- `lookup(dpid, key, tableId)`. -/
def lookup (switches : Switches) (dpid : BitVec 64) (key : FlowKey) (tableId : BitVec 8) :
    Option RuleEffect :=
  match switches.lookup dpid with
  | none => none
  | some sw => (lookupInTableNoLock sw tableId key).map Rule.effect

/-- `getRuleCount(dpid)`. -/
def getRuleCount (switches : Switches) (dpid : BitVec 64) : ℕ :=
  match switches.lookup dpid with
  | none => 0
  | some sw => sw.rulesById.entries.length

end NDTwin.Classifier
