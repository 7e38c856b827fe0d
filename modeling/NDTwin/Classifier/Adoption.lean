import NDTwin.Classifier.Refine

/-!
# A rule whose effect changes

A poll knows a rule by its table and the hash of its mask, masked value, priority and effect, and
only marks a rule it knows.  So when a switch first reports one entry and then another that differs
in its actions alone, the second is adopted where the two hashes differ, and where they do not the
lookup goes on answering with the first.

## Main definitions

* `reported` — the flow arrays a poll has for a switch.
* `ReportsOnly` — a poll that has one flow array for a switch, of one entry.

## Main results

* `heldOf_two`, `lookup_of_held_singleton` — what is held for a switch after two such polls, and the
  answer of a switch that holds one rule.
* `lookup_adopts_iff` — **the changed effect is adopted exactly where the hashes differ.**
-/

namespace NDTwin.Classifier

variable {F : Type}

/-! ### What a poll reports for a switch -/

/-- The flow arrays a poll has for a switch. -/
def reported (newTables : Json F) (dpid : BitVec 64) : List (List (Json F)) :=
  match newTables with
  | .arr entries => entries.filterMap fun sw =>
    match readSwitch sw with
    | .ok (some (d, flows)) => if d = dpid then some flows else none
    | _ => none
  | _ => []

/-- A poll that has one flow array for a switch, of one entry. -/
def ReportsOnly (newTables : Json F) (dpid : BitVec 64) (flow : Json F) : Prop :=
  reported newTables dpid = [[flow]]

/-- The flow arrays applied to a switch are those reported for it. -/
theorem filter_applications (newTables : Json F) (dpid : BitVec 64) :
    (applications newTables).filter (fun a => a.1 = dpid) =
      (reported newTables dpid).map fun flows => (dpid, parsed flows) := by
  cases newTables with
  | arr entries =>
    rw [applications, reported, applicationsOf, List.filter_filterMap, List.map_filterMap]
    refine List.filterMap_congr ?_
    intro sw _
    cases readSwitch sw with
    | error e => rfl
    | ok listed =>
      cases listed with
      | none => rfl
      | some listed =>
        obtain ⟨d, flows⟩ := listed
        by_cases hd : d = dpid
        · subst hd
          simp [Option.filter]
        · simp [Option.filter, hd]
  | _ => rfl

/-- What is held for a switch changes by the flow arrays applied to it alone. -/
theorem foldl_applyTo_at (apps : List (BitVec 64 × List Rule))
    (held : BitVec 64 → RuleId → Option Rule) (dpid : BitVec 64) :
    apps.foldl applyTo held dpid =
      (apps.filter fun a => a.1 = dpid).foldl (fun h a => refresh h a.2) (held dpid) := by
  induction apps generalizing held with
  | nil => rfl
  | cons a apps ih =>
    rw [List.foldl_cons, ih, applyTo]
    by_cases hd : a.1 = dpid
    · subst hd
      rw [Function.update_self, List.filter_cons_of_pos (by simp), List.foldl_cons]
    · rw [Function.update_of_ne (Ne.symm hd), List.filter_cons_of_neg (by simp [hd])]

/-- A poll that reports one entry of a switch leaves the rule of that entry alone. -/
theorem foldl_applyTo_reportsOnly {newTables flow : Json F} {dpid : BitVec 64} {r : Rule}
    (hreports : ReportsOnly newTables dpid flow) (hr : parseRuleFromJson flow = .ok r)
    (held : BitVec 64 → RuleId → Option Rule) :
    (applications newTables).foldl applyTo held dpid = refresh (held dpid) [r] := by
  have hparsed : parsed [flow] = [r] := by
    rw [parsed, List.filterMap_cons_some (by rw [hr]; rfl), List.filterMap_nil]
  rw [foldl_applyTo_at, filter_applications, hreports, List.map_singleton, hparsed]
  rfl

theorem refresh_singleton (held : RuleId → Option Rule) (r : Rule) (id : RuleId) :
    refresh held [r] id = if r.id = id then some ((held id).getD r) else none := by
  unfold refresh
  by_cases hid : r.id = id
  · simp [hid]
  · simp [hid]

/-! ### Two polls -/

/-- What is held for a switch after two polls of one entry each. -/
theorem heldOf_two {flow₁ flow₂ : Json F} {r₁ r₂ : Rule} (h₁ : parseRuleFromJson flow₁ = .ok r₁)
    (h₂ : parseRuleFromJson flow₂ = .ok r₂) {dpid : BitVec 64}
    {before : List (Sorter × Json F)} {p₁ p₂ : Sorter × Json F}
    (hp₁ : ReportsOnly p₁.2 dpid flow₁) (hp₂ : ReportsOnly p₂.2 dpid flow₂) {switches : Switches}
    (hrun : Machine.run poll ∅ (before ++ [p₁, p₂]) = some switches) :
    heldOf switches dpid =
      refresh (refresh ((history before).foldl applyTo (fun _ _ => none) dpid) [r₁]) [r₂] := by
  obtain ⟨-, hheld⟩ := run_held hrun
  have hhistory : history (before ++ [p₁, p₂]) =
      history before ++ applications p₁.2 ++ applications p₂.2 := by
    rw [show before ++ [p₁, p₂] = before ++ [p₁] ++ [p₂] by simp, history_append_singleton,
      history_append_singleton]
  rw [hheld, hhistory, List.foldl_append, List.foldl_append,
    foldl_applyTo_reportsOnly hp₂ h₂, foldl_applyTo_reportsOnly hp₁ h₁]

/-- A switch that holds one rule answers with it where it matches. -/
theorem lookup_of_held_singleton {switches : Switches} (hgood : switches.Good) {dpid : BitVec 64}
    {r : Rule} {id : RuleId}
    (hheld : ∀ id', heldOf switches dpid id' = if id = id' then some r else none) (hid : r.id = id)
    {t : BitVec 8} {key : FlowKey} (hkey : Matches r t key) :
    lookup switches dpid key t = some r.effect := by
  have hiff : ∀ r', heldOf switches dpid r'.id = some r' ↔ r' ∈ [r] := by
    intro r'
    rw [hheld, List.mem_singleton]
    constructor
    · intro h
      split at h
      · exact (Option.some_inj.mp h).symm
      · cases h
    · rintro rfl
      rw [if_pos hid.symm]
  have hrefines := refines_of_held_iff hgood hiff key t
  cases hanswer : lookup switches dpid key t with
  | none => exact absurd ⟨r, List.mem_singleton_self r, hkey⟩ (hrefines.1.mp hanswer)
  | some effect =>
    obtain ⟨r', hr', -, heffect, -⟩ := hrefines.2 effect hanswer
    rw [← heffect, List.mem_singleton.mp hr']

/-! ### A poll of one switch with one entry -/

/-- The poll that reports one entry for one switch and nothing else. -/
def onePoll (dpid : BitVec 64) (flow : Json F) : Sorter × Json F :=
  (Sorter.stable, .arr [.obj [("dpid", .int dpid.toNat), ("flows", .arr [flow])]])

theorem readSwitch_onePoll (dpid : BitVec 64) (flow : Json F) :
    readSwitch (.obj [("dpid", .int dpid.toNat), ("flows", .arr [flow])]) =
      .ok (some (dpid, [flow])) := by
  obtain ⟨hatDpid, hatFlows⟩ := at?_kernelTables (.int dpid.toNat) (.arr [flow])
  exact readSwitch_of_ok hatDpid (parseU64_toNat dpid) hatFlows rfl

theorem reportsOnly_onePoll (dpid : BitVec 64) (flow : Json F) :
    ReportsOnly (onePoll dpid flow).2 dpid flow := by
  simp [ReportsOnly, onePoll, reported, readSwitch_onePoll]

/-- A poll whose loop over the switches ends without an exception returns what it leaves. -/
theorem poll_of_updateSwitches {sorter : Sorter} {switches switches' : Switches}
    {entries : List (Json F)} (h : updateSwitches sorter 0 switches entries = (switches', none)) :
    poll switches (sorter, .arr entries) = some switches' := by
  have hupdate : updateFromQueriedTables sorter switches (.arr entries) = (switches', none) := h
  simp only [poll, hupdate]

/-- An entry that can be read is polled to its end. -/
theorem poll_onePoll (switches : Switches) (dpid : BitVec 64) {flow : Json F} {r : Rule}
    (hr : parseRuleFromJson flow = .ok r) :
    ∃ switches', poll switches (onePoll dpid flow) = some switches' := by
  have hone : ∀ sw : SwitchClassifier,
      ∃ sw', updateOneSwitch (Sorter.stable.sort 0) sw [flow] = (sw', none) := by
    intro sw
    rw [updateOneSwitch, upsertFlows_of_ok _ (List.Forall₂.cons hr List.Forall₂.nil)]
    exact ⟨_, rfl⟩
  obtain ⟨sw', hsw'⟩ := hone ((switches.lookup dpid).getD {})
  refine ⟨switches.insert dpid sw', poll_of_updateSwitches ?_⟩
  rw [updateSwitches, readSwitch_onePoll]
  simp only [hsw']
  rw [updateSwitches]

/-- **A changed effect is adopted exactly where the hashes differ**: two entries that are read with
the same table, mask, masked value and non-negative priority, polled one after the other as the only
entry of a switch, after any polls. -/
theorem lookup_adopts_iff (flow₁ flow₂ : Json F) (r₁ r₂ : Rule)
    (h₁ : parseRuleFromJson flow₁ = .ok r₁) (h₂ : parseRuleFromJson flow₂ = .ok r₂)
    (htable : r₁.tableId = r₂.tableId) (hmask : r₁.mask = r₂.mask)
    (hvalue : r₁.maskedValue = r₂.maskedValue) (hpriority : r₁.priority = r₂.priority)
    (hpos : 0 ≤ r₂.priority) (heffect : r₁.effect ≠ r₂.effect) (dpid : BitVec 64) (key : FlowKey)
    (hkey : r₂.maskedValue = packKey key &&& r₂.mask) :
    (∀ (before : List (Sorter × Json F)) (p₁ p₂ : Sorter × Json F) (switches : Switches),
      ReportsOnly p₁.2 dpid flow₁ → ReportsOnly p₂.2 dpid flow₂ →
      Machine.run poll ∅ (before ++ [p₁, p₂]) = some switches →
      lookup switches dpid key r₂.tableId = some r₂.effect) ↔
    fingerprintRuleCore r₂.mask r₂.maskedValue r₂.priority r₁.effect ≠
      fingerprintRuleCore r₂.mask r₂.maskedValue r₂.priority r₂.effect := by
  have hid : r₁.id = r₂.id ↔ fingerprintRuleCore r₂.mask r₂.maskedValue r₂.priority r₁.effect =
      fingerprintRuleCore r₂.mask r₂.maskedValue r₂.priority r₂.effect := by
    rw [Rule.id, Rule.id, htable, hmask, hvalue, hpriority, RuleId.mk.injEq]
    exact and_iff_right rfl
  constructor
  · intro h hhash
    -- polled with nothing before, the first rule stays under the identity both have
    obtain ⟨s₁, hs₁⟩ := poll_onePoll ∅ dpid h₁
    obtain ⟨s₂, hs₂⟩ := poll_onePoll s₁ dpid h₂
    have hrun : Machine.run poll ∅ ([] ++ [onePoll dpid flow₁, onePoll dpid flow₂]) = some s₂ :=
      Machine.run_pair hs₁ hs₂
    have hheld : ∀ id, heldOf s₂ dpid id = if r₂.id = id then some r₁ else none := by
      intro id
      rw [heldOf_two h₁ h₂ (reportsOnly_onePoll dpid flow₁) (reportsOnly_onePoll dpid flow₂) hrun,
        refresh_singleton, refresh_singleton, hid.mpr hhash]
      by_cases h : r₂.id = id
      · simp [h, history]
      · simp [h]
    have hfirst : lookup s₂ dpid key r₂.tableId = some r₁.effect :=
      lookup_of_held_singleton (run_held hrun).1 hheld (hid.mpr hhash)
        ⟨htable, by omega, by rw [hvalue, hmask, hkey]⟩
    have hsecond := h [] _ _ s₂ (reportsOnly_onePoll dpid flow₁) (reportsOnly_onePoll dpid flow₂) hrun
    rw [hfirst, Option.some_inj] at hsecond
    exact heffect hsecond
  · intro hhash before p₁ p₂ switches hp₁ hp₂ hrun
    have hne : r₁.id ≠ r₂.id := fun h => hhash (hid.mp h)
    have hheld : ∀ id, heldOf switches dpid id = if r₂.id = id then some r₂ else none := by
      intro id
      rw [heldOf_two h₁ h₂ hp₁ hp₂ hrun, refresh_singleton]
      by_cases h : r₂.id = id
      · subst h
        rw [if_pos rfl, if_pos rfl, refresh_singleton, if_neg hne]
        rfl
      · rw [if_neg h, if_neg h]
    exact lookup_of_held_singleton (run_held hrun).1 hheld rfl ⟨rfl, hpos, hkey⟩

/-! ### An entry that changes -/

/-- A flow entry on packets to `10.0.0.0/24`, with one action. -/
def rowWith (action : String) : Json Empty :=
  .obj [("table_id", .int 0), ("priority", .int 10),
    ("match", .obj [("dl_type", .int 2048), ("nw_dst", .str "10.0.0.0/24")]),
    ("actions", .arr [.str action])]

theorem parseRuleFromJson_rowWith_five :
    parseRuleFromJson (rowWith "OUTPUT:5") = .ok (ruleWith { outputPorts := [5] }) := by
  decide +kernel

theorem packet_ruleWith (effect : RuleEffect) :
    (ruleWith effect).maskedValue = packKey packet &&& (ruleWith effect).mask := by
  show packKey _ = packKey _ &&& packKey _
  rw [packKey_and]
  rfl

/-- An output port that changes is adopted, whatever was polled before. -/
theorem lookup_adopts_iff_six :
    parseRuleFromJson (rowWith "OUTPUT:6") = .ok (ruleWith { outputPorts := [6] }) ∧
      ∀ (before : List (Sorter × Json Empty)) (p₁ p₂ : Sorter × Json Empty) (switches : Switches),
        ReportsOnly p₁.2 1 (rowWith "OUTPUT:5") → ReportsOnly p₂.2 1 (rowWith "OUTPUT:6") →
        Machine.run poll ∅ (before ++ [p₁, p₂]) = some switches →
        lookup switches 1 packet 0 = some { outputPorts := [6] } := by
  have hsix : parseRuleFromJson (rowWith "OUTPUT:6") = .ok (ruleWith { outputPorts := [6] }) := by
    decide +kernel
  refine ⟨hsix, ?_⟩
  exact (lookup_adopts_iff (rowWith "OUTPUT:5") (rowWith "OUTPUT:6") (ruleWith { outputPorts := [5] })
    (ruleWith { outputPorts := [6] }) parseRuleFromJson_rowWith_five hsix rfl rfl rfl
    rfl (by decide) (by decide) 1 packet (packet_ruleWith _)).mpr (by decide +kernel)

/-- An output port that becomes a group of the same number is not. -/
theorem lookup_keeps_port :
    parseRuleFromJson (rowWith "OUTPUT:5") = .ok (ruleWith { outputPorts := [5] }) ∧
      parseRuleFromJson (rowWith "GROUP:5") = .ok (ruleWith { groupId := some 5 }) ∧
      ReportsOnly (onePoll 1 (rowWith "OUTPUT:5")).2 1 (rowWith "OUTPUT:5") ∧
      ReportsOnly (onePoll 1 (rowWith "GROUP:5")).2 1 (rowWith "GROUP:5") ∧
      Matches (ruleWith { groupId := some 5 }) 0 packet ∧
      ∃ switches, Machine.run poll ∅
          [onePoll 1 (rowWith "OUTPUT:5"), onePoll 1 (rowWith "GROUP:5")] = some switches ∧
        lookup switches 1 packet 0 = some { outputPorts := [5] } ∧
        lookup switches 1 packet 0 ≠ some { groupId := some 5 } := by
  have hanswer : (Machine.run poll ∅
      [onePoll 1 (rowWith "OUTPUT:5"), onePoll 1 (rowWith "GROUP:5")]).map
        (fun s => lookup s 1 packet 0) = some (some { outputPorts := [5] }) := by
    decide +kernel
  obtain ⟨switches, hrun, hlookup⟩ := Option.map_eq_some_iff.mp hanswer
  refine ⟨parseRuleFromJson_rowWith_five, by decide +kernel, reportsOnly_onePoll 1 _,
    reportsOnly_onePoll 1 _, ⟨rfl, by decide, packet_ruleWith _⟩, switches, hrun, hlookup, ?_⟩
  rw [hlookup]
  decide

end NDTwin.Classifier
