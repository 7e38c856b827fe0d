import NDTwin.P4Table.Rebuilt

/-!
# An entry that was read is the entry that is written

The reader shows a table entry by name; the writer builds what it is shown into an entry again.  The
two are taken through their parts side by side: each match field, each parameter, the priority and
the timeout are built with the numbers that the switch sent, whichever of the renderings a width has.

## Main definitions

* `Built` — how an entry is built from the parts of its spec.
* `Reordered` — a spec with the members of its match and its parameters in another order.
* `TableEntry.Same` — the same entry, as far as a table can tell.
* `TableEntry.WellFormed` — an entry as a switch may send it.

## Main results

* `numbers_buildMatch` — **the match of an entry that was read is built as the match that was sent.**
* `buildTableEntry_eq_ok` — an entry is built if each of its parts is.
* `buildTableEntry_reordered` — **the order of members is of no account.**
* `same_of_built` — **what an entry is listed as is built as the entry that was sent.**
-/

namespace NDTwin.P4Table

variable {F : Type}

/-! ### What was sent and what is built -/

/-- The number of a field, and what it says. -/
def FieldMatch.number (m : FieldMatch) : ℕ × Option Numbers := (m.fieldId, m.wire.map Wire.numbers)

theorem matchFieldName_eq_some {info : P4Info} (hinfo : info.Unambiguous) {table : Table}
    (ht : table ∈ info.tables) {fieldId : ℕ} {name : String}
    (h : matchFieldName info table.preamble.id fieldId = some name) :
    ∃ f ∈ table.matchFields, f.id = fieldId ∧ f.name = name := by
  obtain ⟨f, hf, hname⟩ := Option.map_eq_some_iff.mp h
  obtain ⟨t, ht', hmem⟩ := List.mem_flatMap.mp (List.mem_of_find?_eq_some hf)
  obtain ⟨ht', hid⟩ := List.mem_filter.mp ht'
  obtain rfl : t = table := hinfo.table_id t ht' table ht (by simpa using hid)
  exact ⟨f, hmem, by simpa using List.find?_some hf, hname⟩

/-- A field that was read is shown and built as the one field of its name. -/
theorem shaped_of_buildsField {info : P4Info} (hinfo : info.Unambiguous) {table : Table}
    (ht : table ∈ info.tables) {e : Option String × Wire} {s : String × Json F} {fm : FieldMatch}
    (hs : fieldAsWritten table e = .ok s)
    (hfm : BuildsField table (s.1, PyData.ofJson s.2) fm) :
    ∃ f ∈ table.matchFields, ∃ place w, f.name = e.1.getD "" ∧ renderField f.bitwidth e.2 = .ok s.2 ∧
      shapeField place e.2.kind f.bitwidth (PyData.ofJson s.2) = .ok w ∧ fm = ⟨f.id, some w⟩ := by
  obtain ⟨f, hf, hs⟩ := Fallible.exists_of_bind_ok hs
  obtain ⟨hmem, hname⟩ := matchFieldByName_ok hf
  split at hs
  · cases hs
  next hkind =>
  obtain ⟨shown, hshown, hs⟩ := Fallible.exists_of_bind_ok hs
  cases hs
  obtain ⟨f', hmem', w, hname', hshape, rfl⟩ :=
    exists_of_buildsField (hinfo.field_name table ht) hfm
  obtain rfl := hinfo.field_name table ht f' hmem' f hmem (hname'.trans hname.symm)
  rw [← not_not.mp hkind] at hshape
  exact ⟨f', hmem', _, w, hname, hshown, hshape, rfl⟩

/-- A field that was read is built as the field that was sent. -/
theorem number_of_buildsField {info : P4Info} (hinfo : info.Unambiguous) {table : Table}
    (ht : table ∈ info.tables) {m fm : FieldMatch} {e : Option String × Wire} {s : String × Json F}
    (hm : (m.wire.map fun w => (matchFieldName info table.preamble.id m.fieldId, w)) = some e)
    (hname : e.1 ≠ none) (hs : fieldAsWritten table e = .ok s)
    (hfm : BuildsField table (s.1, PyData.ofJson s.2) fm) : m.number = fm.number := by
  obtain ⟨w, hw, rfl⟩ := Option.map_eq_some_iff.mp hm
  obtain ⟨name, hfield⟩ := Option.ne_none_iff_exists'.mp hname
  obtain ⟨f₀, hf₀, hid, hname₀⟩ := matchFieldName_eq_some hinfo ht hfield
  obtain ⟨f, hf, place, w', hfname, hshown, hshape, rfl⟩ := shaped_of_buildsField hinfo ht hs hfm
  simp only at hfield
  rw [hfield, Option.getD_some] at hfname
  obtain rfl : f = f₀ := hinfo.field_name table ht f hf f₀ hf₀ (hfname.trans hname₀.symm)
  rw [FieldMatch.number, FieldMatch.number, hw, hid, Option.map_some, Option.map_some,
    numbers_shapeField hshown hshape]

/-- **The match of an entry that was read is built as the match that was sent.** -/
theorem numbers_buildMatch {info : P4Info} (hinfo : info.Unambiguous) {table : Table}
    (ht : table ∈ info.tables) {te : TableEntry} (hte : te.tableId = table.preamble.id)
    {shown : List (String × Json F)} (h : fieldsAsWritten info table te = .ok shown)
    {isDefault : Bool} {fields : List FieldMatch} {types : List (String × MatchType)}
    (hbuild : buildMatch table (PyData.ofJsonFields shown) isDefault = .ok (fields, types)) :
    fields.map FieldMatch.number = te.fields.map FieldMatch.number := by
  unfold fieldsAsWritten at h
  simp only at h
  split at h
  · cases h
  next hspelled =>
  rw [not_or, not_not] at hspelled
  obtain ⟨hnone, hlen⟩ := hspelled
  -- no field is passed over, and no name is there twice
  set es := te.fields.filterMap fun m =>
    m.wire.map fun w => (matchFieldName info te.tableId m.fieldId, w) with hes
  have hle : es.length ≤ te.fields.length := List.length_filterMap_le _ _
  have hlen' : (Dict.ofList es).entries.length = te.fields.length := hlen
  have hentries : (Dict.ofList es).entries = es :=
    Dict.entries_ofList_of_length (by omega)
  have hsent : List.Forall₂ (fun m e =>
      (m.wire.map fun w => (matchFieldName info te.tableId m.fieldId, w)) = some e) te.fields es :=
    Fallible.forall₂_filterMap (by
      rw [← hes, ← hentries]
      omega)
  have hread : List.Forall₂ (fun e s => e.1 ≠ none ∧ fieldAsWritten table e = .ok s) es shown := by
    refine (List.forall₂_and_left _ _).mpr ⟨fun e he heq => hnone ?_, ?_⟩
    · show none ∈ (Dict.ofList es).entries.map Prod.fst
      rw [hentries]
      exact List.mem_map.mpr ⟨e, he, heq⟩
    · rw [← hentries]
      exact Fallible.forall₂_of_mapM h
  rw [PyData.ofJsonFields_eq] at hbuild
  have hbuilt := List.forall₂_map_left_iff.mp (buildMatch_eq_ok.mp ⟨types, hbuild⟩).1
  have hboth := Fallible.forall₂_trans (T := fun e fm => ∃ s, (e.1 ≠ none ∧
    fieldAsWritten table e = .ok s) ∧ BuildsField table (s.1, PyData.ofJson s.2) fm)
    (fun e s fm hs hfm => ⟨s, hs, hfm⟩) hread hbuilt
  refine (Fallible.map_eq_of_forall₂ (Fallible.forall₂_trans ?_ hsent hboth)).symm
  rintro m e fm hm ⟨s, ⟨hname, hs⟩, hfm⟩
  rw [hte] at hm
  exact number_of_buildsField hinfo ht hm hname hs hfm

/-! ### Timeouts and priorities -/

theorem foldl_toDigits (n : ℕ) :
    (Nat.toDigits 16 n).foldl (fun n c => n * 16 + (PyBytes.hexDigit? c).getD 0) 0 = n := by
  induction n using Nat.strong_induction_on with
  | _ n ih =>
    by_cases hlt : n < 16
    · have hdigit := (PyBytes.hexDigit?_digitChar n hlt).1
      simp [Nat.toDigits_of_lt_base hlt, hdigit]
    · have hdigit := (PyBytes.hexDigit?_digitChar (n % 16) (Nat.mod_lt n (by decide))).1
      rw [Nat.toDigits_of_base_le (by decide) (by omega), List.foldl_append, ih (n / 16) (by omega)]
      simp only [List.foldl_cons, List.foldl_nil, hdigit, Option.getD_some]
      omega

theorem hexOnly_toDigits (n : ℕ) : hexOnly (Nat.toDigits 16 n) = some n := by
  have hdigits : (Nat.toDigits 16 n).any (fun c => (PyBytes.hexDigit? c).isNone) = false := by
    rw [List.any_eq_false]
    intro c hc
    obtain ⟨d, hd, rfl⟩ := PyInt.mem_toDigits hc
    rw [(PyBytes.hexDigit?_digitChar d hd).1]
    exact Bool.false_ne_true
  have hne : (Nat.toDigits 16 n).isEmpty = false := by
    rw [List.isEmpty_eq_false_iff]
    exact Nat.toDigits_ne_nil
  rw [hexOnly, hne, hdigits, foldl_toDigits]
  simp

theorem checkIdle_ok {table : Table} {idle n : ℤ} {isDefault : Bool}
    (h : checkIdle (F := F) table idle isDefault = .ok n) : n = idle ∧ 0 ≤ idle := by
  unfold checkIdle at h
  simp only at h
  split at h
  · cases h
  next hrange =>
  split at h
  · cases h
  split at h
  · cases h
  · cases h
    exact ⟨rfl, (not_not.mp hrange).1⟩

/-- **A timeout that is shown is the timeout that is written.** -/
theorem idleTimeout_asJson {table : Table} {idle n : ℤ} {isDefault : Bool}
    (h : idleTimeout table (PyData.ofJson (idleTimeoutAsJson idle : Json F)) isDefault = .ok n) :
    n = idle ∧ 0 ≤ idle := by
  unfold idleTimeoutAsJson at h
  split at h
  · next hlarge =>
    have hpos : 0 ≤ idle := by
      have hexact : (2 : ℤ) ^ jsonExactIntBits.toNat = 9007199254740992 := rfl
      omega
    have hdigits : hexIdle (String.ofList (PyInt.hexNumber idle.toNat)) =
        some (Nat.toDigits 16 idle.toNat) := by
      rw [hexIdle, String.toList_ofList]
      rfl
    simp only [PyData.ofJson, idleTimeout, hdigits, hexOnly_toDigits] at h
    rw [Int.toNat_of_nonneg hpos] at h
    exact checkIdle_ok h
  · exact checkIdle_ok h

theorem shapePriority_null {place : String} {kinds : List MatchType} {isDefault : Bool} {n : ℤ}
    (h : shapePriority (F := F) place kinds .none isDefault = .ok n) : n = 0 := by
  unfold shapePriority at h
  simp only [shapePriority.go] at h
  split at h
  · cases h
    rfl
  split at h
  · cases h
    rfl
  split at h
  · next hrange => exact absurd hrange.1 (by decide)
  · cases h

/-- **A priority that is shown is the priority that is written.** -/
theorem shapePriority_int {place : String} {kinds : List MatchType} {p n : ℤ}
    (hcolumn : tableHasPriorityColumn kinds = true)
    (h : shapePriority (F := F) place kinds (.int p) false = .ok n) :
    n = p ∧ 1 ≤ p ∧ p ≤ priorityMax := by
  unfold shapePriority at h
  simp only [shapePriority.go, hcolumn, Bool.not_true, Bool.false_eq_true, if_false] at h
  split at h
  · next hrange =>
    cases h
    exact ⟨rfl, hrange⟩
  · cases h

/-! ### Whole entries -/

/-- How an entry is built from the parts of its spec. -/
structure Built (c : Client) (fl : Floats F) (spec : List (String × PyData F)) (name : String)
    (table : Table) (members : List (String × PyData F)) (e : TableEntry)
    (types : List (String × MatchType)) : Prop where
  named : specTable (PyData.get spec "table") = .ok name
  found : tableByName (F := F) c name = .ok table
  matched : specMatch fl name (PyData.get spec "match") = .ok members
  isDefault : specDefault name (spec.lookup "default_action") = .ok e.isDefaultAction
  unmatched : checkDefault name e.isDefaultAction members = .ok ()
  fields : buildMatch table members e.isDefaultAction = .ok (e.fields, types)
  action : buildAction c fl name (PyData.get spec "action_name")
    (PyData.get spec "action_params") = .ok e.action
  priority : shapePriority table.preamble.name table.kinds (PyData.get spec "priority")
    e.isDefaultAction = .ok e.priority
  idle : idleTimeout table (PyData.get spec "idle_timeout_ns") e.isDefaultAction =
    .ok e.idleTimeoutNs
  tableId : e.tableId = table.preamble.id

/-- **An entry is built if each of its parts is.** -/
theorem buildTableEntry_eq_ok {c : Client} {fl : Floats F} {spec : List (String × PyData F)}
    {e : TableEntry} {types : List (String × MatchType)} :
    buildTableEntry c fl (.dict spec) = .ok (e, types) ↔
      ∃ name table members, Built c fl spec name table members e types := by
  constructor
  · intro h
    obtain ⟨name, hname, h⟩ := Fallible.exists_of_bind_ok h
    obtain ⟨table, htable, h⟩ := Fallible.exists_of_bind_ok h
    obtain ⟨members, hmembers, h⟩ := Fallible.exists_of_bind_ok h
    obtain ⟨isDefault, hdefault, h⟩ := Fallible.exists_of_bind_ok h
    obtain ⟨_, hunmatched, h⟩ := Fallible.exists_of_bind_ok h
    obtain ⟨⟨fields, types'⟩, hfields, h⟩ := Fallible.exists_of_bind_ok h
    obtain ⟨action, haction, h⟩ := Fallible.exists_of_bind_ok h
    obtain ⟨priority, hpriority, h⟩ := Fallible.exists_of_bind_ok h
    obtain ⟨idle, hidle, h⟩ := Fallible.exists_of_bind_ok h
    cases h
    exact ⟨name, table, members, hname, htable, hmembers, hdefault, hunmatched, hfields, haction,
      hpriority, hidle, rfl⟩
  · rintro ⟨name, table, members, h⟩
    obtain ⟨tableId, fields, action, priority, isDefault, idle⟩ := e
    obtain rfl : tableId = table.preamble.id := h.tableId
    rw [buildTableEntry, Fallible.bind_of_ok h.named, Fallible.bind_of_ok h.found,
      Fallible.bind_of_ok h.matched, Fallible.bind_of_ok h.isDefault,
      Fallible.bind_of_ok h.unmatched, Fallible.bind_of_ok h.fields]
    simp only
    rw [Fallible.bind_of_ok h.action, Fallible.bind_of_ok h.priority, Fallible.bind_of_ok h.idle]

theorem orEmpty_dict (fl : Floats F) (members : List (String × PyData F)) :
    (PyData.dict members).orEmpty fl = .dict members := by
  unfold PyData.orEmpty
  split
  · rfl
  · next h =>
    cases members with
    | nil => rfl
    | cons m members => exact absurd rfl h

/-- One spec with the members of its match and of its parameters in another order. -/
structure Reordered (spec spec' : List (String × PyData F)) : Prop where
  table : PyData.get spec' "table" = PyData.get spec "table"
  isDefault : spec'.lookup "default_action" = spec.lookup "default_action"
  actionName : PyData.get spec' "action_name" = PyData.get spec "action_name"
  priority : PyData.get spec' "priority" = PyData.get spec "priority"
  idle : PyData.get spec' "idle_timeout_ns" = PyData.get spec "idle_timeout_ns"
  members : ∃ ms ms', PyData.get spec "match" = .dict ms ∧ PyData.get spec' "match" = .dict ms' ∧
    ms'.Perm ms
  params : ∃ ps ps', PyData.get spec "action_params" = .dict ps ∧
    PyData.get spec' "action_params" = .dict ps' ∧ ps'.Perm ps

/-- The same action, with parameters that stand for the same numbers. -/
def TableAction.Same (a a' : TableAction) : Prop :=
  ∃ id ps ps', a = .action id ps ∧ a' = .action id ps' ∧
    (ps.map ParamValue.number).Perm (ps'.map ParamValue.number)

/-- The same entry, as far as a table can tell: its action, the numbers of its parameters and of its
match, its priority where the table has one, and its timeout where the table keeps one. -/
structure TableEntry.Same (table : Table) (e e' : TableEntry) : Prop where
  tableId : e.tableId = e'.tableId
  isDefaultAction : e.isDefaultAction = e'.isDefaultAction
  action : e.action.Same e'.action
  fields : (e.fields.map FieldMatch.number).Perm (e'.fields.map FieldMatch.number)
  priority : tableHasPriorityColumn table.kinds = true → e.priority = e'.priority
  idle : table.agesEntries = true → e.idleTimeoutNs = e'.idleTimeoutNs

theorem buildAction_perm {c : Client} {fl : Floats F} {name : String} {actionName : PyData F}
    {ps ps' : List (String × PyData F)} {id : ℕ} {values : List ParamValue}
    (h : buildAction c fl name actionName (.dict ps) = .ok (.action id values))
    (hperm : ps'.Perm ps) :
    ∃ values', buildAction c fl name actionName (.dict ps') = .ok (.action id values') ∧
      values'.Perm values := by
  unfold buildAction at h ⊢
  simp only [orEmpty_dict] at h ⊢
  split at h
  · cases h
  · next s =>
    split at h
    · cases h
    next hs =>
    obtain ⟨action, haction, h⟩ := Fallible.exists_of_bind_ok h
    obtain ⟨values', hvalues, h⟩ := Fallible.exists_of_bind_ok h
    cases h
    obtain ⟨values', hvalues', hperm'⟩ := buildParams_perm hvalues hperm
    refine ⟨values', ?_, hperm'⟩
    simp only [if_neg hs]
    rw [Fallible.bind_of_ok haction, Fallible.bind_of_ok hvalues']
  · cases h

/-- **The order of members is of no account**: an entry whose match and parameters are in another
order is built as the same entry. -/
theorem buildTableEntry_reordered {c : Client} {fl : Floats F} {spec spec' : List (String × PyData F)}
    (hspec : Reordered spec spec') {name : String} {table table' : Table}
    {members : List (String × PyData F)} {e te : TableEntry} {types : List (String × MatchType)}
    (h : Built c fl spec name table members e types) (hsame : e.Same table' te) :
    ∃ e' types', buildTableEntry c fl (.dict spec') = .ok (e', types') ∧ e'.Same table' te := by
  obtain ⟨ms, ms', hms, hms', hmsPerm⟩ := hspec.members
  obtain ⟨ps, ps', hps, hps', hpsPerm⟩ := hspec.params
  obtain ⟨id, values, sent, haction, hsent, hvalues⟩ := hsame.action
  have hmembers : members = ms := by
    have := h.matched
    rw [hms, specMatch, orEmpty_dict] at this
    cases this
    rfl
  subst hmembers
  obtain ⟨fields', types', hfields', hfieldsPerm⟩ := buildMatch_perm h.fields hmsPerm
  have hbuilt := h.action
  rw [hps, haction] at hbuilt
  obtain ⟨values', hvalues', hvaluesPerm⟩ := buildAction_perm hbuilt hpsPerm
  refine ⟨⟨e.tableId, fields', .action id values', e.priority, e.isDefaultAction, e.idleTimeoutNs⟩,
    types', buildTableEntry_eq_ok.mpr ⟨name, table, ms', ?_⟩, ?_⟩
  · refine ⟨?_, h.found, ?_, ?_, ?_, hfields', ?_, ?_, ?_, h.tableId⟩
    · rw [hspec.table]
      exact h.named
    · rw [hms', specMatch, orEmpty_dict]
    · rw [hspec.isDefault]
      exact h.isDefault
    · have hunmatched := h.unmatched
      unfold checkDefault at hunmatched ⊢
      split at hunmatched
      · cases hunmatched
      · next hnot =>
        rw [if_neg]
        rwa [hmsPerm.isEmpty_eq]
    · rw [hspec.actionName, hps']
      exact hvalues'
    · rw [hspec.priority]
      exact h.priority
    · rw [hspec.idle]
      exact h.idle
  · refine ⟨hsame.tableId, hsame.isDefaultAction, ⟨id, values', sent, rfl, hsent, ?_⟩, ?_,
      hsame.priority, hsame.idle⟩
    · exact (hvaluesPerm.map _).trans hvalues
    · exact (hfieldsPerm.map _).trans hsame.fields

/-! ### What a switch sent -/

/-- An entry as a switch may send it: no field and no parameter is there twice, and a default entry,
which has no place among others and never goes idle, has neither priority nor timeout. -/
structure TableEntry.WellFormed (te : TableEntry) : Prop where
  fields : (te.fields.map FieldMatch.fieldId).Nodup
  params : ∀ id ps, te.action = .action id ps → (ps.map ParamValue.paramId).Nodup
  default : te.isDefaultAction = true → te.priority = 0 ∧ te.idleTimeoutNs = 0

section Spec

variable (table : Table) (te : TableEntry) (shown : List (String × Json F))
  (action : String × List (String × Json F))

/-- The parts of a spec that an entry is listed as. -/
theorem get_writtenSpec :
    PyData.get (PyData.ofJsonFields (writtenSpec table te shown action)) "table" =
      .str table.preamble.name ∧
    PyData.get (PyData.ofJsonFields (writtenSpec table te shown action)) "match" =
      .dict (PyData.ofJsonFields shown) ∧
    PyData.get (PyData.ofJsonFields (writtenSpec table te shown action)) "action_name" =
      .str action.1 ∧
    PyData.get (PyData.ofJsonFields (writtenSpec table te shown action)) "action_params" =
      .dict (PyData.ofJsonFields action.2) ∧
    PyData.get (PyData.ofJsonFields (writtenSpec table te shown action)) "priority" =
      .ofJson (readPriority te (tableHasPriorityColumn table.kinds)) ∧
    (PyData.ofJsonFields (writtenSpec table te shown action)).lookup "default_action" =
      some (.bool te.isDefaultAction) ∧
    PyData.get (PyData.ofJsonFields (writtenSpec table te shown action)) "idle_timeout_ns" =
      if table.agesEntries && !te.isDefaultAction then
        .ofJson (idleTimeoutAsJson te.idleTimeoutNs) else .none := by
  refine ⟨rfl, rfl, rfl, rfl, rfl, rfl, ?_⟩
  unfold writtenSpec
  split
  · rfl
  · rfl

end Spec

theorem tableByName_ok {c : Client} {name : String} {table : Table}
    (h : tableByName (F := F) c name = .ok table) :
    table ∈ c.p4info.tables ∧ table.preamble.goesBy name = true := by
  unfold tableByName at h
  split at h
  · next t ht =>
    cases h
    exact ⟨List.mem_of_find?_eq_some ht, by simpa using List.find?_some ht⟩
  · cases h

theorem actionByName_ok {c : Client} {name : String} {action : ActionInfo}
    (h : actionByName (F := F) c name = .ok action) :
    action ∈ c.p4info.actions ∧ action.preamble.goesBy name = true := by
  unfold actionByName at h
  split at h
  · next a ha =>
    cases h
    exact ⟨List.mem_of_find?_eq_some ha, by simpa using List.find?_some ha⟩
  · cases h

theorem Preamble.goesBy_name (p : Preamble) : p.goesBy p.name = true := by
  simp [Preamble.goesBy]

/-- The action of an entry that was read is built as the action that was sent. -/
theorem same_buildAction {c : Client} {fl : Floats F} (hinfo : c.p4info.Unambiguous)
    {place name : String} {sent built : TableAction} {written : String × List (String × Json F)}
    (hparams : ∀ id ps, sent = .action id ps → (ps.map ParamValue.paramId).Nodup)
    (h : actionAsWritten c.p4info place sent = .ok written)
    (hbuild : buildAction c fl name (.str written.1) (.dict (PyData.ofJsonFields written.2)) =
      .ok built) : built.Same sent := by
  cases sent with
  | none => cases h
  | actionProfileMemberId => cases h
  | actionProfileGroupId => cases h
  | actionProfileActionSet => cases h
  | action actionId params =>
    unfold actionAsWritten at h
    simp only at h
    split at h
    · cases h
    next action haction =>
    obtain ⟨⟨shown, left⟩, hshown, h⟩ := Fallible.exists_of_bind_ok h
    simp only at h
    split at h
    swap
    · cases h
    next hleft =>
    cases h
    have hmem : action ∈ c.p4info.actions := List.mem_of_find?_eq_some haction
    have hid : action.preamble.id = actionId := by simpa using List.find?_some haction
    unfold buildAction at hbuild
    simp only [orEmpty_dict] at hbuild
    split at hbuild
    · cases hbuild
    next hname =>
    obtain ⟨action', haction', hbuild⟩ := Fallible.exists_of_bind_ok hbuild
    obtain ⟨values, hvalues, hbuild⟩ := Fallible.exists_of_bind_ok hbuild
    cases hbuild
    obtain ⟨hmem', hgoes⟩ := actionByName_ok haction'
    obtain rfl : action' = action := hinfo.action_name action' hmem' action hmem _ hname hgoes
      action.preamble.goesBy_name
    refine ⟨action'.preamble.id, values, params, rfl, by rw [hid], ?_⟩
    exact numbers_buildParams hinfo hmem (hparams actionId params rfl) hshown
      (List.isEmpty_iff.mp hleft) hvalues

/-- **What an entry is listed as is built as the entry that was sent.** -/
theorem same_of_built {c : Client} {fl : Floats F} (hinfo : c.p4info.Unambiguous) {table : Table}
    (ht : table ∈ c.p4info.tables) {te : TableEntry} (hte : te.tableId = table.preamble.id)
    (hwf : te.WellFormed) {shown : List (String × Json F)}
    {action : String × List (String × Json F)} (hshown : fieldsAsWritten c.p4info table te = .ok shown)
    (haction : actionAsWritten c.p4info table.preamble.name te.action = .ok action)
    {name : String} {table' : Table} {members : List (String × PyData F)} {e : TableEntry}
    {types : List (String × MatchType)}
    (h : Built c fl (PyData.ofJsonFields (writtenSpec table te shown action)) name table' members e
      types) : table' = table ∧ e.Same table te := by
  obtain ⟨htable, hmatch, hactionName, hparams, hpriority, hdefault, hidle⟩ :=
    get_writtenSpec table te shown action
  have hname : table.preamble.name = name ∧ name ≠ "" := by
    have hread := h.named
    rw [htable, specTable] at hread
    split at hread
    · cases hread
    · next hne =>
      cases hread
      exact ⟨rfl, hne⟩
  obtain ⟨hmem', hgoes⟩ := tableByName_ok h.found
  obtain rfl : table' = table := hinfo.table_name table' hmem' table ht name hname.2 hgoes
    (hname.1 ▸ table.preamble.goesBy_name)
  refine ⟨rfl, ?_⟩
  have hisDefault : e.isDefaultAction = te.isDefaultAction := by
    have hread := h.isDefault
    rw [hdefault] at hread
    exact (Except.ok.inj hread).symm
  have hmembers : members = PyData.ofJsonFields shown := by
    have hread := h.matched
    rw [hmatch, specMatch, orEmpty_dict] at hread
    cases hread
    rfl
  subst hmembers
  refine ⟨by rw [h.tableId, hte], hisDefault, ?_, ?_, ?_, ?_⟩
  · have hbuild := h.action
    rw [hactionName, hparams] at hbuild
    exact same_buildAction hinfo hwf.params haction hbuild
  · rw [numbers_buildMatch hinfo ht hte hshown h.fields]
  · intro hcolumn
    have hread := h.priority
    rw [hpriority, readPriority, hcolumn, hisDefault] at hread
    cases hd : te.isDefaultAction with
    | true =>
      rw [hd] at hread
      rw [shapePriority_null hread, (hwf.default hd).1]
    | false =>
      rw [hd] at hread
      exact (shapePriority_int hcolumn hread).1
  · intro hages
    have hread := h.idle
    rw [hidle, hages, hisDefault] at hread
    cases hd : te.isDefaultAction with
    | true =>
      rw [hd] at hread
      rw [(hwf.default hd).2]
      exact (Except.ok.inj hread).symm
    | false =>
      rw [hd] at hread
      exact (idleTimeout_asJson hread).1

end NDTwin.P4Table
