import NDTwin.Lib.JsonRoundTrip
import NDTwin.P4Table.ReadBack

/-!
# A table that was read can be written

Whoever reads a table has its entries as text.  What an entry is listed as has nothing in it that a
text loses: its numbers are small, its wide values are texts themselves, and no name is there twice.
`json.dumps` may sort the keys, which puts fields and parameters in another order, and the order is
of no account to the writer.

## Main definitions

* `Settled`, `SettledFields` — values and members that a text keeps.
* `Rebuilds` — the writer takes what an entry was listed as for that entry.

## Main results

* `readable_writtenSpec` — **what an entry is listed as can be read back from its text.**
* `reordered_sorted` — sorting its keys leaves an entry what it was.
* `readTable_rebuilds` — **a table that was read can be written, entry by entry.**
-/

namespace NDTwin.P4Table

variable {F : Type}

/-! ### Values that a text keeps -/

/-- A value that is read back from its text, and that has no keys to sort. -/
def Settled (v : Json F) : Prop := v.Readable ∧ v.sorted = v

theorem settled_int {n : ℤ} (hn : n.natAbs < 2 ^ 64) : Settled (.int n : Json F) := by
  refine ⟨?_, rfl⟩
  have hdigits : (Nat.toDigits 10 n.natAbs).length ≤ 20 :=
    (Nat.length_toDigits_le_iff (by decide) (by decide)).mpr (by omega)
  exact Nat.le_trans hdigits (by decide)

theorem settled_pair {v w : Json F} (hv : Settled v) (hw : Settled w) :
    Settled (.arr [v, w] : Json F) := by
  refine ⟨⟨hv.1, hw.1, trivial⟩, ?_⟩
  show Json.arr [v.sorted, w.sorted] = _
  rw [hv.2, hw.2]

theorem settled_renderValue {raw : List ℕ} {bitwidth : ℤ} {v : Json F}
    (h : renderValue raw bitwidth = .ok v) : Settled v := by
  unfold renderValue at h
  simp only at h
  split at h
  · cases h
  split at h
  · cases h
  next hfits =>
  split at h
  · cases h
    exact ⟨trivial, rfl⟩
  split at h
  · cases h
    exact ⟨trivial, rfl⟩
  split at h
  · cases h
    exact ⟨trivial, rfl⟩
  next hwide =>
  -- a number is only shown as one where every reader keeps it
  cases h
  rw [jsonExactIntBits] at hwide
  have hpow : 2 ^ bitwidth.toNat ≤ 2 ^ 53 := Nat.pow_le_pow_right (by decide) (by omega)
  have hcast : (2 : ℤ) ^ bitwidth.toNat = ((2 ^ bitwidth.toNat : ℕ) : ℤ) := by norm_cast
  rw [maxValue] at hfits
  exact settled_int (by omega)

/-- A field that is shown, and taken by the writer, is settled. -/
theorem settled_renderField {place : String} {bitwidth : ℤ} (hwidth : bitwidth < 2 ^ 31) {w w' : Wire}
    {v : Json F} (h : renderField bitwidth w = .ok v)
    (hshape : shapeField place w.kind bitwidth (PyData.ofJson v) = .ok w') : Settled v := by
  cases w with
  | exact value => exact settled_renderValue h
  | optional value => exact settled_renderValue h
  | lpm value prefixLen =>
    obtain ⟨v', hv', h⟩ := Fallible.exists_of_bind_ok h
    cases h
    obtain ⟨p, hp, hshape⟩ := Fallible.exists_of_bind_ok hshape
    cases hp
    obtain ⟨len, hlen, -⟩ := Fallible.exists_of_bind_ok hshape
    obtain ⟨heq, hnonneg, hle⟩ := shapePrefixLen_ok hlen
    cases heq
    exact settled_pair (settled_renderValue hv') (settled_int (by omega))
  | ternary value mask =>
    obtain ⟨v', hv', h⟩ := Fallible.exists_of_bind_ok h
    obtain ⟨m', hm', h⟩ := Fallible.exists_of_bind_ok h
    cases h
    exact settled_pair (settled_renderValue hv') (settled_renderValue hm')
  | range low high =>
    obtain ⟨l', hl', h⟩ := Fallible.exists_of_bind_ok h
    obtain ⟨h', hh', h⟩ := Fallible.exists_of_bind_ok h
    cases h
    exact settled_pair (settled_renderValue hl') (settled_renderValue hh')

/-- Members of which a text keeps each, and whose names are all different. -/
def SettledFields (fields : List (String × Json F)) : Prop :=
  (fields.map Prod.fst).Nodup ∧ ∀ p ∈ fields, Settled p.2

theorem settledFields_paramsAsWritten {place : String} {action : ActionInfo} {params : List Param}
    {values left : Dict ℕ (List ℕ)} {shown out : Dict String (Json F)}
    (hshown : ∀ p ∈ shown.entries, Settled p.2)
    (h : paramsAsWritten place action params values shown = .ok (out, left)) :
    SettledFields out.entries := by
  induction params generalizing values shown with
  | nil =>
    cases h
    exact ⟨out.nodup, hshown⟩
  | cons p params ih =>
    rw [paramsAsWritten] at h
    split at h
    · cases h
    next raw hraw =>
    obtain ⟨v, hv, h⟩ := Fallible.exists_of_bind_ok h
    refine ih ?_ h
    rintro ⟨name, w⟩ hw
    rw [Dict.mem_entries_iff, Dict.get?_set] at hw
    split at hw
    · cases hw
      exact settled_renderValue hv
    · exact hshown (name, w) ((Dict.mem_entries_iff _ _ _).mpr hw)

theorem settledFields_actionAsWritten {info : P4Info} {place : String} {sent : TableAction}
    {written : String × List (String × Json F)} (h : actionAsWritten info place sent = .ok written) :
    SettledFields written.2 := by
  cases sent with
  | none => cases h
  | actionProfileMemberId => cases h
  | actionProfileGroupId => cases h
  | actionProfileActionSet => cases h
  | action actionId params =>
    unfold actionAsWritten at h
    simp only at h
    split at h
    · cases h
    obtain ⟨⟨shown, left⟩, hshown, h⟩ := Fallible.exists_of_bind_ok h
    simp only at h
    split at h
    · cases h
      exact settledFields_paramsAsWritten (by nofun) hshown
    · cases h

theorem settledFields_fieldsAsWritten {info : P4Info} (hinfo : info.Unambiguous) {table : Table}
    (ht : table ∈ info.tables) {te : TableEntry} {shown : List (String × Json F)}
    (h : fieldsAsWritten info table te = .ok shown) {isDefault : Bool} {fields : List FieldMatch}
    {types : List (String × MatchType)}
    (hbuild : buildMatch table (PyData.ofJsonFields shown) isDefault = .ok (fields, types)) :
    SettledFields shown := by
  unfold fieldsAsWritten at h
  simp only at h
  split at h
  · cases h
  next hspelled =>
  rw [not_or] at hspelled
  set spelled := matchAsDict info te.tableId te.fields
  have hshown := Fallible.forall₂_of_mapM h
  constructor
  · -- the names that were found are all different, and so are their texts
    have hnames : shown.map Prod.fst = spelled.entries.map fun e => e.1.getD "" := by
      refine (Fallible.map_eq_of_forall₂ (hshown.imp fun e s hs => ?_)).symm
      obtain ⟨f, -, hs⟩ := Fallible.exists_of_bind_ok hs
      split at hs
      · cases hs
      · obtain ⟨v, -, hs⟩ := Fallible.exists_of_bind_ok hs
        cases hs
        rfl
    have hmap : spelled.entries.map (fun e => e.1.getD "") = spelled.keys.map (·.getD "") := by
      rw [Dict.keys, List.map_map]
      rfl
    rw [hnames, hmap]
    refine List.Nodup.map_on ?_ spelled.nodup
    intro x hx y hy hxy
    cases x with
    | none => exact absurd hx hspelled.1
    | some x =>
      cases y with
      | none => exact absurd hy hspelled.1
      | some y => exact congrArg some hxy
  · rw [PyData.ofJsonFields_eq] at hbuild
    have hbuilt := List.forall₂_map_left_iff.mp (buildMatch_eq_ok.mp ⟨types, hbuild⟩).1
    intro p hp
    obtain ⟨e, -, he⟩ := Fallible.exists_mem_of_forall₂ hshown hp
    obtain ⟨fm, -, hfm⟩ := Fallible.exists_mem_of_forall₂ hbuilt.flip hp
    obtain ⟨f, -, place, w, -, hrender, hshape, -⟩ := shaped_of_buildsField hinfo ht he hfm
    exact settled_renderField f.bitwidth_lt hrender hshape

/-! ### The whole object -/

theorem nodup_writtenSpec (table : Table) (te : TableEntry) (shown : List (String × Json F))
    (action : String × List (String × Json F)) :
    ((writtenSpec table te shown action).map Prod.fst).Nodup := by
  unfold writtenSpec
  split
  · show ["table", "match", "action_name", "action_params", "priority", "default_action",
      "idle_timeout_ns"].Nodup
    decide
  · show ["table", "match", "action_name", "action_params", "priority", "default_action"].Nodup
    decide

/-- **What an entry is listed as can be read back from its text.** -/
theorem readable_writtenSpec {c : Client} {fl : Floats F} {table : Table} {te : TableEntry}
    {shown : List (String × Json F)} {action : String × List (String × Json F)}
    (hshown : SettledFields shown) (haction : SettledFields action.2) {name : String}
    {members : List (String × PyData F)} {e : TableEntry} {types : List (String × MatchType)}
    (h : Built c fl (PyData.ofJsonFields (writtenSpec table te shown action)) name table members e
      types) : (Json.obj (writtenSpec table te shown action)).Readable := by
  obtain ⟨-, -, -, -, hpriority, hdefault, hidle⟩ := get_writtenSpec table te shown action
  have hmembers : ∀ {fields : List (String × Json F)}, SettledFields fields →
      (Json.obj fields).Readable := fun hfields =>
    ⟨hfields.1, Json.readableFields_iff.mpr fun p hp => (hfields.2 p hp).1⟩
  have hisDefault : e.isDefaultAction = te.isDefaultAction := by
    have hread := h.isDefault
    rw [hdefault] at hread
    exact (Except.ok.inj hread).symm
  have hpriority' : (readPriority te (tableHasPriorityColumn table.kinds) : Json F).Readable := by
    have hread := h.priority
    rw [hpriority, hisDefault] at hread
    unfold readPriority at hread ⊢
    split at hread
    · next hcolumn =>
      rw [if_pos hcolumn]
      rw [Bool.and_eq_true, Bool.not_eq_true'] at hcolumn
      rw [hcolumn.2] at hread
      obtain ⟨-, hpos, hmax⟩ := shapePriority_int hcolumn.1 hread
      rw [priorityMax] at hmax
      exact (settled_int (by omega)).1
    · next hcolumn =>
      rw [if_neg hcolumn]
      trivial
  have hidle' : table.agesEntries = true → te.isDefaultAction = false →
      (idleTimeoutAsJson te.idleTimeoutNs : Json F).Readable := by
    intro hages hd
    have hread := h.idle
    rw [hidle, hages, hd] at hread
    obtain ⟨-, hnonneg⟩ := idleTimeout_asJson hread
    unfold idleTimeoutAsJson
    split
    · trivial
    · next hsmall =>
      rw [show (2 : ℤ) ^ jsonExactIntBits.toNat = 2 ^ 53 from rfl] at hsmall
      exact (settled_int (by omega)).1
  refine ⟨nodup_writtenSpec table te shown action, ?_⟩
  unfold writtenSpec
  split
  · next hages =>
    rw [Bool.and_eq_true, Bool.not_eq_true'] at hages
    exact ⟨trivial, hmembers hshown, trivial, hmembers haction, hpriority', trivial,
      hidle' hages.1 hages.2, trivial⟩
  · exact ⟨trivial, hmembers hshown, trivial, hmembers haction, hpriority', trivial, trivial⟩

/-- A member of an object whose keys were sorted. -/
theorem lookup_sorted {fields : List (String × Json F)} (h : (fields.map Prod.fst).Nodup)
    (key : String) :
    (PyData.ofJsonFields (Json.sortFields (Json.sortedFields fields))).lookup key =
      (fields.lookup key).map fun v => PyData.ofJson v.sorted := by
  have hkeys : ((PyData.ofJsonFields (Json.sortFields (Json.sortedFields fields))).map
      Prod.fst).Nodup := by
    rw [PyData.ofJsonFields_eq, List.map_map]
    exact Json.nodup_keys_sortFields.mpr h
  ext w
  rw [Dict.lookup_eq_some_iff_mem hkeys, PyData.ofJsonFields_eq, Option.map_eq_some_iff]
  simp only [Dict.lookup_eq_some_iff_mem h]
  rw [((Json.sortFields_perm (Json.sortedFields fields)).map _).mem_iff, Json.sortedFields_eq,
    List.map_map, List.mem_map]
  constructor
  · rintro ⟨⟨name, v⟩, hmem, heq⟩
    cases heq
    exact ⟨v, hmem, rfl⟩
  · rintro ⟨v, hmem, rfl⟩
    exact ⟨(key, v), hmem, rfl⟩

theorem perm_sorted {fields : List (String × Json F)} (h : SettledFields fields) :
    (PyData.ofJsonFields (Json.sortFields (Json.sortedFields fields))).Perm
      (PyData.ofJsonFields fields) := by
  have hsorted : Json.sortedFields fields = fields := by
    rw [Json.sortedFields_eq]
    conv_rhs => rw [← List.map_id fields]
    exact List.map_congr_left fun p hp => by rw [(h.2 p hp).2]; rfl
  rw [hsorted, PyData.ofJsonFields_eq, PyData.ofJsonFields_eq]
  exact (Json.sortFields_perm fields).map _

/-- **Sorting its keys leaves an entry what it was**, up to the order of fields and parameters. -/
theorem reordered_sorted (table : Table) (te : TableEntry) {shown : List (String × Json F)}
    {action : String × List (String × Json F)} (hshown : SettledFields shown)
    (haction : SettledFields action.2) :
    Reordered (PyData.ofJsonFields (writtenSpec table te shown action))
      (PyData.ofJsonFields
        (Json.sortFields (Json.sortedFields (writtenSpec table te shown action)))) := by
  have hlookup := lookup_sorted (nodup_writtenSpec table te shown action)
  obtain ⟨htable, hmatch, hactionName, hparams, hpriority, hdefault, hidle⟩ :=
    get_writtenSpec table te shown action
  refine ⟨?_, ?_, ?_, ?_, ?_, ?_, ?_⟩
  · rw [PyData.get, hlookup, htable]
    rfl
  · rw [hlookup, hdefault]
    rfl
  · rw [PyData.get, hlookup, hactionName]
    rfl
  · rw [PyData.get, hlookup, hpriority]
    show PyData.ofJson (readPriority te _).sorted = _
    unfold readPriority
    split <;> rfl
  · rw [PyData.get, hlookup, hidle]
    unfold writtenSpec
    split
    · show PyData.ofJson (idleTimeoutAsJson _).sorted = _
      unfold idleTimeoutAsJson
      split <;> rfl
    · rfl
  · exact ⟨_, _, hmatch, by rw [PyData.get, hlookup]; rfl, perm_sorted hshown⟩
  · exact ⟨_, _, hparams, by rw [PyData.get, hlookup]; rfl, perm_sorted haction⟩

/-- What it takes for an entry to be listed. -/
theorem entryAsWritten_ok {c : Client} {fl : Floats F} {table : Table} {te : TableEntry} {v : Json F}
    (h : entryAsWritten c fl table te = .ok v) :
    ∃ shown action e types, fieldsAsWritten c.p4info table te = .ok shown ∧
      actionAsWritten c.p4info table.preamble.name te.action = .ok action ∧
      v = .obj (writtenSpec table te shown action) ∧
      buildTableEntry c fl (PyData.ofJson v) = .ok (e, types) := by
  obtain ⟨shown, hshown, h⟩ := Fallible.exists_of_bind_ok h
  obtain ⟨action, haction, h⟩ := Fallible.exists_of_bind_ok h
  simp only at h
  split at h
  · next out hbuild =>
    cases h
    exact ⟨shown, action, out.1, out.2, hshown, haction, rfl, hbuild⟩
  · cases h
  · cases h
  · cases h

/-! ### A table that was read -/

/-- The writer takes what an entry was listed as for that entry. -/
def Rebuilds (c : Client) (fl : Floats F) (table : Table) (te : TableEntry) (v : Json F) : Prop :=
  ∃ e types, buildTableEntry c fl (PyData.ofJson v) = .ok (e, types) ∧ e.Same table te

theorem rebuilds_of_entryAsWritten {c : Client} {fl : Floats F} (fr : Json.FloatReader fl)
    (hinfo : c.p4info.Unambiguous) {table : Table} (ht : table ∈ c.p4info.tables) {te : TableEntry}
    (hte : te.tableId = table.preamble.id) (hwf : te.WellFormed) {v : Json F}
    (h : entryAsWritten c fl table te = .ok v) :
    Rebuilds c fl table te v ∧
      ∀ st : Json.Style, ∃ v', Json.loads fr (Json.text fl st v) = some v' ∧
        Rebuilds c fl table te v' := by
  obtain ⟨shown, action, e, types, hshown, haction, rfl, hbuild⟩ := entryAsWritten_ok h
  rw [PyData.ofJson] at hbuild
  obtain ⟨name, table', members, hbuilt⟩ := buildTableEntry_eq_ok.mp hbuild
  obtain ⟨rfl, hsame⟩ := same_of_built hinfo ht hte hwf hshown haction hbuilt
  have hmembers : members = PyData.ofJsonFields shown := by
    have hread := hbuilt.matched
    rw [(get_writtenSpec table' te shown action).2.1, specMatch, orEmpty_dict] at hread
    cases hread
    rfl
  subst hmembers
  have hsettled := settledFields_fieldsAsWritten hinfo ht hshown hbuilt.fields
  have hsettled' := settledFields_actionAsWritten haction
  refine ⟨⟨e, types, hbuild, hsame⟩, ?_⟩
  intro st
  refine ⟨_, Json.loads_text fr st (readable_writtenSpec hsettled hsettled' hbuilt), ?_⟩
  unfold Json.Style.arrange
  split
  · exact buildTableEntry_reordered (reordered_sorted table' te hsettled hsettled') hbuilt hsame
  · exact ⟨e, types, hbuild, hsame⟩

theorem readEntry_eq_inl {c : Client} {fl : Floats F} {table : Table} {te : TableEntry}
    {item : Json F ⊕ Unrendered F} (h : readEntry c fl table te = .ok item) :
    (∃ v, item = .inl v ∧ entryAsWritten c fl table te = .ok v) ∨
      ((∃ u, item = .inr u) ∧ (entryAsWritten c fl table te).isOk = false) := by
  unfold readEntry at h
  simp only at h
  split at h
  · next v hv =>
    cases h
    exact .inl ⟨v, rfl, hv⟩
  · next hv =>
    cases h
    exact .inr ⟨⟨_, rfl⟩, by rw [hv]; rfl⟩
  · next hv =>
    cases h
    exact .inr ⟨⟨_, rfl⟩, by rw [hv]; rfl⟩
  · cases h

/-- The entries that are listed are those that can be, in their order. -/
theorem forall₂_listed {c : Client} {fl : Floats F} {table : Table} {tes : List TableEntry}
    {items : List (Json F ⊕ Unrendered F)}
    (h : List.Forall₂ (fun te item => readEntry c fl table te = .ok item) tes items) :
    List.Forall₂ (fun te v => entryAsWritten c fl table te = .ok v)
      (tes.filter fun te => (entryAsWritten c fl table te).isOk) (items.filterMap Sum.getLeft?) := by
  induction h with
  | nil => exact .nil
  | @cons te item tes items hitem _ ih =>
    rcases readEntry_eq_inl hitem with ⟨v, rfl, hv⟩ | ⟨⟨u, rfl⟩, hv⟩
    · rw [List.filter_cons_of_pos (by rw [hv]; rfl), List.filterMap_cons]
      exact .cons hv ih
    · rw [List.filter_cons_of_neg (by rw [hv]; exact Bool.false_ne_true), List.filterMap_cons]
      exact ih

/-- **A table that was read can be written.**  The entries that are listed are those of the table
that the switch sent and the writer's shape can say, in order; and what such an entry is listed as,
by itself or after it went through a text of any style, is built as the entry that was sent. -/
theorem readTable_rebuilds {c : Client} {fl : Floats F} (fr : Json.FloatReader fl)
    (hinfo : c.p4info.Unambiguous) {name : String} {replies : Bool → List TableEntry}
    {out : TableRead F} (h : readTable c fl name replies = .ok out) :
    ∃ table, tableByName (F := F) c name = .ok table ∧ out.table = table.preamble.name ∧
      List.Forall₂ (fun te v => entryAsWritten c fl table te = .ok v ∧
          (te.WellFormed → Rebuilds c fl table te v ∧ ∀ st : Json.Style,
            ∃ v', Json.loads fr (Json.text fl st v) = some v' ∧ Rebuilds c fl table te v'))
        ((answered table replies).filter fun te => (entryAsWritten c fl table te).isOk)
        out.entries := by
  obtain ⟨table, htable, h⟩ := Fallible.exists_of_bind_ok h
  obtain ⟨items, hitems, h⟩ := Fallible.exists_of_bind_ok h
  cases h
  refine ⟨table, htable, rfl, ?_⟩
  have hlisted := forall₂_listed (Fallible.forall₂_of_mapM hitems)
  have hsent : ∀ te ∈ (answered table replies).filter
      (fun te => (entryAsWritten c fl table te).isOk), te.tableId = table.preamble.id := by
    intro te hte
    obtain ⟨b, -, hb⟩ := List.mem_flatMap.mp (List.mem_filter.mp hte).1
    have hboth := (List.mem_filter.mp hb).2
    simp only [decide_eq_true_eq] at hboth
    exact hboth.1
  refine ((List.forall₂_and_left _ _).mpr ⟨hsent, hlisted⟩).imp ?_
  rintro te v ⟨hte, hv⟩
  exact ⟨hv, fun hwf => rebuilds_of_entryAsWritten fr hinfo (tableByName_ok htable).1 hte hwf hv⟩

/-- A switch whose one table, `PkgIngress.acl`, matches an address and a port range and ages its
entries. -/
def aclClient : Client where
  deviceId := 1
  p4info := {
    tables := [{
      preamble := ⟨33554433, "PkgIngress.acl", "acl"⟩
      matchFields := [
        { id := 1, name := "hdr.ipv4.dstAddr", bitwidth := 32, matchType := .ternary },
        { id := 2, name := "hdr.tcp.dstPort", bitwidth := 16, matchType := .range }]
      agesEntries := true }]
    actions := [⟨⟨16777217, "PkgIngress.permit", "permit"⟩, [⟨1, "port", 9⟩, ⟨2, "mac", 48⟩]⟩] }

/-- `10.0.2.0 &&& 255.255.255.0`, ports 1 to 80, as the switch sends it: no leading zero bytes. -/
def aclEntry : TableEntry where
  tableId := 33554433
  fields := [⟨1, some (.ternary [10, 0, 2, 0] [255, 255, 255, 0])⟩, ⟨2, some (.range [1] [80])⟩]
  action := .action 16777217 [⟨1, [2]⟩, ⟨2, [8, 0, 0, 0, 1, 17]⟩]
  priority := 10
  isDefaultAction := false
  idleTimeoutNs := 2 ^ 60

theorem readTable_rebuilds_acl :
    ((readTable aclClient Json.zeroFloats "acl"
      fun isDefault => if isDefault then [] else [aclEntry]).toOption.map fun out =>
        out.entries.length) = some 1 ∧
    ∃ out table, readTable aclClient Json.zeroFloats "acl"
        (fun isDefault => if isDefault then [] else [aclEntry]) = .ok out ∧
      ∀ v ∈ out.entries, ∃ v',
        Json.loads Json.zeroReader (Json.text Json.zeroFloats ⟨true, true, true⟩ v) = some v' ∧
        Rebuilds aclClient Json.zeroFloats table aclEntry v' := by
  have hlists : ((readTable aclClient Json.zeroFloats "acl"
      fun isDefault => if isDefault then [] else [aclEntry]).toOption.map fun out =>
        out.entries.length) = some 1 := by decide +kernel
  have hinfo : aclClient.p4info.Unambiguous := by
    refine ⟨?_, ?_, ?_, by decide, by decide⟩
    · intro t ht t' ht' _ _ _ _
      rw [List.mem_singleton.mp ht, List.mem_singleton.mp ht']
    · decide
    · intro a ha a' ha' _ _ _ _
      rw [List.mem_singleton.mp ha, List.mem_singleton.mp ha']
  have hwf : aclEntry.WellFormed := by
    refine ⟨by decide, ?_, nofun⟩
    rintro id ps heq
    cases heq
    decide
  refine ⟨hlists, ?_⟩
  cases hread : readTable aclClient Json.zeroFloats "acl"
      (fun isDefault => if isDefault then [] else [aclEntry]) with
  | error refusal =>
    rw [hread] at hlists
    cases hlists
  | ok out =>
    obtain ⟨table, -, -, hall⟩ := readTable_rebuilds Json.zeroReader hinfo hread
    refine ⟨out, table, rfl, ?_⟩
    intro v hv
    obtain ⟨te, hte, -, hback⟩ := Fallible.exists_mem_of_forall₂ hall hv
    obtain rfl : te = aclEntry := by
      obtain ⟨b, -, hb⟩ := List.mem_flatMap.mp (List.mem_filter.mp hte).1
      have hsent := (List.mem_filter.mp hb).1
      cases b with
      | true => cases hsent
      | false => exact List.mem_singleton.mp hsent
    exact (hback hwf).2 ⟨true, true, true⟩

end NDTwin.P4Table
