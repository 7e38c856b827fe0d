import NDTwin.Lib.ValueSets
import NDTwin.P4Table.ReadBack

/-!
# One key for each entry

An entry is identified by its switch, its table, its priority and its match, the match sorted by
name and its bytes read as numbers; the table's default entry has a key of its own.  What is accepted
of a field leaves each set of values one spelling, and a product of sets tells its factors, so that a
key stands for a set of packets.

The bytes of an exact or an lpm value are taken as they are given, however large a number they stand
for.  An entry with a value that does not fit its field selects no packet, and there are many such
entries with as many keys.

## Main definitions

* `entryKey`, `TableEntry.key` — the identity of an entry.
* `TableEntry.packets` — the packets it selects.
* `BuiltOf` — an entry that is built of a match.
* `Within` — a match none of whose values is too large for its field.

## Main results

* `numbers_eq_of_values_eq` — **what is accepted of a field has one spelling.**
* `Parts.packets_eq` — the packets of an entry are a product.
* `key_of_readBack` — **an entry that is read back has the key it was written with.**
* `key_eq_iff_packets_eq` — **one key for each set of packets**, but for values that do not fit.
-/

namespace NDTwin.P4Table

variable {F : Type}

/-! ### Keys -/

/-- `is_dont_care(spec)`. -/
def isDontCare : Wire → Bool
  | .ternary _ mask => Ipv4.ofBytes mask = 0
  | _ => false

/-- `_spec_key(spec)`: bytes as the integers they encode. -/
def specKey (w : Wire) : Numbers := w.numbers

/-- `normalise_match(match)`; a name that was not found is the text `None`. -/
def normaliseMatch (m : Dict (Option String) Wire) : List (String × Numbers) :=
  ((m.entries.filter fun e => !isDontCare e.2).map fun e =>
    (e.1.getD "None", specKey e.2)).mergeSort fun a b => decide (a.1 ≤ b.1)

/-- The identity of an entry. -/
inductive EntryKey where
  | default (dpid table : String)
  | entry (dpid table : String) (priority : ℤ) (fields : List (String × Numbers))
  deriving DecidableEq, Repr

/-- `entry_key(dpid, table, priority, match, default)`. -/
def entryKey (dpid : ℕ) (table : Option String) (priority : ℤ) (m : Dict (Option String) Wire)
    (isDefault : Bool) : EntryKey :=
  if isDefault then .default (toString dpid) (table.getD "None")
  else .entry (toString dpid) (table.getD "None") priority (normaliseMatch m)

/-- The key of an entry that was built or read, as `table_entry_key` computes it. -/
def TableEntry.key (c : Client) (te : TableEntry) : EntryKey :=
  entryKey c.deviceId (tableName c.p4info te.tableId) te.priority
    (matchAsDict c.p4info te.tableId te.fields) te.isDefaultAction

/-! ### Packets -/

/-- Whether what is said of a field of a width is true of a value. -/
def Numbers.Selects (bitwidth : ℤ) (n : ℕ) : Numbers → Prop
  | .exact value => n = value
  | .lpm value prefixLen =>
    n / 2 ^ (bitwidth - prefixLen).toNat = value / 2 ^ (bitwidth - prefixLen).toNat
  | .ternary value mask => n &&& mask = value &&& mask
  | .range low high => low ≤ n ∧ n ≤ high
  | .optional value => n = value

/-- The packets of a table that an entry selects: a value for each of the table's fields, which is
one of those the entry says of the field, if it says anything of it. -/
def TableEntry.packets (table : Table) (te : TableEntry) : Set (MatchField → ℕ) :=
  {p | (∀ f ∈ table.matchFields, p f < 2 ^ f.bitwidth.toNat) ∧
    ∀ fm ∈ te.fields, ∀ f ∈ table.matchFields, f.id = fm.fieldId →
      ∀ w, fm.wire = some w → w.numbers.Selects f.bitwidth (p f)}

/-- The values of a width that a field selects. -/
def Numbers.values (bitwidth : ℤ) (ns : Numbers) : Set ℕ :=
  {n | n < 2 ^ bitwidth.toNat ∧ ns.Selects bitwidth n}

/-- Whether a value that is not checked against the width of its field fits it. -/
def Wire.Fits (bitwidth : ℤ) : Wire → Prop
  | .exact value => Ipv4.ofBytes value < 2 ^ bitwidth.toNat
  | .lpm value _ => Ipv4.ofBytes value < 2 ^ bitwidth.toNat
  | _ => True

theorem le_maxValue {n : ℕ} {bitwidth : ℤ} :
    (n : ℤ) ≤ maxValue bitwidth ↔ n < 2 ^ bitwidth.toNat := by
  have hcast : (2 : ℤ) ^ bitwidth.toNat = ((2 ^ bitwidth.toNat : ℕ) : ℤ) := by norm_cast
  rw [maxValue, hcast]
  omega

/-! ### One spelling -/

/-- What is accepted, and fits, selects some value. -/
theorem nonempty_values {w : Wire} {bitwidth : ℤ} (hshaped : w.Shaped bitwidth)
    (hfits : w.Fits bitwidth) : (w.numbers.values bitwidth).Nonempty := by
  cases w with
  | exact value => exact ⟨_, hfits, rfl⟩
  | lpm value prefixLen => exact ⟨_, ValueSets.mem_block_self hfits⟩
  | ternary value mask => exact ⟨_, ValueSets.mem_cube_self (le_maxValue.mp hshaped.1)⟩
  | range low high =>
    exact ⟨_, le_maxValue.mp hshaped.1, hshaped.2.1, Nat.le_refl _⟩
  | optional value => exact ⟨_, le_maxValue.mp hshaped, rfl⟩

/-- What does not fit selects none. -/
theorem values_eq_empty {w : Wire} {bitwidth : ℤ} (hshaped : w.Shaped bitwidth)
    (hfits : ¬ w.Fits bitwidth) : w.numbers.values bitwidth = ∅ := by
  rw [Set.eq_empty_iff_forall_notMem]
  cases w with
  | exact value =>
    rintro n ⟨hlt, rfl⟩
    exact hfits hlt
  | lpm value prefixLen =>
    rintro n hn
    have hle := ValueSets.le_of_mem_block hshaped.2.2 hn
    exact hfits (Nat.lt_of_le_of_lt hle hn.1)
  | ternary value mask => exact absurd trivial hfits
  | range low high => exact absurd trivial hfits
  | optional value => exact absurd trivial hfits

/-- What is accepted leaves some value out. -/
theorem values_ne_below {w : Wire} {bitwidth : ℤ} (hpos : 0 < bitwidth)
    (hshaped : w.Shaped bitwidth) :
    w.numbers.values bitwidth ≠ ValueSets.below bitwidth.toNat := by
  have htwo : 2 ≤ 2 ^ bitwidth.toNat := Nat.pow_le_pow_right (n := 2) (by decide)
    (show 1 ≤ bitwidth.toNat by omega)
  have hsingle : ∀ v : ℕ, {n | n < 2 ^ bitwidth.toNat ∧ n = v} ≠
      ValueSets.below bitwidth.toNat := by
    intro v h
    have hzero : 0 ∈ {n | n < 2 ^ bitwidth.toNat ∧ n = v} := h ▸ Nat.two_pow_pos _
    have hone : 1 ∈ {n | n < 2 ^ bitwidth.toNat ∧ n = v} :=
      h ▸ (show 1 < 2 ^ bitwidth.toNat by omega)
    have := hzero.2.trans hone.2.symm
    omega
  cases w with
  | exact value => exact hsingle _
  | lpm value prefixLen =>
    have := hshaped.1
    have := hshaped.2.1
    exact ValueSets.block_ne_below (by omega)
  | ternary value mask => exact ValueSets.cube_ne_below hshaped.2.2.1 (le_maxValue.mp hshaped.2.1)
  | range low high =>
    have hhigh := le_maxValue.mp hshaped.1
    refine ValueSets.interval_ne_below ?_ hhigh
    rintro ⟨hlow, hwhole⟩
    refine hshaped.2.2 ⟨hlow, ?_⟩
    have hcast : (2 : ℤ) ^ bitwidth.toNat = ((2 ^ bitwidth.toNat : ℕ) : ℤ) := by norm_cast
    rw [maxValue, hcast]
    omega
  | optional value => exact hsingle _

/-- **What is accepted of a field has one spelling**: two fields of one kind that select the same
values say the same. -/
theorem numbers_eq_of_values_eq {w w' : Wire} {bitwidth : ℤ} (hkind : w.kind = w'.kind)
    (hshaped : w.Shaped bitwidth) (hshaped' : w'.Shaped bitwidth) (hfits : w.Fits bitwidth)
    (hfits' : w'.Fits bitwidth)
    (h : w.numbers.values bitwidth = w'.numbers.values bitwidth) : w.numbers = w'.numbers := by
  cases w with
  | exact v =>
    cases w' with
    | exact v' =>
      have hmem : Ipv4.ofBytes v ∈ (Wire.exact v').numbers.values bitwidth := h ▸ ⟨hfits, rfl⟩
      exact congrArg Numbers.exact hmem.2
    | _ => cases hkind
  | lpm v len =>
    cases w' with
    | lpm v' len' =>
      obtain ⟨hpos, hle, hdvd⟩ := hshaped
      obtain ⟨hpos', hle', hdvd'⟩ := hshaped'
      obtain ⟨hv, hlen⟩ := ValueSets.block_inj hdvd hdvd' (by omega) (by omega) hfits hfits' h
      obtain rfl : len = len' := by omega
      exact congrArg (Numbers.lpm · len) hv
    | _ => cases hkind
  | ternary v m =>
    cases w' with
    | ternary v' m' =>
      obtain ⟨hv, hm, -, hdiff⟩ := hshaped
      obtain ⟨hv', hm', -, hdiff'⟩ := hshaped'
      obtain ⟨hvalue, hmask⟩ := ValueSets.cube_inj hdiff hdiff' (le_maxValue.mp hm)
        (le_maxValue.mp hm') (le_maxValue.mp hv) (le_maxValue.mp hv') h
      exact congrArg₂ Numbers.ternary hvalue hmask
    | _ => cases hkind
  | range low high =>
    cases w' with
    | range low' high' =>
      obtain ⟨hhigh, hle, -⟩ := hshaped
      obtain ⟨hhigh', hle', -⟩ := hshaped'
      obtain ⟨hl, hh⟩ := ValueSets.interval_inj hle hle' (le_maxValue.mp hhigh)
        (le_maxValue.mp hhigh') h
      exact congrArg₂ Numbers.range hl hh
    | _ => cases hkind
  | optional v =>
    cases w' with
    | optional v' =>
      have hmem : Ipv4.ofBytes v ∈ (Wire.optional v').numbers.values bitwidth :=
        h ▸ ⟨le_maxValue.mp hshaped, rfl⟩
      exact congrArg Numbers.optional hmem.2
    | _ => cases hkind

/-! ### The parts of a match -/

/-- A table's fields are told apart by name, and by number. -/
structure Table.Proper (table : Table) : Prop where
  name : ∀ f ∈ table.matchFields, ∀ f' ∈ table.matchFields, f.name = f'.name → f = f'
  id : ∀ f ∈ table.matchFields, ∀ f' ∈ table.matchFields, f.id = f'.id → f = f'

/-- The fields that an entry says something of, each once, with what is accepted of it. -/
structure Parts (table : Table) (te : TableEntry) (ps : List (MatchField × Wire)) : Prop where
  fields : te.fields = ps.map fun q => ⟨q.1.id, some q.2⟩
  nodup : (ps.map Prod.fst).Nodup
  mem : ∀ q ∈ ps, q.1 ∈ table.matchFields
  kind : ∀ q ∈ ps, q.2.kind = q.1.matchType
  pos : ∀ q ∈ ps, 0 < q.1.bitwidth
  shaped : ∀ q ∈ ps, q.2.Shaped q.1.bitwidth

/-- The values of a field that an entry selects. -/
def valuesOf (ps : List (MatchField × Wire)) (f : MatchField) : Set ℕ :=
  match ps.lookup f with
  | none => ValueSets.below f.bitwidth.toNat
  | some w => w.numbers.values f.bitwidth

namespace Parts

variable {table : Table} {te : TableEntry} {ps : List (MatchField × Wire)}

theorem lookup_eq_some_iff (h : Parts table te ps) {f : MatchField} {w : Wire} :
    ps.lookup f = some w ↔ (f, w) ∈ ps :=
  Dict.lookup_eq_some_iff_mem h.nodup

theorem lookup_eq_none (h : Parts table te ps) {f : MatchField} (hf : f ∉ table.matchFields) :
    ps.lookup f = none := by
  cases hw : ps.lookup f with
  | none => rfl
  | some w => exact absurd (h.mem _ (h.lookup_eq_some_iff.mp hw)) hf

/-- **The packets of an entry are a product**, of the values of each field. -/
theorem packets_eq (htable : table.Proper) (h : Parts table te ps) :
    te.packets table = Set.pi {f | f ∈ table.matchFields} (valuesOf ps) := by
  ext p
  have hsays : (∀ fm ∈ te.fields, ∀ f ∈ table.matchFields, f.id = fm.fieldId →
      ∀ w, fm.wire = some w → w.numbers.Selects f.bitwidth (p f)) ↔
      ∀ f ∈ table.matchFields, ∀ w, ps.lookup f = some w →
        w.numbers.Selects f.bitwidth (p f) := by
    rw [h.fields]
    constructor
    · intro hall f hf w hw
      exact hall ⟨f.id, some w⟩ (List.mem_map.mpr ⟨(f, w), h.lookup_eq_some_iff.mp hw, rfl⟩) f hf rfl
        w rfl
    · intro hall fm hfm f hf hid w hw
      obtain ⟨q, hq, rfl⟩ := List.mem_map.mp hfm
      cases hw
      obtain rfl : f = q.1 := htable.id f hf q.1 (h.mem q hq) hid
      exact hall q.1 hf q.2 (h.lookup_eq_some_iff.mpr hq)
  constructor
  · rintro ⟨hbound, hsel⟩ f hf
    unfold valuesOf
    split
    · exact hbound f hf
    · next w hw => exact ⟨hbound f hf, hsays.mp hsel f hf w hw⟩
  · intro hp
    refine ⟨fun f hf => ?_, hsays.mpr fun f hf w hw => ?_⟩
    · have hmem := hp f hf
      unfold valuesOf at hmem
      split at hmem
      · exact hmem
      · exact hmem.1
    · have hmem := hp f hf
      rw [valuesOf, hw] at hmem
      exact hmem.2

/-- An entry selects some packet if all its values fit. -/
theorem packets_nonempty_iff (htable : table.Proper) (h : Parts table te ps) :
    te.packets table ≠ ∅ ↔ ∀ q ∈ ps, q.2.Fits q.1.bitwidth := by
  rw [packets_eq htable h, ← Set.nonempty_iff_ne_empty, Set.pi_nonempty_iff]
  constructor
  · intro hne q hq
    by_contra hfits
    obtain ⟨n, hn⟩ := hne q.1
    have hmem := hn (h.mem q hq)
    rw [valuesOf, h.lookup_eq_some_iff.mpr hq] at hmem
    simp only [values_eq_empty (h.shaped q hq) hfits] at hmem
    exact hmem
  · intro hfits f
    unfold valuesOf
    split
    · exact ⟨0, fun _ => Nat.two_pow_pos _⟩
    · next w hw =>
      have hq := h.lookup_eq_some_iff.mp hw
      obtain ⟨n, hn⟩ := nonempty_values (h.shaped _ hq) (hfits _ hq)
      exact ⟨n, fun _ => hn⟩

end Parts

/-- **Two entries that select the same packets, and some, say the same of each field.** -/
theorem numbers_eq_of_packets_eq {table : Table} (htable : table.Proper) {te te' : TableEntry}
    {ps ps' : List (MatchField × Wire)} (h : Parts table te ps) (h' : Parts table te' ps')
    (hne : te.packets table ≠ ∅) (heq : te.packets table = te'.packets table) (f : MatchField) :
    (ps.lookup f).map Wire.numbers = (ps'.lookup f).map Wire.numbers := by
  have hfits := (h.packets_nonempty_iff htable).mp hne
  have hfits' := (h'.packets_nonempty_iff htable).mp (heq ▸ hne)
  rw [h.packets_eq htable] at hne
  rw [h.packets_eq htable, h'.packets_eq htable, ValueSets.pi_eq_pi_iff hne] at heq
  cases hw : ps.lookup f with
  | none =>
    cases hw' : ps'.lookup f with
    | none => rfl
    | some w' =>
      have hq' := h'.lookup_eq_some_iff.mp hw'
      have hvalues := heq f (h'.mem _ hq')
      rw [valuesOf, valuesOf, hw, hw'] at hvalues
      exact absurd hvalues.symm (values_ne_below (h'.pos _ hq') (h'.shaped _ hq'))
  | some w =>
    have hq := h.lookup_eq_some_iff.mp hw
    have hvalues := heq f (h.mem _ hq)
    cases hw' : ps'.lookup f with
    | none =>
      rw [valuesOf, valuesOf, hw, hw'] at hvalues
      exact absurd hvalues (values_ne_below (h.pos _ hq) (h.shaped _ hq))
    | some w' =>
      have hq' := h'.lookup_eq_some_iff.mp hw'
      rw [valuesOf, valuesOf, hw, hw'] at hvalues
      refine congrArg some (numbers_eq_of_values_eq ?_ (h.shaped _ hq) (h'.shaped _ hq')
        (hfits _ hq) (hfits' _ hq') hvalues)
      exact (h.kind _ hq).trans (h'.kind _ hq').symm

/-- Two entries that say the same of each field select the same packets. -/
theorem packets_eq_of_numbers_eq {table : Table} (htable : table.Proper) {te te' : TableEntry}
    {ps ps' : List (MatchField × Wire)} (h : Parts table te ps) (h' : Parts table te' ps')
    (heq : ∀ f, (ps.lookup f).map Wire.numbers = (ps'.lookup f).map Wire.numbers) :
    te.packets table = te'.packets table := by
  rw [h.packets_eq htable, h'.packets_eq htable]
  refine Set.pi_congr rfl ?_
  intro f _
  have hf := heq f
  unfold valuesOf
  cases hw : ps.lookup f with
  | none =>
    cases hw' : ps'.lookup f with
    | none => rfl
    | some w' => rw [hw, hw'] at hf; cases hf
  | some w =>
    cases hw' : ps'.lookup f with
    | none => rw [hw, hw'] at hf; cases hf
    | some w' =>
      rw [hw, hw'] at hf
      have hnumbers : w.numbers = w'.numbers := Option.some.inj hf
      simp only [hnumbers]

/-! ### The key of a match -/

/-- What a key says of each field: its name, and the numbers of what is said of it. -/
def keyFields (ps : List (MatchField × Wire)) : List (String × Numbers) :=
  ps.map fun q => (q.1.name, q.2.numbers)

theorem isDontCare_of_shaped {w : Wire} {bitwidth : ℤ} (h : w.Shaped bitwidth) :
    isDontCare w = false := by
  cases w with
  | ternary value mask => exact decide_eq_false h.2.2.1
  | _ => rfl

/-- Tables are told apart by number, and so are the fields of each. -/
structure P4Info.Proper (info : P4Info) : Prop where
  id : ∀ t ∈ info.tables, ∀ t' ∈ info.tables, t.preamble.id = t'.preamble.id → t = t'
  table : ∀ t ∈ info.tables, t.Proper

/-- Sorted by name, two lists that have each name once are one if they have the same members. -/
theorem mergeSort_eq_iff {l l' : List (String × Numbers)} (hl : (l.map Prod.fst).Nodup)
    (hl' : (l'.map Prod.fst).Nodup) :
    l.mergeSort (fun a b => decide (a.1 ≤ b.1)) = l'.mergeSort (fun a b => decide (a.1 ≤ b.1)) ↔
      ∀ x, x ∈ l ↔ x ∈ l' := by
  constructor
  · intro h x
    rw [← List.mem_mergeSort, h, List.mem_mergeSort]
  · intro h
    have hperm : l.Perm l' :=
      (List.perm_ext_iff_of_nodup hl.of_map hl'.of_map).mpr h
    have htrans : ∀ a b c : String × Numbers, decide (a.1 ≤ b.1) = true → decide (b.1 ≤ c.1) = true →
        decide (a.1 ≤ c.1) = true := by
      intro a b c hab hbc
      exact decide_eq_true (String.le_trans (of_decide_eq_true hab) (of_decide_eq_true hbc))
    have htotal : ∀ a b : String × Numbers, (decide (a.1 ≤ b.1) || decide (b.1 ≤ a.1)) = true := by
      intro a b
      rcases String.le_total a.1 b.1 with hle | hle
      · simp [hle]
      · simp [hle]
    refine List.Perm.eq_of_pairwise ?_ (List.pairwise_mergeSort htrans htotal l)
      (List.pairwise_mergeSort htrans htotal l') ?_
    · intro a b ha hb hab hba
      have hkey : a.1 = b.1 :=
        String.le_antisymm (of_decide_eq_true hab) (of_decide_eq_true hba)
      rw [List.mem_mergeSort] at ha hb
      exact List.inj_on_of_nodup_map hl ha ((h b).mpr hb) hkey
    · exact (List.mergeSort_perm l _).trans (hperm.trans (List.mergeSort_perm l' _).symm)

section Keys

variable {info : P4Info} (hinfo : info.Proper) {table : Table} (ht : table ∈ info.tables)

include hinfo ht

/-- The name of a field is found by its number. -/
theorem matchFieldName_of_mem {f : MatchField} (hf : f ∈ table.matchFields) :
    matchFieldName info table.preamble.id f.id = some f.name := by
  rw [matchFieldName, Option.map_eq_some_iff]
  cases hfind : ((info.tables.filter fun t => t.preamble.id = table.preamble.id).flatMap
      Table.matchFields).find? fun f' => f'.id = f.id with
  | none =>
    exfalso
    rw [List.find?_eq_none] at hfind
    refine hfind f (List.mem_flatMap.mpr ⟨table, List.mem_filter.mpr ⟨ht, ?_⟩, hf⟩) ?_
    · simp
    · simp
  | some f' =>
    obtain ⟨t, ht', hmem⟩ := List.mem_flatMap.mp (List.mem_of_find?_eq_some hfind)
    obtain ⟨ht', heq⟩ := List.mem_filter.mp ht'
    obtain rfl : t = table := hinfo.id t ht' table ht (by simpa using heq)
    exact ⟨f', rfl, congrArg MatchField.name
      ((hinfo.table t ht).id f' hmem f hf (by simpa using List.find?_some hfind))⟩

/-- The match of an entry, by the names of its fields, in the order it has them. -/
theorem entries_matchAsDict {ps : List (MatchField × Wire)} (hnodup : (ps.map Prod.fst).Nodup)
    (hmem : ∀ q ∈ ps, q.1 ∈ table.matchFields) :
    (matchAsDict info table.preamble.id (ps.map fun q => ⟨q.1.id, some q.2⟩)).entries =
      ps.map fun q => (some q.1.name, q.2) := by
  have hlist : (ps.map fun q => (⟨q.1.id, some q.2⟩ : FieldMatch)).filterMap
      (fun m => m.wire.map fun w => (matchFieldName info table.preamble.id m.fieldId, w)) =
      ps.map fun q => (some q.1.name, q.2) := by
    rw [List.filterMap_map, ← List.filterMap_eq_map]
    refine List.filterMap_congr ?_
    intro q hq
    simp [matchFieldName_of_mem hinfo ht (hmem q hq)]
  rw [matchAsDict, hlist]
  refine Dict.entries_ofList ?_
  have hnames : (ps.map fun q => (some q.1.name, q.2)).map Prod.fst =
      (ps.map Prod.fst).map fun f => some f.name := by
    rw [List.map_map, List.map_map]
    rfl
  rw [hnames]
  refine List.Nodup.map_on ?_ hnodup
  intro f hf f' hf' heq
  obtain ⟨q, hq, rfl⟩ := List.mem_map.mp hf
  obtain ⟨q', hq', rfl⟩ := List.mem_map.mp hf'
  exact (hinfo.table table ht).name _ (hmem q hq) _ (hmem q' hq') (Option.some.inj heq)

/-- The fields of an entry as its key has them. -/
theorem normaliseMatch_of_parts {ps : List (MatchField × Wire)}
    (hnodup : (ps.map Prod.fst).Nodup) (hmem : ∀ q ∈ ps, q.1 ∈ table.matchFields)
    (hcare : ∀ q ∈ ps, isDontCare q.2 = false) :
    normaliseMatch (matchAsDict info table.preamble.id (ps.map fun q => ⟨q.1.id, some q.2⟩)) =
      (keyFields ps).mergeSort fun a b => decide (a.1 ≤ b.1) := by
  rw [normaliseMatch, entries_matchAsDict hinfo ht hnodup hmem, keyFields]
  have hall : (ps.map fun q => (some q.1.name, q.2)).filter (fun e => !isDontCare e.2) =
      ps.map fun q => (some q.1.name, q.2) := by
    rw [List.filter_eq_self]
    intro e he
    obtain ⟨q, hq, rfl⟩ := List.mem_map.mp he
    simp [hcare q hq]
  rw [hall, List.map_map]
  rfl

end Keys

theorem nodup_keyFields {table : Table} (htable : table.Proper) {te : TableEntry}
    {ps : List (MatchField × Wire)} (h : Parts table te ps) :
    ((keyFields ps).map Prod.fst).Nodup := by
  have hnames : (keyFields ps).map Prod.fst = (ps.map Prod.fst).map MatchField.name := by
    rw [keyFields, List.map_map, List.map_map]
    rfl
  rw [hnames]
  refine List.Nodup.map_on ?_ h.nodup
  intro f hf f' hf' heq
  obtain ⟨q, hq, rfl⟩ := List.mem_map.mp hf
  obtain ⟨q', hq', rfl⟩ := List.mem_map.mp hf'
  exact htable.name _ (h.mem q hq) _ (h.mem q' hq') heq

/-- **Two matches have one key if they say the same of each field.** -/
theorem mergeSort_keyFields_eq_iff {table : Table} (htable : table.Proper) {te te' : TableEntry}
    {ps ps' : List (MatchField × Wire)} (h : Parts table te ps) (h' : Parts table te' ps') :
    (keyFields ps).mergeSort (fun a b => decide (a.1 ≤ b.1)) =
        (keyFields ps').mergeSort (fun a b => decide (a.1 ≤ b.1)) ↔
      ∀ f, (ps.lookup f).map Wire.numbers = (ps'.lookup f).map Wire.numbers := by
  rw [mergeSort_eq_iff (nodup_keyFields htable h) (nodup_keyFields htable h')]
  -- a name stands for one field, and what is said of a field is in the list under its name
  have hmem : ∀ {te : TableEntry} {ps : List (MatchField × Wire)}, Parts table te ps →
      ∀ f ∈ table.matchFields, ∀ ns, (f.name, ns) ∈ keyFields ps ↔
        (ps.lookup f).map Wire.numbers = some ns := by
    intro te ps h f hf ns
    rw [keyFields, List.mem_map, Option.map_eq_some_iff]
    constructor
    · rintro ⟨q, hq, heq⟩
      obtain ⟨hname, hns⟩ := Prod.mk.inj heq
      obtain rfl : q.1 = f := htable.name _ (h.mem q hq) f hf hname
      exact ⟨q.2, h.lookup_eq_some_iff.mpr hq, hns⟩
    · rintro ⟨w, hw, rfl⟩
      exact ⟨(f, w), h.lookup_eq_some_iff.mp hw, rfl⟩
  constructor
  · intro hkeys f
    by_cases hf : f ∈ table.matchFields
    · ext ns
      rw [← hmem h f hf, ← hmem h' f hf]
      exact hkeys (f.name, ns)
    · rw [h.lookup_eq_none hf, h'.lookup_eq_none hf]
  · have hsub : ∀ {te te' : TableEntry} {ps ps' : List (MatchField × Wire)}, Parts table te ps →
        Parts table te' ps' → (∀ f, (ps.lookup f).map Wire.numbers =
          (ps'.lookup f).map Wire.numbers) → ∀ x ∈ keyFields ps, x ∈ keyFields ps' := by
      rintro te te' ps ps' h h' heq x hx
      obtain ⟨q, hq, rfl⟩ := List.mem_map.mp hx
      rw [hmem h' _ (h.mem q hq), ← heq, ← hmem h _ (h.mem q hq)]
      exact hx
    intro heq x
    exact ⟨hsub h h' heq x, hsub h' h (fun f => (heq f).symm) x⟩

/-! ### Entries that were built -/

/-- An entry that is built of a match that `shape_match` accepts; a default entry has none. -/
structure BuiltOf (table : Table) (m : Dict String (PyData F)) (te : TableEntry) : Prop where
  tableId : te.tableId = table.preamble.id
  unmatched : te.isDefaultAction = true → m.entries = []
  fields : ∃ types, buildMatch table m.entries te.isDefaultAction = .ok (te.fields, types)

/-- What a match says of a field: the numbers of what `shape_field` makes of it. -/
def said (table : Table) (m : Dict String (PyData F)) (f : MatchField) : Option Numbers :=
  (m.get? f.name).bind fun raw =>
    (shapeField (table.preamble.name ++ "." ++ f.name) f.matchType f.bitwidth raw).toOption.map
      Wire.numbers

/-- Bytes, for an exact or an lpm field, that stand for more than the field can hold. -/
def Oversize (f : MatchField) (raw : PyData F) : Prop :=
  ∃ bytes, 2 ^ f.bitwidth.toNat ≤ Ipv4.ofBytes bytes ∧
    ((f.matchType = .exact ∧ (raw = .bytes bytes ∨ raw = .list [.bytes bytes])) ∨
      (f.matchType = .lpm ∧ ∃ len, raw = .list [.bytes bytes, len]))

/-- A match none of whose values is too large for its field. -/
def Within (table : Table) (m : Dict String (PyData F)) : Prop :=
  ∀ f ∈ table.matchFields, ∀ raw, m.get? f.name = some raw → ¬ Oversize f raw

/-! ### Values that fit -/

theorem ofBytes_encodeInt {n bitwidth : ℤ} {raw : List ℕ}
    (h : encodeInt (F := F) n bitwidth = .ok raw) : Ipv4.ofBytes raw < 2 ^ bitwidth.toNat := by
  unfold encodeInt at h
  split at h
  · cases h
  next hneg =>
  split at h
  · cases h
  next hfits =>
  cases h
  have hlt : n.toNat < 2 ^ bitwidth.toNat := by
    rw [← le_maxValue]
    omega
  have hwidth : 2 ^ bitwidth.toNat ≤ 256 ^ byteWidth bitwidth := by
    rw [show (256 : ℕ) = 2 ^ 8 from rfl, ← Nat.pow_mul, byteWidth]
    exact Nat.pow_le_pow_right (by decide) (by omega)
  rw [Ipv4.ofBytes_toBytes (by omega)]
  exact hlt

theorem ofBytes_encodeMac {text : List Char} {bitwidth : ℤ} {raw : List ℕ}
    (h : encodeMac (F := F) text bitwidth = .ok raw) : Ipv4.ofBytes raw < 2 ^ bitwidth.toNat := by
  unfold encodeMac at h
  simp only at h
  split at h
  · cases h
  next hwidth =>
  split at h
  · cases h
  next hgroups =>
  split at h
  · next bytes hbytes =>
    cases h
    obtain ⟨hlt, hlen⟩ := PyBytes.fromhex_bytes _ hbytes
    -- six groups of two
    have htwelve : (Ipv4.split ':' text).flatten.length = 12 := by
      simp only [not_or, not_not, List.any_eq_true, not_exists, not_and, decide_eq_true_eq]
        at hgroups
      rw [List.length_flatten, List.map_congr_left (g := fun _ => 2) fun g hg => hgroups.2 g hg,
        List.map_const', List.sum_replicate_nat, hgroups.1]
    have hpow : 256 ^ raw.length ≤ 256 ^ 6 := Nat.pow_le_pow_right (by decide) (by omega)
    rw [not_not.mp hwidth]
    exact Nat.lt_of_lt_of_le (Ipv4.ofBytes_lt hlt) hpow
  · cases h

theorem ofBytes_encodeAddress {text : List Char} {bitwidth : ℤ} {raw : List ℕ}
    (h : encodeAddress (F := F) text bitwidth = .ok raw) :
    Ipv4.ofBytes raw < 2 ^ bitwidth.toNat := by
  unfold encodeAddress at h
  simp only at h
  split at h
  · cases h
  next hwidth =>
  split at h
  · cases h
  split at h
  · next bytes hbytes =>
    cases h
    have hlt := Ipv4.ofBytes_lt (Ipv4.aton_lt hbytes)
    rw [Ipv4.length_aton hbytes] at hlt
    rw [not_not.mp hwidth]
    exact hlt
  · cases h

/-- **A value that is encoded fits its field**, unless it was given as bytes. -/
theorem ofBytes_encodeValue_lt {v : PyData F} {bitwidth : ℤ} {raw : List ℕ}
    (h : encodeValue v bitwidth = .ok raw) :
    v = .bytes raw ∨ Ipv4.ofBytes raw < 2 ^ bitwidth.toNat := by
  unfold encodeValue at h
  split at h
  · cases h
  split at h
  · split at h
    · cases h
    · cases h
      exact .inl rfl
  · cases h
  · right
    unfold encodeText at h
    split at h
    · exact ofBytes_encodeMac h
    split at h
    · exact ofBytes_encodeAddress h
    split at h
    · exact ofBytes_encodeInt h
    · cases h
  · exact .inr (ofBytes_encodeInt h)
  · cases h

theorem single_ok {place kind : String} {raw v : PyData F} (h : single place kind raw = .ok v) :
    raw = v ∨ raw = .list [v] := by
  unfold single at h
  split at h
  · cases h
    exact .inr rfl
  · cases h
  · cases h
    exact .inl rfl

theorem pair_ok {place kind parts : String} {raw v w : PyData F}
    (h : pair place kind parts raw = .ok (v, w)) : raw = .list [v, w] := by
  unfold pair at h
  split at h
  · cases h
    rfl
  · cases h

theorem encodeValue_bytes {bytes raw : List ℕ} {bitwidth : ℤ}
    (h : encodeValue (F := F) (.bytes bytes) bitwidth = .ok raw) : raw = bytes := by
  unfold encodeValue at h
  split at h
  · cases h
  · simp only at h
    split at h
    · cases h
    · cases h
      rfl

/-- What is accepted of a field fits it, unless it was given as bytes that do not. -/
theorem fits_iff {place : String} {f : MatchField} {raw : PyData F} {w : Wire}
    (h : shapeField place f.matchType f.bitwidth raw = .ok w) :
    w.Fits f.bitwidth ↔ ¬ Oversize f raw := by
  have hkind := (shapeField_ok h).1
  -- of the three kinds whose values are checked there is nothing to say
  have hchecked : ∀ {kind : MatchType} {p : Prop}, kind = f.matchType → kind ≠ .exact →
      kind ≠ .lpm → p → (p ↔ ¬ Oversize f raw) := by
    rintro kind p rfl hexact hlpm hp
    refine iff_of_true hp ?_
    rintro ⟨bytes, -, ⟨h, -⟩ | ⟨h, -⟩⟩
    · exact hexact h
    · exact hlpm h
  cases w with
  | exact value =>
    rw [← hkind] at h
    obtain ⟨v, hv, h⟩ := Fallible.exists_of_bind_ok h
    obtain ⟨value', hvalue, h⟩ := Fallible.exists_of_bind_ok h
    cases h
    constructor
    · rintro hfits ⟨bytes, hbig, ⟨-, hraw⟩ | ⟨hlpm, -⟩⟩
      · have hbytes : v = .bytes bytes := by
          rcases hraw with rfl | rfl
          · cases hv
            rfl
          · cases hv
            rfl
        subst hbytes
        rw [← encodeValue_bytes hvalue] at hbig
        exact Nat.not_lt.mpr hbig hfits
      · rw [← hkind] at hlpm
        cases hlpm
    · intro hnot
      rcases ofBytes_encodeValue_lt hvalue with rfl | hlt
      · by_contra hbig
        exact hnot ⟨value, Nat.not_lt.mp hbig, .inl ⟨hkind.symm, single_ok hv⟩⟩
      · exact hlt
  | lpm value prefixLen =>
    rw [← hkind] at h
    obtain ⟨p, hp, h⟩ := Fallible.exists_of_bind_ok h
    obtain ⟨len, hlen, h⟩ := Fallible.exists_of_bind_ok h
    obtain ⟨value', hvalue, h⟩ := Fallible.exists_of_bind_ok h
    obtain ⟨_, hcheck, h⟩ := Fallible.exists_of_bind_ok h
    cases h
    obtain ⟨v, rawLen⟩ := p
    obtain rfl := pair_ok hp
    simp only at hvalue
    constructor
    · rintro hfits ⟨bytes, hbig, ⟨hexact, -⟩ | ⟨-, len, hraw⟩⟩
      · rw [← hkind] at hexact
        cases hexact
      · cases hraw
        rw [← encodeValue_bytes hvalue] at hbig
        exact Nat.not_lt.mpr hbig hfits
    · intro hnot
      rcases ofBytes_encodeValue_lt hvalue with rfl | hlt
      · by_contra hbig
        exact hnot ⟨value, Nat.not_lt.mp hbig, .inr ⟨hkind.symm, rawLen, rfl⟩⟩
      · exact hlt
  | ternary value mask => exact hchecked hkind nofun nofun trivial
  | range low high => exact hchecked hkind nofun nofun trivial
  | optional value => exact hchecked hkind nofun nofun trivial

/-- What an entry says of a field is what its match says of it. -/
def PartOf (table : Table) (m : Dict String (PyData F)) (ps : List (MatchField × Wire))
    (f : MatchField) : Prop :=
  (m.get? f.name = none ∧ ps.lookup f = none) ∨
    ∃ raw w, m.get? f.name = some raw ∧ ps.lookup f = some w ∧
      shapeField (table.preamble.name ++ "." ++ f.name) f.matchType f.bitwidth raw = .ok w

/-- The parts of an entry that was built, field by field. -/
theorem exists_parts {table : Table} (htable : table.Proper) {m : Dict String (PyData F)}
    {te : TableEntry} (h : BuiltOf table m te) :
    ∃ ps, Parts table te ps ∧ ∀ f ∈ table.matchFields, PartOf table m ps f := by
  obtain ⟨hall, -⟩ := buildMatch_eq_ok.mp h.fields
  have hsplit : List.Forall₂ (fun member fm => ∃ q : MatchField × Wire,
      (q.1 ∈ table.matchFields ∧ q.1.name = member.1 ∧
        shapeField (table.preamble.name ++ "." ++ member.1) q.1.matchType q.1.bitwidth member.2 =
          .ok q.2) ∧ (⟨q.1.id, some q.2⟩ : FieldMatch) = fm) m.entries te.fields := by
    refine hall.imp ?_
    intro member fm hfm
    obtain ⟨f, hf, w, hname, hshape, rfl⟩ := exists_of_buildsField htable.name hfm
    exact ⟨(f, w), ⟨hf, hname, hshape⟩, rfl⟩
  obtain ⟨ps, hps, hfields⟩ := Fallible.forall₂_split hsplit
  have hof : ∀ q ∈ ps, q.1 ∈ table.matchFields ∧ ∃ raw, m.get? q.1.name = some raw ∧
      shapeField (table.preamble.name ++ "." ++ q.1.name) q.1.matchType q.1.bitwidth raw =
        .ok q.2 := by
    intro q hq
    obtain ⟨member, hmember, hf, hname, hshape⟩ := Fallible.exists_mem_of_forall₂ hps hq
    rw [← hname] at hshape
    refine ⟨hf, member.2, (m.mem_entries_iff _ _).mp ?_, hshape⟩
    rw [hname]
    exact hmember
  have hnodup : (ps.map Prod.fst).Nodup := by
    have hnames : (ps.map Prod.fst).map MatchField.name = m.entries.map Prod.fst := by
      rw [List.map_map]
      exact Fallible.map_eq_of_forall₂ (hps.flip.imp fun q member hq => hq.2.1)
    exact List.Nodup.of_map MatchField.name (hnames ▸ m.nodup)
  have hparts : Parts table te ps := by
    refine ⟨?_, hnodup, fun q hq => (hof q hq).1, ?_, ?_, ?_⟩
    · have hmap := Fallible.map_eq_of_forall₂ (k := id) hfields
      rw [List.map_id] at hmap
      exact hmap.symm
    all_goals
      intro q hq
      obtain ⟨-, raw, -, hshape⟩ := hof q hq
      obtain ⟨hkind, hpos, hshaped⟩ := shapeField_ok hshape
    · exact hkind
    · exact hpos
    · exact hshaped
  refine ⟨ps, hparts, ?_⟩
  intro f hf
  cases hraw : m.get? f.name with
  | none =>
    refine .inl ⟨hraw, ?_⟩
    cases hw : ps.lookup f with
    | none => rfl
    | some w =>
      obtain ⟨-, raw, hsome, -⟩ := hof _ (hparts.lookup_eq_some_iff.mp hw)
      rw [hraw] at hsome
      cases hsome
  | some raw =>
    obtain ⟨q, hq, hmem, hname, hshape⟩ :=
      Fallible.exists_mem_of_forall₂ hps.flip ((m.mem_entries_iff _ _).mpr hraw)
    obtain rfl : q.1 = f := htable.name q.1 hmem f hf hname
    exact .inr ⟨raw, q.2, hraw, hparts.lookup_eq_some_iff.mpr hq, hshape⟩

/-- An entry that the writer builds is built of its match. -/
theorem builtOf_of_built {c : Client} {fl : Floats F} {spec : List (String × PyData F)}
    {name : String} {table : Table} {m : Dict String (PyData F)} {te : TableEntry}
    {types : List (String × MatchType)} (h : Built c fl spec name table m.entries te types) :
    BuiltOf table m te := by
  refine ⟨h.tableId, ?_, types, h.fields⟩
  intro hdefault
  have hcheck := h.unmatched
  rw [hdefault, checkDefault] at hcheck
  split at hcheck
  · cases hcheck
  · next hempty => simpa using hempty

theorem within_iff {table : Table} {m : Dict String (PyData F)} {te : TableEntry}
    {ps : List (MatchField × Wire)} (h : Parts table te ps)
    (hps : ∀ f ∈ table.matchFields, PartOf table m ps f) :
    Within table m ↔ ∀ q ∈ ps, q.2.Fits q.1.bitwidth := by
  constructor
  · intro hwithin q hq
    have hlookup := h.lookup_eq_some_iff.mpr hq
    rcases hps q.1 (h.mem q hq) with ⟨-, hnone⟩ | ⟨raw, w, hraw, hw, hshape⟩
    · rw [hlookup] at hnone
      cases hnone
    · obtain rfl : q.2 = w := Option.some.inj (hlookup.symm.trans hw)
      exact (fits_iff hshape).mpr (hwithin q.1 (h.mem q hq) raw hraw)
  · intro hfits f hf raw hraw
    rcases hps f hf with ⟨hnone, -⟩ | ⟨raw', w, hraw', hw, hshape⟩
    · rw [hraw] at hnone
      cases hnone
    · obtain rfl : raw' = raw := Option.some.inj (hraw'.symm.trans hraw)
      exact (fits_iff hshape).mp (hfits (f, w) (h.lookup_eq_some_iff.mp hw))

theorem said_eq {table : Table} {m : Dict String (PyData F)} {ps : List (MatchField × Wire)}
    {f : MatchField} (h : PartOf table m ps f) :
    said table m f = (ps.lookup f).map Wire.numbers := by
  rcases h with ⟨hraw, hw⟩ | ⟨raw, w, hraw, hw, hshape⟩
  · rw [said, hraw, hw]
    rfl
  · rw [said, hraw, hw, Option.bind_some, hshape]
    rfl

/-! ### Entries that were read back -/

/-- Bytes less some of the zeros they begin with. -/
def Strips (bytes bytes' : List ℕ) : Prop := ∃ n, bytes = List.replicate n 0 ++ bytes'

theorem ofBytes_of_strips {bytes bytes' : List ℕ} (h : Strips bytes bytes') :
    Ipv4.ofBytes bytes' = Ipv4.ofBytes bytes := by
  obtain ⟨n, rfl⟩ := h
  induction n with
  | zero => rfl
  | succ n ih => exact ih

/-- A match field less some of the zeros its values begin with. -/
inductive Wire.Strips : Wire → Wire → Prop where
  | exact {v v'} (h : P4Table.Strips v v') : Wire.Strips (.exact v) (.exact v')
  | lpm {v v'} (h : P4Table.Strips v v') (len : ℤ) : Wire.Strips (.lpm v len) (.lpm v' len)
  | ternary {v v' m m'} (h : P4Table.Strips v v') (hm : P4Table.Strips m m') :
    Wire.Strips (.ternary v m) (.ternary v' m')
  | range {l l' u u'} (h : P4Table.Strips l l') (hu : P4Table.Strips u u') :
    Wire.Strips (.range l u) (.range l' u')
  | optional {v v'} (h : P4Table.Strips v v') : Wire.Strips (.optional v) (.optional v')

theorem numbers_of_strips {w w' : Wire} (h : w.Strips w') : w'.numbers = w.numbers := by
  cases h with
  | exact h => rw [Wire.numbers, Wire.numbers, ofBytes_of_strips h]
  | lpm h len => rw [Wire.numbers, Wire.numbers, ofBytes_of_strips h]
  | ternary h hm => rw [Wire.numbers, Wire.numbers, ofBytes_of_strips h, ofBytes_of_strips hm]
  | range h hu => rw [Wire.numbers, Wire.numbers, ofBytes_of_strips h, ofBytes_of_strips hu]
  | optional h => rw [Wire.numbers, Wire.numbers, ofBytes_of_strips h]

theorem isDontCare_of_strips {w w' : Wire} (h : w.Strips w') : isDontCare w' = isDontCare w := by
  cases h with
  | ternary h hm => rw [isDontCare, isDontCare, ofBytes_of_strips hm]
  | _ => rfl

/-- An entry as the switch sends it back: its values may have lost leading zeros. -/
structure TableEntry.ReadBack (te te' : TableEntry) : Prop where
  tableId : te'.tableId = te.tableId
  priority : te'.priority = te.priority
  isDefaultAction : te'.isDefaultAction = te.isDefaultAction
  fields : List.Forall₂ (fun fm fm' => fm'.fieldId = fm.fieldId ∧
    Option.Rel Wire.Strips fm.wire fm'.wire) te.fields te'.fields

/-- **An entry that is read back has the key it was written with.** -/
theorem key_of_readBack {c : Client} (hinfo : c.p4info.Proper) {table : Table}
    (ht : table ∈ c.p4info.tables) {te te' : TableEntry} {ps : List (MatchField × Wire)}
    (hte : te.tableId = table.preamble.id) (h : Parts table te ps) (hread : te.ReadBack te') :
    te'.key c = te.key c := by
  have hback := hread.fields
  rw [h.fields, List.forall₂_map_left_iff] at hback
  have hsplit : List.Forall₂ (fun q fm' => ∃ q' : MatchField × Wire,
      (q'.1 = q.1 ∧ q.2.Strips q'.2) ∧ (⟨q'.1.id, some q'.2⟩ : FieldMatch) = fm') ps te'.fields := by
    refine hback.imp ?_
    intro q fm' hfm
    obtain ⟨id', wire'⟩ := fm'
    obtain ⟨hid, hwire⟩ := hfm
    cases hwire with
    | @some _ w' hstrips =>
      simp only at hid
      exact ⟨(q.1, w'), ⟨rfl, hstrips⟩, by rw [hid]⟩
  obtain ⟨ps', hps', hfields⟩ := Fallible.forall₂_split hsplit
  have hfields' : te'.fields = ps'.map fun q => ⟨q.1.id, some q.2⟩ := by
    have hmap := Fallible.map_eq_of_forall₂ (k := id) hfields
    rw [List.map_id] at hmap
    exact hmap.symm
  have hfst : ps'.map Prod.fst = ps.map Prod.fst :=
    Fallible.map_eq_of_forall₂ (hps'.flip.imp fun q' q hq => hq.1)
  have hkeys : keyFields ps' = keyFields ps :=
    Fallible.map_eq_of_forall₂ (hps'.flip.imp fun q' q hq => by
      rw [hq.1, numbers_of_strips hq.2])
  have hmem : ∀ q' ∈ ps', q'.1 ∈ table.matchFields ∧ isDontCare q'.2 = false := by
    intro q' hq'
    obtain ⟨q, hq, heq, hstrips⟩ := Fallible.exists_mem_of_forall₂ hps' hq'
    rw [heq, isDontCare_of_strips hstrips]
    exact ⟨h.mem q hq, isDontCare_of_shaped (h.shaped q hq)⟩
  rw [TableEntry.key, TableEntry.key, hread.tableId, hread.priority, hread.isDefaultAction, hte,
    hfields', h.fields, entryKey, entryKey,
    normaliseMatch_of_parts hinfo ht (hfst ▸ h.nodup) (fun q' hq' => (hmem q' hq').1)
      (fun q' hq' => (hmem q' hq').2),
    normaliseMatch_of_parts hinfo ht h.nodup h.mem
      (fun q hq => isDontCare_of_shaped (h.shaped q hq)), hkeys]

/-! ### Keys and packets -/

/-- The keys of two entries of a table agree if what they say of each field does. -/
theorem key_eq_iff {c : Client} (hinfo : c.p4info.Proper) {table : Table}
    (ht : table ∈ c.p4info.tables) {te te' : TableEntry} {ps ps' : List (MatchField × Wire)}
    (hte : te.tableId = table.preamble.id) (hte' : te'.tableId = table.preamble.id)
    (h : Parts table te ps) (h' : Parts table te' ps') (hpriority : te.priority = te'.priority)
    (hdefault : te.isDefaultAction = te'.isDefaultAction)
    (hnone : te.isDefaultAction = true → ps = [] ∧ ps' = []) :
    te.key c = te'.key c ↔
      ∀ f, (ps.lookup f).map Wire.numbers = (ps'.lookup f).map Wire.numbers := by
  rw [TableEntry.key, TableEntry.key, hte, hte', ← hpriority, ← hdefault, h.fields, h'.fields]
  cases hd : te.isDefaultAction with
  | true =>
    obtain ⟨rfl, rfl⟩ := hnone hd
    exact iff_of_true rfl fun _ => rfl
  | false =>
    rw [← mergeSort_keyFields_eq_iff (hinfo.table table ht) h h',
      ← normaliseMatch_of_parts hinfo ht h.nodup h.mem
        (fun q hq => isDontCare_of_shaped (h.shaped q hq)),
      ← normaliseMatch_of_parts hinfo ht h'.nodup h'.mem
        (fun q hq => isDontCare_of_shaped (h'.shaped q hq))]
    simp [entryKey]

/-- **One key for each set of packets.**  Two entries that are built of matches of one table, with
one priority, have the same key if and only if they select the same packets, and a key is the same
when the entry is read back, unless both matches give an exact or an lpm field bytes that are too
large for it, and do not say the same. -/
theorem key_eq_iff_packets_eq {c : Client} (hinfo : c.p4info.Proper) {table : Table}
    (ht : table ∈ c.p4info.tables) {m m' : Dict String (PyData F)} {te te' : TableEntry}
    (h : BuiltOf table m te) (h' : BuiltOf table m' te') (hpriority : te.priority = te'.priority)
    (hdefault : te.isDefaultAction = te'.isDefaultAction) :
    ((te.key c = te'.key c ↔ te.packets table = te'.packets table) ∧
        ∀ te₀, te.ReadBack te₀ → te₀.key c = te.key c) ↔
      Within table m ∨ Within table m' ∨ ∀ f ∈ table.matchFields, said table m f = said table m' f := by
  have htable := hinfo.table table ht
  obtain ⟨ps, hparts, hps⟩ := exists_parts htable h
  obtain ⟨ps', hparts', hps'⟩ := exists_parts htable h'
  have hnil : ∀ {m : Dict String (PyData F)} {te : TableEntry} {ps : List (MatchField × Wire)},
      BuiltOf table m te → Parts table te ps → te.isDefaultAction = true → ps = [] := by
    intro m te ps h hparts hd
    obtain ⟨hall, -⟩ := buildMatch_eq_ok.mp h.fields
    rw [h.unmatched hd, List.forall₂_nil_left_iff, hparts.fields, List.map_eq_nil_iff] at hall
    exact hall
  have hkey := key_eq_iff hinfo ht h.tableId h'.tableId hparts hparts' hpriority hdefault
    fun hd => ⟨hnil h hparts hd, hnil h' hparts' (hdefault ▸ hd)⟩
  have hsaid : (∀ f ∈ table.matchFields, said table m f = said table m' f) ↔
      te.key c = te'.key c := by
    rw [hkey]
    constructor
    · intro hsame f
      by_cases hf : f ∈ table.matchFields
      · rw [← said_eq (hps f hf), ← said_eq (hps' f hf)]
        exact hsame f hf
      · rw [hparts.lookup_eq_none hf, hparts'.lookup_eq_none hf]
    · intro hsame f hf
      rw [said_eq (hps f hf), said_eq (hps' f hf)]
      exact hsame f
  rw [within_iff hparts hps, within_iff hparts' hps', hsaid,
    ← hparts.packets_nonempty_iff htable, ← hparts'.packets_nonempty_iff htable]
  constructor
  · rintro ⟨hiff, -⟩
    -- if neither selects a packet, they select the same
    by_contra hnot
    rw [not_or, not_or, not_not, not_not] at hnot
    exact hnot.2.2 (hiff.mpr (hnot.1.trans hnot.2.1.symm))
  · intro hcases
    refine ⟨⟨fun heq => packets_eq_of_numbers_eq htable hparts hparts' (hkey.mp heq), fun heq => ?_⟩,
      fun te₀ hread => key_of_readBack hinfo ht h.tableId hparts hread⟩
    rcases hcases with hne | hne | hsame
    · exact hkey.mpr (numbers_eq_of_packets_eq htable hparts hparts' hne heq)
    · exact hkey.mpr (numbers_eq_of_packets_eq htable hparts hparts' (heq ▸ hne) heq)
    · exact hsame

/-- A table that matches a port, of nine bits. -/
def portTable : Table where
  preamble := ⟨33554433, "PkgIngress.ports", "ports"⟩
  matchFields := [
    { id := 1, name := "standard_metadata.ingress_port", bitwidth := 9, matchType := .exact }]
  agesEntries := false

/-- A switch with that table. -/
def portClient : Client := ⟨1, ⟨[portTable], []⟩⟩

/-- A match on the port. -/
def portMatch (v : PyData Empty) : Dict String (PyData Empty) :=
  ⟨[("standard_metadata.ingress_port", v)], by simp⟩

/-- The entry it is built as. -/
def portEntry (bytes : List ℕ) : TableEntry := ⟨33554433, [⟨1, some (.exact bytes)⟩], .none, 0, false, 0⟩

theorem portClient_proper : portClient.p4info.Proper := by
  refine ⟨by decide, ?_⟩
  intro t ht
  rw [List.mem_singleton.mp ht]
  exact ⟨by decide, by decide⟩

/-- Two ports, as a number and as bytes, are two entries. -/
theorem key_eq_iff_packets_eq_port :
    BuiltOf portTable (portMatch (.int 5)) (portEntry [0, 5]) ∧
    BuiltOf portTable (portMatch (.bytes [0, 6])) (portEntry [0, 6]) ∧
    (portEntry [0, 5]).packets portTable ≠ (portEntry [0, 6]).packets portTable := by
  have hint : BuiltOf portTable (portMatch (.int 5)) (portEntry [0, 5]) := ⟨rfl, nofun, _, rfl⟩
  have hbytes : BuiltOf portTable (portMatch (.bytes [0, 6])) (portEntry [0, 6]) :=
    ⟨rfl, nofun, _, rfl⟩
  have hwithin : Within portTable (portMatch (.int 5)) := by
    intro f hf raw hraw
    obtain rfl := List.mem_singleton.mp hf
    cases hraw
    rintro ⟨bytes, -, ⟨-, h | h⟩ | ⟨h, -⟩⟩ <;> cases h
  have hboth := (key_eq_iff_packets_eq portClient_proper List.mem_cons_self hint hbytes rfl rfl).mpr
    (.inl hwithin)
  refine ⟨hint, hbytes, ?_⟩
  intro heq
  exact absurd (hboth.1.mpr heq) (by decide +kernel)

/-- The bytes of 65535 and of 65534 are taken for a port of nine bits: two keys for two entries that
select no packet. -/
theorem oversize_not_key_eq_iff :
    BuiltOf portTable (portMatch (.bytes [255, 255])) (portEntry [255, 255]) ∧
    BuiltOf portTable (portMatch (.bytes [255, 254])) (portEntry [255, 254]) ∧
    ¬ ((portEntry [255, 255]).key portClient = (portEntry [255, 254]).key portClient ↔
      (portEntry [255, 255]).packets portTable = (portEntry [255, 254]).packets portTable) := by
  refine ⟨⟨rfl, nofun, _, rfl⟩, ⟨rfl, nofun, _, rfl⟩, ?_⟩
  intro hiff
  have hempty : ∀ bytes, 512 ≤ Ipv4.ofBytes bytes → (portEntry bytes).packets portTable = ∅ := by
    intro bytes hbig
    rw [Set.eq_empty_iff_forall_notMem]
    rintro p ⟨hbound, hsel⟩
    have hport := hsel _ List.mem_cons_self _ List.mem_cons_self rfl _ rfl
    have hlt := hbound _ List.mem_cons_self
    rw [show p _ = Ipv4.ofBytes bytes from hport] at hlt
    exact Nat.not_lt.mpr hbig hlt
  have hkeys := hiff.mpr ((hempty _ (by decide)).trans (hempty _ (by decide)).symm)
  exact absurd hkeys (by decide +kernel)

end NDTwin.P4Table
