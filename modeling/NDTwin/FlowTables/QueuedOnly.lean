import NDTwin.FlowTables.Accepted
import NDTwin.FlowTables.Conservation

/-!
# Only what is queued is written into the tables

The jobs of a batch and the entries that are written into the cached tables are two copies of one
request, and they are cut down in different places: deletes that are refused on P4 are taken out of
both, jobs for unknown switches are dropped from the queue alone.  The tables leave those out by a
rule of their own, since they are given no switch that the topology does not have.

Two requests that differ in such entries give their installs different tokens.  So documents are
compared with the tokens masked, and masking commutes with every edit.

## Main definitions

* `maskRow`, `maskTable`, `maskFlows`, `maskTokens` — documents up to the values of tokens.
* `isQueued`, `queuedOnly` — a request without the entries that are not queued.

## Main results

* `updateOpenFlowTables_mask` — **masking commutes with the edits of a batch.**
* `updateOpenFlowTables_filter` — **entries for unknown switches edit nothing.**
* `cache_queuedOnly` — **a batch leaves the tables that its queued entries alone would leave.**
-/

namespace NDTwin.FlowTables

open Fallible Json

variable {F : Type} (native : Native F)

/-! ### Documents up to tokens -/

/-- A row, or an entry, with the value of its token masked. -/
def maskRow : Json F → Json F
  | .obj fields => .obj (fields.map fun p => if p.1 = pendingTokenField then (p.1, .null) else p)
  | row => row

/-- A table with its rows masked. -/
def maskTable : Json F → Json F
  | .arr rows => .arr (rows.map maskRow)
  | .obj fields => .obj (fields.map fun p => (p.1, maskRow p.2))
  | v => v

/-- The tables of a switch, masked. -/
def maskFlows : Json F → Json F
  | .obj tables => .obj (tables.map fun p => (p.1, maskTable p.2))
  | flows => flows

/-- The cached document, masked. -/
def maskTokens (cache : Cache F) : Cache F :=
  cache.map fun sw => { sw with flows := maskFlows sw.flows }

/-- An edit, with what it leaves seen through a map. -/
def Edit.through {σ : Type} (m : σ → σ) (edit : Edit σ) : Edit σ := (m edit.1, edit.2)

/-! ### Members through a map of the values -/

section Members

variable {g : String → Json F → Json F}

theorem lookup_map_values (fields : List (String × Json F)) (name : String) :
    (fields.map fun p => (p.1, g p.1 p.2)).lookup name = (fields.lookup name).map (g name) := by
  induction fields with
  | nil => rfl
  | cons p fields ih =>
    obtain ⟨key, v⟩ := p
    rw [List.map_cons, List.lookup_cons, List.lookup_cons]
    by_cases hkey : name = key
    · subst hkey
      simp
    · have hne : (name == key) = false := beq_eq_false_iff_ne.mpr hkey
      rw [hne]
      exact ih

theorem put_map_values (key : String) (v : Json F) (fields : List (String × Json F)) :
    (put key v fields).map (fun p => (p.1, g p.1 p.2)) =
      put key (g key v) (fields.map fun p => (p.1, g p.1 p.2)) := by
  induction fields with
  | nil => rfl
  | cons p fields ih =>
    rw [put, List.map_cons, put]
    split_ifs with heq hlt
    · rfl
    · rfl
    · rw [List.map_cons, ih]

end Members

/-- What masking makes of a member. -/
def maskMember (name : String) (v : Json F) : Json F := if name = pendingTokenField then .null else v

theorem maskRow_obj (fields : List (String × Json F)) :
    maskRow (.obj fields) = .obj (fields.map fun p => (p.1, maskMember p.1 p.2)) := by
  rw [maskRow]
  congr 1
  refine List.map_congr_left ?_
  intro p _
  rw [maskMember]
  split_ifs with hname
  · rfl
  · rfl

/-- Masking hides nothing but tokens. -/
theorem find_maskRow {name : String} (hname : name ≠ pendingTokenField) (row : Json F) :
    (maskRow row).find name = row.find name := by
  cases row with
  | obj fields =>
    rw [maskRow_obj, find, find, lookup_map_values]
    cases fields.lookup name with
    | none => rfl
    | some v => simp [maskMember, hname]
  | _ => rfl

theorem valueInt_maskRow {name : String} (hname : name ≠ pendingTokenField) (row : Json F)
    (default : ℤ) :
    (maskRow row).valueInt native.cast name default = row.valueInt native.cast name default := by
  have hfind := find_maskRow hname row
  cases row with
  | obj fields =>
    rw [maskRow_obj] at hfind ⊢
    rw [find, find] at hfind
    rw [valueInt, valueInt, hfind]
  | _ => rfl

theorem value_maskRow {name : String} (hname : name ≠ pendingTokenField) (row default : Json F) :
    (maskRow row).value name default = row.value name default := by
  have hfind := find_maskRow hname row
  cases row with
  | obj fields =>
    rw [maskRow_obj] at hfind ⊢
    rw [find, find] at hfind
    rw [value, value, hfind]
  | _ => rfl

/-- Rows are identified without their tokens. -/
theorem extractKey_maskRow (row : Json F) : extractKey native (maskRow row) = extractKey native row := by
  rw [extractKey, extractKey, valueInt_maskRow native (by decide), valueInt_maskRow native (by decide),
    find_maskRow (by decide)]

theorem dpidOf_maskRow (e : Json F) : dpidOf native (maskRow e) = dpidOf native e := by
  have hname : "dpid" ≠ pendingTokenField := by decide
  have hfind := find_maskRow hname e
  cases e with
  | obj fields =>
    rw [maskRow_obj] at hfind ⊢
    rw [find, find] at hfind
    rw [dpidOf, dpidOf, at?, at?, hfind]
  | _ => rfl

/-- A member that is not the token is put in the same place. -/
theorem maskRow_put {key : String} (hkey : key ≠ pendingTokenField) (v : Json F)
    (fields : List (String × Json F)) :
    maskRow (.obj (put key v fields)) =
      .obj (put key v (fields.map fun p => (p.1, maskMember p.1 p.2))) := by
  rw [maskRow_obj, put_map_values, maskMember, if_neg hkey]

/-! ### Masking commutes with the edits -/

theorem newFlow_maskRow (e : Json F) :
    newFlow native (maskRow e) = (newFlow native e).map maskRow := by
  rw [newFlow, newFlow, valueInt_maskRow native (by decide), value_maskRow (by decide),
    value_maskRow (by decide), valueInt_maskRow native (by decide)]
  cases e with
  | obj fields =>
    cases (Json.obj fields).valueInt native.cast "priority" 0 with
    | error err => rfl
    | ok p =>
      cases (Json.obj fields).valueInt native.cast "table_id" 0 with
      | error err => rfl
      | ok t =>
        have htoken : (maskRow (.obj fields)).find pendingTokenField =
            (fields.lookup pendingTokenField).map fun _ => .null := by
          rw [maskRow_obj, find, lookup_map_values]
          cases fields.lookup pendingTokenField with
          | none => rfl
          | some v => simp [maskMember]
        simp only [value, bind, Except.bind, htoken]
        rw [find]
        cases fields.lookup pendingTokenField with
        | none => rfl
        | some v =>
          simp only [Option.map_some, pure, Except.pure, Except.map]
          rw [maskRow_obj, put_map_values]
          rfl
  | _ => rfl

theorem modifiedFlow_maskRow (e row : Json F) :
    modifiedFlow native e (maskRow row) = (modifiedFlow native e row).map maskRow := by
  cases row with
  | obj fields =>
    rw [maskRow_obj, modifiedFlow, modifiedFlow]
    cases e.valueInt native.cast "priority" 0 with
    | error err => rfl
    | ok p =>
      cases e.value "match" (.obj []) with
      | error err => rfl
      | ok m =>
        cases e.value "actions" (.arr []) with
        | error err => rfl
        | ok a =>
          simp only [bind, Except.bind, pure, Except.pure, Except.map]
          rw [maskRow_put (by decide), put_map_values, put_map_values]
          rfl
  | _ => rfl

theorem elements_maskTable (v : Json F) : (maskTable v).elements = v.elements.map maskRow := by
  cases v with
  | null => rfl
  | arr rows => rfl
  | obj fields =>
    show (fields.map _).map _ = (fields.map _).map _
    rw [List.map_map, List.map_map]
    rfl
  | _ => rfl

theorem pushFlow_mask (e v : Json F) :
    (pushFlow native e v).through maskTable = pushFlow native (maskRow e) (maskTable v) := by
  rw [pushFlow, pushFlow, newFlow_maskRow]
  cases newFlow native e with
  | error err => rfl
  | ok row =>
    cases v with
    | arr rows => simp [Edit.through, pushBack, maskTable, Except.map]
    | _ => rfl

theorem modifyRows_mask (e : Json F) (key : RowKey) (rows : List (Json F)) :
    (modifyRows native e key rows).through (List.map maskRow) =
      modifyRows native e key (rows.map maskRow) := by
  induction rows with
  | nil => rfl
  | cons row rows ih =>
    rw [List.map_cons, modifyRows, modifyRows, extractKey_maskRow, modifiedFlow_maskRow]
    cases extractKey native row with
    | error err => rfl
    | ok rowKey =>
      simp only
      split_ifs with hkey
      · cases modifiedFlow native e row with
        | error err => rfl
        | ok row' => rfl
      · rw [← ih]
        rfl

/-- The removal of rows, where what is removed does not depend on tokens. -/
theorem removeFrom_mask {pred : Json F → Except AccessError Bool}
    (hpred : ∀ row, pred (maskRow row) = pred row) (kept gap todo : List (Json F)) :
    Edit.through (List.map maskRow) (removeFrom pred kept gap todo) =
      removeFrom pred (kept.map maskRow) (gap.map maskRow) (todo.map maskRow) := by
  induction todo generalizing kept gap with
  | nil => rfl
  | cons row todo ih =>
    rw [List.map_cons]
    simp only [removeFrom, hpred]
    cases pred row with
    | error err => simp [Edit.through]
    | ok removed =>
      cases removed with
      | true =>
        simp only
        rw [ih, List.map_append]
        rfl
      | false =>
        cases gap with
        | nil =>
          simp only [List.map_nil]
          rw [ih, List.map_append]
          rfl
        | cons first gap =>
          simp only [List.map_cons]
          rw [ih, List.map_append, List.map_append]
          rfl

theorem maskTable_zip (fields : List (String × Json F)) (rows : List (Json F)) :
    maskTable (.obj ((fields.map Prod.fst).zip rows)) =
      .obj (((fields.map fun p => (p.1, maskRow p.2)).map Prod.fst).zip (rows.map maskRow)) := by
  rw [maskTable, List.map_map, List.zip_map_right]
  rfl

theorem modifyFlow_mask (e : Json F) (key : RowKey) (v : Json F) :
    (modifyFlow native e key v).through maskTable = modifyFlow native e key (maskTable v) := by
  have hrows := modifyRows_mask native e key v.elements
  rw [← elements_maskTable] at hrows
  rw [modifyFlow, modifyFlow, ← hrows]
  cases v with
  | arr rows => rfl
  | obj fields =>
    show (maskTable (.obj _), _) = _
    rw [maskTable_zip]
    rfl
  | _ => rfl

theorem removeIf_mask (pred : Json F → Except AccessError Bool)
    (hpred : ∀ row, pred (maskRow row) = pred row) (v : Json F) :
    Edit.through (List.map maskRow) (removeIf pred v.elements) =
      removeIf pred (maskTable v).elements := by
  rw [elements_maskTable]
  exact removeFrom_mask hpred [] [] v.elements

theorem deleteFlow_mask (key : RowKey) (v : Json F) :
    (deleteFlow native key v).through maskTable = deleteFlow native key (maskTable v) := by
  have hrows := removeIf_mask (fun row => do return decide ((← extractKey native row) = key))
    (fun row => by rw [extractKey_maskRow]) v
  cases v with
  | arr rows =>
    rw [deleteFlow, deleteFlow, ← hrows]
    · rfl
    · exact nofun
    · exact nofun
  | obj fields =>
    rw [deleteFlow, deleteFlow, ← hrows]
    · show (maskTable (.obj _), _) = _
      rw [maskTable_zip]
      rfl
    · exact nofun
    · exact nofun
  | _ => rfl

/-- An edit of the rows of a switch. -/
theorem withFlows_mask (isSwitch : ℕ → Bool) (dpid : ℕ) {edit edit' : Json F → Edit (Json F)}
    (hedit : ∀ v, (edit v).through maskTable = edit' (maskTable v)) (cache : Cache F) :
    (withFlows isSwitch dpid edit cache).through maskTokens =
      withFlows isSwitch dpid edit' (maskTokens cache) := by
  induction cache with
  | nil =>
    have hempty := hedit (.arr [])
    rw [maskTokens, List.map_nil, withFlows, withFlows]
    split_ifs with hswitch
    · rw [maskTable, List.map_nil] at hempty
      rw [← hempty]
      rfl
    · rfl
  | cons sw cache ih =>
    rw [maskTokens, List.map_cons, withFlows, withFlows]
    split_ifs with hdpid
    · cases hflows : sw.flows with
      | obj fields =>
        have hlookup : ((fields.map fun p => (p.1, maskTable p.2)).lookup (toString dpid)).getD .null =
            maskTable ((fields.lookup (toString dpid)).getD .null) := by
          rw [lookup_map_values (g := fun _ => maskTable)]
          cases fields.lookup (toString dpid) with
          | none => rfl
          | some v => rfl
        simp only [maskFlows, hlookup, ← hedit]
        show (_ :: _, _) = (_ :: _, _)
        simp only [maskFlows, put_map_values (g := fun _ => maskTable)]
        rfl
      | null =>
        have hnull := hedit .null
        simp only [maskFlows]
        rw [maskTable] at hnull
        rw [← hnull]
        rfl
        all_goals simp
      | _ => simp [maskFlows, Edit.through, maskTokens, hflows]
    · rw [maskTokens] at ih
      rw [← ih]
      rfl

/-! ### The batch, masked -/

theorem installOne_mask (isSwitch : ℕ → Bool) (e : Json F) (cache : Cache F) :
    (installOne native isSwitch e cache).through maskTokens =
      installOne native isSwitch (maskRow e) (maskTokens cache) := by
  rw [installOne, installOne, dpidOf_maskRow]
  cases dpidOf native e with
  | error err => rfl
  | ok dpid => exact withFlows_mask isSwitch dpid (pushFlow_mask native e) cache

theorem editByKey_mask (isSwitch : ℕ → Bool) {edit : Json F → RowKey → Json F → Edit (Json F)}
    (hedit : ∀ e key v, (edit e key v).through maskTable = edit e key (maskTable v)) (e : Json F)
    (cache : Cache F) :
    (editByKey native isSwitch edit e cache).through maskTokens =
      editByKey native isSwitch edit e (maskTokens cache) := by
  rw [editByKey, editByKey]
  cases dpidOf native e with
  | error err => rfl
  | ok dpid =>
    cases extractKey native e with
    | error err => rfl
    | ok key => exact withFlows_mask isSwitch dpid (hedit e key) cache

theorem editAll_through {σ ε : Type} {m : σ → σ} {n : ε → ε} {edit : ε → σ → Edit σ}
    (hedit : ∀ e s, (edit e s).through m = edit (n e) (m s)) (es : List ε) (s : σ) :
    (editAll edit es s).through m = editAll edit (es.map n) (m s) := by
  induction es generalizing s with
  | nil => rfl
  | cons e es ih =>
    rw [List.map_cons, editAll, editAll, ← hedit]
    obtain ⟨s', err⟩ := edit e s
    cases err with
    | none => exact ih s'
    | some err => rfl

/-- A batch with the tokens of its installs masked. -/
def Batch.mask (b : Batch F) : Batch F := { b with installs := b.installs.map maskRow }

/-- **Masking commutes with the edits of a batch.** -/
theorem updateOpenFlowTables_mask (isSwitch : ℕ → Bool) (b : Batch F) (cache : Cache F) :
    (updateOpenFlowTables native isSwitch b cache).through maskTokens =
      updateOpenFlowTables native isSwitch b.mask (maskTokens cache) := by
  have hmodify : ∀ e cache, (modifyOne native isSwitch e cache).through maskTokens =
      modifyOne native isSwitch (id e) (maskTokens cache) := fun e cache =>
    editByKey_mask native isSwitch (modifyFlow_mask native) e cache
  have hdelete : ∀ e cache, (deleteOne native isSwitch e cache).through maskTokens =
      deleteOne native isSwitch (id e) (maskTokens cache) := fun e cache =>
    editByKey_mask native isSwitch (fun _ key => deleteFlow_mask native key) e cache
  rw [updateOpenFlowTables, updateOpenFlowTables, Batch.mask,
    ← editAll_through (installOne_mask native isSwitch)]
  generalize editAll (installOne native isSwitch) b.installs cache = edited
  obtain ⟨cache₁, err⟩ := edited
  cases err with
  | some err => rfl
  | none =>
    have hmodifies := editAll_through hmodify b.modifies cache₁
    rw [List.map_id] at hmodifies
    simp only [Edit.through] at hmodifies ⊢
    rw [← hmodifies]
    generalize editAll (modifyOne native isSwitch) b.modifies cache₁ = edited
    obtain ⟨cache₂, err⟩ := edited
    cases err with
    | some err => rfl
    | none =>
      have hdeletes := editAll_through hdelete b.deletes cache₂
      rw [List.map_id] at hdeletes
      exact hdeletes

/-! ### Entries for unknown switches -/

section Unknown

variable {isSwitch : ℕ → Bool}

/-- Every switch of the document is one of the topology. -/
def AllKnown (isSwitch : ℕ → Bool) (cache : Cache F) : Prop := ∀ sw ∈ cache, isSwitch sw.dpid = true

theorem allKnown_withFlows (dpid : ℕ) (edit : Json F → Edit (Json F)) {cache : Cache F}
    (h : AllKnown isSwitch cache) : AllKnown isSwitch (withFlows isSwitch dpid edit cache).1 := by
  induction cache with
  | nil =>
    rw [withFlows]
    split_ifs with hswitch
    · intro sw hsw
      rw [List.mem_singleton.mp hsw]
      exact hswitch
    · exact h
  | cons sw cache ih =>
    have hhead : isSwitch sw.dpid = true := h sw List.mem_cons_self
    have htail : AllKnown isSwitch cache := fun sw' hsw' => h sw' (List.mem_cons_of_mem _ hsw')
    rw [withFlows]
    split_ifs with hdpid
    · cases sw.flows with
      | obj fields => exact List.forall_mem_cons.mpr ⟨hhead, htail⟩
      | null => exact List.forall_mem_cons.mpr ⟨hhead, htail⟩
      | _ => exact h
    · exact List.forall_mem_cons.mpr ⟨hhead, ih htail⟩

/-- The rows of a switch that is not there are nowhere. -/
theorem withFlows_unknown {dpid : ℕ} (hdpid : isSwitch dpid = false) (edit : Json F → Edit (Json F))
    {cache : Cache F} (h : AllKnown isSwitch cache) :
    withFlows isSwitch dpid edit cache = (cache, none) := by
  induction cache with
  | nil => rw [withFlows, if_neg (by simp [hdpid])]
  | cons sw cache ih =>
    have hne : sw.dpid ≠ dpid := by
      rintro rfl
      rw [h sw List.mem_cons_self] at hdpid
      cases hdpid
    rw [withFlows, if_neg hne, ih fun sw' hsw' => h sw' (List.mem_cons_of_mem _ hsw')]

/-- An entry names no switch of the topology. -/
def Unknown (isSwitch : ℕ → Bool) (e : Json F) : Prop :=
  ∀ dpid, dpidOf native e = .ok dpid → isSwitch dpid = false

theorem allKnown_installOne (e : Json F) {cache : Cache F} (h : AllKnown isSwitch cache) :
    AllKnown isSwitch (installOne native isSwitch e cache).1 := by
  rw [installOne]
  cases dpidOf native e with
  | error err => exact h
  | ok dpid => exact allKnown_withFlows dpid _ h

theorem installOne_unknown {e : Json F} (he : Unknown native isSwitch e) {cache : Cache F}
    (h : AllKnown isSwitch cache) : (installOne native isSwitch e cache).1 = cache := by
  rw [installOne]
  cases hdpid : dpidOf native e with
  | error err => rfl
  | ok dpid =>
    simp only
    rw [withFlows_unknown (he dpid hdpid) _ h]

theorem allKnown_editByKey (edit : Json F → RowKey → Json F → Edit (Json F)) (e : Json F)
    {cache : Cache F} (h : AllKnown isSwitch cache) :
    AllKnown isSwitch (editByKey native isSwitch edit e cache).1 := by
  rw [editByKey]
  cases dpidOf native e with
  | error err => exact h
  | ok dpid =>
    cases extractKey native e with
    | error err => exact h
    | ok key => exact allKnown_withFlows dpid _ h

theorem editByKey_unknown (edit : Json F → RowKey → Json F → Edit (Json F)) {e : Json F}
    (he : Unknown native isSwitch e) {cache : Cache F} (h : AllKnown isSwitch cache) :
    (editByKey native isSwitch edit e cache).1 = cache := by
  rw [editByKey]
  cases hdpid : dpidOf native e with
  | error err => rfl
  | ok dpid =>
    cases extractKey native e with
    | error err => rfl
    | ok key =>
      simp only
      rw [withFlows_unknown (he dpid hdpid) _ h]

end Unknown

theorem Edit.andThen_of_none {σ : Type} {first : Edit σ} (next : σ → Edit σ)
    (h : first.2 = none) : first.andThen next = next first.1 := by
  obtain ⟨s, err⟩ := first
  cases h
  rfl

/-- Edits that change nothing may be left out, where none of the edits throws. -/
theorem editAll_filter {σ ε : Type} {P : σ → Prop} {edit : ε → σ → Edit σ} (keep : ε → Bool)
    {es : List ε} (hkeeps : ∀ e s, P s → P (edit e s).1)
    (hskip : ∀ e ∈ es, keep e = false → ∀ s, P s → (edit e s).1 = s) {s : σ} (hs : P s)
    (h : (editAll edit es s).2 = none) : editAll edit (es.filter keep) s = editAll edit es s := by
  induction es generalizing s with
  | nil => rfl
  | cons e es ih =>
    have hstate := hkeeps e s hs
    have hsame := hskip e List.mem_cons_self
    have ih' : ∀ s, P s → (editAll edit es s).2 = none →
        editAll edit (es.filter keep) s = editAll edit es s := fun s =>
      ih fun e' he' => hskip e' (List.mem_cons_of_mem _ he')
    rw [editAll] at h ⊢
    cases hkeep : keep e with
    | true =>
      rw [List.filter_cons_of_pos hkeep, editAll]
      generalize edit e s = left at h hstate
      obtain ⟨s', err⟩ := left
      cases err with
      | none => exact ih' _ hstate h
      | some err => rfl
    | false =>
      rw [List.filter_cons_of_neg (by simp [hkeep])]
      have hs' := hsame hkeep s hs
      generalize edit e s = left at h hs'
      obtain ⟨s', err⟩ := left
      cases hs'
      cases err with
      | none => exact ih' _ hs h
      | some err => cases h

/-- A batch with the entries that pass a test. -/
def Batch.filter (keep : Json F → Bool) (b : Batch F) : Batch F :=
  ⟨b.installs.filter keep, b.modifies.filter keep, b.deletes.filter keep⟩

/-- **Entries for unknown switches edit nothing**: a batch that can be written leaves what it leaves
without them. -/
theorem updateOpenFlowTables_filter {isSwitch : ℕ → Bool} {keep : Json F → Bool} {b : Batch F}
    (hkeep : ∀ e, e ∈ b.installs ∨ e ∈ b.modifies ∨ e ∈ b.deletes → keep e = false →
      Unknown native isSwitch e) {cache : Cache F} (hcache : AllKnown isSwitch cache)
    (h : (updateOpenFlowTables native isSwitch b cache).2 = none) :
    updateOpenFlowTables native isSwitch (b.filter keep) cache =
      updateOpenFlowTables native isSwitch b cache := by
  have hinstall : ∀ e (cache : Cache F), AllKnown isSwitch cache →
      AllKnown isSwitch (installOne native isSwitch e cache).1 := fun e _ =>
    allKnown_installOne native e
  have hmodify : ∀ e (cache : Cache F), AllKnown isSwitch cache →
      AllKnown isSwitch (modifyOne native isSwitch e cache).1 := fun e _ =>
    allKnown_editByKey native _ e
  rw [updateOpenFlowTables_eq] at h
  obtain ⟨h₁, h⟩ := (Edit.andThen_snd _ _).mp h
  obtain ⟨h₂, h₃⟩ := (Edit.andThen_snd _ _).mp h
  have hcache₁ : AllKnown isSwitch (editAll (installOne native isSwitch) b.installs cache).1 :=
    editAll_keeps (fun e _ => hinstall e) hcache
  have hcache₂ := editAll_keeps (fun e (_ : e ∈ b.modifies) => hmodify e) hcache₁
  -- each array in turn, from a document that has known switches only
  have hinstalls := editAll_filter keep hinstall
    (fun e he hno _ => installOne_unknown native (hkeep e (.inl he) hno)) hcache h₁
  have hmodifies := editAll_filter keep hmodify
    (fun e he hno _ => editByKey_unknown native _ (hkeep e (.inr (.inl he)) hno)) hcache₁ h₂
  have hdeletes := editAll_filter keep (fun e _ => allKnown_editByKey native _ e)
    (fun e he hno _ => editByKey_unknown native _ (hkeep e (.inr (.inr he)) hno)) hcache₂ h₃
  rw [updateOpenFlowTables_eq, updateOpenFlowTables_eq]
  simp only [Batch.filter]
  rw [hinstalls, Edit.andThen_of_none _ h₁, Edit.andThen_of_none _ h₁, hmodifies,
    Edit.andThen_of_none _ h₂, Edit.andThen_of_none _ h₂]
  exact hdeletes

/-! ### The request without what is not queued -/

section Request

variable (kindOf : ℕ → Option SwitchKind)

/-- An entry names a switch of the topology. -/
def namesKnown (e : Json F) : Bool :=
  match e.find "dpid" with
  | some (.int n) => (kindOf n.toNat).isSome
  | _ => false

/-- A delete that is refused on P4. -/
def isRefused (e : Json F) : Bool :=
  (refusalOf native (fun dpid => kindOf dpid = some .bmv2) 0 e).isSome

/-- An entry of an array becomes a job: its switch is known, and it is no refused delete. -/
def isQueued (op : FlowOp) (e : Json F) : Bool :=
  namesKnown kindOf e && (op ≠ .delete || !isRefused native kindOf e)

/-- The array of an operation. -/
def FlowOp.field : FlowOp → String
  | .install => "install_flow_entries"
  | .modify => "modify_flow_entries"
  | .delete => "delete_flow_entries"

/-- The entries of an array that are queued; a member of another name is left as it is. -/
def keepQueued (name : String) (v : Json F) : Json F :=
  match v, [FlowOp.install, .modify, .delete].find? fun op => op.field = name with
  | .arr es, some op => .arr (es.filter (isQueued native kindOf op))
  | v, _ => v

/-- The same request without the entries that are not queued. -/
def queuedOnly : Json F → Json F
  | .obj fields => .obj (fields.map fun p => (p.1, keepQueued native kindOf p.1 p.2))
  | j => j

/-- The batch without the entries that are not queued. -/
def Batch.queuedOnly (b : Batch F) : Batch F :=
  ⟨b.installs.filter (isQueued native kindOf .install),
    b.modifies.filter (isQueued native kindOf .modify),
    b.deletes.filter (isQueued native kindOf .delete)⟩

theorem lookup_queuedOnly (op : FlowOp) (fields : List (String × Json F)) {es : List (Json F)}
    (h : (fields.lookup op.field).getD (.arr []) = .arr es) :
    ((fields.map fun p => (p.1, keepQueued native kindOf p.1 p.2)).lookup op.field).getD (.arr []) =
      .arr (es.filter (isQueued native kindOf op)) := by
  have hfind : ([FlowOp.install, .modify, .delete].find? fun op' => op'.field = op.field) = some op := by
    cases op with
    | install => decide
    | modify => decide
    | delete => decide
  rw [lookup_map_values]
  cases hlookup : fields.lookup op.field with
  | none =>
    rw [hlookup] at h
    cases h
    rfl
  | some v =>
    rw [hlookup] at h
    cases h
    show keepQueued native kindOf op.field (.arr es) = _
    simp only [keepQueued, hfind]

theorem readBatch_queuedOnly {j : Json F} {b : Batch F} (h : readBatch j = .ok b) :
    readBatch (queuedOnly native kindOf j) = .ok (b.queuedOnly native kindOf) := by
  cases j with
  | obj fields =>
    rw [readBatch] at h
    split at h
    · next installs modifies deletes hins hmods hdels =>
      cases h
      have h₁ := lookup_queuedOnly native kindOf .install fields hins
      have h₂ := lookup_queuedOnly native kindOf .modify fields hmods
      have h₃ := lookup_queuedOnly native kindOf .delete fields hdels
      simp only [FlowOp.field] at h₁ h₂ h₃
      rw [queuedOnly, readBatch, h₁, h₂, h₃]
      rfl
    · cases h
  | _ => cases h

theorem isSome_refusalOf (index : ℕ) (e : Json F) :
    (refusalOf native (fun dpid => kindOf dpid = some .bmv2) index e).isSome =
      isRefused native kindOf e := by
  rw [isRefused, refusalOf, refusalOf]
  split
  · split_ifs with hcond
    · rfl
    · rfl
  · rfl

/-- The deletes that are admitted are those that are not refused. -/
theorem refuse_fst (index : ℕ) (es : List (Json F)) :
    (refusePriorityDeletesP4CannotHonour native (fun dpid => kindOf dpid = some .bmv2) index es).1 =
      es.filter fun e => !isRefused native kindOf e := by
  induction es generalizing index with
  | nil => rfl
  | cons e es ih =>
    have hrefused := isSome_refusalOf native kindOf index e
    rw [refusePriorityDeletesP4CannotHonour]
    cases hrefusal : refusalOf native (fun dpid => kindOf dpid = some .bmv2) index e with
    | some refusal =>
      rw [hrefusal, Option.isSome_some] at hrefused
      rw [List.filter_cons_of_neg (by simp [← hrefused])]
      exact ih (index + 1)
    | none =>
      rw [hrefusal, Option.isSome_none] at hrefused
      rw [List.filter_cons_of_pos (by simp [← hrefused])]
      exact congrArg (e :: ·) (ih (index + 1))

theorem refuse_snd_eq_nil {es : List (Json F)} (h : ∀ e ∈ es, isRefused native kindOf e = false)
    (index : ℕ) :
    (refusePriorityDeletesP4CannotHonour native (fun dpid => kindOf dpid = some .bmv2) index
      es).2 = [] := by
  induction es generalizing index with
  | nil => rfl
  | cons e es ih =>
    have hrefused := isSome_refusalOf native kindOf index e
    rw [h e List.mem_cons_self, Option.isSome_eq_false_iff, Option.isNone_iff_eq_none] at hrefused
    rw [refusePriorityDeletesP4CannotHonour, hrefused]
    exact ih (fun e' he' => h e' (List.mem_cons_of_mem _ he')) (index + 1)

variable {kindOf} in
/-- The switch of a shaped entry is known, or the entry names none that is. -/
theorem namesKnown_eq {e : Json F} (he : Shaped e) {dpid : ℕ} (h : dpidOf native e = .ok dpid) :
    namesKnown kindOf e = (kindOf dpid).isSome := by
  rw [namesKnown, dpid_of_dpidOf he h]
  rfl

variable {kindOf} in
/-- A shaped entry that names no known switch names an unknown one. -/
theorem unknown_of_shaped {e : Json F} (he : Shaped e) (h : namesKnown kindOf e = false) :
    Unknown native (fun dpid => (kindOf dpid).isSome) e := by
  intro dpid hdpid
  exact (namesKnown_eq native he hdpid).symm.trans h

variable {kindOf} in
theorem unknown_maskRow {e : Json F} (he : Shaped e) (h : namesKnown kindOf (maskRow e) = false) :
    Unknown native (fun dpid => (kindOf dpid).isSome) (maskRow e) := by
  rw [namesKnown, find_maskRow (by decide)] at h
  intro dpid hdpid
  rw [dpidOf_maskRow] at hdpid
  exact unknown_of_shaped native he h dpid hdpid

/-! ### The batch without what is not queued -/

/-- The entry that an install is written into the tables as, with its token masked. -/
def stampedMask (e : Json F) : Json F :=
  match e with
  | .obj fields => maskRow (.obj (put pendingTokenField .null fields))
  | e => e

theorem map_maskRow_annotateInstalls {es : List (Json F)} (hobj : ∀ e ∈ es, e.isObj = true)
    (token : ℕ) : (annotateInstalls token es).1.map maskRow = es.map stampedMask := by
  induction es generalizing token with
  | nil => rfl
  | cons e es ih =>
    have ih' := ih fun e' he' => hobj e' (List.mem_cons_of_mem _ he')
    cases e with
    | obj fields =>
      have hmask : maskRow (.obj (put pendingTokenField (.int token) fields)) =
          stampedMask (.obj fields) := by
        rw [stampedMask, maskRow_obj, maskRow_obj, put_map_values, put_map_values, maskMember,
          maskMember]
        rfl
      rw [annotateInstalls, List.map_cons, List.map_cons, ih', hmask]
    | _ => cases hobj _ List.mem_cons_self

/-- A masked copy names the switch of its entry. -/
theorem find_stampedMask {name : String} (hname : name ≠ pendingTokenField) (e : Json F) :
    (stampedMask e).find name = e.find name := by
  cases e with
  | obj fields =>
    rw [stampedMask, find_maskRow hname]
    exact lookup_put_of_ne _ _ hname
  | _ => rfl

variable {native kindOf}

/-- Of two copies of an install that differ in their tokens, both become jobs or neither does. -/
theorem makeInstallJob_copy {e e₁ e₂ : Json F} (h₁ : StampedCopy e e₁) (h₂ : StampedCopy e e₂)
    (hobj₁ : e₁.isObj = true) (hobj₂ : e₂.isObj = true) {job : FlowJob F}
    (h : makeInstallJob native e₁ = .ok job) : ∃ job', makeInstallJob native e₂ = .ok job' := by
  obtain ⟨t, ht⟩ := h₂.2
  have hsame : ∀ name, name ≠ pendingTokenField → e₂.find name = e₁.find name := fun name hname =>
    (h₂.1 name hname).trans (h₁.1 name hname).symm
  cases e₁ with
  | obj fields₁ =>
    cases e₂ with
    | obj fields₂ =>
      have hsame' : ∀ name, name ≠ pendingTokenField →
          fields₂.lookup name = fields₁.lookup name := hsame
      obtain ⟨dpid, hdpid, h⟩ := exists_of_bind_ok h
      obtain ⟨p, hpriority, h⟩ := exists_of_bind_ok h
      obtain ⟨m, hmatch, h⟩ := exists_of_bind_ok h
      obtain ⟨a, hactions, h⟩ := exists_of_bind_ok h
      obtain ⟨idle, hidle, h⟩ := exists_of_bind_ok h
      have hdpid' : dpidOf native (.obj fields₂) = .ok dpid := by
        rw [← hdpid, dpidOf, dpidOf, at?, at?, hsame' _ (by decide)]
      have hpriority' : (Json.obj fields₂).valueInt native.cast "priority" 0 = .ok p := by
        rw [← hpriority, valueInt, valueInt, hsame' _ (by decide)]
      have hmatch' : (Json.obj fields₂).value "match" (.obj []) = .ok m := by
        rw [← hmatch, value, value, hsame' _ (by decide)]
      have hactions' : (Json.obj fields₂).value "actions" (.arr []) = .ok a := by
        rw [← hactions, value, value, hsame' _ (by decide)]
      have hidle' : (Json.obj fields₂).valueInt native.cast "idle_timeout" 0 = .ok idle := by
        rw [← hidle, valueInt, valueInt, hsame' _ (by decide)]
      have htoken : (Json.obj fields₂).value pendingTokenField (.int 0) = .ok (.int t) := by
        rw [find] at ht
        rw [value, ht]
        rfl
      rw [makeInstallJob, hdpid', hpriority', hmatch', hactions', hidle', htoken]
      exact ⟨_, rfl⟩
    | _ => cases hobj₂
  | _ => cases hobj₁

/-- A batch whose entries all become jobs for known switches is queued as it is. -/
theorem admitBatch_of_known {token : ℕ} {j : Json F} {b : Batch F} (hread : readBatch j = .ok b)
    (hproblems : shapeProblems native b = [])
    (hdels : ∀ e ∈ b.deletes, isRefused native kindOf e = false)
    {jobs : List (FlowJob F)}
    (hjobs : makeJobs native ⟨(annotateInstalls token b.installs).1, b.modifies, b.deletes⟩ = .ok jobs)
    (hknown : ∀ job ∈ jobs, (kindOf job.dpid).isSome = true) :
    (admitBatch native kindOf token j).1 = .ok ⟨jobs,
      ⟨(annotateInstalls token b.installs).1, b.modifies, b.deletes⟩, 0, [], []⟩ := by
  have hadmitted : (refusePriorityDeletesP4CannotHonour native (fun dpid => kindOf dpid = some .bmv2)
      0 b.deletes) = (b.deletes, []) := by
    refine Prod.ext ?_ (refuse_snd_eq_nil native kindOf hdels 0)
    rw [refuse_fst]
    exact List.filter_eq_self.mpr fun e he => by simp [hdels e he]
  have hnone : (jobs.filter fun job => !(kindOf job.dpid).isSome) = [] :=
    List.filter_eq_nil_iff.mpr fun job hjob => by simp [hknown job hjob]
  have hall : (jobs.filter fun job => (kindOf job.dpid).isSome) = jobs :=
    List.filter_eq_self.mpr hknown
  simp only [admitBatch, hread, hproblems, hadmitted, hjobs, partitionFlowBatchByKnownDpid, hnone,
    hall]
  simp

theorem shapeProblems_eq_nil {b : Batch F}
    (hins : ∀ e ∈ b.installs, describeFlowEntryShapeProblem native e .install = none)
    (hmods : ∀ e ∈ b.modifies, describeFlowEntryShapeProblem native e .modify = none)
    (hdels : ∀ e ∈ b.deletes, describeFlowEntryShapeProblem native e .delete = none) :
    shapeProblems native b = [] := by
  have hcollect : ∀ (op : FlowOp) (field : String) (es : List (Json F)) (index : ℕ),
      (∀ e ∈ es, describeFlowEntryShapeProblem native e op = none) →
      collectShapeProblems native op field index es = [] := by
    intro op field es
    induction es with
    | nil => exact fun _ _ => rfl
    | cons e es ih =>
      intro index h
      rw [collectShapeProblems, h e List.mem_cons_self]
      exact ih (index + 1) fun e' he' => h e' (List.mem_cons_of_mem _ he')
  rw [shapeProblems, hcollect _ _ _ 0 hins, hcollect _ _ _ 0 hmods, hcollect _ _ _ 0 hdels]
  rfl

/-- A job of an entry that is queued is for a known switch. -/
theorem known_of_jobs {op : FlowOp} {es : List (Json F)} {jobs : List (FlowJob F)}
    (h : List.Forall₂ (fun e job => ∀ index, JobOf ⟨op, index, e⟩ job) es jobs)
    (hes : ∀ e ∈ es, namesKnown kindOf e = true) :
    ∀ job ∈ jobs, (kindOf job.dpid).isSome = true := by
  intro job hjob
  obtain ⟨e, he, hof⟩ := exists_mem_of_forall₂ h hjob
  have hknown := hes e he
  rw [namesKnown, (hof 0).dpid] at hknown
  exact hknown

/-- Where the installs of some entries become jobs, those of fewer entries do. -/
theorem exists_installJobs {token : ℕ} {es es' : List (Json F)} (hsub : ∀ e ∈ es', e ∈ es)
    (hes : ∀ e ∈ es, describeFlowEntryShapeProblem native e .install = none)
    {jobs : List (FlowJob F)}
    (h : (annotateInstalls token es).1.mapM (makeInstallJob native) = .ok jobs) :
    ∃ jobs', (annotateInstalls token es').1.mapM (makeInstallJob native) = .ok jobs' := by
  have hes' : ∀ e ∈ es', describeFlowEntryShapeProblem native e .install = none :=
    fun e he => hes e (hsub e he)
  refine mapM_of_forall ?_
  intro e₂ he₂
  -- both arrays hold a stamped copy of the entry, and one of the two became a job
  obtain ⟨e, he, hcopy₂⟩ :=
    exists_mem_of_forall₂ (annotateInstalls_copies (isObj_of_shape hes') token) he₂
  obtain ⟨e₁, he₁, hcopy₁⟩ :=
    exists_mem_of_forall₂ (annotateInstalls_copies (isObj_of_shape hes) token).flip (hsub e he)
  obtain ⟨job, hjob⟩ := exists_of_mapM h he₁
  exact makeInstallJob_copy hcopy₁ hcopy₂ (isObj_of_shaped (annotated_shape token hes e₁ he₁).1)
    (isObj_of_shaped (annotated_shape token hes' e₂ he₂).1) hjob

theorem namesKnown_of_isQueued {op : FlowOp} {e : Json F}
    (h : isQueued native kindOf op e = true) : namesKnown kindOf e = true := by
  rw [isQueued, Bool.and_eq_true] at h
  exact h.1

theorem namesKnown_stampedMask (e : Json F) :
    namesKnown kindOf (stampedMask e) = isQueued native kindOf .install e := by
  rw [namesKnown, find_stampedMask (by decide)]
  simp [isQueued, namesKnown]

/-- **The request without what is not queued is queued**, and its entries for the tables are those
of the first one that name known switches, up to their tokens. -/
theorem admitBatch_queuedOnly {token : ℕ} {j : Json F} {admitted : Admitted F}
    (h : (admitBatch native kindOf token j).1 = .ok admitted) :
    ∃ admitted', (admitBatch native kindOf token (queuedOnly native kindOf j)).1 = .ok admitted' ∧
      admitted'.batch.mask = admitted.batch.mask.filter (namesKnown kindOf) := by
  obtain ⟨b, installs, modifies, deletes, hread, hproblems, hbatch, hinstalls, hmodifies, hdeletes,
    -, -, -, -⟩ := admitBatch_cases h
  obtain ⟨hins, hmods, hdels⟩ := shape_of_shapeProblems hproblems
  rw [hbatch] at hinstalls hmodifies hdeletes
  rw [refuse_fst] at hdeletes hbatch
  -- the entries that are left
  let b' := b.queuedOnly native kindOf
  have hins' : ∀ e ∈ b'.installs, describeFlowEntryShapeProblem native e .install = none :=
    fun e he => hins e (List.mem_filter.mp he).1
  have hmods' : ∀ e ∈ b'.modifies, describeFlowEntryShapeProblem native e .modify = none :=
    fun e he => hmods e (List.mem_filter.mp he).1
  have hdels' : ∀ e ∈ b'.deletes, describeFlowEntryShapeProblem native e .delete = none :=
    fun e he => hdels e (List.mem_filter.mp he).1
  have hunrefused : ∀ e ∈ b'.deletes, isRefused native kindOf e = false := by
    intro e he
    have hqueued := (List.mem_filter.mp he).2
    simp only [isQueued, Bool.and_eq_true] at hqueued
    simpa using hqueued.2
  -- each becomes a job, as it did before
  obtain ⟨installs', hinstalls'⟩ : ∃ jobs,
      (annotateInstalls token b'.installs).1.mapM (makeInstallJob native) = .ok jobs :=
    exists_installJobs (fun e he => (List.mem_filter.mp he).1) hins hinstalls
  obtain ⟨modifies', hmodifies'⟩ : ∃ jobs, b'.modifies.mapM (makeModifyJob native) = .ok jobs :=
    mapM_of_forall fun e he => exists_of_mapM hmodifies (List.mem_filter.mp he).1
  obtain ⟨deletes', hdeletes'⟩ : ∃ jobs, b'.deletes.mapM (makeDeleteJob native) = .ok jobs := by
    refine mapM_of_forall fun e he => exists_of_mapM hdeletes ?_
    exact List.mem_filter.mpr ⟨(List.mem_filter.mp he).1, by simp [hunrefused e he]⟩
  have hjobs' : makeJobs native ⟨(annotateInstalls token b'.installs).1, b'.modifies, b'.deletes⟩ =
      .ok (installs' ++ modifies' ++ deletes') := by
    rw [makeJobs, hinstalls', hmodifies', hdeletes']
    rfl
  have hall : ∀ job ∈ installs' ++ modifies' ++ deletes', (kindOf job.dpid).isSome = true := by
    have h₁ := known_of_jobs (jobsOf_installs hins' hinstalls')
      fun e he => namesKnown_of_isQueued (List.mem_filter.mp he).2
    have h₂ := known_of_jobs (jobsOf_mapM .modify hmodifies' fun e he job hjob =>
      jobOf_modify (hmods' e he) hjob) fun e he => namesKnown_of_isQueued (List.mem_filter.mp he).2
    have h₃ := known_of_jobs (jobsOf_mapM .delete hdeletes' fun e he job hjob =>
      jobOf_delete (hdels' e he) hjob) fun e he => namesKnown_of_isQueued (List.mem_filter.mp he).2
    intro job hjob
    rcases List.mem_append.mp hjob with hjob | hjob
    · exact (List.mem_append.mp hjob).elim (h₁ job) (h₂ job)
    · exact h₃ job hjob
  refine ⟨_, admitBatch_of_known (readBatch_queuedOnly native kindOf hread)
    (shapeProblems_eq_nil hins' hmods' hdels') hunrefused hjobs' hall, ?_⟩
  -- the entries for the tables
  rw [hbatch]
  simp only [Batch.mask, Batch.filter]
  rw [map_maskRow_annotateInstalls (isObj_of_shape hins'),
    map_maskRow_annotateInstalls (isObj_of_shape hins), List.filter_map, List.filter_filter]
  have hmasked : ∀ e : Json F, (namesKnown kindOf ∘ stampedMask) e = isQueued native kindOf .install e :=
    namesKnown_stampedMask
  have hmodified : ∀ e : Json F, namesKnown kindOf e = isQueued native kindOf .modify e := by
    intro e
    simp [isQueued]
  have hdeleted : ∀ e : Json F, (namesKnown kindOf e && !isRefused native kindOf e) =
      isQueued native kindOf .delete e := by
    intro e
    simp [isQueued]
  rw [funext hmasked, funext hdeleted, funext hmodified]
  rfl

end Request

/-! ### The cached view -/

/-- **Only what is queued is written into the tables.**  Where the switches of the document are all
in the topology and a batch is answered with 200, the same batch without the entries that are not
queued is answered with 200 too, and leaves the same document up to the tokens. -/
theorem cache_queuedOnly {native : Native F} {kindOf : ℕ → Option SwitchKind} {j : Json F}
    {desk desk' : Desk F} {reply : Response F}
    (hcache : ∀ sw ∈ desk.cache, (kindOf sw.dpid).isSome = true)
    (h : processFlowBatch native kindOf j desk = (.ok reply, desk')) (hstatus : reply.status = 200) :
    ∃ reply'' desk'', processFlowBatch native kindOf (queuedOnly native kindOf j) desk =
        (.ok reply'', desk'') ∧ reply''.status = 200 ∧
      maskTokens desk''.cache = maskTokens desk'.cache := by
  have hreply : (processFlowBatch native kindOf j desk).1 = .ok reply := by rw [h]
  have hdesk' : (processFlowBatch native kindOf j desk).2 = desk' := by rw [h]
  cases hentered : (admitBatch native kindOf desk.nextPendingToken j).1 with
  | error refusal =>
    -- no refusal has the status 200
    rw [(processFlowBatch_of_error hentered).2 reply hreply] at hstatus
    cases refusal with
    | _ => cases hstatus
  | ok admitted =>
    obtain ⟨hleft, hsaid⟩ := processFlowBatch_of_ok hentered
    obtain ⟨admitted', hentered', hbatch⟩ := admitBatch_queuedOnly hentered
    obtain ⟨hleft', hsaid'⟩ := processFlowBatch_of_ok hentered'
    have hwritten : (updateOpenFlowTables native (fun dpid => (kindOf dpid).isSome) admitted.batch
        desk.cache).2 = none := by
      rw [hreply] at hsaid
      split at hsaid
      · cases hsaid
      · assumption
    have hmask := updateOpenFlowTables_mask native (fun dpid => (kindOf dpid).isSome)
      admitted.batch desk.cache
    have hmask' := updateOpenFlowTables_mask native (fun dpid => (kindOf dpid).isSome)
      admitted'.batch desk.cache
    have hknown : AllKnown (fun dpid => (kindOf dpid).isSome) (maskTokens desk.cache) := by
      intro sw hsw
      obtain ⟨sw', hsw', rfl⟩ := List.mem_map.mp hsw
      exact hcache sw' hsw'
    have hshaped := admitBatch_ok hentered
    have hunknown : ∀ e, e ∈ admitted.batch.mask.installs ∨ e ∈ admitted.batch.mask.modifies ∨
        e ∈ admitted.batch.mask.deletes → namesKnown kindOf e = false →
        Unknown native (fun dpid => (kindOf dpid).isSome) e := by
      rintro e (he | he | he) hno
      · obtain ⟨e₀, he₀, rfl⟩ := List.mem_map.mp he
        exact unknown_maskRow native (hshaped.installs e₀ he₀) hno
      · exact unknown_of_shaped native (hshaped.modifies e he) hno
      · exact unknown_of_shaped native (hshaped.deletes e he) hno
    have hfilter := updateOpenFlowTables_filter native hunknown hknown (by rw [← hmask]; exact hwritten)
    rw [← hbatch, ← hmask, ← hmask'] at hfilter
    have hsame : maskTokens (updateOpenFlowTables native (fun dpid => (kindOf dpid).isSome)
        admitted'.batch desk.cache).1 = maskTokens (updateOpenFlowTables native
        (fun dpid => (kindOf dpid).isSome) admitted.batch desk.cache).1 :=
      congrArg Prod.fst hfilter
    have hwritten' : (updateOpenFlowTables native (fun dpid => (kindOf dpid).isSome)
        admitted'.batch desk.cache).2 = none :=
      (congrArg Prod.snd hfilter).trans hwritten
    rw [hwritten'] at hsaid'
    refine ⟨_, _, Prod.ext hsaid' hleft', rfl, ?_⟩
    rw [← hdesk', hleft]
    exact hsame

/-- One switch, which has been polled, and has a rule. -/
def polledDesk : Desk Empty :=
  { cache := [{ dpid := 1, flows := .obj [("1", .arr [countedRow])] }] }

/-- The mixed batch leaves the tables of switch 1 as its one queued install does: the token of the
row it puts is 1 either way, the tokens after it differ. -/
theorem cache_queuedOnly_mixed :
    ∃ desk', processFlowBatch noFloats oneBmv2 (.obj mixedFields) polledDesk =
        (.ok (.queued 1 1 1 [9] [⟨0, .int 1, .int 7⟩]), desk') ∧
      ∃ reply'' desk'', processFlowBatch noFloats oneBmv2
          (queuedOnly noFloats oneBmv2 (.obj mixedFields)) polledDesk = (.ok reply'', desk'') ∧
        reply''.status = 200 ∧ maskTokens desk''.cache = maskTokens desk'.cache := by
  refine ⟨_, rfl, cache_queuedOnly ?_ rfl rfl⟩
  intro sw hsw
  rw [List.mem_singleton.mp hsw]
  rfl

end NDTwin.FlowTables
