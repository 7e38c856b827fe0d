import NDTwin.FlowTables.Cache

/-!
# Batches that break the cached view

A batch is queued before its entries are written into the cached tables, and the writing may still
throw: at an entry whose fields cannot be read as numbers, at a cached table that is no array of
rows, at a row that cannot be identified.  The edits of different switches do not meet, so what
each needs can be said of the document and the batch before any of them is made.

## Main definitions

* `flowsAt` — the rows an edit of a switch finds.
* `appliedRows` — the rows of a switch after every entry of a batch.
* `Applies` — the update throws nothing and applies every entry.
* `Editable` — the condition on the document and the batch.

## Main results

* `withFlows_spec`, `editAll_withFlows` — **an edit touches the rows of its own switch only.**
* `newFlow_spec`, `modifiedFlow_spec` — an install puts a row with the key of its entry, and a
  modify changes no key.
* `editRows_spec` — **a batch on the rows of one switch.**
* `updateOpenFlowTables_applies_iff` — **exactly when a queued batch is applied.**
* `neverRead_not_applies` — a delete for a switch that has never been read throws.
-/

namespace NDTwin.FlowTables

open Json

variable {F : Type} (native : Native F) (isSwitch : ℕ → Bool)

/-! ### The rows of a switch -/

/-- The rows an edit of a switch finds: none for a switch nobody knows, and an exception where the
member that holds them cannot be made. -/
def flowsAt (dpid : ℕ) : Cache F → Option (Except AccessError (Json F))
  | [] => if isSwitch dpid then some (.ok (.arr [])) else none
  | sw :: cache =>
    if sw.dpid = dpid then
      some (match sw.flows with
        | .obj fields => .ok ((fields.lookup (toString dpid)).getD .null)
        | .null => .ok .null
        | _ => .error (.typeError 305))
    else flowsAt dpid cache

/-- What an edit needs of what it finds. -/
def Passes (edit : Json F → Edit (Json F)) : Option (Except AccessError (Json F)) → Prop
  | none => True
  | some (.error _) => False
  | some (.ok rows) => (edit rows).2 = none

/-- **An edit touches the rows of its own switch only**, and throws exactly when the edit of the
rows does, or there are none to be had. -/
theorem withFlows_spec (dpid : ℕ) (edit : Json F → Edit (Json F)) (cache : Cache F) :
    ((withFlows isSwitch dpid edit cache).2 = none ↔ Passes edit (flowsAt isSwitch dpid cache)) ∧
      ∀ d, flowsAt isSwitch d (withFlows isSwitch dpid edit cache).1 =
        if d = dpid then (flowsAt isSwitch d cache).map (Except.map fun rows => (edit rows).1)
        else flowsAt isSwitch d cache := by
  induction cache with
  | nil =>
    by_cases hsw : isSwitch dpid = true
    · simp only [withFlows, flowsAt, hsw, if_true]
      refine ⟨Iff.rfl, ?_⟩
      intro d
      by_cases hd : d = dpid
      · subst hd
        simp [hsw, Except.map]
      · simp [hd, Ne.symm hd]
    · simp only [withFlows, flowsAt, hsw, if_false, Bool.false_eq_true]
      refine ⟨by simp [Passes], ?_⟩
      intro d
      by_cases hd : d = dpid
      · subst hd
        simp [hsw]
      · simp [hd]
  | cons sw cache ih =>
    by_cases hsw : sw.dpid = dpid
    · -- the switch itself
      cases hflows : sw.flows with
      | obj fields =>
        simp only [withFlows, flowsAt, if_pos hsw, hflows]
        refine ⟨Iff.rfl, ?_⟩
        intro d
        by_cases hd : d = dpid
        · subst hd
          simp [hsw, lookup_put_self, Except.map]
        · have hne : sw.dpid ≠ d := fun h => hd (h.symm.trans hsw)
          simp [hd, hne]
      | null =>
        simp only [withFlows, flowsAt, if_pos hsw, hflows]
        refine ⟨Iff.rfl, ?_⟩
        intro d
        by_cases hd : d = dpid
        · subst hd
          simp [hsw, Except.map]
        · have hne : sw.dpid ≠ d := fun h => hd (h.symm.trans hsw)
          simp [hd, hne]
      | _ =>
        simp only [withFlows, flowsAt, if_pos hsw, hflows]
        refine ⟨by simp [Passes], ?_⟩
        intro d
        by_cases hd : d = dpid
        · subst hd
          simp [hsw, Except.map]
        · simp [hd]
    · obtain ⟨ih₁, ih₂⟩ := ih
      simp only [withFlows, flowsAt, if_neg hsw]
      refine ⟨ih₁, ?_⟩
      intro d
      by_cases hd : d = dpid
      · subst hd
        simp only [if_neg hsw, if_true]
        rw [ih₂]
        simp
      · by_cases hsd : sw.dpid = d
        · simp [hsd, hd]
        · simp only [if_neg hsd, if_neg hd]
          rw [ih₂, if_neg hd]

/-! ### Edits one after the other -/

section Edits

variable {native isSwitch} {ε : Type} {edit : ε → Json F → Edit (Json F)}

theorem editAll_cons {σ : Type} (step : ε → σ → Edit σ) (e : ε) (es : List ε) (s : σ) :
    (editAll step (e :: es) s).2 = none ↔
      (step e s).2 = none ∧ (editAll step es (step e s).1).2 = none := by
  rw [editAll]
  rcases h : step e s with ⟨s', err⟩
  cases err with
  | none => simp
  | some err => simp

theorem editAll_cons_fst {σ : Type} (step : ε → σ → Edit σ) {e : ε} {es : List ε} {s : σ}
    (h : (step e s).2 = none) : (editAll step (e :: es) s).1 = (editAll step es (step e s).1).1 := by
  rw [editAll]
  rcases hs : step e s with ⟨s', err⟩
  rw [hs] at h
  cases h
  rfl

/-- What edits that are made one after the other need of what they find. -/
def PassesAll (edit : ε → Json F → Edit (Json F)) (es : List ε) :
    Option (Except AccessError (Json F)) → Prop
  | none => True
  | some (.error _) => es = []
  | some (.ok rows) => (editAll edit es rows).2 = none

variable (isSwitch edit) in
/-- **Edits of many switches are edits of each of them**: nothing is thrown exactly when nothing is
thrown at any switch, by the edits that name it. -/
theorem editAll_withFlows (dpid : ε → ℕ) (es : List ε) (cache : Cache F) :
    ((editAll (fun e => withFlows isSwitch (dpid e) (edit e)) es cache).2 = none ↔
      ∀ d, PassesAll edit (es.filter fun e => dpid e = d) (flowsAt isSwitch d cache)) ∧
    ((editAll (fun e => withFlows isSwitch (dpid e) (edit e)) es cache).2 = none →
      ∀ d, flowsAt isSwitch d
          (editAll (fun e => withFlows isSwitch (dpid e) (edit e)) es cache).1 =
        (flowsAt isSwitch d cache).map
          (Except.map fun rows => (editAll edit (es.filter fun e => dpid e = d) rows).1)) := by
  induction es generalizing cache with
  | nil =>
    refine ⟨iff_of_true rfl fun d => ?_, fun _ d => ?_⟩
    · rcases flowsAt isSwitch d cache with _ | _ | rows
      · trivial
      · rfl
      · rfl
    · show flowsAt isSwitch d cache = _
      rcases flowsAt isSwitch d cache with _ | _ | rows
      · rfl
      · rfl
      · rfl
  | cons e es ih =>
    obtain ⟨hthrown, hrows⟩ := withFlows_spec isSwitch (dpid e) (edit e) cache
    obtain ⟨ih₁, ih₂⟩ := ih (withFlows isSwitch (dpid e) (edit e) cache).1
    have hstep : ∀ d, Passes (edit e) (flowsAt isSwitch (dpid e) cache) →
        (PassesAll edit ((e :: es).filter fun e => dpid e = d) (flowsAt isSwitch d cache) ↔
          PassesAll edit (es.filter fun e => dpid e = d)
            (flowsAt isSwitch d (withFlows isSwitch (dpid e) (edit e) cache).1)) := by
      intro d hpass
      rw [hrows d]
      by_cases hd : d = dpid e
      · subst hd
        rw [List.filter_cons_of_pos (by simp), if_pos rfl]
        rcases hat : flowsAt isSwitch (dpid e) cache with _ | err | rows
        · exact Iff.rfl
        · rw [hat] at hpass
          exact hpass.elim
        · rw [hat] at hpass
          show (editAll edit (e :: _) rows).2 = none ↔ (editAll edit _ (edit e rows).1).2 = none
          rw [editAll_cons]
          exact and_iff_right hpass
      · rw [List.filter_cons_of_neg (by simpa using Ne.symm hd), if_neg hd]
    have hfirst : (∀ d, PassesAll edit ((e :: es).filter fun e => dpid e = d)
        (flowsAt isSwitch d cache)) → Passes (edit e) (flowsAt isSwitch (dpid e) cache) := by
      intro hall
      have hself := hall (dpid e)
      rw [List.filter_cons_of_pos (by simp)] at hself
      rcases hat : flowsAt isSwitch (dpid e) cache with _ | err | rows
      · trivial
      · rw [hat] at hself
        cases hself
      · rw [hat] at hself
        exact ((editAll_cons edit e _ rows).mp hself).1
    constructor
    · rw [editAll_cons, hthrown, ih₁]
      constructor
      · rintro ⟨hpass, hrest⟩ d
        exact (hstep d hpass).mpr (hrest d)
      · intro hall
        exact ⟨hfirst hall, fun d => (hstep d (hfirst hall)).mp (hall d)⟩
    · intro hnone d
      obtain ⟨hpass, hrest⟩ := (editAll_cons _ e es cache).mp hnone
      rw [editAll_cons_fst (fun e => withFlows isSwitch (dpid e) (edit e)) hpass, ih₂ hrest d, hrows d]
      by_cases hd : d = dpid e
      · subst hd
        rw [List.filter_cons_of_pos (by simp), if_pos rfl]
        rcases hat : flowsAt isSwitch (dpid e) cache with _ | err | rows
        · rfl
        · rfl
        · rw [hthrown, hat] at hpass
          exact congrArg (fun rows => some (Except.ok rows)) (editAll_cons_fst edit hpass).symm
      · rw [List.filter_cons_of_neg (by simpa using Ne.symm hd), if_neg hd]

theorem editAll_congr {σ : Type} {step step' : ε → σ → Edit σ} {es : List ε}
    (h : ∀ e ∈ es, ∀ s, step e s = step' e s) (s : σ) : editAll step es s = editAll step' es s := by
  induction es generalizing s with
  | nil => rfl
  | cons e es ih =>
    have hrest := ih fun e' he' => h e' (List.mem_cons_of_mem _ he')
    rw [editAll, editAll, h e List.mem_cons_self]
    rcases step' e s with ⟨s', err⟩
    cases err with
    | none => exact hrest s'
    | some err => rfl

theorem exists_of_editAll {σ : Type} {step : ε → σ → Edit σ} {es : List ε} {s : σ}
    (h : (editAll step es s).2 = none) : ∀ e ∈ es, ∃ s', (step e s').2 = none := by
  induction es generalizing s with
  | nil => exact nofun
  | cons e es ih =>
    obtain ⟨hstep, hrest⟩ := (editAll_cons step e es s).mp h
    intro e' he'
    rcases List.mem_cons.mp he' with rfl | he'
    · exact ⟨s, hstep⟩
    · exact ih hrest e' he'

end Edits

/-! ### Pushing rows -/

/-- The row an install puts, where it can be made. -/
def newFlow? (e : Json F) : Option (Json F) := (newFlow native e).toOption

/-- A value that rows can be pushed to. -/
def Pushable (rows : Json F) : Prop := rows = .null ∨ ∃ xs, rows = .arr xs

theorem pushFlow_spec (e rows : Json F) :
    ((pushFlow native e rows).2 = none ↔ (∃ row, newFlow native e = .ok row) ∧ Pushable rows) ∧
      ((pushFlow native e rows).2 = none →
        (pushFlow native e rows).1 = .arr (rows.elements ++ (newFlow? native e).toList)) := by
  rw [pushFlow, newFlow?]
  cases hrow : newFlow native e with
  | error err => simp
  | ok row =>
    cases rows with
    | null => simp [pushBack, Pushable, elements, Except.toOption]
    | arr xs => simp [pushBack, Pushable, elements, Except.toOption]
    | _ => simp [pushBack, Pushable]

/-- **Pushing the rows of many installs.** -/
theorem editAll_pushFlow (es : List (Json F)) (rows : Json F) :
    ((editAll (pushFlow native) es rows).2 = none ↔
      es = [] ∨ (∀ e ∈ es, ∃ row, newFlow native e = .ok row) ∧ Pushable rows) ∧
    ((editAll (pushFlow native) es rows).2 = none → es ≠ [] →
      (editAll (pushFlow native) es rows).1 =
        .arr (rows.elements ++ es.filterMap (newFlow? native))) := by
  induction es generalizing rows with
  | nil => exact ⟨iff_of_true rfl (.inl rfl), fun _ h => absurd rfl h⟩
  | cons e es ih =>
    obtain ⟨hthrown, hleft⟩ := pushFlow_spec native e rows
    obtain ⟨ih₁, ih₂⟩ := ih (pushFlow native e rows).1
    constructor
    · rw [editAll_cons, hthrown, ih₁, or_iff_right (List.cons_ne_nil e es)]
      constructor
      · rintro ⟨⟨hrow, hpush⟩, hrest⟩
        refine ⟨?_, hpush⟩
        intro e' he'
        rcases List.mem_cons.mp he' with rfl | he'
        · exact hrow
        · rcases hrest with rfl | ⟨hrest, -⟩
          · cases he'
          · exact hrest e' he'
      · rintro ⟨hall, hpush⟩
        have hfirst := And.intro (hall e List.mem_cons_self) hpush
        refine ⟨hfirst, .inr ⟨fun e' he' => hall e' (List.mem_cons_of_mem _ he'), ?_⟩⟩
        rw [hleft (hthrown.mpr hfirst)]
        exact .inr ⟨_, rfl⟩
    · intro hnone _
      obtain ⟨hstep, hrest⟩ := (editAll_cons _ e es rows).mp hnone
      rw [editAll_cons_fst (pushFlow native) hstep]
      have hone := hleft hstep
      cases es with
      | nil =>
        show (pushFlow native e rows).1 = _
        rw [hone]
        cases hrow : newFlow? native e with
        | none => simp [hrow]
        | some row => simp [hrow]
      | cons e' es =>
        rw [ih₂ hrest (List.cons_ne_nil e' es), hone]
        cases hrow : newFlow? native e with
        | none => simp [elements, List.filterMap_cons, hrow]
        | some row => simp [elements, List.filterMap_cons, hrow]

/-! ### The keys of rows -/

/-- The key of a row, where it has one. -/
def keyOf? (row : Json F) : Option RowKey := (extractKey native row).toOption

theorem keyOf?_eq_some {row : Json F} {key : RowKey} :
    keyOf? native row = some key ↔ extractKey native row = .ok key := by
  rw [keyOf?]
  cases extractKey native row with
  | error err => simp [Except.toOption]
  | ok key' => simp [Except.toOption]

theorem keyOf?_of_not_isObj {row : Json F} (h : row.isObj = false) : keyOf? native row = none := by
  cases row with
  | obj fields => cases h
  | _ => rfl

/-- A row without a key comes after the first row with the key, if at all. -/
def Scannable (key : RowKey) (rows : List (Json F)) : Prop :=
  ∀ row ∈ rows.takeWhile fun row => keyOf? native row ≠ some key, (keyOf? native row).isSome = true

theorem scannable_iff (key : RowKey) (rows : List (Json F)) :
    Scannable native key rows ↔
      ∀ k ∈ (rows.map (keyOf? native)).takeWhile fun k => k ≠ some key, k.isSome = true := by
  rw [List.takeWhile_map]
  constructor
  · intro h k hk
    obtain ⟨row, hrow, rfl⟩ := List.mem_map.mp hk
    exact h row hrow
  · intro h row hrow
    exact h _ (List.mem_map.mpr ⟨row, hrow, rfl⟩)

theorem scannable_congr {key : RowKey} {rows rows' : List (Json F)}
    (h : rows'.map (keyOf? native) = rows.map (keyOf? native)) :
    Scannable native key rows' ↔ Scannable native key rows := by
  rw [scannable_iff, scannable_iff, h]

/-! ### Modifying rows -/

/-- The parts of a key that has been read. -/
theorem extractKey_eq_ok {e : Json F} {key : RowKey} (h : extractKey native e = .ok key) :
    e.valueInt native.cast "table_id" 0 = .ok key.tableId ∧
      e.valueInt native.cast "priority" 0 = .ok key.priority ∧
      matchKey native ((e.find "match").getD (.obj [])) = .ok (key.fk, key.dst, key.src) := by
  rw [extractKey] at h
  cases htable : e.valueInt native.cast "table_id" 0 with
  | error err => simp [htable, bind, Except.bind] at h
  | ok tableId =>
    cases hpriority : e.valueInt native.cast "priority" 0 with
    | error err => simp [htable, hpriority, bind, Except.bind] at h
    | ok priority =>
      cases hmatch : matchKey native ((e.find "match").getD (.obj [])) with
      | error err => simp [htable, hpriority, hmatch, bind, Except.bind] at h
      | ok m =>
        simp only [htable, hpriority, hmatch, bind, Except.bind, pure, Except.pure,
          Except.ok.injEq] at h
        subst h
        exact ⟨rfl, rfl, rfl⟩

theorem extractKey_of_parts {e : Json F} {key : RowKey}
    (htable : e.valueInt native.cast "table_id" 0 = .ok key.tableId)
    (hpriority : e.valueInt native.cast "priority" 0 = .ok key.priority)
    (hmatch : matchKey native ((e.find "match").getD (.obj [])) = .ok (key.fk, key.dst, key.src)) :
    extractKey native e = .ok key := by
  simp [extractKey, htable, hpriority, hmatch, bind, Except.bind, pure, Except.pure]

/-- The row a modify leaves, where it can be made. -/
def modifiedFlow? (e row : Json F) : Json F := ((modifiedFlow native e row).toOption).getD row

/-- **A modify changes no key**: the row it leaves has the key that named it. -/
theorem modifiedFlow_spec {e row : Json F} {key : RowKey} (he : Shaped e)
    (hkey : extractKey native e = .ok key) (hrow : extractKey native row = .ok key) :
    ∃ row', modifiedFlow native e row = .ok row' ∧ extractKey native row' = .ok key := by
  obtain ⟨-, hpriority, hmatch⟩ := extractKey_eq_ok native hkey
  obtain ⟨htable, -, -⟩ := extractKey_eq_ok native hrow
  cases row with
  | obj fields =>
    obtain ⟨efields, rfl, -⟩ := id he
    refine ⟨.obj (put "actions" ((efields.lookup "actions").getD (.arr []))
      (put "match" ((efields.lookup "match").getD (.obj []))
        (put "priority" (.int key.priority) fields))), ?_, ?_⟩
    · simp only [modifiedFlow, hpriority, value, bind, Except.bind, pure, Except.pure]
    refine extractKey_of_parts native ?_ ?_ ?_
    · rw [valueInt] at htable ⊢
      rw [lookup_put_of_ne _ _ (by decide), lookup_put_of_ne _ _ (by decide),
        lookup_put_of_ne _ _ (by decide)]
      exact htable
    · rw [valueInt, lookup_put_of_ne _ _ (by decide), lookup_put_of_ne _ _ (by decide),
        lookup_put_self]
      show Except.ok _ = _
      rw [valueInt_roundtrip hpriority]
    · rw [find, lookup_put_of_ne _ _ (by decide), lookup_put_self]
      exact hmatch
  | _ => cases htable

/-- The rows with the first one of a key replaced. -/
def replaceKeyed (e : Json F) (key : RowKey) : List (Json F) → List (Json F)
  | [] => []
  | row :: rows =>
    if keyOf? native row = some key then modifiedFlow? native e row :: rows
    else row :: replaceKeyed e key rows

/-- **The loop of a modify**: it throws exactly when it meets a row without a key before one with
the key it looks for, and changes no row's key. -/
theorem modifyRows_spec {e : Json F} {key : RowKey} (he : Shaped e)
    (hkey : extractKey native e = .ok key) (rows : List (Json F)) :
    ((modifyRows native e key rows).2 = none ↔ Scannable native key rows) ∧
      (modifyRows native e key rows).1.map (keyOf? native) = rows.map (keyOf? native) ∧
      ((modifyRows native e key rows).2 = none →
        (modifyRows native e key rows).1 = replaceKeyed native e key rows) := by
  induction rows with
  | nil => exact ⟨iff_of_true rfl nofun, rfl, fun _ => rfl⟩
  | cons row rows ih =>
    obtain ⟨ih₁, ih₂, ih₃⟩ := ih
    cases hrow : extractKey native row with
    | error err =>
      have hnone : keyOf? native row = none := by rw [keyOf?, hrow]; rfl
      have hrows : modifyRows native e key (row :: rows) = (row :: rows, some err) := by
        simp only [modifyRows, hrow]
      rw [hrows]
      refine ⟨iff_of_false nofun ?_, rfl, nofun⟩
      intro h
      have := h row (by simp [hnone])
      rw [hnone] at this
      cases this
    | ok rowKey =>
      have hsome : keyOf? native row = some rowKey := (keyOf?_eq_some native).mpr hrow
      by_cases hsame : rowKey = key
      · subst hsame
        obtain ⟨row', hmod, hrow'⟩ := modifiedFlow_spec native he hkey hrow
        have hrows : modifyRows native e rowKey (row :: rows) = (row' :: rows, none) := by
          simp only [modifyRows, hrow, if_true, hmod]
        rw [hrows]
        refine ⟨iff_of_true rfl ?_, ?_, fun _ => ?_⟩
        · intro r hr
          simp [hsome] at hr
        · rw [List.map_cons, List.map_cons, (keyOf?_eq_some native).mpr hrow', hsome]
        · rw [replaceKeyed, if_pos hsome, modifiedFlow?, hmod]
          rfl
      · have hne : keyOf? native row ≠ some key := by
          rw [hsome]
          simpa using hsame
        have hrows : modifyRows native e key (row :: rows) =
            (row :: (modifyRows native e key rows).1, (modifyRows native e key rows).2) := by
          simp only [modifyRows, hrow, if_neg hsame]
        rw [hrows]
        refine ⟨?_, ?_, ?_⟩
        · rw [ih₁, Scannable, Scannable, List.takeWhile_cons_of_pos (by simpa using hne)]
          simp [hsome]
        · rw [List.map_cons, List.map_cons, ih₂]
        · intro hnone
          rw [replaceKeyed, if_neg hne, ih₃ hnone]

/-- A value that is iterated over by its parts. -/
def IsContainer (rows : Json F) : Prop :=
  rows = .null ∨ (∃ xs, rows = .arr xs) ∨ ∃ fields, rows = .obj fields

theorem elements_withElements {rows : Json F} (h : IsContainer rows) {xs : List (Json F)}
    (hlen : xs.length ≤ rows.elements.length) : (rows.withElements xs).elements = xs := by
  rcases h with rfl | ⟨ys, rfl⟩ | ⟨fields, rfl⟩
  · have hnil : xs = [] := List.eq_nil_of_length_eq_zero (Nat.le_zero.mp hlen)
    subst hnil
    rfl
  · rfl
  · simp only [elements, List.length_map] at hlen
    simp only [withElements, elements]
    rw [List.map_snd_zip (by simpa using hlen)]

theorem withElements_eq_null {rows : Json F} (h : IsContainer rows) (xs : List (Json F))
    (hlen : xs.length ≤ rows.elements.length) : rows.withElements xs = .null ↔ rows = .null := by
  rcases h with rfl | ⟨ys, rfl⟩ | ⟨fields, rfl⟩
  · have hnil : xs = [] := List.eq_nil_of_length_eq_zero (Nat.le_zero.mp hlen)
    subst hnil
    simp [withElements]
  · simp [withElements]
  · simp [withElements]

/-- A value that is not a container is iterated over as itself, and has no key. -/
theorem isContainer_or (rows : Json F) :
    IsContainer rows ∨ (rows.elements = [rows] ∧ rows.isObj = false ∧ rows ≠ .null ∧
      rows.withElements [rows] = rows) := by
  cases rows with
  | null => exact .inl (.inl rfl)
  | arr xs => exact .inl (.inr (.inl ⟨xs, rfl⟩))
  | obj fields => exact .inl (.inr (.inr ⟨fields, rfl⟩))
  | _ => exact .inr ⟨rfl, rfl, nofun, rfl⟩

/-- **A modify of the rows of a switch.** -/
theorem modifyFlow_spec {e : Json F} {key : RowKey} (he : Shaped e)
    (hkey : extractKey native e = .ok key) (rows : Json F) :
    ((modifyFlow native e key rows).2 = none ↔ Scannable native key rows.elements) ∧
      (modifyFlow native e key rows).1.elements.map (keyOf? native) =
        rows.elements.map (keyOf? native) ∧
      ((modifyFlow native e key rows).2 = none →
        (modifyFlow native e key rows).1.elements = replaceKeyed native e key rows.elements) ∧
      ((modifyFlow native e key rows).1 = .null ↔ rows = .null) := by
  obtain ⟨hthrown, hkeys, hleft⟩ := modifyRows_spec native he hkey rows.elements
  have heq : modifyFlow native e key rows =
      (rows.withElements (modifyRows native e key rows.elements).1,
        (modifyRows native e key rows.elements).2) := rfl
  rw [heq]
  rcases isContainer_or rows with hcont | ⟨helem, hobj, hnull, hself⟩
  · have hlen : (modifyRows native e key rows.elements).1.length ≤ rows.elements.length := by
      rw [← List.length_map (keyOf? native), hkeys, List.length_map]
    refine ⟨hthrown, ?_, ?_, withElements_eq_null hcont _ hlen⟩
    · rw [elements_withElements hcont hlen, hkeys]
    · rw [elements_withElements hcont hlen]
      exact hleft
  · -- the loop throws at the value itself, and leaves it
    have hnone : keyOf? native rows = none := keyOf?_of_not_isObj native hobj
    have hrow : ∃ err, extractKey native rows = .error err := by
      cases hrow : extractKey native rows with
      | error err => exact ⟨err, rfl⟩
      | ok k => rw [keyOf?, hrow] at hnone; cases hnone
    obtain ⟨err, hrow⟩ := hrow
    have hloop : modifyRows native e key rows.elements = ([rows], some err) := by
      rw [helem, modifyRows]
      simp only [hrow]
    rw [hloop] at hthrown ⊢
    rw [hself]
    refine ⟨hthrown, rfl, nofun, Iff.rfl⟩

/-- An edit by the key of its entry, which throws where the entry has none. -/
def keyedEdit (edit : Json F → RowKey → Json F → Edit (Json F)) (e rows : Json F) : Edit (Json F) :=
  match extractKey native e with
  | .error err => (rows, some err)
  | .ok key => edit e key rows

theorem keyedEdit_of_ok {edit : Json F → RowKey → Json F → Edit (Json F)} {e : Json F}
    {key : RowKey} (h : extractKey native e = .ok key) (rows : Json F) :
    keyedEdit native edit e rows = edit e key rows := by
  simp only [keyedEdit, h]

/-- The rows after a modify. -/
def applyModify (rows : List (Json F)) (e : Json F) : List (Json F) :=
  match keyOf? native e with
  | some key => replaceKeyed native e key rows
  | none => rows

/-- **Many modifies of the rows of a switch** each need to find their row among the rows that are
there, whose keys none of them changes. -/
theorem editAll_modifyFlow {es : List (Json F)} (hes : ∀ e ∈ es, Shaped e) (rows : Json F) :
    ((editAll (keyedEdit native (modifyFlow native)) es rows).2 = none ↔
      ∀ e ∈ es, ∃ key, extractKey native e = .ok key ∧ Scannable native key rows.elements) ∧
    ((editAll (keyedEdit native (modifyFlow native)) es rows).2 = none →
      (editAll (keyedEdit native (modifyFlow native)) es rows).1.elements =
          es.foldl (applyModify native) rows.elements ∧
        (editAll (keyedEdit native (modifyFlow native)) es rows).1.elements.map (keyOf? native) =
          rows.elements.map (keyOf? native) ∧
        ((editAll (keyedEdit native (modifyFlow native)) es rows).1 = .null ↔ rows = .null)) := by
  induction es generalizing rows with
  | nil => exact ⟨iff_of_true rfl nofun, fun _ => ⟨rfl, rfl, Iff.rfl⟩⟩
  | cons e es ih =>
    have hrest := ih fun e' he' => hes e' (List.mem_cons_of_mem _ he')
    cases hkey : extractKey native e with
    | error err =>
      have hstep : (keyedEdit native (modifyFlow native) e rows).2 = some err := by
        simp only [keyedEdit, hkey]
      have hne : ¬ (editAll (keyedEdit native (modifyFlow native)) (e :: es) rows).2 = none := by
        rw [editAll_cons, hstep]
        simp
      refine ⟨iff_of_false hne fun h => ?_, fun h => absurd h hne⟩
      obtain ⟨key, hok, -⟩ := h e List.mem_cons_self
      rw [hkey] at hok
      cases hok
    | ok key =>
      obtain ⟨hthrown, hkeys, hleft, hnull⟩ :=
        modifyFlow_spec native (hes e List.mem_cons_self) hkey rows
      obtain ⟨ih₁, ih₂⟩ := hrest (modifyFlow native e key rows).1
      have hstep : keyedEdit native (modifyFlow native) e rows = modifyFlow native e key rows :=
        keyedEdit_of_ok native hkey rows
      constructor
      · rw [editAll_cons, hstep, hthrown, ih₁]
        simp only [scannable_congr native hkeys]
        constructor
        · rintro ⟨hfirst, hall⟩ e' he'
          rcases List.mem_cons.mp he' with rfl | he'
          · exact ⟨key, hkey, hfirst⟩
          · exact hall e' he'
        · intro hall
          obtain ⟨key', hkey', hfirst⟩ := hall e List.mem_cons_self
          rw [hkey] at hkey'
          cases hkey'
          exact ⟨hfirst, fun e' he' => hall e' (List.mem_cons_of_mem _ he')⟩
      · intro hnone
        obtain ⟨hnone₁, hnone₂⟩ := (editAll_cons _ e es rows).mp hnone
        rw [editAll_cons_fst (keyedEdit native (modifyFlow native)) hnone₁]
        rw [hstep] at hnone₁ hnone₂ ⊢
        obtain ⟨hrows, hkeys', hnull'⟩ := ih₂ hnone₂
        refine ⟨?_, hkeys'.trans hkeys, hnull'.trans hnull⟩
        rw [hrows, List.foldl_cons, hleft hnone₁, applyModify, (keyOf?_eq_some native).mpr hkey]

/-! ### Deleting rows -/

/-- The rows without those of a key. -/
def dropKeyed (key : RowKey) (rows : List (Json F)) : List (Json F) :=
  rows.filter fun row => keyOf? native row ≠ some key

/-- Every row has a key. -/
def Keyed (rows : List (Json F)) : Prop := ∀ row ∈ rows, (keyOf? native row).isSome = true

theorem keyed_congr {rows rows' : List (Json F)}
    (h : rows'.map (keyOf? native) = rows.map (keyOf? native)) :
    Keyed native rows' ↔ Keyed native rows := by
  have hmap : ∀ rows : List (Json F),
      Keyed native rows ↔ ∀ k ∈ rows.map (keyOf? native), k.isSome = true := by
    intro rows
    simp [Keyed]
  rw [hmap, hmap, h]

theorem keyed_dropKeyed {key : RowKey} {rows : List (Json F)} (h : Keyed native rows) :
    Keyed native (dropKeyed native key rows) :=
  fun row hrow => h row (List.mem_filter.mp hrow).1

theorem extractKey_of_isSome {row : Json F} (h : (keyOf? native row).isSome = true) :
    ∃ key, extractKey native row = .ok key := by
  obtain ⟨key, hkey⟩ := Option.isSome_iff_exists.mp h
  exact ⟨key, (keyOf?_eq_some native).mp hkey⟩

/-- **A delete from the rows of a switch**: it throws exactly when there is nothing to delete from,
or a row that cannot be identified. -/
theorem deleteFlow_spec (key : RowKey) (rows : Json F) :
    ((deleteFlow native key rows).2 = none ↔ rows ≠ .null ∧ Keyed native rows.elements) ∧
      ((deleteFlow native key rows).2 = none →
        (deleteFlow native key rows).1.elements = dropKeyed native key rows.elements ∧
          (deleteFlow native key rows).1 ≠ .null) := by
  by_cases hnull : rows = .null
  · subst hnull
    exact ⟨iff_of_false nofun fun h => h.1 rfl, nofun⟩
  let pred : Json F → Except AccessError Bool :=
    fun row => do return decide ((← extractKey native row) = key)
  have heq : deleteFlow native key rows =
      (rows.withElements (removeIf pred rows.elements).1, (removeIf pred rows.elements).2) := by
    cases rows with
    | null => exact absurd rfl hnull
    | _ => rfl
  have hpred : ∀ row, (∃ b, pred row = .ok b) ↔ (keyOf? native row).isSome = true := by
    intro row
    cases hrow : extractKey native row with
    | error err => simp [pred, keyOf?, hrow, bind, Except.bind, Except.toOption]
    | ok k => simp [pred, keyOf?, hrow, bind, Except.bind, pure, Except.pure, Except.toOption]
  have hthrown : (removeIf pred rows.elements).2 = none ↔ Keyed native rows.elements := by
    rw [removeIf_snd_eq_none]
    exact forall₂_congr fun row _ => hpred row
  rw [heq]
  refine ⟨hthrown.trans (and_iff_right hnull).symm, ?_⟩
  intro hnone
  have hkeyed := hthrown.mp hnone
  have hkept : removeIf pred rows.elements = (dropKeyed native key rows.elements, none) := by
    rw [removeIf_of_forall (p := fun row => decide (keyOf? native row = some key)) ?_]
    · rw [dropKeyed]
      simp
    · intro row hrow
      obtain ⟨k, hk⟩ := extractKey_of_isSome native (hkeyed row hrow)
      simp [pred, keyOf?, hk, bind, Except.bind, pure, Except.pure, Except.toOption]
  rw [hkept]
  rcases isContainer_or rows with hcont | ⟨helem, hobj, -, -⟩
  · have hlen : (dropKeyed native key rows.elements).length ≤ rows.elements.length :=
      List.length_filter_le _ _
    exact ⟨elements_withElements hcont hlen,
      fun h => hnull ((withElements_eq_null hcont _ hlen).mp h)⟩
  · -- a value that is no container has no key
    have hself := hkeyed rows (by rw [helem]; exact List.mem_singleton_self rows)
    rw [keyOf?_of_not_isObj native hobj] at hself
    cases hself

/-- The rows after a delete. -/
def applyDelete (rows : List (Json F)) (e : Json F) : List (Json F) :=
  match keyOf? native e with
  | some key => dropKeyed native key rows
  | none => rows

/-- **Many deletes from the rows of a switch** need a key each, rows to delete from, and a key for
each of these. -/
theorem editAll_deleteFlow (es : List (Json F)) (rows : Json F) :
    ((editAll (keyedEdit native fun _ key => deleteFlow native key) es rows).2 = none ↔
      es = [] ∨ (∀ e ∈ es, ∃ key, extractKey native e = .ok key) ∧ rows ≠ .null ∧
        Keyed native rows.elements) ∧
    ((editAll (keyedEdit native fun _ key => deleteFlow native key) es rows).2 = none →
      (editAll (keyedEdit native fun _ key => deleteFlow native key) es rows).1.elements =
        es.foldl (applyDelete native) rows.elements) := by
  induction es generalizing rows with
  | nil => exact ⟨iff_of_true rfl (.inl rfl), fun _ => rfl⟩
  | cons e es ih =>
    cases hkey : extractKey native e with
    | error err =>
      have hne : ¬ (editAll (keyedEdit native fun _ key => deleteFlow native key) (e :: es)
          rows).2 = none := by
        rw [editAll_cons]
        simp [keyedEdit, hkey]
      refine ⟨iff_of_false hne ?_, fun h => absurd h hne⟩
      rintro (hnil | ⟨hkeys, -⟩)
      · cases hnil
      · obtain ⟨key, hok⟩ := hkeys e List.mem_cons_self
        rw [hkey] at hok
        cases hok
    | ok key =>
      obtain ⟨hthrown, hleft⟩ := deleteFlow_spec native key rows
      obtain ⟨ih₁, ih₂⟩ := ih (deleteFlow native key rows).1
      have hstep : keyedEdit native (fun _ key => deleteFlow native key) e rows =
          deleteFlow native key rows := keyedEdit_of_ok native hkey rows
      constructor
      · rw [editAll_cons, hstep, hthrown, ih₁, or_iff_right (List.cons_ne_nil e es)]
        constructor
        · rintro ⟨⟨hnull, hkeyed⟩, hrest⟩
          refine ⟨?_, hnull, hkeyed⟩
          intro e' he'
          rcases List.mem_cons.mp he' with rfl | he'
          · exact ⟨key, hkey⟩
          · rcases hrest with rfl | ⟨hkeys, -⟩
            · cases he'
            · exact hkeys e' he'
        · rintro ⟨hkeys, hnull, hkeyed⟩
          obtain ⟨hrows, hnull'⟩ := hleft (hthrown.mpr ⟨hnull, hkeyed⟩)
          refine ⟨⟨hnull, hkeyed⟩, .inr ⟨fun e' he' => hkeys e' (List.mem_cons_of_mem _ he'),
            hnull', ?_⟩⟩
          rw [hrows]
          exact keyed_dropKeyed native hkeyed
      · intro hnone
        obtain ⟨hnone₁, hnone₂⟩ := (editAll_cons _ e es rows).mp hnone
        rw [editAll_cons_fst (keyedEdit native fun _ key => deleteFlow native key) hnone₁]
        rw [hstep] at hnone₁ hnone₂ ⊢
        rw [ih₂ hnone₂, List.foldl_cons, (hleft hnone₁).1, applyDelete,
          (keyOf?_eq_some native).mpr hkey]

/-! ### A whole batch -/

/-- The switch an entry names. -/
def dpidAt (e : Json F) : ℕ := ((dpidOf native e).toOption).getD 0

/-- The entries that name a switch. -/
def entriesFor (d : ℕ) (es : List (Json F)) : List (Json F) := es.filter fun e => dpidAt native e = d

theorem dpidOf_eq_dpidAt {e : Json F} (h : Shaped e) : dpidOf native e = .ok (dpidAt native e) := by
  obtain ⟨d, hd⟩ := dpidOf_of_shaped native h
  rw [dpidAt, hd]
  rfl

theorem shaped_entriesFor {es : List (Json F)} (h : ∀ e ∈ es, Shaped e) (d : ℕ) :
    ∀ e ∈ entriesFor native d es, Shaped e :=
  fun e he => h e (List.mem_filter.mp he).1

/-- **An install puts a row with the key of its entry**, and needs its table to be a number. -/
theorem newFlow_spec {e : Json F} (he : Shaped e) :
    ((∃ row, newFlow native e = .ok row) ↔ ∃ t, e.valueInt native.cast "table_id" 0 = .ok t) ∧
      ∀ row, newFlow native e = .ok row → keyOf? native row = keyOf? native e := by
  obtain ⟨p, hpriority⟩ := priority_of_shaped native he
  obtain ⟨fields, rfl, -⟩ := id he
  cases htable : (Json.obj fields).valueInt native.cast "table_id" 0 with
  | error err =>
    have hrow : newFlow native (.obj fields) = .error err := by
      simp only [newFlow, hpriority, htable, value, bind, Except.bind]
    rw [hrow]
    exact ⟨iff_of_false (by simp) (by simp), by simp⟩
  | ok t =>
    let row : List (String × Json F) := [("actions", (fields.lookup "actions").getD (.arr [])),
      ("match", (fields.lookup "match").getD (.obj [])), ("priority", .int p), ("table_id", .int t)]
    have hkey : ∀ row' : List (String × Json F), (∀ name, name ≠ pendingTokenField →
        row'.lookup name = row.lookup name) → keyOf? native (.obj row') = keyOf? native (.obj fields) := by
      intro row' hrow'
      have hpriority' : (Json.obj row').valueInt native.cast "priority" 0 = .ok p := by
        rw [valueInt, hrow' _ (by decide)]
        exact congrArg Except.ok (valueInt_roundtrip hpriority)
      have htable' : (Json.obj row').valueInt native.cast "table_id" 0 = .ok t := by
        rw [valueInt, hrow' _ (by decide)]
        exact congrArg Except.ok (valueInt_roundtrip htable)
      have hmatch' : ((Json.obj row').find "match").getD (.obj []) =
          ((Json.obj fields).find "match").getD (.obj []) := by
        rw [find, hrow' _ (by decide)]
        rfl
      rw [keyOf?, keyOf?, extractKey, extractKey, hpriority, hpriority', htable, htable', hmatch']
    have hrow : newFlow native (.obj fields) = .ok ((fields.lookup pendingTokenField).elim (.obj row)
        fun token => .obj (put pendingTokenField token row)) := by
      simp only [newFlow, hpriority, htable, value, find, bind, Except.bind, pure, Except.pure]
      cases fields.lookup pendingTokenField with
      | none => rfl
      | some token => rfl
    rw [hrow]
    refine ⟨iff_of_true ⟨_, rfl⟩ ⟨t, rfl⟩, ?_⟩
    intro row' heq
    cases heq
    cases fields.lookup pendingTokenField with
    | some token => exact hkey _ fun name hname => lookup_put_of_ne _ _ hname
    | none => exact hkey _ fun _ _ => rfl

/-- The rows that the installs of a batch put on a switch. -/
def installedRows (b : Batch F) (d : ℕ) : List (Json F) :=
  (entriesFor native d b.installs).filterMap (newFlow? native)

/-- **The rows of a switch after every entry of a batch**, installs first and deletes last. -/
def appliedRows (b : Batch F) (d : ℕ) (rows : List (Json F)) : List (Json F) :=
  let installed := rows ++ installedRows native b d
  let modified := (entriesFor native d b.modifies).foldl (applyModify native) installed
  (entriesFor native d b.deletes).foldl (applyDelete native) modified

/-- What the entries of a batch need of the rows of the switch they name.  An entry to install is
looked for by its own key. -/
structure EditableAt (b : Batch F) (d : ℕ) (rows : Json F) : Prop where
  tables : ∀ e ∈ entriesFor native d b.installs, ∃ t, e.valueInt native.cast "table_id" 0 = .ok t
  installs : entriesFor native d b.installs ≠ [] → Pushable rows
  modifies : ∀ e ∈ entriesFor native d b.modifies, ∃ key, extractKey native e = .ok key ∧
    Scannable native key (rows.elements ++ entriesFor native d b.installs)
  deletes : entriesFor native d b.deletes ≠ [] →
    (∀ e ∈ entriesFor native d b.deletes, ∃ key, extractKey native e = .ok key) ∧
      (rows ≠ .null ∨ entriesFor native d b.installs ≠ []) ∧
      Keyed native (rows.elements ++ entriesFor native d b.installs)

/-- The keys of the rows of installs are those of their entries. -/
theorem map_keyOf?_filterMap {es : List (Json F)} (hes : ∀ e ∈ es, Shaped e)
    (hok : ∀ e ∈ es, ∃ row, newFlow native e = .ok row) :
    (es.filterMap (newFlow? native)).map (keyOf? native) = es.map (keyOf? native) := by
  induction es with
  | nil => rfl
  | cons e es ih =>
    obtain ⟨row, hrow⟩ := hok e List.mem_cons_self
    have hsome : newFlow? native e = some row := by rw [newFlow?, hrow]; rfl
    have hrest := ih (fun e' he' => hes e' (List.mem_cons_of_mem _ he'))
      fun e' he' => hok e' (List.mem_cons_of_mem _ he')
    rw [List.filterMap_cons_some hsome, List.map_cons, List.map_cons, hrest,
      (newFlow_spec native (hes e List.mem_cons_self)).2 row hrow]

/-- The rows after the installs of a batch. -/
theorem installed_spec {b : Batch F} (hb : b.Shaped) (d : ℕ) (rows : Json F) :
    ((editAll (pushFlow native) (entriesFor native d b.installs) rows).2 = none ↔
      (∀ e ∈ entriesFor native d b.installs, ∃ t, e.valueInt native.cast "table_id" 0 = .ok t) ∧
        (entriesFor native d b.installs ≠ [] → Pushable rows)) ∧
    ((editAll (pushFlow native) (entriesFor native d b.installs) rows).2 = none →
      (editAll (pushFlow native) (entriesFor native d b.installs) rows).1.elements =
          rows.elements ++ installedRows native b d ∧
        (rows.elements ++ installedRows native b d).map (keyOf? native) =
          (rows.elements ++ entriesFor native d b.installs).map (keyOf? native) ∧
        ((editAll (pushFlow native) (entriesFor native d b.installs) rows).1 ≠ .null ↔
          rows ≠ .null ∨ entriesFor native d b.installs ≠ [])) := by
  have hes := shaped_entriesFor native hb.installs d
  obtain ⟨hthrown, hleft⟩ := editAll_pushFlow native (entriesFor native d b.installs) rows
  have hrows : (∀ e ∈ entriesFor native d b.installs, ∃ row, newFlow native e = .ok row) ↔
      ∀ e ∈ entriesFor native d b.installs, ∃ t, e.valueInt native.cast "table_id" 0 = .ok t :=
    forall₂_congr fun e he => (newFlow_spec native (hes e he)).1
  by_cases hnil : entriesFor native d b.installs = []
  · simp only [installedRows, hnil, editAll]
    simp
  · rw [hthrown, or_iff_right hnil, hrows]
    refine ⟨and_congr_right fun _ => ⟨fun h _ => h, fun h => h hnil⟩, ?_⟩
    rintro ⟨htables, hpush⟩
    have hok := hrows.mpr htables
    rw [hleft (hthrown.mpr (.inr ⟨hok, hpush⟩)) hnil]
    refine ⟨rfl, ?_, iff_of_true nofun (.inr hnil)⟩
    rw [List.map_append, List.map_append, installedRows, map_keyOf?_filterMap native hes hok]

/-- An edit after another that threw nothing. -/
def Edit.andThen {σ : Type} (first : Edit σ) (next : σ → Edit σ) : Edit σ :=
  match first with
  | (s, some err) => (s, some err)
  | (s, none) => next s

theorem Edit.andThen_snd {σ : Type} (first : Edit σ) (next : σ → Edit σ) :
    (Edit.andThen first next).2 = none ↔ first.2 = none ∧ (next first.1).2 = none := by
  rcases first with ⟨s, err⟩
  cases err with
  | none => exact (and_iff_right rfl).symm
  | some err => exact iff_of_false nofun fun h => nomatch h.1

theorem Edit.andThen_fst {σ : Type} {first : Edit σ} (next : σ → Edit σ) (h : first.2 = none) :
    (Edit.andThen first next).1 = (next first.1).1 := by
  rcases first with ⟨s, err⟩
  cases h
  rfl

theorem updateOpenFlowTables_eq (b : Batch F) (cache : Cache F) :
    updateOpenFlowTables native isSwitch b cache =
      Edit.andThen (editAll (installOne native isSwitch) b.installs cache) fun cache =>
        Edit.andThen (editAll (modifyOne native isSwitch) b.modifies cache)
          (editAll (deleteOne native isSwitch) b.deletes) := by
  rw [updateOpenFlowTables]
  rcases editAll (installOne native isSwitch) b.installs cache with ⟨cache₁, err⟩
  cases err with
  | some err => rfl
  | none =>
    dsimp only [Edit.andThen]
    rcases editAll (modifyOne native isSwitch) b.modifies cache₁ with ⟨cache₂, err⟩
    cases err with
    | some err => rfl
    | none => rfl

/-- The edits of a batch on the rows of one switch. -/
def editRows (b : Batch F) (d : ℕ) (rows : Json F) : Edit (Json F) :=
  Edit.andThen (editAll (pushFlow native) (entriesFor native d b.installs) rows) fun rows =>
    Edit.andThen
      (editAll (keyedEdit native (modifyFlow native)) (entriesFor native d b.modifies) rows)
      (editAll (keyedEdit native fun _ key => deleteFlow native key)
        (entriesFor native d b.deletes))

/-- **A batch on the rows of one switch** throws nothing exactly where the rows can be edited, and
then every entry has been applied. -/
theorem editRows_spec {b : Batch F} (hb : b.Shaped) (d : ℕ) (rows : Json F) :
    ((editRows native b d rows).2 = none ↔ EditableAt native b d rows) ∧
      ((editRows native b d rows).2 = none →
        (editRows native b d rows).1.elements = appliedRows native b d rows.elements) := by
  obtain ⟨hins, hinsLeft⟩ := installed_spec native hb d rows
  generalize hrows₁ : (editAll (pushFlow native) (entriesFor native d b.installs) rows).1 = rows₁
    at hinsLeft
  obtain ⟨hmods, hmodsLeft⟩ := editAll_modifyFlow native (shaped_entriesFor native hb.modifies d)
    rows₁
  generalize hrows₂ : (editAll (keyedEdit native (modifyFlow native))
    (entriesFor native d b.modifies) rows₁).1 = rows₂ at hmodsLeft
  obtain ⟨hdels, hdelsLeft⟩ := editAll_deleteFlow native (entriesFor native d b.deletes) rows₂
  rw [editRows, Edit.andThen_snd, hrows₁, Edit.andThen_snd, hrows₂]
  constructor
  · constructor
    · rintro ⟨hnone₁, hnone₂, hnone₃⟩
      obtain ⟨helem₁, hkeys₁, hnull₁⟩ := hinsLeft hnone₁
      obtain ⟨-, hkeys₂, hnull₂⟩ := hmodsLeft hnone₂
      obtain ⟨htables, hpush⟩ := hins.mp hnone₁
      rw [helem₁] at hmods hkeys₂
      refine ⟨htables, hpush, ?_, ?_⟩
      · intro e he
        obtain ⟨key, hkey, hscan⟩ := hmods.mp hnone₂ e he
        exact ⟨key, hkey, (scannable_congr native hkeys₁).mp hscan⟩
      · intro hne
        obtain ⟨hkeys, hnull, hkeyed⟩ := (hdels.mp hnone₃).resolve_left hne
        refine ⟨hkeys, hnull₁.mp fun h => hnull (hnull₂.mpr h), ?_⟩
        exact (keyed_congr native (hkeys₂.trans hkeys₁)).mp hkeyed
    · intro h
      have hnone₁ := hins.mpr ⟨h.tables, h.installs⟩
      obtain ⟨helem₁, hkeys₁, hnull₁⟩ := hinsLeft hnone₁
      rw [helem₁] at hmods
      have hnone₂ := hmods.mpr fun e he => by
        obtain ⟨key, hkey, hscan⟩ := h.modifies e he
        exact ⟨key, hkey, (scannable_congr native hkeys₁).mpr hscan⟩
      obtain ⟨-, hkeys₂, hnull₂⟩ := hmodsLeft hnone₂
      rw [helem₁] at hkeys₂
      refine ⟨hnone₁, hnone₂, hdels.mpr ?_⟩
      by_cases hne : entriesFor native d b.deletes = []
      · exact .inl hne
      · obtain ⟨hkeys, hnull, hkeyed⟩ := h.deletes hne
        refine .inr ⟨hkeys, fun hnil => hnull₁.mpr hnull (hnull₂.mp hnil), ?_⟩
        exact (keyed_congr native (hkeys₂.trans hkeys₁)).mpr hkeyed
  · rintro ⟨hnone₁, hnone₂, hnone₃⟩
    rw [Edit.andThen_fst _ hnone₁, hrows₁, Edit.andThen_fst _ hnone₂, hrows₂, hdelsLeft hnone₃,
      (hmodsLeft hnone₂).1, (hinsLeft hnone₁).1, appliedRows]

/-! ### The whole document -/

theorem modifyOne_eq :
    modifyOne native isSwitch = editByKey native isSwitch (modifyFlow native) := rfl

theorem deleteOne_eq :
    deleteOne native isSwitch = editByKey native isSwitch fun _ key => deleteFlow native key := rfl

/-- The installs of a batch, switch by switch. -/
theorem editAll_installOne {es : List (Json F)} (hes : ∀ e ∈ es, Shaped e) (cache : Cache F) :
    ((editAll (installOne native isSwitch) es cache).2 = none ↔
      ∀ d, PassesAll (pushFlow native) (entriesFor native d es) (flowsAt isSwitch d cache)) ∧
    ((editAll (installOne native isSwitch) es cache).2 = none →
      ∀ d, flowsAt isSwitch d (editAll (installOne native isSwitch) es cache).1 =
        (flowsAt isSwitch d cache).map
          (Except.map fun rows => (editAll (pushFlow native) (entriesFor native d es) rows).1)) := by
  have heq : editAll (installOne native isSwitch) es cache =
      editAll (fun e => withFlows isSwitch (dpidAt native e) (pushFlow native e)) es cache := by
    refine editAll_congr (fun e he s => ?_) cache
    simp only [installOne, dpidOf_eq_dpidAt native (hes e he)]
  rw [heq]
  exact editAll_withFlows isSwitch (pushFlow native) (dpidAt native) es cache

/-- Modifies or deletes, switch by switch: an entry without a key throws before its switch is
looked for. -/
theorem editAll_editByKey (edit : Json F → RowKey → Json F → Edit (Json F)) {es : List (Json F)}
    (hes : ∀ e ∈ es, Shaped e) (cache : Cache F) :
    ((editAll (editByKey native isSwitch edit) es cache).2 = none ↔
      (∀ e ∈ es, ∃ key, extractKey native e = .ok key) ∧
        ∀ d, PassesAll (keyedEdit native edit) (entriesFor native d es)
          (flowsAt isSwitch d cache)) ∧
    ((editAll (editByKey native isSwitch edit) es cache).2 = none →
      ∀ d, flowsAt isSwitch d (editAll (editByKey native isSwitch edit) es cache).1 =
        (flowsAt isSwitch d cache).map
          (Except.map fun rows => (editAll (keyedEdit native edit) (entriesFor native d es) rows).1)) := by
  by_cases hkeys : ∀ e ∈ es, ∃ key, extractKey native e = .ok key
  · have heq : editAll (editByKey native isSwitch edit) es cache =
        editAll (fun e => withFlows isSwitch (dpidAt native e) (keyedEdit native edit e)) es
          cache := by
      refine editAll_congr (fun e he s => ?_) cache
      obtain ⟨key, hkey⟩ := hkeys e he
      have hedit : keyedEdit native edit e = edit e key :=
        funext fun rows => keyedEdit_of_ok native hkey rows
      simp only [editByKey, dpidOf_eq_dpidAt native (hes e he), hkey, hedit]
    rw [heq, and_iff_right hkeys]
    exact editAll_withFlows isSwitch (keyedEdit native edit) (dpidAt native) es cache
  · have hne : ¬ (editAll (editByKey native isSwitch edit) es cache).2 = none := by
      intro hnone
      refine hkeys ?_
      intro e he
      obtain ⟨s, hs⟩ := exists_of_editAll hnone e he
      cases hkey : extractKey native e with
      | ok key => exact ⟨key, rfl⟩
      | error err => simp [editByKey, dpidOf_eq_dpidAt native (hes e he), hkey] at hs
    exact ⟨iff_of_false hne fun h => hkeys h.1, fun h => absurd h hne⟩

/-- What a batch needs of the document: that its modifies and deletes have keys, that a switch it
names has a place for rows, and that the rows there can be edited. -/
structure Editable (b : Batch F) (cache : Cache F) : Prop where
  keys : ∀ e ∈ b.modifies ++ b.deletes, ∃ key, extractKey native e = .ok key
  members : ∀ d err, flowsAt isSwitch d cache = some (.error err) →
    ∀ e ∈ b.installs ++ b.modifies ++ b.deletes, dpidAt native e ≠ d
  rows : ∀ d rows, flowsAt isSwitch d cache = some (.ok rows) → EditableAt native b d rows

/-- The update throws nothing, and the rows of every switch are those that every entry of the
batch has been applied to. -/
def Applies (b : Batch F) (cache : Cache F) : Prop :=
  (updateOpenFlowTables native isSwitch b cache).2 = none ∧
    ∀ d rows, flowsAt isSwitch d cache = some (.ok rows) →
      ∃ rows', flowsAt isSwitch d (updateOpenFlowTables native isSwitch b cache).1 =
          some (.ok rows') ∧
        rows'.elements = appliedRows native b d rows.elements

theorem entriesFor_eq_nil {d : ℕ} {es : List (Json F)} :
    entriesFor native d es = [] ↔ ∀ e ∈ es, dpidAt native e ≠ d := by
  simp [entriesFor, List.filter_eq_nil_iff]

/-- What a batch needs at one switch, of what it finds there. -/
def PassesBatch (b : Batch F) (d : ℕ) : Option (Except AccessError (Json F)) → Prop
  | none => True
  | some (.error _) => ∀ e ∈ b.installs ++ b.modifies ++ b.deletes, dpidAt native e ≠ d
  | some (.ok rows) => (editRows native b d rows).2 = none

theorem editable_iff {b : Batch F} (hb : b.Shaped) (cache : Cache F) :
    Editable native isSwitch b cache ↔
      (∀ e ∈ b.modifies ++ b.deletes, ∃ key, extractKey native e = .ok key) ∧
        ∀ d, PassesBatch native b d (flowsAt isSwitch d cache) := by
  constructor
  · rintro ⟨hkeys, hmembers, hrows⟩
    refine ⟨hkeys, ?_⟩
    intro d
    rcases hat : flowsAt isSwitch d cache with _ | err | rows
    · trivial
    · exact hmembers d err hat
    · exact (editRows_spec native hb d rows).1.mpr (hrows d rows hat)
  · rintro ⟨hkeys, hpass⟩
    refine ⟨hkeys, ?_, ?_⟩
    · intro d err hat
      have hd := hpass d
      rw [hat] at hd
      exact hd
    · intro d rows hat
      have hd := hpass d
      rw [hat] at hd
      exact (editRows_spec native hb d rows).1.mp hd

/-- The three kinds of entry at one switch, one kind after the other. -/
theorem passesBatch_iff (b : Batch F) (d : ℕ) {found found₁ found₂ : Option (Except AccessError (Json F))}
    (h₁ : found₁ = found.map (Except.map fun rows =>
      (editAll (pushFlow native) (entriesFor native d b.installs) rows).1))
    (h₂ : found₂ = found₁.map (Except.map fun rows =>
      (editAll (keyedEdit native (modifyFlow native)) (entriesFor native d b.modifies) rows).1)) :
    (PassesBatch native b d found ↔
      PassesAll (pushFlow native) (entriesFor native d b.installs) found ∧
        PassesAll (keyedEdit native (modifyFlow native)) (entriesFor native d b.modifies) found₁ ∧
        PassesAll (keyedEdit native fun _ key => deleteFlow native key)
          (entriesFor native d b.deletes) found₂) ∧
    (PassesBatch native b d found →
      found₂.map (Except.map fun rows => (editAll (keyedEdit native fun _ key =>
        deleteFlow native key) (entriesFor native d b.deletes) rows).1) =
        found.map (Except.map fun rows => (editRows native b d rows).1)) := by
  subst h₂
  subst h₁
  rcases found with _ | err | rows
  · exact ⟨iff_of_true trivial ⟨trivial, trivial, trivial⟩, fun _ => rfl⟩
  · refine ⟨?_, fun _ => rfl⟩
    show (∀ e ∈ b.installs ++ b.modifies ++ b.deletes, dpidAt native e ≠ d) ↔
      entriesFor native d b.installs = [] ∧ entriesFor native d b.modifies = [] ∧
        entriesFor native d b.deletes = []
    rw [← List.append_eq_nil_iff, ← List.append_eq_nil_iff, ← List.append_assoc, entriesFor,
      entriesFor, entriesFor, ← List.filter_append, ← List.filter_append]
    exact (entriesFor_eq_nil native).symm
  · constructor
    · exact (Edit.andThen_snd _ _).trans (and_congr_right fun _ => Edit.andThen_snd _ _)
    · intro hnone
      obtain ⟨hnone₁, hrest⟩ := (Edit.andThen_snd _ _).mp hnone
      obtain ⟨hnone₂, -⟩ := (Edit.andThen_snd _ _).mp hrest
      refine congrArg (fun rows => some (Except.ok rows)) ?_
      show _ = (editRows native b d rows).1
      rw [editRows, Edit.andThen_fst _ hnone₁, Edit.andThen_fst _ hnone₂]

/-- **The whole update** throws nothing exactly where the document can be edited, and is then, at
each switch, the edits of the batch on its rows. -/
theorem updateOpenFlowTables_spec {b : Batch F} (hb : b.Shaped) (cache : Cache F) :
    ((updateOpenFlowTables native isSwitch b cache).2 = none ↔ Editable native isSwitch b cache) ∧
      ((updateOpenFlowTables native isSwitch b cache).2 = none →
        ∀ d, flowsAt isSwitch d (updateOpenFlowTables native isSwitch b cache).1 =
          (flowsAt isSwitch d cache).map (Except.map fun rows => (editRows native b d rows).1)) := by
  obtain ⟨hins, hinsLeft⟩ := editAll_installOne native isSwitch hb.installs cache
  generalize hcache₁ : (editAll (installOne native isSwitch) b.installs cache).1 = cache₁
    at hinsLeft
  obtain ⟨hmods, hmodsLeft⟩ := editAll_editByKey native isSwitch (modifyFlow native) hb.modifies
    cache₁
  generalize hcache₂ : (editAll (editByKey native isSwitch (modifyFlow native)) b.modifies
    cache₁).1 = cache₂ at hmodsLeft
  obtain ⟨hdels, hdelsLeft⟩ := editAll_editByKey native isSwitch
    (fun _ key => deleteFlow native key) hb.deletes cache₂
  rw [editable_iff native isSwitch hb, List.forall_mem_append, updateOpenFlowTables_eq,
    Edit.andThen_snd, hcache₁, Edit.andThen_snd, modifyOne_eq, hcache₂, deleteOne_eq]
  constructor
  · constructor
    · rintro ⟨hnone₁, hnone₂, hnone₃⟩
      obtain ⟨hkeys₂, hpass₂⟩ := hmods.mp hnone₂
      obtain ⟨hkeys₃, hpass₃⟩ := hdels.mp hnone₃
      refine ⟨⟨hkeys₂, hkeys₃⟩, ?_⟩
      intro d
      have hpass := passesBatch_iff native b d (hinsLeft hnone₁ d) (hmodsLeft hnone₂ d)
      exact hpass.1.mpr ⟨hins.mp hnone₁ d, hpass₂ d, hpass₃ d⟩
    · rintro ⟨⟨hkeys₂, hkeys₃⟩, hpass⟩
      have hall := fun d => (passesBatch_iff native b d rfl rfl).1.mp (hpass d)
      have hnone₁ := hins.mpr fun d => (hall d).1
      have hnone₂ := hmods.mpr ⟨hkeys₂, fun d => by
        rw [hinsLeft hnone₁ d]
        exact (hall d).2.1⟩
      refine ⟨hnone₁, hnone₂, hdels.mpr ⟨hkeys₃, fun d => ?_⟩⟩
      rw [hmodsLeft hnone₂ d, hinsLeft hnone₁ d]
      exact (hall d).2.2
  · rintro ⟨hnone₁, hnone₂, hnone₃⟩ d
    have hpass := passesBatch_iff native b d (hinsLeft hnone₁ d) (hmodsLeft hnone₂ d)
    rw [Edit.andThen_fst _ hnone₁, hcache₁, Edit.andThen_fst _ hnone₂, hcache₂, hdelsLeft hnone₃ d]
    exact hpass.2 (hpass.1.mpr ⟨hins.mp hnone₁ d, (hmods.mp hnone₂).2 d, (hdels.mp hnone₃).2 d⟩)

/-- **A batch that is queued is applied to the cached tables, every entry of it, exactly where the
document can be edited by it.** -/
theorem updateOpenFlowTables_applies_iff {kindOf : ℕ → Option SwitchKind} {token : ℕ} {j : Json F}
    {admitted : Admitted F} (h : (admitBatch native kindOf token j).1 = .ok admitted)
    (cache : Cache F) :
    Applies native isSwitch admitted.batch cache ↔
      Editable native isSwitch admitted.batch cache := by
  have hb := admitBatch_ok h
  obtain ⟨hthrown, hleft⟩ := updateOpenFlowTables_spec native isSwitch hb cache
  rw [Applies, ← hthrown]
  refine and_iff_left_of_imp ?_
  intro hnone d rows hat
  refine ⟨(editRows native admitted.batch d rows).1, ?_, ?_⟩
  · rw [hleft hnone d, hat]
    rfl
  · obtain ⟨hiff, helem⟩ := editRows_spec native hb d rows
    exact helem (hiff.mpr ((hthrown.mp hnone).rows d rows hat))

/-! ### A switch that has never been read -/

/-- A fabric with one switch, which speaks OpenFlow. -/
def oneSwitch (d : ℕ) : Option SwitchKind := if d = 1 then some .ovs else none

/-- A request to delete the rule of switch 1 that matches everything. -/
def deleteRequest : Json Empty := .obj [("delete_flow_entries", .arr [.obj [("dpid", .int 1)]])]

/-- What is queued of it. -/
def deleteAdmitted : Admitted Empty :=
  { jobs := [{ dpid := 1, op := .delete, priority := -1, matchFields := .obj [] }]
    batch := ⟨[], [], [.obj [("dpid", .int 1)]]⟩
    rejectedEntries := 0
    unknownDpids := []
    refusedOnP4 := [] }

/-- The cached tables after the first poll, which switch 1 answered like this. -/
def firstPoll (answer : PollAnswer Empty) : Cache Empty :=
  applyFetchedTables (fetchOpenFlowTablesInternal [(1, answer)]) 0 []

theorem admitBatch_deleteRequest :
    (admitBatch noFloats oneSwitch 1 deleteRequest).1 = .ok deleteAdmitted := by
  rfl

/-- The answer of a switch with one rule. -/
def oneRule : PollAnswer Empty :=
  .reply (.obj [("1", .arr [.obj [("priority", .int 0)]])]) false

theorem flowsAt_oneRule (d : ℕ) :
    flowsAt (fun d => (oneSwitch d).isSome) d (firstPoll oneRule) =
      if d = 1 then some (.ok (.arr [.obj [("priority", .int 0)]])) else none := by
  by_cases hd : d = 1
  · subst hd
    rfl
  · have hcache : firstPoll oneRule =
        [{ dpid := 1, flows := .obj [("1", .arr [.obj [("priority", .int 0)]])] }] := rfl
    rw [hcache, flowsAt, if_neg (Ne.symm hd), flowsAt]
    simp [oneSwitch, hd]

/-- The same request after a poll that brought a rule. -/
theorem oneRule_applies :
    (admitBatch noFloats oneSwitch 1 deleteRequest).1 = .ok deleteAdmitted ∧
      Applies noFloats (fun d => (oneSwitch d).isSome) deleteAdmitted.batch (firstPoll oneRule) := by
  have hkeys : ∀ e ∈ deleteAdmitted.batch.deletes, ∃ key, extractKey noFloats e = .ok key := by
    intro e he
    rw [List.mem_singleton.mp he]
    exact ⟨_, rfl⟩
  refine ⟨admitBatch_deleteRequest, (updateOpenFlowTables_applies_iff noFloats _
    admitBatch_deleteRequest _).mpr ⟨hkeys, ?_, ?_⟩⟩
  · intro d err hat
    rw [flowsAt_oneRule] at hat
    split at hat
    · cases hat
    · cases hat
  · intro d rows hat
    rw [flowsAt_oneRule] at hat
    split at hat
    · cases hat
      refine ⟨nofun, fun h => absurd rfl h, nofun, fun _ => ⟨?_, .inl nofun, ?_⟩⟩
      · exact fun e he => hkeys e (List.mem_filter.mp he).1
      · intro row hrow
        rw [List.mem_singleton.mp hrow]
        rfl
    · cases hat

/-- **A delete for a switch that has never been read throws**, after it has been queued: there is
nothing to erase from. -/
theorem neverRead_not_applies :
    (admitBatch noFloats oneSwitch 1 deleteRequest).1 = .ok deleteAdmitted ∧
      ¬ Applies noFloats (fun d => (oneSwitch d).isSome) deleteAdmitted.batch
        (firstPoll .noResponse) := by
  refine ⟨admitBatch_deleteRequest, ?_⟩
  intro h
  have hthrown : (updateOpenFlowTables noFloats (fun d => (oneSwitch d).isSome)
      deleteAdmitted.batch (firstPoll .noResponse)).2 = some (.typeError 307) := by decide +kernel
  rw [h.1] at hthrown
  cases hthrown

end NDTwin.FlowTables
