import Mathlib.Data.List.Basic
import Mathlib.Data.List.Induction
import Mathlib.Data.List.Nodup

/-!
# Dictionaries that keep their order

A dictionary holds one value a key and lists its keys in the order in which
they were first set; setting a key that is there changes its value in place.

## Main definitions

* `Dict K V`, `Dict.get?`, `Dict.set`, `Dict.keys` — the dictionary.
* `Dict.erase` — a key taken out.
* `Dict.ofList` — the dictionary of a list of entries, later ones winning.
* `Dict.mapValues`, `Dict.mapWithKey` — every value changed in place.

## Main results

* `Dict.get?_set_self`, `Dict.get?_set_of_ne`, `Dict.get?_erase` — what each
  operation does to a read.
* `Dict.lookup_eq_some_iff_mem`, `Dict.mem_entries_iff`, `Dict.filter_key` — iterating and reading agree.
-/

/-- A dictionary in insertion order. -/
structure Dict (K V : Type*) where
  entries : List (K × V)
  nodup : (entries.map Prod.fst).Nodup

namespace Dict

variable {K V : Type*}

/-- The empty dictionary. -/
def empty : Dict K V := ⟨[], List.nodup_nil⟩

/-- The keys, in order. -/
def keys (d : Dict K V) : List K := d.entries.map Prod.fst

/-- Every value changed in place, as a loop over the values of a dictionary of records does. -/
def mapValues (f : V → V) (d : Dict K V) : Dict K V :=
  ⟨d.entries.map fun e => (e.1, f e.2), by
    have hkeys : (d.entries.map fun e => (e.1, f e.2)).map Prod.fst = d.entries.map Prod.fst := by
      rw [List.map_map]
      rfl
    rw [hkeys]
    exact d.nodup⟩

/-- Every value changed in place, in a way that its key has a say in. -/
def mapWithKey (f : K → V → V) (d : Dict K V) : Dict K V :=
  ⟨d.entries.map fun e => (e.1, f e.1 e.2), by
    have hkeys : (d.entries.map fun e => (e.1, f e.1 e.2)).map Prod.fst =
        d.entries.map Prod.fst := by
      rw [List.map_map]
      rfl
    rw [hkeys]
    exact d.nodup⟩

/-- The entries that a test keeps. -/
def filter (keep : K → V → Bool) (d : Dict K V) : Dict K V :=
  ⟨d.entries.filter fun e => keep e.1 e.2, d.nodup.sublist (List.filter_sublist.map Prod.fst)⟩

section Read

variable [DecidableEq K]

/-- A value in a list of entries. -/
def find (k : K) : List (K × V) → Option V
  | [] => none
  | e :: es => if e.1 = k then some e.2 else find k es

/-- The value of a key. -/
def get? (d : Dict K V) (k : K) : Option V := find k d.entries

/-- A list of entries with a key set. -/
def put (k : K) (v : V) : List (K × V) → List (K × V)
  | [] => [(k, v)]
  | e :: es => if e.1 = k then (k, v) :: es else e :: put k v es

theorem keys_put (k : K) (v : V) (es : List (K × V)) :
    (put k v es).map Prod.fst =
      if k ∈ es.map Prod.fst then es.map Prod.fst else es.map Prod.fst ++ [k] := by
  induction es with
  | nil => rfl
  | cons e es ih =>
    by_cases h : e.1 = k
    · simp [put, h]
    · have hne : k ≠ e.1 := fun h' => h h'.symm
      simp only [put, if_neg h, List.map_cons, ih, List.mem_cons, hne, false_or]
      split <;> rfl

theorem nodup_put (k : K) (v : V) {es : List (K × V)} (hes : (es.map Prod.fst).Nodup) :
    ((put k v es).map Prod.fst).Nodup := by
  rw [keys_put]
  split
  · exact hes
  · next h => exact List.nodup_append.mpr ⟨hes, by simp, by
      intro a ha b hb
      rw [List.mem_singleton] at hb
      rintro rfl
      exact h (hb ▸ ha)⟩

/-- The dictionary with a key set. -/
def set (d : Dict K V) (k : K) (v : V) : Dict K V := ⟨put k v d.entries, nodup_put k v d.nodup⟩

/-- The dictionary without a key. -/
def erase (d : Dict K V) (k : K) : Dict K V :=
  ⟨d.entries.filter fun e => e.1 ≠ k, d.nodup.sublist (List.filter_sublist.map _)⟩

/-- The dictionary of a list of entries, where later entries win. -/
def ofList (es : List (K × V)) : Dict K V := es.foldl (fun d e => d.set e.1 e.2) empty

/-! ### Reads -/

/-- In a list with one entry a key, a lookup finds the entries that are there. -/
theorem lookup_eq_some_iff_mem {k : K} {v : V} {es : List (K × V)} (h : (es.map Prod.fst).Nodup) :
    es.lookup k = some v ↔ (k, v) ∈ es := by
  induction es with
  | nil => simp
  | cons e es ih =>
    obtain ⟨hhead, htail⟩ := List.nodup_cons.mp h
    rw [List.lookup_cons, List.mem_cons]
    by_cases hk : k = e.1
    · subst hk
      have hnot : (e.1, v) ∉ es := fun hmem => hhead (List.mem_map.mpr ⟨_, hmem, rfl⟩)
      simp only [beq_self_eq_true, Option.some_inj, hnot, or_false]
      exact ⟨fun hv => by rw [← hv], fun hv => by rw [← hv]⟩
    · have hbeq : (k == e.1) = false := by simpa using hk
      have hne : (k, v) ≠ e := fun heq => hk (congrArg Prod.fst heq)
      rw [hbeq]
      simp [hne, ih htail]

@[simp] theorem get?_empty (k : K) : (empty : Dict K V).get? k = none := rfl

theorem find_put_self (k : K) (v : V) (es : List (K × V)) : find k (put k v es) = some v := by
  induction es with
  | nil => simp [put, find]
  | cons e es ih =>
    by_cases h : e.1 = k
    · simp [put, h, find]
    · simp [put, h, find, ih]

theorem find_put_of_ne {k k' : K} (v : V) (es : List (K × V)) (hne : k' ≠ k) :
    find k' (put k v es) = find k' es := by
  induction es with
  | nil => simp [put, find, hne.symm]
  | cons e es ih =>
    by_cases h : e.1 = k
    · have h' : e.1 ≠ k' := fun h' => hne (h'.symm.trans h)
      simp [put, h, find, hne.symm]
    · simp only [put, if_neg h, find, ih]

@[simp] theorem get?_set_self (d : Dict K V) (k : K) (v : V) : (d.set k v).get? k = some v :=
  find_put_self k v d.entries

theorem get?_set_of_ne (d : Dict K V) {k k' : K} (v : V) (hne : k' ≠ k) :
    (d.set k v).get? k' = d.get? k' :=
  find_put_of_ne v d.entries hne

theorem get?_set (d : Dict K V) (k k' : K) (v : V) :
    (d.set k v).get? k' = if k' = k then some v else d.get? k' := by
  split
  · next h => rw [h, get?_set_self]
  · next h => exact d.get?_set_of_ne v h

/-- The dictionary of some keys, each with the value a function gives it. -/
theorem get?_ofList_map (ks : List K) (f : K → V) (k : K) :
    (ofList (ks.map fun x => (x, f x))).get? k = if k ∈ ks then some (f k) else none := by
  induction ks using List.reverseRecOn with
  | nil => rfl
  | append_singleton ks x ih =>
    have hlast : ofList ((ks ++ [x]).map fun x => (x, f x)) =
        (ofList (ks.map fun x => (x, f x))).set x (f x) := by
      rw [ofList, List.map_append, List.foldl_append]
      rfl
    rw [hlast, get?_set, ih]
    by_cases hk : k = x
    · simp [hk]
    · simp [hk]

/-- Iterating and reading agree. -/
theorem mem_entries_iff (d : Dict K V) (k : K) (v : V) :
    (k, v) ∈ d.entries ↔ d.get? k = some v := by
  obtain ⟨es, hes⟩ := d
  induction es with
  | nil => simp [get?, find]
  | cons e es ih =>
    obtain ⟨hnot, hes'⟩ := List.nodup_cons.mp hes
    have ih := ih hes'
    simp only [get?, find] at ih ⊢
    rw [List.mem_cons, ih]
    by_cases h : e.1 = k
    · have hnone : find k es ≠ some v := by
        intro hfind
        exact hnot (h ▸ List.mem_map_of_mem (ih.mpr hfind))
      simp only [if_pos h, Option.some.injEq]
      constructor
      · rintro (rfl | hmem)
        · rfl
        · exact absurd hmem hnone
      · rintro rfl
        exact .inl (Prod.ext h.symm rfl)
    · simp only [if_neg h, or_iff_right_iff_imp]
      rintro rfl
      exact absurd rfl h

theorem mem_keys_iff (d : Dict K V) (k : K) : k ∈ d.keys ↔ (d.get? k).isSome := by
  rw [keys, List.mem_map, Option.isSome_iff_exists]
  constructor
  · rintro ⟨⟨k', v⟩, hmem, rfl⟩
    exact ⟨v, (d.mem_entries_iff k' v).mp hmem⟩
  · rintro ⟨v, hv⟩
    exact ⟨(k, v), (d.mem_entries_iff k v).mpr hv, rfl⟩

theorem get?_erase (d : Dict K V) (k k' : K) :
    (d.erase k).get? k' = if k' = k then none else d.get? k' := by
  refine Option.ext ?_
  intro v
  rw [← mem_entries_iff]
  show (k', v) ∈ d.entries.filter _ ↔ _
  rw [List.mem_filter, mem_entries_iff]
  split
  · next h => simp [h]
  · next h => simp [h]

theorem erase_of_get?_eq_none {d : Dict K V} {k : K} (h : d.get? k = none) : d.erase k = d := by
  have hsame : d.entries.filter (fun e => e.1 ≠ k) = d.entries := by
    refine List.filter_eq_self.mpr ?_
    intro e he
    have hne : e.1 ≠ k := by
      rintro rfl
      rw [(d.mem_entries_iff e.1 e.2).mp he] at h
      cases h
    exact decide_eq_true hne
  obtain ⟨es, hes⟩ := d
  exact (mk.injEq ..).mpr hsame

theorem get?_filter (keep : K → V → Bool) (d : Dict K V) (k : K) :
    (d.filter keep).get? k = (d.get? k).filter (keep k) := by
  refine Option.ext ?_
  intro v
  rw [← mem_entries_iff, Option.filter_eq_some_iff, ← mem_entries_iff]
  show (k, v) ∈ d.entries.filter _ ↔ _
  rw [List.mem_filter]

@[simp] theorem get?_mapValues (f : V → V) (d : Dict K V) (k : K) :
    (d.mapValues f).get? k = (d.get? k).map f := by
  obtain ⟨es, hes⟩ := d
  show find k (es.map fun e => (e.1, f e.2)) = (find k es).map f
  clear hes
  induction es with
  | nil => rfl
  | cons e es ih =>
    by_cases h : e.1 = k
    · simp [find, h]
    · simp [find, h, ih]

@[simp] theorem get?_mapWithKey (f : K → V → V) (d : Dict K V) (k : K) :
    (d.mapWithKey f).get? k = (d.get? k).map (f k) := by
  obtain ⟨es, hes⟩ := d
  show find k (es.map fun e => (e.1, f e.1 e.2)) = (find k es).map (f k)
  clear hes
  induction es with
  | nil => rfl
  | cons e es ih =>
    by_cases h : e.1 = k
    · simp [find, h]
    · simp [find, h, ih]

theorem filter_key_of_not_mem {k : K} {es : List (K × V)} (h : k ∉ es.map Prod.fst) :
    es.filter (fun e => e.1 = k) = [] := by
  refine List.filter_eq_nil_iff.mpr ?_
  intro e he
  have hne : e.1 ≠ k := by
    rintro rfl
    exact h (List.mem_map_of_mem he)
  simp [hne]

/-- A dictionary has at most one entry of a key. -/
theorem filter_key (d : Dict K V) (k : K) :
    d.entries.filter (fun e => e.1 = k) = ((d.get? k).map fun v => (k, v)).toList := by
  obtain ⟨es, hes⟩ := d
  show es.filter _ = ((find k es).map _).toList
  induction es with
  | nil => rfl
  | cons e es ih =>
    obtain ⟨hnot, hes'⟩ := List.nodup_cons.mp hes
    by_cases h : e.1 = k
    · subst h
      rw [List.filter_cons_of_pos (by simp), filter_key_of_not_mem hnot]
      simp [find]
    · rw [List.filter_cons_of_neg (by simpa using h), ih hes']
      simp [find, h]

theorem keys_set (d : Dict K V) (k : K) (v : V) :
    (d.set k v).keys = if k ∈ d.keys then d.keys else d.keys ++ [k] :=
  keys_put k v d.entries

theorem put_of_not_mem {k : K} {es : List (K × V)} (h : k ∉ es.map Prod.fst) (v : V) :
    put k v es = es ++ [(k, v)] := by
  induction es with
  | nil => rfl
  | cons e es ih =>
    rw [List.map_cons, List.mem_cons, not_or] at h
    rw [put, if_neg (Ne.symm h.1), ih h.2]
    rfl

theorem entries_ofList_concat (es : List (K × V)) (e : K × V) :
    (ofList (es ++ [e])).entries = put e.1 e.2 (ofList es).entries := by
  rw [ofList, List.foldl_append]
  rfl

/-- A list with one entry a key is the dictionary it makes. -/
theorem entries_ofList {es : List (K × V)} (h : (es.map Prod.fst).Nodup) :
    (ofList es).entries = es := by
  induction es using List.reverseRecOn with
  | nil => rfl
  | append_singleton es e ih =>
    rw [List.map_append, List.nodup_append] at h
    have hnot : e.1 ∉ es.map Prod.fst := fun hmem => h.2.2 e.1 hmem e.1 (by simp) rfl
    rw [entries_ofList_concat, ih h.1, put_of_not_mem hnot]

theorem length_put (k : K) (v : V) (es : List (K × V)) :
    (put k v es).length = if k ∈ es.map Prod.fst then es.length else es.length + 1 := by
  have hkeys := congrArg List.length (keys_put k v es)
  rw [List.length_map] at hkeys
  rw [hkeys]
  split
  · rw [List.length_map]
  · rw [List.length_append, List.length_map, List.length_singleton]

theorem length_entries_ofList_le (es : List (K × V)) : (ofList es).entries.length ≤ es.length := by
  induction es using List.reverseRecOn with
  | nil => exact Nat.le_refl _
  | append_singleton es e ih =>
    rw [entries_ofList_concat, length_put, List.length_append, List.length_singleton]
    split
    · omega
    · omega

/-- A list that loses no entry is the dictionary it makes. -/
theorem entries_ofList_of_length {es : List (K × V)}
    (h : es.length ≤ (ofList es).entries.length) : (ofList es).entries = es := by
  induction es using List.reverseRecOn with
  | nil => rfl
  | append_singleton es e ih =>
    have hle := length_entries_ofList_le es
    rw [entries_ofList_concat, length_put, List.length_append, List.length_singleton] at h
    split at h
    · omega
    · next hnot =>
      rw [entries_ofList_concat, put_of_not_mem hnot, ih (by omega)]

/-- The dictionary of a list whose entries for a key are all the same. -/
theorem get?_ofList_of_unique {es : List (K × V)}
    (h : ∀ e ∈ es, ∀ e' ∈ es, e.1 = e'.1 → e.2 = e'.2) (k : K) (v : V) :
    (ofList es).get? k = some v ↔ (k, v) ∈ es := by
  induction es using List.reverseRecOn with
  | nil => simp [ofList]
  | append_singleton es e ih =>
    have hlast : ofList (es ++ [e]) = (ofList es).set e.1 e.2 := by
      rw [ofList, List.foldl_append]
      rfl
    have hrest := ih fun e₁ h₁ e₂ h₂ => h e₁ (List.mem_append_left _ h₁) e₂ (List.mem_append_left _ h₂)
    rw [hlast, get?_set, List.mem_append, List.mem_singleton, ← hrest]
    by_cases hk : k = e.1
    · rw [if_pos hk, Option.some.injEq]
      constructor
      · rintro rfl
        exact .inr (Prod.ext hk rfl)
      · rintro (hmem | heq)
        · exact h e (by simp) (k, v) (List.mem_append_left _ (hrest.mp hmem)) hk.symm
        · rw [← heq]
    · rw [if_neg hk]
      constructor
      · exact .inl
      · rintro (hmem | heq)
        · exact hmem
        · exact absurd (congrArg Prod.fst heq) hk

end Read

end Dict
