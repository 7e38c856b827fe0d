import Mathlib.Data.List.Basic
import Mathlib.Data.List.Induction
import Mathlib.Data.List.Nodup

/-!
# Lists of keyed values

A log is a list whose members carry a key.  Two views of it are enough to say
what any per-key fold computes: the keys in the order each first appears, and
for one key the sublist of the members that carry it.

## Main definitions

* `firstSeen key l` — the keys of `l`, each once, in order of first appearance.
* `ofKey key k l` — the members of `l` with key `k`.

## Main results

* `firstSeen_append_singleton`, `ofKey_append_singleton` — one more member.
* `mem_firstSeen`, `nodup_firstSeen` — which keys are listed, and that none is
  listed twice.
* `firstSeen_flatMap`, `ofKey_flatMap` — a list assembled from one block a key
  has exactly those keys and those blocks.
-/

namespace Keyed

variable {R K : Type*} [DecidableEq K] (key : R → K)

/-- The keys of a list, each once, in the order of first appearance. -/
def firstSeen (l : List R) : List K :=
  l.foldl (fun acc r => if key r ∈ acc then acc else acc ++ [key r]) []

/-- The members of a list that carry the key `k`. -/
def ofKey (k : K) (l : List R) : List R := l.filter fun r => key r = k

/-! ### One more member -/

@[simp] theorem firstSeen_nil : firstSeen key [] = [] := rfl

@[simp] theorem ofKey_nil (k : K) : ofKey key k [] = [] := rfl

theorem firstSeen_append_singleton (l : List R) (r : R) :
    firstSeen key (l ++ [r]) =
      if key r ∈ firstSeen key l then firstSeen key l else firstSeen key l ++ [key r] := by
  rw [firstSeen, List.foldl_append]
  rfl

theorem ofKey_append (k : K) (l l' : List R) :
    ofKey key k (l ++ l') = ofKey key k l ++ ofKey key k l' := by
  simp [ofKey]

theorem ofKey_append_singleton (k : K) (l : List R) (r : R) :
    ofKey key k (l ++ [r]) = if key r = k then ofKey key k l ++ [r] else ofKey key k l := by
  rw [ofKey_append]
  by_cases h : key r = k <;> simp [ofKey, h]

theorem firstSeen_map {R' : Type*} (f : R' → R) (l : List R') :
    firstSeen key (l.map f) = firstSeen (fun r => key (f r)) l := by
  rw [firstSeen, List.foldl_map]
  rfl

theorem ofKey_map {R' : Type*} (f : R' → R) (k : K) (l : List R') :
    ofKey key k (l.map f) = (ofKey (fun r => key (f r)) k l).map f := by
  rw [ofKey, List.filter_map]
  rfl

theorem mem_ofKey {k : K} {l : List R} {r : R} : r ∈ ofKey key k l ↔ r ∈ l ∧ key r = k := by
  simp [ofKey]

/-- The members with a key of a list that is mapped in part are the images of those with it. -/
theorem ofKey_filterMap {R' : Type*} {f : R' → Option R} {key' : R' → K}
    (hkey : ∀ r' r, f r' = some r → key r = key' r') (k : K) (l : List R') :
    ofKey key k (l.filterMap f) = (ofKey key' k l).filterMap f := by
  induction l with
  | nil => rfl
  | cons r' l ih =>
    cases hr' : f r' with
    | none =>
      rw [List.filterMap_cons_none hr', ih]
      by_cases h : key' r' = k <;> simp [ofKey, h, hr']
    | some r =>
      rw [List.filterMap_cons_some hr']
      have hk := hkey r' r hr'
      by_cases h : key' r' = k
      · simpa [ofKey, h, hr', hk] using ih
      · simpa [ofKey, h, hk] using ih

theorem find?_eq_head?_ofKey (k : K) (l : List R) :
    l.find? (fun r => key r = k) = (ofKey key k l).head? :=
  (List.head?_filter ..).symm

/-! ### Which keys are listed -/

theorem mem_firstSeen {l : List R} {k : K} : k ∈ firstSeen key l ↔ ∃ r ∈ l, key r = k := by
  induction l using List.reverseRecOn with
  | nil => simp
  | append_singleton l r ih =>
    rw [firstSeen_append_singleton]
    split
    · next h =>
      -- `key r` is listed already, so the new member adds no key
      constructor
      · intro hk
        obtain ⟨x, hx, hxk⟩ := ih.mp hk
        exact ⟨x, by simp [hx], hxk⟩
      · rintro ⟨x, hx, rfl⟩
        rcases List.mem_append.mp hx with hx | hx
        · exact ih.mpr ⟨x, hx, rfl⟩
        · rw [List.mem_singleton.mp hx]; exact h
    · simp only [List.mem_append, List.mem_singleton, ih]
      constructor
      · rintro (⟨x, hx, hxk⟩ | rfl)
        · exact ⟨x, Or.inl hx, hxk⟩
        · exact ⟨r, Or.inr rfl, rfl⟩
      · rintro ⟨x, hx | rfl, rfl⟩
        · exact Or.inl ⟨x, hx, rfl⟩
        · exact Or.inr rfl

theorem mem_firstSeen_iff_ofKey {l : List R} {k : K} :
    k ∈ firstSeen key l ↔ ofKey key k l ≠ [] := by
  rw [mem_firstSeen, Ne, List.eq_nil_iff_forall_not_mem]
  push Not
  simp only [mem_ofKey]

theorem ofKey_eq_nil {l : List R} {k : K} (h : k ∉ firstSeen key l) : ofKey key k l = [] := by
  by_contra hne
  exact h ((mem_firstSeen_iff_ofKey key).mpr hne)

theorem nodup_firstSeen (l : List R) : (firstSeen key l).Nodup := by
  induction l using List.reverseRecOn with
  | nil => simp
  | append_singleton l r ih =>
    rw [firstSeen_append_singleton]
    split
    · exact ih
    · next h => exact List.nodup_append.mpr ⟨ih, by simp, by
        intro a ha b hb
        rw [List.mem_singleton] at hb
        rintro rfl
        exact h (hb ▸ ha)⟩

/-! ### A list made of one block a key -/

section Blocks

variable {I : Type*} (name : I → K) (block : I → List R)

theorem ofKey_block {k : K} {i : I} (hblock : ∀ r ∈ block i, key r = name i) :
    ofKey key k (block i) = if name i = k then block i else [] := by
  split
  · next h => exact List.filter_eq_self.mpr fun r hr => by simp [hblock r hr, h]
  · next h => exact List.filter_eq_nil_iff.mpr fun r hr => by simp [hblock r hr, h]

theorem ofKey_flatMap_of_notMem {is : List I} {k : K}
    (hblock : ∀ i ∈ is, ∀ r ∈ block i, key r = name i) (hk : k ∉ is.map name) :
    ofKey key k (is.flatMap block) = [] := by
  rw [ofKey, List.filter_eq_nil_iff]
  intro r hr
  obtain ⟨i, hi, hri⟩ := List.mem_flatMap.mp hr
  have hname : name i ≠ k := fun h => hk (List.mem_map.mpr ⟨i, hi, h⟩)
  simp [hblock i hi r hri, hname]

/-- The block of an item is what its key selects. -/
theorem ofKey_flatMap {is : List I} (hblock : ∀ i ∈ is, ∀ r ∈ block i, key r = name i)
    (hnodup : (is.map name).Nodup) {i : I} (hi : i ∈ is) :
    ofKey key (name i) (is.flatMap block) = block i := by
  induction is with
  | nil => simp at hi
  | cons j is ih =>
    simp only [List.map_cons, List.nodup_cons] at hnodup
    rw [List.flatMap_cons, ofKey_append, ofKey_block key name block (hblock j (by simp))]
    rcases List.mem_cons.mp hi with rfl | hi'
    · rw [ofKey_flatMap_of_notMem key name block (fun i hi => hblock i (by simp [hi])) hnodup.1]
      simp
    · have hne : name j ≠ name i := fun h => hnodup.1 (h ▸ List.mem_map.mpr ⟨i, hi', rfl⟩)
      rw [if_neg hne, List.nil_append]
      exact ih (fun i hi => hblock i (by simp [hi])) hnodup.2 hi'

/-- A stretch of members whose keys are all listed already lists no new key. -/
theorem firstSeen_append_of_forall_mem {l l' : List R}
    (h : ∀ r ∈ l', key r ∈ firstSeen key l) : firstSeen key (l ++ l') = firstSeen key l := by
  induction l' using List.reverseRecOn with
  | nil => rw [List.append_nil]
  | append_singleton l' r ih =>
    have hl' := ih fun x hx => h x (by simp [hx])
    rw [← List.append_assoc, firstSeen_append_singleton, hl', if_pos (h r (by simp))]

theorem firstSeen_append_block {l : List R} {i : I} (hblock : ∀ r ∈ block i, key r = name i)
    (hne : block i ≠ []) (hnew : name i ∉ firstSeen key l) :
    firstSeen key (l ++ block i) = firstSeen key l ++ [name i] := by
  obtain ⟨r, b, hb⟩ := List.exists_cons_of_ne_nil hne
  -- the first member of the block adds the key, the rest of the block finds it listed
  have hfirst : firstSeen key (l ++ [r]) = firstSeen key l ++ [name i] := by
    rw [firstSeen_append_singleton, hblock r (by simp [hb]), if_neg hnew]
  have hrest : l ++ block i = (l ++ [r]) ++ b := by simp [hb]
  rw [hrest, firstSeen_append_of_forall_mem key, hfirst]
  intro x hx
  rw [hfirst, hblock x (by simp [hb, hx])]
  simp

/-- A list made of one non-empty block an item lists the items' keys. -/
theorem firstSeen_flatMap {is : List I} (hblock : ∀ i ∈ is, ∀ r ∈ block i, key r = name i)
    (hne : ∀ i ∈ is, block i ≠ []) (hnodup : (is.map name).Nodup) :
    firstSeen key (is.flatMap block) = is.map name := by
  induction is using List.reverseRecOn with
  | nil => simp
  | append_singleton is i ih =>
    rw [List.map_append, List.nodup_append] at hnodup
    have his := ih (fun j hj => hblock j (by simp [hj])) (fun j hj => hne j (by simp [hj]))
      hnodup.1
    have hnew : name i ∉ firstSeen key (is.flatMap block) := by
      rw [his]
      intro hmem
      exact hnodup.2.2 _ hmem _ (by simp) rfl
    rw [List.flatMap_append, List.flatMap_singleton, List.map_append,
      firstSeen_append_block key name block (hblock i (by simp)) (hne i (by simp)) hnew, his]
    rfl

end Blocks

/-! ### Looking a key up -/

/-- What a member is mapped to is found under its name. -/
theorem find?_filterMap_key {I A : Type*} [DecidableEq I] (name : I → K)
    (hinj : Function.Injective name) (nameOf : A → K) (f : I → Option A)
    (hname : ∀ i a, f i = some a → nameOf a = name i) (l : List I) (i : I) :
    (l.filterMap f).find? (fun a => nameOf a = name i) = if i ∈ l then f i else none := by
  induction l with
  | nil => rfl
  | cons x l ih =>
    cases hx : f x with
    | none =>
      rw [List.filterMap_cons_none hx, ih]
      by_cases hi : i = x
      · subst hi
        simp [hx]
      · simp [hi]
    | some a =>
      rw [List.filterMap_cons_some hx, List.find?_cons, hname x a hx]
      by_cases hi : i = x
      · subst hi
        simp [hx]
      · have hne : name x ≠ name i := fun h => hi (hinj h).symm
        simp [hi, hne, ih]

/-- Lists of named members are equal only if every member is. -/
theorem filterMap_named_inj {I A : Type*} [DecidableEq I] (name : I → K)
    (hinj : Function.Injective name) (nameOf : A → K) {f g : I → Option A}
    (hf : ∀ i a, f i = some a → nameOf a = name i) (hg : ∀ i a, g i = some a → nameOf a = name i)
    {l : List I} (h : l.filterMap f = l.filterMap g) {i : I} (hi : i ∈ l) : f i = g i := by
  have hfind := find?_filterMap_key name hinj nameOf f hf l i
  rw [h, find?_filterMap_key name hinj nameOf g hg l i, if_pos hi, if_pos hi] at hfind
  exact hfind.symm

end Keyed
