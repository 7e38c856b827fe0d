import Mathlib.Logic.Function.Basic
import NDTwin.Lib.Keyed

/-!
# Folding a journal of entry writes

`rule_journal.py` keeps the writes a switch accepted as one record a line and
needs, of a whole history, only the net write of each entry: `fold_records`
computes it from the first record of the entry (was it there before?) and the
last (is it there after, and with what spec?).  `records_from_net` goes back, so
that a replay can replace the history by a snapshot that folds to the same net.

The records' keys and specs stay generic.  A key is an entry's identity, which
the file holds as a digest; a spec is the request body, of which the fold reads
one bit, `default_action`.  A file may hold any JSON in the place of either, so a
key need not be hashable, nor a spec (or the `{}` that stands for none) an object.

## Main definitions

* `Op`, `Outcome`, `Record`, `Header`, `Line` — what a journal file holds.
* `foldRecords?` — `fold_records`, which raises on a key that is no key and on a spec
  that is no object.
* `foldRecords` — the net writes of a list of lines, which it returns where it does not.
* `recordsFromNet` — the records that say a net again, `records_from_net`.
* `netOf` — the net write of one entry's own records.

## Main results

* `foldRecords_eq` — **the fold is entry by entry**: the keys in the order they
  first appear, each with the net write of its own records.
* `foldRecords?_eq_ok_iff` — when the fold returns, and what.
* `foldRecords_recordsFromNet` — **a snapshot folds to the net it was made of.**
-/

namespace NDTwin
namespace Journal

open Keyed

/-! ### What a file holds -/

/-- The verbs of a journal record. -/
inductive Op where
  | insert
  | modify
  | delete
  deriving DecidableEq, Repr, Inhabited

/-- How the switch answered the write a record is of. -/
inductive Outcome where
  /-- The switch accepted the write. -/
  | ok
  /-- A delete the switch answered NOT_FOUND, recorded all the same. -/
  | notFound
  deriving DecidableEq, Repr, Inhabited

/-- One record of a write.  The line's `v` and `t` are written and never read. -/
structure Record (K S : Type*) where
  op : Op
  key : K
  spec : S
  outcome : Outcome
  deriving DecidableEq, Repr

/-- The header of a journal file: what its records were made against.  A field
the header does not name is `none`. -/
structure Header where
  fabricCookie : Option String
  p4infoSha256 : Option String
  entriesSha256 : Option String
  bootId : Option String
  deriving DecidableEq, Repr, Inhabited

/-- One line of a journal file, as far as a reader can tell lines apart. -/
inductive Line (K S : Type*) where
  /-- An object with a true `header`. -/
  | header (h : Header)
  /-- An object with a `key`. -/
  | record (r : Record K S)
  /-- Any other JSON object: readable, and no record. -/
  | keyless
  /-- A line of white space. -/
  | blank
  /-- A line that is not UTF-8, not JSON, or JSON that is no object. -/
  | torn
  deriving DecidableEq, Repr

/-- The record a line holds, for the lines a fold does not skip. -/
def Line.record? {K S : Type*} : Line K S → Option (Record K S)
  | .record r => some r
  | _ => none

/-- The net write of one entry. -/
structure NetItem (K S : Type*) where
  key : K
  op : Op
  spec : S
  /-- How many records were folded into it. -/
  records : ℕ
  /-- The entry's first record was a delete the switch answered NOT_FOUND. -/
  unknownBefore : Bool
  deriving DecidableEq, Repr

variable {K S : Type*} (isDefault : S → Bool)

/-! ### The fold -/

/-- Whether a record says the switch did not have the entry. -/
def wasAbsent (rec : Record K S) : Bool :=
  rec.op == .delete && rec.outcome == .notFound

/-- One turn of the second loop: the net write of an entry whose first and last
records are `f` and `l`. -/
def netItem (key : K) (f l : Record K S) (count : ℕ) : Option (NetItem K S) :=
  let spec := l.spec
  if isDefault spec then
    -- a table's default entry is never inserted and never deleted
    if l.op ≠ .delete then some ⟨key, .modify, spec, count, false⟩ else none
  else
    let after := l.op != .delete
    let unknown := wasAbsent f
    let before := f.op != .insert && !(unknown && after)
    if !before && after then some ⟨key, .insert, spec, count, unknown⟩
    else if before && after then some ⟨key, .modify, spec, count, unknown⟩
    else if before && !after then some ⟨key, .delete, spec, count, unknown⟩
    else none

/-- The four net writes there are, and when each is the one. -/
theorem netItem_cases {key : K} {f l : Record K S} {n : ℕ} {item : NetItem K S}
    (h : netItem isDefault key f l n = some item) :
    (isDefault l.spec = true ∧ l.op ≠ .delete ∧ item = ⟨key, .modify, l.spec, n, false⟩) ∨
    (isDefault l.spec = false ∧ l.op ≠ .delete ∧ (f.op = .insert ∨ wasAbsent f = true) ∧
      item = ⟨key, .insert, l.spec, n, wasAbsent f⟩) ∨
    (isDefault l.spec = false ∧ l.op ≠ .delete ∧ f.op ≠ .insert ∧ wasAbsent f = false ∧
      item = ⟨key, .modify, l.spec, n, false⟩) ∨
    (isDefault l.spec = false ∧ l.op = .delete ∧ f.op ≠ .insert ∧
      item = ⟨key, .delete, l.spec, n, wasAbsent f⟩) := by
  unfold netItem at h
  cases hd : isDefault l.spec <;> cases hl : l.op <;> cases hf : f.op <;>
    cases hu : wasAbsent f <;> simp_all

/-- Nothing is left to write of an entry that ends absent and is a default, or
was not there before. -/
theorem netItem_eq_none {key : K} {f l : Record K S} {n : ℕ} :
    netItem isDefault key f l n = none ↔
      l.op = .delete ∧ (isDefault l.spec = true ∨ f.op = .insert) := by
  unfold netItem
  cases hd : isDefault l.spec <;> cases hl : l.op <;> cases hf : f.op <;>
    cases hu : wasAbsent f <;> simp [hd]

theorem netItem_key {key : K} {f l : Record K S} {n : ℕ} {item : NetItem K S}
    (h : netItem isDefault key f l n = some item) : item.key = key := by
  rcases netItem_cases isDefault h with
    ⟨-, -, rfl⟩ | ⟨-, -, -, rfl⟩ | ⟨-, -, -, -, rfl⟩ | ⟨-, -, -, rfl⟩ <;> rfl

variable [DecidableEq K]

/-- What `fold_records` gathers in its one pass over the records. -/
structure FoldState (K S : Type*) where
  order : List K
  first : K → Option (Record K S)
  last : K → Option (Record K S)
  count : K → ℕ

/-- The state before the first record. -/
def FoldState.empty : FoldState K S := ⟨[], fun _ => none, fun _ => none, fun _ => 0⟩

/-- One turn of the gathering loop. -/
def FoldState.push (st : FoldState K S) (rec : Record K S) : FoldState K S :=
  let key := rec.key
  { order := if (st.first key).isNone then st.order ++ [key] else st.order
    first := if (st.first key).isNone then Function.update st.first key (some rec) else st.first
    last := Function.update st.last key (some rec)
    count := Function.update st.count key (st.count key + 1) }

/-- Collapse an ordered list of journal lines to the net write each entry needs: what
`fold_records` returns, where it returns. -/
def foldRecords (lines : List (Line K S)) : List (NetItem K S) :=
  let st := (lines.filterMap Line.record?).foldl FoldState.push FoldState.empty
  st.order.filterMap fun key =>
    match st.first key, st.last key with
    | some f, some l => netItem isDefault key f l (st.count key)
    | _, _ => none

/-- The records that say a net write again.  One that began unknown is written
as the NOT_FOUND delete it began with and then the write itself. -/
def recordsOfItem (item : NetItem K S) : List (Record K S) :=
  (if item.unknownBefore then [⟨.delete, item.key, item.spec, .notFound⟩] else []) ++
    [⟨item.op, item.key, item.spec, .ok⟩]

/-- The records that say exactly what `foldRecords` computed. -/
def recordsFromNet (net : List (NetItem K S)) : List (Record K S) :=
  net.flatMap recordsOfItem

/-! ### The fold, entry by entry -/

/-- The net write of one entry from its own records. -/
def netOf (key : K) (recs : List (Record K S)) : Option (NetItem K S) :=
  match recs.head?, recs.getLast? with
  | some f, some l => netItem isDefault key f l recs.length
  | _, _ => none

/-- What the gathering loop has gathered after the records `recs`. -/
structure FoldState.Gathered (st : FoldState K S) (recs : List (Record K S)) : Prop where
  order : st.order = firstSeen Record.key recs
  first : ∀ k, st.first k = (ofKey Record.key k recs).head?
  last : ∀ k, st.last k = (ofKey Record.key k recs).getLast?
  count : ∀ k, st.count k = (ofKey Record.key k recs).length

theorem FoldState.gathered_empty : (FoldState.empty : FoldState K S).Gathered [] :=
  ⟨rfl, fun _ => rfl, fun _ => rfl, fun _ => rfl⟩

@[simp] theorem FoldState.push_first (st : FoldState K S) (rec : Record K S) (k : K) :
    (st.push rec).first k = if rec.key = k then (st.first k).or (some rec) else st.first k := by
  unfold FoldState.push
  by_cases hk : rec.key = k
  · subst hk
    cases h : st.first rec.key <;> simp [h]
  · cases h : st.first rec.key <;> simp [h, hk, Function.update_of_ne (Ne.symm hk)]

@[simp] theorem FoldState.push_last (st : FoldState K S) (rec : Record K S) (k : K) :
    (st.push rec).last k = if rec.key = k then some rec else st.last k := by
  by_cases hk : rec.key = k
  · subst hk; simp [FoldState.push]
  · simp [FoldState.push, hk, Function.update_of_ne (Ne.symm hk)]

@[simp] theorem FoldState.push_count (st : FoldState K S) (rec : Record K S) (k : K) :
    (st.push rec).count k = if rec.key = k then st.count k + 1 else st.count k := by
  by_cases hk : rec.key = k
  · subst hk; simp [FoldState.push]
  · simp [FoldState.push, hk, Function.update_of_ne (Ne.symm hk)]

theorem FoldState.Gathered.first_isNone {st : FoldState K S} {recs : List (Record K S)}
    (h : st.Gathered recs) (k : K) :
    (st.first k).isNone = true ↔ k ∉ firstSeen Record.key recs := by
  rw [h.first, mem_firstSeen_iff_ofKey, Option.isNone_iff_eq_none, List.head?_eq_none_iff, not_not]

theorem FoldState.Gathered.push {st : FoldState K S} {recs : List (Record K S)}
    (h : st.Gathered recs) (rec : Record K S) : (st.push rec).Gathered (recs ++ [rec]) where
  order := by
    rw [firstSeen_append_singleton, FoldState.push, h.order]
    by_cases hseen : rec.key ∈ firstSeen Record.key recs
    · simp [hseen, mt (h.first_isNone rec.key).mp]
    · simp [hseen, (h.first_isNone rec.key).mpr hseen]
  first k := by
    rw [FoldState.push_first, ofKey_append_singleton, h.first]
    split
    · rw [List.head?_append]; rfl
    · rfl
  last k := by
    rw [FoldState.push_last, ofKey_append_singleton, h.last]
    split
    · rw [List.getLast?_concat]
    · rfl
  count k := by
    rw [FoldState.push_count, ofKey_append_singleton, h.count]
    split
    · rw [List.length_append]; rfl
    · rfl

theorem FoldState.gathered_foldl (recs : List (Record K S)) :
    (recs.foldl FoldState.push (FoldState.empty : FoldState K S)).Gathered recs := by
  induction recs using List.reverseRecOn with
  | nil => exact FoldState.gathered_empty
  | append_singleton recs rec ih =>
    rw [List.foldl_append]
    exact ih.push rec

/-- **The fold is entry by entry**: the keys in the order they first appear,
each with the net write of its own records. -/
theorem foldRecords_eq (lines : List (Line K S)) :
    foldRecords isDefault lines =
      (firstSeen Record.key (lines.filterMap Line.record?)).filterMap fun k =>
        netOf isDefault k (ofKey Record.key k (lines.filterMap Line.record?)) := by
  have h := FoldState.gathered_foldl (lines.filterMap Line.record?)
  simp only [foldRecords, h.order]
  refine List.filterMap_congr ?_
  intro k _
  rw [h.first, h.last, h.count]
  rfl

/-- The fold sees nothing of a list of lines but its records. -/
theorem foldRecords_congr {lines lines' : List (Line K S)}
    (h : lines.filterMap Line.record? = lines'.filterMap Line.record?) :
    foldRecords isDefault lines = foldRecords isDefault lines' := by
  rw [foldRecords_eq, foldRecords_eq, h]

omit [DecidableEq K] in
theorem netOf_key {key : K} {recs : List (Record K S)} {item : NetItem K S}
    (h : netOf isDefault key recs = some item) : item.key = key := by
  unfold netOf at h
  split at h
  · exact netItem_key isDefault h
  · cases h

/-- An item of the fold is the net write of its key's own records. -/
theorem mem_foldRecords {lines : List (Line K S)} {item : NetItem K S} :
    item ∈ foldRecords isDefault lines ↔
      netOf isDefault item.key (ofKey Record.key item.key (lines.filterMap Line.record?))
        = some item := by
  rw [foldRecords_eq, List.mem_filterMap]
  constructor
  · rintro ⟨k, -, hk⟩
    rw [netOf_key isDefault hk]
    exact hk
  · intro h
    refine ⟨item.key, ?_, h⟩
    rw [mem_firstSeen_iff_ofKey]
    intro hnil
    rw [hnil] at h
    cases h

/-- The net write the fold has for a key. -/
theorem find?_foldRecords (lines : List (Line K S)) (k : K) :
    (foldRecords isDefault lines).find? (fun item => item.key = k) =
      netOf isDefault k (ofKey Record.key k (lines.filterMap Line.record?)) := by
  rw [foldRecords_eq]
  refine (find?_filterMap_key id Function.injective_id NetItem.key _
    (fun _ _ h => netOf_key isDefault h) _ k).trans ?_
  split
  · rfl
  · next hno =>
    rw [ofKey_eq_nil Record.key hno]
    rfl

/-- The fold lists no key twice. -/
theorem nodup_foldRecords_key (lines : List (Line K S)) :
    ((foldRecords isDefault lines).map NetItem.key).Nodup := by
  rw [foldRecords_eq, List.map_filterMap]
  refine List.Nodup.filterMap ?_ (nodup_firstSeen _ _)
  intro k k' x hx hx'
  simp only [Option.mem_def, Option.map_eq_some_iff] at hx hx'
  obtain ⟨i, hi, rfl⟩ := hx
  obtain ⟨i', hi', he⟩ := hx'
  rw [← netOf_key isDefault hi, ← netOf_key isDefault hi', he]

/-! ### Records that cannot be folded -/

/-- What `fold_records` raises. -/
inductive FoldError where
  /-- A key that no dictionary holds: a list, or an object. -/
  | typeError
  /-- `spec.get` of a spec that is no object. -/
  | attributeError
  deriving DecidableEq, Repr

section Raises

variable (hashable : K → Bool) (isObject : S → Bool)

/-- One turn of the gathering loop, which looks the key up first. -/
def FoldState.push? (st : FoldState K S) (rec : Record K S) : Except FoldError (FoldState K S) :=
  if hashable rec.key then .ok (st.push rec) else .error .typeError

/-- The second loop, which asks the last spec of each key for its `default_action`. -/
def netItems? (st : FoldState K S) : List K → Except FoldError (List (NetItem K S))
  | [] => .ok []
  | key :: keys =>
    match st.first key, st.last key with
    | some f, some l =>
      if isObject l.spec then do
        let net ← netItems? st keys
        return (netItem isDefault key f l (st.count key)).toList ++ net
      else .error .attributeError
    | _, _ => netItems? st keys

/-- `fold_records`. -/
def foldRecords? (lines : List (Line K S)) : Except FoldError (List (NetItem K S)) := do
  let st ← (lines.filterMap Line.record?).foldlM (FoldState.push? hashable) FoldState.empty
  netItems? isDefault isObject st st.order

theorem foldlM_push? (recs : List (Record K S)) (st : FoldState K S) :
    recs.foldlM (FoldState.push? hashable) st =
      if ∀ rec ∈ recs, hashable rec.key then .ok (recs.foldl FoldState.push st)
      else .error .typeError := by
  induction recs generalizing st with
  | nil => simp [pure, Except.pure]
  | cons rec recs ih =>
    rw [List.foldlM_cons, FoldState.push?]
    cases hkey : hashable rec.key with
    | false => simp [hkey, bind, Except.bind]
    | true => simp [hkey, bind, Except.bind, ih]

/-- The second loop over the keys of `recs`, of which each has a first and a last record. -/
theorem netItems?_eq {st : FoldState K S} {recs : List (Record K S)} (h : st.Gathered recs)
    {keys : List K} (hkeys : ∀ k ∈ keys, ofKey Record.key k recs ≠ []) :
    netItems? isDefault isObject st keys =
      if ∀ k ∈ keys, ∀ l ∈ (ofKey Record.key k recs).getLast?, isObject l.spec then
        .ok (keys.filterMap fun k => netOf isDefault k (ofKey Record.key k recs))
      else .error .attributeError := by
  induction keys with
  | nil => simp [netItems?]
  | cons k keys ih =>
    have ih := ih fun k' hk' => hkeys k' (List.mem_cons_of_mem _ hk')
    have hsome := hkeys k List.mem_cons_self
    obtain ⟨f, hf⟩ : ∃ f, (ofKey Record.key k recs).head? = some f :=
      ⟨_, List.head?_eq_some_head hsome⟩
    obtain ⟨l, hl⟩ : ∃ l, (ofKey Record.key k recs).getLast? = some l :=
      ⟨_, List.getLast?_eq_some_getLast hsome⟩
    have hnet : netOf isDefault k (ofKey Record.key k recs) =
        netItem isDefault k f l (ofKey Record.key k recs).length := by
      rw [netOf, hf, hl]
    rw [netItems?, h.first, h.last, h.count, hf, hl, List.filterMap_cons, hnet]
    simp only [List.forall_mem_cons, hl, Option.mem_def, Option.some.injEq, forall_eq']
    cases hspec : isObject l.spec with
    | false => simp
    | true =>
      rw [ih]
      by_cases hrest : ∀ k' ∈ keys, ∀ l' ∈ (ofKey Record.key k' recs).getLast?, isObject l'.spec
      · rw [if_pos hrest, if_pos rfl, if_pos ⟨rfl, hrest⟩]
        cases netItem isDefault k f l (ofKey Record.key k recs).length <;> rfl
      · rw [if_neg hrest, if_pos rfl, if_neg fun hall => hrest hall.2]
        rfl

/-- **When the fold returns, and what**: every key can be looked up, and the last spec of
each is an object. -/
theorem foldRecords?_eq_ok_iff {lines : List (Line K S)} {net : List (NetItem K S)} :
    foldRecords? isDefault hashable isObject lines = .ok net ↔
      net = foldRecords isDefault lines ∧
      (∀ rec ∈ lines.filterMap Line.record?, hashable rec.key = true) ∧
      ∀ key, ∀ l ∈ (ofKey Record.key key (lines.filterMap Line.record?)).getLast?,
        isObject l.spec = true := by
  set recs := lines.filterMap Line.record? with hrecs
  have hgathered := FoldState.gathered_foldl recs
  have hkeys : ∀ k ∈ firstSeen Record.key recs, ofKey Record.key k recs ≠ [] :=
    fun k hk => (mem_firstSeen_iff_ofKey ..).mp hk
  -- a key with a last record is one of those the first loop has put in order
  have hall : (∀ k ∈ firstSeen Record.key recs, ∀ l ∈ (ofKey Record.key k recs).getLast?,
      isObject l.spec = true) ↔
      ∀ k, ∀ l ∈ (ofKey Record.key k recs).getLast?, isObject l.spec = true := by
    refine ⟨fun h k l hl => h k ?_ l hl, fun h k _ => h k⟩
    rw [mem_firstSeen_iff_ofKey]
    rintro hnil
    rw [hnil] at hl
    cases hl
  rw [foldRecords?, ← hrecs, foldlM_push?]
  by_cases hhash : ∀ rec ∈ recs, hashable rec.key = true
  · rw [if_pos hhash]
    show netItems? isDefault isObject _ _ = _ ↔ _
    rw [hgathered.order, netItems?_eq isDefault isObject hgathered hkeys, foldRecords_eq, ← hrecs]
    by_cases hobj : ∀ k ∈ firstSeen Record.key recs, ∀ l ∈ (ofKey Record.key k recs).getLast?,
        isObject l.spec = true
    · rw [if_pos hobj, Except.ok.injEq]
      exact ⟨fun heq => ⟨heq.symm, hhash, hall.mp hobj⟩, fun h => h.1.symm⟩
    · rw [if_neg hobj]
      exact ⟨fun h => absurd h (by simp), fun h => absurd (hall.mpr h.2.2) hobj⟩
  · rw [if_neg hhash]
    exact ⟨fun h => absurd h (by simp [bind, Except.bind]), fun h => absurd h.2.1 hhash⟩

end Raises

/-! ### A snapshot says the net again -/

/-- What of a net write a snapshot keeps: all of it but the record count. -/
def NetItem.write (item : NetItem K S) : K × Op × S × Bool :=
  (item.key, item.op, item.spec, item.unknownBefore)

/-- The shapes of net write a fold can produce: a default entry nets to a plain
modify, and an entry that began unknown never nets to one. -/
def NetItem.Foldable (item : NetItem K S) : Prop :=
  (isDefault item.spec = true → item.op = .modify ∧ item.unknownBefore = false) ∧
    (item.unknownBefore = true → item.op ≠ .modify)

omit [DecidableEq K] in
theorem netItem_foldable {key : K} {f l : Record K S} {n : ℕ} {item : NetItem K S}
    (h : netItem isDefault key f l n = some item) : item.Foldable isDefault := by
  rcases netItem_cases isDefault h with
    ⟨-, -, rfl⟩ | ⟨hd, -, -, rfl⟩ | ⟨hd, -, -, -, rfl⟩ | ⟨hd, -, -, rfl⟩
  · simp [NetItem.Foldable]
  · simp [NetItem.Foldable, hd]
  · simp [NetItem.Foldable]
  · simp [NetItem.Foldable, hd]

theorem foldable_of_mem_foldRecords {lines : List (Line K S)} {item : NetItem K S}
    (h : item ∈ foldRecords isDefault lines) : item.Foldable isDefault := by
  have hnet := (mem_foldRecords isDefault).mp h
  unfold netOf at hnet
  split at hnet
  · exact netItem_foldable isDefault hnet
  · cases hnet

omit [DecidableEq K] in
theorem netOf_recordsOfItem {item : NetItem K S} (h : item.Foldable isDefault) :
    (netOf isDefault item.key (recordsOfItem item)).map NetItem.write = some item.write := by
  obtain ⟨key, op, spec, n, unknown⟩ := item
  obtain ⟨hdef, hunk⟩ := h
  cases hd : isDefault spec <;> cases unknown <;> cases op <;>
    simp_all [netOf, netItem, recordsOfItem, wasAbsent, NetItem.write]

omit [DecidableEq K] in
theorem mem_recordsOfItem {item : NetItem K S} {r : Record K S} (hr : r ∈ recordsOfItem item) :
    r.key = item.key ∧ r.spec = item.spec ∧ (r.op = .delete ∨ r.op = item.op) := by
  unfold recordsOfItem at hr
  split at hr <;> simp at hr
  · rcases hr with rfl | rfl <;> simp
  · rw [hr]; simp

omit [DecidableEq K] in
theorem filterMap_record?_map_record (recs : List (Record K S)) :
    (recs.map Line.record).filterMap Line.record? = recs := by
  rw [List.filterMap_map]
  exact List.filterMap_some

/-- **A snapshot folds to the net it was made of**: same keys, verbs, specs and
unknown marks, in the same order. -/
theorem foldRecords_recordsFromNet {net : List (NetItem K S)}
    (hnodup : (net.map NetItem.key).Nodup) (hfold : ∀ item ∈ net, item.Foldable isDefault) :
    (foldRecords isDefault ((recordsFromNet net).map Line.record)).map NetItem.write
      = net.map NetItem.write := by
  have hblock : ∀ item ∈ net, ∀ r ∈ recordsOfItem item, Record.key r = NetItem.key item :=
    fun item _ r hr => (mem_recordsOfItem hr).1
  have hne : ∀ item ∈ net, recordsOfItem item ≠ [] := fun item _ => by simp [recordsOfItem]
  rw [foldRecords_eq, filterMap_record?_map_record, recordsFromNet,
    firstSeen_flatMap Record.key NetItem.key recordsOfItem hblock hne hnodup,
    List.filterMap_map, List.map_filterMap]
  -- every key finds its own item's records, and they net to the item
  have hitem : ∀ item ∈ net,
      Option.map NetItem.write (netOf isDefault item.key
        (ofKey Record.key item.key (net.flatMap recordsOfItem))) = some item.write := by
    intro item hitem
    rw [ofKey_flatMap Record.key NetItem.key recordsOfItem hblock hnodup hitem]
    exact netOf_recordsOfItem isDefault (hfold item hitem)
  rw [← List.filterMap_eq_map]
  exact List.filterMap_congr hitem

end Journal
end NDTwin
