import Mathlib.Data.List.TakeWhile
import NDTwin.Lib.JsonText
import NDTwin.Lib.Keyed
import NDTwin.Routing.Match
import NDTwin.Routing.RuleJournal

/-!
# What the journal's identity of a rule names

The journal folds its records by an identity that should name the switch entry a record wrote.
Two requests reach one entry by different spellings: of a destination, which
`canonical_destination` writes in one way for both; of a field's name, which
`five_tuple_keys` maps to its key; and of a number, which only the encoder reads.  The
identity has the number as the request spells it.

## Main definitions

* `reading` — what the encoder makes of a value.
* `Match.value` — the value a match gives a key.
* `Respelled` — two requests that differ by the spelling of a number.

## Main results

* `lpmEntry_spec`, `fiveTupleEntry_spec` — what an accepted request writes, by its values.
* `identity_eq_iff_entry_eq` — **the identity names the entry**, but for a respelled number.
-/

namespace NDTwin
namespace Routing

open Json Keyed

section Identity

variable {F : Type*} {fl : Floats F}

/-! ### Texts of routes -/

theorem slash_notMem_of_pton {s : String} {bytes : List ℕ} (h : Ipv4.pton s = some bytes) :
    '/' ∉ s.toList := by
  rw [← Ipv4.ntoa_pton h]
  exact slash_notMem_ntoa bytes

/-- A route key is taken apart into what it was made of. -/
theorem splitRouteKey_routeText {bytes : List ℕ} {n : ℕ} (hn : n ≤ 32) :
    splitRouteKey (routeText bytes n) = some (Ipv4.ntoa bytes, (n : ℤ)) := by
  unfold splitRouteKey routeText
  by_cases h32 : n = 32
  · rw [if_pos h32, partition_of_notMem (slash_notMem_ntoa bytes)]
    simp [h32]
  · rw [if_neg h32, String.toList_ofList, partition_append (slash_notMem_ntoa bytes)]
    simp [ofString_toDigits n (by omega)]

/-- A route key is the text of one entry. -/
theorem routeText_inj {bytes bytes' : List ℕ} {n n' : ℕ} (hlen : bytes.length = 4)
    (hbytes : ∀ b ∈ bytes, b < 256) (hn : n ≤ 32) (hlen' : bytes'.length = 4)
    (hbytes' : ∀ b ∈ bytes', b < 256) (hn' : n' ≤ 32)
    (h : routeText bytes n = routeText bytes' n') : bytes = bytes' ∧ n = n' := by
  have hsplit := congrArg splitRouteKey h
  rw [splitRouteKey_routeText hn, splitRouteKey_routeText hn'] at hsplit
  simp only [Option.some.injEq, Prod.mk.injEq, Int.natCast_inj] at hsplit
  have hpton := congrArg Ipv4.pton hsplit.1
  rw [Ipv4.pton_ntoa hlen hbytes, Ipv4.pton_ntoa hlen' hbytes'] at hpton
  exact ⟨Option.some.inj hpton, hsplit.2⟩

/-! ### What the checks let through -/

theorem checkField_of_checked {m : Match F} (h : checkMatchValues fl m = none)
    {p : String × Json F} (hp : p ∈ m.fields) : checkField fl (!needsFiveTuple m) p = none := by
  unfold checkMatchValues at h
  have hfields := (Option.or_eq_none_iff.mp h).1
  exact List.findSome?_eq_none_iff.mp hfields p ((List.mem_insertionSort _).mpr hp)

theorem needsFiveTuple_canonicalDestination (m : Match F) :
    needsFiveTuple (canonicalDestination m) = needsFiveTuple m := by
  unfold needsFiveTuple canonicalDestination
  rw [List.any_map]
  exact congrArg (m.fields.any ·) (funext fun p => by simp [canonicalField_fst])

theorem isAddressField_of_isDestinationField {field : String} (h : isDestinationField field = true) :
    isAddressField field = true ∧ fiveTupleFieldMap field ≠ some .ingressPort := by
  unfold isDestinationField at h
  rw [Bool.or_eq_true, beq_iff_eq, beq_iff_eq] at h
  rcases h with rfl | rfl <;> decide

/-- What `parse_destination` takes. -/
theorem parseDestination_eq_some {v : Json F} {address : String} {n : ℕ}
    (h : parseDestination v = some (address, n)) :
    ∃ s bytes, v = .str s ∧ s ≠ "" ∧ Ipv4.pton address = some bytes ∧ n ≤ 32 := by
  unfold parseDestination at h
  split at h
  · next s =>
    dsimp only at h
    split at h
    · next hpton =>
      obtain ⟨bytes, hbytes⟩ := Option.isSome_iff_exists.mp hpton
      have hs : s ≠ "" := by
        rintro rfl
        exact absurd hpton (by decide)
      split at h
      · cases h
        exact ⟨s, bytes, rfl, hs, hbytes, le_rfl⟩
      · split at h
        · split at h
          · next hn =>
            cases h
            exact ⟨s, bytes, rfl, hs, hbytes, hn.2⟩
          · cases h
        · cases h
    · cases h
  · cases h

/-- A destination that passed its check is a route key after `canonical_destination`. -/
theorem canonicalField_destination {p : String × Json F} (hdst : isDestinationField p.1 = true)
    (hcheck : checkField fl true p = none) :
    ∃ bytes n, canonicalField p = (p.1, .str (routeText bytes n)) ∧ bytes.length = 4 ∧
      (∀ b ∈ bytes, b < 256) ∧ n ≤ 32 := by
  obtain ⟨haddr, hport⟩ := isAddressField_of_isDestinationField hdst
  have hparse : (parseDestination p.2).isSome := by
    by_contra hno
    simp [checkField, haddr, hport, hdst, hno] at hcheck
  obtain ⟨⟨address, n⟩, hparse⟩ := Option.isSome_iff_exists.mp hparse
  obtain ⟨s, bytes, hs, hne, hpton, hn⟩ := parseDestination_eq_some hparse
  refine ⟨Ipv4.toBytes 4 (network (Ipv4.ofBytes bytes) n), n, ?_, Ipv4.length_toBytes _ _,
    Ipv4.toBytes_lt _ _, hn⟩
  have hkey : canonicalRouteKey (.str s : Json F)
      = some (routeText (Ipv4.toBytes 4 (network (Ipv4.ofBytes bytes) n)) n) := by
    rw [← hs, canonicalRouteKey, hparse, Option.bind_some, routeKey, hpton, Option.map_some]
  rw [canonicalField, hs]
  dsimp only
  rw [if_pos ⟨hdst, hne⟩, hkey]
  rfl

/-! ### Entries of `ipv4_lpm` -/

theorem mem_of_get {m : Match F} {field : String} {v : Json F} (h : m.get field = some v) :
    (field, v) ∈ m.fields := by
  obtain ⟨l₁, l₂, hl, -⟩ := List.lookup_eq_some_iff.mp h
  rw [hl]
  simp

theorem mem_of_destination {m : Match F} {v : Json F} (h : destination fl m = some v) :
    ∃ field, isDestinationField field = true ∧ (field, v) ∈ m.fields := by
  unfold destination at h
  split at h
  · next hget =>
    split at h
    · cases h
      exact ⟨"nw_dst", rfl, mem_of_get hget⟩
    · exact ⟨"ipv4_dst", rfl, mem_of_get h⟩
  · exact ⟨"ipv4_dst", rfl, mem_of_get h⟩

/-- A destination that is looked up after the checks is a route key. -/
theorem destination_routeText {m : Match F} {dst : String} (hcheck : checkMatchValues fl m = none)
    (hfive : needsFiveTuple m = false)
    (hdst : destination fl (canonicalDestination m) = some (.str dst)) :
    ∃ bytes n, dst = routeText bytes n ∧ bytes.length = 4 ∧ (∀ b ∈ bytes, b < 256) ∧ n ≤ 32 := by
  obtain ⟨field, hfield, hmem⟩ := mem_of_destination hdst
  obtain ⟨p, hp, hcanon⟩ := List.mem_map.mp hmem
  have hname : p.1 = field := by rw [← canonicalField_fst p, hcanon]
  have hp' := checkField_of_checked hcheck hp
  rw [hfive] at hp'
  obtain ⟨bytes, n, hkey, hlen, hbytes, hn⟩ := canonicalField_destination (hname ▸ hfield) hp'
  rw [hcanon] at hkey
  exact ⟨bytes, n, by simpa using congrArg Prod.snd hkey, hlen, hbytes, hn⟩

/-- **What an accepted destination writes**: its route key names the entry. -/
theorem lpmEntry_spec {m : Match F} {e : TableEntry} (hcheck : checkMatchValues fl m = none)
    (hfive : needsFiveTuple m = false) (h : lpmEntry fl (canonicalDestination m) = .ok e) :
    ∃ bytes n, destination fl (canonicalDestination m) = some (.str (routeText bytes n)) ∧
      e = .lpm bytes (n : ℤ) ∧ bytes.length = 4 ∧ (∀ b ∈ bytes, b < 256) ∧ n ≤ 32 := by
  unfold lpmEntry at h
  split at h
  · next dst hdst =>
    obtain ⟨bytes, n, rfl, hlen, hbytes, hn⟩ := destination_routeText hcheck hfive hdst
    rw [splitRouteKey_routeText hn] at h
    simp only [Ipv4.aton_of_pton (Ipv4.pton_ntoa hlen hbytes)] at h
    cases h
    exact ⟨bytes, n, hdst, rfl, hlen, hbytes, hn⟩
  · cases h

/-! ### Entries of `flow_5tuple` -/

/-- The value a match gives a key: that of the last of its spellings. -/
def Match.value (m : Match F) (k : Key5) : Option (Json F) :=
  ((sortFields m.fields).reverse.find? fun p => fiveTupleFieldMap p.1 = some k).map Prod.snd

theorem mem_of_value {m : Match F} {k : Key5} {v : Json F} (h : m.value k = some v) :
    ∃ field, (field, v) ∈ m.fields ∧ fiveTupleFieldMap field = some k := by
  obtain ⟨⟨field, w⟩, hfind, hw⟩ := Option.map_eq_some_iff.mp h
  change w = v at hw
  subst hw
  have hmem := List.mem_of_find?_eq_some hfind
  rw [List.mem_reverse, sortFields, List.mem_insertionSort] at hmem
  exact ⟨field, hmem, by simpa using List.find?_some hfind⟩

theorem setKey_ok {keys keys' : Key5 → Option (Json F)} {p : String × Json F}
    (h : setKey fl keys p = .ok keys') (k : Key5) :
    keys' k = if fiveTupleFieldMap p.1 = some k then some p.2 else keys k := by
  unfold setKey at h
  split at h
  · next hnone =>
    cases h
    rw [hnone, if_neg (by simp)]
  · next k' hk' =>
    have hupdate : keys' = Function.update keys k' (some p.2) := by
      split at h
      · split at h <;> cases h
        rfl
      · cases h
        rfl
    rw [hupdate, hk']
    by_cases hk : k = k'
    · subst hk
      simp
    · rw [Function.update_of_ne hk, if_neg fun h => hk (Option.some.inj h).symm]

theorem setKeys_ok {keys keys' : Key5 → Option (Json F)} {fields : List (String × Json F)}
    (h : setKeys fl keys fields = .ok keys') (k : Key5) :
    keys' k = ((fields.reverse.find? fun p => fiveTupleFieldMap p.1 = some k).map Prod.snd).or
      (keys k) := by
  induction fields generalizing keys with
  | nil =>
    cases h
    rfl
  | cons p fields ih =>
    unfold setKeys at h
    split at h
    · next keys₁ hset =>
      rw [ih h, setKey_ok hset k, List.reverse_cons, List.find?_append]
      by_cases hk : fiveTupleFieldMap p.1 = some k
      · cases fields.reverse.find? fun p => fiveTupleFieldMap p.1 = some k <;> simp [hk]
      · cases fields.reverse.find? fun p => fiveTupleFieldMap p.1 = some k <;> simp [hk]
    · cases h

theorem fiveTupleKeys_ok {m : Match F} {keys : Key5 → Option (Json F)}
    (h : fiveTupleKeys fl m = .ok keys) : keys = m.value := by
  funext k
  rw [setKeys_ok h k, Match.value, Option.or_none]

/-- An address of a match for `flow_5tuple` is a dotted quad. -/
theorem quad_of_checked {m : Match F} (hcheck : checkMatchValues fl m = none)
    (hfive : needsFiveTuple m = true) {p : String × Json F} (hp : p ∈ m.fields)
    (haddr : isAddressField p.1 = true) : ∃ s bytes, p.2 = .str s ∧ Ipv4.pton s = some bytes := by
  have hfield := checkField_of_checked hcheck hp
  have hport : fiveTupleFieldMap p.1 ≠ some .ingressPort := by
    intro h
    rw [isAddressField, h] at haddr
    cases haddr
  rw [hfive, checkField, if_neg hport, if_pos haddr, Bool.not_true, Bool.false_and,
    if_neg (by simp)] at hfield
  split at hfield
  · next s hs =>
    split at hfield
    · next hpton =>
      obtain ⟨bytes, hbytes⟩ := Option.isSome_iff_exists.mp hpton
      exact ⟨s, bytes, hs, hbytes⟩
    · cases hfield
  · cases hfield

theorem network_full {raw : ℕ} (h : raw < 256 ^ 4) : network raw 32 = raw := by
  have hmask : ((0xFFFFFFFF <<< (32 - 32)) &&& 0xFFFFFFFF : ℕ) = 2 ^ 32 - 1 := by decide
  rw [network, hmask, Nat.and_two_pow_sub_one_eq_mod]
  exact Nat.mod_eq_of_lt (by simpa using h)

/-- A dotted quad is its own route key. -/
theorem canonicalRouteKey_of_pton {s : String} {bytes : List ℕ} (h : Ipv4.pton s = some bytes) :
    canonicalRouteKey (.str s : Json F) = some s := by
  obtain ⟨hlen, hbytes, -⟩ := Ipv4.pton_eq_some.mp h
  have hparse : parseDestination (.str s : Json F) = some (s, 32) := by
    simp only [parseDestination, partition_of_notMem (slash_notMem_of_pton h), String.ofList_toList,
      h, Option.isSome_some, if_true]
  have hraw : Ipv4.ofBytes bytes < 256 ^ 4 := hlen ▸ Ipv4.ofBytes_lt hbytes
  rw [canonicalRouteKey, hparse, Option.bind_some, routeKey, h, Option.map_some, network_full hraw,
    ← hlen, Ipv4.toBytes_ofBytes hbytes, routeText, if_pos rfl, Ipv4.ntoa_pton h]

/-- A match for `flow_5tuple` has its destination as the switch stores it. -/
theorem canonicalDestination_eq_self {m : Match F} (hcheck : checkMatchValues fl m = none)
    (hfive : needsFiveTuple m = true) : canonicalDestination m = m := by
  have hfields : m.fields.map canonicalField = m.fields := by
    refine (List.map_congr_left fun p hp => ?_).trans (List.map_id _)
    show canonicalField p = p
    unfold canonicalField
    split
    · next s hs =>
      split
      · next hdst =>
        have haddr := (isAddressField_of_isDestinationField hdst.1).1
        obtain ⟨s', bytes, hs', hpton⟩ := quad_of_checked hcheck hfive hp haddr
        rw [hs] at hs'
        cases hs'
        rw [canonicalRouteKey_of_pton hpton, Option.getD_some, ← hs]
      · rfl
    · rfl
  unfold canonicalDestination
  cases m
  simp_all

/-! ### What the encoder reads -/

/-- What the encoder makes of a key's value: an address's number, or `int(value)`. -/
def reading (fl : Floats F) (k : Key5) (v : Json F) : Option ℤ :=
  if k.isAddress then
    match v with
    | .str s => (Ipv4.pton s).map fun bytes => (Ipv4.ofBytes bytes : ℤ)
    | _ => none
  else
    match v.toInt fl with
    | .ok n => some n
    | .error _ => none

/-- A key as the entry has it. -/
def encodedKey (k : Key5) (n : ℤ) : Key5 × List ℕ × List ℕ :=
  (k, Ipv4.toBytes k.width n.toNat, Ipv4.toBytes k.width (2 ^ k.bits - 1))

/-- A value the encoder takes for a key. -/
structure Encodable (fl : Floats F) (k : Key5) (v : Json F) : Prop where
  isScalar : v.isScalar = true
  reads : ∃ n, reading fl k v = some n ∧ 0 ≤ n ∧ n < 256 ^ k.width
  quad : k.isAddress = true → ∃ s bytes, v = .str s ∧ Ipv4.pton s = some bytes

theorem intBytes_ok {width : ℕ} {v : Json F} {raw : List ℕ} (h : intBytes fl width v = .ok raw) :
    v.isScalar = true ∧ ∃ n, v.toInt fl = .ok n ∧ 0 ≤ n ∧ n < 256 ^ width ∧
      raw = Ipv4.toBytes width n.toNat := by
  unfold intBytes at h
  split at h
  · cases h
  · next n hn =>
    split at h
    · next hrange =>
      cases h
      refine ⟨?_, n, hn, hrange.1, hrange.2, rfl⟩
      cases v with
      | arr | obj => cases hn
      | null | bool | int | float | str => rfl
    · cases h

/-- **What the encoder makes of a value**: the bytes of its reading, and a mask. -/
theorem encode5tupleValue_ok {k : Key5} {v : Json F} {enc : List ℕ × List ℕ}
    (hquad : k.isAddress = true → ∃ s bytes, v = .str s ∧ Ipv4.pton s = some bytes)
    (h : encode5tupleValue fl k v = .ok enc) :
    Encodable fl k v ∧ ∃ n, reading fl k v = some n ∧ (k, enc) = encodedKey k n := by
  unfold encode5tupleValue at h
  split at h
  · cases h
  · next raw hraw =>
    split at h
    · cases h
    · next hlen =>
      split at h <;> cases h
      rw [not_not] at hlen
      cases haddr : k.isAddress with
      | true =>
        obtain ⟨s, bytes, rfl, hpton⟩ := hquad haddr
        obtain ⟨hlen4, hbytes, -⟩ := Ipv4.pton_eq_some.mp hpton
        simp only [rawBytes, if_pos (Ipv4.dot_mem_of_pton hpton), Ipv4.aton_of_pton hpton] at hraw
        cases hraw
        have hread : reading fl k (.str s) = some (Ipv4.ofBytes raw : ℤ) := by
          simp [reading, haddr, hpton]
        have hlt := Ipv4.ofBytes_lt hbytes
        rw [hlen] at hlt
        refine ⟨⟨rfl, ⟨_, hread, by omega, by exact_mod_cast hlt⟩, hquad⟩, _, hread, ?_⟩
        rw [encodedKey, Int.toNat_natCast, ← hlen, Ipv4.toBytes_ofBytes hbytes]
      | false =>
        -- a number with a full stop in it would be read as four bytes
        have hint : intBytes fl k.width v = .ok raw := by
          unfold rawBytes at hraw
          split at hraw
          · split at hraw
            · split at hraw
              · next hbytes =>
                cases hraw
                rw [Ipv4.length_aton hbytes] at hlen
                cases k <;> cases haddr <;> cases hlen
              · cases hraw
            · exact hraw
          · exact hraw
        obtain ⟨hscalar, n, hn, hpos, hlt, rfl⟩ := intBytes_ok hint
        have hread : reading fl k v = some n := by simp [reading, haddr, hn]
        exact ⟨⟨hscalar, ⟨n, hread, hpos, hlt⟩, fun h => by rw [haddr] at h; cases h⟩, n, hread, rfl⟩

theorem fiveTupleMatch_ok {keys : Key5 → Option (Json F)} {ks : List Key5}
    {enc : List (Key5 × List ℕ × List ℕ)}
    (hquad : ∀ k v, keys k = some v → k.isAddress = true →
      ∃ s bytes, v = .str s ∧ Ipv4.pton s = some bytes)
    (h : fiveTupleMatch fl keys ks = .ok enc) :
    enc = ks.filterMap (fun k => ((keys k).bind (reading fl k)).map (encodedKey k)) ∧
      ∀ k ∈ ks, ∀ v, keys k = some v → Encodable fl k v := by
  induction ks generalizing enc with
  | nil =>
    cases h
    exact ⟨rfl, by simp⟩
  | cons k ks ih =>
    unfold fiveTupleMatch at h
    split at h
    · next hk =>
      obtain ⟨hrest, hall⟩ := ih h
      refine ⟨?_, ?_⟩
      · rw [List.filterMap_cons_none (by rw [hk]; rfl)]
        exact hrest
      · intro k' hk' v hv
        rcases List.mem_cons.mp hk' with rfl | hk'
        · rw [hk] at hv
          cases hv
        · exact hall k' hk' v hv
    · next v hk =>
      split at h <;> cases h
      next enc₁ rest hv hks =>
      obtain ⟨hrest, hall⟩ := ih hks
      obtain ⟨henc, n, hread, hkey⟩ := encode5tupleValue_ok (hquad k v hk) hv
      refine ⟨?_, ?_⟩
      · rw [List.filterMap_cons_some (b := (k, enc₁)) (by
          rw [hk, Option.bind_some, hread, hkey]; rfl), hrest]
      · intro k' hk' v' hv'
        rcases List.mem_cons.mp hk' with rfl | hk'
        · rw [hk] at hv'
          cases hv'
          exact henc
        · exact hall k' hk' v' hv'

theorem Key5.mem_all (k : Key5) : k ∈ Key5.all := by
  cases k <;> decide

/-- **What an accepted five-tuple writes**: the readings of its values, at its priority. -/
theorem fiveTupleEntry_spec {m : Match F} {priority : Json F} {e : TableEntry}
    (hcheck : checkMatchValues fl m = none) (hfive : needsFiveTuple m = true)
    (h : fiveTupleEntry fl m priority = .ok e) :
    ∃ prio, p4Priority fl priority = some prio ∧ fiveTupleKeys fl m = .ok m.value ∧
      e = .fiveTuple (Key5.all.filterMap fun k =>
        ((m.value k).bind (reading fl k)).map (encodedKey k)) prio ∧
      ∀ k v, m.value k = some v → Encodable fl k v := by
  have hquad : ∀ k v, m.value k = some v → k.isAddress = true →
      ∃ s bytes, v = .str s ∧ Ipv4.pton s = some bytes := by
    intro k v hv haddr
    obtain ⟨field, hmem, hfield⟩ := mem_of_value hv
    exact quad_of_checked hcheck hfive hmem (by rw [isAddressField, hfield]; exact haddr)
  unfold fiveTupleEntry at h
  split at h
  · cases h
  · next keys hkeys =>
    cases fiveTupleKeys_ok hkeys
    split at h
    · next prio enc hprio henc =>
      split at h <;> cases h
      obtain ⟨rfl, hall⟩ := fiveTupleMatch_ok hquad henc
      exact ⟨prio, hprio, hkeys, rfl, fun k v hv => hall k k.mem_all v hv⟩
    · cases h

/-! ### The journal's text -/

theorem dumps_fiveTuple_inj {t t' : String} {n n' : ℤ}
    (h : (Json.arr [.str "flow_5tuple", .str t, .int n] : Json F).dumps fl
      = (Json.arr [.str "flow_5tuple", .str t', .int n']).dumps fl) : t = t' ∧ n = n' := by
  rw [dumps, dumps, String.ofList_inj] at h
  simp only [chars, charsList, join, List.cons_append, List.append_assoc, List.cons.injEq, true_and,
    List.append_cancel_left_eq] at h
  obtain ⟨ht, hrest⟩ := quote_append_inj h
  refine ⟨ht, intChars_inj ?_⟩
  simpa using hrest

theorem dumps_lpm_inj {d d' : String}
    (h : (Json.arr [.str "ipv4_lpm", .str d] : Json F).dumps fl
      = (Json.arr [.str "ipv4_lpm", .str d']).dumps fl) : d = d' := by
  rw [dumps, dumps, String.ofList_inj] at h
  simp only [chars, charsList, join, List.cons_append, List.append_assoc, List.cons.injEq, true_and,
    List.append_cancel_left_eq] at h
  exact (quote_append_inj h).1

theorem dumps_table_ne {d t : String} {n : ℤ} :
    (Json.arr [.str "ipv4_lpm", .str d] : Json F).dumps fl
      ≠ (Json.arr [.str "flow_5tuple", .str t, .int n]).dumps fl := by
  intro h
  rw [dumps, dumps, String.ofList_inj] at h
  simp only [chars, charsList, join, List.cons_append, List.append_assoc, List.cons.injEq,
    true_and] at h
  exact absurd (quote_append_inj h).1 (by decide)

theorem Key5.name_injective : Function.Injective Key5.name := by
  intro k k' h
  cases k <;> cases k' <;> first | rfl | exact absurd h (by decide)

/-- The keys of an entry are told by their text. -/
theorem keysObject_inj {keys keys' : Key5 → Option (Json F)}
    (hs : ∀ k v, keys k = some v → v.isScalar = true)
    (hs' : ∀ k v, keys' k = some v → v.isScalar = true)
    (h : (keysObject keys).dumps fl = (keysObject keys').dumps fl) : keys = keys' := by
  have hsorted : ∀ keys : Key5 → Option (Json F), ((Key5.all.filterMap fun k =>
      (keys k).map fun v => (k.name, v)).map Prod.fst).Pairwise (· ≤ ·) := by
    intro keys
    have hnames : (Key5.all.map Key5.name).Pairwise (· ≤ ·) := by decide
    refine hnames.sublist ?_
    generalize Key5.all = ks
    induction ks with
    | nil => simp
    | cons k ks ih =>
      cases hk : keys k with
      | none =>
        rw [List.filterMap_cons_none (by rw [hk]; rfl)]
        exact ih.cons _
      | some v =>
        rw [List.filterMap_cons_some (b := (k.name, v)) (by rw [hk]; rfl)]
        exact ih.cons_cons _
  have hscalar : ∀ {keys : Key5 → Option (Json F)}, (∀ k v, keys k = some v → v.isScalar = true) →
      ∀ p ∈ Key5.all.filterMap fun k => (keys k).map fun v => (k.name, v), p.2.isScalar = true := by
    intro keys hs p hp
    obtain ⟨k, -, hk⟩ := List.mem_filterMap.mp hp
    obtain ⟨v, hv, rfl⟩ := Option.map_eq_some_iff.mp hk
    exact hs k v hv
  have hfields := dumps_obj_inj fl (hsorted keys) (hsorted keys') (hscalar hs) (hscalar hs') h
  have hname : ∀ (keys : Key5 → Option (Json F)) k p,
      ((keys k).map fun v => (k.name, v)) = some p → p.1 = k.name := by
    intro keys k p hp
    obtain ⟨v, -, rfl⟩ := Option.map_eq_some_iff.mp hp
    rfl
  funext k
  have hk := filterMap_named_inj Key5.name Key5.name_injective Prod.fst (hname keys) (hname keys')
    hfields k.mem_all
  exact Option.map_injective (fun v w hvw => congrArg Prod.snd hvw) hk

/-- The keys of an entry are told by their readings. -/
theorem encodedKeys_inj {keys keys' : Key5 → Option (Json F)}
    (hs : ∀ k v, keys k = some v → Encodable fl k v)
    (hs' : ∀ k v, keys' k = some v → Encodable fl k v)
    (h : (Key5.all.filterMap fun k => ((keys k).bind (reading fl k)).map (encodedKey k))
      = Key5.all.filterMap fun k => ((keys' k).bind (reading fl k)).map (encodedKey k)) (k : Key5) :
    (keys k).bind (reading fl k) = (keys' k).bind (reading fl k) := by
  have hname : ∀ (keys : Key5 → Option (Json F)) k p,
      ((keys k).bind (reading fl k)).map (encodedKey k) = some p → p.1 = k := by
    intro keys k p hp
    obtain ⟨n, -, rfl⟩ := Option.map_eq_some_iff.mp hp
    rfl
  have hk := filterMap_named_inj id Function.injective_id Prod.fst (hname keys) (hname keys') h
    k.mem_all
  have hrange : ∀ {keys : Key5 → Option (Json F)}, (∀ k v, keys k = some v → Encodable fl k v) →
      ∀ n, (keys k).bind (reading fl k) = some n → 0 ≤ n ∧ n < 256 ^ k.width := by
    intro keys hs n hn
    obtain ⟨v, hv, hread⟩ := Option.bind_eq_some_iff.mp hn
    obtain ⟨n', hn', hpos, hlt⟩ := (hs k v hv).reads
    rw [hread] at hn'
    cases hn'
    exact ⟨hpos, hlt⟩
  cases hr : (keys k).bind (reading fl k) with
  | none =>
    rw [hr, Option.map_none] at hk
    exact (Option.map_eq_none_iff.mp hk.symm).symm
  | some n =>
    rw [hr, Option.map_some] at hk
    obtain ⟨n', hn', henc⟩ := Option.map_eq_some_iff.mp hk.symm
    obtain ⟨hpos, hlt⟩ := hrange hs n hr
    obtain ⟨hpos', hlt'⟩ := hrange hs' n' hn'
    rw [hn']
    -- bytes of one width are told by their number
    have hbytes : Ipv4.toBytes k.width n'.toNat = Ipv4.toBytes k.width n.toNat :=
      congrArg (fun p => p.2.1) henc
    have hnum := congrArg Ipv4.ofBytes hbytes
    rw [Ipv4.ofBytes_toBytes ((Int.toNat_lt hpos').mpr (by exact_mod_cast hlt')),
      Ipv4.ofBytes_toBytes ((Int.toNat_lt hpos).mpr (by exact_mod_cast hlt))] at hnum
    rw [← Int.toNat_of_nonneg hpos, ← Int.toNat_of_nonneg hpos', hnum]

/-! ### Identities and entries -/

/-- What an accepted request writes, and what the journal calls it. -/
inductive Written (fl : Floats F) (m : Match F) (priority : Json F) : TableEntry → Json F → Prop where
  | lpm (hfive : needsFiveTuple m = false) (bytes : List ℕ) (n : ℕ) (hlen : bytes.length = 4)
    (hbytes : ∀ b ∈ bytes, b < 256) (hn : n ≤ 32) :
    Written fl m priority (.lpm bytes n) (.arr [.str "ipv4_lpm", .str (routeText bytes n)])
  | fiveTuple (hfive : needsFiveTuple m = true) (prio : ℤ)
    (hprio : p4Priority fl priority = some prio)
    (hkeys : ∀ k v, m.value k = some v → Encodable fl k v) :
    Written fl m priority
      (.fiveTuple (Key5.all.filterMap fun k =>
        ((m.value k).bind (reading fl k)).map (encodedKey k)) prio)
      (.arr [.str "flow_5tuple", .str ((keysObject m.value).dumps fl), .int prio])

theorem written_of_ok {m : Match F} {priority : Json F} {e : TableEntry}
    (h : writtenEntry fl m priority = .ok e) :
    ∃ rule, journalRule fl (canonicalDestination m) priority = some rule ∧
      Written fl m priority e rule := by
  unfold writtenEntry at h
  split at h
  · cases h
  · split at h
    · cases h
    · next hcheck =>
      dsimp only at h
      cases hfive : needsFiveTuple m with
      | true =>
        rw [needsFiveTuple_canonicalDestination, if_pos hfive,
          canonicalDestination_eq_self hcheck hfive] at h
        obtain ⟨prio, hprio, hkeys, rfl, hall⟩ := fiveTupleEntry_spec hcheck hfive h
        refine ⟨_, ?_, .fiveTuple hfive prio hprio hall⟩
        simp only [canonicalDestination_eq_self hcheck hfive, journalRule, if_pos hfive, hkeys, hprio]
      | false =>
        rw [needsFiveTuple_canonicalDestination, hfive, if_neg (by simp)] at h
        obtain ⟨bytes, n, hdst, rfl, hlen, hbytes, hn⟩ := lpmEntry_spec hcheck hfive h
        refine ⟨_, ?_, .lpm hfive bytes n hlen hbytes hn⟩
        simp [journalRule, needsFiveTuple_canonicalDestination, hfive, hdst]

/-- Two requests that write one entry of `flow_5tuple` and spell a number of it differently. -/
def Respelled (fl : Floats F) (m₁ : Match F) (p₁ : Json F) (m₂ : Match F) (p₂ : Json F) : Prop :=
  needsFiveTuple m₁ = true ∧ needsFiveTuple m₂ = true ∧ p4Priority fl p₁ = p4Priority fl p₂ ∧
    (∀ k, (m₁.value k).bind (reading fl k) = (m₂.value k).bind (reading fl k)) ∧
    ∃ k, k.isAddress = false ∧ m₁.value k ≠ m₂.value k

/-- An address has one spelling. -/
theorem value_eq_of_address {m₁ m₂ : Match F} {k : Key5} (haddr : k.isAddress = true)
    (h₁ : ∀ k v, m₁.value k = some v → Encodable fl k v)
    (h₂ : ∀ k v, m₂.value k = some v → Encodable fl k v)
    (h : (m₁.value k).bind (reading fl k) = (m₂.value k).bind (reading fl k)) :
    m₁.value k = m₂.value k := by
  have hread : ∀ {s : String} {bytes : List ℕ}, Ipv4.pton s = some bytes →
      reading fl k (.str s) = some (Ipv4.ofBytes bytes : ℤ) := fun hs => by
    simp [reading, haddr, hs]
  cases hv₁ : m₁.value k with
  | none =>
    cases hv₂ : m₂.value k with
    | none => rfl
    | some v =>
      obtain ⟨n, hn, -⟩ := (h₂ k v hv₂).reads
      rw [hv₁, hv₂, Option.bind_none, Option.bind_some, hn] at h
      cases h
  | some v =>
    obtain ⟨s, bytes, rfl, hs⟩ := (h₁ k v hv₁).quad haddr
    rw [hv₁, Option.bind_some, hread hs] at h
    obtain ⟨w, hv₂, hw⟩ := Option.bind_eq_some_iff.mp h.symm
    obtain ⟨s', bytes', rfl, hs'⟩ := (h₂ k w hv₂).quad haddr
    rw [hread hs', Option.some.injEq, Int.natCast_inj] at hw
    -- four bytes are told by their number, and the text by its bytes
    obtain ⟨hlen, hlt, -⟩ := Ipv4.pton_eq_some.mp hs
    obtain ⟨hlen', hlt', -⟩ := Ipv4.pton_eq_some.mp hs'
    have hbytes : bytes' = bytes := by
      rw [← Ipv4.toBytes_ofBytes hlt', ← Ipv4.toBytes_ofBytes hlt, hw, hlen, hlen']
    rw [hbytes] at hs'
    rw [hv₂, Ipv4.pton_inj hs hs']

variable {K : Type*}

/-- **The journal's identity names the switch entry** exactly where the two requests are not
two spellings of a number: for every two requests that are accepted and written, and a digest
that does not take their two texts for one. -/
theorem identity_eq_iff_entry_eq (fl : Floats F) (keyDigest : IdentityKey F → K)
    {m₁ m₂ : Match F} {p₁ p₂ : Json F} {e₁ e₂ : TableEntry} (ρ₁ ρ₂ : RuleEntry F)
    (h₁ : writtenEntry fl m₁ p₁ = .ok e₁) (h₂ : writtenEntry fl m₂ p₂ = .ok e₂)
    (hρ₁ : ρ₁.rule = journalRule fl (canonicalDestination m₁) p₁)
    (hρ₂ : ρ₂.rule = journalRule fl (canonicalDestination m₂) p₂)
    (hdigest : ∀ r₁ r₂, ρ₁.rule = some r₁ → ρ₂.rule = some r₂ →
      keyDigest (.rule (r₁.dumps fl)) = keyDigest (.rule (r₂.dumps fl)) →
        r₁.dumps fl = r₂.dumps fl) :
    (ruleIdentity fl keyDigest ρ₁ = ruleIdentity fl keyDigest ρ₂ ↔ e₁ = e₂) ↔
      ¬ Respelled fl m₁ p₁ m₂ p₂ := by
  obtain ⟨r₁, hr₁, hw₁⟩ := written_of_ok h₁
  obtain ⟨r₂, hr₂, hw₂⟩ := written_of_ok h₂
  rw [← hρ₁] at hr₁
  rw [← hρ₂] at hr₂
  have hid : ruleIdentity fl keyDigest ρ₁ = ruleIdentity fl keyDigest ρ₂ ↔
      r₁.dumps fl = r₂.dumps fl := by
    simp only [ruleIdentity, hr₁, hr₂]
    exact ⟨hdigest r₁ r₂ hr₁ hr₂, fun h => by rw [h]⟩
  rw [hid]
  cases hw₁ with
  | lpm hfive₁ bytes₁ n₁ hlen₁ hbytes₁ hn₁ =>
    have hnot : ¬ Respelled fl m₁ p₁ m₂ p₂ := fun h => absurd h.1 (by simp [hfive₁])
    refine iff_of_true ?_ hnot
    cases hw₂ with
    | lpm hfive₂ bytes₂ n₂ hlen₂ hbytes₂ hn₂ =>
      constructor
      · intro h
        obtain ⟨rfl, rfl⟩ := routeText_inj hlen₁ hbytes₁ hn₁ hlen₂ hbytes₂ hn₂ (dumps_lpm_inj h)
        rfl
      · intro h
        rw [TableEntry.lpm.injEq, Int.natCast_inj] at h
        rw [h.1, h.2]
    | fiveTuple hfive₂ prio₂ hprio₂ hkeys₂ =>
      exact iff_of_false dumps_table_ne (by simp)
  | fiveTuple hfive₁ prio₁ hprio₁ hkeys₁ =>
    cases hw₂ with
    | lpm hfive₂ bytes₂ n₂ hlen₂ hbytes₂ hn₂ =>
      have hnot : ¬ Respelled fl m₁ p₁ m₂ p₂ := fun h => absurd h.2.1 (by simp [hfive₂])
      exact iff_of_true (iff_of_false (fun h => dumps_table_ne h.symm) (by simp)) hnot
    | fiveTuple hfive₂ prio₂ hprio₂ hkeys₂ =>
      have htext : (Json.arr [.str "flow_5tuple", .str ((keysObject m₁.value).dumps fl), .int prio₁] :
            Json F).dumps fl
          = (Json.arr [.str "flow_5tuple", .str ((keysObject m₂.value).dumps fl), .int prio₂]).dumps fl
          ↔ prio₁ = prio₂ ∧ m₁.value = m₂.value := by
        constructor
        · intro h
          obtain ⟨hkeys, hprio⟩ := dumps_fiveTuple_inj h
          exact ⟨hprio, keysObject_inj (fun k v hv => (hkeys₁ k v hv).isScalar)
            (fun k v hv => (hkeys₂ k v hv).isScalar) hkeys⟩
        · rintro ⟨rfl, hvalue⟩
          rw [hvalue]
      have hentry : (TableEntry.fiveTuple (Key5.all.filterMap fun k =>
            ((m₁.value k).bind (reading fl k)).map (encodedKey k)) prio₁
          = .fiveTuple (Key5.all.filterMap fun k =>
            ((m₂.value k).bind (reading fl k)).map (encodedKey k)) prio₂)
          ↔ prio₁ = prio₂ ∧ ∀ k, (m₁.value k).bind (reading fl k) = (m₂.value k).bind (reading fl k) := by
        constructor
        · intro h
          rw [TableEntry.fiveTuple.injEq] at h
          exact ⟨h.2, encodedKeys_inj hkeys₁ hkeys₂ h.1⟩
        · rintro ⟨rfl, hread⟩
          simp only [hread]
      rw [htext, hentry]
      constructor
      · -- a respelled number has one entry and two texts
        rintro hiff ⟨-, -, hprio, hread, k, -, hne⟩
        rw [hprio₁, hprio₂, Option.some.injEq] at hprio
        exact hne (congrFun (hiff.mpr ⟨hprio, hread⟩).2 k)
      · intro hnot
        refine ⟨fun h => ⟨h.1, fun k => by rw [h.2]⟩, fun h => ⟨h.1, funext fun k => ?_⟩⟩
        cases haddr : k.isAddress with
        | true => exact value_eq_of_address haddr hkeys₁ hkeys₂ (h.2 k)
        | false =>
          by_contra hne
          exact hnot ⟨hfive₁, hfive₂, by rw [hprio₁, hprio₂, h.1], h.2, k, haddr, hne⟩

end Identity

/-! ### Two spellings -/

section Witness

/-- A rule for the traffic of one protocol to `10.0.0.2`. -/
def protocolMatch (protocol : Json Empty) : Match Empty where
  fields := [("nw_dst", .str "10.0.0.2"), ("nw_proto", protocol)]
  nodup := by simp

/-- A record of an install of a match at priority `100`. -/
def installRecord (m : Match Empty) : RuleEntry Empty where
  op := .install
  dpid := .int 1
  matchFields := .obj (canonicalDestination m).fields
  actions := .arr []
  priority := .int 100
  cookie := some 7
  rule := journalRule .empty (canonicalDestination m) (.int 100)

/-- Protocol `6` and protocol `"6"` write one entry under two identities. -/
theorem identity_ne_respelled :
    ∃ e, writtenEntry .empty (protocolMatch (.int 6)) (.int 100) = .ok e ∧
      writtenEntry .empty (protocolMatch (.str "6")) (.int 100) = .ok e ∧
      ruleIdentity .empty textDigest (installRecord (protocolMatch (.int 6)))
        ≠ ruleIdentity .empty textDigest (installRecord (protocolMatch (.str "6"))) :=
  ⟨_, rfl, rfl, by decide⟩

/-- Protocol `6` twice, and protocols `6` and `17`. -/
theorem identity_eq_iff_entry_eq_protocols :
    let identity (n : ℤ) :=
      ruleIdentity .empty textDigest (installRecord (protocolMatch (.int n)))
    ∃ e₁ e₂, writtenEntry .empty (protocolMatch (.int 6)) (.int 100) = .ok e₁ ∧
      writtenEntry .empty (protocolMatch (.int 17)) (.int 100) = .ok e₂ ∧
      ((identity 6 = identity 17 ↔ e₁ = e₂) ↔ ¬ Respelled .empty (protocolMatch (.int 6)) (.int 100)
        (protocolMatch (.int 17)) (.int 100)) ∧ e₁ ≠ e₂ :=
  ⟨_, _, rfl, rfl, identity_eq_iff_entry_eq .empty textDigest _ _ rfl rfl rfl rfl
    (fun _ _ _ _ h => h), by decide⟩

end Witness

end Routing
end NDTwin
