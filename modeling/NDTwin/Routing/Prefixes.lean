import NDTwin.Routing.RuleIdentity

/-!
# The networks that route keys name

A route key is the text of a network: an address with its host bits clear and a prefix length from 1
to 32, the bare address where the length is 32.

## Main definitions

* `Prefix` — a network.
* `Prefix.Contains` — the addresses of a network.
* `Prefix.of` — the network of an address, at a prefix length.
* `Prefix.key` — its route key.

## Main results

* `Prefix.key_inj` — **a route key names one network.**
* `Prefix.eq_of_contains` — networks of one length do not overlap.
* `canonicalRouteKey_eq` — the key that `canonical_route_key` answers.
-/

namespace NDTwin.Routing

open Json

/-! ### Masks -/

/-- The mask of a prefix length has its leading bits set. -/
theorem testBit_mask {n : ℕ} (i : ℕ) :
    (((0xFFFFFFFF <<< (32 - n)) &&& 0xFFFFFFFF : ℕ)).testBit i =
      (decide (32 - n ≤ i) && decide (i < 32)) := by
  have hones : (0xFFFFFFFF : ℕ) = 2 ^ 32 - 1 := by decide
  rw [Nat.testBit_and, Nat.testBit_shiftLeft, hones, Nat.testBit_two_pow_sub_one,
    Nat.testBit_two_pow_sub_one]
  rcases Nat.lt_or_ge i (32 - n) with hlt | hge
  · simp [Nat.not_le.mpr hlt]
  · by_cases hi : i < 32
    · have hsub : i - (32 - n) < 32 := by omega
      simp [hge, hi, hsub]
    · simp [hi]

/-- The network part of an address has the host bits clear. -/
theorem network_eq {raw n : ℕ} (hraw : raw < 2 ^ 32) :
    network raw n = raw / 2 ^ (32 - n) * 2 ^ (32 - n) := by
  refine Nat.eq_of_testBit_eq ?_
  intro i
  rw [network, Nat.testBit_and, testBit_mask, Nat.testBit_mul_two_pow, Nat.testBit_div_two_pow]
  rcases Nat.lt_or_ge i (32 - n) with hlt | hge
  · simp [Nat.not_le.mpr hlt]
  · rw [Nat.sub_add_cancel hge]
    by_cases hi : i < 32
    · simp [hge, hi]
    · have hbit : raw.testBit i = false :=
        Nat.testBit_lt_two_pow (Nat.lt_of_lt_of_le hraw (Nat.pow_le_pow_right (by decide) (by omega)))
      simp [hbit]

/-! ### Networks -/

/-- A network: an address with its host bits clear, and a prefix length. -/
@[ext]
structure Prefix where
  network : ℕ
  len : ℕ
  network_lt : network < 2 ^ 32
  one_le : 1 ≤ len
  len_le : len ≤ 32
  aligned : 2 ^ (32 - len) ∣ network

namespace Prefix

/-- An address is in a network. -/
def Contains (p : Prefix) (address : ℕ) : Prop :=
  address / 2 ^ (32 - p.len) = p.network / 2 ^ (32 - p.len)

/-- The route key of a network. -/
def key (p : Prefix) : String := routeText (Ipv4.toBytes 4 p.network) p.len

/-- The network of an address. -/
def of (raw len : ℕ) (hraw : raw < 2 ^ 32) (hone : 1 ≤ len) (hlen : len ≤ 32) : Prefix where
  network := Routing.network raw len
  len := len
  network_lt := Nat.lt_of_le_of_lt Nat.and_le_left hraw
  one_le := hone
  len_le := hlen
  aligned := by
    rw [network_eq hraw]
    exact Nat.dvd_mul_left _ _

theorem bytes_key (p : Prefix) : (Ipv4.toBytes 4 p.network).length = 4 ∧
    (∀ b ∈ Ipv4.toBytes 4 p.network, b < 256) ∧
    Ipv4.ofBytes (Ipv4.toBytes 4 p.network) = p.network :=
  ⟨by simp, Ipv4.toBytes_lt 4 p.network, Ipv4.ofBytes_toBytes (by simpa using p.network_lt)⟩

/-- **A route key names one network.** -/
theorem key_inj {p q : Prefix} (h : p.key = q.key) : p = q := by
  obtain ⟨hlen, hlt, hof⟩ := p.bytes_key
  obtain ⟨hlen', hlt', hof'⟩ := q.bytes_key
  obtain ⟨hbytes, hn⟩ := routeText_inj hlen hlt p.len_le hlen' hlt' q.len_le h
  have hnetwork : p.network = q.network := by rw [← hof, hbytes, hof']
  exact Prefix.ext hnetwork hn

/-- Networks of one length do not overlap. -/
theorem eq_of_contains {p q : Prefix} {address : ℕ} (hlen : p.len = q.len) (hp : p.Contains address)
    (hq : q.Contains address) : p = q := by
  refine Prefix.ext ?_ hlen
  unfold Contains at hp hq
  have hdiv : p.network / 2 ^ (32 - p.len) = q.network / 2 ^ (32 - p.len) := by
    rw [← hp, hlen, hq]
  rw [← Nat.div_mul_cancel p.aligned, hdiv, hlen, Nat.div_mul_cancel q.aligned]

/-- An address is in a network if its network part is the network. -/
theorem contains_iff {p : Prefix} {address : ℕ} (h : address < 2 ^ 32) :
    p.Contains address ↔ Routing.network address p.len = p.network := by
  have hpos : 0 < 2 ^ (32 - p.len) := Nat.two_pow_pos _
  rw [network_eq h, Contains]
  constructor
  · intro hdiv
    rw [hdiv, Nat.div_mul_cancel p.aligned]
  · intro hnetwork
    rw [← hnetwork, Nat.mul_div_cancel _ hpos]

end Prefix

/-! ### Route keys -/

section Keys

variable {F : Type*}

/-- What `parse_destination` takes: a dotted quad alone, or one with a prefix length after it. -/
theorem parseDestination_cases {s address : String} {n : ℕ}
    (h : parseDestination (.str s : Json F) = some (address, n)) :
    (Ipv4.pton address).isSome = true ∧ 1 ≤ n ∧ n ≤ 32 ∧
      (s = address ∧ n = 32 ∨
        ∃ cs, s.toList = address.toList ++ '/' :: cs ∧ 1 ≤ cs.length ∧ cs.length ≤ 2 ∧
          cs.all Char.isDigit = true ∧ n = Nat.ofDigitChars 10 cs 0) := by
  by_cases hslash : '/' ∈ s.toList
  · obtain ⟨before, cs, hsplit, hbefore⟩ := List.eq_append_cons_of_mem hslash
    simp only [parseDestination, hsplit, partition_append hbefore] at h
    split at h
    · next hpton =>
      split at h
      · next hdigits =>
        split at h
        · next hn =>
          cases h
          refine ⟨hpton, hn.1, hn.2, .inr ⟨cs, ?_, hdigits.1, hdigits.2.1, hdigits.2.2, rfl⟩⟩
          rw [hsplit, String.toList_ofList]
        · cases h
      · cases h
    · cases h
  · simp only [parseDestination, partition_of_notMem hslash, String.ofList_toList] at h
    split at h
    · next hpton =>
      cases h
      exact ⟨hpton, by decide, by decide, .inl ⟨rfl, rfl⟩⟩
    · cases h

theorem ofBytes_lt_of_pton {address : String} {bytes : List ℕ} (h : Ipv4.pton address = some bytes) :
    Ipv4.ofBytes bytes < 2 ^ 32 := by
  obtain ⟨hlen, hlt, -⟩ := Ipv4.pton_eq_some.mp h
  have hof := Ipv4.ofBytes_lt hlt
  rw [hlen] at hof
  exact hof

/-- What `parse_destination` takes has a network. -/
theorem exists_bytes_of_parseDestination {v : Json F} {address : String} {n : ℕ}
    (h : parseDestination v = some (address, n)) :
    ∃ bytes, Ipv4.pton address = some bytes ∧ Ipv4.ofBytes bytes < 2 ^ 32 ∧ 1 ≤ n ∧ n ≤ 32 := by
  obtain ⟨s, bytes, rfl, -, hbytes, -⟩ := parseDestination_eq_some h
  obtain ⟨-, hone, hle, -⟩ := parseDestination_cases h
  exact ⟨bytes, hbytes, ofBytes_lt_of_pton hbytes, hone, hle⟩

/-- **The key that `canonical_route_key` answers** is that of the network. -/
theorem canonicalRouteKey_eq {v : Json F} {address : String} {n : ℕ} {bytes : List ℕ}
    (h : parseDestination v = some (address, n)) (hbytes : Ipv4.pton address = some bytes)
    (hraw : Ipv4.ofBytes bytes < 2 ^ 32) (hone : 1 ≤ n) (hle : n ≤ 32) :
    canonicalRouteKey v = some (Prefix.of (Ipv4.ofBytes bytes) n hraw hone hle).key := by
  rw [canonicalRouteKey, h, Option.bind_some, routeKey, hbytes, Option.map_some]
  rfl

/-- A route key is the key of a network. -/
theorem exists_prefix_of_canonicalRouteKey {v : Json F} {key : String}
    (h : canonicalRouteKey v = some key) : ∃ p : Prefix, p.key = key := by
  cases hparse : parseDestination v with
  | none =>
    rw [canonicalRouteKey, hparse] at h
    cases h
  | some parsed =>
    obtain ⟨address, n⟩ := parsed
    obtain ⟨bytes, hbytes, hraw, hone, hle⟩ := exists_bytes_of_parseDestination hparse
    rw [canonicalRouteKey_eq hparse hbytes hraw hone hle] at h
    exact ⟨_, Option.some.inj h⟩

/-- A route key is a destination. -/
theorem parseDestination_key (p : Prefix) : parseDestination (.str p.key : Json F) =
    some (Ipv4.ntoa (Ipv4.toBytes 4 p.network), p.len) := by
  obtain ⟨hlen, hlt, -⟩ := p.bytes_key
  have hpton := Ipv4.pton_ntoa hlen hlt
  have hnot := slash_notMem_ntoa (Ipv4.toBytes 4 p.network)
  by_cases hbare : p.len = 32
  · rw [Prefix.key, routeText, if_pos hbare, hbare]
    simp only [parseDestination, partition_of_notMem hnot, String.ofList_toList, hpton,
      Option.isSome_some, if_true]
  · have hone := p.one_le
    have hle := p.len_le
    have hdigits : 1 ≤ (Nat.toDigits 10 p.len).length ∧ (Nat.toDigits 10 p.len).length ≤ 2 ∧
        (Nat.toDigits 10 p.len).all Char.isDigit = true ∧
        Nat.ofDigitChars 10 (Nat.toDigits 10 p.len) 0 = p.len := by
      have hall : ∀ n < 33, 1 ≤ (Nat.toDigits 10 n).length ∧ (Nat.toDigits 10 n).length ≤ 2 ∧
          (Nat.toDigits 10 n).all Char.isDigit = true ∧
          Nat.ofDigitChars 10 (Nat.toDigits 10 n) 0 = n := by
        decide
      exact hall p.len (by omega)
    rw [Prefix.key, routeText, if_neg hbare]
    simp only [parseDestination, String.toList_ofList, partition_append hnot, String.ofList_toList,
      hpton, Option.isSome_some, if_true, hdigits, and_self, hone, hle]

/-- The key of a network is its own key. -/
theorem canonicalRouteKey_key (p : Prefix) : canonicalRouteKey (.str p.key : Json F) = some p.key := by
  obtain ⟨hlen, hlt, hof⟩ := p.bytes_key
  have hlt32 : Ipv4.ofBytes (Ipv4.toBytes 4 p.network) < 2 ^ 32 := by rw [hof]; exact p.network_lt
  rw [canonicalRouteKey_eq (parseDestination_key p) (Ipv4.pton_ntoa hlen hlt) hlt32 p.one_le p.len_le]
  have hself : Prefix.of (Ipv4.ofBytes (Ipv4.toBytes 4 p.network)) p.len hlt32 p.one_le p.len_le = p := by
    refine Prefix.ext ?_ rfl
    show network (Ipv4.ofBytes (Ipv4.toBytes 4 p.network)) p.len = p.network
    rw [hof, network_eq p.network_lt, Nat.div_mul_cancel p.aligned]
  rw [hself]

end Keys

end NDTwin.Routing
