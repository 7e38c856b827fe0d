import NDTwin.FlowTables.Batch
import NDTwin.Routing.Prefixes

/-!
# One destination on both sides

A destination is read twice: by the kernel, when a batch comes in, and by the proxy, when the rule is
written.  The kernel takes more than the proxy does, a netmask after the slash and the length 0 among
it; what the proxy takes is the same network to both.

## Main definitions

* `proxyNetwork`, `kernelNetwork` — the network a text denotes to each of them.

## Main results

* `kernelNetwork_eq` — what the proxy takes is the same network to the kernel.
* `destinations_agree` — **a destination means the same network on both sides**, and a route key
  means one network.
-/

namespace NDTwin.FlowTables

open Json Routing

variable {F : Type}

/-- The network and prefix length that a text denotes to the proxy. -/
def proxyNetwork (F : Type) (s : String) : Option (ℕ × ℕ) :=
  (parseDestination (.str s : Json F)).bind fun p =>
    (Ipv4.pton p.1).map fun bytes => (network (Ipv4.ofBytes bytes) p.2, p.2)

/-- The prefix length of a mask, if it has one. -/
def lengthOfMask (mask : BitVec 32) : Option ℕ :=
  (List.range 33).find? fun len => maskOfLength len = mask

/-- The network and prefix length that a text denotes to the kernel. -/
def kernelNetwork (F : Type) (s : String) : Option (ℕ × Option ℕ) :=
  (parseIpv4MatchValue (.str s : Json F)).map fun v =>
    ((v.address &&& v.mask).toNat, lengthOfMask v.mask)

/-! ### Masks -/

theorem lengthOfMask_maskOfLength : ∀ len < 33, lengthOfMask (maskOfLength len) = some len := by
  decide +kernel

theorem toNat_maskOfLength : ∀ len < 33,
    (maskOfLength len).toNat = (0xFFFFFFFF <<< (32 - len)) &&& 0xFFFFFFFF := by
  decide +kernel

/-- The kernel masks an address as the proxy does. -/
theorem toNat_and_mask {raw len : ℕ} (hraw : raw < 2 ^ 32) (hlen : len ≤ 32) :
    (BitVec.ofNat 32 raw &&& maskOfLength len).toNat = network raw len := by
  rw [BitVec.toNat_and, BitVec.toNat_ofNat, Nat.mod_eq_of_lt hraw, toNat_maskOfLength len (by omega),
    network]

/-! ### Texts -/

/-- What the proxy takes has no NUL in it. -/
theorem nul_notMem {s address : String} {n : ℕ}
    (h : parseDestination (.str s : Json F) = some (address, n)) : '\x00' ∉ s.toList := by
  obtain ⟨hpton, -, -, hcases⟩ := parseDestination_cases h
  obtain ⟨bytes, hbytes⟩ := Option.isSome_iff_exists.mp hpton
  have haddress : '\x00' ∉ address.toList := by
    rw [← Ipv4.ntoa_pton hbytes]
    exact Ipv4.notMem_ntoa (by decide) (by decide) bytes
  rcases hcases with ⟨rfl, -⟩ | ⟨cs, hs, -, -, hdigits, -⟩
  · exact haddress
  · rw [hs, List.mem_append, List.mem_cons]
    rintro (hmem | hmem | hmem)
    · exact haddress hmem
    · exact absurd hmem (by decide)
    · exact absurd (List.all_eq_true.mp hdigits _ hmem) (by decide)

/-- **What the proxy takes, the kernel takes**, with the mask of its prefix length. -/
theorem parseIpv4MatchValue_eq {s address : String} {n : ℕ} {bytes : List ℕ}
    (h : parseDestination (.str s : Json F) = some (address, n))
    (hbytes : Ipv4.pton address = some bytes) : parseIpv4MatchValue (.str s : Json F) =
      some ⟨BitVec.ofNat 32 (Ipv4.ofBytes bytes), maskOfLength n⟩ := by
  have hnul := nul_notMem h
  have hslash := slash_notMem_of_pton hbytes
  obtain ⟨-, hone, hle, hcases⟩ := parseDestination_cases h
  have haddress : parseAddress address.toList = some (BitVec.ofNat 32 (Ipv4.ofBytes bytes)) := by
    rw [parseAddress, String.ofList_toList, hbytes, Option.map_some]
  rcases hcases with ⟨rfl, rfl⟩ | ⟨cs, hs, hpos, hlen, hdigits, rfl⟩
  · simp only [parseIpv4MatchValue, if_neg hnul, CText.before_of_notMem hslash, haddress,
      if_neg hslash]
    rfl
  · have hne : cs ≠ [] := List.ne_nil_of_length_pos hpos
    have hsuffix : parseSuffix cs = some (maskOfLength (Nat.ofDigitChars 10 cs 0)) := by
      rw [parseSuffix, if_pos ⟨hne, hlen, hdigits⟩]
      exact if_neg (by omega)
    have hmem : '/' ∈ address.toList ++ '/' :: cs := List.mem_append_right _ List.mem_cons_self
    rw [hs] at hnul
    simp only [parseIpv4MatchValue, hs, if_neg hnul, CText.before_append hslash, haddress, if_pos hmem,
      CText.after_append hslash, hsuffix, Option.map_some]

/-! ### Networks -/

theorem proxyNetwork_eq_some {s : String} {raw len : ℕ} (h : proxyNetwork F s = some (raw, len)) :
    ∃ address bytes, parseDestination (.str s : Json F) = some (address, len) ∧
      Ipv4.pton address = some bytes ∧ raw = network (Ipv4.ofBytes bytes) len := by
  obtain ⟨⟨address, n⟩, hparse, hmap⟩ := Option.bind_eq_some_iff.mp h
  obtain ⟨bytes, hbytes, heq⟩ := Option.map_eq_some_iff.mp hmap
  cases heq
  exact ⟨address, bytes, hparse, hbytes, rfl⟩

/-- What the proxy takes is the same network to the kernel. -/
theorem kernelNetwork_eq {s : String} {raw len : ℕ} (h : proxyNetwork F s = some (raw, len)) :
    kernelNetwork F s = some (raw, some len) := by
  obtain ⟨address, bytes, hparse, hbytes, rfl⟩ := proxyNetwork_eq_some h
  obtain ⟨-, -, hle, -⟩ := parseDestination_cases hparse
  rw [kernelNetwork, parseIpv4MatchValue_eq hparse hbytes, Option.map_some]
  dsimp only
  rw [toNat_and_mask (ofBytes_lt_of_pton hbytes) hle, lengthOfMask_maskOfLength len (by omega)]

/-- The route key of a text is that of the network it denotes. -/
theorem canonicalRouteKey_of_proxyNetwork {s : String} {raw len : ℕ}
    (h : proxyNetwork F s = some (raw, len)) : ∃ p : Prefix,
      canonicalRouteKey (.str s : Json F) = some p.key ∧ p.network = raw ∧ p.len = len := by
  obtain ⟨address, bytes, hparse, hbytes, rfl⟩ := proxyNetwork_eq_some h
  obtain ⟨-, hone, hle, -⟩ := parseDestination_cases hparse
  exact ⟨_, canonicalRouteKey_eq hparse hbytes (ofBytes_lt_of_pton hbytes) hone hle, rfl, rfl⟩

/-- **A destination means the same network on both sides**: what the proxy takes the kernel takes, for
the same network and prefix length; the route key of a destination is its own route key; and two
destinations have one route key exactly if they denote one network and prefix length. -/
theorem destinations_agree (F : Type) :
    (∀ s, (parseDestination (.str s : Json F)).isSome = true →
      ∃ raw len, proxyNetwork F s = some (raw, len) ∧ kernelNetwork F s = some (raw, some len)) ∧
    (∀ s key, canonicalRouteKey (.str s : Json F) = some key →
      canonicalRouteKey (.str key : Json F) = some key) ∧
    ∀ s s', (parseDestination (.str s : Json F)).isSome = true →
      (parseDestination (.str s' : Json F)).isSome = true →
      (canonicalRouteKey (.str s : Json F) = canonicalRouteKey (.str s' : Json F) ↔
        proxyNetwork F s = proxyNetwork F s') := by
  have hnetwork : ∀ s, (parseDestination (.str s : Json F)).isSome = true →
      ∃ raw len, proxyNetwork F s = some (raw, len) := by
    intro s hs
    obtain ⟨⟨address, n⟩, hparse⟩ := Option.isSome_iff_exists.mp hs
    obtain ⟨bytes, hbytes, -⟩ := exists_bytes_of_parseDestination hparse
    exact ⟨network (Ipv4.ofBytes bytes) n, n, by simp [proxyNetwork, hparse, hbytes]⟩
  refine ⟨?_, ?_, ?_⟩
  · intro s hs
    obtain ⟨raw, len, hproxy⟩ := hnetwork s hs
    exact ⟨raw, len, hproxy, kernelNetwork_eq hproxy⟩
  · intro s key hkey
    obtain ⟨p, rfl⟩ := exists_prefix_of_canonicalRouteKey hkey
    exact canonicalRouteKey_key p
  · intro s s' hs hs'
    obtain ⟨raw, len, hproxy⟩ := hnetwork s hs
    obtain ⟨raw', len', hproxy'⟩ := hnetwork s' hs'
    obtain ⟨p, hkey, rfl, rfl⟩ := canonicalRouteKey_of_proxyNetwork hproxy
    obtain ⟨q, hkey', rfl, rfl⟩ := canonicalRouteKey_of_proxyNetwork hproxy'
    rw [hkey, hkey', hproxy, hproxy', Option.some.injEq, Option.some.injEq, Prod.mk.injEq]
    constructor
    · intro h
      rw [Prefix.key_inj h]
      exact ⟨rfl, rfl⟩
    · rintro ⟨hraw, hlen⟩
      rw [Prefix.ext hraw hlen]

end NDTwin.FlowTables
