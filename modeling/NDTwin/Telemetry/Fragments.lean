import Mathlib.Logic.Function.Basic
import NDTwin.Telemetry.FrameIdentity

/-!
# Fragments of IPv6

A packet of IPv6 is a chain of headers, each of which names the next one.  After a fragment header
whose offset is not zero comes a piece of the payload, which is no header, whatever the fragment header
names.  The walk over the chain takes the ports for hidden from there on, but it goes on stepping if
the header that is named is one it steps over, and a second fragment header makes it forget the first.

## Main definitions

* `Chain` — the headers of a packet, up to the first piece of a payload.
* `LaterFragment` — the first fragment header of a frame with an offset.
* `PortsHidden` — the key has no ports and depends on nothing after a header.
* `StopsAt` — the walk does not go on after a header.

## Main results

* `portsHidden_iff` — **the ports of a later fragment are hidden exactly if the walk stops at its
  fragment header.**
* `not_portsHidden_twoFragmentHeaders` — the ports are read from the payload.
-/

namespace NDTwin.Telemetry

open Reads

/-! ### Chains of headers -/

local instance lawfulBEq_byte : LawfulBEq (BitVec 8) := inferInstance

/-- How many bytes an extension header has, as the protocol defines it, by the byte after the one that
names the next header.  What follows the headers that are missing here is no header. -/
def extensionLength (header extLen : BitVec 8) : Option ℕ :=
  if header ∈ [0, 43, 60, 135, 139, 140] then some ((extLen.toNat + 1) * 8)
  else if header = 51 then some ((extLen.toNat + 2) * 4)
  else if header = ipv6Fragment then some 8
  else none

/-- The offset in a fragment header. -/
def fragmentOffset (mem : ℕ → BitVec 8) (offset : ℕ) : BitVec 16 :=
  run mem (be16 (offset + 2)) &&& 0xFFF8

/-- A frame of a length is of IPv6, and its header is there from a position on. -/
structure Ipv6At (mem : ℕ → BitVec 8) (length payload : ℕ) : Prop where
  room : 14 ≤ length
  etherType : run mem (etherTypeAndPayload length) = (etherTypeIpv6, payload)
  fits : Fits payload 40 length

/-- Some headers, then one of a type at a position.  The headers end with a fragment header whose
offset is not zero. -/
inductive Chain (mem : ℕ → BitVec 8) (length payload : ℕ) : List (BitVec 8) → BitVec 8 → ℕ → Prop
  | start : Chain mem length payload [] (mem (payload + 6)) (payload + 40)
  | step {headers : List (BitVec 8)} {next : BitVec 8} {offset size : ℕ}
    (h : Chain mem length payload headers next offset) (fits : Fits offset 8 length)
    (hsize : extensionLength next (mem (offset + 1)) = some size)
    (hzero : next = ipv6Fragment → fragmentOffset mem offset = 0) :
    Chain mem length payload (headers ++ [next]) (mem offset) (offset + size)

/-- The first fragment header of a frame whose offset is not zero, after some headers. -/
structure LaterFragment (mem : ℕ → BitVec 8) (length payload : ℕ) (headers : List (BitVec 8))
    (offset : ℕ) : Prop where
  frame : Ipv6At mem length payload
  chain : Chain mem length payload headers ipv6Fragment offset
  fits : Fits offset 8 length
  nonzero : fragmentOffset mem offset ≠ 0

/-- The key of a frame. -/
def keyOf (mem : ℕ → BitVec 8) (length : ℕ) : FlowKey := (run mem (identifyFrame true length)).key

/-- The key has no ports, and it does not depend on any byte after a fragment header. -/
structure PortsHidden (mem : ℕ → BitVec 8) (length offset : ℕ) : Prop where
  srcPort : (keyOf mem length).srcPort = 0
  dstPort : (keyOf mem length).dstPort = 0
  independent : ∀ mem', (∀ i < offset + 8, mem' i = mem i) → keyOf mem' length = keyOf mem length

/-- The walk does not go on after a fragment header: it has not come there, it has no turns left, the
header that is named is none that it steps over, or there is no room for one. -/
def StopsAt (mem : ℕ → BitVec 8) (length : ℕ) (headers : List (BitVec 8)) (offset : ℕ) : Prop :=
  (∃ header ∈ headers, isChainHeader header = false)
    ∨ maxIpv6ExtensionHeaders ≤ headers.length + 1
    ∨ isChainHeader (mem offset) = false
    ∨ ¬ Fits (offset + 8) 8 length

theorem eight_le_of_extensionLength {header extLen : BitVec 8} {size : ℕ}
    (h : extensionLength header extLen = some size) : 8 ≤ size := by
  unfold extensionLength at h
  split at h
  · cases h
    omega
  · split at h
    · cases h
      omega
    · split at h
      · cases h
        omega
      · exact absurd h (by simp)

theorem Chain.payload_le {mem : ℕ → BitVec 8} {length payload : ℕ} {headers : List (BitVec 8)}
    {next : BitVec 8} {offset : ℕ} (h : Chain mem length payload headers next offset) :
    payload + 40 ≤ offset := by
  induction h with
  | start => exact le_rfl
  | step _ _ hsize _ ih =>
    have := eight_le_of_extensionLength hsize
    omega

/-! ### Frames that agree up to a header -/

theorem within_etherTypeAndPayload (length : ℕ) : Within 18 (etherTypeAndPayload length) := by
  refine (within_be16 (by omega)).bind ?_
  intro ethType
  unfold stripTag
  dsimp only
  split
  · exact (within_be16 (by omega)).bind fun ethType => within_pure 18 _
  · exact within_pure 18 _

section Congr

variable {mem mem' : ℕ → BitVec 8} {length payload offset : ℕ} {headers : List (BitVec 8)}
  {next : BitVec 8}

theorem fragmentOffset_congr (hmem : ∀ i < offset + 8, mem' i = mem i) :
    fragmentOffset mem' offset = fragmentOffset mem offset := by
  have hwithin : Within (offset + 8) (be16 (offset + 2)) := within_be16 (by omega)
  rw [fragmentOffset, fragmentOffset, hwithin.run_congr hmem]

theorem Ipv6At.congr (h : Ipv6At mem length payload) (hmem : ∀ i < payload + 40, mem' i = mem i) :
    Ipv6At mem' length payload := by
  refine ⟨h.room, ?_, h.fits⟩
  rw [(within_etherTypeAndPayload length).run_congr fun i hi => hmem i (by omega)]
  exact h.etherType

/-- A chain is there in every memory that is the same up to it. -/
theorem Chain.congr (h : Chain mem length payload headers next offset)
    (hmem : ∀ i < offset, mem' i = mem i) : Chain mem' length payload headers next offset := by
  induction h with
  | start =>
    rw [← hmem (payload + 6) (by omega)]
    exact .start
  | @step headers next offset size h fits hsize hzero ih =>
    have hle := eight_le_of_extensionLength hsize
    rw [← hmem offset (by omega)]
    refine .step (ih fun i hi => hmem i (by omega)) fits ?_ ?_
    · rw [hmem (offset + 1) (by omega)]
      exact hsize
    · intro hnext
      rw [fragmentOffset_congr fun i hi => hmem i (by omega)]
      exact hzero hnext

theorem LaterFragment.congr (h : LaterFragment mem length payload headers offset)
    (hmem : ∀ i < offset + 8, mem' i = mem i) :
    LaterFragment mem' length payload headers offset := by
  have hle := h.chain.payload_le
  refine ⟨h.frame.congr fun i hi => hmem i (by omega), h.chain.congr fun i hi => hmem i (by omega),
    h.fits, ?_⟩
  rw [fragmentOffset_congr hmem]
  exact h.nonzero

end Congr

/-! ### The walk along a chain -/

section Walk

variable {mem : ℕ → BitVec 8} {length payload offset : ℕ} {headers : List (BitVec 8)}
  {next : BitVec 8}

/-- Where the walk over the extension headers of a frame ends. -/
def chainEnd (mem : ℕ → BitVec 8) (length payload : ℕ) : ChainEnd :=
  run mem (walkChain length maxIpv6ExtensionHeaders (mem (payload + 6)) (payload + 40) false)

/-- A frame whose walk ends so is reported by the link layer. -/
def ChainEnd.isOpaque (e : ChainEnd) : Bool := !e.resolved || isOpaqueExtensionHeader e.next

theorem isChainHeader_iff : isChainHeader next = true
    ↔ (next = ipv6HopByHop ∨ next = ipv6Routing) ∨ next = ipv6Fragment := by
  simp [isChainHeader, or_assoc]

theorem forall_isChainHeader (h : ¬ ∃ header ∈ headers, isChainHeader header = false) :
    ∀ header ∈ headers, isChainHeader header = true := by
  intro header hheader
  by_contra hfalse
  exact h ⟨header, hheader, by simpa using hfalse⟩

/-- The walk ends at a header that it does not step over. -/
theorem run_walkChain_of_not_chain (hnext : isChainHeader next = false) (left : ℕ)
    (fragmented : Bool) :
    run mem (walkChain length left next offset fragmented) = ⟨next, offset, fragmented, true⟩ := by
  cases left with
  | zero =>
    rw [walkChain, hnext]
    rfl
  | succ left =>
    have hnot : ¬ ((next = ipv6HopByHop ∨ next = ipv6Routing) ∨ next = ipv6Fragment) := by
      rw [← isChainHeader_iff, hnext]
      exact Bool.false_ne_true
    rw [walkChain, if_neg fun h => hnot (Or.inl h), if_neg fun h => hnot (Or.inr h)]
    rfl

/-- The walk is at its end where there is no room for a header. -/
theorem resolved_of_not_fits (hnext : isChainHeader next = true) (hfits : ¬ Fits offset 8 length)
    (left : ℕ) (fragmented : Bool) :
    (run mem (walkChain length left next offset fragmented)).resolved = false := by
  cases left with
  | zero =>
    rw [walkChain, hnext]
    rfl
  | succ left =>
    unfold walkChain
    by_cases h : next = ipv6HopByHop ∨ next = ipv6Routing
    · rw [if_pos h, if_pos hfits]
      rfl
    · rw [if_neg h, if_pos ((isChainHeader_iff.mp hnext).resolve_left h), if_pos hfits]
      rfl

/-- A step over a header of options or of routing. -/
theorem run_walkChain_options (hnext : next = ipv6HopByHop ∨ next = ipv6Routing)
    (hfits : Fits offset 8 length) (left : ℕ) (fragmented : Bool) :
    run mem (walkChain length (left + 1) next offset fragmented)
      = run mem (walkChain length left (mem offset)
          (offset + ((mem (offset + 1)).toNat + 1) * 8) fragmented) := by
  rw [walkChain, if_pos hnext, if_neg (not_not.mpr hfits)]
  simp only [run_bind, run_get]

/-- A step over a fragment header. -/
theorem run_walkChain_fragment (hfits : Fits offset 8 length) (left : ℕ) (fragmented : Bool) :
    run mem (walkChain length (left + 1) ipv6Fragment offset fragmented)
      = run mem (walkChain length left (mem offset) (offset + 8)
          (decide (fragmentOffset mem offset ≠ 0))) := by
  rw [walkChain, if_neg (by decide), if_pos rfl, if_neg (not_not.mpr hfits)]
  simp only [run_bind, run_get]
  rfl

/-- The headers of a chain that are stepped over have the lengths that the walk takes them to have. -/
theorem extensionLength_options (hnext : next = ipv6HopByHop ∨ next = ipv6Routing)
    (extLen : BitVec 8) : extensionLength next extLen = some ((extLen.toNat + 1) * 8) := by
  rcases hnext with rfl | rfl <;> rfl

theorem isOpaque_of_extensionLength {extLen : BitVec 8} {size : ℕ}
    (hsize : extensionLength next extLen = some size) (hnext : isChainHeader next = false) :
    isOpaqueExtensionHeader next = true := by
  unfold extensionLength at hsize
  split at hsize
  · next hmem =>
    simp only [List.mem_cons, List.not_mem_nil, or_false] at hmem
    rcases hmem with rfl | rfl | rfl | rfl | rfl | rfl
    -- the first two are stepped over
    · exact absurd hnext (by decide)
    · exact absurd hnext (by decide)
    all_goals rfl
  · split at hsize
    · next h => rw [h]; rfl
    · split at hsize
      · next h => exact absurd (h ▸ hnext) (by decide)
      · exact absurd hsize (by simp)

/-- **The walk comes along a chain of headers that it steps over.** -/
theorem Chain.chainEnd_eq (h : Chain mem length payload headers next offset)
    (hall : ∀ header ∈ headers, isChainHeader header = true)
    (hcount : headers.length ≤ maxIpv6ExtensionHeaders) :
    chainEnd mem length payload
      = run mem (walkChain length (maxIpv6ExtensionHeaders - headers.length) next offset false) := by
  induction h with
  | start => rfl
  | @step headers next offset size h fits hsize hzero ih =>
    rw [List.length_append, List.length_singleton] at hcount
    have hleft : maxIpv6ExtensionHeaders - headers.length
        = maxIpv6ExtensionHeaders - (headers ++ [next]).length + 1 := by
      rw [List.length_append, List.length_singleton]
      omega
    rw [ih (fun header hheader => hall header (List.mem_append_left _ hheader)) (by omega), hleft]
    have hnext : isChainHeader next = true := hall next (by simp)
    by_cases hoptions : next = ipv6HopByHop ∨ next = ipv6Routing
    · rw [extensionLength_options hoptions, Option.some_inj] at hsize
      rw [run_walkChain_options hoptions fits, hsize]
    · obtain rfl := (isChainHeader_iff.mp hnext).resolve_left hoptions
      obtain rfl : 8 = size := Option.some_inj.mp hsize
      rw [run_walkChain_fragment fits, hzero rfl]
      rfl

/-- The walk does not come along other chains, and the frame is reported by the link layer. -/
theorem Chain.isOpaque_chainEnd (h : Chain mem length payload headers next offset)
    (hstop : (∃ header ∈ headers, isChainHeader header = false)
      ∨ maxIpv6ExtensionHeaders < headers.length) :
    (chainEnd mem length payload).isOpaque = true := by
  induction h with
  | start => simp at hstop
  | @step headers next offset size h fits hsize hzero ih =>
    by_cases hearlier : (∃ header ∈ headers, isChainHeader header = false)
        ∨ maxIpv6ExtensionHeaders < headers.length
    · exact ih hearlier
    · -- the walk comes to the last of the headers
      obtain ⟨hnone, hcount⟩ := not_or.mp hearlier
      have hend := h.chainEnd_eq (forall_isChainHeader hnone) (by omega)
      by_cases hnext : isChainHeader next = true
      · have hlast : headers.length = maxIpv6ExtensionHeaders := by
          rcases hstop with ⟨header, hheader, hfalse⟩ | hlong
          · rcases List.mem_append.mp hheader with hmem | hmem
            · exact absurd ⟨header, hmem, hfalse⟩ hnone
            · rw [List.mem_singleton.mp hmem, hnext] at hfalse
              exact absurd hfalse (by simp)
          · rw [List.length_append, List.length_singleton] at hlong
            omega
        rw [hend, hlast, Nat.sub_self, walkChain, hnext]
        rfl
      · rw [hend, run_walkChain_of_not_chain (by simpa using hnext), ChainEnd.isOpaque,
          isOpaque_of_extensionLength hsize (by simpa using hnext)]
        rfl

/-- Where the walk comes to the fragment header, it goes on with what the header names. -/
theorem LaterFragment.chainEnd_eq (h : LaterFragment mem length payload headers offset)
    (hall : ∀ header ∈ headers, isChainHeader header = true)
    (hcount : headers.length < maxIpv6ExtensionHeaders) :
    chainEnd mem length payload
      = run mem (walkChain length (maxIpv6ExtensionHeaders - (headers.length + 1)) (mem offset)
          (offset + 8) true) := by
  have hleft : maxIpv6ExtensionHeaders - headers.length
      = maxIpv6ExtensionHeaders - (headers.length + 1) + 1 := by omega
  rw [h.chain.chainEnd_eq hall (by omega), hleft, run_walkChain_fragment h.fits,
    decide_eq_true h.nonzero]

/-- Where the walk goes no further than to the header that is named, or not so far, the frame is
reported by the link layer. -/
theorem LaterFragment.isOpaque_chainEnd (h : LaterFragment mem length payload headers offset)
    (hstop : (∃ header ∈ headers, isChainHeader header = false)
      ∨ maxIpv6ExtensionHeaders ≤ headers.length
      ∨ (isChainHeader (mem offset) = true
        ∧ (maxIpv6ExtensionHeaders ≤ headers.length + 1 ∨ ¬ Fits (offset + 8) 8 length))) :
    (chainEnd mem length payload).isOpaque = true := by
  by_cases hearlier : (∃ header ∈ headers, isChainHeader header = false)
      ∨ maxIpv6ExtensionHeaders < headers.length
  · exact h.chain.isOpaque_chainEnd hearlier
  obtain ⟨hnone, hcount⟩ := not_or.mp hearlier
  have hall := forall_isChainHeader hnone
  rcases Nat.eq_or_lt_of_le (not_lt.mp hcount) with hlast | hlt
  · -- the fragment header is the one that is too many
    rw [h.chain.chainEnd_eq hall (by omega), hlast, Nat.sub_self]
    rfl
  · obtain ⟨hnamed, hend⟩ := (hstop.resolve_left hnone).resolve_left (not_le.mpr hlt)
    rw [h.chainEnd_eq hall hlt, ChainEnd.isOpaque]
    rcases hend with hturns | hroom
    · rw [Nat.sub_eq_zero_of_le hturns, walkChain, hnamed]
      rfl
    · rw [resolved_of_not_fits hnamed hroom]
      rfl

end Walk

/-! ### Keys -/

section Key

variable {mem : ℕ → BitVec 8} {length payload offset : ℕ}

/-- The key of a frame of IPv6 without ports. -/
def ipv6Key (mem : ℕ → BitVec 8) (payload : ℕ) (next : BitVec 8) : FlowKey :=
  { FlowKey.ofFamily .ipv6 with
    srcIp6 := run mem (getList 16 (payload + 8))
    dstIp6 := run mem (getList 16 (payload + 24))
    protocol := next }

/-- The key of a frame of IPv6, by where the walk ends. -/
theorem keyOf_eq (h : Ipv6At mem length payload) :
    keyOf mem length
      = (if (chainEnd mem length payload).isOpaque then FrameIdentity.ofL2 (l2Key mem etherTypeIpv6)
        else
          let out : FrameIdentity :=
            { key := ipv6Key mem payload (chainEnd mem length payload).next
              ethernetHeaderPresent := true
              identified := true }
          if (chainEnd mem length payload).fragmented then out
          else run mem (identifyIpv6Payload out (chainEnd mem length payload).offset length)).key := by
  rw [keyOf, run_identifyFrame h.room mem h.etherType, identifyPayload, if_neg (by decide), if_pos rfl]
  unfold identifyIpv6
  rw [if_neg (not_not.mpr h.fits)]
  simp only [run_bind, run_get]
  show FrameIdentity.key (run mem (if (chainEnd mem length payload).isOpaque = true then _ else
    if (chainEnd mem length payload).fragmented = true then _ else _)) = _
  split
  · rfl
  · split <;> rfl

theorem keyOf_of_isOpaque (h : Ipv6At mem length payload)
    (hreported : (chainEnd mem length payload).isOpaque = true) :
    keyOf mem length = l2Key mem etherTypeIpv6 := by
  rw [keyOf_eq h, if_pos hreported]
  rfl

theorem keyOf_of_fragmented (h : Ipv6At mem length payload)
    (hreported : (chainEnd mem length payload).isOpaque = false)
    (hfragmented : (chainEnd mem length payload).fragmented = true) :
    keyOf mem length = ipv6Key mem payload (chainEnd mem length payload).next := by
  rw [keyOf_eq h, if_neg (by simp [hreported]), if_pos hfragmented]

/-- What is read after the headers changes no family. -/
theorem family_identifyIpv6Payload (out : FrameIdentity) (offset length : ℕ) :
    (run mem (identifyIpv6Payload out offset length)).key.family = out.key.family := by
  have hports (out : FrameIdentity) :
      (run mem (readPorts out offset length)).key.family = out.key.family := by
    unfold readPorts
    split <;> rfl
  have hack (out : FrameIdentity) :
      (run mem (readTcpAck out offset length)).key.family = out.key.family := by
    unfold readTcpAck
    split <;> rfl
  unfold identifyIpv6Payload
  split
  · rw [run_bind, hack, hports]
  · split
    · unfold readIcmp
      split <;> rfl
    · rfl

theorem family_keyOf (h : Ipv6At mem length payload)
    (hreported : (chainEnd mem length payload).isOpaque = false) :
    (keyOf mem length).family = .ipv6 := by
  rw [keyOf_eq h, if_neg (by simp [hreported])]
  dsimp only
  split
  · rfl
  · rw [family_identifyIpv6Payload]
    rfl

theorem l2Key_congr {mem' : ℕ → BitVec 8} (hmem : ∀ i < 12, mem' i = mem i) (ethType : BitVec 16) :
    l2Key mem' ethType = l2Key mem ethType := by
  have hdst : Within 12 (mac48 0) := within_mac48 (by omega)
  have hsrc : Within 12 (mac48 6) := within_mac48 (by omega)
  rw [l2Key, l2Key, hdst.run_congr hmem, hsrc.run_congr hmem]

theorem ipv6Key_congr {mem' : ℕ → BitVec 8} (hmem : ∀ i < payload + 40, mem' i = mem i)
    (next : BitVec 8) : ipv6Key mem' payload next = ipv6Key mem payload next := by
  have hsrc : Within (payload + 40) (getList 16 (payload + 8) : Reads (BitVec 8) _) :=
    within_getList (by omega)
  have hdst : Within (payload + 40) (getList 16 (payload + 24) : Reads (BitVec 8) _) :=
    within_getList (by omega)
  rw [ipv6Key, ipv6Key, hsrc.run_congr hmem, hdst.run_congr hmem]

end Key

/-! ### Later fragments -/

section Later

variable {mem mem' : ℕ → BitVec 8} {length payload offset : ℕ} {headers : List (BitVec 8)}

/-- One key without ports, whatever follows. -/
theorem portsHidden_of_keyOf (key : FlowKey) (hsrc : key.srcPort = 0) (hdst : key.dstPort = 0)
    (hkey : ∀ mem', (∀ i < offset + 8, mem' i = mem i) → keyOf mem' length = key) :
    PortsHidden mem length offset := by
  have hself := hkey mem fun i _ => rfl
  refine ⟨by rw [hself, hsrc], by rw [hself, hdst], ?_⟩
  intro mem' hmem
  rw [hkey mem' hmem, hself]

/-- Where the walk ends with what the fragment header names, and that is no header to step over. -/
theorem LaterFragment.portsHidden_of_not_chain
    (h : LaterFragment mem length payload headers offset)
    (hall : ∀ header ∈ headers, isChainHeader header = true)
    (hcount : headers.length < maxIpv6ExtensionHeaders)
    (hnext : isChainHeader (mem offset) = false) : PortsHidden mem length offset := by
  have hle := h.chain.payload_le
  have hend : ∀ mem', (∀ i < offset + 8, mem' i = mem i) →
      chainEnd mem' length payload = ⟨mem offset, offset + 8, true, true⟩ := by
    intro mem' hmem
    rw [(h.congr hmem).chainEnd_eq hall hcount, hmem offset (by omega),
      run_walkChain_of_not_chain hnext]
  by_cases hreported : isOpaqueExtensionHeader (mem offset) = true
  · refine portsHidden_of_keyOf (l2Key mem etherTypeIpv6) rfl rfl ?_
    intro mem' hmem
    rw [keyOf_of_isOpaque (h.congr hmem).frame (by rw [hend mem' hmem]; exact hreported)]
    exact l2Key_congr (fun i hi => hmem i (by omega)) etherTypeIpv6
  · refine portsHidden_of_keyOf (ipv6Key mem payload (mem offset)) rfl rfl ?_
    intro mem' hmem
    have hclear : (chainEnd mem' length payload).isOpaque = false := by
      rw [hend mem' hmem, ChainEnd.isOpaque]
      simpa using hreported
    rw [keyOf_of_fragmented (h.congr hmem).frame hclear (by rw [hend mem' hmem]), hend mem' hmem]
    exact ipv6Key_congr (fun i hi => hmem i (by omega)) _

/-- Where the walk stops, the key is one without ports, from what is before the payload. -/
theorem LaterFragment.portsHidden (h : LaterFragment mem length payload headers offset)
    (hstops : StopsAt mem length headers offset) : PortsHidden mem length offset := by
  have hle := h.chain.payload_le
  by_cases hreported : (∃ header ∈ headers, isChainHeader header = false)
      ∨ maxIpv6ExtensionHeaders ≤ headers.length
      ∨ (isChainHeader (mem offset) = true
        ∧ (maxIpv6ExtensionHeaders ≤ headers.length + 1 ∨ ¬ Fits (offset + 8) 8 length))
  · -- the frame is reported by the link layer
    refine portsHidden_of_keyOf (l2Key mem etherTypeIpv6) rfl rfl ?_
    intro mem' hmem
    have h' := h.congr hmem
    rw [← hmem offset (by omega)] at hreported
    rw [keyOf_of_isOpaque h'.frame (h'.isOpaque_chainEnd hreported)]
    exact l2Key_congr (fun i hi => hmem i (by omega)) etherTypeIpv6
  · -- the walk ends with what the fragment header names
    obtain ⟨hnone, hrest⟩ := not_or.mp hreported
    obtain ⟨hcount, hchain⟩ := not_or.mp hrest
    have hall := forall_isChainHeader hnone
    have hnext : isChainHeader (mem offset) = false := by
      rcases hstops with hsome | hturns | hnext | hroom
      · exact absurd hsome hnone
      · simpa using fun hnext => hchain ⟨hnext, Or.inl hturns⟩
      · exact hnext
      · simpa using fun hnext => hchain ⟨hnext, Or.inr hroom⟩
    exact h.portsHidden_of_not_chain hall (by omega) hnext

/-- Where the walk goes on, the byte after the fragment header decides on the family. -/
theorem LaterFragment.isOpaque_of_next (h : LaterFragment mem length payload headers offset)
    (hgoes : ¬ StopsAt mem length headers offset)
    (hnext : isChainHeader (mem (offset + 8)) = false) :
    (chainEnd mem length payload).isOpaque = isOpaqueExtensionHeader (mem (offset + 8)) := by
  obtain ⟨hnone, hrest⟩ := not_or.mp hgoes
  obtain ⟨hturns, hrest⟩ := not_or.mp hrest
  obtain ⟨hnamed, hroom⟩ := not_or.mp hrest
  obtain ⟨left, hleft⟩ : ∃ left, maxIpv6ExtensionHeaders - (headers.length + 1) = left + 1 :=
    ⟨maxIpv6ExtensionHeaders - (headers.length + 1) - 1, by omega⟩
  rw [h.chainEnd_eq (forall_isChainHeader hnone) (by omega), hleft]
  by_cases hoptions : mem offset = ipv6HopByHop ∨ mem offset = ipv6Routing
  · rw [run_walkChain_options hoptions (not_not.mp hroom), run_walkChain_of_not_chain hnext]
    rfl
  · have hfragment := (isChainHeader_iff.mp (by simpa using hnamed)).resolve_left hoptions
    rw [hfragment, run_walkChain_fragment (not_not.mp hroom), run_walkChain_of_not_chain hnext]
    rfl

end Later

/-- **The ports of a later fragment are hidden exactly if the walk stops at its fragment header.** -/
theorem portsHidden_iff {mem : ℕ → BitVec 8} {length payload offset : ℕ} {headers : List (BitVec 8)}
    (h : LaterFragment mem length payload headers offset) :
    PortsHidden mem length offset ↔ StopsAt mem length headers offset := by
  refine ⟨?_, h.portsHidden⟩
  intro hhidden
  by_contra hgoes
  -- two frames that differ in the byte after the fragment header
  have hagree (b : BitVec 8) : ∀ i < offset + 8, Function.update mem (offset + 8) b i = mem i :=
    fun i hi => by rw [Function.update_of_ne (by omega)]
  have hgoes' (b : BitVec 8) : ¬ StopsAt (Function.update mem (offset + 8) b) length headers offset := by
    rw [StopsAt, hagree b offset (by omega)]
    exact hgoes
  have hbyte (b : BitVec 8) : Function.update mem (offset + 8) b (offset + 8) = b :=
    Function.update_self _ _ _
  have hL2 := (h.congr (hagree 59)).isOpaque_of_next (hgoes' 59) (by rw [hbyte]; decide)
  have hTcp := (h.congr (hagree 6)).isOpaque_of_next (hgoes' 6) (by rw [hbyte]; decide)
  rw [hbyte] at hL2 hTcp
  have hfamily := family_keyOf (h.congr (hagree 6)).frame hTcp
  rw [hhidden.independent _ (hagree 6), ← hhidden.independent _ (hagree 59),
    keyOf_of_isOpaque (h.congr (hagree 59)).frame hL2] at hfamily
  exact absurd hfamily (by simp [l2Key, FlowKey.ofFamily])

/-- A later fragment, whose fragment header names what the whole packet has after it.  The piece of the
payload looks like another fragment header and two ports. -/
def laterFragment (named : BitVec 8) : ℕ → BitVec 8 :=
  ofList
    [0, 0, 0, 0, 0, 2, 0, 0, 0, 0, 0, 1, 0x86, 0xDD,
      0x60, 0, 0, 0, 0, 20, 44, 64,
      0xFD, 0, 0, 0, 0, 0, 0, 0, 0, 0, 0, 0, 0, 0, 0, 1,
      0xFD, 0, 0, 0, 0, 0, 0, 0, 0, 0, 0, 0, 0, 0, 0, 2,
      named, 0, 0, 8, 0, 0, 0, 1,
      6, 0, 0, 0, 0, 0, 0, 1,
      0, 80, 0x1F, 0x90] fun _ => 0

theorem laterFragment_laterFragment (named : BitVec 8) :
    LaterFragment (laterFragment named) 74 14 [] 54 := by
  have hnext : laterFragment named (14 + 6) = ipv6Fragment := rfl
  have htype : run (laterFragment named) (be16 12) = etherTypeIpv6 := by
    show (0x86 : BitVec 8).setWidth 16 <<< 8 ||| (0xDD : BitVec 8).setWidth 16 = _
    decide
  have hframe : run (laterFragment named) (etherTypeAndPayload 74) = (etherTypeIpv6, 14) := by
    rw [etherTypeAndPayload, run_bind, htype, stripTag, if_neg (by decide)]
    rfl
  refine ⟨⟨by decide, hframe, by decide⟩, hnext ▸ .start, by decide, ?_⟩
  show ((0 : BitVec 8).setWidth 16 <<< 8 ||| (8 : BitVec 8).setWidth 16) &&& 0xFFF8 ≠ 0
  decide

/-- The ports are hidden if the fragment header names TCP. -/
theorem portsHidden_iff_laterFragment : PortsHidden (laterFragment 6) 74 54 :=
  (portsHidden_iff (laterFragment_laterFragment 6)).mpr (Or.inr (Or.inr (Or.inl (by decide))))

/-- Where it names another fragment header, the ports are read from the payload. -/
theorem not_portsHidden_twoFragmentHeaders :
    LaterFragment (laterFragment 44) 74 14 [] 54 ∧ (keyOf (laterFragment 44) 74).srcPort = 80
      ∧ ¬ PortsHidden (laterFragment 44) 74 54 := by
  have hport : (keyOf (laterFragment 44) 74).srcPort = 80 := by decide +kernel
  refine ⟨laterFragment_laterFragment 44, hport, ?_⟩
  intro h
  have hzero := h.srcPort
  rw [hport] at hzero
  exact absurd hzero (by decide)

end NDTwin.Telemetry
