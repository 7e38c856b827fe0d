import NDTwin.Lib.Reads
import NDTwin.Telemetry.FlowPath

/-!
# The identity of a frame

A sampled frame is told to be of one of three families, and its key has the fields of that family.  The
addresses of the link layer change from hop to hop, so they are in no key of the network layer.

The frame is a memory of which only a length is known to be there.  What is known about it is read by
a program, so that the bytes it reads can be bounded and two runs of it can be compared.

## Main definitions

* `identifyFrame` — the family and the key of a frame.
* `FlowKey.Bare` — a key of the network layer has no field of another family.
* `EthernetFrame` — a frame by its parts, which is any text with room for an Ethernet header.
* `FrameIdentity.Agree` — two identities that stand for one flow.

## Main results

* `EthernetFrame.exists_bytes_eq` — every text of at least 14 bytes is a frame.
* `identifyFrame_hopIndependent` — **nothing is read past the length, the keys of the network layer are
  bare, and two frames that differ in their addresses and in one tag have the same identity.**
-/

namespace NDTwin.Telemetry

/-! ### The program -/

/-- What a sampled frame turned out to be. -/
structure FrameIdentity where
  key : FlowKey
  ethernetHeaderPresent : Bool := false
  /-- The key is a usable identity. -/
  identified : Bool := false
  ipv4MalformedIhl : Bool := false
  ipv4Ihl : BitVec 8 := 0
  ipv4FragmentOffset : BitVec 16 := 0
  ipv4MoreFragments : Bool := false
  ipv4DontFragment : Bool := false
  tcpAck : Bool := false
  deriving DecidableEq, Repr

/-- `FlowKey{}`, of a family. -/
def FlowKey.ofFamily (family : FlowKeyFamily) : FlowKey where
  srcIP := 0
  dstIP := 0
  srcPort := 0
  dstPort := 0
  family := family

/-- `kEtherTypeIpv4`. -/
def etherTypeIpv4 : BitVec 16 := 0x0800

/-- `kEtherTypeIpv6`. -/
def etherTypeIpv6 : BitVec 16 := 0x86DD

/-- `kEtherTypeVlan`. -/
def etherTypeVlan : BitVec 16 := 0x8100

/-- `kIpProtoIcmp`. -/
def ipProtoIcmp : BitVec 8 := 1

/-- `kIpProtoTcp`. -/
def ipProtoTcp : BitVec 8 := 6

/-- `kIpProtoUdp`. -/
def ipProtoUdp : BitVec 8 := 17

/-- `kIpProtoIcmpv6`. -/
def ipProtoIcmpv6 : BitVec 8 := 58

/-- `kIpv6HopByHop`. -/
def ipv6HopByHop : BitVec 8 := 0

/-- `kIpv6Routing`. -/
def ipv6Routing : BitVec 8 := 43

/-- `kIpv6Fragment`. -/
def ipv6Fragment : BitVec 8 := 44

/-- `kMaxIpv6ExtensionHeaders`. -/
def maxIpv6ExtensionHeaders : ℕ := 8

/-- `fits(offset, need, length)`. -/
def Fits (offset need length : ℕ) : Prop := offset ≤ length ∧ need ≤ length - offset

instance (offset need length : ℕ) : Decidable (Fits offset need length) :=
  inferInstanceAs (Decidable (_ ∧ _))

/-- `be16(p)`. -/
def be16 (p : ℕ) : Reads (BitVec 8) (BitVec 16) := do
  let a ← Reads.get p
  let b ← Reads.get (p + 1)
  return a.setWidth 16 <<< 8 ||| b.setWidth 16

/-- `be32(p)`. -/
def be32 (p : ℕ) : Reads (BitVec 8) (BitVec 32) := do
  let a ← Reads.get p
  let b ← Reads.get (p + 1)
  let c ← Reads.get (p + 2)
  let d ← Reads.get (p + 3)
  return a.setWidth 32 <<< 24 ||| b.setWidth 32 <<< 16 ||| c.setWidth 32 <<< 8 ||| d.setWidth 32

/-- `mac48(p)`. -/
def mac48 (p : ℕ) : Reads (BitVec 8) (BitVec 64) := do
  let bytes ← Reads.getList 6 p
  return bytes.foldl (fun v b => v <<< 8 ||| b.setWidth 64) 0

/-- `isOpaqueExtensionHeader(nextHeader)`. -/
def isOpaqueExtensionHeader (nextHeader : BitVec 8) : Bool :=
  nextHeader ∈ [50, 51, 59, 60, 135, 139, 140]

/-- A header that the walk steps over. -/
def isChainHeader (next : BitVec 8) : Bool :=
  next == ipv6HopByHop || next == ipv6Routing || next == ipv6Fragment

/-- The tag that is stripped, if there is one: the ethertype after it, and where the payload is. -/
def stripTag (ethType : BitVec 16) (length : ℕ) : Reads (BitVec 8) (BitVec 16 × ℕ) :=
  let payload := 14
  if ethType = etherTypeVlan ∧ Fits payload 4 length then do
    let ethType ← be16 (payload + 2)
    return (ethType, payload + 4)
  else pure (ethType, payload)

/-- The ports of TCP and UDP. -/
def readPorts (out : FrameIdentity) (l4 length : ℕ) : Reads (BitVec 8) FrameIdentity :=
  if Fits l4 4 length then do
    let srcPort ← be16 l4
    let dstPort ← be16 (l4 + 2)
    return { out with key := { out.key with srcPort, dstPort } }
  else pure out

/-- The flag of TCP. -/
def readTcpAck (out : FrameIdentity) (l4 length : ℕ) : Reads (BitVec 8) FrameIdentity :=
  if out.key.protocol = ipProtoTcp ∧ Fits l4 14 length then do
    let flags ← Reads.get (l4 + 13)
    return { out with tcpAck := flags &&& 0x10 ≠ 0 }
  else pure out

/-- The type and the code of ICMP, in the fields of the ports.  Some bits of the code may be
dropped. -/
def readIcmp (mask : BitVec 8) (out : FrameIdentity) (l4 length : ℕ) :
    Reads (BitVec 8) FrameIdentity :=
  if Fits l4 2 length then do
    let icmpType ← Reads.get l4
    let icmpCode ← Reads.get (l4 + 1)
    return { out with key := { out.key with
      srcPort := icmpType.setWidth 16
      dstPort := (icmpCode &&& mask).setWidth 16 } }
  else pure out

/-- What is read after the header of IPv4. -/
def identifyIpv4Payload (out : FrameIdentity) (l4 length : ℕ) : Reads (BitVec 8) FrameIdentity :=
  -- the ports are in the first fragment only
  if out.ipv4FragmentOffset ≠ 0 then pure out
  else if out.key.protocol = ipProtoIcmp then readIcmp 0x0F out l4 length
  else if out.key.protocol = ipProtoTcp ∨ out.key.protocol = ipProtoUdp then do
    let out ← readPorts out l4 length
    readTcpAck out l4 length
  else pure out

/-- A frame of IPv4. -/
def identifyIpv4 (payload length : ℕ) : Reads (BitVec 8) FrameIdentity :=
  let out : FrameIdentity := { key := .ofFamily .ipv4, ethernetHeaderPresent := true }
  if ¬ Fits payload 20 length then pure out
  else do
    let versionIhl ← Reads.get payload
    let out := { out with ipv4Ihl := versionIhl &&& 0x0F }
    if out.ipv4Ihl < 5 then return { out with ipv4MalformedIhl := true }
    else
      let ipHeaderBytes := out.ipv4Ihl.toNat * 4
      if ¬ Fits payload ipHeaderBytes length then return out
      else
        let fragWord ← be16 (payload + 6)
        let protocol ← Reads.get (payload + 9)
        let src ← be32 (payload + 12)
        let dst ← be32 (payload + 16)
        let out : FrameIdentity := { out with
          ipv4DontFragment := fragWord &&& 0x4000 ≠ 0
          ipv4MoreFragments := fragWord &&& 0x2000 ≠ 0
          ipv4FragmentOffset := fragWord &&& 0x1FFF
          key := { out.key with protocol, srcIP := ntohl src, dstIP := ntohl dst }
          identified := true }
        identifyIpv4Payload out (payload + ipHeaderBytes) length

/-- Where the walk over the extension headers has ended. -/
structure ChainEnd where
  next : BitVec 8
  offset : ℕ
  fragmented : Bool
  resolved : Bool
  deriving DecidableEq, Repr

/-- The walk over the extension headers, with the turns it has left. -/
def walkChain (length : ℕ) : (left : ℕ) → BitVec 8 → ℕ → Bool → Reads (BitVec 8) ChainEnd
  -- the last turn is there to see that the chain goes on
  | 0, next, offset, fragmented => pure ⟨next, offset, fragmented, !isChainHeader next⟩
  | left + 1, next, offset, fragmented =>
    if next = ipv6HopByHop ∨ next = ipv6Routing then
      if ¬ Fits offset 8 length then pure ⟨next, offset, fragmented, false⟩
      else do
        let extLen ← Reads.get (offset + 1)
        let following ← Reads.get offset
        walkChain length left following (offset + (extLen.toNat + 1) * 8) fragmented
    else if next = ipv6Fragment then
      if ¬ Fits offset 8 length then pure ⟨next, offset, fragmented, false⟩
      else do
        let fragWord ← be16 (offset + 2)
        let following ← Reads.get offset
        walkChain length left following (offset + 8) (fragWord &&& 0xFFF8 ≠ 0)
    else pure ⟨next, offset, fragmented, true⟩

/-- What is read after the extension headers of IPv6. -/
def identifyIpv6Payload (out : FrameIdentity) (offset length : ℕ) : Reads (BitVec 8) FrameIdentity :=
  if out.key.protocol = ipProtoTcp ∨ out.key.protocol = ipProtoUdp then do
    let out ← readPorts out offset length
    readTcpAck out offset length
  else if out.key.protocol = ipProtoIcmpv6 then readIcmp 0xFF out offset length
  else pure out

/-- A frame that is reported by its addresses of the link layer. -/
def FrameIdentity.ofL2 (l2 : FlowKey) : FrameIdentity where
  key := l2
  ethernetHeaderPresent := true
  identified := true

/-- A frame of IPv6, or one that is reported by the link layer after all. -/
def identifyIpv6 (l2 : FlowKey) (payload length : ℕ) : Reads (BitVec 8) FrameIdentity :=
  let out : FrameIdentity := { key := .ofFamily .ipv6, ethernetHeaderPresent := true }
  if ¬ Fits payload 40 length then pure out
  else do
    let srcIp6 ← Reads.getList 16 (payload + 8)
    let dstIp6 ← Reads.getList 16 (payload + 24)
    let next ← Reads.get (payload + 6)
    let chain ← walkChain length maxIpv6ExtensionHeaders next (payload + 40) false
    if !chain.resolved || isOpaqueExtensionHeader chain.next then return .ofL2 l2
    else
      let out : FrameIdentity := { out with
        key := { out.key with srcIp6, dstIp6, protocol := chain.next }
        identified := true }
      if chain.fragmented then return out
      else identifyIpv6Payload out chain.offset length

/-- What is made of a frame, by its ethertype. -/
def identifyPayload (l2 : FlowKey) (ethType : BitVec 16) (payload length : ℕ) :
    Reads (BitVec 8) FrameIdentity :=
  if ethType = etherTypeIpv4 then identifyIpv4 payload length
  else if ethType = etherTypeIpv6 then identifyIpv6 l2 payload length
  else pure (.ofL2 l2)

/-- `identifyFrame(frame, length)`, for a frame that is there or not. -/
def identifyFrame (frame : Bool) (length : ℕ) : Reads (BitVec 8) FrameIdentity :=
  if frame = false ∨ length < 14 then pure { key := .ofFamily .l2 }
  else do
    let dstMac ← mac48 0
    let srcMac ← mac48 6
    let ethType ← be16 12
    let (ethType, payload) ← stripTag ethType length
    let l2 : FlowKey := { FlowKey.ofFamily .l2 with srcMac, dstMac, ethType }
    identifyPayload l2 ethType payload length

/-! ### Keys and identities -/

/-- A key of the network layer has no field of the link layer, and none of the other family. -/
def FlowKey.Bare (key : FlowKey) : Prop :=
  match key.family with
  | .ipv4 =>
    key.srcMac = 0 ∧ key.dstMac = 0 ∧ key.ethType = 0
      ∧ key.srcIp6 = List.replicate 16 0 ∧ key.dstIp6 = List.replicate 16 0
  | .ipv6 => key.srcMac = 0 ∧ key.dstMac = 0 ∧ key.ethType = 0 ∧ key.srcIP = 0 ∧ key.dstIP = 0
  | .l2 => True

/-- Two identities agree: both are identified or none is, they are of one family, and a key of the
network layer is the same key. -/
def FrameIdentity.Agree (a b : FrameIdentity) : Prop :=
  a.identified = b.identified ∧ a.key.family = b.key.family
    ∧ (a.key.family ≠ .l2 → a.key = b.key)

/-- One identity, whose key is bare. -/
def FrameIdentity.Same (a b : FrameIdentity) : Prop := a = b ∧ a.key.Bare

/-! ### The network layer, from anywhere -/

section Alike

open Reads FrameIdentity

variable (d d' : ℕ) {n : ℕ}

theorem fits_add_iff (k need n : ℕ) : Fits (d + k) need (d + n) ↔ k + need ≤ n := by
  unfold Fits
  omega

theorem fits_add_congr (k need n : ℕ) : Fits (d + k) need (d + n) ↔ Fits (d' + k) need (d' + n) := by
  rw [fits_add_iff, fits_add_iff]

theorem alike_be16 {i : ℕ} (h : i + 2 ≤ n) : Alike d d' n Eq (be16 (d + i)) (be16 (d' + i)) :=
  (alike_get d d' (by omega)).bind_eq fun a =>
    (alike_get d d' (i := i + 1) (by omega)).bind_eq fun b => alike_pure d d' n rfl

theorem alike_be32 {i : ℕ} (h : i + 4 ≤ n) : Alike d d' n Eq (be32 (d + i)) (be32 (d' + i)) :=
  (alike_get d d' (by omega)).bind_eq fun a =>
    (alike_get d d' (i := i + 1) (by omega)).bind_eq fun b =>
      (alike_get d d' (i := i + 2) (by omega)).bind_eq fun c =>
        (alike_get d d' (i := i + 3) (by omega)).bind_eq fun e => alike_pure d d' n rfl

theorem alike_readPorts {out : FrameIdentity} (h : out.key.Bare) (l4 : ℕ) :
    Alike d d' n Same (readPorts out (d + l4) (d + n)) (readPorts out (d' + l4) (d' + n)) := by
  refine .ite (fits_add_congr d d' l4 4 n) (fun hfits => ?_) fun _ => alike_pure d d' n ⟨rfl, h⟩
  rw [fits_add_iff] at hfits
  refine (alike_be16 d d' (by omega)).bind_eq ?_
  intro srcPort
  refine (alike_be16 d d' (i := l4 + 2) (by omega)).bind_eq ?_
  intro dstPort
  exact alike_pure d d' n ⟨rfl, h⟩

theorem alike_readTcpAck {out : FrameIdentity} (h : out.key.Bare) (l4 : ℕ) :
    Alike d d' n Same (readTcpAck out (d + l4) (d + n)) (readTcpAck out (d' + l4) (d' + n)) := by
  refine .ite (and_congr_right' (fits_add_congr d d' l4 14 n)) (fun hfits => ?_)
    fun _ => alike_pure d d' n ⟨rfl, h⟩
  rw [fits_add_iff] at hfits
  refine (alike_get d d' (i := l4 + 13) (by omega)).bind_eq ?_
  intro flags
  exact alike_pure d d' n ⟨rfl, h⟩

theorem alike_readIcmp (mask : BitVec 8) {out : FrameIdentity} (h : out.key.Bare) (l4 : ℕ) :
    Alike d d' n Same (readIcmp mask out (d + l4) (d + n)) (readIcmp mask out (d' + l4) (d' + n)) := by
  refine .ite (fits_add_congr d d' l4 2 n) (fun hfits => ?_) fun _ => alike_pure d d' n ⟨rfl, h⟩
  rw [fits_add_iff] at hfits
  refine (alike_get d d' (by omega)).bind_eq ?_
  intro icmpType
  refine (alike_get d d' (i := l4 + 1) (by omega)).bind_eq ?_
  intro icmpCode
  exact alike_pure d d' n ⟨rfl, h⟩

/-- The ports and the flag of TCP and UDP. -/
theorem alike_readPorts_readTcpAck {out : FrameIdentity} (h : out.key.Bare) (l4 : ℕ) :
    Alike d d' n Same
      (readPorts out (d + l4) (d + n) >>= fun out => readTcpAck out (d + l4) (d + n))
      (readPorts out (d' + l4) (d' + n) >>= fun out => readTcpAck out (d' + l4) (d' + n)) := by
  refine (alike_readPorts d d' h l4).bind ?_
  rintro a _ ⟨rfl, ha⟩
  exact alike_readTcpAck d d' ha l4

theorem alike_identifyIpv4Payload {out : FrameIdentity} (h : out.key.Bare) (l4 : ℕ) :
    Alike d d' n Same (identifyIpv4Payload out (d + l4) (d + n))
      (identifyIpv4Payload out (d' + l4) (d' + n)) := by
  refine .ite Iff.rfl (fun _ => alike_pure d d' n ⟨rfl, h⟩) ?_
  intro _
  refine .ite Iff.rfl (fun _ => alike_readIcmp d d' 0x0F h l4) ?_
  intro _
  refine .ite Iff.rfl (fun _ => alike_readPorts_readTcpAck d d' h l4) ?_
  intro _
  exact alike_pure d d' n ⟨rfl, h⟩

theorem alike_identifyIpv6Payload {out : FrameIdentity} (h : out.key.Bare) (offset : ℕ) :
    Alike d d' n Same (identifyIpv6Payload out (d + offset) (d + n))
      (identifyIpv6Payload out (d' + offset) (d' + n)) := by
  refine .ite Iff.rfl (fun _ => alike_readPorts_readTcpAck d d' h offset) ?_
  intro _
  refine .ite Iff.rfl (fun _ => alike_readIcmp d d' 0xFF h offset) ?_
  intro _
  exact alike_pure d d' n ⟨rfl, h⟩

/-- A frame of IPv4 is the same frame wherever its payload begins. -/
theorem alike_identifyIpv4 (n : ℕ) :
    Alike d d' n Same (identifyIpv4 d (d + n)) (identifyIpv4 d' (d' + n)) := by
  have hbare : (FlowKey.ofFamily .ipv4).Bare := ⟨rfl, rfl, rfl, rfl, rfl⟩
  refine .ite (not_congr (fits_add_congr d d' 0 20 n)) (fun _ => alike_pure d d' n ⟨rfl, hbare⟩)
    fun hfits => ?_
  have hlen : 0 + 20 ≤ n := (fits_add_iff d 0 20 n).mp (not_not.mp hfits)
  refine (alike_get d d' (i := 0) (by omega)).bind_eq ?_
  intro versionIhl
  refine .ite Iff.rfl (fun _ => alike_pure d d' n ⟨rfl, hbare⟩) ?_
  intro _
  refine .ite (not_congr (fits_add_congr d d' 0 _ n)) (fun _ => alike_pure d d' n ⟨rfl, hbare⟩)
    fun _ => ?_
  refine (alike_be16 d d' (i := 6) (by omega)).bind_eq ?_
  intro fragWord
  refine (alike_get d d' (i := 9) (by omega)).bind_eq ?_
  intro protocol
  refine (alike_be32 d d' (i := 12) (by omega)).bind_eq ?_
  intro src
  refine (alike_be32 d d' (i := 16) (by omega)).bind_eq ?_
  intro dst
  refine alike_identifyIpv4Payload d d' ?_ _
  exact ⟨rfl, rfl, rfl, rfl, rfl⟩

/-- Two walks have ended alike, at one distance from where they began. -/
def ChainEnd.Alike (d d' : ℕ) (a b : ChainEnd) : Prop :=
  ∃ o, a = { b with offset := d + o } ∧ b.offset = d' + o

theorem alike_walkChain (left : ℕ) (next : BitVec 8) (o : ℕ) (fragmented : Bool) :
    Alike d d' n (ChainEnd.Alike d d') (walkChain (d + n) left next (d + o) fragmented)
      (walkChain (d' + n) left next (d' + o) fragmented) := by
  induction left generalizing next o fragmented with
  | zero => exact alike_pure d d' n ⟨o, rfl, rfl⟩
  | succ left ih =>
    refine .ite Iff.rfl (fun _ => ?_) fun _ => .ite Iff.rfl (fun _ => ?_) fun _ => ?_
    · refine .ite (not_congr (fits_add_congr d d' o 8 n)) (fun _ => alike_pure d d' n ⟨o, rfl, rfl⟩)
        fun hfits => ?_
      rw [not_not, fits_add_iff] at hfits
      refine (alike_get d d' (i := o + 1) (by omega)).bind_eq ?_
      intro extLen
      refine (alike_get d d' (by omega)).bind_eq ?_
      intro following
      rw [Nat.add_assoc, Nat.add_assoc]
      exact ih following (o + (extLen.toNat + 1) * 8) fragmented
    · refine .ite (not_congr (fits_add_congr d d' o 8 n)) (fun _ => alike_pure d d' n ⟨o, rfl, rfl⟩)
        fun hfits => ?_
      rw [not_not, fits_add_iff] at hfits
      refine (alike_be16 d d' (i := o + 2) (by omega)).bind_eq ?_
      intro fragWord
      refine (alike_get d d' (by omega)).bind_eq ?_
      intro following
      exact ih following (o + 8) _
    · exact alike_pure d d' n ⟨o, rfl, rfl⟩

/-- Identities that agree, of which the first one's key is bare. -/
def FrameIdentity.AgreeBare (a b : FrameIdentity) : Prop := a.Agree b ∧ a.key.Bare

theorem FrameIdentity.Same.agreeBare {a b : FrameIdentity} (h : a.Same b) : a.AgreeBare b := by
  obtain ⟨rfl, hbare⟩ := h
  exact ⟨⟨rfl, rfl, fun _ => rfl⟩, hbare⟩

/-- Two frames that are reported by the link layer agree. -/
theorem agreeBare_ofL2 {l2 l2' : FlowKey} (h : l2.family = .l2) (h' : l2'.family = .l2) :
    (ofL2 l2).AgreeBare (ofL2 l2') := by
  refine ⟨⟨rfl, h.trans h'.symm, fun hne => absurd h hne⟩, ?_⟩
  show FlowKey.Bare l2
  rw [FlowKey.Bare, h]
  trivial

/-- A frame of IPv6 is the same frame wherever its payload begins, unless it is reported by the link
layer. -/
theorem alike_identifyIpv6 {l2 l2' : FlowKey} (h : l2.family = .l2) (h' : l2'.family = .l2) (n : ℕ) :
    Alike d d' n AgreeBare (identifyIpv6 l2 d (d + n)) (identifyIpv6 l2' d' (d' + n)) := by
  have hbare : (FlowKey.ofFamily .ipv6).Bare := ⟨rfl, rfl, rfl, rfl, rfl⟩
  refine .ite (not_congr (fits_add_congr d d' 0 40 n))
    (fun _ => alike_pure d d' n (Same.agreeBare ⟨rfl, hbare⟩)) fun hfits => ?_
  have hlen : 0 + 40 ≤ n := (fits_add_iff d 0 40 n).mp (not_not.mp hfits)
  refine (alike_getList d d' (i := 8) (by omega)).bind_eq ?_
  intro srcIp6
  refine (alike_getList d d' (i := 24) (by omega)).bind_eq ?_
  intro dstIp6
  refine (alike_get d d' (i := 6) (by omega)).bind_eq ?_
  intro next
  refine (alike_walkChain d d' maxIpv6ExtensionHeaders next 40 false).bind ?_
  rintro _ chain ⟨o, rfl, ho⟩
  refine .ite Iff.rfl (fun _ => alike_pure d d' n (agreeBare_ofL2 h h')) ?_
  intro _
  refine .ite Iff.rfl (fun _ => alike_pure d d' n (Same.agreeBare ⟨rfl, rfl, rfl, rfl, rfl, rfl⟩))
    fun _ => ?_
  rw [ho]
  refine (alike_identifyIpv6Payload d d' ?_ o).mono fun a b hab => hab.agreeBare
  exact ⟨rfl, rfl, rfl, rfl, rfl⟩

end Alike

/-! ### The whole frame -/

section Frame

open Reads FrameIdentity

/-- The ethertype of a frame, after a tag, and where its payload is. -/
def etherTypeAndPayload (length : ℕ) : Reads (BitVec 8) (BitVec 16 × ℕ) := do
  let ethType ← be16 12
  stripTag ethType length

theorem within_be16 {m p : ℕ} (h : p + 2 ≤ m) : Within m (be16 p) :=
  (within_get (by omega)).bind fun a => (within_get (by omega)).bind fun b => within_pure m _

theorem within_mac48 {m p : ℕ} (h : p + 6 ≤ m) : Within m (mac48 p) :=
  (within_getList h).bind fun _ => within_pure m _

theorem within_stripTag {length : ℕ} (ethType : BitVec 16) : Within length (stripTag ethType length) := by
  unfold stripTag
  dsimp only
  split
  · next hfits =>
    have hlen := hfits.2.2
    exact (within_be16 (by omega)).bind fun ethType => within_pure length _
  · exact within_pure length _

/-- What is made of two frames by their ethertype, wherever their payloads begin. -/
theorem alike_identifyPayload (d d' : ℕ) {l2 l2' : FlowKey} (h : l2.family = .l2)
    (h' : l2'.family = .l2) (ethType : BitVec 16) (n : ℕ) :
    Alike d d' n AgreeBare (identifyPayload l2 ethType d (d + n))
      (identifyPayload l2' ethType d' (d' + n)) := by
  refine .ite Iff.rfl (fun _ => ?_) fun _ => .ite Iff.rfl (fun _ => ?_) fun _ => ?_
  · exact (alike_identifyIpv4 d d' n).mono fun a b hab => hab.agreeBare
  · exact alike_identifyIpv6 d d' h h' n
  · exact alike_pure d d' n (agreeBare_ofL2 h h')

/-- After the end nothing fits, and nothing is read. -/
theorem identifyPayload_of_lt {l2 : FlowKey} (h : l2.family = .l2) (ethType : BitVec 16)
    {payload length : ℕ} (hlt : length < payload) :
    ∃ out : FrameIdentity, identifyPayload l2 ethType payload length = pure out ∧ out.key.Bare := by
  have hfits (need : ℕ) : ¬ Fits payload need length := fun hfits => absurd hfits.1 (by omega)
  unfold identifyPayload identifyIpv4 identifyIpv6
  rw [if_pos (hfits 20), if_pos (hfits 40)]
  split
  · exact ⟨_, rfl, rfl, rfl, rfl, rfl, rfl⟩
  · split
    · exact ⟨_, rfl, rfl, rfl, rfl, rfl, rfl⟩
    · exact ⟨_, rfl, (agreeBare_ofL2 h h).2⟩

theorem within_identifyPayload {l2 : FlowKey} (h : l2.family = .l2) (ethType : BitVec 16)
    (payload length : ℕ) : Within length (identifyPayload l2 ethType payload length) := by
  by_cases hle : payload ≤ length
  · have hwithin := (alike_identifyPayload payload payload h h ethType (length - payload)).within
    rwa [Nat.add_sub_cancel' hle] at hwithin
  · obtain ⟨out, hout, -⟩ := identifyPayload_of_lt h ethType (not_le.mp hle)
    rw [hout]
    exact within_pure length out

theorem bare_identifyPayload {l2 : FlowKey} (h : l2.family = .l2) (ethType : BitVec 16)
    (payload length : ℕ) (mem : ℕ → BitVec 8) :
    (run mem (identifyPayload l2 ethType payload length)).key.Bare := by
  by_cases hle : payload ≤ length
  · have halike := alike_identifyPayload payload payload h h ethType (length - payload)
    rw [Nat.add_sub_cancel' hle] at halike
    exact (halike.run fun i _ => rfl).2
  · obtain ⟨out, hout, hbare⟩ := identifyPayload_of_lt h ethType (not_le.mp hle)
    rw [hout]
    exact hbare

/-- **No byte at or after the length is read.** -/
theorem within_identifyFrame (frame : Bool) (length : ℕ) :
    Within length (identifyFrame frame length) := by
  unfold identifyFrame
  split
  · exact within_pure length _
  · refine (within_mac48 (by omega)).bind fun dstMac => (within_mac48 (by omega)).bind ?_
    intro srcMac
    refine (within_be16 (by omega)).bind ?_
    intro ethType
    exact (within_stripTag ethType).bind fun p => within_identifyPayload rfl _ _ _

/-- The key of the link layer, for an ethertype. -/
def l2Key (mem : ℕ → BitVec 8) (ethType : BitVec 16) : FlowKey :=
  { FlowKey.ofFamily .l2 with
    srcMac := run mem (mac48 6)
    dstMac := run mem (mac48 0)
    ethType := ethType }

/-- What a frame with an Ethernet header is told to be. -/
theorem run_identifyFrame {length : ℕ} (h : 14 ≤ length) (mem : ℕ → BitVec 8) {ethType : BitVec 16}
    {payload : ℕ} (htype : run mem (etherTypeAndPayload length) = (ethType, payload)) :
    run mem (identifyFrame true length)
      = run mem (identifyPayload (l2Key mem ethType) ethType payload length) := by
  rw [etherTypeAndPayload, run_bind] at htype
  unfold identifyFrame
  rw [if_neg (by simp; omega)]
  simp only [run_bind, htype]
  rfl

/-- **The keys of the network layer are bare.** -/
theorem bare_identifyFrame (frame : Bool) (length : ℕ) (mem : ℕ → BitVec 8) :
    (run mem (identifyFrame frame length)).key.Bare := by
  by_cases h : frame = false ∨ length < 14
  · unfold identifyFrame
    rw [if_pos h]
    trivial
  · obtain rfl : frame = true := by simpa using fun hframe => h (Or.inl hframe)
    have hlen : 14 ≤ length := by omega
    rw [run_identifyFrame hlen mem rfl]
    exact bare_identifyPayload rfl _ _ _ mem

end Frame

/-! ### Frames by their parts -/

/-- Two bytes, of which the higher comes first. -/
def bytes16 (x : BitVec 16) : List (BitVec 8) := [x.extractLsb' 8 8, x.extractLsb' 0 8]

/-- A number is read from its two bytes. -/
theorem be16_bytes16 (x : BitVec 16) :
    (x.extractLsb' 8 8).setWidth 16 <<< 8 ||| (x.extractLsb' 0 8).setWidth 16 = x := by
  ext i hi
  simp
  grind

theorem bytes16_append (high low : BitVec 8) : bytes16 (high ++ low) = [high, low] := by
  have hhigh : (high ++ low).extractLsb' 8 8 = high := by
    ext i hi
    simp
    grind
  have hlow : (high ++ low).extractLsb' 0 8 = low := by
    ext i hi
    simp
    grind
  rw [bytes16, hhigh, hlow]

theorem run_be16_bytes16 (pre post : List (BitVec 8)) (x : BitVec 16) (beyond : ℕ → BitVec 8) :
    Reads.run (Reads.ofList (pre ++ (bytes16 x ++ post)) beyond) (be16 pre.length) = x := by
  have hhigh : (pre ++ (bytes16 x ++ post))[pre.length]? = some (x.extractLsb' 8 8) := by
    rw [List.getElem?_append_right le_rfl, Nat.sub_self]
    rfl
  have hlow : (pre ++ (bytes16 x ++ post))[pre.length + 1]? = some (x.extractLsb' 0 8) := by
    rw [List.getElem?_append_right (Nat.le_add_right _ 1), Nat.add_sub_cancel_left]
    rfl
  simp only [be16, Reads.run_bind, Reads.run_get, Reads.run_pure,
    Reads.ofList_of_getElem? hhigh, Reads.ofList_of_getElem? hlow]
  exact be16_bytes16 x

/-- A frame by its parts.  What follows the addresses is a tag if it says so and is there, so an
untagged frame with the ethertype of a tag is one that ends before the tag does. -/
structure EthernetFrame where
  dst : Vector (BitVec 8) 6
  src : Vector (BitVec 8) 6
  tag : Option (BitVec 16)
  etherType : BitVec 16
  /-- The bytes from the network header on. -/
  rest : List (BitVec 8)
  untagged : tag = none → etherType = etherTypeVlan → rest.length < 4

namespace EthernetFrame

variable (f : EthernetFrame)

/-- The addresses and a tag. -/
def front : List (BitVec 8) :=
  f.dst.toList ++ f.src.toList ++ match f.tag with
    | none => []
    | some tci => bytes16 etherTypeVlan ++ bytes16 tci

/-- The text of a frame. -/
def bytes : List (BitVec 8) := f.front ++ (bytes16 f.etherType ++ f.rest)

/-- Where the network header begins. -/
def payload : ℕ := f.front.length + 2

theorem payload_eq : f.payload = if f.tag = none then 14 else 18 := by
  unfold payload front
  cases f.tag <;> simp [bytes16]

theorem length_bytes : f.bytes.length = f.payload + f.rest.length := by
  simp [bytes, payload, bytes16]
  omega

theorem getElem?_payload (i : ℕ) : f.bytes[f.payload + i]? = f.rest[i]? := by
  unfold bytes payload
  rw [List.getElem?_append_right (by omega), List.getElem?_append_right (by simp [bytes16]; omega)]
  congr 1
  simp [bytes16]
  omega

/-- The ethertype of a frame and its payload are found. -/
theorem run_etherTypeAndPayload (beyond : ℕ → BitVec 8) :
    Reads.run (Reads.ofList f.bytes beyond) (etherTypeAndPayload f.bytes.length)
      = (f.etherType, f.payload) := by
  have hlen := f.length_bytes
  have hpayload := f.payload_eq
  have hinner := run_be16_bytes16 f.front f.rest f.etherType beyond
  change Reads.run (Reads.ofList f.bytes beyond) _ = _ at hinner
  unfold etherTypeAndPayload
  rw [Reads.run_bind]
  match htag : f.tag with
  | none =>
    rw [htag, if_pos rfl] at hpayload
    have hfront : f.front.length = 12 := by
      unfold payload at hpayload
      omega
    rw [hfront] at hinner
    have hstrip : ¬ (f.etherType = etherTypeVlan ∧ Fits 14 4 f.bytes.length) := by
      rintro ⟨hvlan, hfits⟩
      have hshort := f.untagged htag hvlan
      have hroom := hfits.2
      omega
    rw [hinner, hpayload, stripTag, if_neg hstrip]
    rfl
  | some tci =>
    rw [htag, if_neg (by simp)] at hpayload
    have hfront : f.front.length = 16 := by
      unfold payload at hpayload
      omega
    rw [hfront] at hinner
    have houter : Reads.run (Reads.ofList f.bytes beyond) (be16 12) = etherTypeVlan := by
      have happend := run_be16_bytes16 (f.dst.toList ++ f.src.toList)
        (bytes16 tci ++ (bytes16 f.etherType ++ f.rest)) etherTypeVlan beyond
      simpa [bytes, front, htag] using happend
    have hstrip : etherTypeVlan = etherTypeVlan ∧ Fits 14 4 f.bytes.length := by
      refine ⟨rfl, ?_⟩
      unfold Fits
      omega
    rw [houter, hpayload, stripTag, if_pos hstrip, Reads.run_bind, hinner]
    rfl

/-- What a frame is told to be, with anything after it in memory. -/
def identity (beyond : ℕ → BitVec 8) : FrameIdentity :=
  Reads.run (Reads.ofList f.bytes beyond) (identifyFrame true f.bytes.length)

/-- Frames with one ethertype and one network header agree. -/
theorem agree_identity {f g : EthernetFrame} (htype : f.etherType = g.etherType)
    (hrest : f.rest = g.rest) (beyond beyond' : ℕ → BitVec 8) :
    (f.identity beyond).Agree (g.identity beyond') := by
  have hlen (f : EthernetFrame) : 14 ≤ f.bytes.length := by
    rw [f.length_bytes, f.payload_eq]
    split <;> omega
  rw [identity, identity, run_identifyFrame (hlen f) _ (f.run_etherTypeAndPayload beyond),
    run_identifyFrame (hlen g) _ (g.run_etherTypeAndPayload beyond'), f.length_bytes, g.length_bytes,
    ← htype, ← hrest]
  refine ((alike_identifyPayload f.payload g.payload rfl rfl f.etherType f.rest.length).run ?_).1
  intro i hi
  have hf := (f.getElem?_payload i).trans (List.getElem?_eq_getElem hi)
  have hg : g.bytes[g.payload + i]? = some f.rest[i] := by
    rw [g.getElem?_payload, ← hrest, List.getElem?_eq_getElem hi]
  rw [Reads.ofList_of_getElem? hf, Reads.ofList_of_getElem? hg]

/-- Every text with room for an Ethernet header is a frame. -/
theorem exists_bytes_eq {text : List (BitVec 8)} (h : 14 ≤ text.length) :
    ∃ f : EthernetFrame, f.bytes = text := by
  -- the addresses, and what follows them
  let dst : Vector (BitVec 8) 6 := ⟨(text.take 6).toArray, by simp; omega⟩
  let src : Vector (BitVec 8) 6 := ⟨((text.drop 6).take 6).toArray, by simp; omega⟩
  have haddresses : dst.toList ++ src.toList ++ text.drop 12 = text := by
    have hdrop : (text.drop 6).take 6 ++ text.drop 12 = text.drop 6 := by
      rw [← List.drop_drop (i := 6) (j := 6), List.take_append_drop]
    show text.take 6 ++ (text.drop 6).take 6 ++ text.drop 12 = text
    rw [List.append_assoc, hdrop, List.take_append_drop]
  have hlen : (text.drop 12).length = text.length - 12 := List.length_drop
  match hafter : text.drop 12 with
  | [] | [_] =>
    rw [hafter] at hlen
    simp at hlen
    omega
  | high :: low :: rest =>
    rw [hafter] at haddresses
    by_cases htagged : high ++ low = etherTypeVlan ∧ 4 ≤ rest.length
    · obtain ⟨hvlan, hlong⟩ := htagged
      match rest, hlong with
      | a :: b :: c :: d :: rest, _ =>
        refine ⟨⟨dst, src, some (a ++ b), c ++ d, rest, fun hnone => nomatch hnone⟩, ?_⟩
        rw [← haddresses]
        simp [bytes, front, bytes16_append, ← hvlan]
    · refine ⟨⟨dst, src, none, high ++ low, rest, fun _ hvlan => ?_⟩, ?_⟩
      · exact not_le.mp fun hlong => htagged ⟨hvlan, hlong⟩
      · rw [← haddresses]
        simp [bytes, front, bytes16_append]

end EthernetFrame

/-- **No byte is read past the length, the keys of the network layer are bare, and frames that differ
in their addresses and in one tag have the same identity.** -/
theorem identifyFrame_hopIndependent :
    (∀ (frame : Bool) (length : ℕ), Reads.Within length (identifyFrame frame length))
      ∧ (∀ (frame : Bool) (length : ℕ) (mem : ℕ → BitVec 8),
        (Reads.run mem (identifyFrame frame length)).key.Bare)
      ∧ ∀ (f g : EthernetFrame) (beyond beyond' : ℕ → BitVec 8),
        f.etherType = g.etherType → f.rest = g.rest →
          (f.identity beyond).Agree (g.identity beyond') :=
  ⟨within_identifyFrame, bare_identifyFrame, fun _ _ beyond beyond' htype hrest =>
    EthernetFrame.agree_identity htype hrest beyond beyond'⟩

/-- A packet of UDP on its way, with the addresses of a hop and with a tag or without. -/
def udpFrame (dst src : BitVec 8) (tag : Option (BitVec 16)) : EthernetFrame where
  dst := #v[0, 0, 0, 0, 0, dst]
  src := #v[0, 0, 0, 0, 0, src]
  tag := tag
  etherType := etherTypeIpv4
  rest := [0x45, 0, 0, 28, 0, 1, 0x40, 0, 64, 17, 0, 0, 10, 0, 0, 1, 10, 0, 0, 4,
    0x13, 0x88, 0x13, 0x89, 0, 8, 0, 0]
  untagged := fun _ h => absurd h (by decide)

theorem identifyFrame_hopIndependent_udpFrame :
    ((udpFrame 4 1 none).identity fun _ => 0).Agree ((udpFrame 4 4 (some 7)).identity fun _ => 255)
      ∧ ((udpFrame 4 1 none).identity fun _ => 0).key.family = .ipv4
      ∧ ((udpFrame 4 1 none).identity fun _ => 0).key.srcPort = 5000 :=
  ⟨identifyFrame_hopIndependent.2.2 _ _ _ _ rfl rfl, by decide +kernel, by decide +kernel⟩

end NDTwin.Telemetry
