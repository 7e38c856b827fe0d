import Mathlib.Data.Int.Notation
import Mathlib.Data.Nat.Notation

/-!
# Packed keys and rule fingerprints

The classifier packs the fields of a packet into thirty-two bytes, most significant first, so
that a mask is a bitwise and.  A rule is known across polls by its table and a hash of its mask,
its masked value, its priority and its effect.

## Main definitions

* `FlowKey`, `KeyBytes`, `packKey` — the fields and the packed key.
* `RuleEffect` — what a rule does with a packet.
* `fnv1a64`, `fingerprintRuleCore` — the hash.
* `Rule`, `RuleId` — a rule and its identity.

## Main results

* `packKey_inj`, `packKey_and` — packing loses nothing, and a mask is applied field by field.
* `fingerprintRuleCore_output_group` — the hash does not tell an output port from a group of the
  same number.
-/

namespace NDTwin.Classifier

/-- The fields of a packet, in host byte order. -/
structure FlowKey where
  inPort : BitVec 32 := 0
  ethType : BitVec 16 := 0
  ipProto : BitVec 8 := 0
  ipv4Src : BitVec 32 := 0
  ipv4Dst : BitVec 32 := 0
  tpSrc : BitVec 16 := 0
  tpDst : BitVec 16 := 0
  vlanTci : BitVec 16 := 0
  metadata : BitVec 64 := 0
  deriving DecidableEq, Repr

/-- Thirty-two bytes, the first of them the most significant. -/
abbrev KeyBytes := BitVec 256

/-- The layout of the packed key, with one byte of padding after `ipProto` and two after
`vlanTci`. -/
def layout (inPort : BitVec 32) (ethType : BitVec 16) (ipProto pad₁ : BitVec 8)
    (ipv4Src ipv4Dst : BitVec 32) (tpSrc tpDst vlanTci pad₂ : BitVec 16) (metadata : BitVec 64) :
    KeyBytes :=
  inPort ++ (ethType ++ (ipProto ++ (pad₁ ++ (ipv4Src ++ (ipv4Dst ++ (tpSrc ++ (tpDst ++
    (vlanTci ++ (pad₂ ++ metadata)))))))))

/-- `packKey(k)`. -/
def packKey (k : FlowKey) : KeyBytes :=
  layout k.inPort k.ethType k.ipProto 0 k.ipv4Src k.ipv4Dst k.tpSrc k.tpDst k.vlanTci 0 k.metadata

/-- Two sets of fields, field by field. -/
def FlowKey.and (k m : FlowKey) : FlowKey where
  inPort := k.inPort &&& m.inPort
  ethType := k.ethType &&& m.ethType
  ipProto := k.ipProto &&& m.ipProto
  ipv4Src := k.ipv4Src &&& m.ipv4Src
  ipv4Dst := k.ipv4Dst &&& m.ipv4Dst
  tpSrc := k.tpSrc &&& m.tpSrc
  tpDst := k.tpDst &&& m.tpDst
  vlanTci := k.vlanTci &&& m.vlanTci
  metadata := k.metadata &&& m.metadata

theorem append_inj {w v : ℕ} {x x' : BitVec w} {y y' : BitVec v} (h : x ++ y = x' ++ y') :
    x = x' ∧ y = y' := by
  constructor
  · rw [← BitVec.extractLsb'_append_eq_left (a := x) (b := y), h, BitVec.extractLsb'_append_eq_left]
  · rw [← BitVec.setWidth_append_eq_right (a := x) (b := y), h, BitVec.setWidth_append_eq_right]

theorem and_append_of {w v : ℕ} {x₁ x₂ x : BitVec w} {y₁ y₂ y : BitVec v} (hx : x₁ &&& x₂ = x)
    (hy : y₁ &&& y₂ = y) : (x₁ ++ y₁) &&& (x₂ ++ y₂) = x ++ y := by
  rw [BitVec.and_append, hx, hy]

/-- A packed key under a packed mask is the key masked field by field. -/
theorem packKey_and (k m : FlowKey) : packKey k &&& packKey m = packKey (k.and m) := by
  unfold packKey layout
  exact and_append_of rfl (and_append_of rfl (and_append_of rfl (and_append_of rfl
    (and_append_of rfl (and_append_of rfl (and_append_of rfl (and_append_of rfl
      (and_append_of rfl (and_append_of rfl rfl)))))))))

theorem packKey_inj {k m : FlowKey} (h : packKey k = packKey m) : k = m := by
  unfold packKey layout at h
  obtain ⟨hinPort, h⟩ := append_inj h
  obtain ⟨hethType, h⟩ := append_inj h
  obtain ⟨hipProto, h⟩ := append_inj h
  obtain ⟨-, h⟩ := append_inj h
  obtain ⟨hipv4Src, h⟩ := append_inj h
  obtain ⟨hipv4Dst, h⟩ := append_inj h
  obtain ⟨htpSrc, h⟩ := append_inj h
  obtain ⟨htpDst, h⟩ := append_inj h
  obtain ⟨hvlanTci, h⟩ := append_inj h
  obtain ⟨-, hmetadata⟩ := append_inj h
  cases k
  cases m
  simp_all

/-- What a rule does with a packet. -/
structure RuleEffect where
  gotoTable : Option (BitVec 8) := none
  outputPorts : List (BitVec 32) := []
  groupId : Option (BitVec 32) := none
  deriving DecidableEq, Repr

/-! ### The hash -/

/-- The bytes of a packed key in memory order. -/
def keyBytes (k : KeyBytes) : List (BitVec 8) :=
  (List.range 32).map fun i => k.extractLsb' (8 * (31 - i)) 8

/-- The bytes of a `uint32_t` in memory order, which is little-endian. -/
def wordBytes (v : BitVec 32) : List (BitVec 8) :=
  (List.range 4).map fun i => v.extractLsb' (8 * i) 8

/-- The offset both hashes start from. -/
def fnvOffset : BitVec 64 := 1469598103934665603

/-- `h ^= x; h *= 1099511628211`. -/
def mix (h x : BitVec 64) : BitVec 64 := (h ^^^ x) * 1099511628211

/-- `fnv1a64(data, n)`. -/
def fnv1a64 (data : List (BitVec 8)) : BitVec 64 :=
  data.foldl (fun h b => mix h (b.setWidth 64)) fnvOffset

/-- `fingerprintRuleCore(maskBytes, maskedValue, priority, effect)`. -/
def fingerprintRuleCore (maskBytes maskedValue : KeyBytes) (priority : ℤ) (effect : RuleEffect) :
    BitVec 64 :=
  let h := mix fnvOffset (fnv1a64 (keyBytes maskBytes))
  let h := mix h (fnv1a64 (keyBytes maskedValue))
  let h := mix h (fnv1a64 (wordBytes (BitVec.ofInt 32 priority)))
  let h := match effect.gotoTable with
    | some t => mix h (t.setWidth 64)
    | none => h
  let h := effect.outputPorts.foldl (fun h op => mix h (fnv1a64 (wordBytes op))) h
  match effect.groupId with
  | some g => mix h (fnv1a64 (wordBytes g))
  | none => h

/-- A last output port and a group of the same number go into the hash alike. -/
theorem fingerprintRuleCore_output_group (mask value : KeyBytes) (priority : ℤ)
    (goto : Option (BitVec 8)) (ports : List (BitVec 32)) (n : BitVec 32) :
    fingerprintRuleCore mask value priority ⟨goto, ports ++ [n], none⟩ =
      fingerprintRuleCore mask value priority ⟨goto, ports, some n⟩ := by
  unfold fingerprintRuleCore
  simp only [List.foldl_append, List.foldl_cons, List.foldl_nil]

/-! ### Rules -/

/-- A rule's identity across polls. -/
structure RuleId where
  tableId : BitVec 8
  coreHash : BitVec 64
  deriving DecidableEq, Repr

/-- A rule as it is parsed; what a poll changes of it later is kept beside it. -/
structure Rule where
  tableId : BitVec 8
  priority : ℤ
  mask : KeyBytes
  maskedValue : KeyBytes
  effect : RuleEffect
  deriving DecidableEq, Repr

/-- The identity a rule is parsed with. -/
def Rule.id (r : Rule) : RuleId :=
  ⟨r.tableId, fingerprintRuleCore r.mask r.maskedValue r.priority r.effect⟩

end NDTwin.Classifier
