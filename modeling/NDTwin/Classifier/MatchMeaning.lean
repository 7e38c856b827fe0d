import NDTwin.Classifier.AddressText
import NDTwin.Lib.Fallible

/-!
# What a built mask means

A match is built into a mask and a value over the packed key.  A packet agrees with them under the
mask exactly where its fields agree with the fields the match names: a field that goes by several
names is the one the parser takes, a number is cut down to the width of its field, an address
compares the bits of its mask alone, and what the match does not name, or names by a name the
parser does not know, constrains nothing.

## Main definitions

* `firstOf` — the value of a field that goes by several names.
* `FieldsParse`, `Readable` — every field of the match can be read, and every field that is taken.
* `Agrees` — a packet has what the match names, field by field.

## Main results

* `built_spec`, `exists_built` — the mask and value of a match, field by field, and where there are
  any.
* `packed_agrees_iff` — **the packed key agrees under the mask exactly where the fields agree.**
* `packed_two_ports` — two names of one port, and an address with bits below its mask.
-/

namespace NDTwin.Classifier

variable {F : Type}

/-! ### Fields by name -/

/-- The value of a field that goes by several names: that of the first the match has. -/
def firstOf (m : Json F) (names : List String) : Option (Json F) := names.findSome? (find m)

/-- The names of the numbers in a match. -/
def numberNames : List String :=
  ["in_port", "eth_type", "dl_type", "ip_proto", "nw_proto", "tcp_src", "tcp_dst", "udp_src",
    "udp_dst", "tp_src", "tp_dst", "vlan_vid", "metadata"]

/-- The names of the addresses in a match. -/
def addressNames : List String := ["ipv4_src", "nw_src", "ipv4_dst", "nw_dst"]

/-- Every field of a match that the parser reads can be read. -/
structure FieldsParse (m : Json F) : Prop where
  number : ∀ name ∈ numberNames, ∀ j, find m name = some j → ∃ v, parseU64 j = .ok v
  address : ∀ name ∈ addressNames, ∀ j, find m name = some j →
    ∃ p, parseIpv4WithMaskOrPrefix j = .ok (some p)

/-- A number that the match has under one of its names is the packet's, cut down to the field. -/
def AgreesNumber {w : ℕ} (m : Json F) (names : List String) (field : BitVec w) : Prop :=
  ∀ j ∈ firstOf m names, ∀ v, parseU64 j = .ok v → field = v.setWidth w

/-- An address that the match has under one of its names, with its mask in one of the three
notations, is the packet's on the bits of the mask. -/
def AgreesAddress (m : Json F) (names : List String) (field : BitVec 32) : Prop :=
  ∀ s, .str s ∈ firstOf m names → ∀ addr mask, AddressText s.toList addr mask →
    ∀ i, mask.getLsbD i = true → field.getLsbD i = addr.getLsbD i

/-- A packet has what a match names.  Of the names of a field the first in the list counts. -/
structure Agrees (m : Json F) (key : FlowKey) : Prop where
  inPort : AgreesNumber m ["in_port"] key.inPort
  ethType : AgreesNumber m ["eth_type", "dl_type"] key.ethType
  ipProto : AgreesNumber m ["ip_proto", "nw_proto"] key.ipProto
  ipv4Src : AgreesAddress m ["ipv4_src", "nw_src"] key.ipv4Src
  ipv4Dst : AgreesAddress m ["ipv4_dst", "nw_dst"] key.ipv4Dst
  tpSrc : AgreesNumber m ["tp_src", "udp_src", "tcp_src"] key.tpSrc
  tpDst : AgreesNumber m ["tp_dst", "udp_dst", "tcp_dst"] key.tpDst
  vlanTci : AgreesNumber m ["vlan_vid"] key.vlanTci
  metadata : AgreesNumber m ["metadata"] key.metadata

/-! ### The mask and value, field by field -/

/-- The number a field is read as. -/
def number (j : Option (Json F)) : Option (BitVec 64) := j.bind fun j => (parseU64 j).toOption

/-- The address and mask a field is read as. -/
def address (j : Option (Json F)) : Option (BitVec 32 × BitVec 32) :=
  j.bind fun j => ((parseIpv4WithMaskOrPrefix j).toOption).join

/-- The mask of a number: the whole field, if the match has it. -/
def numberMask (w : ℕ) (v : Option (BitVec 64)) : BitVec w :=
  if v.isSome then BitVec.allOnes w else 0

/-- A number in its field. -/
def numberValue (w : ℕ) (v : Option (BitVec 64)) : BitVec w := (v.map (·.setWidth w)).getD 0

/-- The mask of a match. -/
def maskOf (m : Json F) : FlowKey where
  inPort := numberMask 32 (number (firstOf m ["in_port"]))
  ethType := numberMask 16 (number (firstOf m ["eth_type", "dl_type"]))
  ipProto := numberMask 8 (number (firstOf m ["ip_proto", "nw_proto"]))
  ipv4Src := ((address (firstOf m ["ipv4_src", "nw_src"])).map Prod.snd).getD 0
  ipv4Dst := ((address (firstOf m ["ipv4_dst", "nw_dst"])).map Prod.snd).getD 0
  tpSrc := numberMask 16 (number (firstOf m ["tp_src", "udp_src", "tcp_src"]))
  tpDst := numberMask 16 (number (firstOf m ["tp_dst", "udp_dst", "tcp_dst"]))
  vlanTci := numberMask 16 (number (firstOf m ["vlan_vid"]))
  metadata := numberMask 64 (number (firstOf m ["metadata"]))

/-- The value of a match. -/
def valueOf (m : Json F) : FlowKey where
  inPort := numberValue 32 (number (firstOf m ["in_port"]))
  ethType := numberValue 16 (number (firstOf m ["eth_type", "dl_type"]))
  ipProto := numberValue 8 (number (firstOf m ["ip_proto", "nw_proto"]))
  ipv4Src := ((address (firstOf m ["ipv4_src", "nw_src"])).map Prod.fst).getD 0
  ipv4Dst := ((address (firstOf m ["ipv4_dst", "nw_dst"])).map Prod.fst).getD 0
  tpSrc := numberValue 16 (number (firstOf m ["tp_src", "udp_src", "tcp_src"]))
  tpDst := numberValue 16 (number (firstOf m ["tp_dst", "udp_dst", "tcp_dst"]))
  vlanTci := numberValue 16 (number (firstOf m ["vlan_vid"]))
  metadata := numberValue 64 (number (firstOf m ["metadata"]))

@[simp] theorem firstOf_nil (m : Json F) : firstOf m [] = none := rfl

@[simp] theorem firstOf_cons (m : Json F) (name : String) (names : List String) :
    firstOf m (name :: names) = (find m name).or (firstOf m names) := by
  unfold firstOf
  rw [List.findSome?_cons]
  cases find m name <;> rfl

/-- What is put for a field that may be there. -/
def putIf {α : Type} (v : Option α) (put : α → Built → Built) (b : Built) : Built :=
  match v with
  | none => b
  | some v => put v b

/-- A numeric field that does not throw is put, if it is there at all. -/
theorem setField_eq_ok {j : Option (Json F)} {put : BitVec 64 → Built → Built} {b b' : Built}
    (h : setField j put b = .ok b') :
    b' = putIf (number j) put b ∧ ∀ x, j = some x → ∃ v, parseU64 x = .ok v := by
  cases j with
  | none =>
    cases h
    exact ⟨rfl, fun x hx => by cases hx⟩
  | some j =>
    cases hj : parseU64 j with
    | error e =>
      simp only [setField, hj] at h
      cases h
    | ok v =>
      have hnumber : number (some j) = some v := by simp [number, hj, Except.toOption]
      simp only [setField, hj] at h
      cases h
      rw [hnumber]
      refine ⟨rfl, ?_⟩
      intro x hx
      rw [← Option.some_inj.mp hx]
      exact ⟨v, hj⟩

/-- An address that does not throw is put, if it is there and can be read. -/
theorem setIpv4_eq_ok {j : Option (Json F)} {put : BitVec 32 × BitVec 32 → Built → Built}
    {b b' : Built} (h : setIpv4 j put b = .ok b') :
    b' = putIf (address j) put b ∧ ∀ x, j = some x → ∃ p, parseIpv4WithMaskOrPrefix x = .ok p := by
  cases j with
  | none =>
    cases h
    exact ⟨rfl, fun x hx => by cases hx⟩
  | some j =>
    cases hj : parseIpv4WithMaskOrPrefix j with
    | error e =>
      simp only [setIpv4, hj] at h
      cases h
    | ok p =>
      have haddress : address (some j) = p := by simp [address, hj, Except.toOption]
      refine ⟨?_, fun x hx => ⟨p, by rw [← Option.some_inj.mp hx]; exact hj⟩⟩
      rw [haddress]
      cases p with
      | none =>
        simp only [setIpv4, hj] at h
        cases h
        rfl
      | some p =>
        simp only [setIpv4, hj] at h
        cases h
        rfl

/-- A field that can be read, if it is there, leaves the other name of it only where it is not. -/
theorem number_or {j j' : Option (Json F)} (h : ∀ x, j = some x → ∃ v, parseU64 x = .ok v) :
    number (j.or j') = (number j).or (number j') := by
  cases j with
  | none => rfl
  | some j =>
    obtain ⟨v, hv⟩ := h j rfl
    simp [number, hv, Except.toOption]

theorem putIf_inPort (v : Option (BitVec 64)) (b : Built) :
    putIf v putInPort b =
      ⟨{ b.mask with inPort := if v.isSome then BitVec.allOnes 32 else b.mask.inPort },
        { b.value with inPort := (v.map (·.setWidth 32)).getD b.value.inPort }⟩ := by
  cases v <;> rfl

theorem putIf_ethType (v : Option (BitVec 64)) (b : Built) :
    putIf v putEthType b =
      ⟨{ b.mask with ethType := if v.isSome then BitVec.allOnes 16 else b.mask.ethType },
        { b.value with ethType := (v.map (·.setWidth 16)).getD b.value.ethType }⟩ := by
  cases v <;> rfl

theorem putIf_ipProto (v : Option (BitVec 64)) (b : Built) :
    putIf v putIpProto b =
      ⟨{ b.mask with ipProto := if v.isSome then BitVec.allOnes 8 else b.mask.ipProto },
        { b.value with ipProto := (v.map (·.setWidth 8)).getD b.value.ipProto }⟩ := by
  cases v <;> rfl

theorem putIf_ipv4Src (v : Option (BitVec 32 × BitVec 32)) (b : Built) :
    putIf v putIpv4Src b =
      ⟨{ b.mask with ipv4Src := b.mask.ipv4Src ||| (v.map Prod.snd).getD 0 },
        { b.value with ipv4Src := (v.map Prod.fst).getD b.value.ipv4Src }⟩ := by
  cases v with
  | none => simp [putIf]
  | some p => rfl

theorem putIf_ipv4Dst (v : Option (BitVec 32 × BitVec 32)) (b : Built) :
    putIf v putIpv4Dst b =
      ⟨{ b.mask with ipv4Dst := b.mask.ipv4Dst ||| (v.map Prod.snd).getD 0 },
        { b.value with ipv4Dst := (v.map Prod.fst).getD b.value.ipv4Dst }⟩ := by
  cases v with
  | none => simp [putIf]
  | some p => rfl

theorem putIf_tpSrc (v : Option (BitVec 64)) (b : Built) :
    putIf v putTpSrc b =
      ⟨{ b.mask with tpSrc := if v.isSome then BitVec.allOnes 16 else b.mask.tpSrc },
        { b.value with tpSrc := (v.map (·.setWidth 16)).getD b.value.tpSrc }⟩ := by
  cases v <;> rfl

theorem putIf_tpDst (v : Option (BitVec 64)) (b : Built) :
    putIf v putTpDst b =
      ⟨{ b.mask with tpDst := if v.isSome then BitVec.allOnes 16 else b.mask.tpDst },
        { b.value with tpDst := (v.map (·.setWidth 16)).getD b.value.tpDst }⟩ := by
  cases v <;> rfl

theorem putIf_vlanTci (v : Option (BitVec 64)) (b : Built) :
    putIf v putVlanTci b =
      ⟨{ b.mask with vlanTci := if v.isSome then BitVec.allOnes 16 else b.mask.vlanTci },
        { b.value with vlanTci := (v.map (·.setWidth 16)).getD b.value.vlanTci }⟩ := by
  cases v <;> rfl

theorem putIf_metadata (v : Option (BitVec 64)) (b : Built) :
    putIf v putMetadata b =
      ⟨{ b.mask with metadata := if v.isSome then BitVec.allOnes 64 else b.mask.metadata },
        { b.value with metadata := (v.map (·.setWidth 64)).getD b.value.metadata }⟩ := by
  cases v with
  | none => rfl
  | some v => simp [putIf, putMetadata]

/-- The mask of a field that is put under three names. -/
theorem numberMask_three {w : ℕ} (v₁ v₂ v₃ : Option (BitVec 64)) :
    (if v₃.isSome then BitVec.allOnes w
      else if v₂.isSome then BitVec.allOnes w else if v₁.isSome then BitVec.allOnes w else 0) =
      numberMask w (v₃.or (v₂.or v₁)) := by
  cases v₃ <;> cases v₂ <;> cases v₁ <;> rfl

/-- The value of a field that is put under three names: the last of them that is there. -/
theorem numberValue_three {w : ℕ} (v₁ v₂ v₃ : Option (BitVec 64)) :
    (v₃.map (·.setWidth w)).getD
        ((v₂.map (·.setWidth w)).getD ((v₁.map (·.setWidth w)).getD 0)) =
      numberValue w (v₃.or (v₂.or v₁)) := by
  cases v₃ <;> cases v₂ <;> cases v₁ <;> rfl

/-- The names of the numbers that are read whatever else is there. -/
def soleNames : List String :=
  ["in_port", "tcp_src", "tcp_dst", "udp_src", "udp_dst", "tp_src", "tp_dst", "vlan_vid", "metadata"]

/-- The fields that are read, after the precedence of their names, can be read. -/
structure Readable (m : Json F) : Prop where
  number : ∀ name ∈ soleNames, ∀ j, find m name = some j → ∃ v, parseU64 j = .ok v
  ethType : ∀ j, (find m "eth_type").or (find m "dl_type") = some j → ∃ v, parseU64 j = .ok v
  ipProto : ∀ j, (find m "ip_proto").or (find m "nw_proto") = some j → ∃ v, parseU64 j = .ok v
  ipv4Src : ∀ j, (find m "ipv4_src").or (find m "nw_src") = some j →
    ∃ p, parseIpv4WithMaskOrPrefix j = .ok p
  ipv4Dst : ∀ j, (find m "ipv4_dst").or (find m "nw_dst") = some j →
    ∃ p, parseIpv4WithMaskOrPrefix j = .ok p

/-- **The mask and value of a match, field by field**, where building them does not throw. -/
theorem built_spec {m : Json F} {b : Built} (h : buildMaskAndValueFromMatch m = .ok b) :
    b = ⟨maskOf m, valueOf m⟩ ∧ Readable m := by
  unfold buildMaskAndValueFromMatch at h
  obtain ⟨b₁, h₁, h⟩ := Fallible.exists_of_bind_ok h
  obtain ⟨b₂, h₂, h⟩ := Fallible.exists_of_bind_ok h
  obtain ⟨b₃, h₃, h⟩ := Fallible.exists_of_bind_ok h
  obtain ⟨b₄, h₄, h⟩ := Fallible.exists_of_bind_ok h
  obtain ⟨b₅, h₅, h⟩ := Fallible.exists_of_bind_ok h
  obtain ⟨b₆, h₆, h⟩ := Fallible.exists_of_bind_ok h
  obtain ⟨b₇, h₇, h⟩ := Fallible.exists_of_bind_ok h
  obtain ⟨b₈, h₈, h⟩ := Fallible.exists_of_bind_ok h
  obtain ⟨b₉, h₉, h⟩ := Fallible.exists_of_bind_ok h
  obtain ⟨b₁₀, h₁₀, h⟩ := Fallible.exists_of_bind_ok h
  obtain ⟨b₁₁, h₁₁, h⟩ := Fallible.exists_of_bind_ok h
  obtain ⟨b₁₂, h₁₂, h⟩ := Fallible.exists_of_bind_ok h
  obtain ⟨rfl, hinPort⟩ := setField_eq_ok h₁
  obtain ⟨rfl, hethType⟩ := setField_eq_ok h₂
  obtain ⟨rfl, hipProto⟩ := setField_eq_ok h₃
  obtain ⟨rfl, hipv4Src⟩ := setIpv4_eq_ok h₄
  obtain ⟨rfl, hipv4Dst⟩ := setIpv4_eq_ok h₅
  obtain ⟨rfl, htcpSrc⟩ := setField_eq_ok h₆
  obtain ⟨rfl, htcpDst⟩ := setField_eq_ok h₇
  obtain ⟨rfl, hudpSrc⟩ := setField_eq_ok h₈
  obtain ⟨rfl, hudpDst⟩ := setField_eq_ok h₉
  obtain ⟨rfl, htpSrc⟩ := setField_eq_ok h₁₀
  obtain ⟨rfl, htpDst⟩ := setField_eq_ok h₁₁
  obtain ⟨rfl, hvlanVid⟩ := setField_eq_ok h₁₂
  obtain ⟨rfl, hmetadata⟩ := setField_eq_ok h
  clear h h₁ h₂ h₃ h₄ h₅ h₆ h₇ h₈ h₉ h₁₀ h₁₁ h₁₂
  constructor
  · -- the mask of an address is put over a mask that is still empty
    have hzero : ∀ x : BitVec 32, (0 : BitVec 32) ||| x = x := fun _ => BitVec.zero_or
    simp only [putIf_inPort, putIf_ethType, putIf_ipProto, putIf_ipv4Src, putIf_ipv4Dst,
      putIf_tpSrc, putIf_tpDst, putIf_vlanTci, putIf_metadata, numberMask_three,
      numberValue_three, maskOf, valueOf, firstOf_cons, firstOf_nil, Option.or_none,
      number_or htpSrc, number_or hudpSrc, number_or htpDst, number_or hudpDst, hzero]
    rfl
  · refine ⟨?_, hethType, hipProto, hipv4Src, hipv4Dst⟩
    intro name hname
    simp only [soleNames, List.mem_cons, List.not_mem_nil, or_false] at hname
    rcases hname with rfl | rfl | rfl | rfl | rfl | rfl | rfl | rfl | rfl <;> assumption

/-! ### Agreeing under the mask -/

/-- A number agrees under its mask where it is the packet's, or is not named at all. -/
theorem and_numberMask_iff {w : ℕ} (k : BitVec w) (v : Option (BitVec 64)) :
    k &&& numberMask w v = numberValue w v &&& numberMask w v ↔ ∀ x ∈ v, k = x.setWidth w := by
  cases v with
  | none => simp [numberMask]
  | some x => simp [numberMask, numberValue]

theorem and_mask_iff (k addr mask : BitVec 32) :
    k &&& mask = addr &&& mask ↔ ∀ i, mask.getLsbD i = true → k.getLsbD i = addr.getLsbD i := by
  constructor
  · intro h i hi
    have hbit := congrArg (fun x => x.getLsbD i) h
    simpa [hi] using hbit
  · intro h
    refine BitVec.eq_of_getLsbD_eq ?_
    intro i _
    rw [BitVec.getLsbD_and, BitVec.getLsbD_and]
    cases hi : mask.getLsbD i with
    | false => simp
    | true => rw [h i hi]

/-- An address agrees under its mask where it is the packet's on the bits of the mask. -/
theorem and_addressMask_iff (k : BitVec 32) (p : Option (BitVec 32 × BitVec 32)) :
    k &&& (p.map Prod.snd).getD 0 = (p.map Prod.fst).getD 0 &&& (p.map Prod.snd).getD 0 ↔
      ∀ x ∈ p, ∀ i, x.2.getLsbD i = true → k.getLsbD i = x.1.getLsbD i := by
  cases p with
  | none => simp
  | some x => simpa using and_mask_iff k x.1 x.2

theorem agreesNumber_iff {w : ℕ} (m : Json F) (names : List String) (field : BitVec w) :
    AgreesNumber m names field ↔ ∀ x ∈ number (firstOf m names), field = x.setWidth w := by
  unfold AgreesNumber number
  cases firstOf m names with
  | none => simp
  | some j => cases hj : parseU64 j <;> simp [hj, Except.toOption]

/-- The addresses that a packet is compared with are those that the parser reads. -/
theorem agreesAddress_iff_read (m : Json F) (names : List String) (field : BitVec 32) :
    AgreesAddress m names field ↔ ∀ j ∈ firstOf m names, ∀ addr mask,
      parseIpv4WithMaskOrPrefix j = .ok (some (addr, mask)) →
        ∀ i, mask.getLsbD i = true → field.getLsbD i = addr.getLsbD i := by
  constructor
  · intro h j hj addr mask hread
    obtain ⟨s, rfl, htext⟩ := parseIpv4WithMaskOrPrefix_eq_ok_iff.mp hread
    exact h s hj addr mask htext
  · intro h s hs addr mask htext
    exact h (.str s) hs addr mask (parseIpv4WithMaskOrPrefix_eq_ok_iff.mpr ⟨s, rfl, htext⟩)

theorem agreesAddress_iff (m : Json F) (names : List String) (field : BitVec 32) :
    AgreesAddress m names field ↔
      ∀ x ∈ address (firstOf m names), ∀ i, x.2.getLsbD i = true → field.getLsbD i = x.1.getLsbD i := by
  rw [agreesAddress_iff_read]
  unfold address
  cases firstOf m names with
  | none => simp
  | some j =>
    cases hj : parseIpv4WithMaskOrPrefix j with
    | error e => simp [hj, Except.toOption]
    | ok p =>
      rcases p with _ | ⟨addr, mask⟩
      · simp [hj, Except.toOption]
      · simp [hj, Except.toOption, and_imp]

/-- A packet that agrees with what a match is built into agrees with the match. -/
theorem and_built_iff (m : Json F) (key : FlowKey) :
    packKey key &&& packKey (maskOf m) = packKey (valueOf m) &&& packKey (maskOf m) ↔
      Agrees m key := by
  have hfields : packKey key &&& packKey (maskOf m) = packKey (valueOf m) &&& packKey (maskOf m) ↔
      key.and (maskOf m) = (valueOf m).and (maskOf m) := by
    rw [packKey_and, packKey_and]
    exact ⟨packKey_inj, congrArg packKey⟩
  rw [hfields]
  simp only [FlowKey.and, maskOf, valueOf, FlowKey.mk.injEq, and_numberMask_iff,
    and_addressMask_iff, ← agreesNumber_iff, ← agreesAddress_iff]
  constructor
  · rintro ⟨h₁, h₂, h₃, h₄, h₅, h₆, h₇, h₈, h₉⟩
    exact ⟨h₁, h₂, h₃, h₄, h₅, h₆, h₇, h₈, h₉⟩
  · rintro ⟨h₁, h₂, h₃, h₄, h₅, h₆, h₇, h₈, h₉⟩
    exact ⟨h₁, h₂, h₃, h₄, h₅, h₆, h₇, h₈, h₉⟩

/-! ### A match that can be read -/

theorem exists_setField {j : Option (Json F)} (h : ∀ x, j = some x → ∃ v, parseU64 x = .ok v)
    (put : BitVec 64 → Built → Built) (b : Built) : ∃ b', setField j put b = .ok b' := by
  cases j with
  | none => exact ⟨b, rfl⟩
  | some x =>
    obtain ⟨v, hv⟩ := h x rfl
    exact ⟨put v b, by simp only [setField, hv]; rfl⟩

theorem exists_setIpv4 {j : Option (Json F)}
    (h : ∀ x, j = some x → ∃ p, parseIpv4WithMaskOrPrefix x = .ok p)
    (put : BitVec 32 × BitVec 32 → Built → Built) (b : Built) : ∃ b', setIpv4 j put b = .ok b' := by
  cases j with
  | none => exact ⟨b, rfl⟩
  | some x =>
    obtain ⟨p, hp⟩ := h x rfl
    cases p with
    | none => exact ⟨b, by simp only [setIpv4, hp]; rfl⟩
    | some p => exact ⟨put p b, by simp only [setIpv4, hp]; rfl⟩

/-- What holds of the fields of two names holds of the one that is taken. -/
theorem forall_or {P : Json F → Prop} {j j' : Option (Json F)} (h : ∀ x, j = some x → P x)
    (h' : ∀ x, j' = some x → P x) : ∀ x, j.or j' = some x → P x := by
  intro x hx
  rcases Option.or_eq_some_iff.mp hx with hx | ⟨-, hx⟩
  · exact h x hx
  · exact h' x hx

theorem FieldsParse.readable {m : Json F} (h : FieldsParse m) : Readable m where
  number name hname := h.number name (by
    simp only [soleNames, numberNames, List.mem_cons, List.not_mem_nil, or_false] at hname ⊢
    rcases hname with rfl | rfl | rfl | rfl | rfl | rfl | rfl | rfl | rfl <;> simp)
  ethType := forall_or (h.number "eth_type" (by decide)) (h.number "dl_type" (by decide))
  ipProto := forall_or (h.number "ip_proto" (by decide)) (h.number "nw_proto" (by decide))
  ipv4Src := forall_or
    (fun j hj => (h.address "ipv4_src" (by decide) j hj).imp' some fun _ hp => hp)
    (fun j hj => (h.address "nw_src" (by decide) j hj).imp' some fun _ hp => hp)
  ipv4Dst := forall_or
    (fun j hj => (h.address "ipv4_dst" (by decide) j hj).imp' some fun _ hp => hp)
    (fun j hj => (h.address "nw_dst" (by decide) j hj).imp' some fun _ hp => hp)

/-- A match whose fields can be read is built. -/
theorem exists_built {m : Json F} (h : Readable m) : ∃ b, buildMaskAndValueFromMatch m = .ok b := by
  have hnumber : ∀ name ∈ soleNames, ∀ put b, ∃ b', setField (find m name) put b = .ok b' :=
    fun name hname put b => exists_setField (h.number name hname) put b
  obtain ⟨b₁, h₁⟩ := hnumber "in_port" (by decide) putInPort {}
  obtain ⟨b₂, h₂⟩ := exists_setField h.ethType putEthType b₁
  obtain ⟨b₃, h₃⟩ := exists_setField h.ipProto putIpProto b₂
  obtain ⟨b₄, h₄⟩ := exists_setIpv4 h.ipv4Src putIpv4Src b₃
  obtain ⟨b₅, h₅⟩ := exists_setIpv4 h.ipv4Dst putIpv4Dst b₄
  obtain ⟨b₆, h₆⟩ := hnumber "tcp_src" (by decide) putTpSrc b₅
  obtain ⟨b₇, h₇⟩ := hnumber "tcp_dst" (by decide) putTpDst b₆
  obtain ⟨b₈, h₈⟩ := hnumber "udp_src" (by decide) putTpSrc b₇
  obtain ⟨b₉, h₉⟩ := hnumber "udp_dst" (by decide) putTpDst b₈
  obtain ⟨b₁₀, h₁₀⟩ := hnumber "tp_src" (by decide) putTpSrc b₉
  obtain ⟨b₁₁, h₁₁⟩ := hnumber "tp_dst" (by decide) putTpDst b₁₀
  obtain ⟨b₁₂, h₁₂⟩ := hnumber "vlan_vid" (by decide) putVlanTci b₁₁
  obtain ⟨b, hb⟩ := hnumber "metadata" (by decide) putMetadata b₁₂
  refine ⟨b, ?_⟩
  unfold buildMaskAndValueFromMatch
  rw [Fallible.bind_of_ok h₁, Fallible.bind_of_ok h₂, Fallible.bind_of_ok h₃,
    Fallible.bind_of_ok h₄, Fallible.bind_of_ok h₅, Fallible.bind_of_ok h₆, Fallible.bind_of_ok h₇,
    Fallible.bind_of_ok h₈, Fallible.bind_of_ok h₉, Fallible.bind_of_ok h₁₀,
    Fallible.bind_of_ok h₁₁, Fallible.bind_of_ok h₁₂]
  exact hb

/-- **The packed key agrees under the mask exactly where the fields agree**, for every match whose
fields can be read and every packet. -/
theorem packed_agrees_iff (m : Json F) (h : FieldsParse m) :
    ∃ b, buildMaskAndValueFromMatch m = .ok b ∧
      ∀ key, packKey key &&& packKey b.mask = packKey b.value &&& packKey b.mask ↔ Agrees m key := by
  obtain ⟨b, hb⟩ := exists_built h.readable
  refine ⟨b, hb, ?_⟩
  intro key
  rw [(built_spec hb).1]
  exact and_built_iff m key

/-- A match on a prefix and a port. -/
def prefixAndPort : Json Empty :=
  .obj [("dl_type", .int 2048), ("nw_dst", .str "10.0.0.0/255.255.255.0"), ("tp_dst", .str "0x50")]

theorem fieldsParse_prefixAndPort : FieldsParse prefixAndPort := by
  have hnumber : ∀ name ∈ numberNames,
      (find prefixAndPort name).all (fun j => (parseU64 j).toOption.isSome) = true := by
    decide +kernel
  have haddress : ∀ name ∈ addressNames, (find prefixAndPort name).all
      (fun j => ((parseIpv4WithMaskOrPrefix j).toOption.join).isSome) = true := by
    decide +kernel
  constructor
  · intro name hname j hj
    have hread := hnumber name hname
    rw [hj, Option.all_some] at hread
    cases hv : parseU64 j with
    | error e => simp [hv, Except.toOption] at hread
    | ok v => exact ⟨v, rfl⟩
  · intro name hname j hj
    have hread := haddress name hname
    rw [hj, Option.all_some] at hread
    cases hp : parseIpv4WithMaskOrPrefix j with
    | error e => simp [hp, Except.toOption] at hread
    | ok p =>
      cases p with
      | none => simp [hp, Except.toOption] at hread
      | some p => exact ⟨p, rfl⟩

theorem packed_agrees_iff_prefixAndPort :
    ∃ b, buildMaskAndValueFromMatch prefixAndPort = .ok b ∧
      ∀ key, packKey key &&& packKey b.mask = packKey b.value &&& packKey b.mask ↔
        Agrees prefixAndPort key :=
  packed_agrees_iff prefixAndPort fieldsParse_prefixAndPort

/-- Two names of the source port with different numbers: a packet of the second agrees, although
the first is named too.  And an address with a bit below its mask: the value is put as it stands, so
a packet that agrees on every bit of the mask is not equal to it. -/
theorem packed_two_ports :
    (∃ b, buildMaskAndValueFromMatch
          (.obj [("tcp_src", .int 80), ("udp_src", .int 53)] : Json Empty) = .ok b ∧
        packKey { tpSrc := 53 } &&& packKey b.mask = packKey b.value ∧
        parseU64 (.int 80 : Json Empty) = .ok 80 ∧ (53 : BitVec 16) ≠ (80 : BitVec 64).setWidth 16) ∧
      ∃ b, buildMaskAndValueFromMatch (.obj [("nw_dst", .str "10.0.0.7/24")] : Json Empty) = .ok b ∧
        parseIpv4WithMaskOrPrefix (.str "10.0.0.7/24" : Json Empty) =
          .ok (some (0x0a000007, 0xffffff00)) ∧
        (0x0a000009 : BitVec 32) &&& 0xffffff00 = 0x0a000007 &&& 0xffffff00 ∧
        packKey { ipv4Dst := 0x0a000009 } &&& packKey b.mask ≠ packKey b.value := by
  refine ⟨⟨⟨{ tpSrc := BitVec.allOnes 16 }, { tpSrc := 53 }⟩, by decide +kernel, by decide +kernel,
    by decide +kernel, by decide⟩, ⟨{ ipv4Dst := 0xffffff00 }, { ipv4Dst := 0x0a000007 }⟩, ?_⟩
  exact ⟨by decide +kernel, by decide +kernel, by decide, by decide +kernel⟩

end NDTwin.Classifier
