import NDTwin.Classifier.Widened
import NDTwin.FlowStats.Routes
import NDTwin.Lib.Dict

/-!
# Rows and the entries they stand for

A row is listed with the fields of its entry under the names the classifier evaluates.  Where each
field with a condition has such a name, no two of them the same one, the row selects the packets
the entry selects: an exact value, a prefix, or a mask that is one of the two.  What cannot be said
so is left out and counted; only NDTwin's own pipeline leaves out entries without a usable match
uncounted.

## Main definitions

* `Spec.Matches`, `EntrySelects` — the packets a field and an entry select.
* `Plain` — the entries whose fields can be told apart by the names they are shown under.
* `rowOf`, `noUsableMatch` — the row an entry is listed with, and the entries that have none for
  want of a field.

## Main results

* `renderFlowStatsCounted_eq` — the rows that are listed and the entries that are counted.
* `shows_iff` — a field that is shown is evaluated as the switch evaluates it.
* `rows_faithful` — **a listed row selects the packets of its entry, and what is not listed is
  counted**, but for NDTwin's own entries without a usable match.
* `macEntry_not_counted` — an entry on the destination MAC, on NDTwin's own pipeline.
-/

namespace NDTwin.FlowStats

open Classifier

variable {F : Type}

/-! ### What an entry selects -/

/-- Whether a field of a given width has a value that is selected. -/
def Spec.Matches (width x : ℕ) : Spec → Prop
  | .exact value => x = Ipv4.ofBytes value
  | .lpm value prefixLen => x / 2 ^ (width - prefixLen) = Ipv4.ofBytes value / 2 ^ (width - prefixLen)
  | .ternary value mask => x &&& Ipv4.ofBytes mask = Ipv4.ofBytes value &&& Ipv4.ofBytes mask
  | .range low high => Ipv4.ofBytes low ≤ x ∧ x ≤ Ipv4.ofBytes high
  | .optional value => x = Ipv4.ofBytes value

/-- The field of a packet behind a match key. -/
def RyuName.get (name : RyuName) (key : FlowKey) : ℕ :=
  match name with
  | .nwDst => key.ipv4Dst.toNat
  | .nwSrc => key.ipv4Src.toNat
  | .nwProto => key.ipProto.toNat
  | .tpSrc => key.tpSrc.toNat
  | .tpDst => key.tpDst.toNat
  | .inPort => key.inPort.toNat

/-- The fields of an entry with a condition on them, that have a name in the reply. -/
def constrained (field : String → Option RyuName) (fields : List (Option String × Spec)) :
    List (RyuName × Spec) :=
  fields.filterMap fun p => if isDontCare p.2 then none else (p.1.bind field).map fun name => (name, p.2)

/-- A packet is selected by every field of an entry that has a name in the reply. -/
def EntrySelects (field : String → Option RyuName) (fields : List (Option String × Spec)) (key : FlowKey) :
    Prop :=
  ∀ c ∈ constrained field fields, c.2.Matches c.1.width (c.1.get key)

/-- Bytes that hold a number of a given width. -/
structure Fits (width : ℕ) (value : List ℕ) : Prop where
  length : value.length ≤ (width + 7) / 8
  byte : ∀ b ∈ value, b < 256
  number : Ipv4.ofBytes value < 2 ^ width

/-- The values of a field fit it, and it is matched by prefix only where it is an address. -/
def Spec.Plain (name : RyuName) : Spec → Prop
  | .exact value => Fits name.width value
  | .lpm value prefixLen => Fits name.width value ∧ name.isAddress = true ∧ prefixLen ≤ 32
  | .ternary value mask => Fits name.width value ∧ Fits name.width mask
  | .range _ _ => True
  | .optional value => Fits name.width value

/-- Every field with a condition has a name in the reply, or is the destination MAC; no two have
the same name; and their values fit. -/
structure Plain (field : String → Option RyuName) (fields : List (Option String × Spec)) : Prop where
  named : ∀ p ∈ fields, isDontCare p.2 = false →
    (p.1.bind field).isSome = true ∨ p.1.elim false unrenderableField = true
  distinct : ((constrained field fields).map Prod.fst).Nodup
  fits : ∀ c ∈ constrained field fields, c.2.Plain c.1

/-! ### Prefixes -/

/-- The bits of the mask of a prefix length. -/
theorem getLsbD_prefixMask {len : ℕ} (h : len ≤ 32) (i : ℕ) :
    (prefixMask len).getLsbD i = (decide (32 - len ≤ i) && decide (i < 32)) := by
  have hbits : ∀ len < 33, ∀ i < 32, (prefixMask len).getLsbD i = decide (32 - len ≤ i) := by
    decide +kernel
  by_cases hi : i < 32
  · rw [hbits len (by omega) i hi, decide_eq_true hi, Bool.and_true]
  · rw [BitVec.getLsbD_of_ge _ _ (by omega), decide_eq_false hi, Bool.and_false]

/-- Two addresses agree from a bit on where they are equal without the bits below. -/
theorem agree_from_iff (x y : BitVec 32) (k : ℕ) :
    (∀ i, k ≤ i → i < 32 → x.getLsbD i = y.getLsbD i) ↔ x.toNat / 2 ^ k = y.toNat / 2 ^ k := by
  constructor
  · intro h
    refine Nat.eq_of_testBit_eq ?_
    intro i
    rw [Nat.testBit_div_two_pow, Nat.testBit_div_two_pow]
    by_cases hi : i + k < 32
    · exact h (i + k) (by omega) hi
    · rw [BitVec.testBit_toNat, BitVec.testBit_toNat, BitVec.getLsbD_of_ge x _ (by omega),
        BitVec.getLsbD_of_ge y _ (by omega)]
  · intro h i hki _
    have hbit := congrArg (fun n => n.testBit (i - k)) h
    simp only [Nat.testBit_div_two_pow] at hbit
    rw [show i - k + k = i by omega] at hbit
    exact hbit

/-- The bits of a prefix agree where the addresses are in one network. -/
theorem agree_prefix_iff {len : ℕ} (h : len ≤ 32) (x y : BitVec 32) :
    (∀ i, (prefixMask len).getLsbD i = true → x.getLsbD i = y.getLsbD i) ↔
      x.toNat / 2 ^ (32 - len) = y.toNat / 2 ^ (32 - len) := by
  rw [← agree_from_iff]
  simp only [getLsbD_prefixMask h, Bool.and_eq_true, decide_eq_true_eq, and_imp]

/-- A run of ones at the bottom. -/
theorem eq_two_pow_of_and_succ {wild : ℕ} (h : wild &&& (wild + 1) = 0) :
    wild = 2 ^ bitLength wild - 1 := by
  have hpow : (wild + 1).isPowerOfTwo := by
    refine (Nat.and_sub_one_eq_zero_iff_isPowerOfTwo (by omega)).mp ?_
    rw [Nat.add_sub_cancel, Nat.and_comm]
    exact h
  obtain ⟨k, hk⟩ := hpow
  have hlength : bitLength wild = k := by
    unfold bitLength
    split_ifs with h0
    · subst h0
      cases k with
      | zero => rfl
      | succ k => omega
    · have hlog : wild.log2 = k - 1 := by
        have hk0 : k ≠ 0 := by
          rintro rfl
          omega
        refine (Nat.log2_eq_iff h0).mpr ⟨?_, ?_⟩
        · have : 2 ^ k = 2 * 2 ^ (k - 1) := by
            rw [← pow_succ', Nat.sub_add_cancel (by omega)]
          omega
        · rw [Nat.sub_add_cancel (by omega)]
          omega
      rw [hlog]
      have : k ≠ 0 := by
        rintro rfl
        omega
      omega
  rw [hlength]
  omega

/-! ### One field -/

/-- The value a field is shown with selects a packet, as the classifier reads it. -/
def Shows (name : RyuName) (value : Json F) (key : FlowKey) : Prop :=
  match name with
  | .nwDst => ∀ addr mask, parseIpv4WithMaskOrPrefix value = .ok (some (addr, mask)) →
      ∀ i, mask.getLsbD i = true → key.ipv4Dst.getLsbD i = addr.getLsbD i
  | .nwSrc => ∀ addr mask, parseIpv4WithMaskOrPrefix value = .ok (some (addr, mask)) →
      ∀ i, mask.getLsbD i = true → key.ipv4Src.getLsbD i = addr.getLsbD i
  | .nwProto => ∀ v, parseU64 value = .ok v → key.ipProto = v.setWidth 8
  | .tpSrc => ∀ v, parseU64 value = .ok v → key.tpSrc = v.setWidth 16
  | .tpDst => ∀ v, parseU64 value = .ok v → key.tpDst = v.setWidth 16
  | .inPort => ∀ v, parseU64 value = .ok v → key.inPort = v.setWidth 32

/-- A number as it is shown is read as that number. -/
theorem number_iff {w n : ℕ} (hn : n < 2 ^ w) (hw : w ≤ 64) (x : BitVec w) :
    (∀ v, parseU64 (.int n : Json F) = .ok v → x = v.setWidth w) ↔ x.toNat = n := by
  have hlt : n < 2 ^ 64 := lt_of_lt_of_le hn (Nat.pow_le_pow_right (by decide) hw)
  have hparse : parseU64 (.int n : Json F) = .ok (BitVec.ofNat 64 n) := by
    have hinteger : isInteger (n : ℤ) = true := by
      simp only [isInteger, Bool.and_eq_true, decide_eq_true_eq]
      omega
    rw [parseU64, if_pos hinteger, BitVec.ofInt_natCast]
  rw [hparse]
  have hvalue : ((BitVec.ofNat 64 n).setWidth w).toNat = n := by
    rw [BitVec.toNat_setWidth, BitVec.toNat_ofNat, Nat.mod_eq_of_lt hlt, Nat.mod_eq_of_lt hn]
  constructor
  · intro h
    rw [h _ rfl, hvalue]
  · intro h v hv
    cases hv
    exact BitVec.eq_of_toNat_eq (h.trans hvalue.symm)

/-- A prefix as it is shown is read as that prefix. -/
theorem prefix_iff {value : List ℕ} (hvalue : Fits 32 value) {len : ℕ} (hlen : len ≤ 32)
    (x : BitVec 32) :
    (∀ addr mask, parseIpv4WithMaskOrPrefix
        (.str (ipv4 value ++ prefixToNetmaskSuffix len) : Json F) = .ok (some (addr, mask)) →
      ∀ i, mask.getLsbD i = true → x.getLsbD i = addr.getLsbD i) ↔
      x.toNat / 2 ^ (32 - len) = Ipv4.ofBytes value / 2 ^ (32 - len) := by
  rw [parseIpv4WithMaskOrPrefix_shown hvalue.length hvalue.byte hlen]
  have hnetwork : (networkOf value).toNat = Ipv4.ofBytes value := by
    rw [networkOf, BitVec.toNat_ofNat, Nat.mod_eq_of_lt hvalue.number]
  rw [← hnetwork, ← agree_prefix_iff hlen]
  constructor
  · intro h
    exact h _ _ rfl
  · intro h addr mask heq
    cases heq
    exact h

/-- So is a whole address. -/
theorem address_iff {value : List ℕ} (hvalue : Fits 32 value) (x : BitVec 32) :
    (∀ addr mask, parseIpv4WithMaskOrPrefix (.str (ipv4 value) : Json F) = .ok (some (addr, mask)) →
      ∀ i, mask.getLsbD i = true → x.getLsbD i = addr.getLsbD i) ↔ x.toNat = Ipv4.ofBytes value := by
  have hhost := prefix_iff (F := F) hvalue le_rfl x
  rw [prefixToNetmaskSuffix, if_pos le_rfl, String.append_empty, Nat.sub_self, pow_zero, Nat.div_one,
    Nat.div_one] at hhost
  exact hhost

/-- A value that is shown as it is selects the packets with that value. -/
theorem shows_shown_iff {name : RyuName} {value : List ℕ} (hvalue : Fits name.width value)
    (key : FlowKey) :
    Shows name (shown name value : Json F) key ↔ name.get key = Ipv4.ofBytes value := by
  cases name with
  | nwDst => exact address_iff hvalue key.ipv4Dst
  | nwSrc => exact address_iff hvalue key.ipv4Src
  | nwProto => exact number_iff hvalue.number (by decide) key.ipProto
  | tpSrc => exact number_iff hvalue.number (by decide) key.tpSrc
  | tpDst => exact number_iff hvalue.number (by decide) key.tpDst
  | inPort =>
    have hlt : Ipv4.ofBytes value < 2 ^ 9 := hvalue.number
    exact number_iff (by omega) (by decide) key.inPort

/-- An address that is shown as a prefix selects the packets with that prefix. -/
theorem shows_prefix_iff {name : RyuName} (hname : name.isAddress = true) {value : List ℕ}
    (hvalue : Fits name.width value) {len : ℕ} (hlen : len ≤ 32) (key : FlowKey) :
    Shows name (.str (ipv4 value ++ prefixToNetmaskSuffix len) : Json F) key ↔
      name.get key / 2 ^ (32 - len) = Ipv4.ofBytes value / 2 ^ (32 - len) := by
  cases name with
  | nwDst => exact prefix_iff hvalue hlen key.ipv4Dst
  | nwSrc => exact prefix_iff hvalue hlen key.ipv4Src
  | _ => cases hname

theorem RyuName.get_lt (name : RyuName) {key : FlowKey} (hport : key.inPort.toNat < 2 ^ 9) :
    name.get key < 2 ^ name.width := by
  cases name with
  | nwDst => exact key.ipv4Dst.isLt
  | nwSrc => exact key.ipv4Src.isLt
  | nwProto => exact key.ipProto.isLt
  | tpSrc => exact key.tpSrc.isLt
  | tpDst => exact key.tpDst.isLt
  | inPort => exact hport

/-- A number under a mask of leading ones is the number without the bits below. -/
theorem and_leading_iff {w k x y : ℕ} (hx : x < 2 ^ w) (hy : y < 2 ^ w) (hk : k ≤ w) :
    x &&& ((2 ^ w - 1) ^^^ (2 ^ k - 1)) = y &&& ((2 ^ w - 1) ^^^ (2 ^ k - 1)) ↔
      x / 2 ^ k = y / 2 ^ k := by
  have hmask : ∀ i, ((2 ^ w - 1) ^^^ (2 ^ k - 1)).testBit i = (decide (i < w) && decide (k ≤ i)) := by
    intro i
    rw [Nat.testBit_xor, Nat.testBit_two_pow_sub_one, Nat.testBit_two_pow_sub_one]
    by_cases hik : i < k
    · simp [hik, show i < w by omega]
    · simp [hik, show k ≤ i by omega]
  constructor
  · intro h
    refine Nat.eq_of_testBit_eq ?_
    intro i
    rw [Nat.testBit_div_two_pow, Nat.testBit_div_two_pow]
    by_cases hi : i + k < w
    · have hbit := congrArg (fun n => n.testBit (i + k)) h
      simpa [hmask, hi] using hbit
    · have hge : 2 ^ w ≤ 2 ^ (i + k) := Nat.pow_le_pow_right (by decide) (by omega)
      rw [Nat.testBit_lt_two_pow (by omega), Nat.testBit_lt_two_pow (by omega)]
  · intro h
    refine Nat.eq_of_testBit_eq ?_
    intro i
    rw [Nat.testBit_and, Nat.testBit_and, hmask]
    by_cases hki : k ≤ i
    · have hbit := congrArg (fun n => n.testBit (i - k)) h
      simp only [Nat.testBit_div_two_pow] at hbit
      rw [show i - k + k = i by omega] at hbit
      rw [hbit]
    · simp [hki]

theorem RyuName.width_of_isAddress {name : RyuName} (h : name.isAddress = true) : name.width = 32 := by
  cases name with
  | nwDst => rfl
  | nwSrc => rfl
  | _ => cases h

/-- The mask of a shape: full, or a run of leading ones of an address. -/
def Shape.Has (name : RyuName) (mask : ℕ) : Shape → Prop
  | .exact => mask = 2 ^ name.width - 1
  | .leading len =>
    name.isAddress = true ∧ len ≤ 32 ∧ mask = (2 ^ 32 - 1) ^^^ (2 ^ (32 - len) - 1)

theorem ternaryAsRyu_spec {name : RyuName} {mask : List ℕ} (hmask : Fits name.width mask)
    {shape : Shape} (h : ternaryAsRyu name mask = some shape) :
    shape.Has name (Ipv4.ofBytes mask) := by
  have hand : Ipv4.ofBytes mask &&& (2 ^ name.width - 1) = Ipv4.ofBytes mask := by
    rw [Nat.and_two_pow_sub_one_eq_mod, Nat.mod_eq_of_lt hmask.number]
  simp only [ternaryAsRyu, hand] at h
  split_ifs at h with hfull haddress hrun
  · cases h
    exact hfull
  · cases h
    have hwidth := RyuName.width_of_isAddress haddress
    have hlt := hmask.number
    rw [hwidth] at hrun hlt ⊢
    have hwild := eq_two_pow_of_and_succ hrun
    generalize bitLength (2 ^ 32 - 1 ^^^ Ipv4.ofBytes mask) = k at hwild
    -- the wild bits are no more than the field has
    have hle : k ≤ 32 := by
      have hxor : 2 ^ 32 - 1 ^^^ Ipv4.ofBytes mask < 2 ^ 32 :=
        Nat.xor_lt_two_pow (by decide) hlt
      by_contra hgt
      have hpow : 2 ^ 33 ≤ 2 ^ k := Nat.pow_le_pow_right (by decide) (by omega)
      omega
    refine ⟨haddress, Nat.sub_le 32 k, ?_⟩
    rw [show 32 - (32 - k) = k by omega, ← hwild, ← Nat.xor_assoc, Nat.xor_self, Nat.zero_xor]

/-- **A field that is shown is evaluated as the switch evaluates it.** -/
theorem shows_iff {name : RyuName} {spec : Spec} {value : Json F} (hplain : spec.Plain name)
    (htranslate : translateSpec name spec = some value) {key : FlowKey}
    (hport : key.inPort.toNat < 2 ^ 9) :
    Shows name value key ↔ spec.Matches name.width (name.get key) := by
  cases spec with
  | range low high => cases htranslate
  | exact bytes =>
    cases htranslate
    exact shows_shown_iff hplain key
  | optional bytes =>
    cases htranslate
    exact shows_shown_iff hplain key
  | lpm bytes prefixLen =>
    obtain ⟨hfits, haddress, hlen⟩ := hplain
    simp only [translateSpec, haddress, if_true, Option.some_inj] at htranslate
    rw [← htranslate, Spec.Matches, RyuName.width_of_isAddress haddress]
    exact shows_prefix_iff haddress hfits hlen key
  | ternary bytes mask =>
    obtain ⟨hfits, hmask⟩ := hplain
    have hlt := name.get_lt hport
    simp only [translateSpec] at htranslate
    rw [Spec.Matches]
    cases hshape : ternaryAsRyu name mask with
    | none =>
      rw [hshape] at htranslate
      cases htranslate
    | some shape =>
      rw [hshape] at htranslate
      have hspec := ternaryAsRyu_spec hmask hshape
      cases shape with
      | exact =>
        cases htranslate
        have hfull : Ipv4.ofBytes mask = 2 ^ name.width - 1 := hspec
        rw [hfull, Nat.and_two_pow_sub_one_eq_mod, Nat.and_two_pow_sub_one_eq_mod,
          Nat.mod_eq_of_lt hlt, Nat.mod_eq_of_lt hfits.number]
        exact shows_shown_iff hfits key
      | leading len =>
        cases htranslate
        obtain ⟨haddress, hlen, hleading⟩ := hspec
        have hwidth := RyuName.width_of_isAddress haddress
        have hnumber := hfits.number
        rw [hwidth] at hlt hnumber
        rw [hleading, and_leading_iff hlt hnumber (Nat.sub_le 32 len)]
        exact shows_prefix_iff haddress hfits hlen key

/-! ### The match of a row -/

/-- A field with a condition that has no name, but is known to have none. -/
def isDropped (field : String → Option RyuName) (p : Option String × Spec) : Bool :=
  (p.1.bind field).isNone && (p.1.elim false unrenderableField && !isDontCare p.2)

/-- The fields of a row, in the order of the entry. -/
def shownFields (cs : List (RyuName × Spec)) : List (RyuName × Json F) :=
  cs.filterMap fun c => (translateSpec c.1 c.2).map fun value => (c.1, value)

/-- One field with a condition and a name, after those before it. -/
def putShown (out : List (RyuName × Json F)) (c : RyuName × Spec) : List (RyuName × Json F) :=
  match translateSpec c.1 c.2 with
  | none => out
  | some value => setItem out c.1 value

/-- A translation goes by the fields with a condition and a name alone, but for the one name that
is known to have no spelling. -/
theorem foldl_translateField (field : String → Option RyuName) (fields : List (Option String × Spec))
    (t : Translation F) :
    fields.foldl (translateField field) t =
      { out := (constrained field fields).foldl putShown t.out
        untranslatable := t.untranslatable ||
          (constrained field fields).any fun c => (translateSpec (F := F) c.1 c.2).isNone
        unrenderable := t.unrenderable || fields.any (isDropped field) } := by
  induction fields generalizing t with
  | nil => simp [constrained]
  | cons p fields ih =>
    rw [List.foldl_cons, ih, List.any_cons]
    cases hname : p.1.bind field with
    | none =>
      have hcons : constrained field (p :: fields) = constrained field fields :=
        List.filterMap_cons_none (by simp [hname])
      rw [hcons]
      cases hmac : p.1.elim false unrenderableField && !isDontCare p.2 with
      | true => simp [translateField, isDropped, hname, hmac]
      | false => simp [translateField, isDropped, hname, hmac]
    | some name =>
      cases hcare : isDontCare p.2 with
      | true =>
        have hcons : constrained field (p :: fields) = constrained field fields :=
          List.filterMap_cons_none (by simp [hcare])
        rw [hcons]
        simp [translateField, isDropped, hname, hcare]
      | false =>
        have hcons : constrained field (p :: fields) = (name, p.2) :: constrained field fields :=
          List.filterMap_cons_some (by simp [hname, hcare])
        rw [hcons, List.foldl_cons, List.any_cons]
        cases hvalue : translateSpec (F := F) name p.2 with
        | none => simp [translateField, isDropped, hname, hcare, hvalue, putShown]
        | some value => simp [translateField, isDropped, hname, hcare, hvalue, putShown]

theorem setItem_ne_nil (out : List (RyuName × Json F)) (name : RyuName) (value : Json F) :
    setItem out name value ≠ [] := by
  cases out with
  | nil => simp [setItem]
  | cons o out =>
    rw [setItem]
    split <;> simp

/-- What is put under a new name comes last. -/
theorem setItem_of_notMem {out : List (RyuName × Json F)} {name : RyuName}
    (h : name ∉ out.map Prod.fst) (value : Json F) :
    setItem out name value = out ++ [(name, value)] := by
  induction out with
  | nil => rfl
  | cons o out ih =>
    rw [List.map_cons, List.mem_cons, not_or] at h
    rw [setItem, if_neg (Ne.symm h.1), ih h.2, List.cons_append]

/-- Where no two fields have the same name, each is shown with its own value. -/
theorem foldl_putShown {cs : List (RyuName × Spec)} {out : List (RyuName × Json F)}
    (h : (out.map Prod.fst ++ cs.map Prod.fst).Nodup) :
    cs.foldl putShown out = out ++ shownFields cs := by
  induction cs generalizing out with
  | nil => simp [shownFields]
  | cons c cs ih =>
    rw [List.map_cons] at h
    have hfresh : c.1 ∉ out.map Prod.fst := fun hmem =>
      (List.nodup_append.mp h).2.2 _ hmem _ List.mem_cons_self rfl
    have hrest : (out.map Prod.fst ++ cs.map Prod.fst).Nodup :=
      h.sublist (List.Sublist.append_left (List.sublist_cons_self _ _) _)
    rw [List.foldl_cons]
    cases hvalue : translateSpec (F := F) c.1 c.2 with
    | none =>
      have hput : putShown out c = out := by simp [putShown, hvalue]
      rw [hput, ih hrest]
      simp [shownFields, hvalue]
    | some value =>
      have hput : putShown out c = out ++ [(c.1, value)] := by
        simp only [putShown, hvalue]
        exact setItem_of_notMem hfresh value
      rw [hput, ih (by simpa using h)]
      simp [shownFields, hvalue]

/-- A translation without fields is one of an entry without named fields, or has to be left out. -/
theorem foldl_putShown_eq_nil {cs : List (RyuName × Spec)}
    (h : cs.foldl putShown ([] : List (RyuName × Json F)) = []) :
    ∀ c ∈ cs, translateSpec (F := F) c.1 c.2 = none := by
  have hkeeps : ∀ (cs : List (RyuName × Spec)) (out : List (RyuName × Json F)), out ≠ [] →
      cs.foldl putShown out ≠ [] := by
    intro cs
    induction cs with
    | nil => exact fun out hout => hout
    | cons c cs ih =>
      intro out hout
      refine ih _ ?_
      unfold putShown
      split
      · exact hout
      · exact setItem_ne_nil _ _ _
  induction cs with
  | nil => exact fun c hc => absurd hc List.not_mem_nil
  | cons c cs ih =>
    rw [List.foldl_cons] at h
    cases hvalue : translateSpec (F := F) c.1 c.2 with
    | none =>
      rw [putShown, hvalue] at h
      exact List.forall_mem_cons.mpr ⟨hvalue, ih h⟩
    | some value =>
      rw [putShown, hvalue] at h
      exact absurd h (hkeeps cs _ (setItem_ne_nil _ _ _))

/-- The match of a row with given fields. -/
def rowMatch (values : List (RyuName × Json F)) : Json F :=
  .obj (if values.any fun o => o.1.isIpv4 then
    values.map (fun o => (o.1.text, o.2)) ++ [("dl_type", .int 0x0800)]
    else values.map fun o => (o.1.text, o.2))

theorem RyuName.text_inj {name name' : RyuName} (h : name.text = name'.text) : name = name' := by
  cases name <;> cases name' <;> first | rfl | (revert h; decide)

theorem lookup_text (values : List (RyuName × Json F)) (name : RyuName) :
    (values.map fun o => (o.1.text, o.2)).lookup name.text = values.lookup name := by
  induction values with
  | nil => rfl
  | cons o values ih =>
    rw [List.map_cons, List.lookup_cons, List.lookup_cons, ih]
    by_cases h : name = o.1
    · simp [h]
    · have htext : name.text ≠ o.1.text := fun heq => h (RyuName.text_inj heq)
      simp [beq_eq_false_iff_ne.mpr h, beq_eq_false_iff_ne.mpr htext]

theorem lookup_other {key : String} (h : ∀ name : RyuName, name.text ≠ key)
    (values : List (RyuName × Json F)) :
    (values.map fun o => (o.1.text, o.2)).lookup key = none := by
  rw [List.lookup_eq_none_iff]
  intro p hp
  obtain ⟨o, -, rfl⟩ := List.mem_map.mp hp
  exact bne_iff_ne.mpr (Ne.symm (h o.1))

/-- What a row says under a key: the field of that name, the type of packet, or nothing. -/
theorem find_rowMatch (values : List (RyuName × Json F)) :
    (∀ name : RyuName, find (rowMatch values) name.text = values.lookup name) ∧
      find (rowMatch values) "dl_type" =
        (if values.any fun o => o.1.isIpv4 then some (.int 0x0800) else none) ∧
      ∀ key, (∀ name : RyuName, name.text ≠ key) → key ≠ "dl_type" → find (rowMatch values) key = none := by
  have htype : ∀ name : RyuName, name.text ≠ "dl_type" := by
    intro name
    cases name <;> decide
  have hfind : ∀ key, find (rowMatch values) key =
      ((values.map fun o => (o.1.text, o.2)).lookup key).or
        (if (values.any fun o => o.1.isIpv4) = true ∧ key = "dl_type" then some (.int 0x0800)
          else none) := by
    intro key
    unfold rowMatch
    by_cases hany : (values.any fun o => o.1.isIpv4) = true
    · rw [if_pos hany, find, List.lookup_append]
      by_cases hkey : key = "dl_type"
      · simp [hany, hkey]
      · simp [List.lookup_cons, beq_eq_false_iff_ne.mpr hkey, hkey]
    · rw [if_neg hany, find, if_neg (fun h => hany h.1), Option.or_none]
  refine ⟨?_, ?_, ?_⟩
  · intro name
    rw [hfind, lookup_text, if_neg (fun h => htype name h.2), Option.or_none]
  · rw [hfind, lookup_other htype, Option.none_or]
    exact if_congr (and_iff_left rfl) rfl rfl
  · intro key hkey hne
    rw [hfind, lookup_other hkey, if_neg (fun h => hne h.2), Option.none_or]

/-- **A row selects the packets that each of its fields selects**, and, where one of these is about
IPv4, IPv4 packets only. -/
theorem agrees_rowMatch_iff {values : List (RyuName × Json F)} (h : (values.map Prod.fst).Nodup)
    (key : FlowKey) :
    Agrees (rowMatch values) key ↔ (∀ o ∈ values, Shows o.1 o.2 key) ∧
      ((values.any fun o => o.1.isIpv4) = true → key.ethType = 0x0800) := by
  obtain ⟨htext, htype, hother⟩ := find_rowMatch values
  have hnone : ∀ key ∈ ["eth_type", "ip_proto", "ipv4_src", "ipv4_dst", "udp_src", "tcp_src", "udp_dst",
      "tcp_dst", "vlan_vid", "metadata"], find (rowMatch values) key = none := by
    intro key hkey
    refine hother key ?_ ?_
    · intro name hname
      subst hname
      cases name <;> exact absurd hkey (by decide)
    · rintro rfl
      exact absurd hkey (by decide)
  simp only [List.forall_mem_cons] at hnone
  obtain ⟨hn₁, hn₂, hn₃, hn₄, hn₅, hn₆, hn₇, hn₈, hn₉, hn₁₀, -⟩ := hnone
  have hinPort := htext .inPort
  have hnwProto := htext .nwProto
  have hnwSrc := htext .nwSrc
  have hnwDst := htext .nwDst
  have htpSrc := htext .tpSrc
  have htpDst := htext .tpDst
  simp only [RyuName.text] at hinPort hnwProto hnwSrc hnwDst htpSrc htpDst
  have hmem : ∀ name value, values.lookup name = some value ↔ (name, value) ∈ values :=
    fun name value => Dict.lookup_eq_some_iff_mem h
  have hshows : (∀ o ∈ values, Shows o.1 o.2 key) ↔
      ∀ name value, values.lookup name = some value → Shows name value key := by
    simp only [hmem]
    exact ⟨fun h name value hv => h (name, value) hv, fun h o ho => h o.1 o.2 ho⟩
  have heth : AgreesNumber (rowMatch values) ["eth_type", "dl_type"] key.ethType ↔
      ((values.any fun o => o.1.isIpv4) = true → key.ethType = 0x0800) := by
    have hread : parseU64 (.int 0x0800 : Json F) = .ok 0x0800 := rfl
    have hfirst : firstOf (rowMatch values) ["eth_type", "dl_type"] =
        if values.any fun o => o.1.isIpv4 then some (.int 0x0800) else none := by
      rw [firstOf_cons, firstOf_cons, firstOf_nil, hn₁, htype, Option.or_none, Option.none_or]
    rw [AgreesNumber, hfirst]
    by_cases hany : (values.any fun o => o.1.isIpv4) = true
    · rw [if_pos hany]
      constructor
      · intro hagrees _
        exact hagrees _ rfl _ hread
      · rintro hagrees j hj v hv
        cases hj
        rw [hread] at hv
        cases hv
        exact hagrees hany
    · rw [if_neg hany]
      exact ⟨fun _ h => absurd h hany, fun _ j hj => by cases hj⟩
  rw [hshows, ← heth]
  constructor
  · rintro ⟨h₁, h₂, h₃, h₄, h₅, h₆, h₇, -, -⟩
    refine ⟨?_, h₂⟩
    simp only [AgreesNumber, agreesAddress_iff_read, firstOf_cons, firstOf_nil, hn₂, hn₃, hn₄, hn₅,
      hn₆, hn₇, hn₈, hinPort, hnwProto, hnwSrc, hnwDst, htpSrc, htpDst, Option.or_none, Option.none_or,
      Option.mem_def] at h₁ h₃ h₄ h₅ h₆ h₇
    intro name value hvalue
    cases name with
    | nwDst => exact h₅ value hvalue
    | nwSrc => exact h₄ value hvalue
    | nwProto => exact h₃ value hvalue
    | tpSrc => exact h₆ value hvalue
    | tpDst => exact h₇ value hvalue
    | inPort => exact h₁ value hvalue
  · rintro ⟨hall, h₂⟩
    refine ⟨?_, h₂, ?_, ?_, ?_, ?_, ?_, ?_, ?_⟩ <;>
      simp only [AgreesNumber, agreesAddress_iff_read, firstOf_cons, firstOf_nil, hn₂, hn₃, hn₄, hn₅,
        hn₆, hn₇, hn₈, hn₉, hn₁₀, hinPort, hnwProto, hnwSrc, hnwDst, htpSrc, htpDst, Option.or_none,
        Option.none_or, Option.mem_def]
    · exact hall .inPort
    · exact hall .nwProto
    · exact hall .nwSrc
    · exact hall .nwDst
    · exact hall .tpSrc
    · exact hall .tpDst
    · exact fun j hj => by cases hj
    · exact fun j hj => by cases hj

/-! ### Rows -/

/-- The row an entry is listed with, if it is listed. -/
def rowOf (binding : Option RouteBinding) (durations : Entry → ℤ × ℤ) (entry : Entry) :
    Option (Json F) :=
  if foreign binding && !entry.isDefault &&
      ((boundTable binding).isSome && decide (entry.table ≠ boundTable binding) ||
        !recognisesAction (vocabulary binding).forwarding entry.action) then none
  else entryToRyu entry (durations entry) (vocabulary binding) (!foreign binding)

/-- An entry without a field that has a condition and a name. -/
def noUsableMatch (binding : Option RouteBinding) (entry : Entry) : Bool :=
  (constrained (vocabulary binding).field entry.fields).isEmpty

/-- The fields of a row, and whether it has to be left out. -/
theorem translateMatch_spec (field : String → Option RyuName) (fields : List (Option String × Spec)) :
    ((translateMatch (F := F) field fields).1.isEmpty = true ↔
      (constrained field fields).foldl putShown ([] : List (RyuName × Json F)) = []) ∧
    ((translateMatch (F := F) field fields).2 = false ↔
      (∀ c ∈ constrained field fields, (translateSpec (F := F) c.1 c.2).isSome = true) ∧
        (fields.any (isDropped field) = true →
          (constrained field fields).foldl putShown ([] : List (RyuName × Json F)) = [])) := by
  unfold translateMatch
  rw [foldl_translateField]
  simp only [Bool.false_or]
  generalize (constrained field fields).foldl putShown ([] : List (RyuName × Json F)) = out
  constructor
  · cases out with
    | nil => simp
    | cons o out => simp only [List.isEmpty_iff]; split <;> simp
  · rw [Bool.or_eq_false_iff, List.any_eq_false, Bool.and_eq_false_iff]
    refine and_congr (forall₂_congr fun c _ => ?_) ?_
    · cases translateSpec (F := F) c.1 c.2 <;> simp
    · cases out with
      | nil => simp
      | cons o out => simp

/-- A match without fields that need not be left out is one without a usable field. -/
theorem noUsableMatch_iff (binding : Option RouteBinding) (entry : Entry) :
    noUsableMatch binding entry = true ↔
      (translateMatch (F := F) (vocabulary binding).field entry.fields).2 = false ∧
        (translateMatch (F := F) (vocabulary binding).field entry.fields).1.isEmpty = true := by
  obtain ⟨hempty, hleft⟩ := translateMatch_spec (F := F) (vocabulary binding).field entry.fields
  rw [hempty, hleft, noUsableMatch, List.isEmpty_iff]
  constructor
  · intro hnone
    rw [hnone]
    exact ⟨⟨fun c hc => absurd hc List.not_mem_nil, fun _ => rfl⟩, rfl⟩
  · rintro ⟨⟨hall, -⟩, hnil⟩
    refine List.eq_nil_iff_forall_not_mem.mpr ?_
    intro c hc
    have hnone := foldl_putShown_eq_nil hnil c hc
    have hsome := hall c hc
    rw [hnone] at hsome
    cases hsome

theorem entryToRyu_eq_none_iff (entry : Entry) (duration : ℤ × ℤ) (voc : Vocabulary) (own : Bool) :
    entryToRyu (F := F) entry duration voc own = none ↔ entry.isDefault = true ∨
      (translateMatch (F := F) voc.field entry.fields).2 = true ∨
      (translateMatch (F := F) voc.field entry.fields).1.isEmpty = true := by
  unfold entryToRyu
  cases entry.isDefault with
  | true => simp
  | false =>
    cases h : translateMatch (F := F) voc.field entry.fields with
    | mk out untranslatable =>
      cases untranslatable with
      | true => simp
      | false =>
        cases out with
        | nil => simp
        | cons o out => simp

/-- One entry of the reply: its row is listed, or it is counted; a default entry is neither, and so
is an entry of NDTwin's own pipeline without a usable match. -/
theorem renderEntry_eq (binding : Option RouteBinding) (durations : Entry → ℤ × ℤ) (r : Rendered F)
    (entry : Entry) :
    renderEntry binding durations r entry =
      match rowOf binding durations entry with
      | some row => { r with flows := r.flows ++ [row] }
      | none =>
        if entry.isDefault || !foreign binding && noUsableMatch binding entry then r
        else { r with unrendered := r.unrendered + 1 } := by
  have hnone := entryToRyu_eq_none_iff (F := F) entry (durations entry) (vocabulary binding)
    (!foreign binding)
  have husable := noUsableMatch_iff (F := F) binding entry
  unfold renderEntry rowOf
  cases hd : entry.isDefault with
  | true =>
    have hrow := hnone.mpr (.inl hd)
    simp [hrow]
  | false =>
    cases hf : foreign binding with
    | true =>
      rw [hf] at hnone
      by_cases hother : (boundTable binding).isSome = true ∧ entry.table ≠ boundTable binding
      · simp [hother.1, hother.2]
      · have hbound : ((boundTable binding).isSome && decide (entry.table ≠ boundTable binding)) =
            false := by
          simpa using hother
        cases hknown : recognisesAction (vocabulary binding).forwarding entry.action with
        | false =>
          simp only [Bool.not_false, Bool.and_self, Bool.true_and, hbound, hknown, Bool.or_true, if_true,
            Bool.false_eq_true, if_false, Bool.not_true, Bool.false_and, Bool.or_self]
        | true =>
          simp only [Bool.not_false, Bool.and_self, Bool.true_and, hbound, hknown, Bool.not_true,
            Bool.and_false, Bool.false_eq_true, if_false, if_true, Bool.false_and, Bool.or_self]
          -- what has to be left out has no row
          cases huntr : (translateMatch (F := F) (vocabulary binding).field entry.fields).2 with
          | true =>
            have hrow := hnone.mpr (.inr (.inl huntr))
            simp only [Bool.not_true] at hrow
            simp [hrow]
          | false =>
            cases entryToRyu (F := F) entry (durations entry) (vocabulary binding) false <;> rfl
    | false =>
      rw [hf] at hnone
      simp only [Bool.false_and, Bool.false_eq_true, if_false, Bool.not_false, Bool.true_and,
        Bool.false_or]
      cases huntr : (translateMatch (F := F) (vocabulary binding).field entry.fields).2 with
      | true =>
        have hrow := hnone.mpr (.inr (.inl huntr))
        have hnot : noUsableMatch binding entry = false := by
          by_contra htrue
          have := (husable.mp (by simpa using htrue)).1
          rw [huntr] at this
          cases this
        simp only [Bool.not_false] at hrow
        simp [hrow, hnot]
      | false =>
        cases hrow : entryToRyu (F := F) entry (durations entry) (vocabulary binding) true with
        | some row => simp
        | none =>
          have hempty : (translateMatch (F := F) (vocabulary binding).field entry.fields).1.isEmpty =
              true := by
            rcases hnone.mp hrow with h | h | h
            · rw [hd] at h
              cases h
            · rw [huntr] at h
              cases h
            · exact h
          simp [husable.mpr ⟨huntr, hempty⟩]

/-- Whether an entry is counted as left out. -/
def isCounted (F : Type) (binding : Option RouteBinding) (durations : Entry → ℤ × ℤ) (entry : Entry) :
    Bool :=
  (rowOf (F := F) binding durations entry).isNone && !entry.isDefault &&
    !(!foreign binding && noUsableMatch binding entry)

/-- **The rows that are listed and the entries that are counted.** -/
theorem renderFlowStatsCounted_eq (dpid : ℕ) (entries : List Entry) (durations : Entry → ℤ × ℤ)
    (binding : Option RouteBinding) :
    renderFlowStatsCounted (F := F) dpid entries durations binding =
      (.obj [(toString dpid, .arr (entries.filterMap (rowOf binding durations)))],
        entries.countP (isCounted F binding durations)) := by
  have hfold : ∀ r : Rendered F, entries.foldl (renderEntry binding durations) r =
      ⟨r.flows ++ entries.filterMap (rowOf binding durations),
        r.unrendered + entries.countP (isCounted F binding durations)⟩ := by
    induction entries with
    | nil => intro r; simp
    | cons entry entries ih =>
      intro r
      rw [List.foldl_cons, ih, renderEntry_eq, List.countP_cons]
      cases hrow : rowOf (F := F) binding durations entry with
      | some row => simp [List.filterMap_cons_some hrow, isCounted, hrow]
      | none =>
        rw [List.filterMap_cons_none hrow]
        cases hskip : entry.isDefault || !foreign binding && noUsableMatch binding entry with
        | true =>
          have hnot : isCounted F binding durations entry = false := by
            rw [isCounted, hrow]
            rcases Bool.or_eq_true_iff.mp hskip with h | h <;> simp [h]
          simp [hnot]
        | false =>
          have hcounted : isCounted F binding durations entry = true := by
            obtain ⟨h₁, h₂⟩ := Bool.or_eq_false_iff.mp hskip
            rw [isCounted, hrow, h₁, h₂]
            rfl
          simp [hcounted]
          omega
  rw [renderFlowStatsCounted, hfold]
  simp

/-- What a listed row says: every field with a condition is shown, each under its own name. -/
theorem rowOf_spec {binding : Option RouteBinding} {durations : Entry → ℤ × ℤ} {entry : Entry}
    {row : Json F} (hrow : rowOf binding durations entry = some row)
    (hplain : Plain (vocabulary binding).field entry.fields) :
    (∀ p ∈ entry.fields, isDontCare p.2 = false →
        (p.1.bind (vocabulary binding).field).isSome = true) ∧
      (∀ c ∈ constrained (vocabulary binding).field entry.fields,
        (translateSpec (F := F) c.1 c.2).isSome = true) ∧
      matchOf row = rowMatch (shownFields (constrained (vocabulary binding).field entry.fields)) := by
  have hentry : entryToRyu entry (durations entry) (vocabulary binding) (!foreign binding) =
      some row := by
    unfold rowOf at hrow
    split at hrow
    · cases hrow
    · exact hrow
  have hlisted := mt (entryToRyu_eq_none_iff (F := F) entry (durations entry) (vocabulary binding)
    (!foreign binding)).mpr (by simp [hentry])
  rw [not_or, not_or, Bool.not_eq_true, Bool.not_eq_true, Bool.not_eq_true] at hlisted
  obtain ⟨hdefault, huntr, hempty⟩ := hlisted
  obtain ⟨hnil, hleft⟩ := translateMatch_spec (F := F) (vocabulary binding).field entry.fields
  obtain ⟨hall, hdropped⟩ := hleft.mp huntr
  refine ⟨?_, hall, ?_⟩
  · -- a destination MAC would have had the row left out
    intro p hp hcare
    by_contra hnone
    have hbind : (p.1.bind (vocabulary binding).field).isNone = true := by simpa using hnone
    have hmac := (hplain.named p hp hcare).resolve_left hnone
    have hdrop : entry.fields.any (isDropped (vocabulary binding).field) = true :=
      List.any_eq_true.mpr ⟨p, hp, by simp [isDropped, hbind, hmac, hcare]⟩
    rw [hnil.mpr (hdropped hdrop)] at hempty
    cases hempty
  · have hout : .obj (translateMatch (F := F) (vocabulary binding).field entry.fields).1 =
        rowMatch (shownFields (constrained (vocabulary binding).field entry.fields)) := by
      unfold translateMatch
      rw [foldl_translateField]
      simp only
      rw [foldl_putShown (by simpa using hplain.distinct)]
      rfl
    have hmatch : matchOf row =
        .obj (translateMatch (F := F) (vocabulary binding).field entry.fields).1 := by
      unfold entryToRyu at hentry
      rw [hdefault] at hentry
      simp only [Bool.false_eq_true, if_false, huntr, hempty, Option.some_inj] at hentry
      rw [← hentry]
      rfl
    rw [hmatch, hout]

/-- **A listed row selects the packets of its entry, and what is not listed is counted.**  The row
of an entry whose fields can be told apart shows every field with a condition, and selects the
packets the entry selects, of the IPv4 packets where one of its fields is about IPv4.  An entry that
is no default and not listed is counted, but for those without a usable match on NDTwin's own
pipeline. -/
theorem rows_faithful (dpid : ℕ) (entries : List Entry) (durations : Entry → ℤ × ℤ)
    (binding : Option RouteBinding) :
    renderFlowStatsCounted (F := F) dpid entries durations binding =
      (.obj [(toString dpid, .arr (entries.filterMap (rowOf binding durations)))],
        entries.countP (isCounted F binding durations)) ∧
    ∀ entry ∈ entries, ∀ row : Json F, rowOf binding durations entry = some row →
      Plain (vocabulary binding).field entry.fields →
      (∀ p ∈ entry.fields, isDontCare p.2 = false →
        (p.1.bind (vocabulary binding).field).isSome = true) ∧
      ∀ key : FlowKey, key.inPort.toNat < 2 ^ 9 →
        (Agrees (matchOf row) key ↔ EntrySelects (vocabulary binding).field entry.fields key ∧
          (((constrained (vocabulary binding).field entry.fields).any fun c => c.1.isIpv4) = true →
            key.ethType = 0x0800)) := by
  refine ⟨renderFlowStatsCounted_eq dpid entries durations binding, ?_⟩
  intro entry _ row hrow hplain
  obtain ⟨hnamed, hall, hmatch⟩ := rowOf_spec hrow hplain
  refine ⟨hnamed, ?_⟩
  intro key hport
  set cs := constrained (vocabulary binding).field entry.fields with hcs
  have hnames : (shownFields (F := F) cs).map Prod.fst = cs.map Prod.fst := by
    rw [shownFields, List.map_filterMap]
    refine (List.filterMap_congr fun c hc => ?_).trans (congrFun List.filterMap_eq_map cs)
    obtain ⟨value, hvalue⟩ := Option.isSome_iff_exists.mp (hall c hc)
    simp [hvalue]
  have hshows : (∀ o ∈ shownFields (F := F) cs, Shows o.1 o.2 key) ↔
      EntrySelects (vocabulary binding).field entry.fields key := by
    constructor
    · intro h c hc
      obtain ⟨value, hvalue⟩ := Option.isSome_iff_exists.mp (hall c hc)
      refine (shows_iff (hplain.fits c hc) hvalue hport).mp (h (c.1, value) ?_)
      exact List.mem_filterMap.mpr ⟨c, hc, by rw [hvalue]; rfl⟩
    · intro h o ho
      obtain ⟨c, hc, hco⟩ := List.mem_filterMap.mp ho
      obtain ⟨value, hvalue, rfl⟩ := Option.map_eq_some_iff.mp hco
      exact (shows_iff (hplain.fits c hc) hvalue hport).mpr (h c hc)
  have hipv4 : ((shownFields (F := F) cs).any fun o => o.1.isIpv4) = cs.any fun c => c.1.isIpv4 := by
    have hmap : ∀ {α : Type} (l : List (RyuName × α)),
        (l.any fun o => o.1.isIpv4) = (l.map Prod.fst).any RyuName.isIpv4 := by
      intro α l
      rw [List.any_map]
      rfl
    rw [hmap, hnames, ← hmap]
  rw [hmatch, agrees_rowMatch_iff (by rw [hnames]; exact hplain.distinct) key, hshows, hipv4]

/-- An entry of the five-tuple table: a source network by its mask, a protocol, and any port. -/
def fiveTupleEntry : Entry where
  table := some fiveTupleTable
  priority := 101
  isDefault := false
  fields := [(some "hdr.ipv4.srcAddr", .ternary [10, 0, 0, 0] [255, 255, 255, 0]),
    (some "hdr.ipv4.protocol", .ternary [6] [255]),
    (some "meta.l4_dst_port", .ternary [0] [0])]
  action := some ⟨some "MyIngress.ipv4_forward", [("port", [3])]⟩
  counters := none

theorem fits_of_bytes {width : ℕ} {value : List ℕ}
    (h : value.length ≤ (width + 7) / 8 ∧ (∀ b ∈ value, b < 256) ∧ Ipv4.ofBytes value < 2 ^ width) :
    Fits width value := ⟨h.1, h.2.1, h.2.2⟩

theorem plain_fiveTupleEntry : Plain fieldToRyu fiveTupleEntry.fields := by
  have hcs : constrained fieldToRyu fiveTupleEntry.fields =
      [(.nwSrc, .ternary [10, 0, 0, 0] [255, 255, 255, 0]), (.nwProto, .ternary [6] [255])] := by
    decide +kernel
  refine ⟨?_, ?_, ?_⟩
  · decide +kernel
  · rw [hcs]
    decide
  · rw [hcs]
    intro c hc
    rcases List.mem_pair.mp hc with rfl | rfl
    · exact ⟨fits_of_bytes (by decide), fits_of_bytes (by decide)⟩
    · exact ⟨fits_of_bytes (by decide), fits_of_bytes (by decide)⟩

/-- It is listed on NDTwin's own pipeline, and its row selects TCP packets from the network. -/
theorem rows_faithful_fiveTuple :
    ∃ row : Json Empty, rowOf (some baseline) (fun _ => (0, 0)) fiveTupleEntry = some row ∧
      ∀ key : FlowKey, key.inPort.toNat < 2 ^ 9 → (Agrees (matchOf row) key ↔
        EntrySelects fieldToRyu fiveTupleEntry.fields key ∧
          (((constrained fieldToRyu fiveTupleEntry.fields).any fun c => c.1.isIpv4) = true →
            key.ethType = 0x0800)) := by
  have hlisted : (rowOf (F := Empty) (some baseline) (fun _ => (0, 0)) fiveTupleEntry).isSome = true := by
    decide +kernel
  obtain ⟨row, hrow⟩ := Option.isSome_iff_exists.mp hlisted
  exact ⟨row, hrow, ((rows_faithful 1 [fiveTupleEntry] (fun _ => (0, 0)) (some baseline)).2
    fiveTupleEntry List.mem_cons_self row hrow plain_fiveTupleEntry).2⟩

/-- An entry on the destination MAC alone. -/
def macEntry : Entry where
  table := some "MyIngress.l2_forward"
  priority := 0
  isDefault := false
  fields := [(some "hdr.ethernet.dstAddr", .exact [0, 0, 0, 0, 0, 1])]
  action := some ⟨some "MyIngress.forward_l2", [("port", [3])]⟩
  counters := none

/-- On NDTwin's own pipeline it is neither listed nor counted. -/
theorem macEntry_not_counted :
    macEntry.isDefault = false ∧
      renderFlowStatsCounted (F := Empty) 1 [macEntry] (fun _ => (0, 0)) (some baseline) =
        (.obj [("1", .arr [])], 0) := by
  refine ⟨rfl, ?_⟩
  rw [renderFlowStatsCounted_eq]
  have hrow : rowOf (F := Empty) (some baseline) (fun _ => (0, 0)) macEntry = none :=
    Option.isNone_iff_eq_none.mp (by decide +kernel)
  have hcounted : isCounted Empty (some baseline) (fun _ => (0, 0)) macEntry = false := by
    decide +kernel
  rw [List.filterMap_cons_none hrow, List.countP_cons, hcounted]
  rfl

end NDTwin.FlowStats
