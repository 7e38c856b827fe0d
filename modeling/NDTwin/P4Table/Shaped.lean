import NDTwin.Lib.Fallible
import NDTwin.P4Table.Shape

/-!
# What is accepted of a match

A match is accepted if each of its members is and it leaves out no field that has to be in it.  What
is accepted of a field is one of few forms: the value of an lpm field is its own network address, a
ternary field has no bit outside its mask, a range is not empty, and none of the three is a second
spelling of "any value".

## Main definitions

* `Wire.Shaped` — the forms that are accepted of a field.
* `Complete` — a match that leaves out no field that has to be in it.

## Main results

* `shapeField_ok` — what is accepted is of one of the forms.
* `shapeMatch_eq_ok` — **a match is accepted if its members are, and it is complete.**
-/

namespace NDTwin.P4Table

variable {F : Type}

theorem pos_of_encodeValue {v : PyData F} {bitwidth : ℤ} {raw : List ℕ}
    (h : encodeValue v bitwidth = .ok raw) : 0 < bitwidth := by
  by_contra hle
  unfold encodeValue at h
  rw [if_pos (by omega)] at h
  cases h

theorem encodeInField_ok {place : String} {v : PyData F} {bitwidth : ℤ} {raw : List ℕ}
    (h : encodeInField place v bitwidth = .ok raw) :
    encodeValue v bitwidth = .ok raw ∧ (Ipv4.ofBytes raw : ℤ) ≤ maxValue bitwidth := by
  obtain ⟨raw', hraw, h⟩ := Fallible.exists_of_bind_ok h
  split at h
  · cases h
  · next hfits =>
    cases h
    refine ⟨?_, by omega⟩
    cases hencode : encodeValue v bitwidth with
    | error refusal =>
      rw [hencode] at hraw
      cases hraw
    | ok raw'' =>
      rw [hencode] at hraw
      cases hraw
      rfl

/-! ### Fields -/

/-- The forms that are accepted of a field, by its width.  The bytes of an exact or an lpm value may
stand for more than the field can hold. -/
def Wire.Shaped (bitwidth : ℤ) : Wire → Prop
  | .exact _ => True
  | .lpm value prefixLen => 0 < prefixLen ∧ prefixLen ≤ bitwidth ∧
      2 ^ (bitwidth - prefixLen).toNat ∣ Ipv4.ofBytes value
  | .ternary value mask => (Ipv4.ofBytes value : ℤ) ≤ maxValue bitwidth ∧
      (Ipv4.ofBytes mask : ℤ) ≤ maxValue bitwidth ∧ Ipv4.ofBytes mask ≠ 0 ∧
      Nat.ldiff (Ipv4.ofBytes value) (Ipv4.ofBytes mask) = 0
  | .range low high => (Ipv4.ofBytes high : ℤ) ≤ maxValue bitwidth ∧
      Ipv4.ofBytes low ≤ Ipv4.ofBytes high ∧
      ¬ (Ipv4.ofBytes low = 0 ∧ (Ipv4.ofBytes high : ℤ) = maxValue bitwidth)
  | .optional value => (Ipv4.ofBytes value : ℤ) ≤ maxValue bitwidth

theorem checkLpm_ok {place : String} {value : List ℕ} {prefixLen bitwidth : ℤ}
    (h : checkLpm (F := F) place value prefixLen bitwidth = .ok ()) :
    prefixLen ≠ 0 ∧ 2 ^ (bitwidth - prefixLen).toNat ∣ Ipv4.ofBytes value := by
  unfold checkLpm at h
  simp only at h
  split at h
  · cases h
  next hzero =>
  refine ⟨hzero, ?_⟩
  split at h
  · cases h
  next hhost =>
  by_cases hpos : 0 < bitwidth - prefixLen
  · have hand : Ipv4.ofBytes value &&& (2 ^ (bitwidth - prefixLen).toNat - 1) = 0 := by
      by_contra hne
      exact hhost ⟨hpos, hne⟩
    rw [Nat.and_two_pow_sub_one_eq_mod] at hand
    exact Nat.dvd_of_mod_eq_zero hand
  · rw [Int.toNat_of_nonpos (by omega), pow_zero]
    exact one_dvd _

theorem shapePrefixLen_ok {place : String} {bitwidth : ℤ} {v : PyData F} {n : ℤ}
    (h : shapePrefixLen place bitwidth v = .ok n) : v = .int n ∧ 0 ≤ n ∧ n ≤ bitwidth := by
  unfold shapePrefixLen at h
  split at h
  · split at h
    · next hrange =>
      cases h
      exact ⟨rfl, hrange⟩
    · cases h
  · cases h

/-- What is accepted of a field is of its kind, and of one of the forms. -/
theorem shapeField_ok {place : String} {kind : MatchType} {bitwidth : ℤ} {raw : PyData F} {w : Wire}
    (h : shapeField place kind bitwidth raw = .ok w) :
    w.kind = kind ∧ 0 < bitwidth ∧ w.Shaped bitwidth := by
  cases kind with
  | unspecified => cases h
  | exact =>
    obtain ⟨v, -, h⟩ := Fallible.exists_of_bind_ok h
    obtain ⟨value, hvalue, h⟩ := Fallible.exists_of_bind_ok h
    cases h
    exact ⟨rfl, pos_of_encodeValue hvalue, trivial⟩
  | lpm =>
    obtain ⟨p, -, h⟩ := Fallible.exists_of_bind_ok h
    obtain ⟨len, hlen, h⟩ := Fallible.exists_of_bind_ok h
    obtain ⟨value, hvalue, h⟩ := Fallible.exists_of_bind_ok h
    obtain ⟨_, hcheck, h⟩ := Fallible.exists_of_bind_ok h
    cases h
    obtain ⟨-, hnonneg, hle⟩ := shapePrefixLen_ok hlen
    obtain ⟨hne, hdvd⟩ := checkLpm_ok hcheck
    exact ⟨rfl, pos_of_encodeValue hvalue, by omega, hle, hdvd⟩
  | ternary =>
    obtain ⟨p, -, h⟩ := Fallible.exists_of_bind_ok h
    obtain ⟨value, hvalue, h⟩ := Fallible.exists_of_bind_ok h
    obtain ⟨mask, hmask, h⟩ := Fallible.exists_of_bind_ok h
    obtain ⟨hencode, hfits⟩ := encodeInField_ok hvalue
    unfold shapeTernary at h
    split at h
    · cases h
    next hzero =>
    split at h
    · cases h
    next hdiff =>
    cases h
    exact ⟨rfl, pos_of_encodeValue hencode, hfits, (encodeInField_ok hmask).2, hzero, by
      simpa using hdiff⟩
  | range =>
    obtain ⟨p, -, h⟩ := Fallible.exists_of_bind_ok h
    obtain ⟨low, hlow, h⟩ := Fallible.exists_of_bind_ok h
    obtain ⟨high, hhigh, h⟩ := Fallible.exists_of_bind_ok h
    unfold shapeRange at h
    split at h
    · cases h
    next hle =>
    split at h
    · cases h
    next hwhole =>
    cases h
    exact ⟨rfl, pos_of_encodeValue (encodeInField_ok hlow).1, (encodeInField_ok hhigh).2, by omega,
      hwhole⟩
  | optional =>
    obtain ⟨v, -, h⟩ := Fallible.exists_of_bind_ok h
    obtain ⟨value, hvalue, h⟩ := Fallible.exists_of_bind_ok h
    cases h
    obtain ⟨hencode, hfits⟩ := encodeInField_ok hvalue
    exact ⟨rfl, pos_of_encodeValue hencode, hfits⟩

/-! ### Matches -/

/-- A match leaves out no field that has to be in it. -/
def Complete (fields : List MatchField) (isDefault : Bool) (names : List String) : Prop :=
  isDefault = true ∨ ∀ f ∈ fields, f.matchType = .exact → f.name ∈ names

theorem shapeMember_fst {tableName : String} {fields : List MatchField} {member : String × PyData F}
    {s : String × Wire} (h : shapeMember tableName fields member = .ok s) : s.1 = member.1 := by
  unfold shapeMember at h
  split at h
  · cases h
  · obtain ⟨w, -, h⟩ := Fallible.exists_of_bind_ok h
    cases h
    rfl

theorem missing_eq_nil {fields : List MatchField} {names : List String} :
    fields.filter (fun f => f.matchType = .exact ∧ f.name ∉ names) = [] ↔
      ∀ f ∈ fields, f.matchType = .exact → f.name ∈ names := by
  rw [List.filter_eq_nil_iff]
  constructor
  · intro h f hf hexact
    by_contra hmissing
    exact h f hf (by simpa using ⟨hexact, hmissing⟩)
  · intro h f hf hnot
    simp only [decide_eq_true_eq] at hnot
    exact hnot.2 (h f hf hnot.1)

/-- **A match is accepted if each of its members is, and it is complete.** -/
theorem shapeMatch_eq_ok {tableName : String} {fields : List MatchField}
    {members : List (String × PyData F)} {isDefault : Bool} {shaped : List (String × Wire)} :
    shapeMatch tableName fields members isDefault = .ok shaped ↔
      List.Forall₂ (fun m s => shapeMember tableName fields m = .ok s) members shaped ∧
        Complete fields isDefault (members.map Prod.fst) := by
  have hnames : ∀ {shaped : List (String × Wire)},
      List.Forall₂ (fun m s => shapeMember tableName fields m = .ok s) members shaped →
      shaped.map Prod.fst = members.map Prod.fst := fun h =>
    (Fallible.map_eq_of_forall₂ (h.imp fun m s hm => (shapeMember_fst hm).symm)).symm
  constructor
  · intro h
    obtain ⟨shaped', hshaped, h⟩ := Fallible.exists_of_bind_ok h
    have hall := Fallible.forall₂_of_mapM hshaped
    simp only at h
    split at h
    · cases h
    next hmissing =>
    cases h
    refine ⟨hall, ?_⟩
    rw [hnames hall] at hmissing
    cases isDefault with
    | true => exact .inl rfl
    | false => exact .inr (missing_eq_nil.mp (by simpa using hmissing))
  · rintro ⟨hall, hcomplete⟩
    rw [shapeMatch, Fallible.bind_of_ok (Fallible.mapM_of_forall₂ hall)]
    simp only
    rw [if_neg]
    rw [hnames hall]
    rcases hcomplete with rfl | hcomplete
    · simp
    · rw [missing_eq_nil.mpr hcomplete]
      simp

end NDTwin.P4Table
