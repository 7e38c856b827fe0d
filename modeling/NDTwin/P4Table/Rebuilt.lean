import Mathlib.Data.List.Perm.Basic
import NDTwin.Lib.JsonRoundTrip
import NDTwin.P4Table.Entry
import NDTwin.P4Table.Shaped

/-!
# What is shown of an entry is built again

Every value that a switch sends is shown in the one form that its width has: an address, a MAC
address, a number, or a number in hexadecimal.  The writer encodes each of these forms as the number
it was shown for, whatever bytes the switch sent for that number.

## Main definitions

* `P4Info.Unambiguous` — a pipeline whose names each mean one thing.
* `BuildsField`, `ShowsParam` — one field as it is built, one parameter as it is shown.

## Main results

* `encodeValue_renderValue` — **a value that is shown is encoded as the number that was sent.**
* `numbers_shapeField` — a field that is shown is built with the numbers that were sent.
* `buildMatch_eq_ok`, `buildMatch_perm` — a match is built field by field, in any order.
* `numbers_buildParams` — **the parameters of an action are built with the numbers that were sent.**
-/

namespace NDTwin.P4Table

variable {F : Type}

/-! ### Values -/

theorem strip_of_forall {cs : List Char}
    (h : ∀ c ∈ cs, PyInt.isSpace c = false ∧ ¬ (28 ≤ c.toNat ∧ c.toNat ≤ 31)) :
    Routing.strip cs = cs := by
  have hblank : ∀ l : List Char,
      (∀ c ∈ l, PyInt.isSpace c = false ∧ ¬ (28 ≤ c.toNat ∧ c.toNat ≤ 31)) →
      l.dropWhile (fun c => PyInt.isSpace c || (28 ≤ c.toNat && c.toNat ≤ 31)) = l := by
    intro l hl
    cases l with
    | nil => rfl
    | cons c l =>
      obtain ⟨hspace, hcontrol⟩ := hl c List.mem_cons_self
      rw [List.dropWhile_cons, if_neg]
      simp only [hspace, Bool.false_or, Bool.and_eq_true, decide_eq_true_eq]
      exact hcontrol
  show ((cs.dropWhile _).reverse.dropWhile _).reverse = cs
  rw [hblank cs h, hblank cs.reverse fun c hc => h c (List.mem_reverse.mp hc), List.reverse_reverse]

/-- The characters that values are shown with: digits in hexadecimal, and what separates them. -/
def isShown (c : Char) : Prop := c = '.' ∨ c = ':' ∨ c = 'x' ∨ ∃ d < 16, c = Nat.digitChar d

theorem not_blank_of_isShown {c : Char} (h : isShown c) :
    PyInt.isSpace c = false ∧ ¬ (28 ≤ c.toNat ∧ c.toNat ≤ 31) := by
  have hdigit : ∀ d < 16, PyInt.isSpace (Nat.digitChar d) = false ∧
      ¬ (28 ≤ (Nat.digitChar d).toNat ∧ (Nat.digitChar d).toNat ≤ 31) := by decide
  rcases h with rfl | rfl | rfl | ⟨d, hd, rfl⟩
  · decide
  · decide
  · decide
  · exact hdigit d hd

theorem isShown_of_isDigit {c : Char} (h : c.isDigit = true) : isShown c := by
  obtain ⟨hchar, hlt⟩ := Ipv4.digitChar_of_isDigit h
  exact .inr (.inr (.inr ⟨c.toNat - '0'.toNat, by omega, hchar.symm⟩))

/-- The width of a field that a value is shown for. -/
theorem maxValue_lt {n : ℕ} {bitwidth : ℤ} (h : ¬ maxValue bitwidth < (n : ℤ)) :
    n < 256 ^ byteWidth bitwidth := by
  have hle : n < 2 ^ bitwidth.toNat := by
    unfold maxValue at h
    have hcast : ((2 ^ bitwidth.toNat : ℕ) : ℤ) = 2 ^ bitwidth.toNat := Int.natCast_pow 2 _
    omega
  calc n < 2 ^ bitwidth.toNat := hle
    _ ≤ 2 ^ (8 * byteWidth bitwidth) := Nat.pow_le_pow_right (by decide) (by unfold byteWidth; omega)
    _ = 256 ^ byteWidth bitwidth := by rw [Nat.pow_mul]

theorem encodeInt_natCast {n : ℕ} {bitwidth : ℤ} (h : ¬ maxValue bitwidth < (n : ℤ)) :
    encodeInt (F := F) n bitwidth = .ok (Ipv4.toBytes (byteWidth bitwidth) n) := by
  rw [encodeInt, if_neg (by omega), if_neg h, Int.toNat_natCast]

theorem notMem_hexNumber {c : Char} (hx : c ≠ 'x') (hc : ∀ d < 16, Nat.digitChar d ≠ c) (n : ℕ) :
    c ∉ PyInt.hexNumber n := by
  rw [PyInt.hexNumber, List.mem_cons, List.mem_cons, not_or, not_or]
  refine ⟨(hc 0 (by decide)).symm, hx, ?_⟩
  intro hmem
  obtain ⟨d, hd, rfl⟩ := PyInt.mem_toDigits hmem
  exact hc d hd rfl

/-- A number in hexadecimal is encoded as the number. -/
theorem encodeText_hexNumber {n : ℕ} {bitwidth : ℤ} (h : ¬ maxValue bitwidth < (n : ℤ)) :
    encodeText (F := F) (PyInt.hexNumber n) bitwidth =
      .ok (Ipv4.toBytes (byteWidth bitwidth) n) := by
  rw [encodeText, if_neg (notMem_hexNumber (by decide) (by decide) n),
    if_neg (notMem_hexNumber (by decide) (by decide) n), PyInt.literal_hexNumber]
  exact encodeInt_natCast h

/-- An address is encoded as the bytes it is the text of. -/
theorem encodeText_ntoa {bytes : List ℕ} (hlen : bytes.length = 4) (hbytes : ∀ b ∈ bytes, b < 256) :
    encodeText (F := F) (Ipv4.ntoa bytes).toList 32 = .ok bytes := by
  have hpton := Ipv4.pton_ntoa hlen hbytes
  rw [encodeText, if_neg (Ipv4.notMem_ntoa (by decide) (by decide) bytes),
    if_pos (Ipv4.dot_mem_of_pton hpton), encodeAddress]
  simp only [ne_eq, not_true_eq_false, if_false, String.ofList_toList, Ipv4.aton_of_pton hpton,
    if_neg (Ipv4.notMem_ntoa (c := Char.ofNat 0) (by decide) (by decide) bytes)]

/-- The text of a MAC address, group by group. -/
theorem split_macText {bytes : List ℕ} (hne : bytes ≠ []) (hbytes : ∀ b ∈ bytes, b < 256) :
    Ipv4.split ':' (Ipv4.unsplit ':' (bytes.map PyBytes.hexByte)) = bytes.map PyBytes.hexByte := by
  have hcolon : ∀ {b : ℕ}, b < 256 → ':' ∉ PyBytes.hexByte b :=
    fun hb => PyBytes.notMem_hexByte (by decide) hb
  induction bytes with
  | nil => exact absurd rfl hne
  | cons b bytes ih =>
    have hb := hbytes b List.mem_cons_self
    cases bytes with
    | nil => exact Ipv4.split_of_notMem (hcolon hb)
    | cons b' bytes =>
      rw [List.map_cons, List.map_cons, Ipv4.unsplit, Ipv4.split_append (hcolon hb), ← List.map_cons,
        ih (by simp) fun x hx => hbytes x (List.mem_cons_of_mem _ hx)]
      · exact fun h => by cases h

/-- A MAC address is encoded as the bytes it is the text of. -/
theorem encodeText_macText {bytes : List ℕ} (hlen : bytes.length = 6)
    (hbytes : ∀ b ∈ bytes, b < 256) :
    encodeText (F := F) (Ipv4.unsplit ':' (bytes.map PyBytes.hexByte)) 48 = .ok bytes := by
  have hne : bytes ≠ [] := by
    rintro rfl
    cases hlen
  have hsplit := split_macText hne hbytes
  have hmem : ':' ∈ Ipv4.unsplit ':' (bytes.map PyBytes.hexByte) := by
    by_contra hnot
    rw [Ipv4.split_of_notMem hnot] at hsplit
    have := congrArg List.length hsplit
    simp [hlen] at this
  have hgroups : ((bytes.map PyBytes.hexByte).any fun g => decide (g.length ≠ 2)) = false := by
    simp [List.any_eq_false, PyBytes.hexByte]
  have hflatten : (bytes.map PyBytes.hexByte).flatten = bytes.flatMap PyBytes.hexByte := rfl
  rw [encodeText, if_pos hmem, encodeMac, hsplit]
  simp only [ne_eq, not_true_eq_false, if_false, List.length_map, hlen, hflatten,
    PyBytes.fromhex_hexBytes hbytes]
  rw [if_neg]
  simpa using hgroups

theorem encodeValue_str {bitwidth : ℤ} (hpos : 0 < bitwidth) (s : String) :
    encodeValue (F := F) (.str s) bitwidth = encodeText (Routing.strip s.toList) bitwidth :=
  if_neg (by omega)

theorem encodeValue_int {bitwidth : ℤ} (hpos : 0 < bitwidth) (n : ℤ) :
    encodeValue (F := F) (.int n) bitwidth = encodeInt n bitwidth :=
  if_neg (by omega)

theorem isShown_unsplit {sep : Char} (hsep : isShown sep) {fields : List (List Char)}
    (h : ∀ field ∈ fields, ∀ c ∈ field, isShown c) : ∀ c ∈ Ipv4.unsplit sep fields, isShown c := by
  induction fields with
  | nil => exact nofun
  | cons field fields ih =>
    cases fields with
    | nil => exact h field List.mem_cons_self
    | cons field' fields =>
      intro c hc
      rw [Ipv4.unsplit, List.mem_append, List.mem_cons] at hc
      · rcases hc with hc | rfl | hc
        · exact h field List.mem_cons_self c hc
        · exact hsep
        · exact ih (fun f hf => h f (List.mem_cons_of_mem _ hf)) c hc
      · exact fun heq => by cases heq

theorem isShown_toDigits (n : ℕ) : ∀ c ∈ Nat.toDigits 10 n, isShown c :=
  fun _ hc => isShown_of_isDigit (Nat.isDigit_of_mem_toDigits (by decide) (by decide) hc)

/-- **A value that is shown is encoded as the number that was sent.** -/
theorem encodeValue_renderValue {raw : List ℕ} {bitwidth : ℤ} {j : Json F}
    (h : renderValue raw bitwidth = .ok j) (hpos : 0 < bitwidth) :
    encodeValue (.ofJson j) bitwidth =
      .ok (Ipv4.toBytes (byteWidth bitwidth) (Ipv4.ofBytes raw)) ∧
    Ipv4.ofBytes (Ipv4.toBytes (byteWidth bitwidth) (Ipv4.ofBytes raw)) = Ipv4.ofBytes raw := by
  simp only [renderValue, if_neg (show ¬ bitwidth < 0 by omega)] at h
  split at h
  · cases h
  next hfits =>
  refine ⟨?_, Ipv4.ofBytes_toBytes (maxValue_lt hfits)⟩
  -- a text is read as it stands: it has no blanks around it
  have htext : ∀ cs : List Char, (∀ c ∈ cs, isShown c) →
      encodeText (F := F) cs bitwidth =
        .ok (Ipv4.toBytes (byteWidth bitwidth) (Ipv4.ofBytes raw)) →
      encodeValue (F := F) (.str (String.ofList cs)) bitwidth =
        .ok (Ipv4.toBytes (byteWidth bitwidth) (Ipv4.ofBytes raw)) := by
    intro cs hcs hencode
    rw [encodeValue_str hpos, String.toList_ofList,
      strip_of_forall fun c hc => not_blank_of_isShown (hcs c hc), hencode]
  split at h
  · next hwidth =>
    subst hwidth
    cases h
    refine htext _ (isShown_unsplit (.inl rfl) ?_) ?_
    · intro field hfield
      obtain ⟨b, -, rfl⟩ := List.mem_map.mp hfield
      exact isShown_toDigits b
    · have hencode := encodeText_ntoa (F := F) (Ipv4.length_toBytes 4 (Ipv4.ofBytes raw))
        (Ipv4.toBytes_lt 4 (Ipv4.ofBytes raw))
      rwa [Ipv4.ntoa, String.toList_ofList] at hencode
  split at h
  · next hwidth =>
    subst hwidth
    cases h
    refine htext _ (isShown_unsplit (.inr (.inl rfl)) ?_) ?_
    · intro field hfield c hc
      obtain ⟨b, hb, rfl⟩ := List.mem_map.mp hfield
      have hlt := Ipv4.toBytes_lt 6 (Ipv4.ofBytes raw) b hb
      rw [PyBytes.hexByte, List.mem_cons, List.mem_singleton] at hc
      rcases hc with rfl | rfl
      · exact .inr (.inr (.inr ⟨b / 16, by omega, rfl⟩))
      · exact .inr (.inr (.inr ⟨b % 16, by omega, rfl⟩))
    · exact encodeText_macText (Ipv4.length_toBytes 6 _) (Ipv4.toBytes_lt 6 _)
  split at h
  · cases h
    refine htext _ ?_ (encodeText_hexNumber hfits)
    intro c hc
    rw [PyInt.hexNumber, List.mem_cons, List.mem_cons] at hc
    rcases hc with rfl | rfl | hc
    · exact isShown_of_isDigit rfl
    · exact .inr (.inr (.inl rfl))
    · obtain ⟨d, hd, rfl⟩ := PyInt.mem_toDigits hc
      exact .inr (.inr (.inr ⟨d, hd, rfl⟩))
  · cases h
    exact (encodeValue_int hpos _).trans (encodeInt_natCast hfits)

/-- What is encoded of a value that is shown stands for what was sent. -/
theorem ofBytes_encodeValue {raw raw' : List ℕ} {bitwidth : ℤ} {j : Json F}
    (h : renderValue raw bitwidth = .ok j) (h' : encodeValue (.ofJson j) bitwidth = .ok raw') :
    Ipv4.ofBytes raw' = Ipv4.ofBytes raw := by
  obtain ⟨hencode, hvalue⟩ := encodeValue_renderValue h (pos_of_encodeValue h')
  rw [hencode] at h'
  cases h'
  exact hvalue

/-! ### Match fields -/

/-- A value that is shown is not a list. -/
theorem single_renderValue {raw : List ℕ} {bitwidth : ℤ} {j : Json F}
    (h : renderValue raw bitwidth = .ok j) (place kind : String) :
    single place kind (.ofJson j) = .ok (.ofJson j) := by
  unfold renderValue at h
  simp only at h
  split at h
  · cases h
  split at h
  · cases h
  split at h
  · cases h
    rfl
  split at h
  · cases h
    rfl
  split at h
  · cases h
    rfl
  · cases h
    rfl

/-- **A field that is shown is built with the numbers that were sent.** -/
theorem numbers_shapeField {place : String} {bitwidth : ℤ} {w w' : Wire} {j : Json F}
    (h : renderField bitwidth w = .ok j)
    (h' : shapeField place w.kind bitwidth (.ofJson j) = .ok w') : w'.numbers = w.numbers := by
  cases w with
  | exact value =>
    obtain ⟨v, hv, h'⟩ := Fallible.exists_of_bind_ok h'
    rw [single_renderValue h] at hv
    cases hv
    obtain ⟨raw, hraw, h'⟩ := Fallible.exists_of_bind_ok h'
    cases h'
    exact congrArg Numbers.exact (ofBytes_encodeValue h hraw)
  | optional value =>
    obtain ⟨v, hv, h'⟩ := Fallible.exists_of_bind_ok h'
    rw [single_renderValue h] at hv
    cases hv
    obtain ⟨raw, hraw, h'⟩ := Fallible.exists_of_bind_ok h'
    cases h'
    exact congrArg Numbers.optional (ofBytes_encodeValue h (encodeInField_ok hraw).1)
  | lpm value prefixLen =>
    obtain ⟨shown, hshown, h⟩ := Fallible.exists_of_bind_ok h
    cases h
    obtain ⟨p, hp, h'⟩ := Fallible.exists_of_bind_ok h'
    cases hp
    obtain ⟨len, hlen, h'⟩ := Fallible.exists_of_bind_ok h'
    obtain ⟨raw, hraw, h'⟩ := Fallible.exists_of_bind_ok h'
    obtain ⟨-, -, h'⟩ := Fallible.exists_of_bind_ok h'
    cases h'
    have hlen' : (PyData.int prefixLen : PyData F) = .int len := (shapePrefixLen_ok hlen).1
    cases hlen'
    rw [Wire.numbers, Wire.numbers, ofBytes_encodeValue hshown hraw]
  | ternary value mask =>
    obtain ⟨shown, hshown, h⟩ := Fallible.exists_of_bind_ok h
    obtain ⟨shownMask, hshownMask, h⟩ := Fallible.exists_of_bind_ok h
    cases h
    obtain ⟨p, hp, h'⟩ := Fallible.exists_of_bind_ok h'
    cases hp
    obtain ⟨raw, hraw, h'⟩ := Fallible.exists_of_bind_ok h'
    obtain ⟨rawMask, hrawMask, h'⟩ := Fallible.exists_of_bind_ok h'
    unfold shapeTernary at h'
    split at h'
    · cases h'
    split at h'
    · cases h'
    cases h'
    rw [Wire.numbers, Wire.numbers, ofBytes_encodeValue hshown (encodeInField_ok hraw).1,
      ofBytes_encodeValue hshownMask (encodeInField_ok hrawMask).1]
  | range low high =>
    obtain ⟨shown, hshown, h⟩ := Fallible.exists_of_bind_ok h
    obtain ⟨shownHigh, hshownHigh, h⟩ := Fallible.exists_of_bind_ok h
    cases h
    obtain ⟨p, hp, h'⟩ := Fallible.exists_of_bind_ok h'
    cases hp
    obtain ⟨raw, hraw, h'⟩ := Fallible.exists_of_bind_ok h'
    obtain ⟨rawHigh, hrawHigh, h'⟩ := Fallible.exists_of_bind_ok h'
    unfold shapeRange at h'
    split at h'
    · cases h'
    split at h'
    · cases h'
    cases h'
    rw [Wire.numbers, Wire.numbers, ofBytes_encodeValue hshown (encodeInField_ok hraw).1,
      ofBytes_encodeValue hshownHigh (encodeInField_ok hrawHigh).1]

/-! ### Matches -/

/-- A pipeline whose names each mean one thing, and whose tables have numbers of their own. -/
structure P4Info.Unambiguous (info : P4Info) : Prop where
  table_name : ∀ t ∈ info.tables, ∀ t' ∈ info.tables, ∀ name, name ≠ "" →
    t.preamble.goesBy name = true → t'.preamble.goesBy name = true → t = t'
  table_id : ∀ t ∈ info.tables, ∀ t' ∈ info.tables, t.preamble.id = t'.preamble.id → t = t'
  action_name : ∀ a ∈ info.actions, ∀ a' ∈ info.actions, ∀ name, name ≠ "" →
    a.preamble.goesBy name = true → a'.preamble.goesBy name = true → a = a'
  field_name : ∀ t ∈ info.tables, ∀ f ∈ t.matchFields, ∀ f' ∈ t.matchFields, f.name = f'.name →
    f = f'
  param_name : ∀ a ∈ info.actions, ∀ p ∈ a.params, ∀ p' ∈ a.params, p.name = p'.name → p = p'

/-- One member of a match and the field it is built as. -/
def BuildsField (table : Table) (member : String × PyData F) (fm : FieldMatch) : Prop :=
  ∃ f w, matchFieldByName (F := F) table member.1 = .ok f ∧
    shapeMember table.preamble.name table.matchFields member = .ok (member.1, w) ∧
    fm = ⟨f.id, some w⟩

theorem matchFieldByName_ok {table : Table} {name : String} {f : MatchField}
    (h : matchFieldByName (F := F) table name = .ok f) : f ∈ table.matchFields ∧ f.name = name := by
  unfold matchFieldByName at h
  split at h
  · next f' hf =>
    cases h
    exact ⟨List.mem_of_find?_eq_some hf, by simpa using List.find?_some hf⟩
  · cases h

/-- A member is built as the one field of its name. -/
theorem exists_of_buildsField {table : Table}
    (hname : ∀ f ∈ table.matchFields, ∀ f' ∈ table.matchFields, f.name = f'.name → f = f')
    {member : String × PyData F} {fm : FieldMatch} (h : BuildsField table member fm) :
    ∃ f ∈ table.matchFields, ∃ w, f.name = member.1 ∧
      shapeField (table.preamble.name ++ "." ++ member.1) f.matchType f.bitwidth member.2 = .ok w ∧
      fm = ⟨f.id, some w⟩ := by
  obtain ⟨f, w, hf, hshape, rfl⟩ := h
  obtain ⟨hmem, hfname⟩ := matchFieldByName_ok hf
  unfold shapeMember at hshape
  split at hshape
  · cases hshape
  next f' hf' =>
  have hmem' : f' ∈ table.matchFields := List.mem_reverse.mp (List.mem_of_find?_eq_some hf')
  have hfname' : f'.name = member.1 := by simpa using List.find?_some hf'
  obtain rfl := hname f' hmem' f hmem (hfname'.trans hfname.symm)
  obtain ⟨w', hw', hshape⟩ := Fallible.exists_of_bind_ok hshape
  cases hshape
  exact ⟨f', hmem', w, hfname', hw', rfl⟩

/-- **A match is built field by field**, if it is complete. -/
theorem buildMatch_eq_ok {table : Table} {members : List (String × PyData F)} {isDefault : Bool}
    {fields : List FieldMatch} :
    (∃ types, buildMatch table members isDefault = .ok (fields, types)) ↔
      List.Forall₂ (BuildsField table) members fields ∧
        Complete table.matchFields isDefault (members.map Prod.fst) := by
  constructor
  · rintro ⟨types, h⟩
    obtain ⟨resolved, hresolved, h⟩ := Fallible.exists_of_bind_ok h
    obtain ⟨shaped, hshaped, h⟩ := Fallible.exists_of_bind_ok h
    obtain ⟨fields', hfields, h⟩ := Fallible.exists_of_bind_ok h
    cases h
    have hresolve := Fallible.forall₂_of_mapM hresolved
    -- a name that is resolved is the name it was
    have hsame : resolved = members := by
      have hmap : members.map id = resolved.map id := by
        refine Fallible.map_eq_of_forall₂ (hresolve.imp ?_)
        intro m r hm
        obtain ⟨f, hf, hm⟩ := Fallible.exists_of_bind_ok hm
        cases hm
        rw [(matchFieldByName_ok hf).2]
      simpa using hmap.symm
    subst hsame
    obtain ⟨hshape, hcomplete⟩ := shapeMatch_eq_ok.mp hshaped
    refine ⟨Fallible.forall₂_trans ?_ hshape (Fallible.forall₂_of_mapM hfields), hcomplete⟩
    intro m s fm hm hs
    obtain ⟨f, hf, hs⟩ := Fallible.exists_of_bind_ok hs
    cases hs
    have hfst := shapeMember_fst hm
    exact ⟨f, s.2, hfst ▸ hf, hfst ▸ hm, rfl⟩
  · rintro ⟨h, hcomplete⟩
    have hsteps : List.Forall₂ (fun (m : String × PyData F) fm => ∃ s : String × Wire,
        (shapeMember table.preamble.name table.matchFields m = .ok s ∧
          ∃ f, matchFieldByName (F := F) table m.1 = .ok f) ∧
        (∃ f, matchFieldByName (F := F) table s.1 = .ok f ∧ fm = ⟨f.id, some s.2⟩)) members fields := by
      refine h.imp ?_
      rintro m fm ⟨f, w, hf, hs, rfl⟩
      exact ⟨(m.1, w), ⟨hs, f, hf⟩, f, hf, rfl⟩
    obtain ⟨shaped, hshape, hbuild⟩ := Fallible.forall₂_split hsteps
    have hresolved : members.mapM (fun m => do
        let f ← matchFieldByName (F := F) table m.1
        .ok (f.name, m.2)) = .ok members := by
      refine Fallible.mapM_of_forall₂ (List.forall₂_same.mpr fun m hm => ?_)
      obtain ⟨s, -, -, f, hf⟩ := Fallible.exists_mem_of_forall₂ hshape.flip hm
      rw [Fallible.bind_of_ok hf, (matchFieldByName_ok hf).2]
    have hshaped := shapeMatch_eq_ok.mpr ⟨hshape.imp fun m s hm => hm.1, hcomplete⟩
    have hfields : shaped.mapM (fun m => do
        let f ← matchFieldByName (F := F) table m.1
        .ok (⟨f.id, some m.2⟩ : FieldMatch)) = .ok fields := by
      refine Fallible.mapM_of_forall₂ (hbuild.imp ?_)
      rintro s fm ⟨f, hf, rfl⟩
      rw [Fallible.bind_of_ok hf]
    refine ⟨shaped.map fun m => (m.1, m.2.kind), ?_⟩
    rw [buildMatch, Fallible.bind_of_ok hresolved, Fallible.bind_of_ok hshaped,
      Fallible.bind_of_ok hfields]

/-- The order of a match is of no account. -/
theorem buildMatch_perm {table : Table} {members members' : List (String × PyData F)}
    {isDefault : Bool} {fields : List FieldMatch} {types : List (String × MatchType)}
    (h : buildMatch table members isDefault = .ok (fields, types)) (hperm : members'.Perm members) :
    ∃ fields' types', buildMatch table members' isDefault = .ok (fields', types') ∧
      fields'.Perm fields := by
  obtain ⟨hall, hcomplete⟩ := buildMatch_eq_ok.mp ⟨types, h⟩
  obtain ⟨fields', hall', hperm'⟩ := List.perm_comp_forall₂ hperm hall
  have hcomplete' : Complete table.matchFields isDefault (members'.map Prod.fst) :=
    hcomplete.imp_right fun hc f hf hexact => (hperm.map Prod.fst).mem_iff.mpr (hc f hf hexact)
  obtain ⟨types', h'⟩ := buildMatch_eq_ok.mpr ⟨hall', hcomplete'⟩
  exact ⟨fields', types', h', hperm'⟩

/-! ### Parameters -/

theorem actionParamByName_ok {action : ActionInfo} {name : String} {p : Param}
    (h : actionParamByName (F := F) action name = .ok p) : p ∈ action.params ∧ p.name = name := by
  unfold actionParamByName at h
  split at h
  · next p' hp =>
    cases h
    exact ⟨List.mem_of_find?_eq_some hp, by simpa using List.find?_some hp⟩
  · cases h

theorem buildParams_eq_ok {action : ActionInfo} {members : List (String × PyData F)}
    {values : List ParamValue} :
    buildParams action members = .ok values ↔
      (∀ p ∈ action.params, p.name ∈ members.map Prod.fst) ∧
        List.Forall₂ (fun m v => buildParam action m = .ok v) members values := by
  have hmissing : (action.params.filter fun p => p.name ∉ members.map Prod.fst).isEmpty = true ↔
      ∀ p ∈ action.params, p.name ∈ members.map Prod.fst := by
    rw [List.isEmpty_iff, List.filter_eq_nil_iff]
    simp only [decide_not, Bool.not_eq_true', decide_eq_false_iff_not, not_not]
  unfold buildParams
  simp only
  split
  · next h =>
    refine ⟨fun hok => ⟨hmissing.mp h, Fallible.forall₂_of_mapM hok⟩, ?_⟩
    intro hok
    exact Fallible.mapM_of_forall₂ hok.2
  · next h =>
    constructor
    · intro hok
      cases hok
    · exact fun hok => absurd (hmissing.mpr hok.1) h

theorem buildParams_perm {action : ActionInfo} {members members' : List (String × PyData F)}
    {values : List ParamValue} (h : buildParams action members = .ok values)
    (hperm : members'.Perm members) :
    ∃ values', buildParams action members' = .ok values' ∧ values'.Perm values := by
  obtain ⟨hnames, hall⟩ := buildParams_eq_ok.mp h
  obtain ⟨values', hall', hperm'⟩ := List.perm_comp_forall₂ hperm hall
  refine ⟨values', buildParams_eq_ok.mpr ⟨fun p hp => ?_, hall'⟩, hperm'⟩
  exact (hperm.map Prod.fst).mem_iff.mpr (hnames p hp)

/-- One parameter of an action and what it is shown as, of the values that a switch sent. -/
def ShowsParam (values : Dict ℕ (List ℕ)) (p : Param) (shown : String × Json F) : Prop :=
  shown.1 = p.name ∧ ∃ raw, values.get? p.id = some raw ∧ renderValue raw p.bitwidth = .ok shown.2

/-- Each parameter is taken out of what was sent once, and the rest is left. -/
theorem left_paramsAsWritten {place : String} {action : ActionInfo} {params : List Param}
    {values left : Dict ℕ (List ℕ)} {shown out : Dict String (Json F)}
    (h : paramsAsWritten place action params values shown = .ok (out, left)) :
    (∀ p ∈ params, (values.get? p.id).isSome) ∧ (params.map Param.id).Nodup ∧
      ∀ id, left.get? id = if id ∈ params.map Param.id then none else values.get? id := by
  induction params generalizing values shown with
  | nil =>
    cases h
    exact ⟨nofun, List.nodup_nil, fun id => rfl⟩
  | cons p params ih =>
    rw [paramsAsWritten] at h
    split at h
    · cases h
    next raw hraw =>
    obtain ⟨v, -, h⟩ := Fallible.exists_of_bind_ok h
    obtain ⟨hthere, hids, hleft⟩ := ih h
    -- a value that was taken out is not there a second time
    have hother : ∀ q ∈ params, q.id ≠ p.id := by
      intro q hq heq
      have := hthere q hq
      rw [Dict.get?_erase, if_pos heq] at this
      cases this
    refine ⟨fun q hq => ?_, List.nodup_cons.mpr ⟨fun hmem => ?_, hids⟩, fun id => ?_⟩
    · rcases List.mem_cons.mp hq with rfl | hq
      · rw [hraw]
        rfl
      · have := hthere q hq
        rwa [Dict.get?_erase, if_neg (hother q hq)] at this
    · obtain ⟨q, hq, heq⟩ := List.mem_map.mp hmem
      exact hother q hq heq
    · rw [hleft id, Dict.get?_erase, List.map_cons]
      by_cases hid : id = p.id
      · simp [hid]
      · simp [hid]

/-- **Each parameter is shown under its name**, where no two have the same. -/
theorem paramsAsWritten_ok {place : String} {action : ActionInfo} {params : List Param}
    {values left : Dict ℕ (List ℕ)} {shown out : Dict String (Json F)}
    (h : paramsAsWritten place action params values shown = .ok (out, left))
    (hnames : (params.map Param.name).Nodup) (hfresh : ∀ p ∈ params, p.name ∉ shown.keys) :
    ∃ vs, out.entries = shown.entries ++ vs ∧ List.Forall₂ (ShowsParam values) params vs := by
  induction params generalizing values shown with
  | nil =>
    cases h
    exact ⟨[], (List.append_nil _).symm, .nil⟩
  | cons p params ih =>
    rw [paramsAsWritten] at h
    split at h
    · cases h
    next raw hraw =>
    obtain ⟨v, hv, h⟩ := Fallible.exists_of_bind_ok h
    obtain ⟨hname, hnames⟩ := List.nodup_cons.mp hnames
    have hset : (shown.set p.name v).entries = shown.entries ++ [(p.name, v)] :=
      Dict.put_of_not_mem (hfresh p List.mem_cons_self) v
    have hfresh' : ∀ q ∈ params, q.name ∉ (shown.set p.name v).keys := by
      intro q hq
      have hne : q.name ≠ p.name := fun heq => hname (heq ▸ List.mem_map_of_mem hq)
      rw [Dict.keys, hset, List.map_append, List.mem_append, not_or]
      exact ⟨hfresh q (List.mem_cons_of_mem _ hq), by simpa using hne⟩
    obtain ⟨vs, hout, hall⟩ := ih h hnames hfresh'
    refine ⟨(p.name, v) :: vs, by rw [hout, hset, List.append_assoc]; rfl,
      .cons ⟨rfl, raw, hraw, hv⟩ (hall.imp ?_)⟩
    rintro q s ⟨hs, raw', hraw', hrender⟩
    rw [Dict.get?_erase] at hraw'
    split at hraw'
    · cases hraw'
    · exact ⟨hs, raw', hraw', hrender⟩

/-- The number and the value of a parameter. -/
def ParamValue.number (p : ParamValue) : ℕ × ℕ := (p.paramId, Ipv4.ofBytes p.value)

/-- The action that a switch sent, and the parameters it is built with once it is read back. -/
theorem numbers_buildParams {info : P4Info} (hinfo : info.Unambiguous) {action : ActionInfo}
    (ha : action ∈ info.actions) {params values : List ParamValue} {place : String}
    (hparams : (params.map ParamValue.paramId).Nodup) {shown : Dict String (Json F)}
    {left : Dict ℕ (List ℕ)}
    (h : paramsAsWritten place action action.params
      (Dict.ofList (params.map fun p => (p.paramId, p.value))) Dict.empty = .ok (shown, left))
    (hleft : left.entries = [])
    (hbuild : buildParams action (PyData.ofJsonFields shown.entries) = .ok values) :
    (values.map ParamValue.number).Perm (params.map ParamValue.number) := by
  set sent := Dict.ofList (params.map fun p => (p.paramId, p.value)) with hsent
  have hentries : sent.entries = params.map fun p => (p.paramId, p.value) := by
    refine Dict.entries_ofList ?_
    rw [List.map_map]
    exact hparams
  obtain ⟨hthere, hids, hrest⟩ := left_paramsAsWritten h
  have hnames : (action.params.map Param.name).Nodup :=
    List.Nodup.map_on (fun p hp p' hp' => hinfo.param_name action ha p hp p' hp')
      (List.Nodup.of_map _ hids)
  obtain ⟨vs, hvs, hshown⟩ := paramsAsWritten_ok h hnames (fun p _ => List.not_mem_nil)
  have hvs' : shown.entries = vs := hvs
  -- each parameter is built with the number that was sent for it
  have hvalues : values.map ParamValue.number = action.params.map fun p =>
      (p.id, Ipv4.ofBytes ((sent.get? p.id).getD [])) := by
    rw [hvs', PyData.ofJsonFields_eq] at hbuild
    have hbuilt := List.forall₂_map_left_iff.mp (buildParams_eq_ok.mp hbuild).2
    have hmem := (List.forall₂_and_left (p := (· ∈ action.params)) _ _).mpr ⟨fun p hp => hp, hshown⟩
    refine (Fallible.map_eq_of_forall₂ (Fallible.forall₂_trans ?_ hmem hbuilt)).symm
    rintro p v pv ⟨hp, hname, raw, hraw, hrender⟩ hpv
    obtain ⟨p', hp', hpv⟩ := Fallible.exists_of_bind_ok hpv
    obtain ⟨value, hvalue, hpv⟩ := Fallible.exists_of_bind_ok hpv
    cases hpv
    obtain ⟨hmem', hname'⟩ := actionParamByName_ok hp'
    obtain rfl : p' = p := hinfo.param_name action ha p' hmem' p hp (hname'.trans hname)
    rw [ParamValue.number, hraw, Option.getD_some, ofBytes_encodeValue hrender hvalue]
  rw [hvalues]
  have hnodup : (action.params.map fun p => (p.id, Ipv4.ofBytes ((sent.get? p.id).getD []))).Nodup := by
    refine List.Nodup.of_map Prod.fst ?_
    rw [List.map_map]
    exact hids
  have hnodup' : (params.map ParamValue.number).Nodup := by
    refine List.Nodup.of_map Prod.fst ?_
    rw [List.map_map]
    exact hparams
  have hget : ∀ q ∈ params, sent.get? q.paramId = some q.value := by
    intro q hq
    rw [← Dict.mem_entries_iff, hentries]
    exact List.mem_map.mpr ⟨q, hq, rfl⟩
  rw [List.perm_ext_iff_of_nodup hnodup hnodup']
  rintro ⟨id, n⟩
  rw [List.mem_map, List.mem_map]
  constructor
  · rintro ⟨p, hp, heq⟩
    obtain ⟨raw, hraw⟩ := Option.isSome_iff_exists.mp (hthere p hp)
    rw [← Dict.mem_entries_iff, hentries] at hraw
    obtain ⟨q, hq, hpair⟩ := List.mem_map.mp hraw
    have hid : q.paramId = p.id := congrArg Prod.fst hpair
    rw [← hid, hget q hq] at heq
    exact ⟨q, hq, heq⟩
  · rintro ⟨q, hq, heq⟩
    -- nothing of what was sent is left over
    have hdeclared : q.paramId ∈ action.params.map Param.id := by
      by_contra hnot
      have hnone := hrest q.paramId
      rw [if_neg hnot, hget q hq, Dict.get?, hleft] at hnone
      cases hnone
    obtain ⟨p, hp, hid⟩ := List.mem_map.mp hdeclared
    refine ⟨p, hp, ?_⟩
    rw [hid, hget q hq]
    exact heq

end NDTwin.P4Table
