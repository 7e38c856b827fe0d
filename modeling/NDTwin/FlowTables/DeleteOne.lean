import NDTwin.FlowTables.Accepted
import NDTwin.FlowTables.Conservation

/-!
# What a delete takes out of the cache

A delete goes to the switch as a job with the whole match of its entry, and with a priority only
where the entry has one.  In the cache the rows with the key of the entry are taken out, and a key
is less and more than a match: it leaves out most fields, and where an entry has no priority, no
protocol or no address it has a zero.

## Main definitions

* `Selected` — a row has all that a delete's job sends.
* `KeyReadable`, `SameKey` — the key of a row can be read, and two keys are one, field by field.
* `NamesNoMore` — a row has none of the fields of a key that the delete leaves open.
* `DeletesExactly` — the delete takes out the rows that are selected and nothing else.

## Main results

* `extractKey_eq_ok_iff` — a key, field by field.
* `deletesExactly_iff` — **exactly the selected rows are deleted where, of every row, the key says
  as much as the match.**
* `delete_keeps_priority` — a delete without a priority leaves a row of priority 10.
-/

namespace NDTwin.FlowTables

open Json

variable {F : Type} (native : Native F) (isSwitch : ℕ → Bool)

/-! ### Rows a delete selects -/

/-- The match of an entry or a row. -/
def matchOf (e : Json F) : Json F := (e.find "match").getD (.obj [])

/-- A number of an entry, a row or a match: zero where it is not there. -/
def intOf (x : Json F) (name : String) : ℤ := ((x.valueInt native.cast name 0).toOption).getD 0

/-- The network and mask of an address. -/
def Ipv4MatchValue.network (v : Ipv4MatchValue) : BitVec 32 × BitVec 32 :=
  (v.address &&& v.mask, v.mask)

/-- The network a match has under either name of an address: all of them where it has none. -/
def networkAt (m : Json F) (pair : String × String) : Option (BitVec 32 × BitVec 32) :=
  match (m.find pair.1).or (m.find pair.2) with
  | none => some (0, 0)
  | some v => (parseIpv4MatchValue v).map Ipv4MatchValue.network

/-- The two names of an address, for either of them. -/
def pairOf (name : String) : Option (String × String) :=
  ipv4MatchFieldPairs.find? fun pair => pair.1 = name ∨ pair.2 = name

/-- A match has a field: an address by its network, whichever way it is written, and anything else
as it is. -/
def HasField (m : Json F) (name : String) (v : Json F) : Prop :=
  match pairOf name with
  | some pair => ∃ a, parseIpv4MatchValue v = some a ∧ networkAt m pair = some a.network
  | none => m.find name = some v

/-- A row has every field of the match a job sends, and its priority where it sends one. -/
structure Selected (job : FlowJob F) (row : Json F) : Prop where
  fields : ∀ name v, job.matchFields.find name = some v → HasField (matchOf row) name v
  priority : job.priority ≠ -1 → intOf native row "priority" = job.priority

/-! ### Keys, field by field -/

/-- The protocol of a match, as the key has it. -/
def protoOf (m : Json F) : BitVec 8 := BitVec.ofInt 8 (intOf native m "ip_proto")

/-- The names of the ports that count for a protocol. -/
def portNames (proto : BitVec 8) : List String :=
  if proto = 6 then ["tcp_dst", "tcp_src"] else if proto = 17 then ["udp_dst", "udp_src"] else []

/-- What is read for the key of an entry or a row is a number. -/
structure KeyReadable (x : Json F) : Prop where
  tableId : ∃ n, x.valueInt native.cast "table_id" 0 = .ok n
  priority : ∃ n, x.valueInt native.cast "priority" 0 = .ok n
  ethType : ∃ n, (matchOf x).valueInt native.cast "eth_type" 0 = .ok n
  ipProto : ∃ n, (matchOf x).valueInt native.cast "ip_proto" 0 = .ok n
  ports : ∀ name ∈ portNames (protoOf native (matchOf x)),
    ∃ n, (matchOf x).valueInt native.cast name 0 = .ok n

/-- Two keys agree: table, priority, and the fields of the match, those that are not there as
zeros. -/
structure SameKey (e row : Json F) : Prop where
  tableId : intOf native row "table_id" = intOf native e "table_id"
  priority : intOf native row "priority" = intOf native e "priority"
  ethType : BitVec.ofInt 16 (intOf native (matchOf row) "eth_type") =
    BitVec.ofInt 16 (intOf native (matchOf e) "eth_type")
  ipProto : protoOf native (matchOf row) = protoOf native (matchOf e)
  dst : cachedIpv4Field native (matchOf row) "ipv4_dst" "nw_dst" =
    cachedIpv4Field native (matchOf e) "ipv4_dst" "nw_dst"
  src : cachedIpv4Field native (matchOf row) "ipv4_src" "nw_src" =
    cachedIpv4Field native (matchOf e) "ipv4_src" "nw_src"
  ports : ∀ name ∈ portNames (protoOf native (matchOf e)),
    BitVec.ofInt 16 (intOf native (matchOf row) name) =
      BitVec.ofInt 16 (intOf native (matchOf e) name)

/-- A row is in the table of a delete, has priority zero where the delete has none, and none of the
fields of a key that the delete leaves open. -/
structure NamesNoMore (e row : Json F) : Prop where
  tableId : intOf native row "table_id" = intOf native e "table_id"
  priority : e.find "priority" = none → intOf native row "priority" = 0
  ethType : (matchOf e).find "eth_type" = none →
    BitVec.ofInt 16 (intOf native (matchOf row) "eth_type") = 0
  ipProto : (matchOf e).find "ip_proto" = none → protoOf native (matchOf row) = 0
  dst : (matchOf e).find "ipv4_dst" = none → (matchOf e).find "nw_dst" = none →
    cachedIpv4Field native (matchOf row) "ipv4_dst" "nw_dst" = {}
  src : (matchOf e).find "ipv4_src" = none → (matchOf e).find "nw_src" = none →
    cachedIpv4Field native (matchOf row) "ipv4_src" "nw_src" = {}
  ports : ∀ name ∈ portNames (protoOf native (matchOf e)), (matchOf e).find name = none →
    BitVec.ofInt 16 (intOf native (matchOf row) name) = 0

/-- The ports of a key. -/
def portOf (m : Json F) (tcp udp : String) : BitVec 16 :=
  if protoOf native m = 6 then BitVec.ofInt 16 (intOf native m tcp)
  else if protoOf native m = 17 then BitVec.ofInt 16 (intOf native m udp)
  else 0

/-- The key of an entry or a row that can be read. -/
def keyFields (x : Json F) : RowKey where
  tableId := intOf native x "table_id"
  priority := intOf native x "priority"
  fk := {
    ethType := BitVec.ofInt 16 (intOf native (matchOf x) "eth_type")
    ipProto := protoOf native (matchOf x)
    tpDst := portOf native (matchOf x) "tcp_dst" "udp_dst"
    tpSrc := portOf native (matchOf x) "tcp_src" "udp_src" }
  dst := cachedIpv4Field native (matchOf x) "ipv4_dst" "nw_dst"
  src := cachedIpv4Field native (matchOf x) "ipv4_src" "nw_src"

variable {native isSwitch}

theorem intOf_of_ok {x : Json F} {name : String} {n : ℤ}
    (h : x.valueInt native.cast name 0 = .ok n) : intOf native x name = n := by
  rw [intOf, h]
  rfl

theorem matchKey_of_readable {x : Json F} (h : KeyReadable native x) :
    matchKey native (matchOf x) =
      .ok ((keyFields native x).fk, (keyFields native x).dst, (keyFields native x).src) := by
  obtain ⟨ethType, hethType⟩ := h.ethType
  obtain ⟨ipProto, hipProto⟩ := h.ipProto
  have hproto : protoOf native (matchOf x) = BitVec.ofInt 8 ipProto := by
    rw [protoOf, intOf_of_ok hipProto]
  have hports := h.ports
  rw [hproto] at hports
  unfold matchKey
  rw [Fallible.bind_of_ok hethType, Fallible.bind_of_ok hipProto]
  simp only [keyFields, portOf, hproto, intOf_of_ok hethType]
  -- the ports are read by the protocol
  by_cases h6 : BitVec.ofInt 8 ipProto = 6
  · simp only [h6, portNames, if_true, List.forall_mem_cons] at hports
    obtain ⟨⟨tpDst, htpDst⟩, ⟨tpSrc, htpSrc⟩, -⟩ := hports
    simp only [h6, if_true]
    rw [Fallible.bind_of_ok htpDst, Fallible.bind_of_ok htpSrc, intOf_of_ok htpDst,
      intOf_of_ok htpSrc]
    rfl
  · by_cases h17 : BitVec.ofInt 8 ipProto = 17
    · simp only [h17, portNames, if_neg (show ¬(17 : BitVec 8) = 6 by decide), if_true,
        List.forall_mem_cons] at hports
      obtain ⟨⟨tpDst, htpDst⟩, ⟨tpSrc, htpSrc⟩, -⟩ := hports
      simp only [h17, if_neg (show ¬(17 : BitVec 8) = 6 by decide), if_true]
      rw [Fallible.bind_of_ok htpDst, Fallible.bind_of_ok htpSrc, intOf_of_ok htpDst,
        intOf_of_ok htpSrc]
      rfl
    · simp only [if_neg h6, if_neg h17]
      rfl

/-- The ports that count were read, where the match was. -/
theorem ports_of_matchKey {m : Json F} {k : Classifier.FlowKey × CachedIpv4Field × CachedIpv4Field}
    (h : matchKey native m = .ok k) :
    (∃ n, m.valueInt native.cast "eth_type" 0 = .ok n) ∧
      (∃ n, m.valueInt native.cast "ip_proto" 0 = .ok n) ∧
      ∀ name ∈ portNames (protoOf native m), ∃ n, m.valueInt native.cast name 0 = .ok n := by
  unfold matchKey at h
  obtain ⟨ethType, hethType, h⟩ := Fallible.exists_of_bind_ok h
  obtain ⟨ipProto, hipProto, h⟩ := Fallible.exists_of_bind_ok h
  refine ⟨⟨ethType, hethType⟩, ⟨ipProto, hipProto⟩, ?_⟩
  have hproto : protoOf native m = BitVec.ofInt 8 ipProto := by rw [protoOf, intOf_of_ok hipProto]
  rw [hproto, portNames]
  simp only at h
  split at h
  · rename_i h6
    obtain ⟨tpDst, htpDst, h⟩ := Fallible.exists_of_bind_ok h
    obtain ⟨tpSrc, htpSrc, -⟩ := Fallible.exists_of_bind_ok h
    rw [if_pos h6]
    simp only [List.forall_mem_cons, List.not_mem_nil, false_imp_iff, implies_true, and_true]
    exact ⟨⟨tpDst, htpDst⟩, tpSrc, htpSrc⟩
  · rename_i h6
    rw [if_neg h6]
    split at h
    · rename_i h17
      obtain ⟨tpDst, htpDst, h⟩ := Fallible.exists_of_bind_ok h
      obtain ⟨tpSrc, htpSrc, -⟩ := Fallible.exists_of_bind_ok h
      rw [if_pos h17]
      simp only [List.forall_mem_cons, List.not_mem_nil, false_imp_iff, implies_true, and_true]
      exact ⟨⟨tpDst, htpDst⟩, tpSrc, htpSrc⟩
    · rename_i h17
      rw [if_neg h17]
      exact fun name hname => absurd hname List.not_mem_nil

/-- **A key, field by field**: it is read exactly where its numbers are. -/
theorem extractKey_eq_ok_iff {x : Json F} {key : RowKey} :
    extractKey native x = .ok key ↔ KeyReadable native x ∧ key = keyFields native x := by
  have hread : KeyReadable native x → extractKey native x = .ok (keyFields native x) := by
    intro h
    obtain ⟨tableId, htableId⟩ := h.tableId
    obtain ⟨priority, hpriority⟩ := h.priority
    refine extractKey_of_parts native ?_ ?_ (matchKey_of_readable h)
    · rw [htableId]
      exact congrArg Except.ok (intOf_of_ok htableId).symm
    · rw [hpriority]
      exact congrArg Except.ok (intOf_of_ok hpriority).symm
  constructor
  · intro h
    obtain ⟨htableId, hpriority, hmatch⟩ := extractKey_eq_ok native h
    obtain ⟨hethType, hipProto, hports⟩ := ports_of_matchKey hmatch
    have hreadable : KeyReadable native x :=
      ⟨⟨_, htableId⟩, ⟨_, hpriority⟩, hethType, hipProto, hports⟩
    rw [hread hreadable] at h
    exact ⟨hreadable, (Except.ok.inj h).symm⟩
  · rintro ⟨hreadable, rfl⟩
    exact hread hreadable

/-- Two keys are one exactly where they agree field by field. -/
theorem keyFields_eq_iff (e row : Json F) :
    keyFields native row = keyFields native e ↔ SameKey native e row := by
  simp only [keyFields, RowKey.mk.injEq, Classifier.FlowKey.mk.injEq, true_and, and_true]
  constructor
  · rintro ⟨htableId, hpriority, ⟨hethType, hipProto, htpSrc, htpDst⟩, hdst, hsrc⟩
    refine ⟨htableId, hpriority, hethType, hipProto, hdst, hsrc, ?_⟩
    rw [portOf, portOf, hipProto] at htpDst htpSrc
    intro name hname
    rw [portNames] at hname
    split at hname
    · rename_i h6
      rw [if_pos h6, if_pos h6] at htpDst htpSrc
      rcases List.mem_pair.mp hname with rfl | rfl
      · exact htpDst
      · exact htpSrc
    · rename_i h6
      rw [if_neg h6, if_neg h6] at htpDst htpSrc
      split at hname
      · rename_i h17
        rw [if_pos h17, if_pos h17] at htpDst htpSrc
        rcases List.mem_pair.mp hname with rfl | rfl
        · exact htpDst
        · exact htpSrc
      · exact absurd hname List.not_mem_nil
  · intro h
    have hport : ∀ tcp udp, tcp ∈ portNames 6 → udp ∈ portNames 17 →
        portOf native (matchOf row) tcp udp = portOf native (matchOf e) tcp udp := by
      intro tcp udp htcp hudp
      rw [portOf, portOf, h.ipProto]
      by_cases h6 : protoOf native (matchOf e) = 6
      · rw [if_pos h6, if_pos h6]
        exact h.ports tcp (h6 ▸ htcp)
      · rw [if_neg h6, if_neg h6]
        by_cases h17 : protoOf native (matchOf e) = 17
        · rw [if_pos h17, if_pos h17]
          exact h.ports udp (h17 ▸ hudp)
        · rw [if_neg h17, if_neg h17]
    exact ⟨h.tableId, h.priority, ⟨h.ethType, h.ipProto,
      hport "tcp_src" "udp_src" (by decide) (by decide),
      hport "tcp_dst" "udp_dst" (by decide) (by decide)⟩, h.dst, h.src⟩

/-! ### Keys and selected rows -/

theorem intOf_of_find {x y : Json F} {name : String} {v : Json F} (hx : x.find name = some v)
    (hy : y.find name = some v) : intOf native y name = intOf native x name := by
  cases x with
  | obj fields =>
    cases y with
    | obj fields' =>
      have hfields : fields.lookup name = some v := hx
      have hfields' : fields'.lookup name = some v := hy
      simp only [intOf, valueInt, hfields, hfields']
    | _ => cases hy
  | _ => cases hx

theorem intOf_of_find_none {x : Json F} {name : String} (h : x.find name = none) :
    intOf native x name = 0 := by
  cases x with
  | obj fields =>
    have hfields : fields.lookup name = none := h
    simp only [intOf, valueInt, hfields]
    rfl
  | _ => rfl

/-- The network of an address is what the cache compares. -/
theorem cachedIpv4Field_of_networkAt {m : Json F} {field older : String}
    {net : BitVec 32 × BitVec 32} (h : networkAt m (field, older) = some net) :
    cachedIpv4Field native m field older = ⟨net.1, net.2, ""⟩ := by
  unfold networkAt at h
  unfold cachedIpv4Field
  cases hfind : (m.find field).or (m.find older) with
  | none =>
    simp only [hfind, Option.some_inj] at h
    rw [← h]
  | some v =>
    simp only [hfind] at h ⊢
    obtain ⟨a, ha, rfl⟩ := Option.map_eq_some_iff.mp h
    rw [ha]
    rfl

/-- The job of a delete has its match, and no priority where the entry has none. -/
theorem job_of_shaped {e : Json F} {job : FlowJob F} (he : Shaped e)
    (hjob : makeDeleteJob native e = .ok job) :
    dpidOf native e = .ok job.dpid ∧ job.matchFields = matchOf e ∧
      (e.find "priority" = none → job.priority = -1) ∧
      (e.find "priority" ≠ none → job.priority ≠ -1 ∧ job.priority = intOf native e "priority") := by
  unfold makeDeleteJob at hjob
  obtain ⟨dpid, hdpid, hjob⟩ := Fallible.exists_of_bind_ok hjob
  obtain ⟨p, hp, hjob⟩ := Fallible.exists_of_bind_ok hjob
  obtain ⟨m, hm, hjob⟩ := Fallible.exists_of_bind_ok hjob
  cases hjob
  have hpriority := priority_of_valueInt he hp
  refine ⟨hdpid, value_eq hm, ?_, ?_⟩
  · intro hnone
    rw [hnone] at hpriority
    exact (Json.int.inj hpriority).symm
  · intro hsome
    obtain ⟨j, hj⟩ := Option.ne_none_iff_exists'.mp hsome
    obtain ⟨fields, rfl, -, hrange⟩ := he
    obtain ⟨n, rfl, hn⟩ := hrange j hj
    rw [hj] at hpriority
    obtain rfl := Json.int.inj hpriority
    refine ⟨show n ≠ -1 by omega, ?_⟩
    have hlookup : fields.lookup "priority" = some (.int n) := hj
    simp only [valueInt, hlookup] at hp
    simp only [intOf, valueInt, hlookup, hp]
    rfl

/-- A number that a match names is one that has its fields', and one that it does not name is zero
in both. -/
theorem number_eq {m m' : Json F} (hfields : ∀ name v, m.find name = some v → HasField m' name v)
    {name : String} (hname : pairOf name = none) {w : ℕ}
    (hzero : m.find name = none → BitVec.ofInt w (intOf native m' name) = 0) :
    BitVec.ofInt w (intOf native m' name) = BitVec.ofInt w (intOf native m name) := by
  cases hv : m.find name with
  | none =>
    rw [hzero hv, intOf_of_find_none hv]
    simp
  | some v =>
    have hhas := hfields name v hv
    simp only [HasField, hname] at hhas
    rw [intOf_of_find hv hhas]

/-- So it is with an address, which has two names. -/
theorem address_eq {m m' : Json F} (hfields : ∀ name v, m.find name = some v → HasField m' name v)
    {field older : String} (hfield : pairOf field = some (field, older))
    (holder : pairOf older = some (field, older))
    (hzero : m.find field = none → m.find older = none → cachedIpv4Field native m' field older = {}) :
    cachedIpv4Field native m' field older = cachedIpv4Field native m field older := by
  have hnamed : ∀ name v, pairOf name = some (field, older) → m.find name = some v →
      (m.find field).or (m.find older) = some v →
      cachedIpv4Field native m' field older = cachedIpv4Field native m field older := by
    intro name v hname hv hor
    have hhas := hfields name v hv
    simp only [HasField, hname] at hhas
    obtain ⟨a, ha, hrow⟩ := hhas
    have hown : networkAt m (field, older) = some a.network := by
      simp only [networkAt, hor, ha, Option.map_some]
    rw [cachedIpv4Field_of_networkAt hrow, cachedIpv4Field_of_networkAt hown]
  cases hv : m.find field with
  | some v => exact hnamed field v hfield hv (by rw [hv]; rfl)
  | none =>
    cases hv' : m.find older with
    | some v => exact hnamed older v holder hv' (by rw [hv, hv']; rfl)
    | none =>
      rw [hzero hv hv', cachedIpv4Field, hv, hv']
      rfl

theorem pairOf_portNames {proto : BitVec 8} {name : String} (h : name ∈ portNames proto) :
    pairOf name = none := by
  rw [portNames] at h
  split at h
  · rcases List.mem_pair.mp h with rfl | rfl <;> decide
  · split at h
    · rcases List.mem_pair.mp h with rfl | rfl <;> decide
    · exact absurd h List.not_mem_nil

/-- A row that has all a delete sends, and no more of what a key has, has its key. -/
theorem sameKey_of_selected {e row : Json F} {job : FlowJob F} (he : Shaped e)
    (hjob : makeDeleteJob native e = .ok job) (hselected : Selected native job row)
    (hmore : NamesNoMore native e row) : SameKey native e row := by
  obtain ⟨-, hmatch, -, hsome⟩ := job_of_shaped he hjob
  have hfields := hselected.fields
  rw [hmatch] at hfields
  refine ⟨hmore.tableId, ?_, number_eq hfields (by decide) hmore.ethType,
    number_eq hfields (by decide) hmore.ipProto,
    address_eq hfields (by decide) (by decide) hmore.dst,
    address_eq hfields (by decide) (by decide) hmore.src, ?_⟩
  · by_cases hp : e.find "priority" = none
    · rw [hmore.priority hp, intOf_of_find_none hp]
    · rw [hselected.priority (hsome hp).1, (hsome hp).2]
  · intro name hname
    exact number_eq hfields (pairOf_portNames hname) (hmore.ports name hname)

/-- A row with the key of a delete has no more of what a key has than the delete. -/
theorem SameKey.namesNoMore {e row : Json F} (h : SameKey native e row) :
    NamesNoMore native e row where
  tableId := h.tableId
  priority hnone := by rw [h.priority, intOf_of_find_none hnone]
  ethType hnone := by rw [h.ethType, intOf_of_find_none hnone]; simp
  ipProto hnone := by rw [h.ipProto, protoOf, intOf_of_find_none hnone]; simp
  dst hnone hnone' := by rw [h.dst, cachedIpv4Field, hnone, hnone']; rfl
  src hnone hnone' := by rw [h.src, cachedIpv4Field, hnone, hnone']; rfl
  ports name hname hnone := by rw [h.ports name hname, intOf_of_find_none hnone]; simp

/-! ### Deletes -/

variable (native isSwitch)

open Classical in
/-- A delete throws nothing, takes the rows that its job selects out of the rows of its switch, and
leaves the other switches alone. -/
def DeletesExactly (e : Json F) (job : FlowJob F) (cache : Cache F) (rows : List (Json F)) : Prop :=
  (deleteOne native isSwitch e cache).2 = none ∧
    flowsAt isSwitch job.dpid (deleteOne native isSwitch e cache).1 =
      some (.ok (.arr (rows.filter fun row => ¬Selected native job row))) ∧
    ∀ d ≠ job.dpid,
      flowsAt isSwitch d (deleteOne native isSwitch e cache).1 = flowsAt isSwitch d cache

variable {native isSwitch}

/-- The rows of a switch after a delete whose key can be read. -/
theorem deleteOne_spec {e : Json F} {dpid : ℕ} (hdpid : dpidOf native e = .ok dpid)
    (hkey : KeyReadable native e) {cache : Cache F} {rows : List (Json F)}
    (hrows : flowsAt isSwitch dpid cache = some (.ok (.arr rows))) :
    ((deleteOne native isSwitch e cache).2 = none ↔ ∀ row ∈ rows, KeyReadable native row) ∧
      ((deleteOne native isSwitch e cache).2 = none →
        ∀ d, flowsAt isSwitch d (deleteOne native isSwitch e cache).1 =
          if d = dpid then
            some (.ok (.arr (rows.filter fun row =>
              decide (keyOf? native row ≠ some (keyFields native e)))))
          else flowsAt isSwitch d cache) := by
  have hone : deleteOne native isSwitch e cache =
      withFlows isSwitch dpid (deleteFlow native (keyFields native e)) cache := by
    simp only [deleteOne, editByKey, hdpid, extractKey_eq_ok_iff.mpr ⟨hkey, rfl⟩]
  have hkeyed : Keyed native rows ↔ ∀ row ∈ rows, KeyReadable native row := by
    refine forall₂_congr ?_
    intro row _
    constructor
    · intro h
      obtain ⟨key, hkey⟩ := extractKey_of_isSome native h
      exact (extractKey_eq_ok_iff.mp hkey).1
    · intro h
      rw [(keyOf?_eq_some native).mpr (extractKey_eq_ok_iff.mpr ⟨h, rfl⟩)]
      rfl
  obtain ⟨hthrown, hleft⟩ := withFlows_spec isSwitch dpid (deleteFlow native (keyFields native e)) cache
  obtain ⟨hdelete, hdeleteLeft⟩ := deleteFlow_spec native (keyFields native e) (.arr rows)
  rw [hone, hthrown, hrows]
  refine ⟨hdelete.trans ((and_iff_right (by simp)).trans hkeyed), ?_⟩
  intro hnone d
  rw [hleft]
  by_cases hd : d = dpid
  · subst hd
    rw [if_pos rfl, if_pos rfl, hrows]
    have harr : ∃ xs, (deleteFlow native (keyFields native e) (.arr rows)).1 = .arr xs := ⟨_, rfl⟩
    obtain ⟨xs, hxs⟩ := harr
    have helements := (hdeleteLeft hnone).1
    rw [hxs] at helements
    show some (Except.ok (deleteFlow native (keyFields native e) (.arr rows)).1) = _
    rw [hxs]
    exact congrArg (fun ys => some (Except.ok (Json.arr ys))) helements
  · rw [if_neg hd, if_neg hd]

open Classical in
/-- **Exactly the selected rows are deleted where, of every row, the key says as much as the
match**: the keys of the delete and of every row can be read, a row with the delete's key has every
field the delete sends, and a row that has all the delete sends has no more of what a key has. -/
theorem deletesExactly_iff (native : Native F) (isSwitch : ℕ → Bool) (e : Json F) (job : FlowJob F)
    (cache : Cache F) (rows : List (Json F))
    (hshape : describeFlowEntryShapeProblem native e .delete = none)
    (hjob : makeDeleteJob native e = .ok job)
    (hrows : flowsAt isSwitch job.dpid cache = some (.ok (.arr rows))) :
    DeletesExactly native isSwitch e job cache rows ↔
      KeyReadable native e ∧ ∀ row ∈ rows, KeyReadable native row ∧
        (SameKey native e row →
          ∀ name v, (matchOf e).find name = some v → HasField (matchOf row) name v) ∧
        (Selected native job row → NamesNoMore native e row) := by
  have hshaped := describeFlowEntryShapeProblem_eq_none hshape
  obtain ⟨hdpid, hmatch, hnone, hsome⟩ := job_of_shaped hshaped hjob
  have hkeyOf : ∀ row, KeyReadable native row →
      (keyOf? native row = some (keyFields native e) ↔ SameKey native e row) := by
    intro row hrow
    rw [(keyOf?_eq_some native).mpr (extractKey_eq_ok_iff.mpr ⟨hrow, rfl⟩), Option.some_inj,
      keyFields_eq_iff]
  constructor
  · rintro ⟨hthrown, hleft, -⟩
    have hkey : KeyReadable native e := by
      by_contra hunread
      have herror : ∃ err, extractKey native e = .error err := by
        cases hextract : extractKey native e with
        | error err => exact ⟨err, rfl⟩
        | ok key => exact absurd (extractKey_eq_ok_iff.mp hextract).1 hunread
      obtain ⟨err, herr⟩ := herror
      simp only [deleteOne, editByKey, hdpid, herr] at hthrown
      cases hthrown
    obtain ⟨hreadable, hspec⟩ := deleteOne_spec hdpid hkey hrows
    have hfilter := hspec hthrown job.dpid
    rw [if_pos rfl, hleft, Option.some_inj, Except.ok.injEq, Json.arr.injEq] at hfilter
    refine ⟨hkey, ?_⟩
    intro row hrow
    have hrowKey := hreadable.mp hthrown row hrow
    -- a row is left by the one filter exactly where it is left by the other
    have hiff : Selected native job row ↔ SameKey native e row := by
      have hmem : row ∈ rows.filter (fun row => decide ¬Selected native job row) ↔
          row ∈ rows.filter (fun row => decide (keyOf? native row ≠ some (keyFields native e))) := by
        rw [hfilter]
      rw [List.mem_filter, List.mem_filter, decide_eq_true_iff, decide_eq_true_iff, ne_eq,
        hkeyOf row hrowKey] at hmem
      tauto
    refine ⟨hrowKey, ?_, ?_⟩
    · intro hsame
      rw [← hmatch]
      exact (hiff.mpr hsame).fields
    · intro hselected
      exact (hiff.mp hselected).namesNoMore
  · rintro ⟨hkey, hall⟩
    obtain ⟨hreadable, hspec⟩ := deleteOne_spec hdpid hkey hrows
    have hthrown := hreadable.mpr fun row hrow => (hall row hrow).1
    have hleft := hspec hthrown
    refine ⟨hthrown, ?_, ?_⟩
    · rw [hleft, if_pos rfl]
      refine congrArg (fun ys => some (Except.ok (Json.arr ys))) (List.filter_congr ?_)
      intro row hrow
      obtain ⟨hrowKey, hfields, hmore⟩ := hall row hrow
      refine decide_eq_decide.mpr (not_congr ?_)
      rw [hkeyOf row hrowKey]
      constructor
      · intro hsame
        refine ⟨hmatch ▸ hfields hsame, ?_⟩
        intro hnamed
        have hpriority : e.find "priority" ≠ none := fun h => hnamed (hnone h)
        rw [hsame.priority, (hsome hpriority).2]
      · intro hselected
        exact sameKey_of_selected hshaped hjob hselected (hmore hselected)
    · intro d hd
      rw [hleft, if_neg hd]

/-! ### Deletes of one rule -/

/-- A match on the packets to `10.0.0.0/24`, as a request writes it. -/
def subnetMatch : Json Empty := .obj [("eth_type", .int 2048), ("ipv4_dst", .str "10.0.0.0/24")]

/-- A row on the packets to a network, as it is polled. -/
def polledRow (network : String) (priority : ℤ) : Json Empty :=
  .obj [("actions", .arr [.str "OUTPUT:2"]),
    ("match", .obj [("eth_type", .int 2048), ("nw_dst", .str network)]),
    ("priority", .int priority), ("table_id", .int 0)]

/-- A cache with the rows of one switch. -/
def cacheOf (rows : List (Json Empty)) : Cache Empty :=
  [{ dpid := 1, flows := .obj [("1", .arr rows)] }]

theorem find_subnetMatch {name : String} {v : Json Empty} (h : subnetMatch.find name = some v) :
    (name = "eth_type" ∧ v = .int 2048) ∨ (name = "ipv4_dst" ∧ v = .str "10.0.0.0/24") := by
  have hmem := mem_of_lookup (show List.lookup name _ = some v from h)
  simpa using hmem

/-- A row on that network has every field of the match, although it writes the address another
way. -/
theorem hasField_polledRow (priority : ℤ) {name : String} {v : Json Empty}
    (h : subnetMatch.find name = some v) :
    HasField (matchOf (polledRow "10.0.0.0/255.255.255.0" priority)) name v := by
  rcases find_subnetMatch h with ⟨rfl, rfl⟩ | ⟨rfl, rfl⟩
  · rfl
  · refine ⟨⟨0x0a000000, 0xffffff00⟩, by decide +kernel, ?_⟩
    show networkAt (.obj [("eth_type", .int 2048), ("nw_dst", .str "10.0.0.0/255.255.255.0")])
      ("ipv4_dst", "nw_dst") = _
    decide +kernel

theorem keyReadable_polledRow (network : String) (priority : ℤ) :
    KeyReadable noFloats (polledRow network priority) where
  tableId := ⟨0, rfl⟩
  priority := ⟨_, rfl⟩
  ethType := ⟨2048, rfl⟩
  ipProto := ⟨0, rfl⟩
  ports _ hname := absurd hname List.not_mem_nil

/-- A delete with a priority. -/
def deleteTen : Json Empty := .obj [("dpid", .int 1), ("match", subnetMatch), ("priority", .int 10)]

/-- A delete without one. -/
def deleteAny : Json Empty := .obj [("dpid", .int 1), ("match", subnetMatch)]

theorem flowsAt_cacheOf (rows : List (Json Empty)) :
    flowsAt (fun _ => true) 1 (cacheOf rows) = some (.ok (.arr rows)) := rfl

/-- A delete with a priority takes out the row that has it, and leaves another network alone. -/
theorem deletesExactly_iff_ten :
    DeletesExactly noFloats (fun _ => true) deleteTen
      { dpid := 1, op := .delete, priority := 10, matchFields := subnetMatch }
      (cacheOf [polledRow "10.0.0.0/255.255.255.0" 10, polledRow "10.0.1.0/255.255.255.0" 10])
      [polledRow "10.0.0.0/255.255.255.0" 10, polledRow "10.0.1.0/255.255.255.0" 10] := by
  refine (deletesExactly_iff noFloats (fun _ => true) deleteTen _ _ _ (by decide +kernel) rfl
    (flowsAt_cacheOf _)).mpr ⟨⟨⟨0, rfl⟩, ⟨10, rfl⟩, ⟨2048, rfl⟩, ⟨0, rfl⟩,
      fun name hname => absurd hname List.not_mem_nil⟩, ?_⟩
  intro row hrow
  rcases List.mem_pair.mp hrow with rfl | rfl
  · refine ⟨keyReadable_polledRow _ _, fun _ name v hv => hasField_polledRow 10 hv, ?_⟩
    intro _
    refine ⟨rfl, nofun, nofun, fun _ => rfl, nofun, fun _ _ => rfl, ?_⟩
    exact fun name hname => absurd hname List.not_mem_nil
  · refine ⟨keyReadable_polledRow _ _, ?_, ?_⟩
    · intro hsame
      exact absurd hsame.dst (by decide +kernel)
    · intro hselected
      -- the networks differ
      obtain ⟨a, ha, hnetwork⟩ := hselected.fields "ipv4_dst" (.str "10.0.0.0/24") rfl
      have hparse : parseIpv4MatchValue (.str "10.0.0.0/24" : Json Empty) =
          some ⟨0x0a000000, 0xffffff00⟩ := by decide +kernel
      obtain rfl := Option.some_inj.mp (hparse.symm.trans ha)
      exact absurd hnetwork (by decide +kernel)

/-- A delete without a priority selects a row of any priority; in the cache one of priority 10
stays. -/
theorem delete_keeps_priority :
    describeFlowEntryShapeProblem noFloats deleteAny .delete = none ∧
      makeDeleteJob noFloats deleteAny =
        .ok { dpid := 1, op := .delete, priority := -1, matchFields := subnetMatch } ∧
      Selected noFloats { dpid := 1, op := .delete, priority := -1, matchFields := subnetMatch }
        (polledRow "10.0.0.0/255.255.255.0" 10) ∧
      flowsAt (fun _ => true) 1 (deleteOne noFloats (fun _ => true) deleteAny
        (cacheOf [polledRow "10.0.0.0/255.255.255.0" 10])).1 =
          some (.ok (.arr [polledRow "10.0.0.0/255.255.255.0" 10])) ∧
      ¬DeletesExactly noFloats (fun _ => true) deleteAny
        { dpid := 1, op := .delete, priority := -1, matchFields := subnetMatch }
        (cacheOf [polledRow "10.0.0.0/255.255.255.0" 10])
        [polledRow "10.0.0.0/255.255.255.0" 10] := by
  have hselected : Selected noFloats
      { dpid := 1, op := .delete, priority := -1, matchFields := subnetMatch }
      (polledRow "10.0.0.0/255.255.255.0" 10) :=
    ⟨fun name v hv => hasField_polledRow 10 hv, fun hne => absurd rfl hne⟩
  have hkey : KeyReadable noFloats deleteAny :=
    ⟨⟨0, rfl⟩, ⟨0, rfl⟩, ⟨2048, rfl⟩, ⟨0, rfl⟩, fun name hname => absurd hname List.not_mem_nil⟩
  obtain ⟨hreadable, hleft⟩ := deleteOne_spec (show dpidOf noFloats deleteAny = .ok 1 from rfl) hkey
    (flowsAt_cacheOf [polledRow "10.0.0.0/255.255.255.0" 10])
  have hthrown := hreadable.mpr fun row hrow => List.mem_singleton.mp hrow ▸ keyReadable_polledRow _ _
  have hkept : keyOf? noFloats (polledRow "10.0.0.0/255.255.255.0" 10) ≠
      some (keyFields noFloats deleteAny) := by
    decide +kernel
  have hstays := hleft hthrown 1
  rw [if_pos rfl, List.filter_cons_of_pos (by simpa using hkept), List.filter_nil] at hstays
  refine ⟨by decide +kernel, rfl, hselected, hstays, ?_⟩
  rintro ⟨-, hdeleted, -⟩
  rw [hstays, List.filter_cons_of_neg (by simpa using hselected)] at hdeleted
  cases hdeleted

end NDTwin.FlowTables
