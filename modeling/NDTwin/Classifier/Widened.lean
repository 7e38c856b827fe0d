import NDTwin.Classifier.Adoption
import NDTwin.Classifier.FailedPolls
import NDTwin.Classifier.MatchMeaning

/-!
# An address that cannot be read

A number that cannot be read ends the poll, but an address that cannot be read is left out of the
mask, and the entry is held as a rule on every address.  The rule is as narrow as the entry only
where the name that was rejected is not the one that counts, or where something else of the entry
ends the poll.

## Main definitions

* `Side` — the source or the destination address.
* `EntryReadable` — everything of an entry that may throw can be read.
* `NamesRejected` — the entry has an address of that side that is rejected.
* `HoldsWidened` — the rule of the entry is held and does not look at that address.

## Main results

* `parseRuleFromJson_spec`, `exists_parseRuleFromJson` — the mask of a rule, and where there is one.
* `ignores_iff` — a rule does not look at an address exactly where its mask has no bit there.
* `never_widened_iff` — **no widened rule is ever held exactly where the entry is not read, or the
  name that counts has an address with a mask.**
* `widened_held` — an entry to `10.0.0.300` is held as a rule on every destination.
-/

namespace NDTwin.Classifier

variable {F : Type}

/-! ### Reading an entry -/

/-- The match of an entry: empty where it has no match object. -/
def matchOf (flow : Json F) : Json F :=
  match find flow "match" with
  | some (.obj fields) => .obj fields
  | _ => .obj []

/-- Everything of an entry that may throw can be read. -/
structure EntryReadable (flow : Json F) : Prop where
  tableId : ∀ j, find flow "table_id" = some j → ∃ v, parseU64 j = .ok v
  priority : ∀ j, find flow "priority" = some j → ∃ v, parseI32 j = .ok v
  fields : Readable (matchOf flow)
  gotoTable : ∀ instructions, find flow "instructions" = some (.arr instructions) →
    ∀ ins ∈ instructions, find ins "type" = some (.str "GOTO_TABLE") →
    ∀ j, find ins "table_id" = some j → ∃ v, parseU64 j = .ok v

theorem parseMatch_eq (flow : Json F) :
    parseMatch flow = buildMaskAndValueFromMatch (matchOf flow) := by
  unfold parseMatch matchOf
  cases find flow "match" with
  | none => rfl
  | some j => cases j <;> rfl

/-- An instruction throws only where it goes on to a table that cannot be read. -/
theorem gotoTable?_ok_iff (ins : Json F) :
    (∃ t, gotoTable? ins = .ok t) ↔ (find ins "type" = some (.str "GOTO_TABLE") →
      ∀ j, find ins "table_id" = some j → ∃ v, parseU64 j = .ok v) := by
  unfold gotoTable?
  split
  · rename_i t j ht hj
    rw [ht, hj]
    by_cases hgoto : t = "GOTO_TABLE"
    · subst hgoto
      rw [if_pos rfl]
      constructor
      · rintro ⟨t, h⟩ - j' hj'
        obtain ⟨v, hv, -⟩ := Fallible.exists_of_bind_ok h
        rw [← Option.some_inj.mp hj']
        exact ⟨v, hv⟩
      · intro h
        obtain ⟨v, hv⟩ := h rfl j rfl
        exact ⟨_, Fallible.bind_of_ok hv⟩
    · rw [if_neg hgoto]
      refine ⟨?_, fun _ => ⟨none, rfl⟩⟩
      intro _ htype
      cases htype
      exact absurd rfl hgoto
  · rename_i hnone
    refine ⟨?_, fun _ => ⟨none, rfl⟩⟩
    intro _ htype j hj
    exact absurd hj (hnone _ _ htype)

theorem parseInstruction_ok_iff (effect : RuleEffect) (ins : Json F) :
    (∃ effect', parseInstruction effect ins = .ok effect') ↔ ∃ t, gotoTable? ins = .ok t := by
  unfold parseInstruction
  constructor
  · rintro ⟨effect', h⟩
    obtain ⟨t, ht, -⟩ := Fallible.exists_of_bind_ok h
    exact ⟨t, ht⟩
  · rintro ⟨t, ht⟩
    rw [Fallible.bind_of_ok ht]
    cases find ins "actions" with
    | none => exact ⟨_, rfl⟩
    | some actions => exact ⟨_, rfl⟩

/-- Instructions are read to their end where each of them can be. -/
theorem foldlM_parseInstruction_ok_iff (instructions : List (Json F)) (effect : RuleEffect) :
    (∃ effect', instructions.foldlM parseInstruction effect = .ok effect') ↔
      ∀ ins ∈ instructions, ∃ t, gotoTable? ins = .ok t := by
  induction instructions generalizing effect with
  | nil => exact ⟨fun _ ins hins => absurd hins List.not_mem_nil, fun _ => ⟨effect, rfl⟩⟩
  | cons ins instructions ih =>
    rw [List.forall_mem_cons, ← parseInstruction_ok_iff effect, List.foldlM_cons]
    constructor
    · rintro ⟨effect', h⟩
      obtain ⟨effect₁, h₁, h₂⟩ := Fallible.exists_of_bind_ok h
      exact ⟨⟨effect₁, h₁⟩, (ih effect₁).mp ⟨effect', h₂⟩⟩
    · rintro ⟨⟨effect₁, h₁⟩, hrest⟩
      rw [Fallible.bind_of_ok h₁]
      exact (ih effect₁).mpr hrest

theorem parseEffectFromFlowEntry_ok_iff (flow : Json F) :
    (∃ effect, parseEffectFromFlowEntry flow = .ok effect) ↔
      ∀ instructions, find flow "instructions" = some (.arr instructions) →
        ∀ ins ∈ instructions, find ins "type" = some (.str "GOTO_TABLE") →
        ∀ j, find ins "table_id" = some j → ∃ v, parseU64 j = .ok v := by
  unfold parseEffectFromFlowEntry
  simp only
  split
  · rename_i instructions hinstructions
    rw [foldlM_parseInstruction_ok_iff, hinstructions]
    simp only [gotoTable?_ok_iff, Option.some_inj, Json.arr.injEq]
    exact ⟨fun h xs hxs => hxs ▸ h, fun h => h instructions rfl⟩
  · rename_i hnone
    exact ⟨fun _ xs hxs => absurd hxs (hnone xs), fun _ => ⟨_, rfl⟩⟩

/-- The table of an entry. -/
def tableIdOf (flow : Json F) : Except Thrown (BitVec 8) :=
  match find flow "table_id" with
  | some j => do return (← parseU64 j).setWidth 8
  | none => .ok 0

/-- The priority of an entry. -/
def priorityOf (flow : Json F) : Except Thrown ℤ :=
  match find flow "priority" with
  | some j => parseI32 j
  | none => .ok 0

theorem parseRuleFromJson_eq (flow : Json F) :
    parseRuleFromJson flow = do
      let tableId ← tableIdOf flow
      let priority ← priorityOf flow
      let b ← buildMaskAndValueFromMatch (matchOf flow)
      let effect ← parseEffectFromFlowEntry flow
      return {
        tableId, priority, effect
        mask := packKey b.mask
        maskedValue := packKey b.value &&& packKey b.mask } := by
  rw [← parseMatch_eq]
  unfold parseRuleFromJson tableIdOf priorityOf
  cases find flow "table_id" with
  | none => cases find flow "priority" <;> rfl
  | some j =>
    simp only [bind_assoc, pure_bind]
    cases find flow "priority" <;> rfl

theorem tableIdOf_ok_iff (flow : Json F) :
    (∃ t, tableIdOf flow = .ok t) ↔
      ∀ j, find flow "table_id" = some j → ∃ v, parseU64 j = .ok v := by
  unfold tableIdOf
  cases find flow "table_id" with
  | none => exact ⟨fun _ j hj => (by cases hj), fun _ => ⟨0, rfl⟩⟩
  | some j =>
    constructor
    · rintro ⟨t, ht⟩ j' hj'
      obtain ⟨v, hv, -⟩ := Fallible.exists_of_bind_ok ht
      rw [← Option.some_inj.mp hj']
      exact ⟨v, hv⟩
    · intro h
      obtain ⟨v, hv⟩ := h j rfl
      exact ⟨_, Fallible.bind_of_ok hv⟩

theorem priorityOf_ok_iff (flow : Json F) :
    (∃ p, priorityOf flow = .ok p) ↔
      ∀ j, find flow "priority" = some j → ∃ v, parseI32 j = .ok v := by
  unfold priorityOf
  cases find flow "priority" with
  | none => exact ⟨fun _ j hj => (by cases hj), fun _ => ⟨0, rfl⟩⟩
  | some j => exact ⟨fun h j' hj' => Option.some_inj.mp hj' ▸ h, fun h => h j rfl⟩

/-- **A rule that is read has the mask and value of the entry's match**, and all of the entry can
be read. -/
theorem parseRuleFromJson_spec {flow : Json F} {r : Rule} (h : parseRuleFromJson flow = .ok r) :
    r.mask = packKey (maskOf (matchOf flow)) ∧
      r.maskedValue = packKey (valueOf (matchOf flow)) &&& packKey (maskOf (matchOf flow)) ∧
      EntryReadable flow := by
  rw [parseRuleFromJson_eq] at h
  obtain ⟨tableId, htable, h⟩ := Fallible.exists_of_bind_ok h
  obtain ⟨priority, hpriority, h⟩ := Fallible.exists_of_bind_ok h
  obtain ⟨b, hb, h⟩ := Fallible.exists_of_bind_ok h
  obtain ⟨effect, heffect, h⟩ := Fallible.exists_of_bind_ok h
  obtain ⟨rfl, hreadable⟩ := built_spec hb
  cases h
  exact ⟨rfl, rfl, (tableIdOf_ok_iff flow).mp ⟨tableId, htable⟩,
    (priorityOf_ok_iff flow).mp ⟨priority, hpriority⟩, hreadable,
    (parseEffectFromFlowEntry_ok_iff flow).mp ⟨effect, heffect⟩⟩

/-- An entry that can be read is a rule. -/
theorem exists_parseRuleFromJson {flow : Json F} (h : EntryReadable flow) :
    ∃ r, parseRuleFromJson flow = .ok r := by
  obtain ⟨tableId, htable⟩ := (tableIdOf_ok_iff flow).mpr h.tableId
  obtain ⟨priority, hpriority⟩ := (priorityOf_ok_iff flow).mpr h.priority
  obtain ⟨b, hb⟩ := exists_built h.fields
  obtain ⟨effect, heffect⟩ := (parseEffectFromFlowEntry_ok_iff flow).mpr h.gotoTable
  rw [parseRuleFromJson_eq, Fallible.bind_of_ok htable, Fallible.bind_of_ok hpriority,
    Fallible.bind_of_ok hb, Fallible.bind_of_ok heffect]
  exact ⟨_, rfl⟩

/-! ### Rules that do not look at an address -/

/-- The source or the destination address. -/
inductive Side where
  | src
  | dst
  deriving DecidableEq, Repr

/-- The name of an address in a match that counts where it is there. -/
def Side.name : Side → String
  | .src => "ipv4_src"
  | .dst => "ipv4_dst"

/-- The older name of an address, which counts where the other is not there. -/
def Side.olderName : Side → String
  | .src => "nw_src"
  | .dst => "nw_dst"

/-- The names of an address in a match. -/
def Side.names (side : Side) : List String := [side.name, side.olderName]

/-- The address of a packet. -/
def Side.get (side : Side) (key : FlowKey) : BitVec 32 :=
  match side with
  | .src => key.ipv4Src
  | .dst => key.ipv4Dst

/-- A packet with another address. -/
def Side.set (side : Side) (key : FlowKey) (addr : BitVec 32) : FlowKey :=
  match side with
  | .src => { key with ipv4Src := addr }
  | .dst => { key with ipv4Dst := addr }

/-- A rule that matches a packet whatever its address is. -/
def IgnoresAddress (side : Side) (r : Rule) : Prop :=
  ∀ key addr, r.maskedValue = packKey key &&& r.mask ↔
    r.maskedValue = packKey (side.set key addr) &&& r.mask

theorem Side.and_set (side : Side) (key mask : FlowKey) (addr : BitVec 32) :
    (side.set key addr).and mask = side.set (key.and mask) (addr &&& side.get mask) := by
  cases side <;> rfl

theorem Side.set_get (side : Side) (key : FlowKey) : side.set key (side.get key) = key := by
  cases side <;> rfl

theorem Side.get_set (side : Side) (key : FlowKey) (addr : BitVec 32) :
    side.get (side.set key addr) = addr := by
  cases side <;> rfl

theorem Side.get_and (side : Side) (key mask : FlowKey) :
    side.get (key.and mask) = side.get key &&& side.get mask := by
  cases side <;> rfl

/-- A rule does not look at an address exactly where its mask has no bit there. -/
theorem ignores_iff (side : Side) {r : Rule} {mask value : FlowKey} (hmask : r.mask = packKey mask)
    (hvalue : r.maskedValue = packKey value &&& packKey mask) :
    IgnoresAddress side r ↔ side.get mask = 0 := by
  have hmatches : ∀ key : FlowKey,
      r.maskedValue = packKey key &&& r.mask ↔ value.and mask = key.and mask := by
    intro key
    rw [hmask, hvalue, packKey_and, packKey_and]
    exact ⟨packKey_inj, congrArg packKey⟩
  unfold IgnoresAddress
  simp only [hmatches, Side.and_set]
  constructor
  · intro h
    -- the value itself matches, so it matches with all bits of its address turned
    have hturned := (h value (~~~ side.get value)).mp rfl
    have hbits : side.get value &&& side.get mask = ~~~ side.get value &&& side.get mask := by
      rw [← Side.get_and, hturned, Side.get_set]
    refine BitVec.eq_of_getLsbD_eq ?_
    intro i hi
    have hbit := congrArg (fun x => x.getLsbD i) hbits
    simp only [BitVec.getLsbD_and, BitVec.getLsbD_not, hi, decide_true, Bool.true_and] at hbit
    cases hm : (side.get mask).getLsbD i with
    | false => simp
    | true => cases hv : (side.get value).getLsbD i <;> simp [hm, hv] at hbit
  · intro hzero key addr
    have hset : side.set (key.and mask) (addr &&& side.get mask) = key.and mask := by
      have hget : addr &&& side.get mask = side.get (key.and mask) := by
        rw [Side.get_and, hzero]
        simp
      rw [hget, Side.set_get]
    rw [hset]

/-! ### Held rules -/

/-- An entry has an address of one side that is rejected. -/
def NamesRejected (side : Side) (flow : Json F) : Prop :=
  ∃ name ∈ side.names, ∃ j, find (matchOf flow) name = some j ∧
    ∀ p, parseIpv4WithMaskOrPrefix j ≠ .ok (some p)

/-- The rule of an entry is held for a switch and does not look at the address. -/
def HoldsWidened (side : Side) (flow : Json F) (switches : Switches) (dpid : BitVec 64) : Prop :=
  ∃ r, parseRuleFromJson flow = .ok r ∧ heldOf switches dpid r.id = some r ∧ IgnoresAddress side r

theorem Side.get_maskOf (side : Side) (m : Json F) :
    side.get (maskOf m) = ((address (firstOf m side.names)).map Prod.snd).getD 0 := by
  cases side <;> rfl

theorem call_of_poll {switches switches' : Switches} {p : Sorter × Json F}
    (h : poll switches p = some switches') : call switches p = switches' := by
  unfold poll at h
  unfold call
  cases hupdate : updateFromQueriedTables p.1 switches p.2 with
  | mk s thrown =>
    rw [hupdate] at h
    cases thrown with
    | none => exact Option.some_inj.mp h
    | some e => cases h

/-- An entry that can be read is held after one poll that reports it. -/
theorem heldOf_onePoll {flow : Json F} {r : Rule} (hr : parseRuleFromJson flow = .ok r)
    (dpid : BitVec 64) : heldOf (afterCalls [onePoll dpid flow]) dpid r.id = some r := by
  obtain ⟨s, hs⟩ := poll_onePoll ∅ dpid hr
  have hcalls : ∀ p : Sorter × Json F, afterCalls [p] = call ∅ p := fun p => rfl
  have hnew : Switches.Good ∅ := fun _ _ h => by cases h
  rw [hcalls, call_of_poll hs, (poll_spec hnew hs).2,
    foldl_applyTo_reportsOnly (reportsOnly_onePoll dpid flow) hr, refresh_singleton, if_pos rfl]
  rfl

/-- The address is there under the name that counts, can be read, and its mask has a bit. -/
def AddressConstrains (side : Side) (flow : Json F) : Prop :=
  ∃ j addr mask, find (matchOf flow) side.name = some j ∧
    parseIpv4WithMaskOrPrefix j = .ok (some (addr, mask)) ∧ mask ≠ 0

/-- An address reaches the mask under the name that counts alone, where the other is rejected. -/
theorem addressConstrains_iff {side : Side} {flow : Json F} (h : NamesRejected side flow) :
    AddressConstrains side flow ↔ side.get (maskOf (matchOf flow)) ≠ 0 := by
  rw [Side.get_maskOf, address, AddressConstrains, Side.names, firstOf_cons, firstOf_cons,
    firstOf_nil, Option.or_none]
  cases hname : find (matchOf flow) side.name with
  | none =>
    -- the name that counts is not there, so the older one was rejected
    obtain ⟨name, hmem, j, hj, hrejected⟩ := h
    rcases List.mem_pair.mp hmem with rfl | rfl
    · rw [hname] at hj
      cases hj
    · rw [hj]
      cases hp : parseIpv4WithMaskOrPrefix j with
      | error e => simp [hp, Except.toOption]
      | ok p =>
        cases p with
        | none => simp [hp, Except.toOption]
        | some p => exact absurd hp (hrejected p)
  | some j =>
    cases hp : parseIpv4WithMaskOrPrefix j with
    | error e => simp [hp, Except.toOption]
    | ok p =>
      rcases p with _ | ⟨addr, mask⟩
      · simp [hp, Except.toOption]
      · simp [hp, Except.toOption]

/-- **An entry with an address that is rejected is never held as a rule on every address exactly
where it is not read at all, or has the address once more, under the name that counts and with a
mask.** -/
theorem never_widened_iff (side : Side) (flow : Json F) (h : NamesRejected side flow) :
    (∀ (calls : List (Sorter × Json F)) (dpid : BitVec 64),
      ¬HoldsWidened side flow (afterCalls calls) dpid) ↔
    ¬EntryReadable flow ∨ AddressConstrains side flow := by
  rw [addressConstrains_iff h]
  constructor
  · intro hnever
    by_contra hcontra
    obtain ⟨hreadable, hmask⟩ := not_or.mp hcontra
    obtain ⟨r, hr⟩ := exists_parseRuleFromJson (not_not.mp hreadable)
    obtain ⟨hrmask, hrvalue, -⟩ := parseRuleFromJson_spec hr
    exact hnever [onePoll 0 flow] 0
      ⟨r, hr, heldOf_onePoll hr 0, (ignores_iff side hrmask hrvalue).mpr (not_not.mp hmask)⟩
  · rintro hcond calls dpid ⟨r, hr, -, hignores⟩
    obtain ⟨hrmask, hrvalue, hreadable⟩ := parseRuleFromJson_spec hr
    rcases hcond with hunread | hmask
    · exact hunread hreadable
    · exact hmask ((ignores_iff side hrmask hrvalue).mp hignores)

/-- An entry to an address that is none, and to one that is, under the other name. -/
def rowTo (fields : List (String × Json Empty)) : Json Empty :=
  .obj [("priority", .int 10), ("match", .obj fields), ("actions", .arr [.str "OUTPUT:5"])]

theorem namesRejected_rowTo {fields : List (String × Json Empty)}
    (h : fields.lookup "nw_dst" = some (.str "10.0.0.300")) : NamesRejected .dst (rowTo fields) := by
  refine ⟨"nw_dst", by decide, .str "10.0.0.300", h, ?_⟩
  intro p hp
  have hnone : parseIpv4WithMaskOrPrefix (.str "10.0.0.300" : Json Empty) = .ok none := by
    decide +kernel
  rw [hnone] at hp
  cases hp

/-- A rejected address beside a readable one under the name that counts widens nothing. -/
theorem never_widened_iff_both :
    NamesRejected .dst (rowTo [("ipv4_dst", .str "10.0.0.7"), ("nw_dst", .str "10.0.0.300")]) ∧
      ∀ (calls : List (Sorter × Json Empty)) (dpid : BitVec 64),
        ¬HoldsWidened .dst (rowTo [("ipv4_dst", .str "10.0.0.7"), ("nw_dst", .str "10.0.0.300")])
          (afterCalls calls) dpid := by
  have hrejected : NamesRejected .dst
      (rowTo [("ipv4_dst", .str "10.0.0.7"), ("nw_dst", .str "10.0.0.300")]) :=
    namesRejected_rowTo rfl
  refine ⟨hrejected, (never_widened_iff .dst _ hrejected).mpr (.inr ?_)⟩
  exact ⟨.str "10.0.0.7", 0x0a000007, BitVec.allOnes 32, rfl, by decide +kernel, by decide⟩

/-- Alone it is held as a rule on every destination. -/
theorem widened_held :
    NamesRejected .dst (rowTo [("nw_dst", .str "10.0.0.300")]) ∧
      HoldsWidened .dst (rowTo [("nw_dst", .str "10.0.0.300")])
        (afterCalls [onePoll 1 (rowTo [("nw_dst", .str "10.0.0.300")])]) 1 := by
  have hr : parseRuleFromJson (rowTo [("nw_dst", .str "10.0.0.300")]) =
      .ok ⟨0, 10, packKey {}, packKey {} &&& packKey {}, { outputPorts := [5] }⟩ := by
    decide +kernel
  exact ⟨namesRejected_rowTo rfl, _, hr, heldOf_onePoll hr 1,
    (ignores_iff .dst rfl rfl).mpr rfl⟩

end NDTwin.Classifier
