import NDTwin.Classifier.FirstMet
import NDTwin.FlowStats.Render

/-!
# Destination routes as flow statistics

The switch forwards a packet by the longest prefix that contains its destination.  The reply has a
row for each route, with the prefix in its match; every row has priority zero, since an entry of an
lpm table has none, so the classifier takes whichever matching row it meets first.

## Main definitions

* `LpmEntry` — an entry of `ipv4_lpm`, with the prefix it is for and what it does.
* `LpmEntry.readBack` — the entry as it is read from the switch.
* `kernelTables` — the reply as the kernel hands it to the classifier.
* `ForwardsAsSwitch` — the classifier answers for a packet as the switch does.
* `Agreed` — the routes the classifier may meet do what the longest one does.

## Main results

* `parseRuleFromJson_row` — a row is read as a rule on the destination prefix.
* `forwardsAsSwitch_iff_agreed` — **the classifier forwards as the switch does exactly where the
  routes it may meet agree.**
* `not_forwardsAsSwitch_overlap` — two overlapping routes with different ports.
-/

namespace NDTwin.FlowStats

open Classifier BestFirst

variable {F : Type}

/-! ### Routes -/

/-- What an entry of `ipv4_lpm` does; a port has nine bits. -/
inductive LpmAction where
  | ipv4Forward (dstAddr port : List ℕ) (port_lt : Ipv4.ofBytes port < 512)
  | drop
  | sendToCpu
  | noAction

/-- The action as it is read from the switch. -/
def LpmAction.read : LpmAction → Action
  | .ipv4Forward dstAddr port _ =>
    ⟨some "MyIngress.ipv4_forward", [("dstAddr", dstAddr), ("port", port)]⟩
  | .drop => ⟨some "MyIngress.drop", []⟩
  | .sendToCpu => ⟨some "MyIngress.send_to_cpu", []⟩
  | .noAction => ⟨some "NoAction", []⟩

/-- Where the action sends a packet, in the classifier's terms: a port, the controller's port, or
nowhere. -/
def LpmAction.effect : LpmAction → RuleEffect
  | .ipv4Forward _ port _ => { outputPorts := [BitVec.ofNat 32 (Ipv4.ofBytes port)] }
  | .drop => {}
  | .sendToCpu => { outputPorts := [0xfffffffd] }
  | .noAction => {}

/-- A network address in at most four bytes. -/
def networkOf (value : List ℕ) : BitVec 32 := BitVec.ofNat 32 (Ipv4.ofBytes value)

/-- An entry of `ipv4_lpm`: a network, with no bit set outside its prefix, and an action. -/
structure LpmEntry where
  value : List ℕ
  value_lt : ∀ b ∈ value, b < 256
  value_length : value.length ≤ 4
  prefixLen : ℕ
  prefixLen_le : prefixLen ≤ 32
  aligned : networkOf value &&& prefixMask prefixLen = networkOf value
  action : LpmAction
  counters : Option (ℤ × ℤ)

/-- The network of a route. -/
def LpmEntry.network (e : LpmEntry) : BitVec 32 := networkOf e.value

/-- Whether the prefix of a route contains an address. -/
def LpmEntry.Contains (e : LpmEntry) (dst : BitVec 32) : Prop :=
  dst &&& prefixMask e.prefixLen = e.network

/-- The entry as it is read from the switch: a prefix of no bits is no match field at all, and an
lpm entry has no priority. -/
def LpmEntry.readBack (e : LpmEntry) : Entry where
  table := some "MyIngress.ipv4_lpm"
  priority := 0
  isDefault := false
  fields := if e.prefixLen = 0 then [] else [(some "hdr.ipv4.dstAddr", .lpm e.value e.prefixLen)]
  action := some e.action.read
  counters := e.counters

/-! ### Rows -/

/-- The match of a route's row. -/
def LpmEntry.match_ (e : LpmEntry) : Json F :=
  .obj [("nw_dst", .str (ipv4 e.value ++ prefixToNetmaskSuffix e.prefixLen)),
    ("dl_type", .int 0x0800)]

/-- The row of a route. -/
def LpmEntry.row (e : LpmEntry) (duration : ℤ × ℤ) : Json F :=
  .obj [
    ("table_id", .int 0),
    ("priority", .int 0),
    ("match", e.match_),
    ("actions", .arr (actionsToRyu forwardingAction (some e.action.read))),
    ("byte_count", .int (e.counters.elim 0 Prod.fst)),
    ("packet_count", .int (e.counters.elim 0 Prod.snd)),
    ("duration_sec", .int duration.1),
    ("duration_nsec", .int duration.2),
    ("idle_timeout", .int 0),
    ("hard_timeout", .int 0),
    ("cookie", .int 0),
    ("flags", .int 0),
    ("length", .int 0)]

theorem translateMatch_readBack (e : LpmEntry) (h : e.prefixLen ≠ 0) :
    translateMatch (F := F) fieldToRyu e.readBack.fields =
      ([("nw_dst", .str (ipv4 e.value ++ prefixToNetmaskSuffix e.prefixLen)),
        ("dl_type", .int 0x0800)], false) := by
  simp [translateMatch, LpmEntry.readBack, h, translateField, fieldToRyu, baseline, isDontCare,
    translateSpec, RyuName.isAddress, setItem, RyuName.isIpv4, RyuName.text]

theorem translateMatch_readBack_zero (e : LpmEntry) (h : e.prefixLen = 0) :
    translateMatch (F := F) fieldToRyu e.readBack.fields = ([], false) := by
  simp [translateMatch, LpmEntry.readBack, h]

theorem entryToRyu_readBack (e : LpmEntry) (duration : ℤ × ℤ) :
    entryToRyu (F := F) e.readBack duration ⟨fieldToRyu, forwardingAction⟩ true =
      if e.prefixLen = 0 then none else some (e.row duration) := by
  have hpriority : openflowPriority e.readBack true = 0 := rfl
  unfold entryToRyu
  by_cases h : e.prefixLen = 0
  · simp only [translateMatch_readBack_zero e h, if_pos h]
    rfl
  · simp only [translateMatch_readBack e h, if_neg h, hpriority]
    rfl

/-- The reply has a row for each route with a prefix, and counts none as left out. -/
theorem renderEntry_readBack (durations : Entry → ℤ × ℤ) (r : Rendered F) (e : LpmEntry) :
    renderEntry (some baseline) durations r e.readBack =
      if e.prefixLen = 0 then r
      else { r with flows := r.flows ++ [e.row (durations e.readBack)] } := by
  have huntranslatable : (translateMatch (F := F) fieldToRyu e.readBack.fields).2 = false := by
    by_cases h : e.prefixLen = 0
    · rw [translateMatch_readBack_zero e h]
    · rw [translateMatch_readBack e h]
  have hvoc : vocabulary (some baseline) = ⟨fieldToRyu, forwardingAction⟩ := rfl
  have hforeign : foreign (some baseline) = false := rfl
  unfold renderEntry
  simp only [hvoc, hforeign, huntranslatable, Bool.false_and, Bool.and_false, Bool.false_eq_true,
    if_false, Bool.not_false, entryToRyu_readBack]
  by_cases h : e.prefixLen = 0
  · simp only [if_pos h]
  · simp only [if_neg h]

/-- The routes that have a row. -/
def rendered (entries : List LpmEntry) : List LpmEntry := entries.filter fun e => e.prefixLen ≠ 0

theorem renderFlowStatsCounted_readBack (dpid : ℕ) (durations : Entry → ℤ × ℤ)
    (entries : List LpmEntry) :
    renderFlowStatsCounted (F := F) dpid (entries.map LpmEntry.readBack) durations (some baseline) =
      (.obj [(toString dpid, .arr ((rendered entries).map fun e => e.row (durations e.readBack)))],
        0) := by
  have hfold : ∀ r : Rendered F,
      (entries.map LpmEntry.readBack).foldl (renderEntry (some baseline) durations) r =
        { r with flows := r.flows ++ (rendered entries).map fun e => e.row (durations e.readBack) } := by
    induction entries with
    | nil => intro r; simp [rendered]
    | cons e entries ih =>
      intro r
      rw [List.map_cons, List.foldl_cons, renderEntry_readBack, ih]
      by_cases h : e.prefixLen = 0
      · simp [rendered, h]
      · simp [rendered, h]
  rw [renderFlowStatsCounted, hfold]
  rfl

/-! ### Rows as rules -/

/-- An address in at most four bytes, padded to four. -/
theorem padded {value : List ℕ} (hlength : value.length ≤ 4) (hlt : ∀ b ∈ value, b < 256) :
    ((List.replicate (4 - value.length) 0 ++ value).take 4).length = 4 ∧
      (∀ b ∈ (List.replicate (4 - value.length) 0 ++ value).take 4, b < 256) ∧
      Ipv4.ofBytes ((List.replicate (4 - value.length) 0 ++ value).take 4) = Ipv4.ofBytes value := by
  have hlen : (List.replicate (4 - value.length) 0 ++ value).length = 4 := by
    simp
    omega
  rw [List.take_of_length_le hlen.le]
  refine ⟨hlen, ?_, ?_⟩
  · intro b hb
    rcases List.mem_append.mp hb with hb | hb
    · rw [List.eq_of_mem_replicate hb]
      decide
    · exact hlt b hb
  · have hzero : ∀ k, (List.replicate k 0).foldl (fun n b => n * 256 + b) 0 = 0 := by
      intro k
      induction k with
      | zero => rfl
      | succ k ih => rw [List.replicate_succ, List.foldl_cons]; exact ih
    rw [Ipv4.ofBytes, List.foldl_append, hzero]
    rfl

theorem parseIpv4AddrHost_ipv4 {value : List ℕ} (hlength : value.length ≤ 4)
    (hlt : ∀ b ∈ value, b < 256) :
    parseIpv4AddrHost (ipv4 value).toList = some (networkOf value) := by
  obtain ⟨hlen, hlt, hbytes⟩ := padded hlength hlt
  rw [parseIpv4AddrHost, ipv4, CText.cStr_of_notMem (Ipv4.notMem_ntoa rfl (by decide) _),
    String.ofList_toList, Ipv4.pton_ntoa hlen hlt, Option.map_some, hbytes]
  rfl

theorem parseMask_prefixLen : ∀ n < 33, (parseMask (toString n).toList).toOption =
    some (some (prefixMask n)) := by
  decide +kernel

/-- A prefix as it is shown is read as the network and its mask. -/
theorem parseIpv4WithMaskOrPrefix_shown {value : List ℕ} (hlength : value.length ≤ 4)
    (hlt : ∀ b ∈ value, b < 256) {len : ℕ} (hlen : len ≤ 32) :
    parseIpv4WithMaskOrPrefix (.str (ipv4 value ++ prefixToNetmaskSuffix len) : Json F) =
      .ok (some (networkOf value, prefixMask len)) := by
  have hslash : '/' ∉ (ipv4 value).toList := Ipv4.notMem_ntoa rfl (by decide) _
  have haddr := parseIpv4AddrHost_ipv4 hlength hlt
  unfold prefixToNetmaskSuffix
  by_cases h : 32 ≤ len
  · have h32 : len = 32 := le_antisymm hlen h
    rw [if_pos h, String.append_empty, parseIpv4WithMaskOrPrefix, CText.before_of_notMem hslash,
      CText.after_of_notMem hslash, haddr, h32]
    rfl
  · have hmask := parseMask_prefixLen len (by omega)
    have hok : parseMask (toString len).toList = .ok (some (prefixMask len)) := by
      cases hm : parseMask (toString len).toList with
      | error err => rw [hm] at hmask; cases hmask
      | ok m => rw [hm] at hmask; cases hmask; rfl
    have htext : (ipv4 value ++ ("/" ++ toString len)).toList =
        (ipv4 value).toList ++ '/' :: (toString len).toList := by
      simp
    rw [if_neg h, parseIpv4WithMaskOrPrefix, htext, CText.before_append hslash,
      CText.after_append hslash, haddr]
    simp only [hok]
    rfl

/-- The fields a route constrains, and their mask. -/
def LpmEntry.built (e : LpmEntry) : Built where
  mask := { ethType := BitVec.allOnes 16, ipv4Dst := prefixMask e.prefixLen }
  value := { ethType := 0x0800, ipv4Dst := e.network }

theorem buildMaskAndValueFromMatch_row (e : LpmEntry) :
    buildMaskAndValueFromMatch (e.match_ : Json F) = .ok e.built := by
  have hdst : parseIpv4WithMaskOrPrefix
      (.str (ipv4 e.value ++ prefixToNetmaskSuffix e.prefixLen) : Json F) =
        .ok (some (e.network, prefixMask e.prefixLen)) :=
    parseIpv4WithMaskOrPrefix_shown e.value_length e.value_lt e.prefixLen_le
  have hfind : ∀ key, find (e.match_ : Json F) key =
      if key = "nw_dst" then some (.str (ipv4 e.value ++ prefixToNetmaskSuffix e.prefixLen))
      else if key = "dl_type" then some (.int 0x0800) else none := by
    intro key
    unfold find LpmEntry.match_
    simp only [List.lookup_cons, List.lookup_nil]
    by_cases h : key = "nw_dst"
    · simp [h]
    · by_cases h' : key = "dl_type"
      · simp [h']
      · simp [h, h', beq_eq_false_iff_ne.mpr]
  have hsteps : buildMaskAndValueFromMatch (e.match_ : Json F) =
      .ok (putIpv4Dst (e.network, prefixMask e.prefixLen) (putEthType 0x0800 {})) := by
    simp [buildMaskAndValueFromMatch, hfind, setField, setIpv4, hdst, parseU64, isInteger]
    rfl
  rw [hsteps]
  simp [putIpv4Dst, putEthType, LpmEntry.built]

/-- A port in decimal is read as its number: no digit is changed by writing it large, and none of
the reserved names is made of digits. -/
theorem outputPort_digits {p : ℕ} (hp : p < 2 ^ 32) :
    outputPort (toUpper (CText.before ':' (toString p).toList)) = some (BitVec.ofNat 32 p) ∧
      (toString p).toList ≠ [] := by
  have htext : (toString p).toList = Nat.toDigits 10 p := by
    show (Nat.repr p).toList = _
    rw [Nat.repr_eq_ofList_toDigits, String.toList_ofList]
  have hdigits : ∀ c ∈ Nat.toDigits 10 p, c.isDigit = true := fun c hc =>
    Nat.isDigit_of_mem_toDigits (by decide) (by decide) hc
  have hupper : toUpper (Nat.toDigits 10 p) = Nat.toDigits 10 p := by
    refine (List.map_congr_left fun c hc => ?_).trans (List.map_id _)
    have hrange := CText.toNat_of_isDigit (hdigits c hc)
    delta Char.toUpper
    rw [dif_neg]
    · rfl
    · rintro ⟨hlow, -⟩
      have hlow : 97 ≤ c.toNat := UInt32.le_iff_toNat_le.mp hlow
      omega
  have hname (name : String) (c : Char) (hc : c ∈ name.toList) (hdigit : c.isDigit = false) :
      Nat.toDigits 10 p ≠ name.toList := by
    intro h
    rw [← h] at hc
    exact Ipv4.notMem_toDigits hdigit p hc
  rw [htext, CText.before_of_notMem (Ipv4.notMem_toDigits rfl p), hupper]
  refine ⟨?_, Nat.toDigits_ne_nil⟩
  rw [outputPort, if_neg (hname "CONTROLLER" 'C' (by decide) rfl),
    if_neg (hname "LOCAL" 'L' (by decide) rfl), if_neg (hname "FLOOD" 'F' (by decide) rfl),
    if_neg (hname "NORMAL" 'N' (by decide) rfl), parseUint,
    CText.cStr_of_notMem (Ipv4.notMem_toDigits rfl p), CText.strto_toDigits]
  have hunsigned : (CText.Number.mk false p []).toUnsigned = some (BitVec.ofNat 64 p) := by
    rw [CText.Number.toUnsigned, if_pos (by show p < 2 ^ 64; omega)]
    rfl
  have hsmall : (BitVec.ofNat 64 p).toNat ≤ 0xffffffff := by
    rw [BitVec.toNat_ofNat]
    omega
  simp only [hunsigned, hsmall, and_self, if_true]
  rw [BitVec.setWidth_ofNat_of_le (by decide)]

/-- The actions of a row are read as what the route does. -/
theorem parseActions_row (a : LpmAction) :
    parseActionsArrayIntoEffect (.arr (actionsToRyu forwardingAction (some a.read)) : Json F) {} =
      a.effect := by
  cases a with
  | ipv4Forward dstAddr port hport =>
    obtain ⟨hparsed, hne⟩ := outputPort_digits (p := Ipv4.ofBytes port) (by omega)
    have htext : ("OUTPUT:" ++ toString (Ipv4.ofBytes port)).toList =
        "OUTPUT".toList ++ ':' :: (toString (Ipv4.ofBytes port)).toList := by
      simp
    have hkind : toUpper (CText.before ':' ("OUTPUT".toList ++ ':' ::
        (toString (Ipv4.ofBytes port)).toList)) = "OUTPUT".toList := by
      rw [CText.before_append (by decide)]
      decide
    have hrow : (actionsToRyu forwardingAction (some (LpmAction.ipv4Forward dstAddr port hport).read) :
        List (Json F)) = [.str ("OUTPUT:" ++ toString (Ipv4.ofBytes port))] := by
      have hparam : forwardingAction "MyIngress.ipv4_forward" = some "port" := by decide
      simp [actionsToRyu, LpmAction.read, actionName, hparam, List.lookup_cons]
    rw [hrow, parseActionsArrayIntoEffect, List.foldl_cons, List.foldl_nil]
    simp only [parseAction, htext, hkind, CText.after_append (show ':' ∉ "OUTPUT".toList by decide),
      hparsed, hne, ne_eq, not_false_eq_true, and_self, if_true]
    rfl
  | drop => rfl
  | sendToCpu =>
    show parseAction {} (.str "OUTPUT:CONTROLLER" : Json F) = _
    rfl
  | noAction => rfl

/-- The rule a route's row is read as. -/
def LpmEntry.rule (e : LpmEntry) : Rule where
  tableId := 0
  priority := 0
  mask := packKey e.built.mask
  maskedValue := packKey e.built.value &&& packKey e.built.mask
  effect := e.action.effect

/-- **A row is read as a rule on the destination prefix.** -/
theorem parseRuleFromJson_row (e : LpmEntry) (duration : ℤ × ℤ) :
    parseRuleFromJson (e.row duration : Json F) = .ok e.rule := by
  have hmatch : parseMatch (e.row duration : Json F) = .ok e.built :=
    buildMaskAndValueFromMatch_row e
  have heffect : parseEffectFromFlowEntry (e.row duration : Json F) = .ok e.action.effect :=
    congrArg Except.ok (parseActions_row e.action)
  unfold parseRuleFromJson
  simp only [hmatch, heffect]
  rfl

/-! ### The reply in the classifier -/

/-- A switch's reply as the kernel hands it to the classifier. -/
def kernelTables (dpid : BitVec 64) (body : Json F) : Json F :=
  .arr [.obj [("dpid", .int dpid.toNat), ("flows", body)]]

/-- The reply for a set of routes. -/
def reply (F : Type) (dpid : BitVec 64) (durations : Entry → ℤ × ℤ) (entries : List LpmEntry) :
    Json F :=
  (renderFlowStatsCounted dpid.toNat (entries.map LpmEntry.readBack) durations (some baseline)).1

/-- The rules the reply is read as. -/
def rulesOf (entries : List LpmEntry) : List Rule := (rendered entries).map LpmEntry.rule

/-- The state of a switch after its reply is loaded. -/
def loaded (sorter : Sorter) (entries : List LpmEntry) : SwitchClassifier :=
  rebuildTables (sorter.sort 0) (sweep ((rulesOf entries).foldl upsertRule { epoch := 1 }))

theorem readSwitch_reply (dpid : BitVec 64) (durations : Entry → ℤ × ℤ) (entries : List LpmEntry) :
    readSwitch (.obj [("dpid", .int dpid.toNat), ("flows", reply F dpid durations entries)]) =
      .ok (some (dpid, (rendered entries).map fun e => e.row (durations e.readBack))) := by
  have hdpid := parseU64_toNat (F := F) dpid
  have hflows : extractFlowArray (reply F dpid durations entries) dpid =
      some (.arr ((rendered entries).map fun e => e.row (durations e.readBack))) := by
    rw [reply, renderFlowStatsCounted_readBack, extractFlowArray_own]
  obtain ⟨hatDpid, hatFlows⟩ := at?_kernelTables (.int dpid.toNat) (reply F dpid durations entries)
  exact readSwitch_of_ok hatDpid hdpid hatFlows hflows

/-- The reply is loaded without an exception. -/
theorem updateFromQueriedTables_reply (sorter : Sorter) (dpid : BitVec 64)
    (durations : Entry → ℤ × ℤ) (entries : List LpmEntry) :
    updateFromQueriedTables sorter ∅ (kernelTables dpid (reply F dpid durations entries)) =
      (AList.insert dpid (loaded sorter entries) ∅, none) := by
  have hrows : List.Forall₂ (fun flow r => parseRuleFromJson flow = .ok r)
      ((rendered entries).map fun e => (e.row (durations e.readBack) : Json F)) (rulesOf entries) := by
    rw [rulesOf, List.forall₂_map_left_iff, List.forall₂_map_right_iff]
    exact List.forall₂_same.mpr fun e _ => parseRuleFromJson_row e _
  have hone : updateOneSwitch (sorter.sort 0) {}
      ((rendered entries).map fun e => (e.row (durations e.readBack) : Json F)) =
        (loaded sorter entries, none) := by
    rw [updateOneSwitch, upsertFlows_of_ok _ hrows]
    rfl
  rw [kernelTables, updateFromQueriedTables, updateSwitches, readSwitch_reply]
  simp only [AList.lookup_empty, Option.getD_none, hone, updateSwitches]

/-! ### Which routes are met -/

/-- A route of the reply whose core hash no earlier route of it has. -/
def Kept (entries : List LpmEntry) (e : LpmEntry) : Prop :=
  (rendered entries).find? (fun e' => e'.rule.id = e.rule.id) = some e

theorem Kept.mem {entries : List LpmEntry} {e : LpmEntry} (h : Kept entries e) : e ∈ entries :=
  (List.mem_filter.mp (List.mem_of_find?_eq_some h)).1

/-- What is held after the reply is loaded. -/
theorem ruleOf_loaded (sorter : Sorter) (entries : List LpmEntry) (r : Rule) :
    (loaded sorter entries).ruleOf r.id = some r ↔ ∃ e, Kept entries e ∧ e.rule = r := by
  have hruleOf : (loaded sorter entries).ruleOf r.id =
      ((rendered entries).find? fun e => e.rule.id = r.id).map LpmEntry.rule := by
    rw [loaded, sweep_first]
    show (((rulesOf entries).foldl upsertRule { epoch := 1 }).rulesById.lookup r.id).map _ = _
    rw [rulesById_first, Option.map_map, rulesOf, List.find?_map, Option.map_map]
    rfl
  rw [hruleOf, Option.map_eq_some_iff]
  constructor
  · rintro ⟨e, he, rfl⟩
    exact ⟨e, he, rfl⟩
  · rintro ⟨e, he, rfl⟩
    exact ⟨e, he, rfl⟩

theorem matches_rule {e : LpmEntry} {key : FlowKey} (hkey : key.ethType = 0x0800) :
    Matches e.rule 0 key ↔ e.Contains key.ipv4Dst := by
  have haligned : e.network &&& prefixMask e.prefixLen = e.network := e.aligned
  have hpacked : e.rule.maskedValue = packKey key &&& e.rule.mask ↔
      e.built.value.and e.built.mask = key.and e.built.mask := by
    show packKey e.built.value &&& packKey e.built.mask = packKey key &&& packKey e.built.mask ↔ _
    rw [packKey_and, packKey_and]
    exact ⟨packKey_inj, congrArg packKey⟩
  unfold Matches LpmEntry.Contains
  rw [hpacked]
  simp [LpmEntry.built, FlowKey.and, LpmEntry.rule, hkey, haligned, eq_comm]

theorem prefixMask_inj : ∀ m < 33, ∀ n < 33, prefixMask m = prefixMask n → m = n := by
  decide +kernel

/-- The rule of a route tells its prefix. -/
theorem key_eq_of_rule {e e' : LpmEntry} (hmask : e.rule.mask = e'.rule.mask)
    (hvalue : e.rule.maskedValue = e'.rule.maskedValue) :
    e.network = e'.network ∧ e.prefixLen = e'.prefixLen := by
  have hlen : prefixMask e.prefixLen = prefixMask e'.prefixLen :=
    congrArg FlowKey.ipv4Dst (packKey_inj hmask)
  have hlen := prefixMask_inj _ (Nat.lt_succ_of_le e.prefixLen_le) _
    (Nat.lt_succ_of_le e'.prefixLen_le) hlen
  refine ⟨?_, hlen⟩
  have hvalue : packKey e.built.value &&& packKey e.built.mask =
      packKey e'.built.value &&& packKey e'.built.mask := hvalue
  rw [packKey_and, packKey_and] at hvalue
  have hnetwork : e.network &&& prefixMask e.prefixLen = e'.network &&& prefixMask e'.prefixLen :=
    congrArg FlowKey.ipv4Dst (packKey_inj hvalue)
  rwa [show e.network &&& _ = _ from e.aligned, show e'.network &&& _ = _ from e'.aligned] at hnetwork

/-! ### Forwarding -/

/-- The entry the switch applies to a destination: the longest prefix that contains it. -/
def Selects (entries : List LpmEntry) (dst : BitVec 32) (chosen : Option LpmEntry) : Prop :=
  IsBest LpmEntry.prefixLen {e | e ∈ entries ∧ e.Contains dst} chosen

/-- The reply for the routes, loaded by one update in whatever order its sorts leave, answers for
a packet with what the switch's entry does, and with nothing if the switch has none. -/
def ForwardsAsSwitch (F : Type) (dpid : BitVec 64) (durations : Entry → ℤ × ℤ)
    (entries : List LpmEntry) (key : FlowKey) : Prop :=
  ∀ sorter : Sorter, ∃ switches,
    updateFromQueriedTables sorter ∅ (kernelTables dpid (reply F dpid durations entries)) =
      (switches, none) ∧
    ∀ chosen, Selects entries key.ipv4Dst chosen →
      lookup switches dpid key 0 = chosen.map fun e => e.action.effect

/-- Of the routes with a row of their own that contain a destination there is one if any route
does, and all of them do what the longest one does. -/
def Agreed (entries : List LpmEntry) (dst : BitVec 32) : Prop :=
  ∀ longest, Selects entries dst (some longest) →
    (∃ e, Kept entries e ∧ e.Contains dst) ∧
      ∀ e, Kept entries e → e.Contains dst → e.action.effect = longest.action.effect

theorem isBest_loaded (sorter : Sorter) (entries : List LpmEntry) (key : FlowKey) :
    IsBest Rule.priority {r | (loaded sorter entries).ruleOf r.id = some r ∧ Matches r 0 key}
      (lookupInTableNoLock (loaded sorter entries) 0 key) := by
  have hempty := SwitchClassifier.WF.new
  have hwf := (foldl_upsertRule { epoch := 1 } (rulesOf entries)).1
    ⟨hempty.tables, hempty.home, hempty.nodup, hempty.stored, hempty.ids⟩
  have hloaded : loaded sorter entries =
      rebuildTables (sorter.sort 0) ((rulesOf entries).foldl upsertRule { epoch := 1 }) := by
    rw [loaded, sweep_first]
  obtain ⟨hwf', hsettled⟩ := hwf.rebuildTables sorter 0
  rw [← hloaded] at hwf' hsettled
  exact isBest_lookupInTableNoLock hwf' (hwf'.inOrder hsettled) 0 key

/-- The state after the reply is loaded is the one switch. -/
theorem forwardsAsSwitch_iff {dpid : BitVec 64} {durations : Entry → ℤ × ℤ}
    {entries : List LpmEntry} {key : FlowKey} :
    ForwardsAsSwitch F dpid durations entries key ↔ ∀ sorter chosen,
      Selects entries key.ipv4Dst chosen →
        (lookupInTableNoLock (loaded sorter entries) 0 key).map Rule.effect =
          chosen.map fun e => e.action.effect := by
  have hlookup : ∀ sorter, lookup (AList.insert dpid (loaded sorter entries) ∅) dpid key 0 =
      (lookupInTableNoLock (loaded sorter entries) 0 key).map Rule.effect := by
    intro sorter
    rw [lookup, AList.lookup_insert]
  constructor
  · intro h sorter chosen hchosen
    obtain ⟨switches, hload, hanswer⟩ := h sorter
    rw [updateFromQueriedTables_reply] at hload
    cases hload
    rw [← hlookup]
    exact hanswer chosen hchosen
  · intro h sorter
    refine ⟨_, updateFromQueriedTables_reply sorter dpid durations entries, ?_⟩
    intro chosen hchosen
    rw [hlookup]
    exact h sorter chosen hchosen

/-- A matching rule that is held is the rule of a route. -/
theorem held_matching {sorter : Sorter} {entries : List LpmEntry} {key : FlowKey}
    (hkey : key.ethType = 0x0800) (r : Rule) :
    ((loaded sorter entries).ruleOf r.id = some r ∧ Matches r 0 key) ↔
      ∃ e, Kept entries e ∧ e.Contains key.ipv4Dst ∧ e.rule = r := by
  rw [ruleOf_loaded]
  constructor
  · rintro ⟨⟨e, he, rfl⟩, hmatches⟩
    exact ⟨e, he, (matches_rule hkey).mp hmatches, rfl⟩
  · rintro ⟨e, he, hcontains, rfl⟩
    exact ⟨⟨e, he, rfl⟩, (matches_rule hkey).mpr hcontains⟩

/-- Two routes of one prefix are one. -/
theorem eq_of_key_eq {entries : List LpmEntry}
    (hdistinct : entries.Pairwise fun e e' => ¬(e.network = e'.network ∧ e.prefixLen = e'.prefixLen))
    {e e' : LpmEntry} (he : e ∈ entries) (he' : e' ∈ entries)
    (hkey : e.network = e'.network ∧ e.prefixLen = e'.prefixLen) : e = e' := by
  by_contra hne
  have : Std.Symm fun e e' : LpmEntry => ¬(e.network = e'.network ∧ e.prefixLen = e'.prefixLen) :=
    ⟨fun a b hab hba => hab ⟨hba.1.symm, hba.2.symm⟩⟩
  exact hdistinct.forall he he' hne hkey

/-- The order that meets a route first answers with it. -/
theorem lookup_loaded_first {entries : List LpmEntry} {key : FlowKey}
    (hdistinct : entries.Pairwise fun e e' => ¬(e.network = e'.network ∧ e.prefixLen = e'.prefixLen))
    (hkey : key.ethType = 0x0800) {e : LpmEntry} (he : Kept entries e)
    (hcontains : e.Contains key.ipv4Dst) :
    lookupInTableNoLock (loaded (Sorter.first e.rule.mask) entries) 0 key = some e.rule := by
  have hheld : (loaded (Sorter.first e.rule.mask) entries).ruleOf e.rule.id = some e.rule :=
    (ruleOf_loaded _ entries e.rule).mpr ⟨e, he, rfl⟩
  have hmatches : Matches e.rule 0 key := (matches_rule hkey).mpr hcontains
  have hprio : ∀ r ∈ rulesOf entries, r.priority = 0 := by
    intro r hr
    obtain ⟨e', -, rfl⟩ := List.mem_map.mp hr
    rfl
  have hloaded : loaded (Sorter.first e.rule.mask) entries =
      rebuildTables ((Sorter.first e.rule.mask).sort 0)
        (sweep ((rulesOf entries).foldl upsertRule { epoch := 1 })) := rfl
  obtain ⟨r', hheld', hmask, hvalue, hlookup⟩ :=
    lookup_first (le_refl 0) hprio 1 0 hloaded hheld hmatches
  obtain ⟨e', he', rfl⟩ := (ruleOf_loaded _ entries r').mp hheld'
  rw [hlookup, eq_of_key_eq hdistinct he'.mem he.mem (key_eq_of_rule hmask hvalue)]

/-- **The classifier forwards as the switch does exactly where the routes it may meet agree.** -/
theorem forwardsAsSwitch_iff_agreed (dpid : BitVec 64) (durations : Entry → ℤ × ℤ)
    (entries : List LpmEntry) (key : FlowKey)
    (hdistinct : entries.Pairwise fun e e' => ¬(e.network = e'.network ∧ e.prefixLen = e'.prefixLen))
    (hkey : key.ethType = 0x0800) :
    ForwardsAsSwitch F dpid durations entries key ↔ Agreed entries key.ipv4Dst := by
  rw [forwardsAsSwitch_iff]
  constructor
  · intro h longest hlongest
    constructor
    · -- whatever the order, the answer is the rule of some route
      have hanswer := h Sorter.stable _ hlongest
      obtain ⟨r, hr, -⟩ := Option.map_eq_some_iff.mp hanswer
      have hbest := isBest_loaded Sorter.stable entries key
      rw [hr] at hbest
      obtain ⟨e, he, hcontains, -⟩ := (held_matching hkey r).mp hbest.1
      exact ⟨e, he, hcontains⟩
    · intro e he hcontains
      have hanswer := h (Sorter.first e.rule.mask) _ hlongest
      rw [lookup_loaded_first hdistinct hkey he hcontains] at hanswer
      exact Option.some_inj.mp hanswer
  · intro h sorter chosen hchosen
    have hbest := isBest_loaded sorter entries key
    cases chosen with
    | none =>
      have hnone : lookupInTableNoLock (loaded sorter entries) 0 key = none := by
        rw [hbest.eq_none_iff]
        rintro ⟨r, hr⟩
        obtain ⟨e, he, hcontains, -⟩ := (held_matching hkey r).mp hr
        exact hchosen e ⟨he.mem, hcontains⟩
      rw [hnone]
      rfl
    | some longest =>
      obtain ⟨⟨e₀, he₀, hcontains₀⟩, hagree⟩ := h longest hchosen
      cases hanswer : lookupInTableNoLock (loaded sorter entries) 0 key with
      | none =>
        rw [hanswer] at hbest
        exact absurd ((held_matching hkey e₀.rule).mpr ⟨e₀, he₀, hcontains₀, rfl⟩) (hbest e₀.rule)
      | some r =>
        rw [hanswer] at hbest
        obtain ⟨e, he, hcontains, rfl⟩ := (held_matching hkey r).mp hbest.1
        rw [Option.map_some, Option.map_some, ← hagree e he hcontains]
        rfl

/-! ### Overlapping routes -/

theorem le_of_eight_or {len : ℕ} (hlen : len = 8 ∨ len = 24) : len ≤ 32 := by omega

theorem ofBytes_port_lt {port : ℕ} (hport : port < 256) : Ipv4.ofBytes [port] < 512 := by
  rw [show Ipv4.ofBytes [port] = port by simp [Ipv4.ofBytes]]
  omega

/-- A route to `10.0.0.0` with a prefix of eight or twenty-four bits and a port. -/
def routeTo (len port : ℕ) (hlen : len = 8 ∨ len = 24) (hport : port < 256) : LpmEntry where
  value := [10, 0, 0, 0]
  value_lt := by decide
  value_length := by decide
  prefixLen := len
  prefixLen_le := le_of_eight_or hlen
  aligned := by
    rcases hlen with rfl | rfl
    · decide
    · decide
  action := .ipv4Forward [] [port] (ofBytes_port_lt hport)
  counters := none

/-- Nested routes out of one port, which agree on every packet. -/
theorem forwardsAsSwitch_iff_agreed_nested :
    ForwardsAsSwitch Empty 1 (fun _ => (0, 0))
      [routeTo 8 1 (by decide) (by decide), routeTo 24 1 (by decide) (by decide)] packet := by
  rw [forwardsAsSwitch_iff_agreed 1 _ _ packet ?_ rfl]
  · have heffect : ∀ e ∈ [routeTo 8 1 (by decide) (by decide), routeTo 24 1 (by decide) (by decide)],
        e.action.effect = { outputPorts := [1] } := by
      intro e he
      rcases List.mem_pair.mp he with rfl | rfl <;> rfl
    intro longest hlongest
    refine ⟨⟨routeTo 8 1 (by decide) (by decide), ?_, ?_⟩, ?_⟩
    · simp [Kept, rendered, routeTo]
    · show _ = _
      decide
    · intro e he _
      rw [heffect e he.mem, heffect longest hlongest.1.1]
  · simp [routeTo]

/-- With a longer prefix out of another port, the order of the subtables decides, and the shorter
prefix may answer. -/
theorem not_forwardsAsSwitch_overlap :
    ¬ForwardsAsSwitch Empty 1 (fun _ => (0, 0))
      [routeTo 8 1 (by decide) (by decide), routeTo 24 2 (by decide) (by decide)] packet := by
  rw [forwardsAsSwitch_iff]
  intro h
  have hlongest : Selects
      [routeTo 8 1 (by decide) (by decide), routeTo 24 2 (by decide) (by decide)] packet.ipv4Dst
      (some (routeTo 24 2 (by decide) (by decide))) := by
    refine ⟨⟨by simp, ?_⟩, ?_⟩
    · show _ = _
      decide
    · rintro e ⟨he, -⟩
      rcases List.mem_pair.mp he with rfl | rfl
      · show 8 ≤ 24
        decide
      · exact le_refl _
  have hanswer := h (Sorter.first (routeTo 8 1 (by decide) (by decide)).rule.mask) _ hlongest
  have hshort : (lookupInTableNoLock (loaded
      (Sorter.first (routeTo 8 1 (by decide) (by decide)).rule.mask)
      [routeTo 8 1 (by decide) (by decide), routeTo 24 2 (by decide) (by decide)]) 0 packet).map
        Rule.effect = some { outputPorts := [1] } := by
    decide +kernel
  rw [hshort] at hanswer
  revert hanswer
  decide

end NDTwin.FlowStats
