import Mathlib.Data.List.TakeWhile
import NDTwin.Lib.Ipv4
import NDTwin.Lib.PyValue

/-!
# Matches, and the table entries they write

A request names its rule by an OpenFlow match.  `TopologyManager` refuses the fields no table
has and the values no encoder takes, writes the destination in one spelling, and then sends the
rule to one of two tables: `ipv4_lpm`, if the match names a destination alone, and otherwise
`flow_5tuple`, whose six keys the match's fields are spellings of and which has a priority.
The journal names the entry by a text of its own, `_journal_rule`.

A match that is no JSON object is refused before any of this.

## Main definitions

* `Match` — a match, `Key5` — a key of `flow_5tuple`.
* `unsupportedMatchFields`, `checkMatchValues` — what is refused.
* `parseDestination`, `routeKey`, `splitRouteKey`, `canonicalDestination` — destinations.
* `fiveTupleKeys`, `encode5tupleValue`, `p4Priority` — entries of `flow_5tuple`.
* `writtenEntry` — the entry a request writes, of all three verbs.
* `journalRule` — the entry as the journal names it.
-/

namespace NDTwin
namespace Routing

open Json

/-! ### Fields -/

/-- The keys of `flow_5tuple`, in the order of their names. -/
inductive Key5 where
  | dstAddr
  | protocol
  | srcAddr
  | l4DstPort
  | l4SrcPort
  | ingressPort
  deriving DecidableEq, Repr

namespace Key5

/-- The keys in the order of their names. -/
def all : List Key5 := [.dstAddr, .protocol, .srcAddr, .l4DstPort, .l4SrcPort, .ingressPort]

/-- The name of a key in the pipeline. -/
def name : Key5 → String
  | .dstAddr => "hdr.ipv4.dstAddr"
  | .protocol => "hdr.ipv4.protocol"
  | .srcAddr => "hdr.ipv4.srcAddr"
  | .l4DstPort => "meta.l4_dst_port"
  | .l4SrcPort => "meta.l4_src_port"
  | .ingressPort => "standard_metadata.ingress_port"

/-- `_FIVE_TUPLE_KEY_BITS`. -/
def bits : Key5 → ℕ
  | .dstAddr => 32
  | .protocol => 8
  | .srcAddr => 32
  | .l4DstPort => 16
  | .l4SrcPort => 16
  | .ingressPort => 9

/-- How many bytes a key takes on the wire. -/
def width (k : Key5) : ℕ := (k.bits + 7) / 8

/-- Whether a key is an address. -/
def isAddress : Key5 → Bool
  | .dstAddr => true
  | .srcAddr => true
  | _ => false

end Key5

/-- `FIVE_TUPLE_FIELD_MAP`: the key a field of a match is a spelling of. -/
def fiveTupleFieldMap : String → Option Key5
  | "in_port" => some .ingressPort
  | "nw_src" => some .srcAddr
  | "ipv4_src" => some .srcAddr
  | "nw_dst" => some .dstAddr
  | "ipv4_dst" => some .dstAddr
  | "nw_proto" => some .protocol
  | "ip_proto" => some .protocol
  | "tp_src" => some .l4SrcPort
  | "tcp_src" => some .l4SrcPort
  | "udp_src" => some .l4SrcPort
  | "tp_dst" => some .l4DstPort
  | "tcp_dst" => some .l4DstPort
  | "udp_dst" => some .l4DstPort
  | _ => none

/-- `HONOURED_MATCH_FIELDS`, which are the `DESTINATION_MATCH_FIELDS` too. -/
def isDestinationField (field : String) : Bool := field == "nw_dst" || field == "ipv4_dst"

/-- `FIVE_TUPLE_ONLY_FIELDS`. -/
def isFiveTupleOnly (field : String) : Bool :=
  (fiveTupleFieldMap field).isSome && !isDestinationField field

/-- `IPV4_VALUED_MATCH_FIELDS`. -/
def isAddressField (field : String) : Bool := (fiveTupleFieldMap field).any Key5.isAddress

/-- `ETH_TYPE_FIELDS`. -/
def isEthTypeField (field : String) : Bool := field == "dl_type" || field == "eth_type"

/-- A match: a JSON object, whose keys differ. -/
structure Match (F : Type*) where
  fields : List (String × Json F)
  nodup : (fields.map Prod.fst).Nodup

/-- What a field's value should have been. -/
inductive Expected where
  | address
  /-- An address, or one with a prefix length. -/
  | destination
  /-- A switch port number from 0 to 511. -/
  | inPort
  deriving DecidableEq, Repr

/-- Why a request is refused. -/
inductive Refusal (F : Type*) where
  /-- `UnsupportedMatchError`, with the fields at fault. -/
  | unsupportedMatch (fields : List String)
  /-- `MalformedMatchValueError`, with what was expected. -/
  | malformedValue (field : String) (value : Json F) (expected : Expected)
  /-- `ConflictingMatchValueError`. -/
  | conflictingValues (first second : String) (a b : Json F)
  /-- `FlowRequestUnusable`: the match names no destination and no other field. -/
  | unsupportedRequest
  /-- An exception that no handler expects. -/
  | uncaught

section Match

variable {F : Type*} (fl : Floats F)

/-- `match_dict.get(field)`. -/
def Match.get (m : Match F) (field : String) : Option (Json F) := m.fields.lookup field

/-- `needs_five_tuple`. -/
def needsFiveTuple (m : Match F) : Bool := m.fields.any fun p => isFiveTupleOnly p.1

/-! ### Ether types -/

/-- `str.strip()`, which takes four control characters for blanks that `int` does not. -/
def strip (cs : List Char) : List Char :=
  let blank := fun c => PyInt.isSpace c || (28 ≤ c.toNat && c.toNat ≤ 31)
  ((cs.dropWhile blank).reverse.dropWhile blank).reverse

/-- `parse_eth_type`. -/
def parseEthType : Json F → Option ℤ
  | .int n => some n
  | .str s =>
    let text := strip s.toList
    let base := match text with
      | '0' :: x :: _ => if x = 'x' ∨ x = 'X' then 16 else 10
      | _ => 10
    PyInt.ofString base (String.ofList text)
  | _ => none

/-- `unsupported_match_fields`: the fields no table has, in order. -/
def unsupportedMatchFields (m : Match F) : List String :=
  (m.fields.filterMap fun p =>
    if isDestinationField p.1 then none
    else if (fiveTupleFieldMap p.1).isSome then none
    else if isEthTypeField p.1 && parseEthType p.2 == some 2048 then none
    else some p.1).insertionSort (· ≤ ·)

/-! ### Destinations -/

/-- `text.partition(sep)`: what comes before a separator, and after it if there is one. -/
def partition (sep : Char) (cs : List Char) : List Char × Option (List Char) :=
  (cs.takeWhile (· ≠ sep),
    match cs.dropWhile (· ≠ sep) with
    | [] => none
    | _ :: rest => some rest)

/-- `parse_destination`: an address and a prefix length, from a dotted quad alone or one with
`/1` to `/32` after it. -/
def parseDestination : Json F → Option (String × ℕ)
  | .str s =>
    let (addr, length) := partition '/' s.toList
    if (Ipv4.pton (String.ofList addr)).isSome then
      match length with
      | none => some (String.ofList addr, 32)
      | some cs =>
        if 1 ≤ cs.length ∧ cs.length ≤ 2 ∧ cs.all Char.isDigit = true then
          let prefixLen := Nat.ofDigitChars 10 cs 0
          if 1 ≤ prefixLen ∧ prefixLen ≤ 32 then some (String.ofList addr, prefixLen) else none
        else none
    else none
  | _ => none

/-- The network part of an address. -/
def network (raw prefixLen : ℕ) : ℕ := raw &&& ((0xFFFFFFFF <<< (32 - prefixLen)) &&& 0xFFFFFFFF)

/-- The text of a network: bare for a `/32`. -/
def routeText (bytes : List ℕ) (prefixLen : ℕ) : String :=
  if prefixLen = 32 then Ipv4.ntoa bytes
  else String.ofList ((Ipv4.ntoa bytes).toList ++ '/' :: Nat.toDigits 10 prefixLen)

/-- `route_key`, of an address that `inet_pton` takes. -/
def routeKey (address : String) (prefixLen : ℕ) : Option String :=
  (Ipv4.pton address).map fun bytes =>
    routeText (Ipv4.toBytes 4 (network (Ipv4.ofBytes bytes) prefixLen)) prefixLen

/-- `canonical_route_key`. -/
def canonicalRouteKey (value : Json F) : Option String :=
  (parseDestination value).bind fun p => routeKey p.1 p.2

/-- `split_route_key`. -/
def splitRouteKey (key : String) : Option (String × ℤ) :=
  match partition '/' key.toList with
  | (addr, none) => some (String.ofList addr, 32)
  | (addr, some length) =>
    (PyInt.ofString 10 (String.ofList length)).map fun n => (String.ofList addr, n)

/-- One field of `canonical_destination`. -/
def canonicalField (p : String × Json F) : String × Json F :=
  match p.2 with
  | .str s =>
    -- `check_match_values` has refused a destination that has no route key
    if isDestinationField p.1 ∧ s ≠ "" then (p.1, .str ((canonicalRouteKey (.str s : Json F)).getD s))
    else p
  | _ => p

theorem canonicalField_fst (p : String × Json F) : (canonicalField p).1 = p.1 := by
  unfold canonicalField
  split
  · split <;> rfl
  · rfl

/-- `canonical_destination`. -/
def canonicalDestination (m : Match F) : Match F where
  fields := m.fields.map canonicalField
  nodup := by
    have hkeys : (m.fields.map canonicalField).map Prod.fst = m.fields.map Prod.fst := by
      rw [List.map_map]
      exact List.map_congr_left fun p _ => canonicalField_fst p
    rw [hkeys]
    exact m.nodup

/-- `match_dict.get("nw_dst") or match_dict.get("ipv4_dst")`. -/
def destination (m : Match F) : Option (Json F) :=
  match m.get "nw_dst" with
  | some v => if v.truthy fl then some v else m.get "ipv4_dst"
  | none => m.get "ipv4_dst"

/-! ### Entries of `flow_5tuple` -/

/-- Why `_encode_5tuple_value` raises. -/
inductive EncodeError where
  | int (e : IntError)
  | overflow
  | notAnAddress
  | wrongWidth
  deriving DecidableEq, Repr

/-- `int(value).to_bytes(width, "big")`. -/
def intBytes (width : ℕ) (value : Json F) : Except EncodeError (List ℕ) :=
  match value.toInt fl with
  | .error e => .error (.int e)
  | .ok n => if 0 ≤ n ∧ n < 256 ^ width then .ok (Ipv4.toBytes width n.toNat) else .error .overflow

/-- The bytes of a value, `raw`. -/
def rawBytes (width : ℕ) (value : Json F) : Except EncodeError (List ℕ) :=
  match value with
  | .str s =>
    if '.' ∈ s.toList then
      match Ipv4.aton s with
      | some bytes => .ok bytes
      | none => .error .notAnAddress
    else intBytes fl width value
  | _ => intBytes fl width value

/-- `_encode_5tuple_value`: the value and the mask of one key. -/
def encode5tupleValue (k : Key5) (value : Json F) : Except EncodeError (List ℕ × List ℕ) :=
  match rawBytes fl k.width value with
  | .error e => .error e
  | .ok raw =>
    if raw.length ≠ k.width then .error .wrongWidth
    else if Ipv4.ofBytes raw >>> k.bits ≠ 0 then .error .overflow
    else .ok (raw, Ipv4.toBytes k.width (2 ^ k.bits - 1))

/-- `p4_priority`, `none` for an infinite priority, at which it raises. -/
def p4Priority (priority : Json F) : Option ℤ :=
  match priority with
  | .null => some 1
  | value =>
    match value.toInt fl with
    | .ok n => some (max 0 n + 1)
    | .error .overflowError => none
    | .error _ => some 1

/-- One turn of the loop of `five_tuple_keys`. -/
def setKey (keys : Key5 → Option (Json F)) (p : String × Json F) :
    Except (Refusal F) (Key5 → Option (Json F)) :=
  match fiveTupleFieldMap p.1 with
  | none => .ok keys
  | some k =>
    match keys k with
    | some v =>
      if v.pyEq fl p.2 then .ok (Function.update keys k (some p.2))
      else .error (.unsupportedMatch [p.1])
    | none => .ok (Function.update keys k (some p.2))

/-- The loop of `five_tuple_keys`, over fields in order. -/
def setKeys (keys : Key5 → Option (Json F)) :
    List (String × Json F) → Except (Refusal F) (Key5 → Option (Json F))
  | [] => .ok keys
  | p :: fields =>
    match setKey fl keys p with
    | .ok keys' => setKeys keys' fields
    | .error e => .error e

/-- `five_tuple_keys`. -/
def fiveTupleKeys (m : Match F) : Except (Refusal F) (Key5 → Option (Json F)) :=
  setKeys fl (fun _ => none) (sortFields m.fields)

/-! ### Checks -/

/-- The checks `check_match_values` makes of one field. -/
def checkField (prefixOk : Bool) (p : String × Json F) : Option (Refusal F) :=
  if fiveTupleFieldMap p.1 = some .ingressPort then
    match encode5tupleValue fl .ingressPort p.2 with
    | .ok _ => none
    | .error _ => some (.malformedValue p.1 p.2 .inPort)
  else if isAddressField p.1 then
    if prefixOk && isDestinationField p.1 then
      if (parseDestination p.2).isSome then none else some (.malformedValue p.1 p.2 .destination)
    else match p.2 with
      | .str s => if (Ipv4.pton s).isSome then none else some (.malformedValue p.1 p.2 .address)
      | _ => some (.malformedValue p.1 p.2 .address)
  else none

/-- `_normalised_address`: a route key or four bytes. -/
def normalisedAddress (value : Json F) (prefixOk : Bool) : Option (String ⊕ List ℕ) :=
  if prefixOk then (canonicalRouteKey value).map .inl
  else match value with
    | .str s => (Ipv4.pton s).map .inr
    | _ => none

/-- The check that two spellings of one address agree. -/
def checkPair (prefixOk : Bool) (m : Match F) (first second : String) : Option (Refusal F) :=
  match m.get first, m.get second with
  | some a, some b =>
    if normalisedAddress a (prefixOk && isDestinationField first)
        ≠ normalisedAddress b (prefixOk && isDestinationField second) then
      some (.conflictingValues first second a b)
    else none
  | _, _ => none

/-- `check_match_values`: what is wrong with a match's values. -/
def checkMatchValues (m : Match F) : Option (Refusal F) :=
  let prefixOk := !needsFiveTuple m
  ((sortFields m.fields).findSome? (checkField fl prefixOk)).or
    ((checkPair prefixOk m "nw_dst" "ipv4_dst").or (checkPair prefixOk m "nw_src" "ipv4_src"))

/-! ### The entry and its name -/

/-- A table entry, by what tells it apart from the others of its switch. -/
inductive TableEntry where
  /-- `ipv4_lpm`: a value and a prefix length. -/
  | lpm (value : List ℕ) (prefixLen : ℤ)
  /-- `flow_5tuple`: the keys it names, each with value and mask, and a priority. -/
  | fiveTuple (keys : List (Key5 × List ℕ × List ℕ)) (priority : ℤ)
  deriving DecidableEq, Repr

/-- The match of `_build_5tuple_entry`. -/
def fiveTupleMatch (keys : Key5 → Option (Json F)) :
    List Key5 → Except EncodeError (List (Key5 × List ℕ × List ℕ))
  | [] => .ok []
  | k :: ks =>
    match keys k with
    | none => fiveTupleMatch keys ks
    | some v =>
      match encode5tupleValue fl k v, fiveTupleMatch keys ks with
      | .ok encoded, .ok rest => .ok ((k, encoded) :: rest)
      | .error e, _ => .error e
      | _, .error e => .error e

/-- The entry a checked match writes to `flow_5tuple`.  The priority of a P4Runtime entry is a
32-bit number. -/
def fiveTupleEntry (m : Match F) (priority : Json F) : Except (Refusal F) TableEntry :=
  match fiveTupleKeys fl m with
  | .error e => .error e
  | .ok keys =>
    match p4Priority fl priority, fiveTupleMatch fl keys Key5.all with
    | some prio, .ok encoded => if prio < 2 ^ 31 then .ok (.fiveTuple encoded prio) else .error .uncaught
    | _, _ => .error .uncaught

/-- The entry a checked match writes to `ipv4_lpm`. -/
def lpmEntry (m : Match F) : Except (Refusal F) TableEntry :=
  match destination fl m with
  | some (.str dst) =>
    match splitRouteKey dst with
    | some (address, prefixLen) =>
      match Ipv4.aton address with
      | some value => .ok (.lpm value prefixLen)
      | none => .error .uncaught
    | none => .error .uncaught
  | _ => .error .unsupportedRequest

/-- The entry a request writes, the same for `route_flow`, `unroute_flow` and `modify_flow`. -/
def writtenEntry (m : Match F) (priority : Json F) : Except (Refusal F) TableEntry :=
  if unsupportedMatchFields m ≠ [] then .error (.unsupportedMatch (unsupportedMatchFields m))
  else match checkMatchValues fl m with
    | some e => .error e
    | none =>
      let m := canonicalDestination m
      if needsFiveTuple m then fiveTupleEntry fl m priority else lpmEntry fl m

/-- The keys of an entry as a JSON object. -/
def keysObject (keys : Key5 → Option (Json F)) : Json F :=
  .obj (Key5.all.filterMap fun k => (keys k).map fun v => (k.name, v))

/-- `_journal_rule`, of a match after `canonical_destination`. -/
def journalRule (m : Match F) (priority : Json F) : Option (Json F) :=
  if needsFiveTuple m then
    match fiveTupleKeys fl m, p4Priority fl priority with
    | .ok keys, some prio =>
      some (.arr [.str "flow_5tuple", .str ((keysObject keys).dumps fl), .int prio])
    | _, _ => none
  else some (.arr [.str "ipv4_lpm", (destination fl m).getD .null])

end Match

/-! ### Destinations taken apart -/

theorem partition_of_notMem {sep : Char} {cs : List Char} (h : sep ∉ cs) :
    partition sep cs = (cs, none) := by
  have hall : ∀ c ∈ cs, decide (c ≠ sep) = true := fun c hc =>
    decide_eq_true fun hcs => h (hcs ▸ hc)
  rw [partition, List.takeWhile_eq_self_iff.mpr hall, List.dropWhile_eq_nil_iff.mpr hall]

theorem partition_append {sep : Char} {cs : List Char} (h : sep ∉ cs) (rest : List Char) :
    partition sep (cs ++ sep :: rest) = (cs, some rest) := by
  have hall : ∀ c ∈ cs, decide (c ≠ sep) = true := fun c hc =>
    decide_eq_true fun hcs => h (hcs ▸ hc)
  rw [partition, List.takeWhile_append_of_pos hall, List.dropWhile_append_of_pos hall]
  simp

theorem slash_notMem_ntoa (bytes : List ℕ) : '/' ∉ (Ipv4.ntoa bytes).toList :=
  Ipv4.notMem_ntoa (by decide) (by decide) bytes

/-- A prefix length is read back. -/
theorem ofString_toDigits :
    ∀ n < 33, PyInt.ofString 10 (String.ofList (Nat.toDigits 10 n)) = some (n : ℤ) := by
  decide +kernel

end Routing
end NDTwin
