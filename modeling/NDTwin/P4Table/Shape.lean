import Mathlib.Data.Nat.Bitwise
import NDTwin.Lib.PyData
import NDTwin.Lib.PyLiteral
import NDTwin.Routing.Match

/-!
# The shape of a table entry

What an entry's match fields and its priority may look like, which the writer and the pre-flight
check decide in one place: every value is as wide as its field, and each set of packets has one
spelling.

## Main definitions

* `MatchType`, `Wire` — the kinds of match, and a match field as it goes over the wire.
* `encodeValue` — one value of a field, in as many bytes as the field has.
* `shapeField`, `shapeMatch`, `shapePriority` — a field, a match and a priority, checked.
* `renderValue`, `renderField` — what a switch sent, as it would be written.
-/

namespace NDTwin.P4Table

variable {F : Type}

/-! ### Refusals -/

/-- The rules an entry is refused by. -/
inductive Rule where
  | v1 | v2 | v3 | v4 | v5 | v6 | v8 | v9
  deriving DecidableEq, Repr

/-- Why an entry is refused. -/
inductive Refusal (F : Type) where
  /-- `TableEntryInvalid`. -/
  | invalid (message : Message F) (rule : Option Rule)
  /-- `TableEntryUnsupported`. -/
  | unsupported (message : Message F)
  /-- `KeyError`. -/
  | unknown (message : Message F)
  /-- A `ValueError` of Python's own. -/
  | valueError

/-- A refusal by a rule, in words only. -/
def refuse {α : Type} (rule : Rule) (message : String) : Except (Refusal F) α :=
  .error (.invalid [.text message] (some rule))

/-- A refusal by a rule, whose words begin with a value. -/
def refuseValue {α : Type} (rule : Rule) (v : PyData F) (message : String) :
    Except (Refusal F) α :=
  .error (.invalid [.repr v, .text message] (some rule))

/-! ### Values -/

/-- The match types of a p4info. -/
inductive MatchType where
  | unspecified | exact | lpm | ternary | range | optional
  deriving DecidableEq, Repr

/-- A match type's name in the p4info. -/
def MatchType.name : MatchType → String
  | .unspecified => "UNSPECIFIED"
  | .exact => "EXACT"
  | .lpm => "LPM"
  | .ternary => "TERNARY"
  | .range => "RANGE"
  | .optional => "OPTIONAL"

/-- `BUILDABLE_MATCH_TYPES`. -/
def buildableMatchTypes : List MatchType := [.exact, .lpm, .ternary, .range, .optional]

/-- `PRIORITY_MATCH_TYPES`. -/
def priorityMatchTypes : List MatchType := [.ternary, .range, .optional]

/-- `PRIORITY_MAX`. -/
def priorityMax : ℤ := 2 ^ 31 - 1

/-- `OMIT_THE_FIELD`. -/
def omitTheField : String := "omit the field"

/-- How many bytes a field has. -/
def byteWidth (bitwidth : ℤ) : ℕ := (bitwidth.toNat + 7) / 8

/-- The largest value of a field. -/
def maxValue (bitwidth : ℤ) : ℤ := 2 ^ bitwidth.toNat - 1

/-- A number in the bytes of a field that it fits. -/
def encodeInt (n bitwidth : ℤ) : Except (Refusal F) (List ℕ) :=
  if n < 0 then refuse .v2 s!"{n} is negative; P4 fields are unsigned"
  else if maxValue bitwidth < n then
    refuse .v2 (s!"{n} does not fit in bit<{bitwidth}> (max {maxValue bitwidth}); a value this " ++
      "wide would have to be truncated, and a truncated rule matches traffic nobody asked about")
  else .ok (Ipv4.toBytes (byteWidth bitwidth) n.toNat)

/-- A text with a colon in it: a MAC address. -/
def encodeMac (text : List Char) (bitwidth : ℤ) : Except (Refusal F) (List ℕ) :=
  let shown := PyData.str (String.ofList text)
  if bitwidth ≠ 48 then
    refuseValue .v2 shown s!" is a MAC address (48 bits) and the field is bit<{bitwidth}>"
  else
    let groups := Ipv4.split ':' text
    if groups.length ≠ 6 ∨ groups.any fun g => g.length ≠ 2 then
      refuseValue .v2 shown " is not a MAC address like 08:00:00:00:01:11"
    else match PyBytes.fromhex groups.flatten with
      | some bytes => .ok bytes
      | none => refuseValue .v2 shown " is not a MAC address like 08:00:00:00:01:11"

/-- A text with a point in it: an IPv4 address.  Python takes no text with a null character in it to
the library. -/
def encodeAddress (text : List Char) (bitwidth : ℤ) : Except (Refusal F) (List ℕ) :=
  let shown := PyData.str (String.ofList text)
  if bitwidth ≠ 32 then
    refuseValue .v2 shown s!" is an IPv4 address (32 bits) and the field is bit<{bitwidth}>"
  else if Char.ofNat 0 ∈ text then .error .valueError
  else match Ipv4.aton (String.ofList text) with
    | some bytes => .ok bytes
    | none => refuseValue .v2 shown " is not an IPv4 address"

/-- A text: a MAC address, an IPv4 address, or an integer literal. -/
def encodeText (text : List Char) (bitwidth : ℤ) : Except (Refusal F) (List ℕ) :=
  if ':' ∈ text then encodeMac text bitwidth
  else if '.' ∈ text then encodeAddress text bitwidth
  else match PyInt.literal text with
    | some n => encodeInt n bitwidth
    | none => refuseValue .v2 (.str (String.ofList text))
        " is neither an address, a MAC, nor an integer literal"

/-- `encode_value(value, bitwidth)`. -/
def encodeValue (value : PyData F) (bitwidth : ℤ) : Except (Refusal F) (List ℕ) :=
  if bitwidth ≤ 0 then
    refuse .v2 (s!"this pipeline's p4info gives the field a bitwidth of {bitwidth}; a field with " ++
      "no width has no encoding, so nothing is guessed here")
  else match value with
    | .bytes raw =>
      -- taken for encoded: only its length is looked at
      if raw.length ≠ byteWidth bitwidth then
        refuse .v2
          s!"a bit<{bitwidth}> field takes {byteWidth bitwidth} byte(s), got {raw.length}"
      else .ok raw
    | .bool b =>
      refuseValue .v2 (.bool b) s!" is a JSON boolean, not a value for a bit<{bitwidth}> field"
    | .str s => encodeText (Routing.strip s.toList) bitwidth
    | .int n => encodeInt n bitwidth
    | v => refuseValue .v2 v s!" ({v.typeName}) is not a value for a bit<{bitwidth}> field"

/-- A refusal with the place it is about before it. -/
def Refusal.under (place : String) : Refusal F → Refusal F
  | .invalid message rule => .invalid (.text (place ++ ": ") :: message) rule
  | refusal => refusal

/-- `_encode_in_field(where, value, bitwidth)`. -/
def encodeInField (place : String) (value : PyData F) (bitwidth : ℤ) :
    Except (Refusal F) (List ℕ) := do
  let raw ← (encodeValue value bitwidth).mapError (Refusal.under place)
  if maxValue bitwidth < Ipv4.ofBytes raw then
    .error (.invalid [.text (place ++ ": "), .repr value,
      .text s!" does not fit in bit<{bitwidth}> (max {maxValue bitwidth})"] (some .v2))
  else .ok raw

/-! ### Match fields -/

/-- A match field as it goes over the wire. -/
inductive Wire where
  | exact (value : List ℕ)
  | lpm (value : List ℕ) (prefixLen : ℤ)
  | ternary (value mask : List ℕ)
  | range (low high : List ℕ)
  | optional (value : List ℕ)
  deriving DecidableEq, Repr

/-- The match type of a field on the wire. -/
def Wire.kind : Wire → MatchType
  | .exact _ => .exact
  | .lpm _ _ => .lpm
  | .ternary _ _ => .ternary
  | .range _ _ => .range
  | .optional _ => .optional

/-- What a match field says, its bytes as the numbers they stand for. -/
inductive Numbers where
  | exact (value : ℕ)
  | lpm (value : ℕ) (prefixLen : ℤ)
  | ternary (value mask : ℕ)
  | range (low high : ℕ)
  | optional (value : ℕ)
  deriving DecidableEq, Repr

/-- The numbers of a match field. -/
def Wire.numbers : Wire → Numbers
  | .exact value => .exact (Ipv4.ofBytes value)
  | .lpm value prefixLen => .lpm (Ipv4.ofBytes value) prefixLen
  | .ternary value mask => .ternary (Ipv4.ofBytes value) (Ipv4.ofBytes mask)
  | .range low high => .range (Ipv4.ofBytes low) (Ipv4.ofBytes high)
  | .optional value => .optional (Ipv4.ofBytes value)

/-- `table_has_priority_column(kinds)`. -/
def tableHasPriorityColumn (kinds : List MatchType) : Bool :=
  kinds.any fun kind => priorityMatchTypes.contains kind

/-- `check_lpm(where, value_bytes, prefix_len, bitwidth)`. -/
def checkLpm (place : String) (valueBytes : List ℕ) (prefixLen bitwidth : ℤ) :
    Except (Refusal F) Unit :=
  if prefixLen = 0 then
    refuse .v5 (place ++ ": an lpm prefix of 0 matches everything, which an entry says by leaving " ++
      "the field out -- " ++ omitTheField)
  else
    let hostBits := bitwidth - prefixLen
    if 0 < hostBits ∧ Ipv4.ofBytes valueBytes &&& (2 ^ hostBits.toNat - 1) ≠ 0 then
      refuse .v9 (place ++ s!": the value has bits set beyond its /{prefixLen} prefix; bmv2 " ++
        "refuses an lpm value that is not its own network address and does not mask it for you")
    else .ok ()

/-- A value by itself, or the only one of a list. -/
def single (place kind : String) : PyData F → Except (Refusal F) (PyData F)
  | .list [v] => .ok v
  | .list vs =>
    .error (.invalid [.text s!"{place} is an {kind} match, so its value is a plain value or a ",
      .text "one-element list, not ", .repr (.list vs)] (some .v1))
  | v => .ok v

/-- The two values of a list of two. -/
def pair (place kind parts : String) : PyData F → Except (Refusal F) (PyData F × PyData F)
  | .list [v, w] => .ok (v, w)
  | raw =>
    .error (.invalid [.text s!"{place} is {kind} match, so its value is {parts}; got ", .repr raw]
      (some .v1))

/-- The prefix length of an lpm field. -/
def shapePrefixLen (place : String) (bitwidth : ℤ) : PyData F → Except (Refusal F) ℤ
  | .int n =>
    if 0 ≤ n ∧ n ≤ bitwidth then .ok n
    else refuse .v1 s!"{place}: prefix length {n} is outside 0..{bitwidth}"
  | v =>
    .error (.invalid [.text s!"{place}: the prefix length must be an integer, got ", .repr v]
      (some .v1))

/-- A ternary field whose value and mask are encoded. -/
def shapeTernary (place : String) (raw rawMask : PyData F) (value mask : List ℕ) :
    Except (Refusal F) Wire :=
  if Ipv4.ofBytes mask = 0 then
    refuse .v5 (place ++ ": a mask of 0 matches everything, which an entry says by leaving the " ++
      "field out -- " ++ omitTheField)
  else if Nat.ldiff (Ipv4.ofBytes value) (Ipv4.ofBytes mask) ≠ 0 then
    .error (.invalid [.text s!"{place}: the value ", .repr raw,
      .text " has bits set outside its mask ", .repr rawMask,
      .text "; the entry would never match what its author meant, and the value is not masked ",
      .text "for you"] (some .v3))
  else .ok (.ternary value mask)

/-- A range whose bounds are encoded. -/
def shapeRange (place : String) (rawLow rawHigh : PyData F) (bitwidth : ℤ) (low high : List ℕ) :
    Except (Refusal F) Wire :=
  if Ipv4.ofBytes high < Ipv4.ofBytes low then
    .error (.invalid [.text s!"{place}: the range [", .repr rawLow, .text ", ", .repr rawHigh,
      .text "] has low above high"] (some .v4))
  else if Ipv4.ofBytes low = 0 ∧ (Ipv4.ofBytes high : ℤ) = maxValue bitwidth then
    refuse .v5 (s!"{place}: [0, {maxValue bitwidth}] is the whole range and matches everything, " ++
      "which an entry says by leaving the field out -- " ++ omitTheField)
  else .ok (.range low high)

/-- `shape_field(where, kind, bitwidth, raw)`. -/
def shapeField (place : String) (kind : MatchType) (bitwidth : ℤ) (raw : PyData F) :
    Except (Refusal F) Wire :=
  match kind with
  | .unspecified =>
    .error (.unsupported [.text (s!"{place} is a {kind.name} match, and this proxy builds " ++
      ", ".intercalate (buildableMatchTypes.map MatchType.name) ++
      " entries only. Nothing was written.")])
  | .exact => do
    let value ← encodeValue (← single place kind.name raw) bitwidth
    .ok (.exact value)
  | .lpm => do
    let (value, rawLen) ← pair place "an LPM" "[value, prefix_len]" raw
    let prefixLen ← shapePrefixLen place bitwidth rawLen
    let encoded ← encodeValue value bitwidth
    checkLpm place encoded prefixLen bitwidth
    .ok (.lpm encoded prefixLen)
  | .ternary => do
    let (rawValue, rawMask) ← pair place "a TERNARY" "[value, mask]" raw
    let value ← encodeInField place rawValue bitwidth
    let mask ← encodeInField place rawMask bitwidth
    shapeTernary place rawValue rawMask value mask
  | .range => do
    let (rawLow, rawHigh) ← pair place "a RANGE" "[low, high]" raw
    let low ← encodeInField place rawLow bitwidth
    let high ← encodeInField place rawHigh bitwidth
    shapeRange place rawLow rawHigh bitwidth low high
  | .optional => do
    let value ← encodeInField place (← single place kind.name raw) bitwidth
    .ok (.optional value)

/-- A match field of a table, as the p4info declares it. -/
structure MatchField where
  id : ℕ
  name : String
  bitwidth : ℤ
  matchType : MatchType
  /-- A width is an `int32`. -/
  bitwidth_lt : bitwidth < 2 ^ 31 := by decide
  deriving DecidableEq, Repr

/-- One member of a match, where `by_name` has its field: of two fields of one name the later. -/
def shapeMember (tableName : String) (fields : List MatchField) (member : String × PyData F) :
    Except (Refusal F) (String × Wire) :=
  match fields.reverse.find? fun f => f.name = member.1 with
  | none => .error (.unknown [.repr (.str member.1)])
  | some f => do
    let wire ← shapeField (tableName ++ "." ++ member.1) f.matchType f.bitwidth member.2
    .ok (member.1, wire)

/-- `shape_match(table_name, fields, match, is_default)`. -/
def shapeMatch (tableName : String) (fields : List MatchField) (members : List (String × PyData F))
    (isDefault : Bool) : Except (Refusal F) (List (String × Wire)) := do
  let shaped ← members.mapM (shapeMember tableName fields)
  let missing := fields.filter fun f => f.matchType = .exact ∧ f.name ∉ shaped.map Prod.fst
  if !isDefault && !missing.isEmpty then
    .error (.invalid [.text s!"{tableName}: ", .repr (.list (missing.map fun f => .str f.name)),
      .text (" is an EXACT field and an entry cannot leave one out; only TERNARY, RANGE, OPTIONAL " ++
        "and LPM fields mean 'any value' when omitted")] (some .v8))
  else .ok shaped

/-- `shape_priority(table_name, kinds, priority, is_default)`. -/
def shapePriority (tableName : String) (kinds : List MatchType) (priority : PyData F)
    (isDefault : Bool) : Except (Refusal F) ℤ :=
  match priority with
  | .none => go 0
  | .int n => go n
  | v =>
    .error (.invalid [.text s!"{tableName}: 'priority' must be an integer or null, got ", .repr v]
      (some .v6))
where
  /-- The rest of it, for `priority or 0`. -/
  go (value : ℤ) : Except (Refusal F) ℤ :=
    if !tableHasPriorityColumn kinds then
      if value ≠ 0 then
        .error (.invalid [.text s!"priority not honourable on this table: {tableName} matches only on ",
          .repr (.list (kinds.map fun kind => .str kind.name)),
          .text (s!" fields, which have no priority column -- precedence there is the prefix " ++
            s!"length and the table holds one entry per key, so priority {value} cannot select an " ++
            "entry. Omit it, or write to a table with a ternary field.")] (some .v6))
      else .ok 0
    else if isDefault then
      if value ≠ 0 then
        refuse .v6 (s!"{tableName}: a default entry takes no priority (got {value}); the switch " ++
          "refuses a non-zero one")
      else .ok 0
    else if 1 ≤ value ∧ value ≤ priorityMax then .ok value
    else
      .error (.invalid [.text (s!"{tableName} has a TERNARY, RANGE or OPTIONAL field, so every " ++
        s!"insert, modify and delete names a priority in 1..{priorityMax} (got "), .repr priority,
        .text ("). The number is part of the entry's identity: a modify or a delete repeats the " ++
          "one the insert used, and the switch answers a different one with NOT_FOUND.")] (some .v6))

/-! ### Reading back -/

/-- `JSON_EXACT_INT_BITS`. -/
def jsonExactIntBits : ℤ := 53

/-- `render_value(raw, bitwidth)`.  Python shifts by no negative width. -/
def renderValue (raw : List ℕ) (bitwidth : ℤ) : Except (Refusal F) (Json F) :=
  let number := Ipv4.ofBytes raw
  if bitwidth < 0 then .error .valueError
  else if maxValue bitwidth < number then
    refuse .v2 ("the switch sent " ++ String.ofList (PyInt.hexNumber number) ++
      s!" for a bit<{bitwidth}> field, which does not fit")
  else if bitwidth = 32 then .ok (.str (Ipv4.ntoa (Ipv4.toBytes 4 number)))
  else if bitwidth = 48 then
    .ok (.str (String.ofList (Ipv4.unsplit ':' ((Ipv4.toBytes 6 number).map PyBytes.hexByte))))
  else if jsonExactIntBits < bitwidth then .ok (.str (String.ofList (PyInt.hexNumber number)))
  else .ok (.int number)

/-- `render_field(where, bitwidth, wire)`, for the kinds of match that the wire has. -/
def renderField (bitwidth : ℤ) : Wire → Except (Refusal F) (Json F)
  | .exact value => renderValue value bitwidth
  | .optional value => renderValue value bitwidth
  | .lpm value prefixLen => do
    let value ← renderValue value bitwidth
    .ok (.arr [value, .int prefixLen])
  | .ternary value mask => do
    let value ← renderValue value bitwidth
    let mask ← renderValue mask bitwidth
    .ok (.arr [value, mask])
  | .range low high => do
    let low ← renderValue low bitwidth
    let high ← renderValue high bitwidth
    .ok (.arr [low, high])

end NDTwin.P4Table
