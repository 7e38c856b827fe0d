import NDTwin.Classifier.Key
import NDTwin.Lib.CText
import NDTwin.Lib.Ipv4
import NDTwin.Lib.Json

/-!
# Reading polled flow entries

A poll is JSON: for each switch its datapath id and its flow entries, an entry's match and its
actions as Ryu spells them.  A field the parser cannot read at all throws and ends the poll; an
address it cannot read leaves its field out of the match, and an action it does not know is
skipped.

## Main definitions

* `Thrown` — the exceptions.
* `parseU64`, `parseI32` — numbers, which may stand as text.
* `parseIpv4WithMaskOrPrefix` — an address with a prefix length or a netmask.
* `buildMaskAndValueFromMatch` — a match as the fields it names and their mask.
* `parseActionsArrayIntoEffect`, `parseEffectFromFlowEntry` — what an entry does.
* `parseRuleFromJson` — an entry as a rule.
* `extractFlowArray` — where the entries of a switch are in its reply.
-/

namespace NDTwin.Classifier

variable {F : Type}

/-- What reading a poll throws. -/
inductive Thrown where
  /-- `std::runtime_error`. -/
  | runtimeError (text : String)
  /-- `std::invalid_argument` and `std::out_of_range` of a number in text. -/
  | number (e : CText.NumberError)
  /-- `json::type_error`, for a member of something that is no object. -/
  | notAnObject
  /-- `json::out_of_range`, for a member that is not there. -/
  | noMember (key : String)
  deriving DecidableEq, Repr

/-- A number in text, or the exception it throws. -/
def ofNumber {α : Type} : Except CText.NumberError α → Except Thrown α
  | .ok v => .ok v
  | .error e => .error (.number e)

/-- The member of an object under a key; nothing has members but an object. -/
def find (j : Json F) (key : String) : Option (Json F) :=
  match j with
  | .obj fields => fields.lookup key
  | _ => none

/-- `j.at(key)`. -/
def at? (j : Json F) (key : String) : Except Thrown (Json F) :=
  match j with
  | .obj fields =>
    match fields.lookup key with
    | some v => .ok v
    | none => .error (.noMember key)
  | _ => .error .notAnObject

/-! ### Numbers -/

/-- The integers JSON has as integers: what needs more than 64 bits is a float. -/
def isInteger (n : ℤ) : Bool := -2 ^ 63 ≤ n && n < 2 ^ 64

/-- Whether a text is read as hexadecimal. -/
def looksHex : List Char → Bool
  | '0' :: x :: _ :: _ => x = 'x' || x = 'X'
  | _ => false

/-- `parseU64(j)`. -/
def parseU64 : Json F → Except Thrown (BitVec 64)
  | .int n =>
    if isInteger n then .ok (BitVec.ofInt 64 n)
    else .error (.runtimeError "parseU64: unsupported json type")
  | .str s =>
    let cs := CText.trim s.toList
    ofNumber (CText.stoull (if looksHex cs then 16 else 10) cs)
  | _ => .error (.runtimeError "parseU64: unsupported json type")

/-- `parseI32(j)`: an integer of JSON is cut down to 32 bits, a text must fit them. -/
def parseI32 : Json F → Except Thrown ℤ
  | .int n =>
    if isInteger n then .ok (BitVec.ofInt 32 n).toInt
    else .error (.runtimeError "parseI32: unsupported json type")
  | .str s => ofNumber (CText.stoi s.toList)
  | _ => .error (.runtimeError "parseI32: unsupported json type")

/-- `parseUint(s, out)`: the whole of a text as a 32-bit number. -/
def parseUint (s : List Char) : Option (BitVec 32) :=
  match CText.strto 10 (CText.cStr s) with
  | some n =>
    match n.toUnsigned with
    | some v => if n.rest = [] ∧ v.toNat ≤ 0xffffffff then some (v.setWidth 32) else none
    | none => none
  | none => none

/-! ### Matches -/

/-- `parseIpv4AddrHost(ip)`. -/
def parseIpv4AddrHost (ip : List Char) : Option (BitVec 32) :=
  (Ipv4.pton (String.ofList (CText.cStr ip))).map fun bytes => BitVec.ofNat 32 (Ipv4.ofBytes bytes)

/-- The mask of a prefix length. -/
def prefixMask (len : ℕ) : BitVec 32 :=
  if len = 0 then 0 else if len = 32 then BitVec.allOnes 32 else BitVec.allOnes 32 <<< (32 - len)

/-- The mask after the slash of an address: none of it is a host, digits are a prefix length, `0x`
a mask in hexadecimal, and anything else must be a dotted quad.  Only a prefix length that no
`int` holds throws. -/
def parseMask (maskStr : List Char) : Except Thrown (Option (BitVec 32)) :=
  if maskStr = [] then .ok (some (BitVec.allOnes 32))
  else if maskStr.all Char.isDigit then do
    let len ← ofNumber (CText.stoi maskStr)
    if len < 0 ∨ 32 < len then return none
    return some (prefixMask len.toNat)
  else if looksHex maskStr then
    match CText.stoull 16 maskStr with
    | .ok v => .ok (some (v.setWidth 32))
    | .error _ => .ok none
  else .ok (parseIpv4AddrHost maskStr)

/-- `parseIpv4WithMaskOrPrefix(j)`: the address and its mask, or `none` where it is neither. -/
def parseIpv4WithMaskOrPrefix : Json F → Except Thrown (Option (BitVec 32 × BitVec 32))
  | .str s =>
    match parseIpv4AddrHost (CText.before '/' s.toList) with
    | none => .ok none
    | some addr => do
      let mask ← parseMask (CText.after '/' s.toList)
      return mask.map fun mask => (addr, mask)
  | _ => .ok none

/-- The fields a match names and their values.  The mask's bytes are written at the offsets of
`packKey`, so the mask is a packed key too. -/
structure Built where
  mask : FlowKey := {}
  value : FlowKey := {}
  deriving DecidableEq, Repr

/-- A numeric field of a match, if the match has it. -/
def setField (j : Option (Json F)) (put : BitVec 64 → Built → Built) (b : Built) :
    Except Thrown Built :=
  match j with
  | none => .ok b
  | some j => do return put (← parseU64 j) b

/-- An address of a match, if the match has it and it can be read. -/
def setIpv4 (j : Option (Json F)) (put : BitVec 32 × BitVec 32 → Built → Built) (b : Built) :
    Except Thrown Built :=
  match j with
  | none => .ok b
  | some j => do
    match ← parseIpv4WithMaskOrPrefix j with
    | none => return b
    | some p => return put p b

def putInPort (v : BitVec 64) (b : Built) : Built where
  mask := { b.mask with inPort := BitVec.allOnes 32 }
  value := { b.value with inPort := v.setWidth 32 }

def putEthType (v : BitVec 64) (b : Built) : Built where
  mask := { b.mask with ethType := BitVec.allOnes 16 }
  value := { b.value with ethType := v.setWidth 16 }

def putIpProto (v : BitVec 64) (b : Built) : Built where
  mask := { b.mask with ipProto := BitVec.allOnes 8 }
  value := { b.value with ipProto := v.setWidth 8 }

def putIpv4Src (p : BitVec 32 × BitVec 32) (b : Built) : Built where
  mask := { b.mask with ipv4Src := b.mask.ipv4Src ||| p.2 }
  value := { b.value with ipv4Src := p.1 }

def putIpv4Dst (p : BitVec 32 × BitVec 32) (b : Built) : Built where
  mask := { b.mask with ipv4Dst := b.mask.ipv4Dst ||| p.2 }
  value := { b.value with ipv4Dst := p.1 }

def putTpSrc (v : BitVec 64) (b : Built) : Built where
  mask := { b.mask with tpSrc := BitVec.allOnes 16 }
  value := { b.value with tpSrc := v.setWidth 16 }

def putTpDst (v : BitVec 64) (b : Built) : Built where
  mask := { b.mask with tpDst := BitVec.allOnes 16 }
  value := { b.value with tpDst := v.setWidth 16 }

def putVlanTci (v : BitVec 64) (b : Built) : Built where
  mask := { b.mask with vlanTci := BitVec.allOnes 16 }
  value := { b.value with vlanTci := v.setWidth 16 }

def putMetadata (v : BitVec 64) (b : Built) : Built where
  mask := { b.mask with metadata := BitVec.allOnes 64 }
  value := { b.value with metadata := v }

/-- `buildMaskAndValueFromMatch(match, outMaskBytes, outValue)`: where a field has two names the
first wins, and of the six port fields the last. -/
def buildMaskAndValueFromMatch (m : Json F) : Except Thrown Built := do
  let b ← setField (find m "in_port") putInPort {}
  let b ← setField ((find m "eth_type").or (find m "dl_type")) putEthType b
  let b ← setField ((find m "ip_proto").or (find m "nw_proto")) putIpProto b
  let b ← setIpv4 ((find m "ipv4_src").or (find m "nw_src")) putIpv4Src b
  let b ← setIpv4 ((find m "ipv4_dst").or (find m "nw_dst")) putIpv4Dst b
  let b ← setField (find m "tcp_src") putTpSrc b
  let b ← setField (find m "tcp_dst") putTpDst b
  let b ← setField (find m "udp_src") putTpSrc b
  let b ← setField (find m "udp_dst") putTpDst b
  let b ← setField (find m "tp_src") putTpSrc b
  let b ← setField (find m "tp_dst") putTpDst b
  let b ← setField (find m "vlan_vid") putVlanTci b
  setField (find m "metadata") putMetadata b

/-! ### Actions -/

/-- `toUpper(s)`. -/
def toUpper (s : List Char) : List Char := s.map Char.toUpper

/-- The port of an `OUTPUT` action: four reserved ones by name, or a number. -/
def outputPort (portStr : List Char) : Option (BitVec 32) :=
  if portStr = "CONTROLLER".toList then some 0xfffffffd
  else if portStr = "LOCAL".toList then some 0xfffffffe
  else if portStr = "FLOOD".toList then some 0xfffffffb
  else if portStr = "NORMAL".toList then some 0xfffffffa
  else parseUint portStr

/-- One action, after the effect of those before it. -/
def parseAction (effect : RuleEffect) : Json F → RuleEffect
  | .str s =>
    let kind := toUpper (CText.before ':' s.toList)
    let rest := CText.after ':' s.toList
    if kind = "OUTPUT".toList ∧ rest ≠ [] then
      match outputPort (toUpper (CText.before ':' rest)) with
      | some port => { effect with outputPorts := effect.outputPorts ++ [port] }
      | none => effect
    else if kind = "GROUP".toList ∧ rest ≠ [] then
      match parseUint rest with
      | some gid => { effect with groupId := some gid }
      | none => effect
    else effect
  | _ => effect

/-- `parseActionsArrayIntoEffect(actions, effect)`. -/
def parseActionsArrayIntoEffect (actions : Json F) (effect : RuleEffect) : RuleEffect :=
  match actions with
  | .arr xs => xs.foldl parseAction effect
  | _ => effect

/-- The table an instruction goes on to, if it is a `GOTO_TABLE`. -/
def gotoTable? (ins : Json F) : Except Thrown (Option (BitVec 8)) :=
  match find ins "type", find ins "table_id" with
  | some (.str t), some j =>
    if t = "GOTO_TABLE" then do return some ((← parseU64 j).setWidth 8) else .ok none
  | _, _ => .ok none

/-- One instruction, after the effect of those before it. -/
def parseInstruction (effect : RuleEffect) (ins : Json F) : Except Thrown RuleEffect := do
  let effect := match ← gotoTable? ins with
    | some t => { effect with gotoTable := some t }
    | none => effect
  match find ins "actions" with
  | some actions => return parseActionsArrayIntoEffect actions effect
  | none => return effect

/-- `parseEffectFromFlowEntry(flow)`. -/
def parseEffectFromFlowEntry (flow : Json F) : Except Thrown RuleEffect :=
  let effect := match find flow "actions" with
    | some actions => parseActionsArrayIntoEffect actions {}
    | none => {}
  match find flow "instructions" with
  | some (.arr instructions) => instructions.foldlM parseInstruction effect
  | _ => .ok effect

/-! ### Entries -/

/-- The mask and value of an entry: no constraint at all where it has no match object. -/
def parseMatch (flow : Json F) : Except Thrown Built :=
  match find flow "match" with
  | some (.obj fields) => buildMaskAndValueFromMatch (.obj fields)
  | _ => .ok {}

/-- `parseRuleFromJson(flow)`. -/
def parseRuleFromJson (flow : Json F) : Except Thrown Rule := do
  let tableId ← match find flow "table_id" with
    | some j => do pure ((← parseU64 j).setWidth 8)
    | none => pure 0
  let priority ← match find flow "priority" with
    | some j => parseI32 j
    | none => pure 0
  let b ← parseMatch flow
  let effect ← parseEffectFromFlowEntry flow
  return {
    tableId, priority, effect
    mask := packKey b.mask
    maskedValue := packKey b.value &&& packKey b.mask }

/-- `extractFlowArray(flowsNode, dpid)`: a reply is the entries themselves, or an object that has
them under the switch's own id, or under the only key there is. -/
def extractFlowArray (flowsNode : Json F) (dpid : BitVec 64) : Option (Json F) :=
  match flowsNode with
  | .arr xs => some (.arr xs)
  | .obj fields =>
    match fields.lookup (toString dpid.toNat) with
    | some j => some j
    | none =>
      match fields with
      | [(_, j)] => some j
      | _ => none
  | _ => none

end NDTwin.Classifier
