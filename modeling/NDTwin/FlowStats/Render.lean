import NDTwin.Lib.Ipv4
import NDTwin.Lib.Json

/-!
# Table entries as flow statistics

The proxy answers a flow-statistics poll in Ryu's shape, from the entries it reads off the switch.
An entry's match fields are renamed to the ones the kernel's classifier evaluates; a form that has
no such name leaves the whole row out, so that no row is wider than its entry.

## Main definitions

* `Spec`, `Entry`, `RouteBinding` — what is read from the switch, and whose names it is read with.
* `translateMatch` — the match of a row.
* `actionsToRyu`, `openflowPriority` — its actions and priority.
* `entryToRyu`, `renderFlowStatsCounted` — a row, and the whole reply with the rows left out.
-/

namespace NDTwin.FlowStats

variable {F : Type}

/-! ### What is read from the switch -/

/-- A match field, its values as the bytes P4Runtime reports. -/
inductive Spec where
  | exact (value : List ℕ)
  | lpm (value : List ℕ) (prefixLen : ℕ)
  | ternary (value mask : List ℕ)
  | range (low high : List ℕ)
  | optional (value : List ℕ)
  deriving DecidableEq, Repr

/-- An action and its parameters. -/
structure Action where
  name : Option String
  params : List (String × List ℕ)
  deriving DecidableEq, Repr

/-- A table entry, with the names the switch's p4info has for its parts. -/
structure Entry where
  table : Option String
  priority : ℤ
  isDefault : Bool
  fields : List (Option String × Spec)
  action : Option Action
  /-- Bytes and packets, where the table counts them. -/
  counters : Option (ℤ × ℤ)
  deriving DecidableEq, Repr

/-- Where a route binding comes from. -/
inductive BindingSource where
  | baseline
  | package
  deriving DecidableEq, Repr

/-- The names a switch's routes are written under. -/
structure RouteBinding where
  table : String
  matchField : String
  action : String
  portParam : String
  source : BindingSource
  deriving DecidableEq, Repr

/-- NDTwin's own pipeline. -/
def baseline : RouteBinding where
  table := "MyIngress.ipv4_lpm"
  matchField := "hdr.ipv4.dstAddr"
  action := "MyIngress.ipv4_forward"
  portParam := "port"
  source := .baseline

/-! ### Names -/

/-- The match keys of a row that come from an entry. -/
inductive RyuName where
  | nwDst | nwSrc | nwProto | tpSrc | tpDst | inPort
  deriving DecidableEq, Repr

/-- How the reply spells a match key. -/
def RyuName.text : RyuName → String
  | .nwDst => "nw_dst"
  | .nwSrc => "nw_src"
  | .nwProto => "nw_proto"
  | .tpSrc => "tp_src"
  | .tpDst => "tp_dst"
  | .inPort => "in_port"

/-- `RYU_WIDTH`. -/
def RyuName.width : RyuName → ℕ
  | .nwDst => 32
  | .nwSrc => 32
  | .nwProto => 8
  | .tpSrc => 16
  | .tpDst => 16
  | .inPort => 9

/-- Whether a match key is an address. -/
def RyuName.isAddress : RyuName → Bool
  | .nwDst => true
  | .nwSrc => true
  | _ => false

/-- Whether a match key makes a row one about IPv4. -/
def RyuName.isIpv4 : RyuName → Bool
  | .inPort => false
  | _ => true

/-- `FIELD_TO_RYU`. -/
def fieldToRyu (name : String) : Option RyuName :=
  if name = baseline.matchField then some .nwDst
  else if name = "hdr.ipv4.srcAddr" then some .nwSrc
  else if name = "hdr.ipv4.protocol" then some .nwProto
  else if name = "meta.l4_src_port" then some .tpSrc
  else if name = "meta.l4_dst_port" then some .tpDst
  else if name = "standard_metadata.ingress_port" then some .inPort
  else none

/-- `UNRENDERABLE_FIELDS`. -/
def unrenderableField (name : String) : Bool := name = "hdr.ethernet.dstAddr"

/-- `FORWARDING_ACTIONS`: the parameter that carries the port. -/
def forwardingAction (name : String) : Option String :=
  if name = baseline.action then some baseline.portParam
  else if name = "MyIngress.forward_l2" then some "port"
  else none

/-- Whether a switch runs another pipeline than NDTwin's own. -/
def foreign : Option RouteBinding → Bool
  | none => true
  | some binding => binding.source ≠ .baseline

/-- The names a switch's rows are rendered with. -/
structure Vocabulary where
  field : String → Option RyuName
  forwarding : String → Option String

/-- `_vocabulary(binding)`: a package's route field and action beside NDTwin's own. -/
def vocabulary : Option RouteBinding → Vocabulary
  | none => ⟨fieldToRyu, forwardingAction⟩
  | some binding =>
    if binding.source = .baseline then ⟨fieldToRyu, forwardingAction⟩
    else {
      field := fun name => if name = binding.matchField then some .nwDst else fieldToRyu name
      forwarding := fun name =>
        if name = binding.action then some binding.portParam else forwardingAction name }

/-! ### Matches -/

/-- `_ipv4(value)`: short values are padded on the left. -/
def ipv4 (value : List ℕ) : String :=
  Ipv4.ntoa ((List.replicate (4 - value.length) 0 ++ value).take 4)

/-- `_prefix_to_netmask_suffix(prefix_len)`. -/
def prefixToNetmaskSuffix (prefixLen : ℕ) : String :=
  if 32 ≤ prefixLen then "" else "/" ++ toString prefixLen

/-- `is_dont_care(spec)`. -/
def isDontCare : Spec → Bool
  | .ternary _ mask => Ipv4.ofBytes mask = 0
  | _ => false

/-- `n.bit_length()`. -/
def bitLength (n : ℕ) : ℕ := if n = 0 then 0 else n.log2 + 1

/-- What a ternary field comes to. -/
inductive Shape where
  | exact
  | leading (len : ℕ)
  deriving DecidableEq, Repr

/-- `_ternary_as_ryu(ryu_name, spec)`, for a field with a mask. -/
def ternaryAsRyu (name : RyuName) (maskBytes : List ℕ) : Option Shape :=
  let full := 2 ^ name.width - 1
  let mask := Ipv4.ofBytes maskBytes &&& full
  if mask = full then some .exact
  else if name.isAddress then
    let wild := full ^^^ mask
    if wild &&& (wild + 1) = 0 then some (.leading (name.width - bitLength wild)) else none
  else none

/-- The value of a field that has one, under the name it is shown with. -/
def shown (name : RyuName) (value : List ℕ) : Json F :=
  if name.isAddress then .str (ipv4 value) else .int (Ipv4.ofBytes value)

/-- One field that is not a "don't care": its value in the row, or `none` if Ryu cannot say it. -/
def translateSpec (name : RyuName) : Spec → Option (Json F)
  | .range _ _ => none
  | .ternary value mask =>
    match ternaryAsRyu name mask with
    | none => none
    | some (.leading len) => some (.str (ipv4 value ++ prefixToNetmaskSuffix len))
    | some .exact => some (shown name value)
  | .lpm value prefixLen =>
    if name.isAddress then some (.str (ipv4 value ++ prefixToNetmaskSuffix prefixLen))
    else some (.int (Ipv4.ofBytes value))
  | .exact value => some (shown name value)
  | .optional value => some (shown name value)

/-- A match as far as it is translated. -/
structure Translation (F : Type) where
  out : List (RyuName × Json F) := []
  untranslatable : Bool := false
  /-- A field the classifier cannot evaluate has a condition on it. -/
  unrenderable : Bool := false

/-- `out[name] = value`. -/
def setItem (out : List (RyuName × Json F)) (name : RyuName) (value : Json F) :
    List (RyuName × Json F) :=
  match out with
  | [] => [(name, value)]
  | (name', value') :: rest =>
    if name' = name then (name, value) :: rest else (name', value') :: setItem rest name value

/-- One field of an entry, after those before it. -/
def translateField (field : String → Option RyuName) (t : Translation F)
    (p : Option String × Spec) : Translation F :=
  match p.1.bind field with
  | none =>
    if p.1.elim false unrenderableField && !isDontCare p.2 then { t with unrenderable := true }
    else t
  | some name =>
    if isDontCare p.2 then t
    else match translateSpec name p.2 with
      | none => { t with untranslatable := true }
      | some value => { t with out := setItem t.out name value }

/-- `_translate_match(match, field_to_ryu)`: the fields of the row, with the type of packet where
one of them is about IPv4, and whether the row has to be left out. -/
def translateMatch (field : String → Option RyuName) (fields : List (Option String × Spec)) :
    List (String × Json F) × Bool :=
  let t := fields.foldl (translateField field) {}
  let untranslatable := t.untranslatable || (t.unrenderable && !t.out.isEmpty)
  let out := t.out.map fun p => (p.1.text, p.2)
  (if t.out.any fun p => p.1.isIpv4 then out ++ [("dl_type", .int 0x0800)] else out, untranslatable)

/-! ### Rows -/

/-- The name of an action, empty where it has none. -/
def actionName (action : Option Action) : String := (action.bind Action.name).getD ""

/-- Whether a text ends with another. -/
def endsWith (s suffix : String) : Bool := suffix.toList.isSuffixOf s.toList

/-- `_actions_to_ryu(action, forwarding_actions)`. -/
def actionsToRyu (forwarding : String → Option String) (action : Option Action) : List (Json F) :=
  match action with
  | none => []
  | some a =>
    match forwarding (actionName (some a)) with
    | some param =>
      [.str ("OUTPUT:" ++ toString (Ipv4.ofBytes ((a.params.lookup param).getD [])))]
    | none => if endsWith (actionName (some a)) "send_to_cpu" then [.str "OUTPUT:CONTROLLER"] else []

/-- `FIVE_TUPLE_TABLE`. -/
def fiveTupleTable : String := "MyIngress.flow_5tuple"

/-- `_openflow_priority(entry, ndtwin_pipeline)`: the writer's shift is undone for the five-tuple
table, and nothing is shown below zero. -/
def openflowPriority (entry : Entry) (ndtwinPipeline : Bool) : ℤ :=
  if ndtwinPipeline && entry.table = some fiveTupleTable then max 0 (entry.priority - 1)
  else max 0 entry.priority

/-- `entry_to_ryu(entry, …)`; `duration` is the age of the entry in seconds and nanoseconds. -/
def entryToRyu (entry : Entry) (duration : ℤ × ℤ) (voc : Vocabulary) (ndtwinPipeline : Bool) :
    Option (Json F) :=
  if entry.isDefault then none
  else
    let (out, untranslatable) := translateMatch voc.field entry.fields
    if untranslatable then none
    else if out.isEmpty then none
    else some (.obj [
      ("table_id", .int 0),
      ("priority", .int (openflowPriority entry ndtwinPipeline)),
      ("match", .obj out),
      ("actions", .arr (actionsToRyu voc.forwarding entry.action)),
      ("byte_count", .int (entry.counters.elim 0 Prod.fst)),
      ("packet_count", .int (entry.counters.elim 0 Prod.snd)),
      ("duration_sec", .int duration.1),
      ("duration_nsec", .int duration.2),
      ("idle_timeout", .int 0),
      ("hard_timeout", .int 0),
      ("cookie", .int 0),
      ("flags", .int 0),
      ("length", .int 0)])

/-- `name.rsplit(".", 1)[-1]`. -/
def lastPart (name : String) : String :=
  String.ofList ((name.toList.reverse.takeWhile (· ≠ '.')).reverse)

/-- `recognises_action(action, forwarding_actions)`. -/
def recognisesAction (forwarding : String → Option String) (action : Option Action) : Bool :=
  let name := actionName action
  if name = "" then false
  else if (forwarding name).isSome || endsWith name "send_to_cpu" then true
  else lastPart name = "drop" || lastPart name = "NoAction"

/-- The rows rendered so far and how many entries were left out. -/
structure Rendered (F : Type) where
  flows : List (Json F) := []
  unrendered : ℕ := 0

/-- The only table whose entries are rendered, on a package's pipeline. -/
def boundTable (binding : Option RouteBinding) : Option String :=
  if foreign binding then binding.map RouteBinding.table else none

/-- One entry of the reply, after those before it. -/
def renderEntry (binding : Option RouteBinding) (durations : Entry → ℤ × ℤ) (r : Rendered F)
    (entry : Entry) : Rendered F :=
  let voc := vocabulary binding
  let counts := foreign binding && !entry.isDefault
  if counts && (boundTable binding).isSome && entry.table ≠ boundTable binding then
    { r with unrendered := r.unrendered + 1 }
  else if counts && !recognisesAction voc.forwarding entry.action then
    { r with unrendered := r.unrendered + 1 }
  else if !entry.isDefault && (translateMatch (F := F) voc.field entry.fields).2 then
    { r with unrendered := r.unrendered + 1 }
  else
    match entryToRyu entry (durations entry) voc (!foreign binding) with
    | some row => { r with flows := r.flows ++ [row] }
    | none => if counts then { r with unrendered := r.unrendered + 1 } else r

/-- `render_flow_stats_counted(dpid, entries, install_times, binding)`; `durations` is what the
install record says of an entry's age. -/
def renderFlowStatsCounted (dpid : ℕ) (entries : List Entry) (durations : Entry → ℤ × ℤ)
    (binding : Option RouteBinding) : Json F × ℕ :=
  let r := entries.foldl (renderEntry binding durations) {}
  (.obj [(toString dpid, .arr r.flows)], r.unrendered)

end NDTwin.FlowStats
