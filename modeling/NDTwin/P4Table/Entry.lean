import NDTwin.Lib.Dict
import NDTwin.P4Table.Shape

/-!
# Table entries by name

A switch's p4info gives every table, match field, action and parameter a name and a number.  The
writer takes an entry with names and sends it with numbers, refusing whatever the pipeline cannot
represent before anything is sent; the reader turns what a switch sent back into an entry the writer
takes, and lists none that the writer would refuse.

## Main definitions

* `P4Info`, `Client` — a pipeline, and a client with one.
* `TableEntry` — an entry as it goes over the wire.
* `buildTableEntry` — an entry by name, checked and built.
* `matchAsDict`, `entryAsWritten` — what a switch sent, as it would be written.
* `readTable` — a table, entry by entry.
-/

namespace NDTwin.P4Table

variable {F : Type}

/-! ### Pipelines -/

/-- The number and the two names of a part of a pipeline. -/
structure Preamble where
  id : ℕ
  name : String
  aliasName : String
  deriving DecidableEq, Repr

/-- Whether a part goes by a name. -/
def Preamble.goesBy (p : Preamble) (name : String) : Bool := name = p.name || name = p.aliasName

/-- A table. -/
structure Table where
  preamble : Preamble
  matchFields : List MatchField
  /-- `idle_timeout_behavior != NO_TIMEOUT`. -/
  agesEntries : Bool
  deriving DecidableEq, Repr

/-- The match types of a table's fields. -/
def Table.kinds (table : Table) : List MatchType := table.matchFields.map MatchField.matchType

/-- A parameter of an action. -/
structure Param where
  id : ℕ
  name : String
  bitwidth : ℤ
  deriving DecidableEq, Repr

/-- An action. -/
structure ActionInfo where
  preamble : Preamble
  params : List Param
  deriving DecidableEq, Repr

/-- What a pipeline is made of. -/
structure P4Info where
  tables : List Table
  actions : List ActionInfo
  deriving DecidableEq, Repr

/-- A client of one switch. -/
structure Client where
  deviceId : ℕ
  p4info : P4Info
  deriving DecidableEq, Repr

/-! ### Entries on the wire -/

/-- One match field; `none` where its kind is not one of the five. -/
structure FieldMatch where
  fieldId : ℕ
  wire : Option Wire
  deriving DecidableEq, Repr

/-- One parameter. -/
structure ParamValue where
  paramId : ℕ
  value : List ℕ
  deriving DecidableEq, Repr

/-- The action of an entry. -/
inductive TableAction where
  | none
  | action (actionId : ℕ) (params : List ParamValue)
  | actionProfileMemberId
  | actionProfileGroupId
  | actionProfileActionSet
  deriving DecidableEq, Repr

/-- A table entry. -/
structure TableEntry where
  tableId : ℕ
  fields : List FieldMatch
  action : TableAction
  priority : ℤ
  isDefaultAction : Bool
  idleTimeoutNs : ℤ
  deriving DecidableEq, Repr

/-! ### Names -/

/-- `_table_by_name(name)`. -/
def tableByName (c : Client) (name : String) : Except (Refusal F) Table :=
  match c.p4info.tables.find? fun t => t.preamble.goesBy name with
  | some t => .ok t
  | none => .error (.unknown [.text "table ", .repr (.str name),
      .text s!" is not in the pipeline switch {c.deviceId} is running (",
      .text s!"{c.p4info.tables.length} tables: ",
      .repr (.list (((c.p4info.tables.map fun t => t.preamble.name).mergeSort).take 6 |>.map .str)),
      .text ")"])

/-- `_action_by_name(name)`. -/
def actionByName (c : Client) (name : String) : Except (Refusal F) ActionInfo :=
  match c.p4info.actions.find? fun a => a.preamble.goesBy name with
  | some a => .ok a
  | none => .error (.unknown [.text "action ", .repr (.str name),
      .text s!" is not in the pipeline switch {c.deviceId} is running"])

/-- `_match_field_by_name(table, name)`. -/
def matchFieldByName (table : Table) (name : String) : Except (Refusal F) MatchField :=
  match table.matchFields.find? fun f => f.name = name with
  | some f => .ok f
  | none => .error (.unknown [.text s!"{table.preamble.name} has no match field ",
      .repr (.str name), .text " (it matches on ",
      .repr (.list (table.matchFields.map fun f => .str f.name)), .text ")"])

/-- `_action_param_by_name(action, name)`. -/
def actionParamByName (action : ActionInfo) (name : String) : Except (Refusal F) Param :=
  match action.params.find? fun p => p.name = name with
  | some p => .ok p
  | none => .error (.unknown [.text s!"action {action.preamble.name} has no parameter ",
      .repr (.str name), .text " (it takes ",
      .repr (.list (action.params.map fun p => .str p.name)), .text ")"])

/-- `_match_field_name(table_id, field_id)`. -/
def matchFieldName (info : P4Info) (tableId fieldId : ℕ) : Option String :=
  (((info.tables.filter fun t => t.preamble.id = tableId).flatMap Table.matchFields).find?
    fun f => f.id = fieldId).map MatchField.name

/-- `_table_name(table_id)`. -/
def tableName (info : P4Info) (tableId : ℕ) : Option String :=
  (info.tables.find? fun t => t.preamble.id = tableId).map fun t => t.preamble.name

/-! ### Writing -/

/-- A refusal under no rule, in words only. -/
def invalid {α : Type} (message : Message F) : Except (Refusal F) α := .error (.invalid message none)

/-- The table an entry names. -/
def specTable : PyData F → Except (Refusal F) String
  | .str s => if s = "" then invalid [.text "a table entry must name its 'table'"] else .ok s
  | _ => invalid [.text "a table entry must name its 'table'"]

/-- The match of an entry, for `spec.get("match") or {}`. -/
def specMatch (fl : Floats F) (place : String) (v : PyData F) :
    Except (Refusal F) (List (String × PyData F)) :=
  match v.orEmpty fl with
  | .dict members => .ok members
  | w => invalid [.text (s!"{place}: 'match' must be an object of field name -> value, got " ++
      w.typeName)]

/-- Whether an entry is its table's default. -/
def specDefault (place : String) : Option (PyData F) → Except (Refusal F) Bool
  | none => .ok false
  | some (.bool b) => .ok b
  | some v => invalid [.text s!"{place}: 'default_action' must be true or false, got ", .repr v]

/-- A default action has no match. -/
def checkDefault (place : String) (isDefault : Bool) (members : List (String × PyData F)) :
    Except (Refusal F) Unit :=
  if isDefault && !members.isEmpty then
    invalid [.text (s!"{place}: a default action has no match -- it is what the table does when no " ++
      "entry matched. This one names "),
      .repr (.list ((members.map Prod.fst).mergeSort.map .str))]
  else .ok ()

/-- The match of an entry, built, and the kind of each field in it.  Every name is resolved before
any value is looked at. -/
def buildMatch (table : Table) (members : List (String × PyData F)) (isDefault : Bool) :
    Except (Refusal F) (List FieldMatch × List (String × MatchType)) := do
  let resolved ← members.mapM fun m => do
    let f ← matchFieldByName table m.1
    .ok (f.name, m.2)
  let shaped ← shapeMatch table.preamble.name table.matchFields resolved isDefault
  let fields ← shaped.mapM fun m => do
    let f ← matchFieldByName table m.1
    .ok (⟨f.id, some m.2⟩ : FieldMatch)
  .ok (fields, shaped.map fun m => (m.1, m.2.kind))

/-- One parameter of an action, built. -/
def buildParam (action : ActionInfo) (member : String × PyData F) :
    Except (Refusal F) ParamValue := do
  let p ← actionParamByName action member.1
  let value ← encodeValue member.2 p.bitwidth
  .ok ⟨p.id, value⟩

/-- The parameters of an action, none of which may be left out. -/
def buildParams (action : ActionInfo) (members : List (String × PyData F)) :
    Except (Refusal F) (List ParamValue) :=
  let missing := action.params.filter fun p => p.name ∉ members.map Prod.fst
  if missing.isEmpty then members.mapM (buildParam action)
  else invalid [.text s!"{action.preamble.name} takes ",
    .repr (.list (action.params.map fun p => .str p.name)), .text " and this entry omits ",
    .repr (.list (missing.map fun p => .str p.name)),
    .text "; an omitted parameter would be written as zero"]

/-- The action of an entry, built. -/
def buildAction (c : Client) (fl : Floats F) (place : String) (name params : PyData F) :
    Except (Refusal F) TableAction :=
  match name with
  | .none => .ok .none
  | .str s =>
    if s = "" then invalid [.text s!"{place}: 'action_name' must be a non-empty string"]
    else do
      let action ← actionByName c s
      match params.orEmpty fl with
      | .dict members => do
        let values ← buildParams action members
        .ok (.action action.preamble.id values)
      | w => invalid [.text (s!"{place}: 'action_params' must be an object, got " ++ w.typeName)]
  | _ => invalid [.text s!"{place}: 'action_name' must be a non-empty string"]

/-- `IDLE_TIMEOUT_NS_MAX`. -/
def idleTimeoutNsMax : ℤ := 2 ^ 63 - 1

/-- A number of nanoseconds that a table may keep for an entry. -/
def checkIdle (table : Table) (idle : ℤ) (isDefault : Bool) : Except (Refusal F) ℤ :=
  let place := table.preamble.name
  if ¬ (0 ≤ idle ∧ idle ≤ idleTimeoutNsMax) then
    invalid [.text s!"{place}: 'idle_timeout_ns' {idle} is outside 0..{idleTimeoutNsMax}"]
  else if idle ≠ 0 ∧ !table.agesEntries then
    invalid [.text (s!"{place} keeps no idle timeout: the program does not declare it with " ++
      s!"support_timeout = true, so the switch has nowhere to put idle_timeout_ns {idle}. Leave " ++
      "the key out.")]
  else if idle ≠ 0 ∧ isDefault then
    invalid [.text (s!"{place}: a default entry matches nothing, so it never goes idle and takes " ++
      s!"no idle_timeout_ns (got {idle})")]
  else .ok idle

/-- The digits after the `0x` of an idle timeout, where that is how it is given. -/
def hexIdle (s : String) : Option (List Char) :=
  match s.toList with
  | '0' :: x :: ds => if x = 'x' ∨ x = 'X' then some ds else none
  | _ => none

/-- The number that hexadecimal digits, and nothing else, write. -/
def hexOnly (ds : List Char) : Option ℕ :=
  if ds.isEmpty ∨ ds.any fun c => (PyBytes.hexDigit? c).isNone then none
  else some (ds.foldl (fun n c => n * 16 + (PyBytes.hexDigit? c).getD 0) 0)

/-- `_idle_timeout(table, idle, is_default)`. -/
def idleTimeout (table : Table) (idle : PyData F) (isDefault : Bool) : Except (Refusal F) ℤ :=
  let place := table.preamble.name
  let wrong : Except (Refusal F) ℤ :=
    invalid [.text (s!"{place}: 'idle_timeout_ns' must be an integer number of nanoseconds, or a " ++
      "\"0x...\" string, got "), .repr idle]
  match idle with
  | .none => .ok 0
  | .int n => checkIdle table n isDefault
  | .str s =>
    match hexIdle s with
    | none => wrong
    | some ds =>
      match hexOnly ds with
      | some n => checkIdle table n isDefault
      | none => invalid [.text s!"{place}: 'idle_timeout_ns' ", .repr (.str s),
          .text " is not a hexadecimal number"]
  | _ => wrong

/-- `build_table_entry(spec)`. -/
def buildTableEntry (c : Client) (fl : Floats F) :
    PyData F → Except (Refusal F) (TableEntry × List (String × MatchType))
  | .dict spec => do
    let name ← specTable (PyData.get spec "table")
    let table ← tableByName c name
    let members ← specMatch fl name (PyData.get spec "match")
    let isDefault ← specDefault name (spec.lookup "default_action")
    checkDefault name isDefault members
    let (fields, types) ← buildMatch table members isDefault
    let action ← buildAction c fl name (PyData.get spec "action_name")
      (PyData.get spec "action_params")
    let priority ← shapePriority table.preamble.name table.kinds (PyData.get spec "priority")
      isDefault
    let idle ← idleTimeout table (PyData.get spec "idle_timeout_ns") isDefault
    .ok (⟨table.preamble.id, fields, action, priority, isDefault, idle⟩, types)
  | v => invalid [.text ("a table entry must be an object, got " ++ v.typeName)]

/-! ### Reading -/

/-- `_match_as_dict(table_id, match)`: a field of none of the five kinds is passed over. -/
def matchAsDict (info : P4Info) (tableId : ℕ) (fields : List FieldMatch) :
    Dict (Option String) Wire :=
  Dict.ofList (fields.filterMap fun m =>
    m.wire.map fun w => (matchFieldName info tableId m.fieldId, w))

/-- One match field that a switch sent, as it would be written. -/
def fieldAsWritten (table : Table) (member : Option String × Wire) :
    Except (Refusal F) (String × Json F) := do
  let name := member.1.getD ""
  let place := table.preamble.name
  let f ← matchFieldByName table name
  if member.2.kind ≠ f.matchType then
    invalid [.text (s!"{place}.{name} is declared {f.matchType.name} and the switch sent a " ++
      member.2.kind.name.toLower ++ " match")]
  else do
    let shown ← renderField f.bitwidth member.2
    .ok (name, shown)

/-- The match that a switch sent, as it would be written. -/
def fieldsAsWritten (info : P4Info) (table : Table) (te : TableEntry) :
    Except (Refusal F) (List (String × Json F)) :=
  let spelled := matchAsDict info te.tableId te.fields
  if none ∈ spelled.keys ∨ spelled.entries.length ≠ te.fields.length then
    invalid [.text (s!"{table.preamble.name}: the switch sent a match field this p4info does not " ++
      "describe (field ids "),
      .repr (.list ((te.fields.map fun m => (m.fieldId : ℤ)).mergeSort.map .int)), .text ")"]
  else spelled.entries.mapM (fieldAsWritten table)

/-- The parameters an action declares, taken out of those that a switch sent, with what is left. -/
def paramsAsWritten (place : String) (action : ActionInfo) :
    List Param → Dict ℕ (List ℕ) → Dict String (Json F) →
      Except (Refusal F) (Dict String (Json F) × Dict ℕ (List ℕ))
  | [], values, shown => .ok (shown, values)
  | p :: params, values, shown =>
    match values.get? p.id with
    | none => invalid [.text s!"{place}: the switch sent {action.preamble.name} without its parameter ",
        .repr (.str p.name)]
    | some raw => do
      let v ← renderValue raw p.bitwidth
      paramsAsWritten place action params (values.erase p.id) (shown.set p.name v)

/-- What a switch sent of an action that is not one of its own. -/
def profileAction (place which : String) : Except (Refusal F) (String × List (String × Json F)) :=
  invalid [.text (s!"{place}: the entry's action is an action profile's ({which}), which POST " ++
    "/p4/table_entry cannot write")]

/-- The action that a switch sent, as it would be written: its name and its parameters. -/
def actionAsWritten (info : P4Info) (place : String) :
    TableAction → Except (Refusal F) (String × List (String × Json F))
  | .none => invalid [.text (s!"{place}: the switch sent the entry without an action, and POST " ++
      "/p4/table_entry takes a modify only with one")]
  | .action actionId params =>
    match info.actions.find? fun a => a.preamble.id = actionId with
    | none => invalid [.text (s!"{place}: the switch sent action id {actionId}, which this p4info " ++
        "does not describe")]
    | some action => do
      let (shown, left) ← paramsAsWritten place action action.params
        (Dict.ofList (params.map fun p => (p.paramId, p.value))) Dict.empty
      if left.entries.isEmpty then .ok (action.preamble.name, shown.entries)
      else invalid [.text s!"{place}: the switch sent parameter ids ",
        .repr (.list ((left.keys.map fun (id : ℕ) => (id : ℤ)).mergeSort.map .int)),
        .text s!" that {action.preamble.name} does not declare"]
  | .actionProfileMemberId => profileAction place "action_profile_member_id"
  | .actionProfileGroupId => profileAction place "action_profile_group_id"
  | .actionProfileActionSet => profileAction place "action_profile_action_set"

/-- `_read_priority(te, has_priority)`. -/
def readPriority (te : TableEntry) (hasPriority : Bool) : Json F :=
  if hasPriority && !te.isDefaultAction then .int te.priority else .null

/-- `_idle_timeout_as_json(idle)`. -/
def idleTimeoutAsJson (idle : ℤ) : Json F :=
  if 2 ^ jsonExactIntBits.toNat ≤ idle then .str (String.ofList (PyInt.hexNumber idle.toNat))
  else .int idle

/-- The object that an entry is listed as. -/
def writtenSpec (table : Table) (te : TableEntry) (fields : List (String × Json F))
    (action : String × List (String × Json F)) : List (String × Json F) :=
  [("table", .str table.preamble.name), ("match", .obj fields), ("action_name", .str action.1),
    ("action_params", .obj action.2),
    ("priority", readPriority te (tableHasPriorityColumn table.kinds)),
    ("default_action", .bool te.isDefaultAction)] ++
  if table.agesEntries && !te.isDefaultAction then
    [("idle_timeout_ns", idleTimeoutAsJson te.idleTimeoutNs)]
  else []

/-- `_entry_as_written(table, te, has_priority)`. -/
def entryAsWritten (c : Client) (fl : Floats F) (table : Table) (te : TableEntry) :
    Except (Refusal F) (Json F) := do
  let fields ← fieldsAsWritten c.p4info table te
  let action ← actionAsWritten c.p4info table.preamble.name te.action
  let spec : Json F := .obj (writtenSpec table te fields action)
  -- built here and written nowhere: an entry is only listed if the writer takes it
  match buildTableEntry c fl (.ofJson spec) with
  | .ok _ => .ok spec
  | .error (.invalid message _) =>
    invalid (.text "POST /p4/table_entry would refuse it: " :: message)
  | .error (.unsupported message) =>
    invalid (.text "POST /p4/table_entry would refuse it: " :: message)
  | .error refusal => .error refusal

/-- An entry that the writer's shape cannot say. -/
structure Unrendered (F : Type) where
  defaultAction : Bool
  priority : Json F
  reason : Message F

/-- What `read_table` answers. -/
structure TableRead (F : Type) where
  table : String
  entries : List (Json F)
  unrendered : List (Unrendered F)

/-- The entries of a table among those that a switch sent, those of the two reads in turn. -/
def answered (table : Table) (replies : Bool → List TableEntry) : List TableEntry :=
  [false, true].flatMap fun default => (replies default).filter fun te =>
    te.tableId = table.preamble.id ∧ te.isDefaultAction = default

/-- The turn of one entry: it is listed, or what is wrong with it is; any other error ends the
call. -/
def readEntry (c : Client) (fl : Floats F) (table : Table) (te : TableEntry) :
    Except (Refusal F) (Json F ⊕ Unrendered F) :=
  let unrendered (message : Message F) : Unrendered F :=
    ⟨te.isDefaultAction, readPriority te (tableHasPriorityColumn table.kinds), message⟩
  match entryAsWritten c fl table te with
  | .ok spec => .ok (.inl spec)
  | .error (.invalid message _) => .ok (.inr (unrendered message))
  | .error (.unsupported message) => .ok (.inr (unrendered message))
  | .error refusal => .error refusal

/-- `read_table(name)`, where the switch answers both reads. -/
def readTable (c : Client) (fl : Floats F) (name : String) (replies : Bool → List TableEntry) :
    Except (Refusal F) (TableRead F) := do
  let table ← tableByName c name
  let items ← (answered table replies).mapM (readEntry c fl table)
  let noDefault : List (Unrendered F) :=
    if (answered table replies).any TableEntry.isDefaultAction then []
    else [⟨true, .null, [.text (s!"the switch returned no default entry for " ++
      table.preamble.name ++ ", so what this table does when nothing matches is not known")]⟩]
  .ok ⟨table.preamble.name, items.filterMap Sum.getLeft?, items.filterMap Sum.getRight? ++ noDefault⟩

end NDTwin.P4Table
