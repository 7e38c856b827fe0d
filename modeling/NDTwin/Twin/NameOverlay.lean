import NDTwin.Lib.Fallible
import NDTwin.Lib.JsonText
import NDTwin.Twin.Discovery

/-!
# Names that outlive the process

The names an operator gives to switches and hosts go into the graph and into an overlay file beside
the model, which itself is never written: switches under their dpid, hosts under their mac.  When
the process starts again it reads the model and lays the overlay over it.

A rename reads the overlay before it touches the graph, so that an overlay it cannot read refuses
the whole rename; what fails later has already changed the graph.

## Main definitions

* `NamedVertex`, `OverlayFile`, `NameState` — the vertices, the file, and both.
* `readNameOverlayForWriting`, `setOverlayName`, `setVertexNickname`, `setVertexDeviceName` — a
  rename.
* `applyNicknameOverlay`, `boot`, `restart` — the names at a start.
* `handleModifyNickname`, `handleModifyDeviceName` — the requests.

## Main results

* `restart_setVertexName` — **what a rename changes of the names that a start gives.**
* `names_survive` — **after any requests whose writes succeed, a restart changes no name.**
* `refused_changes_nothing` — **a request that is not answered with success changes nothing, unless
  its write failed.**
-/

namespace NDTwin.Twin

open Json

/-! ### Vertices and files -/

/-- Which of a vertex's names. -/
inductive NameField where
  | nickname | deviceName
  deriving DecidableEq, Repr

/-- What a name is kept under in the overlay. -/
def NameField.key : NameField → String
  | .nickname => "nickname"
  | .deviceName => "device_name"

/-- What is read of a vertex here. -/
@[ext]
structure NamedVertex where
  vertexType : VertexType
  dpid : ℕ
  mac : ℕ
  nickName : String
  deviceName : String
  deriving DecidableEq, Repr

namespace NamedVertex

def name (v : NamedVertex) : NameField → String
  | .nickname => v.nickName
  | .deviceName => v.deviceName

def setName (v : NamedVertex) (field : NameField) (name : String) : NamedVertex :=
  match field with
  | .nickname => { v with nickName := name }
  | .deviceName => { v with deviceName := name }

/-- The section of the overlay that a vertex is in. -/
def sectionKey (v : NamedVertex) : String :=
  match v.vertexType with
  | .switch => "switches"
  | .host => "hosts"

/-- What a vertex is known by: a switch's dpid, a host's mac. -/
def number (v : NamedVertex) : ℕ :=
  match v.vertexType with
  | .switch => v.dpid
  | .host => v.mac

/-- What a vertex is kept under in its section. -/
def key (v : NamedVertex) : String := Nat.repr v.number

/-- Where in the overlay a vertex is. -/
def place (v : NamedVertex) : String × String := (v.sectionKey, v.key)

end NamedVertex

/-- The overlay file. -/
inductive OverlayFile (F : Type) where
  | absent
  | unopened
  | notJson
  | holds (doc : Json F)

/-- The vertices as the model file names them, the vertices of the graph, and the overlay file. -/
@[ext]
structure NameState (F : Type) where
  model : List NamedVertex
  vertices : List NamedVertex
  file : OverlayFile F

section Overlay

variable {F : Type}

/-! ### A start -/

/-- `overlaySection(doc, key)`. -/
def overlaySection (doc : Json F) (key : String) : List (String × Json F) :=
  match doc.find key with
  | some (.obj fields) => fields
  | _ => []

/-- The name an entry of the overlay gives, if it does. -/
def entryName (entry : Option (Json F)) (field : NameField) : Option String :=
  match entry with
  | some (.obj fields) =>
    match fields.lookup field.key with
    | some (.str name) => some name
    | _ => none
  | _ => none

/-- One vertex with the names of its entry laid over it. -/
def overlaid (doc : Json F) (v : NamedVertex) : NamedVertex :=
  let entry := (overlaySection doc v.sectionKey).lookup v.key
  let v := ((entryName entry .nickname).map (v.setName .nickname)).getD v
  ((entryName entry .deviceName).map (v.setName .deviceName)).getD v

/-- `applyNicknameOverlayNoLock()`: a file that is not there or cannot be read names nothing. -/
def applyNicknameOverlay (file : OverlayFile F) (vertices : List NamedVertex) :
    List NamedVertex :=
  match file with
  | .holds doc => vertices.map (overlaid doc)
  | _ => vertices

/-- A start of the process. -/
def boot (model : List NamedVertex) (file : OverlayFile F) : NameState F :=
  ⟨model, applyNicknameOverlay file model, file⟩

/-- The process stopped and started again. -/
def restart (s : NameState F) : NameState F := boot s.model s.file

/-! ### A rename -/

/-- Why the overlay is not written over. -/
inductive OverlayError where
  | cannotOpen
  | notJson
  | notAnObject
  | version
  deriving DecidableEq, Repr

/-- A section made where there is none. -/
def ensureSection (key : String) (fields : List (String × Json F)) : List (String × Json F) :=
  match fields.lookup key with
  | some (.obj _) => fields
  | _ => put key (.obj []) fields

/-- Whether a value is the version that is written, `isOne` being that of a float. -/
def isOverlayVersion (isOne : F → Bool) : Json F → Bool
  | .int n => n = 1
  | .float x => isOne x
  | _ => false

/-- `readNameOverlayForWriting(path, topologyPath)`. -/
def readNameOverlayForWriting (isOne : F → Bool) (topologyPath : String) :
    OverlayFile F → Except OverlayError (List (String × Json F))
  | .absent =>
    .ok (put "hosts" (.obj []) (put "switches" (.obj []) (put "topology" (.str topologyPath)
      (put "version" (.int 1) []))))
  | .unopened => .error .cannotOpen
  | .notJson => .error .notJson
  | .holds (.obj fields) =>
    if (fields.lookup "version").any fun v => !isOverlayVersion isOne v then .error .version
    else .ok (ensureSection "hosts" (ensureSection "switches"
      (put "topology" (.str topologyPath) (put "version" (.int 1) fields))))
  | .holds _ => .error .notAnObject

/-- `j[key] = ...`, where the value is made from what is there; null becomes an object. -/
def assignAt (j : Json F) (key : String) (f : Json F → Except AccessError (Json F)) :
    Except AccessError (Json F) :=
  match j with
  | .null => do
    let value ← f .null
    return .obj [(key, value)]
  | .obj fields => do
    let value ← f ((fields.lookup key).getD .null)
    return .obj (put key value fields)
  | _ => .error (.typeError 305)

/-- `setOverlayName(overlay, isSwitch, key, field, value)`. -/
def setOverlayName (overlay : Json F) (v : NamedVertex) (field : NameField) (value : String) :
    Except AccessError (Json F) :=
  assignAt overlay v.sectionKey fun table => assignAt table v.key fun entry =>
    assignAt entry field.key fun _ => .ok (.str value)

/-- How a rename ends. -/
inductive RenameResult where
  | renamed
  /-- Thrown with nothing touched yet. -/
  | refused (e : OverlayError)
  /-- Thrown over the overlay's entry, with the graph changed. -/
  | entry (e : AccessError)
  /-- Thrown by the write, with the graph changed. -/
  | unwritten
  /-- No vertex of the graph; a lookup finds none such. -/
  | noVertex
  deriving DecidableEq, Repr

/-- A rename, where the file is written or is not. -/
def setVertexName (isOne : F → Bool) (topologyPath : String) (field : NameField) (s : NameState F)
    (v : ℕ) (name : String) (writes : Bool) : NameState F × RenameResult :=
  match readNameOverlayForWriting isOne topologyPath s.file with
  | .error e => (s, .refused e)
  | .ok fields =>
    match s.vertices[v]? with
    | none => (s, .noVertex)
    | some vp =>
      let renamed := { s with vertices := s.vertices.set v (vp.setName field name) }
      match setOverlayName (.obj fields) vp field name with
      | .error e => (renamed, .entry e)
      | .ok doc =>
        if writes then ({ renamed with file := .holds doc }, .renamed) else (renamed, .unwritten)

/-- `setVertexDeviceName(v, name)`. -/
def setVertexDeviceName (isOne : F → Bool) (topologyPath : String) (s : NameState F) (v : ℕ)
    (name : String) (writes : Bool) : NameState F × RenameResult :=
  setVertexName isOne topologyPath .deviceName s v name writes

/-- `setVertexNickname(v, nickname)`. -/
def setVertexNickname (isOne : F → Bool) (topologyPath : String) (s : NameState F) (v : ℕ)
    (nickname : String) (writes : Bool) : NameState F × RenameResult :=
  setVertexName isOne topologyPath .nickname s v nickname writes

/-! ### Requests -/

/-- The status of an answer. -/
inductive NameAnswer where
  | ok
  | badRequest
  | notFound
  | internalError
  deriving DecidableEq, Repr

/-- What is asked for: the vertex, if there is one, and the name. -/
abbrev NameRequest := Option ℕ × String

/-- The first vertex with a name. -/
def findByName (vertices : List NamedVertex) (name : String) : Option ℕ :=
  vertices.findIdx? fun v => v.deviceName = name || v.nickName = name

/-- The first switch of a dpid. -/
def findNamedSwitch (vertices : List NamedVertex) (dpid : ℕ) : Option ℕ :=
  vertices.findIdx? fun v => v.vertexType = .switch && v.dpid = dpid

/-- The first vertex of a mac. -/
def findNamedMac (vertices : List NamedVertex) (mac : ℕ) : Option ℕ :=
  vertices.findIdx? fun v => v.mac = mac

/-- What `modify_nickname` asks for; nothing for what it answers with `400`. -/
def nicknameRequest (cast : F → ℤ) (vertices : List NamedVertex) (body : Json F) :
    Except AccessError (Option NameRequest) := do
  let identifier ← body.at? "identifier"
  let type ← getString (← identifier.at? "type")
  let newNickname ← getString (← body.at? "new_nickname")
  if type = "dpid" then
    let dpid ← getUint64 cast (← identifier.at? "value")
    return some (findNamedSwitch vertices dpid, newNickname)
  else if type = "mac" then
    let macText ← getString (← identifier.at? "value")
    return (tryMacToUint64 macText).map fun mac => (findNamedMac vertices mac, newNickname)
  else if type = "name" then
    let name ← getString (← identifier.at? "value")
    return some (findByName vertices name, newNickname)
  else return none

/-- `handleModifyNickname(res)`: whatever is thrown is answered with `400`. -/
def handleModifyNickname (isOne : F → Bool) (cast : F → ℤ) (topologyPath : String)
    (s : NameState F) (body : Option (Json F)) (writes : Bool) : NameState F × NameAnswer :=
  match body.map (nicknameRequest cast s.vertices) with
  | some (.ok (some (some v, newNickname))) =>
    let r := setVertexNickname isOne topologyPath s v newNickname writes
    (r.1, if r.2 = .renamed then .ok else .badRequest)
  | some (.ok (some (none, _))) => (s, .notFound)
  | _ => (s, .badRequest)

/-- What `modify_device_name` asks for; nothing for what it answers with `400`. -/
def deviceNameRequest (cast : F → ℤ) (vertices : List NamedVertex) (body : Json F) :
    Except AccessError (Option NameRequest) := do
  let vertexType ← getInt cast (← body.at? "vertex_type")
  let newName ← getString (← body.at? "new_name")
  if vertexType = 0 then
    let dpid ← getUint64 cast (← body.at? "dpid")
    return some (findNamedSwitch vertices dpid, newName)
  else if vertexType = 1 then
    let macText ← getString (← body.at? "mac")
    return (tryMacToUint64 macText).map fun mac => (findNamedMac vertices mac, newName)
  else return none

/-- What the request handler answers: `400` to an exception of the JSON library, `500` to others. -/
def RenameResult.answer : RenameResult → NameAnswer
  | .renamed => .ok
  | .refused .notJson => .badRequest
  | .refused _ => .internalError
  | .entry _ => .badRequest
  | .unwritten => .internalError
  | .noVertex => .internalError

/-- `handleModifyDeviceName(res)`. -/
def handleModifyDeviceName (isOne : F → Bool) (cast : F → ℤ) (topologyPath : String)
    (s : NameState F) (body : Option (Json F)) (writes : Bool) : NameState F × NameAnswer :=
  match body.map (deviceNameRequest cast s.vertices) with
  | some (.ok (some (some v, newName))) =>
    let r := setVertexDeviceName isOne topologyPath s v newName writes
    (r.1, r.2.answer)
  | some (.ok (some (none, _))) => (s, .notFound)
  | _ => (s, .badRequest)

/-! ### What an overlay names -/

/-- The name a document gives at a place. -/
def overlayName (doc : Json F) (place : String × String) (field : NameField) : Option String :=
  entryName ((overlaySection doc place.1).lookup place.2) field

/-- A section of a file; a file that is not there or cannot be read has none. -/
def OverlayFile.table (file : OverlayFile F) (key : String) : List (String × Json F) :=
  match file with
  | .holds doc => overlaySection doc key
  | _ => []

/-- The name a file gives at a place. -/
def OverlayFile.nameAt (file : OverlayFile F) (place : String × String) (field : NameField) :
    Option String :=
  entryName ((file.table place.1).lookup place.2) field

/-- A vertex is what it is, where it is and its names. -/
theorem NamedVertex.ext_names {v w : NamedVertex} (htype : v.vertexType = w.vertexType)
    (hdpid : v.dpid = w.dpid) (hmac : v.mac = w.mac) (hnames : ∀ field, v.name field = w.name field) :
    v = w :=
  NamedVertex.ext htype hdpid hmac (hnames .nickname) (hnames .deviceName)

@[simp] theorem NamedVertex.setName_vertexType (v : NamedVertex) (field : NameField) (name : String) :
    (v.setName field name).vertexType = v.vertexType := by
  cases field <;> rfl

@[simp] theorem NamedVertex.setName_dpid (v : NamedVertex) (field : NameField) (name : String) :
    (v.setName field name).dpid = v.dpid := by
  cases field <;> rfl

@[simp] theorem NamedVertex.setName_mac (v : NamedVertex) (field : NameField) (name : String) :
    (v.setName field name).mac = v.mac := by
  cases field <;> rfl

theorem NamedVertex.name_setName (v : NamedVertex) (field field' : NameField) (name : String) :
    (v.setName field name).name field' = if field' = field then name else v.name field' := by
  cases field <;> cases field' <;> rfl

theorem NamedVertex.place_congr {v w : NamedVertex} (htype : v.vertexType = w.vertexType)
    (hdpid : v.dpid = w.dpid) (hmac : v.mac = w.mac) : v.place = w.place := by
  simp only [NamedVertex.place, NamedVertex.sectionKey, NamedVertex.key,
    NamedVertex.number, htype, hdpid, hmac]

/-- A vertex with the names laid over it is the same vertex, under the names of its place. -/
theorem overlaid_spec (doc : Json F) (v : NamedVertex) :
    (overlaid doc v).vertexType = v.vertexType ∧ (overlaid doc v).dpid = v.dpid ∧
      (overlaid doc v).mac = v.mac ∧
      ∀ field, (overlaid doc v).name field = (overlayName doc v.place field).getD (v.name field) := by
  have hname : ∀ (u : NamedVertex) (field field' : NameField) (given : Option String),
      ((given.map (u.setName field)).getD u).name field' =
        if field' = field then given.getD (u.name field') else u.name field' := by
    intro u field field' given
    cases given with
    | none => simp
    | some n => simp [NamedVertex.name_setName]
  have hsame : ∀ (u : NamedVertex) (field : NameField) (given : Option String),
      ((given.map (u.setName field)).getD u).vertexType = u.vertexType ∧
        ((given.map (u.setName field)).getD u).dpid = u.dpid ∧
        ((given.map (u.setName field)).getD u).mac = u.mac := by
    intro u field given
    cases given with
    | none => simp
    | some n => simp
  refine ⟨?_, ?_, ?_, ?_⟩
  · exact (hsame _ _ _).1.trans (hsame _ _ _).1
  · exact (hsame _ _ _).2.1.trans (hsame _ _ _).2.1
  · exact (hsame _ _ _).2.2.trans (hsame _ _ _).2.2
  · intro field
    have := hname (((entryName ((overlaySection doc v.sectionKey).lookup v.key) .nickname).map
      (v.setName .nickname)).getD v) .deviceName field
      (entryName ((overlaySection doc v.sectionKey).lookup v.key) .deviceName)
    rw [overlaid, this, hname]
    cases field <;> rfl

/-- What a start makes of a vertex of the model. -/
def booted (file : OverlayFile F) (v : NamedVertex) : NamedVertex :=
  match file with
  | .holds doc => overlaid doc v
  | _ => v

theorem applyNicknameOverlay_eq (file : OverlayFile F) (vertices : List NamedVertex) :
    applyNicknameOverlay file vertices = vertices.map (booted file) := by
  cases file with
  | holds doc => rfl
  | _ => exact (List.map_id vertices).symm

theorem booted_spec (file : OverlayFile F) (v : NamedVertex) :
    (booted file v).vertexType = v.vertexType ∧ (booted file v).dpid = v.dpid ∧
      (booted file v).mac = v.mac ∧
      ∀ field, (booted file v).name field = (file.nameAt v.place field).getD (v.name field) := by
  cases file with
  | holds doc => exact overlaid_spec doc v
  | _ => exact ⟨rfl, rfl, rfl, fun _ => rfl⟩

@[simp] theorem place_booted (file : OverlayFile F) (v : NamedVertex) :
    (booted file v).place = v.place := by
  obtain ⟨htype, hdpid, hmac, -⟩ := booted_spec file v
  exact NamedVertex.place_congr htype hdpid hmac

/-! ### What a rename writes -/

/-- The members of an entry, none if there is no entry yet. -/
def entryFields : Option (Json F) → List (String × Json F)
  | some (.obj fields) => fields
  | _ => []

/-- Whether a name can be put into an entry. -/
def entryFits : Option (Json F) → Prop
  | none => True
  | some .null => True
  | some (.obj _) => True
  | _ => False

theorem assignAt_getD {entry : Option (Json F)} {key : String} {value : Json F}
    {j : Json F} : assignAt (entry.getD .null) key (fun _ => .ok value) = .ok j ↔
      entryFits entry ∧ j = .obj (put key value (entryFields entry)) := by
  rcases entry with _ | entry
  · simp [assignAt, entryFits, entryFields, put, bind, Except.bind, pure, Except.pure, eq_comm]
  · cases entry <;>
      simp [assignAt, entryFits, entryFields, put, bind, Except.bind, pure, Except.pure, eq_comm]

/-- The document a rename writes. -/
def renamedDoc (fields table : List (String × Json F)) (v : NamedVertex) (field : NameField)
    (value : String) : Json F :=
  .obj (put v.sectionKey (.obj (put v.key (.obj (put field.key (.str value)
    (entryFields (table.lookup v.key)))) table)) fields)

theorem setOverlayName_eq_ok {fields table : List (String × Json F)} {v : NamedVertex}
    (htable : fields.lookup v.sectionKey = some (.obj table)) {field : NameField} {value : String}
    {doc : Json F} : setOverlayName (.obj fields) v field value = .ok doc ↔
      entryFits (table.lookup v.key) ∧ doc = renamedDoc fields table v field value := by
  rw [setOverlayName, assignAt, htable, Option.getD_some, assignAt]
  constructor
  · intro h
    obtain ⟨section', hsection, h⟩ := Fallible.exists_of_bind_ok h
    obtain ⟨entry, hentry, hsection⟩ := Fallible.exists_of_bind_ok hsection
    obtain ⟨hfits, rfl⟩ := assignAt_getD.mp hentry
    cases hsection
    cases h
    exact ⟨hfits, rfl⟩
  · rintro ⟨hfits, rfl⟩
    rw [assignAt_getD.mpr ⟨hfits, rfl⟩]
    rfl

/-- **What a rename changes of what the overlay names**: the one name, and nothing else. -/
theorem overlayName_renamedDoc {fields table : List (String × Json F)} {v : NamedVertex}
    (htable : fields.lookup v.sectionKey = some (.obj table)) (field : NameField) (value : String)
    (place : String × String) (field' : NameField) :
    overlayName (renamedDoc fields table v field value) place field' =
      if place = v.place ∧ field' = field then some value
      else overlayName (.obj fields) place field' := by
  obtain ⟨sec, key⟩ := place
  by_cases hsec : sec = v.sectionKey
  · subst hsec
    have hold : overlaySection (.obj fields) v.sectionKey = table := by
      simp only [overlaySection, Json.find, htable]
    have hnew : overlaySection (renamedDoc fields table v field value) v.sectionKey =
        put v.key (.obj (put field.key (.str value) (entryFields (table.lookup v.key)))) table := by
      simp only [overlaySection, Json.find, renamedDoc, lookup_put_self]
    rw [overlayName, overlayName, hold, hnew]
    by_cases hkey : key = v.key
    · subst hkey
      rw [lookup_put_self]
      by_cases hfield : field' = field
      · subst hfield
        rw [if_pos ⟨rfl, rfl⟩]
        simp only [entryName, lookup_put_self]
      · have hne : field'.key ≠ field.key := by
          cases field <;> cases field' <;> first | exact absurd rfl hfield | decide
        rw [if_neg (fun h => hfield h.2)]
        simp only [entryName, lookup_put_of_ne _ _ hne]
        cases table.lookup v.key with
        | none => rfl
        | some entry => cases entry <;> rfl
    · rw [lookup_put_of_ne _ _ hkey, if_neg]
      exact fun h => hkey (congrArg Prod.snd h.1)
  · rw [if_neg fun h => hsec (congrArg Prod.fst h.1)]
    have hsame : overlaySection (renamedDoc fields table v field value) sec =
        overlaySection (.obj fields) sec := by
      simp only [overlaySection, Json.find, renamedDoc, lookup_put_of_ne _ _ hsec]
    rw [overlayName, overlayName, hsame]

theorem lookup_ensureSection (key key' : String) (fields : List (String × Json F)) :
    (ensureSection key fields).lookup key' =
      if key' = key then some (.obj (overlaySection (.obj fields) key)) else fields.lookup key' := by
  unfold ensureSection
  split
  · next table htable =>
    split
    · next heq => rw [heq, htable, overlaySection, Json.find, htable]
    · rfl
  · next hnone =>
    split
    · next heq =>
      have hempty : overlaySection (.obj fields) key = [] := by
        unfold overlaySection Json.find
        split
        · next table htable => exact absurd htable (hnone table)
        · rfl
      rw [heq, lookup_put_self, hempty]
    · next hne => exact lookup_put_of_ne _ _ hne

/-- The sections of the document that is written over are those of the file. -/
theorem lookup_readNameOverlayForWriting {isOne : F → Bool} {topologyPath : String}
    {file : OverlayFile F} {fields : List (String × Json F)}
    (h : readNameOverlayForWriting isOne topologyPath file = .ok fields) (v : NamedVertex) :
    fields.lookup v.sectionKey = some (.obj (file.table v.sectionKey)) := by
  have hsection : v.sectionKey = "switches" ∨ v.sectionKey = "hosts" := by
    unfold NamedVertex.sectionKey
    cases v.vertexType <;> simp
  cases file with
  | absent =>
    cases h
    rcases hsection with hs | hs
    · rw [hs, lookup_put_of_ne _ _ (by decide), lookup_put_self]
      rfl
    · rw [hs, lookup_put_self]
      rfl
  | unopened => cases h
  | notJson => cases h
  | holds doc =>
    cases doc with
    | obj old =>
      rw [readNameOverlayForWriting] at h
      split at h
      · cases h
      cases h
      rcases hsection with hs | hs
      · rw [hs, lookup_ensureSection, if_neg (by decide), lookup_ensureSection, if_pos rfl]
        simp only [OverlayFile.table, overlaySection, Json.find, lookup_put_of_ne _ _
          (show "switches" ≠ "topology" by decide), lookup_put_of_ne _ _
          (show "switches" ≠ "version" by decide)]
      · rw [hs, lookup_ensureSection, if_pos rfl]
        simp only [OverlayFile.table, overlaySection, Json.find, lookup_ensureSection,
          if_neg (show "hosts" ≠ "switches" by decide), lookup_put_of_ne _ _
          (show "hosts" ≠ "topology" by decide), lookup_put_of_ne _ _
          (show "hosts" ≠ "version" by decide)]
    | _ => cases h

theorem overlaySection_of_read {isOne : F → Bool} {topologyPath : String} {file : OverlayFile F}
    {fields : List (String × Json F)}
    (h : readNameOverlayForWriting isOne topologyPath file = .ok fields) (v : NamedVertex) :
    overlaySection (.obj fields) v.sectionKey = file.table v.sectionKey := by
  simp only [overlaySection, Json.find, lookup_readNameOverlayForWriting h v]

/-! ### One rename -/

section Rename

variable (isOne : F → Bool) (topologyPath : String) (field : NameField) (s : NameState F) (v : ℕ)
  (name : String) (writes : Bool)

/-- What a rename does: it is refused, or changes the graph, and then the file unless the entry does
not fit or the write fails. -/
theorem setVertexName_cases :
    (setVertexName isOne topologyPath field s v name writes).1 = s ∧
        (setVertexName isOne topologyPath field s v name writes).2 ≠ .renamed ∨
    ∃ fields vp, readNameOverlayForWriting isOne topologyPath s.file = .ok fields ∧
      s.vertices[v]? = some vp ∧
      ((¬entryFits ((s.file.table vp.sectionKey).lookup vp.key) ∨ writes = false) ∧
          (setVertexName isOne topologyPath field s v name writes).1 =
            { s with vertices := s.vertices.set v (vp.setName field name) } ∧
          (setVertexName isOne topologyPath field s v name writes).2 ≠ .renamed ∨
        entryFits ((s.file.table vp.sectionKey).lookup vp.key) ∧ writes = true ∧
          setVertexName isOne topologyPath field s v name writes =
            ({ s with vertices := s.vertices.set v (vp.setName field name),
                      file := .holds (renamedDoc fields (s.file.table vp.sectionKey) vp field name) },
              .renamed)) := by
  cases hread : readNameOverlayForWriting isOne topologyPath s.file with
  | error e =>
    left
    simp [setVertexName, hread]
  | ok fields =>
    cases hvp : s.vertices[v]? with
    | none =>
      left
      simp [setVertexName, hread, hvp]
    | some vp =>
      right
      have htable := lookup_readNameOverlayForWriting hread vp
      refine ⟨fields, vp, rfl, rfl, ?_⟩
      simp only [setVertexName, hread, hvp]
      cases hset : setOverlayName (.obj fields) vp field name with
      | error e =>
        have hfits : ¬entryFits ((s.file.table vp.sectionKey).lookup vp.key) := by
          intro hfits
          rw [(setOverlayName_eq_ok htable).mpr ⟨hfits, rfl⟩] at hset
          cases hset
        exact .inl ⟨.inl hfits, rfl, by simp⟩
      | ok doc =>
        obtain ⟨hfits, rfl⟩ := (setOverlayName_eq_ok htable).mp hset
        cases writes with
        | false => exact .inl ⟨.inr rfl, rfl, by simp⟩
        | true => exact .inr ⟨hfits, rfl, rfl⟩

/-- **What a rename changes of the names that a start gives**: if it succeeds, the one name of the
vertices that are kept under the same key, and otherwise none. -/
theorem restart_setVertexName :
    ((setVertexName isOne topologyPath field s v name writes).2 = .renamed →
      ∃ vp, s.vertices[v]? = some vp ∧
        (setVertexName isOne topologyPath field s v name writes).1.vertices =
          s.vertices.set v (vp.setName field name) ∧
        (restart (setVertexName isOne topologyPath field s v name writes).1).vertices =
          (restart s).vertices.map fun u =>
            if u.place = vp.place then u.setName field name else u) ∧
    ((setVertexName isOne topologyPath field s v name writes).2 ≠ .renamed →
      restart (setVertexName isOne topologyPath field s v name writes).1 = restart s) := by
  rcases setVertexName_cases isOne topologyPath field s v name writes with
    ⟨hstate, hne⟩ | ⟨fields, vp, hread, hvp, hrest⟩
  · exact ⟨fun h => absurd h hne, fun _ => by rw [hstate]⟩
  · rcases hrest with ⟨-, hstate, hne⟩ | ⟨-, -, hall⟩
    · exact ⟨fun h => absurd h hne, fun _ => by rw [hstate]; rfl⟩
    · rw [hall]
      refine ⟨fun _ => ⟨vp, hvp, rfl, ?_⟩, fun h => absurd rfl h⟩
      simp only [restart, boot, applyNicknameOverlay_eq, List.map_map]
      refine List.map_congr_left fun u _ => ?_
      -- the vertex of the model, under the names of the old file and of the new one
      obtain ⟨htype, hdpid, hmac, hnames⟩ := booted_spec s.file u
      obtain ⟨htype', hdpid', hmac', hnames'⟩ := booted_spec
        (.holds (renamedDoc fields (s.file.table vp.sectionKey) vp field name)) u
      have hnew : ∀ field', (OverlayFile.holds (renamedDoc fields (s.file.table vp.sectionKey) vp
          field name)).nameAt u.place field' =
            if u.place = vp.place ∧ field' = field then some name
            else s.file.nameAt u.place field' := by
        intro field'
        have hrenamed := overlayName_renamedDoc (lookup_readNameOverlayForWriting hread vp) field
          name u.place field'
        have hold : overlayName (.obj fields) u.place field' = s.file.nameAt u.place field' := by
          rw [overlayName, OverlayFile.nameAt]
          exact congrArg (fun table => entryName (table.lookup u.key) field')
            (overlaySection_of_read hread u)
        rw [hold] at hrenamed
        exact hrenamed
      rw [Function.comp_apply, place_booted]
      by_cases hplace : u.place = vp.place
      · rw [if_pos hplace]
        apply NamedVertex.ext_names
        · rw [htype', NamedVertex.setName_vertexType, htype]
        · rw [hdpid', NamedVertex.setName_dpid, hdpid]
        · rw [hmac', NamedVertex.setName_mac, hmac]
        · intro field'
          rw [hnames', hnew, NamedVertex.name_setName, hnames]
          by_cases hfield : field' = field
          · rw [if_pos ⟨hplace, hfield⟩, if_pos hfield, Option.getD_some]
          · rw [if_neg fun h => hfield h.2, if_neg hfield]
      · rw [if_neg hplace]
        apply NamedVertex.ext_names
        · rw [htype', htype]
        · rw [hdpid', hdpid]
        · rw [hmac', hmac]
        · intro field'
          rw [hnames', hnew, hnames, if_neg fun h => hplace h.1]

end Rename

/-! ### Entries that fit -/

/-- Every entry of the file can be put a name into. -/
def OverlayFile.EntriesFit (file : OverlayFile F) : Prop :=
  ∀ v : NamedVertex, entryFits ((file.table v.sectionKey).lookup v.key)

theorem entriesFit_setVertexName (isOne : F → Bool) (topologyPath : String) (field : NameField)
    {s : NameState F} (h : s.file.EntriesFit) (v : ℕ) (name : String) (writes : Bool) :
    (setVertexName isOne topologyPath field s v name writes).1.file.EntriesFit := by
  rcases setVertexName_cases isOne topologyPath field s v name writes with
    ⟨hstate, -⟩ | ⟨fields, vp, hread, -, ⟨-, hstate, -⟩ | ⟨-, -, hall⟩⟩
  · rw [hstate]
    exact h
  · rw [hstate]
    exact h
  · rw [hall]
    intro u
    by_cases hsection : u.sectionKey = vp.sectionKey
    · have htable : (OverlayFile.holds (renamedDoc fields (s.file.table vp.sectionKey) vp field
          name)).table u.sectionKey = put vp.key (.obj (put field.key (.str name) (entryFields
            ((s.file.table vp.sectionKey).lookup vp.key)))) (s.file.table vp.sectionKey) := by
        simp only [OverlayFile.table, overlaySection, Json.find, renamedDoc, hsection,
          lookup_put_self]
      rw [htable]
      by_cases hkey : u.key = vp.key
      · rw [hkey, lookup_put_self]
        trivial
      · rw [lookup_put_of_ne _ _ hkey, ← hsection]
        exact h u
    · have htable : (OverlayFile.holds (renamedDoc fields (s.file.table vp.sectionKey) vp field
          name)).table u.sectionKey = s.file.table u.sectionKey := by
        rw [← overlaySection_of_read hread u]
        simp only [OverlayFile.table, overlaySection, Json.find, renamedDoc,
          lookup_put_of_ne _ _ hsection]
      rw [htable]
      exact h u

/-- With entries that fit, a rename that does not succeed changes nothing, unless the write failed. -/
theorem setVertexName_of_ne (isOne : F → Bool) (topologyPath : String) (field : NameField)
    {s : NameState F} (h : s.file.EntriesFit) (v : ℕ) (name : String) (writes : Bool)
    (hne : (setVertexName isOne topologyPath field s v name writes).2 ≠ .renamed) :
    (setVertexName isOne topologyPath field s v name writes).1.file = s.file ∧
      (writes = true → (setVertexName isOne topologyPath field s v name writes).1 = s) := by
  rcases setVertexName_cases isOne topologyPath field s v name writes with
    ⟨hstate, -⟩ | ⟨fields, vp, -, -, ⟨hlate, hstate, -⟩ | ⟨-, -, hall⟩⟩
  · rw [hstate]
    exact ⟨rfl, fun _ => rfl⟩
  · rw [hstate]
    refine ⟨rfl, fun hwrites => ?_⟩
    rcases hlate with hfits | hwrites'
    · exact absurd (h vp) hfits
    · rw [hwrites'] at hwrites
      cases hwrites
  · rw [hall] at hne
    exact absurd rfl hne

/-! ### Requests -/

/-- What happens to the names. -/
inductive NameStep (F : Type) where
  | modifyNickname (body : Option (Json F)) (writes : Bool)
  | modifyDeviceName (body : Option (Json F)) (writes : Bool)
  | restart

/-- Whether the write of a request succeeds, if it comes to that. -/
def NameStep.writes : NameStep F → Bool
  | .modifyNickname _ writes => writes
  | .modifyDeviceName _ writes => writes
  | .restart => true

section Runs

variable (isOne : F → Bool) (cast : F → ℤ) (topologyPath : String)

/-- One step. -/
def nameStep (s : NameState F) : NameStep F → NameState F
  | .modifyNickname body writes => (handleModifyNickname isOne cast topologyPath s body writes).1
  | .modifyDeviceName body writes => (handleModifyDeviceName isOne cast topologyPath s body writes).1
  | .restart => Twin.restart s

/-- A run from a start. -/
def nameRun (model : List NamedVertex) (file : OverlayFile F) (run : List (NameStep F)) :
    NameState F :=
  run.foldl (nameStep isOne cast topologyPath) (boot model file)

/-- A request changes nothing, or is a rename that it answers for. -/
theorem handleModifyNickname_cases (s : NameState F) (body : Option (Json F)) (writes : Bool) :
    (handleModifyNickname isOne cast topologyPath s body writes).1 = s ∧
        (handleModifyNickname isOne cast topologyPath s body writes).2 ≠ .ok ∨
    ∃ v name, (handleModifyNickname isOne cast topologyPath s body writes).1 =
        (setVertexName isOne topologyPath .nickname s v name writes).1 ∧
      ((handleModifyNickname isOne cast topologyPath s body writes).2 = .ok ↔
        (setVertexName isOne topologyPath .nickname s v name writes).2 = .renamed) := by
  unfold handleModifyNickname
  split
  · next v name _ =>
    refine .inr ⟨v, name, rfl, ?_⟩
    simp only [setVertexNickname]
    by_cases h : (setVertexName isOne topologyPath .nickname s v name writes).2 = .renamed
    · simp [h]
    · simp [h]
  · exact .inl ⟨rfl, by simp⟩
  · exact .inl ⟨rfl, by simp⟩

theorem answer_eq_ok_iff (r : RenameResult) : r.answer = .ok ↔ r = .renamed := by
  cases r with
  | refused e => cases e <;> simp [RenameResult.answer]
  | _ => simp [RenameResult.answer]

theorem handleModifyDeviceName_cases (s : NameState F) (body : Option (Json F)) (writes : Bool) :
    (handleModifyDeviceName isOne cast topologyPath s body writes).1 = s ∧
        (handleModifyDeviceName isOne cast topologyPath s body writes).2 ≠ .ok ∨
    ∃ v name, (handleModifyDeviceName isOne cast topologyPath s body writes).1 =
        (setVertexName isOne topologyPath .deviceName s v name writes).1 ∧
      ((handleModifyDeviceName isOne cast topologyPath s body writes).2 = .ok ↔
        (setVertexName isOne topologyPath .deviceName s v name writes).2 = .renamed) := by
  unfold handleModifyDeviceName
  split
  · next v name _ => exact .inr ⟨v, name, rfl, answer_eq_ok_iff _⟩
  · exact .inl ⟨rfl, by simp⟩
  · exact .inl ⟨rfl, by simp⟩

/-- A step restarts, changes nothing, or renames. -/
theorem nameStep_cases (s : NameState F) (st : NameStep F) :
    nameStep isOne cast topologyPath s st = Twin.restart s ∨
      nameStep isOne cast topologyPath s st = s ∨
      ∃ field v name, nameStep isOne cast topologyPath s st =
        (setVertexName isOne topologyPath field s v name st.writes).1 := by
  cases st with
  | modifyNickname body writes =>
    rcases handleModifyNickname_cases isOne cast topologyPath s body writes with
      ⟨h, -⟩ | ⟨v, name, h, -⟩
    · exact .inr (.inl h)
    · exact .inr (.inr ⟨.nickname, v, name, h⟩)
  | modifyDeviceName body writes =>
    rcases handleModifyDeviceName_cases isOne cast topologyPath s body writes with
      ⟨h, -⟩ | ⟨v, name, h, -⟩
    · exact .inr (.inl h)
    · exact .inr (.inr ⟨.deviceName, v, name, h⟩)
  | restart => exact .inl rfl

theorem entriesFit_nameRun (model : List NamedVertex) {file : OverlayFile F} (h : file.EntriesFit)
    (run : List (NameStep F)) : (nameRun isOne cast topologyPath model file run).file.EntriesFit := by
  induction run using List.reverseRecOn with
  | nil => exact h
  | append_singleton run st ih =>
    rw [nameRun, List.foldl_append]
    rcases nameStep_cases isOne cast topologyPath (nameRun isOne cast topologyPath model file run) st
      with hst | hst | ⟨field, v, name, hst⟩
    · exact (congrArg (fun s => s.file.EntriesFit) hst).mpr ih
    · exact (congrArg (fun s => s.file.EntriesFit) hst).mpr ih
    · exact (congrArg (fun s => s.file.EntriesFit) hst).mpr
        (entriesFit_setVertexName isOne topologyPath field ih v name st.writes)

/-- **A request that is not answered with success changes nothing**, in any state that requests and
restarts lead to from a file whose entries fit, unless its write failed; and then the file is as it
was. -/
theorem refused_changes_nothing (model : List NamedVertex) (file : OverlayFile F)
    (hfile : file.EntriesFit) (run : List (NameStep F)) (body : Option (Json F)) (writes : Bool) :
    ((handleModifyNickname isOne cast topologyPath (nameRun isOne cast topologyPath model file run)
        body writes).2 ≠ .ok →
      (handleModifyNickname isOne cast topologyPath (nameRun isOne cast topologyPath model file run)
          body writes).1.file = (nameRun isOne cast topologyPath model file run).file ∧
        (writes = true → (handleModifyNickname isOne cast topologyPath
          (nameRun isOne cast topologyPath model file run) body writes).1 =
            nameRun isOne cast topologyPath model file run)) ∧
    ((handleModifyDeviceName isOne cast topologyPath (nameRun isOne cast topologyPath model file run)
        body writes).2 ≠ .ok →
      (handleModifyDeviceName isOne cast topologyPath (nameRun isOne cast topologyPath model file run)
          body writes).1.file = (nameRun isOne cast topologyPath model file run).file ∧
        (writes = true → (handleModifyDeviceName isOne cast topologyPath
          (nameRun isOne cast topologyPath model file run) body writes).1 =
            nameRun isOne cast topologyPath model file run)) := by
  have hfits := entriesFit_nameRun isOne cast topologyPath model hfile run
  generalize nameRun isOne cast topologyPath model file run = s at hfits ⊢
  constructor
  · intro hne
    rcases handleModifyNickname_cases isOne cast topologyPath s body writes with
      ⟨hsame, -⟩ | ⟨v, name, hstate, hok⟩
    · rw [hsame]
      exact ⟨rfl, fun _ => rfl⟩
    · rw [hstate]
      exact setVertexName_of_ne isOne topologyPath .nickname hfits v name writes
        fun h => hne (hok.mpr h)
  · intro hne
    rcases handleModifyDeviceName_cases isOne cast topologyPath s body writes with
      ⟨hsame, -⟩ | ⟨v, name, hstate, hok⟩
    · rw [hsame]
      exact ⟨rfl, fun _ => rfl⟩
    · rw [hstate]
      exact setVertexName_of_ne isOne topologyPath .deviceName hfits v name writes
        fun h => hne (hok.mpr h)

end Runs

/-- A switch and a host. -/
def twoNamed : List NamedVertex :=
  [⟨.switch, 1, 0, "s1", "s1"⟩, ⟨.host, 0, 17, "h1", "h1"⟩]

/-- A rename of each of them, with a restart between. -/
def renameRun : List (NameStep Empty) :=
  [.modifyNickname (some (.obj [("identifier", .obj [("type", .str "dpid"), ("value", .int 1)]),
      ("new_nickname", .str "core")])) true,
    .restart,
    .modifyDeviceName (some (.obj [("vertex_type", .int 1), ("mac", .str "00:00:00:00:00:11"),
      ("new_name", .str "printer")])) true]

theorem refused_changes_nothing_renameRun :
    (handleModifyNickname Empty.elim Empty.elim "model.json"
      (nameRun Empty.elim Empty.elim "model.json" twoNamed .absent renameRun) none true).1 =
        nameRun Empty.elim Empty.elim "model.json" twoNamed .absent renameRun :=
  ((refused_changes_nothing Empty.elim Empty.elim "model.json" twoNamed .absent (fun _ => trivial)
    renameRun none true).1 (by simp [handleModifyNickname])).2 rfl

section Runs

variable (isOne : F → Bool) (cast : F → ℤ) (topologyPath : String)

/-! ### Names that survive -/

/-- No two switches have one dpid, and no two hosts one mac. -/
def DistinctKeys (model : List NamedVertex) : Prop :=
  model.Pairwise fun v w => v.vertexType = w.vertexType → v.number ≠ w.number

theorem place_inj {v w : NamedVertex} (h : v.place = w.place) :
    v.vertexType = w.vertexType ∧ v.number = w.number := by
  obtain ⟨hsection, hkey⟩ := Prod.mk.inj h
  constructor
  · unfold NamedVertex.sectionKey at hsection
    cases hv : v.vertexType <;> cases hw : w.vertexType <;> simp [hv, hw] at hsection ⊢
  · rw [NamedVertex.key, NamedVertex.key, Nat.repr_eq_ofList_toDigits,
      Nat.repr_eq_ofList_toDigits] at hkey
    exact Json.toDigits_inj (String.ofList_injective hkey)

theorem nodup_places {model : List NamedVertex} (h : DistinctKeys model) (file : OverlayFile F) :
    ((boot model file).vertices.map NamedVertex.place).Nodup := by
  have hplaces : (boot model file).vertices.map NamedVertex.place = model.map NamedVertex.place := by
    rw [boot, applyNicknameOverlay_eq, List.map_map]
    exact List.map_congr_left fun v _ => place_booted file v
  rw [hplaces, List.Nodup, List.pairwise_map]
  refine h.imp fun {v w} hne hplace => ?_
  obtain ⟨htype, hnumber⟩ := place_inj hplace
  exact hne htype hnumber

/-- Where no two vertices are at one place, changing what is at a place changes one vertex. -/
theorem map_place_eq_set {vs : List NamedVertex} (h : (vs.map NamedVertex.place).Nodup) {v : ℕ}
    {vp : NamedVertex} (hvp : vs[v]? = some vp) (f : NamedVertex → NamedVertex) :
    (vs.map fun u => if u.place = vp.place then f u else u) = vs.set v (f vp) := by
  induction vs generalizing v with
  | nil => cases hvp
  | cons w vs ih =>
    rw [List.map_cons, List.nodup_cons] at h
    cases v with
    | zero =>
      obtain rfl : w = vp := by simpa using hvp
      have hrest : (vs.map fun u => if u.place = w.place then f u else u) = vs := by
        conv_rhs => rw [← List.map_id vs]
        refine List.map_congr_left fun u hu => if_neg fun hplace => h.1 ?_
        rw [← hplace]
        exact List.mem_map_of_mem hu
      rw [List.map_cons, if_pos rfl, hrest, List.set_cons_zero]
    | succ v =>
      have hvp' : vs[v]? = some vp := by simpa using hvp
      have hne : w.place ≠ vp.place := by
        intro hplace
        rw [hplace] at h
        exact h.1 (List.mem_map_of_mem (List.mem_of_getElem? hvp'))
      rw [List.map_cons, if_neg hne, ih h.2 hvp', List.set_cons_succ]

theorem setVertexName_model (isOne : F → Bool) (topologyPath : String) (field : NameField)
    (s : NameState F) (v : ℕ) (name : String) (writes : Bool) :
    (setVertexName isOne topologyPath field s v name writes).1.model = s.model := by
  rcases setVertexName_cases isOne topologyPath field s v name writes with
    ⟨hstate, -⟩ | ⟨fields, vp, -, -, ⟨-, hstate, -⟩ | ⟨-, -, hall⟩⟩
  · rw [hstate]
  · rw [hstate]
  · rw [hall]

/-- **After any requests and restarts whose writes succeed, a restart changes no name.** -/
theorem names_survive (model : List NamedVertex) (hmodel : DistinctKeys model)
    (file : OverlayFile F) (hfile : file.EntriesFit) (run : List (NameStep F))
    (hwrites : ∀ st ∈ run, st.writes = true) :
    restart (nameRun isOne cast topologyPath model file run) =
      nameRun isOne cast topologyPath model file run := by
  suffices hinv : nameRun isOne cast topologyPath model file run =
      boot model (nameRun isOne cast topologyPath model file run).file by
    rw [hinv]
    rfl
  induction run using List.reverseRecOn with
  | nil => rfl
  | append_singleton run st ih =>
    have hlast : nameRun isOne cast topologyPath model file (run ++ [st]) =
        nameStep isOne cast topologyPath (nameRun isOne cast topologyPath model file run) st := by
      rw [nameRun, List.foldl_append]
      rfl
    have hsync := ih fun st' hst' => hwrites st' (List.mem_append_left _ hst')
    have hfits := entriesFit_nameRun isOne cast topologyPath model hfile run
    rw [hlast]
    generalize nameRun isOne cast topologyPath model file run = s at hsync hfits ⊢
    rcases nameStep_cases isOne cast topologyPath s st with hst | hst | ⟨field, v, name, hst⟩
    · rw [hst, hsync]
      rfl
    · rw [hst]
      exact hsync
    · rw [hst, hwrites st (by simp)]
      have hrestart := restart_setVertexName isOne topologyPath field s v name true
      by_cases hok : (setVertexName isOne topologyPath field s v name true).2 = .renamed
      · obtain ⟨vp, hvp, hvertices, hnames⟩ := hrestart.1 hok
        have hbefore : (restart s).vertices = s.vertices := by
          rw [hsync]
          rfl
        have hnodup : (s.vertices.map NamedVertex.place).Nodup := by
          rw [hsync]
          exact nodup_places hmodel s.file
        have hsame : s.model = model := by rw [hsync]; rfl
        rw [hbefore, map_place_eq_set hnodup hvp, ← hvertices] at hnames
        have hmodel' := (setVertexName_model isOne topologyPath field s v name true).trans hsame
        exact NameState.ext hmodel' (hmodel' ▸ hnames.symm) rfl
      · rw [(setVertexName_of_ne isOne topologyPath field hfits v name true hok).2 rfl]
        exact hsync

end Runs

theorem names_survive_renameRun :
    restart (nameRun Empty.elim Empty.elim "model.json" twoNamed .absent renameRun) =
        nameRun Empty.elim Empty.elim "model.json" twoNamed .absent renameRun ∧
      (nameRun Empty.elim Empty.elim "model.json" twoNamed .absent renameRun).vertices =
        [⟨.switch, 1, 0, "core", "s1"⟩, ⟨.host, 0, 17, "h1", "printer"⟩] :=
  ⟨names_survive Empty.elim Empty.elim "model.json" twoNamed (by unfold DistinctKeys; decide) .absent
    (fun _ => trivial) renameRun (by decide), by decide +kernel⟩

end Overlay

end NDTwin.Twin
