import NDTwin.Journal.Fold
import NDTwin.Lib.JsonLine
import NDTwin.Lib.PyValue

/-!
# The file of a table journal

`TableEntryJournal` keeps its file open only for the length of one append, so a crash cuts off the
end of the last append and nothing else.  This module follows the file character by character: what
`record` appends, what a crash leaves of it, what `reheader` puts in its place, and what `read`
makes of it.  With `ensure_ascii` every character of the file is one byte.

A *ledger* keeps beside the file what was handed to it: every append with the number of its bytes
that are on the disk, and every header that was put in place.  What is read is what the ledger says
is there; `NDTwin.Journal.Torn` proves it.

## Main definitions

* `Write`, `headerObject` — what the lines are written from.
* `read`, `append?`, `reheader` — `TableEntryJournal`'s operations on the file.
* `Event`, `Disk`, `step`, `run` — appends, crashes and new headers in any order.
* `Item`, `held`, `completed` — the ledger, and what it says is on the disk.
-/

namespace NDTwin
namespace Journal
namespace Torn

open Json LineFile

variable {F : Type*}

/-! ### What the lines are written from -/

/-- The text of a verb. -/
def opName : Op → String
  | .insert => "insert"
  | .modify => "modify"
  | .delete => "delete"

/-- The text of an outcome. -/
def outcomeName : Outcome → String
  | .ok => "ok"
  | .notFound => "not_found"

/-- What `record` is given, and the time it reads. -/
structure Write (F : Type*) where
  t : F
  op : Op
  spec : Json F
  key : String
  outcome : Outcome

/-- The entry `record` writes down. -/
def Write.entry (w : Write F) : List (String × Json F) :=
  [("v", .int 1), ("t", .float w.t), ("op", .str (opName w.op)), ("key", .str w.key),
    ("spec", w.spec), ("outcome", .str (outcomeName w.outcome))]

/-- The members of a header that its writer may give. -/
def givenKeys : List String := ["fabric_cookie", "p4info_sha256", "entries_sha256", "boot_id"]

/-- The header of `_header_bytes`: every key present, nothing else, and always this journal's own
`dpid`. -/
def headerObject (dpid : Json F) (given : Dict String (Json F)) : List (String × Json F) :=
  [("v", .int 1), ("header", .bool true), ("dpid", dpid)] ++
    givenKeys.map fun key => (key, (given.get? key).getD .null)

/-- A header line that `json.dumps` writes. -/
structure Heading (dpid : Json F) where
  given : Dict String (Json F)
  readable : Readable (.obj (headerObject dpid given))

/-- A record that `json.dumps` writes. -/
structure Recorded (F : Type*) where
  write : Write F
  readable : Readable (.obj write.entry)

/-- A header as `json.dumps` takes it. -/
def heading? (dpid : Json F) (given : Dict String (Json F)) : Option (Heading dpid) :=
  if h : Readable (.obj (headerObject dpid given)) then some ⟨given, h⟩ else none

/-- A record as `json.dumps` takes it. -/
def recorded? (w : Write F) : Option (Recorded F) :=
  if h : Readable (.obj w.entry) then some ⟨w, h⟩ else none

/-- The object of a header line. -/
def Heading.object {dpid : Json F} (h : Heading dpid) : Written F := ⟨_, h.readable⟩

/-- The object of a record line. -/
def Recorded.object (r : Recorded F) : Written F := ⟨_, r.readable⟩

/-! ### The file -/

section File

variable {fl : Floats F} (fr : FloatReader fl)

/-- What `bytes.strip` takes for blanks. -/
def isSpace (c : Char) : Bool :=
  c = ' ' || c = '\t' || c = '\n' || c = '\r' || c.toNat = 11 || c.toNat = 12

/-- `bool(parsed.get("header"))`. -/
def namesHeader (fl : Floats F) (fields : List (String × Json F)) : Bool :=
  ((fields.lookup "header").getD .null).truthy fl

/-- What `read` returns: the header, the records in file order, and the number of lines that would
not parse. -/
structure Reading (F : Type*) where
  header : Option (List (String × Json F))
  records : List (List (String × Json F))
  unreadable : ℕ

/-- What `read` does with what it made of one line. -/
def Reading.add (fl : Floats F) (r : Reading F) : Option (Option (List (String × Json F))) → Reading F
  | none => r
  | some none => { r with unreadable := r.unreadable + 1 }
  | some (some fields) =>
    if namesHeader fl fields then { r with header := r.header.or (some fields) }
    else { r with records := r.records ++ [fields] }

/-- `TableEntryJournal.read`. -/
def read (file : List Char) : Reading F :=
  (fileLines file).foldl (fun r raw => r.add fl (readObject fr isSpace raw)) ⟨none, [], 0⟩

/-- `_is_header_line`. -/
def isHeaderLine (raw : List Char) : Bool :=
  match loads fr raw with
  | some (.obj fields) => namesHeader fl fields
  | _ => false

/-- The loop of `reheader`: a file's lines less its first header line and its blank lines, each of
them finished. -/
def body : Bool → List (List Char) → List (List Char)
  | _, [] => []
  | dropped, line :: rest =>
    if !dropped && isHeaderLine fr line then body true rest
    else if strip isSpace line = [] then body dropped rest
    else (if line.getLast? = some '\n' then line else line ++ ['\n']) :: body dropped rest

/-- `reheader`'s new file: the header, and every other line of the old file byte for byte. -/
def reheader {dpid : Json F} (head : Heading dpid) (file : List Char) : List Char :=
  head.object.line fl ++ ['\n'] ++ (body fr false (splitLines file)).flatten

end File

/-! ### Appends, crashes and new headers -/

/-- One append of `record`: the header of a file that was empty, the newline that a torn line was
left without, the line of the write, and how many of these bytes are on the disk. -/
structure Append (dpid : Json F) where
  header : Option (Heading dpid)
  repair : Bool
  entry : Recorded F
  left : ℕ

/-- What a journal was handed. -/
inductive Item (dpid : Json F) where
  | append (a : Append dpid)
  | header (head : Heading dpid)

/-- A journal's file, and beside it what the journal was handed. -/
structure Disk (dpid : Json F) where
  /-- The file up to its last append. -/
  before : List Char
  /-- What there is of the last append. -/
  last : List Char
  ledger : List (Item dpid)

/-- What happens to a file. -/
inductive Event (F : Type*) where
  /-- `record`, with what the header would be made of. -/
  | record (given : Dict String (Json F)) (w : Write F)
  /-- A crash that leaves the first bytes of the last append. -/
  | truncate (n : ℕ)
  /-- `reheader`, which replaces the file as a whole. -/
  | reheader (given : Dict String (Json F))

/-- The whole file. -/
def Disk.file {dpid : Json F} (d : Disk dpid) : List Char := d.before ++ d.last

section Run

variable (fl : Floats F) (dpid : Json F)

/-- What an append writes before its line. -/
def Append.lead {dpid : Json F} (a : Append dpid) : List Char :=
  match a.header with
  | some head => head.object.line fl ++ ['\n']
  | none => if a.repair then ['\n'] else []

/-- The bytes of an append. -/
def Append.bytes {dpid : Json F} (a : Append dpid) : List Char :=
  a.lead fl ++ (a.entry.object.line fl ++ ['\n'])

/-- The append `record` makes to a file, or `none` where `json.dumps` refuses the write or the
header: nothing is written then. -/
def append? (file : List Char) (given : Dict String (Json F)) (w : Write F) :
    Option (Append dpid) :=
  match recorded? w with
  | none => none
  | some entry =>
    if file = [] then (heading? dpid given).map fun head => ⟨some head, false, entry, 0⟩
    else some ⟨none, file.getLast? ≠ some '\n', entry, 0⟩

/-- A crash, as far as the ledger is concerned. -/
def Item.truncate {dpid : Json F} (n : ℕ) : Item dpid → Item dpid
  | .append a => .append { a with left := min n a.left }
  | item => item

/-- The ledger after a crash. -/
def truncateLast {dpid : Json F} (n : ℕ) (ledger : List (Item dpid)) : List (Item dpid) :=
  match ledger.getLast? with
  | none => []
  | some item => ledger.dropLast ++ [item.truncate n]

variable {fl} (fr : FloatReader fl)

/-- One event. -/
def step (d : Disk dpid) : Event F → Disk dpid
  | .record given w =>
    match append? dpid d.file given w with
    | none => d
    | some a =>
      ⟨d.file, a.bytes fl, d.ledger ++ [.append { a with left := (a.bytes fl).length }]⟩
  | .truncate n => ⟨d.before, d.last.take n, truncateLast n d.ledger⟩
  | .reheader given =>
    match heading? dpid given with
    | none => d
    | some head => ⟨reheader fr head d.file, [], d.ledger ++ [.header head]⟩

/-- A run from a file that is not there yet. -/
def run (events : List (Event F)) : Disk dpid := events.foldl (step dpid fr) ⟨[], [], []⟩

/-- How often a run crashes. -/
def crashes (events : List (Event F)) : ℕ :=
  events.countP fun event =>
    match event with
    | .truncate _ => true
    | _ => false

end Run

/-! ### What the ledger says is on the disk -/

section Ledger

variable (fl : Floats F) {dpid : Json F}

/-- Whether the line of an append's write is all there, but for its newline. -/
def Append.entryWhole (a : Append dpid) : Bool :=
  (a.entry.object.line fl).length ≤ a.left - (a.lead fl).length

/-- The record that is on the disk of what the journal was handed. -/
def Item.recorded : Item dpid → Option (Recorded F)
  | .append a => if a.entryWhole fl then some a.entry else none
  | .header _ => none

/-- The header a journal was handed, and whether its line is all there, but for its newline. -/
def Item.heading : Item dpid → Option (Heading dpid × Bool)
  | .append a => a.header.map fun head => (head, (head.object.line fl).length ≤ a.left)
  | .header head => some (head, true)

/-- The records whose lines were completely written, in order. -/
def completed (ledger : List (Item dpid)) : List (Recorded F) := ledger.filterMap (Item.recorded fl)

/-- The last header a journal was handed, and whether its line is all there. -/
def lastHeading (ledger : List (Item dpid)) : Option (Heading dpid × Bool) :=
  (ledger.filterMap (Item.heading fl)).getLast?

/-- The last header a journal was handed, if its line was completely written. -/
def held (ledger : List (Item dpid)) : Option (Heading dpid) :=
  match lastHeading fl ledger with
  | some (head, true) => some head
  | _ => none

end Ledger

end Torn
end Journal
end NDTwin
