import Mathlib.Data.Int.Notation
import Mathlib.Data.List.Basic
import NDTwin.Lib.CText
import NDTwin.Lib.Ipv4

/-!
# Cutting a link

A link that is declared down is cut: the kernel attaches a `netem` queue that
loses every packet to the interface at either end, under the shaper that is
there and never over it.  All it knows of the machine it reads from what `tc`
prints; what it has attached itself it finds again by the handle it noted down.

The command runner is a parameter: a command is a list of words, and running it
changes a world that is not seen otherwise.

## Main definitions

* `splitWords`, `qdiscLines`, `planAttach`, `findExistingNetem`, `netemHandleInTree` — reading the
  tree that `tc qdisc show` prints.
* `InjectedNetemLedger` — what this kernel attached.
* `inspectNetem`, `detachSightedNetem`, `cutInterface`, `restoreSightedNetem` — one interface.
* `cutLinkEnds` — every end of a link, or none.
-/

namespace NDTwin.Netem

/-! ### Reading the tree -/

/-- The words of a text, `word` being what was read of the one it is in. -/
def wordsFrom (word : List Char) : List Char → List (List Char)
  | [] => if word = [] then [] else [word]
  | c :: cs =>
    if CText.isSpace c then
      if word = [] then wordsFrom [] cs else word :: wordsFrom [] cs
    else wordsFrom (word ++ [c]) cs

/-- `splitWords(line)`. -/
def splitWords (line : List Char) : List String := (wordsFrom [] line).map String.ofList

/-- `qdiscLines(tree)`, each line as its words. -/
def qdiscLines (tree : String) : List (List String) :=
  ((Ipv4.split '\n' tree.toList).map splitWords).filter (· ≠ [])

/-- Where a queue is attached, as the arguments of `tc` name it. -/
inductive Place where
  | root
  | parent (classid : String)
  deriving DecidableEq, Repr

/-- The arguments that name a place. -/
def Place.tcArgs : Place → List String
  | .root => ["root"]
  | .parent classid => ["parent", classid]

/-- A line of the tree that is a `netem`. -/
def isNetem (w : List String) : Bool := w.take 2 = ["qdisc", "netem"]

/-- What follows the word `default`. -/
def afterDefault : List String → Option String
  | w :: d :: ws => if w = "default" then some d else afterDefault (d :: ws)
  | _ => none

/-- `planAttach(tree)`: where `netem` may be attached, or why nowhere. -/
def planAttach (tree : String) : Except String Place :=
  let lines := qdiscLines tree
  if lines = [] then
    .error "the qdisc tree for this interface is empty or could not be read"
  else if lines.any isNetem then
    .error ("netem is already attached to this interface; refusing to stack a second one, " ++
      "because the restore could then not tell them apart. Remove the existing one first")
  else
    match lines.find? fun w => "root" ∈ w.drop 3 with
    | none => .error "no root qdisc line in the tree for this interface"
    | some (_ :: kind :: handle :: rest) =>
      if kind = "htb" then
        match afterDefault rest with
        | some d => .ok (.parent (handle ++ d))
        | none =>
          .error ("the interface is shaped by htb but its root line names no default class, " ++
            "so there is nowhere to attach netem without replacing the shaper")
      else .ok .root
    | some _ => .error "the root qdisc line is not in the shape tc produces"

/-- `findExistingNetem(tree)`: where the `netem` is attached, or why that is not known. -/
def findExistingNetem (tree : String) : Except String Place :=
  match (qdiscLines tree).find? fun w => 4 ≤ w.length && isNetem w with
  | none => .error "no netem qdisc is attached to this interface"
  | some w =>
    match w.drop 3 with
    | "root" :: _ => .ok .root
    | "parent" :: classid :: _ => .ok (.parent classid)
    | _ => .error "a netem qdisc is present but its attach point could not be read from the tree"

/-- `netemHandleInTree(tree)`, empty when there is none. -/
def netemHandleInTree (tree : String) : String :=
  match (qdiscLines tree).find? fun w => 3 ≤ w.length && isNetem w with
  | none => ""
  | some w => (w.drop 2).headD ""

/-- Where `-eth` first stands in a text. -/
def ethAt : List Char → Option ℕ
  | [] => none
  | c :: cs => if (c :: cs).take 4 = ['-', 'e', 't', 'h'] then some 0 else (ethAt cs).map (· + 1)

/-- `isMininetInterfaceName(name)`: `s`, digits, `-eth` and digits. -/
def isMininetInterfaceName (name : String) : Bool :=
  let cs := name.toList
  match ethAt cs with
  | none => false
  | some dash =>
    6 ≤ cs.length && cs.head? = some 's' && 2 ≤ dash && ((cs.take dash).drop 1).all Char.isDigit &&
      dash + 4 < cs.length && (cs.drop (dash + 4)).all Char.isDigit

/-- `describeArgv(argv)`. -/
def describeArgv (argv : List String) : String :=
  argv.foldl (fun out arg => if out ≠ "" then out ++ " " ++ arg else out ++ arg) ""

/-! ### The ledger -/

/-- A `netem` this kernel attached. -/
structure InjectedNetem where
  interface : String
  handle : String
  attachPoint : String
  attachedAtMs : ℤ
  deriving DecidableEq, Repr

/-- What this kernel believes it attached. -/
structure InjectedNetemLedger where
  entries : List InjectedNetem := []
  deriving DecidableEq, Repr

/-- The entries with one for an interface replaced, or added at the end. -/
def recordIn (entry : InjectedNetem) : List InjectedNetem → List InjectedNetem
  | [] => [entry]
  | e :: es => if e.interface = entry.interface then entry :: es else e :: recordIn entry es

/-- `ledger.record(iface, handle, attachPoint)` at a time. -/
def InjectedNetemLedger.record (ledger : InjectedNetemLedger) (iface handle attachPoint : String)
    (nowMs : ℤ) : InjectedNetemLedger :=
  ⟨recordIn ⟨iface, handle, attachPoint, nowMs⟩ ledger.entries⟩

/-- `ledger.find(iface)`: an entry without a handle is not claimed. -/
def InjectedNetemLedger.find (ledger : InjectedNetemLedger) (iface : String) :
    Option InjectedNetem :=
  ledger.entries.find? fun e => e.interface = iface && e.handle ≠ ""

/-- `ledger.forget(iface)`. -/
def InjectedNetemLedger.forget (ledger : InjectedNetemLedger) (iface : String) :
    InjectedNetemLedger :=
  ⟨ledger.entries.eraseP fun e => e.interface = iface⟩

/-! ### Commands -/

/-- What running one command produced. -/
structure TcOutcome where
  ran : Bool
  status : ℤ
  output : String
  deriving DecidableEq, Repr

/-- The command ran and exited 0. -/
def TcOutcome.succeeded (o : TcOutcome) : Bool := o.ran && o.status = 0

/-- The arguments of `tc qdisc show dev <iface>`. -/
def showArgs (iface : String) : List String := ["qdisc", "show", "dev", iface]

/-- The arguments of the attach. -/
def addArgs (iface : String) (place : Place) (loss : String) : List String :=
  ["qdisc", "add", "dev", iface] ++ place.tcArgs ++ ["netem", "loss", loss]

/-- The arguments of the delete. -/
def delArgs (iface : String) (place : Place) : List String :=
  ["qdisc", "del", "dev", iface] ++ place.tcArgs

/-- What was done to one interface. -/
structure Report where
  interface : Option String
  ok : Bool := false
  qdiscBefore : Option String := none
  qdiscAfter : Option String := none
  attachedAt : Option String := none
  detachedAt : Option String := none
  command : Option String := none
  refused : Option String := none
  error : Option String := none
  noop : Option String := none
  was : Option String := none
  deriving DecidableEq, Repr

/-- Whose `netem` is on an interface. -/
inductive NetemProvenance where
  | none | ours | foreign | unreadable
  deriving DecidableEq, Repr

/-- One read of one interface's tree, and everything it established. -/
structure NetemSighting where
  provenance : NetemProvenance := .unreadable
  tree : String := ""
  handle : String := ""
  at_ : Except String Place := .error ""
  why : String := ""

/-- The arguments of the place that was sighted, none when it was not. -/
def NetemSighting.tcArgs (seen : NetemSighting) : List String :=
  match seen.at_ with
  | .ok place => place.tcArgs
  | .error _ => []

section Commands

variable {W : Type*} (run : W → List String → TcOutcome × W) (clock : W → ℤ)
  (formatTime : ℤ → String)

/-- `inspectNetem(iface, ledger, run)`. -/
def inspectNetem (iface : String) (ledger : InjectedNetemLedger) (w : W) : NetemSighting × W :=
  if !isMininetInterfaceName iface then
    ({ why := "interface name '" ++ iface ++ "' is not of the form s<N>-eth<M>" }, w)
  else
    let (before, w) := run w (showArgs iface)
    if !before.succeeded then
      ({ why := "could not read the qdisc tree (tc qdisc show returned " ++ toString before.status ++
          "); on this machine that usually means sudo -n was refused" }, w)
    else
      let tree := before.output
      let handle := netemHandleInTree tree
      let at_ := findExistingNetem tree
      if handle = "" then
        ({ provenance := .none, tree, handle, at_,
            why := "no netem qdisc is attached to this interface" }, w)
      else
        match ledger.find iface with
        | some recorded =>
          if recorded.handle = handle && at_.isOk then
            ({ provenance := .ours, tree, handle, at_,
                why := "attached by this kernel at " ++ formatTime recorded.attachedAtMs ++ " (" ++
                  recorded.handle ++ " at " ++ recorded.attachPoint ++ ")" }, w)
          else
            ({ provenance := .foreign, tree, handle, at_,
                why := "this kernel attached " ++ recorded.handle ++ " to " ++ iface ++ " at " ++
                  formatTime recorded.attachedAtMs ++ ", but the netem there now is " ++ handle ++
                  " -- somebody replaced it, so it is not this kernel's to remove" }, w)
        | none =>
          ({ provenance := .foreign, tree, handle, at_,
              why := "this kernel did not attach the netem on " ++ iface ++ " (" ++ handle ++
                "); no injection through /ndt/inject_link_failure recorded it" }, w)

/-- `detachSightedNetem(iface, seen, run)`. -/
def detachSightedNetem (iface : String) (seen : NetemSighting) (w : W) : Report × W :=
  let args := ["qdisc", "del", "dev", iface] ++ seen.tcArgs
  let (deleted, w) := run w args
  let report : Report :=
    { interface := iface
      qdiscBefore := seen.tree
      detachedAt := describeArgv seen.tcArgs
      command := describeArgv args }
  if !deleted.succeeded then
    ({ report with
        error := "tc refused the delete (status " ++ toString deleted.status ++ ")" }, w)
  else
    let (after, w) := run w (showArgs iface)
    if (findExistingNetem after.output).isOk then
      ({ report with
          qdiscAfter := after.output
          error := "netem is still attached after the delete" }, w)
    else ({ report with qdiscAfter := after.output, ok := true }, w)

/-- `cutInterface(iface, loss, run)`. -/
def cutInterface (loss iface : String) (w : W) : Report × W :=
  if !isMininetInterfaceName iface then
    ({ interface := iface
       refused := "interface name '" ++ iface ++ "' is not of the form s<N>-eth<M>; the twin will " ++
        "not run tc against an interface it cannot have derived from a Mininet bridge" }, w)
  else
    let (before, w) := run w (showArgs iface)
    if !before.succeeded then
      ({ interface := iface
         error := "could not read the qdisc tree (tc qdisc show returned " ++
          toString before.status ++
          "); on this machine that usually means sudo -n was refused" }, w)
    else
      match planAttach before.output with
      | .error why => ({ interface := iface, qdiscBefore := before.output, refused := why }, w)
      | .ok place =>
        let args := addArgs iface place loss
        let (added, w) := run w args
        let report : Report :=
          { interface := iface
            qdiscBefore := before.output
            attachedAt := describeArgv place.tcArgs
            command := describeArgv args }
        if !added.succeeded then
          ({ report with
              error := "tc refused the attach (status " ++ toString added.status ++ ")" }, w)
        else
          -- what the read after the attach printed is kept, whether or not it succeeded
          let (after, w) := run w (showArgs iface)
          ({ report with ok := true, qdiscAfter := after.output }, w)

/-- `restoreSightedNetem(iface, seen, ledger, run)`. -/
def restoreSightedNetem (iface : String) (seen : NetemSighting) (ledger : InjectedNetemLedger)
    (w : W) : Report × InjectedNetemLedger × W :=
  match seen.provenance with
  | .ours =>
    let (report, w) := detachSightedNetem run iface seen w
    ({ report with was := seen.why }, if report.ok then ledger.forget iface else ledger, w)
  | .none =>
    ({ interface := iface, ok := true, qdiscBefore := seen.tree, noop := seen.why },
      ledger.forget iface, w)
  | .foreign =>
    ({ interface := iface
       qdiscBefore := seen.tree
       refused := seen.why ++ ". Nothing was deleted here: remove it yourself with 'sudo tc qdisc " ++
        "del dev " ++ iface ++ " " ++ describeArgv seen.tcArgs ++
        "' once you know whose experiment it belongs to" }, ledger, w)
  | .unreadable => ({ interface := iface, error := seen.why }, ledger, w)

/-! ### Both ends -/

/-- One end of a link: its report, and the report of the rollback where there was one. -/
structure End where
  iface : String
  plannable : Bool := false
  report : Report
  rolledBack : Option Report := none
  deriving DecidableEq, Repr

/-- Phase 1 for one end: nothing that changes anything is run.  The second part says what stops
the cut. -/
def planEnd (iface : String) (w : W) : End × Option String × W :=
  if iface = "" then
    ({ iface
       report :=
        { interface := none
          refused := "the topology file gives this switch no bridge_name, so the twin cannot name " ++
            "its interface" } },
      some "one of this link's switches has no bridge_name in the topology file", w)
  else if !isMininetInterfaceName iface then
    ({ iface
       report :=
        { interface := iface
          refused := "interface name '" ++ iface ++ "' is not of the form s<N>-eth<M>; the twin " ++
            "will not run tc against an interface it cannot have derived from a Mininet bridge" } },
      some (iface ++ " is not of the form s<N>-eth<M>"), w)
  else
    let (before, w) := run w (showArgs iface)
    if !before.succeeded then
      ({ iface
         report :=
          { interface := iface
            error := "could not read the qdisc tree (tc qdisc show returned " ++
              toString before.status ++
              "); on this machine that usually means sudo -n was refused" } },
        some ("the qdisc tree of " ++ iface ++ " could not be read"), w)
    else
      match planAttach before.output with
      | .error why =>
        ({ iface, report := { interface := iface, qdiscBefore := before.output, refused := why } },
          some (iface ++ ": " ++ why), w)
      | .ok _ =>
        ({ iface, plannable := true
           report := { interface := iface, qdiscBefore := before.output } }, none, w)

/-- Phase 1: every end, and the first thing that stops the cut. -/
def planEnds : List String → W → List End × Option String × W
  | [], w => ([], none, w)
  | iface :: ifaces, w =>
    let (e, blocked, w) := planEnd run iface w
    let (es, blocked', w) := planEnds ifaces w
    (e :: es, blocked.or blocked', w)

/-- What phase 2 leaves. -/
structure Attaching (W : Type*) where
  ends : List End
  blocked : Option String
  attached : List String
  ledger : InjectedNetemLedger
  world : W

/-- Phase 2: the ends are cut one after the other, up to the first that cannot be. -/
def attachEnds (loss : String) : List End → InjectedNetemLedger → W → Attaching W
  | [], ledger, w => ⟨[], none, [], ledger, w⟩
  | e :: es, ledger, w =>
    let (report, w) := cutInterface run loss e.iface w
    if !report.ok then
      ⟨{ e with report } :: es,
        some (e.iface ++ ": " ++ (report.refused.getD (report.error.getD ""))), [], ledger, w⟩
    else
      let ledger := ledger.record e.iface (netemHandleInTree (report.qdiscAfter.getD ""))
        (report.attachedAt.getD "") (clock w)
      let rest := attachEnds loss es ledger w
      { rest with
        ends := { e with report } :: rest.ends
        attached := e.iface :: rest.attached }

/-- The ends that phase 2 never reached say why nothing was done there. -/
def explain (blocked : String) (e : End) : End :=
  if e.report.ok || e.report.refused.isSome || e.report.error.isSome then e
  else
    { e with
      report := { e.report with
        refused := "nothing was attached to this end: the cut stopped at " ++ blocked ++
          ", and this endpoint cuts both ends or neither" } }

/-- An end that was attached, and removed again as far as the report of the rollback says. -/
def undone (blocked iface : String) (undone : Report) (e : End) : End :=
  if e.iface ≠ iface then e
  else
    { e with
      report := { e.report with
        ok := false
        refused := "attached, then removed again: the other end could not be cut (" ++ blocked ++
          "), and this endpoint cuts both ends or neither" }
      rolledBack := some undone }

/-- Phase 3: the ends that were attached are restored one after the other. -/
def rollBack (blocked : String) :
    List String → List End → InjectedNetemLedger → W → List End × InjectedNetemLedger × W
  | [], ends, ledger, w => (ends, ledger, w)
  | iface :: attached, ends, ledger, w =>
    let (seen, w) := inspectNetem run formatTime iface ledger w
    let (report, ledger, w) := restoreSightedNetem run iface seen ledger w
    rollBack blocked attached (ends.map (undone blocked iface report)) ledger w

/-- What `cutLinkEnds` answers. -/
structure CutResult where
  attached : Bool
  tc : List End
  why : Option String
  deriving DecidableEq, Repr

/-- An end that could have been cut when another could not. -/
def refuseOther (blocked : String) (e : End) : End :=
  if !e.plannable then e
  else
    { e with
      report := { e.report with
        refused := "the other end of this link could not be cut (" ++ blocked ++ "), and a link " ++
          "failure injected at one end only is a different, subtler fault (faults.txt L-2). " ++
          "Nothing was attached here either" } }

/-- `cutLinkEnds(ifaces, loss, ledger, run)`. -/
def cutLinkEnds (ifaces : List String) (loss : String) (ledger : InjectedNetemLedger) (w : W) :
    CutResult × InjectedNetemLedger × W :=
  let (ends, blocked, w) := planEnds run ifaces w
  match blocked with
  | some blocked =>
    -- nothing ran that changes anything
    (⟨false, ends.map (refuseOther blocked), some blocked⟩, ledger, w)
  | none =>
    let a := attachEnds run clock loss ends ledger w
    match a.blocked with
    | none => (⟨true, a.ends, none⟩, a.ledger, a.world)
    | some blocked =>
      let (ends, ledger, w) := rollBack run formatTime blocked a.attached
        (a.ends.map (explain blocked)) a.ledger a.world
      (⟨false, ends, some blocked⟩, ledger, w)

end Commands

end NDTwin.Netem
