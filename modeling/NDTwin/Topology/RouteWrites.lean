import Mathlib.Logic.Function.Basic
import NDTwin.Routing.RuleIdentity
import NDTwin.Routing.SlotPriority
import NDTwin.Topology.InstalledPath

/-!
# Route writes on the wire

A route is one entry of a switch's `ipv4_lpm`, named by a value and a prefix length.  The client
sends one update, and where an insert is refused as a duplicate, or for no stated reason, it sends
the same entry again as a modify; a delete that finds nothing has done what was asked.

A switch answers truthfully: it reports success where it has done the update, and otherwise leaves
its table alone.  What it refuses beyond that is its own affair.

## Main definitions

* `LpmPrefix`, `Lpm` — entries of `ipv4_lpm`.
* `Answers`, `wire` — how a switch answers.
* `Exchange`, `insertIpv4Route`, `modifyIpv4Route`, `deleteIpv4Route` — the calls of a client.
* `prefixOf` — the entry a route key names.

## Main results

* `insertIpv4Route_spec`, `modifyIpv4Route_spec`, `deleteIpv4Route_spec` — **a call that answers
  true has left what was asked, any other has left the table alone.**
* `prefixOf_inj` — two route keys do not name one entry.
-/

namespace NDTwin.Topology

open Routing

/-! ### The table of a switch -/

/-- The match of an entry of `ipv4_lpm`. -/
structure LpmPrefix where
  value : List ℕ
  prefixLen : ℤ
  deriving DecidableEq, Repr

/-- The entries of `ipv4_lpm`: the port each sends its packets to. -/
abbrev Lpm := LpmPrefix → Option ℕ

/-- The kinds of update. -/
inductive UpdateType where
  | insert | modify | delete
  deriving DecidableEq, Repr

/-- The status an update is answered with. -/
inductive Status where
  | ok | alreadyExists | notFound | unknown | other
  deriving DecidableEq, Repr

/-- How a switch answers an update, by whether it has the entry.  It never claims to have done what
cannot be done, nor that an entry is there, or is not, when the opposite is so. -/
structure Answers where
  answer : UpdateType → (present : Bool) → Status
  insert_present : answer .insert true ≠ .ok
  modify_absent : answer .modify false ≠ .ok
  delete_absent : answer .delete false ≠ .ok
  present : ∀ u, answer u true ≠ .notFound
  absent : ∀ u, answer u false ≠ .alreadyExists

/-- One update, and the table after it. -/
def wire (a : Answers) (u : UpdateType) (p : LpmPrefix) (port : ℕ) (lpm : Lpm) : Status × Lpm :=
  match a.answer u (lpm p).isSome, u with
  | .ok, .delete => (.ok, Function.update lpm p none)
  | .ok, _ => (.ok, Function.update lpm p (some port))
  | status, _ => (status, lpm)

/-! ### The calls of a client -/

/-- What meets one call of a client: whether it may write at all, and else raises before anything is
sent, whether the hardware address of the next hop can be encoded, how the switch answers the update
and a second one, whether its tables can be read back, and what a write to `flow_5tuple` comes
to. -/
structure Exchange where
  raises : Bool := false
  macReadable : Bool := true
  first : Answers
  second : Answers
  readable : Bool := true
  fiveTuple : Option Bool := none

/-- `_build_route_entry`: the match and the port as they are sent, where they can be encoded. -/
def buildRouteEntry (address : String) (prefixLen port : ℤ) : Option (LpmPrefix × ℕ) :=
  match Ipv4.aton address with
  | none => none
  | some value => if 0 ≤ port ∧ port < 65536 then some (⟨value, prefixLen⟩, port.toNat) else none

/-- The modify of `modify_ipv4_route`. -/
def sendModify (a : Answers) (p : LpmPrefix) (port : ℕ) (lpm : Lpm) : Bool × Lpm :=
  match wire a .modify p port lpm with
  | (.ok, lpm) => (true, lpm)
  | (_, lpm) => (false, lpm)

/-- `insert_ipv4_route`; `none` where it raises. -/
def insertIpv4Route (x : Exchange) (address : String) (prefixLen port : ℤ) (lpm : Lpm) :
    Option (Bool × Lpm) :=
  if x.raises || !x.macReadable then none
  else (buildRouteEntry address prefixLen port).map fun e =>
    match wire x.first .insert e.1 e.2 lpm with
    | (.ok, lpm) => (true, lpm)
    | (.alreadyExists, lpm) => sendModify x.second e.1 e.2 lpm
    | (.unknown, lpm) => sendModify x.second e.1 e.2 lpm
    | (_, lpm) => (false, lpm)

/-- `modify_ipv4_route`; `none` where it raises. -/
def modifyIpv4Route (x : Exchange) (address : String) (prefixLen port : ℤ) (lpm : Lpm) :
    Option (Bool × Lpm) :=
  if x.raises || !x.macReadable then none
  else (buildRouteEntry address prefixLen port).map fun e => sendModify x.first e.1 e.2 lpm

/-- `delete_ipv4_route`; `none` where it raises.  An entry that is not there is deleted. -/
def deleteIpv4Route (x : Exchange) (address : String) (prefixLen : ℤ) (lpm : Lpm) :
    Option (Bool × Lpm) :=
  if x.raises then none
  else (buildRouteEntry address prefixLen 0).map fun e =>
    match wire x.first .delete e.1 0 lpm with
    | (.ok, lpm) => (true, lpm)
    | (.notFound, lpm) => (true, lpm)
    | (.unknown, lpm) => (x.readable && (lpm e.1).isNone, lpm)
    | (_, lpm) => (false, lpm)

/-! ### What a call leaves -/

theorem wire_insert (a : Answers) (p : LpmPrefix) (port : ℕ) (lpm : Lpm) :
    ((wire a .insert p port lpm).1 = .ok →
      (wire a .insert p port lpm).2 = Function.update lpm p (some port)) ∧
    ((wire a .insert p port lpm).1 ≠ .ok → (wire a .insert p port lpm).2 = lpm) := by
  unfold wire
  cases a.answer .insert (lpm p).isSome <;> simp

theorem sendModify_spec (a : Answers) (p : LpmPrefix) (port : ℕ) (lpm : Lpm) :
    sendModify a p port lpm = (true, Function.update lpm p (some port)) ∨
      sendModify a p port lpm = (false, lpm) := by
  unfold sendModify wire
  cases a.answer .modify (lpm p).isSome <;> simp

/-- The entry a call is about. -/
theorem exists_entry {address : String} {prefixLen port : ℤ} {e : LpmPrefix × ℕ}
    (h : buildRouteEntry address prefixLen port = some e) :
    ∃ value, Ipv4.aton address = some value ∧ e = (⟨value, prefixLen⟩, port.toNat) := by
  unfold buildRouteEntry at h
  split at h
  · cases h
  · next value hvalue =>
    split at h
    · cases h
      exact ⟨value, hvalue, rfl⟩
    · cases h

/-- **An insert that answers true has left the entry**, any other has left the table alone. -/
theorem insertIpv4Route_spec {x : Exchange} {address : String} {prefixLen port : ℤ} {lpm lpm' : Lpm}
    {accepted : Bool} (h : insertIpv4Route x address prefixLen port lpm = some (accepted, lpm')) :
    ∃ value, Ipv4.aton address = some value ∧
      lpm' = if accepted then Function.update lpm ⟨value, prefixLen⟩ (some port.toNat) else lpm := by
  unfold insertIpv4Route at h
  split at h
  · cases h
  obtain ⟨e, he, heq⟩ := Option.map_eq_some_iff.mp h
  obtain ⟨value, hvalue, rfl⟩ := exists_entry he
  refine ⟨value, hvalue, ?_⟩
  obtain ⟨hok, hrefused⟩ := wire_insert x.first ⟨value, prefixLen⟩ port.toNat lpm
  have hretry : sendModify x.second ⟨value, prefixLen⟩ port.toNat lpm = (accepted, lpm') →
      lpm' = if accepted then Function.update lpm ⟨value, prefixLen⟩ (some port.toNat) else lpm := by
    intro hr
    rcases sendModify_spec x.second ⟨value, prefixLen⟩ port.toNat lpm with hsent | hsent
    · rw [hsent] at hr
      cases hr
      rfl
    · rw [hsent] at hr
      cases hr
      rfl
  rcases hwire : wire x.first .insert ⟨value, prefixLen⟩ port.toNat lpm with ⟨status, left⟩
  rw [hwire] at hok hrefused heq
  cases status with
  | ok =>
    cases heq
    exact hok rfl
  | alreadyExists =>
    obtain rfl : left = lpm := hrefused nofun
    exact hretry heq
  | unknown =>
    obtain rfl : left = lpm := hrefused nofun
    exact hretry heq
  | notFound =>
    cases heq
    exact hrefused nofun
  | other =>
    cases heq
    exact hrefused nofun

/-- **A modify that answers true has left the entry**, any other has left the table alone. -/
theorem modifyIpv4Route_spec {x : Exchange} {address : String} {prefixLen port : ℤ} {lpm lpm' : Lpm}
    {accepted : Bool} (h : modifyIpv4Route x address prefixLen port lpm = some (accepted, lpm')) :
    ∃ value, Ipv4.aton address = some value ∧
      lpm' = if accepted then Function.update lpm ⟨value, prefixLen⟩ (some port.toNat) else lpm := by
  unfold modifyIpv4Route at h
  split at h
  · cases h
  obtain ⟨e, he, heq⟩ := Option.map_eq_some_iff.mp h
  obtain ⟨value, hvalue, rfl⟩ := exists_entry he
  refine ⟨value, hvalue, ?_⟩
  rcases sendModify_spec x.first ⟨value, prefixLen⟩ port.toNat lpm with hsent | hsent
  · rw [hsent] at heq
    cases heq
    rfl
  · rw [hsent] at heq
    cases heq
    rfl

/-- **A delete that answers true has left no entry**, any other has left the table alone. -/
theorem deleteIpv4Route_spec {x : Exchange} {address : String} {prefixLen : ℤ} {lpm lpm' : Lpm}
    {accepted : Bool} (h : deleteIpv4Route x address prefixLen lpm = some (accepted, lpm')) :
    ∃ value, Ipv4.aton address = some value ∧
      lpm' = if accepted then Function.update lpm ⟨value, prefixLen⟩ none else lpm := by
  unfold deleteIpv4Route at h
  split at h
  · cases h
  obtain ⟨e, he, heq⟩ := Option.map_eq_some_iff.mp h
  obtain ⟨value, hvalue, rfl⟩ := exists_entry he
  refine ⟨value, hvalue, ?_⟩
  -- a table that has no such entry is one from which it has been taken
  have hgone : (lpm ⟨value, prefixLen⟩) = none → lpm = Function.update lpm ⟨value, prefixLen⟩ none := by
    intro hnone
    rw [← hnone, Function.update_eq_self]
  cases hentry : lpm ⟨value, prefixLen⟩ with
  | some port =>
    have hfound := x.first.present .delete
    cases hanswer : x.first.answer .delete true with
    | notFound => exact absurd hanswer hfound
    | _ =>
      simp [wire, hentry, hanswer] at heq
      obtain ⟨rfl, rfl⟩ := heq
      simp
  | none =>
    cases hanswer : x.first.answer .delete false with
    | ok => exact absurd hanswer x.first.delete_absent
    | unknown =>
      simp [wire, hentry, hanswer] at heq
      obtain ⟨rfl, rfl⟩ := heq
      split
      · exact hgone hentry
      · rfl
    | _ =>
      simp [wire, hentry, hanswer] at heq
      obtain ⟨rfl, rfl⟩ := heq
      simp [← hgone hentry]

/-! ### The entry a route key names -/

/-- The entry of `ipv4_lpm` that a route key names. -/
def prefixOf (key : String) : Option LpmPrefix :=
  match splitRouteKey key with
  | none => none
  | some (address, prefixLen) => (Ipv4.aton address).map fun value => ⟨value, prefixLen⟩

/-- The text of an entry. -/
def EntryText (key : String) : Prop :=
  ∃ bytes n, bytes.length = 4 ∧ (∀ b ∈ bytes, b < 256) ∧ n ≤ 32 ∧ key = routeText bytes n

theorem prefixOf_routeText {bytes : List ℕ} {n : ℕ} (hlen : bytes.length = 4)
    (hbytes : ∀ b ∈ bytes, b < 256) (hn : n ≤ 32) :
    prefixOf (routeText bytes n) = some ⟨bytes, n⟩ := by
  rw [prefixOf, splitRouteKey_routeText hn]
  simp only [Ipv4.aton_of_pton (Ipv4.pton_ntoa hlen hbytes), Option.map_some]

/-- **Two texts do not name one entry.** -/
theorem prefixOf_inj {key key' : String} (h : EntryText key) (h' : EntryText key')
    (heq : prefixOf key = prefixOf key') : key = key' := by
  obtain ⟨bytes, n, hlen, hbytes, hn, rfl⟩ := h
  obtain ⟨bytes', n', hlen', hbytes', hn', rfl⟩ := h'
  rw [prefixOf_routeText hlen hbytes hn, prefixOf_routeText hlen' hbytes' hn'] at heq
  simp only [Option.some.injEq, LpmPrefix.mk.injEq, Int.natCast_inj] at heq
  rw [heq.1, heq.2]

/-- A host's name that its slot can be locked by, and that can be encoded, is an address. -/
theorem entryText_of_name {ip : String} {value : List ℕ}
    (hslot : (canonicalRouteKey (.str ip : Json Empty)).isSome = true)
    (haton : Ipv4.aton ip = some value) : EntryText ip ∧ prefixOf ip = some ⟨value, 32⟩ := by
  have hparse : (parseDestination (.str ip : Json Empty)).isSome = true := by
    cases h : parseDestination (.str ip : Json Empty) with
    | none => rw [canonicalRouteKey, h] at hslot; exact hslot
    | some p => rfl
  have hpton : ∃ bytes, Ipv4.pton ip = some bytes := by
    by_cases hslash : '/' ∈ ip.toList
    · -- the address before the slash would be read, and the rest would not
      obtain ⟨before, rest, hsplit, hbefore⟩ := List.eq_append_cons_of_mem hslash
      simp only [parseDestination, hsplit, partition_append hbefore] at hparse
      split at hparse
      · next h =>
        obtain ⟨bytes, hbytes⟩ := Option.isSome_iff_exists.mp h
        have hnone := Ipv4.aton_slash hbytes rest
        rw [String.toList_ofList, ← hsplit, String.ofList_toList, haton] at hnone
        cases hnone
      · cases hparse
    · simp only [parseDestination, partition_of_notMem hslash, String.ofList_toList] at hparse
      split at hparse
      · next h => exact Option.isSome_iff_exists.mp h
      · cases hparse
  obtain ⟨bytes, hbytes⟩ := hpton
  obtain ⟨hlen, hlt, htext⟩ := Ipv4.pton_eq_some.mp hbytes
  have hkey : ip = routeText bytes 32 := by rw [routeText, if_pos rfl, Ipv4.ntoa_pton hbytes]
  have hvalue : value = bytes := by
    rw [Ipv4.aton_of_pton hbytes] at haton
    exact (Option.some.inj haton).symm
  refine ⟨⟨bytes, 32, hlen, hlt, le_rfl, hkey⟩, ?_⟩
  rw [hkey, prefixOf_routeText hlen hlt le_rfl, hvalue]
  rfl

end NDTwin.Topology
