import NDTwin.Lib.Dict
import NDTwin.Lib.Forwarding
import NDTwin.Lib.Ipv4
import Mathlib.Data.List.Sort

/-!
# Walking the forwarding tables

The energy-saving app checks a plan before it writes it: with the tables as they will be, every
host must reach every other host, and no packet may pass the switch that is about to be turned off.
A packet is followed from switch to switch, at each of them out of the port of the most specific
entry for its destination.

A value of an entry is a value as the API shows it, which depends on the width of its field.

## Main definitions

* `Shown`, `MatchValue`, `Entry` — the entries of a table, as they are read.
* `prefixLen`, `nextPort`, `walk`, `firstBrokenRoute` — the walk, as `route_walk.py` has it.

## Main results

* `walk_eq_iff` — **a walk is delivered exactly when its hops deliver it.**
* `followed_map` — **the entry that is followed depends on the matches only.**
* `firstBrokenRoute_eq_none` — **no broken route means that every walk is delivered and avoids the
  switch.**
-/

namespace NDTwin.EnergySaving

open Forwarding

/-! ### Entries -/

/-- A value as `render_value` shows it: a dotted address, a MAC address, a number, or a number in
hexadecimal digits. -/
inductive Shown where
  | address (a : BitVec 32)
  | mac (a : BitVec 48)
  | number (n : ℕ)
  | hex (n : ℕ)
  deriving DecidableEq, Repr

/-- A match value: a plain value, or a list of two, of which the second is a prefix length (lpm), a
mask (ternary) or an upper bound (range). -/
inductive MatchValue where
  | plain (v : Shown)
  | pair (v w : Shown)
  deriving DecidableEq, Repr

/-- An entry of a table.  The switch and the table it is of, which it carries too, are left out. -/
structure Entry where
  matchFields : List (String × MatchValue)
  actionName : String
  actionParams : List (String × Shown)
  priority : Option ℕ := none
  defaultAction : Bool := false
  op : Option String := none
  deriving DecidableEq, Repr

/-- What the program raises. -/
inductive PyError where
  | valueError
  | runtimeError
  | kernelError
  deriving DecidableEq, Repr

/-- A value of an action's parameters. -/
def Entry.param (e : Entry) (name : String) : Option Shown := Dict.find name e.actionParams

/-! ### Networks -/

/-- The mask of a prefix length. -/
def netmask (len : ℕ) : BitVec 32 := BitVec.allOnes 32 <<< (32 - len)

/-- The prefix length that a mask stands for, as a netmask or else as a hostmask. -/
def prefixOfMask (mask : BitVec 32) : Option ℕ :=
  match (List.range 33).find? fun len => netmask len = mask with
  | some len => some len
  | none => (List.range 33).find? fun len => netmask len = ~~~mask

/-- `ip_network(f"{v}/{w}", strict=False)`: its address and its prefix length.  Only a dotted address
is one of IPv4, and no value that the API shows is one of IPv6. -/
def ipNetwork : Shown → Shown → Except PyError (BitVec 32 × ℕ)
  | .address a, .number len => if len ≤ 32 then .ok (a, len) else .error .valueError
  | .address a, .address mask =>
    match prefixOfMask mask with
    | some len => .ok (a, len)
    | none => .error .valueError
  | _, _ => .error .valueError

/-- `ip_address(ip) in net`. -/
def inNetwork (ip : BitVec 32) (net : BitVec 32 × ℕ) : Bool :=
  ip &&& netmask net.2 = net.1 &&& netmask net.2

/-- `prefix_len(match_value, ip)`. -/
def prefixLen (matchValue : MatchValue) (ip : BitVec 32) : Except PyError (Option ℕ) :=
  match matchValue with
  | .pair v w =>
    match ipNetwork v w with
    | .error e => .error e
    | .ok net => .ok (if inNetwork ip net then some net.2 else none)
  | .plain v => .ok (if v = .address ip then some 32 else none)

/-! ### The walk -/

/-- The length of an entry's match of a destination. -/
def matchLen (dstIp : BitVec 32) (field : String) (e : Entry) : Except PyError (Option ℕ) :=
  match Dict.find field e.matchFields with
  | none => .ok none
  | some value => prefixLen value dstIp

/-- The first of the longest, where `best` has been found before. -/
def longest {ι ε : Type*} (len : ι → Except ε (Option ℕ)) :
    Option (ℕ × ι) → List ι → Except ε (Option (ℕ × ι))
  | best, [] => .ok best
  | best, e :: es =>
    match len e with
    | .error err => .error err
    | .ok none => longest len best es
    | .ok (some n) => longest len (if best.all (·.1 < n) then some (n, e) else best) es

/-- `next_port(entries, dst_ip, field, port_param)`. -/
def nextPort (entries : List Entry) (dstIp : BitVec 32) (field portParam : String) :
    Except PyError (Option Shown) :=
  match longest (matchLen dstIp field) none entries with
  | .error e => .error e
  | .ok none => .ok none
  | .ok (some (_, best)) => .ok (best.param portParam)

/-- `{dpid: entries}`. -/
abbrev Tables := Dict ℕ (List Entry)

/-- `{dpid: {port: neighbour dpid}}`. -/
abbrev Links := Dict ℕ (Dict ℕ ℕ)

/-- `{ip: (dpid, port)}`. -/
abbrev Hosts := Dict (BitVec 32) (ℕ × ℕ)

/-- `links.get(dpid, {}).get(port)`. -/
def linkOf (links : Links) (dpid : ℕ) : Option Shown → Option ℕ
  | some (.number port) => (links.get? dpid).bind fun ports => ports.get? port
  | _ => none

/-- One turn of the loop of `walk`. -/
def hop (tables : Tables) (links : Links) (hosts : Hosts) (dstIp : BitVec 32)
    (field portParam : String) (here : ℕ) : Except PyError (Hop ℕ) :=
  match tables.get? here with
  | none => .ok .dropped
  | some entries =>
    match nextPort entries dstIp field portParam with
    | .error e => .error e
    | .ok none => .ok .dropped
    | .ok (some port) =>
      if (hosts.get? dstIp).map (fun at_ => (at_.1, Shown.number at_.2)) = some (here, port) then
        .ok .delivered
      else
        match linkOf links here (some port) with
        | none => .ok .dropped
        | some nxt => .ok (.next nxt)

/-- `walk(tables, links, hosts, src, dst_ip, field, port_param)`.  A walk visits a switch once, so it
ends within as many turns as there are tables, and one more. -/
def walk (tables : Tables) (links : Links) (hosts : Hosts) (src : ℕ) (dstIp : BitVec 32)
    (field portParam : String) : Except PyError (List ℕ × Bool) :=
  Forwarding.walk (hop tables links hosts dstIp field portParam) (tables.keys.length + 1) src []

/-- The text of an address. -/
def dotted (ip : BitVec 32) : String := Ipv4.ntoa (Ipv4.toBytes 4 ip.toNat)

/-- `sorted(hosts.items())`. -/
def sortedHosts (hosts : Hosts) : List (BitVec 32 × ℕ × ℕ) :=
  hosts.entries.insertionSort fun a b => dotted a.1 ≤ dotted b.1

/-- A pair of hosts whose packets stop, or pass a switch they should not. -/
structure BrokenRoute where
  srcIp : BitVec 32
  dstIp : BitVec 32
  path : List ℕ
  delivered : Bool
  deriving DecidableEq, Repr

/-- The text of a broken route. -/
def BrokenRoute.text (r : BrokenRoute) : String :=
  dotted r.srcIp ++ " -> " ++ dotted r.dstIp ++ (if r.delivered then " passes: " else " stops: ") ++
    " ".intercalate (r.path.map fun d => "s" ++ toString d)

/-- The pairs of distinct hosts, in their order. -/
def pairs (hosts : Hosts) : List (BitVec 32 × ℕ × BitVec 32) :=
  (sortedHosts hosts).flatMap fun src =>
    ((sortedHosts hosts).filter fun dst => dst.1 ≠ src.1).map fun dst => (src.1, src.2.1, dst.1)

/-- The first pair of a list that is broken. -/
def firstBroken (tables : Tables) (links : Links) (hosts : Hosts) (avoid : ℕ)
    (field portParam : String) : List (BitVec 32 × ℕ × BitVec 32) → Except PyError (Option BrokenRoute)
  | [] => .ok none
  | (srcIp, src, dstIp) :: rest =>
    match walk tables links hosts src dstIp field portParam with
    | .error e => .error e
    | .ok (path, delivered) =>
      if !delivered || avoid ∈ path then .ok (some ⟨srcIp, dstIp, path, delivered⟩)
      else firstBroken tables links hosts avoid field portParam rest

/-- `first_broken_route(tables, links, hosts, avoid, field, port_param)`. -/
def firstBrokenRoute (tables : Tables) (links : Links) (hosts : Hosts) (avoid : ℕ)
    (field portParam : String) : Except PyError (Option BrokenRoute) :=
  firstBroken tables links hosts avoid field portParam (pairs hosts)

/-! ### What the walk depends on -/

section Longest

variable {ι κ ε : Type*}

theorem longest_map (len : κ → Except ε (Option ℕ)) (g : ι → κ) (best : Option (ℕ × ι))
    (es : List ι) :
    longest len (best.map fun b => (b.1, g b.2)) (es.map g) =
      (longest (fun e => len (g e)) best es).map (Option.map fun b => (b.1, g b.2)) := by
  induction es generalizing best with
  | nil => rfl
  | cons e es ih =>
    rw [List.map_cons, longest, longest]
    rcases len (g e) with err | _ | n
    · rfl
    · exact ih best
    · dsimp only
      rw [← ih]
      congr 1
      cases best with
      | none => rfl
      | some b =>
        simp only [Option.map_some, Option.all_some]
        split <;> rfl

/-- What is found is one of those searched. -/
theorem mem_of_longest {len : ι → Except ε (Option ℕ)} {best : Option (ℕ × ι)} {es : List ι}
    {b : ℕ × ι} (h : longest len best es = .ok (some b)) : best = some b ∨ b.2 ∈ es := by
  induction es generalizing best with
  | nil =>
    rw [longest] at h
    cases h
    exact .inl rfl
  | cons e es ih =>
    rw [longest] at h
    split at h
    · cases h
    · exact (ih h).imp_right (List.mem_cons_of_mem _)
    · next n _ =>
      rcases ih h with hfound | hmem
      · split at hfound
        · cases hfound
          exact .inr List.mem_cons_self
        · exact .inl hfound
      · exact .inr (List.mem_cons_of_mem _ hmem)

end Longest

/-- The entry that is followed for a destination. -/
def followed (entries : List Entry) (dstIp : BitVec 32) (field : String) :
    Except PyError (Option Entry) :=
  (longest (matchLen dstIp field) none entries).map (Option.map Prod.snd)

theorem nextPort_eq (entries : List Entry) (dstIp : BitVec 32) (field portParam : String) :
    nextPort entries dstIp field portParam =
      (followed entries dstIp field).map fun e => e.bind fun e => e.param portParam := by
  unfold nextPort followed
  rcases longest (matchLen dstIp field) none entries with err | _ | b
  · rfl
  · rfl
  · rfl

/-- **The entry that is followed depends on the matches only.** -/
theorem followed_map {g : Entry → Entry} (hmatch : ∀ e, (g e).matchFields = e.matchFields)
    (entries : List Entry) (dstIp : BitVec 32) (field : String) :
    followed (entries.map g) dstIp field = (followed entries dstIp field).map (Option.map g) := by
  have hlen : (fun e => matchLen dstIp field (g e)) = matchLen dstIp field := by
    funext e
    rw [matchLen, matchLen, hmatch]
  have hmap := longest_map (matchLen dstIp field) g none entries
  rw [hlen, Option.map_none] at hmap
  unfold followed
  rw [hmap]
  rcases longest (matchLen dstIp field) none entries with err | _ | b
  · rfl
  · rfl
  · rfl

theorem mem_of_followed {entries : List Entry} {dstIp : BitVec 32} {field : String} {e : Entry}
    (h : followed entries dstIp field = .ok (some e)) : e ∈ entries := by
  unfold followed at h
  rcases hlongest : longest (matchLen dstIp field) none entries with err | _ | b
  · rw [hlongest] at h
    cases h
  · rw [hlongest] at h
    cases h
  · rw [hlongest] at h
    cases h
    rcases mem_of_longest hlongest with hnone | hmem
    · cases hnone
    · exact hmem

/-- Where a packet goes when an entry is followed at a switch. -/
def hopBy (links : Links) (hosts : Hosts) (dstIp : BitVec 32) (portParam : String) (here : ℕ)
    (e : Entry) : Hop ℕ :=
  match e.param portParam with
  | none => .dropped
  | some port =>
    if (hosts.get? dstIp).map (fun at_ => (at_.1, Shown.number at_.2)) = some (here, port) then
      .delivered
    else
      match linkOf links here (some port) with
      | none => .dropped
      | some nxt => .next nxt

theorem hop_eq {tables : Tables} {here : ℕ} {entries : List Entry}
    (h : tables.get? here = some entries) (links : Links) (hosts : Hosts) (dstIp : BitVec 32)
    (field portParam : String) :
    hop tables links hosts dstIp field portParam here =
      (followed entries dstIp field).map fun e =>
        e.elim .dropped (hopBy links hosts dstIp portParam here) := by
  rw [hop, h]
  dsimp only
  rw [nextPort_eq]
  rcases followed entries dstIp field with err | _ | e
  · rfl
  · rfl
  · simp only [Except.map, Option.bind_some, Option.elim_some, hopBy]
    cases e.param portParam with
    | none => rfl
    | some port =>
      dsimp only
      split
      · rfl
      · cases linkOf links here (some port) with
        | none => rfl
        | some nxt => rfl

/-- A packet is delivered where its host is. -/
theorem host_of_delivered {tables : Tables} {links : Links} {hosts : Hosts} {dstIp : BitVec 32}
    {field portParam : String} {here : ℕ}
    (h : hop tables links hosts dstIp field portParam here = .ok .delivered) :
    ∃ port, hosts.get? dstIp = some (here, port) := by
  unfold hop at h
  split at h
  · cases h
  split at h
  · cases h
  · cases h
  split at h
  · next hat =>
    obtain ⟨⟨dpid, port⟩, hget, heq⟩ := Option.map_eq_some_iff.mp hat
    cases heq
    exact ⟨port, hget⟩
  · split at h
    · cases h
    · cases h

/-- Where a packet goes over a link. -/
theorem hopBy_of_linkOf {links : Links} {here victim : ℕ} {e : Entry} {portParam : String}
    (h : linkOf links here (e.param portParam) = some victim) (hosts : Hosts)
    (dstIp : BitVec 32) :
    hopBy links hosts dstIp portParam here e = .delivered ∨
      hopBy links hosts dstIp portParam here e = .next victim := by
  unfold hopBy
  cases hport : e.param portParam with
  | none =>
    rw [hport] at h
    cases h
  | some port =>
    rw [hport] at h
    dsimp only
    split
    · exact .inl rfl
    · rw [h]
      exact .inr rfl

/-- **A walk is delivered exactly when its hops deliver it.** -/
theorem walk_eq_iff {tables : Tables} {links : Links} {hosts : Hosts} {src : ℕ} {dstIp : BitVec 32}
    {field portParam : String} {path : List ℕ} :
    walk tables links hosts src dstIp field portParam = .ok (path, true) ↔
      Delivers (hop tables links hosts dstIp field portParam) src path := by
  have hnodes : ∀ here, here ∉ tables.keys →
      hop tables links hosts dstIp field portParam here = .ok .dropped := by
    intro here hnot
    have hnone : tables.get? here = none := by
      rw [← Option.not_isSome_iff_eq_none, ← Dict.mem_keys_iff]
      exact hnot
    rw [hop, hnone]
  exact walk_eq_iff_delivers hnodes (Nat.le_succ _)

/-- The ordered pairs of distinct hosts. -/
theorem mem_pairs {hosts : Hosts} {srcIp dstIp : BitVec 32} {src srcPort : ℕ} {dst : ℕ × ℕ}
    (hsrc : hosts.get? srcIp = some (src, srcPort)) (hdst : hosts.get? dstIp = some dst)
    (hne : srcIp ≠ dstIp) : (srcIp, src, dstIp) ∈ pairs hosts := by
  have hmem {ip : BitVec 32} {at_ : ℕ × ℕ} (h : hosts.get? ip = some at_) :
      (ip, at_) ∈ sortedHosts hosts := by
    rw [sortedHosts, List.mem_insertionSort]
    exact (hosts.mem_entries_iff ip at_).mpr h
  refine List.mem_flatMap.mpr ⟨_, hmem hsrc, List.mem_map.mpr ⟨(dstIp, dst), ?_, rfl⟩⟩
  exact List.mem_filter.mpr ⟨hmem hdst, by simpa using hne.symm⟩

theorem firstBroken_eq_none {tables : Tables} {links : Links} {hosts : Hosts} {avoid : ℕ}
    {field portParam : String} {todo : List (BitVec 32 × ℕ × BitVec 32)}
    (h : firstBroken tables links hosts avoid field portParam todo = .ok none) :
    ∀ p ∈ todo, ∃ path, walk tables links hosts p.2.1 p.2.2 field portParam = .ok (path, true) ∧
      avoid ∉ path := by
  induction todo with
  | nil => exact nofun
  | cons p todo ih =>
    obtain ⟨srcIp, src, dstIp⟩ := p
    rw [firstBroken] at h
    rcases hwalk : walk tables links hosts src dstIp field portParam with e | ⟨path, delivered⟩
    · simp [hwalk] at h
    · simp only [hwalk] at h
      split at h
      · cases h
      · next hfine =>
        simp only [Bool.or_eq_true, Bool.not_eq_true', decide_eq_true_eq, not_or,
          Bool.not_eq_false] at hfine
        intro p hp
        rcases List.mem_cons.mp hp with rfl | hp
        · exact ⟨path, by rw [hwalk, hfine.1], hfine.2⟩
        · exact ih h p hp

/-- **No broken route means that every walk is delivered and avoids the switch.** -/
theorem firstBrokenRoute_eq_none {tables : Tables} {links : Links} {hosts : Hosts} {avoid : ℕ}
    {field portParam : String}
    (h : firstBrokenRoute tables links hosts avoid field portParam = .ok none)
    {srcIp dstIp : BitVec 32} {src srcPort : ℕ} {dst : ℕ × ℕ}
    (hsrc : hosts.get? srcIp = some (src, srcPort)) (hdst : hosts.get? dstIp = some dst)
    (hne : srcIp ≠ dstIp) :
    ∃ path, walk tables links hosts src dstIp field portParam = .ok (path, true) ∧
      avoid ∉ path :=
  firstBroken_eq_none h (srcIp, src, dstIp) (mem_pairs hsrc hdst hne)

end NDTwin.EnergySaving
