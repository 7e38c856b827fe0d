import NDTwin.EnergySaving.RouteWalk

/-!
# Routing around a switch

Before a switch is turned off, the entries of the others that lead straight to it are rewritten, each
to the port of a shortest way around it.  The entries are written one after the other, so that for a
time some of them are new and some are old; the switch is still on then, and its own table is not
touched.

A table holds no two entries with the same match and priority, and a write changes the entry that
has both.

## Main definitions

* `portsToward` — the ports of shortest ways to a switch.
* `Table`, `Kernel`, `Kernel.write` — what the switches hold, and a write.
* `planRewrites` — the rewrites, and the tables after them.

## Main results

* `portsToward_fuel` — the sweep over the links ends.
* `mixture_of_writes` — **after some of the writes, the hops are a mixture of the old and the planned
  ones.**
* `rewrites_safe` — **after any of the writes every walk is delivered, and after all of them none
  passes the switch.**
-/

namespace NDTwin.EnergySaving

open Forwarding

/-! ### The way around -/

/-- `sorted(links)`. -/
def sortedLinks (links : Links) : List (ℕ × Dict ℕ ℕ) :=
  links.entries.insertionSort fun a b => a.1 ≤ b.1

/-- The first port of a switch, in their order, that leads to `here`. -/
def portTo (ports : Dict ℕ ℕ) (here : ℕ) : Option ℕ :=
  ((ports.entries.insertionSort fun a b => a.1 ≤ b.1).find? fun p => p.2 = here).map Prod.fst

/-- The ports found so far, and the switches from which the search goes on. -/
structure Search where
  portOf : Dict ℕ (Option ℕ)
  queue : List ℕ

/-- A switch is reached, if it has a port to `here` and has not been reached before. -/
def Search.reach (avoid here : ℕ) (s : Search) (link : ℕ × Dict ℕ ℕ) : Search :=
  if link.1 = avoid || (s.portOf.get? link.1).isSome then s
  else
    match portTo link.2 here with
    | none => s
    | some port => ⟨s.portOf.set link.1 (some port), s.queue ++ [link.1]⟩

/-- The loop of `ports_toward`. -/
def Search.run (links : Links) (avoid : ℕ) : ℕ → Search → Dict ℕ (Option ℕ)
  | 0, s => s.portOf
  | fuel + 1, s =>
    match s.queue with
    | [] => s.portOf
    | here :: queue =>
      Search.run links avoid fuel
        ((sortedLinks links).foldl (Search.reach avoid here) { s with queue })

/-- `ports_toward(links, target, avoid)`.  Each switch joins the queue once. -/
def portsToward (links : Links) (target avoid : ℕ) : Dict ℕ (Option ℕ) :=
  Search.run links avoid (links.entries.length + 1) ⟨Dict.ofList [(target, none)], [target]⟩

/-! ### The tables -/

/-- What a write names an entry by. -/
def Entry.key (e : Entry) : Bool × List (String × MatchValue) × Option ℕ :=
  (e.defaultAction, e.matchFields, e.priority)

/-- What a table of a switch holds. -/
structure Table where
  entries : List Entry
  distinct : (entries.map Entry.key).Nodup

/-- The table after a write of `op` modify: the entry it names has the action of the write. -/
def Table.modify (t : Table) (new : Entry) : Table where
  entries := t.entries.map fun e =>
    if e.key = new.key then
      { e with actionName := new.actionName, actionParams := new.actionParams }
    else e
  distinct := by
    have hkeys : (t.entries.map fun e => if e.key = new.key then
        { e with actionName := new.actionName, actionParams := new.actionParams } else e).map
          Entry.key = t.entries.map Entry.key := by
      rw [List.map_map]
      refine List.map_congr_left ?_
      intro e _
      simp only [Function.comp_apply]
      split <;> rfl
    rw [hkeys]
    exact t.distinct

/-- What the kernel answers: the table of a switch, unless the call fails or the API cannot show the
table in full. -/
structure Kernel where
  table : ℕ → Table
  fails : ℕ → Bool := fun _ => false
  unrendered : ℕ → Bool := fun _ => false

/-- The kernel after `POST /ndt/p4/table_entry`, for a write that is carried out. -/
def Kernel.write (k : Kernel) (dpid : ℕ) (new : Entry) : Kernel :=
  { k with table := Function.update k.table dpid ((k.table dpid).modify new) }

/-- The entries of a switch's table, without the default entry. -/
def Kernel.entriesOf (k : Kernel) (dpid : ℕ) : List Entry :=
  (k.table dpid).entries.filter fun e => !e.defaultAction

/-- `read_table(kernel, dpid, table)`: the entries, and the default entry. -/
def readTable (k : Kernel) (dpid : ℕ) : Except PyError (List Entry × Option Entry) :=
  if k.fails dpid then .error .kernelError
  else if k.unrendered dpid then .error .runtimeError
  else .ok (k.entriesOf dpid, (k.table dpid).entries.find? fun e => e.defaultAction)

/-! ### The plan -/

/-- `covers(match_value, ip)`. -/
def covers (matchValue : MatchValue) (ip : BitVec 32) : Except PyError Bool :=
  match matchValue with
  | .pair v w =>
    match ipNetwork v w with
    | .error e => .error e
    | .ok net => .ok (inNetwork ip net)
  | .plain v => .ok (v = .address ip)

/-- The options that the plan depends on. -/
structure Args where
  portParam : String
  macParam : String
  matchField : String
  deriving DecidableEq, Repr

/-- Why there is no plan: it is said why, or an exception is raised. -/
inductive Stop where
  /-- A table's default entry sends packets to the switch. -/
  | defaultEntry (dpid : ℕ)
  /-- A destination has no single way around the switch. -/
  | noSingleWay (dpid : ℕ) (dst : Option MatchValue)
  | raised (e : PyError)
  deriving DecidableEq, Repr

/-- A planned rewrite: the switch, the entry as read and the entry to write. -/
structure Rewrite where
  dpid : ℕ
  old : Entry
  new : Entry
  deriving DecidableEq, Repr

/-- The hosts an entry is for. -/
def coveredHosts (dst : Option MatchValue) : List (BitVec 32 × ℕ × ℕ) →
    Except PyError (List (BitVec 32 × ℕ × ℕ))
  | [] => .ok []
  | host :: hosts =>
    match dst with
    | none => coveredHosts dst hosts
    | some value =>
      match covers value host.1 with
      | .error e => .error e
      | .ok holds =>
        (coveredHosts dst hosts).map fun rest => if holds then host :: rest else rest

/-- `new_ports`, each once. -/
def newPorts (links : Links) (hosts : Hosts) (victim dpid : ℕ) (dst : Option MatchValue) :
    Except PyError (List (Option ℕ)) :=
  (coveredHosts dst hosts.entries).map fun covered =>
    (covered.map fun host => ((portsToward links host.2.1 victim).get? dpid).join).dedup

/-- `mac_via`. -/
def macVia (args : Args) (entries : List Entry) : Dict (Option Shown) (Option Shown) :=
  Dict.ofList (entries.map fun e => (e.param args.portParam, e.param args.macParam))

/-- The entry to write in place of one, with its new port and, if another entry that uses the port
has one, its MAC address. -/
def rewritten (args : Args) (via : Dict (Option Shown) (Option Shown)) (e : Entry) (port : ℕ) :
    Entry :=
  let params := Dict.put args.portParam (.number port) e.actionParams
  { e with
    op := some "modify"
    actionParams :=
      match (via.get? (some (.number port))).join with
      | some mac => if args.macParam ≠ "" then Dict.put args.macParam mac params else params
      | none => params }

/-- What is planned for an entry: nothing where it does not lead to the switch. -/
def planEntry (args : Args) (hosts : Hosts) (links : Links) (victim dpid : ℕ)
    (via : Dict (Option Shown) (Option Shown)) (e : Entry) : Except Stop (Option Entry) :=
  if linkOf links dpid (e.param args.portParam) ≠ some victim then .ok none
  else
    let dst := Dict.find args.matchField e.matchFields
    match newPorts links hosts victim dpid dst with
    | .error err => .error (.raised err)
    | .ok [some port] => .ok (some (rewritten args via e port))
    | .ok _ => .error (.noSingleWay dpid dst)

/-- The entries of a table, each with what is planned for it. -/
def planEntries (plan : Entry → Except Stop (Option Entry)) :
    List Entry → Except Stop (List (Entry × Option Entry))
  | [] => .ok []
  | e :: es =>
    match plan e with
    | .error stop => .error stop
    | .ok new => (planEntries plan es).map ((e, new) :: ·)

/-- What is planned for a switch. -/
def planSwitch (k : Kernel) (args : Args) (hosts : Hosts) (links : Links) (victim dpid : ℕ) :
    Except Stop (List (Entry × Option Entry)) :=
  match readTable k dpid with
  | .error e => .error (.raised e)
  | .ok (entries, default_) =>
    if default_.any fun e => linkOf links dpid (e.param args.portParam) = some victim then
      .error (.defaultEntry dpid)
    else
      planEntries (planEntry args hosts links victim dpid (macVia args entries)) entries

/-- The rewrites of the switches `dpids`, and their tables after them. -/
def planSwitches (k : Kernel) (args : Args) (hosts : Hosts) (links : Links) (victim : ℕ) :
    List ℕ → List Rewrite × Tables → Except Stop (List Rewrite × Tables)
  | [], acc => .ok acc
  | dpid :: dpids, (plans, tables) =>
    match planSwitch k args hosts links victim dpid with
    | .error stop => .error stop
    | .ok planned =>
      planSwitches k args hosts links victim dpids
        (plans ++ planned.filterMap fun p => p.2.map fun new => ⟨dpid, p.1, new⟩,
          tables.set dpid (planned.map fun p => p.2.getD p.1))

/-- `plan_rewrites(kernel, args, switches, hosts, links, victim)`. -/
def planRewrites (k : Kernel) (args : Args) (switches : List ℕ) (hosts : Hosts) (links : Links)
    (victim : ℕ) : Except Stop (List Rewrite × Tables) :=
  planSwitches k args hosts links victim
    ((switches.insertionSort (· ≤ ·)).filter (· ≠ victim)) ([], Dict.empty)

/-! ### The search ends -/

/-- The links of switches that are not reached yet, and the switches still to search from. -/
def Search.left (links : List (ℕ × Dict ℕ ℕ)) (s : Search) : ℕ :=
  (links.filter fun link => (s.portOf.get? link.1).isNone).length + s.queue.length

/-- A switch that joins the queue is one less to reach. -/
theorem Search.left_reach (avoid here : ℕ) (s : Search) {links : List (ℕ × Dict ℕ ℕ)}
    {link : ℕ × Dict ℕ ℕ} (hmem : link ∈ links) :
    (s.reach avoid here link).left links ≤ s.left links := by
  unfold Search.reach
  split
  · exact le_rfl
  · next hnew =>
    split
    · exact le_rfl
    · next port _ =>
      simp only [Bool.or_eq_true, decide_eq_true_eq, not_or, Bool.not_eq_true,
        Option.isSome_eq_false_iff] at hnew
      -- the links left after it are those left before it, without this one
      have hfilter : (links.filter fun l => ((s.portOf.set link.1 (some port)).get? l.1).isNone) =
          (links.filter fun l => (s.portOf.get? l.1).isNone).filter fun l => l.1 ≠ link.1 := by
        rw [List.filter_filter]
        refine List.filter_congr ?_
        intro l _
        rw [Dict.get?_set]
        by_cases heq : l.1 = link.1
        · simp [heq]
        · simp [heq]
      have hlt : ((links.filter fun l => (s.portOf.get? l.1).isNone).filter
          fun l => l.1 ≠ link.1).length < (links.filter fun l => (s.portOf.get? l.1).isNone).length := by
        refine List.length_filter_lt_length_iff_exists.mpr ⟨link, ?_, by simp⟩
        exact List.mem_filter.mpr ⟨hmem, by simpa using hnew.2⟩
      simp only [Search.left, hfilter, List.length_append, List.length_singleton]
      omega

theorem Search.left_foldl_reach (avoid here : ℕ) {todo links : List (ℕ × Dict ℕ ℕ)}
    (hsub : ∀ link ∈ todo, link ∈ links) (s : Search) :
    (todo.foldl (Search.reach avoid here) s).left links ≤ s.left links := by
  induction todo generalizing s with
  | nil => exact le_rfl
  | cons link todo ih =>
    rw [List.foldl_cons]
    exact (ih (fun l hl => hsub l (List.mem_cons_of_mem _ hl)) _).trans
      (s.left_reach avoid here (hsub link List.mem_cons_self))

theorem Search.run_fuel (links : Links) (avoid : ℕ) {fuel : ℕ} {s : Search}
    (hfuel : s.left links.entries ≤ fuel) :
    Search.run links avoid (fuel + 1) s = Search.run links avoid fuel s := by
  induction fuel generalizing s with
  | zero =>
    have hqueue : s.queue = [] := by
      rw [Search.left] at hfuel
      exact List.length_eq_zero_iff.mp (by omega)
    rw [Search.run, Search.run, hqueue]
  | succ fuel ih =>
    rw [Search.run, Search.run]
    cases hqueue : s.queue with
    | nil => rfl
    | cons here queue =>
      dsimp only
      refine ih ?_
      have hsub : ∀ link ∈ sortedLinks links, link ∈ links.entries := by
        intro link hlink
        rwa [sortedLinks, List.mem_insertionSort] at hlink
      have hfold := Search.left_foldl_reach avoid here hsub { s with queue }
      have hpop : Search.left links.entries { s with queue } + 1 = s.left links.entries := by
        simp only [Search.left, hqueue, List.length_cons]
        omega
      omega

/-- **The search ends** before the turns that `ports_toward` is given are over. -/
theorem portsToward_fuel (links : Links) (target avoid extra : ℕ) :
    Search.run links avoid (links.entries.length + 1 + extra)
        ⟨Dict.ofList [(target, none)], [target]⟩ = portsToward links target avoid := by
  induction extra with
  | zero => rfl
  | succ extra ih =>
    rw [← Nat.add_assoc, Search.run_fuel, ih]
    have hlength := List.length_filter_le
      (fun link => ((Dict.ofList [(target, (none : Option ℕ))]).get? link.1).isNone) links.entries
    simp only [Search.left, List.length_singleton]
    omega

/-! ### What is planned -/

section Plan

variable (k : Kernel) (args : Args) (hosts : Hosts) (links : Links) (victim : ℕ)

/-- What is planned for an entry of a switch, where that can be planned. -/
def planOf (dpid : ℕ) (e : Entry) : Option Entry :=
  match planEntry args hosts links victim dpid (macVia args (k.entriesOf dpid)) e with
  | .ok new => new
  | .error _ => none

/-- An entry of a switch after the rewrites. -/
def planned (dpid : ℕ) (e : Entry) : Entry := (planOf k args hosts links victim dpid e).getD e

/-- A rewrite is of an entry that leads to the switch, and names that entry. -/
theorem planOf_eq_some {dpid : ℕ} {e new : Entry}
    (h : planOf k args hosts links victim dpid e = some new) :
    linkOf links dpid (e.param args.portParam) = some victim ∧ new.key = e.key := by
  unfold planOf planEntry at h
  split at h
  · next hok =>
    subst h
    split at hok
    · cases hok
    · next hlink =>
      refine ⟨not_not.mp hlink, ?_⟩
      dsimp only at hok
      split at hok
      · cases hok
      · cases hok
        rfl
      · cases hok
  · cases h

theorem key_planned (dpid : ℕ) (e : Entry) :
    (planned k args hosts links victim dpid e).key = e.key := by
  unfold planned
  cases hplan : planOf k args hosts links victim dpid e with
  | none => rfl
  | some new => exact (planOf_eq_some k args hosts links victim hplan).2

theorem planEntries_eq_ok {plan : Entry → Except Stop (Option Entry)} {es : List Entry}
    {out : List (Entry × Option Entry)} (h : planEntries plan es = .ok out) :
    out = es.map fun e => (e, match plan e with
      | .ok new => new
      | .error _ => none) := by
  induction es generalizing out with
  | nil =>
    cases h
    rfl
  | cons e es ih =>
    rw [planEntries] at h
    cases hplan : plan e with
    | error stop =>
      rw [hplan] at h
      cases h
    | ok new =>
      simp only [hplan] at h
      cases hrest : planEntries plan es with
      | error stop =>
        rw [hrest] at h
        cases h
      | ok rest =>
        rw [hrest] at h
        cases h
        rw [List.map_cons, hplan, ← ih hrest]

theorem planSwitch_eq_ok {dpid : ℕ} {out : List (Entry × Option Entry)}
    (h : planSwitch k args hosts links victim dpid = .ok out) :
    out = (k.entriesOf dpid).map fun e => (e, planOf k args hosts links victim dpid e) := by
  unfold planSwitch readTable at h
  split at h
  · cases h
  · next entries default_ hread =>
    split at hread
    · cases hread
    split at hread
    · cases hread
    cases hread
    split at h
    · cases h
    · exact planEntries_eq_ok h

/-- The rewrites of a switch are those that are planned for its entries. -/
theorem mem_rewrites_iff {dpid : ℕ} {w : Rewrite} :
    w ∈ ((k.entriesOf dpid).map fun e => (e, planOf k args hosts links victim dpid e)).filterMap
        (fun p => p.2.map fun new => (⟨dpid, p.1, new⟩ : Rewrite)) ↔
      w.dpid = dpid ∧ w.old ∈ k.entriesOf w.dpid ∧
        planOf k args hosts links victim w.dpid w.old = some w.new := by
  simp only [List.mem_filterMap, List.mem_map, exists_exists_and_eq_and, Option.map_eq_some_iff]
  constructor
  · rintro ⟨e, he, new, hnew, rfl⟩
    exact ⟨rfl, he, hnew⟩
  · rintro ⟨rfl, he, hnew⟩
    exact ⟨w.old, he, w.new, hnew, rfl⟩

/-- The tables after the rewrites, and where the rewrites come from. -/
theorem planSwitches_eq_ok {dpids : List ℕ} {plans plans' : List Rewrite} {tables tables' : Tables}
    (h : planSwitches k args hosts links victim dpids (plans, tables) = .ok (plans', tables')) :
    (∀ d, tables'.get? d =
      if d ∈ dpids then
        some ((k.entriesOf d).map (planned k args hosts links victim d))
      else tables.get? d) ∧
    ∀ w, w ∈ plans' ↔ w ∈ plans ∨ w.dpid ∈ dpids ∧ w.old ∈ k.entriesOf w.dpid ∧
      planOf k args hosts links victim w.dpid w.old = some w.new := by
  induction dpids generalizing plans tables with
  | nil =>
    cases h
    simp
  | cons dpid dpids ih =>
    rw [planSwitches] at h
    cases hplan : planSwitch k args hosts links victim dpid with
    | error stop =>
      rw [hplan] at h
      cases h
    | ok out =>
      simp only [hplan] at h
      rw [planSwitch_eq_ok k args hosts links victim hplan] at h
      obtain ⟨htables, hplans⟩ := ih h
      refine ⟨?_, ?_⟩
      · intro d
        rw [htables, Dict.get?_set, List.map_map]
        by_cases hd : d ∈ dpids
        · rw [if_pos hd, if_pos (List.mem_cons_of_mem _ hd)]
        · by_cases heq : d = dpid
          · subst heq
            rw [if_neg hd, if_pos rfl, if_pos List.mem_cons_self]
            rfl
          · have hnot : d ∉ dpid :: dpids := by simp [hd, heq]
            rw [if_neg hd, if_neg heq, if_neg hnot]
      · intro w
        rw [hplans, List.mem_append, or_assoc]
        refine or_congr_right ?_
        rw [mem_rewrites_iff, List.mem_cons]
        constructor
        · rintro (⟨hd, he⟩ | ⟨hd, he⟩)
          · exact ⟨.inl hd, he⟩
          · exact ⟨.inr hd, he⟩
        · rintro ⟨hd | hd, he⟩
          · exact .inl ⟨hd, he⟩
          · exact .inr ⟨hd, he⟩

end Plan

/-! ### Writes -/

/-- The kernel after some writes, one after the other. -/
def Kernel.writes (k : Kernel) (ws : List Rewrite) : Kernel :=
  ws.foldl (fun k w => k.write w.dpid w.new) k

/-- The tables of the switches, as they are followed. -/
def Kernel.tablesOf (k : Kernel) (switches : List ℕ) : Tables :=
  Dict.ofList (switches.map fun d => (d, k.entriesOf d))

/-- An entry of a switch after a write. -/
def writtenBy (dpid : ℕ) (e : Entry) (w : Rewrite) : Entry :=
  if w.dpid = dpid ∧ e.key = w.new.key then
    { e with actionName := w.new.actionName, actionParams := w.new.actionParams }
  else e

@[simp] theorem key_writtenBy (dpid : ℕ) (e : Entry) (w : Rewrite) :
    (writtenBy dpid e w).key = e.key := by
  unfold writtenBy
  split <;> rfl

theorem key_foldl_writtenBy (dpid : ℕ) (ws : List Rewrite) (e : Entry) :
    (ws.foldl (writtenBy dpid) e).key = e.key := by
  induction ws generalizing e with
  | nil => rfl
  | cons w ws ih => rw [List.foldl_cons, ih, key_writtenBy]

theorem entriesOf_write (k : Kernel) (w : Rewrite) (dpid : ℕ) :
    (k.write w.dpid w.new).entriesOf dpid =
      (k.entriesOf dpid).map fun e => writtenBy dpid e w := by
  unfold Kernel.entriesOf Kernel.write
  dsimp only
  by_cases hd : dpid = w.dpid
  · subst hd
    rw [Function.update_self, Table.modify, List.filter_map]
    have hsame : (fun e : Entry => !e.defaultAction) ∘ (fun e => if e.key = w.new.key then
        { e with actionName := w.new.actionName, actionParams := w.new.actionParams } else e) =
        fun e => !e.defaultAction := by
      funext e
      simp only [Function.comp_apply]
      split <;> rfl
    rw [hsame]
    refine List.map_congr_left ?_
    intro e _
    simp [writtenBy]
  · rw [Function.update_of_ne hd]
    have hsame : (fun e => writtenBy dpid e w) = id := by
      funext e
      simp [writtenBy, Ne.symm hd]
    rw [hsame, List.map_id]

/-- A table after some writes: the same entries in the same order, each with its writes. -/
theorem entriesOf_writes (k : Kernel) (ws : List Rewrite) (dpid : ℕ) :
    (k.writes ws).entriesOf dpid = (k.entriesOf dpid).map (ws.foldl (writtenBy dpid)) := by
  induction ws generalizing k with
  | nil => simp [Kernel.writes]
  | cons w ws ih =>
    have hcons : k.writes (w :: ws) = (k.write w.dpid w.new).writes ws := rfl
    rw [hcons, ih, entriesOf_write, List.map_map]
    rfl

/-- What the writes make of an entry that all of those which name it agree on. -/
theorem params_foldl_writtenBy {dpid : ℕ} {ws : List Rewrite} {e : Entry}
    {params : List (String × Shown)}
    (hagree : ∀ w ∈ ws, w.dpid = dpid → w.new.key = e.key → w.new.actionParams = params) :
    (ws.foldl (writtenBy dpid) e).actionParams =
      if ∃ w ∈ ws, w.dpid = dpid ∧ w.new.key = e.key then params else e.actionParams := by
  induction ws using List.reverseRecOn with
  | nil => simp
  | append_singleton ws w ih =>
    rw [List.foldl_append, List.foldl_cons, List.foldl_nil, writtenBy, key_foldl_writtenBy]
    by_cases hw : w.dpid = dpid ∧ w.new.key = e.key
    · rw [if_pos ⟨hw.1, hw.2.symm⟩, if_pos ⟨w, by simp, hw⟩]
      exact hagree w (by simp) hw.1 hw.2
    · have hcond : (∃ v ∈ ws ++ [w], v.dpid = dpid ∧ v.new.key = e.key) ↔
          ∃ v ∈ ws, v.dpid = dpid ∧ v.new.key = e.key := by
        simp [hw]
      rw [if_neg fun h => hw ⟨h.1, h.2.symm⟩,
        ih fun v hv => hagree v (List.mem_append_left _ hv)]
      simp only [hcond]

/-- An entry of a table is the only one with its match and priority. -/
theorem eq_of_key_eq_of_mem {k : Kernel} {dpid : ℕ} {e e' : Entry} (he : e ∈ k.entriesOf dpid)
    (he' : e' ∈ k.entriesOf dpid) (hkey : e.key = e'.key) : e = e' :=
  List.inj_on_of_nodup_map (k.table dpid).distinct (List.mem_filter.mp he).1
    (List.mem_filter.mp he').1 hkey

theorem get?_tablesOf (k : Kernel) (switches : List ℕ) (d : ℕ) :
    (k.tablesOf switches).get? d = if d ∈ switches then some (k.entriesOf d) else none :=
  Dict.get?_ofList_map switches k.entriesOf d

theorem hopBy_congr {e e' : Entry} (h : e.actionParams = e'.actionParams) (links : Links)
    (hosts : Hosts) (dstIp : BitVec 32) (portParam : String) (here : ℕ) :
    hopBy links hosts dstIp portParam here e = hopBy links hosts dstIp portParam here e' := by
  unfold hopBy Entry.param
  rw [h]

/-! ### Between the old tables and the new -/

section Safe

variable {k : Kernel} {args : Args} {switches : List ℕ} {hosts walked : Hosts} {links : Links}
  {victim : ℕ} {plans ws : List Rewrite} {tables : Tables}

/-- **What a plan consists of.** -/
theorem planRewrites_eq_ok
    (h : planRewrites k args switches hosts links victim = .ok (plans, tables)) :
    (∀ d, tables.get? d =
      if d ∈ switches ∧ d ≠ victim then
        some ((k.entriesOf d).map (planned k args hosts links victim d))
      else none) ∧
    ∀ w, w ∈ plans ↔ (w.dpid ∈ switches ∧ w.dpid ≠ victim) ∧ w.old ∈ k.entriesOf w.dpid ∧
      planOf k args hosts links victim w.dpid w.old = some w.new := by
  obtain ⟨htables, hplans⟩ := planSwitches_eq_ok k args hosts links victim h
  have hmem (d : ℕ) : d ∈ (switches.insertionSort (· ≤ ·)).filter (· ≠ victim) ↔
      d ∈ switches ∧ d ≠ victim := by
    rw [List.mem_filter, List.mem_insertionSort, decide_eq_true_eq]
  refine ⟨?_, ?_⟩
  · intro d
    rw [htables, Dict.get?_empty]
    simp only [hmem]
  · intro w
    rw [hplans, hmem]
    simp

/-- What some of the writes make of an entry: it is the old one still, or it is the planned one; and
it is the planned one if all of the writes are made. -/
theorem params_written (h : planRewrites k args switches hosts links victim = .ok (plans, tables))
    (hws : ∀ w ∈ ws, w ∈ plans) {d : ℕ} {e : Entry} (he : e ∈ k.entriesOf d) :
    ((ws.foldl (writtenBy d) e).actionParams = e.actionParams ∨
      (ws.foldl (writtenBy d) e).actionParams =
        (planned k args hosts links victim d e).actionParams) ∧
    ((∀ w ∈ plans, w ∈ ws) → d ∈ switches → d ≠ victim →
      (ws.foldl (writtenBy d) e).actionParams =
        (planned k args hosts links victim d e).actionParams) := by
  obtain ⟨-, hplans⟩ := planRewrites_eq_ok h
  have hagree : ∀ w ∈ ws, w.dpid = d → w.new.key = e.key →
      w.new.actionParams = (planned k args hosts links victim d e).actionParams := by
    rintro w hw rfl hkey
    obtain ⟨-, hold, hplan⟩ := (hplans w).mp (hws w hw)
    have hsame : w.old = e := by
      refine eq_of_key_eq_of_mem hold he ?_
      rw [← hkey]
      exact (planOf_eq_some k args hosts links victim hplan).2.symm
    rw [planned, ← hsame, hplan, Option.getD_some]
  rw [params_foldl_writtenBy hagree]
  refine ⟨?_, ?_⟩
  · split
    · exact .inr rfl
    · exact .inl rfl
  · intro hall hd hv
    split
    · rfl
    · next hnone =>
      -- no write names the entry, so none was planned for it
      cases hplan : planOf k args hosts links victim d e with
      | none => rw [planned, hplan, Option.getD_none]
      | some new =>
        refine absurd ⟨⟨d, e, new⟩, hall _ ((hplans _).mpr ⟨⟨hd, hv⟩, he, hplan⟩), rfl, ?_⟩ hnone
        exact (planOf_eq_some k args hosts links victim hplan).2

/-- The hop at a switch, when its table is one of the same matches. -/
theorem hop_map {tables : Tables} {d : ℕ} {g : Entry → Entry} (hkey : ∀ e, (g e).key = e.key)
    (htable : tables.get? d = some ((k.entriesOf d).map g)) (dstIp : BitVec 32) :
    hop tables links walked dstIp args.matchField args.portParam d =
      (followed (k.entriesOf d) dstIp args.matchField).map fun e =>
        e.elim .dropped fun e => hopBy links walked dstIp args.portParam d (g e) := by
  have hmatch (e : Entry) : (g e).matchFields = e.matchFields :=
    congrArg (fun key => key.2.1) (hkey e)
  rw [hop_eq htable, followed_map hmatch]
  rcases followed (k.entriesOf d) dstIp args.matchField with err | _ | e
  · rfl
  · rfl
  · rfl

/-- The hop at a switch depends on the table of that switch. -/
theorem hop_congr {tables tables' : Tables} {d : ℕ} (h : tables.get? d = tables'.get? d)
    (dstIp : BitVec 32) :
    hop tables links walked dstIp args.matchField args.portParam d =
      hop tables' links walked dstIp args.matchField args.portParam d := by
  rw [hop, hop, h]

/-- The table of a switch that no write is for. -/
theorem entriesOf_writes_of_ne {d : ℕ} (h : ∀ w ∈ ws, w.dpid ≠ d) :
    (k.writes ws).entriesOf d = k.entriesOf d := by
  have hsame (e : Entry) : ws.foldl (writtenBy d) e = e := by
    refine List.foldlRecOn (motive := fun e' => e' = e) ws _ rfl ?_
    intro e' he' w hw
    rw [writtenBy, if_neg fun hc => h w hw hc.1, he']
  rw [entriesOf_writes, List.map_congr_left fun e _ => hsame e, List.map_id']

/-- The hop at a switch before any write. -/
theorem hop_tablesOf {d : ℕ} (hd : d ∈ switches) (dstIp : BitVec 32) :
    hop (k.tablesOf switches) links walked dstIp args.matchField args.portParam d =
      (followed (k.entriesOf d) dstIp args.matchField).map fun e =>
        e.elim .dropped fun e => hopBy links walked dstIp args.portParam d e :=
  hop_map (g := id) (fun _ => rfl) (by rw [get?_tablesOf, if_pos hd, List.map_id]) dstIp

/-- The hop at a switch that is planned. -/
theorem hop_planned (h : planRewrites k args switches hosts links victim = .ok (plans, tables))
    {d : ℕ} (hd : d ∈ switches) (hv : d ≠ victim) (dstIp : BitVec 32) :
    hop tables links walked dstIp args.matchField args.portParam d =
      (followed (k.entriesOf d) dstIp args.matchField).map fun e =>
        e.elim .dropped fun e => hopBy links walked dstIp args.portParam d
          (planned k args hosts links victim d e) :=
  hop_map (key_planned k args hosts links victim d)
    (by rw [(planRewrites_eq_ok h).1, if_pos ⟨hd, hv⟩]) dstIp

/-- The hop at a switch after some writes. -/
theorem hop_writes (ws : List Rewrite) {d : ℕ} (hd : d ∈ switches) (dstIp : BitVec 32) :
    hop ((k.writes ws).tablesOf switches) links walked dstIp args.matchField args.portParam d =
      (followed (k.entriesOf d) dstIp args.matchField).map fun e =>
        e.elim .dropped fun e => hopBy links walked dstIp args.portParam d
          (ws.foldl (writtenBy d) e) :=
  hop_map (key_foldl_writtenBy d ws) (by rw [get?_tablesOf, if_pos hd, entriesOf_writes]) dstIp

/-- After all of the writes the hops are the planned ones, but for that of the switch. -/
theorem hop_writes_all (h : planRewrites k args switches hosts links victim = .ok (plans, tables))
    (hws : ∀ w ∈ ws, w ∈ plans) (hall : ∀ w ∈ plans, w ∈ ws) {d : ℕ} (hv : d ≠ victim)
    (dstIp : BitVec 32) :
    hop ((k.writes ws).tablesOf switches) links walked dstIp args.matchField args.portParam d =
      hop tables links walked dstIp args.matchField args.portParam d := by
  by_cases hd : d ∈ switches
  · rw [hop_writes ws hd, hop_planned h hd hv]
    rcases hfollowed : followed (k.entriesOf d) dstIp args.matchField with err | _ | e
    · rfl
    · rfl
    · have hparams := (params_written h hws (mem_of_followed hfollowed)).2 hall hd hv
      exact congrArg Except.ok (hopBy_congr hparams _ _ _ _ _)
  · refine hop_congr ?_ dstIp
    rw [get?_tablesOf, (planRewrites_eq_ok h).1, if_neg hd, if_neg fun hc => hd hc.1]

/-- **After some of the writes the hops are a mixture** of the old and the planned ones. -/
theorem mixture_of_writes
    (h : planRewrites k args switches hosts links victim = .ok (plans, tables))
    (hws : ∀ w ∈ ws, w ∈ plans) {dstIp : BitVec 32} {goal goalPort : ℕ}
    (hgoal : walked.get? dstIp = some (goal, goalPort))
    (hnew : hop tables links walked dstIp args.matchField args.portParam goal = .ok .delivered) :
    Mixture (hop (k.tablesOf switches) links walked dstIp args.matchField args.portParam)
      (hop tables links walked dstIp args.matchField args.portParam)
      (hop ((k.writes ws).tablesOf switches) links walked dstIp args.matchField args.portParam)
      victim goal := by
  -- the three hops at a switch follow the same entry, as it was, as it is planned and as it is now
  obtain ⟨htables, hplans⟩ := planRewrites_eq_ok h
  have hvictim : ∀ w ∈ ws, w.dpid ≠ victim := fun w hw => ((hplans w).mp (hws w hw)).1.2
  have hkept : hop ((k.writes ws).tablesOf switches) links walked dstIp args.matchField
        args.portParam victim =
      hop (k.tablesOf switches) links walked dstIp args.matchField args.portParam victim := by
    refine hop_congr ?_ dstIp
    rw [get?_tablesOf, get?_tablesOf, entriesOf_writes_of_ne hvictim]
  refine ⟨?_, hkept, ?_, ?_, hnew⟩
  · intro d
    by_cases hd : d ∈ switches
    · by_cases hv : d = victim
      · exact .inl (hv ▸ hkept)
      rw [hop_writes ws hd, hop_tablesOf hd, hop_planned h hd hv]
      rcases hfollowed : followed (k.entriesOf d) dstIp args.matchField with err | _ | e
      · exact .inl rfl
      · exact .inl rfl
      · rcases (params_written h hws (mem_of_followed hfollowed)).1 with hparams | hparams
        · exact .inl (congrArg Except.ok (hopBy_congr hparams _ _ _ _ _))
        · exact .inr (congrArg Except.ok (hopBy_congr hparams _ _ _ _ _))
    · refine .inl (hop_congr ?_ dstIp)
      rw [get?_tablesOf, get?_tablesOf, if_neg hd, if_neg hd]
  · intro d hv
    by_cases hd : d ∈ switches
    · rw [hop_tablesOf hd, hop_planned h hd hv]
      rcases followed (k.entriesOf d) dstIp args.matchField with err | _ | e
      · exact .inl rfl
      · exact .inl rfl
      · cases hplan : planOf k args hosts links victim d e with
        | none =>
          left
          simp [Except.map, planned, hplan]
        | some new =>
          right
          have hlink := (planOf_eq_some k args hosts links victim hplan).1
          rcases hopBy_of_linkOf hlink walked dstIp with hhop | hhop
          · exact .inl (congrArg Except.ok hhop)
          · exact .inr (congrArg Except.ok hhop)
    · refine .inl (hop_congr ?_ dstIp)
      rw [get?_tablesOf, htables, if_neg hd, if_neg fun hc => hd hc.1]
  · intro d hdelivered
    obtain ⟨port, hport⟩ := host_of_delivered hdelivered
    rw [hgoal] at hport
    cases hport
    rfl

/-- Every host reaches every other host. -/
def EveryPairDelivered (tables : Tables) (links : Links) (hosts : Hosts)
    (field portParam : String) : Prop :=
  ∀ srcIp dstIp src dst, hosts.get? srcIp = some src → hosts.get? dstIp = some dst →
    srcIp ≠ dstIp → ∃ path, walk tables links hosts src.1 dstIp field portParam = .ok (path, true)

/-- No packet from a host to another passes a switch. -/
def NonePasses (tables : Tables) (links : Links) (hosts : Hosts) (field portParam : String)
    (avoid : ℕ) : Prop :=
  ∀ srcIp dstIp src dst, hosts.get? srcIp = some src → hosts.get? dstIp = some dst →
    srcIp ≠ dstIp → ∀ path delivered,
      walk tables links hosts src.1 dstIp field portParam = .ok (path, delivered) → avoid ∉ path

/-- **After any of the planned writes every host still reaches every other host**, with the switch
still on and its table unchanged, and after all of them no packet passes it. -/
theorem rewrites_safe
    (hplan : planRewrites k args switches hosts links victim = .ok (plans, tables))
    (hcheck : firstBrokenRoute tables links walked victim args.matchField args.portParam = .ok none)
    (hbefore : EveryPairDelivered (k.tablesOf switches) links walked args.matchField args.portParam)
    (hws : ∀ w ∈ ws, w ∈ plans) :
    EveryPairDelivered ((k.writes ws).tablesOf switches) links walked args.matchField
        args.portParam ∧
      ((∀ w ∈ plans, w ∈ ws) →
        NonePasses ((k.writes ws).tablesOf switches) links walked args.matchField args.portParam
          victim) := by
  have hafter : ∀ srcIp dstIp src dst, walked.get? srcIp = some src → walked.get? dstIp = some dst →
      srcIp ≠ dstIp → ∃ path, Delivers (hop ((k.writes ws).tablesOf switches) links walked dstIp
          args.matchField args.portParam) src.1 path ∧
        ((∀ w ∈ plans, w ∈ ws) → victim ∉ path) := by
    intro srcIp dstIp src dst hsrc hdst hne
    obtain ⟨oldPath, hold⟩ := hbefore srcIp dstIp src dst hsrc hdst hne
    obtain ⟨newPath, hnew, havoids⟩ := firstBrokenRoute_eq_none hcheck hsrc hdst hne
    rw [walk_eq_iff] at hold hnew
    by_cases hall : ∀ w ∈ plans, w ∈ ws
    · refine ⟨newPath, hnew.congr fun d hd => ?_, fun _ => havoids⟩
      refine hop_writes_all hplan hws hall ?_ dstIp
      rintro rfl
      exact havoids hd
    · obtain ⟨goal, -, hdelivered⟩ := hnew.exists_delivered
      obtain ⟨port, hgoal⟩ := host_of_delivered hdelivered
      obtain ⟨path, hpath⟩ := (mixture_of_writes hplan hws hgoal hdelivered).delivers hold hnew
      exact ⟨path, hpath, fun h => absurd h hall⟩
  constructor
  · intro srcIp dstIp src dst hsrc hdst hne
    obtain ⟨path, hpath, -⟩ := hafter srcIp dstIp src dst hsrc hdst hne
    exact ⟨path, walk_eq_iff.mpr hpath⟩
  · intro hall srcIp dstIp src dst hsrc hdst hne path delivered hwalk
    obtain ⟨path', hpath', havoids⟩ := hafter srcIp dstIp src dst hsrc hdst hne
    rw [walk_eq_iff.mpr hpath'] at hwalk
    cases hwalk
    exact havoids hall

end Safe

/-- Three switches in a triangle, and a host at the first and at the second. -/
def triangleLinks : Links :=
  Dict.ofList [(1, Dict.ofList [(2, 2), (3, 3)]), (2, Dict.ofList [(2, 1), (3, 3)]),
    (3, Dict.ofList [(1, 1), (2, 2)])]

def triangleHosts : Hosts := Dict.ofList [(0x0a000101#32, (1, 1)), (0x0a000202#32, (2, 1))]

/-- An entry for one address. -/
def routeTo (ip : BitVec 32) (port : ℕ) : Entry where
  matchFields := [("hdr.ipv4.dstAddr", .pair (.address ip) (.number 32))]
  actionName := "MyIngress.ipv4_forward"
  actionParams := [("dstAddr", .mac 0), ("port", .number port)]

/-- The table of a switch with two routes. -/
def twoRoutes (port port' : ℕ) : Table where
  entries := [routeTo 0x0a000101#32 port, routeTo 0x0a000202#32 port']
  distinct := by
    simp [routeTo, Entry.key]

/-- The triangle, with both hosts' packets going over the third switch. -/
def triangle : Kernel where
  table d := if d = 1 then twoRoutes 1 3 else if d = 2 then twoRoutes 3 1 else twoRoutes 1 2

def defaultArgs : Args := ⟨"port", "dstAddr", "hdr.ipv4.dstAddr"⟩

/-- The rewrites that take the third switch of the triangle out of both ways. -/
def triangleRewrites : List Rewrite :=
  [⟨1, routeTo 0x0a000202#32 3, { routeTo 0x0a000202#32 2 with op := some "modify" }⟩,
    ⟨2, routeTo 0x0a000101#32 3, { routeTo 0x0a000101#32 2 with op := some "modify" }⟩]

def triangleTables : Tables :=
  Dict.ofList
    [(1, [routeTo 0x0a000101#32 1, { routeTo 0x0a000202#32 2 with op := some "modify" }]),
      (2, [{ routeTo 0x0a000101#32 2 with op := some "modify" }, routeTo 0x0a000202#32 1])]

/-- One of the two rewrites is made: one way leads over the third switch still, and the other does
not. -/
theorem rewrites_safe_triangle :
    planRewrites triangle defaultArgs [1, 2, 3] triangleHosts triangleLinks 3 =
        .ok (triangleRewrites, triangleTables) ∧
      EveryPairDelivered ((triangle.writes (triangleRewrites.take 1)).tablesOf [1, 2, 3])
        triangleLinks triangleHosts "hdr.ipv4.dstAddr" "port" ∧
      NonePasses ((triangle.writes triangleRewrites).tablesOf [1, 2, 3])
        triangleLinks triangleHosts "hdr.ipv4.dstAddr" "port" 3 := by
  have hplan : planRewrites triangle defaultArgs [1, 2, 3] triangleHosts triangleLinks 3 =
      .ok (triangleRewrites, triangleTables) := rfl
  have hcheck : firstBrokenRoute triangleTables triangleLinks triangleHosts 3
      defaultArgs.matchField defaultArgs.portParam = .ok none := rfl
  have hbefore : EveryPairDelivered (triangle.tablesOf [1, 2, 3]) triangleLinks triangleHosts
      defaultArgs.matchField defaultArgs.portParam := by
    have hwhole : firstBrokenRoute (triangle.tablesOf [1, 2, 3]) triangleLinks triangleHosts 0
        defaultArgs.matchField defaultArgs.portParam = .ok none := rfl
    intro srcIp dstIp src dst hsrc hdst hne
    obtain ⟨path, hpath, -⟩ := firstBrokenRoute_eq_none hwhole hsrc hdst hne
    exact ⟨path, hpath⟩
  exact ⟨hplan, (rewrites_safe hplan hcheck hbefore fun w hw => List.mem_of_mem_take hw).1,
    (rewrites_safe hplan hcheck hbefore fun w hw => hw).2 fun w hw => hw⟩

end NDTwin.EnergySaving
