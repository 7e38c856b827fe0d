import Mathlib.Data.List.Find
import Mathlib.Logic.Relation
import NDTwin.Netem.BothEnds

/-!
# Only what the kernel attached is removed

Every command is written down with what it produced, newest first.  What may be done next is said
by a machine on the ledger and that history: a delete has to name a place where the last listing of
its interface shows a `netem` with the handle the ledger has for it, an attach at the root needs a
last listing in which the root is the default of the machine, and the ledger changes only by what
the last commands showed.

Two listings defeat that.  A root that is neither `htb` nor the default is taken for an unshaped
one; and where the line of a `netem` ends at its handle, the handle is read from that line and the
place from another.

## Main definitions

* `recorded` — a runner that writes down what it runs.
* `Permitted` — what may be done next.
* `Orderly` — a runner under which everything that is done is permitted.
* `Tidy` — a listing that is read as it is meant.

## Main results

* `shows_of_whole` — a listing is read as it is meant where no line of a `netem` ends at its handle.
* `permitted_cutInterface`, `permitted_restore`, `permitted_cutLinkEnds` — on tidy listings
  everything that is done is permitted.
* `orderly_iff` — **everything that is done is permitted exactly when every listing is tidy.**
* `tbf_not_orderly` — a shaper of another kind is replaced.
-/

namespace NDTwin.Netem

open Relation

/-! ### What may be done -/

/-- A command and what it produced. -/
abbrev Event := List String × TcOutcome

/-- A runner that writes down what it runs, newest first. -/
def recorded {W : Type*} (run : W → List String → TcOutcome × W) (s : W × List Event)
    (args : List String) : TcOutcome × (W × List Event) :=
  ((run s.1 args).1, (run s.1 args).2, (args, (run s.1 args).1) :: s.2)

/-- What the last listing of an interface produced. -/
def lastShow (history : List Event) (iface : String) : Option TcOutcome :=
  (history.find? fun e => e.1 = showArgs iface).map Prod.snd

/-- A listing shows a `netem` with a handle at a place. -/
def Shows (tree handle : String) (place : Place) : Prop :=
  ∃ rest, "qdisc" :: "netem" :: handle :: (place.tcArgs ++ rest) ∈ qdiscLines tree

/-- Every root of a listing is the default of the machine, which has no handle of its own. -/
def RootsDefault (tree : String) : Prop :=
  ∀ w ∈ qdiscLines tree, "root" ∈ w.drop 3 → (w.drop 2).head? = some "0:"

/-- What may be done next. -/
inductive Permitted : InjectedNetemLedger × List Event → InjectedNetemLedger × List Event → Prop
  | list (ledger history iface o) :
    Permitted (ledger, history) (ledger, (showArgs iface, o) :: history)
  | attach (ledger history iface place loss o listing) (hlast : lastShow history iface = some listing)
      (hread : listing.succeeded = true) (hroot : place = .root → RootsDefault listing.output) :
    Permitted (ledger, history) (ledger, (addArgs iface place loss, o) :: history)
  | detach (ledger history iface place o listing entry)
      (hlast : lastShow history iface = some listing) (hread : listing.succeeded = true)
      (hours : InjectedNetemLedger.find ledger iface = some entry)
      (hshows : Shows listing.output entry.handle place) :
    Permitted (ledger, history) (ledger, (delArgs iface place, o) :: history)
  | note (ledger history iface place loss o after nowMs) (hok : o.succeeded = true) :
    Permitted (ledger, (showArgs iface, after) :: (addArgs iface place loss, o) :: history)
      (ledger.record iface (netemHandleInTree after.output) (describeArgv place.tcArgs) nowMs,
        (showArgs iface, after) :: (addArgs iface place loss, o) :: history)
  | forget (ledger history iface after) (hlast : lastShow history iface = some after)
      (hgone : (findExistingNetem after.output).isOk = false) :
    Permitted (ledger, history) (ledger.forget iface, history)

/-- A listing that is read as it is meant: the place and the handle that are read are those of one
`netem`, and a root that is offered is the default of the machine. -/
structure Tidy (tree : String) : Prop where
  place : ∀ place, findExistingNetem tree = .ok place → Shows tree (netemHandleInTree tree) place
  root : planAttach tree = .ok .root → RootsDefault tree

variable {W : Type*} (run : W → List String → TcOutcome × W) (clock : W × List Event → ℤ)
  (formatTime : ℤ → String)

/-- Every listing of an interface that is read is tidy. -/
def TidyListings : Prop :=
  ∀ w iface, isMininetInterfaceName iface = true → (run w (showArgs iface)).1.succeeded = true →
    Tidy (run w (showArgs iface)).1.output

/-- The recovery of one interface: it is inspected, and restored as it was sighted. -/
def restoreInspected (iface : String) (ledger : InjectedNetemLedger) (w : W) :
    Report × InjectedNetemLedger × W :=
  restoreSightedNetem run iface (inspectNetem run formatTime iface ledger w).1 ledger
    (inspectNetem run formatTime iface ledger w).2

/-- Everything that is done with a runner is permitted, whatever the ledger and the interfaces, and
an interface that was not sighted as the kernel's own is left alone. -/
structure Orderly : Prop where
  cut : ∀ loss iface ledger w history, ReflTransGen Permitted (ledger, history)
    (ledger, (cutInterface (recorded run) loss iface (w, history)).2.2)
  restore : ∀ iface ledger w history, ReflTransGen Permitted (ledger, history)
    ((restoreInspected (recorded run) formatTime iface ledger (w, history)).2.1,
      (restoreInspected (recorded run) formatTime iface ledger (w, history)).2.2.2)
  cutEnds : ∀ ifaces loss ledger w history, ReflTransGen Permitted (ledger, history)
    ((cutLinkEnds (recorded run) clock formatTime ifaces loss ledger (w, history)).2.1,
      (cutLinkEnds (recorded run) clock formatTime ifaces loss ledger (w, history)).2.2.2)
  leaves : ∀ iface (seen : NetemSighting) ledger s, seen.provenance ≠ .ours →
    (restoreSightedNetem (recorded run) iface seen ledger s).2.2 = s

/-! ### Listings -/

@[simp] theorem lastShow_show (iface : String) (o : TcOutcome) (history : List Event) :
    lastShow ((showArgs iface, o) :: history) iface = some o := by
  simp [lastShow]

/-- Where a place can be read there is a line with a handle. -/
theorem handle_of_findExistingNetem {tree : String} {place : Place}
    (h : findExistingNetem tree = .ok place) : netemHandleInTree tree ≠ "" := by
  unfold findExistingNetem at h
  split at h
  · cases h
  next w hw =>
  have hlong := List.find?_some hw
  rw [Bool.and_eq_true, decide_eq_true_eq] at hlong
  have hmem := List.mem_of_find?_eq_some hw
  unfold netemHandleInTree
  rcases hfind : (qdiscLines tree).find? fun w => 3 ≤ w.length && isNetem w with _ | v
  · have hno := List.find?_eq_none.mp hfind w hmem
    exact absurd (by simp [hlong.2]; omega) hno
  · have hv := List.find?_some hfind
    obtain ⟨line, -, hwords⟩ := List.mem_map.mp
      (List.mem_filter.mp (List.mem_of_find?_eq_some hfind)).1
    rw [Bool.and_eq_true, decide_eq_true_eq] at hv
    obtain ⟨a, b, c, rest, rfl⟩ : ∃ a b c rest, v = a :: b :: c :: rest := by
      match v, hv.1 with
      | a :: b :: c :: rest, _ => exact ⟨a, b, c, rest, rfl⟩
    have hc : c ∈ splitWords line := by simp [hwords]
    obtain ⟨cs, hcs, rfl⟩ := List.mem_map.mp hc
    intro hempty
    rw [hfind] at hempty
    have hnil : cs = [] := by
      have := congrArg String.toList hempty
      simpa using this
    exact ne_empty_of_mem_wordsFrom [] line cs hcs hnil

/-- **A listing is read as it is meant where no line of a `netem` ends at its handle.** -/
theorem shows_of_whole {tree : String} (hwhole : ∀ w ∈ qdiscLines tree, isNetem w = true →
    w.length ≠ 3) {place : Place} (h : findExistingNetem tree = .ok place) :
    Shows tree (netemHandleInTree tree) place := by
  -- the two readings are of the first line of a netem that goes on
  have hsame : ((qdiscLines tree).find? fun w => 3 ≤ w.length && isNetem w) =
      (qdiscLines tree).find? fun w => 4 ≤ w.length && isNetem w := by
    refine List.find?_congr fun w hw => ?_
    by_cases hnetem : isNetem w = true
    · have hne := hwhole w hw hnetem
      simp only [hnetem, Bool.and_true, decide_eq_decide]
      omega
    · simp [hnetem]
  unfold netemHandleInTree
  unfold findExistingNetem at h
  rw [hsame]
  split at h
  · cases h
  next w hw =>
  have hmem := List.mem_of_find?_eq_some hw
  have hlong := List.find?_some hw
  rw [Bool.and_eq_true, decide_eq_true_eq] at hlong
  obtain ⟨a, b, c, d, rest, rfl⟩ : ∃ a b c d rest, w = a :: b :: c :: d :: rest := by
    match w, hlong.1 with
    | a :: b :: c :: d :: rest, _ => exact ⟨a, b, c, d, rest, rfl⟩
  obtain ⟨rfl, rfl⟩ : a = "qdisc" ∧ b = "netem" := by simpa [isNetem] using hlong.2
  simp only [List.drop_succ_cons, List.drop_zero] at h
  split at h
  · next hdrop =>
    cases h
    obtain ⟨rfl, -⟩ := List.cons.inj hdrop
    exact ⟨rest, hmem⟩
  · next classid tail hdrop =>
    cases h
    obtain ⟨rfl, rfl⟩ := List.cons.inj hdrop
    exact ⟨tail, hmem⟩
  · cases h

/-! ### On tidy listings -/

section Tidy

variable {run clock formatTime}

/-- Cutting an interface does what is permitted; where it reports success, its last commands are the
attach and the listing after it. -/
theorem permitted_cutInterface (h : TidyListings run) (loss iface : String)
    (ledger : InjectedNetemLedger) (s : W × List Event) :
    ReflTransGen Permitted (ledger, s.2)
      (ledger, (cutInterface (recorded run) loss iface s).2.2) ∧
    ((cutInterface (recorded run) loss iface s).1.ok = true → ∃ place o after history,
      o.succeeded = true ∧ (cutInterface (recorded run) loss iface s).2.2 =
        (showArgs iface, after) :: (addArgs iface place loss, o) :: history ∧
      (cutInterface (recorded run) loss iface s).1.qdiscAfter = some after.output ∧
      (cutInterface (recorded run) loss iface s).1.attachedAt = some (describeArgv place.tcArgs)) := by
  unfold cutInterface
  split
  · exact ⟨.refl, by simp⟩
  next hname =>
  have htidy := h s.1 iface (by simpa using hname)
  rcases hrun : run s.1 (showArgs iface) with ⟨before, w₁⟩
  rw [hrun] at htidy
  have hshow := Permitted.list ledger s.2 iface before
  cases hread : before.succeeded with
  | false =>
    simp only [recorded, hrun, hread, Bool.not_false, if_true]
    exact ⟨.single hshow, by simp⟩
  | true =>
  rcases hplan : planAttach before.output with why | place
  · simp only [recorded, hrun, hread, hplan, Bool.not_true, Bool.false_eq_true, if_false]
    exact ⟨.single hshow, by simp⟩
  rcases hadded : run w₁ (addArgs iface place loss) with ⟨added, w₂⟩
  have hadd := Permitted.attach ledger ((showArgs iface, before) :: s.2) iface place loss added _
    (lastShow_show _ _ _) hread (fun hroot => (htidy hread).root (by rw [hplan, hroot]))
  cases hok : added.succeeded with
  | false =>
    simp only [recorded, hrun, hread, hplan, hadded, hok, Bool.not_true, Bool.not_false,
      Bool.false_eq_true, if_false, if_true]
    exact ⟨.tail (.single hshow) hadd, by simp⟩
  | true =>
    simp only [recorded, hrun, hread, hplan, hadded, hok, Bool.not_true, Bool.false_eq_true, if_false]
    refine ⟨.tail (.tail (.single hshow) hadd) (.list _ _ _ _), ?_⟩
    intro _
    exact ⟨place, added, _, _, hok, rfl, rfl, rfl⟩

/-- What an inspection establishes: nothing is run, or the interface is listed, and then it may be
that nothing is attached, or that what is attached is the kernel's own. -/
theorem inspectNetem_cases {iface : String} {ledger : InjectedNetemLedger} {s s' : W × List Event}
    {seen : NetemSighting}
    (hseen : inspectNetem (recorded run) formatTime iface ledger s = (seen, s')) :
    (seen.provenance = .unreadable ∧ s' = s) ∨
    ∃ o, run s.1 (showArgs iface) = (o, s'.1) ∧ s'.2 = (showArgs iface, o) :: s.2 ∧
      isMininetInterfaceName iface = true ∧
      ((seen.provenance = .unreadable ∨ seen.provenance = .foreign) ∨
        (seen.provenance = .none ∧ netemHandleInTree o.output = "") ∨
        (seen.provenance = .ours ∧ o.succeeded = true ∧ ∃ entry place,
          ledger.find iface = some entry ∧ entry.handle = netemHandleInTree o.output ∧
          seen.at_ = .ok place ∧ findExistingNetem o.output = .ok place)) := by
  unfold inspectNetem at hseen
  split at hseen
  · cases hseen
    exact .inl ⟨rfl, rfl⟩
  next hname =>
  have hname' : isMininetInterfaceName iface = true := by simpa using hname
  rcases hrun : run s.1 (showArgs iface) with ⟨o, w⟩
  simp only [recorded, hrun] at hseen
  split at hseen
  · cases hseen
    exact .inr ⟨o, rfl, rfl, hname', .inl (.inl rfl)⟩
  next hread =>
  split at hseen
  · next hempty =>
    cases hseen
    exact .inr ⟨o, rfl, rfl, hname', .inr (.inl ⟨rfl, hempty⟩)⟩
  split at hseen
  · next entry hentry =>
    split at hseen
    · next hours =>
      cases hseen
      rw [Bool.and_eq_true, decide_eq_true_eq] at hours
      cases hfind : findExistingNetem o.output with
      | error why =>
        rw [hfind] at hours
        cases hours.2
      | ok place =>
        exact .inr ⟨o, rfl, rfl, hname', .inr (.inr ⟨rfl, by simpa using hread, entry, place, hentry,
          hours.1, rfl, hfind⟩)⟩
    · cases hseen
      exact .inr ⟨o, rfl, rfl, hname', .inl (.inr rfl)⟩
  · cases hseen
    exact .inr ⟨o, rfl, rfl, hname', .inl (.inr rfl)⟩

theorem restoreSightedNetem_of_ne (iface : String) {seen : NetemSighting}
    (ledger : InjectedNetemLedger) (s : W × List Event) (hne : seen.provenance ≠ .ours) :
    (restoreSightedNetem (recorded run) iface seen ledger s).2.2 = s := by
  unfold restoreSightedNetem
  split
  · next hours => exact absurd hours hne
  · rfl
  · rfl
  · rfl

/-- Restoring an interface as it is inspected does what is permitted. -/
theorem permitted_restore (h : TidyListings run) (iface : String) (ledger : InjectedNetemLedger)
    (s : W × List Event) :
    ReflTransGen Permitted (ledger, s.2)
      ((restoreInspected (recorded run) formatTime iface ledger s).2.1,
        (restoreInspected (recorded run) formatTime iface ledger s).2.2.2) := by
  unfold restoreInspected
  rcases hseen : inspectNetem (recorded run) formatTime iface ledger s with ⟨seen, s'⟩
  rcases inspectNetem_cases hseen with ⟨hprov, rfl⟩ | ⟨o, hrun, hhistory, hname, hcases⟩
  · simp only [restoreSightedNetem, hprov]
    exact .refl
  have hshow := Permitted.list ledger s.2 iface o
  rw [← hhistory] at hshow
  have hlast : lastShow s'.2 iface = some o := by rw [hhistory, lastShow_show]
  rcases hcases with (hprov | hprov) | ⟨hprov, hempty⟩ | ⟨hprov, hread, entry, place, hentry,
    hhandle, hat, hfind⟩
  · simp only [restoreSightedNetem, hprov]
    exact .single hshow
  · simp only [restoreSightedNetem, hprov]
    exact .single hshow
  · simp only [restoreSightedNetem, hprov]
    refine .tail (.single hshow) (.forget _ _ _ _ hlast ?_)
    cases hfind : findExistingNetem o.output with
    | error why => rfl
    | ok place => exact absurd hempty (handle_of_findExistingNetem hfind)
  · have htidy := h s.1 iface hname
    rw [hrun] at htidy
    have hshows := (htidy hread).place place hfind
    rw [← hhandle] at hshows
    have hargs : ["qdisc", "del", "dev", iface] ++ place.tcArgs = delArgs iface place := rfl
    rcases hdeleted : run s'.1 (delArgs iface place) with ⟨deleted, w₁⟩
    have hdel := Permitted.detach ledger s'.2 iface place deleted o entry hlast hread hentry hshows
    cases hok : deleted.succeeded with
    | false =>
      simp only [restoreSightedNetem, hprov, detachSightedNetem, NetemSighting.tcArgs, hat, hargs,
        recorded, hdeleted, hok, Bool.not_false, if_true]
      exact .tail (.single hshow) hdel
    | true =>
      rcases hafter : run w₁ (showArgs iface) with ⟨after, w₂⟩
      have hshow' := Permitted.list ledger ((delArgs iface place, deleted) :: s'.2) iface after
      cases hgone : (findExistingNetem after.output).isOk with
      | true =>
        simp only [restoreSightedNetem, hprov, detachSightedNetem, NetemSighting.tcArgs, hat, hargs,
          recorded, hdeleted, hok, hafter, hgone, Bool.not_true, Bool.false_eq_true, if_false,
          if_true]
        exact .tail (.tail (.single hshow) hdel) hshow'
      | false =>
        simp only [restoreSightedNetem, hprov, detachSightedNetem, NetemSighting.tcArgs, hat, hargs,
          recorded, hdeleted, hok, hafter, hgone, Bool.not_true, Bool.false_eq_true, if_false,
          if_true]
        exact .tail (.tail (.tail (.single hshow) hdel) hshow')
          (.forget _ _ _ _ (lastShow_show _ _ _) hgone)

/-- Phase 1 only lists. -/
theorem permitted_planEnds (ifaces : List String) (ledger : InjectedNetemLedger)
    (s : W × List Event) : ReflTransGen Permitted (ledger, s.2)
      (ledger, (planEnds (recorded run) ifaces s).2.2.2) := by
  induction ifaces generalizing s with
  | nil => exact .refl
  | cons iface ifaces ih =>
    have hone : ReflTransGen Permitted (ledger, s.2)
        (ledger, (planEnd (recorded run) iface s).2.2.2) := by
      unfold planEnd
      split
      · exact .refl
      split
      · exact .refl
      rcases hrun : run s.1 (showArgs iface) with ⟨before, w₁⟩
      have hshow := Permitted.list ledger s.2 iface before
      cases hread : before.succeeded with
      | false =>
        simp only [recorded, hrun, hread, Bool.not_false, if_true]
        exact .single hshow
      | true =>
        simp only [recorded, hrun, hread, Bool.not_true, Bool.false_eq_true, if_false]
        rcases planAttach before.output with why | place
        · exact .single hshow
        · exact .single hshow
    exact hone.trans (ih _)

/-- Phase 2 attaches where that is permitted, and notes what it attached. -/
theorem permitted_attachEnds (h : TidyListings run) (loss : String) (ends : List End)
    (ledger : InjectedNetemLedger) (s : W × List Event) :
    ReflTransGen Permitted (ledger, s.2)
      ((attachEnds (recorded run) clock loss ends ledger s).ledger,
        (attachEnds (recorded run) clock loss ends ledger s).world.2) := by
  induction ends generalizing ledger s with
  | nil => exact .refl
  | cons e es ih =>
    obtain ⟨hcut, hlast⟩ := permitted_cutInterface h loss e.iface ledger s
    unfold attachEnds
    rcases hrun : cutInterface (recorded run) loss e.iface s with ⟨report, s₁⟩
    rw [hrun] at hcut hlast
    simp only
    split
    · exact hcut
    next hok =>
    obtain ⟨place, o, after, history, ho, hhistory, hafter, hat⟩ := hlast (by simpa using hok)
    have hnote := Permitted.note ledger history e.iface place loss o after (clock s₁) ho
    rw [← hhistory] at hnote
    simp only at hafter hat
    rw [hafter, hat]
    exact (hcut.tail hnote).trans (ih _ s₁)

/-- Phase 3 restores one interface after the other. -/
theorem permitted_rollBack (h : TidyListings run) (blocked : String) (attached : List String)
    (ends : List End) (ledger : InjectedNetemLedger) (s : W × List Event) :
    ReflTransGen Permitted (ledger, s.2)
      ((rollBack (recorded run) formatTime blocked attached ends ledger s).2.1,
        (rollBack (recorded run) formatTime blocked attached ends ledger s).2.2.2) := by
  induction attached generalizing ends ledger s with
  | nil => exact .refl
  | cons iface attached ih => exact (permitted_restore h iface ledger s).trans (ih _ _ _)

/-- **Cutting the ends of a link does what is permitted.** -/
theorem permitted_cutLinkEnds (h : TidyListings run) (ifaces : List String) (loss : String)
    (ledger : InjectedNetemLedger) (s : W × List Event) :
    ReflTransGen Permitted (ledger, s.2)
      ((cutLinkEnds (recorded run) clock formatTime ifaces loss ledger s).2.1,
        (cutLinkEnds (recorded run) clock formatTime ifaces loss ledger s).2.2.2) := by
  have hplan : ReflTransGen Permitted (ledger, s.2)
      (ledger, (planEnds (recorded run) ifaces s).2.2.2) := permitted_planEnds ifaces ledger s
  unfold cutLinkEnds
  rcases hends : planEnds (recorded run) ifaces s with ⟨ends, blocked, s₁⟩
  rw [hends] at hplan
  simp only
  split
  · exact hplan
  have hattach : ReflTransGen Permitted (ledger, s₁.2)
      ((attachEnds (recorded run) clock loss ends ledger s₁).ledger,
        (attachEnds (recorded run) clock loss ends ledger s₁).world.2) :=
    permitted_attachEnds h loss ends ledger s₁
  split
  · exact hplan.trans hattach
  · exact (hplan.trans hattach).trans (permitted_rollBack h _ _ _ _ _)

end Tidy

/-! ### On every other listing -/

/-- One step runs one command at most, and that one leaves the ledger alone. -/
theorem Permitted.grows {x y : InjectedNetemLedger × List Event} (h : Permitted x y) :
    y.2 = x.2 ∨ ∃ e, y = (x.1, e :: x.2) := by
  cases h with
  | list => exact .inr ⟨_, rfl⟩
  | attach => exact .inr ⟨_, rfl⟩
  | detach => exact .inr ⟨_, rfl⟩
  | note => exact .inl rfl
  | forget => exact .inl rfl

/-- A command of the history was permitted when it was run. -/
theorem exists_permitted {ledger : InjectedNetemLedger} {x : InjectedNetemLedger × List Event}
    (h : ReflTransGen Permitted (ledger, []) x) {newer older : List Event} {e : Event}
    (hhistory : x.2 = newer ++ e :: older) :
    ∃ l, ReflTransGen Permitted (ledger, []) (l, older) ∧ Permitted (l, older) (l, e :: older) := by
  induction h generalizing newer with
  | refl => simp at hhistory
  | @tail y z hy hstep ih =>
    rcases hstep.grows with hsame | ⟨e', rfl⟩
    · exact ih (hsame.symm.trans hhistory)
    · rcases newer with _ | ⟨e'', newer⟩
      · obtain ⟨rfl, hy₂⟩ := List.cons.inj hhistory
        subst hy₂
        exact ⟨y.1, hy, hstep⟩
      · exact ih (List.cons.inj hhistory).2

/-- As long as nothing but a listing of one interface with a `netem` has been run, the ledger is as
it was. -/
theorem ledger_of_listing {ledger : InjectedNetemLedger} {x : InjectedNetemLedger × List Event}
    (h : ReflTransGen Permitted (ledger, []) x) {iface : String} {o : TcOutcome}
    (hnetem : (findExistingNetem o.output).isOk = true)
    (hhistory : x.2 = [] ∨ x.2 = [(showArgs iface, o)]) : x.1 = ledger := by
  induction h with
  | refl => rfl
  | @tail y z hy hstep ih =>
    cases hstep with
    | list l history iface' o' =>
      refine ih (.inl ?_)
      rcases hhistory with hnil | hone
      · cases hnil
      · exact (List.cons.inj hone).2
    | attach l history iface' place loss o' listing hlast =>
      rcases hhistory with hnil | hone
      · cases hnil
      · obtain ⟨-, rfl⟩ := List.cons.inj hone
        cases hlast
    | detach l history iface' place o' listing entry hlast =>
      rcases hhistory with hnil | hone
      · cases hnil
      · obtain ⟨-, rfl⟩ := List.cons.inj hone
        cases hlast
    | note l history iface' place loss o' after nowMs =>
      rcases hhistory with hnil | hone
      · cases hnil
      · cases (List.cons.inj hone).2
    | forget l history iface' after hlast hgone =>
      rcases hhistory with rfl | rfl
      · cases hlast
      · have hafter : after = o := by
          by_cases hi : showArgs iface = showArgs iface'
          · simpa [lastShow, hi] using hlast.symm
          · simp [lastShow, hi] at hlast
        rw [hafter, hnetem] at hgone
        cases hgone

theorem tcArgs_injective : Function.Injective Place.tcArgs := by
  intro p p' h
  cases p <;> cases p' <;> simp_all [Place.tcArgs]

/-- What a permitted attach needed. -/
theorem Permitted.of_attach {ledger : InjectedNetemLedger} {older : List Event} {iface loss : String}
    {place : Place} {o : TcOutcome}
    (h : Permitted (ledger, older) (ledger, (addArgs iface place loss, o) :: older)) :
    ∃ listing, lastShow older iface = some listing ∧
      (place = .root → RootsDefault listing.output) := by
  generalize hx : (ledger, older) = x at h
  generalize hy : (ledger, (addArgs iface place loss, o) :: older) = y at h
  cases h with
  | list => simp [addArgs, showArgs] at hy
  | attach l history iface' place' loss' o' listing hlast _ hroot =>
    cases hx
    obtain ⟨rfl, hwords⟩ : iface = iface' ∧ place.tcArgs ++ ["netem", "loss", loss] =
        place'.tcArgs ++ ["netem", "loss", loss'] := by
      simpa [addArgs] using (Prod.mk.inj (List.cons.inj (Prod.mk.inj hy).2).1).1
    refine ⟨listing, hlast, fun hplace => hroot ?_⟩
    subst hplace
    cases place' with
    | root => rfl
    | parent classid => simp [Place.tcArgs] at hwords
  | detach => simp [addArgs, delArgs] at hy
  | note => exact absurd ((Prod.mk.inj hy).2.trans (Prod.mk.inj hx).2.symm) (List.cons_ne_self _ _)
  | forget => exact absurd ((Prod.mk.inj hy).2.trans (Prod.mk.inj hx).2.symm) (List.cons_ne_self _ _)

/-- What a permitted delete needed. -/
theorem Permitted.of_detach {ledger : InjectedNetemLedger} {older : List Event} {iface : String}
    {place : Place} {o : TcOutcome}
    (h : Permitted (ledger, older) (ledger, (delArgs iface place, o) :: older)) :
    ∃ listing entry, lastShow older iface = some listing ∧ ledger.find iface = some entry ∧
      Shows listing.output entry.handle place := by
  generalize hx : (ledger, older) = x at h
  generalize hy : (ledger, (delArgs iface place, o) :: older) = y at h
  cases h with
  | list => simp [delArgs, showArgs] at hy
  | attach => simp [delArgs, addArgs] at hy
  | detach l history iface' place' o' listing entry hlast _ hours hshows =>
    cases hx
    obtain ⟨rfl, hplace⟩ : iface = iface' ∧ place.tcArgs = place'.tcArgs := by
      simpa [delArgs] using (Prod.mk.inj (List.cons.inj (Prod.mk.inj hy).2).1).1
    cases tcArgs_injective hplace
    exact ⟨listing, entry, hlast, hours, hshows⟩
  | note => exact absurd ((Prod.mk.inj hy).2.trans (Prod.mk.inj hx).2.symm) (List.cons_ne_self _ _)
  | forget => exact absurd ((Prod.mk.inj hy).2.trans (Prod.mk.inj hx).2.symm) (List.cons_ne_self _ _)

section Orderly

variable {run clock formatTime}

/-- An orderly runner offers the root only where it is the default. -/
theorem Orderly.root (h : Orderly run clock formatTime) {w : W} {iface : String} {o : TcOutcome}
    {w₁ : W} (hrun : run w (showArgs iface) = (o, w₁))
    (hname : isMininetInterfaceName iface = true) (hread : o.succeeded = true)
    (hplan : planAttach o.output = .ok .root) : RootsDefault o.output := by
  have hpath := h.cut "100%" iface {} w []
  -- whatever the answer to the attach, it was run after that listing
  have hran : ∃ newer added, (cutInterface (recorded run) "100%" iface (w, [])).2.2 =
      newer ++ (addArgs iface .root "100%", added) :: [(showArgs iface, o)] := by
    rcases hadded : run w₁ (addArgs iface .root "100%") with ⟨added, w₂⟩
    cases hok : added.succeeded with
    | false =>
      refine ⟨[], added, ?_⟩
      simp [cutInterface, recorded, hname, hrun, hread, hplan, hadded, hok]
    | true =>
      refine ⟨[(showArgs iface, (run w₂ (showArgs iface)).1)], added, ?_⟩
      simp [cutInterface, recorded, hname, hrun, hread, hplan, hadded, hok]
  obtain ⟨newer, added, hhistory⟩ := hran
  obtain ⟨l, -, hstep⟩ := exists_permitted hpath hhistory
  obtain ⟨listing, hlast, hroot⟩ := hstep.of_attach
  rw [lastShow_show] at hlast
  cases hlast
  exact hroot rfl

/-- An orderly runner shows at the place that is read a `netem` with the handle that is read. -/
theorem Orderly.place (h : Orderly run clock formatTime) {w : W} {iface : String} {o : TcOutcome}
    {w₁ : W} (hrun : run w (showArgs iface) = (o, w₁))
    (hname : isMininetInterfaceName iface = true) (hread : o.succeeded = true) {place : Place}
    (hfind : findExistingNetem o.output = .ok place) :
    Shows o.output (netemHandleInTree o.output) place := by
  have hhandle := handle_of_findExistingNetem hfind
  -- a ledger that has the handle
  have hpath := h.restore iface ⟨[⟨iface, netemHandleInTree o.output, "", 0⟩]⟩ w []
  have hran : ∃ newer deleted, (restoreInspected (recorded run) formatTime iface
      ⟨[⟨iface, netemHandleInTree o.output, "", 0⟩]⟩ (w, [])).2.2.2 =
        newer ++ (delArgs iface place, deleted) :: [(showArgs iface, o)] := by
    rcases hdeleted : run w₁ (delArgs iface place) with ⟨deleted, w₂⟩
    have hargs : "qdisc" :: "del" :: "dev" :: iface :: place.tcArgs = delArgs iface place := rfl
    cases hok : deleted.succeeded with
    | false =>
      refine ⟨[], deleted, ?_⟩
      simp [restoreInspected, restoreSightedNetem, detachSightedNetem, NetemSighting.tcArgs,
        inspectNetem, recorded, InjectedNetemLedger.find, hname, hrun, hread, hhandle, hfind, hargs,
        hdeleted, hok, Except.isOk, Except.toBool]
    | true =>
      refine ⟨[(showArgs iface, (run w₂ (showArgs iface)).1)], deleted, ?_⟩
      cases hgone : findExistingNetem (run w₂ (showArgs iface)).1.output <;>
      simp [restoreInspected, restoreSightedNetem, detachSightedNetem, NetemSighting.tcArgs,
        inspectNetem, recorded, InjectedNetemLedger.find, hname, hrun, hread, hhandle, hfind, hargs,
        hdeleted, hok, hgone, Except.isOk, Except.toBool]
  obtain ⟨newer, deleted, hhistory⟩ := hran
  obtain ⟨l, hbefore, hstep⟩ := exists_permitted hpath hhistory
  have hledger := ledger_of_listing hbefore (by rw [hfind]; rfl) (.inr rfl)
  obtain ⟨listing, entry, hlast, hours, hshows⟩ := hstep.of_detach
  rw [lastShow_show] at hlast
  cases hlast
  rw [show l = _ from hledger] at hours
  have hentry : entry.handle = netemHandleInTree o.output := by
    simp only [InjectedNetemLedger.find, List.find?_cons, decide_true, Bool.true_and, hhandle, ne_eq,
      not_false_eq_true, Option.some.injEq] at hours
    rw [← hours]
  rwa [hentry] at hshows

/-- **Everything that is done is permitted exactly when every listing is tidy**: every delete names
a `netem` of the kernel's own that the last listing of the interface shows, nothing is deleted from
any other interface, and no attach takes the place of a root other than the default. -/
theorem orderly_iff (run : W → List String → TcOutcome × W) (clock : W × List Event → ℤ)
    (formatTime : ℤ → String) : Orderly run clock formatTime ↔ TidyListings run := by
  constructor
  · intro h w iface hname hread
    exact ⟨fun place hfind => h.place rfl hname hread hfind, fun hplan => h.root rfl hname hread hplan⟩
  · intro h
    exact {
      cut := fun loss iface ledger w history =>
        (permitted_cutInterface h loss iface ledger (w, history)).1
      restore := fun iface ledger w history => permitted_restore h iface ledger (w, history)
      cutEnds := fun ifaces loss ledger w history =>
        permitted_cutLinkEnds h ifaces loss ledger (w, history)
      leaves := fun iface seen ledger s hne => restoreSightedNetem_of_ne iface ledger s hne }

end Orderly

/-- An interface that is shaped by `tbf`. -/
def tbfTree : String := "qdisc tbf 8001: root refcnt 2 rate 10Mbit burst 5Kb lat 50ms"

/-- A machine on which every interface is. -/
def tbfRunner (_ : Unit) (_ : List String) : TcOutcome × Unit := (⟨true, 0, tbfTree⟩, ())

/-- **A shaper of another kind is replaced**: it is no `htb`, and so the root is offered. -/
theorem tbf_not_orderly : ¬ Orderly tbfRunner (fun _ => 0) (fun _ => "") := by
  intro h
  have hrun : tbfRunner () (showArgs "s1-eth1") = (⟨true, 0, tbfTree⟩, ()) := rfl
  have hroot := h.root hrun (by decide +kernel) rfl (by decide +kernel)
  have hline := hroot ["qdisc", "tbf", "8001:", "root", "refcnt", "2", "rate", "10Mbit", "burst", "5Kb",
    "lat", "50ms"] (by decide +kernel) (by decide +kernel)
  exact absurd hline (by decide +kernel)

end NDTwin.Netem
