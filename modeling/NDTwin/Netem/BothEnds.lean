import NDTwin.Netem.LinkFault

/-!
# Both ends or neither

Every command may fail.  Of `tc` no more is assumed than this: what a `show`
that succeeds prints is what is attached, an `add` that succeeds attaches one
`netem` where it was asked to, a `del` that succeeds removes what is attached
there, and a command that fails changes nothing.

## Main definitions

* `Qdisc`, `TcBehaves` — the queues of a machine, and what `tc` does to them.
* `Carries` — an interface has one `netem`.

## Main results

* `cutInterface_spec` — cutting one interface attaches one `netem`, or changes nothing.
* `restore_spec` — a rollback that reports success has removed it.
* `cutLinkEnds_bothOrNeither` — **a cut attaches `netem` at every end, or leaves none of its own
  unless it says so.**
* `cutLinkEnds_forgets` — the handle of an end is not noted when the read after the attach fails.
-/

namespace NDTwin.Netem

/-- A queue that is attached to an interface, by the words `tc` prints of it. -/
structure Qdisc where
  kind : String
  handle : String
  place : Place
  rest : List String
  deriving DecidableEq, Repr

/-- The line of a queue. -/
def Qdisc.words (q : Qdisc) : List String :=
  "qdisc" :: q.kind :: q.handle :: (q.place.tcArgs ++ q.rest)

variable {W : Type*} (run : W → List String → TcOutcome × W) (qdiscs : W → String → List Qdisc)
  (clock : W → ℤ) (formatTime : ℤ → String)

/-- What `tc` does, where `qdiscs` says what is attached in a world. -/
structure TcBehaves : Prop where
  /-- A `show` changes nothing, and when it succeeds it prints a line for each queue. -/
  shows : ∀ w iface, qdiscs (run w (showArgs iface)).2 = qdiscs w ∧
    ((run w (showArgs iface)).1.succeeded = true →
      qdiscLines (run w (showArgs iface)).1.output = (qdiscs w iface).map Qdisc.words)
  /-- An `add` attaches one `netem` where it was asked to, and brings no other queue. -/
  adds : ∀ w iface place loss, (run w (addArgs iface place loss)).1.succeeded = true →
    ∃ q, q ∈ qdiscs (run w (addArgs iface place loss)).2 iface ∧ q.kind = "netem" ∧
      q.place = place ∧
      ∀ q' ∈ qdiscs (run w (addArgs iface place loss)).2 iface, q' = q ∨ q' ∈ qdiscs w iface
  addElsewhere : ∀ w iface place loss i, i ≠ iface →
    qdiscs (run w (addArgs iface place loss)).2 i = qdiscs w i
  addFails : ∀ w iface place loss, (run w (addArgs iface place loss)).1.succeeded = false →
    qdiscs (run w (addArgs iface place loss)).2 = qdiscs w
  /-- A `del` removes what is attached at a place; no `netem` comes in its stead. -/
  dels : ∀ w iface place, (run w (delArgs iface place)).1.succeeded = true →
    ∀ q ∈ qdiscs (run w (delArgs iface place)).2 iface, q.kind = "netem" →
      q ∈ qdiscs w iface ∧ q.place ≠ place
  delElsewhere : ∀ w iface place i, i ≠ iface →
    qdiscs (run w (delArgs iface place)).2 i = qdiscs w i
  delFails : ∀ w iface place, (run w (delArgs iface place)).1.succeeded = false →
    qdiscs (run w (delArgs iface place)).2 = qdiscs w

/-! ### Reading what is attached -/

theorem isNetem_words (q : Qdisc) : isNetem q.words = true ↔ q.kind = "netem" := by
  simp [isNetem, Qdisc.words]

/-- One `netem` is attached to an interface. -/
def Carries (qs : List Qdisc) (q : Qdisc) : Prop :=
  q ∈ qs ∧ q.kind = "netem" ∧ ∀ q' ∈ qs, q'.kind = "netem" → q' = q

theorem find?_words {qs : List Qdisc} {q : Qdisc} (h : Carries qs q) {p : List String → Bool}
    (hp : ∀ q : Qdisc, q.kind = "netem" → p q.words = true)
    (hp' : ∀ q : Qdisc, p q.words = true → q.kind = "netem") :
    (qs.map Qdisc.words).find? p = some q.words := by
  obtain ⟨hmem, hkind, hunique⟩ := h
  rcases hfind : (qs.map Qdisc.words).find? p with _ | w
  · have := List.find?_eq_none.mp hfind q.words (List.mem_map_of_mem hmem)
    exact absurd (hp q hkind) this
  · obtain ⟨q', hq', rfl⟩ := List.mem_map.mp (List.mem_of_find?_eq_some hfind)
    rw [hunique q' hq' (hp' q' (List.find?_some hfind))]

theorem length_words (q : Qdisc) : 4 ≤ q.words.length := by
  rcases hplace : q.place with _ | classid <;> simp [Qdisc.words, Place.tcArgs, hplace]

/-- What the tree says of an interface that has one `netem`. -/
theorem tree_of_carries {tree : String} {qs : List Qdisc} {q : Qdisc}
    (htree : qdiscLines tree = qs.map Qdisc.words) (h : Carries qs q) :
    netemHandleInTree tree = q.handle ∧ findExistingNetem tree = .ok q.place := by
  have hlen (q : Qdisc) : 3 ≤ q.words.length := Nat.le_of_succ_le (length_words q)
  constructor
  · unfold netemHandleInTree
    rw [htree, find?_words h (fun q hq => by simp [hlen q, (isNetem_words q).mpr hq])
      fun q hq => (isNetem_words q).mp (by simpa [hlen q] using hq)]
    rfl
  · unfold findExistingNetem
    rw [htree, find?_words h (fun q hq => by simp [length_words q, (isNetem_words q).mpr hq])
      fun q hq => (isNetem_words q).mp (by simpa [length_words q] using hq)]
    rcases hplace : q.place with _ | classid <;> simp [Qdisc.words, Place.tcArgs, hplace]

/-- A place to attach is offered only where there is no `netem`. -/
theorem noNetem_of_planAttach {tree : String} {qs : List Qdisc} {place : Place}
    (htree : qdiscLines tree = qs.map Qdisc.words) (h : planAttach tree = .ok place) :
    ∀ q ∈ qs, q.kind ≠ "netem" := by
  intro q hq hkind
  have hany : (qdiscLines tree).any isNetem = true := by
    rw [htree, List.any_eq_true]
    exact ⟨q.words, List.mem_map_of_mem hq, (isNetem_words q).mpr hkind⟩
  simp only [planAttach] at h
  split at h
  · cases h
  · cases h

/-- No word that is read is empty. -/
theorem ne_empty_of_mem_wordsFrom (word cs : List Char) : ∀ w ∈ wordsFrom word cs, w ≠ [] := by
  induction cs generalizing word with
  | nil =>
    intro w hw
    unfold wordsFrom at hw
    split at hw
    · cases hw
    · next hne => rwa [List.mem_singleton.mp hw]
  | cons c cs ih =>
    intro w hw
    unfold wordsFrom at hw
    split at hw
    · split at hw
      · exact ih [] w hw
      · next hne =>
        rcases List.mem_cons.mp hw with rfl | hw
        · exact hne
        · exact ih [] w hw
    · exact ih _ w hw

theorem handle_ne_empty {tree : String} {qs : List Qdisc} {q : Qdisc}
    (htree : qdiscLines tree = qs.map Qdisc.words) (hq : q ∈ qs) : q.handle ≠ "" := by
  have hline : q.words ∈ qdiscLines tree := by
    rw [htree]
    exact List.mem_map_of_mem hq
  obtain ⟨line, -, hwords⟩ := List.mem_map.mp (List.mem_filter.mp hline).1
  have hhandle : q.handle ∈ splitWords line := by
    rw [hwords]
    simp [Qdisc.words]
  obtain ⟨cs, hcs, hofList⟩ := List.mem_map.mp hhandle
  intro hempty
  rw [hempty] at hofList
  have hnil : cs = [] := by
    have := congrArg String.toList hofList
    simpa using this
  exact ne_empty_of_mem_wordsFrom [] line cs hcs hnil

/-! ### One interface -/

variable {run qdiscs}

/-- Cutting an interface changes nothing, or attaches its one `netem`; the handle read back is
that of the `netem`, where the tree was read. -/
theorem cutInterface_spec (h : TcBehaves run qdiscs) (loss iface : String) (w : W) :
    ((cutInterface run loss iface w).1.ok = false ∧
      qdiscs (cutInterface run loss iface w).2 = qdiscs w) ∨
    ((cutInterface run loss iface w).1.ok = true ∧
      (∀ i, i ≠ iface → qdiscs (cutInterface run loss iface w).2 i = qdiscs w i) ∧
      (∀ q ∈ qdiscs w iface, q.kind ≠ "netem") ∧
      ∃ q, Carries (qdiscs (cutInterface run loss iface w).2 iface) q) := by
  unfold cutInterface
  split
  · exact .inl ⟨rfl, rfl⟩
  obtain ⟨hshow, hlines⟩ := h.shows w iface
  rcases hrun : run w (showArgs iface) with ⟨before, w₁⟩
  rw [hrun] at hshow hlines
  simp only
  split
  · exact .inl ⟨rfl, hshow⟩
  next hread =>
  have hlines := hlines (by simpa using hread)
  rcases hplan : planAttach before.output with why | place
  · exact .inl ⟨rfl, hshow⟩
  simp only
  have hnone := noNetem_of_planAttach hlines hplan
  have hadds := h.adds w₁ iface place loss
  have helse := h.addElsewhere w₁ iface place loss
  have hfails := h.addFails w₁ iface place loss
  rcases hadd : run w₁ (addArgs iface place loss) with ⟨added, w₂⟩
  rw [hadd] at hadds hfails
  simp only [hadd] at helse
  simp only
  split
  · next hno => exact .inl ⟨rfl, (hfails (by simpa using hno)).trans hshow⟩
  next hok =>
  obtain ⟨q, hq, hkind, -, honly⟩ := hadds (by simpa using hok)
  have hshow' := (h.shows w₂ iface).1
  rcases hback : run w₂ (showArgs iface) with ⟨after, w₃⟩
  rw [hback] at hshow'
  simp only at hshow hshow'
  refine .inr ⟨rfl, ?_, hnone, q, ?_, hkind, ?_⟩
  · intro i hi
    rw [hshow', helse i hi, hshow]
  · rw [hshow']
    exact hq
  · intro q' hq' hkind'
    rw [hshow'] at hq'
    rcases honly q' hq' with rfl | hold
    · rfl
    · rw [hshow] at hold
      exact absurd hkind' (hnone q' hold)

/-- A delete leaves the other interfaces as they are, and where it reports success the one `netem`
of the interface is gone. -/
theorem detachSightedNetem_spec (h : TcBehaves run qdiscs) (iface : String) (seen : NetemSighting)
    {place : Place} (hat : seen.at_ = .ok place) (w : W) :
    (∀ i, i ≠ iface → qdiscs (detachSightedNetem run iface seen w).2 i = qdiscs w i) ∧
    ((detachSightedNetem run iface seen w).1.ok = true →
      ∀ q ∈ qdiscs (detachSightedNetem run iface seen w).2 iface, q.kind = "netem" →
        q ∈ qdiscs w iface ∧ q.place ≠ place) := by
  have hargs : ["qdisc", "del", "dev", iface] ++ seen.tcArgs = delArgs iface place := by
    simp [delArgs, NetemSighting.tcArgs, hat]
  have hdels := h.dels w iface place
  have helse := h.delElsewhere w iface place
  rcases hdel : run w (delArgs iface place) with ⟨deleted, w₁⟩
  have hshow := (h.shows w₁ iface).1
  rcases hback : run w₁ (showArgs iface) with ⟨after, w₂⟩
  simp only [hdel] at hdels helse
  simp only [hback] at hshow
  rcases hok : deleted.succeeded with _ | _
  · simp only [detachSightedNetem, hargs, hdel, hok]
    exact ⟨helse, by simp⟩
  · rcases hfind : (findExistingNetem after.output).isOk with _ | _
    · simp only [detachSightedNetem, hargs, hdel, hok, hback, hfind]
      refine ⟨?_, ?_⟩
      · intro i hi
        simp only [Bool.not_true, Bool.false_eq_true, if_false, hshow, helse i hi]
      · intro _
        simpa only [Bool.not_true, Bool.false_eq_true, if_false, hshow] using hdels hok
    · simp only [detachSightedNetem, hargs, hdel, hok, hback, hfind]
      refine ⟨?_, by simp⟩
      intro i hi
      simp only [Bool.not_true, Bool.false_eq_true, if_false, if_true, hshow, helse i hi]

/-- One step of the rollback touches no other interface, and where it reports success the one
`netem` of the interface is gone. -/
theorem restore_spec (h : TcBehaves run qdiscs) (iface : String) (ledger : InjectedNetemLedger)
    (w : W) {seen : NetemSighting} {w₁ w₂ : W} {report : Report} {ledger' : InjectedNetemLedger}
    (hseen : inspectNetem run formatTime iface ledger w = (seen, w₁))
    (hrestore : restoreSightedNetem run iface seen ledger w₁ = (report, ledger', w₂)) :
    (∀ i, i ≠ iface → qdiscs w₂ i = qdiscs w i) ∧
    (report.ok = true → ∀ q, Carries (qdiscs w iface) q →
      ∀ q' ∈ qdiscs w₂ iface, q'.kind ≠ "netem") := by
  -- the inspection changes nothing, and what it read is what is attached
  have hinspect : qdiscs w₁ = qdiscs w ∧
      (seen.provenance = .none ∨ seen.provenance = .ours →
        ∃ tree, qdiscLines tree = (qdiscs w iface).map Qdisc.words ∧
          seen.handle = netemHandleInTree tree ∧ seen.at_ = findExistingNetem tree ∧
          (seen.provenance = .none → seen.handle = "") ∧
          (seen.provenance = .ours → ∃ place, seen.at_ = .ok place)) := by
    obtain ⟨hshow, hlines⟩ := h.shows w iface
    unfold inspectNetem at hseen
    split at hseen
    · cases hseen
      exact ⟨rfl, by simp⟩
    rcases hrun : run w (showArgs iface) with ⟨before, w'⟩
    simp only [hrun] at hshow hlines hseen
    split at hseen
    · cases hseen
      exact ⟨hshow, by simp⟩
    next hread =>
    have hlines := hlines (by simpa using hread)
    split at hseen
    · next hempty =>
      cases hseen
      exact ⟨hshow, fun _ => ⟨before.output, hlines, rfl, rfl, fun _ => hempty, by simp⟩⟩
    split at hseen
    · split at hseen
      · next hours =>
        cases hseen
        refine ⟨hshow, fun _ => ⟨before.output, hlines, rfl, rfl, by simp, fun _ => ?_⟩⟩
        rcases hfind : findExistingNetem before.output with why | place
        · simp [hfind, Except.isOk, Except.toBool] at hours
        · exact ⟨place, rfl⟩
      · cases hseen
        exact ⟨hshow, by simp⟩
    · cases hseen
      exact ⟨hshow, by simp⟩
  obtain ⟨hsame, hread⟩ := hinspect
  unfold restoreSightedNetem at hrestore
  split at hrestore
  · next hours =>
    obtain ⟨tree, hlines, -, hat, -, hplace⟩ := hread (.inr hours)
    obtain ⟨place, hplace⟩ := hplace hours
    obtain ⟨helse, hgone⟩ := detachSightedNetem_spec h iface seen hplace w₁
    rcases hdetach : detachSightedNetem run iface seen w₁ with ⟨undone, w'⟩
    simp only [hdetach] at helse hgone hrestore
    cases hrestore
    rw [hsame] at helse hgone
    refine ⟨helse, ?_⟩
    intro hok q hq q' hq' hkind
    obtain ⟨hold, hne⟩ := hgone hok q' hq' hkind
    obtain rfl : q' = q := hq.2.2 q' hold hkind
    rw [(tree_of_carries hlines hq).2, hplace] at hat
    exact hne (Except.ok.inj hat).symm
  · next hnone =>
    obtain ⟨tree, hlines, hhandle, -, hempty, -⟩ := hread (.inl hnone)
    cases hrestore
    rw [hsame]
    refine ⟨fun _ _ => rfl, ?_⟩
    intro _ q hq
    have hq' := (tree_of_carries hlines hq).1
    rw [← hhandle, hempty hnone] at hq'
    exact absurd hq'.symm (handle_ne_empty hlines hq.1)
  · cases hrestore
    exact ⟨fun i _ => by rw [hsame], by simp⟩
  · cases hrestore
    exact ⟨fun i _ => by rw [hsame], by simp⟩

/-! ### The ledger -/

/-- The first entry of an interface, with or without a handle. -/
def InjectedNetemLedger.firstEntry (ledger : InjectedNetemLedger) (iface : String) :
    Option InjectedNetem :=
  ledger.entries.find? fun e => e.interface = iface

theorem firstEntry_record_self (ledger : InjectedNetemLedger) (iface handle attachPoint : String)
    (nowMs : ℤ) :
    (ledger.record iface handle attachPoint nowMs).firstEntry iface =
      some ⟨iface, handle, attachPoint, nowMs⟩ := by
  obtain ⟨es⟩ := ledger
  simp only [InjectedNetemLedger.record, InjectedNetemLedger.firstEntry]
  induction es with
  | nil => simp [recordIn]
  | cons e es ih =>
    by_cases he : e.interface = iface
    · simp [recordIn, he]
    · simp [recordIn, he, ih]

theorem firstEntry_record_of_ne (ledger : InjectedNetemLedger) {iface i : String}
    (handle attachPoint : String) (nowMs : ℤ) (hne : i ≠ iface) :
    (ledger.record iface handle attachPoint nowMs).firstEntry i = ledger.firstEntry i := by
  obtain ⟨es⟩ := ledger
  simp only [InjectedNetemLedger.record, InjectedNetemLedger.firstEntry]
  induction es with
  | nil => simp [recordIn, hne.symm]
  | cons e es ih =>
    by_cases he : e.interface = iface
    · simp [recordIn, he, hne.symm]
    · simp only [recordIn, if_neg he, List.find?_cons, ih]

/-- An entry with a handle is the one that is claimed. -/
theorem find_of_firstEntry {ledger : InjectedNetemLedger} {iface : String} {e : InjectedNetem}
    (h : ledger.firstEntry iface = some e) (hhandle : e.handle ≠ "") :
    ledger.find iface = some e := by
  obtain ⟨es⟩ := ledger
  simp only [InjectedNetemLedger.firstEntry, InjectedNetemLedger.find] at h ⊢
  induction es with
  | nil => cases h
  | cons e' es ih =>
    rw [List.find?_cons] at h ⊢
    by_cases he : e'.interface = iface
    · simp only [he, decide_true, Option.some.injEq] at h
      subst h
      simp [he, hhandle]
    · simp only [he, decide_false] at h
      have hrest := ih h
      simp only [he, decide_false, Bool.false_and]
      exact hrest

/-! ### The phases -/

/-- Phase 1 changes nothing and speaks of every end. -/
theorem planEnds_spec (h : TcBehaves run qdiscs) (ifaces : List String) (w : W) :
    qdiscs (planEnds run ifaces w).2.2 = qdiscs w ∧
      (planEnds run ifaces w).1.map End.iface = ifaces := by
  have hone (iface : String) (w : W) : qdiscs (planEnd run iface w).2.2 = qdiscs w ∧
      (planEnd run iface w).1.iface = iface := by
    unfold planEnd
    split
    · exact ⟨rfl, rfl⟩
    split
    · exact ⟨rfl, rfl⟩
    have hshow := (h.shows w iface).1
    rcases hrun : run w (showArgs iface) with ⟨before, w₁⟩
    simp only [hrun] at hshow
    simp only
    split
    · exact ⟨hshow, rfl⟩
    rcases planAttach before.output with why | place
    · exact ⟨hshow, rfl⟩
    · exact ⟨hshow, rfl⟩
  induction ifaces generalizing w with
  | nil => exact ⟨rfl, rfl⟩
  | cons iface ifaces ih =>
    obtain ⟨hsame, hiface⟩ := hone iface w
    obtain ⟨hrest, hifaces⟩ := ih (planEnd run iface w).2.2
    exact ⟨hrest.trans hsame, by rw [planEnds, List.map_cons, hiface, hifaces]⟩

/-- What phase 2 has done: the interfaces it attached carry its `netem` and had none, the others
are as they were, and each end that was cut is noted. -/
structure AttachedEnds (qdiscs : W → String → List Qdisc) (ends : List End)
    (ledger : InjectedNetemLedger) (w : W) (a : Attaching W) : Prop where
  ifaces : a.ends.map End.iface = ends.map End.iface
  nodup : a.attached.Nodup
  among : ∀ i ∈ a.attached, i ∈ ends.map End.iface
  others : ∀ i, i ∉ a.attached → qdiscs a.world i = qdiscs w i ∧ a.ledger.firstEntry i = ledger.firstEntry i
  cut : ∀ i ∈ a.attached, (∀ q ∈ qdiscs w i, q.kind ≠ "netem") ∧
    ∃ q, Carries (qdiscs a.world i) q
  noted : a.blocked = none → a.attached = ends.map End.iface ∧ ∀ e ∈ a.ends, e.report.ok = true ∧
    ∃ entry, a.ledger.firstEntry e.iface = some entry ∧
      entry.handle = netemHandleInTree (e.report.qdiscAfter.getD "")

theorem attachEnds_spec (h : TcBehaves run qdiscs) (loss : String) (ends : List End)
    (ledger : InjectedNetemLedger) (w : W) :
    AttachedEnds qdiscs ends ledger w (attachEnds run clock loss ends ledger w) := by
  induction ends generalizing ledger w with
  | nil =>
    refine ⟨rfl, .nil, by simp [attachEnds], fun i _ => ⟨rfl, rfl⟩, by simp [attachEnds], ?_⟩
    intro _
    exact ⟨rfl, by simp [attachEnds]⟩
  | cons e es ih =>
    have hcut := cutInterface_spec h loss e.iface w
    rcases hrun : cutInterface run loss e.iface w with ⟨report, w₁⟩
    simp only [hrun] at hcut
    rcases hcut with ⟨hok, hsame⟩ | ⟨hok, helse, hnone, q, hq⟩
    · -- the cut stops here
      have hattach : attachEnds run clock loss (e :: es) ledger w =
          ⟨{ e with report } :: es,
            some (e.iface ++ ": " ++ (report.refused.getD (report.error.getD ""))), [], ledger,
            w₁⟩ := by
        simp [attachEnds, hrun, hok]
      rw [hattach]
      exact ⟨by simp, .nil, by simp, fun i _ => ⟨congrFun hsame i, rfl⟩, by simp, by simp⟩
    · let noted := ledger.record e.iface (netemHandleInTree (report.qdiscAfter.getD ""))
        (report.attachedAt.getD "") (clock w₁)
      have hattach : attachEnds run clock loss (e :: es) ledger w =
          ⟨{ e with report } :: (attachEnds run clock loss es noted w₁).ends,
            (attachEnds run clock loss es noted w₁).blocked,
            e.iface :: (attachEnds run clock loss es noted w₁).attached,
            (attachEnds run clock loss es noted w₁).ledger,
            (attachEnds run clock loss es noted w₁).world⟩ := by
        simp [attachEnds, hrun, hok, noted]
      have hrest := ih noted w₁
      rw [hattach]
      generalize attachEnds run clock loss es noted w₁ = a at hrest
      -- an interface is not cut twice: it carries a `netem` by now
      have hfresh : e.iface ∉ a.attached := by
        intro hmem
        exact (hrest.cut e.iface hmem).1 q hq.1 hq.2.1
      refine ⟨?_, List.nodup_cons.mpr ⟨hfresh, hrest.nodup⟩, ?_, ?_, ?_, ?_⟩
      · simp [hrest.ifaces]
      · intro i hi
        rw [List.map_cons]
        rcases List.mem_cons.mp hi with rfl | hi
        · exact List.mem_cons_self
        · exact List.mem_cons_of_mem _ (hrest.among i hi)
      · intro i hi
        rw [List.mem_cons, not_or] at hi
        obtain ⟨hqdiscs, hentry⟩ := hrest.others i hi.2
        refine ⟨hqdiscs.trans (helse i hi.1), hentry.trans ?_⟩
        exact firstEntry_record_of_ne ledger _ _ _ hi.1
      · intro i hi
        rcases List.mem_cons.mp hi with rfl | hi
        · refine ⟨hnone, q, ?_⟩
          rw [(hrest.others e.iface hfresh).1]
          exact hq
        · have hne : i ≠ e.iface := fun heq => hfresh (heq ▸ hi)
          obtain ⟨hclean, hcarries⟩ := hrest.cut i hi
          rw [helse i hne] at hclean
          exact ⟨hclean, hcarries⟩
      · intro hblocked
        obtain ⟨hall, hnoted⟩ := hrest.noted hblocked
        refine ⟨by simp [hall], ?_⟩
        intro e' he'
        rcases List.mem_cons.mp he' with rfl | he'
        · have hentry : a.ledger.firstEntry e.iface = some ⟨e.iface,
              netemHandleInTree (report.qdiscAfter.getD ""), report.attachedAt.getD "",
              clock w₁⟩ := by
            rw [(hrest.others e.iface hfresh).2]
            exact firstEntry_record_self ledger _ _ _ _
          exact ⟨hok, _, hentry, rfl⟩
        · exact hnoted e' he'

/-- What phase 3 has done: the interfaces it was given carry no `netem` any more, or their end
reports that it could not be removed. -/
theorem rollBack_spec (h : TcBehaves run qdiscs) (blocked : String) (attached : List String)
    (ends : List End) (ledger : InjectedNetemLedger) (w : W) (hnodup : attached.Nodup)
    (hcut : ∀ i ∈ attached, ∃ q, Carries (qdiscs w i) q)
    {ends' : List End} {ledger' : InjectedNetemLedger} {w' : W}
    (hroll : rollBack run formatTime blocked attached ends ledger w = (ends', ledger', w')) :
    (∀ i, i ∉ attached → qdiscs w' i = qdiscs w i ∧ ∀ e ∈ ends, e.iface = i → e ∈ ends') ∧
    ∀ i ∈ attached, i ∈ ends.map End.iface →
      (∀ q ∈ qdiscs w' i, q.kind ≠ "netem") ∨
        ∃ e ∈ ends', e.iface = i ∧ ∃ u, e.rolledBack = some u ∧ u.ok = false := by
  induction attached generalizing ends ledger w with
  | nil =>
    cases hroll
    exact ⟨fun i _ => ⟨rfl, fun e he _ => he⟩, by simp⟩
  | cons iface attached ih =>
    obtain ⟨hfresh, hnodup⟩ := List.nodup_cons.mp hnodup
    rw [rollBack] at hroll
    rcases hseen : inspectNetem run formatTime iface ledger w with ⟨seen, w₁⟩
    simp only [hseen] at hroll
    rcases hrestore : restoreSightedNetem run iface seen ledger w₁ with ⟨report, ledger₁, w₂⟩
    simp only [hrestore] at hroll
    obtain ⟨helse, hgone⟩ := restore_spec formatTime h iface ledger w hseen hrestore
    have hcut' : ∀ i ∈ attached, ∃ q, Carries (qdiscs w₂ i) q := by
      intro i hi
      rw [helse i fun heq => hfresh (heq ▸ hi)]
      exact hcut i (List.mem_cons_of_mem _ hi)
    obtain ⟨hothers, hrest⟩ := ih _ _ w₂ hnodup hcut' hroll
    have hiface : (ends.map (undone blocked iface report)).map End.iface = ends.map End.iface := by
      rw [List.map_map]
      refine List.map_congr_left ?_
      intro e _
      simp only [Function.comp, undone]
      split <;> rfl
    constructor
    · intro i hi
      rw [List.mem_cons, not_or] at hi
      obtain ⟨hsame, hkeep⟩ := hothers i hi.2
      refine ⟨hsame.trans (helse i hi.1), ?_⟩
      intro e he heq
      have hkept : undone blocked iface report e = e := by
        rw [undone, if_pos]
        rw [heq]
        exact hi.1
      refine hkeep e ?_ heq
      rw [← hkept]
      exact List.mem_map_of_mem he
    · intro i hi hmem
      rcases List.mem_cons.mp hi with rfl | hi
      · obtain ⟨hsame, hkeep⟩ := hothers i hfresh
        rcases hok : report.ok with _ | _
        · -- the rollback of this interface did not succeed, and its end says so
          right
          obtain ⟨e, he, heq⟩ := List.mem_map.mp hmem
          have hundone : undone blocked i report e =
              { e with
                report := (undone blocked i report e).report
                rolledBack := some report } := by
            simp [undone, heq]
          refine ⟨undone blocked i report e, ?_, ?_, report, ?_, hok⟩
          · refine hkeep _ (List.mem_map_of_mem he) ?_
            rw [hundone]
            exact heq
          · rw [hundone]
            exact heq
          · rw [hundone]
        · left
          obtain ⟨q, hq⟩ := hcut i List.mem_cons_self
          rw [hsame]
          exact hgone hok q hq
      · rw [← hiface] at hmem
        exact hrest i hi hmem

/-! ### The cut -/

/-- **Both ends or neither.**  For every machine whose `tc` behaves, whatever is attached to it and
whichever commands fail: after a failure, no `netem` is left on any interface that was not there
before, unless the end's report says that the rollback failed; after a success, every end carries
a `netem` that was not there, and the ledger has for it the handle that the read after the attach
printed, which is that of the `netem` wherever that read printed the tree. -/
theorem cutLinkEnds_bothOrNeither (h : TcBehaves run qdiscs) (ifaces : List String) (loss : String)
    (ledger : InjectedNetemLedger) (w : W) {result : CutResult} {ledger' : InjectedNetemLedger}
    {w' : W} (hcut : cutLinkEnds run clock formatTime ifaces loss ledger w =
      (result, ledger', w')) :
    (result.attached = false → ∀ iface,
      (∀ q ∈ qdiscs w' iface, q.kind = "netem" → q ∈ qdiscs w iface) ∨
        ∃ e ∈ result.tc, e.iface = iface ∧ ∃ u, e.rolledBack = some u ∧ u.ok = false) ∧
    (result.attached = true → ∀ iface ∈ ifaces,
      ∃ q ∈ qdiscs w' iface, q.kind = "netem" ∧ q ∉ qdiscs w iface ∧
        ∃ e ∈ result.tc, e.iface = iface ∧ e.report.ok = true ∧
          ∃ entry, ledger'.firstEntry iface = some entry ∧
            entry.handle = netemHandleInTree (e.report.qdiscAfter.getD "") ∧
            (qdiscLines (e.report.qdiscAfter.getD "") = (qdiscs w' iface).map Qdisc.words →
              entry.handle = q.handle ∧ ledger'.find iface = some entry)) := by
  unfold cutLinkEnds at hcut
  obtain ⟨hplan, hifaces⟩ := planEnds_spec h ifaces w
  rcases hends : planEnds run ifaces w with ⟨ends, blocked, w₁⟩
  simp only [hends] at hplan hifaces hcut
  rcases blocked with _ | blocked
  · have hattach := attachEnds_spec clock h loss ends ledger w₁
    simp only at hcut
    generalize attachEnds run clock loss ends ledger w₁ = a at hattach hcut
    rcases hblocked : a.blocked with _ | blocked
    · -- every end was cut
      simp only [hblocked] at hcut
      cases hcut
      obtain ⟨hall, hnoted⟩ := hattach.noted hblocked
      refine ⟨by simp, ?_⟩
      intro _ iface hiface
      have hmem : iface ∈ a.attached := by rw [hall, hifaces]; exact hiface
      obtain ⟨hclean, q, hq⟩ := hattach.cut iface hmem
      rw [hplan] at hclean
      have hend : iface ∈ a.ends.map End.iface := by rw [hattach.ifaces, hifaces]; exact hiface
      obtain ⟨e, he, rfl⟩ := List.mem_map.mp hend
      obtain ⟨hok, entry, hentry, hhandle⟩ := hnoted e he
      refine ⟨q, hq.1, hq.2.1, fun hold => hclean q hold hq.2.1, e, he, rfl, hok, entry, hentry,
        hhandle, fun hread => ?_⟩
      have hsame : entry.handle = q.handle := hhandle.trans (tree_of_carries hread hq).1
      refine ⟨hsame, find_of_firstEntry hentry ?_⟩
      rw [hsame]
      exact handle_ne_empty hread hq.1
    · -- an end could not be cut: those before it are restored
      simp only [hblocked] at hcut
      rcases hroll : rollBack run formatTime blocked a.attached (a.ends.map (explain blocked))
        a.ledger a.world with ⟨ends', ledger₁, w₂⟩
      simp only [hroll] at hcut
      cases hcut
      refine ⟨?_, by simp⟩
      intro _ iface
      obtain ⟨hothers, hundone⟩ := rollBack_spec formatTime h blocked a.attached _ a.ledger a.world
        hattach.nodup (fun i hi => (hattach.cut i hi).2) hroll
      by_cases hmem : iface ∈ a.attached
      · have hexplained : (a.ends.map (explain blocked)).map End.iface = a.ends.map End.iface := by
          rw [List.map_map]
          refine List.map_congr_left ?_
          intro e _
          simp only [Function.comp, explain]
          split <;> rfl
        have hin : iface ∈ (a.ends.map (explain blocked)).map End.iface := by
          rw [hexplained, hattach.ifaces]
          exact hattach.among iface hmem
        rcases hundone iface hmem hin with hgone | hfailed
        · exact .inl fun q hq hkind => absurd hkind (hgone q hq)
        · exact .inr hfailed
      · left
        intro q hq _
        rw [(hothers iface hmem).1, (hattach.others iface hmem).1, hplan] at hq
        exact hq
  · -- nothing ran that changes anything
    simp only at hcut
    cases hcut
    refine ⟨fun _ iface => .inl fun q hq _ => ?_, by simp⟩
    rw [hplan] at hq
    exact hq

/-! ### A machine with two interfaces -/

/-- Two interfaces without a shaper: how many commands have run, and which of the two is cut. -/
structure Bench where
  count : ℕ := 0
  near : Bool := false
  far : Bool := false
  deriving DecidableEq, Repr

/-- The queue of an interface that is cut, and of one that is not. -/
def benchQdisc (handle : String) : Bool → Qdisc
  | true => ⟨"netem", handle, .root, ["refcnt", "2", "limit", "1000", "loss", "100%"]⟩
  | false => ⟨"noqueue", "0:", .root, ["refcnt", "2"]⟩

/-- The line of the queue. -/
def benchLine (handle : String) : Bool → String
  | true => "qdisc netem " ++ handle ++ " root refcnt 2 limit 1000 loss 100%\n"
  | false => "qdisc noqueue 0: root refcnt 2\n"

/-- The queues of the two interfaces. -/
def benchQdiscs (b : Bench) (iface : String) : List Qdisc :=
  if iface = "s1-eth1" then [benchQdisc "8001:" b.near]
  else if iface = "s5-eth1" then [benchQdisc "8002:" b.far]
  else []

/-- `tc` on the two interfaces: the commands whose number is in `failing` fail, as do those on any
other interface and those for a parent that there is none of. -/
def bench (failing : List ℕ) (b : Bench) (args : List String) : TcOutcome × Bench :=
  let b' := { b with count := b.count + 1 }
  if b.count ∈ failing then (⟨true, 1, ""⟩, b')
  else if args = showArgs "s1-eth1" then (⟨true, 0, benchLine "8001:" b.near⟩, b')
  else if args = showArgs "s5-eth1" then (⟨true, 0, benchLine "8002:" b.far⟩, b')
  else if args = addArgs "s1-eth1" .root "100%" then
    if b.near then (⟨true, 2, ""⟩, b') else (⟨true, 0, ""⟩, { b' with near := true })
  else if args = addArgs "s5-eth1" .root "100%" then
    if b.far then (⟨true, 2, ""⟩, b') else (⟨true, 0, ""⟩, { b' with far := true })
  else if args = delArgs "s1-eth1" .root then (⟨true, 0, ""⟩, { b' with near := false })
  else if args = delArgs "s5-eth1" .root then (⟨true, 0, ""⟩, { b' with far := false })
  else (⟨true, 1, ""⟩, b')

theorem bench_show (failing : List ℕ) (b : Bench) (iface : String) :
    bench failing b (showArgs iface) =
      (if b.count ∈ failing then ⟨true, 1, ""⟩
        else if iface = "s1-eth1" then ⟨true, 0, benchLine "8001:" b.near⟩
        else if iface = "s5-eth1" then ⟨true, 0, benchLine "8002:" b.far⟩
        else ⟨true, 1, ""⟩, { b with count := b.count + 1 }) := by
  have hother : ∀ i place loss, showArgs iface ≠ addArgs i place loss ∧
      showArgs iface ≠ delArgs i place := by
    intro i place loss
    simp [showArgs, addArgs, delArgs]
  have hsame (i : String) : showArgs iface = showArgs i ↔ iface = i := by simp [showArgs]
  simp only [bench, hsame, hother, if_false]
  split
  · rfl
  split
  · rfl
  split <;> rfl

/-- An attach on the bench fails, or cuts one of the two interfaces that was not cut. -/
theorem bench_add (failing : List ℕ) (b : Bench) (iface : String) (place : Place) (loss : String) :
    (∃ o, o.succeeded = false ∧
      bench failing b (addArgs iface place loss) = (o, { b with count := b.count + 1 })) ∨
    (iface = "s1-eth1" ∧ place = .root ∧ bench failing b (addArgs iface place loss) =
      (⟨true, 0, ""⟩, { b with count := b.count + 1, near := true })) ∨
    (iface = "s5-eth1" ∧ place = .root ∧ bench failing b (addArgs iface place loss) =
      (⟨true, 0, ""⟩, { b with count := b.count + 1, far := true })) := by
  have hshow (i : String) : addArgs iface place loss ≠ showArgs i := by simp [showArgs, addArgs]
  have hsame (i : String) : addArgs iface place loss = addArgs i .root "100%" →
      iface = i ∧ place = .root := by
    cases place with
    | root =>
      simp only [addArgs, Place.tcArgs, List.cons_append, List.nil_append, List.cons.injEq]
      tauto
    | parent classid => simp [addArgs, Place.tcArgs]
  have hdel (i : String) : addArgs iface place loss ≠ delArgs i .root := by
    simp [addArgs, delArgs]
  simp only [bench, hshow, hdel, if_false]
  split
  · exact .inl ⟨_, rfl, rfl⟩
  split
  · next hargs =>
    split
    · exact .inl ⟨_, rfl, rfl⟩
    · exact .inr (.inl ⟨(hsame _ hargs).1, (hsame _ hargs).2, rfl⟩)
  split
  · next hargs =>
    split
    · exact .inl ⟨_, rfl, rfl⟩
    · exact .inr (.inr ⟨(hsame _ hargs).1, (hsame _ hargs).2, rfl⟩)
  · exact .inl ⟨_, rfl, rfl⟩

/-- A delete on the bench fails, or uncuts one of the two interfaces. -/
theorem bench_del (failing : List ℕ) (b : Bench) (iface : String) (place : Place) :
    (∃ o, o.succeeded = false ∧
      bench failing b (delArgs iface place) = (o, { b with count := b.count + 1 })) ∨
    (iface = "s1-eth1" ∧ place = .root ∧ bench failing b (delArgs iface place) =
      (⟨true, 0, ""⟩, { b with count := b.count + 1, near := false })) ∨
    (iface = "s5-eth1" ∧ place = .root ∧ bench failing b (delArgs iface place) =
      (⟨true, 0, ""⟩, { b with count := b.count + 1, far := false })) := by
  have hshow (i : String) : delArgs iface place ≠ showArgs i := by simp [showArgs, delArgs]
  have hadd (i : String) : delArgs iface place ≠ addArgs i .root "100%" := by
    simp [addArgs, delArgs]
  have hsame (i : String) : delArgs iface place = delArgs i .root → iface = i ∧ place = .root := by
    cases place <;> simp [delArgs, Place.tcArgs]
  simp only [bench, hshow, hadd, if_false]
  split
  · exact .inl ⟨_, rfl, rfl⟩
  split
  · next hargs => exact .inr (.inl ⟨(hsame _ hargs).1, (hsame _ hargs).2, rfl⟩)
  split
  · next hargs => exact .inr (.inr ⟨(hsame _ hargs).1, (hsame _ hargs).2, rfl⟩)
  · exact .inl ⟨_, rfl, rfl⟩

theorem qdiscLines_benchLine (cut : Bool) :
    qdiscLines (benchLine "8001:" cut) = [(benchQdisc "8001:" cut).words] ∧
      qdiscLines (benchLine "8002:" cut) = [(benchQdisc "8002:" cut).words] := by
  cases cut <;> decide +kernel

/-- The bench is a machine whose `tc` behaves. -/
theorem tcBehaves_bench (failing : List ℕ) : TcBehaves (bench failing) benchQdiscs where
  shows b iface := by
    rw [bench_show]
    refine ⟨rfl, ?_⟩
    split
    · intro h
      cases h
    split
    · next hi => exact fun _ => by simpa [benchQdiscs, hi] using (qdiscLines_benchLine b.near).1
    split
    · next hi => exact fun _ => by simpa [benchQdiscs, hi] using (qdiscLines_benchLine b.far).2
    · intro h
      cases h
  adds b iface place loss hok := by
    rcases bench_add failing b iface place loss with ⟨o, hno, heq⟩ | ⟨rfl, rfl, heq⟩ | ⟨rfl, rfl, heq⟩
    · rw [heq] at hok
      exact absurd hok (by simp [hno])
    · rw [heq]
      exact ⟨benchQdisc "8001:" true, by simp [benchQdiscs], rfl, rfl, by simp [benchQdiscs]⟩
    · rw [heq]
      exact ⟨benchQdisc "8002:" true, by simp [benchQdiscs], rfl, rfl, by simp [benchQdiscs]⟩
  addElsewhere b iface place loss i hi := by
    rcases bench_add failing b iface place loss with ⟨o, -, heq⟩ | ⟨rfl, -, heq⟩ | ⟨rfl, -, heq⟩
    · rw [heq]
      rfl
    · rw [heq]
      simp [benchQdiscs, hi]
    · rw [heq]
      simp [benchQdiscs, hi]
  addFails b iface place loss hno := by
    rcases bench_add failing b iface place loss with ⟨o, -, heq⟩ | ⟨-, -, heq⟩ | ⟨-, -, heq⟩
    · rw [heq]
      rfl
    · rw [heq] at hno
      cases hno
    · rw [heq] at hno
      cases hno
  dels b iface place hok q hq hkind := by
    rcases bench_del failing b iface place with ⟨o, hno, heq⟩ | ⟨rfl, rfl, heq⟩ | ⟨rfl, rfl, heq⟩
    · rw [heq] at hok
      exact absurd hok (by simp [hno])
    · rw [heq] at hq
      simp only [benchQdiscs, if_true, List.mem_singleton] at hq
      subst hq
      exact absurd hkind (by decide)
    · rw [heq] at hq
      simp only [benchQdiscs, String.reduceEq, if_true, if_false, List.mem_singleton] at hq
      subst hq
      exact absurd hkind (by decide)
  delElsewhere b iface place i hi := by
    rcases bench_del failing b iface place with ⟨o, -, heq⟩ | ⟨rfl, -, heq⟩ | ⟨rfl, -, heq⟩
    · rw [heq]
      rfl
    · rw [heq]
      simp [benchQdiscs, hi]
    · rw [heq]
      simp [benchQdiscs, hi]
  delFails b iface place hno := by
    rcases bench_del failing b iface place with ⟨o, -, heq⟩ | ⟨-, -, heq⟩ | ⟨-, -, heq⟩
    · rw [heq]
      rfl
    · rw [heq] at hno
      cases hno
    · rw [heq] at hno
      cases hno

/-- A cut of the bench's link, where the commands in `failing` fail. -/
def cutBench (failing : List ℕ) : CutResult × InjectedNetemLedger × Bench :=
  cutLinkEnds (bench failing) (fun _ => 0) toString ["s1-eth1", "s5-eth1"] "100%" {} {}

/-- The attach of the far end fails, and the near end is restored; where nothing fails, both ends
are cut and noted. -/
theorem cutLinkEnds_bothOrNeither_bench :
    ((cutBench [6]).1.attached = false ∧
      ∀ iface, (∀ q ∈ benchQdiscs (cutBench [6]).2.2 iface, q.kind = "netem" →
          q ∈ benchQdiscs {} iface) ∨
        ∃ e ∈ (cutBench [6]).1.tc, e.iface = iface ∧ ∃ u, e.rolledBack = some u ∧ u.ok = false) ∧
    ((cutBench []).1.attached = true ∧
      ∃ q ∈ benchQdiscs (cutBench []).2.2 "s1-eth1", q.kind = "netem" ∧
        q ∉ benchQdiscs {} "s1-eth1") := by
  have hfailed : (cutBench [6]).1.attached = false := by decide +kernel
  have hdone : (cutBench []).1.attached = true := by decide +kernel
  -- the outcome is given by its parts, so that the cut is not run to take it apart
  have hparts (failing : List ℕ) : cutBench failing =
      ((cutBench failing).1, (cutBench failing).2.1, (cutBench failing).2.2) := rfl
  have hcut (failing : List ℕ) := cutLinkEnds_bothOrNeither (fun _ => 0) toString
    (tcBehaves_bench failing) ["s1-eth1", "s5-eth1"] "100%" {} {} (hparts failing)
  obtain ⟨q, hq, hkind, hnew, -⟩ := (hcut []).2 hdone "s1-eth1" (by decide)
  exact ⟨⟨hfailed, (hcut [6]).1 hfailed⟩, hdone, q, hq, hkind, hnew⟩

/-- When the read after the attach fails, the cut succeeds and the ledger holds no handle. -/
theorem cutLinkEnds_forgets :
    TcBehaves (bench [4]) benchQdiscs ∧ (cutBench [4]).1.attached = true ∧
      (cutBench [4]).2.1.find "s1-eth1" = none := by
  refine ⟨tcBehaves_bench [4], ?_, ?_⟩
  · decide +kernel
  · decide +kernel

end NDTwin.Netem
