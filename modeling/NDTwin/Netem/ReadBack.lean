import NDTwin.Netem.LinkFault

/-!
# Looking after a delete

`detachSightedNetem` deletes a `netem` where it was sighted, lists the interface again and reports
success unless the listing still names a `netem` at a place it can read.  It does not look at whether
the listing succeeded, and a listing that failed names nothing.

## Main definitions

* `ShowsNetemAt` — a listing with a `netem` at a place.
* `HidesNetemAt` — a listing in which the parser stops before it.
* `Removed` — what a success should stand for: a listing that succeeded, with no `netem` at the place.

## Main results

* `detach_ok_seen_iff` — **exactly when a reported removal was seen.**
-/

namespace NDTwin.Netem

/-! ### Listings -/

/-- A line of a listing that is a `netem` at a place. -/
def IsNetemAt (place : Place) (w : List String) : Prop :=
  isNetem w = true ∧ ∃ rest, w.drop 3 = place.tcArgs ++ rest

/-- A line that is a `netem` and names no place the parser reads. -/
def IsUnreadable (w : List String) : Prop :=
  4 ≤ w.length ∧ isNetem w = true ∧ (∀ rest, w.drop 3 ≠ "root" :: rest) ∧
    ∀ classid rest, w.drop 3 ≠ "parent" :: classid :: rest

/-- A listing shows a `netem` at a place. -/
def ShowsNetemAt (place : Place) (tree : String) : Prop :=
  ∃ w ∈ qdiscLines tree, IsNetemAt place w

/-- A listing shows a `netem` at a place after one whose place cannot be read. -/
def HidesNetemAt (place : Place) (tree : String) : Prop :=
  ∃ before w after, qdiscLines tree = before ++ w :: after ∧ IsUnreadable w ∧
    ∃ v ∈ after, IsNetemAt place v

theorem IsNetemAt.length {place : Place} {w : List String} (h : IsNetemAt place w) :
    4 ≤ w.length := by
  obtain ⟨-, rest, hrest⟩ := h
  have hlen := congrArg List.length hrest
  rw [List.length_drop, List.length_append] at hlen
  cases place with
  | root =>
    simp only [Place.tcArgs, List.length_singleton] at hlen
    omega
  | parent classid =>
    simp only [Place.tcArgs, List.length_cons, List.length_nil] at hlen
    omega

theorem IsUnreadable.not_isNetemAt {w : List String} (h : IsUnreadable w) (place : Place) :
    ¬ IsNetemAt place w := by
  obtain ⟨-, -, hroot, hparent⟩ := h
  rintro ⟨-, rest, hrest⟩
  cases place with
  | root => exact hroot rest hrest
  | parent classid => exact hparent classid rest hrest

/-- What the parser has stopped at where it names no place: nothing, or an unreadable line. -/
theorem findExistingNetem_cases {tree : String} (h : (findExistingNetem tree).isOk = false) :
    (∀ w ∈ qdiscLines tree, 4 ≤ w.length → isNetem w = false) ∨
    ∃ before w after, qdiscLines tree = before ++ w :: after ∧ IsUnreadable w ∧
      ∀ v ∈ before, 4 ≤ v.length → isNetem v = false := by
  unfold findExistingNetem at h
  split at h
  · next hnone =>
    refine .inl ?_
    intro w hw hlen
    have hw' := List.find?_eq_none.mp hnone w hw
    simpa [hlen] using hw'
  · next w hsome =>
    obtain ⟨hw, before, after, hlines, hbefore⟩ := List.find?_eq_some_iff_append.mp hsome
    simp only [Bool.and_eq_true, decide_eq_true_eq] at hw
    refine .inr ⟨before, w, after, hlines, ?_, fun v hv hlen => ?_⟩
    · split at h
      · cases h
      · cases h
      · next hroot hparent =>
        exact ⟨hw.1, hw.2, fun rest => hroot rest, fun classid rest => hparent classid rest⟩
    · simpa [hlen] using hbefore v hv

/-- Where the parser names no place, a `netem` that the listing shows is one it hides. -/
theorem showsNetemAt_iff_hides {tree : String} (h : (findExistingNetem tree).isOk = false)
    (place : Place) : ShowsNetemAt place tree ↔ HidesNetemAt place tree := by
  constructor
  · rintro ⟨v, hv, hat⟩
    rcases findExistingNetem_cases h with hnone | ⟨before, w, after, hlines, hw, hbefore⟩
    · have hnot := hnone v hv hat.length
      rw [hat.1] at hnot
      cases hnot
    · refine ⟨before, w, after, hlines, hw, v, ?_, hat⟩
      rw [hlines, List.mem_append, List.mem_cons] at hv
      rcases hv with hv | rfl | hv
      · have hnot := hbefore v hv hat.length
        rw [hat.1] at hnot
        cases hnot
      · exact absurd hat (hw.not_isNetemAt place)
      · exact hv
  · rintro ⟨before, w, after, hlines, -, v, hv, hat⟩
    refine ⟨v, ?_, hat⟩
    rw [hlines]
    exact List.mem_append_right before (List.mem_cons_of_mem w hv)

/-! ### The delete -/

section Detach

variable {W : Type*} (run : W → List String → TcOutcome × W)

/-- How `tc` answers the delete. -/
def deleteOutcome (iface : String) (place : Place) (w : W) : TcOutcome :=
  (run w (delArgs iface place)).1

/-- How `tc` answers the listing after the delete. -/
def listingOutcome (iface : String) (place : Place) (w : W) : TcOutcome :=
  (run (run w (delArgs iface place)).2 (showArgs iface)).1

/-- The removal was seen: the listing after the delete succeeded, and shows no `netem` at the
place. -/
def Removed (iface : String) (place : Place) (w : W) : Prop :=
  (listingOutcome run iface place w).succeeded = true ∧
    ¬ ShowsNetemAt place (listingOutcome run iface place w).output

/-- What a report's success is computed from. -/
theorem detach_ok_iff {iface : String} {seen : NetemSighting} {place : Place}
    (hat : seen.at_ = .ok place) (w : W) :
    (detachSightedNetem run iface seen w).1.ok = true ↔
      (deleteOutcome run iface place w).succeeded = true ∧
        (findExistingNetem (listingOutcome run iface place w).output).isOk = false := by
  have hargs : ["qdisc", "del", "dev", iface] ++ seen.tcArgs = delArgs iface place := by
    simp [delArgs, NetemSighting.tcArgs, hat]
  simp only [detachSightedNetem, hargs, deleteOutcome, listingOutcome]
  cases hdel : (run w (delArgs iface place)).1.succeeded with
  | false => simp
  | true =>
    cases hfind : (findExistingNetem
        (run (run w (delArgs iface place)).2 (showArgs iface)).1.output).isOk with
    | false => simp
    | true => simp

/-- **Exactly when a reported removal was seen**: when `tc` refuses the delete, when the listing
after it still names a place of a `netem`, or when that listing succeeds and hides no `netem` at the
place behind one whose place cannot be read. -/
theorem detach_ok_seen_iff {iface : String} {seen : NetemSighting} {place : Place}
    (hat : seen.at_ = .ok place) (w : W) :
    ((detachSightedNetem run iface seen w).1.ok = true → Removed run iface place w) ↔
      (deleteOutcome run iface place w).succeeded = false ∨
      (findExistingNetem (listingOutcome run iface place w).output).isOk = true ∨
      (listingOutcome run iface place w).succeeded = true ∧
        ¬ HidesNetemAt place (listingOutcome run iface place w).output := by
  rw [detach_ok_iff run hat]
  cases hdel : (deleteOutcome run iface place w).succeeded with
  | false => simp
  | true =>
    cases hfind : (findExistingNetem (listingOutcome run iface place w).output).isOk with
    | true => simp
    | false =>
      rw [Removed, showsNetemAt_iff_hides hfind]
      simp

end Detach

/-- A sighting at the root. -/
def sightedAtRoot : NetemSighting := { at_ := .ok .root }

/-- A `tc` that does what it is told and lists an interface without queues. -/
def obligingTc (_ : Unit) (_ : List String) : TcOutcome × Unit := (⟨true, 0, ""⟩, ())

theorem detach_ok_seen_iff_obliging :
    ((detachSightedNetem obligingTc "s1-eth1" sightedAtRoot ()).1.ok = true →
      Removed obligingTc "s1-eth1" .root ()) ↔
      (deleteOutcome obligingTc "s1-eth1" .root ()).succeeded = false ∨
      (findExistingNetem (listingOutcome obligingTc "s1-eth1" .root ()).output).isOk = true ∨
      (listingOutcome obligingTc "s1-eth1" .root ()).succeeded = true ∧
        ¬ HidesNetemAt .root (listingOutcome obligingTc "s1-eth1" .root ()).output :=
  detach_ok_seen_iff obligingTc rfl ()

/-- A `tc` that deletes and cannot list. -/
def blindTc (_ : Unit) (args : List String) : TcOutcome × Unit :=
  (if args.take 2 = ["qdisc", "del"] then ⟨true, 0, ""⟩ else ⟨true, 1, ""⟩, ())

/-- A listing that failed is taken for one that shows nothing. -/
theorem not_detach_ok_seen :
    ¬ ∀ (run : Unit → List String → TcOutcome × Unit) (iface : String) (place : Place),
      (detachSightedNetem run iface { at_ := .ok place } ()).1.ok = true →
        Removed run iface place () := by
  intro h
  have hremoved := h blindTc "s1-eth1" .root (by decide +kernel)
  exact absurd hremoved.1 (by decide +kernel)

end NDTwin.Netem
