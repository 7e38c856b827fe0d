import Mathlib.Data.List.Induction
import NDTwin.Twin.Graph

/-!
# Taking a switch out of service

An operator takes a switch out of service and puts it back.  Either call writes the flag of the
switch and of every edge at it, whatever the switch at the other end is.

## Main definitions

* `disableSwitchAndEdges`, `enableSwitchAndEdges` — the calls.
* `Covered` — an edge is disabled while a switch at one of its ends is.
* `Lifts` — an enable that lifts no other switch's flag off an edge.

## Main results

* `covered_disable`, `covered_enable_iff` — **what one call leaves.**
* `run_covered_iff` — **every edge stays covered exactly when no enable reaches an edge of a switch
  that is disabled.**
* `enable_not_covered` — two neighbours are disabled, and one of them is enabled again.
-/

namespace NDTwin.Twin

/-! ### The calls -/

/-- An edge that begins or ends at a vertex. -/
def Edge.At (e : Edge) (v : ℕ) : Prop := e.source = v ∨ e.target = v

instance (e : Edge) (v : ℕ) : Decidable (e.At v) := inferInstanceAs (Decidable (_ ∨ _))

/-- The flags of a vertex and of every edge at it, as an operator sets them. -/
def setAdmin (g : Graph) (v : ℕ) (disabled : Bool) : Graph :=
  (g.setVertex v fun p => { p with isEnabled := !disabled, adminDisabled := disabled }).mapEdges
    fun e => if e.At v then { e.props with isEnabled := !disabled, adminDisabled := disabled }
      else e.props

/-- `disableSwitchAndEdges(dpid)`: false where there is no such switch. -/
def disableSwitchAndEdges (g : Graph) (dpid : ℕ) : Bool × Graph :=
  match findSwitchByDpid g dpid with
  | none => (false, g)
  | some v => (true, setAdmin g v true)

/-- `enableSwitchAndEdges(dpid)`. -/
def enableSwitchAndEdges (g : Graph) (dpid : ℕ) : Bool × Graph :=
  match findSwitchByDpid g dpid with
  | none => (false, g)
  | some v => (true, setAdmin g v false)

/-- A call. -/
inductive AdminCall where
  | disable (dpid : ℕ)
  | enable (dpid : ℕ)
  deriving DecidableEq, Repr

/-- The graph after a call. -/
def adminStep (g : Graph) : AdminCall → Graph
  | .disable dpid => (disableSwitchAndEdges g dpid).2
  | .enable dpid => (enableSwitchAndEdges g dpid).2

/-! ### What one call leaves -/

/-- A vertex that is a switch an operator has disabled. -/
def DisabledSwitch (g : Graph) (v : ℕ) : Prop :=
  ∃ p, g.vertex v = some p ∧ p.vertexType = .switch ∧ p.adminDisabled = true

/-- **Every edge with a disabled switch at one of its ends is disabled.** -/
def Covered (g : Graph) : Prop :=
  ∀ e ∈ g.edges, ∀ v, e.At v → DisabledSwitch g v → e.props.adminDisabled = true

/-- An edge of the switch that is enabled may end at another switch only if that one is not
disabled. -/
def Lifts (g : Graph) : AdminCall → Prop
  | .disable _ => True
  | .enable dpid => ∀ v, findSwitchByDpid g dpid = some v →
      ∀ e ∈ g.edges, e.At v → ∀ u, e.At u → u ≠ v → ¬ DisabledSwitch g u

theorem disabledSwitch_setAdmin_of_ne {g : Graph} {v u : ℕ} (disabled : Bool) (hne : u ≠ v) :
    DisabledSwitch (setAdmin g v disabled) u ↔ DisabledSwitch g u := by
  have hsame : (setAdmin g v disabled).vertex u = g.vertex u := by
    rw [setAdmin, Graph.vertex_mapEdges, Graph.vertex_setVertex, if_neg hne]
  simp only [DisabledSwitch, hsame]

theorem not_disabledSwitch_setAdmin_false (g : Graph) (v : ℕ) :
    ¬ DisabledSwitch (setAdmin g v false) v := by
  rintro ⟨p, hp, -, hdisabled⟩
  rw [setAdmin, Graph.vertex_mapEdges, Graph.vertex_setVertex, if_pos rfl] at hp
  obtain ⟨q, -, rfl⟩ := Option.map_eq_some_iff.mp hp
  cases hdisabled

/-- The edges after a call: those at the switch carry its flag, the others are as they were. -/
theorem mem_edges_setAdmin {g : Graph} {v : ℕ} {disabled : Bool} {e : Edge}
    (he : e ∈ (setAdmin g v disabled).edges) :
    (e.At v ∧ e.props.adminDisabled = disabled ∧ ∃ e' ∈ g.edges, e'.ends = e.ends) ∨
      (¬ e.At v ∧ e ∈ g.edges) := by
  obtain ⟨e', he', rfl⟩ := Graph.mem_edges_mapEdges.mp he
  by_cases hat : e'.At v
  · exact .inl ⟨hat, by simp [hat], e', he', rfl⟩
  · refine .inr ⟨hat, ?_⟩
    rw [if_neg hat]
    exact he'

/-- **A disable leaves every edge covered.** -/
theorem covered_disable {g : Graph} (dpid : ℕ) (h : Covered g) :
    Covered (adminStep g (.disable dpid)) := by
  show Covered (disableSwitchAndEdges g dpid).2
  unfold disableSwitchAndEdges
  split
  · exact h
  next v hv =>
  intro e he u hat hdisabled
  rcases mem_edges_setAdmin he with ⟨-, hflag, -⟩ | ⟨hnot, hold⟩
  · exact hflag
  · have hne : u ≠ v := by
      rintro rfl
      exact hnot hat
    exact h e hold u hat ((disabledSwitch_setAdmin_of_ne true hne).mp hdisabled)

/-- **An enable leaves every edge covered exactly when it lifts no other switch's flag.** -/
theorem covered_enable_iff {g : Graph} (dpid : ℕ) (h : Covered g) :
    Covered (adminStep g (.enable dpid)) ↔ Lifts g (.enable dpid) := by
  show Covered (enableSwitchAndEdges g dpid).2 ↔ _
  unfold enableSwitchAndEdges
  cases hfind : findSwitchByDpid g dpid with
  | none =>
    refine ⟨?_, fun _ => h⟩
    intro _ v hv
    rw [hfind] at hv
    cases hv
  | some v =>
    constructor
    · -- an edge at the switch has lost its flag, so nothing at its other end may be disabled
      intro hcovered v' hv' e he hat u hu hne hdisabled
      rw [hfind] at hv'
      cases hv'
      have hafter : { e with props := if e.At v then
          { e.props with isEnabled := true, adminDisabled := false } else e.props } ∈
          (setAdmin g v false).edges := Graph.mem_edges_mapEdges.mpr ⟨e, he, rfl⟩
      have hflag := hcovered _ hafter u hu ((disabledSwitch_setAdmin_of_ne false hne).mpr hdisabled)
      simp [hat] at hflag
    · intro hlifts e he u hu hdisabled
      have hne : u ≠ v := by
        rintro rfl
        exact not_disabledSwitch_setAdmin_false g u hdisabled
      have hbefore := (disabledSwitch_setAdmin_of_ne false hne).mp hdisabled
      rcases mem_edges_setAdmin he with ⟨hat, -, e', he', hends⟩ | ⟨-, hold⟩
      · have hat' : ∀ w, e'.At w ↔ e.At w := by
          intro w
          obtain ⟨hsource, htarget⟩ := Prod.mk.inj hends
          rw [Edge.At, Edge.At, hsource, htarget]
        exact absurd hbefore (hlifts v hfind e' he' ((hat' v).mpr hat) u ((hat' u).mpr hu) hne)
      · exact h e hold u hu hbefore

theorem covered_adminStep_iff {g : Graph} (call : AdminCall) (h : Covered g) :
    Covered (adminStep g call) ↔ Lifts g call := by
  cases call with
  | disable dpid => exact ⟨fun _ => trivial, fun _ => covered_disable dpid h⟩
  | enable dpid => exact covered_enable_iff dpid h

/-! ### Runs -/

/-- **Every edge stays covered exactly when no enable reaches an edge of a switch that is
disabled**: at the start and after every call, over every run. -/
theorem run_covered_iff (g : Graph) (calls : List AdminCall) :
    (∀ before after, calls = before ++ after → Covered (before.foldl adminStep g)) ↔
      Covered g ∧ ∀ before call after, calls = before ++ call :: after →
        Lifts (before.foldl adminStep g) call := by
  constructor
  · intro h
    refine ⟨h [] calls rfl, ?_⟩
    intro before call after hcalls
    have hbefore := h before (call :: after) hcalls
    have hafter := h (before ++ [call]) after (by rw [hcalls, List.append_assoc]; rfl)
    rw [List.foldl_append] at hafter
    exact (covered_adminStep_iff call hbefore).mp hafter
  · rintro ⟨hstart, hlifts⟩ before after rfl
    -- the calls that were made, from the last to the first
    induction before using List.reverseRecOn generalizing after with
    | nil => exact hstart
    | append_singleton before call ih =>
      have hcovered := ih (call :: after) fun before' call' after' hcalls =>
        hlifts before' call' after' (by rw [← hcalls, List.append_assoc]; rfl)
      rw [List.foldl_append]
      exact (covered_adminStep_iff call hcovered).mpr
        (hlifts before call after (by rw [List.append_assoc]; rfl))

/-- Two switches and the link between them. -/
def twoSwitches : Graph where
  vertices := [{ vertexType := .switch, dpid := 1, bridgeNameForMininet := "s1" },
    { vertexType := .switch, dpid := 2, bridgeNameForMininet := "s2" }]
  edges := [⟨0, 1, { srcDpid := 1, srcInterface := 1, dstDpid := 2, dstInterface := 1 }⟩,
    ⟨1, 0, { srcDpid := 2, srcInterface := 1, dstDpid := 1, dstInterface := 1 }⟩]
  ordered := by simp [Edge.ends, Prod.lex_def]
  ends_lt := by simp [Edge.ends]

/-- **The link of a disabled switch is put back into service by its neighbour.** -/
theorem enable_not_covered :
    ¬ ∀ (g : Graph) (calls : List AdminCall), (∀ v, ¬ DisabledSwitch g v) →
      Covered (calls.foldl adminStep g) := by
  intro h
  have hstart : ∀ v, ¬ DisabledSwitch twoSwitches v := by
    rintro v ⟨p, hp, -, hdisabled⟩
    have hmem : p ∈ twoSwitches.vertices := List.mem_of_getElem? hp
    have hnone : ∀ p ∈ twoSwitches.vertices, p.adminDisabled = false := by decide
    rw [hnone p hmem] at hdisabled
    cases hdisabled
  have hcovered := h twoSwitches [.disable 1, .disable 2, .enable 1] hstart
  have hedge := hcovered ⟨0, 1, { srcDpid := 1, srcInterface := 1, dstDpid := 2, dstInterface := 1 }⟩
    (by decide) 1 (by decide)
    ⟨{ vertexType := .switch, dpid := 2, isEnabled := false, adminDisabled := true,
       bridgeNameForMininet := "s2" }, by decide, rfl, rfl⟩
  cases hedge

end NDTwin.Twin
