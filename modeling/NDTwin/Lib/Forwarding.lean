import Mathlib.Data.List.Infix
import Mathlib.Data.List.Nodup
import Mathlib.Data.List.Perm.Subperm

/-!
# Following a forwarding function

A packet is at a node, and the node says where it goes next: to another node, out of the network
where it was meant to go, or nowhere.  Reading what a node says may fail.

A forwarding function that is changed node by node is, until every node has been changed, a mixture
of the old one and the new one.  Such a mixture may loop although neither of the two does.  It does
not when the nodes that change are those that sent the packet to one fixed node, which itself does
not change.

## Main definitions

* `Hop` — where a packet goes from a node.
* `Delivers f a path` — a packet at `a` is delivered, over the nodes of `path`.
* `walk` — the packet is followed, until it comes to a node for the second time.
* `Mixture` — old and new hops, where the new ones avoid one node.

## Main results

* `walk_eq_iff_delivers` — **the walk finds out whether a packet is delivered.**
* `Mixture.delivers` — **a mixture delivers where the old and the new hops do.**
-/

namespace Forwarding

variable {α ε : Type*}

/-- Where a packet goes from a node. -/
inductive Hop (α : Type*) where
  | dropped
  | delivered
  | next (node : α)
  deriving DecidableEq, Repr

/-- `Delivers f a path` says that a packet at `a` is delivered, over the nodes of `path`. -/
inductive Delivers (f : α → Except ε (Hop α)) : α → List α → Prop
  | last {a : α} (h : f a = .ok .delivered) : Delivers f a [a]
  | step {a b : α} {path : List α} (h : f a = .ok (.next b)) (hrest : Delivers f b path) :
    Delivers f a (a :: path)

namespace Delivers

variable {f g : α → Except ε (Hop α)} {a b : α} {path path' : List α}

/-- The way of a packet is determined. -/
theorem unique (h : Delivers f a path) (h' : Delivers f a path') : path = path' := by
  induction h generalizing path' with
  | last hlast =>
    cases h' with
    | last _ => rfl
    | step hstep _ =>
      rw [hlast] at hstep
      cases hstep
  | step hstep _ ih =>
    cases h' with
    | last hlast =>
      rw [hstep] at hlast
      cases hlast
    | step hstep' hrest' =>
      rw [hstep] at hstep'
      cases hstep'
      rw [ih hrest']

/-- The way from a node on the way is the rest of it. -/
theorem suffix (h : Delivers f a path) (hb : b ∈ path) :
    ∃ rest, Delivers f b rest ∧ rest <:+ path := by
  induction h with
  | last hlast =>
    rw [List.mem_singleton] at hb
    subst hb
    exact ⟨_, .last hlast, List.suffix_refl _⟩
  | step hstep hrest ih =>
    rcases List.mem_cons.mp hb with rfl | hb
    · exact ⟨_, .step hstep hrest, List.suffix_refl _⟩
    · obtain ⟨rest, hdelivers, hsuffix⟩ := ih hb
      exact ⟨rest, hdelivers, hsuffix.trans (List.suffix_cons _ _)⟩

/-- A node on the way does not send the packet back to where the way begins. -/
theorem ne_next_of_mem (h : Delivers f a path) (hb : b ∈ path) : f b ≠ .ok (.next a) := by
  intro hnext
  obtain ⟨rest, hdelivers, hsuffix⟩ := h.suffix hb
  cases hdelivers with
  | last hlast =>
    rw [hnext] at hlast
    cases hlast
  | step hstep hrest =>
    rw [hnext] at hstep
    cases hstep
    -- the way from `b` is then longer than the one it is the end of
    have hlength := hsuffix.length_le
    rw [hrest.unique h, List.length_cons] at hlength
    omega

/-- No node is visited twice. -/
theorem nodup (h : Delivers f a path) : path.Nodup := by
  induction h with
  | last _ => exact List.nodup_singleton _
  | @step a b path hstep hrest ih =>
    refine List.nodup_cons.mpr ⟨fun hmem => ?_, ih⟩
    exact hrest.ne_next_of_mem hmem hstep

/-- Only what the nodes on the way say matters. -/
theorem congr (h : Delivers f a path) (hsame : ∀ b ∈ path, g b = f b) : Delivers g a path := by
  induction h with
  | last hlast => exact .last ((hsame _ List.mem_cons_self).trans hlast)
  | step hstep _ ih =>
    exact .step ((hsame _ List.mem_cons_self).trans hstep)
      (ih fun b hb => hsame b (List.mem_cons_of_mem _ hb))

/-- The last node on the way delivers. -/
theorem exists_delivered (h : Delivers f a path) : ∃ b ∈ path, f b = .ok .delivered := by
  induction h with
  | last hlast => exact ⟨_, List.mem_cons_self, hlast⟩
  | step _ _ ih =>
    obtain ⟨b, hb, hdelivered⟩ := ih
    exact ⟨b, List.mem_cons_of_mem _ hb, hdelivered⟩

/-- A packet is delivered over nodes that do not drop it. -/
theorem ne_dropped (h : Delivers f a path) (hb : b ∈ path) : f b ≠ .ok .dropped := by
  intro hdropped
  obtain ⟨rest, hdelivers, -⟩ := h.suffix hb
  cases hdelivers with
  | last hlast =>
    rw [hdropped] at hlast
    cases hlast
  | step hstep _ =>
    rw [hdropped] at hstep
    cases hstep

end Delivers

/-! ### The walk -/

section Walk

variable [DecidableEq α] (f : α → Except ε (Hop α))

/-- A packet is followed until it is delivered or dropped, or comes to a node it has seen: the nodes
it visits, and whether it is delivered. -/
def walk : ℕ → α → List α → Except ε (List α × Bool)
  | 0, _, seen => .ok (seen, false)
  | fuel + 1, here, seen =>
    if here ∈ seen then .ok (seen ++ [here], false)
    else
      match f here with
      | .error e => .error e
      | .ok .dropped => .ok (seen ++ [here], false)
      | .ok .delivered => .ok (seen ++ [here], true)
      | .ok (.next node) => walk fuel node (seen ++ [here])

variable {f}

theorem delivers_of_walk {fuel : ℕ} {here : α} {seen path : List α}
    (h : walk f fuel here seen = .ok (path, true)) :
    ∃ rest, path = seen ++ rest ∧ Delivers f here rest := by
  induction fuel generalizing here seen with
  | zero =>
    rw [walk] at h
    cases h
  | succ fuel ih =>
    rw [walk] at h
    split at h
    · cases h
    · split at h
      · cases h
      · cases h
      · next hdelivered =>
        cases h
        exact ⟨[here], rfl, .last hdelivered⟩
      · next node hnext =>
        obtain ⟨rest, hpath, hrest⟩ := ih h
        refine ⟨here :: rest, ?_, .step hnext hrest⟩
        rw [hpath, List.append_assoc, List.singleton_append]

theorem walk_of_delivers {here : α} {rest : List α} (h : Delivers f here rest) {fuel : ℕ}
    {seen : List α} (hfuel : rest.length ≤ fuel) (hseen : ∀ b ∈ rest, b ∉ seen) :
    walk f fuel here seen = .ok (seen ++ rest, true) := by
  induction h generalizing fuel seen with
  | last hlast =>
    obtain ⟨fuel, rfl⟩ : ∃ k, fuel = k + 1 := ⟨fuel - 1, by simp at hfuel; omega⟩
    rw [walk, if_neg (hseen _ List.mem_cons_self), hlast]
  | @step a b rest hstep hrest ih =>
    obtain ⟨fuel, rfl⟩ : ∃ k, fuel = k + 1 := ⟨fuel - 1, by simp at hfuel; omega⟩
    have hnodup := (Delivers.step hstep hrest).nodup
    rw [walk, if_neg (hseen _ List.mem_cons_self), hstep]
    dsimp only
    rw [ih (by simpa using hfuel) ?_, List.append_assoc, List.singleton_append]
    intro c hc
    rw [List.mem_append, List.mem_singleton, not_or]
    refine ⟨hseen c (List.mem_cons_of_mem _ hc), ?_⟩
    rintro rfl
    exact (List.nodup_cons.mp hnodup).1 hc

/-- **The walk finds out whether a packet is delivered**, if it is followed for as many nodes as
there are that do not drop it. -/
theorem walk_eq_iff_delivers {nodes : List α} (hnodes : ∀ a, a ∉ nodes → f a = .ok .dropped)
    {fuel : ℕ} (hfuel : nodes.length ≤ fuel) {here : α} {path : List α} :
    walk f fuel here [] = .ok (path, true) ↔ Delivers f here path := by
  constructor
  · intro h
    obtain ⟨rest, rfl, hrest⟩ := delivers_of_walk h
    exact hrest
  · intro h
    have hsubset : path ⊆ nodes := by
      intro b hb
      by_contra hnot
      exact h.ne_dropped hb (hnodes b hnot)
    have hlength : path.length ≤ nodes.length := (List.subperm_of_subset h.nodup hsubset).length_le
    exact walk_of_delivers h (hlength.trans hfuel) fun _ _ => List.not_mem_nil

end Walk

/-! ### Mixtures -/

/-- Hops of which each is the old one or the new one.  Where the two differ, the old hop was to
`victim`, or delivered the packet; the packet is delivered at `goal` only, by the new hops too, and
`victim` itself keeps its old hop. -/
structure Mixture (old new mixed : α → Except ε (Hop α)) (victim goal : α) : Prop where
  either : ∀ a, mixed a = old a ∨ mixed a = new a
  kept : mixed victim = old victim
  moved : ∀ a, a ≠ victim → new a = old a ∨ old a = .ok .delivered ∨ old a = .ok (.next victim)
  old_delivered : ∀ a, old a = .ok .delivered → a = goal
  new_delivered : new goal = .ok .delivered

namespace Mixture

variable {old new mixed : α → Except ε (Hop α)} {victim goal a : α} {path path' : List α}

/-- Where the hop is not the old one, that one was to `victim`. -/
theorem eq_or_next (h : Mixture old new mixed victim goal) (a : α) :
    mixed a = old a ∨ old a = .ok (.next victim) := by
  by_cases hv : a = victim
  · exact .inl (hv ▸ h.kept)
  rcases h.either a with hold | hnew
  · exact .inl hold
  rcases h.moved a hv with hsame | hdelivered | hnext
  · exact .inl (hnew.trans hsame)
  · left
    have hgoal := h.old_delivered a hdelivered
    rw [hnew, hdelivered, hgoal, h.new_delivered]
  · exact .inr hnext

/-- From `victim` the packet goes the old way. -/
theorem delivers_victim (h : Mixture old new mixed victim goal) (hold : Delivers old victim path) :
    Delivers mixed victim path := by
  refine hold.congr ?_
  intro b hb
  rcases h.eq_or_next b with hsame | hnext
  · exact hsame
  · exact absurd hnext (hold.ne_next_of_mem hb)

/-- A packet on the old way keeps to it, or the old way leads over `victim`. -/
theorem delivers_or_victim (h : Mixture old new mixed victim goal) (hold : Delivers old a path) :
    Delivers mixed a path ∨ ∃ rest, Delivers old victim rest := by
  induction hold with
  | @last a hlast =>
    rcases h.eq_or_next a with hsame | hnext
    · exact .inl (.last (hsame.trans hlast))
    · rw [hlast] at hnext
      cases hnext
  | @step a b path hstep hrest ih =>
    rcases h.eq_or_next a with hsame | hnext
    · rcases ih with hmixed | hvictim
      · exact .inl (.step (hsame.trans hstep) hmixed)
      · exact .inr hvictim
    · rw [hstep] at hnext
      cases hnext
      exact .inr ⟨path, hrest⟩

/-- Where the hop is not the new one, it is to `victim`. -/
theorem new_or_next (h : Mixture old new mixed victim goal) (hv : a ≠ victim) :
    mixed a = new a ∨ mixed a = .ok (.next victim) := by
  rcases h.either a with hold | hnew
  · rcases h.moved a hv with hsame | hdelivered | hnext
    · exact .inl (hold.trans hsame.symm)
    · left
      have hgoal := h.old_delivered a hdelivered
      rw [hold, hdelivered, hgoal, h.new_delivered]
    · exact .inr (hold.trans hnext)
  · exact .inl hnew

/-- A packet on the new way keeps to it, or comes to `victim`. -/
theorem delivers_of_victim (h : Mixture old new mixed victim goal)
    (hvictim : Delivers mixed victim path') (hnew : Delivers new a path) :
    ∃ path, Delivers mixed a path := by
  induction hnew with
  | @last a hlast =>
    by_cases hv : a = victim
    · exact ⟨path', hv ▸ hvictim⟩
    rcases h.new_or_next hv with hsame | hnext
    · exact ⟨[a], .last (hsame.trans hlast)⟩
    · exact ⟨a :: path', .step hnext hvictim⟩
  | @step a b path hstep _ ih =>
    by_cases hv : a = victim
    · exact ⟨path', hv ▸ hvictim⟩
    rcases h.new_or_next hv with hsame | hnext
    · obtain ⟨rest, hrest⟩ := ih
      exact ⟨a :: rest, .step (hsame.trans hstep) hrest⟩
    · exact ⟨a :: path', .step hnext hvictim⟩

/-- **A mixture delivers where the old and the new hops do.** -/
theorem delivers (h : Mixture old new mixed victim goal) (hold : Delivers old a path)
    (hnew : Delivers new a path') : ∃ path, Delivers mixed a path := by
  rcases h.delivers_or_victim hold with hmixed | ⟨rest, hrest⟩
  · exact ⟨path, hmixed⟩
  · exact h.delivers_of_victim (h.delivers_victim hrest) hnew

end Mixture

end Forwarding
