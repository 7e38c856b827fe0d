import Mathlib.Data.Nat.Notation
import Mathlib.Logic.Basic

/-!
# Programs that read

A program reads cells of a memory, one after the other, and what it reads next may depend on what it
has read.  A program that is given as a tree of reads can do nothing else with the memory, so what it
answers depends on the cells it reads and on no other.

## Main definitions

* `Reads β α` — a program that reads cells of type `β` and answers with an `α`.
* `run`, `visited` — what it answers on a memory, and the cells it reads there.
* `Within n t` — whatever the memory holds, only cells below `n` are read.
* `Alike d d' n Q t t'` — two programs read the same cells at a distance from two positions.
* `Checked β α` — a program whose reads may be refused.

## Main results

* `run_congr` — **a program depends on the cells it reads.**
* `Within.bind` — a program within bounds, step by step.
* `Alike.bind`, `Alike.run` — **programs that are alike, step by step, and what they answer.**
-/

/-- A program that reads cells of type `β` and answers with an `α`. -/
inductive Reads (β α : Type) where
  | done (a : α)
  | read (i : ℕ) (next : β → Reads β α)

namespace Reads

variable {β α γ : Type}

/-- One program after the other. -/
protected def bind : Reads β α → (α → Reads β γ) → Reads β γ
  | done a, f => f a
  | read i next, f => read i fun b => (next b).bind f

instance : Monad (Reads β) where
  pure := done
  bind := Reads.bind

/-- The program that reads one cell. -/
def get (i : ℕ) : Reads β β := read i done

/-- What a program answers. -/
def run (mem : ℕ → β) : Reads β α → α
  | done a => a
  | read i next => run mem (next (mem i))

/-- The cells that a program reads. -/
def visited (mem : ℕ → β) : Reads β α → List ℕ
  | done _ => []
  | read i next => i :: visited mem (next (mem i))

section Run

variable (mem : ℕ → β)

@[simp] theorem run_pure (a : α) : run mem (pure a : Reads β α) = a := rfl

@[simp] theorem run_get (i : ℕ) : run mem (get i) = mem i := rfl

@[simp] theorem run_bind (t : Reads β α) (f : α → Reads β γ) :
    run mem (t >>= f) = run mem (f (run mem t)) := by
  induction t with
  | done a => rfl
  | read i next ih => exact ih (mem i)

@[simp] theorem visited_pure (a : α) : visited mem (pure a : Reads β α) = [] := rfl

@[simp] theorem visited_get (i : ℕ) : visited mem (get i : Reads β β) = [i] := rfl

@[simp] theorem visited_bind (t : Reads β α) (f : α → Reads β γ) :
    visited mem (t >>= f) = visited mem t ++ visited mem (f (run mem t)) := by
  induction t with
  | done a => rfl
  | read i next ih => exact congrArg (i :: ·) (ih (mem i))

end Run

/-- **A program depends on the cells it reads.** -/
theorem run_congr {mem mem' : ℕ → β} {t : Reads β α} (h : ∀ i ∈ visited mem t, mem' i = mem i) :
    run mem' t = run mem t := by
  induction t with
  | done a => rfl
  | read i next ih =>
    have hi : mem' i = mem i := h i List.mem_cons_self
    show run mem' (next (mem' i)) = run mem (next (mem i))
    rw [hi]
    exact ih (mem i) fun j hj => h j (List.mem_cons_of_mem i hj)

/-- A text in memory, followed by anything. -/
def ofList (text : List β) (beyond : ℕ → β) (i : ℕ) : β := (text[i]?).getD (beyond i)

theorem ofList_of_getElem? {text : List β} {i : ℕ} {b : β} (h : text[i]? = some b)
    (beyond : ℕ → β) : ofList text beyond i = b := by
  rw [ofList, h]
  rfl

/-- The program that reads some cells in a row. -/
def getList : (n i : ℕ) → Reads β (List β)
  | 0, _ => pure []
  | n + 1, i => do
    let b ← get i
    let rest ← getList n (i + 1)
    return b :: rest

/-! ### Bounds -/

/-- Whatever the memory holds, only cells below a bound are read. -/
def Within (n : ℕ) (t : Reads β α) : Prop := ∀ mem, ∀ i ∈ visited mem t, i < n

theorem within_pure (n : ℕ) (a : α) : Within n (pure a : Reads β α) :=
  fun _ _ h => absurd h List.not_mem_nil

theorem within_get {n i : ℕ} (h : i < n) : Within n (get i : Reads β β) := by
  intro mem j hj
  rw [visited_get, List.mem_singleton] at hj
  omega

/-- A program is within bounds if each step of it is. -/
theorem Within.bind {n : ℕ} {t : Reads β α} {f : α → Reads β γ} (ht : Within n t)
    (hf : ∀ a, Within n (f a)) : Within n (t >>= f) := by
  intro mem i hi
  rw [visited_bind, List.mem_append] at hi
  rcases hi with hi | hi
  · exact ht mem i hi
  · exact hf _ mem i hi

/-- A program depends on the cells below its bound. -/
theorem Within.run_congr {n : ℕ} {t : Reads β α} (h : Within n t) {mem mem' : ℕ → β}
    (hmem : ∀ i < n, mem' i = mem i) : run mem' t = run mem t :=
  Reads.run_congr fun i hi => hmem i (h mem i hi)

theorem within_getList {m n i : ℕ} (h : i + n ≤ m) : Within m (getList n i : Reads β (List β)) := by
  induction n generalizing i with
  | zero => exact within_pure m []
  | succ n ih =>
    refine (within_get (by omega)).bind fun b => (ih (by omega)).bind ?_
    intro rest
    exact within_pure m (b :: rest)

/-! ### Programs that are alike -/

/-- Two programs read the same cells, at the same distances below a bound from one position and from
another, and answer with related values. -/
inductive Alike (d d' n : ℕ) (Q : α → γ → Prop) : Reads β α → Reads β γ → Prop
  | done {a : α} {c : γ} (h : Q a c) : Alike d d' n Q (done a) (done c)
  | read {i : ℕ} (hi : i < n) {next : β → Reads β α} {next' : β → Reads β γ}
    (h : ∀ b, Alike d d' n Q (next b) (next' b)) :
    Alike d d' n Q (read (d + i) next) (read (d' + i) next')

section Alike

variable {d d' n : ℕ} {Q : α → γ → Prop} {t : Reads β α} {t' : Reads β γ}

theorem alike_pure (d d' n : ℕ) {a : α} {c : γ} (h : Q a c) :
    Alike d d' n Q (pure a : Reads β α) (pure c) := .done h

theorem alike_get (d d' : ℕ) {n i : ℕ} (h : i < n) :
    Alike d d' n Eq (get (d + i) : Reads β β) (get (d' + i)) :=
  .read h fun _ => .done rfl

/-- Two programs are alike if each step of them is. -/
theorem Alike.bind {δ ε : Type} {R : δ → ε → Prop} {f : α → Reads β δ} {f' : γ → Reads β ε}
    (ht : Alike d d' n Q t t') (hf : ∀ a c, Q a c → Alike d d' n R (f a) (f' c)) :
    Alike d d' n R (t >>= f) (t' >>= f') := by
  induction ht with
  | done h => exact hf _ _ h
  | read hi _ ih => exact .read hi ih

/-- Two programs that go on alike after the same answer. -/
theorem Alike.bind_eq {δ ε : Type} {R : δ → ε → Prop} {s s' : Reads β α} {f : α → Reads β δ}
    {f' : α → Reads β ε} (hs : Alike d d' n Eq s s') (hf : ∀ a, Alike d d' n R (f a) (f' a)) :
    Alike d d' n R (s >>= f) (s' >>= f') := by
  refine hs.bind ?_
  intro a c h
  subst h
  exact hf a

theorem Alike.mono {R : α → γ → Prop} (h : Alike d d' n Q t t') (hQ : ∀ a c, Q a c → R a c) :
    Alike d d' n R t t' := by
  induction h with
  | done h => exact .done (hQ _ _ h)
  | read hi _ ih => exact .read hi ih

/-- Two programs that branch on conditions with one meaning. -/
theorem Alike.ite {c c' : Prop} [Decidable c] [Decidable c'] {s : Reads β α} {s' : Reads β γ}
    (hc : c ↔ c') (ht : c → Alike d d' n Q t t') (hs : ¬ c → Alike d d' n Q s s') :
    Alike d d' n Q (if c then t else s) (if c' then t' else s') := by
  by_cases h : c
  · rw [if_pos h, if_pos (hc.mp h)]
    exact ht h
  · rw [if_neg h, if_neg fun h' => h (hc.mpr h')]
    exact hs h

theorem alike_getList (d d' : ℕ) {m n i : ℕ} (h : i + m ≤ n) :
    Alike d d' n Eq (getList m (d + i) : Reads β (List β)) (getList m (d' + i)) := by
  induction m generalizing i with
  | zero => exact alike_pure d d' n rfl
  | succ m ih =>
    refine (alike_get d d' (by omega)).bind_eq ?_
    intro b
    exact (ih (i := i + 1) (by omega)).bind_eq fun rest => alike_pure d d' n rfl

/-- **Programs that are alike answer alike on memories that agree.** -/
theorem Alike.run {mem mem' : ℕ → β} (h : Alike d d' n Q t t')
    (hmem : ∀ i < n, mem (d + i) = mem' (d' + i)) : Q (Reads.run mem t) (Reads.run mem' t') := by
  induction h with
  | done h => exact h
  | @read i hi next next' _ ih =>
    show Q (Reads.run mem (next (mem (d + i)))) (Reads.run mem' (next' (mem' (d' + i))))
    rw [hmem i hi]
    exact ih _

/-- A program that is like some other is within bounds. -/
theorem Alike.within (h : Alike d d' n Q t t') : Within (d + n) t := by
  intro mem i hi
  induction h with
  | done h => exact absurd hi List.not_mem_nil
  | read hj _ ih =>
    rcases List.mem_cons.mp hi with rfl | hi
    · omega
    · exact ih _ hi

end Alike

end Reads

/-! ### Reads that may be refused -/

/-- A program whose reads may be refused, at which it ends. -/
abbrev Checked (β α : Type) := OptionT (Reads β) α

namespace Checked

variable {β α γ : Type}

/-- A cell that is read if it is below the bound, and refused if not. -/
def get (n i : ℕ) : Checked β β :=
  OptionT.mk (if i < n then some <$> Reads.get i else pure none)

/-- What a program answers, or nothing if a read was refused. -/
def run? (mem : ℕ → β) (t : Checked β α) : Option α := Reads.run mem t.run

section Run

variable (mem : ℕ → β)

@[simp] theorem run?_pure (a : α) : run? mem (pure a : Checked β α) = some a := rfl

theorem run?_get (n i : ℕ) : run? mem (get n i : Checked β β) = if i < n then some (mem i) else none := by
  unfold run? get
  show Reads.run mem (if i < n then some <$> Reads.get i else pure none) = _
  split <;> rfl

@[simp] theorem run?_bind (t : Checked β α) (f : α → Checked β γ) :
    run? mem (t >>= f) = (run? mem t).bind fun a => run? mem (f a) := by
  show Reads.run mem (t.run >>= fun o => match o with
    | some a => (f a).run
    | none => pure none) = _
  rw [Reads.run_bind, run?]
  cases Reads.run mem t.run <;> rfl

@[simp] theorem run?_lift (t : Reads β α) :
    run? mem (OptionT.lift t : Checked β α) = some (Reads.run mem t) := by
  show Reads.run mem (t >>= fun a => pure (some a)) = _
  rw [Reads.run_bind, Reads.run_pure]

end Run

/-- Whatever the memory holds, only cells below a bound are read. -/
def Within (n : ℕ) (t : Checked β α) : Prop := Reads.Within n t.run

theorem within_pure (n : ℕ) (a : α) : Within n (pure a : Checked β α) := Reads.within_pure n (some a)

theorem within_get (n i : ℕ) : Within n (get n i : Checked β β) := by
  unfold Within get
  show Reads.Within n (if i < n then some <$> Reads.get i else pure none)
  split
  · next h => exact (Reads.within_get h).bind fun b => Reads.within_pure n (some b)
  · exact Reads.within_pure n none

theorem within_lift {n : ℕ} {t : Reads β α} (h : Reads.Within n t) :
    Within n (OptionT.lift t : Checked β α) :=
  Reads.Within.bind h fun a => Reads.within_pure n (some a)

/-- A program is within bounds if each step of it is. -/
theorem Within.bind {n : ℕ} {t : Checked β α} {f : α → Checked β γ} (ht : Within n t)
    (hf : ∀ a, Within n (f a)) : Within n (t >>= f) := by
  refine Reads.Within.bind ht ?_
  intro o
  cases o with
  | none => exact Reads.within_pure n none
  | some a => exact hf a

end Checked
