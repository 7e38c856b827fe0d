import NDTwin.Journal.Fold

/-!
# What a switch answers to an entry write

`P4RuntimeClient.write_table_entry` puts one entry on a switch or raises.  Two
views of it are used.  `WriterSound` is the contract a caller can rely on whatever
the switch does: answers are true, a write touches only its own entry, and a
failure without an answer leaves the entry as it was or written.  `p4Write` is the
switch itself, which refuses an insert of an entry that is there, a modify or
delete of one that is not, and a delete of a default entry.

## Main definitions

* `Refusals` — how a caller reads the writer's exceptions.
* `effect`, `WriterSound` — what a write leaves, and the writer's contract.
* `Codec` — what `build_table_entry` makes of a spec.
* `p4Write`, `writeTableEntry` — the switch, and the writer in front of it.

## Main results

* `writeTableEntry_cases` — **what the writer does**, with the reason it may.
* `replayWrite_sound` — **the switch's writer keeps the contract.**
-/

namespace NDTwin
namespace Journal

/-- How a caller reads a writer's exceptions. -/
structure Refusals (X : Type*) where
  isNotFound : X → Bool
  isAlreadyExists : X → Bool
  /-- A failure that carries no per-update answer: the write may have landed. -/
  outcomeUnknown : X → Bool
  /-- What `describe` says, when it is given and says anything. -/
  describe : X → Option String
  /-- The exception's type and message, for when it does not. -/
  text : X → String

section Contract

variable {W K S E X : Type*}

/-- What a write leaves at its entry's key. -/
def effect (entryOf : S → E) (op : Op) (spec : S) : Option E :=
  match op with
  | .delete => none
  | _ => some (entryOf spec)

theorem effect_eq_ite (entryOf : S → E) (op : Op) (spec : S) :
    effect entryOf op spec = if op = .delete then none else some (entryOf spec) := by
  cases op <;> rfl

variable (apply : W → S → Op → Option X × W) (ref : Refusals X)
variable (keyOf : S → K) (entryOf : S → E) (table : W → K → Option E)

/-- The writer's answers are true and a write touches only its own entry: a write
that returns has had its effect, a NOT_FOUND means the entry is absent and an
ALREADY_EXISTS that it is there, a failure with an answer changed nothing, and a
failure without one left the entry as it was or had its effect. -/
structure WriterSound : Prop where
  frame : ∀ w spec op k, k ≠ keyOf spec → table (apply w spec op).2 k = table w k
  returned : ∀ w spec op, (apply w spec op).1 = none →
    table (apply w spec op).2 (keyOf spec) = effect entryOf op spec
  notFound : ∀ w spec op exc, (apply w spec op).1 = some exc → ref.isNotFound exc = true →
    table w (keyOf spec) = none ∧ table (apply w spec op).2 (keyOf spec) = none
  alreadyExists : ∀ w spec op exc, (apply w spec op).1 = some exc →
    ref.isAlreadyExists exc = true →
    (table w (keyOf spec)).isSome = true ∧
      table (apply w spec op).2 (keyOf spec) = table w (keyOf spec)
  answered : ∀ w spec op exc, (apply w spec op).1 = some exc → ref.outcomeUnknown exc = false →
    table (apply w spec op).2 (keyOf spec) = table w (keyOf spec)
  unanswered : ∀ w spec op exc, (apply w spec op).1 = some exc → ref.outcomeUnknown exc = true →
    table (apply w spec op).2 (keyOf spec) = table w (keyOf spec) ∨
      table (apply w spec op).2 (keyOf spec) = effect entryOf op spec

end Contract

/-! ### The switch -/

/-- Why the writer or the switch refused a write. -/
inductive Refusal where
  /-- The writer's own refusal, before the wire. -/
  | invalid
  | alreadyExists
  | notFound
  /-- A delete of a table's default entry. -/
  | defaultDelete
  deriving DecidableEq, Repr, Inhabited

/-- What `build_table_entry` makes of a spec on one switch's pipeline. -/
structure Codec (K S E : Type*) where
  /-- The spec is one this pipeline can represent. -/
  builds : S → Bool
  /-- The identity of the entry it names, `entry_key`. -/
  keyOf : S → K
  /-- It names a table's default entry. -/
  isDefault : S → Bool
  /-- It names an action, which only a delete may leave out. -/
  hasAction : S → Bool
  /-- What the entry does. -/
  entryOf : S → E
  /-- A default entry has a key of its own. -/
  isDefault_eq : ∀ s s', keyOf s = keyOf s' → isDefault s = isDefault s'

/-- A pipeline whose specs are pairs of an entry's key and its action, key `0` being the
table's default entry. -/
def Codec.pairs : Codec ℕ (ℕ × ℕ) ℕ where
  builds _ := true
  keyOf := Prod.fst
  isDefault s := s.1 == 0
  hasAction _ := true
  entryOf := Prod.snd
  isDefault_eq _ _ h := by rw [h]

variable {K S E : Type*} [DecidableEq K]

/-- The switch takes one update: an insert is refused exactly when the entry is
there, a modify or delete of a match entry exactly when it is not, and a default
entry is modified always and deleted never. -/
def p4Write (key : K) (isDefault : Bool) (entry : E) (op : Op) (t : K → Option E) :
    Option Refusal × (K → Option E) :=
  match op with
  | .insert =>
    if (t key).isSome then (some .alreadyExists, t)
    else (none, Function.update t key (some entry))
  | .modify =>
    if !isDefault && (t key).isNone then (some .notFound, t)
    else (none, Function.update t key (some entry))
  | .delete =>
    if isDefault then (some .defaultDelete, t)
    else if (t key).isNone then (some .notFound, t)
    else (none, Function.update t key none)

/-- The verb that goes on the wire for a spec: a default entry is modified, never
inserted. -/
def wireOp (c : Codec K S E) (spec : S) (op : Op) : Op :=
  if c.isDefault spec && op == .insert then .modify else op

/-- `write_table_entry`: a default entry's insert goes out as a modify, an insert or
modify needs an action, and the result names the verb that went on the wire. -/
def writeTableEntry (c : Codec K S E) (t : K → Option E) (spec : S) (op : Op) :
    Except Refusal Op × (K → Option E) :=
  if c.builds spec then
    let op := wireOp c spec op
    if op != .delete && !c.hasAction spec then (.error .invalid, t)
    else
      match p4Write (c.keyOf spec) (c.isDefault spec) (c.entryOf spec) op t with
      | (none, t) => (.ok op, t)
      | (some refusal, t) => (.error refusal, t)
  else (.error .invalid, t)

/-- The writer as the replay calls it: an exception, or none. -/
def replayWrite (c : Codec K S E) (t : K → Option E) (spec : S) (op : Op) :
    Option Refusal × (K → Option E) :=
  match writeTableEntry c t spec op with
  | (.ok _, t) => (none, t)
  | (.error refusal, t) => (some refusal, t)

/-- The readings `main` gives a switch's answers; every refusal here is one. -/
def Refusal.refusals : Refusals Refusal where
  isNotFound r := r == .notFound
  isAlreadyExists r := r == .alreadyExists
  outcomeUnknown _ := false
  describe
    | .invalid => none
    | .alreadyExists => some "ALREADY_EXISTS"
    | .notFound => some "NOT_FOUND"
    | .defaultDelete => some "INVALID_ARGUMENT"
  text _ := "TableEntryInvalid"

omit [DecidableEq K] in
theorem effect_wireOp (c : Codec K S E) (spec : S) (op : Op) :
    effect c.entryOf (wireOp c spec op) spec = effect c.entryOf op spec := by
  cases op <;> cases h : c.isDefault spec <;> simp [wireOp, h, effect]

/-- **What the writer does**: the write has its effect and was allowed, or it is
refused with the reason and changes nothing. -/
theorem writeTableEntry_cases (c : Codec K S E) (t : K → Option E) (spec : S) (op : Op) :
    (writeTableEntry c t spec op =
        (.ok (wireOp c spec op), Function.update t (c.keyOf spec) (effect c.entryOf op spec)) ∧
      c.builds spec = true ∧ (op ≠ .delete → c.hasAction spec = true) ∧
      (wireOp c spec op = .insert → t (c.keyOf spec) = none) ∧
      (wireOp c spec op ≠ .insert → c.isDefault spec = false →
        (t (c.keyOf spec)).isSome = true) ∧
      (op = .delete → c.isDefault spec = false)) ∨
    (writeTableEntry c t spec op = (.error .alreadyExists, t) ∧ op = .insert ∧
      (t (c.keyOf spec)).isSome = true) ∨
    (writeTableEntry c t spec op = (.error .notFound, t) ∧ op ≠ .insert ∧
      c.isDefault spec = false ∧ t (c.keyOf spec) = none ∧ c.builds spec = true) ∨
    (writeTableEntry c t spec op = (.error .defaultDelete, t) ∧ op = .delete ∧
      c.isDefault spec = true) ∨
    (writeTableEntry c t spec op = (.error .invalid, t) ∧
      (c.builds spec = true → op ≠ .delete ∧ c.hasAction spec = false)) := by
  unfold writeTableEntry wireOp
  cases hb : c.builds spec
  · simp
  cases hd : c.isDefault spec <;> cases ha : c.hasAction spec <;> cases op <;>
    cases ht : t (c.keyOf spec) <;> simp [p4Write, effect, ht]

/-- The same for the writer as the replay calls it. -/
theorem replayWrite_cases (c : Codec K S E) (t : K → Option E) (spec : S) (op : Op) :
    replayWrite c t spec op =
        (none, Function.update t (c.keyOf spec) (effect c.entryOf op spec)) ∨
    (replayWrite c t spec op = (some .alreadyExists, t) ∧ op = .insert ∧
      (t (c.keyOf spec)).isSome = true) ∨
    (replayWrite c t spec op = (some .notFound, t) ∧ op ≠ .insert ∧
      c.isDefault spec = false ∧ t (c.keyOf spec) = none) ∨
    (replayWrite c t spec op = (some .defaultDelete, t) ∧ op = .delete ∧
      c.isDefault spec = true) ∨
    (replayWrite c t spec op = (some .invalid, t) ∧
      (c.builds spec = true → op ≠ .delete ∧ c.hasAction spec = false)) := by
  unfold replayWrite
  rcases writeTableEntry_cases c t spec op with
    ⟨h, -⟩ | ⟨h, h₁, h₂⟩ | ⟨h, h₁, h₂, h₃, -⟩ | ⟨h, h₁, h₂⟩ | ⟨h, h₁⟩
  · exact Or.inl (by rw [h])
  · exact Or.inr (Or.inl ⟨by rw [h], h₁, h₂⟩)
  · exact Or.inr (Or.inr (Or.inl ⟨by rw [h], h₁, h₂, h₃⟩))
  · exact Or.inr (Or.inr (Or.inr (Or.inl ⟨by rw [h], h₁, h₂⟩)))
  · exact Or.inr (Or.inr (Or.inr (Or.inr ⟨by rw [h], h₁⟩)))

/-- **The switch's writer keeps the contract.** -/
theorem replayWrite_sound (c : Codec K S E) :
    WriterSound (replayWrite c) Refusal.refusals c.keyOf c.entryOf fun t => t where
  frame t spec op k hk := by
    rcases replayWrite_cases c t spec op with h | ⟨h, -⟩ | ⟨h, -⟩ | ⟨h, -⟩ | ⟨h, -⟩ <;> rw [h]
    exact Function.update_of_ne hk _ _
  returned t spec op hnone := by
    rcases replayWrite_cases c t spec op with h | ⟨h, -⟩ | ⟨h, -⟩ | ⟨h, -⟩ | ⟨h, -⟩ <;>
      rw [h] at hnone ⊢
    · exact Function.update_self _ _ _
    all_goals cases hnone
  notFound t spec op exc hexc hnf := by
    rcases replayWrite_cases c t spec op with h | ⟨h, -⟩ | ⟨h, -, -, h'⟩ | ⟨h, -⟩ | ⟨h, -⟩ <;>
      rw [h] at hexc ⊢ <;> cases hexc
    · cases hnf
    · exact ⟨h', h'⟩
    all_goals cases hnf
  alreadyExists t spec op exc hexc hae := by
    rcases replayWrite_cases c t spec op with h | ⟨h, -, h'⟩ | ⟨h, -⟩ | ⟨h, -⟩ | ⟨h, -⟩ <;>
      rw [h] at hexc ⊢ <;> cases hexc
    · exact ⟨h', rfl⟩
    all_goals cases hae
  answered t spec op exc hexc _ := by
    rcases replayWrite_cases c t spec op with h | ⟨h, -⟩ | ⟨h, -⟩ | ⟨h, -⟩ | ⟨h, -⟩ <;>
      rw [h] at hexc ⊢
    cases hexc
  unanswered t spec op exc hexc hunk := by cases hunk

end Journal
end NDTwin
