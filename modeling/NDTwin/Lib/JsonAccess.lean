import Mathlib.Data.BitVec
import NDTwin.Lib.Json

/-!
# Reading and editing JSON values in place

The accessors of a JSON library that throws: a member read with a default, a member made when it
is not there, an element pushed to an array, and elements removed while they are moved forward.
An edit that throws leaves behind what it had done, so every edit answers with the value it leaves
and with what it threw.

Floating point stays abstract: a reader is given the integer a cast makes of a float.

## Main definitions

* `Json.AccessError` — what is thrown, by the library's own numbers.
* `Json.getInt`, `Json.valueInt`, `Json.value`, `Json.valueString` — reads.
* `Json.put`, `Json.pushBack`, `Json.elements`, `Json.withElements` — edits and iteration.
* `Json.removeIf` — the elements that do not satisfy a predicate that may throw.

## Main results

* `Json.lookup_put_self`, `Json.lookup_put_of_ne` — reading what was put.
* `Json.removeIf_snd_eq_none`, `Json.removeIf_of_forall` — nothing is thrown exactly when the
  predicate throws nowhere, and then what is kept is what the predicate rejects.
* `Json.mem_removeIf` — whatever was thrown, only what was there, or null, is left.
-/

namespace Json

variable {F : Type*}

/-- An exception of the library: `type_error` and `out_of_range`, with its number. -/
inductive AccessError where
  | typeError (id : ℕ)
  | outOfRange (id : ℕ)
  deriving DecidableEq, Repr

/-! ### Reads -/

/-- `j.contains(key)` and `j.find(key)`: nothing has members but an object. -/
def find (j : Json F) (key : String) : Option (Json F) :=
  match j with
  | .obj fields => fields.lookup key
  | _ => none

/-- `j.at(key)`. -/
def at? (j : Json F) (key : String) : Except AccessError (Json F) :=
  match j with
  | .obj fields => match fields.lookup key with
    | some v => .ok v
    | none => .error (.outOfRange 403)
  | _ => .error (.typeError 304)

/-- `j.get<int>()`: a number is cut down to 32 bits, and a truth value is a number. -/
def getInt (cast : F → ℤ) : Json F → Except AccessError ℤ
  | .int n => .ok (BitVec.ofInt 32 n).toInt
  | .float x => .ok (BitVec.ofInt 32 (cast x)).toInt
  | .bool b => .ok (if b then 1 else 0)
  | _ => .error (.typeError 302)

/-- `j.get<std::uint64_t>()`, which takes no truth value. -/
def getUint64 (cast : F → ℤ) : Json F → Except AccessError ℕ
  | .int n => .ok (BitVec.ofInt 64 n).toNat
  | .float x => .ok (BitVec.ofInt 64 (cast x)).toNat
  | _ => .error (.typeError 302)

/-- `j.value(key, default)` for any value. -/
def value (j : Json F) (key : String) (default : Json F) : Except AccessError (Json F) :=
  match j with
  | .obj fields => .ok ((fields.lookup key).getD default)
  | _ => .error (.typeError 306)

/-- `j.value(key, default)` for an `int`. -/
def valueInt (cast : F → ℤ) (j : Json F) (key : String) (default : ℤ) : Except AccessError ℤ :=
  match j with
  | .obj fields => match fields.lookup key with
    | some v => getInt cast v
    | none => .ok default
  | _ => .error (.typeError 306)

/-- `j.get<std::string>()`. -/
def getString : Json F → Except AccessError String
  | .str s => .ok s
  | _ => .error (.typeError 302)

/-- `j.value(key, "")`. -/
def valueString (j : Json F) (key : String) : Except AccessError String :=
  match j with
  | .obj fields => match fields.lookup key with
    | some v => getString v
    | none => .ok ""
  | _ => .error (.typeError 306)

/-- `j.empty()`: null, and an array or an object with nothing in it. -/
def isEmpty : Json F → Bool
  | .null => true
  | .arr xs => xs.isEmpty
  | .obj fields => fields.isEmpty
  | _ => false

/-- `j[0]` of a value that is not empty. -/
def first : Json F → Except AccessError (Json F)
  | .arr (x :: _) => .ok x
  | _ => .error (.typeError 305)

/-- What iterating over a value visits: the elements of an array, the values of an object, nothing
of null, and any other value itself. -/
def elements : Json F → List (Json F)
  | .null => []
  | .arr xs => xs
  | .obj fields => fields.map Prod.snd
  | j => [j]

/-! ### Edits -/

/-- The members with a key set, a new key in its place in the order of keys. -/
def put (key : String) (v : Json F) : List (String × Json F) → List (String × Json F)
  | [] => [(key, v)]
  | p :: fields =>
    if p.1 = key then (key, v) :: fields
    else if key < p.1 then (key, v) :: p :: fields
    else p :: put key v fields

/-- `j.push_back(v)`, with the value it leaves. -/
def pushBack (j v : Json F) : Json F × Option AccessError :=
  match j with
  | .null => (.arr [v], none)
  | .arr xs => (.arr (xs ++ [v]), none)
  | j => (j, some (.typeError 308))

/-- The value with the elements that iterating over it visits replaced, the first of them where
there are fewer. -/
def withElements (j : Json F) (xs : List (Json F)) : Json F :=
  match j with
  | .arr _ => .arr xs
  | .obj fields => .obj ((fields.map Prod.fst).zip xs)
  | j => xs.headD j

/-- The state of `std::remove_if` in the middle: what is kept has been moved to the front, and a
gap follows it whose places hold what has been removed or null, for a value that was moved out of
it.  Answers the elements it leaves where the predicate throws, and else what is kept. -/
def removeFrom (pred : Json F → Except AccessError Bool) :
    (kept gap todo : List (Json F)) → List (Json F) × Option AccessError
  | kept, _, [] => (kept, none)
  | kept, gap, x :: todo =>
    match pred x with
    | .error e => (kept ++ gap ++ x :: todo, some e)
    | .ok true => removeFrom pred kept (gap ++ [x]) todo
    | .ok false =>
      match gap with
      | [] => removeFrom pred (kept ++ [x]) [] todo
      | _ :: gap => removeFrom pred (kept ++ [x]) (gap ++ [.null]) todo

/-- The elements a predicate rejects, by `std::remove_if` and `erase`. -/
def removeIf (pred : Json F → Except AccessError Bool) (xs : List (Json F)) :
    List (Json F) × Option AccessError :=
  removeFrom pred [] [] xs

/-! ### Reading what was read -/

/-- An `int` is read back as it is. -/
theorem getInt_roundtrip {cast : F → ℤ} {j : Json F} {n : ℤ} (h : getInt cast j = .ok n) :
    (BitVec.ofInt 32 n).toInt = n := by
  cases j with
  | int m =>
    cases h
    rw [BitVec.ofInt_toInt]
  | float x =>
    cases h
    rw [BitVec.ofInt_toInt]
  | bool b =>
    cases h
    cases b with
    | false => decide
    | true => decide
  | _ => cases h

theorem valueInt_roundtrip {cast : F → ℤ} {j : Json F} {key : String} {n : ℤ}
    (h : valueInt cast j key 0 = .ok n) : (BitVec.ofInt 32 n).toInt = n := by
  cases j with
  | obj fields =>
    rw [valueInt] at h
    cases hlookup : fields.lookup key with
    | none =>
      simp only [hlookup] at h
      cases h
      decide
    | some v =>
      simp only [hlookup] at h
      exact getInt_roundtrip h
  | _ => cases h

/-! ### Reading what was put -/

theorem lookup_put_self (key : String) (v : Json F) (fields : List (String × Json F)) :
    (put key v fields).lookup key = some v := by
  induction fields with
  | nil => simp [put]
  | cons p fields ih =>
    rw [put]
    split
    · simp
    · next hne =>
      split
      · simp
      · rw [List.lookup_cons]
        have hbeq : (key == p.1) = false := by
          simpa using fun h => hne h.symm
        rw [hbeq]
        exact ih

theorem lookup_put_of_ne {key key' : String} (v : Json F) (fields : List (String × Json F))
    (hne : key' ≠ key) : (put key v fields).lookup key' = fields.lookup key' := by
  have hbeq : (key' == key) = false := by simpa using hne
  induction fields with
  | nil => simp [put, hne]
  | cons p fields ih =>
    rw [put]
    split
    · next heq => rw [List.lookup_cons, List.lookup_cons, heq, hbeq]
    · split
      · rw [List.lookup_cons, hbeq]
      · rw [List.lookup_cons, List.lookup_cons, ih]

/-! ### Removal -/

/-- Where the predicate answers for every element, the elements it rejects are kept. -/
theorem removeFrom_of_forall {pred : Json F → Except AccessError Bool} {p : Json F → Bool}
    (todo : List (Json F)) (h : ∀ x ∈ todo, pred x = .ok (p x)) (kept gap : List (Json F)) :
    removeFrom pred kept gap todo = (kept ++ todo.filter fun x => !p x, none) := by
  induction todo generalizing kept gap with
  | nil => simp [removeFrom]
  | cons x todo ih =>
    have hx := h x List.mem_cons_self
    have htodo : ∀ y ∈ todo, pred y = .ok (p y) := fun y hy => h y (List.mem_cons_of_mem _ hy)
    cases hp : p x with
    | true =>
      rw [hp] at hx
      simp only [removeFrom, hx]
      rw [ih htodo]
      simp [hp]
    | false =>
      rw [hp] at hx
      simp only [removeFrom, hx]
      cases gap with
      | nil =>
        show removeFrom pred (kept ++ [x]) [] todo = _
        rw [ih htodo]
        simp [hp]
      | cons g gap =>
        show removeFrom pred (kept ++ [x]) (gap ++ [Json.null]) todo = _
        rw [ih htodo]
        simp [hp]

theorem removeFrom_snd_eq_none {pred : Json F → Except AccessError Bool} (todo : List (Json F))
    (kept gap : List (Json F)) :
    (removeFrom pred kept gap todo).2 = none ↔ ∀ x ∈ todo, ∃ b, pred x = .ok b := by
  induction todo generalizing kept gap with
  | nil => simp [removeFrom]
  | cons x todo ih =>
    cases hx : pred x with
    | error e => simp [removeFrom, hx]
    | ok b =>
      cases b with
      | true => simp [removeFrom, hx, ih]
      | false =>
        cases gap with
        | nil => simp [removeFrom, hx, ih]
        | cons g gap => simp [removeFrom, hx, ih]

/-- Removal throws nothing exactly when the predicate throws at no element. -/
theorem removeIf_snd_eq_none {pred : Json F → Except AccessError Bool} (xs : List (Json F)) :
    (removeIf pred xs).2 = none ↔ ∀ x ∈ xs, ∃ b, pred x = .ok b :=
  removeFrom_snd_eq_none xs [] []

/-- **What removal keeps**, where the predicate answers for every element. -/
theorem removeIf_of_forall {pred : Json F → Except AccessError Bool} {p : Json F → Bool}
    {xs : List (Json F)} (h : ∀ x ∈ xs, pred x = .ok (p x)) :
    removeIf pred xs = (xs.filter fun x => !p x, none) := by
  rw [removeIf, removeFrom_of_forall xs h, List.nil_append]

/-- Whatever removal leaves was there, or was moved out of. -/
theorem mem_removeFrom {pred : Json F → Except AccessError Bool} {todo kept gap : List (Json F)}
    {x : Json F} (h : x ∈ (removeFrom pred kept gap todo).1) :
    x ∈ kept ∨ x ∈ gap ∨ x ∈ todo ∨ x = .null := by
  induction todo generalizing kept gap with
  | nil => exact .inl h
  | cons y todo ih =>
    cases hy : pred y with
    | error e =>
      simp only [removeFrom, hy, List.mem_append] at h
      rcases h with (h | h) | h
      · exact .inl h
      · exact .inr (.inl h)
      · exact .inr (.inr (.inl h))
    | ok b =>
      cases b with
      | true =>
        simp only [removeFrom, hy] at h
        rcases ih h with h | h | h | h
        · exact .inl h
        · rcases List.mem_append.mp h with h | h
          · exact .inr (.inl h)
          · exact .inr (.inr (.inl (List.mem_singleton.mp h ▸ List.mem_cons_self)))
        · exact .inr (.inr (.inl (List.mem_cons_of_mem y h)))
        · exact .inr (.inr (.inr h))
      | false =>
        have hmoved : x ∈ kept ++ [y] → x ∈ kept ∨ x ∈ y :: todo := by
          intro hx
          rcases List.mem_append.mp hx with hx | hx
          · exact .inl hx
          · exact .inr (List.mem_singleton.mp hx ▸ List.mem_cons_self)
        cases gap with
        | nil =>
          simp only [removeFrom, hy] at h
          rcases ih h with h | h | h | h
          · exact (hmoved h).imp_right fun h => .inr (.inl h)
          · cases h
          · exact .inr (.inr (.inl (List.mem_cons_of_mem y h)))
          · exact .inr (.inr (.inr h))
        | cons g gap =>
          simp only [removeFrom, hy] at h
          rcases ih h with h | h | h | h
          · exact (hmoved h).imp_right fun h => .inr (.inl h)
          · rcases List.mem_append.mp h with h | h
            · exact .inr (.inl (List.mem_cons_of_mem g h))
            · exact .inr (.inr (.inr (List.mem_singleton.mp h)))
          · exact .inr (.inr (.inl (List.mem_cons_of_mem y h)))
          · exact .inr (.inr (.inr h))

theorem mem_removeIf {pred : Json F → Except AccessError Bool} {xs : List (Json F)} {x : Json F}
    (h : x ∈ (removeIf pred xs).1) : x ∈ xs ∨ x = .null := by
  rcases mem_removeFrom h with h | h | h | h
  · cases h
  · cases h
  · exact .inl h
  · exact .inr h

theorem mem_put {key : String} {v : Json F} {fields : List (String × Json F)}
    {p : String × Json F} (h : p ∈ put key v fields) : p = (key, v) ∨ p ∈ fields := by
  induction fields with
  | nil => exact .inl (List.mem_singleton.mp h)
  | cons q fields ih =>
    rw [put] at h
    split at h
    · rcases List.mem_cons.mp h with h | h
      · exact .inl h
      · exact .inr (List.mem_cons_of_mem q h)
    · split at h
      · rcases List.mem_cons.mp h with h | h
        · exact .inl h
        · exact .inr h
      · rcases List.mem_cons.mp h with h | h
        · exact .inr (h ▸ List.mem_cons_self)
        · exact (ih h).imp_right (List.mem_cons_of_mem q)

theorem mem_of_lookup {key : String} {v : Json F} {fields : List (String × Json F)}
    (h : fields.lookup key = some v) : (key, v) ∈ fields := by
  obtain ⟨before, rest, rfl, -⟩ := List.lookup_eq_some_iff.mp h
  exact List.mem_append_right before List.mem_cons_self

end Json
