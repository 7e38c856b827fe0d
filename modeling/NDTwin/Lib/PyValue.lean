import NDTwin.Lib.Json
import NDTwin.Lib.PyInt

/-!
# JSON values as Python values

What Python makes of a JSON value it has read: `int(value)`, `value == other`, and whether the
value counts as true.

## Main definitions

* `IntError`, `toInt` — `int(value)`.
* `pyEq` — `value == other`: a truth value is a number, and numbers are equal across types.
* `truthy` — what `value or other` looks at.
-/

namespace Json

variable {F : Type*} (fl : Floats F)

/-- Why `int(value)` raises. -/
inductive IntError where
  | typeError
  | valueError
  | overflowError
  deriving DecidableEq, Repr

/-- A truth value as a number. -/
def boolInt (b : Bool) : ℤ := if b then 1 else 0

/-- `int(value)`. -/
def toInt : Json F → Except IntError ℤ
  | .bool b => .ok (boolInt b)
  | .int n => .ok n
  | .float x =>
    match fl.trunc x with
    | some n => .ok n
    | none => .error (if fl.isNan x then .valueError else .overflowError)
  | .str s =>
    match PyInt.ofString 10 s with
    | some n => .ok n
    | none => .error .valueError
  | _ => .error .typeError

mutual

/-- `value == other`. -/
def pyEq : Json F → Json F → Bool
  | .null, .null => true
  | .bool a, .bool b => a == b
  | .bool a, .int n => boolInt a == n
  | .int n, .bool a => boolInt a == n
  | .bool a, .float x => fl.eqInt x (boolInt a)
  | .float x, .bool a => fl.eqInt x (boolInt a)
  | .int m, .int n => m == n
  | .int n, .float x => fl.eqInt x n
  | .float x, .int n => fl.eqInt x n
  | .float x, .float y => fl.eq x y
  | .str s, .str t => s == t
  | .arr xs, .arr ys => pyEqList xs ys
  | .obj fields, .obj fields' => fields.length == fields'.length && pyEqFields fields fields'
  | _, _ => false

/-- Two lists, element by element. -/
def pyEqList : List (Json F) → List (Json F) → Bool
  | [], [] => true
  | x :: xs, y :: ys => pyEq x y && pyEqList xs ys
  | _, _ => false

/-- Every member of the first object is the second's under the same key. -/
def pyEqFields : List (String × Json F) → List (String × Json F) → Bool
  | [], _ => true
  | (key, x) :: fields, fields' =>
    (match fields'.lookup key with
      | some y => pyEq x y
      | none => false) && pyEqFields fields fields'

end

/-- Whether a value counts as true. -/
def truthy : Json F → Bool
  | .null => false
  | .bool b => b
  | .int n => n != 0
  | .float x => !fl.eqInt x 0
  | .str s => s != ""
  | .arr xs => !xs.isEmpty
  | .obj fields => !fields.isEmpty

end Json
