import NDTwin.Lib.PyValue

/-!
# Python values

What a Python function may be handed that takes JSON, or bytes where JSON has a number.  A tuple is
a list here; the keys of a dictionary are texts.

A message that shows a value has the value in it, not its text: `repr` is Python's own affair.

## Main definitions

* `PyData`, `PyData.ofJson` — the values, and those that JSON has.
* `PyData.truthy`, `PyData.typeName`, `PyData.get` — what is asked of them.
* `MessagePart`, `Message` — the text of an error.
-/

/-- A Python value. -/
inductive PyData (F : Type) where
  | none
  | bool (b : Bool)
  | int (n : ℤ)
  | float (x : F)
  | str (s : String)
  | bytes (raw : List ℕ)
  | list (xs : List (PyData F))
  | dict (fields : List (String × PyData F))

namespace PyData

variable {F : Type}

mutual

/-- What `json.loads` makes of a JSON value. -/
def ofJson : Json F → PyData F
  | .null => .none
  | .bool b => .bool b
  | .int n => .int n
  | .float x => .float x
  | .str s => .str s
  | .arr xs => .list (ofJsonList xs)
  | .obj fields => .dict (ofJsonFields fields)

/-- The elements of an array. -/
def ofJsonList : List (Json F) → List (PyData F)
  | [] => []
  | x :: xs => ofJson x :: ofJsonList xs

/-- The members of an object. -/
def ofJsonFields : List (String × Json F) → List (String × PyData F)
  | [] => []
  | (key, x) :: fields => (key, ofJson x) :: ofJsonFields fields

end

/-- Whether a value counts as true. -/
def truthy (fl : Floats F) : PyData F → Bool
  | .none => false
  | .bool b => b
  | .int n => n != 0
  | .float x => !fl.eqInt x 0
  | .str s => s != ""
  | .bytes raw => !raw.isEmpty
  | .list xs => !xs.isEmpty
  | .dict fields => !fields.isEmpty

/-- `type(value).__name__`. -/
def typeName : PyData F → String
  | .none => "NoneType"
  | .bool _ => "bool"
  | .int _ => "int"
  | .float _ => "float"
  | .str _ => "str"
  | .bytes _ => "bytes"
  | .list _ => "list"
  | .dict _ => "dict"

/-- `fields.get(key)`. -/
def get (fields : List (String × PyData F)) (key : String) : PyData F :=
  (fields.lookup key).getD .none

/-- `value or {}`. -/
def orEmpty (fl : Floats F) (v : PyData F) : PyData F := if v.truthy fl then v else .dict []

theorem ofJsonFields_eq (fields : List (String × Json F)) :
    ofJsonFields fields = fields.map fun p => (p.1, ofJson p.2) := by
  induction fields with
  | nil => rfl
  | cons p fields ih => rw [ofJsonFields, ih]; rfl

end PyData

/-- A part of a message: a text as it stands, or the `repr` of a value. -/
inductive MessagePart (F : Type) where
  | text (s : String)
  | repr (v : PyData F)

/-- The text of an error. -/
abbrev Message (F : Type) := List (MessagePart F)
