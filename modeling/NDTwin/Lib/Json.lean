import Mathlib.Data.Int.Notation
import Mathlib.Data.List.Sort
import Mathlib.Data.Nat.Notation

/-!
# JSON values and Python's `json.dumps`

A JSON value as Python's `json` module reads it, and its text as `json.dumps(value,
sort_keys=True)` writes it: `", "` and `": "` between the parts, the keys of an object in
order, every character outside printable ASCII escaped.

Floating point stays abstract: `Floats` names what is used of Python's `float`, with the
documented facts about its text that the text of a number rests on.

## Main definitions

* `Json`, `Floats` — the values.
* `escape`, `quote`, `dumps` — the text.
-/

/-- What is used of Python's `float`: the text `json.dumps` gives it and the integer
`int` makes of it, with what is documented of that text. -/
structure Floats (F : Type*) where
  /-- `repr(x)`, and `NaN`, `Infinity`, `-Infinity`. -/
  repr : F → List Char
  /-- `int(x)`, which a NaN or an infinity does not have. -/
  trunc : F → Option ℤ
  isNan : F → Bool
  /-- `x == y`. -/
  eq : F → F → Bool
  /-- `x == n`. -/
  eqInt : F → ℤ → Bool
  /-- Different floats have different texts. -/
  repr_inj : Function.Injective repr
  /-- A text has no separator of JSON in it. -/
  repr_chars : ∀ x, ∀ c ∈ repr x, c ≠ ',' ∧ c ≠ '}'
  /-- A text begins like a number, and is not the text of an integer. -/
  repr_head : ∀ x, ∃ c cs, repr x = c :: cs ∧ c ≠ '"' ∧ c ≠ 't' ∧ c ≠ 'f' ∧ c ≠ 'n'
  repr_mark : ∀ x, ∃ c ∈ repr x, c.isDigit = false ∧ c ≠ '-'

/-- No floats at all, for values that have none in them. -/
def Floats.empty : Floats Empty where
  repr := Empty.elim
  trunc := Empty.elim
  isNan := Empty.elim
  eq := Empty.elim
  eqInt := Empty.elim
  repr_inj x := x.elim
  repr_chars x := x.elim
  repr_head x := x.elim
  repr_mark x := x.elim

/-- A JSON value. -/
inductive Json (F : Type*) where
  | null
  | bool (b : Bool)
  | int (n : ℤ)
  | float (x : F)
  | str (s : String)
  | arr (xs : List (Json F))
  | obj (fields : List (String × Json F))

namespace Json

variable {F : Type*}

/-! ### Strings -/

/-- A hexadecimal digit, in lower case. -/
def hexDigit (d : ℕ) : Char := if d < 10 then Char.ofNat (48 + d) else Char.ofNat (87 + d)

/-- A 16-bit code unit as `\uXXXX`. -/
def unicodeEscape (u : ℕ) : List Char :=
  ['\\', 'u', hexDigit (u / 4096 % 16), hexDigit (u / 256 % 16), hexDigit (u / 16 % 16),
    hexDigit (u % 16)]

/-- One character of a string: the short escapes, `\uXXXX` for what is not printable ASCII
(two of them, a surrogate pair, above the sixteen-bit range), itself otherwise. -/
def escapeChar (c : Char) : List Char :=
  if c = '"' then ['\\', '"']
  else if c = '\\' then ['\\', '\\']
  else if c = '\n' then ['\\', 'n']
  else if c = '\r' then ['\\', 'r']
  else if c = '\t' then ['\\', 't']
  else if c.toNat = 8 then ['\\', 'b']
  else if c.toNat = 12 then ['\\', 'f']
  else if 32 ≤ c.toNat ∧ c.toNat < 127 then [c]
  else if c.toNat < 65536 then unicodeEscape c.toNat
  else unicodeEscape (55296 + (c.toNat - 65536) / 1024) ++
    unicodeEscape (56320 + (c.toNat - 65536) % 1024)

/-- The characters of a string, escaped. -/
def escape (cs : List Char) : List Char := cs.flatMap escapeChar

/-- A string between quotes. -/
def quote (s : String) : List Char := '"' :: (escape s.toList ++ ['"'])

/-! ### Values -/

/-- The text of an integer. -/
def intChars (n : ℤ) : List Char :=
  if n < 0 then '-' :: Nat.toDigits 10 n.natAbs else Nat.toDigits 10 n.natAbs

/-- Parts with `", "` between them. -/
def join : List (List Char) → List Char
  | [] => []
  | [x] => x
  | x :: y :: xs => x ++ (',' :: ' ' :: join (y :: xs))

/-- A member of an object. -/
def member (key : String) (value : List Char) : List Char := quote key ++ (':' :: ' ' :: value)

/-- Members in the order of their keys. -/
def sortFields {α : Type*} (fields : List (String × α)) : List (String × α) :=
  fields.insertionSort fun a b => a.1 ≤ b.1

mutual

/-- The characters of `json.dumps(value, sort_keys=True)`. -/
def chars (fl : Floats F) : Json F → List Char
  | .null => ['n', 'u', 'l', 'l']
  | .bool true => ['t', 'r', 'u', 'e']
  | .bool false => ['f', 'a', 'l', 's', 'e']
  | .int n => intChars n
  | .float x => fl.repr x
  | .str s => quote s
  | .arr xs => '[' :: (join (charsList fl xs) ++ [']'])
  | .obj fields =>
    '{' :: (join ((sortFields (charsFields fl fields)).map fun p => member p.1 p.2) ++ ['}'])

/-- The characters of an array's elements. -/
def charsList (fl : Floats F) : List (Json F) → List (List Char)
  | [] => []
  | x :: xs => chars fl x :: charsList fl xs

/-- The characters of an object's members. -/
def charsFields (fl : Floats F) : List (String × Json F) → List (String × List Char)
  | [] => []
  | (key, x) :: fields => (key, chars fl x) :: charsFields fl fields

end

/-- `json.dumps(value, sort_keys=True)`. -/
def dumps (fl : Floats F) (value : Json F) : String := String.ofList (chars fl value)

/-- Whether a value is an object. -/
def isObj : Json F → Bool
  | .obj _ => true
  | _ => false

end Json
