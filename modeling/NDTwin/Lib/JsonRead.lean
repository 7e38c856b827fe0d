import NDTwin.Lib.Dict
import NDTwin.Lib.JsonText
import NDTwin.Lib.PyLiteral

/-!
# Python's `json.loads`

A text is read as Python's `json` module reads it: blanks around every part, strings without raw
control characters, `\uXXXX` escapes joined to surrogate pairs, numbers as integers where they have
neither a fraction nor an exponent, the last of an object's members of one name, and nothing but
blanks after the value.

A number that is not an integer is read by Python's `float`, which stays abstract: `FloatReader`
names it, with what is documented of the text that `repr` gives.

## Main definitions

* `Style`, `text` — `json.dumps`, by its separators, the order of keys, and what it escapes.
* `FloatReader` — how a number with a fraction or an exponent is read.
* `readValue`, `loads` — `json.loads`, `none` for a `ValueError`.
-/

namespace Json

variable {F : Type*}

/-! ### Writing -/

/-- How `json.dumps` is asked to write. -/
structure Style where
  /-- `", "` and `": "` between the parts, or `","` and `":"`. -/
  spaced : Bool
  /-- `sort_keys`. -/
  sortKeys : Bool
  /-- `ensure_ascii`. -/
  ascii : Bool
  deriving DecidableEq, Repr

/-- The blank after a separator. -/
def Style.gap (st : Style) : List Char := if st.spaced then [' '] else []

/-- One character of a string.  Without `ensure_ascii` only quotes, backslashes and control
characters are escaped. -/
def Style.escapeChar (st : Style) (c : Char) : List Char :=
  if !st.ascii && (127 ≤ c.toNat) then [c] else Json.escapeChar c

/-- A string between quotes. -/
def Style.quote (st : Style) (s : String) : List Char :=
  '"' :: (s.toList.flatMap st.escapeChar ++ ['"'])

mutual

/-- The members of every object in the order of their names. -/
def sorted : Json F → Json F
  | .arr xs => .arr (sortedList xs)
  | .obj fields => .obj (sortFields (sortedFields fields))
  | v => v

/-- The elements of an array, each sorted. -/
def sortedList : List (Json F) → List (Json F)
  | [] => []
  | x :: xs => sorted x :: sortedList xs

/-- The members of an object, each sorted. -/
def sortedFields : List (String × Json F) → List (String × Json F)
  | [] => []
  | (key, x) :: fields => (key, sorted x) :: sortedFields fields

end

mutual

/-- The text of a value, its members in the order they stand in. -/
def plain (fl : Floats F) (st : Style) : Json F → List Char
  | .null => ['n', 'u', 'l', 'l']
  | .bool true => ['t', 'r', 'u', 'e']
  | .bool false => ['f', 'a', 'l', 's', 'e']
  | .int n => intChars n
  | .float x => fl.repr x
  | .str s => st.quote s
  | .arr [] => ['[', ']']
  | .arr (x :: xs) => '[' :: (plain fl st x ++ plainElems fl st xs)
  | .obj [] => ['{', '}']
  | .obj ((key, x) :: fields) =>
    '{' :: (st.quote key ++ ':' :: (st.gap ++ (plain fl st x ++ plainMembers fl st fields)))

/-- The rest of an array. -/
def plainElems (fl : Floats F) (st : Style) : List (Json F) → List Char
  | [] => [']']
  | x :: xs => ',' :: (st.gap ++ (plain fl st x ++ plainElems fl st xs))

/-- The rest of an object. -/
def plainMembers (fl : Floats F) (st : Style) : List (String × Json F) → List Char
  | [] => ['}']
  | (key, x) :: fields =>
    ',' :: (st.gap ++ (st.quote key ++
      ':' :: (st.gap ++ (plain fl st x ++ plainMembers fl st fields))))

end

/-- The value that `json.dumps` writes down: the keys sorted where they are asked to be. -/
def Style.arrange (st : Style) (v : Json F) : Json F := if st.sortKeys then v.sorted else v

/-- The characters of `json.dumps(value)` in a style. -/
def text (fl : Floats F) (st : Style) (v : Json F) : List Char := plain fl st (st.arrange v)

/-! ### Reading strings -/

/-- What JSON takes for blanks. -/
def isBlank (c : Char) : Bool := c = ' ' || c = '\t' || c = '\n' || c = '\r'

/-- A text less the blanks it begins with. -/
def skipBlanks (cs : List Char) : List Char := cs.dropWhile isBlank

/-- The number that four hexadecimal digits write. -/
def readHex4 (a b c d : Char) : Option ℕ :=
  match PyBytes.hexDigit? a, PyBytes.hexDigit? b, PyBytes.hexDigit? c, PyBytes.hexDigit? d with
  | some a, some b, some c, some d => some (((a * 16 + b) * 16 + c) * 16 + d)
  | _, _, _, _ => none

/-- The letter of a short escape. -/
def isShortEscape (x : Char) : Bool :=
  x = '"' || x = '\\' || x = '/' || x = 'b' || x = 'f' || x = 'n' || x = 'r' || x = 't'

/-- One code point of a string: a `\uXXXX` escape, a short one, or a character that is not a control
character. -/
def readUnit : List Char → Option (ℕ × List Char)
  | '\\' :: 'u' :: a :: b :: c :: d :: cs => (readHex4 a b c d).map fun u => (u, cs)
  | '\\' :: x :: cs => if isShortEscape x then some ((shortEscape x).toNat, cs) else none
  | c :: cs => if c.toNat < 32 || c = '\\' then none else some (c.toNat, cs)
  | [] => none

/-- The code points of a string up to its closing quote. -/
def readUnits : ℕ → List Char → Option (List ℕ × List Char)
  | 0, _ => none
  | _ + 1, '"' :: cs => some ([], cs)
  | n + 1, cs =>
    match readUnit cs with
    | none => none
    | some (u, cs) => (readUnits n cs).map fun p => (u :: p.1, p.2)

/-- A code point as a character; a surrogate by itself, which is none, as the replacement
character. -/
def ofUnit (u : ℕ) : Char := if u.isValidChar then Char.ofNat u else Char.ofNat 65533

/-- The characters of a string, a high surrogate and a low one after it joined. -/
def joinUnits : List ℕ → List Char
  | [] => []
  | [u] => [ofUnit u]
  | u :: v :: us =>
    if (55296 ≤ u ∧ u < 56320) ∧ (56320 ≤ v ∧ v < 57344) then
      Char.ofNat (65536 + (u - 55296) * 1024 + (v - 56320)) :: joinUnits us
    else ofUnit u :: joinUnits (v :: us)

/-- A string after its opening quote. -/
def readString (n : ℕ) (cs : List Char) : Option (String × List Char) :=
  (readUnits n cs).map fun p => (String.ofList (joinUnits p.1), p.2)

/-! ### Reading numbers -/

/-- The digits a text begins with, and the rest. -/
def takeDigits (cs : List Char) : List Char × List Char :=
  (cs.takeWhile Char.isDigit, cs.dropWhile Char.isDigit)

/-- A fraction at the beginning of a text, empty where there is none. -/
def readFrac : List Char → List Char × List Char
  | '.' :: cs =>
    match takeDigits cs with
    | ([], _) => ([], '.' :: cs)
    | (ds, rest) => ('.' :: ds, rest)
  | cs => ([], cs)

/-- The sign of an exponent. -/
def readExpSign : List Char → List Char × List Char
  | '+' :: cs => (['+'], cs)
  | '-' :: cs => (['-'], cs)
  | cs => ([], cs)

/-- An exponent at the beginning of a text, empty where there is none. -/
def readExp : List Char → List Char × List Char
  | c :: cs =>
    if c = 'e' || c = 'E' then
      match takeDigits (readExpSign cs).2 with
      | ([], _) => ([], c :: cs)
      | (ds, rest) => (c :: ((readExpSign cs).1 ++ ds), rest)
    else ([], c :: cs)
  | [] => ([], [])

/-- The digits of a whole number, which do not begin with a zero unless that is all. -/
def readWhole : List Char → Option (List Char × List Char)
  | '0' :: cs => some (['0'], cs)
  | c :: cs => if c.isDigit then some (takeDigits (c :: cs)) else none
  | [] => none

/-- The sign of a number. -/
def readSign : List Char → List Char × List Char
  | '-' :: cs => (['-'], cs)
  | cs => ([], cs)

/-- A number as the text it is written with. -/
structure NumberText where
  sign : List Char
  whole : List Char
  frac : List Char
  exp : List Char

/-- The text as a whole. -/
def NumberText.chars (t : NumberText) : List Char := t.sign ++ (t.whole ++ (t.frac ++ t.exp))

/-- The integer that a sign and digits write. -/
def NumberText.toInt (t : NumberText) : ℤ :=
  if t.sign = [] then Nat.ofDigitChars 10 t.whole 0 else -(Nat.ofDigitChars 10 t.whole 0 : ℤ)

/-- The text of a number, and the rest. -/
def readNumber (cs : List Char) : Option (NumberText × List Char) :=
  (readWhole (readSign cs).2).map fun w =>
    (⟨(readSign cs).1, w.1, (readFrac w.2).1, (readExp (readFrac w.2).2).1⟩,
      (readExp (readFrac w.2).2).2)

/-- How a number becomes a float: `float(text)`, and what the three names stand for. -/
structure FloatReader (fl : Floats F) where
  read : List Char → F
  nan : F
  inf : F
  negInf : F
  read_repr : ∀ x, read (fl.repr x) = x
  /-- The text of a float is a name or a number, with a fraction or an exponent to it. -/
  repr_form : ∀ x, (fl.repr x = ['N', 'a', 'N'] ∧ x = nan) ∨
    (fl.repr x = ['I', 'n', 'f', 'i', 'n', 'i', 't', 'y'] ∧ x = inf) ∨
    (fl.repr x = ['-', 'I', 'n', 'f', 'i', 'n', 'i', 't', 'y'] ∧ x = negInf) ∨
    ∃ t : NumberText, readNumber (fl.repr x) = some (t, []) ∧ ¬ (t.frac = [] ∧ t.exp = [])

/-- Zero as the only float, for texts that have no other in them. -/
def zeroFloats : Floats Unit where
  repr _ := ['0', '.', '0']
  trunc _ := some 0
  isNan _ := false
  eq _ _ := true
  eqInt _ n := n = 0
  repr_inj _ _ _ := rfl
  repr_chars _ := by simp
  repr_head _ := ⟨'0', ['.', '0'], rfl, by decide⟩
  repr_mark _ := ⟨'.', by decide⟩

/-- How zero is read. -/
def zeroReader : FloatReader zeroFloats where
  read _ := ()
  nan := ()
  inf := ()
  negInf := ()
  read_repr _ := rfl
  repr_form _ := .inr (.inr (.inr ⟨⟨[], ['0'], ['.', '0'], []⟩, rfl, nofun⟩))

/-! ### Reading values -/

section Read

variable {fl : Floats F} (fr : FloatReader fl)

/-- A text after a word it begins with. -/
def afterWord : List Char → List Char → Option (List Char)
  | [], cs => some cs
  | _ :: _, [] => none
  | w :: ws, c :: cs => if w = c then afterWord ws cs else none

/-- What a first letter is the first letter of: the rest of the word, and its value. -/
def wordOf (c : Char) : Option (List Char × Json F) :=
  if c = 'n' then some (['u', 'l', 'l'], .null)
  else if c = 't' then some (['r', 'u', 'e'], .bool true)
  else if c = 'f' then some (['a', 'l', 's', 'e'], .bool false)
  else if c = 'N' then some (['a', 'N'], .float fr.nan)
  else if c = 'I' then some (['n', 'f', 'i', 'n', 'i', 't', 'y'], .float fr.inf)
  else none

/-- The value of a number.  Python refuses to read an integer of more than 4300 digits. -/
def ofNumber (t : NumberText) : Option (Json F) :=
  if t.frac = [] ∧ t.exp = [] then
    if t.whole.length ≤ 4300 then some (.int t.toInt) else none
  else some (.float (fr.read t.chars))

/-- A number, and the rest. -/
def readNumeral (cs : List Char) : Option (Json F × List Char) :=
  match readNumber cs with
  | none => none
  | some (t, rest) => (ofNumber fr t).map fun v => (v, rest)

/-- A value without quotes or brackets. -/
def readBare : List Char → Option (Json F × List Char)
  | [] => none
  | c :: cs =>
    match wordOf fr c with
    | some (word, v) => (afterWord word cs).map fun rest => (v, rest)
    | none =>
      match if c = '-' then afterWord ['I', 'n', 'f', 'i', 'n', 'i', 't', 'y'] cs else none with
      | some rest => some (.float fr.negInf, rest)
      | none => readNumeral fr (c :: cs)

mutual

/-- A value at the beginning of a text, and the rest; the number bounds the depth of the reading. -/
def readValue : ℕ → List Char → Option (Json F × List Char)
  | 0, _ => none
  | n + 1, cs =>
    match cs with
    | '"' :: cs => (readString n cs).map fun p => (.str p.1, p.2)
    | '[' :: cs =>
      match skipBlanks cs with
      | ']' :: rest => some (.arr [], rest)
      | cs => (readElems n cs).map fun p => (.arr p.1, p.2)
    | '{' :: cs =>
      match skipBlanks cs with
      | '}' :: rest => some (.obj [], rest)
      | cs => (readMembers n cs).map fun p => (.obj (Dict.ofList p.1).entries, p.2)
    | cs => readBare fr cs

/-- The elements of an array up to its closing bracket. -/
def readElems : ℕ → List Char → Option (List (Json F) × List Char)
  | 0, _ => none
  | n + 1, cs =>
    match readValue n cs with
    | none => none
    | some (x, rest) =>
      match skipBlanks rest with
      | ']' :: rest => some ([x], rest)
      | ',' :: rest => (readElems n (skipBlanks rest)).map fun p => (x :: p.1, p.2)
      | _ => none

/-- The members of an object up to its closing brace. -/
def readMembers : ℕ → List Char → Option (List (String × Json F) × List Char)
  | 0, _ => none
  | n + 1, cs =>
    match cs with
    | '"' :: cs =>
      match readString n cs with
      | none => none
      | some (key, rest) =>
        match skipBlanks rest with
        | ':' :: rest =>
          match readValue n (skipBlanks rest) with
          | none => none
          | some (x, rest) =>
            match skipBlanks rest with
            | '}' :: rest => some ([(key, x)], rest)
            | ',' :: rest => (readMembers n (skipBlanks rest)).map fun p => ((key, x) :: p.1, p.2)
            | _ => none
        | _ => none
    | _ => none

end

/-- `json.loads(text)`, or `none` for a `ValueError`. -/
def loads (cs : List Char) : Option (Json F) :=
  match readValue fr (cs.length + 1) (skipBlanks cs) with
  | none => none
  | some (v, rest) => if skipBlanks rest = [] then some v else none

end Read

end Json
