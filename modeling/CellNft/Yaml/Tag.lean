/-
CellNft.Yaml.Tag — the types of nodes.

* `Tag.ofUri` finds the type that a document names.
* `Tag.implied` finds the type of a scalar by its form: the words for null and the booleans, whole
  numbers in four bases and in base sixty, decimal fractions, timestamps, and text otherwise. A line
  feed at the end of the scalar does not count.
-/
import CellNft.Number.Integer
import CellNft.Text.Pieces
import CellNft.Yaml.Timestamp

namespace CellNft.Yaml

inductive Tag where
  | null | bool | int | float | str | binary | timestamp
  | merge | default
  | seq | map | orderedMap | pairs | set
  | other
deriving DecidableEq

namespace Tag

/-- The type that a full tag names; a lone exclamation mark is no type. -/
def ofUri (uri : String) : Tag :=
  let names : List (String × Tag) := [
    ("null", null), ("bool", bool), ("int", int), ("float", float), ("str", str),
    ("binary", binary), ("timestamp", timestamp), ("merge", merge), ("value", default),
    ("seq", seq), ("map", map), ("omap", orderedMap), ("pairs", pairs), ("set", set)]
  match names.find? fun n => "tag:yaml.org,2002:" ++ n.1 = uri with
  | some n => n.2
  | none => other

def nullWords : List String := ["~", "null", "Null", "NULL"]

def boolWords : List (String × Bool) := [("yes", true), ("no", false), ("true", true),
  ("false", false), ("on", true), ("off", false)]

/-- A word in lower case, with a capital, and in upper case. -/
def spellings (word : String) : List String := [word, word.capitalize, word.toUpper]

/-- A digit, or the underscore that may stand among digits. -/
def isDigitOrGap (c : Char) : Bool := isDigit c || c = '_'

def unsigned : List Char → List Char
  | '-' :: rest | '+' :: rest => rest
  | s => s

/-- The places of a number in base sixty, with colons between them. -/
def places (s : List Char) : List (List Char) := Text.pieces ':' s

/-- A place of base sixty: one digit, or two of at most fifty-nine. -/
def isSixtieth : List Char → Bool
  | [a] => isDigit a
  | [a, b] => '0' ≤ a && a ≤ '5' && isDigit b
  | _ => false

/-- Whether a text is a number of at least two places in base sixty. -/
def isSexagesimal (leading : Char → Bool) (s : List Char) : Bool :=
  match places s with
  | (c :: first) :: more =>
    leading c && first.all isDigitOrGap && !more.isEmpty && more.all isSixtieth
  | _ => false

def isInt (s : List Char) : Bool :=
  let positive (c : Char) : Bool := '1' ≤ c && c ≤ '9'
  match unsigned s with
  | [] => false
  | ['0'] => true
  | '0' :: 'b' :: digits => !digits.isEmpty && digits.all fun c => c = '0' || c = '1' || c = '_'
  | '0' :: 'x' :: digits =>
    !digits.isEmpty && digits.all fun c => (Integer.hexDigit? c).isSome || c = '_'
  | '0' :: digits => digits.all fun c => ('0' ≤ c && c ≤ '7') || c = '_'
  | c :: digits => positive c && digits.all isDigitOrGap || isSexagesimal positive (c :: digits)

/-- Whether a text is empty or an exponent with its sign. -/
def isExponent : List Char → Bool
  | [] => true
  | e :: sign :: digits =>
    (e = 'e' || e = 'E') && (sign = '-' || sign = '+') && !digits.isEmpty && digits.all isDigit
  | _ => false

/-- Digits, a point, more digits, and an exponent perhaps. -/
def isDecimal : List Char → Bool
  | c :: rest =>
    isDigit c &&
      match rest.dropWhile isDigitOrGap with
      | '.' :: fraction => isExponent (fraction.dropWhile isDigitOrGap)
      | _ => false
  | [] => false

/-- A number in base sixty with a point behind it. -/
def isSexagesimalFraction (s : List Char) : Bool :=
  match s.dropWhile (· ≠ '.') with
  | '.' :: fraction =>
    isSexagesimal isDigit (s.takeWhile (· ≠ '.')) && fraction.all isDigitOrGap
  | _ => false

def infinityWords : List String := [".inf", ".Inf", ".INF"]
def nanWords : List String := [".nan", ".NaN", ".NAN"]

def isFloat (s : List Char) : Bool :=
  let u := unsigned s
  let fractionOnly := match s with
    | '.' :: c :: rest => isDigit c && isExponent (rest.dropWhile isDigitOrGap)
    | _ => false
  isDecimal u || fractionOnly || isSexagesimalFraction u || infinityWords.contains (String.ofList u)
    || nanWords.contains (String.ofList s)

/-- The text without one line feed at its end. -/
def dropFinalBreak (s : List Char) : List Char :=
  match s.getLast? with
  | some '\n' => s.dropLast
  | _ => s

/-- The type of a scalar that names none. -/
def implied (text : List Char) : Tag :=
  let s := dropFinalBreak text
  let word := String.ofList s
  if text.isEmpty || nullWords.contains word then null
  else if boolWords.any fun w => (spellings w.1).contains word then bool
  else if isFloat s then float
  else if isInt s then int
  else if Timestamp.isPlain s then timestamp
  else if word = "<<" then merge
  else if word = "=" then default
  else if word = "!" || word = "&" || word = "*" then other
  else str

end Tag
end CellNft.Yaml
