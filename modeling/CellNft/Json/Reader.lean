/-
CellNft.Json.Reader — JSON text as values.

`Json.parse` accepts one value with blanks around it. A number without fraction and exponent is a
whole number, every other one a double; `NaN`, `Infinity` and `-Infinity` are accepted too. Of a
repeated key the first place and the last value count. A whole number with too many digits is a
fault of its own, unless the text before it is malformed. How many digits are too many is up to who
reads, and `Json.parseWithin` says it.

Each reader takes the text from where it stands and answers what it read with the text behind it.
The readers of nested values count down a fuel. Twice the length of the text is enough, because two
steps down consume at least one character.
-/
import CellNft.Fault

namespace CellNft.Json

/-- Space, tab, line feed and carriage return. -/
def isBlank (p : CodePoint) : Bool := [' ', '\t', '\n', '\r'].contains p.toChar

def skipBlanks (s : List CodePoint) : List CodePoint := s.dropWhile isBlank

def hexDigit? (p : CodePoint) : Option Nat := Integer.hexDigit? p.toChar

/-- The number of four hex digits. -/
def readUnit : List CodePoint → Option (Nat × List CodePoint)
  | a :: b :: c :: d :: rest => do
    let a ← hexDigit? a
    let b ← hexDigit? b
    let c ← hexDigit? c
    let d ← hexDigit? d
    return (((a * 16 + b) * 16 + c) * 16 + d, rest)
  | _ => none

/-- The code point of a unit escape: two units of a surrogate pair make one character, and half of a
pair stays alone. -/
def readWide (s : List CodePoint) : Option (CodePoint × List CodePoint) := do
  let (high, rest) ← readUnit s
  if 0xd800 ≤ high ∧ high < 0xdc00 then
    match rest with
    | .char '\\' :: .char 'u' :: tail =>
      match readUnit tail with
      | some (low, rest') =>
        if 0xdc00 ≤ low ∧ low < 0xe000 then
          return (.ofNat (0x10000 + (high - 0xd800) * 0x400 + (low - 0xdc00)), rest')
        else return (.ofNat high, rest)
      | none => none
    | _ => return (.ofNat high, rest)
  else return (.ofNat high, rest)

/-- The character a one-letter escape stands for. -/
def shortEscape? : Char → Option Char
  | '"' => some '"'
  | '\\' => some '\\'
  | '/' => some '/'
  | 'b' => some '\x08'
  | 'f' => some '\x0c'
  | 'n' => some '\n'
  | 'r' => some '\r'
  | 't' => some '\t'
  | _ => none

/-- The rest of a string, up to its closing quote. -/
def readString : Nat → List CodePoint → Option (List CodePoint × List CodePoint)
  | 0, _ => none
  | _ + 1, [] => none
  | _ + 1, .char '"' :: rest => some ([], rest)
  | fuel + 1, .char '\\' :: .char 'u' :: rest => do
    let (p, rest) ← readWide rest
    let (s, rest) ← readString fuel rest
    return (p :: s, rest)
  | fuel + 1, .char '\\' :: e :: rest => do
    let c ← shortEscape? e.toChar
    let (s, rest) ← readString fuel rest
    return (.char c :: s, rest)
  | fuel + 1, p :: rest =>
    if p.toNat < 0x20 ∨ p = .char '\\' then none
    else do
      let (s, rest) ← readString fuel rest
      return (p :: s, rest)

def isDigit (p : CodePoint) : Bool := '0' ≤ p.toChar && p.toChar ≤ '9'

/-- The number that decimal digits stand for. -/
def ofDigits (s : List CodePoint) : Nat := s.foldl (fun n p => n * 10 + (p.toNat - 0x30)) 0

/-- The digits behind a decimal point, if there is one with a digit behind it. -/
def readFraction : List CodePoint → List CodePoint × List CodePoint
  | .char '.' :: d :: rest =>
    if isDigit d then (d :: rest.takeWhile isDigit, rest.dropWhile isDigit)
    else ([], .char '.' :: d :: rest)
  | s => ([], s)

/-- The exponent, if there is one with a digit behind its mark and sign. -/
def readExponent : List CodePoint → Option (Int × List CodePoint)
  | m :: s =>
    if m = .char 'e' ∨ m = .char 'E' then
      let (negative, t) :=
        match s with
        | .char '-' :: t => (true, t)
        | .char '+' :: t => (false, t)
        | t => (false, t)
      let digits := t.takeWhile isDigit
      if digits.isEmpty then none
      else
        let n : Int := ofDigits digits
        some (if negative then -n else n, t.dropWhile isDigit)
    else none
  | [] => none

section

-- how many digits a whole number may have, if not any number of them
variable (most : Option Nat)

/-- A whole number. -/
def wholeNumber (negative : Bool) (digits : List CodePoint) : Except Fault Scalar :=
  if most.any (· < digits.length) then .error (.tooManyDigits digits.length)
  else .ok (.int (if negative then -(ofDigits digits : Int) else ofDigits digits))

/-- A number without its sign. A leading zero stands alone. -/
def readUnsigned (negative : Bool) (s : List CodePoint) :
    Except Fault (Scalar × List CodePoint) := do
  let whole := match s with
    | .char '0' :: _ => s.take 1
    | _ => s.takeWhile isDigit
  if whole.isEmpty then throw .malformedJson
  let rest := s.drop whole.length
  let (fraction, rest) := readFraction rest
  match fraction, readExponent rest with
  | [], none => return (← wholeNumber most negative whole, rest)
  | fraction, exponent =>
    let (e, rest) := exponent.getD (0, rest)
    let x := Binary64.ofDecimal negative (ofDigits (whole ++ fraction)) (e - fraction.length)
    return (.float x, rest)

/-- The text behind a word, if it starts with the word. -/
def afterWord? (word : Text) (s : List CodePoint) : Option (List CodePoint) :=
  if word.points.isPrefixOf s then some (s.drop word.points.length) else none

/-- The words that are values. -/
def words : List (Text × Scalar) := [
  ("null", .null), ("true", .bool true), ("false", .bool false), ("NaN", .float Binary64.nan),
  ("Infinity", .float (Binary64.infinity false)), ("-Infinity", .float (Binary64.infinity true))]

/-- A word, or a number. -/
def readAtom (s : List CodePoint) : Except Fault (Scalar × List CodePoint) :=
  match words.findSome? fun w => (afterWord? w.1 s).map fun rest => (w.2, rest) with
  | some found => .ok found
  | none =>
    match s with
    | .char '-' :: rest => readUnsigned most true rest
    | _ => readUnsigned most false s

/-- What is there, or a fault of the document. -/
def wellFormed {α : Type} : Option α → Except Fault α
  | some x => .ok x
  | none => .error .malformedJson

mutual

/-- One value; the text starts with it. -/
def readValue : Nat → List CodePoint → Except Fault (Value × List CodePoint)
  | 0, _ => .error .malformedJson
  | fuel + 1, .char '"' :: rest => do
    let (s, rest) ← wellFormed (readString fuel rest)
    return (.str ⟨s⟩, rest)
  | fuel + 1, .char '[' :: rest =>
    match skipBlanks rest with
    | .char ']' :: rest => .ok (.list [], rest)
    | rest => do
      let (items, rest) ← readItems fuel rest
      return (.list items, rest)
  | fuel + 1, .char '\x7b' :: rest =>
    match skipBlanks rest with
    | .char '\x7d' :: rest => .ok (.dict [], rest)
    | rest => do
      let (entries, rest) ← readEntries fuel rest
      return (.dict (Dict.ofPairs entries), rest)
  | _ + 1, s => do
    let (a, rest) ← readAtom most s
    return (.scalar a, rest)

/-- The items of a list, up to its closing bracket. -/
def readItems : Nat → List CodePoint → Except Fault (List Value × List CodePoint)
  | 0, _ => .error .malformedJson
  | fuel + 1, s => do
    let (v, rest) ← readValue fuel s
    match skipBlanks rest with
    | .char ',' :: rest => do
      let (items, rest) ← readItems fuel (skipBlanks rest)
      return (v :: items, rest)
    | .char ']' :: rest => return ([v], rest)
    | _ => .error .malformedJson

/-- The entries of an object, up to its closing brace. -/
def readEntries : Nat → List CodePoint → Except Fault (List (Scalar × Value) × List CodePoint)
  | 0, _ => .error .malformedJson
  | fuel + 1, .char '"' :: s => do
    let (key, rest) ← wellFormed (readString fuel s)
    match skipBlanks rest with
    | .char ':' :: rest => do
      let (v, rest) ← readValue fuel (skipBlanks rest)
      let entry := (Scalar.str ⟨key⟩, v)
      match skipBlanks rest with
      | .char ',' :: rest => do
        let (entries, rest) ← readEntries fuel (skipBlanks rest)
        return (entry :: entries, rest)
      | .char '\x7d' :: rest => return ([entry], rest)
      | _ => .error .malformedJson
    | _ => .error .malformedJson
  | _ + 1, _ => .error .malformedJson

end

/-- The value of a text that holds exactly one. -/
def parseWithin (t : Text) : Except Fault Value := do
  let s := skipBlanks t.points
  let (v, rest) ← readValue most (2 * s.length + 2) s
  if (skipBlanks rest).isEmpty then return v else throw .malformedJson

end

/-- The value of a text, in which a whole number may have as many digits as a decimal numeral. -/
def parse (t : Text) : Except Fault Value := parseWithin (some Integer.mostDigits) t

end CellNft.Json
