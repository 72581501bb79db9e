/-
CellNft.Yaml.Quoted — scalars in single and in double quotes.

Line breaks inside the quotes are folded, together with the blanks around them. In single quotes a
quote is written twice; in double quotes a backslash starts an escape, and before a line break it
joins the lines without a space.

The readers take the text behind the opening quote and answer the content and the text behind the
closing one. An escape that names a number which is no code point is a fault of its own.
-/
import CellNft.Fault
import CellNft.Yaml.Character

namespace CellNft.Yaml.Quoted

/-- The breaks of the blank lines at the start of a line, and the text behind them and behind the
blanks of the line that is not blank. A document must not start or end inside quotes. -/
def blankLines : Nat → List Char → Option (List Char × List Char)
  | 0, _ => none
  | fuel + 1, s =>
    if isMarker s then none
    else
      match s.dropWhile isBlank with
      | [] => some ([], [])
      | c :: rest =>
        if isBreak c then do
          let (more, rest) ← blankLines fuel rest
          return (breakChar c :: more, rest)
        else some ([], c :: rest)

/-- The characters that escapes of one letter stand for. -/
def letterEscape? : Char → Option Char
  | '0' => some '\x00'
  | 'a' => some '\x07'
  | 'b' => some '\x08'
  | 't' | '\t' => some '\t'
  | 'n' => some '\n'
  | 'v' => some '\x0b'
  | 'f' => some '\x0c'
  | 'r' => some '\r'
  | 'e' => some '\x1b'
  | ' ' => some ' '
  | '"' => some '"'
  | '\\' => some '\\'
  | '/' => some '/'
  | 'N' => some '\u0085'
  | '_' => some '\u00a0'
  | 'L' => some '\u2028'
  | 'P' => some '\u2029'
  | _ => none

/-- How many hex digits follow the letter of a numeric escape. -/
def escapeWidth? : Char → Option Nat
  | 'x' => some 2
  | 'u' => some 4
  | 'U' => some 8
  | _ => none

/-- The number of exactly `width` hex digits. -/
def readHex (width : Nat) (s : List Char) : Option (Nat × List Char) := do
  let digits ← (s.take width).mapM Integer.hexDigit?
  if digits.length = width then
    return (digits.foldl (fun n d => n * 16 + d) 0, s.drop width)
  else none

/-- What is there, or a fault of the document. -/
def wellFormed {α : Type} : Option α → Except Fault α
  | some x => .ok x
  | none => .error .malformedYaml

/-- The code point with a number. -/
def pointOf (code : Nat) : Except Fault CodePoint :=
  if code < 0x110000 then .ok (.ofNat code) else .error (.noCharacter code)

/-- What an escape stands for; the text starts behind its backslash. -/
def readEscape : List Char → Except Fault (Text × List Char)
  | [] => .error .malformedYaml
  | e :: rest =>
    if isBreak e then do
      let (breaks, rest) ← wellFormed (blankLines (rest.length + 1) rest)
      return (.ofChars breaks, rest)
    else
      match letterEscape? e, escapeWidth? e with
      | some c, _ => .ok (.ofChars [c], rest)
      | none, some width => do
        let (code, rest) ← wellFormed (readHex width rest)
        return (⟨[← pointOf code]⟩, rest)
      | none, none => .error .malformedYaml

/-- Blanks and line breaks between words; the text starts with one. -/
def readGap (s : List Char) : Option (Text × List Char) :=
  match s.dropWhile isBlank with
  | [] => none
  | c :: rest =>
    if isBreak c then do
      let (more, rest) ← blankLines (rest.length + 1) rest
      return (.ofChars (folded (breakChar c) more), rest)
    else some (.ofChars (s.takeWhile isBlank), c :: rest)

/-- What stands for the characters at the start of the text, up to the closing quote if the answer
has none. -/
def readPart (double : Bool) : List Char → Except Fault (Option Text × List Char)
  | [] => .error .malformedYaml
  | '\'' :: '\'' :: rest =>
    if double then .ok (some "'", '\'' :: rest) else .ok (some "'", rest)
  | c :: rest =>
    if c = (if double then '"' else '\'') then .ok (none, rest)
    else if double && c = '\\' then (readEscape rest).map fun r => (some r.1, r.2)
    else if isGap c then (wellFormed (readGap (c :: rest))).map fun r => (some r.1, r.2)
    else .ok (some (.ofChars [c]), rest)

def readParts (double : Bool) : Nat → List Char → Except Fault (List Text × List Char)
  | 0, _ => .error .malformedYaml
  | fuel + 1, s => do
    match ← readPart double s with
    | (none, rest) => return ([], rest)
    | (some part, rest) =>
      let (more, rest) ← readParts double fuel rest
      return (part :: more, rest)

/-- The content of a quoted scalar. -/
def read (double : Bool) (s : List Char) : Except Fault (Text × List Char) := do
  let (parts, rest) ← readParts double (s.length + 1) s
  return (.join parts, rest)

end CellNft.Yaml.Quoted
