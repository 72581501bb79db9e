/-
CellNft.Logging.Pattern — the pattern that the name of a log file is given by.

A pattern is text with fields in braces; two braces of a kind stand for one brace. The only field
with a meaning is `time`. Time does not pass here, so it stays as it is written.

* `Pattern.read` takes a pattern apart. A field is a name, perhaps an exclamation mark and one
  character, and perhaps a colon and a format, in which braces must match.
* `Pattern.expand` puts the name of a file together. Fields without a name, or with a number as a
  name, mean nothing in a pattern, and neither does a name other than `time`.
-/
import CellNft.Text.Basic
import CellNft.Text.Digit

namespace CellNft.Logging.Pattern

/-- What makes a pattern the name of no file. -/
inductive Flaw where
  | loneOpen
  | loneClose
  | openInField
  | noConversion
  | behindConversion
  | openFormat
  | openField
  | positional
  | unknownField (key : Text)
deriving DecidableEq, Inhabited

/-- A part of a pattern. -/
inductive Part where
  | literal (text : List CodePoint)
  /-- A field with its name and with all that stands between the braces. -/
  | field (name written : List CodePoint)

def opening : CodePoint := .char '\x7b'

def closing : CodePoint := .char '\x7d'

/-- The name of a field, up to the character behind it that ends it. Between square brackets no
character does. -/
def fieldName (bracketed : Bool) :
    List CodePoint → Except Flaw (List CodePoint × List CodePoint)
  | [] => .error .openField
  | p :: rest =>
    if bracketed then do
      let (name, rest) ← fieldName (p ≠ .char ']') rest
      return (p :: name, rest)
    else if p = opening then .error .openInField
    else if p = closing || p = .char ':' || p = .char '!' then .ok ([], p :: rest)
    else do
      let (name, rest) ← fieldName (p = .char '[') rest
      return (p :: name, rest)

/-- What follows the format of a field, which may hold further fields. -/
def behindFormat : (depth : Nat) → List CodePoint → Except Flaw (List CodePoint)
  | _, [] => .error .openFormat
  | depth, p :: rest =>
    if p = opening then behindFormat (depth + 1) rest
    else if p = closing then
      match depth with
      | 0 => .ok rest
      | depth + 1 => behindFormat depth rest
    else behindFormat depth rest

/-- What follows a field, from the character that ends its name on. -/
def behindName : List CodePoint → Except Flaw (List CodePoint)
  | [] => .error .openField
  | .char '!' :: rest =>
    match rest with
    | [] => .error .noConversion
    | [_] => .error .openFormat
    | _ :: p :: rest =>
      if p = closing then .ok rest
      else if p = .char ':' then behindFormat 0 rest
      else .error .behindConversion
  | p :: rest => if p = closing then .ok rest else behindFormat 0 rest

/-- The part that a pattern starts with, and the rest of it. -/
def readPart : List CodePoint → Except Flaw (Part × List CodePoint)
  | [] => .ok (.literal [], [])
  | p :: rest =>
    if p = opening || p = closing then
      match rest with
      | [] => .error (if p = opening then .loneOpen else .loneClose)
      | q :: behind =>
        if q = p then .ok (.literal [p], behind)
        else if p = closing then .error .loneClose
        else do
          let (name, ending) ← fieldName false rest
          let behind ← behindName ending
          return (.field name (rest.take (rest.length - behind.length - 1)), behind)
    else .ok (.literal [p], rest)

/-- The parts of a pattern. Each takes at least one character, so its length is fuel enough. -/
def readParts : (fuel : Nat) → List CodePoint → Except Flaw (List Part)
  | 0, _ | _, [] => .ok []
  | fuel + 1, s => do
    let (part, rest) ← readPart s
    return part :: (← readParts fuel rest)

def read (pattern : Text) : Except Flaw (List Part) :=
  readParts pattern.points.length pattern.points

/-- The key that a field asks for: its name up to the first point or bracket. -/
def key (name : List CodePoint) : List CodePoint :=
  name.takeWhile fun p => p ≠ .char '.' && p ≠ .char '['

/-- Whether a key is a place in a row and no name. -/
def isPositional (key : List CodePoint) : Bool :=
  key.all fun p => (Text.decimalDigit? p.toChar).isSome

/-- What stands for a part in the name of a file. -/
def expandPart : Part → Except Flaw Text
  | .literal text => .ok ⟨text⟩
  | .field name written =>
    if isPositional (key name) then .error .positional
    else if key name = Text.points "time" then .ok ⟨opening :: written ++ [closing]⟩
    else .error (.unknownField ⟨key name⟩)

/-- The name of a file. -/
def expand (parts : List Part) : Except Flaw Text := return .join (← parts.mapM expandPart)

end CellNft.Logging.Pattern
