/-
CellNft.Yaml.Token — the tokens of a document, and the small ones among them read from text.

Each reader takes the text behind the character that introduces its token.
-/
import CellNft.Number.Integer
import CellNft.Text.Basic
import CellNft.Yaml.Character

namespace CellNft.Yaml

/-- The line behind a percent sign. -/
inductive Directive where
  | version (major : Nat)
  | tagHandle (handle expansion : String)
  | unknown
deriving DecidableEq

inductive Token where
  | directive (d : Directive)
  | documentStart
  | documentEnd
  -- a block opens where indentation grows and ends where it shrinks
  | blockSequence
  | blockMapping
  | blockEnd
  | entry
  -- collections in brackets
  | sequenceOpen
  | sequenceClose
  | mappingOpen
  | mappingClose
  | comma
  -- the two halves of an entry of a mapping
  | key
  | value
  -- nodes
  | alias (name : String)
  | anchor (name : String)
  | tag (handle : Option String) (suffix : String)
  | scalar (plain : Bool) (text : Text)
  -- an escape with a number that is no code point; nothing follows it
  | noCharacter (code : Nat)
deriving DecidableEq

namespace Token

/-- A name of at least one character. -/
def readName? (s : List Char) : Option (String × List Char) :=
  let name := s.takeWhile isNameChar
  if name.isEmpty then none else some (String.ofList name, s.dropWhile isNameChar)

/-- The punctuation that may follow the name of an anchor directly. -/
def followsName : List Char := "?:,]\x7d%@\x60".toList

/-- The name of an anchor or an alias. -/
def readAnchor (s : List Char) : Option (String × List Char) := do
  let (name, rest) ← readName? s
  if atGap rest || rest.head?.any followsName.contains then return (name, rest) else none

def isUriChar (c : Char) : Bool := isNameChar c || ";/?:@&=+$,.!~*'()[]%".toList.contains c

/-- The bytes of a part of a tag, in which a percent sign starts a byte in hex. -/
def uriBytes : List Char → Option (List UInt8)
  | [] => some []
  | '%' :: a :: b :: rest => do
    let high ← Integer.hexDigit? a
    let low ← Integer.hexDigit? b
    return UInt8.ofNat (high * 16 + low) :: (← uriBytes rest)
  | c :: rest => if c = '%' then none else return UInt8.ofNat c.toNat :: (← uriBytes rest)

/-- A part of a tag of at least one character. -/
def readUri (s : List Char) : Option (String × List Char) := do
  let uri := s.takeWhile isUriChar
  if uri.isEmpty then none
  else
    let bytes ← uriBytes uri
    return (← String.fromUTF8? ⟨bytes.toArray⟩, s.dropWhile isUriChar)

/-- The handle of a tag behind its exclamation mark: nothing more, or a name and another mark. -/
def readHandle (s : List Char) : Option (String × List Char) :=
  if s.head? = some ' ' then some ("!", s)
  else
    match s.dropWhile isNameChar with
    | '!' :: rest => some ("!" ++ String.ofList (s.takeWhile isNameChar) ++ "!", rest)
    | _ => none

/-- A tag: verbatim in angle brackets, the mark alone, or a suffix with or without a handle. -/
def readTag (s : List Char) : Option (Token × List Char) := do
  let (token, rest) ← match s with
    | '<' :: s => do
      let (uri, rest) ← readUri s
      match rest with
      | '>' :: rest => pure (Token.tag none uri, rest)
      | _ => none
    | s =>
      if atGap s then pure (Token.tag none "!", s)
      else do
        let word := s.takeWhile fun c => c ≠ ' ' && !isBreak c
        let (handle, s) ← if word.contains '!' then readHandle s else pure ("!", s)
        let (suffix, rest) ← readUri s
        pure (Token.tag (some handle) suffix, rest)
  if atSpace rest then return (token, rest) else none

def readNumber (s : List Char) : Option (Nat × List Char) := do
  return (← Integer.readDigits 10 (s.takeWhile isDigit), s.dropWhile isDigit)

/-- The two numbers of a version; only the first one counts. -/
def readVersion (s : List Char) : Option (Directive × List Char) := do
  let (major, rest) ← readNumber (s.dropWhile (· = ' '))
  match rest with
  | '.' :: rest => do
    let (_, rest) ← readNumber rest
    if atSpace rest then return (.version major, rest) else none
  | _ => none

/-- A handle of tags and what it stands for. -/
def readTagHandle (s : List Char) : Option (Directive × List Char) := do
  match s.dropWhile (· = ' ') with
  | '!' :: s => do
    let (handle, rest) ← readHandle s
    if rest.head? = some ' ' then
      let (expansion, rest) ← readUri (rest.dropWhile (· = ' '))
      if atSpace rest then return (.tagHandle handle expansion, rest) else none
    else none
  | _ => none

/-- A directive with the line it stands on. -/
def readDirective (s : List Char) : Option (Token × List Char) := do
  let (name, rest) ← readName? s
  if atSpace rest then
    let (d, rest) ←
      if name = "YAML" then readVersion rest
      else if name = "TAG" then readTagHandle rest
      else pure (.unknown, rest.dropWhile fun c => !isBreak c)
    return (.directive d, ← endOfLine? rest)
  else none

end Token
end CellNft.Yaml
