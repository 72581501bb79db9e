/-
CellNft.Yaml.Character — the classes of characters that the grammar of documents is built on.

A text stands here with every line end of the file as one line feed. Three more characters break
lines: next line, which reads as a line feed, and the line and paragraph separators, which keep
their identity.
-/
namespace CellNft.Yaml

/-- Line feed, next line, line separator and paragraph separator. -/
def isBreak (c : Char) : Bool :=
  c = '\n' || c.toNat = 0x85 || c.toNat = 0x2028 || c.toNat = 0x2029

/-- The character a line break stands for inside a scalar. -/
def breakChar (c : Char) : Char := if c.toNat = 0x85 then '\n' else c

def isBlank (c : Char) : Bool := c = ' ' || c = '\t'

def isGap (c : Char) : Bool := isBlank c || isBreak c

/-- Whether the text ends here, or goes on with a blank or a line break. -/
def atGap : List Char → Bool
  | [] => true
  | c :: _ => isGap c

/-- Whether the text ends here, or goes on with a space or a line break. -/
def atSpace : List Char → Bool
  | [] => true
  | c :: _ => c = ' ' || isBreak c

/-- Whether a line that starts here starts or ends a document. -/
def isMarker : List Char → Bool
  | '-' :: '-' :: '-' :: rest => atGap rest
  | '.' :: '.' :: '.' :: rest => atGap rest
  | _ => false

/-- A letter, a digit, a hyphen or an underscore, all of ASCII. -/
def isNameChar (c : Char) : Bool :=
  ('0' ≤ c && c ≤ '9') || ('A' ≤ c && c ≤ 'Z') || ('a' ≤ c && c ≤ 'z') || c = '-' || c = '_'

def isDigit (c : Char) : Bool := '0' ≤ c && c ≤ '9'

/-- The characters a document may hold: no control characters but tab and the line breaks. -/
def isAllowed (c : Char) : Bool :=
  let n := c.toNat
  n = 0x09 || n = 0x0a || (0x20 ≤ n && n ≤ 0x7e) || n = 0x85 || (0xa0 ≤ n && n ≤ 0xfffd)
    || 0x10000 ≤ n

/-- What line breaks between two lines of running text stand for: a single line feed is a space, of
several the first is dropped, and a first break of another kind stays. -/
def folded (first : Char) (more : List Char) : List Char :=
  if first ≠ '\n' then first :: more
  else if more.isEmpty then [' ']
  else more

/-- The text behind the rest of a line that may hold spaces and a comment only. -/
def endOfLine? (s : List Char) : Option (List Char) :=
  let s := s.dropWhile (· = ' ')
  let s := if s.head? = some '#' then s.dropWhile fun c => !isBreak c else s
  match s with
  | [] => some []
  | c :: rest => if isBreak c then some rest else none

end CellNft.Yaml
