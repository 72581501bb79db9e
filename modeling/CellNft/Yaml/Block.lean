/-
CellNft.Yaml.Block — scalars that are written as indented lines.

After `|` the lines are kept as they are, after `>` they are folded, except around lines that start
with a blank. A `-` in the header drops the last line break, a `+` keeps all blank lines at the end,
and a digit fixes the indentation, which otherwise is that of the deepest line before the text
starts.
-/
import CellNft.Yaml.Character

namespace CellNft.Yaml.Block

/-- What becomes of the line breaks at the end. -/
inductive Ending where
  | drop | one | all
deriving DecidableEq

/-- The header of a scalar. -/
structure Header where
  ending : Ending
  /-- The indentation relative to the surrounding block, if it is fixed. -/
  indent : Option Nat

def readEnding : List Char → Option Ending × List Char
  | '+' :: rest => (some .all, rest)
  | '-' :: rest => (some .drop, rest)
  | s => (none, s)

/-- A digit from one to nine; there is no indentation by zero. -/
def readIndent : List Char → Option (Option Nat × List Char)
  | c :: rest =>
    if c = '0' then none
    else if '1' ≤ c ∧ c ≤ '9' then some (some (c.toNat - 0x30), rest)
    else some (none, c :: rest)
  | [] => some (none, [])

/-- The header, in which ending and indentation may stand in either order, with the text of the
following line. -/
def readHeader (s : List Char) : Option (Header × List Char) := do
  let (before, s) := readEnding s
  let (indent, s) ← readIndent s
  let (ending, s) := if before.isNone && indent.isSome then readEnding s else (before, s)
  if atSpace s then return (⟨ending.getD .one, indent⟩, ← endOfLine? s) else none

/-- Blank lines at the start of a scalar. -/
structure Leading where
  breaks : List Char
  /-- The widest run of spaces at the start of a line. -/
  widest : Nat
  column : Nat
  rest : List Char

/-- The blank lines before the text of a scalar whose indentation is not fixed. -/
def leading (column widest : Nat) : List Char → Leading
  | [] => ⟨[], widest, column, []⟩
  | c :: rest =>
    if c = ' ' then leading (column + 1) (max widest (column + 1)) rest
    else if isBreak c then
      let l := leading 0 widest rest
      { l with breaks := breakChar c :: l.breaks }
    else ⟨[], widest, column, c :: rest⟩

/-- The blank lines from here on: their breaks, the column that is reached, at most `indent` in a
line with text, and the text from there. -/
def blankLines (indent column : Nat) : List Char → List Char × Nat × List Char
  | [] => ([], column, [])
  | c :: rest =>
    if c = ' ' && column < indent then blankLines indent (column + 1) rest
    else if isBreak c then
      let (breaks, column, rest) := blankLines indent 0 rest
      (breakChar c :: breaks, column, rest)
    else ([], column, c :: rest)

/-- The lines of a scalar. -/
structure Lines where
  content : List Char
  /-- The break of the last line, if it has one. -/
  last : List Char
  /-- The breaks of the blank lines at the end. -/
  trailing : List Char
  rest : List Char

def startsBlank (s : List Char) : Bool := s.head?.any isBlank

/-- The lines from here on; `breaks` are those of the blank lines before them. -/
def readLines (fold : Bool) (indent : Nat) : Nat → List Char → Nat → List Char → Lines
  | 0, breaks, _, s => ⟨[], [], breaks, s⟩
  | fuel + 1, breaks, column, s =>
    if column ≠ indent || s.isEmpty then ⟨[], [], breaks, s⟩
    else
      let line := s.takeWhile fun c => !isBreak c
      let behind := s.dropWhile fun c => !isBreak c
      let last := (behind.take 1).map breakChar
      let (blank, column, rest) := blankLines indent 0 (behind.drop 1)
      if column = indent && !rest.isEmpty then
        let joint :=
          if fold && last = ['\n'] && !startsBlank s && !startsBlank rest then
            (if blank.isEmpty then [' '] else [])
          else last
        let more := readLines fold indent fuel blank column rest
        { more with content := breaks ++ line ++ joint ++ more.content }
      else ⟨breaks ++ line, last, blank, rest⟩

/-- The content of a scalar inside a block whose items are indented by `least` at the least; the
text starts behind its `|` or `>`. -/
def read (fold : Bool) (least : Nat) (s : List Char) : Option (List Char × List Char) := do
  let (header, s) ← readHeader s
  let least := max least 1
  let lines := match header.indent with
    | some n =>
      let indent := least + n - 1
      let (breaks, column, rest) := blankLines indent 0 s
      readLines fold indent (rest.length + 1) breaks column rest
    | none =>
      let l := leading 0 0 s
      readLines fold (max least l.widest) (l.rest.length + 1) l.breaks l.column l.rest
  let ending := match header.ending with
    | .drop => []
    | .one => lines.last
    | .all => lines.last ++ lines.trailing
  return (lines.content ++ ending, lines.rest)

end CellNft.Yaml.Block
