/-
CellNft.Yaml.Plain — scalars without quotes.

A plain scalar runs over words and the gaps between them. It ends before `: ` and ` #`, inside
brackets also before their punctuation, and where a line is not indented deeply enough.
-/
import CellNft.Yaml.Character

namespace CellNft.Yaml.Plain

/-- The brackets and the comma of flow collections. -/
def isFlowIndicator (c : Char) : Bool :=
  c = ',' || c = '[' || c = ']' || c = '\x7b' || c = '\x7d'

/-- The characters with a meaning of their own at the start of a token. -/
def indicators : List Char := "-?:,[]\x7b\x7d#&*!|>'\"%@\x60".toList

/-- Whether a plain scalar can start here. -/
def startsHere (flow : Bool) : List Char → Bool
  | [] => false
  | c :: rest =>
    (!isGap c && !indicators.contains c)
      || (!atGap rest && (c = '-' || (!flow && (c = '?' || c = ':'))))

/-- Whether a word ends before this place. -/
def endsHere (flow : Bool) : List Char → Bool
  | [] => true
  | c :: rest =>
    isGap c || (c = ':' && (atGap rest || (flow && rest.head?.any isFlowIndicator)))
      || (flow && (c = '?' || isFlowIndicator c))

/-- The longest word at the start of a text, and what follows. -/
def word (flow : Bool) : List Char → List Char × List Char
  | [] => ([], [])
  | c :: rest =>
    if endsHere flow (c :: rest) then ([], c :: rest)
    else
      let (w, rest) := word flow rest
      (c :: w, rest)

/-- Where running text goes on behind a line break. -/
structure NextLine where
  /-- The breaks of blank lines in between; nothing if the document ends here. -/
  breaks : Option (List Char)
  /-- How far the next word is indented. -/
  column : Nat
  rest : List Char

/-- The next line with text on it, from the start of a line. -/
def nextLine : Nat → List Char → NextLine
  | 0, s => ⟨none, 0, s⟩
  | fuel + 1, s =>
    if isMarker s then ⟨none, 0, s⟩
    else
      let spaces := s.takeWhile (· = ' ')
      match s.dropWhile (· = ' ') with
      | [] => ⟨some [], spaces.length, []⟩
      | c :: rest =>
        if isBreak c then
          let next := nextLine fuel rest
          { next with breaks := next.breaks.map (breakChar c :: ·) }
        else ⟨some [], spaces.length, c :: rest⟩

/-- A scalar that has been read. -/
structure Extent where
  content : List Char
  rest : List Char
  /-- Whether a line break was passed behind the last word. -/
  newLine : Bool

/-- The words from here on, each after the text that stands for the gap before it. -/
def readWords (flow : Bool) (indent : Nat) : Nat → List Char → Bool → List Char → Extent
  | 0, _, newLine, s => ⟨[], s, newLine⟩
  | fuel + 1, gap, newLine, s =>
    let (w, rest) := word flow s
    if w.isEmpty || s.head? = some '#' then ⟨[], s, newLine⟩
    else
      let spaces := rest.takeWhile (· = ' ')
      let after : Extent :=
        match rest.dropWhile (· = ' ') with
        | [] => ⟨[], [], false⟩
        | c :: behind =>
          if isBreak c then
            let next := nextLine (behind.length + 1) behind
            match next.breaks with
            | none => ⟨[], next.rest, true⟩
            | some breaks =>
              if !flow && next.column < indent then ⟨[], next.rest, true⟩
              else readWords flow indent fuel (folded (breakChar c) breaks) true next.rest
          else if spaces.isEmpty then ⟨[], c :: behind, false⟩
          else readWords flow indent fuel spaces false (c :: behind)
      { after with content := gap ++ w ++ after.content }

/-- A plain scalar; lines after its first must be indented by `indent` outside brackets. -/
def read (flow : Bool) (indent : Nat) (s : List Char) : Extent :=
  readWords flow indent (s.length + 1) [] false s

end CellNft.Yaml.Plain
