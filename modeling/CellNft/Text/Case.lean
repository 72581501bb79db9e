/-
CellNft.Text.Case — lower case and title case of text, over all of Unicode 14.0.

* `lower` maps every character to lower case; a capital sigma at the end of a word becomes the final
  form.
* `title` gives title case to each cased character that follows no cased character, and lower case
  to each that does.

Both walk the text from left to right and carry the code points passed so far, last one first,
because the sigma rule looks both ways. ASCII characters take a branch of their own.
-/
import CellNft.Text.Basic
import CellNft.Text.CaseTable
import CellNft.Text.Range

namespace CellNft.Text

namespace CaseRun

def covers (r : CaseRun) (n : Nat) : Bool :=
  r.first ≤ n && n ≤ r.last && (n - r.first) % r.step = 0

end CaseRun

/-- The character a list of runs maps `c` to, which is `c` itself outside all runs. -/
def moveBy (runs : List CaseRun) (c : Char) : Char :=
  match runs.find? (·.covers c.toNat) with
  | some r => Char.ofNat (c.toNat + r.delta).toNat
  | none => c

/-- The full mapping: an expansion if there is one, else one character. -/
def mapWide (expansions : List (Nat × List Nat)) (runs : List CaseRun) (c : Char) : List Char :=
  match expansions.lookup c.toNat with
  | some codes => codes.map Char.ofNat
  | none => [moveBy runs c]

def isCased (p : CodePoint) : Bool := inRanges casedRanges p.toNat

def isCaseIgnorable (p : CodePoint) : Bool := inRanges ignorableRanges p.toNat

/-- Lower case of a character regardless of its neighbours. -/
def lowerChar (c : Char) : List Char :=
  if c.toNat < 0x80 then [c.toLower] else mapWide lowerExpansions lowerRuns c

/-- Title case of a character. -/
def titleChar (c : Char) : List Char :=
  if c.toNat < 0x80 then [c.toUpper] else mapWide titleExpansions titleRuns c

/-- Maps a character; what is no character has no case. -/
def mapPoint (f : Char → List Char) : CodePoint → List CodePoint
  | .char c => (f c).map .char
  | p => [p]

/-- Whether the first code point that is not looked through is cased. -/
def meetsCased (s : List CodePoint) : Bool :=
  ((s.dropWhile isCaseIgnorable).head?.map isCased).getD false

/-- Lower case of `p` between the code points `before` it, last one first, and `after` it. -/
def lowerAt (before : List CodePoint) (p : CodePoint) (after : List CodePoint) : List CodePoint :=
  if p = .char 'Σ' then
    [.char (if meetsCased before && !meetsCased after then 'ς' else 'σ')]
  else mapPoint lowerChar p

def lowerFrom (before : List CodePoint) : List CodePoint → List CodePoint
  | [] => []
  | p :: rest => lowerAt before p rest ++ lowerFrom (p :: before) rest

def titleFrom (before : List CodePoint) : List CodePoint → List CodePoint
  | [] => []
  | p :: rest =>
    (if (before.head?.map isCased).getD false then lowerAt before p rest
      else mapPoint titleChar p)
      ++ titleFrom (p :: before) rest

/-- The text in lower case. -/
def lower (t : Text) : Text := ⟨lowerFrom [] t.points⟩

/-- The text in title case. -/
def title (t : Text) : Text := ⟨titleFrom [] t.points⟩

end CellNft.Text
