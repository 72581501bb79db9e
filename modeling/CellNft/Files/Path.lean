/-
CellNft.Files.Path — the paths of files.

A path is its parts between the slashes and the slashes it starts with. Empty parts and single dots
say nothing and are dropped; two dots stay, because what they mean depends on the files.
-/
import CellNft.Fault
import CellNft.Text.Pieces

namespace CellNft.Files

/-- A path without parts that say nothing. -/
structure Path where
  /-- Nothing for a relative path; else one slash, or exactly two. -/
  root : String
  parts : List Text
deriving DecidableEq

namespace Path

/-- The parts of a text that are not empty. -/
def split (text : Text) : List Text := (text.cut '/').filter fun p => !p.isEmpty

/-- The slashes that a path starts with; three or more count as one. -/
def rootOf (text : Text) : String :=
  match (text.points.takeWhile (· = .char '/')).length with
  | 0 => ""
  | 2 => "//"
  | _ => "/"

def ofText (text : Text) : Path :=
  ⟨rootOf text, (split text).filter fun p => p ≠ Text.ofString "."⟩

/-- The text of a path; the path without parts is a dot. -/
def text (p : Path) : Text :=
  let t := p.root ++ Text.intercalate "/" p.parts
  if t.isEmpty then "." else t

def isRelative (p : Path) : Bool := p.root = ""

/-- The name of a file has at most this many bytes. -/
def mostNameBytes : Nat := 255

/-- A path has at most this many bytes. -/
def mostBytes : Nat := 4095

/-- A part as the system knows it: it is a string without zero characters. -/
def systemName (part : Text) : Except Fault String :=
  match part.string? with
  | none => .error .notEncodable
  | some name => if name.contains '\x00' then .error .zeroInName else .ok name

/-- The parts as the system knows them. -/
def systemNames (p : Path) : Except Fault (List String) := p.parts.mapM systemName

end Path
end CellNft.Files
