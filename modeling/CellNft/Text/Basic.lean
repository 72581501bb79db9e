/-
CellNft.Text.Basic — texts.

Escapes in documents can name half of a surrogate pair, which is no character, and a text may hold
such a half wherever it may hold a character. So a text is a sequence of code points and more than a
string.

* `Text.ofString` makes a text of a string, and `Text.string?` gives the string back. A text that
  holds a half has none.
* `Text.chars` is what the readers of numbers, of hex and of other notations look at. There a half
  is the replacement character, which like the half itself means nothing to any of them, so that
  nothing is read that is not there.
-/
namespace CellNft

/-- A character, or half of a surrogate pair without its other half. -/
inductive CodePoint where
  | char (c : Char)
  /-- The half with this number, counted from the first one. -/
  | half (n : Fin 0x800)
deriving DecidableEq, Inhabited

namespace CodePoint

/-- The first half of a surrogate pair, as a number. -/
def firstHalf : Nat := 0xd800

def toNat : CodePoint → Nat
  | char c => c.toNat
  | half n => firstHalf + n

/-- The code point with a number, which is below `0x110000`. -/
def ofNat (n : Nat) : CodePoint :=
  if h : firstHalf ≤ n ∧ n - firstHalf < 0x800 then half ⟨n - firstHalf, h.2⟩
  else char (Char.ofNat n)

def char? : CodePoint → Option Char
  | char c => some c
  | half _ => none

/-- The character; the replacement character for a half. -/
def toChar : CodePoint → Char
  | char c => c
  | half _ => '\ufffd'

end CodePoint

structure Text where
  points : List CodePoint
deriving DecidableEq, Inhabited

namespace Text

def ofChars (s : List Char) : Text := ⟨s.map .char⟩

def ofString (s : String) : Text := ofChars s.toList

instance : Coe String Text := ⟨ofString⟩

instance : Append Text := ⟨fun a b => ⟨a.points ++ b.points⟩⟩

def isEmpty (t : Text) : Bool := t.points.isEmpty

/-- The characters, with the replacement character for every half. -/
def chars (t : Text) : List Char := t.points.map CodePoint.toChar

instance : ToString Text := ⟨fun t => String.ofList t.chars⟩

/-- The string of a text that holds no half. -/
def string? (t : Text) : Option String := (t.points.mapM CodePoint.char?).map String.ofList

/-- The texts one after the other. -/
def join (parts : List Text) : Text := ⟨parts.flatMap points⟩

/-- The texts with another one between each two. -/
def intercalate (sep : Text) (parts : List Text) : Text :=
  ⟨sep.points.intercalate (parts.map points)⟩

end Text
end CellNft
