/-
CellNft.Text.Blank — blank characters.

* `isAsciiBlank` are the blanks that may stand between the bytes of a hex text.
* `isBlank` are the blanks that may surround a numeral: the ASCII ones and the white space of
  Unicode 14.0 outside ASCII.
-/
namespace CellNft.Text

/-- Space, tab, line feed, vertical tab, form feed and carriage return. -/
def isAsciiBlank (c : Char) : Bool :=
  c.toNat = 0x20 || (0x09 ≤ c.toNat && c.toNat ≤ 0x0d)

/-- The blanks outside ASCII. -/
def wideBlanks : List Nat := [
  0x85, 0xa0, 0x1680, 0x2000, 0x2001, 0x2002, 0x2003, 0x2004, 0x2005, 0x2006, 0x2007, 0x2008,
  0x2009, 0x200a, 0x2028, 0x2029, 0x202f, 0x205f, 0x3000]

def isBlank (c : Char) : Bool := isAsciiBlank c || wideBlanks.contains c.toNat

/-- The text without the blanks at both ends. -/
def trim (isSpace : Char → Bool) (s : List Char) : List Char :=
  ((s.dropWhile isSpace).reverse.dropWhile isSpace).reverse

end CellNft.Text
