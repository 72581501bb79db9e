/-
CellNft.Number.Decimal — doubles read from decimal text.

`Decimal.read?` takes a number with optional blanks around it: one sign, then digits of any script
with a point among them or beside them, and an exponent perhaps. The words for infinity and for what
is no number are read in any case. The result is the nearest double.
-/
import CellNft.Number.Shortest
import CellNft.Text.Blank
import CellNft.Text.Digit

namespace CellNft.Decimal

def isDigit (c : Char) : Bool := (Text.decimalDigit? c).isSome

/-- The number that digits stand for. -/
def value (digits : List Char) : Nat :=
  digits.foldl (fun n c => n * 10 + (Text.decimalDigit? c).getD 0) 0

/-- Whether a minus sign leads, and the text behind a sign. -/
def splitSign : List Char → Bool × List Char
  | '-' :: rest => (true, rest)
  | '+' :: rest => (false, rest)
  | s => (false, s)

/-- The exponent of ten at the end of a number; nothing is zero. -/
def exponent? : List Char → Option Int
  | [] => some 0
  | e :: s =>
    let (negative, digits) := splitSign s
    if (e = 'e' || e = 'E') && !digits.isEmpty && digits.all isDigit then
      some (if negative then -(value digits : Int) else value digits)
    else none

/-- A number without its sign. -/
def readUnsigned (negative : Bool) (s : List Char) : Option Binary64 :=
  let word := String.ofList (s.map Char.toLower)
  if word = "inf" || word = "infinity" then some (Binary64.infinity negative)
  else if word = "nan" then some (if negative then Binary64.nan.neg else Binary64.nan)
  else do
    let whole := s.takeWhile isDigit
    let (fraction, rest) := match s.dropWhile isDigit with
      | '.' :: rest => (rest.takeWhile isDigit, rest.dropWhile isDigit)
      | rest => ([], rest)
    let exponent ← exponent? rest
    if whole.isEmpty && fraction.isEmpty then none
    else return Binary64.ofDecimal negative (value (whole ++ fraction)) (exponent - fraction.length)

/-- The double nearest to a number. -/
def read? (s : List Char) : Option Binary64 :=
  let (negative, magnitude) := splitSign (Text.trim Text.isBlank s)
  readUnsigned negative magnitude

end CellNft.Decimal
