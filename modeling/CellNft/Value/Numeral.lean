/-
CellNft.Value.Numeral — texts and bytes that must be numbers.

* `Numeral.integer` reads a whole number in a base. A decimal numeral may not be longer than
  `Integer.mostDigits`, and this is found out before what stands behind the digits.
* `Numeral.integerOfBytes` reads the characters of ASCII bytes in the same way.
* `Numeral.double` reads a decimal number as a double.
-/
import CellNft.Fault
import CellNft.Number.Decimal

namespace CellNft.Numeral

/-- The whole number that the characters of a literal stand for. -/
def read (base : Nat) (literal : Scalar) (s : List Char) : Except Fault Int :=
  match if base = 10 then Integer.excess? s else none with
  | some count => .error (.tooManyDigits count)
  | none =>
    match Integer.read? base s with
    | some n => .ok n
    | none => .error (.notInteger base literal)

/-- The whole number a text stands for. -/
def integer (base : Nat) (t : Text) : Except Fault Int := read base (.str t) t.chars

/-- The whole number bytes stand for. A failure names no more than the first two hundred. -/
def integerOfBytes (base : Nat) (b : Bytes) : Except Fault Int :=
  read base (.bytes (b.take 200)) b.asciiChars

/-- The double a text stands for. -/
def double (t : Text) : Except Fault Binary64 :=
  match Decimal.read? t.chars with
  | some x => .ok x
  | none => .error (.notDecimal t)

end CellNft.Numeral
