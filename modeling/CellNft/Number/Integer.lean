/-
CellNft.Number.Integer — whole numbers in hex and in decimal text.

* `Integer.hexText` writes `0x` and the lower case digits, with a minus sign in front of negative
  numbers; there are no leading zeros.
* `Integer.read?` reads a numeral: blanks around it, one sign, a mark of the base such as `0x`, then
  digits of any script, with single underscores between them and behind the mark.
* `Integer.excess?` says how many digits a decimal numeral has that is too long to be read.
-/
import CellNft.Text.Blank
import CellNft.Text.Digit

namespace CellNft.Integer

/-- The value of an ASCII hex digit. -/
def hexDigit? (c : Char) : Option Nat :=
  if '0' ≤ c ∧ c ≤ '9' then some (c.toNat - 0x30)
  else if 'a' ≤ c ∧ c ≤ 'f' then some (c.toNat - 0x57)
  else if 'A' ≤ c ∧ c ≤ 'F' then some (c.toNat - 0x37)
  else none

/-- The value of a digit of a numeral: a decimal digit of any script or a hex letter, below the
base. -/
def digit? (base : Nat) (c : Char) : Option Nat := do
  let d ← match Text.decimalDigit? c with
    | some d => some d
    | none => hexDigit? c
  if d < base then some d else none

/-- The value of the digits that follow a digit; an underscore must have a digit behind it. -/
def readOn (base value : Nat) : List Char → Option Nat
  | [] => some value
  | '_' :: c :: rest =>
    match digit? base c with
    | some d => readOn base (value * base + d) rest
    | none => none
  | c :: rest =>
    match digit? base c with
    | some d => readOn base (value * base + d) rest
    | none => none

/-- The value of a digit sequence that starts with a digit. -/
def readDigits (base : Nat) : List Char → Option Nat
  | [] => none
  | c :: rest =>
    match digit? base c with
    | some d => readOn base d rest
    | none => none

/-- Whether a letter behind a zero marks the base of a numeral. -/
def marksBase (base : Nat) (c : Char) : Bool :=
  match base with
  | 2 => c = 'b' || c = 'B'
  | 8 => c = 'o' || c = 'O'
  | 16 => c = 'x' || c = 'X'
  | _ => false

/-- The value of a numeral without its sign. -/
def readUnsigned (base : Nat) : List Char → Option Nat
  | z :: x :: rest =>
    if Text.decimalDigit? z = some 0 ∧ marksBase base x then
      match rest with
      | '_' :: digits => readDigits base digits
      | digits => readDigits base digits
    else readDigits base (z :: x :: rest)
  | s => readDigits base s

/-- The value of a numeral with an optional sign. -/
def readSigned (base : Nat) : List Char → Option Int
  | '-' :: rest => (readUnsigned base rest).map fun n => -(n : Int)
  | '+' :: rest => (readUnsigned base rest).map fun n => (n : Int)
  | s => (readUnsigned base s).map fun n => (n : Int)

/-- The value of a numeral with optional blanks around it. -/
def read? (base : Nat) (s : List Char) : Option Int :=
  readSigned base (Text.trim Text.isBlank s)

/-- A decimal numeral may have this many digits, zeros in front included. -/
def mostDigits : Nat := 4300

/-- Whether a number has more digits than that, so that it is not written as a decimal numeral. -/
def exceeds (n : Int) : Bool := Nat.pow 10 mostDigits ≤ n.natAbs

/-- How many digits a decimal numeral starts with, if there are too many; what stands behind them
does not matter. -/
def excess? (s : List Char) : Option Nat :=
  let unsigned := match Text.trim Text.isBlank s with
    | '-' :: rest | '+' :: rest => rest
    | s => s
  let run := unsigned.takeWhile fun c => (digit? 10 c).isSome || c = '_'
  let count := (run.filter (· ≠ '_')).length
  if mostDigits < count && (readDigits 10 run).isSome then some count else none

/-- The digits of a number in hex. -/
def hexDigits (n : Nat) : List Char := Nat.toDigits 16 n

/-- The hex text of a whole number. -/
def hexText (n : Int) : List Char :=
  if n < 0 then '-' :: '0' :: 'x' :: hexDigits n.natAbs else '0' :: 'x' :: hexDigits n.natAbs

end CellNft.Integer
