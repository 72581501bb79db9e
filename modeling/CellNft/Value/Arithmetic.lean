/-
CellNft.Value.Arithmetic — sums, differences and products of scalars, and reading a value as a whole
number.

Texts can be added, multiplied with a whole number, and compared. Any other scalar that is no number
is `Fault.wrongType` here, and a whole number that has to become a double and is too large for one
is `Fault.beyondDouble`.
-/
import CellNft.Value.Access
import CellNft.Value.Numeral

namespace CellNft

namespace Scalar

def ofNumber : Number → Scalar
  | .int n => .int n
  | .float x => .float x

def calculate (op : Number → Number → Option Number) (a b : Scalar) : Except Fault Scalar :=
  match a.number?, b.number? with
  | some x, some y =>
    match op x y with
    | some z => .ok (ofNumber z)
    | none => .error .beyondDouble
  | _, _ => .error .wrongType

/-- A text longer than this does not fit into memory. -/
def mostPoints : Nat := 0x100000000

/-- A text several times; a negative number counts as zero. -/
def repeated (t : Text) (times : Scalar) : Except Fault Scalar :=
  match (Value.scalar times).index? with
  | none => .error .wrongType
  | some n =>
    if 0x8000000000000000 ≤ n.natAbs || mostPoints < n.toNat * t.points.length then .error .countTooLarge
    else if t.isEmpty then .ok (.str t)
    else .ok (.str (.join (List.replicate n.toNat t)))

/-- The sum of numbers; of texts, one behind the other. -/
def add : Scalar → Scalar → Except Fault Scalar
  | .str s, .str t => .ok (.str (s ++ t))
  | a, b => calculate Number.add a b

def sub : Scalar → Scalar → Except Fault Scalar := calculate Number.sub

/-- The product of numbers; of a text and a whole number, the text so many times. -/
def mul : Scalar → Scalar → Except Fault Scalar
  | .str t, b => repeated t b
  | a, .str t => repeated t a
  | a, b => calculate Number.mul a b

/-- Whether one number is below another, or one text before another in the order of code points. -/
def below : Scalar → Scalar → Except Fault Bool
  | .str s, .str t => .ok (s.points.map CodePoint.toNat < t.points.map CodePoint.toNat)
  | a, b =>
    match a.number?, b.number? with
    | some x, some y => .ok (x.lt y)
    | _, _ => .error .wrongType

end Scalar

namespace Value

/-- The scalar that a value is. -/
def toScalar : Value → Except Fault Scalar
  | .scalar s => .ok s
  | _ => .error .wrongType

/-- A value as a whole number: a number is cut towards zero, a text or bytes must be a decimal
numeral. -/
def toInt : Value → Except Fault Int
  | .int n => .ok n
  | .bool b => .ok (if b then 1 else 0)
  | .float x =>
    match x.view with
    | .nan => .error (.notFinite false)
    | .infinite _ => .error (.notFinite true)
    | .finite .. => .ok (x.truncate?.getD 0)
  | .str t => Numeral.integer 10 t
  | .bytes b => Numeral.integerOfBytes 10 b
  | _ => .error .wrongType

end Value
end CellNft
