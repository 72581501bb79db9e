/-
CellNft.Number.Binary64 — double precision numbers, decided by their 64 bits.

* `Binary64.view` splits the bits into sign, significand and exponent.
* `Binary64.ofRat` rounds a rational to the nearest double, ties to the even significand, and
  overflows to infinity.
* `add`, `sub`, `mul` and `lt` are exact rational arithmetic followed by one rounding. What is no
  number goes through an operation unchanged.

All of it is computed on `Nat`, `Int` and `Rat`, so it can be reasoned about and evaluated alike.
-/
namespace CellNft

/-- A double precision number, given by its bits in the interchange format. -/
structure Binary64 where
  bits : Nat
deriving DecidableEq, Inhabited

namespace Binary64

/-- What the bits of a double stand for. -/
inductive View where
  | nan
  | infinite (negative : Bool)
  /-- The number `± significand * 2 ^ exponent`. -/
  | finite (negative : Bool) (significand : Nat) (exponent : Int)
deriving DecidableEq

/-- The bit pattern of positive infinity; every finite magnitude is below it. -/
def infinityBits : Nat := 0x7ff0000000000000

/-- The weight of the sign bit. -/
def signBit : Nat := 0x8000000000000000

/-- The weight of the lowest bit of the exponent. -/
def exponentUnit : Nat := 0x10000000000000

def view (x : Binary64) : View :=
  let negative := signBit ≤ x.bits
  let magnitude : Nat := x.bits % signBit
  if infinityBits < magnitude then .nan
  else if magnitude = infinityBits then .infinite negative
  else
    let biased : Nat := magnitude / exponentUnit
    let fraction : Nat := magnitude % exponentUnit
    if biased = 0 then .finite negative fraction (-1074)
    else .finite negative (fraction + exponentUnit) ((biased : Int) - 1075)

/-- The double with the given magnitude bits and sign. -/
def ofMagnitude (negative : Bool) (magnitude : Nat) : Binary64 :=
  ⟨if negative then signBit + magnitude else magnitude⟩

def nan : Binary64 := ⟨0x7ff8000000000000⟩

/-- The result of an operation on numbers that has none; it carries a sign. -/
def indefinite : Binary64 := ⟨0xfff8000000000000⟩

def infinity (negative : Bool) : Binary64 := ofMagnitude negative infinityBits
def zero (negative : Bool) : Binary64 := ofMagnitude negative 0

/-- `2 ^ e` as a rational. -/
def powTwo (e : Int) : Rat :=
  if 0 ≤ e then (Nat.pow 2 e.toNat : Rat) else mkRat 1 (Nat.pow 2 (-e).toNat)

/-- The quotient `n / d` rounded to the nearest natural number, a half going to the even one. -/
def roundHalfEven (n d : Nat) : Nat :=
  let q := n / d
  let r := n % d
  if 2 * r < d then q
  else if d < 2 * r then q + 1
  else if q % 2 = 0 then q else q + 1

/-- The greatest `e` with `2 ^ e ≤ n / d`, for positive `n` and `d`. -/
def floorLog2 (n d : Nat) : Int :=
  let e : Int := (n.log2 : Int) - d.log2
  let fits := if 0 ≤ e then d <<< e.toNat ≤ n else d ≤ n <<< (-e).toNat
  if fits then e else e - 1

/-- The magnitude bits of the double nearest to `n / d`, at most those of infinity. A significand
that rounds up to `2 ^ 53` carries into the exponent field, which is what it should do. -/
def magnitudeOfRatio (n d : Nat) : Nat :=
  if n = 0 then 0
  else
    let q := max (-1074) (floorLog2 n d - 52)
    let m :=
      if 0 ≤ q then roundHalfEven n (d <<< q.toNat) else roundHalfEven (n <<< (-q).toNat) d
    if 971 < q then infinityBits
    else min infinityBits ((q + 1074).toNat * exponentUnit + m)

/-- The double nearest to a rational; `negativeZero` decides the sign of a zero. -/
def ofRat (r : Rat) (negativeZero : Bool) : Binary64 :=
  if r.num = 0 then zero negativeZero
  else ofMagnitude (r.num < 0) (magnitudeOfRatio r.num.natAbs r.den)

/-- The value of a finite double. -/
def toRat? (x : Binary64) : Option Rat :=
  match x.view with
  | .finite negative m e => some ((if negative then -1 else 1) * (m : Rat) * powTwo e)
  | _ => none

def isNegative (x : Binary64) : Bool := signBit ≤ x.bits

def isZero (x : Binary64) : Bool := x.bits % signBit = 0

def neg (x : Binary64) : Binary64 :=
  if x.isNegative then ⟨x.bits % signBit⟩ else ⟨x.bits + signBit⟩

def add (x y : Binary64) : Binary64 :=
  match x.view, y.view with
  | .nan, _ => x
  | _, .nan => y
  | .infinite a, .infinite b => if a = b then infinity a else indefinite
  | .infinite a, _ | _, .infinite a => infinity a
  | .finite .., .finite .. =>
    ofRat (x.toRat?.getD 0 + y.toRat?.getD 0) (x.isNegative && y.isNegative)

def sub (x y : Binary64) : Binary64 :=
  match y.view with
  | .nan => x.add y
  | _ => x.add y.neg

def mul (x y : Binary64) : Binary64 :=
  let negative := x.isNegative != y.isNegative
  match x.view, y.view with
  | .nan, _ => x
  | _, .nan => y
  | .infinite _, _ | _, .infinite _ =>
    if x.isZero || y.isZero then indefinite else infinity negative
  | .finite .., .finite .. => ofRat (x.toRat?.getD 0 * y.toRat?.getD 0) negative

/-- The order of the numbers; nothing compares with a NaN. -/
def lt (x y : Binary64) : Bool :=
  match x.view, y.view with
  | .nan, _ | _, .nan => false
  | .infinite a, .infinite b => a && !b
  | .infinite a, .finite .. => a
  | .finite .., .infinite b => !b
  | .finite .., .finite .. => x.toRat?.getD 0 < y.toRat?.getD 0

/-- Equality of the numbers: both zeros are one number, a NaN equals nothing. -/
def eq (x y : Binary64) : Bool :=
  match x.view, y.view with
  | .nan, _ | _, .nan => false
  | _, _ => x.bits = y.bits || (x.isZero && y.isZero)

/-- The integer towards zero of a finite double. -/
def truncate? (x : Binary64) : Option Int :=
  x.toRat?.map fun r => if 0 ≤ r then r.floor else r.ceil

end Binary64
end CellNft
