/-
CellNft.Number.Shortest — the decimal text of a double.

* `Binary64.shortest` finds the fewest significant digits that read back as the same double, and of
  two such numbers of equal length the nearer one.
* `Binary64.text` lays these digits out: positional from `1e-4` up to below `1e16`, in scientific
  form outside, always with a fraction or an exponent.
* `Binary64.ofDecimal` reads a decimal number back.
-/
import CellNft.Number.Binary64

namespace CellNft.Binary64

/-- `10 ^ e` as a rational. -/
def powTen (e : Int) : Rat :=
  if 0 ≤ e then (Nat.pow 10 e.toNat : Rat) else mkRat 1 (Nat.pow 10 (-e).toNat)

/-- The least `k`, from `k` on, with `1 ≤ r * 10 ^ k`. -/
def scaleUp (r : Rat) : Nat → Nat → Nat
  | 0, k => k
  | fuel + 1, k => if 1 ≤ r * powTen k then k else scaleUp r fuel (k + 1)

/-- The exponent `p` with `10 ^ (p - 1) ≤ r < 10 ^ p`, for a positive double `r`. -/
def decimalPoint (r : Rat) : Int :=
  if 1 ≤ r then ((Nat.toDigits 10 r.floor.toNat).length : Int)
  else 1 - (scaleUp r 330 0 : Int)

/-- Of the two neighbours of `r` on the grid of `n` significant digits, the one that reads back as
`r`; the nearer one if both do, and the even one of two equally near. The answer is the digits as a
number of `n` (or, after a carry, `n + 1`) digits. -/
def nearestOnGrid (r : Rat) (p : Int) (n : Nat) : Option Nat :=
  let unit := powTen (p - n)
  let low := (r / unit).floor.toNat
  let readsBack (c : Nat) : Bool := (ofRat ((c : Rat) * unit) false).bits = (ofRat r false).bits
  match readsBack low, readsBack (low + 1) with
  | false, false => none
  | true, false => some low
  | false, true => some (low + 1)
  | true, true =>
    let below := r - (low : Rat) * unit
    let above := ((low + 1 : Nat) : Rat) * unit - r
    if below < above then some low
    else if above < below then some (low + 1)
    else if low % 2 = 0 then some low else some (low + 1)

/-- The first grid, from `n` digits on, with a number that reads back; it has at most 17 digits. -/
def firstGrid (r : Rat) (p : Int) : Nat → Nat → Nat × Nat
  | 0, n => ((r / powTen (p - n)).floor.toNat, n)
  | fuel + 1, n =>
    match nearestOnGrid r p n with
    | some c => (c, n)
    | none => firstGrid r p fuel (n + 1)

/-- The shortest digits of a positive double and the place of the decimal point: the digits
`d₁ d₂ …` with point `p` stand for `0.d₁d₂… * 10 ^ p`. -/
def shortest (r : Rat) : List Char × Int :=
  let p := decimalPoint r
  let (c, n) := firstGrid r p 17 1
  let digits := Nat.toDigits 10 c
  let p := if n < digits.length then p + 1 else p
  let trimmed := (digits.reverse.dropWhile (· = '0')).reverse
  (trimmed, p)

/-- At least two digits of an exponent, with its sign. -/
def exponentText (e : Int) : List Char :=
  let digits := Nat.toDigits 10 e.natAbs
  (if e < 0 then '-' else '+') :: (if digits.length < 2 then '0' :: digits else digits)

/-- The digits with the decimal point at `p`. -/
def layOut (digits : List Char) (p : Int) : List Char :=
  if p ≤ -4 || 16 < p then
    let fraction := digits.drop 1
    digits.take 1 ++ (if fraction.isEmpty then [] else '.' :: fraction)
      ++ 'e' :: exponentText (p - 1)
  else if p ≤ 0 then '0' :: '.' :: (List.replicate (-p).toNat '0' ++ digits)
  else
    let whole := p.toNat
    let padded := digits ++ List.replicate (whole - digits.length) '0'
    let fraction := padded.drop whole
    padded.take whole ++ '.' :: (if fraction.isEmpty then ['0'] else fraction)

/-- The text of a double: the shortest that reads back. -/
def text (x : Binary64) : String :=
  match x.view with
  | .nan => "nan"
  | .infinite negative => if negative then "-inf" else "inf"
  | .finite negative _ _ =>
    let body :=
      if x.isZero then ['0', '.', '0']
      else
        let (digits, p) := shortest ((ofMagnitude false (x.bits % signBit)).toRat?.getD 0)
        layOut digits p
    String.ofList (if negative then '-' :: body else body)

/-- The double nearest to `± digits * 10 ^ exponent`. Exponents far outside the range of doubles are
decided without computing the power. -/
def ofDecimal (negative : Bool) (digits : Nat) (exponent : Int) : Binary64 :=
  let top := exponent + (Nat.toDigits 10 digits).length
  if digits = 0 || top < -400 then zero negative
  else if 400 < top then infinity negative
  else
    let r := (digits : Rat) * powTen exponent
    ofRat (if negative then -r else r) negative

end CellNft.Binary64
