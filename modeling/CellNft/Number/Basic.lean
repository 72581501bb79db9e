/-
CellNft.Number.Basic — numbers as settings and replies hold them: whole numbers of any size and
doubles.

Arithmetic on two whole numbers is exact. As soon as a double takes part, both sides become doubles
and the result is one; a whole number beyond the range of doubles has no such result. Comparison is
exact in every case.
-/
import CellNft.Number.Binary64

namespace CellNft

inductive Number where
  | int (n : Int)
  | float (x : Binary64)
deriving DecidableEq, Inhabited

namespace Number

/-- The double nearest to a number, unless it is too large for one. -/
def toBinary64? : Number → Option Binary64
  | .float x => some x
  | .int n =>
    let x := Binary64.ofRat n false
    match x.view with
    | .infinite _ => none
    | _ => some x

/-- An operation with an exact and a floating side. -/
def combine (exact : Int → Int → Int) (floating : Binary64 → Binary64 → Binary64) :
    Number → Number → Option Number
  | .int m, .int n => some (.int (exact m n))
  | a, b => do return .float (floating (← a.toBinary64?) (← b.toBinary64?))

def add : Number → Number → Option Number := combine (· + ·) Binary64.add
def sub : Number → Number → Option Number := combine (· - ·) Binary64.sub
def mul : Number → Number → Option Number := combine (· * ·) Binary64.mul

def lt : Number → Number → Bool
  | .int m, .int n => m < n
  | .float x, .float y => x.lt y
  | .int m, .float y =>
    match y.view with
    | .nan => false
    | .infinite negative => !negative
    | .finite .. => (m : Rat) < y.toRat?.getD 0
  | .float x, .int n =>
    match x.view with
    | .nan => false
    | .infinite negative => negative
    | .finite .. => x.toRat?.getD 0 < (n : Rat)

def eq : Number → Number → Bool
  | .int m, .int n => m = n
  | .float x, .float y => x.eq y
  | .int n, .float x | .float x, .int n => x.toRat? = some (n : Rat)

end Number
end CellNft
