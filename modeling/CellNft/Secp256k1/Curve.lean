/-
CellNft.Secp256k1.Curve — the curve y² = x³ + 7 over the prime field of secp256k1.

Points are computed with in Jacobian coordinates: `⟨x, y, z⟩` stands for the point
`(x / z², y / z³)`, and `z = 0` for the point at infinity.
-/
namespace CellNft.Secp256k1

/-- The order of the field. -/
def fieldOrder : Nat := 0xfffffffffffffffffffffffffffffffffffffffffffffffffffffffefffffc2f

/-- The order of the group. -/
def groupOrder : Nat := 0xfffffffffffffffffffffffffffffffebaaedce6af48a03bbfd25e8cd0364141

/-- `base ^ exponent` modulo `m`, by squaring; the fuel is the number of bits of the exponent. -/
def powMod (m : Nat) : Nat → Nat → Nat → Nat
  | 0, _, _ => 1 % m
  | fuel + 1, base, exponent =>
    let half := powMod m fuel (base * base % m) (exponent / 2)
    if exponent % 2 = 1 then half * base % m else half

/-- The inverse modulo a prime of at most 256 bits. -/
def inverse (prime a : Nat) : Nat := powMod prime 256 (a % prime) (prime - 2)

structure Point where
  x : Nat
  y : Nat
  z : Nat
deriving DecidableEq

namespace Point

/-- A difference in the field. -/
def subField (a b : Nat) : Nat := (a + (fieldOrder - b % fieldOrder)) % fieldOrder

def infinity : Point := ⟨1, 1, 0⟩

/-- The generator of the group. -/
def generator : Point :=
  ⟨0x79be667ef9dcbbac55a06295ce870b07029bfcdb2dce28d959f2815b16f81798,
   0x483ada7726a3c4655da4fbfc0e1108a8fd17b448a68554199c47d08ffb10d4b8, 1⟩

def double (p : Point) : Point :=
  if p.z = 0 ∨ p.y = 0 then infinity
  else
    let yy := p.y * p.y % fieldOrder
    let s := 4 * p.x * yy % fieldOrder
    let m := 3 * p.x * p.x % fieldOrder
    let x := subField (m * m) (2 * s)
    ⟨x, subField (m * subField s x) (8 * yy * yy), 2 * p.y * p.z % fieldOrder⟩

def add (p q : Point) : Point :=
  if p.z = 0 then q
  else if q.z = 0 then p
  else
    let pz := p.z * p.z % fieldOrder
    let qz := q.z * q.z % fieldOrder
    let u1 := p.x * qz % fieldOrder
    let u2 := q.x * pz % fieldOrder
    let s1 := p.y * qz * q.z % fieldOrder
    let s2 := q.y * pz * p.z % fieldOrder
    if u1 = u2 then (if s1 = s2 then double p else infinity)
    else
      let h := subField u2 u1
      let r := subField s2 s1
      let hh := h * h % fieldOrder
      let hhh := hh * h % fieldOrder
      let v := u1 * hh % fieldOrder
      let x := subField (r * r) (hhh + 2 * v)
      ⟨x, subField (r * subField v x) (s1 * hhh), h * p.z * q.z % fieldOrder⟩

/-- `sum + k · p`; the fuel is the number of bits of `k`. -/
def addMultiple : Nat → Nat → Point → Point → Point
  | 0, _, _, sum => sum
  | fuel + 1, k, p, sum =>
    addMultiple fuel (k / 2) p.double (if k % 2 = 1 then sum.add p else sum)

/-- `k · p`, for `k` of at most 256 bits. -/
def multiple (k : Nat) (p : Point) : Point := addMultiple 256 k p infinity

/-- The affine coordinates. -/
def affine (p : Point) : Nat × Nat :=
  let i := inverse fieldOrder p.z
  let ii := i * i % fieldOrder
  (p.x * ii % fieldOrder, p.y * ii * i % fieldOrder)

end Point
end CellNft.Secp256k1
