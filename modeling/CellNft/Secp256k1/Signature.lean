/-
CellNft.Secp256k1.Signature — private keys and recoverable signatures.

* `PrivateKey.ofBytes` accepts 32 bytes that stand for a number from 1 up to below the group order.
* `PrivateKey.publicKey` is the compressed public key.
* `PrivateKey.sign` signs a digest: the nonce is derived from key and digest (RFC 6979 with SHA-256,
  first candidate), `s` is the lower of its two values, and the last byte is the parity of the
  nonce's point, flipped together with `s`. The result is always 65 bytes.
-/
import CellNft.Fault
import CellNft.Hash.Sha256
import CellNft.Secp256k1.Curve

namespace CellNft.Secp256k1

/-- A private key; the number is in range. -/
structure PrivateKey where
  secret : Nat
  positive : 1 ≤ secret
  inRange : secret < groupOrder

namespace PrivateKey

/-- The key of the given bytes. The length is checked before the range. -/
def ofBytes (bytes : Bytes) : Except Fault PrivateKey :=
  if bytes.length ≠ 32 then .error (.keyLength bytes.length)
  else
    let secret := Bytes.toNatBE bytes
    if low : secret < 1 then .error (.keyTooSmall secret)
    else if high : groupOrder ≤ secret then .error (.keyTooLarge secret (groupOrder - 1))
    else .ok ⟨secret, Nat.le_of_not_lt low, Nat.lt_of_not_le high⟩

def bytes (key : PrivateKey) : Bytes := Bytes.ofNatBE 32 key.secret

/-- The compressed public key: the parity of `y`, then `x`. -/
def publicKey (key : PrivateKey) : Bytes :=
  let (x, y) := (Point.generator.multiple key.secret).affine
  UInt8.ofNat (2 + y % 2) :: Bytes.ofNatBE 32 x

/-- The nonce for signing a digest that stands for the number `z`. -/
def nonce (key : PrivateKey) (z : Nat) : Nat :=
  let seed := key.bytes ++ Bytes.ofNatBE 32 (z % groupOrder)
  let v0 := List.replicate 32 1
  let k1 := Hash.Sha256.hmac (List.replicate 32 0) (v0 ++ 0 :: seed)
  let v1 := Hash.Sha256.hmac k1 v0
  let k2 := Hash.Sha256.hmac k1 (v1 ++ 1 :: seed)
  let v2 := Hash.Sha256.hmac k2 v1
  Bytes.toNatBE (Hash.Sha256.hmac k2 v2)

/-- The signature of a digest: `r`, `s` and the recovery parity. -/
def sign (key : PrivateKey) (digest : Bytes) : Bytes :=
  let z := Bytes.toNatBE digest
  let k := key.nonce z
  let (r, y) := (Point.generator.multiple k).affine
  let raw := inverse groupOrder k * (z + r * key.secret) % groupOrder
  let flip := groupOrder ≤ 2 * raw
  let s := if flip then groupOrder - raw else raw
  let parity := if flip then 1 - y % 2 else y % 2
  Bytes.ofNatBE 32 r ++ Bytes.ofNatBE 32 s ++ [UInt8.ofNat parity]

end PrivateKey
end CellNft.Secp256k1
