/-
CellNft.Bytes — byte strings, and numbers as bytes.

`Bytes.ofNatLE` and `Bytes.ofNatBE` write a number with a fixed width, lowest or highest byte first;
what does not fit is cut off. `Bytes.toNatLE` and `Bytes.toNatBE` read bytes of any width.
`Bytes.asciiChars` are the characters that bytes are in a numeral.
-/
namespace CellNft

abbrev Bytes := List UInt8

namespace Bytes

/-- The `width` lowest bytes of a number, lowest first. -/
def ofNatLE : (width n : Nat) → Bytes
  | 0, _ => []
  | width + 1, n => UInt8.ofNat (n % 256) :: ofNatLE width (n / 256)

/-- The number of bytes that start with the lowest. -/
def toNatLE : Bytes → Nat
  | [] => 0
  | b :: rest => b.toNat + 256 * toNatLE rest

/-- The `width` lowest bytes of a number, highest first. -/
def ofNatBE (width n : Nat) : Bytes := (ofNatLE width n).reverse

/-- The number of bytes that start with the highest. -/
def toNatBE (bytes : Bytes) : Nat := bytes.foldl (fun n b => n * 256 + b.toNat) 0

/-- The bytes in groups of `size`; the last group may be shorter. The fuel bounds the number of
groups. -/
def groupsFrom (size : Nat) : Nat → Bytes → List Bytes
  | 0, _ => []
  | fuel + 1, bytes =>
    if bytes.length ≤ size then [bytes]
    else bytes.take size :: groupsFrom size fuel (bytes.drop size)

/-- The bytes in groups of `size`, at least one; only the last may be shorter. -/
def groups (size : Nat) (bytes : Bytes) : List Bytes :=
  groupsFrom size (bytes.length / size + 1) bytes

/-- The characters of bytes, with the replacement character for what is not ASCII. -/
def asciiChars (bytes : Bytes) : List Char :=
  bytes.map fun b => if b.toNat < 0x80 then Char.ofNat b.toNat else '\ufffd'

/-- The bytes followed by zeros up to a length. -/
def padTo (length : Nat) (bytes : Bytes) : Bytes :=
  bytes ++ List.replicate (length - bytes.length) 0

end Bytes
end CellNft
