/-
CellNft.Address.Bech32 — texts with a checksum, in the two variants bech32 and bech32m.

Such a text is a human readable part, a `1`, and words of five bits written in a charset of 32
letters and digits; the last six words are the checksum. Text of any length is fine.

* `Bech32.encode` writes bytes, `Bech32.decode` reads a text.
* The checksum of a text is right when the remainder `polymod` of its words is the constant of the
  variant.
* Bytes are regrouped to words of five bits with zeros at the end (`toWords`); on the way back
  fewer than five bits may be left over, whatever they are (`ofWords?`).
-/
import CellNft.Bytes

namespace CellNft.Bech32

inductive Variant where
  | bech32 | bech32m
deriving DecidableEq, Inhabited

/-- The remainder that a right checksum leaves. -/
def Variant.constant : Variant → Nat
  | .bech32 => 1
  | .bech32m => 0x2bc830a3

/-- The characters of the 32 words. -/
def charset : List Char := [
  'q', 'p', 'z', 'r', 'y', '9', 'x', '8', 'g', 'f', '2', 't', 'v', 'd', 'w', '0',
  's', '3', 'j', 'n', '5', '4', 'k', 'h', 'c', 'e', '6', 'm', 'u', 'a', '7', 'l']

def wordOf? (c : Char) : Option Nat := charset.idxOf? c

def charOf (word : Nat) : Char := charset.getD word 'q'

/-- What is added for each bit that leaves the register at the top. -/
def generators : List Nat := [0x3b6a57b2, 0x26508e6d, 0x1ea119fa, 0x3d4233dd, 0x2a1462b3]

/-- The sum of the generators of the bits of `top`. -/
def reduction (top : Nat) : Nat :=
  (generators.zipIdx.map fun (g, i) => if top.testBit i then g else 0).foldl (· ^^^ ·) 0

/-- Shifts one word into the register of thirty bits. -/
def polymodStep (register word : Nat) : Nat :=
  (((register &&& 0x1ffffff) <<< 5) ^^^ word) ^^^ reduction (register >>> 25)

def polymod (words : List Nat) : Nat := words.foldl polymodStep 1

/-- The human readable part as words: the high bits, a zero, the low bits. -/
def expand (hrp : List Char) : List Nat :=
  hrp.map (fun c => c.toNat >>> 5) ++ 0 :: hrp.map (fun c => c.toNat &&& 31)

/-- The six words that make the checksum right. -/
def checksum (variant : Variant) (hrp : List Char) (words : List Nat) : List Nat :=
  let remainder := polymod (expand hrp ++ words ++ [0, 0, 0, 0, 0, 0]) ^^^ variant.constant
  [25, 20, 15, 10, 5, 0].map fun shift => (remainder >>> shift) &&& 31

/-- The lowest `width` bits of a number, highest first. -/
def bits (width n : Nat) : List Bool :=
  (List.range width).reverse.map n.testBit

/-- The number of bits that start with the highest. -/
def ofBits (b : List Bool) : Nat := b.foldl (fun n bit => 2 * n + bit.toNat) 0

/-- Whole groups of `size` bits, and what is left over; the fuel bounds the number of groups. -/
def groupBits (size : Nat) : Nat → List Bool → List (List Bool) × List Bool
  | 0, b => ([], b)
  | fuel + 1, b =>
    if b.length < size then ([], b)
    else
      let (groups, left) := groupBits size fuel (b.drop size)
      (b.take size :: groups, left)

/-- Bytes as words of five bits; the last word is filled up with zeros. -/
def toWords (bytes : Bytes) : List Nat :=
  let b := bytes.flatMap fun x => bits 8 x.toNat
  let padded := b ++ List.replicate ((5 - b.length % 5) % 5) false
  (groupBits 5 padded.length padded).1.map ofBits

/-- Words of five bits as bytes, if fewer than five bits are left over. -/
def ofWords? (words : List Nat) : Option Bytes :=
  let b := words.flatMap (bits 5)
  let (groups, left) := groupBits 8 b.length b
  if left.length < 5 then some (groups.map fun g => UInt8.ofNat (ofBits g)) else none

/-- The text of a human readable part and words. -/
def encodeWords (variant : Variant) (hrp : List Char) (words : List Nat) : List Char :=
  hrp ++ '1' :: (words ++ checksum variant hrp words).map charOf

/-- The text of a human readable part and bytes. -/
def encode (variant : Variant) (hrp : List Char) (payload : Bytes) : List Char :=
  encodeWords variant hrp (toWords payload)

/-- The text before and behind the last `1`. -/
def splitAtSeparator? (s : List Char) : Option (List Char × List Char) :=
  let behind := (s.reverse.takeWhile (· ≠ '1')).reverse
  let before := (s.reverse.dropWhile (· ≠ '1')).reverse
  if before.isEmpty then none else some (before.dropLast, behind)

/-- The human readable part and the words of a text whose checksum is right, without the checksum.
Case makes no difference; the answer is in lower case. -/
def decodeWords? (variant : Variant) (text : List Char) : Option (List Char × List Nat) := do
  if text.any fun c => c.toNat < 33 || 126 < c.toNat then none
  else
    let (hrp, behind) ← splitAtSeparator? (text.map Char.toLower)
    if hrp.isEmpty || behind.length < 6 then none
    else
      let words ← behind.mapM wordOf?
      if polymod (expand hrp ++ words) = variant.constant then
        some (hrp, words.take (words.length - 6))
      else none

/-- The human readable part and the bytes of a text. -/
def decode? (variant : Variant) (text : List Char) : Option (List Char × Bytes) := do
  let (hrp, words) ← decodeWords? variant text
  return (hrp, ← ofWords? words)

end CellNft.Bech32
