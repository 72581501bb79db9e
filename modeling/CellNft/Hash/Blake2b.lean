/-
CellNft.Hash.Blake2b — the BLAKE2b hash with 32 bytes of digest and a personalisation, without a
key.

The working state is four rows of four words. A round mixes the four columns, then, with the rows
rotated against each other, the four diagonals.

`ckbHash` is the hash of the chain: BLAKE2b personalised with `ckb-default-hash`.
-/
import CellNft.Bytes

namespace CellNft.Hash.Blake2b

/-- A row of the working state. -/
structure Row where
  a : UInt64
  b : UInt64
  c : UInt64
  d : UInt64
deriving DecidableEq

namespace Row

/-- The row moved left by one place. -/
def rotate (r : Row) : Row := ⟨r.b, r.c, r.d, r.a⟩

def xor (r s : Row) : Row := ⟨r.a ^^^ s.a, r.b ^^^ s.b, r.c ^^^ s.c, r.d ^^^ s.d⟩

def words (r : Row) : List UInt64 := [r.a, r.b, r.c, r.d]

end Row

/-- The working state, row by row. -/
structure State where
  r0 : Row
  r1 : Row
  r2 : Row
  r3 : Row

/-- The initialisation vector, which is the upper half of every fresh working state. -/
def initial : Row × Row :=
  (⟨0x6a09e667f3bcc908, 0xbb67ae8584caa73b, 0x3c6ef372fe94f82b, 0xa54ff53a5f1d36f1⟩,
   ⟨0x510e527fade682d1, 0x9b05688c2b3e6c1f, 0x1f83d9abfb41bd6b, 0x5be0cd19137e2179⟩)

/-- The order in which the rounds take the words of the block. -/
def schedule : List (List Nat) := [
  [0, 1, 2, 3, 4, 5, 6, 7, 8, 9, 10, 11, 12, 13, 14, 15],
  [14, 10, 4, 8, 9, 15, 13, 6, 1, 12, 0, 2, 11, 7, 5, 3],
  [11, 8, 12, 0, 5, 2, 15, 13, 10, 14, 3, 6, 7, 1, 9, 4],
  [7, 9, 3, 1, 13, 12, 11, 14, 2, 6, 5, 10, 4, 0, 15, 8],
  [9, 0, 5, 7, 2, 4, 10, 15, 14, 1, 11, 12, 6, 8, 3, 13],
  [2, 12, 6, 10, 0, 11, 8, 3, 4, 13, 7, 5, 15, 14, 1, 9],
  [12, 5, 1, 15, 14, 13, 4, 10, 0, 7, 6, 3, 9, 2, 8, 11],
  [13, 11, 7, 14, 12, 1, 3, 9, 5, 0, 15, 4, 8, 6, 2, 10],
  [6, 15, 14, 9, 11, 3, 0, 8, 12, 2, 13, 7, 1, 4, 10, 5],
  [10, 2, 8, 4, 7, 6, 1, 5, 15, 11, 9, 14, 3, 12, 13, 0],
  [0, 1, 2, 3, 4, 5, 6, 7, 8, 9, 10, 11, 12, 13, 14, 15],
  [14, 10, 4, 8, 9, 15, 13, 6, 1, 12, 0, 2, 11, 7, 5, 3]]

def rotateRight (x : UInt64) (n : UInt64) : UInt64 := (x >>> n) ||| (x <<< (64 - n))

/-- The mixing of one column with two words of the block. -/
def mix (a b c d x y : UInt64) : UInt64 × UInt64 × UInt64 × UInt64 :=
  let a := a + b + x
  let d := rotateRight (d ^^^ a) 32
  let c := c + d
  let b := rotateRight (b ^^^ c) 24
  let a := a + b + y
  let d := rotateRight (d ^^^ a) 16
  let c := c + d
  let b := rotateRight (b ^^^ c) 63
  (a, b, c, d)

/-- All four columns; the eight words are used in pairs. -/
def mixColumns (s : State) (w : List UInt64) : State :=
  match w with
  | [w0, w1, w2, w3, w4, w5, w6, w7] =>
    let (a0, b0, c0, d0) := mix s.r0.a s.r1.a s.r2.a s.r3.a w0 w1
    let (a1, b1, c1, d1) := mix s.r0.b s.r1.b s.r2.b s.r3.b w2 w3
    let (a2, b2, c2, d2) := mix s.r0.c s.r1.c s.r2.c s.r3.c w4 w5
    let (a3, b3, c3, d3) := mix s.r0.d s.r1.d s.r2.d s.r3.d w6 w7
    ⟨⟨a0, a1, a2, a3⟩, ⟨b0, b1, b2, b3⟩, ⟨c0, c1, c2, c3⟩, ⟨d0, d1, d2, d3⟩⟩
  | _ => s

/-- One round on a block of sixteen words. -/
def round (block : Array UInt64) (s : State) (order : List Nat) : State :=
  let w := order.map fun i => block.getD i 0
  let s := mixColumns s (w.take 8)
  let t := mixColumns ⟨s.r0, s.r1.rotate, s.r2.rotate.rotate, s.r3.rotate.rotate.rotate⟩ (w.drop 8)
  ⟨t.r0, t.r1.rotate.rotate.rotate, t.r2.rotate.rotate, t.r3.rotate⟩

/-- Takes in one block. `count` is the number of message bytes up to its end. -/
def compress (h : Row × Row) (block : Bytes) (count : Nat) (final : Bool) : Row × Row :=
  let groups := Bytes.groups 8 (Bytes.padTo 128 block)
  let words := (groups.map fun w => UInt64.ofNat (Bytes.toNatLE w)).toArray
  let mask : Row :=
    ⟨UInt64.ofNat count, UInt64.ofNat (count >>> 64), if final then 0 - 1 else 0, 0⟩
  let s := schedule.foldl (round words) ⟨h.1, h.2, initial.1, initial.2.xor mask⟩
  ((h.1.xor s.r0).xor s.r2, (h.2.xor s.r1).xor s.r3)

/-- Takes in all blocks; the last one is marked as such. -/
def absorb (h : Row × Row) (count : Nat) : List Bytes → Row × Row
  | [] => h
  | [last] => compress h last (count + last.length) true
  | block :: rest => absorb (compress h block (count + 128) false) (count + 128) rest

/-- The state before the first block: no key, 32 bytes of digest, sequential mode, and sixteen bytes
of personalisation. -/
def start (personal : Bytes) : Row × Row :=
  let p0 := UInt64.ofNat (Bytes.toNatLE (personal.take 8))
  let p1 := UInt64.ofNat (Bytes.toNatLE (personal.drop 8))
  (initial.1.xor ⟨0x01010020, 0, 0, 0⟩, initial.2.xor ⟨0, 0, p0, p1⟩)

/-- The 32 byte digest of a message. -/
def digest (personal message : Bytes) : Bytes :=
  (absorb (start personal) 0 (Bytes.groups 128 message)).1.words.flatMap
    fun w => Bytes.ofNatLE 8 w.toNat

end CellNft.Hash.Blake2b

namespace CellNft

/-- The ASCII bytes of `ckb-default-hash`. -/
def ckbPersonal : Bytes := [
  0x63, 0x6b, 0x62, 0x2d, 0x64, 0x65, 0x66, 0x61, 0x75, 0x6c, 0x74, 0x2d, 0x68, 0x61, 0x73, 0x68]

/-- The hash of the chain. -/
def ckbHash (message : Bytes) : Bytes := Hash.Blake2b.digest ckbPersonal message

/-- The first twenty bytes of the hash, which name the owner of a lock. -/
def blake160 (message : Bytes) : Bytes := (ckbHash message).take 20

end CellNft
