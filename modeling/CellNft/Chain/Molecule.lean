/-
CellNft.Chain.Molecule — the layouts of the serialisation that the chain hashes.

* `table` is the total size, the offset of each item, and the items; a vector of items of any size
  has the same layout.
* `fixVec` is the number of items and the items, which all have one size.
* `bytes` is the length and the bytes.
* `sized` refuses a serialisation that is too long for its own sizes.
* `item?` reads one item of a table back. It takes every number from the data as it finds it and
  clips what lies outside, so it reads tables that no encoder wrote.

Numbers are four bytes, lowest first.
-/
import CellNft.Bytes
import CellNft.Fault

namespace CellNft.Molecule

/-- A length or an offset. -/
def size (n : Nat) : Bytes := Bytes.ofNatLE 4 n

/-- The offsets of items that start at `start`. -/
def offsets (start : Nat) : List Bytes → Bytes
  | [] => []
  | item :: rest => size start ++ offsets (start + item.length) rest

def table (items : List Bytes) : Bytes :=
  let header := 4 + 4 * items.length
  size (header + items.flatten.length) ++ offsets header items ++ items.flatten

def fixVec (items : List Bytes) : Bytes := size items.length ++ items.flatten

def bytes (b : Bytes) : Bytes := size b.length ++ b

/-- A serialisation that is handed on. The size at its front is the greatest of all sizes inside, so
when this one fits into four bytes, all do. -/
def sized (serialised : Bytes) : Except Fault Bytes :=
  if serialised.length < 0x100000000 then .ok serialised else .error .violated

/-- A number that must fit the given width. -/
def fitting (width : Nat) (n : Int) : Except Fault Bytes :=
  if 0 ≤ n ∧ n.toNat < Nat.pow 256 width then .ok (Bytes.ofNatLE width n.toNat) else .error .violated

/-- The number at a place; bytes beyond the end count as zero. -/
def sizeAt (d : Bytes) (place : Nat) : Nat := Bytes.toNatLE ((d.drop place).take 4)

/-- The number of items of a table. -/
def count (d : Bytes) : Nat := if d.length = 4 then 0 else sizeAt d 4 / 4 - 1

/-- The place where item `i` starts, or the end of the data behind the last item. -/
def startOf (d : Bytes) (i : Nat) : Nat := if i < count d then sizeAt d (4 + 4 * i) else d.length

/-- Item `i` of a table. -/
def item? (d : Bytes) (i : Nat) : Option Bytes :=
  if i < count d then some ((d.take (startOf d (i + 1))).drop (startOf d i)) else none

/-- Whether the data is as long as it says. -/
def wellSized (d : Bytes) : Bool := 4 ≤ d.length && d.length = sizeAt d 0

/-- The bytes inside an item that is a byte string; an empty item is none. -/
def optionalBytes (item : Bytes) : Except Fault (Option Bytes) :=
  if item.isEmpty then .ok none
  else if sizeAt item 0 + 4 = item.length then .ok (some (item.drop 4))
  else .error .violated

end CellNft.Molecule
