/-
CellNft.Chain.OutPoint — references to outputs of earlier transactions.

* `OutPoint.ofValue` reads one from a record with the fields `txHash` and `index`, and
  `OutPoint.encode` serialises it.
* `OutPoint.serialize` serialises a record directly; it takes a hash of any length, and says in
  which direction an index is out of range.
* `OutPoint.tail` is the part of that by which cells are known to the aggregator: everything from
  the thirteenth byte on.
-/
import CellNft.Chain.Script

namespace CellNft

structure OutPoint where
  txHash : Hash32
  index : Int
deriving DecidableEq

namespace OutPoint

def ofValue (v : Value) : Except Fault OutPoint := do
  let txHash ← Hex.decodeValue (← v.item "txHash")
  let index ← Hex.readInt (← v.item "index")
  return ⟨← Hash32.ofBytes txHash, index⟩

def encode (o : OutPoint) : Except Fault Bytes := do
  return o.txHash.val ++ (← Molecule.fitting 4 o.index)

/-- An index as four bytes. -/
def indexBytes (index : Int) : Except Fault Bytes :=
  if index < 0 then .error .negative
  else if 0x100000000 ≤ index then .error .tooBig
  else .ok (Bytes.ofNatLE 4 index.toNat)

def serializeBytes (v : Value) : Except Fault Bytes := do
  let txHash ← Hex.decodeValue (← v.item "txHash")
  let index ← Hex.readInt (← v.item "index")
  return txHash ++ (← indexBytes index)

/-- The serialisation of a record in hex. -/
def serialize (v : Value) : Except Fault String := do return Hex.encode (← serializeBytes v)

/-- How the aggregator knows a cell. -/
def tail (v : Value) : Except Fault String := do
  return Hex.encode ((← serializeBytes v).drop 12)

end OutPoint
end CellNft
