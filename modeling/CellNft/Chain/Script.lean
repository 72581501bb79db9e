/-
CellNft.Chain.Script — the scripts that lock and type cells.

A script is the hash of its code, how that hash is to be understood, and arguments.

* `Script.ofValue` reads a script from a record with the fields `codeHash`, `hashType` and `args`;
  `Script.toValue` writes one.
* `Script.encode` is the serialisation. `Script.serialize` and `Script.hashText` give it and its hash
  for a record, in hex.
-/
import CellNft.Chain.Molecule
import CellNft.Hash.Blake2b
import CellNft.Hex

namespace CellNft

/-- The 32 bytes of a hash. -/
abbrev Hash32 := { b : Bytes // b.length = 32 }

namespace Hash32

/-- Bytes that must be 32. -/
def ofBytes (b : Bytes) : Except Fault Hash32 :=
  if h : b.length = 32 then .ok ⟨b, h⟩ else .error .violated

end Hash32

/-- What a code hash is the hash of. -/
inductive HashType where
  | data | type | data1 | data2
deriving DecidableEq, Inhabited

namespace HashType

def all : List HashType := [data, type, data1, data2]

def name : HashType → String
  | data => "data"
  | type => "type"
  | data1 => "data1"
  | data2 => "data2"

/-- The byte that stands for the hash type in serialised scripts and in addresses. -/
def byte : HashType → UInt8
  | data => 0
  | type => 1
  | data1 => 2
  | data2 => 4

def ofByte? (b : UInt8) : Option HashType := all.find? (·.byte = b)

def ofName? (name : Text) : Option HashType := all.find? fun t => Text.ofString t.name = name

/-- The hash type a value names. -/
def ofValue : Value → Except Fault HashType
  | .str name =>
    match ofName? name with
    | some t => .ok t
    | none => .error (.missingKey (.str name))
  | .scalar s => .error (.missingKey s)
  | _ => .error .wrongType

end HashType

structure Script where
  codeHash : Hash32
  hashType : HashType
  args : Bytes
deriving DecidableEq

namespace Script

/-- The script of a record. The length of the code hash is looked at last. -/
def ofValue (v : Value) : Except Fault Script := do
  let codeHash ← Hex.decodeValue (← v.item "codeHash")
  let hashType ← HashType.ofValue (← v.item "hashType")
  let args ← Hex.decodeValue (← v.item "args")
  return ⟨← Hash32.ofBytes codeHash, hashType, args⟩

def toValue (s : Script) : Value :=
  .record [
    ("codeHash", .str (Hex.encode s.codeHash.val)),
    ("hashType", .str s.hashType.name),
    ("args", .str (Hex.encode s.args))]

def encode (s : Script) : Bytes :=
  Molecule.table [s.codeHash.val, [s.hashType.byte], Molecule.bytes s.args]

/-- The serialisation of a record. -/
def serializeBytes (v : Value) : Except Fault Bytes := do Molecule.sized (← ofValue v).encode

/-- The serialisation of a record in hex. -/
def serialize (v : Value) : Except Fault String := do return Hex.encode (← serializeBytes v)

/-- The hash of a record in hex. -/
def hashText (v : Value) : Except Fault String := do
  return Hex.encode (ckbHash (← serializeBytes v))

end Script
end CellNft
