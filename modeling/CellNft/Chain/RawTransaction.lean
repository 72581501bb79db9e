/-
CellNft.Chain.RawTransaction — the part of a transaction that its hash covers: everything but the
witnesses.

* `RawTransaction.ofValue` reads it from a record. Cell deps, inputs and outputs are read in this
  order, then the version, the header deps and the data of the outputs.
* `RawTransaction.encode` serialises it. Only here are the widths of numbers, the lengths of header
  hashes and the size of the whole looked at.
-/
import CellNft.Chain.OutPoint

namespace CellNft

/-- Whether a dep is a cell with code or a cell that lists deps. -/
inductive DepType where
  | code | depGroup
deriving DecidableEq, Inhabited

namespace DepType

def name : DepType → String
  | code => "code"
  | depGroup => "depGroup"

def byte : DepType → UInt8
  | code => 0
  | depGroup => 1

def ofName? (name : Text) : Option DepType :=
  [code, depGroup].find? fun t => Text.ofString t.name = name

def ofValue : Value → Except Fault DepType
  | .str name =>
    match ofName? name with
    | some t => .ok t
    | none => .error (.missingKey (.str name))
  | .scalar s => .error (.missingKey s)
  | _ => .error .wrongType

end DepType

structure CellDep where
  outPoint : OutPoint
  depType : DepType
deriving DecidableEq

namespace CellDep

def ofValue (v : Value) : Except Fault CellDep := do
  let outPoint ← OutPoint.ofValue (← v.item "outPoint")
  return ⟨outPoint, ← DepType.ofValue (← v.item "depType")⟩

def encode (d : CellDep) : Except Fault Bytes := do
  return (← d.outPoint.encode) ++ [d.depType.byte]

end CellDep

structure CellInput where
  since : Int
  previousOutput : OutPoint
deriving DecidableEq

namespace CellInput

def ofValue (v : Value) : Except Fault CellInput := do
  let since ← Hex.readInt (← v.item "since")
  return ⟨since, ← OutPoint.ofValue (← v.item "previousOutput")⟩

def encode (i : CellInput) : Except Fault Bytes := do
  let since ← Molecule.fitting 8 i.since
  return since ++ (← i.previousOutput.encode)

end CellInput

structure CellOutput where
  capacity : Int
  lock : Script
  type : Option Script
deriving DecidableEq

namespace CellOutput

def ofValue (v : Value) : Except Fault CellOutput := do
  let capacity ← Hex.readInt (← v.item "capacity")
  let lock ← Script.ofValue (← v.item "lock")
  let type ← v.field "type"
  return ⟨capacity, lock, ← if type.holds then some <$> Script.ofValue type else pure none⟩

def encode (o : CellOutput) : Except Fault Bytes := do
  let capacity ← Molecule.fitting 8 o.capacity
  return Molecule.table [capacity, o.lock.encode, (o.type.map Script.encode).getD []]

end CellOutput

structure RawTransaction where
  version : Int
  cellDeps : List CellDep
  headerDeps : List Bytes
  inputs : List CellInput
  outputs : List CellOutput
  outputsData : List Bytes
deriving DecidableEq

namespace RawTransaction

/-- Reads every item of a field. -/
def readAll {α : Type} (read : Value → Except Fault α) (v : Value) (key : String) :
    Except Fault (List α) := do
  (← (← v.item key).elements).mapM read

def ofValue (v : Value) : Except Fault RawTransaction := do
  let cellDeps ← readAll CellDep.ofValue v "cellDeps"
  let inputs ← readAll CellInput.ofValue v "inputs"
  let outputs ← readAll CellOutput.ofValue v "outputs"
  let version ← Hex.readInt (← v.item "version")
  let headerDeps ← readAll Hex.decodeValue v "headerDeps"
  let outputsData ← readAll Hex.decodeValue v "outputsData"
  return { version, cellDeps, headerDeps, inputs, outputs, outputsData }

/-- The serialisation. -/
def encode (t : RawTransaction) : Except Fault Bytes := do
  let version ← Molecule.fitting 4 t.version
  let cellDeps ← t.cellDeps.mapM CellDep.encode
  let headerDeps ← t.headerDeps.mapM Hash32.ofBytes
  let inputs ← t.inputs.mapM CellInput.encode
  let outputs ← t.outputs.mapM CellOutput.encode
  Molecule.sized <| Molecule.table [
    version, Molecule.fixVec cellDeps, Molecule.fixVec (headerDeps.map (·.val)),
    Molecule.fixVec inputs, Molecule.table outputs,
    Molecule.table (t.outputsData.map Molecule.bytes)]

/-- The serialisation of the transaction of a record. -/
def encodeValue (v : Value) : Except Fault Bytes := do (← ofValue v).encode

/-- The hash of the transaction of a record. -/
def hashValue (v : Value) : Except Fault Bytes := ckbHash <$> encodeValue v

end RawTransaction
end CellNft
