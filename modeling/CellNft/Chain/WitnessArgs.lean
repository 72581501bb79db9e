/-
CellNft.Chain.WitnessArgs — the witness that proves the right to spend, and what it says to type
scripts.

A witness of a transaction in motion is a record with the fields `lock`, `inputType` and
`outputType`, or already serialised in hex.

* `WitnessArgs.encode` serialises; a field that is absent or empty becomes nothing.
  `WitnessArgs.serialize` does the same and checks the size.
* `WitnessArgs.decode` reads a serialisation, also one that `encode` would not write.
* `Witnesses.withLock` gives the bytes of all witnesses of a transaction. Only the first one is read
  in its parts, because signing replaces its lock.
-/
import CellNft.Chain.Molecule
import CellNft.Hex

namespace CellNft

structure WitnessArgs where
  lock : Option Bytes
  inputType : Option Bytes
  outputType : Option Bytes
deriving DecidableEq

namespace WitnessArgs

def empty : WitnessArgs := ⟨none, none, none⟩

/-- The serialisation of a field. -/
def encodeField : Option Bytes → Bytes
  | none | some [] => []
  | some b => Molecule.bytes b

def encode (w : WitnessArgs) : Bytes :=
  Molecule.table [encodeField w.lock, encodeField w.inputType, encodeField w.outputType]

/-- The serialisation, if it is not too long. -/
def serialize (w : WitnessArgs) : Except Fault Bytes := Molecule.sized w.encode

/-- A field of a record: null and hex text without digits are absent. -/
def fieldOfValue : Value → Except Fault (Option Bytes)
  | .null => .ok none
  | .str t => if (Hex.dropMark t).isEmpty then .ok none else some <$> Hex.decode t
  | .bytes _ => .error .wrongType
  | _ => .error .noSuchMethod

/-- The witness of a record. -/
def ofRecord (v : Value) : Except Fault WitnessArgs := do
  let lock ← fieldOfValue (← v.field "lock")
  let inputType ← fieldOfValue (← v.field "inputType")
  let outputType ← fieldOfValue (← v.field "outputType")
  return ⟨lock, inputType, outputType⟩

/-- A field of a serialised witness. -/
def decodeField (d : Bytes) (i : Nat) : Except Fault (Option Bytes) :=
  match Molecule.item? d i with
  | some item => Molecule.optionalBytes item
  | none => .error .outOfRange

/-- The witness of a serialisation. Items behind the third are not looked at. -/
def decode (d : Bytes) : Except Fault WitnessArgs := do
  if !Molecule.wellSized d then throw .violated
  let lock ← decodeField d 0
  let inputType ← decodeField d 1
  let outputType ← decodeField d 2
  return ⟨lock, inputType, outputType⟩

/-- The witness in its parts; hex text without bytes is a witness without fields. -/
def ofValue (v : Value) : Except Fault WitnessArgs :=
  match v with
  | .dict _ => ofRecord v
  | _ => do
    let data ← Hex.decodeValue v
    if data.isEmpty then return empty else decode data

/-- The bytes of a witness. -/
def bytesOfValue (v : Value) : Except Fault Bytes :=
  match v with
  | .dict _ => do (← ofRecord v).serialize
  | _ => Hex.decodeValue v

end WitnessArgs

namespace Witnesses

/-- The first witness of a transaction, in its parts. -/
def firstOfValue (tx : Value) : Except Fault WitnessArgs := do
  WitnessArgs.ofValue (← (← tx.item "witnesses").first)

/-- The bytes of every witness of a transaction behind the first. -/
def othersOfValue (tx : Value) : Except Fault (List Bytes) := do
  (← (← tx.item "witnesses").rest).mapM WitnessArgs.bytesOfValue

/-- The bytes of all witnesses of a transaction, with another lock in the first. -/
def withLock (tx : Value) (lock : Bytes) : Except Fault (List Bytes) := do
  let first ← firstOfValue tx
  let bytes ← { first with lock := some lock : WitnessArgs }.serialize
  return bytes :: (← othersOfValue tx)

end Witnesses
end CellNft
