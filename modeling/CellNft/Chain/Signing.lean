/-
CellNft.Chain.Signing — the message of a transaction, and signing it.

The message covers the hash of the raw transaction and every witness, each behind its length; the
lock of the first witness is 65 zero bytes there, the room for the signature. All inputs are taken
to belong to the signer.

* `Signing.preimage` are the bytes that are hashed, `Signing.message` is their hash.
* `Signing.sign` puts the signature of the message into the lock of the first witness and writes all
  witnesses in hex. Nothing else of the transaction changes.
* `Signing.lockArgs` are the arguments of the lock that a key opens.
-/
import CellNft.Chain.RawTransaction
import CellNft.Chain.WitnessArgs
import CellNft.Secp256k1.Signature

namespace CellNft.Signing

/-- The size of a signature. -/
def signatureSize : Nat := 65

/-- A witness behind its length. -/
def frame (witness : Bytes) : Except Fault Bytes :=
  if witness.length < 0x10000000000000000 then .ok (Bytes.ofNatLE 8 witness.length ++ witness)
  else .error .tooBig

/-- The bytes that are hashed for the message. The witnesses are serialised before the rest. -/
def preimage (tx : Value) : Except Fault Bytes := do
  let witnesses ← Witnesses.withLock tx (List.replicate signatureSize 0)
  let rawHash ← RawTransaction.hashValue tx
  return rawHash ++ (← witnesses.mapM frame).flatten

/-- The message of a transaction. -/
def message (tx : Value) : Except Fault Bytes := ckbHash <$> preimage tx

/-- The private key of a value that must be hex text. -/
def readKey (key : Value) : Except Fault Secp256k1.PrivateKey := do
  Secp256k1.PrivateKey.ofBytes (← Hex.decodeValue key)

/-- The arguments of the lock that a key opens. -/
def lockArgs (key : Value) : Except Fault String := do
  return Hex.encode (blake160 (← readKey key).publicKey)

/-- The transaction with its witnesses signed. -/
def sign (tx key : Value) : Except Fault Value := do
  let fields ← tx.entries
  if !((Dict.find? fields (.str "witnesses")).getD .null).holds then throw .noWitnesses
  let digest ← message tx
  let signature := (← readKey key).sign digest
  let witnesses ← Witnesses.withLock tx signature
  let texts := witnesses.map fun b => Value.str (Hex.encode b)
  return .dict (Dict.set fields (.str "witnesses") (.list texts))

end CellNft.Signing
