/-
CellNft.Address.Payload — addresses, the texts that people pass around for lock scripts.

The payload of an address starts with a format byte.

* Full addresses (`0`) carry code hash, hash type and arguments, with a bech32m checksum.
* Short addresses (`1`) name one of three well known code hashes by an index.
* Two older full formats (`2` and `4`) carry the code hash and imply the hash type. These and the
  short ones have a bech32 checksum.

`Address.payload` decodes the text, `Address.script` understands the payload.
-/
import CellNft.Address.Bech32
import CellNft.Chain.Script

namespace CellNft.Address

/-- The code hash that a number stands for. -/
def codeHashOf (n : Nat) : Hash32 := ⟨Bytes.ofNatBE 32 n, by simp [Bytes.ofNatBE, Bytes.ofNatLE]⟩

/-- The lock for one key. -/
def singleKeyLock : Hash32 :=
  codeHashOf 0x9bd7e06f3ecf4be0f2fcd2188b23f1b9fcc88e5d4b65a8637b17723bbda3cce8

/-- The lock for several keys. -/
def multiKeyLock : Hash32 :=
  codeHashOf 0x5c5069eb0857efc65e1bca0c07df34c31663b3622fd3876c876320fc9634e2a8

/-- The lock that anyone can pay to, on the main network. -/
def payableMainLock : Hash32 :=
  codeHashOf 0xd369597ff47f29fbc0d47d2e3775370d1250b85140c670e4718af712983a2354

/-- The lock that anyone can pay to, on the test network. -/
def payableTestLock : Hash32 :=
  codeHashOf 0x3419a1c09eb2567f6552ee7a8ecffd64155cffe0f1796e6e61ec088d740c1356

/-- The code hash of a short address; one of them depends on the network, which the human readable
part names. -/
def shortCodeHash (hrp : Text) (index : Int) : Except Fault Hash32 :=
  if index = 0 then .ok singleKeyLock
  else if index = 1 then .ok multiKeyLock
  else if index = 2 then
    if hrp = Text.ofString "ckb" then .ok payableMainLock
    else if hrp = Text.ofString "ckt" then .ok payableTestLock
    else .error (.missingKey (.str hrp))
  else .error (.shortIndex (.int index))

/-- The code hash of a short address by values. The index is a number that is equal to one of the
three, and the network only counts where the code hash depends on it. -/
def shortCodeHashOfValues (hrp index : Value) : Except Fault Hash32 :=
  match [0, 1, 2].find? fun n => index.same (.int n) with
  | none => .error (.shortIndex index)
  | some n =>
    match hrp with
    | .str hrp => shortCodeHash hrp n
    | .scalar s => if n = 2 then .error (.missingKey s) else shortCodeHash "" n
    | _ => if n = 2 then .error .wrongType else shortCodeHash "" n

/-- The human readable part and the payload of an address. -/
def payload (address : Text) : Except Fault (String × Bytes) :=
  match (Bech32.decode? .bech32m address.chars).orElse
      fun _ => Bech32.decode? .bech32 address.chars with
  | some (hrp, bytes) => .ok (String.ofList hrp, bytes)
  | none => .error (.addressFormat address)

/-- The code hash in a payload of at least 33 bytes. -/
def payloadCodeHash (bytes : Bytes) : Except Fault Hash32 := Hash32.ofBytes ((bytes.drop 1).take 32)

/-- The script that a payload stands for. -/
def scriptOf (address : Text) (hrp : String) (bytes : Bytes) : Except Fault Script := do
  if (hrp ≠ "ckb" ∧ hrp ≠ "ckt") ∨ bytes.length < 2 then throw (.addressFormat address)
  let format := (bytes.getD 0 0).toNat
  if format = 1 then
    return ⟨← shortCodeHash hrp (bytes.getD 1 0).toNat, .type, bytes.drop 2⟩
  else if bytes.length < 34 then throw (.addressPayload address)
  else if format = 0 then
    match HashType.ofByte? (bytes.getD 33 0) with
    | some hashType => return ⟨← payloadCodeHash bytes, hashType, bytes.drop 34⟩
    | none => throw (.addressHashType address)
  else if format = 2 then return ⟨← payloadCodeHash bytes, .data, bytes.drop 33⟩
  else if format = 4 then return ⟨← payloadCodeHash bytes, .type, bytes.drop 33⟩
  else throw (.addressFormatType format)

/-- The script that an address stands for. -/
def script (address : Text) : Except Fault Script := do
  let (hrp, bytes) ← payload address
  scriptOf address hrp bytes

/-- The script of a value that must be an address, as a record. -/
def scriptValue : Value → Except Fault Value
  | .str address => Script.toValue <$> script address
  | _ => .error .wrongType

end CellNft.Address
