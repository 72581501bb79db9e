/-
CellNft.Cota.Submission — minting and transferring, from the settings to the hash of the sent
transaction.

A run goes through stages. A failure inside one becomes `Fault.stage` with the name of the stage, so
a failed run says how far it got. The signed transaction is printed just before it is sent.

* `Submission.addDep` adds the dep of the default lock to a transaction.
* `Submission.finish` checks the key, signs, prints, sends, and waits if asked to.
* `mintNft` and `transferNft` are the whole flows.
-/
import CellNft.Address.Payload
import CellNft.Chain.Signing
import CellNft.Cota.Transfer

namespace CellNft

/-- Runs a stage that a value is the name of. -/
def Run.stageOf {α : Type} (name : Value) (x : Run α) : Run α := do
  Run.logNaming .debug [name] ("Stage[" ++ name.display ++ "]")
  match ← Run.observe x with
  | .ok a => return a
  | .error (.stage inner cause) => throw (.stage inner cause)
  | .error cause => throw (.stage name cause)

/-- Runs a stage. -/
def Run.stage {α : Type} (name : Text) (x : Run α) : Run α := Run.stageOf (.str name) x

namespace Cota

namespace Submission

/-- The dep of the default lock: the configured one, or the one of the genesis block. -/
def lockDep (s : Service) (fixed : Bool) : Run Value :=
  if fixed then
    match s.secp256k1Dep with
    | some dep => return .dict dep
    | none => throw .depNotConfigured
  else s.collector.secp256k1Dep

/-- A transaction with one more cell dep. -/
def appendDep (tx dep : Value) : Except Fault Value := do
  match ← tx.item "cellDeps" with
  | .list deps => return .dict (Dict.set (← tx.entries) (.str "cellDeps") (.list (deps ++ [dep])))
  | _ => throw .noSuchMethod

/-- The transaction with the dep of the default lock. -/
def addDep (s : Service) (tx : Value) (fixed : Bool) : Run Value := do
  let dep ← Run.stage "load secp256k1 dep" (lockDep s fixed)
  appendDep tx dep

/-- Whether the arguments of a lock are a text, in whatever case. Bytes are none. -/
def areArgs (text : Text) : Value → Except Fault Bool
  | .bytes _ => .ok false
  | args => do return text = Text.lower (← args.text)

/-- Checks that a key opens a lock. -/
def checkKey (key lock : Value) : Except Fault Unit := do
  let own ← Signing.lockArgs key
  let args ← lock.item "args"
  if !(← areArgs own args) then throw (.keyMismatch own args)

/-- Whether a node's answer is the hash of a transaction. -/
def isHash (hash : Value) : Bool :=
  match hash with
  | .str t => Hex.isHash32Text t
  | _ => false

/-- Hands in a signed transaction. -/
def send (s : Service) (signed : Value) : Run Value := do
  let hash ← s.collector.node.sendTransaction signed
  if isHash hash then return hash else throw (.naming [hash] (.hashFormat hash))

/-- Waits until a sent transaction is committed. -/
def wait (s : Service) (hash : Value) : Run Unit := do
  let _ ← s.collector.node.waitForTransaction hash
  Run.logNaming .info [hash] ("Transaction Committed[" ++ hash.display ++ "]")

/-- Signs and sends a transaction that has all its deps; answers its hash. -/
def finish (s : Service) (tx key lock : Value) (waiting : Bool) : Run Value := do
  Run.stage "check key" (checkKey key lock)
  let signed ← Run.stage "sign transaction" (Signing.sign tx key)
  Run.printLine (← Json.write .compact signed)
  let hash ← Run.stage "send transaction" (send s signed)
  if waiting then Run.stage "wait transaction" (wait s hash)
  return hash

/-- Adds the dep, signs and sends. -/
def signAndSend (s : Service) (tx key lock : Value) (fixed waiting : Bool) : Run Value := do
  finish s (← addDep s tx fixed) key lock waiting

/-- The serialised lock of a receiver. -/
def receiverLock (request : Value) : Except Fault Value := do
  return .str (← Script.serialize (← Address.scriptValue (← request.item "to_address")))

/-- What a mint asks of the aggregator for one token. -/
def withdrawal (w : Value) : Except Fault Value := do
  let state ← w.item "state"
  let characteristic ← w.item "characteristic"
  return .record [
    ("state", state), ("characteristic", characteristic), ("toLockScript", ← receiverLock w)]

/-- What a transfer asks of the aggregator for one token. -/
def transfer (t : Value) : Except Fault Value := do
  let cotaId ← t.item "cota_id"
  let tokenIndex ← t.item "token_index"
  return .record [
    ("cotaId", cotaId), ("tokenIndex", tokenIndex), ("toLockScript", ← receiverLock t)]

end Submission

open Submission in
/-- Mints tokens of a collection from an issuer's account to receivers. -/
def mintNft (config issuer cotaId withdrawals : Value) (fixed waiting : Bool) : Run Value := do
  let service ← Run.stage "load service" (Service.ofConfig config)
  let (lock, info) ← Run.stage "decode address" do
    let lock ← Address.scriptValue (← issuer.item "address")
    let list ← (← withdrawals.elements).mapM fun w => (withdrawal w : Run Value)
    return (lock, Value.record [("cotaId", cotaId), ("withdrawals", .list list)])
  let tx ← Run.stage "generate transaction" (Mint.transaction service lock info)
  let hash ← signAndSend service tx (← issuer.item "private_key") lock fixed waiting
  Run.logNaming .info [hash] ("Mint cota nft tx has been sent with tx hash " ++ hash.display)
  return hash

open Submission in
/-- Transfers tokens that the account of `withdrawalAddress` withdrew to the sender. -/
def transferNft (config sender withdrawalAddress transfers : Value) (fixed waiting : Bool) :
    Run Value := do
  let service ← Run.stage "load service" (Service.ofConfig config)
  let (lock, withdrawalLock, list) ← Run.stage "decode address" do
    let lock ← Address.scriptValue (← sender.item "address")
    let withdrawalLock ← Address.scriptValue withdrawalAddress
    let list ← (← transfers.elements).mapM fun t => (transfer t : Run Value)
    return (lock, withdrawalLock, Value.list list)
  let tx ← Run.stage "generate transaction" (Transfer.transaction service lock withdrawalLock list)
  let hash ← signAndSend service tx (← sender.item "private_key") lock fixed waiting
  Run.logNaming .info [hash] ("Transfer cota nft tx has been sent with tx hash " ++ hash.display)
  return hash

end Cota
end CellNft
