/-
CellNft.Rpc.Node — what is asked of a node of the chain.

`Node.waitForTransaction` polls until the transaction is committed. Only a reply without a decisive
status is followed by another poll; there are at most thirty, five seconds apart.
-/
import CellNft.Chain.Wire
import CellNft.Hex
import CellNft.Rpc.Client
import CellNft.Rpc.Retry

namespace CellNft.Rpc

structure Node where
  client : Client

namespace Node

def tipBlockNumber (n : Node) : Run Value := do
  return .int (← Hex.readInt (← n.client.call "get_tip_block_number" .null))

def blockByNumber (n : Node) (number : Value) : Run Value := do
  let block ← n.client.call "get_block_by_number" (.list [.str (← Hex.writeInt number)])
  if !block.holds then throw (.naming [number] (.blockUnknown number))
  block.camelKeys

/-- The transaction of a hash and its status, or null. -/
def transaction (n : Node) (hash : Value) : Run Value := do
  let tx ← n.client.call "get_transaction" (.list [hash])
  if tx.holds then tx.camelKeys else return .null

/-- Hands in a transaction and answers its hash. -/
def sendTransaction (n : Node) (tx : Value) (validator : Value := .str "passthrough") :
    Run Value := do
  let wire ← Wire.transaction tx
  let hash ← n.client.call "send_transaction" (.list [wire, validator])
  Run.logNaming .debug [hash] ("Transaction Sent[" ++ hash.display ++ "]")
  return hash

/-- The status in what a node says about a transaction. -/
def statusOf (tx : Value) : Except Fault Value := do
  (← (tx.orElse (.dict [])).fieldOr "txStatus" (.dict [])).field "status"

/-- Asks once whether a transaction is committed. -/
def poll (n : Node) (hash : Value) : Run Value := do
  let tx ← n.transaction hash
  let status ← statusOf tx
  if status.same (.str "committed") then return tx
  if status.same (.str "rejected") then
    let reason ← (← tx.item "txStatus").field "reason"
    throw (.naming [hash, reason] (.rejected hash reason))
  throw (.naming [hash, status] (.notCommitted hash status))

/-- The number of polls. -/
def polls : Nat := 30

def pollOptions : Retry.Options := {
  tries := .int polls, delay := .int 5, retryable := [.notCommitted] }

/-- The name of the polling in log lines. -/
def pollName : String := "CkbNodeRPC.wait_for_transaction"

/-- Waits until a transaction is committed, and answers it. The tries end with the last poll, so the
polls never outlast them. -/
def waitForTransaction (n : Node) (hash : Value) : Run Value := do
  match ← Retry.run .cooperative pollOptions pollName (fun _ => n.poll hash) polls with
  | some tx => return tx
  | none => throw (.notCommitted hash .null)

end Node
end CellNft.Rpc
