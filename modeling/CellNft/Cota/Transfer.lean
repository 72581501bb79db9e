/-
CellNft.Cota.Transfer — the transaction that passes tokens on.

The tokens were withdrawn to the sender by another account, whose token cell the transaction refers
to as a dep.
-/
import CellNft.Cota.Mint

namespace CellNft.Cota.Transfer

/-- The action byte of a transfer entry. -/
def action : Text := "0x06"

/-- The transaction that transfers, before it is signed. -/
def transaction (s : Service) (lock withdrawalLock transfers : Value) (fee : Value := .null) :
    Run Value := do
  let cell ← s.cotaCell lock
  let withdrawalCell ← s.cotaCell withdrawalLock
  let request := Value.record [
    ("lockScript", .str (← Script.serialize lock)),
    ("withdrawalLockHash", .str (← Script.hashText withdrawalLock)),
    ("transferOutPoint", .str (← OutPoint.tail (← cell.item "outPoint"))),
    ("transfers", transfers)]
  let smt ← s.aggregator.transferSmt request
  let tokens ← (← transfers.elements).mapM (·.item "tokenIndex")
  let block ← smt.field "blockNumber"
  Run.logNaming .info [.list tokens, block] ("Transfer SMT Generated Tokens"
    ++ (Value.list tokens).display ++ " Block[" ++ block.display ++ "]")
  let outPoint ← withdrawalCell.item "outPoint"
  let dep := Value.record [("outPoint", outPoint), ("depType", .str "code")]
  spending s cell fee [dep, .dict s.cotaCellDep] action (smt.item "smtRootHash")
    (smt.item "transferSmtEntry")

end CellNft.Cota.Transfer
