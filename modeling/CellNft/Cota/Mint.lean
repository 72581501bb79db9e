/-
CellNft.Cota.Mint — the transaction that mints tokens of a collection.

Each withdrawal of a token says who gets it. One that does not come with a token index gets the next
one after those that the collection has issued: the number issued so far, plus the place of the
withdrawal.
-/
import CellNft.Chain.OutPoint
import CellNft.Cota.Service

namespace CellNft.Cota

/-- The transaction that spends a token cell, before it is signed. -/
def spending (s : Service) (cell fee : Value) (deps : List Value) (action : Text)
    (root : Except Fault Value) (entry : Except Fault Value) : Run Value := do
  let outPoint ← cell.item "outPoint"
  let output ← s.output cell fee
  let data ← Service.outputData cell (← root)
  let inputType := action ++ Hex.dropMark (← (← entry).text)
  return .record [
    ("version", .str "0x0"),
    ("cellDeps", .list deps),
    ("headerDeps", .list []),
    ("inputs", .list [.record [("previousOutput", outPoint), ("since", .str "0x0")]]),
    ("outputs", .list [output]),
    ("outputsData", .list [.str data]),
    ("witnesses", .list [.record [
      ("lock", .str ""), ("inputType", .str inputType), ("outputType", .str "")]])]

namespace Mint

/-- The action byte of a mint entry. -/
def action : Text := "0x02"

/-- The token index of the withdrawal at a place. -/
def tokenIndex (issued : Value) (place : Nat) (withdrawal : Value) : Except Fault Value := do
  let given ← withdrawal.field "tokenIndex"
  if given.holds then return given
  let index ← (← issued.toScalar).add (.int place)
  return .str (← Hex.writeU32 (.scalar index))

/-- The withdrawals from a place on, each with its token index. -/
def withIndexes (issued : Value) : Nat → List Value → Except Fault (List Value)
  | _, [] => .ok []
  | place, w :: rest => do
    let index ← tokenIndex issued place w
    let indexed := Value.dict (Dict.set (← w.entries) (.str "tokenIndex") index)
    return indexed :: (← withIndexes issued (place + 1) rest)

/-- Asks how many tokens of the collection are issued, and gives the withdrawals their indexes. -/
def assignIndexes (s : Service) (cotaId withdrawals : Value) : Run (List Value) := do
  let define ← s.aggregator.define (.record [("cotaId", cotaId)])
  match ← define.field "issued" with
  | .null => throw (.naming [cotaId] (.collectionUnknown cotaId))
  | issued => withIndexes issued 0 (← withdrawals.elements)

/-- The transaction that mints, before it is signed. -/
def transaction (s : Service) (lock info : Value) (fee : Value := .null) : Run Value := do
  let cell ← s.cotaCell lock
  let cotaId ← info.item "cotaId"
  let withdrawals ← assignIndexes s cotaId (← info.item "withdrawals")
  let request := Value.record [
    ("lockScript", .str (← Script.serialize lock)),
    ("cotaId", cotaId),
    ("outPoint", .str (← OutPoint.tail (← cell.item "outPoint"))),
    ("withdrawals", .list withdrawals)]
  let smt ← s.aggregator.mintSmt request
  let tokens ← withdrawals.mapM (·.item "tokenIndex")
  let block ← smt.field "blockNumber"
  Run.logNaming .info [cotaId, .list tokens, block] ("Mint SMT Generated[" ++ cotaId.display
    ++ "] Tokens" ++ (Value.list tokens).display ++ " Block[" ++ block.display ++ "]")
  spending s cell fee [.dict s.cotaCellDep] action (smt.item "smtRootHash")
    (smt.item "mintSmtEntry")

end Mint
end CellNft.Cota
