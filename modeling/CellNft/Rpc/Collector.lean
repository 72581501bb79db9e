/-
CellNft.Rpc.Collector — the live cells of an owner, and the cell dep of the default lock.

`Indexer` is the server that knows live cells. A `Collector` asks it for the cells of a lock, and
asks a node for the genesis block, whose second transaction holds the dep.
-/
import CellNft.Rpc.Node

namespace CellNft.Rpc

structure Indexer where
  client : Client

namespace Indexer

def tip (i : Indexer) : Run Value := i.client.callCamel "get_tip" .null

/-- The cells of a search, from a cursor on if there is one. -/
def cells (i : Indexer) (searchKey : Value) (order : Value := .str "asc")
    (limit : Value := .int 100) (after : Value := .null) : Run Value := do
  let page := [searchKey, order, .str (← Hex.writeInt limit)]
  i.client.callCamel "get_cells" (.list (if after.holds then page ++ [after] else page))

end Indexer

structure Collector where
  node : Node
  indexer : Indexer

namespace Collector

/-- What to search for: the cells of a lock, and of a type if there is one. -/
def searchKey (lock type : Value) : Except Fault Value := do
  let script ← lock.snakeKeys
  let fields := [("script", script), ("script_type", Value.str "lock")]
  if type.holds then
    return .record (fields ++ [("filter", .record [("script", ← type.snakeKeys)])])
  else return .record fields

/-- The live cells of a lock. -/
def cells (c : Collector) (lock : Value) (type : Value := .null) : Run Value := do
  let result ← c.indexer.cells (← searchKey lock type)
  let cells := (← result.field "objects").orElse (.list [])
  let count ← cells.length
  let args ← lock.item "args"
  Run.logNaming .debug [args]
    ("Cells Found[" ++ toString count ++ "] lock[" ++ args.display ++ "]")
  return cells

/-- The dep group of the default lock. -/
def secp256k1Dep (c : Collector) : Run Value := do
  let genesis ← c.node.blockByNumber (.int 0)
  let transactions := (← genesis.field "transactions").orElse (.list [])
  if (← transactions.length) < 2 then throw .genesisDepMissing
  let hash ← (← transactions.select (.int 1)).item "hash"
  return .record [
    ("outPoint", .record [("txHash", hash), ("index", .str "0x0")]), ("depType", .str "depGroup")]

end Collector
end CellNft.Rpc
