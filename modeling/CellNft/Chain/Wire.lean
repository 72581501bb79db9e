/-
CellNft.Chain.Wire — the form in which a transaction goes to a node.

Every key is in snake case, and so are the types of the cell deps, which are values.
-/
import CellNft.KeyCase

namespace CellNft.Wire

/-- A text in snake case. -/
def snakeValue : Value → Except Fault Value
  | .str t => .ok (.str (KeyCase.snake t))
  | _ => .error .wrongType

/-- A cell dep with its type in snake case. -/
def cellDep (dep : Value) : Except Fault Value := do
  let depType ← snakeValue (← dep.item "dep_type")
  return .dict (Dict.set (← dep.entries) (.str "dep_type") depType)

/-- The cell deps of a transaction. -/
def cellDeps (deps : Value) : Except Fault Value := do
  let converted ← (← deps.elements).mapM cellDep
  match deps with
  | .list _ => return .list converted
  | _ => return deps

/-- The transaction as a node wants it. -/
def transaction (tx : Value) : Except Fault Value := do
  let converted ← tx.snakeKeys
  let deps ← cellDeps (← converted.item "cell_deps")
  return .dict (Dict.set (← converted.entries) (.str "cell_deps") deps)

end CellNft.Wire
