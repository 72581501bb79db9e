/-
CellNft.Cota.Service — the settings of a network, and the cell that holds an account's tokens.

* `Service.ofConfig` reads the settings; a setting that is not there is `Fault.settingMissing`.
* `Service.cotaCell` finds the token cell of a lock.
* `Service.output` and `Service.outputData` say what becomes of that cell when it is spent: it pays
  the fee and commits to a new root.
-/
import CellNft.Cota.Aggregator
import CellNft.Rpc.Collector

namespace CellNft.Cota

structure Service where
  collector : Rpc.Collector
  aggregator : Aggregator
  cotaTypeScript : Dict
  cotaCellDep : Dict
  /-- The dep of the default lock, if it is configured. -/
  secp256k1Dep : Option Dict
  fee : Int

namespace Service

def defaultTimeout : Int := 180
def defaultFee : Int := 1000

/-- A cell dep of the settings, in the form that transactions have. -/
def cellDep (conf : Value) : Except Fault Dict := do
  let txHash ← (← conf.item "outPoint").item "txHash"
  let index ← (← conf.item "outPoint").item "index"
  let depType ← (← conf.fieldOr "depType" (.str "dep_group")).text
  return Dict.ofFields [
    ("outPoint", .record [("txHash", txHash), ("index", index)]),
    ("depType", .str (KeyCase.camel depType))]

/-- Reads the settings one after the other. -/
def readConfig (config : Value) : Except Fault Service := do
  let timeout ← config.fieldOr "timeout" (.int defaultTimeout)
  let server (url : Value) : Rpc.Client := ⟨url, timeout⟩
  let node ← config.item "ckbNodeUrl"
  let indexer ← config.item "ckbIndexerUrl"
  let registry ← config.item "registryUrl"
  let cota ← config.item "cotaUrl"
  let secp256k1Dep ←
    if (← config.field "secp256k1Dep").holds then some <$> cellDep (← config.item "secp256k1Dep")
    else pure none
  let cotaTypeScript ← (← config.item "cotaTypeScript").toDict
  let cotaCellDep ← cellDep (← config.item "cotaCellDep")
  let fee ← (← config.fieldOr "fee" (.int defaultFee)).toInt
  return {
    collector := ⟨⟨server node⟩, ⟨server indexer⟩⟩
    aggregator := ⟨server registry, server cota⟩
    cotaTypeScript, cotaCellDep, secp256k1Dep, fee }

/-- The service of the settings of a network. -/
def ofConfig (config : Value) : Except Fault Service :=
  match readConfig config with
  | .error (.missingKey key) => .error (.settingMissing key)
  | r => r

/-- The first token cell of a lock. -/
def cotaCell (s : Service) (lock : Value) : Run Value := do
  let cells ← s.collector.cells lock (.dict s.cotaTypeScript)
  if !cells.holds then
    let args ← lock.item "args"
    throw (.naming [args] (.cellMissing args))
  cells.first

/-- The fee of a transaction: the one asked for, unless it is null. -/
def feeOr (s : Service) (fee : Value) : Except Fault Scalar :=
  match fee with
  | .null => .ok (.int s.fee)
  | fee => fee.toScalar

/-- The capacity that is left of a capacity after a fee; it must be positive. -/
def capacityAfter (shown : Value) (capacity : Int) (fee : Scalar) : Except Fault String := do
  let left ← (Scalar.int capacity).sub fee
  match left.number? with
  | none => throw .wrongType
  | some x =>
    if x.lt (.int 0) || x.eq (.int 0) then throw (.capacityTooSmall shown)
    Hex.writeInt (.scalar left)

/-- The output that takes the place of a token cell. -/
def output (s : Service) (cell fee : Value) : Except Fault Value := do
  let output ← (← cell.item "output").toDict
  let shown ← (Value.dict output).item "capacity"
  let capacity ← Hex.readInt shown
  let left ← capacityAfter shown capacity (← s.feeOr fee)
  return .dict (Dict.set output (.str "capacity") (.str left))

/-- The first byte of the data of a cell, which is the version of its layout. -/
def versionDigits (data : Bytes) : List Char :=
  match data with
  | [] => ['0', '0']
  | version :: _ => Hex.digits [version]

/-- The version of a token cell's data, and the digits of a new root. -/
def versionAndRoot (cell root : Value) : Except Fault (Text × Text) := do
  let data ← Hex.decodeValue ((← cell.field "outputData").orElse (.str "0x00"))
  let root ← root.text
  return (Text.ofChars (versionDigits data), Hex.dropMark root)

/-- The data that takes the place of a token cell's data: the version stays, and the root behind it
is the new one. -/
def outputData (cell root : Value) : Run Text := do
  let (version, root) ← versionAndRoot cell root
  Run.log .debug ("Cota Cell Data Version[" ++ version ++ "] Root[" ++ root ++ "]")
  return "0x" ++ version ++ root

end Service
end CellNft.Cota
