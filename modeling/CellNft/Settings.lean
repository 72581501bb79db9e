/-
CellNft.Settings — the settings of networks and the accounts of users, read from files.

* `Settings.load` reads a document; a file without content is an empty dictionary.
* `Settings.network` picks the settings of one network of one chain and spells their keys in camel
  case.
* `Settings.accounts` reads the accounts, each of which must have an address, and if it has a
  private key, one of 32 bytes in hex. The environment can name another file.
* `Settings.account` picks one account; who signs needs a private key.

A number in a document may be too long to be written. Where a failure would have to name it, which
is what `Fault.naming` says, or where it stands in the place of a key, this is the failure.
-/
import CellNft.Files.Tree
import CellNft.Hex
import CellNft.KeyCase
import CellNft.Yaml.Document

namespace CellNft.Settings

/-- The document in a file. -/
def load (files : Files.Tree) (path : Value) : Except Fault Value := do
  match path with
  | .str text =>
    let p := Files.Path.ofText text
    match ← files.find p with
    | none => throw (.fileMissing p.text)
    | some .folder => throw .directory
    | some (.file text) => return (← Yaml.parse text).orElse (.dict [])
  | _ => throw .wrongType

/-- The settings of a network. -/
def network (files : Files.Tree) (path : Value) (chain network : Value) : Except Fault Value := do
  let settings ← load files path
  let unknown := Fault.naming [chain, network] (.chainUnknown chain network)
  if !(← settings.member chain) then throw unknown
  let networks ← settings.select chain
  if !(← networks.member network) then throw unknown
  (← networks.select network).camelKeys

/-- Whether a value is a private key, by its text. -/
def isKey (key : Value) : Except Fault Bool :=
  if key.isWritable then .ok (Hex.isHash32Text key.display) else .error .unwritable

/-- Checks one account. -/
def checkAccount (name : Scalar) (account : Value) : Except Fault Unit := do
  if !(← account.member (.str "address")) then
    throw (.naming [.scalar name] (.accountWithoutAddress name))
  let key ← account.field "private_key"
  if key.holds then
    if !(← isKey key) then throw (.naming [.scalar name] (.accountKeyFormat name))

/-- All accounts of a file, or of the file that `override` names. -/
def accounts (files : Files.Tree) (override : Option Text) (path : Value) :
    Except Fault Value := do
  let path := match override with
    | some other => if other.isEmpty then path else .str other
    | none => path
  let found := (← (← load files path).field "accounts").orElse (.dict [])
  (← found.entries).forM fun e => checkAccount e.1 e.2
  return found

/-- The account of a name. -/
def account (accounts name : Value) (signer : Bool) : Except Fault Value := do
  if !(← accounts.member name) then throw (.naming [name] (.accountUnknown name))
  let account ← accounts.select name
  if signer then
    let key ← account.field "private_key"
    if !key.holds then throw (.naming [name] (.accountWithoutKey name))
  return account

end CellNft.Settings
