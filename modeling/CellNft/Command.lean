/-
CellNft.Command — the commands of the program.

A command reads the settings of the test network and the accounts, and runs one flow with them:

* `mint` issues two tokens of the collection to the two receivers;
* `transfer1` moves a token from the first receiver to the second, with the configured dep;
* `transfer2` moves a token back, with the dep of the genesis block;
* `query` reports on the second receiver and prints the report.

A failure that the program knows of is logged, and the exit code is one. Every other failure
escapes.
-/
import CellNft.Cota.Account
import CellNft.Settings

namespace CellNft

inductive Command where
  | mint | transfer1 | transfer2 | query
deriving DecidableEq

namespace Command

def all : List Command := [mint, transfer1, transfer2, query]

def name : Command → String
  | mint => "mint"
  | transfer1 => "transfer1"
  | transfer2 => "transfer2"
  | query => "query"

def ofName? (name : String) : Option Command := all.find? (·.name = name)

/-- Where a command finds its files. -/
structure Environment where
  files : Files.Tree
  /-- The folder of the settings, and of the accounts unless another file is named. -/
  home : String
  accountsFile : Option Text := none

/-- The settings of the test network that the program comes with. -/
def settings : String := r#"ckb:
  testnet:
    ckb_node_url: http://localhost:8114
    ckb_indexer_url: http://localhost:8116
    registry_url: http://localhost:3050
    cota_url: http://localhost:3030
    timeout: 180
    fee: 1000
    cota_type_script:
      code_hash: "0x89cd8003a0eaf8e65e0c31525b7d1d5c1becefd2ea75bb4cff87810ae37764d8"
      hash_type: type
      args: "0x"
    cota_cell_dep:
      out_point:
        tx_hash: "0xd8c7396f955348bd74a8ed4398d896dad931977b7c1e3f117a7d5dc3c8a9b15a"
        index: "0x0"
      dep_type: dep_group
    secp256k1_dep:
      out_point:
        tx_hash: "0xf8de3bb47d055cdf460d93a2a6e1b05f7432f9777c8c474abf4eec1d4aee5d37"
        index: "0x0"
      dep_type: dep_group
"#

def settingsFile (home : String) : String := home ++ "/cota.yaml"
def accountsFile (home : String) : String := home ++ "/accounts.yaml"

/-- The files of a user, together with the settings that the program comes with. -/
def install (home : String) (files : Files.Tree) : Files.Tree :=
  match (Files.Path.ofText (settingsFile home)).systemNames with
  | .ok names => files.write names settings
  | .error _ => files

/-- The collection that all commands are about. -/
def collection : Value := .str "0x096b5d210b3b32fab6f8fbd937e21b06b5d91e86"

/-- The address of an account. -/
def addressOf (accounts : Value) (name : String) : Except Fault Value := do
  (← Settings.account accounts (.str name) false).item "address"

def signer (accounts : Value) (name : String) : Except Fault Value :=
  Settings.account accounts (.str name) true

/-- A token to be issued to an account. -/
def issue (accounts : Value) (receiver : String) : Except Fault Value := do
  let address ← addressOf accounts receiver
  return .record [
    ("state", .str "0x00"),
    ("characteristic", .str "0x0505050505050505050505050505050505050505"),
    ("to_address", address)]

/-- One token for each receiver. -/
def issues (accounts : Value) : Except Fault Value :=
  Value.list <$> ["receiver1", "receiver2"].mapM (issue accounts)

/-- A token to be moved to an account. -/
def move (accounts : Value) (token receiver : String) : Except Fault Value := do
  let address ← addressOf accounts receiver
  return .record [
    ("cota_id", collection), ("token_index", .str token), ("to_address", address)]

/-- Moves a token that the issuer has withdrawn to its holder. -/
def transfer (config accounts : Value) (holder token receiver : String) (fixed : Bool) :
    Run Unit := do
  let sender ← signer accounts holder
  let request ← move accounts token receiver
  let issuer ← addressOf accounts "issuer"
  let _ ← Cota.transferNft config sender issuer (.list [request]) fixed false

/-- The flow of a command. -/
def flow (config accounts : Value) : Command → Run Unit
  | mint => do
    let issuer ← signer accounts "issuer"
    let withdrawals ← issues accounts
    let _ ← Cota.mintNft config issuer collection withdrawals false false
  | transfer1 => transfer config accounts "receiver1" "0x0000001a" "receiver2" true
  | transfer2 => transfer config accounts "receiver2" "0x00000015" "receiver1" false
  | query => do
    let address ← addressOf accounts "receiver2"
    let report ← Cota.queryAccount config address collection (.str "0x0000001a")
    Run.printLine (← Json.write .indented report)

/-- Reads the files and runs the flow. -/
def start (c : Command) (e : Environment) : Run Unit := do
  let config ← Settings.network e.files (.str (settingsFile e.home)) (.str "ckb") (.str "testnet")
  let accounts ← Settings.accounts e.files e.accountsFile (.str (accountsFile e.home))
  flow config accounts c

/-- Runs a command; answers the exit code. -/
def run (c : Command) (e : Environment) : Run Nat := do
  match ← Run.observe (start c e) with
  | .ok _ => return 0
  | .error f =>
    if f.kind.isA .cota then
      Run.log .error f.message
      return 1
    else throw f

end Command
end CellNft
