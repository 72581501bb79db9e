/-
CellNft.Cota.Aggregator — the servers that keep the books of all tokens.

The registry knows which locks are registered; the CoTA server knows tokens and builds the entries
that move them. Parameters are given and results come back with keys in camel case.
-/
import CellNft.Rpc.Client

namespace CellNft.Cota

structure Aggregator where
  registry : Rpc.Client
  cota : Rpc.Client

namespace Aggregator

/-- Asks a server, which wants keys in snake case. -/
def ask (server : Rpc.Client) (method : Text) (params : Value) : Run Value := do
  server.callCamel method (← params.snakeKeys)

def registered (a : Aggregator) (lockHashes : Value) : Run Value :=
  ask a.registry "check_registered_lock_hashes" lockHashes

def mintSmt (a : Aggregator) (params : Value) : Run Value :=
  ask a.cota "generate_mint_cota_smt" params

def transferSmt (a : Aggregator) (params : Value) : Run Value :=
  ask a.cota "generate_transfer_cota_smt" params

/-- The tokens an account holds. -/
def held (a : Aggregator) (params : Value) : Run Value := ask a.cota "get_hold_cota_nft" params

/-- The tokens an account has withdrawn to others. -/
def withdrawn (a : Aggregator) (params : Value) : Run Value :=
  ask a.cota "get_withdrawal_cota_nft" params

/-- The tokens an account has minted. -/
def minted (a : Aggregator) (params : Value) : Run Value := ask a.cota "get_mint_cota_nft" params

def claimed (a : Aggregator) (params : Value) : Run Value := ask a.cota "is_claimed" params

/-- Who sent a token. -/
def sender (a : Aggregator) (params : Value) : Run Value := ask a.cota "get_cota_nft_sender" params

/-- A collection. -/
def define (a : Aggregator) (params : Value) : Run Value := ask a.cota "get_define_info" params

def issuer (a : Aggregator) (params : Value) : Run Value := ask a.cota "get_issuer_info" params

/-- The aggregator itself. -/
def info (a : Aggregator) : Run Value := ask a.cota "get_aggregator_info" (.list [])

end Aggregator
end CellNft.Cota
