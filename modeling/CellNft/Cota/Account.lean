/-
CellNft.Cota.Account — a report on an account: whether it is registered, which tokens it holds, has
withdrawn and has minted, and, for one collection or one token, what is known of that.
-/
import CellNft.Cota.Submission

namespace CellNft.Cota

namespace Account

/-- The serialised lock and the lock hash of an address. -/
def locate (address : Value) : Except Fault (String × String) := do
  let lock ← Address.scriptValue address
  return (← Script.serialize lock, ← Script.hashText lock)

/-- Asks the aggregator for every part of the report, in order. -/
def ask (a : Aggregator) (lockScript lockHash : String) (cotaId tokenIndex page pageSize : Value) :
    Run (List (String × Value)) := do
  let info ← a.info
  let registered ← a.registered (.list [.str lockHash])
  let owner := [("lockScript", Value.str lockScript)]
  let collection := if cotaId.holds then [("cotaId", cotaId)] else []
  let fetch := Value.record (owner ++ [("page", page), ("pageSize", pageSize)] ++ collection)
  let held ← a.held fetch
  let withdrawn ← a.withdrawn fetch
  let minted ← a.minted fetch
  let issuer ← a.issuer (.record owner)
  let general := [
    ("aggregator", info), ("registered", registered), ("hold", held), ("withdrawal", withdrawn),
    ("mint", minted), ("issuer", issuer)]
  if !cotaId.holds then return general
  let define ← a.define (.record collection)
  if !tokenIndex.holds then return general ++ [("define", define)]
  let token := Value.record (owner ++ collection ++ [("tokenIndex", tokenIndex)])
  let claimed ← a.claimed token
  let sender ← a.sender token
  return general ++ [("define", define), ("claimed", claimed), ("sender", sender)]

end Account

/-- The report on the account of an address. -/
def queryAccount (config address : Value) (cotaId tokenIndex : Value := .null)
    (page : Value := .int 0) (pageSize : Value := .int 10) : Run Value := do
  let service ← Run.stage "load service" (Service.ofConfig config)
  let (lockScript, lockHash) ← Run.stage "decode address" (Account.locate address)
  let parts ← Run.stage "query aggregator"
    (Account.ask service.aggregator lockScript lockHash cotaId tokenIndex page pageSize)
  let report := Value.record ([("address", address), ("lockHash", .str lockHash)] ++ parts)
  let held ← (← report.item "hold").field "total"
  let withdrawn ← (← report.item "withdrawal").field "total"
  Run.logNaming .info [address, held, withdrawn]
    ("Account[" ++ address.display ++ "] hold[" ++ held.display ++ "] withdrawal["
      ++ withdrawn.display ++ "]")
  return report

end CellNft.Cota
