/-
CellNft.Proofs.Sessions — no two requests of a process bear one number.

An `Operation` is what a process can ask of its clients, and a session is operations one after the
other, whether they fail or not. Each operation has its condition (`Operation.CanAsk`): JSON carries
what it is given, and the settings, if it reads them, name servers.

`Operation.session_ids`: every call takes the next number. The requests of a session bear increasing
numbers, and where the conditions hold they bear all numbers from one on. `not_session_ids` has
sessions in which the first number is left out.
-/
import CellNft.Cota.Account
import CellNft.Proofs.Numbering

namespace CellNft

open Outcome

/-- The record of an address has a JSON text. -/
theorem Address.carried_scriptValue {address lock : Value}
    (h : Address.scriptValue address = .ok lock) : Json.Carried lock := by
  unfold Address.scriptValue at h
  split at h
  · obtain ⟨script, -, rfl⟩ := map_eq_ok.mp h
    exact Json.carried_record.mpr (by simp)
  · cases h

namespace Cota

variable {network : Network} {certain : Prop}

/-! ## Flows -/

/-- The settings under which the servers are. -/
def serverKeys : List String := ["ckbNodeUrl", "ckbIndexerUrl", "registryUrl", "cotaUrl"]

/-- The servers in the settings are named and JSON carries the type of cells, where they are
there. -/
structure ConfigCanAsk (config : Value) : Prop where
  servers : ∀ key ∈ serverKeys, ∀ v, config.item key = .ok v → ∃ url, v = .str url
  type : ∀ v, config.item "cotaTypeScript" = .ok v → Json.Carried v

/-- The two kinds of settings, with a fixed dep and without one, are read in the same order up to the
type of cells. -/
theorem ConfigCanAsk.service {config : Value} (h : ConfigCanAsk config) {s : Service}
    (hs : Service.ofConfig config = .ok s) : s.CanAsk := by
  have hread := Service.readConfig_of_ofConfig hs
  simp only [Service.readConfig, bind_eq_ok] at hread
  obtain ⟨timeout, -, node, hnode, indexer, hindexer, registry, hregistry, cota, hcota, own, -,
    hread⟩ := hread
  have hnode := h.servers _ (by decide) _ hnode
  have hindexer := h.servers _ (by decide) _ hindexer
  have hregistry := h.servers _ (by decide) _ hregistry
  have hcota := h.servers _ (by decide) _ hcota
  split at hread
  · simp only [bind_eq_ok] at hread
    obtain ⟨_, -, _, -, script, hscript, d, hd, _, -, _, -, _, -, _, -, hs⟩ := hread
    obtain rfl := Except.ok.inj hs
    exact ⟨⟨hnode, hindexer⟩, hregistry, hcota, (h.type _ hscript).toDict hd⟩
  · simp only [bind_eq_ok] at hread
    obtain ⟨_, -, script, hscript, d, hd, _, -, _, -, _, -, _, -, hs⟩ := hread
    obtain rfl := Except.ok.inj hs
    exact ⟨⟨hnode, hindexer⟩, hregistry, hcota, (h.type _ hscript).toDict hd⟩

section

variable {config : Value}

/-- Past loading the service. -/
theorem load_numbers {α : Type} {f : Service → Run α} {P : α → Prop}
    (h : certain → ConfigCanAsk config)
    (hf : ∀ s : Service, (certain → s.CanAsk) → (f s).Numbers network certain P) :
    (Run.stage "load service" (liftM (Service.ofConfig config)) >>= f).Numbers network certain P :=
  (Run.Numbers.lift fun hc _ hs => (h hc).service hs).stage.bind hf

/-- What is sent of a receiver is the hex of a lock. -/
theorem Submission.carried_receiverLock {request v : Value} (h : receiverLock request = .ok v) :
    Json.Carried v := by
  obtain ⟨_, -, h⟩ := bind_eq_ok.mp h
  obtain ⟨_, -, h⟩ := bind_eq_ok.mp h
  obtain ⟨_, -, h⟩ := bind_eq_ok.mp h
  exact Except.ok.inj h ▸ Json.carried_str _

theorem Submission.carried_withdrawal {w v : Value} (hw : Json.Carried w)
    (h : withdrawal w = .ok v) : Json.Carried v := by
  obtain ⟨state, hstate, h⟩ := bind_eq_ok.mp h
  obtain ⟨characteristic, hcharacteristic, h⟩ := bind_eq_ok.mp h
  obtain ⟨receiver, hreceiver, h⟩ := bind_eq_ok.mp h
  exact Except.ok.inj h ▸ Json.carried_record.mpr (by simpa using
    ⟨hw.item hstate, hw.item hcharacteristic, carried_receiverLock hreceiver⟩)

theorem Submission.carried_transfer {t v : Value} (ht : Json.Carried t)
    (h : transfer t = .ok v) : Json.Carried v := by
  obtain ⟨cotaId, hcotaId, h⟩ := bind_eq_ok.mp h
  obtain ⟨tokenIndex, htokenIndex, h⟩ := bind_eq_ok.mp h
  obtain ⟨receiver, hreceiver, h⟩ := bind_eq_ok.mp h
  exact Except.ok.inj h ▸ Json.carried_record.mpr (by simpa using
    ⟨ht.item hcotaId, ht.item htokenIndex, carried_receiverLock hreceiver⟩)

/-- The lock of an address has a JSON text whatever the address is, so there is nothing to assume of
the account. -/
theorem mintNft_numbers {issuer cotaId withdrawals : Value} {fixed waiting : Bool}
    (h : certain → ConfigCanAsk config) (hcotaId : certain → Json.Carried cotaId)
    (hwithdrawals : certain → Json.Carried withdrawals) :
    (mintNft config issuer cotaId withdrawals fixed waiting).Numbers network certain
      fun _ => True := by
  refine load_numbers h fun s hs => ?_
  refine Run.Numbers.bind (P := fun decoded => Json.Carried decoded.1 ∧ Json.Carried decoded.2)
    (Run.Numbers.stage ?_) fun decoded hdecoded => ?_
  · refine .compute fun address _ => .compute fun lock hlock => .compute fun parts hparts => ?_
    refine (Run.Numbers.mapM fun w hw => .lift fun hc _ hv => Submission.carried_withdrawal
      ((hwithdrawals hc).elements hparts w hw) hv).bind fun list hlist => .pure fun hc => ?_
    exact ⟨Address.carried_scriptValue hlock, Json.carried_record.mpr
      (by simpa using ⟨hcotaId hc, hlist hc⟩)⟩
  · refine (Mint.transaction_numbers hs (fun hc => (hdecoded hc).1)
      fun hc => (hdecoded hc).2).stage.seq fun tx => .compute fun key _ => ?_
    exact (Submission.signAndSend_numbers hs).seq fun hash =>
      (Run.Numbers.logNaming _ _ _).seq fun _ => .pure fun _ => trivial

theorem transferNft_numbers {sender withdrawalAddress transfers : Value} {fixed waiting : Bool}
    (h : certain → ConfigCanAsk config) (htransfers : certain → Json.Carried transfers) :
    (transferNft config sender withdrawalAddress transfers fixed waiting).Numbers network certain
      fun _ => True := by
  refine load_numbers h fun s hs => ?_
  refine Run.Numbers.bind (P := fun decoded => Json.Carried decoded.1 ∧ Json.Carried decoded.2.1 ∧
    Json.Carried decoded.2.2) (Run.Numbers.stage ?_) fun decoded hdecoded => ?_
  · refine .compute fun address _ => .compute fun lock hlock => ?_
    refine .compute fun withdrawalLock hwithdrawal => .compute fun parts hparts => ?_
    refine (Run.Numbers.mapM fun t ht => .lift fun hc _ hv => Submission.carried_transfer
      ((htransfers hc).elements hparts t ht) hv).bind fun list hlist => .pure fun hc => ?_
    exact ⟨Address.carried_scriptValue hlock, Address.carried_scriptValue hwithdrawal,
      Json.carried_list.mpr (hlist hc)⟩
  · refine (Transfer.transaction_numbers hs (fun hc => (hdecoded hc).1)
      (fun hc => (hdecoded hc).2.1) fun hc => (hdecoded hc).2.2).stage.seq fun tx =>
        .compute fun key _ => ?_
    exact (Submission.signAndSend_numbers hs).seq fun hash =>
      (Run.Numbers.logNaming _ _ _).seq fun _ => .pure fun _ => trivial

/-- JSON carries what a query is asked for. -/
structure QueryCarried (cotaId tokenIndex page pageSize : Value) : Prop where
  cotaId : Json.Carried cotaId
  tokenIndex : Json.Carried tokenIndex
  page : Json.Carried page
  pageSize : Json.Carried pageSize

theorem Account.ask_numbers {a : Aggregator} {lockScript lockHash : String}
    {cotaId tokenIndex page pageSize : Value} (hregistry : certain → a.registry.NamesServer)
    (hcota : certain → a.cota.NamesServer)
    (hquery : certain → QueryCarried cotaId tokenIndex page pageSize) :
    (ask a lockScript lockHash cotaId tokenIndex page pageSize).Numbers network certain
      fun _ => True := by
  have hcollection : certain → ∀ f ∈ (if cotaId.holds then [("cotaId", cotaId)] else
      ([] : List (String × Value))), Json.Carried f.2 := by
    intro hc
    split
    · exact List.forall_mem_singleton.mpr (hquery hc).cotaId
    · exact List.forall_mem_nil _
  have hask : ∀ {method params}, (certain → Json.Carried params) →
      (Aggregator.ask a.cota method params).Numbers network certain Json.Carried :=
    Aggregator.ask_numbers hcota
  have hfetch : certain → Json.Carried (.record ([("lockScript", Value.str lockScript)]
      ++ [("page", page), ("pageSize", pageSize)]
      ++ if cotaId.holds then [("cotaId", cotaId)] else [])) := fun hc =>
    Json.carried_record.mpr (List.forall_mem_append.mpr
      ⟨by simpa using ⟨(hquery hc).page, (hquery hc).pageSize⟩, hcollection hc⟩)
  refine (hask fun _ => by simp).seq fun info => ?_
  refine (Aggregator.ask_numbers hregistry fun _ => by simp).seq fun registered => ?_
  refine (hask hfetch).seq fun held => (hask hfetch).seq fun withdrawn => ?_
  refine (hask hfetch).seq fun minted => ?_
  refine (hask fun _ => Json.carried_record.mpr (by simp)).seq fun issuer => ?_
  simp only
  split
  · exact .pure fun _ => trivial
  · -- A collection is named, and a token of it may be.
    refine (hask fun hc => Json.carried_record.mpr (hcollection hc)).seq fun define => ?_
    split
    · exact .pure fun _ => trivial
    · have htoken : certain → Json.Carried (.record ([("lockScript", Value.str lockScript)]
          ++ (if cotaId.holds then [("cotaId", cotaId)] else [])
          ++ [("tokenIndex", tokenIndex)])) := fun hc =>
        Json.carried_record.mpr (List.forall_mem_append.mpr
          ⟨List.forall_mem_append.mpr ⟨by simp, hcollection hc⟩,
            List.forall_mem_singleton.mpr (hquery hc).tokenIndex⟩)
      exact (hask htoken).seq fun claimed => (hask htoken).seq fun sender =>
        .pure fun _ => trivial

theorem queryAccount_numbers {address cotaId tokenIndex page pageSize : Value}
    (h : certain → ConfigCanAsk config)
    (hquery : certain → QueryCarried cotaId tokenIndex page pageSize) :
    (queryAccount config address cotaId tokenIndex page pageSize).Numbers network certain
      fun _ => True := by
  refine load_numbers h fun s hs => ?_
  refine (Run.Numbers.lift (P := fun _ => True) fun _ _ _ => trivial).stage.seq fun located => ?_
  refine (Account.ask_numbers (fun hc => (hs hc).registry) (fun hc => (hs hc).cota)
    hquery).stage.seq fun parts => ?_
  refine .compute fun held _ => .compute fun total _ => .compute fun withdrawal _ => ?_
  exact .compute fun withdrawn _ => (Run.Numbers.logNaming _ _ _).seq fun _ =>
    .pure fun _ => trivial

end
end Cota

/-! ## Sessions -/

/-- What a process can ask of its clients. The arguments may come from anywhere, also from what
operations before have answered. -/
inductive Operation where
  | call (c : Rpc.Client) (method params : Value)
  | tipBlockNumber (n : Rpc.Node)
  | blockByNumber (n : Rpc.Node) (number : Value)
  | transaction (n : Rpc.Node) (hash : Value)
  | sendTransaction (n : Rpc.Node) (tx validator : Value)
  | waitForTransaction (n : Rpc.Node) (hash : Value)
  | indexerTip (i : Rpc.Indexer)
  | indexerCells (i : Rpc.Indexer) (searchKey order limit after : Value)
  | liveCells (c : Rpc.Collector) (lock type : Value)
  | secp256k1Dep (c : Rpc.Collector)
  /-- Any query of the registry or the CoTA server of an aggregator. -/
  | ask (server : Rpc.Client) (method : Text) (params : Value)
  | cotaCell (s : Cota.Service) (lock : Value)
  | assignIndexes (s : Cota.Service) (cotaId withdrawals : Value)
  | mintTransaction (s : Cota.Service) (lock info fee : Value)
  | transferTransaction (s : Cota.Service) (lock withdrawalLock transfers fee : Value)
  | signAndSend (s : Cota.Service) (tx key lock : Value) (fixed waiting : Bool)
  | mintNft (config issuer cotaId withdrawals : Value) (fixed waiting : Bool)
  | transferNft (config sender withdrawalAddress transfers : Value) (fixed waiting : Bool)
  | queryAccount (config address cotaId tokenIndex page pageSize : Value)
  /-- Another operation, with tries. -/
  | retried (host : Host) (o : Retry.Options) (name : String) (fuel : Nat) (op : Operation)

namespace Operation

/-- Carries out an operation. -/
def run : Operation → Run Value
  | call c method params => c.callOf method params
  | tipBlockNumber n => n.tipBlockNumber
  | blockByNumber n number => n.blockByNumber number
  | transaction n hash => n.transaction hash
  | sendTransaction n tx validator => n.sendTransaction tx validator
  | waitForTransaction n hash => n.waitForTransaction hash
  | indexerTip i => i.tip
  | indexerCells i searchKey order limit after => i.cells searchKey order limit after
  | liveCells c lock type => c.cells lock type
  | secp256k1Dep c => c.secp256k1Dep
  | ask server method params => Cota.Aggregator.ask server method params
  | cotaCell s lock => s.cotaCell lock
  | assignIndexes s cotaId withdrawals => do
    return .list (← Cota.Mint.assignIndexes s cotaId withdrawals)
  | mintTransaction s lock info fee => Cota.Mint.transaction s lock info fee
  | transferTransaction s lock withdrawalLock transfers fee =>
    Cota.Transfer.transaction s lock withdrawalLock transfers fee
  | signAndSend s tx key lock fixed waiting =>
    Cota.Submission.signAndSend s tx key lock fixed waiting
  | mintNft config issuer cotaId withdrawals fixed waiting =>
    Cota.mintNft config issuer cotaId withdrawals fixed waiting
  | transferNft config sender withdrawalAddress transfers fixed waiting =>
    Cota.transferNft config sender withdrawalAddress transfers fixed waiting
  | queryAccount config address cotaId tokenIndex page pageSize =>
    Cota.queryAccount config address cotaId tokenIndex page pageSize
  | retried host o name fuel op => do
    return (← Retry.run host o name (fun _ => op.run) fuel).getD .null

/-- No request that an operation comes to is impossible to make: the endpoints of the clients that
it uses are texts, and JSON carries what it is given to ask for. -/
def CanAsk : Operation → Prop
  | call c method params => c.CanAsk method params
  | tipBlockNumber n | blockByNumber n _ => n.client.NamesServer
  | transaction n hash | waitForTransaction n hash => n.client.NamesServer ∧ Json.Carried hash
  | sendTransaction n tx validator =>
    n.client.NamesServer ∧ Json.Carried tx ∧ Json.Carried validator
  | indexerTip i => i.client.NamesServer
  | indexerCells i searchKey order _ after =>
    i.client.NamesServer ∧ Json.Carried searchKey ∧ Json.Carried order ∧ Json.Carried after
  | liveCells c lock type => c.NamesServers ∧ Json.Carried lock ∧ Json.Carried type
  | secp256k1Dep c => c.NamesServers
  | ask server _ params => server.NamesServer ∧ Json.Carried params
  | cotaCell s lock => s.CanAsk ∧ Json.Carried lock
  | assignIndexes s cotaId withdrawals =>
    s.CanAsk ∧ Json.Carried cotaId ∧ Json.Carried withdrawals
  | mintTransaction s lock info _ => s.CanAsk ∧ Json.Carried lock ∧ Json.Carried info
  | transferTransaction s lock withdrawalLock transfers _ =>
    s.CanAsk ∧ Json.Carried lock ∧ Json.Carried withdrawalLock ∧ Json.Carried transfers
  | signAndSend s .. => s.CanAsk
  | mintNft config _ cotaId withdrawals _ _ =>
    Cota.ConfigCanAsk config ∧ Json.Carried cotaId ∧ Json.Carried withdrawals
  | transferNft config _ _ transfers _ _ => Cota.ConfigCanAsk config ∧ Json.Carried transfers
  | queryAccount config _ cotaId tokenIndex page pageSize =>
    Cota.ConfigCanAsk config ∧ Cota.QueryCarried cotaId tokenIndex page pageSize
  | retried _ _ _ _ op => op.CanAsk

/-- Carries out operations one after the other, whether they fail or not. -/
def session (ops : List Operation) : Run (List (Except Fault Value)) :=
  ops.mapM fun op => Run.observe op.run

variable {network : Network} {certain : Prop}

/-- One case for each operation. -/
theorem run_numbers {op : Operation} (h : certain → op.CanAsk) :
    op.run.Numbers network certain fun _ => True := by
  have known : ∀ {x : Run Value} {P : Value → Prop}, x.Numbers network certain P →
      x.Numbers network certain fun _ => True := fun hx => hx.weaken fun _ _ => trivial
  induction op with
  | call c method params => exact known (Rpc.Client.callOf_numbers h)
  | tipBlockNumber n => exact n.tipBlockNumber_numbers h
  | blockByNumber n number => exact n.blockByNumber_numbers h number
  | transaction n hash => exact n.transaction_numbers (fun hc => (h hc).1) fun hc => (h hc).2
  | sendTransaction n tx validator =>
    exact known (n.sendTransaction_numbers (fun hc => (h hc).1) (fun hc => (h hc).2.1)
      fun hc => (h hc).2.2)
  | waitForTransaction n hash =>
    exact n.waitForTransaction_numbers (fun hc => (h hc).1) fun hc => (h hc).2
  | indexerTip i => exact known (Rpc.Client.callCamel_numbers h fun _ => Json.carried_null)
  | indexerCells i searchKey order limit after =>
    exact known (i.cells_numbers (fun hc => (h hc).1) (fun hc => (h hc).2.1)
      (fun hc => (h hc).2.2.1) fun hc => (h hc).2.2.2)
  | liveCells c lock type =>
    exact c.cells_numbers (fun hc => (h hc).1) (fun hc => (h hc).2.1) fun hc => (h hc).2.2
  | secp256k1Dep c => exact c.secp256k1Dep_numbers h
  | ask server method params =>
    exact known (Cota.Aggregator.ask_numbers (fun hc => (h hc).1) fun hc => (h hc).2)
  | cotaCell s lock => exact s.cotaCell_numbers (fun hc => (h hc).1) fun hc => (h hc).2
  | assignIndexes s cotaId withdrawals =>
    exact (Cota.Mint.assignIndexes_numbers (fun hc => (h hc).1) (fun hc => (h hc).2.1)
      fun hc => (h hc).2.2).seq fun _ => .pure fun _ => trivial
  | mintTransaction s lock info fee =>
    exact Cota.Mint.transaction_numbers (fun hc => (h hc).1) (fun hc => (h hc).2.1)
      fun hc => (h hc).2.2
  | transferTransaction s lock withdrawalLock transfers fee =>
    exact Cota.Transfer.transaction_numbers (fun hc => (h hc).1) (fun hc => (h hc).2.1)
      (fun hc => (h hc).2.2.1) fun hc => (h hc).2.2.2
  | signAndSend s tx key lock fixed waiting => exact Cota.Submission.signAndSend_numbers h
  | mintNft config issuer cotaId withdrawals fixed waiting =>
    exact Cota.mintNft_numbers (fun hc => (h hc).1) (fun hc => (h hc).2.1) fun hc => (h hc).2.2
  | transferNft config sender withdrawalAddress transfers fixed waiting =>
    exact Cota.transferNft_numbers (fun hc => (h hc).1) fun hc => (h hc).2
  | queryAccount config address cotaId tokenIndex page pageSize =>
    exact Cota.queryAccount_numbers (fun hc => (h hc).1) fun hc => (h hc).2
  | retried host o name fuel op ih =>
    exact (Run.Numbers.loop (fun _ => ih h) fuel 1 o.tries o.delay).seq fun _ =>
      .pure fun _ => trivial

theorem session_numbers {ops : List Operation} (h : certain → ∀ op ∈ ops, op.CanAsk) :
    (session ops).Numbers network certain fun _ => True :=
  (Run.Numbers.mapM (P := fun _ => True) fun op hop =>
    ((run_numbers fun hc => h hc op hop).observe).weaken fun _ _ => trivial).weaken
      fun _ _ => trivial

/-- **Every call takes the next number, across all clients, and its request bears it.** The requests
of a process bear some of the numbers that were taken, in order, so none is borne twice. Where no
call is impossible to make, they bear all numbers from one on. -/
theorem session_ids (network : Network) (ops : List Operation) :
    (∀ (c : Rpc.Client) (method params : Value) (w : World),
      ((c.callOf method params).exec network w).2.nextId = w.nextId + 1 ∧
      (((c.callOf method params).exec network w).2.requests.map (·.id) = w.requests.map (·.id) ∧
          ¬c.CanAsk method params ∨
        ((c.callOf method params).exec network w).2.requests.map (·.id)
            = w.requests.map (·.id) ++ [w.nextId] ∧ c.CanAsk method params)) ∧
    (((session ops).exec network {}).2.requests.map (·.id)).Sublist
      (List.range' 1 (((session ops).exec network {}).2.nextId - 1)) ∧
    ((∀ op ∈ ops, op.CanAsk) → ((session ops).exec network {}).2.requests.map (·.id)
      = List.range' 1 ((session ops).exec network {}).2.requests.length) := by
  refine ⟨fun c method params w => ?_, ?_⟩
  · obtain ⟨added, _, hafter, rfl, h⟩ := Rpc.Client.callOf_adds w
    rw [hafter, World.requests_after, List.map_append]
    rcases h with ⟨hnone, hask⟩ | ⟨r, hone, hid, -, -, hask, -⟩
    · exact ⟨rfl, .inl ⟨by rw [hnone, List.map_nil, List.append_nil], hask⟩⟩
    · exact ⟨rfl, .inr ⟨by rw [hone, List.map_singleton, hid], hask⟩⟩
  · -- The condition is that of the whole session, so what is known without it comes along.
    obtain ⟨added, taken, hafter, hsome, hall⟩ :=
      @session_numbers network (∀ op ∈ ops, op.CanAsk) ops id {}
    have hrequests : ((session ops).exec network {}).2.requests = requestsOf added := by
      rw [hafter, World.requests_after]
      rfl
    have hnext : ((session ops).exec network {}).2.nextId - 1 = taken := by
      rw [hafter]
      exact Nat.add_sub_cancel_left 1 taken
    rw [hrequests, hnext]
    refine ⟨hsome, fun h => ?_⟩
    have hids := (hall h).1
    have hlength : (requestsOf added).length = taken := by
      rw [← List.length_map (f := (·.id)), ← idsOf, hids, List.length_range']
    rw [hlength]
    exact hids

/-! ## Three sessions -/

def sampleServer (url : Text) : Rpc.Client := ⟨.str url, .int 180⟩

def sampleNode : Rpc.Node := ⟨sampleServer "http://localhost:8114"⟩

def sampleIndexer : Rpc.Indexer := ⟨sampleServer "http://localhost:8116"⟩

/-- A block that has no number, a tip that is asked for twice, a transaction that is waited for, and
a query of a registry. -/
def sampleOperations : List Operation := [
  .blockByNumber sampleNode (.str "latest"),
  .retried .patient { tries := .int 2 } "tip" 2 (.indexerTip sampleIndexer),
  .waitForTransaction sampleNode (.str "0xaa"),
  .ask (sampleServer "http://localhost:3050") "check_registered_lock_hashes" (.list [])]

/-- The indexer cannot be reached, and a transaction is committed when four requests were made. -/
def sampleNetwork : Network := fun earlier r =>
  if r.url = "http://localhost:8116" then .unreachable "no route"
  else if earlier.length < 4 then Rpc.answering .null
  else Rpc.answering (.record [("tx_status", .record [("status", .str "committed")])])

/-- The block takes no number, and each failing request takes one. -/
theorem session_ids_mixed : (∀ op ∈ sampleOperations, op.CanAsk) ∧
    ((session sampleOperations).exec sampleNetwork {}).2.requests.map (·.id)
      = [1, 2, 3, 4, 5, 6] := by
  have hask : ∀ op ∈ sampleOperations, op.CanAsk := by
    simp [sampleOperations, CanAsk, Rpc.Client.NamesServer, sampleNode, sampleIndexer,
      sampleServer]
  have hids := (session_ids sampleNetwork sampleOperations).2.2 hask
  have hcount : ((session sampleOperations).exec sampleNetwork {}).2.requests.length = 6 := by
    decide +kernel
  refine ⟨hask, ?_⟩
  rw [hids, hcount]
  rfl

/-- The numbers of the requests whose connection was opened. -/
def openedIds (network : Network) (w : World) : List Nat :=
  (exchanges network [] w.requests).filterMap fun e =>
    match e.reply with
    | .unreachable _ => none
    | .response .. => some e.request.id

/-- Bytes, which JSON has no text for, and then a tip. -/
def unsentOperations : List Operation := [
  .call (sampleServer "http://localhost:3030") (.str "get_define_info") (.list [.bytes [0]]),
  .indexerTip sampleIndexer]

/-- No connection is opened for the first request. -/
def refusingOnce : Network := fun earlier _ =>
  if earlier.isEmpty then .unreachable "refused" else Rpc.answering .null

/-- A request that cannot be made leaves its number out. So does one whose connection is not opened,
if it does not count. -/
theorem not_session_ids :
    ((session unsentOperations).exec (fun _ _ => Rpc.answering .null) {}).2.requests.map (·.id)
      = [2] ∧
    openedIds refusingOnce ((session [.indexerTip sampleIndexer, .indexerTip sampleIndexer]).exec
      refusingOnce {}).2 = [2] := by
  decide +kernel

end Operation
end CellNft
