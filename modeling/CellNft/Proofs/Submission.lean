/-
CellNft.Proofs.Submission — what the flows hand in is signed by the owner of the lock.

`mintNft_transferNft_sendsSigned`: in every run of `mintNft` or `transferNft`, on a network whose
cells can be spelled back (`CellsReturn`), each transaction that is handed in bears, as the node
reads it, a signature of its own message by a key that opens the lock of the account's address.

Only `Submission.send` makes such a request. So each other step of a flow is shown to make none, and
to hand on what the transaction is made of: deps from the settings (`Service.ofConfig_hasDeps`), a
cell whose keys return (`cotaCell_keeps`), and from these a transaction that spends it
(`IsSpending`).

`not_sendsSigned_pairs` shows why `CellsReturn` asks for more than the keys of the cells.
-/
import CellNft.Proofs.Spending

namespace CellNft

open Outcome

/-! ## Replies -/

/-- What the results of a method are like. -/
def Network.Answers (network : Network) (method : Text) (P : Value → Prop) : Prop :=
  ∀ earlier r result, r.method = .str method →
    Rpc.resultOf (.str method) (network earlier r) = .ok result → P result

/-- The keys of the cells in a result satisfy `P` at every depth. -/
def KeysSurvive (P : Text → Prop) (result : Value) : Prop :=
  ∀ d t cells, result = .dict d → (.str t, cells) ∈ d → KeyCase.camel t = "objects" →
    cells.JsonKeys P

/-- The output of the first cell in a result, as the flows read it. It may be given as pairs. -/
def firstOutput (result : Value) : Except Fault Dict := do
  let cells ← (← result.camelKeys).field "objects"
  (← (← cells.first).item "output").toDict

/-- The texts under which the output of the first cell holds something return, also where the output
is given as pairs and these texts are no keys. -/
def OutputsReturn (result : Value) : Prop :=
  ∀ d, firstOutput result = .ok d → ∀ t v, (.str t, v) ∈ d → KeyCase.Returns t

/-- Whether a key returns, if it is a text. -/
def returnsKey : Scalar → Bool
  | .str t => decide (KeyCase.Returns t)
  | _ => true

instance (result : Value) : Decidable (OutputsReturn result) :=
  match h : firstOutput result with
  | .error _ => isTrue fun d hd => by
      rw [h] at hd
      cases hd
  | .ok d => decidable_of_iff (∀ e ∈ d, returnsKey e.1 = true) <| by
      constructor
      · intro hall d' hd' t v hmem
        rw [h] at hd'
        obtain rfl := Except.ok.inj hd'
        exact of_decide_eq_true (hall _ hmem)
      · intro hreturn e he
        obtain ⟨k, v⟩ := e
        cases k with
        | str t => exact decide_eq_true (hreturn d h t v he)
        | _ => rfl

/-- A network whose cells can be sent back. -/
def CellsReturn (network : Network) : Prop :=
  network.Answers "get_cells" fun result =>
    KeysSurvive KeyCase.Survives result ∧ OutputsReturn result

namespace Cota

/-- The first cell of such a result can be sent back. -/
theorem cellReturns_of_result {result converted cells cell : Value}
    (hkeys : KeysSurvive KeyCase.Survives result) (houtputs : OutputsReturn result)
    (hconverted : result.camelKeys = .ok converted)
    (hcells : converted.field "objects" = .ok cells) (hcell : cells.first = .ok cell) :
    CellReturns cell := by
  refine ⟨?_, fun output d houtput hd => houtputs d ?_⟩
  · rcases Value.exists_of_field_camelKeys hconverted hcells with rfl | ⟨d, t, raw, rfl, h⟩
    · cases hcell
    · obtain ⟨hmem, ht, hraw⟩ := h
      have hsurvive := hkeys d t raw rfl hmem ht
      rw [Value.camelKeys_eq_rename hsurvive.textKeys] at hraw
      exact (Except.ok.inj hraw ▸ hsurvive.rename_camel).first hcell
  · simp only [firstOutput, hconverted, hcells, hcell, houtput, hd, ok_bind]

/-! ## Settings -/

theorem Service.cellDep_isDep {conf : Value} {d : Dict} (h : cellDep conf = .ok d) :
    IsDep (.dict d) := by
  obtain ⟨v, -, h⟩ := bind_eq_ok.mp h
  obtain ⟨txHash, -, h⟩ := bind_eq_ok.mp h
  obtain ⟨v, -, h⟩ := bind_eq_ok.mp h
  obtain ⟨index, -, h⟩ := bind_eq_ok.mp h
  obtain ⟨v, -, h⟩ := bind_eq_ok.mp h
  obtain ⟨depType, -, h⟩ := bind_eq_ok.mp h
  obtain rfl := Except.ok.inj h
  exact ⟨_, _, rfl, .inr ⟨txHash, index, rfl⟩⟩

/-- What a service has of the settings. -/
structure Service.Reads (s : Service) (config : Value) : Prop where
  fee : ∃ v, config.fieldOr "fee" (.int defaultFee) = .ok v ∧ v.toInt = .ok s.fee
  cotaCellDep : ∃ conf, config.item "cotaCellDep" = .ok conf ∧ cellDep conf = .ok s.cotaCellDep
  secp256k1Dep : ∀ d, s.secp256k1Dep = some d →
    ∃ conf, config.item "secp256k1Dep" = .ok conf ∧ cellDep conf = .ok d
  node : config.item "ckbNodeUrl" = .ok s.collector.node.client.endpoint

/-- A service is made of settings that could be read. -/
theorem Service.readConfig_of_ofConfig {config : Value} {s : Service}
    (h : ofConfig config = .ok s) : readConfig config = .ok s := by
  rw [ofConfig] at h
  split at h
  · cases h
  · exact h

theorem Service.reads_of_ofConfig {config : Value} {s : Service} (h : ofConfig config = .ok s) :
    s.Reads config := by
  have hread := readConfig_of_ofConfig h
  clear h
  simp only [readConfig, bind_eq_ok] at hread
  obtain ⟨timeout, -, node, hnode, indexer, -, registry, -, cota, -, own, -, hread⟩ := hread
  split at hread
  · simp only [bind_eq_ok, map_eq_ok] at hread
    obtain ⟨conf, hconf, _, ⟨d, hd, rfl⟩, _, -, _, -, cotaConf, hcotaConf, dep, hdep, v, hv, fee,
      hfee, hs⟩ := hread
    obtain rfl := Except.ok.inj hs
    refine ⟨⟨v, hv, hfee⟩, ⟨cotaConf, hcotaConf, hdep⟩, fun d' hd' => ⟨conf, hconf, ?_⟩, hnode⟩
    exact Option.some.inj hd' ▸ hd
  · simp only [bind_eq_ok] at hread
    obtain ⟨_, hnone, _, -, _, -, cotaConf, hcotaConf, dep, hdep, v, hv, fee, hfee, hs⟩ := hread
    obtain rfl := Except.ok.inj hs
    obtain rfl := Except.ok.inj hnone
    exact ⟨⟨v, hv, hfee⟩, ⟨cotaConf, hcotaConf, hdep⟩,
      fun d hd => absurd hd.symm (Option.some_ne_none d), hnode⟩

/-- The deps of a service. -/
def Service.HasDeps (s : Service) : Prop :=
  IsDep (.dict s.cotaCellDep) ∧ ∀ d, s.secp256k1Dep = some d → IsDep (.dict d)

theorem Service.ofConfig_hasDeps {config : Value} {s : Service} (h : ofConfig config = .ok s) :
    s.HasDeps := by
  obtain ⟨-, ⟨conf, -, hdep⟩, hlock, -⟩ := reads_of_ofConfig h
  refine ⟨cellDep_isDep hdep, fun d hd => ?_⟩
  obtain ⟨conf, -, hdep⟩ := hlock d hd
  exact cellDep_isDep hdep

/-! ## Steps without a transaction -/

/-- A request that hands in a transaction does so with one that the account's key has signed. -/
def SignedRequest (account : Value) (r : RpcRequest) : Prop :=
  r.method = .str "send_transaction" →
    ∃ (wire tx address lock key : Value) (rest : List Value) (args : String),
      r.params = .list (wire :: rest) ∧ Wire.received wire = .ok tx ∧
      account.item "address" = .ok address ∧ Address.scriptValue address = .ok lock ∧
      account.item "private_key" = .ok key ∧ lock.item "args" = .ok (.str args) ∧
      Signing.lockArgs key = .ok args ∧ Signing.SignedBy key tx

section

variable {network : Network} {R : RpcRequest → Prop} {α : Type} {P : α → Prop}

variable {account : Value}

/-- A request of another method hands in nothing. -/
theorem signedRequest_of_other {r : RpcRequest} {method : Text} (hr : r.method = .str method)
    (other : method ≠ "send_transaction") : SignedRequest account r := by
  intro hsend
  rw [hr] at hsend
  exact absurd (Scalar.str.inj (Value.scalar.inj hsend)) other

theorem call_keeps {c : Rpc.Client} {method : Text} {params : Value}
    (other : method ≠ "send_transaction") :
    (c.call method params).Keeps network (SignedRequest account) fun v =>
      ∃ earlier r, r.method = .str method ∧
        Rpc.resultOf (.str method) (network earlier r) = .ok v :=
  Run.Keeps.callOf fun _ hr _ => signedRequest_of_other hr other

theorem ask_keeps {c : Rpc.Client} {method : Text} {params : Value}
    (other : method ≠ "send_transaction") :
    (Aggregator.ask c method params).Keeps network (SignedRequest account) fun _ => True := by
  refine Run.Keeps.compute.seq fun sent => ?_
  refine (call_keeps other).seq fun result => ?_
  exact Run.Keeps.compute

theorem cells_keeps (hcells : CellsReturn network) {c : Rpc.Collector} {lock type : Value} :
    (c.cells lock type).Keeps network (SignedRequest account) fun cells =>
      ∀ cell, cells.first = .ok cell → CellReturns cell := by
  refine Run.Keeps.compute.seq fun search => ?_
  have hresult : (c.indexer.cells search).Keeps network (SignedRequest account) fun converted =>
      ∃ result, result.camelKeys = .ok converted ∧ KeysSurvive KeyCase.Survives result ∧
        OutputsReturn result := by
    refine Run.Keeps.compute.seq fun limit => ?_
    refine (call_keeps (by decide)).bind fun result hresult => ?_
    obtain ⟨earlier, r, hr, hresult⟩ := hresult
    exact Run.Keeps.lift fun converted hconverted =>
      ⟨result, hconverted, hcells earlier r result hr hresult⟩
  refine hresult.bind fun converted hconverted => ?_
  obtain ⟨result, hconverted, hkeys, houtputs⟩ := hconverted
  refine (Run.Keeps.lift fun _ hfield => hfield).bind fun objects hobjects => ?_
  refine Run.Keeps.compute.seq fun count => ?_
  refine Run.Keeps.compute.seq fun args => ?_
  refine (Run.Keeps.logNaming _ _ _).seq fun _ => Run.Keeps.pure ?_
  intro cell hcell
  rw [Value.orElse] at hcell
  split at hcell
  · exact cellReturns_of_result hkeys houtputs hconverted hobjects hcell
  · cases hcell

theorem cotaCell_keeps (hcells : CellsReturn network) {s : Service} {lock : Value} :
    (s.cotaCell lock).Keeps network (SignedRequest account) CellReturns := by
  refine (cells_keeps hcells).bind fun cells hfirst => ?_
  simp only
  split
  · refine Run.Keeps.compute.seq fun args => ?_
    exact Run.Keeps.fail
  · exact Run.Keeps.lift hfirst

/-- The dep of the default lock is a cell dep, wherever it comes from. -/
theorem lockDep_keeps {s : Service} (hs : s.HasDeps) {fixed : Bool} :
    (Submission.lockDep s fixed).Keeps network (SignedRequest account) IsDep := by
  rw [Submission.lockDep]
  split
  · split
    · rename_i dep hdep
      exact Run.Keeps.pure (hs.2 dep hdep)
    · exact Run.Keeps.throw _
  · have hblock : (s.collector.node.blockByNumber (.int 0)).Keeps network (SignedRequest account)
        fun _ => True := by
      refine Run.Keeps.compute.seq fun number => ?_
      refine (call_keeps (by decide)).seq fun block => ?_
      simp only
      refine Run.Keeps.guard fun _ => ?_
      exact Run.Keeps.compute
    refine hblock.seq fun genesis => ?_
    refine Run.Keeps.compute.seq fun transactions => ?_
    refine Run.Keeps.compute.seq fun count => ?_
    simp only
    refine Run.Keeps.guard fun _ => ?_
    refine Run.Keeps.compute.seq fun tx => ?_
    refine Run.Keeps.compute.seq fun hash => ?_
    exact Run.Keeps.pure ⟨_, _, rfl, .inr ⟨hash, _, rfl⟩⟩

theorem wait_keeps {s : Service} {hash : Value}
    (h : ∀ r : RpcRequest, r.method = .str "get_transaction" → R r) :
    (Submission.wait s hash).Keeps network R fun _ => True := by
  have htransaction : (s.collector.node.transaction hash).Keeps network R fun _ => True := by
    refine (Run.Keeps.callOf fun r hr _ => h r hr).seq fun tx => ?_
    split
    · exact Run.Keeps.compute
    · exact Run.Keeps.pure trivial
  have hpoll : (s.collector.node.poll hash).Keeps network R fun _ => True := by
    refine htransaction.seq fun tx => ?_
    refine Run.Keeps.compute.seq fun status => ?_
    split
    · exact Run.Keeps.pure trivial
    · split
      · refine Run.Keeps.compute.seq fun txStatus => ?_
        refine Run.Keeps.compute.seq fun reason => ?_
        exact Run.Keeps.fail
      · exact Run.Keeps.throw _
  have hwait : (s.collector.node.waitForTransaction hash).Keeps network R fun _ => True := by
    refine (Run.Keeps.loop (fun _ => hpoll) _ _ _ _).seq fun outcome => ?_
    cases outcome with
    | some tx => exact Run.Keeps.pure trivial
    | none => exact Run.Keeps.throw _
  exact hwait.seq fun _ => Run.Keeps.logNaming _ _ _

end

/-! ## Handing in -/

/-- A key that has been checked opens the lock of the address. -/
theorem Submission.lockArgs_of_checkKey {address lock key : Value}
    (hlock : Address.scriptValue address = .ok lock) (h : checkKey key lock = .ok ()) :
    ∃ args : String, lock.item "args" = .ok (.str args) ∧ Signing.lockArgs key = .ok args := by
  obtain ⟨script, rfl⟩ : ∃ script : Script, lock = script.toValue := by
    cases address with
    | scalar a =>
      cases a with
      | str t =>
        obtain ⟨script, -, rfl⟩ := map_eq_ok.mp hlock
        exact ⟨script, rfl⟩
      | _ => cases hlock
    | _ => cases hlock
  have hargs : script.toValue.item "args" = .ok (.str (Hex.encode script.args)) := by
    simp [Script.toValue, Value.record, Value.item_dict, Dict.find?_ofFields]
  obtain ⟨own, hown, h⟩ := bind_eq_ok.mp h
  rw [hargs, ok_bind] at h
  simp only [areArgs, Value.text, ok_bind, Hex.lower_encode] at h
  refine ⟨Hex.encode script.args, hargs, ?_⟩
  by_cases heq : Text.ofString own = Text.ofString (Hex.encode script.args)
  · rw [hown, Text.ofString_injective heq]
  · simp [heq] at h

section

variable {network : Network} {account address lock key tx : Value}

theorem send_keeps {s : Service} {signed : Value} {R : RpcRequest → Prop}
    (h : ∀ r : RpcRequest, r.method = .str "send_transaction" → ∀ wire rest,
      Wire.transaction signed = .ok wire → r.params = .list (wire :: rest) → R r) :
    (Submission.send s signed).Keeps network R fun _ => True := by
  have hsend : (s.collector.node.sendTransaction signed).Keeps network R fun _ => True := by
    refine (Run.Keeps.lift fun _ hwire => hwire).bind fun wire hwire => ?_
    refine (Run.Keeps.callOf ?_).seq fun hash => ?_
    · intro r hmethod hparams
      exact h r hmethod wire _ hwire hparams
    · exact (Run.Keeps.logNaming _ _ _).seq fun _ => Run.Keeps.pure trivial
  refine hsend.seq fun hash => ?_
  split
  · exact Run.Keeps.pure trivial
  · exact Run.Keeps.throw _

/-- What is signed with a checked key is handed in as it was signed. -/
theorem finish_keeps {s : Service} {waiting : Bool}
    (haddress : account.item "address" = .ok address)
    (hlock : Address.scriptValue address = .ok lock)
    (hkey : account.item "private_key" = .ok key) (htx : IsSpending s tx) :
    (Submission.finish s tx key lock waiting).Keeps network (SignedRequest account)
      fun _ => True := by
  refine (Run.Keeps.stage (Run.Keeps.lift fun _ hcheck => hcheck)).bind fun _ hcheck => ?_
  refine (Run.Keeps.stage (Run.Keeps.lift fun _ hsigned => hsigned)).bind fun signed hsigned => ?_
  refine Run.Keeps.compute.seq fun text => ?_
  refine (Run.Keeps.print text).seq fun _ => ?_
  have hsend : (Submission.send s signed).Keeps network (SignedRequest account)
      fun _ => True := by
    refine send_keeps fun r _ wire rest hwire hparams _ => ?_
    obtain ⟨args, hargs, hown⟩ := Submission.lockArgs_of_checkKey hlock hcheck
    exact ⟨wire, signed, address, lock, key, rest, args, hparams,
      htx.received_signed hsigned hwire, haddress, hlock, hkey, hargs, hown,
      Signing.signedBy_sign hsigned⟩
  refine hsend.stage.seq fun hash => ?_
  simp only
  split
  · have hwait : (Submission.wait s hash).Keeps network (SignedRequest account) fun _ => True :=
      wait_keeps fun r hr => signedRequest_of_other hr (by decide)
    exact hwait.stage.seq fun _ => Run.Keeps.pure trivial
  · exact Run.Keeps.pure trivial

theorem signAndSend_keeps {s : Service} (hs : s.HasDeps) {fixed waiting : Bool}
    (haddress : account.item "address" = .ok address)
    (hlock : Address.scriptValue address = .ok lock)
    (hkey : account.item "private_key" = .ok key) (htx : IsSpending s tx) :
    (Submission.signAndSend s tx key lock fixed waiting).Keeps network (SignedRequest account)
      fun _ => True := by
  have hadd : (Submission.addDep s tx fixed).Keeps network (SignedRequest account)
      (IsSpending s) := by
    refine (Run.Keeps.stage (lockDep_keeps hs)).bind fun dep hdep => ?_
    exact Run.Keeps.lift fun tx' htx' => htx.appendDep hdep htx'
  exact hadd.bind fun tx' htx' => finish_keeps haddress hlock hkey htx'

end

/-! ## The flows -/

section

variable {network : Network} {account : Value} {s : Service}

theorem mint_keeps (hcells : CellsReturn network) (hs : s.HasDeps) {lock info : Value} :
    (Mint.transaction s lock info).Keeps network (SignedRequest account) (IsSpending s) := by
  refine (cotaCell_keeps hcells).bind fun cell hcell => ?_
  refine Run.Keeps.compute.seq fun cotaId => ?_
  refine Run.Keeps.compute.seq fun given => ?_
  have hindexes : (Mint.assignIndexes s cotaId given).Keeps network (SignedRequest account)
      fun _ => True := by
    refine (ask_keeps (by decide)).seq fun define => ?_
    refine Run.Keeps.compute.seq fun issued => ?_
    split
    · exact Run.Keeps.throw _
    · refine Run.Keeps.compute.seq fun parts => ?_
      exact Run.Keeps.compute
  refine hindexes.seq fun withdrawals => ?_
  refine Run.Keeps.compute.seq fun lockScript => ?_
  refine Run.Keeps.compute.seq fun outPoint => ?_
  refine Run.Keeps.compute.seq fun tail => ?_
  refine (ask_keeps (by decide)).seq fun smt => ?_
  refine (Run.Keeps.mapM (fun _ => Run.Keeps.compute) _).seq fun tokens => ?_
  refine Run.Keeps.compute.seq fun block => ?_
  refine (Run.Keeps.logNaming _ _ _).seq fun _ => ?_
  exact spending_keeps.weaken fun tx htx => htx.isSpending hcell (by simpa using hs.1)

theorem transfer_keeps (hcells : CellsReturn network) (hs : s.HasDeps)
    {lock withdrawalLock transfers : Value} :
    (Transfer.transaction s lock withdrawalLock transfers).Keeps network (SignedRequest account)
      (IsSpending s) := by
  refine (cotaCell_keeps hcells).bind fun cell hcell => ?_
  refine (cotaCell_keeps hcells).bind fun withdrawalCell hwithdrawal => ?_
  refine Run.Keeps.compute.seq fun lockScript => ?_
  refine Run.Keeps.compute.seq fun lockHash => ?_
  refine Run.Keeps.compute.seq fun outPoint => ?_
  refine Run.Keeps.compute.seq fun tail => ?_
  refine (ask_keeps (by decide)).seq fun smt => ?_
  refine Run.Keeps.compute.seq fun parts => ?_
  refine (Run.Keeps.mapM (fun _ => Run.Keeps.compute) _).seq fun tokens => ?_
  refine Run.Keeps.compute.seq fun block => ?_
  refine (Run.Keeps.logNaming _ _ _).seq fun _ => ?_
  refine (Run.Keeps.lift fun _ hpoint => hpoint).bind fun point hpoint => ?_
  have hdep : IsDep (.record [("outPoint", point), ("depType", .str "code")]) :=
    ⟨point, _, rfl, .inl (hwithdrawal.keys.item hpoint)⟩
  exact spending_keeps.weaken fun tx htx => htx.isSpending hcell (by simpa using ⟨hdep, hs.1⟩)

/-- The lock of the address of an account. -/
def LockOf (account lock : Value) : Prop :=
  ∃ address, account.item "address" = .ok address ∧ Address.scriptValue address = .ok lock

theorem lockOf_keeps {R : RpcRequest → Prop} {β : Type} {f : Value → Run β} {P : β → Prop}
    (h : ∀ lock, LockOf account lock → (f lock).Keeps network R P) :
    (do f (← Address.scriptValue (← account.item "address")) : Run β).Keeps network R P := by
  refine (Run.Keeps.lift fun _ haddress => haddress).bind fun address haddress => ?_
  refine (Run.Keeps.lift fun _ hlock => hlock).bind fun lock hlock => ?_
  exact h lock ⟨address, haddress, hlock⟩

theorem decodeMint_keeps {R : RpcRequest → Prop} {cotaId withdrawals : Value} :
    (Run.stage "decode address" (do
      let lock ← Address.scriptValue (← account.item "address")
      let list ← (← withdrawals.elements).mapM fun w => (Submission.withdrawal w : Run Value)
      return (lock, Value.record [("cotaId", cotaId), ("withdrawals", .list list)]))).Keeps network
      R fun decoded => LockOf account decoded.1 := by
  refine Run.Keeps.stage (lockOf_keeps fun lock hlock => ?_)
  refine Run.Keeps.compute.seq fun parts => ?_
  refine (Run.Keeps.mapM (fun _ => Run.Keeps.compute) _).seq fun list => ?_
  exact Run.Keeps.pure hlock

theorem decodeTransfer_keeps {R : RpcRequest → Prop} {withdrawalAddress transfers : Value} :
    (Run.stage "decode address" (do
      let lock ← Address.scriptValue (← account.item "address")
      let withdrawalLock ← Address.scriptValue withdrawalAddress
      let list ← (← transfers.elements).mapM fun t => (Submission.transfer t : Run Value)
      return (lock, withdrawalLock, Value.list list))).Keeps network
      R fun decoded => LockOf account decoded.1 := by
  refine Run.Keeps.stage (lockOf_keeps fun lock hlock => ?_)
  refine Run.Keeps.compute.seq fun withdrawalLock => ?_
  refine Run.Keeps.compute.seq fun parts => ?_
  refine (Run.Keeps.mapM (fun _ => Run.Keeps.compute) _).seq fun list => ?_
  exact Run.Keeps.pure hlock

theorem service_keeps {config : Value} {R : RpcRequest → Prop} :
    (Run.stage "load service" (Service.ofConfig config)).Keeps network R Service.HasDeps :=
  Run.Keeps.stage (Run.Keeps.lift fun _ hs => Service.ofConfig_hasDeps hs)

theorem mintNft_keeps (hcells : CellsReturn network) {config cotaId withdrawals : Value}
    {fixed waiting : Bool} :
    (mintNft config account cotaId withdrawals fixed waiting).Keeps network
      (SignedRequest account) fun _ => True := by
  refine service_keeps.bind fun service hs => ?_
  refine decodeMint_keeps.bind fun decoded hlock => ?_
  obtain ⟨lock, info⟩ := decoded
  obtain ⟨address, haddress, hlock⟩ := hlock
  refine (Run.Keeps.stage (mint_keeps hcells hs)).bind fun tx htx => ?_
  refine (Run.Keeps.lift fun _ hkey => hkey).bind fun key hkey => ?_
  refine (signAndSend_keeps hs haddress hlock hkey htx).seq fun hash => ?_
  exact (Run.Keeps.logNaming _ _ _).seq fun _ => Run.Keeps.pure trivial

theorem transferNft_keeps (hcells : CellsReturn network)
    {config withdrawalAddress transfers : Value} {fixed waiting : Bool} :
    (transferNft config account withdrawalAddress transfers fixed waiting).Keeps network
      (SignedRequest account) fun _ => True := by
  refine service_keeps.bind fun service hs => ?_
  refine decodeTransfer_keeps.bind fun decoded hlock => ?_
  obtain ⟨lock, withdrawalLock, list⟩ := decoded
  obtain ⟨address, haddress, hlock⟩ := hlock
  refine (Run.Keeps.stage (transfer_keeps hcells hs)).bind fun tx htx => ?_
  refine (Run.Keeps.lift fun _ hkey => hkey).bind fun key hkey => ?_
  refine (signAndSend_keeps hs haddress hlock hkey htx).seq fun hash => ?_
  exact (Run.Keeps.logNaming _ _ _).seq fun _ => Run.Keeps.pure trivial

end

/-- Every request that a flow makes, from whatever state on, hands in nothing or a transaction that
the account's key has signed. -/
def SendsSigned (network : Network) (account : Value) (flow : Run Value) : Prop :=
  ∀ w, ∃ added, (flow.exec network w).2.requests = w.requests ++ added ∧
    ∀ r ∈ added, SignedRequest account r

/-- **What a flow hands in is signed by the key of the account's lock, over exactly the transaction
that the node reads.** -/
theorem mintNft_transferNft_sendsSigned {network : Network} (hcells : CellsReturn network)
    (config account : Value) (fixed waiting : Bool) :
    (∀ cotaId withdrawals,
      SendsSigned network account (mintNft config account cotaId withdrawals fixed waiting)) ∧
    ∀ withdrawalAddress transfers, SendsSigned network account
      (transferNft config account withdrawalAddress transfers fixed waiting) := by
  exact ⟨fun _ _ => (mintNft_keeps hcells).exists_added,
    fun _ _ => (transferNft_keeps hcells).exists_added⟩

/-! ## Two runs -/

/-- The result of a method on servers that know one cell. -/
def oneCell (output method : Value) : Value :=
  if method.same (.str "get_cells") then .record [("objects", .list [.record [
    ("out_point", .record [
      ("tx_hash", .str (Hex.encode (List.replicate 32 0x01))), ("index", .str "0x0")]),
    ("output", output),
    ("output_data", .str "0x00")]])]
  else if method.same (.str "get_define_info") then .record [("issued", .int 0)]
  else if method.same (.str "generate_mint_cota_smt") then .record [
    ("smt_root_hash", .str (Hex.encode (List.replicate 32 0xcd))),
    ("mint_smt_entry", .str "0xef"),
    ("block_number", .int 1)]
  else .str (Hex.encode (List.replicate 32 0xaa))

/-- The servers of `oneCell`. -/
def oneCellNetwork (output : Value) : Network := fun _ r => Rpc.answering (oneCell output r.method)

/-- A lock in snake case. -/
def sampleLock : Value := .record [
  ("code_hash", .str (Hex.encode (List.replicate 32 0x44))),
  ("hash_type", .str "type"),
  ("args", .str "0x")]

def sampleDep (hashByte : UInt8) : Value := .record [
  ("outPoint", .record [
    ("txHash", .str (Hex.encode (List.replicate 32 hashByte))), ("index", .str "0x0")]),
  ("depType", .str "dep_group")]

/-- Settings with a dep of the tokens. -/
def configWith (cotaCellDep : Value) : Value := .record [
  ("ckbNodeUrl", .str "http://localhost:8114"),
  ("ckbIndexerUrl", .str "http://localhost:8116"),
  ("registryUrl", .str "http://localhost:3050"),
  ("cotaUrl", .str "http://localhost:3030"),
  ("cotaTypeScript", .record [
    ("codeHash", .str (Hex.encode (List.replicate 32 0x11))),
    ("hashType", .str "type"),
    ("args", .str "0x")]),
  ("cotaCellDep", cotaCellDep),
  ("secp256k1Dep", sampleDep 0x33)]

def sampleConfig : Value := configWith (sampleDep 0x22)

/-- The account of the key 1. -/
def sampleAccount : Value := .record [
  ("address", .str ("ckt1qzda0cr08m85hc8jlnfp3zer7xulejywt49kt2rr0vthywaa50xwsqt4z78ng4yutl5u6x"
    ++ "sv27ht6q08mhujf8s2r0n40")),
  ("private_key", .str (Hex.encode (Bytes.ofNatBE 32 1)))]

/-- The mint of no tokens. -/
def sampleMint : Run Value :=
  mintNft sampleConfig sampleAccount (.str "0x01") (.list []) true false

/-- The first transaction that was handed in. -/
def handedIn (w : World) : Option Value := do
  let r ← w.requests.find? fun r => r.method.same (.str "send_transaction")
  match r.params with
  | .list (wire :: _) => some wire
  | _ => none

theorem exists_of_handedIn {w : World} {wire : Value} (h : handedIn w = some wire) :
    ∃ r ∈ w.requests, r.method = .str "send_transaction" ∧
      ∃ rest, r.params = .list (wire :: rest) := by
  obtain ⟨r, hr, h⟩ := Option.bind_eq_some_iff.mp h
  have hmethod := List.find?_some hr
  refine ⟨r, List.mem_of_find?_eq_some hr, Value.eq_str_of_same hmethod, ?_⟩
  split at h
  · rename_i wire' rest hparams
    obtain rfl := Option.some.inj h
    exact ⟨rest, hparams⟩
  · cases h

/-- The capacity of the first output of a transaction that was handed in. -/
def sentCapacity (wire : Value) : Except Fault Int := do
  let output ← (← wire.item "outputs").first
  Hex.readInt (← output.item "capacity")

/-- What is seen of a run: whether it ended well, and of what it handed in whether a node can read
it and whether its output has a capacity. -/
def observed (r : Except Fault Value × World) : Bool × Option (Bool × Bool) :=
  (r.1.isOk, (handedIn r.2).map fun wire =>
    ((do RawTransaction.ofValue (← Wire.received wire)).isOk, (sentCapacity wire).isOk))

theorem handedIn_of_observed {r : Except Fault Value × World} {read capacity : Bool}
    (h : observed r = (true, some (read, capacity))) : r.1.isOk = true ∧
      ∃ wire, handedIn r.2 = some wire ∧
        (do RawTransaction.ofValue (← Wire.received wire)).isOk = read ∧
        (sentCapacity wire).isOk = capacity := by
  obtain ⟨hended, hsent⟩ := Prod.mk.inj h
  obtain ⟨wire, hwire, hseen⟩ := Option.map_eq_some_iff.mp hsent
  exact ⟨hended, wire, hwire, Prod.mk.inj hseen⟩

theorem carried_oneCell {output : Value} (h : Json.Carried output) (method : Value) :
    Json.Carried (oneCell output method) := by
  unfold oneCell
  split
  · simp [Json.carried_record, h]
  · split
    · simp [Json.carried_record]
    · split
      · simp [Json.carried_record]
      · exact Json.carried_str _

theorem resultOf_oneCell {output : Value} (h : Json.Carried output) (earlier : List RpcRequest)
    (r : RpcRequest) (method : Value) :
    Rpc.resultOf method (oneCellNetwork output earlier r) = .ok (oneCell output r.method) :=
  Rpc.resultOf_answering (carried_oneCell h r.method) method

/-- A text of ASCII characters that survives. -/
def AsciiSurvives (t : Text) : Prop := (∀ p ∈ t.points, p.toNat < 0x80) ∧ KeyCase.Survives t

instance (t : Text) : Decidable (AsciiSurvives t) := inferInstanceAs (Decidable (_ ∧ _))

theorem jsonKeys_sampleLock : sampleLock.JsonKeys AsciiSurvives := by
  refine .record (by simp) ?_
  simp only [List.forall_mem_cons]
  exact ⟨⟨by decide, .scalar _⟩, ⟨by decide, .scalar _⟩, ⟨by decide, .scalar _⟩,
    List.forall_mem_nil _⟩

theorem answers_oneCellNetwork {output : Value} (hcarried : Json.Carried output)
    (h : output.JsonKeys AsciiSurvives) :
    (oneCellNetwork output).Answers "get_cells" (KeysSurvive AsciiSurvives) := by
  intro earlier r result hmethod hresult
  rw [resultOf_oneCell hcarried, hmethod] at hresult
  obtain rfl := Except.ok.inj hresult
  have hsame : (Value.str "get_cells").same (.str "get_cells") := by decide
  intro d t cells hd hmem _
  rw [oneCell, if_pos hsame] at hd
  obtain rfl := Value.dict.inj hd
  obtain ⟨-, rfl⟩ := Prod.mk.inj (List.mem_singleton.mp hmem)
  have hpoint : (Value.record [
      ("tx_hash", .str (Hex.encode (List.replicate 32 0x01))),
      ("index", .str "0x0")]).JsonKeys AsciiSurvives := by
    refine .record (by simp) ?_
    simp only [List.forall_mem_cons]
    exact ⟨⟨by decide, .scalar _⟩, ⟨by decide, .scalar _⟩, List.forall_mem_nil _⟩
  refine .list (List.forall_mem_cons.mpr ⟨.record (by simp) ?_, List.forall_mem_nil _⟩)
  simp only [List.forall_mem_cons]
  exact ⟨⟨by decide, hpoint⟩, ⟨by decide, h⟩, ⟨by decide, .scalar _⟩, List.forall_mem_nil _⟩

/-- An output as nodes give it. -/
def plainOutput : Value :=
  .record [("capacity", .str "0x4a817c800"), ("lock", sampleLock)]

theorem carried_plainOutput : Json.Carried plainOutput := by decide

theorem cellsReturn_plainOutput : CellsReturn (oneCellNetwork plainOutput) := by
  have houtput : plainOutput.JsonKeys AsciiSurvives := by
    refine .record (by simp) ?_
    simp only [List.forall_mem_cons]
    exact ⟨⟨by decide, .scalar _⟩, ⟨by decide, jsonKeys_sampleLock⟩, List.forall_mem_nil _⟩
  intro earlier r result hmethod hresult
  refine ⟨fun d t cells hd hmem ht => ?_, ?_⟩
  · exact (answers_oneCellNetwork carried_plainOutput houtput earlier r result hmethod hresult d t
      cells hd hmem ht).mono fun _ h => h.2
  · rw [resultOf_oneCell carried_plainOutput, hmethod] at hresult
    obtain rfl := Except.ok.inj hresult
    decide

/-- A mint of a cell with this output is evaluated once. -/
theorem observed_plainOutput :
    observed (sampleMint.exec (oneCellNetwork plainOutput) {}) = (true, some (true, true)) := by
  decide +kernel

/-- A mint that hands in a signed transaction. -/
theorem mintNft_sendsSigned_record : ∃ wire tx key,
    handedIn (sampleMint.exec (oneCellNetwork plainOutput) {}).2 = some wire ∧
    Wire.received wire = .ok tx ∧ sampleAccount.item "private_key" = .ok key ∧
    Signing.SignedBy key tx := by
  obtain ⟨hmint, -⟩ :=
    mintNft_transferNft_sendsSigned cellsReturn_plainOutput sampleConfig sampleAccount true false
  obtain ⟨added, hadded, hsigned⟩ := hmint (.str "0x01") (.list []) {}
  obtain ⟨-, wire, hwire, -⟩ := handedIn_of_observed observed_plainOutput
  obtain ⟨r, hr, hmethod, rest, hparams⟩ := exists_of_handedIn hwire
  have hmem : r ∈ added := by
    rw [sampleMint, hadded] at hr
    exact hr
  obtain ⟨wire', tx, address, lock, key, rest', args, hparams', hreceived, -, -, hkey, -, -, hby⟩ :=
    hsigned r hmem hmethod
  obtain ⟨rfl, -⟩ := List.cons.inj (Value.list.inj (hparams.symm.trans hparams'))
  exact ⟨wire, tx, key, hwire, hreceived, hkey, hby⟩

/-- An output as a list of pairs. `Value.toDict` takes it. `Capacity` is a key of its own there, but
when the transaction is handed in it becomes `capacity` and takes its place. -/
def pairedOutput : Value := .list [
  .list [.str "capacity", .str "0x4a817c800"],
  .list [.str "lock", sampleLock],
  .list [.str "Capacity", .str "0x"]]

theorem carried_pairedOutput : Json.Carried pairedOutput := by decide

theorem jsonKeys_pairedOutput : pairedOutput.JsonKeys AsciiSurvives := by
  refine .list (List.forall_mem_cons.mpr ⟨?_, List.forall_mem_cons.mpr ⟨?_,
    List.forall_mem_cons.mpr ⟨?_, List.forall_mem_nil _⟩⟩⟩)
  all_goals refine .list (List.forall_mem_cons.mpr ⟨.scalar _, List.forall_mem_cons.mpr
    ⟨?_, List.forall_mem_nil _⟩⟩)
  · exact .scalar _
  · exact jsonKeys_sampleLock
  · exact .scalar _

/-- The capacity that the node reads is no number, so it cannot read the transaction. -/
theorem observed_pairedOutput :
    observed (sampleMint.exec (oneCellNetwork pairedOutput) {}) = (true, some (false, false)) := by
  decide +kernel

/-- That all keys of the cells survive is not enough: a mint that hands in what was not signed. -/
theorem not_sendsSigned_pairs :
    (oneCellNetwork pairedOutput).Answers "get_cells" (KeysSurvive AsciiSurvives) ∧
      ¬ SendsSigned (oneCellNetwork pairedOutput) sampleAccount sampleMint := by
  refine ⟨answers_oneCellNetwork carried_pairedOutput jsonKeys_pairedOutput, fun hall => ?_⟩
  obtain ⟨added, hadded, hsigned⟩ := hall {}
  obtain ⟨-, wire, hwire, hread, -⟩ := handedIn_of_observed observed_pairedOutput
  obtain ⟨r, hr, hmethod, rest, hparams⟩ := exists_of_handedIn hwire
  have hmem : r ∈ added := by
    rw [hadded] at hr
    exact hr
  obtain ⟨wire', tx, _, _, _, _, _, hparams', hreceived, -, -, -, -, -, hby⟩ :=
    hsigned r hmem hmethod
  obtain ⟨rfl, -⟩ := List.cons.inj (Value.list.inj (hparams.symm.trans hparams'))
  obtain ⟨_, _, _, _, _, _, -, hmessage, -⟩ := hby
  obtain ⟨t, ht⟩ := Signing.exists_of_message hmessage
  simp only [hreceived, ok_bind, ht] at hread
  cases hread

end Cota
end CellNft
