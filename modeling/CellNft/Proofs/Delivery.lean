/-
CellNft.Proofs.Delivery — what a flow that ends well has sent.

`mintNft_transferNft_spendsFirstCell`: a run of `mintNft` or `transferNft` that ends well has handed
in one transaction. It spends the first cell of the first reply with cells, pays the fee out of it
and commits to the root of the aggregator's reply (`SpendsCell`), with the deps of the settings.

A run is followed step by step (`Run.Talks`), which gives its exchanges and what was built of the
replies (`mint_talks`, `transfer_talks`, `signAndSend_talks`). That the cell is sent as the indexer
gave it is shown once for both flows (`SignedFrom.spends`).

`not_paysFee_pairs` shows why an output has to be an object to be the same but for the fee.
-/
import CellNft.Proofs.NodeForm
import CellNft.Proofs.Submission

namespace CellNft

open Outcome

namespace Cota

/-! ## Cells -/

/-- The first cell of a result. -/
def FirstCell (result cell : Value) : Prop :=
  ∃ cells, result.item "objects" = .ok cells ∧ cells.first = .ok cell

/-- The first cell of a result as the flows read it. -/
def ReadCell (result cell : Value) : Prop :=
  ∃ converted cells, result.camelKeys = .ok converted ∧ converted.field "objects" = .ok cells ∧
    cells.first = .ok cell

/-- It is the first cell in camel case. -/
theorem ReadCell.exists_firstCell {result cell : Value} (h : ReadCell result cell)
    (hresult : result.JsonKeys KeyCase.Survives) :
    ∃ raw, FirstCell result raw ∧ raw.JsonKeys KeyCase.Survives ∧
      cell = raw.rename KeyCase.camel := by
  obtain ⟨converted, cells, hconverted, hcells, hcell⟩ := h
  rw [Value.camelKeys_eq_rename hresult.textKeys] at hconverted
  obtain rfl := Except.ok.inj hconverted
  rw [Value.field_camel hresult.textKeys (by decide : KeyCase.Survives "objects") (by decide)]
    at hcells
  obtain ⟨rawCells, hrawCells, rfl⟩ := map_eq_ok.mp hcells
  have hitem : result.item "objects" = .ok rawCells := by
    refine Value.item_of_field hrawCells ?_
    rintro rfl
    rw [Value.rename_scalar] at hcell
    cases hcell
  obtain ⟨raw, hraw, rfl⟩ := (hresult.item hitem).first_of_rename hcell
  exact ⟨raw, ⟨rawCells, hitem, hraw⟩, (hresult.item hitem).first hraw, rfl⟩

section

variable {network : Network}

theorem cells_talks {c : Rpc.Collector} {lock type : Value} :
    (c.cells lock type).Talks network fun x cells => ∃ e result, x = [e] ∧
      e.Gives "get_cells" result ∧ ∀ cell, cells.first = .ok cell → ReadCell result cell := by
  refine Run.Talks.compute fun search _ => ?_
  have hresult : (c.indexer.cells search).Talks network fun x converted => ∃ e result, x = [e] ∧
      e.Gives "get_cells" result ∧ result.camelKeys = .ok converted := by
    refine Run.Talks.compute fun limit _ => ?_
    refine Run.Talks.call fun e result hgives _ => ?_
    exact Run.Talks.lift fun converted h => ⟨e, result, rfl, hgives, h⟩
  refine hresult.bind fun x converted hx => ?_
  obtain ⟨e, result, rfl, hgives, hconverted⟩ := hx
  refine Run.Talks.compute fun objects hobjects => ?_
  refine Run.Talks.compute fun count _ => ?_
  refine Run.Talks.compute fun args _ => ?_
  refine Run.Talks.skip (Run.Keeps.logNaming _ _ _) fun _ _ =>
    Run.Talks.pure ⟨e, result, rfl, hgives, ?_⟩
  intro cell hcell
  rw [Value.orElse] at hcell
  split at hcell
  · exact ⟨converted, objects, hconverted, hobjects, hcell⟩
  · cases hcell

theorem cotaCell_talks {s : Service} {lock : Value} :
    (s.cotaCell lock).Talks network fun x cell => ∃ e result, x = [e] ∧
      e.Gives "get_cells" result ∧ ReadCell result cell := by
  refine cells_talks.bind fun x cells hx => ?_
  obtain ⟨e, result, rfl, hgives, hfirst⟩ := hx
  simp only
  split
  · refine Run.Talks.compute fun args _ => ?_
    exact Run.Talks.fail
  · exact Run.Talks.lift fun cell hcell => ⟨e, result, rfl, hgives, hfirst cell hcell⟩

theorem ask_talks {c : Rpc.Client} {method : Text} {params : Value} :
    (Aggregator.ask c method params).Talks network fun x converted => ∃ e result sent, x = [e] ∧
      e.Gives method result ∧ params.snakeKeys = .ok sent ∧
      e.request.params = Rpc.sentParams sent ∧ result.camelKeys = .ok converted := by
  refine Run.Talks.compute fun sent hsent => ?_
  refine Run.Talks.call fun e result hgives hparams => ?_
  exact Run.Talks.lift fun converted h => ⟨e, result, sent, rfl, hgives, hsent, hparams, h⟩

/-- A request shows a cell under a key, in the way in which the aggregator knows cells. -/
def Shows (e : Exchange) (key : String) (cell : Value) : Prop :=
  ∃ point tail, cell.item "outPoint" = .ok point ∧ OutPoint.tail point = .ok tail ∧
    e.request.params.item key = .ok (.str tail)

/-- A field of what the aggregator is asked is a field of the request. -/
theorem item_of_sentParams {e : Exchange} {fields : List (String × Value)} {sent : Value}
    (key name : String) (v : Value) (hsent : (Value.record fields).snakeKeys = .ok sent)
    (hparams : e.request.params = Rpc.sentParams sent)
    (nodup : (fields.map fun f => KeyCase.snake f.1).Nodup) (hmem : (key, v) ∈ fields)
    (hname : KeyCase.snake key = name) :
    ∃ u, v.snakeKeys = .ok u ∧ e.request.params.item name = .ok u := by
  obtain ⟨u, hu, hitem⟩ := Value.item_of_snakeKeys hsent nodup hmem hname
  obtain ⟨d, rfl, -⟩ := Value.exists_dict_of_item hitem
  exact ⟨u, hu, hparams ▸ hitem⟩

/-! ## Building -/

theorem spending_talks {s : Service} {cell fee : Value} {deps : List Value} {action : Text}
    {root entry : Except Fault Value} :
    (spending s cell fee deps action root entry).Talks network fun x tx =>
      x = [] ∧ IsSpent s cell fee deps action root entry tx :=
  (Run.Talks.of_keeps (spending_keeps (R := fun _ => False))).weaken fun _ _ h =>
    ⟨List.eq_nil_iff_forall_not_mem.mpr h.1, h.2⟩

theorem mint_talks {s : Service} {lock info : Value} :
    (Mint.transaction s lock info).Talks network fun x tx =>
      ∃ (e₁ e₂ e₃ : Exchange) (cells cell define smt converted : Value), x = [e₁, e₂, e₃] ∧
        e₁.Gives "get_cells" cells ∧ e₂.Gives "get_define_info" define ∧
        e₃.Gives "generate_mint_cota_smt" smt ∧ ReadCell cells cell ∧
        Shows e₃ "out_point" cell ∧ smt.camelKeys = .ok converted ∧
        IsSpent s cell .null [.dict s.cotaCellDep] Mint.action (converted.item "smtRootHash")
          (converted.item "mintSmtEntry") tx := by
  refine cotaCell_talks.bind fun x cell hx => ?_
  obtain ⟨e₁, cells, rfl, hcells, hcell⟩ := hx
  refine Run.Talks.compute fun cotaId _ => ?_
  refine Run.Talks.compute fun given _ => ?_
  have hindexes : (Mint.assignIndexes s cotaId given).Talks network fun x _ =>
      ∃ e define, x = [e] ∧ e.Gives "get_define_info" define := by
    refine ask_talks.bind fun x define hx => ?_
    obtain ⟨e, result, -, rfl, hgives, -⟩ := hx
    refine Run.Talks.compute fun issued _ => ?_
    split
    · exact Run.Talks.throw _
    · refine Run.Talks.compute fun parts _ => ?_
      exact Run.Talks.lift fun _ _ => ⟨e, result, rfl, hgives⟩
  refine hindexes.bind fun x withdrawals hx => ?_
  obtain ⟨e₂, define, rfl, hdefine⟩ := hx
  refine Run.Talks.compute fun lockScript _ => ?_
  refine Run.Talks.compute fun outPoint hpoint => ?_
  refine Run.Talks.compute fun tail htail => ?_
  refine ask_talks.bind fun x converted hx => ?_
  obtain ⟨e₃, smt, sent, rfl, hsmt, hsent, hparams, hconverted⟩ := hx
  have hshows : Shows e₃ "out_point" cell := by
    obtain ⟨_, ⟨⟩, hitem⟩ := item_of_sentParams "outPoint" "out_point" (.str tail) hsent hparams
      (by simp only [List.map_cons, List.map_nil]; decide) (by simp) (by decide)
    exact ⟨outPoint, tail, hpoint, htail, hitem⟩
  refine Run.Talks.skip (Run.Keeps.mapM (fun _ => Run.Keeps.compute) _) fun tokens _ => ?_
  refine Run.Talks.compute fun block _ => ?_
  refine Run.Talks.skip (Run.Keeps.logNaming _ _ _) fun _ _ => ?_
  refine spending_talks.weaken fun x tx hx => ?_
  obtain ⟨rfl, htx⟩ := hx
  exact ⟨e₁, e₂, e₃, cells, cell, define, smt, converted, rfl, hcells, hdefine, hsmt, hcell,
    hshows, hconverted, htx⟩

theorem transfer_talks {s : Service} {lock withdrawalLock transfers : Value} :
    (Transfer.transaction s lock withdrawalLock transfers).Talks network fun x tx =>
      ∃ (e₁ e₂ e₃ : Exchange) (cells cell others other point smt converted : Value),
        x = [e₁, e₂, e₃] ∧ e₁.Gives "get_cells" cells ∧ e₂.Gives "get_cells" others ∧
        e₃.Gives "generate_transfer_cota_smt" smt ∧ ReadCell cells cell ∧
        ReadCell others other ∧ Shows e₃ "transfer_out_point" cell ∧
        smt.camelKeys = .ok converted ∧
        other.item "outPoint" = .ok point ∧
        IsSpent s cell .null
          [.record [("outPoint", point), ("depType", .str "code")], .dict s.cotaCellDep]
          Transfer.action (converted.item "smtRootHash") (converted.item "transferSmtEntry")
            tx := by
  refine cotaCell_talks.bind fun x cell hx => ?_
  obtain ⟨e₁, cells, rfl, hcells, hcell⟩ := hx
  refine cotaCell_talks.bind fun x other hx => ?_
  obtain ⟨e₂, others, rfl, hothers, hother⟩ := hx
  refine Run.Talks.compute fun lockScript _ => ?_
  refine Run.Talks.compute fun lockHash _ => ?_
  refine Run.Talks.compute fun outPoint hpoint => ?_
  refine Run.Talks.compute fun tail htail => ?_
  refine ask_talks.bind fun x converted hx => ?_
  obtain ⟨e₃, smt, sent, rfl, hsmt, hsent, hparams, hconverted⟩ := hx
  have hshows : Shows e₃ "transfer_out_point" cell := by
    obtain ⟨_, ⟨⟩, hitem⟩ := item_of_sentParams "transferOutPoint" "transfer_out_point" (.str tail)
      hsent hparams (by simp only [List.map_cons, List.map_nil]; decide) (by simp) (by decide)
    exact ⟨outPoint, tail, hpoint, htail, hitem⟩
  refine Run.Talks.compute fun parts _ => ?_
  refine Run.Talks.skip (Run.Keeps.mapM (fun _ => Run.Keeps.compute) _) fun tokens _ => ?_
  refine Run.Talks.compute fun block _ => ?_
  refine Run.Talks.skip (Run.Keeps.logNaming _ _ _) fun _ _ => ?_
  refine Run.Talks.compute fun point hpoint => ?_
  refine spending_talks.weaken fun x tx hx => ?_
  obtain ⟨rfl, htx⟩ := hx
  exact ⟨e₁, e₂, e₃, cells, cell, others, other, point, smt, converted, rfl, hcells, hothers, hsmt,
    hcell, hother, hshows, hconverted, hpoint, htx⟩

/-! ## Signing and sending -/

/-- The hash of the second transaction of a block. -/
def SecondHash (block hash : Value) : Prop :=
  ∃ converted transactions tx, block.camelKeys = .ok converted ∧
    converted.field "transactions" = .ok transactions ∧ transactions.select (.int 1) = .ok tx ∧
    tx.item "hash" = .ok hash

/-- Where the dep of the default lock comes from: the settings, or the genesis block. -/
inductive LockDepFrom (s : Service) : (fixed : Bool) → List Exchange → Value → Prop
  | settings {d : Dict} (configured : s.secp256k1Dep = some d) : LockDepFrom s true [] (.dict d)
  | genesis {e : Exchange} {block hash : Value} (gives : e.Gives "get_block_by_number" block)
      (second : SecondHash block hash) : LockDepFrom s false [e] (.record [
        ("outPoint", .record [("txHash", hash), ("index", .str "0x0")]),
        ("depType", .str "depGroup")])

theorem lockDep_talks {s : Service} {fixed : Bool} :
    (Submission.lockDep s fixed).Talks network (LockDepFrom s fixed) := by
  rw [Submission.lockDep]
  cases fixed with
  | true =>
    simp only [if_true]
    split
    · rename_i d hd
      exact Run.Talks.pure (.settings hd)
    · exact Run.Talks.throw _
  | false =>
    simp only [Bool.false_eq_true, if_false]
    have hblock : (s.collector.node.blockByNumber (.int 0)).Talks network fun x genesis =>
        ∃ e block, x = [e] ∧ e.Gives "get_block_by_number" block ∧
          block.camelKeys = .ok genesis := by
      refine Run.Talks.compute fun number _ => ?_
      refine Run.Talks.call fun e block hgives _ => ?_
      simp only
      refine Run.Talks.guard fun _ => ?_
      exact Run.Talks.lift fun genesis h => ⟨e, block, rfl, hgives, h⟩
    refine hblock.bind fun x genesis hx => ?_
    obtain ⟨e, block, rfl, hgives, hgenesis⟩ := hx
    refine Run.Talks.compute fun transactions htransactions => ?_
    refine Run.Talks.compute fun count hcount => ?_
    simp only
    refine Run.Talks.guard fun henough => ?_
    refine Run.Talks.compute fun tx htx => ?_
    refine Run.Talks.compute fun hash hhash => ?_
    refine Run.Talks.pure (.genesis hgives ?_)
    have hholds : transactions.holds := by
      by_contra hempty
      rw [Value.orElse, if_neg hempty] at hcount
      obtain rfl := Except.ok.inj hcount
      exact henough (by decide)
    rw [Value.orElse, if_pos hholds] at htx
    exact ⟨genesis, transactions, tx, hgenesis, htransactions, htx, hhash⟩

/-- What is signed and sent: the built transaction with one more dep. -/
def SignedFrom (s : Service) (fixed : Bool) (x : List Exchange) (built wire : Value) : Prop :=
  ∃ asked sent polls dep tx key signed hash rest, x = asked ++ sent :: polls ∧
    LockDepFrom s fixed asked dep ∧ Submission.appendDep built dep = .ok tx ∧
    Signing.sign tx key = .ok signed ∧ Wire.transaction signed = .ok wire ∧
    sent.Gives "send_transaction" hash ∧ sent.request.params = .list (wire :: rest) ∧
    ∀ e ∈ polls, e.request.method = .str "get_transaction"

theorem send_talks {s : Service} {signed : Value} :
    (Submission.send s signed).Talks network fun x _ => ∃ e wire hash rest, x = [e] ∧
      Wire.transaction signed = .ok wire ∧ e.Gives "send_transaction" hash ∧
      e.request.params = .list (wire :: rest) := by
  have hsend : (s.collector.node.sendTransaction signed).Talks network fun x _ =>
      ∃ e wire hash rest, x = [e] ∧ Wire.transaction signed = .ok wire ∧
        e.Gives "send_transaction" hash ∧ e.request.params = .list (wire :: rest) := by
    refine Run.Talks.compute fun wire hwire => ?_
    refine Run.Talks.call fun e hash hgives hparams => ?_
    refine Run.Talks.skip (Run.Keeps.logNaming _ _ _) fun _ _ => ?_
    exact Run.Talks.pure ⟨e, wire, hash, _, rfl, hwire, hgives, hparams⟩
  refine hsend.bind fun x hash hx => ?_
  split
  · exact Run.Talks.pure (by rwa [List.append_nil])
  · exact Run.Talks.throw _

theorem polls_talk {s : Service} {hash : Value} :
    (Submission.wait s hash).Talks network fun x _ =>
      ∀ e ∈ x, e.request.method = .str "get_transaction" :=
  (Run.Talks.of_keeps (wait_keeps fun _ h => h)).weaken fun _ _ h => h.1

theorem signAndSend_talks {s : Service} {built key lock : Value} {fixed waiting : Bool} :
    (Submission.signAndSend s built key lock fixed waiting).Talks network fun x _ =>
      ∃ wire, SignedFrom s fixed x built wire := by
  have hadd : (Submission.addDep s built fixed).Talks network fun x tx =>
      ∃ dep, LockDepFrom s fixed x dep ∧ Submission.appendDep built dep = .ok tx := by
    refine lockDep_talks.stage.bind fun x dep hdep => ?_
    exact Run.Talks.lift fun tx htx => ⟨dep, by rwa [List.append_nil], htx⟩
  refine hadd.bind fun asked tx hx => ?_
  obtain ⟨dep, hdep, htx⟩ := hx
  refine Run.Talks.skip (Run.Keeps.stage Run.Keeps.compute) fun _ _ => ?_
  refine Run.Talks.skip (Run.Keeps.stage (Run.Keeps.lift fun _ h => h)) fun signed hsigned => ?_
  refine Run.Talks.compute fun text _ => ?_
  refine Run.Talks.skip (Run.Keeps.print text) fun _ _ => ?_
  refine send_talks.stage.bind fun x hash hx => ?_
  obtain ⟨sent, wire, answer, rest, rfl, hwire, hgives, hparams⟩ := hx
  have hdone : ∀ polls : List Exchange, (∀ e ∈ polls, e.request.method = .str "get_transaction") →
      SignedFrom s fixed (asked ++ sent :: polls) built wire := fun polls hpolls =>
    ⟨asked, sent, polls, dep, tx, key, signed, answer, rest, rfl, hdep, htx, hsigned, hwire, hgives,
      hparams, hpolls⟩
  simp only
  split
  · refine polls_talk.stage.bind fun polls _ hpolls => Run.Talks.pure ⟨wire, ?_⟩
    rw [List.append_nil]
    exact hdone polls hpolls
  · exact Run.Talks.pure ⟨wire, hdone [] (List.forall_mem_nil _)⟩

end

/-! ## Settings -/

/-- The dep in the settings under a key, in the form of nodes. -/
def ConfiguredDep (config : Value) (key : String) (dep : Value) : Prop :=
  ∃ conf point txHash index depType t, config.item key = .ok conf ∧
    conf.item "outPoint" = .ok point ∧ point.item "txHash" = .ok txHash ∧
    point.item "index" = .ok index ∧
    conf.fieldOr "depType" (.str "dep_group") = .ok (.str depType) ∧
    KeyCase.camel depType = .ofString (DepType.name t) ∧
    dep = nodeDep (.record [("tx_hash", txHash), ("index", index)]) t

/-- A dep of the settings that can be read is sent as it is there. -/
theorem configuredDep_of_sentDep {config conf sent : Value} {key : String} {d : Dict}
    {read : CellDep} (hconf : config.item key = .ok conf) (hd : Service.cellDep conf = .ok d)
    (hread : CellDep.ofValue (.dict d) = .ok read) (hsent : sentDep (.dict d) = .ok sent) :
    ConfiguredDep config key sent := by
  obtain ⟨point, hpoint, hd⟩ := bind_eq_ok.mp hd
  obtain ⟨txHash, htxHash, hd⟩ := bind_eq_ok.mp hd
  rw [hpoint, ok_bind] at hd
  obtain ⟨index, hindex, hd⟩ := bind_eq_ok.mp hd
  obtain ⟨shown, hshown, hd⟩ := bind_eq_ok.mp hd
  obtain ⟨depType, hdepType, hd⟩ := bind_eq_ok.mp hd
  obtain rfl := Value.eq_str_of_text hdepType
  obtain rfl := Except.ok.inj hd
  obtain ⟨t, ht, rfl⟩ := sentDep_parts hread hsent
  exact ⟨conf, point, txHash, index, depType, t, hconf, hpoint, htxHash, hindex, hshown,
    Scalar.str.inj (Value.scalar.inj ht), rfl⟩

/-! ## The flows -/

/-- The dep of the default lock, in the form of nodes. -/
def LockDep (config : Value) (fixed : Bool) (x : List Exchange) (dep : Value) : Prop :=
  match fixed with
  | true => resultsOf "get_block_by_number" x = [] ∧ ConfiguredDep config "secp256k1Dep" dep
  | false => ∃ block hash, resultsOf "get_block_by_number" x = [.ok block] ∧
    SecondHash block hash ∧
    dep = nodeDep (.record [("tx_hash", hash), ("index", .str "0x0")]) .depGroup

/-- One transaction was sent. It spends a cell, as a reply of the aggregator says, with some deps,
that of the tokens and that of the default lock. -/
def Spends (IsOutput : Int → Value → Value → Prop) (config : Value) (fixed : Bool)
    (x : List Exchange) (method : Text) (entryKey : String) (action : UInt8) (cell : Value)
    (deps : List Value) : Prop :=
  ∃ smt converted root entry shownFee fee cotaDep lockDep wire rest,
    resultsOf method x = [.ok smt] ∧ smt.camelKeys = .ok converted ∧
    converted.item "smtRootHash" = .ok root ∧ converted.item entryKey = .ok entry ∧
    config.fieldOr "fee" (.int Service.defaultFee) = .ok shownFee ∧ shownFee.toInt = .ok fee ∧
    ConfiguredDep config "cotaCellDep" cotaDep ∧
    LockDep config fixed x lockDep ∧
    paramsOf "send_transaction" x = [.list (wire :: rest)] ∧
    SpendsCell (IsOutput fee) cell root entry action (deps ++ [cotaDep, lockDep]) wire

/-- A mint spends the first cell. -/
def MintSpends (IsOutput : Int → Value → Value → Prop) (config : Value) (fixed : Bool)
    (x : List Exchange) : Prop :=
  ∃ cells cell, resultsOf "get_cells" x = [.ok cells] ∧ FirstCell cells cell ∧
    Spends IsOutput config fixed x "generate_mint_cota_smt" "mintSmtEntry" 0x02 cell []

/-- A transfer spends the first cell of the first reply, and the first cell of the second reply is a
dep. -/
def TransferSpends (IsOutput : Int → Value → Value → Prop) (config : Value) (fixed : Bool)
    (x : List Exchange) : Prop :=
  ∃ cells cell others other point, resultsOf "get_cells" x = [.ok cells, .ok others] ∧
    FirstCell cells cell ∧ FirstCell others other ∧ other.item "out_point" = .ok point ∧
    Spends IsOutput config fixed x "generate_transfer_cota_smt" "transferSmtEntry" 0x06 cell
      [nodeDep point .code]

/-- An output that is made of a cell's, and is the same but for the fee where that is an object. -/
def IsSuccessor (fee : Int) (cell sent : Value) : Prop :=
  IsRemade fee cell sent ∧ ∀ d, cell.item "output" = .ok (.dict d) → PaysFee fee cell sent

/-- All keys in the results that have cells satisfy `P`, at every depth. -/
def CellKeys (P : Text → Prop) (x : List Exchange) : Prop :=
  ∀ result, .ok result ∈ resultsOf "get_cells" x → result.JsonKeys P

/-- The dep of the default lock is sent as it is in the settings or in the block. -/
theorem LockDepFrom.lockDep {s : Service} {config dep sent : Value} {fixed : Bool}
    {asked x : List Exchange} {read : CellDep} (h : LockDepFrom s fixed asked dep)
    (hs : s.Reads config) (hread : CellDep.ofValue dep = .ok read) (hsent : sentDep dep = .ok sent)
    (hx : resultsOf "get_block_by_number" x = resultsOf "get_block_by_number" asked) :
    LockDep config fixed x sent := by
  cases h with
  | settings hd =>
    obtain ⟨conf, hconf, hdep⟩ := hs.secp256k1Dep _ hd
    exact ⟨hx, configuredDep_of_sentDep hconf hdep hread hsent⟩
  | @genesis e block hash hgives hsecond =>
    obtain ⟨t, ht, rfl⟩ := sentDep_parts hread hsent
    have hname : (DepType.depGroup.name : Text) = t.name := Scalar.str.inj (Value.scalar.inj ht)
    obtain rfl : DepType.depGroup = t := by
      cases t with
      | code => exact absurd hname (by decide)
      | depGroup => rfl
    refine ⟨block, hash, ?_, hsecond, rfl⟩
    rw [hx, resultsOf_cons hgives, if_pos rfl]
    rfl

/-! ## Together -/

section

variable {s : Service} {config built wire : Value} {fixed : Bool} {first rest : List Exchange}

/-- The methods that are called once a transaction is built. -/
def laterMethods : List Text := ["get_block_by_number", "send_transaction", "get_transaction"]

theorem LockDepFrom.filter_calls_eq_nil {dep : Value} (h : LockDepFrom s fixed first dep)
    {method : Text} (hmethod : method ≠ "get_block_by_number") :
    first.filter (·.calls method) = [] := by
  cases h with
  | settings _ => rfl
  | genesis hgives _ => rw [filter_calls_cons hgives.1, if_neg hmethod.symm, List.filter_nil]

/-- Once a transaction is built, no other method is called. -/
theorem SignedFrom.resultsOf_of_notMem (h : SignedFrom s fixed rest built wire) {method : Text}
    (hmethod : method ∉ laterMethods) : resultsOf method rest = [] := by
  obtain ⟨asked, sent, polls, _, _, _, _, _, _, rfl, hasked, -, -, -, hsent, -, hpolls⟩ := h
  simp only [laterMethods, List.mem_cons, List.not_mem_nil, or_false, not_or] at hmethod
  obtain ⟨hblock, hsend, hpoll⟩ := hmethod
  refine resultsOf_eq_nil ?_
  rw [List.filter_append, hasked.filter_calls_eq_nil hblock, filter_calls_cons hsent.1,
    if_neg (Ne.symm hsend), filter_calls_eq_nil hpolls (Ne.symm hpoll), List.append_nil]

/-- **What was built of a cell and then signed is sent, and spends the cell.** -/
theorem SignedFrom.spends {cell smt converted : Value} {deps sentDeps : List Value} {method : Text}
    {entryKey : String} {action : UInt8} (h : SignedFrom s fixed rest built wire)
    (hs : s.Reads config) (hcell : cell.JsonKeys KeyCase.Survives)
    (hdeps : deps.mapM sentDep = .ok sentDeps)
    (hbuilt : IsSpent s (cell.rename KeyCase.camel) .null (deps ++ [.dict s.cotaCellDep])
      ("0x" ++ Text.ofChars (Hex.digits [action])) (converted.item "smtRootHash")
      (converted.item entryKey) built)
    (hconverted : smt.camelKeys = .ok converted)
    (hsmt : resultsOf method first = [.ok smt]) (hmethod : method ∉ laterMethods)
    (hblock : resultsOf "get_block_by_number" first = [])
    (hsend : paramsOf "send_transaction" first = []) :
    Spends IsSuccessor config fixed (first ++ rest) method entryKey action cell sentDeps := by
  have hnone := h.resultsOf_of_notMem hmethod
  obtain ⟨asked, sent, polls, dep, tx, key, signed, hash, more, rfl, hasked, htx, hsigned, hwire,
    hsent, hparams, hpolls⟩ := h
  obtain ⟨root, entry, allDeps, hroot, hentry, hread, hall, hspends⟩ :=
    hbuilt.spendsCell hcell htx hsigned hwire
  -- The deps are sent one by one: those of the flow, that of the tokens, and the added one.
  obtain ⟨cotaDep, lockDep, hcota, hlock, rfl⟩ : ∃ cotaDep lockDep,
      sentDep (.dict s.cotaCellDep) = .ok cotaDep ∧ sentDep dep = .ok lockDep ∧
        allDeps = sentDeps ++ [cotaDep, lockDep] := by
    simp only [List.mapM_append, hdeps, List.mapM_cons, List.mapM_nil, ok_bind, bind_eq_ok,
      pure_eq_ok, Except.ok.injEq] at hall
    obtain ⟨_, ⟨_, ⟨cotaDep, hcota, _, rfl, rfl⟩, rfl⟩, _, ⟨lockDep, hlock, _, rfl, rfl⟩, rfl⟩ :=
      hall
    exact ⟨cotaDep, lockDep, hcota, hlock, by simp⟩
  obtain ⟨cotaRead, hcotaRead⟩ := hread (.dict s.cotaCellDep) (by simp)
  obtain ⟨lockRead, hlockRead⟩ := hread dep (by simp)
  obtain ⟨conf, hconf, hconfDep⟩ := hs.cotaCellDep
  obtain ⟨shownFee, hshownFee, hfee⟩ := hs.fee
  refine ⟨smt, converted, root, entry, shownFee, s.fee, cotaDep, lockDep, wire, more, ?_,
    hconverted, hroot, hentry, hshownFee, hfee,
    configuredDep_of_sentDep hconf hconfDep hcotaRead hcota, ?_, ?_, ?_⟩
  · rw [resultsOf_append, hsmt, hnone]
    rfl
  · refine hasked.lockDep hs hlockRead hlock ?_
    rw [resultsOf_append, hblock, List.nil_append, resultsOf_append, resultsOf_cons hsent,
      if_neg (by decide), resultsOf_eq_nil (filter_calls_eq_nil hpolls (by decide)),
      List.append_nil]
  · rw [paramsOf_append, hsend, List.nil_append, paramsOf_append,
      paramsOf_eq_nil (hasked.filter_calls_eq_nil (by decide)), List.nil_append,
      paramsOf_cons hsent, if_pos rfl, paramsOf_eq_nil (filter_calls_eq_nil hpolls (by decide)),
      hparams]
  · exact hspends.mono fun output houtput => ⟨houtput, fun d hd => houtput.paysFee hcell hd⟩

end

section

variable {network : Network} {config account : Value} {fixed waiting : Bool}

theorem mintNft_talks {cotaId withdrawals : Value} :
    (mintNft config account cotaId withdrawals fixed waiting).Talks network fun x _ =>
      CellKeys KeyCase.Survives x → MintSpends IsSuccessor config fixed x := by
  refine Run.Talks.skip (Run.Keeps.stage (Run.Keeps.lift fun _ h => h)) fun s hs => ?_
  refine Run.Talks.skip decodeMint_keeps fun decoded _ => ?_
  obtain ⟨lock, info⟩ := decoded
  refine mint_talks.stage.bind fun first built hfirst => ?_
  refine Run.Talks.compute fun key _ => ?_
  refine signAndSend_talks.bind fun rest hash hrest => ?_
  refine Run.Talks.skip (Run.Keeps.logNaming _ _ _) fun _ _ => Run.Talks.pure ?_
  rw [List.append_nil]
  intro hsurvive
  obtain ⟨e₁, e₂, e₃, cells, cell, define, smt, converted, rfl, hcells, hdefine, hsmt, hcell, -,
    hconverted, hbuilt⟩ := hfirst
  obtain ⟨wire, hsigned⟩ := hrest
  have hresults : resultsOf "get_cells" ([e₁, e₂, e₃] ++ rest) = [.ok cells] := by
    rw [resultsOf_append, hsigned.resultsOf_of_notMem (by decide)]
    simp [resultsOf_cons hcells, resultsOf_cons hdefine, resultsOf_cons hsmt]
  obtain ⟨raw, hraw, hkeys, rfl⟩ :=
    hcell.exists_firstCell (hsurvive cells (hresults ▸ List.mem_cons_self))
  have haction : Mint.action = "0x" ++ Text.ofChars (Hex.digits [0x02]) := by decide
  rw [haction] at hbuilt
  refine ⟨cells, raw, hresults, hraw, ?_⟩
  have hnone : ([] : List Value).mapM sentDep = .ok [] := rfl
  refine hsigned.spends (Service.reads_of_ofConfig hs) hkeys hnone hbuilt hconverted ?_ (by decide)
    ?_ ?_
  all_goals simp [resultsOf_cons hcells, resultsOf_cons hdefine, resultsOf_cons hsmt,
    paramsOf_cons hcells, paramsOf_cons hdefine, paramsOf_cons hsmt]

theorem transferNft_talks {withdrawalAddress transfers : Value} :
    (transferNft config account withdrawalAddress transfers fixed waiting).Talks network
      fun x _ => CellKeys KeyCase.Survives x → TransferSpends IsSuccessor config fixed x := by
  refine Run.Talks.skip (Run.Keeps.stage (Run.Keeps.lift fun _ h => h)) fun s hs => ?_
  refine Run.Talks.skip decodeTransfer_keeps fun decoded _ => ?_
  obtain ⟨lock, withdrawalLock, list⟩ := decoded
  refine transfer_talks.stage.bind fun first built hfirst => ?_
  refine Run.Talks.compute fun key _ => ?_
  refine signAndSend_talks.bind fun rest hash hrest => ?_
  refine Run.Talks.skip (Run.Keeps.logNaming _ _ _) fun _ _ => Run.Talks.pure ?_
  rw [List.append_nil]
  intro hsurvive
  obtain ⟨e₁, e₂, e₃, cells, cell, others, other, point, smt, converted, rfl, hcells, hothers, hsmt,
    hcell, hother, -, hconverted, hpoint, hbuilt⟩ := hfirst
  obtain ⟨wire, hsigned⟩ := hrest
  have hresults : resultsOf "get_cells" ([e₁, e₂, e₃] ++ rest) = [.ok cells, .ok others] := by
    rw [resultsOf_append, hsigned.resultsOf_of_notMem (by decide)]
    simp [resultsOf_cons hcells, resultsOf_cons hothers, resultsOf_cons hsmt]
  obtain ⟨raw, hraw, hkeys, rfl⟩ :=
    hcell.exists_firstCell (hsurvive cells (hresults ▸ by simp))
  obtain ⟨rawOther, hrawOther, hotherKeys, rfl⟩ :=
    hother.exists_firstCell (hsurvive others (hresults ▸ by simp))
  obtain ⟨rawPoint, hrawPoint, rfl⟩ := Value.item_of_camel hotherKeys.textKeys
    (by decide : KeyCase.Survives "out_point") (by decide) hpoint
  have hdep : List.mapM sentDep [.record [("outPoint", rawPoint.rename KeyCase.camel),
      ("depType", .str "code")]] = .ok [nodeDep rawPoint .code] := by
    have hsent := sentDep_record (t := .code)
      (Value.snakeKeys_rename_camel (hotherKeys.item hrawPoint).textKeys)
    rw [DepType.name] at hsent
    rw [List.mapM_cons, hsent]
    rfl
  have haction : Transfer.action = "0x" ++ Text.ofChars (Hex.digits [0x06]) := by decide
  rw [haction] at hbuilt
  refine ⟨cells, raw, others, rawOther, rawPoint, hresults, hraw, hrawOther, hrawPoint, ?_⟩
  refine hsigned.spends (Service.reads_of_ofConfig hs) hkeys hdep hbuilt hconverted ?_ (by decide)
    ?_ ?_
  all_goals simp [resultsOf_cons hcells, resultsOf_cons hothers, resultsOf_cons hsmt,
    paramsOf_cons hcells, paramsOf_cons hothers, paramsOf_cons hsmt]

end

/-- **What a flow that ends well has sent spends the first cell.** It is said of every network whose
replies with cells have keys that survive. -/
theorem mintNft_transferNft_spendsFirstCell (network : Network) (config account : Value)
    (fixed waiting : Bool) :
    (∀ cotaId withdrawals,
      (mintNft config account cotaId withdrawals fixed waiting).Talks network fun x _ =>
        CellKeys KeyCase.Survives x → MintSpends IsSuccessor config fixed x) ∧
    ∀ withdrawalAddress transfers,
      (transferNft config account withdrawalAddress transfers fixed waiting).Talks network
        fun x _ => CellKeys KeyCase.Survives x → TransferSpends IsSuccessor config fixed x :=
  ⟨fun _ _ => mintNft_talks, fun _ _ => transferNft_talks⟩

/-! ## Two runs -/

theorem cellKeys_oneCell {output : Value} {P : Text → Prop} (hcarried : Json.Carried output)
    (h : (oneCell output (.str "get_cells")).JsonKeys P) (earlier requests : List RpcRequest) :
    CellKeys P (exchanges (oneCellNetwork output) earlier requests) := by
  intro result hresult
  obtain ⟨e, he, hmethod, hgiven⟩ := exists_of_mem_resultsOf hresult
  obtain ⟨-, before, hreply⟩ := exists_of_mem_exchanges he
  rw [hreply, resultOf_oneCell hcarried, hmethod] at hgiven
  exact Except.ok.inj hgiven ▸ h

theorem handedIn_of_paramsOf {network : Network} {w : World} {wire : Value} {rest : List Value}
    (h : paramsOf "send_transaction" (exchanges network [] w.requests) = [.list (wire :: rest)]) :
    handedIn w = some wire := by
  rw [paramsOf_exchanges] at h
  obtain ⟨r, hr, hparams⟩ := List.map_eq_singleton_iff.mp h
  rw [handedIn, ← List.head?_filter, hr, List.head?_cons, Option.bind_eq_bind, Option.bind_some,
    hparams]

/-- A mint that spends the only cell. -/
theorem mintNft_spendsFirstCell : MintSpends IsSuccessor sampleConfig true
    (exchanges (oneCellNetwork plainOutput) []
      (sampleMint.exec (oneCellNetwork plainOutput) {}).2.requests) := by
  have hkeys : (oneCell plainOutput (.str "get_cells")).JsonKeys KeyCase.Survives :=
    .of_hasKeys (by decide)
  have hall := (mintNft_transferNft_spendsFirstCell (oneCellNetwork plainOutput) sampleConfig
    sampleAccount true false).1 (.str "0x01") (.list [])
  obtain ⟨hash, hspends⟩ := hall.of_isOk (handedIn_of_observed observed_plainOutput).1
  exact hspends (cellKeys_oneCell carried_plainOutput hkeys _ _)

/-- What pays the fee has a capacity. -/
theorem SpendsCell.exists_sentCapacity {fee : Int} {cell root entry wire : Value} {action : UInt8}
    {deps : List Value} (h : SpendsCell (PaysFee fee) cell root entry action deps wire) :
    ∃ capacity, sentCapacity wire = .ok capacity := by
  obtain ⟨outPoint, output, data, witness, _, _, _, _, _, rfl, -, hpays, -⟩ := h
  obtain ⟨_, d, _, capacity, left, -, -, -, -, hleft, -, rfl⟩ := hpays
  have houtputs : (nodeForm outPoint (.dict (d.set (.str "capacity") left)) deps data
      witness).item "outputs" = .ok (.list [.dict (d.set (.str "capacity") left)]) :=
    Value.item_record.mpr (by simp)
  refine ⟨capacity - fee, ?_⟩
  rw [sentCapacity, houtputs, ok_bind, Value.first_cons, ok_bind, Value.item_set_self, ok_bind,
    hleft]

/-- An output that is given as pairs need not come back: a mint that ends well and hands in an
output without a capacity. -/
theorem not_paysFee_pairs : ¬ sampleMint.Talks (oneCellNetwork pairedOutput) fun x _ =>
    CellKeys AsciiSurvives x → MintSpends PaysFee sampleConfig true x := by
  intro hall
  have hkeys : (oneCell pairedOutput (.str "get_cells")).JsonKeys AsciiSurvives :=
    .of_hasKeys (by decide)
  obtain ⟨hended, wire', hwire', -, hnone⟩ := handedIn_of_observed observed_pairedOutput
  obtain ⟨hash, hspends⟩ := hall.of_isOk hended
  obtain ⟨_, _, -, -, _, _, _, _, _, _, _, _, wire, _, -, -, -, -, -, -, -, -, hparams, hcell⟩ :=
    hspends (cellKeys_oneCell carried_pairedOutput hkeys _ _)
  obtain ⟨capacity, hcapacity⟩ := hcell.exists_sentCapacity
  obtain rfl := Option.some.inj ((handedIn_of_paramsOf hparams).symm.trans hwire')
  rw [hcapacity] at hnone
  cases hnone

end Cota
end CellNft
