/-
CellNft.Proofs.Courses — the ways in which minting and transferring can go.

A course is a list of acts with an outcome, and a relation says which of them a part of a flow can
have. What comes before signing only asks, so it follows a plan (`mint_follows`,
`transfer_follows`). From there on every end of a part has a constructor of its own:

* `Sends` for handing in, `Finishes` from the key to the end, `Submits` with the dep before it;
* `Course` for a whole flow.

`mintNft_course` and `transferNft_course` say that these are all. What a constructor keeps of the
run is what the failing or succeeding computation was given, so theorems about all runs are case
distinctions over courses.
-/
import CellNft.Proofs.Polling
import CellNft.Proofs.Sending

namespace CellNft

open Outcome

namespace Cota

variable {network : Network}

/-! ## What is asked before signing -/

/-- The methods that a mint calls before it is signed. -/
def mintPlan : List Text := ["get_cells", "get_define_info", "generate_mint_cota_smt"]

/-- The methods that a transfer calls before it is signed. -/
def transferPlan : List Text := ["get_cells", "get_cells", "generate_transfer_cota_smt"]

/-- The methods that are called for the dep of the default lock. -/
def depPlan (fixed : Bool) : List Text := if fixed then [] else ["get_block_by_number"]

/-- The methods that are called to hand in a transaction. -/
def sendPlan : List Text := ["send_transaction"]

/-- The methods that are called by so many polls. -/
def pollPlan (count : Nat) : List Text := List.replicate count "get_transaction"

theorem cells_follows {c : Rpc.Collector} {lock type : Value} :
    (c.cells lock type).Follows network ["get_cells"] := by
  refine .compute (by simp) fun search => ?_
  have hresult : (c.indexer.cells search).Follows network ["get_cells"] := by
    refine .compute (by simp) fun limit => ?_
    exact .call fun result => .lift (by simp)
  refine hresult.close fun result => ?_
  refine .compute (by simp) fun objects => ?_
  refine .compute (by simp) fun count => ?_
  refine .compute (by simp) fun args => ?_
  exact .logNaming (.pure _)

theorem cotaCell_follows {s : Service} {lock : Value} :
    (s.cotaCell lock).Follows network ["get_cells"] := by
  refine cells_follows.close fun cells => ?_
  simp only
  split
  · refine .compute (by simp) fun args => ?_
    exact Run.Ends.fail (.stop [] (Fault.isPlain_naming.mpr fun _ => rfl))
  · exact .lift (by simp)

theorem ask_follows {c : Rpc.Client} {method : Text} {params : Value} :
    (Aggregator.ask c method params).Follows network [method] := by
  refine .compute (by simp) fun sent => ?_
  exact .call fun result => .lift (by simp)

theorem mint_follows {s : Service} {lock info : Value} :
    (Mint.transaction s lock info).Follows network mintPlan := by
  refine cotaCell_follows.bind fun cell => ?_
  refine .compute (by simp) fun cotaId => ?_
  refine .compute (by simp) fun given => ?_
  have hindexes : (Mint.assignIndexes s cotaId given).Follows network ["get_define_info"] := by
    refine ask_follows.close fun define => ?_
    refine .compute (by simp) fun issued => ?_
    split
    · exact .throw (Fault.isPlain_naming.mpr fun _ => rfl)
    · refine .compute (by simp) fun parts => ?_
      exact .lift (by simp)
  refine hindexes.bind fun withdrawals => ?_
  refine .compute (by simp) fun lockScript => ?_
  refine .compute (by simp) fun outPoint => ?_
  refine .compute (by simp) fun tail => ?_
  refine ask_follows.close fun smt => ?_
  refine (Run.Follows.mapM (fun _ => .lift (by simp)) _).bind fun tokens => ?_
  refine .compute (by simp) fun block => ?_
  exact .logNaming (spending_follows (by simp) (by simp))

theorem transfer_follows {s : Service} {lock withdrawalLock transfers : Value} :
    (Transfer.transaction s lock withdrawalLock transfers).Follows network transferPlan := by
  refine cotaCell_follows.bind fun cell => ?_
  refine cotaCell_follows.bind fun other => ?_
  refine .compute (by simp) fun lockScript => ?_
  refine .compute (by simp) fun lockHash => ?_
  refine .compute (by simp) fun outPoint => ?_
  refine .compute (by simp) fun tail => ?_
  refine ask_follows.close fun smt => ?_
  refine .compute (by simp) fun parts => ?_
  refine (Run.Follows.mapM (fun _ => .lift (by simp)) _).bind fun tokens => ?_
  refine .compute (by simp) fun block => .logNaming ?_
  refine .compute (by simp) fun point => ?_
  exact spending_follows (by simp) (by simp)

theorem lockDep_completes {s : Service} {fixed : Bool} {certain : Prop}
    (hurl : certain → ∃ url, s.collector.node.client.endpoint = .str url) :
    (Submission.lockDep s fixed).Completes network certain (depPlan fixed) := by
  rw [Submission.lockDep]
  cases fixed with
  | true =>
    refine .of_follows ?_
    simp only [if_true]
    split
    · exact .pure _
    · exact .throw (by simp)
  | false =>
    simp only [Bool.false_eq_true, if_false]
    have hblock : (s.collector.node.blockByNumber (.int 0)).Completes network certain
        ["get_block_by_number"] := by
      refine Run.Ends.compute (fun number _ => ?_) (by rintro _ ⟨⟩)
      refine Run.Completes.call
        (fun h => ⟨hurl h, Json.carried_str _, Rpc.carried_sentParams.mpr (by simp)⟩) fun block => ?_
      simp only
      exact .guard (Fault.isPlain_naming.mpr fun _ => rfl) (.lift (by simp))
    refine hblock.bind fun genesis => ?_
    refine .compute (by simp) fun transactions => ?_
    refine .compute (by simp) fun count => ?_
    simp only
    refine .guard (by simp) ?_
    refine .compute (by simp) fun tx => ?_
    refine .compute (by simp) fun hash => ?_
    exact .pure _

/-! ## Sending -/

/-- How handing in a transaction goes. -/
inductive Sends (s : Service) (signed : Value) : List Act → Except Fault Value → Prop
  | unwritten {fault : Fault} (written : Wire.transaction signed = .error fault) :
      Sends s signed [] (.error fault)
  | unasked {wire : Value} {fault : Fault} (written : Wire.transaction signed = .ok wire)
      (plain : fault.isPlain) (unable : ¬s.collector.node.client.CanAsk (.str "send_transaction")
        (.list [wire, .str "passthrough"])) : Sends s signed [] (.error fault)
  | failed {wire : Value} {e : Exchange} {fault : Fault}
      (written : Wire.transaction signed = .ok wire) (fails : e.Fails "send_transaction" fault)
      (params : e.request.params = .list [wire, .str "passthrough"]) :
      Sends s signed [.exchange e] (.error fault)
  | answered {wire hash : Value} {e : Exchange} (written : Wire.transaction signed = .ok wire)
      (gives : e.Gives "send_transaction" hash)
      (params : e.request.params = .list [wire, .str "passthrough"]) :
      Sends s signed [.exchange e]
        (if Submission.isHash hash then .ok hash else .error (.hashFormat hash))

theorem send_ends {s : Service} {signed : Value} :
    (Submission.send s signed).Ends network (Sends s signed) := by
  have hsend : (s.collector.node.sendTransaction signed).Ends network fun c out =>
      (∃ fault, out = .error fault ∧ Sends s signed c (.error fault)) ∨
      ∃ wire hash e, c = [.exchange e] ∧ out = .ok hash ∧ Wire.transaction signed = .ok wire ∧
        e.Gives "send_transaction" hash ∧
        e.request.params = .list [wire, .str "passthrough"] := by
    refine Run.Ends.compute (fun wire hwire => ?_) fun fault h => .inl ⟨_, rfl, .unwritten h⟩
    refine Run.Ends.call (fun fault h unable => .inl ⟨_, rfl, .unasked hwire h unable⟩)
      (fun e fault h hparams => .inl ⟨_, rfl, .failed hwire h hparams⟩) fun e hash h hparams => ?_
    exact Run.Ends.logCarried (List.forall_mem_singleton.mpr h.carried)
      (Run.Ends.pure (.inr ⟨wire, hash, e, rfl, rfl, hwire, h, hparams⟩))
  refine hsend.bind ?_ ?_
  · rintro c hash (⟨_, ⟨⟩, -⟩ | ⟨wire, _, e, rfl, ⟨⟩, hwire, hgives, hparams⟩)
    have hanswered := Sends.answered (s := s) hwire hgives hparams
    split at hanswered
    · rename_i hhash
      rw [if_pos hhash]
      exact Run.Ends.pure hanswered
    · rename_i hhash
      rw [if_neg hhash, Json.Carried.naming (List.forall_mem_singleton.mpr hgives.carried)]
      exact Run.Ends.throw hanswered
  · rintro c fault (⟨_, hfault, hsends⟩ | ⟨_, _, _, -, ⟨⟩, -⟩)
    exact Except.error.inj hfault ▸ hsends

theorem Sends.isPlain {s : Service} {signed : Value} {c : List Act} {fault : Fault}
    (h : Sends s signed c (.error fault)) : fault.isPlain := by
  generalize hout : (.error fault : Except Fault Value) = out at h
  cases h with
  | unwritten written => exact Except.error.inj hout ▸ Wire.plain_transaction signed _ written
  | unasked _ plain => exact Except.error.inj hout ▸ plain
  | failed _ fails => exact Except.error.inj hout ▸ fails.isPlain
  | answered =>
    split at hout
    · cases hout
    · exact Except.error.inj hout ▸ rfl

/-- A hash is a text. -/
theorem Submission.carried_of_isHash {hash : Value} (h : isHash hash) : Json.Carried hash := by
  unfold isHash at h
  split at h
  · exact Json.carried_str _
  · cases h

/-- A hash comes from what was sent. -/
theorem Sends.of_ok {s : Service} {signed hash : Value} {c : List Act}
    (h : Sends s signed c (.ok hash)) : Submission.isHash hash ∧ Calls c sendPlan ∧
      ∃ wire, Wire.transaction signed = .ok wire := by
  generalize hout : Except.ok hash = out at h
  cases h with
  | answered written gives params =>
    split at hout
    · rename_i hhash
      exact ⟨Except.ok.inj hout ▸ hhash, Calls.nil.cons gives.1, _, written⟩
    · cases hout
  | _ => cases hout

/-! ## From the key to the end -/

/-- The stages of a flow, in order. -/
inductive Stage where
  | service | address | generation | dep | key | signing | sending | waiting
deriving DecidableEq

namespace Stage

def name : Stage → Text
  | .service => "load service"
  | .address => "decode address"
  | .generation => "generate transaction"
  | .dep => "load secp256k1 dep"
  | .key => "check key"
  | .signing => "sign transaction"
  | .sending => "send transaction"
  | .waiting => "wait transaction"

/-- What a failure inside a stage becomes. -/
def fault (stage : Stage) (cause : Fault) : Fault := .stage (.str stage.name) cause

end Stage

/-- The line that shows a signed transaction. -/
def shown (signed : Value) : String := Json.text .compact signed ++ "\n"

/-- How signing, sending and waiting go, for a transaction that has all its deps. -/
inductive Finishes (s : Service) (tx key lock : Value) :
    Bool → List Act → Except Fault Value → Prop
  | locked (waiting : Bool) {fault : Fault} (checked : Submission.checkKey key lock = .error fault) :
      Finishes s tx key lock waiting [] (.error (Stage.key.fault fault))
  | unsigned (waiting : Bool) {fault : Fault} (sign : Signing.sign tx key = .error fault) :
      Finishes s tx key lock waiting [] (.error (Stage.signing.fault fault))
  | unprinted (waiting : Bool) {signed : Value} {fault : Fault}
      (sign : Signing.sign tx key = .ok signed) (refused : Json.refusal? signed = some fault) :
      Finishes s tx key lock waiting [] (.error fault)
  | unsent (waiting : Bool) {signed : Value} {c : List Act} {fault : Fault}
      (sign : Signing.sign tx key = .ok signed) (carried : Json.Carried signed)
      (sends : Sends s signed c (.error fault)) :
      Finishes s tx key lock waiting (.print (shown signed) :: c)
        (.error (Stage.sending.fault fault))
  | sent {signed hash : Value} {c : List Act} (sign : Signing.sign tx key = .ok signed)
      (carried : Json.Carried signed) (sends : Sends s signed c (.ok hash)) :
      Finishes s tx key lock false (.print (shown signed) :: c) (.ok hash)
  | unsettled {signed hash : Value} {c c' : List Act} {fault : Fault}
      (sign : Signing.sign tx key = .ok signed) (carried : Json.Carried signed)
      (sends : Sends s signed c (.ok hash))
      (waits : Rpc.Node.Polls s.collector.node hash Rpc.Node.polls c' (.error fault)) :
      Finishes s tx key lock true (.print (shown signed) :: (c ++ c'))
        (.error (Stage.waiting.fault fault))
  | settled {signed hash tx' : Value} {c c' : List Act} (sign : Signing.sign tx key = .ok signed)
      (carried : Json.Carried signed) (sends : Sends s signed c (.ok hash))
      (waits : Rpc.Node.Polls s.collector.node hash Rpc.Node.polls c' (.ok tx')) :
      Finishes s tx key lock true (.print (shown signed) :: (c ++ c')) (.ok hash)

/-- Waiting answers nothing: the transaction that the last poll answered is dropped. -/
theorem wait_ends {s : Service} {hash : Value} (hhash : Json.Carried hash) :
    (Submission.wait s hash).Ends network fun c out => ∃ r, out = (fun _ => ()) <$> r ∧
      Rpc.Node.Polls s.collector.node hash Rpc.Node.polls c r := by
  refine (Rpc.Node.waitForTransaction_ends _ hash).bind (fun c tx' h => ?_) fun c fault h =>
    ⟨.error fault, rfl, h⟩
  rw [← bind_pure (Run.logNaming _ _ _)]
  exact Run.Ends.logCarried (List.forall_mem_singleton.mpr hhash)
    (Run.Ends.pure ⟨.ok tx', rfl, by rwa [List.append_nil]⟩)

theorem finish_ends {s : Service} {tx key lock : Value} {waiting : Bool} :
    (Submission.finish s tx key lock waiting).Ends network (Finishes s tx key lock waiting) := by
  refine Run.Ends.computeStage (by simp) (fun _ _ => ?_) fun _ h => .locked waiting h
  refine Run.Ends.computeStage (by simp) (fun signed hsigned => ?_) fun _ h => .unsigned waiting h
  refine Run.Ends.compute (fun text htext => ?_) fun fault hfault => ?_
  swap
  · exact .unprinted waiting hsigned (Json.write_eq_error.mp hfault)
  obtain ⟨hcarried, rfl⟩ := Json.write_eq_ok.mp htext
  refine Run.Ends.print ?_
  refine Run.Ends.stage send_ends (fun _ _ h => (Fault.kind_of_isPlain h.isPlain).1)
    (fun c hash hsends => ?_) fun _ _ h => .unsent waiting hsigned hcarried h
  cases waiting with
  | false =>
    refine Run.Ends.pure ?_
    rw [List.append_nil]
    exact .sent hsigned hcarried hsends
  | true =>
    have hhash := Submission.carried_of_isHash hsends.of_ok.1
    refine Run.Ends.stage (wait_ends hhash) ?_ (fun c' _ h => ?_) fun c' fault h => ?_
    · rintro c fault ⟨r, hr, hpolls⟩
      cases r with
      | ok tx' => cases hr
      | error e => exact Except.error.inj hr ▸ hpolls.kind_ne_stage rfl
    · obtain ⟨r, hr, hpolls⟩ := h
      obtain ⟨tx', rfl, -⟩ := map_eq_ok.mp hr.symm
      refine Run.Ends.pure ?_
      rw [List.append_nil]
      exact .settled hsigned hcarried hsends hpolls
    · obtain ⟨r, hr, hpolls⟩ := h
      cases r with
      | ok tx' => cases hr
      | error e => exact Except.error.inj hr ▸ Finishes.unsettled hsigned hcarried hsends hpolls

theorem Finishes.isHash_of_ok {s : Service} {tx key lock hash : Value} {waiting : Bool}
    {c : List Act} (h : Finishes s tx key lock waiting c (.ok hash)) : Submission.isHash hash := by
  cases h with
  | sent _ _ sends => exact sends.of_ok.1
  | settled _ _ sends => exact sends.of_ok.1

/-- How signing and sending go for what was built. -/
inductive Submits (s : Service) (built key lock : Value) (fixed waiting : Bool) :
    List Act → Except Fault Value → Prop
  | undep {c : List Act} {fault : Fault}
      (follows : Follows (depPlan fixed) c (.error fault : Except Fault Value))
      (certain : (∃ url, s.collector.node.client.endpoint = .str url) → Calls c (depPlan fixed)) :
      Submits s built key lock fixed waiting c (.error (Stage.dep.fault fault))
  | dep {c c' : List Act} {dep tx : Value} {out : Except Fault Value}
      (follows : Follows (depPlan fixed) c (.ok dep))
      (source : LockDepFrom s fixed (exchangesOf c) dep)
      (append : Submission.appendDep built dep = .ok tx)
      (finishes : Finishes s tx key lock waiting c' out) :
      Submits s built key lock fixed waiting (c ++ c') out

theorem Submits.carried_of_ok {s : Service} {built key lock hash : Value} {fixed waiting : Bool}
    {c : List Act} (h : Submits s built key lock fixed waiting c (.ok hash)) :
    Json.Carried hash := by
  cases h with
  | dep _ _ _ finishes => exact Submission.carried_of_isHash finishes.isHash_of_ok

theorem signAndSend_ends {s : Service} {x : List Exchange} {built key lock : Value}
    {fixed waiting : Bool} (hbuilt : Built s x built) :
    (Submission.signAndSend s built key lock fixed waiting).Ends network
      (Submits s built key lock fixed waiting) := by
  rw [Submission.signAndSend, Submission.addDep, bind_assoc]
  refine Run.Ends.stage (Run.Ends.and_talks (lockDep_completes id) lockDep_talks)
    (fun _ _ h => (Fault.kind_of_isPlain h.1.1.isPlain).1) (fun c dep h => ?_)
    fun _ _ h => .undep h.1.1 h.1.2
  -- Between the stages there is nothing that could fail.
  obtain ⟨tx, htx⟩ := hbuilt.exists_appendDep dep
  simp only [htx]
  exact finish_ends.weaken fun _ _ hfinishes => .dep h.1.1 (h.2 dep rfl) htx hfinishes

/-! ## The flows -/

/-- How a flow goes whose transaction is built with the calls of a plan. -/
inductive Course (plan : List Text) (config account : Value) (fixed waiting : Bool) :
    List Act → Except Fault Value → Prop
  | unloaded {fault : Fault} (load : Service.ofConfig config = .error fault) :
      Course plan config account fixed waiting [] (.error (Stage.service.fault fault))
  | unread (fault : Fault) :
      Course plan config account fixed waiting [] (.error (Stage.address.fault fault))
  | unbuilt {c : List Act} {fault : Fault}
      (follows : Follows plan c (.error fault : Except Fault Value)) :
      Course plan config account fixed waiting c (.error (Stage.generation.fault fault))
  | keyless {c : List Act} {tx : Value} {fault : Fault} (follows : Follows plan c (.ok tx))
      (unheld : account.item "private_key" = .error fault) :
      Course plan config account fixed waiting c (.error fault)
  | built {s : Service} {c c' : List Act} {tx key lock : Value} {out : Except Fault Value}
      (load : Service.ofConfig config = .ok s) (follows : Follows plan c (.ok tx))
      (source : Built s (exchangesOf c) tx) (held : account.item "private_key" = .ok key)
      (submits : Submits s tx key lock fixed waiting c' out) :
      Course plan config account fixed waiting (c ++ c') out

section

variable {plan : List Text} {config account : Value} {fixed waiting : Bool}

/-- What both flows do when the addresses are read. -/
def building (s : Service) (x : Run Value) (account lock : Value) (fixed waiting : Bool)
    (message : Value → Text) : Run Value := do
  let tx ← Run.stage "generate transaction" x
  let hash ← Submission.signAndSend s tx (← account.item "private_key") lock fixed waiting
  Run.logNaming .info [hash] (message hash)
  return hash

section

variable {s : Service} {lock : Value} {x : Run Value} {message : Value → Text}
  {Q : List Act → Except Fault Value → Prop}

/-- What is known of the transaction that is built is known where it is signed. -/
theorem building_ends {P : List Exchange → Value → Prop} (hx : x.Follows network plan)
    (hP : x.Talks network P) (hbuilt : ∀ c tx, P c tx → Built s c tx)
    (unbuilt : ∀ c fault, Follows plan c (.error fault : Except Fault Value) →
      Q c (.error (Stage.generation.fault fault)))
    (keyless : ∀ c (tx : Value) fault, Follows plan c (.ok tx) →
      account.item "private_key" = .error fault → Q c (.error fault))
    (built : ∀ c c' tx key out, Follows plan c (.ok tx) → P (exchangesOf c) tx →
      account.item "private_key" = .ok key → Submits s tx key lock fixed waiting c' out →
        Q (c ++ c') out) :
    (building s x account lock fixed waiting message).Ends network Q := by
  refine Run.Ends.stage (Run.Ends.and_talks hx hP)
    (fun _ _ h => (Fault.kind_of_isPlain h.1.isPlain).1) (fun c tx h => ?_)
    fun _ _ h => unbuilt _ _ h.1
  obtain ⟨hfollows, htx⟩ := h
  refine Run.Ends.compute (fun key hkey => ?_) fun fault hfault => ?_
  · refine (signAndSend_ends (hbuilt _ _ (htx tx rfl))).bind (fun c' hash h => ?_) fun c' fault h =>
      built _ _ _ _ _ hfollows (htx tx rfl) hkey h
    refine Run.Ends.logCarried (List.forall_mem_singleton.mpr h.carried_of_ok) (Run.Ends.pure ?_)
    rw [List.append_nil]
    exact built _ _ _ _ _ hfollows (htx tx rfl) hkey h
  · rw [List.append_nil]
    exact keyless _ _ _ hfollows hfault

theorem building_course (hload : Service.ofConfig config = .ok s) (hx : x.Follows network plan)
    (hbuilt : x.Talks network (Built s)) :
    (building s x account lock fixed waiting message).Ends network
      (Course plan config account fixed waiting) :=
  building_ends hx hbuilt (fun _ _ h => h) (fun _ _ => .unbuilt) (fun _ _ _ => .keyless)
    fun _ _ _ _ _ => .built hload

theorem mintNft_ends {cotaId withdrawals : Value}
    (unloaded : ∀ fault, Service.ofConfig config = .error fault →
      Q [] (.error (Stage.service.fault fault)))
    (unread : ∀ fault, Q [] (.error (Stage.address.fault fault)))
    (read : ∀ s lock info message, Service.ofConfig config = .ok s →
      (building s (Mint.transaction s lock info) account lock fixed waiting message).Ends
        network Q) :
    (mintNft config account cotaId withdrawals fixed waiting).Ends network Q := by
  refine Run.Ends.computeStage (by simp) (fun s hs => ?_) unloaded
  refine Run.Follows.quietStage ?_ (fun decoded => ?_) unread
  · refine .compute (by simp) fun address => ?_
    refine .compute (by simp) fun lock => ?_
    refine .compute (by simp) fun parts => ?_
    exact (Run.Follows.mapM (fun _ => .lift (by simp)) _).bind fun list => .pure _
  · exact read s _ _ _ hs

theorem transferNft_ends {withdrawalAddress transfers : Value}
    (unloaded : ∀ fault, Service.ofConfig config = .error fault →
      Q [] (.error (Stage.service.fault fault)))
    (unread : ∀ fault, Q [] (.error (Stage.address.fault fault)))
    (read : ∀ s lock withdrawalLock list message, Service.ofConfig config = .ok s →
      (building s (Transfer.transaction s lock withdrawalLock list) account lock fixed waiting
        message).Ends network Q) :
    (transferNft config account withdrawalAddress transfers fixed waiting).Ends network Q := by
  refine Run.Ends.computeStage (by simp) (fun s hs => ?_) unloaded
  refine Run.Follows.quietStage ?_ (fun decoded => ?_) unread
  · refine .compute (by simp) fun address => ?_
    refine .compute (by simp) fun lock => ?_
    refine .compute (by simp) fun withdrawalLock => ?_
    refine .compute (by simp) fun parts => ?_
    exact (Run.Follows.mapM (fun _ => .lift (by simp)) _).bind fun list => .pure _
  · exact read s _ _ _ _ hs

end

theorem mintNft_course {cotaId withdrawals : Value} :
    (mintNft config account cotaId withdrawals fixed waiting).Ends network
      (Course mintPlan config account fixed waiting) :=
  mintNft_ends (fun _ => .unloaded) .unread fun _ _ _ _ hs =>
    building_course hs mint_follows (mint_built (Service.ofConfig_hasDeps hs))

theorem transferNft_course {withdrawalAddress transfers : Value} :
    (transferNft config account withdrawalAddress transfers fixed waiting).Ends network
      (Course transferPlan config account fixed waiting) :=
  transferNft_ends (fun _ => .unloaded) .unread fun _ _ _ _ _ hs =>
    building_course hs transfer_follows (transfer_built (Service.ofConfig_hasDeps hs))

end

end Cota
end CellNft
