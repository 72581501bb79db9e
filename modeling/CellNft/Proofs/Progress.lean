/-
CellNft.Proofs.Progress — how far a flow got, told from how it ended.

A flow should end with the hash of a transaction or with the failure of a stage, and which of them it
is should say which methods were called and whether the signed transaction was printed (`Tells`).

`mintNft_transferNft_tells_iff`: that is so of every run of `mintNft` and `transferNft` on an account
with a key, but for two kinds of runs that get past signing (`Strays`):

* The transaction is printed between two stages. If the settings give the index of a dep as bytes
  (`BytesIndexed`), there is no text to print, and the failure is one of no stage.
* Sending begins with converting the keys of what was signed, and that fails before anything is sent
  if the output is `Unsendable`.

`not_mintNft_tells` is a run of each kind.
-/
import CellNft.Proofs.Courses

namespace CellNft.Cota

open Outcome

/-! ## What an ending tells -/

/-- The methods that a run has called when it ends in a stage. Building calls those of `plan`, and
the dep of the default lock those of `dep`. -/
def Stage.Reached (plan dep : List Text) (made : List Text) : Stage → Prop
  | .service | .address => made = []
  | .generation => made <+: plan
  | .dep | .key | .signing => made = plan ++ dep
  | .sending => made = plan ++ dep ++ sendPlan
  | .waiting => ∃ k, 1 ≤ k ∧ k ≤ 30 ∧ made = plan ++ dep ++ sendPlan ++ pollPlan k

/-- Whether the signed transaction is printed by then. -/
def Stage.prints : Stage → Bool
  | .sending | .waiting => true
  | _ => false

/-- Nothing is handed in but a signed transaction, in the form of nodes. -/
def HandsIn (signed : Value) (c : List Act) : Prop :=
  ∀ e ∈ exchangesOf c, e.request.method = .str "send_transaction" →
    ∃ wire, Wire.transaction signed = .ok wire ∧ e.request.params = .list [wire, .str "passthrough"]

/-- What is printed is one transaction, signed with a key, and no other is handed in. -/
def PrintsSigned (key : Value) (c : List Act) : Prop :=
  ∃ tx signed, Signing.sign tx key = .ok signed ∧ printsOf c = [shown signed] ∧ HandsIn signed c

/-- What the acts of a flow are, told from how it ended. -/
inductive Tells (plan dep : List Text) (waiting : Bool) (key : Value) (c : List Act) :
    Except Fault Value → Prop
  | failed (stage : Stage) (cause : Fault) {made : List Text} (calls : Calls c made)
      (reached : stage.Reached plan dep made)
      (prints : if stage.prints then PrintsSigned key c else printsOf c = []) :
      Tells plan dep waiting key c (.error (stage.fault cause))
  | done {hash : Value} (isHash : Submission.isHash hash) (k : Nat)
      (calls : Calls c (plan ++ dep ++ sendPlan ++ pollPlan k))
      (polls : if waiting then 1 ≤ k ∧ k ≤ 30 else k = 0) (prints : PrintsSigned key c) :
      Tells plan dep waiting key c (.ok hash)

/-- A flow gets past signing: if a stage failed, it is one that prints. -/
def PassesSigning (out : Except Fault Value) : Prop :=
  ∀ (stage : Stage) (cause : Fault), out = .error (stage.fault cause) → stage.prints

/-- What the acts of a flow are that got past signing and did not send: the transaction has no text
to print, or it is printed and its keys cannot be converted. -/
inductive Strays (plan dep : List Text) (key : Value) (indexed : Prop) (c : List Act) :
    Except Fault Value → Prop
  | unprinted (bytes : indexed) (calls : Calls c (plan ++ dep)) (prints : printsOf c = []) :
      Strays plan dep key indexed c (.error .wrongType)
  | unsent (cause : Fault) (printable : ¬indexed) (calls : Calls c (plan ++ dep))
      (prints : PrintsSigned key c) :
      Strays plan dep key indexed c (.error (Stage.sending.fault cause))

/-- How a flow ended tells how far it got exactly if it did not get past signing with a transaction
that cannot be printed or sent. -/
structure TellsUnless (plan dep : List Text) (waiting : Bool) (key : Value)
    (indexed unsendable : Prop) (c : List Act) (out : Except Fault Value) : Prop where
  tells_iff : Tells plan dep waiting key c out ↔ ¬(PassesSigning out ∧ (indexed ∨ unsendable))
  strays : PassesSigning out → indexed ∨ unsendable → Strays plan dep key indexed c out

section

variable {plan dep : List Text} {waiting : Bool} {key : Value} {indexed unsendable : Prop}
  {c : List Act} {out : Except Fault Value}

theorem Stage.name_inj {stage stage' : Stage} (h : Value.str stage.name = .str stage'.name) :
    stage = stage' := by
  have hname := Scalar.str.inj (Value.scalar.inj h)
  revert hname
  cases stage <;> cases stage' <;> decide

theorem Stage.fault_inj {stage stage' : Stage} {cause cause' : Fault}
    (h : stage.fault cause = stage'.fault cause') : stage = stage' :=
  name_inj (Fault.stage.inj h).1

theorem Strays.not_tells (h : Strays plan dep key indexed c out) :
    ¬Tells plan dep waiting key c out := by
  intro htells
  cases h with
  | unprinted =>
    generalize hout : (.error .wrongType : Except Fault Value) = out at htells
    cases htells with
    | failed => cases hout
    | done => cases hout
  | unsent cause printable calls =>
    generalize hout : (.error (Stage.sending.fault cause) : Except Fault Value) = out at htells
    cases htells with
    | failed stage cause' made reached =>
      obtain rfl := Stage.fault_inj (Except.error.inj hout)
      obtain rfl := reached
      -- One method more would have been called.
      have hlength := congrArg List.length (calls.symm.trans made)
      simp [sendPlan] at hlength
    | done => cases hout

theorem Strays.passesSigning (h : Strays plan dep key indexed c out) : PassesSigning out := by
  cases h with
  | unprinted => rintro stage cause ⟨⟩
  | unsent =>
    intro stage cause' h
    obtain rfl := Stage.fault_inj (Except.error.inj h)
    rfl

namespace TellsUnless

theorem of_strays (h : Strays plan dep key indexed c out) (hwhy : indexed ∨ unsendable) :
    TellsUnless plan dep waiting key indexed unsendable c out where
  tells_iff := iff_of_false h.not_tells fun hnot => hnot ⟨h.passesSigning, hwhy⟩
  strays _ _ := h

theorem of_tells (h : Tells plan dep waiting key c out) (hprintable : ¬indexed)
    (hsendable : ¬unsendable) : TellsUnless plan dep waiting key indexed unsendable c out where
  tells_iff := iff_of_true h fun hnot => hnot.2.elim hprintable hsendable
  strays _ hwhy := (hwhy.elim hprintable hsendable).elim

/-- A stage up to signing tells how far the flow got. -/
theorem of_stage (stage : Stage) (cause : Fault) (hstage : stage.prints = false)
    {made : List Text} (calls : Calls c made) (reached : stage.Reached plan dep made)
    (prints : printsOf c = []) : TellsUnless plan dep waiting key indexed unsendable c
      (.error (stage.fault cause)) := by
  have hpasses : ¬PassesSigning (.error (stage.fault cause)) := fun h => by
    have hprints := h stage cause rfl
    rw [hstage] at hprints
    cases hprints
  refine ⟨iff_of_true (.failed stage cause calls reached ?_) fun h => hpasses h.1,
    fun h => absurd h hpasses⟩
  rwa [hstage, if_neg Bool.false_ne_true]

end TellsUnless

end

/-! ## Handing in -/

/-- Calls of other methods hand in nothing. -/
theorem HandsIn.of_calls {signed : Value} {c : List Act} {made : List Text} (h : Calls c made)
    (other : ("send_transaction" : Text) ∉ made) : HandsIn signed c := by
  intro e he hmethod
  have hmem : e.request.method ∈ made.map Value.str := h ▸ List.mem_map_of_mem he
  obtain ⟨m, hm, hname⟩ := List.mem_map.mp hmem
  rw [hmethod] at hname
  exact absurd (Scalar.str.inj (Value.scalar.inj hname) ▸ hm) other

theorem HandsIn.append {signed : Value} {c c' : List Act} (h : HandsIn signed c)
    (h' : HandsIn signed c') : HandsIn signed (c ++ c') := by
  intro e he
  rw [exchangesOf_append] at he
  exact (List.mem_append.mp he).elim (h e) (h' e)

/-- Acts that call the methods of a plan, print nothing and hand in nothing. -/
structure OnlyAsks (plan : List Text) (c : List Act) : Prop where
  calls : Calls c plan
  prints : printsOf c = []
  handless : ("send_transaction" : Text) ∉ plan

namespace OnlyAsks

variable {plan plan' : List Text} {c c' : List Act}

theorem of_follows {α : Type} {a : α} (h : Follows plan c (.ok a))
    (other : ("send_transaction" : Text) ∉ plan) : OnlyAsks plan c :=
  ⟨h.calls, h.printsOf_eq_nil, other⟩

theorem append (h : OnlyAsks plan c) (h' : OnlyAsks plan' c') :
    OnlyAsks (plan ++ plan') (c ++ c') where
  calls := h.calls.append h'.calls
  prints := by rw [printsOf_append, h.prints, h'.prints, List.append_nil]
  handless hmem := (List.mem_append.mp hmem).elim h.handless h'.handless

/-- What is printed and handed in behind them is all there is. -/
theorem printsSigned {tx key signed : Value} (h : OnlyAsks plan c)
    (hsigned : Signing.sign tx key = .ok signed) (hhands : HandsIn signed c')
    (hprints : printsOf c' = []) : PrintsSigned key (c ++ .print (shown signed) :: c') :=
  ⟨tx, signed, hsigned, by rw [printsOf_append, h.prints, printsOf_print, hprints, List.nil_append],
    (HandsIn.of_calls h.calls h.handless).append hhands⟩

theorem calls_print {made : List Text} (h : OnlyAsks plan c) (text : String)
    (hcalls : Calls c' made) : Calls (c ++ .print text :: c') (plan ++ made) :=
  h.calls.append ((CellNft.calls_print ..).mpr hcalls)

end OnlyAsks

section

variable {s : Service} {signed tx key lock hash : Value} {c before : List Act}
  {out : Except Fault Value} {plan dep : List Text} {waiting : Bool} {indexed unsendable : Prop}

/-- Nothing is printed while sending, and nothing else is handed in. -/
theorem Sends.handsIn (h : Sends s signed c out) : HandsIn signed c ∧ printsOf c = [] := by
  have hhands : ∀ e : Exchange, ∀ wire, Wire.transaction signed = .ok wire →
      e.request.params = .list [wire, .str "passthrough"] → HandsIn signed [.exchange e] := by
    intro e wire hwire hparams e' he' _
    obtain rfl := List.mem_singleton.mp he'
    exact ⟨wire, hwire, hparams⟩
  cases h with
  | unwritten | unasked => exact ⟨nofun, rfl⟩
  | failed written _ params => exact ⟨hhands _ _ written params, rfl⟩
  | answered written _ params => exact ⟨hhands _ _ written params, rfl⟩

/-- What can be sent is sent, whatever comes of it. -/
theorem Sends.cases_calls (h : Sends s signed c out)
    (endpoint : ∃ url, s.collector.node.client.endpoint = .str url) (hcarried : Json.Carried signed) :
    HandsIn signed c ∧ printsOf c = [] ∧
      ((c = [] ∧ ¬ ∃ wire, Wire.transaction signed = .ok wire) ∨
        Calls c sendPlan ∧ ∃ wire, Wire.transaction signed = .ok wire) := by
  obtain ⟨hhands, hnone⟩ := h.handsIn
  refine ⟨hhands, hnone, ?_⟩
  cases h with
  | unwritten written =>
    refine .inl ⟨rfl, ?_⟩
    rintro ⟨wire, hwire⟩
    rw [hwire] at written
    cases written
  | @unasked wire _ written _ unable =>
    have hparams : Json.Carried (.list [wire, .str "passthrough"]) := by
      simpa using hcarried.wire written
    exact absurd ⟨endpoint, Json.carried_str _, Rpc.carried_sentParams.mpr hparams⟩ unable
  | failed written fails => exact .inr ⟨Calls.nil.cons fails.1, _, written⟩
  | answered written gives => exact .inr ⟨Calls.nil.cons gives.1, _, written⟩

/-- Waiting does not print or hand in anything, either. -/
theorem Sends.handsIn_waits {c' : List Act} {r : Except Fault Value}
    (h : Sends s signed c (.ok hash))
    (waits : Rpc.Node.Polls s.collector.node hash Rpc.Node.polls c' r) :
    HandsIn signed (c ++ c') ∧ printsOf (c ++ c') = [] := by
  obtain ⟨hhands, hnone⟩ := h.handsIn
  have hpolls : HandsIn signed c' := fun e he hmethod => by
    rw [waits.method_eq e he] at hmethod
    exact absurd (Scalar.str.inj (Value.scalar.inj hmethod)) (by decide)
  refine ⟨hhands.append hpolls, ?_⟩
  rw [printsOf_append, hnone, waits.printsOf_eq_nil, List.append_nil]

/-- What a hash is waited for with comes after what it was sent with. -/
theorem Sends.waits {c' : List Act} {r : Except Fault Value} (h : Sends s signed c (.ok hash))
    (waits : Rpc.Node.Polls s.collector.node hash Rpc.Node.polls c' r)
    (endpoint : ∃ url, s.collector.node.client.endpoint = .str url) :
    ∃ k, 1 ≤ k ∧ k ≤ 30 ∧ Calls (c ++ c') (sendPlan ++ pollPlan k) ∧ HandsIn signed (c ++ c') ∧
      printsOf (c ++ c') = [] := by
  have hhash := Submission.carried_of_isHash h.of_ok.1
  obtain ⟨k, hpos, hmost, hpolls⟩ := waits.exists_calls
    ⟨endpoint, Json.carried_str _, Rpc.carried_sentParams.mpr (by simpa using hhash)⟩
  exact ⟨k, hpos, hmost, h.of_ok.2.1.append hpolls, h.handsIn_waits waits⟩

/-- A flow goes on to the key when all calls for building and for the dep were made. -/
theorem Finishes.tells (h : Finishes s tx key lock waiting c out)
    (hbefore : OnlyAsks (plan ++ dep) before)
    (endpoint : ∃ url, s.collector.node.client.endpoint = .str url)
    (hrefused : ∀ signed, Signing.sign tx key = .ok signed → ∀ fault,
      (Json.refusal? signed = some fault ↔ fault = .wrongType ∧ indexed))
    (hwire : ∀ signed, Signing.sign tx key = .ok signed →
      ((∃ wire, Wire.transaction signed = .ok wire) ↔ ¬unsendable)) :
    TellsUnless plan dep waiting key indexed unsendable (before ++ c) out := by
  have hprintable : ∀ {signed}, Signing.sign tx key = .ok signed → Json.Carried signed →
      ¬indexed := fun hsigned hcarried hindexed =>
    Option.some_ne_none _ (((hrefused _ hsigned .wrongType).mpr ⟨rfl, hindexed⟩).symm.trans hcarried)
  cases h with
  | locked _ checked =>
    rw [List.append_nil]
    exact .of_stage .key _ rfl hbefore.calls rfl hbefore.prints
  | unsigned _ sign =>
    rw [List.append_nil]
    exact .of_stage .signing _ rfl hbefore.calls rfl hbefore.prints
  | unprinted _ sign refused =>
    obtain ⟨rfl, hindexed⟩ := (hrefused _ sign _).mp refused
    rw [List.append_nil]
    exact .of_strays (.unprinted hindexed hbefore.calls hbefore.prints) (.inl hindexed)
  | @unsent _ signed _ _ sign carried sends =>
    obtain ⟨hhands, hnone, hsends⟩ := sends.cases_calls endpoint carried
    have hprints := hbefore.printsSigned sign hhands hnone
    -- The only stage with two ends: whether the request was made depends on the keys of the output.
    rcases hsends with ⟨rfl, hunwritten⟩ | ⟨hsent, hwritten⟩
    · have hunsendable : unsendable := not_not.mp fun hnot => hunwritten ((hwire _ sign).mpr hnot)
      have hcalls := hbefore.calls_print (shown signed) .nil
      rw [List.append_nil] at hcalls
      exact .of_strays (.unsent _ (hprintable sign carried) hcalls hprints) (.inr hunsendable)
    · exact .of_tells (.failed .sending _ (hbefore.calls_print _ hsent) rfl hprints)
        (hprintable sign carried) ((hwire _ sign).mp hwritten)
  | sent sign carried sends =>
    obtain ⟨hhands, hnone, -⟩ := sends.cases_calls endpoint carried
    obtain ⟨hhash, hsent, hwritten⟩ := sends.of_ok
    refine .of_tells (.done hhash 0 ?_ rfl (hbefore.printsSigned sign hhands hnone))
      (hprintable sign carried) ((hwire _ sign).mp hwritten)
    rw [pollPlan, List.replicate_zero, List.append_nil]
    exact hbefore.calls_print _ hsent
  | unsettled sign carried sends waits =>
    obtain ⟨k, hpos, hmost, hmade, hhands, hnone⟩ := sends.waits waits endpoint
    exact .of_tells (.failed .waiting _ (hbefore.calls_print _ hmade)
      ⟨k, hpos, hmost, (List.append_assoc ..).symm⟩ (hbefore.printsSigned sign hhands hnone))
      (hprintable sign carried) ((hwire _ sign).mp sends.of_ok.2.2)
  | settled sign carried sends waits =>
    obtain ⟨k, hpos, hmost, hmade, hhands, hnone⟩ := sends.waits waits endpoint
    refine .of_tells (.done sends.of_ok.1 k ?_ ⟨hpos, hmost⟩
      (hbefore.printsSigned sign hhands hnone)) (hprintable sign carried)
      ((hwire _ sign).mp sends.of_ok.2.2)
    rw [List.append_assoc (plan ++ dep)]
    exact hbefore.calls_print _ hmade

/-- A flow goes on to the dep when all calls for building were made. -/
theorem Submits.tells {config : Value} {fixed : Bool}
    (h : Submits s tx key lock fixed waiting c out) (hbefore : OnlyAsks plan before)
    (endpoint : ∃ url, s.collector.node.client.endpoint = .str url) (hs : s.Reads config)
    (hdeps : s.HasDeps) (hbuilt : Built s (exchangesOf before) tx)
    (hkeys : CellKeys (fun _ => True) (exchangesOf before)) :
    TellsUnless plan (depPlan fixed) waiting key (BytesIndexed config fixed)
      (Unsendable (exchangesOf before)) (before ++ c) out := by
  have hother : ("send_transaction" : Text) ∉ depPlan fixed := by cases fixed <;> decide
  cases h with
  | undep follows certain =>
    have hasks := hbefore.append ⟨certain endpoint, follows.printsOf_eq_nil, hother⟩
    exact .of_stage .dep _ rfl hasks.calls rfl hasks.prints
  | dep follows source append finishes =>
    rw [← List.append_assoc]
    exact finishes.tells (hbefore.append (.of_follows follows hother)) endpoint
      (fun _ hsigned => hbuilt.refusal?_signed hs source append hsigned)
      fun _ hsigned => exists_wire_iff hbuilt hkeys (source.convertible hdeps) append hsigned

end

/-! ## The flows -/

/-- The endpoint of the node is a text, if it is in the settings. -/
def NamesNode (config : Value) : Prop :=
  ∀ v, config.item "ckbNodeUrl" = .ok v → ∃ url, v = .str url

theorem Course.tells {plan : List Text} {config account key : Value} {fixed waiting : Bool}
    {c : List Act} {out : Except Fault Value} (h : Course plan config account fixed waiting c out)
    (hnode : NamesNode config) (hkey : account.item "private_key" = .ok key)
    (other : ("send_transaction" : Text) ∉ plan)
    (hkeys : CellKeys (fun _ => True) (exchangesOf c)) :
    TellsUnless plan (depPlan fixed) waiting key (BytesIndexed config fixed)
      (Unsendable (exchangesOf c)) c out := by
  cases h with
  | unloaded => exact .of_stage .service _ rfl .nil rfl rfl
  | unread => exact .of_stage .address _ rfl .nil rfl rfl
  | unbuilt follows =>
    obtain ⟨made, hmade, hcalls⟩ := follows.exists_calls
    exact .of_stage .generation _ rfl hcalls hmade follows.printsOf_eq_nil
  | keyless _ unheld =>
    rw [hkey] at unheld
    cases unheld
  | built load follows source held submits =>
    obtain rfl := Except.ok.inj (hkey.symm.trans held)
    have hreads := Service.reads_of_ofConfig load
    rw [exchangesOf_append] at hkeys ⊢
    rw [unsendable_append source.ne_nil]
    exact submits.tells (.of_follows follows other) (hnode _ hreads.node) hreads
      (Service.ofConfig_hasDeps load) source hkeys.of_append

/-- **How a flow ended tells how far it got, unless it got past signing with a transaction that
cannot be printed or sent.** The account has a key, and the replies with cells are documents. -/
theorem mintNft_transferNft_tells_iff (network : Network) {config account key : Value}
    (hnode : NamesNode config) (hkey : account.item "private_key" = .ok key)
    (fixed waiting : Bool) :
    (∀ cotaId withdrawals,
      (mintNft config account cotaId withdrawals fixed waiting).Ends network fun c out =>
        CellKeys (fun _ => True) (exchangesOf c) →
          TellsUnless mintPlan (depPlan fixed) waiting key (BytesIndexed config fixed)
            (Unsendable (exchangesOf c)) c out) ∧
    ∀ withdrawalAddress transfers,
      (transferNft config account withdrawalAddress transfers fixed waiting).Ends network
        fun c out => CellKeys (fun _ => True) (exchangesOf c) →
          TellsUnless transferPlan (depPlan fixed) waiting key (BytesIndexed config fixed)
            (Unsendable (exchangesOf c)) c out :=
  ⟨fun _ _ => mintNft_course.weaken fun _ _ h => h.tells hnode hkey (by decide),
    fun _ _ => transferNft_course.weaken fun _ _ h => h.tells hnode hkey (by decide)⟩

/-! ## Three runs -/

theorem namesNode_configWith (dep : Value) : NamesNode (configWith dep) :=
  fun _ hv => ⟨_, (Except.ok.inj hv).symm⟩

/-- A mint that ends well. -/
theorem mintNft_tells_plain : ∃ key c,
    sampleAccount.item "private_key" = .ok key ∧
    c = acts (oneCellNetwork plainOutput) []
      (sampleMint.exec (oneCellNetwork plainOutput) {}).2.trace ∧
    Calls c (mintPlan ++ sendPlan) ∧ PrintsSigned key c := by
  have hkeys : (oneCell plainOutput (.str "get_cells")).JsonKeys fun _ => True :=
    .of_hasKeys (by decide)
  have hkey : sampleAccount.item "private_key" = .ok (.str (Hex.encode (Bytes.ofNatBE 32 1))) := rfl
  have hends : sampleMint.Ends (oneCellNetwork plainOutput) _ :=
    (mintNft_transferNft_tells_iff (oneCellNetwork plainOutput) (namesNode_configWith _) hkey true
      false).1 (.str "0x01") (.list [])
  have htells := hends.exec
  rw [exchangesOf_acts] at htells
  obtain ⟨hash, hhash⟩ := exists_of_isOk (handedIn_of_observed observed_plainOutput).1
  rw [hhash] at htells
  obtain ⟨htells, hstrays⟩ := htells (cellKeys_oneCell carried_plainOutput hkeys _ _)
  -- A run that ends well has not strayed.
  have hnot : ∀ {indexed : Prop}, ¬Strays mintPlan (depPlan true)
      (.str (Hex.encode (Bytes.ofNatBE 32 1))) indexed (acts (oneCellNetwork plainOutput) []
        (sampleMint.exec (oneCellNetwork plainOutput) {}).2.trace) (.ok hash) := nofun
  cases htells.mpr fun h => hnot (hstrays h.1 h.2) with
  | done isHash k calls polls prints =>
    obtain rfl : k = 0 := polls
    exact ⟨_, _, hkey, rfl, by simpa [depPlan, pollPlan] using calls, prints⟩

/-- A dep with an index as bytes. They are read like a text. -/
def bytesDep : Value := .record [
  ("outPoint", .record [
    ("txHash", .str (Hex.encode (List.replicate 32 0x22))), ("index", .bytes [0x30, 0x78, 0x30])]),
  ("depType", .str "dep_group")]

/-- An output as a list of pairs, one of which begins with a number. `Value.toDict` takes it and it
is signed, but a number is no key that can be converted. -/
def numberedOutput : Value := .list [
  .list [.str "capacity", .str "0x4a817c800"],
  .list [.str "lock", sampleLock],
  .list [.int 1, .str "0x"]]

theorem carried_numberedOutput : Json.Carried numberedOutput := by
  have hlock : Json.Carried sampleLock := by decide
  simp [numberedOutput, hlock]

/-- Whether a run failed with a wrong type, in no stage. -/
def failedBare : Except Fault Value → Bool
  | .error .wrongType => true
  | _ => false

/-- Whether a run failed while sending. -/
def failedSending : Except Fault Value → Bool
  | .error (.stage name _) => name.same (.str Stage.sending.name)
  | _ => false

theorem failedBare_bytesDep : failedBare ((mintNft (configWith bytesDep) sampleAccount (.str "0x01")
    (.list []) true false).exec (oneCellNetwork plainOutput) {}).1 = true := by
  decide +kernel

theorem failedSending_numberedOutput : (fun r : Except Fault Value × World =>
    (failedSending r.1, r.2.requests.length)) (sampleMint.exec (oneCellNetwork numberedOutput) {})
      = (true, 3) := by
  decide +kernel

/-- What failed while sending tells that something was sent. -/
theorem Tells.calls_of_sending {plan dep : List Text} {waiting : Bool} {key : Value} {c : List Act}
    {out : Except Fault Value} (h : Tells plan dep waiting key c out)
    (hout : failedSending out = true) : Calls c (plan ++ dep ++ sendPlan) := by
  cases h with
  | failed stage cause calls reached =>
    obtain rfl := Stage.name_inj (Value.eq_str_of_same hout)
    exact reached ▸ calls
  | done => cases hout

/-- A mint that fails in no stage, and one that fails while sending although nothing was sent. -/
theorem not_mintNft_tells :
    (NamesNode (configWith bytesDep) ∧ ∃ key, sampleAccount.item "private_key" = .ok key ∧
      ¬(mintNft (configWith bytesDep) sampleAccount (.str "0x01") (.list []) true false).Ends
        (oneCellNetwork plainOutput) fun c out => CellKeys (fun _ => True) (exchangesOf c) →
          Tells mintPlan (depPlan true) false key c out) ∧
    NamesNode sampleConfig ∧ ∃ key, sampleAccount.item "private_key" = .ok key ∧
      ¬sampleMint.Ends (oneCellNetwork numberedOutput) fun c out =>
        CellKeys (fun _ => True) (exchangesOf c) →
          Tells mintPlan (depPlan true) false key c out := by
  refine ⟨⟨namesNode_configWith _, _, rfl, fun hall => ?_⟩,
    namesNode_configWith _, _, rfl, fun hall => ?_⟩
  · have hkeys : (oneCell plainOutput (.str "get_cells")).JsonKeys fun _ => True :=
      .of_hasKeys (by decide)
    have htells := hall.exec
    rw [exchangesOf_acts] at htells
    have hfailed := failedBare_bytesDep
    generalize ((mintNft (configWith bytesDep) sampleAccount (.str "0x01") (.list []) true
      false).exec (oneCellNetwork plainOutput) {}).1 = out at htells hfailed
    cases htells (cellKeys_oneCell carried_plainOutput hkeys _ _) with
    | failed => cases hfailed
    | done => cases hfailed
  · have hkeys : (oneCell numberedOutput (.str "get_cells")).JsonKeys fun _ => True :=
      .of_hasKeys (by decide)
    have htells := hall.exec
    rw [exchangesOf_acts] at htells
    obtain ⟨hsending, hlength⟩ := Prod.mk.inj failedSending_numberedOutput
    have hcalls := (htells (cellKeys_oneCell carried_numberedOutput hkeys _ _)).calls_of_sending
      hsending
    rw [Calls, methodsOf_acts, requestsOf_trace] at hcalls
    have hfour := congrArg List.length hcalls
    rw [List.length_map, List.length_map, hlength] at hfour
    exact absurd hfour (by decide)

end CellNft.Cota
