/-
CellNft.Proofs.Numbering — which numbers the requests of a program bear.

Every call takes the next number, and its request bears it. `Run.Numbers network certain x P`: the
requests of `x` bear some of the numbers that `x` takes, in order. If the condition `certain` holds,
they bear all of them, and what `x` answers satisfies `P`.

A call that cannot make its request takes a number all the same, and this is the only way in which
one is left out (`Client.callOf_adds`). It happens where JSON has no text for the parameters. What
is sent on from replies has one, and so has what was printed before it is sent. So each program
needs only that JSON carries what it is given, and that is its condition here.
-/
import CellNft.Cota.Mint
import CellNft.Cota.Transfer
import CellNft.Proofs.Sending

namespace CellNft

open Outcome

/-! ## Numbers of requests -/

/-- The numbers of the requests among events. -/
def idsOf (events : List Event) : List Nat := (requestsOf events).map (·.id)

theorem idsOf_append (first second : List Event) :
    idsOf (first ++ second) = idsOf first ++ idsOf second := by
  rw [idsOf, requestsOf_append, List.map_append]
  rfl

namespace Run

variable {α β : Type} {network : Network} {certain : Prop}

/-- The requests of `x` bear some of the numbers that it takes, in order. Under a condition they
bear all of them, and the answer satisfies `P`. -/
def Numbers (network : Network) (certain : Prop) (x : Run α) (P : α → Prop) : Prop :=
  x.Adds network fun before added taken out =>
    (idsOf added).Sublist (List.range' before.nextId taken) ∧
    (certain → idsOf added = List.range' before.nextId taken ∧ ∀ a, out = .ok a → P a)

namespace Numbers

variable {x : Run α} {f : α → Run β} {P : α → Prop} {Q : β → Prop}

theorem lift {x : Except Fault α} (h : certain → ∀ a, x = .ok a → P a) :
    (liftM x : Run α).Numbers network certain P :=
  Adds.lift fun _ => ⟨List.Sublist.refl [], fun hc => ⟨rfl, h hc⟩⟩

theorem pure {a : α} (h : certain → P a) : (Pure.pure a : Run α).Numbers network certain P :=
  lift fun hc _ ha => Except.ok.inj ha ▸ h hc

theorem throw {fault : Fault} : (MonadExcept.throw fault : Run α).Numbers network certain P :=
  lift (x := .error fault) (by nofun)

theorem weaken {P' : α → Prop} (h : x.Numbers network certain P) (imp : ∀ a, P a → P' a) :
    x.Numbers network certain P' :=
  Adds.weaken h fun _ _ _ _ h => ⟨h.1, fun hc => ⟨(h.2 hc).1, fun a ha => imp a ((h.2 hc).2 a ha)⟩⟩

/-- The second part takes the numbers behind those of the first. -/
theorem bind (hx : x.Numbers network certain P)
    (hf : ∀ a, (certain → P a) → (f a).Numbers network certain Q) :
    (x >>= f).Numbers network certain Q := by
  refine Adds.bind hx (fun before added taken a h => ?_)
    fun _ _ _ _ h => ⟨h.1, fun hc => ⟨(h.2 hc).1, by nofun⟩⟩
  -- The second part starts in the world that the first one leaves.
  refine Adds.weaken (hf a fun hc => (h.2 hc).2 a rfl) fun between more took out h' heq => ?_
  have hnext : between.nextId = before.nextId + taken := heq ▸ rfl
  rw [hnext] at h'
  rw [idsOf_append, ← List.range'_append_1]
  exact ⟨h.1.append h'.1, fun hc => ⟨by rw [(h.2 hc).1, (h'.2 hc).1], (h'.2 hc).2⟩⟩

/-- Past a step whose answer does not matter. -/
theorem seq (hx : x.Numbers network certain P) (hf : ∀ a, (f a).Numbers network certain Q) :
    (x >>= f).Numbers network certain Q := hx.bind fun a _ => hf a

/-- Past a computation. -/
theorem compute {x : Except Fault α} {f : α → Run β}
    (hf : ∀ a, x = .ok a → (f a).Numbers network certain Q) :
    ((liftM x : Run α) >>= f).Numbers network certain Q := by
  cases x with
  | ok a => exact hf a rfl
  | error fault => exact throw

/-- Nothing follows a failure. -/
theorem fail {fault : Fault} {g : α → Run β} :
    ((MonadExcept.throw fault : Run α) >>= g).Numbers network certain Q :=
  compute (x := .error fault) (by nofun)

/-- A failure that ends the run under a condition. -/
theorem guard {p : Prop} [Decidable p] {fault : Fault} {g : Unit → Run α} {y : Run α}
    (h : y.Numbers network certain P) :
    (if p then (MonadExcept.throw fault : Run Unit) >>= g else y).Numbers network certain P := by
  split
  · exact fail
  · exact h

/-- An event that is no request. -/
theorem emit {event : Event} (h : requestsOf [event] = []) :
    (Run.emit event).Numbers network certain fun _ => True := by
  refine (Adds.emit event).weaken ?_
  rintro before _ _ out ⟨rfl, rfl, rfl⟩
  rw [idsOf, h]
  exact ⟨List.Sublist.refl [], fun _ => ⟨rfl, fun _ _ => trivial⟩⟩

theorem logNaming (level : Logging.Level) (named : List Value) (message : Text) :
    (Run.logNaming level named message).Numbers network certain fun _ => True := by
  rw [Run.logNaming]
  split
  · exact emit rfl
  · exact throw

theorem sleep (host : Host) (seconds : Scalar) :
    (Run.sleep host seconds).Numbers network certain fun _ => True := by
  rw [Run.sleep]
  split
  · exact throw
  · exact emit rfl

theorem observe (h : x.Numbers network certain P) :
    (Run.observe x).Numbers network certain fun outcome => ∀ a, outcome = .ok a → P a := by
  refine (Adds.observe h).weaken ?_
  rintro before added taken _ ⟨r, rfl, hids, hall⟩
  exact ⟨hids, fun hc => ⟨(hall hc).1, fun outcome h => Except.ok.inj h ▸ (hall hc).2⟩⟩

theorem stage {name : Text} (h : x.Numbers network certain P) :
    (Run.stage name x).Numbers network certain P := by
  refine (logNaming _ _ _).seq fun _ => h.observe.bind fun outcome houtcome => ?_
  cases outcome with
  | ok a => exact pure fun hc => houtcome hc a rfl
  | error fault => cases fault <;> exact throw

theorem mapM {f : α → Run β} {P : β → Prop} :
    ∀ {xs : List α}, (∀ a ∈ xs, (f a).Numbers network certain P) →
      (xs.mapM f).Numbers network certain fun bs => ∀ b ∈ bs, P b
  | [], _ => by
      rw [List.mapM_nil]
      exact pure fun _ => List.forall_mem_nil _
  | x :: xs, h => by
      rw [List.mapM_cons]
      obtain ⟨hx, hxs⟩ := List.forall_mem_cons.mp h
      exact hx.bind fun b hb => (mapM hxs).bind fun bs hbs =>
        pure fun hc => List.forall_mem_cons.mpr ⟨hb hc, hbs hc⟩

/-- Tries number their requests if each of them does. By the fuel: behind a try that failed come
checks, a warning and a sleep, none of which is a request, and then further tries. -/
theorem loop {host : Host} {o : Retry.Options} {name : String} {action : Nat → Run α}
    (h : ∀ attempt, (action attempt).Numbers network certain fun _ => True) :
    ∀ (fuel attempt : Nat) (tries delay : Value),
      (Retry.loop host o name action fuel attempt tries delay).Numbers network certain
        fun _ => True
  | 0, _, _, _ => pure fun _ => trivial
  | fuel + 1, attempt, tries, delay => by
      refine (h attempt).observe.seq fun outcome => ?_
      cases outcome with
      | ok a => exact pure fun _ => trivial
      | error fault =>
        simp only
        refine guard (compute fun count _ => compute fun left _ => ?_)
        refine guard (guard ((logNaming _ _ _).seq fun _ => ?_))
        refine compute fun next _ => compute fun pause _ => ?_
        exact (sleep host pause).seq fun _ => loop h fuel _ _ _

end Numbers

/-! ## Calls -/

/-- `x` takes no number, and its requests bear one that was taken before. -/
def Uses (network : Network) (id : Nat) (x : Run α) : Prop :=
  x.Adds network fun _ added taken _ => taken = 0 ∧ ∀ r ∈ requestsOf added, r.id = id

namespace Uses

variable {id : Nat}

theorem lift {x : Except Fault α} : (liftM x : Run α).Uses network id :=
  Adds.lift fun _ => ⟨rfl, List.forall_mem_nil _⟩

theorem bind {x : Run α} {f : α → Run β} (hx : x.Uses network id)
    (hf : ∀ a, (f a).Uses network id) : (x >>= f).Uses network id := by
  refine Adds.bind hx (fun _ _ _ a h => Adds.weaken (hf a) ?_) fun _ _ _ _ h => h
  rintro _ _ _ _ h' -
  refine ⟨by rw [h.1, h'.1], ?_⟩
  rw [requestsOf_append]
  exact List.forall_mem_append.mpr ⟨h.2, h'.2⟩

theorem logNaming (level : Logging.Level) (named : List Value) (message : Text) :
    (Run.logNaming level named message).Uses network id := by
  rw [Run.logNaming]
  split
  · refine (Adds.emit _).weaken ?_
    rintro _ _ _ _ ⟨rfl, rfl, -⟩
    exact ⟨rfl, List.forall_mem_nil _⟩
  · exact lift (x := .error _)

theorem exchange {r : RpcRequest} (hid : r.id = id) : (Run.exchange r).Uses network id := by
  refine (Adds.exchange r).weaken ?_
  rintro _ _ _ _ ⟨rfl, rfl, -⟩
  exact ⟨rfl, List.forall_mem_singleton.mpr hid⟩

end Uses

end Run

namespace Rpc.Client

variable {network : Network} {certain : Prop} {c : Client} {method params : Value}

/-- **A call takes one number. It makes its request with that number, if it can make it.** -/
theorem callOf_adds : (c.callOf method params).Adds network fun before added taken out =>
    taken = 1 ∧
    ((requestsOf added = [] ∧ ¬c.CanAsk method params) ∨
      ∃ r : RpcRequest, requestsOf added = [r] ∧ r.id = before.nextId ∧ r.method = method ∧
        r.params = sentParams params ∧ c.CanAsk method params ∧
        ∀ v, out = .ok v → Json.Carried v) := by
  have htakes : (c.callOf method params).Adds network fun before added taken _ =>
      taken = 1 ∧ ∀ r ∈ requestsOf added, r.id = before.nextId := by
    refine Run.Adds.bind Run.Adds.freshId ?_ (by rintro _ _ _ _ ⟨-, -, ⟨⟩⟩)
    rintro before _ _ id ⟨rfl, rfl, hid⟩
    obtain rfl := Except.ok.inj hid
    refine Run.Adds.weaken (Run.Uses.bind (Run.Uses.logNaming _ _ _) fun _ =>
      Run.Uses.bind Run.Uses.lift fun request => Run.Uses.bind (Run.Uses.exchange rfl) fun reply =>
        Run.Uses.bind Run.Uses.lift fun body => Run.Uses.bind Run.Uses.lift fun doc =>
          Run.Uses.lift) ?_
    rintro _ _ _ _ ⟨rfl, hids⟩ -
    exact ⟨rfl, hids⟩
  refine (Run.Adds.and htakes Run.callOf_ends).weaken ?_
  rintro before added taken out ⟨⟨rfl, hids⟩, hends⟩
  -- The requests are those of the acts.
  have hrequests := map_request_exchanges network before.requests (requestsOf added)
  rw [← exchangesOf_acts] at hrequests
  refine ⟨rfl, ?_⟩
  rcases hends with ⟨hacts, hask, -⟩ | ⟨e, hacts, hask, hmethod, hparams, rfl⟩
  · rw [hacts] at hrequests
    exact .inl ⟨hrequests.symm, hask⟩
  · rw [hacts] at hrequests
    have hadded : requestsOf added = [e.request] := hrequests.symm
    rw [hadded, List.forall_mem_singleton] at hids
    exact .inr ⟨e.request, hadded, hids, hmethod, hparams, hask, fun _ h => carried_of_resultOf h⟩

/-- A call whose request can be made takes a number for it. -/
theorem callOf_numbers (asks : certain → c.CanAsk method params) :
    (c.callOf method params).Numbers network certain Json.Carried := by
  refine callOf_adds.weaken ?_
  rintro before added _ out ⟨rfl, ⟨hnone, hask⟩ | ⟨r, hone, hid, -, -, -, hcarried⟩⟩
  · rw [idsOf, hnone]
    exact ⟨List.nil_sublist _, fun hc => absurd (asks hc) hask⟩
  · rw [idsOf, hone, List.map_singleton, hid]
    exact ⟨List.Sublist.refl _, fun _ => ⟨rfl, hcarried⟩⟩

/-- The endpoint of a client is a text, as the url of a server is. -/
def NamesServer (c : Client) : Prop := ∃ url, c.endpoint = .str url

/-- The method is a text here, so there are two things left to know. -/
theorem call_numbers {method : Text} (hserver : certain → c.NamesServer)
    (hparams : certain → Json.Carried params) :
    (c.call method params).Numbers network certain Json.Carried :=
  callOf_numbers fun hc =>
    ⟨hserver hc, Json.carried_str _, carried_sentParams.mpr (hparams hc)⟩

theorem callCamel_numbers {method : Text} (hserver : certain → c.NamesServer)
    (hparams : certain → Json.Carried params) :
    (c.callCamel method params).Numbers network certain Json.Carried :=
  (call_numbers hserver hparams).bind fun _ h => .lift fun hc _ hw => (h hc).camelKeys hw

end Rpc.Client

namespace Rpc

variable {network : Network} {certain : Prop}

/-! ## Nodes and indexers -/

namespace Node

variable {n : Node}

theorem tipBlockNumber_numbers (h : certain → n.client.NamesServer) :
    n.tipBlockNumber.Numbers network certain fun _ => True :=
  (Client.call_numbers h fun _ => Json.carried_null).seq fun _ =>
    .compute fun _ _ => .pure fun _ => trivial

theorem blockByNumber_numbers (h : certain → n.client.NamesServer) (number : Value) :
    (n.blockByNumber number).Numbers network certain fun _ => True := by
  refine .compute fun digits _ => (Client.call_numbers h fun _ => by simp).seq fun block => ?_
  simp only
  exact .guard (.lift fun _ _ _ => trivial)

theorem transaction_numbers (h : certain → n.client.NamesServer) {hash : Value}
    (hhash : certain → Json.Carried hash) :
    (n.transaction hash).Numbers network certain fun _ => True := by
  refine (Client.call_numbers h fun hc => by simpa using hhash hc).seq fun tx => ?_
  split
  · exact .lift fun _ _ _ => trivial
  · exact .pure fun _ => trivial

theorem sendTransaction_numbers (h : certain → n.client.NamesServer) {tx validator : Value}
    (htx : certain → Json.Carried tx) (hvalidator : certain → Json.Carried validator) :
    (n.sendTransaction tx validator).Numbers network certain Json.Carried := by
  refine .compute fun wire hwire => (Client.call_numbers h fun hc => ?_).bind fun hash hhash =>
    (Run.Numbers.logNaming _ _ _).seq fun _ => .pure hhash
  exact Json.carried_list.mpr (by simp [(htx hc).wire hwire, hvalidator hc])

theorem poll_numbers (h : certain → n.client.NamesServer) {hash : Value}
    (hhash : certain → Json.Carried hash) :
    (n.poll hash).Numbers network certain fun _ => True := by
  refine (transaction_numbers h hhash).seq fun tx => .compute fun status _ => ?_
  split
  · exact .pure fun _ => trivial
  · split
    · exact .compute fun txStatus _ => .compute fun reason _ => .fail
    · exact .throw

/-- However often a node is polled. -/
theorem waitForTransaction_numbers (h : certain → n.client.NamesServer) {hash : Value}
    (hhash : certain → Json.Carried hash) :
    (n.waitForTransaction hash).Numbers network certain fun _ => True := by
  refine (Run.Numbers.loop (fun _ => poll_numbers h hhash) _ _ _ _).seq fun outcome => ?_
  cases outcome with
  | some tx => exact .pure fun _ => trivial
  | none => exact .throw

end Node

theorem Indexer.cells_numbers {i : Indexer} (h : certain → i.client.NamesServer)
    {searchKey order limit after : Value} (hsearch : certain → Json.Carried searchKey)
    (horder : certain → Json.Carried order) (hafter : certain → Json.Carried after) :
    (i.cells searchKey order limit after).Numbers network certain Json.Carried := by
  refine .compute fun digits _ => Client.callCamel_numbers h fun hc => ?_
  split
  · exact Json.carried_list.mpr (by simp [hsearch hc, horder hc, hafter hc])
  · exact Json.carried_list.mpr (by simp [hsearch hc, horder hc])

namespace Collector

/-- Both servers of a collector are named. -/
def NamesServers (c : Collector) : Prop := c.node.client.NamesServer ∧ c.indexer.client.NamesServer

variable {c : Collector}

/-- What the indexer is asked for is made of the lock and the type. -/
theorem carried_searchKey {lock type search : Value} (hlock : Json.Carried lock)
    (htype : Json.Carried type) (h : searchKey lock type = .ok search) : Json.Carried search := by
  obtain ⟨script, hscript, h⟩ := bind_eq_ok.mp h
  have hcarried := hlock.snakeKeys hscript
  split at h
  · obtain ⟨typeScript, htypeScript, h⟩ := bind_eq_ok.mp h
    have htypeCarried := htype.snakeKeys htypeScript
    exact Except.ok.inj h ▸ Json.carried_record.mpr (by simp [Json.carried_record, hcarried,
      htypeCarried])
  · exact Except.ok.inj h ▸ Json.carried_record.mpr (by simp [hcarried])

theorem cells_numbers (h : certain → c.NamesServers) {lock type : Value}
    (hlock : certain → Json.Carried lock) (htype : certain → Json.Carried type) :
    (c.cells lock type).Numbers network certain fun _ => True := by
  refine .compute fun search hsearch => ?_
  refine (Indexer.cells_numbers (fun hc => (h hc).2)
    (fun hc => carried_searchKey (hlock hc) (htype hc) hsearch) (fun _ => Json.carried_str _)
    fun _ => Json.carried_null).seq fun result => ?_
  refine .compute fun objects _ => .compute fun count _ => .compute fun args _ => ?_
  exact (Run.Numbers.logNaming _ _ _).seq fun _ => .pure fun _ => trivial

theorem secp256k1Dep_numbers (h : certain → c.NamesServers) :
    c.secp256k1Dep.Numbers network certain fun _ => True := by
  refine (Node.blockByNumber_numbers (fun hc => (h hc).1) _).seq fun genesis => ?_
  refine .compute fun transactions _ => .compute fun count _ => ?_
  simp only
  exact .guard (.compute fun tx _ => .compute fun hash _ => .pure fun _ => trivial)

end Collector

end Rpc

/-! ## Services -/

namespace Cota

variable {network : Network} {certain : Prop}

theorem Aggregator.ask_numbers {server : Rpc.Client} {method : Text} {params : Value}
    (h : certain → server.NamesServer) (hparams : certain → Json.Carried params) :
    (ask server method params).Numbers network certain Json.Carried :=
  .compute fun _ hsent => Rpc.Client.callCamel_numbers h fun hc => (hparams hc).snakeKeys hsent

/-- All servers of a service are named, and JSON carries the type that it looks for. -/
structure Service.CanAsk (s : Service) : Prop where
  collector : s.collector.NamesServers
  registry : s.aggregator.registry.NamesServer
  cota : s.aggregator.cota.NamesServer
  type : Json.Carried (.dict s.cotaTypeScript)

section

variable {s : Service} {lock withdrawalLock info transfers fee : Value}

theorem Service.cotaCell_numbers (h : certain → s.CanAsk) (hlock : certain → Json.Carried lock) :
    (s.cotaCell lock).Numbers network certain fun _ => True := by
  refine (Rpc.Collector.cells_numbers (fun hc => (h hc).collector) hlock
    fun hc => (h hc).type).seq fun cells => ?_
  simp only
  split
  · exact .compute fun args _ => .fail
  · exact .lift fun _ _ _ => trivial

/-- An index is the one that was given, or a text. -/
theorem Mint.carried_tokenIndex {issued w index : Value} {place : Nat} (hw : Json.Carried w)
    (h : tokenIndex issued place w = .ok index) : Json.Carried index := by
  obtain ⟨given, hgiven, h⟩ := bind_eq_ok.mp h
  split at h
  · exact Except.ok.inj h ▸ hw.field hgiven
  · obtain ⟨n, -, h⟩ := bind_eq_ok.mp h
    obtain ⟨sum, -, h⟩ := bind_eq_ok.mp h
    obtain ⟨digits, -, h⟩ := bind_eq_ok.mp h
    exact Except.ok.inj h ▸ Json.carried_str _

/-- Withdrawals have their texts also with indexes. -/
theorem Mint.carried_withIndexes {issued : Value} : ∀ {ws indexed : List Value} {place : Nat},
    (∀ w ∈ ws, Json.Carried w) → withIndexes issued place ws = .ok indexed →
      ∀ w ∈ indexed, Json.Carried w
  | [], _, _, _, h => Except.ok.inj h ▸ List.forall_mem_nil _
  | w :: rest, _, _, hws, h => by
      obtain ⟨hw, hrest⟩ := List.forall_mem_cons.mp hws
      obtain ⟨index, hindex, h⟩ := bind_eq_ok.mp h
      obtain ⟨fields, hfields, h⟩ := bind_eq_ok.mp h
      obtain ⟨others, hothers, h⟩ := bind_eq_ok.mp h
      have hdict : Json.Carried (.dict fields) := Value.eq_dict_of_entries hfields ▸ hw
      exact Except.ok.inj h ▸ List.forall_mem_cons.mpr
        ⟨hdict.set (Json.carried_str _) (carried_tokenIndex hw hindex),
          carried_withIndexes hrest hothers⟩

theorem Mint.assignIndexes_numbers {cotaId withdrawals : Value} (h : certain → s.CanAsk)
    (hcotaId : certain → Json.Carried cotaId) (hgiven : certain → Json.Carried withdrawals) :
    (assignIndexes s cotaId withdrawals).Numbers network certain
      fun ws => ∀ w ∈ ws, Json.Carried w := by
  refine (Aggregator.ask_numbers (fun hc => (h hc).cota) fun hc =>
    Json.carried_record.mpr (by simpa using hcotaId hc)).seq fun define =>
      .compute fun issued _ => ?_
  split
  · exact .throw
  · exact .compute fun parts hparts => .lift fun hc _ hws =>
      carried_withIndexes ((hgiven hc).elements hparts) hws

/-- The indexes that the log shows are looked up without a request. -/
theorem tokens_numbers (requests : List Value) :
    (requests.mapM fun r => (r.item "tokenIndex" : Run Value)).Numbers network certain
      fun _ => True :=
  (Run.Numbers.mapM (P := fun _ => True) fun _ _ => .lift fun _ _ _ => trivial).weaken
    fun _ _ => trivial

/-- No request is made once the cell and the root are known. -/
theorem spending_numbers {cell : Value} {deps : List Value} {action : Text}
    {root entry : Except Fault Value} :
    (spending s cell fee deps action root entry).Numbers network certain fun _ => True := by
  refine .compute fun outPoint _ => .compute fun output _ => .compute fun r _ => ?_
  have hdata : (Service.outputData cell r).Numbers network certain fun _ => True :=
    .compute fun parts _ => (Run.Numbers.emit rfl).seq fun _ => .pure fun _ => trivial
  exact hdata.seq fun data => .compute fun e _ => .compute fun t _ => .pure fun _ => trivial

theorem Mint.transaction_numbers (h : certain → s.CanAsk) (hlock : certain → Json.Carried lock)
    (hinfo : certain → Json.Carried info) :
    (transaction s lock info fee).Numbers network certain fun _ => True := by
  refine (Service.cotaCell_numbers h hlock).seq fun cell => ?_
  refine .compute fun cotaId hcotaId => .compute fun given hgiven => ?_
  have hcarried : certain → Json.Carried cotaId := fun hc => (hinfo hc).item hcotaId
  refine (assignIndexes_numbers h hcarried fun hc => (hinfo hc).item hgiven).bind
    fun withdrawals hwithdrawals => ?_
  refine .compute fun lockScript _ => .compute fun outPoint _ => .compute fun tail _ => ?_
  refine (Aggregator.ask_numbers (fun hc => (h hc).cota) fun hc => ?_).seq fun smt => ?_
  · exact Json.carried_record.mpr (by simpa using ⟨hcarried hc, hwithdrawals hc⟩)
  exact (tokens_numbers withdrawals).seq fun tokens => .compute fun block _ =>
    (Run.Numbers.logNaming _ _ _).seq fun _ => spending_numbers

theorem Transfer.transaction_numbers (h : certain → s.CanAsk)
    (hlock : certain → Json.Carried lock) (hwithdrawal : certain → Json.Carried withdrawalLock)
    (htransfers : certain → Json.Carried transfers) :
    (transaction s lock withdrawalLock transfers fee).Numbers network certain fun _ => True := by
  refine (Service.cotaCell_numbers h hlock).seq fun cell => ?_
  refine (Service.cotaCell_numbers h hwithdrawal).seq fun withdrawalCell => ?_
  refine .compute fun lockScript _ => .compute fun lockHash _ => .compute fun outPoint _ => ?_
  refine .compute fun tail _ => ?_
  refine (Aggregator.ask_numbers (fun hc => (h hc).cota) fun hc => ?_).seq fun smt => ?_
  · exact Json.carried_record.mpr (by simpa using htransfers hc)
  refine .compute fun parts _ => ?_
  exact (tokens_numbers parts).seq fun tokens => .compute fun block _ =>
    (Run.Numbers.logNaming _ _ _).seq fun _ => .compute fun point _ => spending_numbers

/-! ## Submission -/

namespace Submission

variable {tx key : Value} {fixed waiting : Bool}

/-- Whether the dep is fixed or is taken from the first block. -/
theorem addDep_numbers (h : certain → s.CanAsk) :
    (addDep s tx fixed).Numbers network certain fun _ => True := by
  have hdep : (lockDep s fixed).Numbers network certain fun _ => True := by
    rw [lockDep]
    split
    · split
      · exact .pure fun _ => trivial
      · exact .throw
    · exact Rpc.Collector.secp256k1Dep_numbers fun hc => (h hc).collector
  exact hdep.stage.seq fun _ => .lift fun _ _ _ => trivial

/-- What is sent was printed, so JSON carries it. -/
theorem finish_numbers (h : certain → s.CanAsk) :
    (finish s tx key lock waiting).Numbers network certain fun _ => True := by
  have hnode : certain → s.collector.node.client.NamesServer := fun hc => (h hc).collector.1
  have hsend : ∀ signed, Json.Carried signed →
      (send s signed).Numbers network certain Json.Carried := by
    intro signed hsigned
    refine (Rpc.Node.sendTransaction_numbers hnode (fun _ => hsigned)
      fun _ => Json.carried_str _).bind fun hash hhash => ?_
    split
    · exact .pure hhash
    · exact .throw
  have hwait : ∀ hash, (certain → Json.Carried hash) →
      (wait s hash).Numbers network certain fun _ => True := fun hash hhash =>
    (Rpc.Node.waitForTransaction_numbers hnode hhash).seq fun _ => Run.Numbers.logNaming _ _ _
  refine (Run.Numbers.lift (x := checkKey key lock) fun _ _ _ => trivial).stage.seq fun _ => ?_
  refine (Run.Numbers.lift (x := Signing.sign tx key) fun _ _ _ => trivial).stage.seq
    fun signed => ?_
  refine .compute fun text htext => (Run.Numbers.emit rfl).seq fun _ => ?_
  refine (hsend signed (Json.write_eq_ok.mp htext).1).stage.bind fun hash hhash => ?_
  simp only
  split
  · exact (hwait hash hhash).stage.seq fun _ => .pure fun _ => trivial
  · exact .pure fun _ => trivial

theorem signAndSend_numbers (h : certain → s.CanAsk) :
    (signAndSend s tx key lock fixed waiting).Numbers network certain fun _ => True :=
  (addDep_numbers h).seq fun _ => finish_numbers h

end Submission

end

end Cota
end CellNft
