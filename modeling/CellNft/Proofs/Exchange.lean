/-
CellNft.Proofs.Exchange — what a run asks, and what it has heard when it ends well.

`exchanges` are the requests of a run with the replies to them, in order. `resultsOf` and `paramsOf`
pick what the calls of one method answered and what they were given.

Two judgments look at the exchanges alone, and both are special cases of `Run.Ends`:

* `Run.Keeps network R x P`: all requests of `x` satisfy `R`, whether it fails or not, and if it ends
  well its answer satisfies `P`.
* `Run.Talks network x P`: if `x` ends well, its exchanges and its answer satisfy `P`.

Their rules say what the rules of `Run.Ends` come to. `Keeps` goes step by step (`seq`, `bind`), and
`Talks` takes the rest of the program with it: `skip` goes past a step that asks nothing, `call` past
a call, which puts one exchange in front of what the rest says.
-/
import CellNft.Proofs.Run

namespace CellNft

open Outcome

/-! ## Exchanges among acts -/

/-- The requests that follow earlier ones, with the replies to them. -/
def exchanges (network : Network) : (earlier requests : List RpcRequest) → List Exchange
  | _, [] => []
  | earlier, r :: rest =>
    ⟨r, network earlier r⟩ :: exchanges network (earlier ++ [r]) rest

/-- Every exchange is a request that was made, with a reply of the network. -/
theorem exists_of_mem_exchanges {network : Network} {e : Exchange} :
    ∀ {earlier requests : List RpcRequest}, e ∈ exchanges network earlier requests →
      e.request ∈ requests ∧ ∃ before, e.reply = network before e.request
  | _, [], h => absurd h List.not_mem_nil
  | earlier, r :: rest, h => by
      rcases List.mem_cons.mp h with rfl | h
      · exact ⟨List.mem_cons_self, earlier, rfl⟩
      · obtain ⟨hmem, hreply⟩ := exists_of_mem_exchanges h
        exact ⟨List.mem_cons_of_mem r hmem, hreply⟩

theorem map_request_exchanges (network : Network) : ∀ earlier requests : List RpcRequest,
    (exchanges network earlier requests).map (·.request) = requests
  | _, [] => rfl
  | earlier, r :: rest => by
      rw [exchanges, List.map_cons, map_request_exchanges network _ rest]

/-- The exchanges among acts. -/
def exchangesOf (c : List Act) : List Exchange :=
  c.filterMap fun
    | .exchange e => some e
    | _ => none

section

variable (e : Exchange) (seconds : Scalar) (text : String) (c c' : List Act)

@[simp] theorem exchangesOf_nil : exchangesOf [] = [] := rfl

@[simp] theorem exchangesOf_exchange : exchangesOf (.exchange e :: c) = e :: exchangesOf c := rfl

@[simp] theorem exchangesOf_pause : exchangesOf (.pause seconds :: c) = exchangesOf c := rfl

@[simp] theorem exchangesOf_print : exchangesOf (.print text :: c) = exchangesOf c := rfl

@[simp] theorem exchangesOf_append : exchangesOf (c ++ c') = exchangesOf c ++ exchangesOf c' :=
  List.filterMap_append

end

theorem exchangesOf_acts (network : Network) : ∀ (earlier : List RpcRequest) (events : List Event),
    exchangesOf (acts network earlier events) = exchanges network earlier (requestsOf events)
  | _, [] => rfl
  | earlier, event :: rest => by
      rw [requestsOf_cons]
      have ih := fun earlier => exchangesOf_acts network earlier rest
      unfold exchangesOf at ih ⊢
      cases event <;> simp [acts, ih, requestsOf, World.requests, exchanges]

/-- Whether a method is called. -/
def Exchange.calls (method : Text) (e : Exchange) : Bool := e.request.method.same (.str method)

theorem Exchange.calls_of_method {e : Exchange} {called : Text}
    (h : e.request.method = .str called) (method : Text) :
    e.calls method = decide (called = method) := by
  rw [calls, h, Value.same, Scalar.same_str, decide_eq_decide, Scalar.str.injEq]

/-- What the calls of a method answered, in order. -/
def resultsOf (method : Text) (c : List Exchange) : List (Except Fault Value) :=
  (c.filter (·.calls method)).map fun e => Rpc.resultOf (.str method) e.reply

/-- What the calls of a method were given, in order. -/
def paramsOf (method : Text) (c : List Exchange) : List Value :=
  (c.filter (·.calls method)).map (·.request.params)

section

variable {method called : Text} {e : Exchange} {c : List Exchange} {v : Value}

@[simp] theorem resultsOf_nil (method : Text) : resultsOf method [] = [] := rfl

@[simp] theorem paramsOf_nil (method : Text) : paramsOf method [] = [] := rfl

theorem filter_calls_cons (h : e.request.method = .str called) : (e :: c).filter (·.calls method)
    = if called = method then e :: c.filter (·.calls method) else c.filter (·.calls method) := by
  rw [List.filter_cons, Exchange.calls_of_method h method]
  simp only [decide_eq_true_eq]

theorem filter_calls_eq_nil (h : ∀ e ∈ c, e.request.method = .str called) (hne : called ≠ method) :
    c.filter (·.calls method) = [] := by
  rw [List.filter_eq_nil_iff]
  intro e he
  rw [Exchange.calls_of_method (h e he) method, decide_eq_false hne]
  exact Bool.false_ne_true

theorem resultsOf_append (method : Text) (c c' : List Exchange) :
    resultsOf method (c ++ c') = resultsOf method c ++ resultsOf method c' := by
  simp [resultsOf]

theorem resultsOf_cons (h : e.Gives called v) : resultsOf method (e :: c)
    = if called = method then .ok v :: resultsOf method c else resultsOf method c := by
  rw [resultsOf, filter_calls_cons h.1]
  split
  · rename_i hmethod
    rw [List.map_cons, ← hmethod, h.2]
    rfl
  · rfl

theorem resultsOf_eq_nil (h : c.filter (·.calls method) = []) : resultsOf method c = [] := by
  rw [resultsOf, h, List.map_nil]

theorem paramsOf_append (method : Text) (c c' : List Exchange) :
    paramsOf method (c ++ c') = paramsOf method c ++ paramsOf method c' := by
  simp [paramsOf]

theorem paramsOf_cons (h : e.Gives called v) : paramsOf method (e :: c)
    = if called = method then e.request.params :: paramsOf method c else paramsOf method c := by
  rw [paramsOf, filter_calls_cons h.1]
  split <;> rfl

theorem paramsOf_eq_nil (h : c.filter (·.calls method) = []) : paramsOf method c = [] := by
  rw [paramsOf, h, List.map_nil]

/-- The parameters can be seen from the requests. -/
theorem paramsOf_exchanges (network : Network) (method : Text) :
    ∀ earlier requests : List RpcRequest, paramsOf method (exchanges network earlier requests)
      = (requests.filter fun r => r.method.same (.str method)).map (·.params)
  | _, [] => rfl
  | earlier, r :: rest => by
      have ih := paramsOf_exchanges network method (earlier ++ [r]) rest
      rw [paramsOf] at ih ⊢
      rw [exchanges, List.filter_cons, List.filter_cons, Exchange.calls]
      split
      · rw [List.map_cons, List.map_cons, ih]
      · exact ih

theorem exists_of_mem_resultsOf {result : Except Fault Value} (h : result ∈ resultsOf method c) :
    ∃ e ∈ c, e.request.method = .str method ∧ result = Rpc.resultOf (.str method) e.reply := by
  obtain ⟨e, he, rfl⟩ := List.mem_map.mp h
  obtain ⟨hmem, hcalls⟩ := List.mem_filter.mp he
  exact ⟨e, hmem, Value.eq_str_of_same hcalls, rfl⟩

end

namespace Run

variable {α β : Type} {network : Network}

/-- Every reply is one of the network. -/
theorem Ends.replies {x : Run α} {P : List Act → Except Fault α → Prop} (h : x.Ends network P) :
    x.Ends network fun c out =>
      P c out ∧ ∀ e ∈ exchangesOf c, ∃ earlier, e.reply = network earlier e.request := by
  refine Adds.weaken h fun before added _ out hP => ⟨hP, fun e he => ?_⟩
  rw [exchangesOf_acts] at he
  exact (exists_of_mem_exchanges he).2

/-! ## What a run keeps to -/

/-- All requests of `x` satisfy `R`, and if it ends well its answer satisfies `P`. -/
def Keeps (network : Network) (R : RpcRequest → Prop) (x : Run α) (P : α → Prop) : Prop :=
  x.Ends network fun c out => (∀ e ∈ exchangesOf c, R e.request) ∧ ∀ a, out = .ok a → P a

namespace Keeps

variable {R : RpcRequest → Prop} {x : Run α} {f : α → Run β} {P : α → Prop} {Q : β → Prop}

/-- Whatever the state that it starts from, `x` adds only such requests. -/
theorem exists_added (h : x.Keeps network R P) (w : World) :
    ∃ added, (x.exec network w).2.requests = w.requests ++ added ∧ ∀ r ∈ added, R r := by
  obtain ⟨added, taken, hafter, hadded, -⟩ := h w
  refine ⟨requestsOf added, by rw [hafter, World.requests_after], ?_⟩
  rw [exchangesOf_acts] at hadded
  rw [← map_request_exchanges network w.requests (requestsOf added)]
  exact List.forall_mem_map.mpr hadded

theorem weaken {P' : α → Prop} (h : x.Keeps network R P) (imp : ∀ a, P a → P' a) :
    x.Keeps network R P' :=
  Ends.weaken h fun _ _ hc => ⟨hc.1, fun a ha => imp a (hc.2 a ha)⟩

/-- A step that only computes. -/
theorem lift {x : Except Fault α} (h : ∀ a, x = .ok a → P a) :
    (liftM x : Run α).Keeps network R P := Ends.lift ⟨List.forall_mem_nil _, h⟩

theorem compute {x : Except Fault α} : (liftM x : Run α).Keeps network R fun _ => True :=
  lift fun _ _ => trivial

theorem pure {a : α} (h : P a) : (Pure.pure a : Run α).Keeps network R P :=
  lift fun _ hb => Except.ok.inj hb ▸ h

theorem throw (fault : Fault) : (MonadExcept.throw fault : Run α).Keeps network R P :=
  lift (x := .error fault) (by nofun)

theorem bind (hx : x.Keeps network R P) (hf : ∀ a, P a → (f a).Keeps network R Q) :
    (x >>= f).Keeps network R Q := by
  refine Ends.bind hx (fun c a h => Ends.weaken (hf a (h.2 a rfl)) fun c' out h' => ⟨?_, h'.2⟩)
    fun c e h => ⟨h.1, by nofun⟩
  rw [exchangesOf_append]
  exact List.forall_mem_append.mpr ⟨h.1, h'.1⟩

/-- A step whose answer does not matter. -/
theorem seq (hx : x.Keeps network R P) (hf : ∀ a, (f a).Keeps network R Q) :
    (x >>= f).Keeps network R Q := hx.bind fun a _ => hf a

/-- Nothing follows a failure. -/
theorem fail {fault : Fault} : ((MonadExcept.throw fault : Run α) >>= f).Keeps network R Q :=
  (throw (P := fun _ => False) fault).bind fun _ h => h.elim

/-- A failure that ends the run under a condition. -/
theorem guard {p : Prop} [Decidable p] {fault : Fault} {g : Unit → Run α} {y : Run α}
    (h : ¬p → y.Keeps network R P) :
    (if p then (MonadExcept.throw fault : Run Unit) >>= g else y).Keeps network R P := by
  split
  · exact fail
  · exact h ‹_›

/-- An event that is no request. -/
theorem emit {event : Event} (h : requestsOf [event] = []) :
    (Run.emit event).Keeps network R fun _ => True := by
  refine (Ends.emit event).weaken ?_
  rintro _ out ⟨rfl, earlier, rfl⟩
  rw [exchangesOf_acts, h]
  exact ⟨List.forall_mem_nil _, fun _ _ => trivial⟩

theorem log (level : Logging.Level) (message : Text) :
    (Run.log level message).Keeps network R fun _ => True := emit rfl

theorem logNaming (level : Logging.Level) (named : List Value) (message : Text) :
    (Run.logNaming level named message).Keeps network R fun _ => True := by
  rw [Run.logNaming]
  split
  · exact log level message
  · exact throw _

theorem sleep (host : Host) (seconds : Scalar) :
    (Run.sleep host seconds).Keeps network R fun _ => True := by
  rw [Run.sleep]
  split
  · exact throw _
  · exact emit rfl

theorem print (text : String) : (Run.printLine text).Keeps network R fun _ => True :=
  emit rfl

theorem observe (h : x.Keeps network R P) :
    (Run.observe x).Keeps network R fun outcome => ∀ a, outcome = .ok a → P a := by
  refine (Ends.observe h).weaken ?_
  rintro c _ ⟨r, rfl, hc⟩
  exact ⟨hc.1, fun outcome houtcome => Except.ok.inj houtcome ▸ hc.2⟩

theorem stage {name : Text} (h : x.Keeps network R P) : (Run.stage name x).Keeps network R P := by
  refine (Ends.staged h).weaken ?_
  rintro c _ (⟨a, rfl, hc⟩ | ⟨_, _, rfl, hc, -⟩)
  · exact hc
  · exact ⟨hc.1, by nofun⟩

theorem mapM (h : ∀ a, (f a).Keeps network R fun _ => True) :
    ∀ xs : List α, (xs.mapM f).Keeps network R fun _ => True
  | [] => by
      rw [List.mapM_nil]
      exact pure trivial
  | x :: xs => by
      rw [List.mapM_cons]
      exact (h x).seq fun _ => (mapM h xs).seq fun _ => pure trivial

/-- A call makes at most its request, and answers what a reply of the network to it means. -/
theorem callOf {c : Rpc.Client} {method params : Value}
    (h : ∀ r : RpcRequest, r.method = method → r.params = Rpc.sentParams params → R r) :
    (c.callOf method params).Keeps network R fun v =>
      ∃ earlier r, r.method = method ∧ Rpc.resultOf method (network earlier r) = .ok v := by
  refine (callOf_ends.replies).weaken ?_
  rintro x out ⟨⟨rfl, -, fault, -, rfl⟩ | ⟨e, rfl, -, hmethod, hparams, rfl⟩, hreplies⟩
  · exact ⟨List.forall_mem_nil _, by nofun⟩
  · refine ⟨List.forall_mem_singleton.mpr (h e.request hmethod hparams), fun v hv => ?_⟩
    obtain ⟨earlier, hreply⟩ := hreplies e (List.mem_singleton.mpr rfl)
    exact ⟨earlier, e.request, hmethod, hreply ▸ hv⟩

/-- Tries keep to what each of them keeps to. -/
theorem loop {host : Host} {o : Retry.Options} {name : String} {action : Nat → Run α}
    (h : ∀ attempt, (action attempt).Keeps network R fun _ => True) :
    ∀ (fuel attempt : Nat) (tries delay : Value),
      (Retry.loop host o name action fuel attempt tries delay).Keeps network R fun _ => True
  | 0, _, _, _ => pure trivial
  | fuel + 1, attempt, tries, delay => by
      refine (h attempt).observe.bind fun outcome _ => ?_
      cases outcome with
      | ok a => exact pure trivial
      | error fault =>
        simp only
        refine guard fun _ => ?_
        refine compute.seq fun count => ?_
        refine compute.seq fun left => ?_
        refine guard fun _ => ?_
        refine guard fun _ => ?_
        refine (logNaming _ _ _).seq fun _ => ?_
        refine compute.seq fun next => ?_
        refine compute.seq fun pause => ?_
        refine (sleep host pause).seq fun _ => ?_
        exact loop h fuel _ _ _

end Keeps

/-! ## What a run has heard -/

/-- If `x` ends well, its exchanges and its answer satisfy `P`. -/
def Talks (network : Network) (x : Run α) (P : List Exchange → α → Prop) : Prop :=
  x.Ends network fun c out => ∀ a, out = .ok a → P (exchangesOf c) a

/-- What is known of a run that ends well. -/
theorem Ends.and_talks {x : Run α} {P : List Act → Except Fault α → Prop}
    {T : List Exchange → α → Prop} (h : x.Ends network P) (ht : x.Talks network T) :
    x.Ends network fun c out => P c out ∧ ∀ a, out = .ok a → T (exchangesOf c) a := Ends.and h ht

namespace Talks

variable {x : Run α} {f : α → Run β} {P : List Exchange → α → Prop} {Q : List Exchange → β → Prop}

theorem weaken {P' : List Exchange → α → Prop} (h : x.Talks network P)
    (imp : ∀ c a, P c a → P' c a) : x.Talks network P' :=
  Ends.weaken h fun _ _ hc a ha => imp _ a (hc a ha)

theorem and {P' : List Exchange → α → Prop} (h : x.Talks network P) (h' : x.Talks network P') :
    x.Talks network fun c a => P c a ∧ P' c a :=
  (Ends.and h h').weaken fun _ _ hc a ha => ⟨hc.1 a ha, hc.2 a ha⟩

theorem bind (hx : x.Talks network P)
    (hf : ∀ c a, P c a → (f a).Talks network fun c' b => Q (c ++ c') b) :
    (x >>= f).Talks network Q := by
  refine Ends.bind hx (fun c a h => Ends.weaken (hf _ a (h a rfl)) fun c' out h' b hb => ?_)
    fun _ _ _ => by nofun
  rw [exchangesOf_append]
  exact h' b hb

/-- A step that only computes, and is the last. -/
theorem lift {x : Except Fault α} (h : ∀ a, x = .ok a → P [] a) :
    (liftM x : Run α).Talks network P := Ends.lift h

theorem pure {a : α} (h : P [] a) : (Pure.pure a : Run α).Talks network P :=
  lift fun _ hb => Except.ok.inj hb ▸ h

/-- What a run keeps to, its exchanges do. -/
theorem of_keeps {R : RpcRequest → Prop} {K : α → Prop} (h : x.Keeps network R K) :
    x.Talks network fun c a => (∀ e ∈ c, R e.request) ∧ K a :=
  Ends.weaken h fun _ _ hc a ha => ⟨hc.1, hc.2 a ha⟩

/-- Past a step that asks nothing. -/
theorem skip {K : α → Prop} (hx : x.Keeps network (fun _ => False) K)
    (hf : ∀ a, K a → (f a).Talks network Q) : (x >>= f).Talks network Q := by
  refine (of_keeps hx).bind fun c a h => ?_
  obtain rfl : c = [] := List.eq_nil_iff_forall_not_mem.mpr h.1
  exact hf a h.2

/-- Past a step that only computes. -/
theorem compute {x : Except Fault α} (hf : ∀ a, x = .ok a → (f a).Talks network Q) :
    ((liftM x : Run α) >>= f).Talks network Q := skip (Keeps.lift fun _ h => h) hf

theorem throw (fault : Fault) : (MonadExcept.throw fault : Run α).Talks network P :=
  lift (x := .error fault) (by nofun)

/-- Nothing follows a failure. -/
theorem fail {fault : Fault} : ((MonadExcept.throw fault : Run α) >>= f).Talks network Q :=
  (throw (P := fun _ _ => False) fault).bind fun _ _ h => h.elim

/-- A failure that ends the run under a condition. -/
theorem guard {p : Prop} [Decidable p] {fault : Fault} {g : Unit → Run α} {y : Run α}
    (h : ¬p → y.Talks network P) :
    (if p then (MonadExcept.throw fault : Run Unit) >>= g else y).Talks network P := by
  split
  · exact fail
  · exact h ‹_›

/-- A stage says what is done in it. -/
theorem stage {name : Text} (h : x.Talks network P) : (Run.stage name x).Talks network P := by
  refine (Ends.staged h).weaken ?_
  rintro c _ (⟨a, rfl, hc⟩ | ⟨_, _, rfl, -⟩)
  · exact hc
  · nofun

/-- Past a call. -/
theorem call {c : Rpc.Client} {method : Text} {params : Value} {f : Value → Run β}
    (h : ∀ (e : Exchange) v, e.Gives method v → e.request.params = Rpc.sentParams params →
      (f v).Talks network fun x b => Q (e :: x) b) :
    (c.call method params >>= f).Talks network Q :=
  Ends.call (fun _ _ _ => by nofun) (fun _ _ _ _ => by nofun) h

/-- What is known of a run that is seen to end well, from the first request on. -/
theorem of_isOk (h : x.Talks network P) (hrun : (x.exec network {}).1.isOk = true) :
    ∃ a, P (exchanges network [] (x.exec network {}).2.requests) a := by
  obtain ⟨a, ha⟩ := exists_of_isOk hrun
  have hP := Ends.exec h a ha
  rw [exchangesOf_acts, requestsOf_trace] at hP
  exact ⟨a, hP⟩

end Talks

end Run

end CellNft
