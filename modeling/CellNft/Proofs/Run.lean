/-
CellNft.Proofs.Run — what programs do, whatever the replies are.

`Run.Adds network x P`: from any world on, `x` adds events to the trace and takes numbers for
requests, and together with how it ends they satisfy `P`, which may depend on the world before. All
other judgments on programs say this of some `P`, and their rules come from the rules here.

`Run.Ends network x P` is the judgment for what can be seen from outside. The `Act`s of a run are its
exchanges with the network, its pauses and the lines it prints, in order; a log line is none. The
rules follow the shape of programs, and each takes the rest of the program with it: `compute` goes
past a step that only computes, `stage` past a stage, and `call` past a call.

A number is taken and a request is made in `callOf` only; all other programs are put together from
calls.
-/
import CellNft.Cota.Submission
import CellNft.Proofs.Carried
import CellNft.Proofs.Faults

namespace CellNft

open Outcome

/-! ## Requests among events -/

/-- The requests among events. -/
def requestsOf (events : List Event) : List RpcRequest := ({ trace := events } : World).requests

theorem requestsOf_trace (w : World) : requestsOf w.trace = w.requests := rfl

theorem requestsOf_nil : requestsOf [] = [] := rfl

theorem requestsOf_append (first second : List Event) :
    requestsOf (first ++ second) = requestsOf first ++ requestsOf second := by
  simp [requestsOf, World.requests]

theorem requestsOf_cons (event : Event) (rest : List Event) :
    requestsOf (event :: rest) = requestsOf [event] ++ requestsOf rest :=
  requestsOf_append [event] rest

/-- The world when events were added and so many numbers were taken. -/
def World.after (w : World) (added : List Event) (taken : Nat) : World :=
  { nextId := w.nextId + taken, trace := w.trace ++ added }

theorem World.after_nil (w : World) : w.after [] 0 = w := by
  rw [after, List.append_nil, Nat.add_zero]

theorem World.after_after (w : World) (added more : List Event) (taken took : Nat) :
    (w.after added taken).after more took = w.after (added ++ more) (taken + took) := by
  simp only [after, List.append_assoc, Nat.add_assoc]

/-- What is added to a trace adds its requests. -/
theorem World.requests_after (w : World) (added : List Event) (taken : Nat) :
    (w.after added taken).requests = w.requests ++ requestsOf added :=
  requestsOf_append w.trace added

namespace Run

variable {α β : Type} {network : Network}

/-! ## Executing the steps -/

theorem exec_lift (x : Except Fault α) (w : World) :
    (liftM x : Run α).exec network w = (x, w) := by
  cases x <;> rfl

theorem exec_emit (e : Event) (w : World) : (emit e).exec network w = (.ok (), w.record e) := rfl

theorem exec_exchange (r : RpcRequest) (w : World) :
    (exchange r).exec network w = (.ok (network w.requests r), w.record (.request r)) := rfl

theorem exec_observe (x : Run α) (w : World) :
    (observe x).exec network w = (.ok (x.exec network w).1, (x.exec network w).2) := rfl

theorem exec_bind (x : Run α) (f : α → Run β) (w : World) :
    (x >>= f).exec network w = match x.exec network w with
      | (.ok a, w') => (f a).exec network w'
      | (.error e, w') => (.error e, w') := by
  have hbind : (x >>= f) network = (x network >>= fun a => f a network) := rfl
  rw [exec, exec, hbind, ExceptT.run_bind, StateT.run_bind]
  rcases (x network).run.run w with ⟨_ | a, w'⟩ <;> rfl

/-! ## What is added to the trace -/

/-- What `x` adds to the trace of a world, how many numbers it takes, and how it ends, satisfies
`P`. -/
def Adds (network : Network) (x : Run α)
    (P : World → List Event → Nat → Except Fault α → Prop) : Prop :=
  ∀ w, ∃ added taken, (x.exec network w).2 = w.after added taken ∧
    P w added taken (x.exec network w).1

namespace Adds

variable {x : Run α} {P P' : World → List Event → Nat → Except Fault α → Prop}
  {Q : World → List Event → Nat → Except Fault β → Prop}

theorem weaken (h : x.Adds network P) (imp : ∀ before added taken out, P before added taken out →
    P' before added taken out) : x.Adds network P' := by
  intro w
  obtain ⟨added, taken, hafter, hP⟩ := h w
  exact ⟨added, taken, hafter, imp _ _ _ _ hP⟩

theorem and (h : x.Adds network P) (h' : x.Adds network P') :
    x.Adds network fun before added taken out =>
      P before added taken out ∧ P' before added taken out := by
  intro w
  obtain ⟨added, taken, hafter, hP⟩ := h w
  obtain ⟨added', taken', hafter', hP'⟩ := h' w
  obtain ⟨htaken, hadded⟩ := World.mk.inj (hafter.symm.trans hafter')
  obtain rfl := List.append_cancel_left hadded
  obtain rfl := Nat.add_left_cancel htaken
  exact ⟨added, taken, hafter, hP, hP'⟩

theorem lift {x : Except Fault α} (h : ∀ before, P before [] 0 x) :
    (liftM x : Run α).Adds network P := by
  intro w
  rw [exec_lift]
  exact ⟨[], 0, w.after_nil.symm, h _⟩

theorem bind {f : α → Run β} (hx : x.Adds network P)
    (hok : ∀ before added taken a, P before added taken (.ok a) →
      (f a).Adds network fun between more took out => between = before.after added taken →
        Q before (added ++ more) (taken + took) out)
    (herror : ∀ before added taken e, P before added taken (.error e) →
      Q before added taken (.error e)) : (x >>= f).Adds network Q := by
  intro w
  obtain ⟨added, taken, hafter, hP⟩ := hx w
  rw [exec_bind]
  rcases hrun : x.exec network w with ⟨e | a, w'⟩
  · rw [hrun] at hafter hP
    exact ⟨added, taken, hafter, herror _ _ _ e hP⟩
  · rw [hrun] at hafter hP
    obtain rfl : w' = _ := hafter
    obtain ⟨more, took, hafter, hQ⟩ := hok _ _ _ a hP _
    exact ⟨added ++ more, taken + took, by rw [hafter, World.after_after], hQ rfl⟩

theorem emit (event : Event) : (Run.emit event).Adds network fun _ added taken out =>
    added = [event] ∧ taken = 0 ∧ out = .ok () := by
  intro w
  rw [exec_emit]
  exact ⟨[event], 0, rfl, rfl, rfl, rfl⟩

theorem freshId : Run.freshId.Adds network fun before added taken out =>
    added = [] ∧ taken = 1 ∧ out = .ok before.nextId :=
  fun w => ⟨[], 1, by rw [World.after, List.append_nil]; rfl, rfl, rfl, rfl⟩

/-- A request is added, and the reply depends on those before. -/
theorem exchange (r : RpcRequest) : (Run.exchange r).Adds network fun before added taken out =>
    added = [.request r] ∧ taken = 0 ∧ out = .ok (network before.requests r) := by
  intro w
  rw [exec_exchange]
  exact ⟨[.request r], 0, rfl, rfl, rfl, rfl⟩

theorem observe (h : x.Adds network P) : (Run.observe x).Adds network fun before added taken out =>
    ∃ r, out = .ok r ∧ P before added taken r := by
  intro w
  obtain ⟨added, taken, hafter, hP⟩ := h w
  exact ⟨added, taken, hafter, _, rfl, hP⟩

end Adds

end Run

/-! ## Acts -/

/-- A request and the reply to it. -/
structure Exchange where
  request : RpcRequest
  reply : Http.Reply

/-- What can be seen of a run from outside. -/
inductive Act where
  | exchange (e : Exchange)
  | pause (seconds : Scalar)
  | print (text : String)

/-- The acts among events that follow earlier requests. -/
def acts (network : Network) : (earlier : List RpcRequest) → List Event → List Act
  | _, [] => []
  | earlier, .request r :: rest =>
    .exchange ⟨r, network earlier r⟩ :: acts network (earlier ++ [r]) rest
  | earlier, .sleep seconds :: rest => .pause seconds :: acts network earlier rest
  | earlier, .print text :: rest => .print text :: acts network earlier rest
  | earlier, .log .. :: rest => acts network earlier rest

theorem acts_append (network : Network) : ∀ (earlier : List RpcRequest) (first second : List Event),
    acts network earlier (first ++ second)
      = acts network earlier first ++ acts network (earlier ++ requestsOf first) second
  | earlier, [], second => by simp [acts, requestsOf, World.requests]
  | earlier, event :: rest, second => by
      rw [requestsOf_cons]
      cases event <;> simp [acts, acts_append network _ rest second, requestsOf, World.requests]

namespace Run

variable {α β : Type} {network : Network}

/-- What `x` does and how it ends satisfies `P`. -/
def Ends (network : Network) (x : Run α) (P : List Act → Except Fault α → Prop) : Prop :=
  x.Adds network fun before added _ out => P (acts network before.requests added) out

namespace Ends

variable {P : List Act → Except Fault α → Prop} {Q : List Act → Except Fault β → Prop}

/-- What is known of the run from the beginning. -/
theorem exec {x : Run α} (h : x.Ends network P) :
    P (acts network [] (x.exec network {}).2.trace) (x.exec network {}).1 := by
  obtain ⟨added, taken, hafter, hP⟩ := h {}
  rw [hafter]
  exact hP

theorem weaken {x : Run α} {P' : List Act → Except Fault α → Prop} (h : x.Ends network P)
    (imp : ∀ c out, P c out → P' c out) : x.Ends network P' :=
  Adds.weaken h fun _ _ _ => imp _

theorem and {x : Run α} {P' : List Act → Except Fault α → Prop} (h : x.Ends network P)
    (h' : x.Ends network P') : x.Ends network fun c out => P c out ∧ P' c out :=
  Adds.and h h'

theorem lift {x : Except Fault α} (h : P [] x) : (liftM x : Run α).Ends network P :=
  Adds.lift fun _ => h

theorem pure {a : α} (h : P [] (.ok a)) : (Pure.pure a : Run α).Ends network P := lift h

theorem throw {f : Fault} (h : P [] (.error f)) :
    (MonadExcept.throw f : Run α).Ends network P := lift (x := .error f) h

theorem bind {x : Run α} {f : α → Run β} (hx : x.Ends network P)
    (hok : ∀ c a, P c (.ok a) → (f a).Ends network fun c' out => Q (c ++ c') out)
    (herror : ∀ c e, P c (.error e) → Q c (.error e)) : (x >>= f).Ends network Q := by
  refine Adds.bind hx (fun before added taken a hP => ?_) fun _ _ _ => herror _
  refine Adds.weaken (hok _ a hP) fun between more took out hQ heq => ?_
  -- The replies to the second part depend on the requests of the first.
  rw [acts_append, ← before.requests_after added taken, ← heq]
  exact hQ

/-- Nothing follows a failure. -/
theorem fail {fault : Fault} {g : α → Run β} (h : Q [] (.error fault)) :
    ((MonadExcept.throw fault : Run α) >>= g).Ends network Q :=
  bind (throw (P := fun c out => c = [] ∧ out = .error fault) ⟨rfl, rfl⟩) (by rintro _ _ ⟨-, ⟨⟩⟩)
    (by
      rintro _ _ ⟨rfl, he⟩
      exact Except.error.inj he ▸ h)

/-- A failure that ends the run under a condition. -/
theorem guard {p : Prop} [Decidable p] {fault : Fault} {x : Unit → Run β} {y : Run β}
    (hfault : p → Q [] (.error fault)) (h : ¬p → y.Ends network Q) :
    (if p then (MonadExcept.throw fault : Run Unit) >>= x else y).Ends network Q := by
  split
  · exact fail (hfault ‹_›)
  · exact h ‹_›

/-- Past a computation. -/
theorem compute {x : Except Fault α} {f : α → Run β}
    (hok : ∀ a, x = .ok a → (f a).Ends network Q) (herror : ∀ e, x = .error e → Q [] (.error e)) :
    ((liftM x : Run α) >>= f).Ends network Q :=
  bind (lift (P := fun c out => c = [] ∧ out = x) ⟨rfl, rfl⟩)
    (by
      rintro _ a ⟨rfl, ha⟩
      exact hok a ha.symm)
    (by
      rintro _ e ⟨rfl, he⟩
      exact herror e he.symm)

/-- An event, with the act that it is. -/
theorem emit (event : Event) :
    (Run.emit event).Ends network fun c out =>
      out = .ok () ∧ ∃ earlier, c = acts network earlier [event] := by
  refine (Adds.emit event).weaken ?_
  rintro before _ _ _ ⟨rfl, -, rfl⟩
  exact ⟨rfl, before.requests, rfl⟩

theorem log {level : Logging.Level} {message : Text} {f : Unit → Run β}
    (h : (f ()).Ends network Q) : (Run.log level message >>= f).Ends network Q := by
  refine (emit _).bind ?_ (by rintro _ _ ⟨⟨⟩, -⟩)
  rintro _ _ ⟨-, _, rfl⟩
  exact h

/-- Past a log line that names values, some of which it may be impossible to write. -/
theorem logNaming {level : Logging.Level} {named : List Value} {message : Text} {f : Unit → Run β}
    (h : (f ()).Ends network Q)
    (hfault : named.all Value.isWritable = false → Q [] (.error .unwritable)) :
    (Run.logNaming level named message >>= f).Ends network Q := by
  rw [Run.logNaming]
  split
  · exact log h
  · exact fail (hfault ((Bool.not_eq_true _).mp ‹_›))

/-- Past a log line that names values which can be written. -/
theorem logCarried {level : Logging.Level} {named : List Value} {message : Text}
    {f : Unit → Run β} (hnamed : ∀ v ∈ named, Json.Carried v) (h : (f ()).Ends network Q) :
    (Run.logNaming level named message >>= f).Ends network Q :=
  logNaming h fun hnot =>
    absurd (List.all_eq_true.mpr fun v hv => (hnamed v hv).isWritable) (by simp [hnot])

theorem print {text : String} {f : Unit → Run β}
    (h : (f ()).Ends network fun c out => Q (.print (text ++ "\n") :: c) out) :
    (Run.printLine text >>= f).Ends network Q := by
  refine (emit _).bind ?_ (by rintro _ _ ⟨⟨⟩, -⟩)
  rintro _ _ ⟨-, _, rfl⟩
  exact h

/-- Past a pause that the host lets through. -/
theorem sleep {host : Host} {seconds : Scalar} {f : Unit → Run β}
    (accepted : host.refuses seconds = none)
    (h : (f ()).Ends network fun c out => Q (.pause seconds :: c) out) :
    (Run.sleep host seconds >>= f).Ends network Q := by
  rw [Run.sleep, accepted]
  refine (emit _).bind ?_ (by rintro _ _ ⟨⟨⟩, -⟩)
  rintro _ _ ⟨-, _, rfl⟩
  exact h

theorem freshId {f : Nat → Run β} (h : ∀ id, (f id).Ends network Q) :
    (Run.freshId >>= f).Ends network Q := by
  refine Adds.bind Adds.freshId ?_ (by rintro _ _ _ _ ⟨-, -, ⟨⟩⟩)
  rintro before _ _ id ⟨rfl, -, -⟩
  refine Adds.weaken (h id) fun between more took out hQ heq => ?_
  rwa [heq, World.requests_after, requestsOf_nil, List.append_nil] at hQ

theorem exchange {r : RpcRequest} {f : Http.Reply → Run β}
    (h : ∀ reply, (f reply).Ends network fun c out => Q (.exchange ⟨r, reply⟩ :: c) out) :
    (Run.exchange r >>= f).Ends network Q := by
  refine Adds.bind (Adds.exchange r) ?_ (by rintro _ _ _ _ ⟨-, -, ⟨⟩⟩)
  rintro before _ _ reply ⟨rfl, -, hreply⟩
  obtain rfl := Except.ok.inj hreply
  refine Adds.weaken (h _) fun between more took out hQ heq => ?_
  have hbetween : between.requests = before.requests ++ [r] :=
    heq ▸ before.requests_after [.request r] _
  rw [List.singleton_append, acts, ← hbetween]
  exact hQ

theorem observe {x : Run α} (h : x.Ends network P) :
    (Run.observe x).Ends network fun c out => ∃ r, out = .ok r ∧ P c r :=
  Adds.observe h

/-- A stage. A failure in it becomes one of the stage, unless it is one of an inner stage. -/
theorem staged {name : Text} {x : Run α} (hx : x.Ends network P) :
    (Run.stage name x).Ends network fun c out => (∃ a, out = .ok a ∧ P c (.ok a)) ∨
      ∃ e e', out = .error e' ∧ P c (.error e) ∧ (e.kind ≠ .stage → e' = .stage (.str name) e) := by
  have hname : ∀ v ∈ [Value.str name], Json.Carried v := by simp
  refine logCarried hname (hx.observe.bind ?_ (by rintro _ _ ⟨_, ⟨⟩, -⟩))
  rintro c r ⟨_, hr, hP⟩
  obtain rfl := Except.ok.inj hr
  rcases r with e | a
  · cases e with
    | stage inner cause =>
      exact throw (.inr ⟨_, _, rfl, by rwa [List.append_nil], fun hne => absurd rfl hne⟩)
    | _ => exact throw (.inr ⟨_, _, rfl, by rwa [List.append_nil], fun _ => rfl⟩)
  · exact pure (.inl ⟨a, rfl, by rwa [List.append_nil]⟩)

/-- Past a stage whose failures are no failures of stages. -/
theorem stage {name : Text} {x : Run α} {f : α → Run β} (hx : x.Ends network P)
    (own : ∀ c e, P c (.error e) → e.kind ≠ .stage)
    (hok : ∀ c a, P c (.ok a) → (f a).Ends network fun c' out => Q (c ++ c') out)
    (herror : ∀ c e, P c (.error e) → Q c (.error (.stage (.str name) e))) :
    (Run.stage name x >>= f).Ends network Q := by
  refine (staged hx).bind ?_ ?_
  · rintro c a (⟨_, ha, hP⟩ | ⟨_, _, ⟨⟩, -⟩)
    exact hok c a (Except.ok.inj ha ▸ hP)
  · rintro c _ (⟨_, ⟨⟩, -⟩ | ⟨e, _, he, hP, hname⟩)
    rw [Except.error.inj he, hname (own c e hP)]
    exact herror c e hP

/-- Past a stage that only computes. -/
theorem computeStage {name : Text} {x : Except Fault α} {f : α → Run β} (plain : Plain x)
    (hok : ∀ a, x = .ok a → (f a).Ends network Q)
    (herror : ∀ e, x = .error e → Q [] (.error (.stage (.str name) e))) :
    (Run.stage name (liftM x : Run α) >>= f).Ends network Q := by
  refine stage (lift (P := fun c out => c = [] ∧ out = x) ⟨rfl, rfl⟩) ?_ ?_ ?_
  · rintro _ e ⟨rfl, he⟩
    exact (Fault.kind_of_isPlain (plain e he.symm)).1
  · rintro _ a ⟨rfl, ha⟩
    exact hok a ha.symm
  · rintro _ e ⟨rfl, he⟩
    exact herror e he.symm

end Ends

/-- Two computations are one. -/
theorem lift_bind (x : Except Fault α) (g : α → Except Fault β) :
    (liftM (x >>= g) : Run β) = (liftM x : Run α) >>= fun a => (liftM (g a) : Run β) := by
  cases x <;> rfl

theorem lift_ok (a : α) : (liftM (Except.ok a : Except Fault α) : Run α) = pure a := rfl

theorem lift_error (fault : Fault) :
    (liftM (Except.error fault : Except Fault α) : Run α) = throw fault := rfl

theorem lift_ite (p : Prop) [Decidable p] (x y : Except Fault α) :
    (liftM (if p then x else y) : Run α) = if p then liftM x else liftM y := by
  split <;> rfl

end Run

/-! ## Calls -/

namespace Rpc

/-- What a reply to a call of a method means. -/
def resultOf (method : Value) (reply : Http.Reply) : Except Fault Value := do
  result method (← document (← Http.read reply))

@[simp] theorem plain_resultOf (method : Value) (reply : Http.Reply) :
    Plain (resultOf method reply) := by
  have hdocument : ∀ v, Plain (document v) := fun v => by
    unfold document
    split <;> simp
  simp [resultOf, result, hdocument]

theorem carried_of_read {reply : Http.Reply} {body : Value} (h : Http.read reply = .ok body) :
    Json.Carried body := by
  cases reply with
  | unreachable text => cases h
  | response status contentType sent =>
    rw [Http.read] at h
    split at h
    · cases h
    · split at h
      · cases sent with
        | json d => exact Except.ok.inj h ▸ d.carried
        | text t =>
          rw [Http.Body.document] at h
          split at h
          · exact Except.ok.inj h ▸ Json.carried_null
          · exact Json.carried_of_parse h
      · exact Except.ok.inj h ▸ Json.carried_str _

theorem carried_of_document {body doc : Value} (hbody : Json.Carried body)
    (h : document body = .ok doc) : Json.Carried doc := by
  unfold document at h
  split at h
  · exact Json.carried_of_parse h
  · exact Except.ok.inj h ▸ hbody

/-- **Every result has a JSON text.** -/
theorem carried_of_resultOf {method v : Value} {reply : Http.Reply}
    (h : resultOf method reply = .ok v) : Json.Carried v := by
  obtain ⟨body, hbody, h⟩ := bind_eq_ok.mp h
  obtain ⟨doc, hdoc, h⟩ := bind_eq_ok.mp h
  have hcarried := carried_of_document (carried_of_read hbody) hdoc
  obtain ⟨error, -, h⟩ := bind_eq_ok.mp h
  split at h
  · obtain ⟨code, -, h⟩ := bind_eq_ok.mp h
    obtain ⟨message, -, h⟩ := bind_eq_ok.mp h
    obtain ⟨data, -, h⟩ := bind_eq_ok.mp h
    cases h
  · exact hcarried.field h

/-- A reply whose result is a value. -/
def answering (result : Value) : Http.Reply :=
  .response 200 Http.jsonType (.ofValue (.record [("result", result)]))

theorem answering_eq {v : Value} (h : Json.Carried v) : answering v = .response 200 Http.jsonType
    (.json ⟨.record [("result", v)],
      Json.carried_record.mpr (List.forall_mem_singleton.mpr h)⟩) := by
  rw [answering, Http.Body.ofValue, dif_pos]

theorem resultOf_answering {v : Value} (h : Json.Carried v) (method : Value) :
    resultOf method (answering v) = .ok v := by
  rw [resultOf, answering_eq h, Http.read, if_neg (by decide), if_pos rfl, Http.Body.document,
    ok_bind]
  simp [document, result, Value.record, Value.field, Dict.find?_ofFields, Value.holds, Scalar.holds]

namespace Client

/-- The client can make the request of a call: it has the url of a server, and JSON has a text for
the call. -/
structure CanAsk (c : Client) (method params : Value) : Prop where
  url : ∃ url, c.endpoint = .str url
  method : Json.Carried method
  params : Json.Carried (sentParams params)

end Client

theorem carried_sentParams {params : Value} :
    Json.Carried (sentParams params) ↔ Json.Carried params := by
  unfold sentParams
  split
  · simp
  · rfl

theorem carried_envelope {method params : Value} :
    Json.Carried (envelope method params) ↔ Json.Carried method ∧ Json.Carried params := by
  simp [envelope, Json.carried_record]

/-- A request is prepared exactly if it can be made. -/
theorem Client.canAsk_iff {c : Client} {method params : Value} :
    c.CanAsk method params ↔ ∃ request, Http.prepare c.timeout
      { endpoint := c.endpoint, method := .str "POST", api := .str ""
        payload := envelope method (sentParams params) } = .ok request := by
  have hcarry : ∀ payload, Http.carry "POST" payload
      = (do Json.check payload; return .json payload) := fun _ => rfl
  constructor
  · rintro ⟨⟨url, hurl⟩, hmethod, hparams⟩
    have hcheck := Json.check_eq_ok.mpr (carried_envelope.mpr ⟨hmethod, hparams⟩)
    exact ⟨_, by simp only [Http.prepare, hurl, Value.text, ok_bind, hcarry, hcheck]; rfl⟩
  · rintro ⟨request, h⟩
    obtain ⟨url, hurl, h⟩ := bind_eq_ok.mp h
    obtain ⟨api, -, h⟩ := bind_eq_ok.mp h
    obtain ⟨post, hpost, h⟩ := bind_eq_ok.mp h
    obtain rfl := Except.ok.inj hpost
    obtain ⟨payload, hpayload, -⟩ := bind_eq_ok.mp h
    rw [hcarry] at hpayload
    obtain ⟨_, hcheck, -⟩ := bind_eq_ok.mp hpayload
    obtain ⟨hmethod, hparams⟩ := carried_envelope.mp (Json.check_eq_ok.mp hcheck)
    exact ⟨⟨url, Value.eq_str_of_text hurl⟩, hmethod, hparams⟩

end Rpc

namespace Exchange

/-- A call of a method that had a result. -/
def Gives (e : Exchange) (method : Text) (result : Value) : Prop :=
  e.request.method = .str method ∧ Rpc.resultOf (.str method) e.reply = .ok result

/-- A call of a method that had no result. -/
def Fails (e : Exchange) (method : Text) (fault : Fault) : Prop :=
  e.request.method = .str method ∧ Rpc.resultOf (.str method) e.reply = .error fault

theorem Gives.carried {e : Exchange} {method : Text} {v : Value} (h : e.Gives method v) :
    Json.Carried v := Rpc.carried_of_resultOf h.2

theorem Fails.isPlain {e : Exchange} {method : Text} {fault : Fault} (h : e.Fails method fault) :
    fault.isPlain := Rpc.plain_resultOf _ _ _ h.2

end Exchange

namespace Run

variable {α β : Type} {network : Network}

/-- **A call makes one exchange, if its request can be made.** -/
theorem callOf_ends {c : Rpc.Client} {method params : Value} :
    (c.callOf method params).Ends network fun x out =>
      (x = [] ∧ ¬c.CanAsk method params ∧ ∃ fault, fault.isPlain ∧ out = .error fault) ∨
      ∃ e : Exchange, x = [.exchange e] ∧ c.CanAsk method params ∧ e.request.method = method ∧
        e.request.params = Rpc.sentParams params ∧ out = Rpc.resultOf method e.reply := by
  refine Ends.freshId fun id => Ends.logNaming (Ends.compute (fun request hrequest => ?_)
    fun fault hfault => ?_) fun hnamed => ?_
  · refine Ends.exchange fun reply => ?_
    simp only [← lift_bind]
    exact Ends.lift (.inr ⟨_, rfl, Rpc.Client.canAsk_iff.mpr ⟨request, hrequest⟩, rfl, rfl, rfl⟩)
  · refine .inl ⟨rfl, fun hask => ?_, fault, ?_, rfl⟩
    · obtain ⟨request, hrequest⟩ := Rpc.Client.canAsk_iff.mp hask
      rw [hrequest] at hfault
      cases hfault
    · exact Http.plain_prepare _ _ _ hfault
  · refine .inl ⟨rfl, fun hask => ?_, .unwritable, rfl, rfl⟩
    obtain ⟨⟨url, hurl⟩, hmethod, -⟩ := hask
    rw [List.all_cons, List.all_cons, hurl, hmethod.isWritable] at hnamed
    cases hnamed

theorem call_ends {c : Rpc.Client} {method : Text} {params : Value} :
    (c.call method params).Ends network fun x out =>
      (x = [] ∧ ¬c.CanAsk (.str method) params ∧ ∃ fault, fault.isPlain ∧ out = .error fault) ∨
      ∃ e : Exchange, x = [.exchange e] ∧ c.CanAsk (.str method) params ∧
        e.request.method = .str method ∧ e.request.params = Rpc.sentParams params ∧
        out = Rpc.resultOf (.str method) e.reply := callOf_ends

/-- Past a call. -/
theorem Ends.call {c : Rpc.Client} {method : Text} {params : Value} {f : Value → Run β}
    {Q : List Act → Except Fault β → Prop}
    (unasked : ∀ fault, fault.isPlain → ¬c.CanAsk (.str method) params → Q [] (.error fault))
    (fails : ∀ e fault, e.Fails method fault → e.request.params = Rpc.sentParams params →
      Q [.exchange e] (.error fault))
    (gives : ∀ e v, e.Gives method v → e.request.params = Rpc.sentParams params →
      (f v).Ends network fun x out => Q (.exchange e :: x) out) :
    (c.call method params >>= f).Ends network Q := by
  refine call_ends.bind ?_ ?_
  · rintro x v (⟨-, -, _, -, ⟨⟩⟩ | ⟨e, rfl, -, hmethod, hparams, hv⟩)
    exact gives e v ⟨hmethod, hv.symm⟩ hparams
  · rintro x fault (⟨rfl, hask, _, plain, hfault⟩ | ⟨e, rfl, -, hmethod, hparams, hfault⟩)
    · exact Except.error.inj hfault ▸ unasked _ plain hask
    · exact fails e fault ⟨hmethod, hfault.symm⟩ hparams

end Run
end CellNft
