/-
CellNft.Proofs.Plans — programs that call given methods in order.

`Follows plan` is the way in which a program without branches ends that calls the methods of `plan`
in order. It makes the calls, as far as the replies have results and what is computed in between
succeeds. A reply without a result is the last act, and its failure is that of the program. Programs
are put together from calls and computations, and so are their plans (`Run.Follows.bind`).

`Run.Completes` says of such a program when it makes all its calls, also if it fails behind the last.
-/
import CellNft.Proofs.Exchange

namespace CellNft

/-- How a program ends that calls the methods of a plan in order, each when all before it had a
result. -/
inductive Follows {α : Type} : List Text → List Act → Except Fault α → Prop
  | done (a : α) : Follows [] [] (.ok a)
  | stop (plan : List Text) {fault : Fault} (plain : fault.isPlain) : Follows plan [] (.error fault)
  | fail {method : Text} (plan : List Text) {e : Exchange} {fault : Fault}
      (fails : e.Fails method fault) : Follows (method :: plan) [.exchange e] (.error fault)
  | next {method : Text} {plan : List Text} {e : Exchange} {v : Value} {c : List Act}
      {out : Except Fault α} (gives : e.Gives method v) (rest : Follows plan c out) :
      Follows (method :: plan) (.exchange e :: c) out

/-- The methods that are called. -/
def methodsOf (c : List Act) : List Value := (exchangesOf c).map (·.request.method)

/-- The lines that are printed. -/
def printsOf (c : List Act) : List String :=
  c.filterMap fun
    | .print text => some text
    | _ => none

/-- The methods that are called are those of a plan. -/
def Calls (c : List Act) (plan : List Text) : Prop := methodsOf c = plan.map .str

section

variable (e : Exchange) (seconds : Scalar) (text : String) (c c' : List Act)

@[simp] theorem printsOf_nil : printsOf [] = [] := rfl

@[simp] theorem printsOf_exchange : printsOf (.exchange e :: c) = printsOf c := rfl

@[simp] theorem printsOf_pause : printsOf (.pause seconds :: c) = printsOf c := rfl

@[simp] theorem printsOf_print : printsOf (.print text :: c) = text :: printsOf c := rfl

@[simp] theorem printsOf_append : printsOf (c ++ c') = printsOf c ++ printsOf c' :=
  List.filterMap_append

@[simp] theorem calls_pause {plan : List Text} : Calls (.pause seconds :: c) plan ↔ Calls c plan :=
  Iff.rfl

@[simp] theorem calls_print {plan : List Text} : Calls (.print text :: c) plan ↔ Calls c plan :=
  Iff.rfl

end

/-- They can be seen from the requests. -/
theorem methodsOf_acts (network : Network) (earlier : List RpcRequest) (events : List Event) :
    methodsOf (acts network earlier events) = (requestsOf events).map (·.method) := by
  have hrequests := map_request_exchanges network earlier (requestsOf events)
  rw [methodsOf, exchangesOf_acts]
  conv_rhs => rw [← hrequests, List.map_map]
  rfl

theorem Calls.nil : Calls [] [] := rfl

theorem Calls.cons {e : Exchange} {method : Text} {c : List Act} {plan : List Text}
    (he : e.request.method = .str method) (h : Calls c plan) :
    Calls (.exchange e :: c) (method :: plan) := by
  simpa [Calls, methodsOf, he] using h

theorem Calls.append {c c' : List Act} {plan plan' : List Text} (h : Calls c plan)
    (h' : Calls c' plan') : Calls (c ++ c') (plan ++ plan') := by
  simp_all [Calls, methodsOf]

/-- Only methods of a list are called. -/
def CallsOnly (methods : List Text) (c : List Act) : Prop :=
  ∀ e ∈ exchangesOf c, ∃ method ∈ methods, e.request.method = .str method

namespace CallsOnly

variable {methods methods' : List Text} {c c' : List Act}

theorem mono (h : CallsOnly methods c) (sub : ∀ method ∈ methods, method ∈ methods') :
    CallsOnly methods' c := by
  intro e he
  obtain ⟨method, hmethod, hname⟩ := h e he
  exact ⟨method, sub method hmethod, hname⟩

theorem append (h : CallsOnly methods c) (h' : CallsOnly methods c') :
    CallsOnly methods (c ++ c') := by
  intro e he
  rw [exchangesOf_append] at he
  exact (List.mem_append.mp he).elim (h e) (h' e)

/-- No other method is called. -/
theorem filter_calls_eq_nil (h : CallsOnly methods c) {method : Text} (other : method ∉ methods) :
    (exchangesOf c).filter (·.calls method) = [] := by
  rw [List.filter_eq_nil_iff]
  intro e he
  obtain ⟨called, hcalled, hname⟩ := h e he
  have hne : called ≠ method := fun heq => other (heq ▸ hcalled)
  rw [Exchange.calls_of_method hname method, decide_eq_false hne]
  exact Bool.false_ne_true

end CallsOnly

namespace Follows

variable {α β : Type} {plan plan' : List Text} {c c' : List Act} {a : α} {fault : Fault}
  {out : Except Fault α} {out' : Except Fault β}

theorem isPlain (h : Follows plan c (.error fault : Except Fault α)) : fault.isPlain := by
  generalize hout : (.error fault : Except Fault α) = out at h
  induction h with
  | done => cases hout
  | stop _ plain => exact Except.error.inj hout ▸ plain
  | fail _ fails => exact Except.error.inj hout ▸ fails.isPlain
  | next _ _ ih => exact ih hout

/-- All calls of the plan were made. -/
theorem calls (h : Follows plan c (.ok a)) : Calls c plan := by
  generalize hout : Except.ok a = out at h
  induction h with
  | done => exact Calls.nil
  | stop => cases hout
  | fail => cases hout
  | next gives _ ih => exact (ih hout).cons gives.1

/-- The calls that were made are the first ones of the plan. -/
theorem exists_calls (h : Follows plan c out) : ∃ made, made <+: plan ∧ Calls c made := by
  induction h with
  | done => exact ⟨[], List.nil_prefix, Calls.nil⟩
  | stop => exact ⟨[], List.nil_prefix, Calls.nil⟩
  | @fail method plan e fault fails =>
    exact ⟨[method], List.prefix_append [method] plan, Calls.nil.cons fails.1⟩
  | @next method _ _ _ _ _ gives _ ih =>
    obtain ⟨made, hmade, hcalls⟩ := ih
    exact ⟨method :: made, List.cons_prefix_cons.mpr ⟨rfl, hmade⟩, hcalls.cons gives.1⟩

theorem callsOnly (h : Follows plan c out) : CallsOnly plan c := by
  obtain ⟨made, hmade, hcalls⟩ := h.exists_calls
  intro e he
  have hmem : e.request.method ∈ made.map Value.str := hcalls ▸ List.mem_map_of_mem he
  obtain ⟨method, hmethod, hname⟩ := List.mem_map.mp hmem
  exact ⟨method, hmade.subset hmethod, hname.symm⟩

theorem printsOf_eq_nil (h : Follows plan c out) : printsOf c = [] := by
  induction h with
  | next _ _ ih => simpa using ih
  | _ => rfl

theorem eq_nil (h : Follows [] c out) : c = [] := by
  cases h <;> rfl

theorem append (h : Follows plan c (.ok a)) (h' : Follows plan' c' out') :
    Follows (plan ++ plan') (c ++ c') out' := by
  generalize hout : Except.ok a = out at h
  induction h with
  | done => exact h'
  | stop => cases hout
  | fail => cases hout
  | next gives _ ih => exact .next gives (ih hout)

theorem map (h : Follows plan c out) (g : α → β) : Follows plan c (g <$> out) := by
  induction h with
  | done a => exact .done (g a)
  | stop plan plain => exact .stop plan plain
  | fail plan fails => exact .fail plan fails
  | next gives _ ih => exact .next gives ih

theorem widen (h : Follows plan c (.error fault : Except Fault α)) (plan' : List Text) :
    Follows (plan ++ plan') c (.error fault : Except Fault β) := by
  generalize hout : (.error fault : Except Fault α) = out at h
  induction h with
  | done => cases hout
  | stop plan plain => exact .stop _ (Except.error.inj hout ▸ plain)
  | fail plan fails => exact .fail _ (Except.error.inj hout ▸ fails)
  | next gives _ ih => exact .next gives (ih hout)

end Follows

namespace Run

variable {α β : Type} {network : Network} {plan plan' : List Text}

/-- However `x` ends, it followed a plan. -/
def Follows (network : Network) (x : Run α) (plan : List Text) : Prop :=
  x.Ends network (CellNft.Follows plan)

namespace Follows

theorem lift {x : Except Fault α} (h : Plain x) : (liftM x : Run α).Follows network [] := by
  refine Ends.lift ?_
  cases x with
  | ok a => exact .done a
  | error fault => exact .stop [] (plain_error.mp h)

theorem pure (a : α) : (Pure.pure a : Run α).Follows network [] := lift (plain_ok a)

theorem throw {fault : Fault} (h : fault.isPlain) :
    (MonadExcept.throw fault : Run α).Follows network plan := Ends.throw (.stop plan h)

theorem bind {x : Run α} {f : α → Run β} (hx : x.Follows network plan)
    (hf : ∀ a, (f a).Follows network plan') : (x >>= f).Follows network (plan ++ plan') :=
  Ends.bind hx (fun _ a h => (hf a).weaken fun _ _ h' => h.append h') fun _ _ h => h.widen plan'

/-- What comes behind the last call. -/
theorem close {x : Run α} {f : α → Run β} (hx : x.Follows network plan)
    (hf : ∀ a, (f a).Follows network []) : (x >>= f).Follows network plan :=
  List.append_nil plan ▸ hx.bind hf

/-- Past a computation. -/
theorem compute {x : Except Fault α} {f : α → Run β} (h : Plain x)
    (hf : ∀ a, (f a).Follows network plan) : ((liftM x : Run α) >>= f).Follows network plan :=
  bind (lift h) hf

theorem log {level : Logging.Level} {message : Text} {f : Unit → Run β}
    (h : (f ()).Follows network plan) : (Run.log level message >>= f).Follows network plan :=
  Ends.log h

theorem logNaming {level : Logging.Level} {named : List Value} {message : Text}
    {f : Unit → Run β} (h : (f ()).Follows network plan) :
    (Run.logNaming level named message >>= f).Follows network plan :=
  Ends.logNaming h fun _ => .stop plan rfl

/-- A failure that ends the program under a condition. -/
theorem guard {p : Prop} [Decidable p] {fault : Fault} {x : Unit → Run α} {y : Run α}
    (plain : fault.isPlain) (h : y.Follows network plan) :
    (if p then (MonadExcept.throw fault : Run Unit) >>= x else y).Follows network plan :=
  Ends.guard (fun _ => .stop plan plain) fun _ => h

theorem call {c : Rpc.Client} {method : Text} {params : Value} {f : Value → Run β}
    (h : ∀ v, (f v).Follows network plan) :
    (c.call method params >>= f).Follows network (method :: plan) :=
  Ends.call (fun _ plain _ => .stop _ plain) (fun _ _ hfails _ => .fail _ hfails)
    fun _ v hgives _ => (h v).weaken fun _ _ h => .next hgives h

/-- Past a stage. -/
theorem stage {name : Text} {x : Run α} {f : α → Run β} {Q : List Act → Except Fault β → Prop}
    (hx : x.Follows network plan)
    (hok : ∀ c a, CellNft.Follows plan c (.ok a) →
      (f a).Ends network fun c' out => Q (c ++ c') out)
    (herror : ∀ c e, CellNft.Follows plan c (.error e : Except Fault α) →
      Q c (.error (.stage (.str name) e))) : (Run.stage name x >>= f).Ends network Q :=
  Ends.stage hx (fun _ _ h => (Fault.kind_of_isPlain h.isPlain).1) hok herror

/-- Past a stage without acts. -/
theorem quietStage {name : Text} {x : Run α} {f : α → Run β} {Q : List Act → Except Fault β → Prop}
    (hx : x.Follows network []) (hok : ∀ a, (f a).Ends network Q)
    (herror : ∀ e, Q [] (.error (.stage (.str name) e))) :
    (Run.stage name x >>= f).Ends network Q := by
  refine stage hx (fun c a h => ?_) fun c e h => ?_
  · obtain rfl := h.eq_nil
    exact hok a
  · obtain rfl := h.eq_nil
    exact herror e

/-- The same for every item of a list, without calls. -/
theorem mapM {f : α → Run β} (h : ∀ a, (f a).Follows network []) :
    ∀ xs : List α, (xs.mapM f).Follows network []
  | [] => by
      rw [List.mapM_nil]
      exact pure []
  | x :: xs => by
      rw [List.mapM_cons]
      exact (h x).bind fun y => (mapM h xs).bind fun ys => pure (y :: ys)

end Follows

/-- `x` follows a plan, and under a condition it makes all calls of it, also if it fails. -/
def Completes (network : Network) (certain : Prop) (x : Run α) (plan : List Text) : Prop :=
  x.Ends network fun c out => CellNft.Follows plan c out ∧ (certain → Calls c plan)

namespace Completes

variable {certain : Prop}

theorem of_follows {x : Run α} (h : x.Follows network []) : x.Completes network certain [] :=
  h.weaken fun _ _ hc => ⟨hc, fun _ => hc.eq_nil ▸ Calls.nil⟩

/-- What comes behind the last call does not matter. -/
theorem bind {x : Run α} {f : α → Run β} (hx : x.Completes network certain plan)
    (hf : ∀ a, (f a).Follows network []) : (x >>= f).Completes network certain plan := by
  refine Ends.bind hx (fun c a h => (hf a).weaken fun c' out h' => ?_) fun c fault h => ?_
  · obtain rfl := h'.eq_nil
    have happend := h.1.append h'
    simp only [List.append_nil] at happend ⊢
    exact ⟨happend, h.2⟩
  · have hwiden : CellNft.Follows (plan ++ []) c (.error fault : Except Fault β) := h.1.widen []
    rw [List.append_nil] at hwiden
    exact ⟨hwiden, h.2⟩

/-- A call is made if its request can be made. -/
theorem call {c : Rpc.Client} {method : Text} {params : Value} {f : Value → Run β}
    (asks : certain → c.CanAsk (.str method) params) (h : ∀ v, (f v).Follows network []) :
    (c.call method params >>= f).Completes network certain [method] := by
  refine Ends.call (fun fault plain hask => ⟨.stop _ plain, fun hc => absurd (asks hc) hask⟩)
    (fun e fault hfails _ => ⟨.fail _ hfails, fun _ => Calls.nil.cons hfails.1⟩) fun e v hgives _ =>
      (h v).weaken fun c' out h' => ⟨.next hgives h', fun _ => ?_⟩
  obtain rfl := h'.eq_nil
  exact Calls.nil.cons hgives.1

end Completes

end Run
end CellNft
