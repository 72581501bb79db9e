/-
CellNft.Proofs.Abort — a flow ends with the first reply that has no result.

* `Rpc.Refuses` names replies without a result, and `LeadsTo` says what may come behind an exchange:
  nothing if its reply has no result, and then the failure is that of the reply; another poll only
  if a poll decided nothing.
* `EachWithRest` says something of each exchange and the acts behind it. It goes through every kind
  of course (`Follows.each`, `Sends.each`, `Polls.each`), and a part of a course that ended well does
  not mind what comes behind (`EachWithRest.append`).

`mintNft_transferNft_queryAccount_aborts`: this holds of minting, transferring and asking for an
account, on any network.
-/
import CellNft.Proofs.Report

namespace CellNft

open Outcome

/-! ## Replies without a result -/

namespace Rpc

/-- Replies that have no result, with the failures that they are. -/
inductive Refuses (method : Value) : Http.Reply → Fault → Prop
  | unreachable (text : Text) : Refuses method (.unreachable text) (.unreachable text)
  | status {status : Int} (high : 400 ≤ status) (type : Text) (body : Http.Body) :
      Refuses method (.response status type body) (.httpStatus status)
  | malformed {status : Int} {t : Text} {fault : Fault} (low : status < 400) (type : Text)
      (filled : t.chars.all Text.isAsciiBlank = false) (parse : Json.parse t = .error fault) :
      Refuses method (.response status type (.text t)) fault
  | errorObject {reply : Http.Reply} {body doc code message data : Value} {error : Dict}
      (read : Http.read reply = .ok body) (parse : document body = .ok doc)
      (held : doc.field "error" = .ok (.dict error)) (filled : error ≠ [])
      (named : Json.Carried method)
      (hcode : (Value.dict error).field "code" = .ok code)
      (hmessage : (Value.dict error).field "message" = .ok message)
      (hdata : (Value.dict error).field "data" = .ok data) :
      Refuses method reply (.rpc method code message data)

theorem Refuses.resultOf {method : Value} {reply : Http.Reply} {fault : Fault}
    (h : Refuses method reply fault) : Rpc.resultOf method reply = .error fault := by
  cases h with
  | unreachable text => rfl
  | status high type body => rw [Rpc.resultOf, Http.read, if_pos high, error_bind]
  | malformed low type filled parse =>
    rw [Rpc.resultOf, Http.read, if_neg (by omega)]
    split
    · rw [Http.Body.document, if_neg (by simp [filled]), parse, error_bind]
    · rw [ok_bind, document, Http.Body.plain, parse, error_bind]
  | @errorObject _ body doc code message data error read parse held filled named hcode hmessage
      hdata =>
    have hholds : (Value.dict error).holds = true := by
      cases error with
      | nil => exact absurd rfl filled
      | cons => rfl
    -- What the failure names is in the reply, so it can be written.
    have herror := (carried_of_document (carried_of_read read) parse).field held
    have hnamed : ∀ v ∈ [method, code, message], Json.Carried v := by
      simp [named, herror.field hcode, herror.field hmessage]
    rw [Rpc.resultOf, read, ok_bind, parse, ok_bind, result, held, ok_bind, if_pos hholds, hcode,
      ok_bind, hmessage, ok_bind, hdata, ok_bind, Json.Carried.naming hnamed]
    rfl

end Rpc

/-! ## What comes behind an exchange -/

/-- Something that is said of each exchange and the acts behind it. -/
def EachWithRest (R : Exchange → List Act → Prop) (c : List Act) : Prop :=
  ∀ before e behind, c = before ++ .exchange e :: behind → R e behind

theorem exists_split {e : Exchange} {c : List Act} (h : e ∈ exchangesOf c) :
    ∃ before behind, c = before ++ .exchange e :: behind := by
  obtain ⟨act, hact, he⟩ := List.mem_filterMap.mp h
  cases act with
  | exchange e' =>
    obtain rfl := Option.some.inj he
    exact List.append_of_mem hact
  | _ => cases he

namespace EachWithRest

variable {R : Exchange → List Act → Prop} {e : Exchange} {c c' : List Act}

theorem nil : EachWithRest R [] := by
  intro before e behind h
  cases before <;> cases h

theorem exchange (h : R e c) (hc : EachWithRest R c) : EachWithRest R (.exchange e :: c) := by
  intro before e' behind heq
  cases before with
  | nil =>
    obtain ⟨he, rfl⟩ := List.cons.inj heq
    exact Act.exchange.inj he ▸ h
  | cons act before => exact hc before e' behind (List.cons.inj heq).2

/-- An act that is no exchange. -/
theorem skip {act : Act} (other : ∀ e, act ≠ .exchange e) (hc : EachWithRest R c) :
    EachWithRest R (act :: c) := by
  intro before e behind heq
  cases before with
  | nil => exact absurd (List.cons.inj heq).1 (other e)
  | cons act before => exact hc before e behind (List.cons.inj heq).2

/-- Acts whose exchanges do not mind what comes behind them. -/
theorem append (h : ∀ e ∈ exchangesOf c, ∀ behind, R e behind) (hc' : EachWithRest R c') :
    EachWithRest R (c ++ c') := by
  induction c with
  | nil => exact hc'
  | cons act c ih =>
    cases act with
    | exchange e =>
      exact exchange (h e List.mem_cons_self _) (ih fun e he => h e (List.mem_cons_of_mem _ he))
    | pause => exact skip nofun (ih h)
    | print => exact skip nofun (ih h)

end EachWithRest

/-- What may come behind an exchange. A reply without a result is the end, and its failure is to
blame. Behind a poll there is something only if the poll decided nothing. -/
structure LeadsTo (blame : Fault → Prop) (e : Exchange) (behind : List Act) : Prop where
  last : ∀ fault, Rpc.resultOf e.request.method e.reply = .error fault → behind = [] ∧ blame fault
  polled : e.request.method = .str "get_transaction" → behind ≠ [] →
    ∃ result, e.Gives "get_transaction" result ∧ Rpc.Node.Undecided result

namespace LeadsTo

variable {blame : Fault → Prop} {e : Exchange} {method : Text}

/-- A call that has a result and is no poll does not mind what comes behind it. -/
theorem of_gives {v : Value} (gives : e.Gives method v) (other : method ≠ "get_transaction")
    (behind : List Act) : LeadsTo blame e behind where
  last fault hfault := by
    rw [gives.1, gives.2] at hfault
    cases hfault
  polled hmethod := by
    rw [gives.1] at hmethod
    exact absurd (Scalar.str.inj (Value.scalar.inj hmethod)) other

/-- A call that fails is the end. -/
theorem of_fails {fault : Fault} (fails : e.Fails method fault) (hblame : blame fault) :
    LeadsTo blame e [] where
  last fault' hfault := by
    rw [fails.1, fails.2] at hfault
    exact ⟨rfl, Except.error.inj hfault ▸ hblame⟩
  polled _ hbehind := absurd rfl hbehind

/-- A poll that has a result is the end, or it decided nothing. -/
theorem of_poll {v : Value} {behind : List Act} (gives : e.Gives "get_transaction" v)
    (undecided : behind ≠ [] → Rpc.Node.Undecided v) : LeadsTo blame e behind where
  last fault hfault := by
    rw [gives.1, gives.2] at hfault
    cases hfault
  polled _ hbehind := ⟨v, gives, undecided hbehind⟩

end LeadsTo

/-- The number of transactions that are handed in. -/
def sentIn (c : List Act) : Nat := (exchangesOf c).countP (·.calls "send_transaction")

theorem sentIn_append (c c' : List Act) : sentIn (c ++ c') = sentIn c + sentIn c' := by
  rw [sentIn, exchangesOf_append, List.countP_append]
  rfl

theorem sentIn_exchange {e : Exchange} {method : Text} (h : e.request.method = .str method)
    (c : List Act) :
    sentIn (.exchange e :: c) = sentIn c + if method = "send_transaction" then 1 else 0 := by
  rw [sentIn, exchangesOf_exchange, List.countP_cons, Exchange.calls_of_method h]
  simp [sentIn]

/-! ## Each kind of course -/

/-- A plan that neither hands in a transaction nor polls for one. -/
def Preparatory (plan : List Text) : Prop :=
  ∀ method ∈ plan, method ≠ "get_transaction" ∧ method ≠ "send_transaction"

instance (plan : List Text) : Decidable (Preparatory plan) :=
  inferInstanceAs (Decidable (∀ method ∈ plan, _))

namespace Follows

variable {α : Type} {plan : List Text} {c : List Act} {a : α} {out : Except Fault α}
  {blame : Fault → Prop}

theorem each (h : Follows plan c out) (hplan : Preparatory plan)
    (hblame : ∀ fault, out = .error fault → blame fault) : EachWithRest (LeadsTo blame) c := by
  induction h with
  | done | stop => exact .nil
  | fail _ fails => exact .exchange (.of_fails fails (hblame _ rfl)) .nil
  | next gives _ ih =>
    obtain ⟨hmethod, hplan⟩ := List.forall_mem_cons.mp hplan
    exact .exchange (.of_gives gives hmethod.1 _) (ih hplan hblame)

/-- All replies had results, whatever comes behind them. -/
theorem leadsTo (h : Follows plan c (.ok a)) (hplan : Preparatory plan) :
    ∀ e ∈ exchangesOf c, ∀ behind, LeadsTo blame e behind := by
  generalize hout : Except.ok a = out at h
  induction h with
  | done => nofun
  | stop => cases hout
  | fail => cases hout
  | next gives _ ih =>
    obtain ⟨hmethod, hplan⟩ := List.forall_mem_cons.mp hplan
    exact List.forall_mem_cons.mpr ⟨.of_gives gives hmethod.1, ih hplan hout⟩

theorem sentIn_eq (h : Follows plan c out) (hplan : Preparatory plan) : sentIn c = 0 := by
  induction h with
  | done | stop => rfl
  | fail _ fails =>
    rw [sentIn_exchange fails.1, if_neg (List.forall_mem_cons.mp hplan).1.2]
    rfl
  | next gives _ ih =>
    obtain ⟨hmethod, hplan⟩ := List.forall_mem_cons.mp hplan
    rw [sentIn_exchange gives.1, if_neg hmethod.2, ih hplan]

end Follows

namespace Rpc.Node.Polls

variable {n : Node} {hash : Value} {left : Nat} {c : List Act} {out : Except Fault Value}
  {blame : Fault → Prop}

theorem each (h : Polls n hash left c out) (hblame : ∀ fault, out = .error fault → blame fault) :
    EachWithRest (LeadsTo blame) c := by
  induction h with
  | unasked => exact .nil
  | failed _ fails => exact .exchange (.of_fails fails (hblame _ rfl)) .nil
  | settled _ gives => exact .exchange (.of_poll gives (absurd rfl)) .nil
  | last gives => exact .exchange (.of_poll gives (absurd rfl)) .nil
  | again gives undecided _ ih =>
    exact .exchange (.of_poll gives fun _ => undecided) (.skip nofun (ih hblame))

theorem sentIn_eq (h : Polls n hash left c out) : sentIn c = 0 := by
  refine List.countP_eq_zero.mpr fun e he => ?_
  rw [Exchange.calls_of_method (h.method_eq e he)]
  decide

end Rpc.Node.Polls

namespace Cota

namespace Sends

variable {s : Service} {signed hash : Value} {c : List Act} {out : Except Fault Value}
  {blame : Fault → Prop}

theorem each (h : Sends s signed c out) (hblame : ∀ fault, out = .error fault → blame fault) :
    EachWithRest (LeadsTo blame) c := by
  cases h with
  | unwritten | unasked => exact .nil
  | failed _ fails => exact .exchange (.of_fails fails (hblame _ rfl)) .nil
  | answered _ gives => exact .exchange (.of_gives gives (by decide) _) .nil

theorem leadsTo (h : Sends s signed c (.ok hash)) :
    ∀ e ∈ exchangesOf c, ∀ behind, LeadsTo blame e behind := by
  generalize hout : Except.ok hash = out at h
  cases h with
  | answered _ gives =>
    exact List.forall_mem_cons.mpr ⟨.of_gives gives (by decide), List.forall_mem_nil _⟩
  | _ => cases hout

theorem sentIn_le (h : Sends s signed c out) : sentIn c ≤ 1 := by
  cases h with
  | unwritten | unasked => exact Nat.zero_le _
  | failed _ fails => exact (sentIn_exchange fails.1 []).le
  | answered _ gives => exact (sentIn_exchange gives.1 []).le

end Sends

/-! ## The flows -/

/-- A reply without a result is the end of a flow, which then fails in some stage with the failure of
the reply. -/
structure Aborts (c : List Act) (out : Except Fault Value) : Prop where
  each : EachWithRest
    (LeadsTo fun cause => ∃ stage : Text, out = .error (.stage (.str stage) cause)) c
  sentOnce : sentIn c ≤ 1

namespace Aborts

variable {α : Type} {plan : List Text} {c c' : List Act} {a : α} {cause : Fault}
  {out : Except Fault Value}

theorem nil : Aborts [] out := ⟨.nil, Nat.zero_le _⟩

/-- A stage puts its name in front of a failure. -/
theorem exists_stage (stage : Text) (fault : Fault)
    (hfault : (.error cause : Except Fault α) = .error fault) :
    ∃ name : Text, (.error (.stage (.str stage) cause) : Except Fault Value)
      = .error (.stage (.str name) fault) :=
  ⟨stage, congrArg (fun e => Except.error (Fault.stage (.str stage) e)) (Except.error.inj hfault)⟩

/-- A failure inside a stage. -/
theorem of_follows (h : Follows plan c (.error cause : Except Fault α)) (hplan : Preparatory plan)
    (stage : Text) : Aborts c (.error (.stage (.str stage) cause)) where
  each := h.each hplan (exists_stage stage)
  sentOnce := (h.sentIn_eq hplan).le.trans (Nat.zero_le _)

/-- After a part that ended well. -/
theorem after (h : Follows plan c (.ok a)) (hplan : Preparatory plan) (hc' : Aborts c' out) :
    Aborts (c ++ c') out where
  each := .append (h.leadsTo hplan) hc'.each
  sentOnce := by
    rw [sentIn_append, h.sentIn_eq hplan, Nat.zero_add]
    exact hc'.sentOnce

end Aborts

variable {s : Service} {tx key lock : Value} {fixed waiting : Bool} {c : List Act}
  {out : Except Fault Value}

theorem Finishes.aborts (h : Finishes s tx key lock waiting c out) : Aborts c out := by
  cases h with
  | locked | unsigned | unprinted => exact .nil
  | unsent _ _ _ sends => exact ⟨.skip nofun (sends.each (Aborts.exists_stage _)), sends.sentIn_le⟩
  | sent _ _ sends => exact ⟨.skip nofun (sends.each nofun), sends.sentIn_le⟩
  | unsettled _ _ sends waits =>
    refine ⟨.skip nofun (.append sends.leadsTo (waits.each (Aborts.exists_stage _))), ?_⟩
    exact (sentIn_append ..).trans_le (waits.sentIn_eq ▸ sends.sentIn_le)
  | settled _ _ sends waits =>
    refine ⟨.skip nofun (.append sends.leadsTo (waits.each nofun)), ?_⟩
    exact (sentIn_append ..).trans_le (waits.sentIn_eq ▸ sends.sentIn_le)

theorem Submits.aborts (h : Submits s tx key lock fixed waiting c out) : Aborts c out := by
  have hplan : Preparatory (depPlan fixed) := by cases fixed <;> decide
  cases h with
  | undep follows => exact .of_follows follows hplan _
  | dep follows _ _ finishes => exact .after follows hplan finishes.aborts

theorem Course.aborts {plan : List Text} {config account : Value} (hplan : Preparatory plan)
    (h : Course plan config account fixed waiting c out) : Aborts c out := by
  cases h with
  | unloaded | unread => exact .nil
  | unbuilt follows => exact .of_follows follows hplan _
  | keyless follows =>
    rw [← List.append_nil c]
    exact .after follows hplan .nil
  | built _ follows _ _ submits => exact .after follows hplan submits.aborts

/-! ## Asking for an account -/

/-- The methods that are called for a report on an account. -/
def Account.plan (cotaId tokenIndex : Value) : List Text :=
  (Account.parts cotaId tokenIndex).map (·.2)

variable {network : Network}

theorem Account.preparatory_plan (cotaId tokenIndex : Value) :
    Preparatory (Account.plan cotaId tokenIndex) := by
  unfold Account.plan Account.parts
  split
  · decide
  · split <;> decide

/-- How a report is made: before the first request and behind the last reply there are stages that
can fail without asking. -/
inductive Account.Course (plan : List Text) : List Act → Except Fault Value → Prop
  | unasked {fault : Fault} : Course plan [] (.error fault)
  | failed {c : List Act} {fault : Fault}
      (follows : Follows plan c (.error fault : Except Fault (List (String × Value)))) :
      Course plan c (.error (.stage (.str "query aggregator") fault))
  | asked {c : List Act} {parts : List (String × Value)} {out : Except Fault Value}
      (follows : Follows plan c (.ok parts)) : Course plan c out

theorem queryAccount_course {config address cotaId tokenIndex page pageSize : Value} :
    (queryAccount config address cotaId tokenIndex page pageSize).Ends network
      (Account.Course (Account.plan cotaId tokenIndex)) := by
  refine queryAccount_reports.weaken fun c out h => ?_
  cases h with
  | unloaded | unread => exact .unasked
  | untold gathers => exact .failed gathers.follows
  | shown _ gathers | unshown gathers => exact .asked gathers.follows

theorem Account.Course.aborts {plan : List Text} (hplan : Preparatory plan)
    (h : Account.Course plan c out) : Aborts c out := by
  cases h with
  | unasked => exact .nil
  | failed follows => exact .of_follows follows hplan _
  | asked follows =>
    rw [← List.append_nil c]
    exact .after follows hplan .nil

theorem queryAccount_aborts {config address cotaId tokenIndex page pageSize : Value} :
    (queryAccount config address cotaId tokenIndex page pageSize).Ends network Aborts :=
  queryAccount_course.weaken fun _ _ h => h.aborts (Account.preparatory_plan cotaId tokenIndex)

/-- **The first reply without a result ends a flow.** Replies of some kinds have none, whatever else
is in them. -/
theorem mintNft_transferNft_queryAccount_aborts (network : Network) :
    (∀ method reply fault, Rpc.Refuses method reply fault →
      Rpc.resultOf method reply = .error fault) ∧
    (∀ config account fixed waiting,
      (∀ cotaId withdrawals,
        (mintNft config account cotaId withdrawals fixed waiting).Ends network Aborts) ∧
      ∀ withdrawalAddress transfers,
        (transferNft config account withdrawalAddress transfers fixed waiting).Ends network
          Aborts) ∧
    ∀ config address cotaId tokenIndex page pageSize,
      (queryAccount config address cotaId tokenIndex page pageSize).Ends network Aborts :=
  ⟨fun _ _ _ h => h.resultOf,
    fun _ _ _ _ => ⟨fun _ _ => mintNft_course.weaken fun _ _ h => h.aborts (by decide),
      fun _ _ => transferNft_course.weaken fun _ _ h => h.aborts (by decide)⟩,
    fun _ _ _ _ _ _ => queryAccount_aborts⟩

/-! ## A run -/

def busyReply : Value := .record [
  ("error", .record [("code", .int 7), ("message", .str "busy")]),
  ("result", .record [("objects", .list [])])]

/-- A server that has an error beside each result. -/
def refusingNetwork : Network := fun _ _ =>
  .response 200 Http.jsonType (.ofValue busyReply)

theorem refuses_refusingNetwork (method : Text) (earlier : List RpcRequest) (r : RpcRequest) :
    Rpc.Refuses (.str method) (refusingNetwork earlier r)
      (.rpc (.str method) (.int 7) (.str "busy") .null) := by
  have hcarried : Json.Carried busyReply := by simp [busyReply, Json.carried_record]
  have hread : Http.read (refusingNetwork earlier r) = .ok busyReply := by
    rw [refusingNetwork, Http.Body.ofValue, dif_pos hcarried]
    rfl
  exact .errorObject hread rfl rfl (List.cons_ne_nil _ _) rfl rfl rfl rfl

/-- A mint asks for cells, and that is all. -/
theorem asked_refusingNetwork :
    (sampleMint.exec refusingNetwork {}).2.requests.map (·.method.same (.str "get_cells"))
      = [true] := by
  decide +kernel

/-- It fails with the error. -/
theorem mintNft_aborts_refused : ∃ stage : Text, (sampleMint.exec refusingNetwork {}).1
    = .error (.stage (.str stage) (.rpc (.str "get_cells") (.int 7) (.str "busy") .null)) := by
  obtain ⟨hrefuses, hflows, -⟩ := mintNft_transferNft_queryAccount_aborts refusingNetwork
  have hends : sampleMint.Ends refusingNetwork Aborts :=
    (hflows sampleConfig sampleAccount true false).1 (.str "0x01") (.list [])
  obtain ⟨r, hrequests, hr⟩ := List.map_eq_singleton_iff.mp asked_refusingNetwork
  have hexchanges := exchangesOf_acts refusingNetwork [] (sampleMint.exec refusingNetwork {}).2.trace
  rw [requestsOf_trace, hrequests, exchanges, exchanges] at hexchanges
  obtain ⟨before, behind, hacts⟩ := exists_split (hexchanges ▸ List.mem_singleton_self _)
  have hmethod : r.method = .str "get_cells" := Value.eq_str_of_same hr
  have hresult := hrefuses _ _ _ (refuses_refusingNetwork "get_cells" [] r)
  rw [← hmethod] at hresult
  obtain ⟨-, stage, hstage⟩ := (hends.exec.each before _ behind hacts).last _ hresult
  rw [hmethod] at hstage
  exact ⟨stage, hstage⟩

end Cota
end CellNft
