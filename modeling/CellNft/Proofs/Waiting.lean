/-
CellNft.Proofs.Waiting — when waiting for a transaction ends, and how.

`Tells result tx status` is how a reply is read: it has no transaction, or it is an object, and then
the status is the one in its `txStatus`, if there is one. Two statuses are `Decisive`.

`Waits hash tx status count c out` says what at most `count` polls come to if call number `i` tells
the status `status i`. The first decisive status ends them, and without one the last status is in
the failure. `Polls.waits`: a row of polls comes to this, by induction on the row.
-/
import CellNft.Proofs.Polling

namespace CellNft

open Outcome

theorem Value.same_str_iff {v : Value} {t : Text} : v.same (.str t) = true ↔ v = .str t := by
  cases v with
  | scalar s => rw [Value.same, Scalar.same_str, decide_eq_true_eq, Value.scalar.injEq]
  | _ => simp [Value.same]

/-- Every exchange is a request with the reply that the network has behind so many requests. -/
theorem exists_of_getElem?_exchanges {network : Network} {earlier requests : List RpcRequest}
    {i : Nat} {e : Exchange} (h : (exchanges network earlier requests)[i]? = some e) :
    ∃ before, before.length = earlier.length + i ∧ e.reply = network before e.request := by
  induction requests generalizing earlier i with
  | nil => cases h
  | cons r requests ih =>
    cases i with
    | zero =>
      obtain rfl := Option.some.inj h
      exact ⟨earlier, rfl, rfl⟩
    | succ i =>
      obtain ⟨before, hlength, hreply⟩ := ih h
      exact ⟨before, by rw [hlength, List.length_append, List.length_singleton]; omega, hreply⟩

/-- A call has one result. -/
theorem Exchange.Gives.unique {e : Exchange} {method : Text} {v w : Value} (hv : e.Gives method v)
    (hw : e.Gives method w) : v = w := Except.ok.inj (hv.2.symm.trans hw.2)

namespace Rpc.Node

/-! ## What a reply says -/

/-- How a reply is read: a transaction, or null, and its status, or null. -/
inductive Tells (result : Value) : (tx status : Value) → Prop
  | nothing (missing : result.holds = false) : Tells result .null .null
  | statusless {d : Dict} (there : result.holds = true) (camel : result.camelKeys = .ok (.dict d))
      (absent : d.find? (.str "txStatus") = none) : Tells result (.dict d) .null
  | status {d told : Dict} (there : result.holds = true)
      (camel : result.camelKeys = .ok (.dict d))
      (found : d.find? (.str "txStatus") = some (.dict told)) :
      Tells result (.dict d) ((told.find? (.str "status")).getD .null)

/-- The statuses that are waited for. -/
def Decisive (status : Value) : Prop := status = .str "committed" ∨ status = .str "rejected"

/-- What a decisive status makes of waiting: the transaction, or a failure that is final. -/
inductive Settles (hash tx : Value) : (status : Value) → Except Fault Value → Prop
  | committed : Settles hash tx (.str "committed") (.ok tx)
  | rejected {fault : Fault} (reason : Value) (kind : fault.kind = .cota)
      (message : fault.message
        = "Transaction Rejected[" ++ hash.display ++ "][" ++ reason.display ++ "]") :
      Settles hash tx (.str "rejected") (.error fault)

section

variable {hash result tx status : Value} {d : Dict}

theorem orElse_dict (d : Dict) : (Value.dict d).orElse (.dict []) = .dict d := by
  cases d with
  | nil => rfl
  | cons => rfl

theorem statusOf_absent (absent : d.find? (.str "txStatus") = none) :
    statusOf (.dict d) = .ok .null := by
  rw [statusOf, orElse_dict, Value.fieldOr, absent]
  rfl

theorem statusOf_found {told : Dict} (found : d.find? (.str "txStatus") = some (.dict told)) :
    statusOf (.dict d) = .ok ((told.find? (.str "status")).getD .null) := by
  rw [statusOf, orElse_dict, Value.fieldOr, found]
  rfl

theorem Tells.told_eq (h : Tells result tx status) : told result = .ok (tx, status) := by
  cases h with
  | nothing missing =>
    rw [told, missing]
    rfl
  | statusless there camel absent =>
    rw [told, there, if_pos rfl, camel, ok_bind]
    simp only [statusOf_absent absent, ok_bind, pure_eq_ok]
  | status there camel found =>
    rw [told, there, if_pos rfl, camel, ok_bind]
    simp only [statusOf_found found, ok_bind, pure_eq_ok]

/-- A status other than null is in an object, which is asked for the reason. -/
theorem Tells.exists_reason (h : Tells result tx (.str "rejected")) :
    ∃ txStatus reason,
      tx.item "txStatus" = .ok txStatus ∧ txStatus.field "reason" = .ok reason := by
  generalize hstatus : Value.str "rejected" = status at h
  cases h with
  | nothing => cases hstatus
  | statusless => cases hstatus
  | @status d told _ _ found =>
    exact ⟨.dict told, (told.find? (.str "reason")).getD .null, by rw [Value.item, found], rfl⟩

/-- What is read of a reply can be named in a failure. -/
theorem Tells.carried (h : Tells result tx status) (hresult : Json.Carried result) :
    Json.Carried tx ∧ Json.Carried status := by
  cases h with
  | nothing => exact ⟨Json.carried_null, Json.carried_null⟩
  | statusless _ camel => exact ⟨hresult.camelKeys camel, Json.carried_null⟩
  | @status d told _ camel found =>
    have htold : Json.Carried (.dict told) := (hresult.camelKeys camel).find? found
    exact ⟨hresult.camelKeys camel, htold.field rfl⟩

theorem Tells.verdict_settles (h : Tells result tx status) (hhash : Json.Carried hash)
    (hresult : Json.Carried result) (decisive : Decisive status) :
    Settles hash tx status (verdict hash result) := by
  rcases decisive with rfl | rfl
  · rw [verdict, h.told_eq, ok_bind]
    exact .committed
  · obtain ⟨txStatus, reason, hitem, hreason⟩ := h.exists_reason
    have hnamed : ∀ v ∈ [hash, reason], Json.Carried v := by
      have hcarried := (((h.carried hresult).1.item hitem).field hreason)
      simp [hhash, hcarried]
    have hverdict : verdict hash result = .error (.rejected hash reason) := by
      rw [verdict, h.told_eq, ok_bind]
      simp only [hitem, hreason, ok_bind, Json.Carried.naming hnamed]
      rfl
    rw [hverdict]
    exact .rejected reason rfl rfl

theorem Tells.verdict_undecided (h : Tells result tx status) (hhash : Json.Carried hash)
    (hresult : Json.Carried result) (undecided : ¬Decisive status) :
    verdict hash result = .error (.notCommitted hash status) := by
  have hcommitted : ¬status.same (.str "committed") = true := fun hsame =>
    undecided (.inl (Value.same_str_iff.mp hsame))
  have hrejected : ¬status.same (.str "rejected") = true := fun hsame =>
    undecided (.inr (Value.same_str_iff.mp hsame))
  have hnamed : ∀ v ∈ [hash, status], Json.Carried v := by
    simp [hhash, (h.carried hresult).2]
  rw [verdict, h.told_eq, ok_bind]
  simp only [if_neg hcommitted, if_neg hrejected, Json.Carried.naming hnamed]
  rfl

theorem Settles.eq_ok {out : Except Fault Value} (h : Settles hash tx status out)
    (hstatus : status = .str "committed") : out = .ok tx := by
  cases h with
  | committed => rfl
  | rejected => simp at hstatus

/-- Neither way to be settled is to be polled again. -/
theorem Settles.kind_ne {out : Except Fault Value} (h : Settles hash tx status out) {fault : Fault}
    (hout : out = .error fault) : fault.kind ≠ .notCommitted := by
  cases h with
  | committed => cases hout
  | rejected _ kind =>
    obtain rfl := Except.error.inj hout
    rw [kind]
    decide

/-- The two ways to say that a reply decides nothing. -/
theorem Tells.undecided_iff (h : Tells result tx status) : Undecided result ↔ ¬Decisive status := by
  constructor
  · rintro ⟨tx', status', htold, hcommitted, hrejected⟩ decisive
    obtain ⟨rfl, rfl⟩ := Prod.mk.inj (Except.ok.inj (h.told_eq.symm.trans htold))
    rcases decisive with rfl | rfl
    · cases hcommitted
    · cases hrejected
  · intro undecided
    refine ⟨tx, status, h.told_eq, ?_, ?_⟩
    · exact Bool.eq_false_iff.mpr fun hsame => undecided (.inl (Value.same_str_iff.mp hsame))
    · exact Bool.eq_false_iff.mpr fun hsame => undecided (.inr (Value.same_str_iff.mp hsame))

end

/-! ## What a row of polls comes to -/

/-- So many polls, with five seconds between one and the next. -/
def Row (count : Nat) (c : List Act) : Prop :=
  ∃ es : List Exchange, es.length = count ∧
    (∀ e ∈ es, e.request.method = .str "get_transaction") ∧
    c = (es.map Act.exchange).intersperse (.pause (.int 5))

/-- Call number `i` is answered with `replies i`. -/
def Hears (c : List Act) (replies : Nat → Value) : Prop :=
  ∀ i (e : Exchange), (exchangesOf c)[i]? = some e → e.Gives "get_transaction" (replies i)

/-- What at most `count` polls come to, if call number `i` tells `tx i` and `status i`. -/
structure Waits (hash : Value) (tx status : Nat → Value) (count : Nat) (c : List Act)
    (out : Except Fault Value) : Prop where
  /-- The first decisive status ends them. -/
  decided : ∀ i < count, (∀ k < i, ¬Decisive (status k)) → Decisive (status i) →
    Row (i + 1) c ∧ Settles hash (tx i) (status i) out
  /-- Without one, the last status is that of the failure. -/
  undecided : (∀ i < count, ¬Decisive (status i)) →
    Row count c ∧ out = .error (.notCommitted hash (status (count - 1)))

section

variable {network : Network} {n : Node} {hash : Value} {replies tx status : Nat → Value}
  {count left : Nat} {c : List Act} {out : Except Fault Value} {e : Exchange}

theorem Row.one (h : e.request.method = .str "get_transaction") : Row 1 [.exchange e] :=
  ⟨[e], rfl, List.forall_mem_singleton.mpr h, rfl⟩

theorem Row.again (h : e.request.method = .str "get_transaction") (rest : Row (count + 1) c) :
    Row (count + 2) (.exchange e :: .pause (.int 5) :: c) := by
  obtain ⟨es, hlength, hmethods, rfl⟩ := rest
  cases es with
  | nil => cases hlength
  | cons e' es =>
    refine ⟨e :: e' :: es, by rw [List.length_cons, hlength], ?_, rfl⟩
    exact List.forall_mem_cons.mpr ⟨h, hmethods⟩

theorem Hears.head (h : Hears (.exchange e :: c) replies) :
    e.Gives "get_transaction" (replies 0) := h 0 e rfl

theorem Hears.again {seconds : Scalar} (h : Hears (.exchange e :: .pause seconds :: c) replies) :
    Hears c fun i => replies (i + 1) := fun i e' he' => h (i + 1) e' he'

theorem Polls.waits (h : Polls n hash left c out)
    (asks : n.client.CanAsk (.str "get_transaction") (.list [hash]))
    (htells : ∀ i, Tells (replies i) (tx i) (status i)) (hears : Hears c replies) :
    Waits hash tx status left c out := by
  have hhash : Json.Carried hash := by simpa [Rpc.sentParams] using asks.params
  induction h generalizing replies tx status with
  | unasked _ _ unable => exact absurd asks unable
  | failed _ fails =>
    have hfails := fails.2
    rw [hears.head.2] at hfails
    cases hfails
  | @settled left e result gives plain =>
    obtain rfl := gives.unique hears.head
    have hdecisive : Decisive (status 0) := by
      by_contra hundecided
      rw [(htells 0).verdict_undecided hhash gives.carried hundecided] at plain
      cases plain_error.mp plain
    refine ⟨fun i _ hfirst _ => ?_, fun hnone => absurd hdecisive (hnone 0 (Nat.succ_pos left))⟩
    cases i with
    | zero => exact ⟨.one gives.1, (htells 0).verdict_settles hhash gives.carried hdecisive⟩
    | succ i => exact absurd hdecisive (hfirst 0 (Nat.succ_pos i))
  | @last e result told gives undecided =>
    obtain rfl := gives.unique hears.head
    have hundecided : ¬Decisive (status 0) := fun hdecisive =>
      ((htells 0).verdict_settles hhash gives.carried hdecisive).kind_ne undecided rfl
    refine ⟨fun i hi _ hdecisive => ?_, fun _ => ⟨.one gives.1, ?_⟩⟩
    · obtain rfl : i = 0 := by omega
      exact absurd hdecisive hundecided
    · exact undecided.symm.trans
        ((htells 0).verdict_undecided hhash gives.carried hundecided)
  | @again left e result c out gives undecided rest ih =>
    obtain rfl := gives.unique hears.head
    have hundecided := (htells 0).undecided_iff.mp undecided
    obtain ⟨hdecided, hnone⟩ := ih (fun i => htells (i + 1)) hears.again
    refine ⟨fun i hi hfirst hdecisive => ?_, fun hall => ?_⟩
    · cases i with
      | zero => exact absurd hdecisive hundecided
      | succ i =>
        obtain ⟨hrow, hsettles⟩ := hdecided i (by omega) (fun k hk => hfirst (k + 1) (by omega))
          hdecisive
        exact ⟨hrow.again gives.1, hsettles⟩
    · cases left with
      | zero => cases rest
      | succ left =>
        obtain ⟨hrow, hout⟩ := hnone fun i hi => hall (i + 1) (by omega)
        exact ⟨hrow.again gives.1, hout⟩

/-- **Waiting ends with the first decisive status, or with the thirtieth reply.** -/
theorem waits_thirty (network : Network) (hash : Value)
    (asks : n.client.CanAsk (.str "get_transaction") (.list [hash]))
    (htells : ∀ i, Tells (replies i) (tx i) (status i)) :
    (n.waitForTransaction hash).Ends network fun c out =>
      Hears c replies → Waits hash tx status 30 c out :=
  (waitForTransaction_ends n hash).weaken fun _ _ h hears => h.waits asks htells hears

/-! ## A transaction that is committed late -/

/-- First there is no such transaction, then it is pending, and then it is committed. -/
def lateReplies : Nat → Value
  | 0 => .null
  | 1 => .record [("tx_status", .record [("status", .str "pending")])]
  | _ => .record [("tx_status", .record [("status", .str "committed")])]

def lateTx : Nat → Value
  | 0 => .null
  | 1 => .record [("txStatus", .record [("status", .str "pending")])]
  | _ => .record [("txStatus", .record [("status", .str "committed")])]

def lateStatus : Nat → Value
  | 0 => .null
  | 1 => .str "pending"
  | _ => .str "committed"

def lateNetwork : Network := fun earlier _ => Rpc.answering (lateReplies earlier.length)

def lateNode : Node := ⟨.str "http://localhost:8114", .int 180⟩

def lateWait : Except Fault Value × World :=
  (lateNode.waitForTransaction (.str "0xaa")).exec lateNetwork {}

theorem tells_late : ∀ i, Tells (lateReplies i) (lateTx i) (lateStatus i)
  | 0 => .nothing rfl
  | 1 => @Tells.status _ _ (Dict.ofFields [("status", .str "pending")]) rfl rfl rfl
  | _ + 2 => @Tells.status _ _ (Dict.ofFields [("status", .str "committed")]) rfl rfl rfl

theorem carried_lateReplies : ∀ i, Json.Carried (lateReplies i)
  | 0 | 1 | _ + 2 => by simp [lateReplies, Json.carried_record]

theorem hears_late : Hears (acts lateNetwork [] lateWait.2.trace) lateReplies := by
  have hends : (lateNode.waitForTransaction (.str "0xaa")).Ends lateNetwork _ :=
    waitForTransaction_ends lateNode (.str "0xaa")
  have hpolls := hends.exec
  rw [← lateWait] at hpolls
  intro i e he
  refine ⟨hpolls.method_eq e (List.mem_of_getElem? he), ?_⟩
  rw [exchangesOf_acts] at he
  obtain ⟨before, hlength, hreply⟩ := exists_of_getElem?_exchanges he
  rw [hreply, lateNetwork, hlength, List.length_nil, Nat.zero_add,
    Rpc.resultOf_answering (carried_lateReplies i)]

theorem waits_thirty_late :
    lateNode.client.CanAsk (.str "get_transaction") (.list [.str "0xaa"]) ∧
    (∀ i, Tells (lateReplies i) (lateTx i) (lateStatus i)) ∧
    Hears (acts lateNetwork [] lateWait.2.trace) lateReplies ∧
    Row 3 (acts lateNetwork [] lateWait.2.trace) ∧ lateWait.1 = .ok (lateTx 2) := by
  have asks : lateNode.client.CanAsk (.str "get_transaction") (.list [.str "0xaa"]) :=
    ⟨⟨_, rfl⟩, rfl, by decide⟩
  have hwaits := (waits_thirty lateNetwork (.str "0xaa") asks tells_late).exec
  rw [← lateWait] at hwaits
  have hearly : ∀ k < 2, ¬Decisive (lateStatus k)
    | 0, _ | 1, _ => by simp [Decisive, lateStatus]
  obtain ⟨hrow, hsettles⟩ := (hwaits hears_late).decided 2 (by decide) hearly (.inl rfl)
  exact ⟨asks, tells_late, hears_late, hrow, hsettles.eq_ok rfl⟩

end

end Rpc.Node
end CellNft
