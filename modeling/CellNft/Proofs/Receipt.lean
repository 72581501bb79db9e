/-
CellNft.Proofs.Receipt — what a flow returns of the answer to its transaction.

A transaction is answered at most once, and the course decides what becomes of the answer
(`Receives`). An accepted one is returned as it is. Any other is the end of sending.

`returnsHash_iff`: a run returns a hash and nothing else, and fails in sending for every other
answer, exactly if the answer is not a hash with a line feed behind it. `Hex.isHash32Text_iff` says
that these are all the texts that are accepted.
-/
import CellNft.Proofs.Abort

namespace CellNft

open Outcome

namespace Cota

theorem Submission.isHash_iff {hash : Value} : Submission.isHash hash = true ↔
    ∃ t, Hex.Spelled 64 t ∧ (hash = .str t ∨ hash = .str (t ++ "\n")) := by
  constructor
  · intro h
    unfold isHash at h
    split at h
    · obtain ⟨u, hu, ht⟩ := Hex.isHash32Text_iff.mp h
      exact ⟨u, hu, ht.imp (congrArg Value.str) (congrArg Value.str)⟩
    · cases h
  · rintro ⟨t, ht, rfl | rfl⟩
    · exact Hex.isHash32Text_iff.mpr ⟨t, ht, .inl rfl⟩
    · exact Hex.isHash32Text_iff.mpr ⟨t, ht, .inr rfl⟩

/-! ## What becomes of an answer -/

/-- What the transactions that were handed in were answered. -/
def receipts (c : List Act) : List (Except Fault Value) :=
  resultsOf "send_transaction" (exchangesOf c)

theorem receipts_append (c c' : List Act) : receipts (c ++ c') = receipts c ++ receipts c' := by
  rw [receipts, exchangesOf_append, resultsOf_append]
  rfl

theorem receipts_eq_nil {c : List Act} (h : sentIn c = 0) : receipts c = [] := by
  refine resultsOf_eq_nil (List.length_eq_zero_iff.mp ?_)
  rwa [← List.countP_eq_length_filter]

theorem receipts_exchange {e : Exchange} (h : e.request.method = .str "send_transaction") :
    receipts [.exchange e] = [Rpc.resultOf (.str "send_transaction") e.reply] := by
  have hcalls : e.calls "send_transaction" = true := by
    rw [Exchange.calls_of_method h]
    decide
  rw [receipts, exchangesOf_exchange, exchangesOf_nil, resultsOf, List.filter_cons_of_pos hcalls]
  rfl

/-- What a flow makes of the answers to its transaction. -/
inductive Receives : (waiting : Bool) → List (Except Fault Value) → Except Fault Value → Prop
  | unsent (waiting : Bool) (fault : Fault) : Receives waiting [] (.error fault)
  | refused (waiting : Bool) {answer : Except Fault Value} (cause : Fault)
      (unaccepted : ∀ hash, answer = .ok hash → ¬Submission.isHash hash) :
      Receives waiting [answer] (.error (Stage.sending.fault cause))
  | returned (waiting : Bool) {hash : Value} (accepted : Submission.isHash hash) :
      Receives waiting [.ok hash] (.ok hash)
  | unsettled {hash : Value} (cause : Fault) (accepted : Submission.isHash hash) :
      Receives true [.ok hash] (.error (Stage.waiting.fault cause))

section

variable {s : Service} {signed tx key lock hash : Value} {c c' : List Act} {fault : Fault}
  {out : Except Fault Value} {fixed waiting : Bool}

theorem Sends.receipts_of_ok (h : Sends s signed c (.ok hash)) :
    receipts c = [.ok hash] ∧ Submission.isHash hash := by
  generalize hout : Except.ok hash = out at h
  cases h with
  | answered _ gives =>
    split at hout
    · rename_i hhash
      obtain rfl := Except.ok.inj hout
      exact ⟨by rw [receipts_exchange gives.1, gives.2, if_pos hhash], hhash⟩
    · cases hout
  | _ => cases hout

theorem Sends.receives_of_error (h : Sends s signed c (.error fault)) :
    Receives waiting (receipts c) (.error (Stage.sending.fault fault)) := by
  generalize hout : Except.error fault = out at h
  cases h with
  | unwritten | unasked => exact .unsent _ _
  | failed _ fails =>
    rw [receipts_exchange fails.1, fails.2]
    exact .refused _ _ (by rintro _ ⟨⟩)
  | answered _ gives =>
    split at hout
    · cases hout
    · rename_i hhash
      rw [receipts_exchange gives.1, gives.2]
      exact .refused _ _ fun _ heq => Except.ok.inj heq ▸ hhash

/-- Polling does not change what was answered. -/
theorem Sends.receipts_append_polls {left : Nat} {r : Except Fault Value}
    (h : Sends s signed c (.ok hash)) (waits : Rpc.Node.Polls s.collector.node hash left c' r) :
    receipts (c ++ c') = [.ok hash] := by
  rw [receipts_append, receipts_eq_nil waits.sentIn_eq, List.append_nil, h.receipts_of_ok.1]

theorem Receives.after {before : List Act} (h : Receives waiting (receipts c) out)
    (hsent : sentIn before = 0) : Receives waiting (receipts (before ++ c)) out := by
  rwa [receipts_append, receipts_eq_nil hsent, List.nil_append]

theorem Finishes.receives (h : Finishes s tx key lock waiting c out) :
    Receives waiting (receipts c) out := by
  cases h with
  | locked | unsigned | unprinted => exact .unsent _ _
  | unsent _ _ _ sends => exact sends.receives_of_error
  | sent _ _ sends =>
    obtain ⟨hreceipts, hhash⟩ := sends.receipts_of_ok
    exact hreceipts ▸ .returned _ hhash
  | unsettled _ _ sends waits =>
    exact sends.receipts_append_polls waits ▸ .unsettled _ sends.receipts_of_ok.2
  | settled _ _ sends waits =>
    exact sends.receipts_append_polls waits ▸ .returned _ sends.receipts_of_ok.2

theorem Submits.receives {built : Value} (h : Submits s built key lock fixed waiting c out) :
    Receives waiting (receipts c) out := by
  have hplan : Preparatory (depPlan fixed) := by cases fixed <;> decide
  cases h with
  | undep follows =>
    rw [receipts_eq_nil (follows.sentIn_eq hplan)]
    exact .unsent _ _
  | dep follows _ _ finishes => exact finishes.receives.after (follows.sentIn_eq hplan)

theorem Course.receives {plan : List Text} {config account : Value} (hplan : Preparatory plan)
    (h : Course plan config account fixed waiting c out) : Receives waiting (receipts c) out := by
  cases h with
  | unloaded | unread => exact .unsent _ _
  | unbuilt follows | keyless follows =>
    rw [receipts_eq_nil (follows.sentIn_eq hplan)]
    exact .unsent _ _
  | built _ follows _ _ submits => exact submits.receives.after (follows.sentIn_eq hplan)

end

/-! ## What is returned -/

/-- What is returned is a hash and nothing else, and every answer that is none ends sending. -/
def ReturnsHash (answers : List (Except Fault Value)) (out : Except Fault Value) : Prop :=
  (∀ hash, out = .ok hash → ∃ t, hash = .str t ∧ Hex.Spelled 64 t) ∧
  ∀ answer ∈ answers, (∃ t, answer = .ok (.str t) ∧ Hex.Spelled 64 t) ∨
    ∃ cause, out = .error (Stage.sending.fault cause)

/-- A hash with a line feed behind it is among the answers. -/
def LineFed (answers : List (Except Fault Value)) : Prop :=
  ∃ t, Hex.Spelled 64 t ∧ .ok (.str (t ++ "\n")) ∈ answers

theorem lineFed_singleton {answer : Except Fault Value} :
    LineFed [answer] ↔ ∃ t, Hex.Spelled 64 t ∧ answer = .ok (.str (t ++ "\n")) := by
  simp only [LineFed, List.mem_singleton, eq_comm]

/-- An accepted answer is a hash, or one with a line feed. -/
theorem spelled_iff_of_isHash {hash : Value} (h : Submission.isHash hash) :
    (∃ t, hash = .str t ∧ Hex.Spelled 64 t) ↔ ¬LineFed [.ok hash] := by
  rw [lineFed_singleton]
  obtain ⟨t, ht, rfl | rfl⟩ := Submission.isHash_iff.mp h
  · refine iff_of_true ⟨t, rfl, ht⟩ ?_
    rintro ⟨u, hu, heq⟩
    exact ht.ne_line hu (Scalar.str.inj (Value.scalar.inj (Except.ok.inj heq)))
  · refine iff_of_false ?_ (not_not_intro ⟨t, ht, rfl⟩)
    rintro ⟨u, heq, hu⟩
    exact hu.ne_line ht (Scalar.str.inj (Value.scalar.inj heq)).symm

theorem Receives.returnsHash {waiting : Bool} {answers : List (Except Fault Value)}
    {out : Except Fault Value} (h : Receives waiting answers out) :
    ReturnsHash answers out ↔ ¬LineFed answers := by
  cases h with
  | unsent =>
    refine iff_of_true ⟨by rintro _ ⟨⟩, List.forall_mem_nil _⟩ ?_
    rintro ⟨_, -, hmem⟩
    exact List.not_mem_nil hmem
  | refused _ cause unaccepted =>
    refine iff_of_true ⟨by rintro _ ⟨⟩, List.forall_mem_singleton.mpr (.inr ⟨_, rfl⟩)⟩ ?_
    rw [lineFed_singleton]
    rintro ⟨t, ht, rfl⟩
    exact unaccepted _ rfl (Submission.isHash_iff.mpr ⟨t, ht, .inr rfl⟩)
  | returned _ accepted =>
    rw [← spelled_iff_of_isHash accepted, ReturnsHash, List.forall_mem_singleton]
    refine ⟨fun h => h.1 _ rfl, fun h => ⟨fun _ heq => Except.ok.inj heq ▸ h, .inl ?_⟩⟩
    obtain ⟨t, rfl, ht⟩ := h
    exact ⟨t, rfl, ht⟩
  | unsettled cause accepted =>
    rw [← spelled_iff_of_isHash accepted, ReturnsHash, List.forall_mem_singleton]
    constructor
    · rintro ⟨-, ⟨t, heq, ht⟩ | ⟨_, hcause⟩⟩
      · exact ⟨t, Except.ok.inj heq, ht⟩
      · have hname := (Fault.stage.inj (Except.error.inj hcause)).1
        exact absurd (Scalar.str.inj (Value.scalar.inj hname)) (by decide)
    · rintro ⟨t, rfl, ht⟩
      exact ⟨by rintro _ ⟨⟩, .inl ⟨t, rfl, ht⟩⟩

/-- **What is returned is the answer, and it is a hash unless a line feed stands behind it.** -/
theorem returnsHash_iff (network : Network) (config account : Value) (fixed waiting : Bool) :
    (∀ cotaId withdrawals,
      (mintNft config account cotaId withdrawals fixed waiting).Ends network fun c out =>
        Receives waiting (receipts c) out ∧
          (ReturnsHash (receipts c) out ↔ ¬LineFed (receipts c))) ∧
    ∀ withdrawalAddress transfers,
      (transferNft config account withdrawalAddress transfers fixed waiting).Ends network
        fun c out => Receives waiting (receipts c) out ∧
          (ReturnsHash (receipts c) out ↔ ¬LineFed (receipts c)) := by
  have hcourse : ∀ {plan : List Text}, Preparatory plan → ∀ c out,
      Course plan config account fixed waiting c out →
        Receives waiting (receipts c) out ∧
          (ReturnsHash (receipts c) out ↔ ¬LineFed (receipts c)) :=
    fun hplan _ _ h => ⟨h.receives hplan, (h.receives hplan).returnsHash⟩
  exact ⟨fun _ _ => mintNft_course.weaken (hcourse (by decide)),
    fun _ _ => transferNft_course.weaken (hcourse (by decide))⟩

/-! ## A run -/

/-- A hash with a line feed behind it. -/
def lineFedHash : Text := Hex.encode (List.replicate 32 0xaa) ++ "\n"

/-- The servers of `oneCell`, with such an answer to transactions. -/
def lineFedNetwork : Network := fun _ r =>
  Rpc.answering (if r.method.same (.str "send_transaction") then .str lineFedHash
    else oneCell plainOutput r.method)

theorem returned_lineFedNetwork :
    (sampleMint.exec lineFedNetwork {}).1.toOption.any (·.same (.str lineFedHash)) = true := by
  decide +kernel

/-- A mint that returns more than a hash. -/
theorem not_returnsHash_lineFed :
    ¬sampleMint.Ends lineFedNetwork fun c out => ReturnsHash (receipts c) out := by
  intro hall
  have hreturned := returned_lineFedNetwork
  have hends := hall.exec.1
  cases hout : (sampleMint.exec lineFedNetwork {}).1 with
  | error fault =>
    rw [hout] at hreturned
    cases hreturned
  | ok hash =>
    rw [hout] at hreturned hends
    obtain rfl := Value.eq_str_of_same hreturned
    obtain ⟨t, heq, ht⟩ := hends _ rfl
    obtain rfl := Scalar.str.inj (Value.scalar.inj heq)
    exact absurd ht.length_chars (by decide)

end Cota
end CellNft
