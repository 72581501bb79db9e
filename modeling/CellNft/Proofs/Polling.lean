/-
CellNft.Proofs.Polling — how waiting for a transaction goes.

A poll is a call and a computation on its result (`Node.poll_eq`): the `verdict`. It fails with
`notCommitted` when the status is not decisive, and only then (`verdict_cases`).

`Polls n hash left c out` says all that a node may be asked while `left` polls are left: one more
poll follows a verdict that is not decisive, five seconds later, and nothing follows any other end of a
poll. `waitForTransaction_ends`: waiting is such a row of at most thirty polls.
-/
import CellNft.Proofs.Backoff

namespace CellNft

open Outcome

namespace Rpc.Node

/-! ## One poll -/

/-- The transaction in a result, and its status. -/
def told (result : Value) : Except Fault (Value × Value) := do
  let tx ← if result.holds then result.camelKeys else .ok .null
  return (tx, ← statusOf tx)

/-- What a poll makes of a result. -/
def verdict (hash result : Value) : Except Fault Value := do
  let (tx, status) ← told result
  if status.same (.str "committed") then return tx
  if status.same (.str "rejected") then
    let reason ← (← tx.item "txStatus").field "reason"
    throw (.naming [hash, reason] (.rejected hash reason))
  throw (.naming [hash, status] (.notCommitted hash status))

/-- The result names a status that decides nothing. -/
def Undecided (result : Value) : Prop :=
  ∃ tx status, told result = .ok (tx, status) ∧ status.same (.str "committed") = false ∧
    status.same (.str "rejected") = false

theorem plain_told (result : Value) : Plain (told result) := by
  unfold told
  split <;> simp

/-- Only what is not decided is to be polled again. -/
theorem verdict_cases {hash result : Value} {fault : Fault}
    (h : verdict hash result = .error fault) :
    fault.isPlain ∨ ∃ status, fault = .notCommitted hash status ∧ Undecided result := by
  rw [verdict] at h
  cases htold : told result with
  | error e =>
    rw [htold] at h
    exact .inl (Except.error.inj h ▸ plain_told result e htold)
  | ok r =>
    obtain ⟨tx, status⟩ := r
    rw [htold, ok_bind] at h
    by_cases hcommitted : status.same (.str "committed") = true
    · simp [hcommitted] at h
    by_cases hrejected : status.same (.str "rejected") = true
    · left
      have hplain : Plain (do
          let reason ← (← tx.item "txStatus").field "reason"
          throw (.naming [hash, reason] (.rejected hash reason)) : Except Fault Value) := by
        simp
      simp only [hcommitted, hrejected] at h
      exact hplain fault h
    · simp only [hcommitted, hrejected] at h
      rw [← Except.error.inj h, Fault.naming]
      split
      · exact .inr ⟨status, rfl, tx, status, htold, by simpa using hcommitted,
          by simpa using hrejected⟩
      · exact .inl rfl

/-- A poll is a call and a computation. -/
theorem poll_eq (n : Node) (hash : Value) :
    n.poll hash = n.client.call "get_transaction" (.list [hash]) >>= fun result =>
      liftM (verdict hash result) := by
  rw [poll, transaction, bind_assoc]
  refine bind_congr fun result => ?_
  simp only [verdict, told, Run.lift_bind, Run.lift_ite, Run.lift_ok, Run.lift_error, pure_eq_ok,
    throw_eq_error, pure_bind]
  split
  · simp only [bind_assoc, pure_bind]
  · rfl

/-! ## A row of polls -/

/-- What the polls for a transaction do, and how they end, when so many are left. -/
inductive Polls (n : Node) (hash : Value) : Nat → List Act → Except Fault Value → Prop
  | unasked (left : Nat) {fault : Fault} (plain : fault.isPlain)
      (unable : ¬n.client.CanAsk (.str "get_transaction") (.list [hash])) :
      Polls n hash (left + 1) [] (.error fault)
  | failed (left : Nat) {e : Exchange} {fault : Fault} (fails : e.Fails "get_transaction" fault) :
      Polls n hash (left + 1) [.exchange e] (.error fault)
  | settled (left : Nat) {e : Exchange} {result : Value} (gives : e.Gives "get_transaction" result)
      (plain : Plain (verdict hash result)) :
      Polls n hash (left + 1) [.exchange e] (verdict hash result)
  | last {e : Exchange} {result status : Value} (gives : e.Gives "get_transaction" result)
      (undecided : verdict hash result = .error (.notCommitted hash status)) :
      Polls n hash 1 [.exchange e] (.error (.notCommitted hash status))
  | again {left : Nat} {e : Exchange} {result : Value} {c : List Act} {out : Except Fault Value}
      (gives : e.Gives "get_transaction" result) (undecided : Undecided result)
      (rest : Polls n hash left c out) :
      Polls n hash (left + 1) (.exchange e :: .pause (.int 5) :: c) out

variable {network : Network}

/-- A poll is the last one, however many are left, or its verdict is not decisive. -/
theorem poll_ends (n : Node) (hash : Value) :
    (n.poll hash).Ends network fun c out =>
      (Plain out ∧ ∀ left, Polls n hash (left + 1) c out) ∨
      ∃ e result status, e.Gives "get_transaction" result ∧ Undecided result ∧
        c = [.exchange e] ∧ out = .error (.notCommitted hash status) ∧
        verdict hash result = .error (.notCommitted hash status) := by
  rw [poll_eq]
  refine Run.Ends.call
    (fun fault h unable => .inl ⟨plain_error.mpr h, fun left => .unasked left h unable⟩)
    (fun e fault h _ => .inl ⟨plain_error.mpr h.isPlain, fun left => .failed left h⟩)
    fun e result h _ => Run.Ends.lift ?_
  by_cases hplain : Plain (verdict hash result)
  · exact .inl ⟨hplain, fun left => .settled left h hplain⟩
  · simp only [Plain, not_forall] at hplain
    obtain ⟨fault, hfault, hnot⟩ := hplain
    rcases verdict_cases hfault with hyes | ⟨status, rfl, hundecided⟩
    · exact absurd hyes hnot
    · exact .inr ⟨e, result, status, h, hundecided, rfl, hfault, hfault⟩

theorem retries_of_isPlain {fault : Fault} (h : fault.isPlain) :
    pollOptions.retries fault = false := by
  have hne := (fault.kind_of_isPlain h).2
  have hparent : fault.kind.parent ≠ .notCommitted := by cases fault.kind <;> decide
  simp [Retry.Options.retries, pollOptions, Fault.Kind.isA, hne, hparent]

/-- With so many polls left, the tries count down by one, and the delay stays. -/
theorem loop_succ (action : Nat → Run Value) (left attempt : Nat) :
    Retry.loop .cooperative pollOptions pollName action (left + 1) attempt (.int ↑(left + 1))
      (.int 5) = (do
        match ← Run.observe (action attempt) with
        | .ok a => return some a
        | .error f =>
          if !pollOptions.retries f then throw f
          if left = 0 then throw f
          Run.logNaming .warning [.int 5] (Retry.warning f pollName attempt (.int 5))
          Run.sleep .cooperative (.int 5)
          Retry.loop .cooperative pollOptions pollName action left (attempt + 1) (.int left)
            (.int 5)) := by
  have hset : Retry.Backoff.set ⟨5, 1, 0, none⟩ pollOptions = pollOptions := rfl
  have hnext : Retry.Backoff.next ⟨5, 1, 0, none⟩ 5 = 5 := rfl
  have hwarns : pollOptions.warns = true := rfl
  have hlast : (↑(left + 1) : Int) = 1 ↔ left = 0 := by omega
  have hleft : (↑(left + 1) : Int) - 1 = left := by omega
  have hloop := Retry.loop_succ_int .cooperative ⟨5, 1, 0, none⟩ pollOptions pollName action left
    attempt ↑(left + 1) 5
  rw [hset, hnext, hleft] at hloop
  refine hloop.trans (bind_congr fun r => ?_)
  cases r with
  | ok a => rfl
  | error f =>
    simp only [hwarns, hlast, Bool.not_true, Bool.false_eq_true, if_false]
    by_cases hzero : left = 0
    · simp [hzero]
    · simp [hzero]

theorem cooperative_takes_five : Host.cooperative.Takes 5 :=
  Host.cooperative_takes_of_isSome (Integer.exceeds_digit (by decide)) (by decide +kernel)

/-- Tries with so many left are a row of polls. -/
theorem loop_ends (n : Node) (hash : Value) (left attempt : Nat) :
    (Retry.loop .cooperative pollOptions pollName (fun _ => n.poll hash) (left + 1) attempt
      (.int ↑(left + 1)) (.int 5)).Ends network
        fun c out => ∃ r, out = some <$> r ∧ Polls n hash (left + 1) c r := by
  induction left using Nat.strongRecOn generalizing attempt with
  | ind left ih =>
    rw [loop_succ]
    refine (poll_ends n hash).observe.bind ?_ (by rintro _ _ ⟨_, ⟨⟩, -⟩)
    rintro c r ⟨_, hr, hpoll⟩
    obtain rfl := Except.ok.inj hr
    -- Any end of a poll but the undecided one is that of the row.
    rcases hpoll with ⟨hplain, hpolls⟩ |
      ⟨e, result, status, hgives, hundecided, rfl, rfl, hverdict⟩
    · rcases r with fault | tx
      · have hfinal := retries_of_isPlain (hplain fault rfl)
        simp only [hfinal, Bool.not_false, if_true]
        exact Run.Ends.fail ⟨.error fault, rfl, by simpa using hpolls left⟩
      · exact Run.Ends.pure ⟨.ok tx, rfl, by simpa using hpolls left⟩
    · have hretries : pollOptions.retries (.notCommitted hash status) = true := rfl
      simp only [hretries, Bool.not_true, Bool.false_eq_true, if_false]
      cases left with
      | zero => exact Run.Ends.fail ⟨_, rfl, .last hgives hverdict⟩
      | succ left =>
        have hnamed : ∀ v ∈ [Value.int 5], Json.Carried v :=
          List.forall_mem_singleton.mpr (Json.carried_int.mpr cooperative_takes_five.named)
        refine Run.Ends.logCarried hnamed (Run.Ends.sleep cooperative_takes_five.accepted
          ((ih left (Nat.lt_succ_self left) _).weaken ?_))
        rintro c _ ⟨r, rfl, hpolls⟩
        exact ⟨r, rfl, .again hgives hundecided hpolls⟩

/-- **Waiting is a row of at most thirty polls.** -/
theorem waitForTransaction_ends (n : Node) (hash : Value) :
    (n.waitForTransaction hash).Ends network (Polls n hash polls) := by
  refine (loop_ends n hash 29 1).bind ?_ ?_
  · rintro c _ ⟨r, hr, hpolls⟩
    obtain ⟨tx, rfl, rfl⟩ := map_eq_ok.mp hr.symm
    exact Run.Ends.pure (by rwa [List.append_nil])
  · rintro c fault ⟨r, hr, hpolls⟩
    cases r with
    | ok tx => cases hr
    | error e => exact Except.error.inj hr ▸ hpolls

/-! ## What a row of polls comes to -/

namespace Polls

variable {n : Node} {hash : Value} {left : Nat} {c : List Act} {out : Except Fault Value}

/-- What ends it is not taken for the failure of a stage. -/
theorem kind_ne_stage (h : Polls n hash left c out) {fault : Fault} (hout : out = .error fault) :
    fault.kind ≠ .stage := by
  have ofPlain : fault.isPlain → fault.kind ≠ .stage := fun h => (Fault.kind_of_isPlain h).1
  induction h with
  | unasked _ plain => exact ofPlain (Except.error.inj hout ▸ plain)
  | failed _ fails => exact ofPlain (Except.error.inj hout ▸ fails.isPlain)
  | settled _ _ plain => exact ofPlain (plain _ hout)
  | last =>
    obtain rfl := Except.error.inj hout
    simp [Fault.kind]
  | again _ _ _ ih => exact ih hout

/-- There is at least one poll, and there are no more than are left. -/
theorem exists_calls (h : Polls n hash left c out)
    (asks : n.client.CanAsk (.str "get_transaction") (.list [hash])) :
    ∃ k, 1 ≤ k ∧ k ≤ left ∧ Calls c (List.replicate k "get_transaction") := by
  induction h with
  | unasked _ _ unable => exact absurd asks unable
  | failed left fails => exact ⟨1, Nat.le_refl _, by omega, Calls.nil.cons fails.1⟩
  | settled left gives => exact ⟨1, Nat.le_refl _, by omega, Calls.nil.cons gives.1⟩
  | last gives => exact ⟨1, Nat.le_refl _, Nat.le_refl _, Calls.nil.cons gives.1⟩
  | again gives _ _ ih =>
    obtain ⟨k, hk, hleft, hcalls⟩ := ih
    exact ⟨k + 1, by omega, by omega, ((calls_pause ..).mpr hcalls).cons gives.1⟩

theorem printsOf_eq_nil (h : Polls n hash left c out) : printsOf c = [] := by
  induction h with
  | again _ _ _ ih => simpa using ih
  | _ => rfl

/-- Nothing is asked but the status. -/
theorem method_eq (h : Polls n hash left c out) :
    ∀ e ∈ exchangesOf c, e.request.method = .str "get_transaction" := by
  induction h with
  | unasked => nofun
  | failed _ fails => exact List.forall_mem_singleton.mpr fails.1
  | settled _ gives => exact List.forall_mem_singleton.mpr gives.1
  | last gives => exact List.forall_mem_singleton.mpr gives.1
  | again gives _ _ ih => exact List.forall_mem_cons.mpr ⟨gives.1, ih⟩

end Polls

end Rpc.Node
end CellNft
