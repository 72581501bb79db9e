/-
CellNft.Proofs.Report — how asking for an account ends.

A report has a part for every request (`Account.parts`), which is the answer to it with keys in
camel case. All requests are made in a stage. Behind it the totals of what is held and what is
withdrawn are looked up for a line of the log, and that is in no stage.

* `Asks` says how one request goes and `Gathers` how all of them go. `ask_collects` is the one step.
* `Reports` are the ways in which the whole can end.

`queryAccount_closed_iff`: a report is answered or a stage fails, exactly if what is held and what
is withdrawn are dictionaries when everything was answered.
-/
import CellNft.Proofs.Courses

namespace CellNft

open Outcome

namespace Value

def IsDict (v : Value) : Prop := ∃ d, v = .dict d

/-- Converting keys makes a dictionary of a dictionary, and of nothing else. -/
theorem isDict_camelKeys {v w : Value} (h : v.camelKeys = .ok w) : w.IsDict ↔ v.IsDict := by
  cases v with
  | scalar | pair | set =>
    obtain rfl := Except.ok.inj h
    exact Iff.rfl
  | list items =>
    obtain ⟨items', -, h⟩ := bind_eq_ok.mp h
    obtain rfl := Except.ok.inj h
    simp [IsDict]
  | dict d =>
    obtain ⟨pairs, -, h⟩ := bind_eq_ok.mp h
    obtain rfl := Except.ok.inj h
    simp [IsDict]

/-- Only dictionaries have fields. -/
theorem field_cases (v : Value) (key : String) :
    (v.IsDict ∧ ∃ w, v.field key = .ok w) ∨ ¬v.IsDict ∧ v.field key = .error .noSuchMethod := by
  cases v with
  | dict d => exact .inl ⟨⟨d, rfl⟩, _, rfl⟩
  | _ => exact .inr ⟨by simp [IsDict], rfl⟩

end Value

namespace Cota

variable {network : Network}

/-! ## One part -/

/-- How asking the aggregator goes. -/
inductive Asks (method : Text) : List Act → Except Fault Value → Prop
  | unasked {fault : Fault} (plain : fault.isPlain) : Asks method [] (.error fault)
  | failed {e : Exchange} {fault : Fault} (fails : e.Fails method fault) :
      Asks method [.exchange e] (.error fault)
  | answered {e : Exchange} {v : Value} (gives : e.Gives method v) :
      Asks method [.exchange e] v.camelKeys

theorem ask_ends {c : Rpc.Client} {method : Text} {params : Value} :
    (Aggregator.ask c method params).Ends network (Asks method) := by
  refine Run.Ends.compute (fun sent _ => ?_) fun fault h => .unasked (Value.plain_snakeKeys _ _ h)
  refine Run.Ends.call (fun _ h _ => .unasked h)
    (fun e fault h _ => .failed h) fun e v h _ => ?_
  exact Run.Ends.lift (.answered h)

/-- An exchange whose reply has a result that can be converted. -/
def Converts (e : Exchange) : Prop :=
  ∃ v w, Rpc.resultOf e.request.method e.reply = .ok v ∧ v.camelKeys = .ok w

namespace Asks

variable {method : Text} {c : List Act} {w : Value} {fault : Fault}

theorem of_ok (h : Asks method c (.ok w)) :
    ∃ e v, c = [.exchange e] ∧ e.Gives method v ∧ v.camelKeys = .ok w := by
  generalize hout : Except.ok w = out at h
  cases h with
  | answered gives => exact ⟨_, _, rfl, gives, rfl⟩
  | _ => cases hout

theorem follows {out : Except Fault Value} (h : Asks method c out) : Follows [method] c out := by
  cases h with
  | unasked plain => exact .stop _ plain
  | failed fails => exact .fail _ fails
  | @answered e v gives =>
    refine .next gives ?_
    cases hw : v.camelKeys with
    | ok w => exact .done w
    | error fault => exact .stop _ (Value.plain_camelKeys v fault hw)

/-- What fails was not asked for, or the reply is to blame. -/
theorem of_error (h : Asks method c (.error fault)) :
    c = [] ∨ ∃ e, c = [.exchange e] ∧ ¬Converts e := by
  generalize hout : (.error fault : Except Fault Value) = out at h
  cases h with
  | unasked => exact .inl rfl
  | failed fails =>
    refine .inr ⟨_, rfl, ?_⟩
    rintro ⟨v, _, hv, -⟩
    rw [fails.1, fails.2] at hv
    cases hv
  | answered gives =>
    refine .inr ⟨_, rfl, ?_⟩
    rintro ⟨v, w, hv, hw⟩
    rw [gives.1, gives.2] at hv
    rw [Except.ok.inj hv, hw] at hout
    cases hout

end Asks

/-! ## All parts -/

namespace Account

/-- The parts of a report behind the address and the lock hash, with the methods that are called for
them. -/
def parts (cotaId tokenIndex : Value) : List (String × Text) :=
  ("aggregator", "get_aggregator_info") :: ("registered", "check_registered_lock_hashes") ::
    ("hold", "get_hold_cota_nft") :: ("withdrawal", "get_withdrawal_cota_nft") ::
    ("mint", "get_mint_cota_nft") :: ("issuer", "get_issuer_info") ::
    if !cotaId.holds then [] else ("define", "get_define_info") ::
      if !tokenIndex.holds then []
      else [("claimed", "is_claimed"), ("sender", "get_cota_nft_sender")]

/-- How asking for parts goes: in order, and not beyond a failure. -/
inductive Gathers : List (String × Text) → List Act → Except Fault (List (String × Value)) → Prop
  | done : Gathers [] [] (.ok [])
  | failed {key : String} {method : Text} {parts : List (String × Text)} {c : List Act}
      {fault : Fault} (asks : Asks method c (.error fault)) :
      Gathers ((key, method) :: parts) c (.error fault)
  | told {key : String} {method : Text} {parts : List (String × Text)} {c c' : List Act} {w : Value}
      {out : Except Fault (List (String × Value))} (asks : Asks method c (.ok w))
      (rest : Gathers parts c' out) :
      Gathers ((key, method) :: parts) (c ++ c') (((key, w) :: ·) <$> out)

/-- Puts the parts behind those that are there. -/
def Collects (network : Network) (before : List (String × Value)) (parts : List (String × Text))
    (x : Run (List (String × Value))) : Prop :=
  x.Ends network fun c out => ∃ r, out = (before ++ ·) <$> r ∧ Gathers parts c r

variable {before : List (String × Value)} {parts : List (String × Text)} {key : String}
  {method : Text} {c : List Act} {values : List (String × Value)} {fault : Fault}

theorem pure_collects (before : List (String × Value)) :
    Collects network before [] (pure before) :=
  Run.Ends.pure ⟨.ok [], by rw [map_ok, List.append_nil], .done⟩

/-- Past a request. -/
theorem ask_collects {client : Rpc.Client} {params : Value}
    {f : Value → Run (List (String × Value))}
    (h : ∀ w, Collects network (before ++ [(key, w)]) parts (f w)) :
    Collects network before ((key, method) :: parts)
      (Aggregator.ask client method params >>= f) := by
  refine ask_ends.bind (fun c w hasks => (h w).weaken ?_) fun c fault hasks =>
    ⟨.error fault, rfl, .failed hasks⟩
  rintro c' out ⟨r, rfl, hrest⟩
  refine ⟨((key, w) :: ·) <$> r, ?_, .told hasks hrest⟩
  cases r with
  | error => rfl
  | ok values => simp only [map_ok, List.append_assoc, List.singleton_append]

theorem ask_gathers {a : Aggregator} {lockScript lockHash : String}
    {cotaId tokenIndex page pageSize : Value} :
    (ask a lockScript lockHash cotaId tokenIndex page pageSize).Ends network
      (Gathers (Account.parts cotaId tokenIndex)) := by
  have hall : Collects network [] (Account.parts cotaId tokenIndex)
      (ask a lockScript lockHash cotaId tokenIndex page pageSize) := by
    refine ask_collects fun info => ask_collects fun registered => ask_collects fun held =>
      ask_collects fun withdrawn => ask_collects fun minted => ask_collects fun issuer => ?_
    simp only
    split
    · exact pure_collects _
    · refine ask_collects fun define => ?_
      split
      · exact pure_collects _
      · exact ask_collects fun claimed => ask_collects fun sender => pure_collects _
  refine hall.weaken ?_
  rintro c _ ⟨r, rfl, h⟩
  cases r <;> exact h

namespace Gathers

theorem follows {out : Except Fault (List (String × Value))} (h : Gathers parts c out) :
    Follows (parts.map (·.2)) c out := by
  induction h with
  | done => exact .done []
  | failed asks => exact asks.follows.widen _
  | told asks _ ih => exact asks.follows.append (ih.map _)

theorem of_cons (h : Gathers ((key, method) :: parts) c (.ok values)) :
    ∃ e v w c' values', c = .exchange e :: c' ∧ values = (key, w) :: values' ∧ e.Gives method v ∧
      v.camelKeys = .ok w ∧ Gathers parts c' (.ok values') := by
  generalize hout : Except.ok values = out at h
  cases h with
  | failed => cases hout
  | told asks rest =>
    obtain ⟨e, v, rfl, gives, hw⟩ := asks.of_ok
    obtain ⟨values', rfl, hvalues⟩ := map_eq_ok.mp hout.symm
    exact ⟨e, v, _, _, values', rfl, hvalues.symm, gives, hw, rest⟩

theorem keys (h : Gathers parts c (.ok values)) : values.map (·.1) = parts.map (·.1) := by
  induction parts generalizing c values with
  | nil =>
    cases h
    rfl
  | cons part parts ih =>
    obtain ⟨e, v, w, c', values', rfl, rfl, -, -, rest⟩ := h.of_cons
    rw [List.map_cons, List.map_cons, ih rest]

/-- Methods of other parts were not called. -/
theorem resultsOf_eq_nil (h : Gathers parts c (.ok values)) (other : method ∉ parts.map (·.2)) :
    resultsOf method (exchangesOf c) = [] := by
  induction parts generalizing c values with
  | nil =>
    cases h
    rfl
  | cons part parts ih =>
    obtain ⟨e, v, w, c', values', rfl, -, gives, -, rest⟩ := h.of_cons
    rw [List.map_cons, List.mem_cons, not_or] at other
    rw [exchangesOf_exchange, resultsOf_cons gives, if_neg (Ne.symm other.1), ih rest other.2]

/-- A part is the one answer to its method, converted. -/
theorem exists_result (h : Gathers parts c (.ok values)) (nodup : (parts.map (·.2)).Nodup)
    (hpart : (key, method) ∈ parts) : ∃ v w, resultsOf method (exchangesOf c) = [.ok v] ∧
      v.camelKeys = .ok w ∧ Json.Carried w ∧ (key, w) ∈ values := by
  induction parts generalizing c values with
  | nil => cases hpart
  | cons part parts ih =>
    obtain ⟨e, v, w, c', values', rfl, rfl, gives, hw, rest⟩ := h.of_cons
    obtain ⟨hnew, hrest⟩ := List.nodup_cons.mp nodup
    rw [exchangesOf_exchange, resultsOf_cons gives]
    rcases List.mem_cons.mp hpart with rfl | hpart
    · exact ⟨v, w, by rw [if_pos rfl, rest.resultsOf_eq_nil hnew], hw, gives.carried.camelKeys hw,
        List.mem_cons_self⟩
    · obtain ⟨v', w', hresults, hw', hcarried, hmem⟩ := ih rest hrest hpart
      have hne : part.2 ≠ method := fun heq =>
        hnew (List.mem_map.mpr ⟨_, hpart, heq.symm⟩)
      exact ⟨v', w', by rw [if_neg hne, hresults], hw', hcarried, List.mem_cons_of_mem _ hmem⟩

end Gathers

/-- All parts were asked for, and each was answered with something that can be converted. -/
def Answered (parts : List (String × Text)) (c : List Act) : Prop :=
  Calls c (parts.map (·.2)) ∧ ∀ e ∈ exchangesOf c, Converts e

theorem Gathers.converts (h : Gathers parts c (.ok values)) : ∀ e ∈ exchangesOf c, Converts e := by
  induction parts generalizing c values with
  | nil =>
    cases h
    exact List.forall_mem_nil _
  | cons part parts ih =>
    obtain ⟨e, v, w, c', values', rfl, -, gives, hw, rest⟩ := h.of_cons
    exact List.forall_mem_cons.mpr ⟨⟨v, w, by rw [gives.1, gives.2], hw⟩, ih rest⟩

theorem Gathers.answered (h : Gathers parts c (.ok values)) : Answered parts c :=
  ⟨h.follows.calls, h.converts⟩

theorem Gathers.not_answered (h : Gathers parts c (.error fault)) : ¬Answered parts c := by
  generalize hout : Except.error fault = out at h
  rintro ⟨hcalls, hconvert⟩
  induction h with
  | done => cases hout
  | failed asks =>
    obtain rfl := Except.error.inj hout
    obtain rfl | ⟨e, rfl, hnot⟩ := asks.of_error
    · cases hcalls
    · exact hnot (hconvert e List.mem_cons_self)
  | @told _ _ _ _ c' _ out asks _ ih =>
    obtain ⟨e, v, rfl, -, -⟩ := asks.of_ok
    have hrest : Calls c' _ := (List.cons.inj hcalls).2
    cases out with
    | error => exact ih hout hrest fun e' he' => hconvert e' (List.mem_cons_of_mem _ he')
    | ok => cases hout

/-! ## The totals -/

/-- The methods whose answers have a total. -/
def totalled : List Text := ["get_hold_cota_nft", "get_withdrawal_cota_nft"]

/-- What is held and what is withdrawn are dictionaries, where a total can be looked up. -/
def HasTotals (c : List Act) : Prop :=
  ∀ method ∈ totalled, ∀ v, .ok v ∈ resultsOf method (exchangesOf c) → v.IsDict

/-- No key of a report stands twice, and no method is called twice for it. -/
theorem nodup_parts (cotaId tokenIndex : Value) :
    ("address" :: "lockHash" :: (Account.parts cotaId tokenIndex).map (·.1)).Nodup ∧
      ((Account.parts cotaId tokenIndex).map (·.2)).Nodup := by
  unfold Account.parts
  split
  · decide
  · split <;> decide

/-- What is looked up in a report are the answers to these two calls. -/
theorem Gathers.exists_totals {cotaId tokenIndex : Value} (address lockHash : Value)
    (h : Gathers (Account.parts cotaId tokenIndex) c (.ok values)) :
    let report := Value.record ([("address", address), ("lockHash", lockHash)] ++ values)
    ∃ held withdrawn, report.item "hold" = .ok held ∧ report.item "withdrawal" = .ok withdrawn ∧
      Json.Carried held ∧ Json.Carried withdrawn ∧
      (HasTotals c ↔ held.IsDict ∧ withdrawn.IsDict) := by
  obtain ⟨hkeys, hmethods⟩ := nodup_parts cotaId tokenIndex
  have hhold : ("hold", ("get_hold_cota_nft" : Text)) ∈ Account.parts cotaId tokenIndex := by
    simp [Account.parts]
  have hwithdrawal : ("withdrawal", ("get_withdrawal_cota_nft" : Text)) ∈
      Account.parts cotaId tokenIndex := by
    simp [Account.parts]
  obtain ⟨v, held, hheld, hdict, hcarried, hmem⟩ := h.exists_result hmethods hhold
  obtain ⟨v', withdrawn, hwithdrawn, hdict', hcarried', hmem'⟩ :=
    h.exists_result hmethods hwithdrawal
  have hfields : (([("address", address), ("lockHash", lockHash)] ++ values).map (·.1)).Nodup := by
    rw [List.map_append, h.keys]
    exact hkeys
  refine ⟨held, withdrawn,
    Value.item_record_of_mem hfields (List.mem_append_right _ hmem),
    Value.item_record_of_mem hfields (List.mem_append_right _ hmem'), hcarried, hcarried', ?_⟩
  have hone : ∀ {method : Text} {v : Value}, resultsOf method (exchangesOf c) = [.ok v] →
      ((∀ u, .ok u ∈ resultsOf method (exchangesOf c) → u.IsDict) ↔ v.IsDict) := by
    intro method v hresults
    simp [hresults]
  rw [HasTotals, totalled, List.forall_mem_cons, List.forall_mem_singleton, hone hheld,
    hone hwithdrawn, Value.isDict_camelKeys hdict, Value.isDict_camelKeys hdict']

/-! ## The report -/

/-- The ways in which asking for an account ends. -/
inductive Reports (config address : Value) (parts : List (String × Text)) :
    List Act → Except Fault Value → Prop
  | unloaded {cause : Fault} (load : Service.ofConfig config = .error cause) :
      Reports config address parts [] (.error (.stage (.str "load service") cause))
  | unread {cause : Fault} (located : locate address = .error cause) :
      Reports config address parts [] (.error (.stage (.str "decode address") cause))
  | untold {c : List Act} {cause : Fault} (gathers : Gathers parts c (.error cause)) :
      Reports config address parts c (.error (.stage (.str "query aggregator") cause))
  | shown {c : List Act} {values : List (String × Value)} {lockScript lockHash : String}
      (located : locate address = .ok (lockScript, lockHash))
      (gathers : Gathers parts c (.ok values)) (totals : HasTotals c) :
      Reports config address parts c
        (.ok (.record ([("address", address), ("lockHash", .str lockHash)] ++ values)))
  | unshown {c : List Act} {values : List (String × Value)}
      (gathers : Gathers parts c (.ok values)) (totals : ¬HasTotals c) :
      Reports config address parts c (.error .noSuchMethod)

/-- A report is answered, or a stage failed. -/
def Closed (out : Except Fault Value) : Prop :=
  (∃ report, out = .ok report) ∨
    ∃ name ∈ (["load service", "decode address", "query aggregator"] : List Text), ∃ cause,
      out = .error (.stage (.str name) cause)

theorem Reports.closed_iff {config address : Value} {parts : List (String × Text)} {c : List Act}
    {out : Except Fault Value} (h : Reports config address parts c out) :
    Closed out ↔ (Answered parts c → HasTotals c) := by
  cases h with
  | unloaded | unread =>
    exact iff_of_true (.inr ⟨_, by simp, _, rfl⟩) fun _ _ _ _ hmem => absurd hmem List.not_mem_nil
  | untold gathers =>
    exact iff_of_true (.inr ⟨_, by simp, _, rfl⟩) fun h => absurd h gathers.not_answered
  | shown _ _ totals => exact iff_of_true (.inl ⟨_, rfl⟩) fun _ => totals
  | unshown gathers totals =>
    refine iff_of_false ?_ fun h => totals (h gathers.answered)
    rintro (⟨_, ⟨⟩⟩ | ⟨_, -, _, ⟨⟩⟩)

end Account

/-- An address is a text. -/
theorem Account.carried_of_locate {address : Value} {place : String × String}
    (h : Account.locate address = .ok place) : Json.Carried address := by
  obtain ⟨lock, hlock, -⟩ := bind_eq_ok.mp h
  unfold Address.scriptValue at hlock
  split at hlock
  · exact Json.carried_str _
  · cases hlock

/-- Showing the totals asks nothing, and fails if there is no place for them. -/
theorem Account.show_ends {report address held withdrawn : Value}
    {message : Value → Value → Text} (haddress : Json.Carried address)
    (hheld : report.item "hold" = .ok held) (hwithdrawn : report.item "withdrawal" = .ok withdrawn)
    (hcarried : Json.Carried held) (hcarried' : Json.Carried withdrawn) :
    (do
      let held ← (← report.item "hold").field "total"
      let withdrawn ← (← report.item "withdrawal").field "total"
      Run.logNaming .info [address, held, withdrawn] (message held withdrawn)
      return report : Run Value).Ends network fun c out => c = [] ∧
        ((held.IsDict ∧ withdrawn.IsDict) ∧ out = .ok report ∨
          ¬(held.IsDict ∧ withdrawn.IsDict) ∧ out = .error .noSuchMethod) := by
  simp only [hheld, hwithdrawn, Run.lift_ok, pure_bind]
  rcases held.field_cases "total" with ⟨hdict, total, htotal⟩ | ⟨hnone, htotal⟩
  · rcases withdrawn.field_cases "total" with ⟨hdict', total', htotal'⟩ | ⟨hnone, htotal'⟩
    · simp only [htotal, htotal', Run.lift_ok, pure_bind]
      have hnamed : ∀ v ∈ [address, total, total'], Json.Carried v := by
        simp [haddress, hcarried.field htotal, hcarried'.field htotal']
      exact Run.Ends.logCarried hnamed (Run.Ends.pure ⟨rfl, .inl ⟨⟨hdict, hdict'⟩, rfl⟩⟩)
    · simp only [htotal, htotal', Run.lift_ok, pure_bind]
      exact Run.Ends.fail ⟨rfl, .inr ⟨fun h => hnone h.2, rfl⟩⟩
  · simp only [htotal]
    exact Run.Ends.fail ⟨rfl, .inr ⟨fun h => hnone h.1, rfl⟩⟩

theorem queryAccount_reports {config address cotaId tokenIndex page pageSize : Value} :
    (queryAccount config address cotaId tokenIndex page pageSize).Ends network
      (Account.Reports config address (Account.parts cotaId tokenIndex)) := by
  refine Run.Ends.computeStage (by simp) (fun s _ => ?_) fun _ h => .unloaded h
  refine Run.Ends.computeStage (by simp) (fun place hplace => ?_) fun _ h => .unread h
  refine Run.Ends.stage Account.ask_gathers
    (fun _ _ h => (Fault.kind_of_isPlain h.follows.isPlain).1) (fun c values h => ?_)
    fun _ _ h => .untold h
  obtain ⟨held, withdrawn, hheld, hwithdrawn, hcarried, hcarried', htotals⟩ :=
    h.exists_totals address (.str place.2)
  refine (Account.show_ends (Account.carried_of_locate hplace) hheld hwithdrawn hcarried
    hcarried').weaken ?_
  rintro _ _ ⟨rfl, ⟨hdicts, rfl⟩ | ⟨hnone, rfl⟩⟩
  · rw [List.append_nil]
    exact .shown hplace h (htotals.mpr hdicts)
  · rw [List.append_nil]
    exact .unshown h (mt htotals.mp hnone)

/-- **Asking for an account answers a report or fails in a stage, unless all is answered and there
is no place for a total.** -/
theorem queryAccount_closed_iff (network : Network)
    (config address cotaId tokenIndex page pageSize : Value) :
    (queryAccount config address cotaId tokenIndex page pageSize).Ends network fun c out =>
      Account.Reports config address (Account.parts cotaId tokenIndex) c out ∧
        (Account.Closed out ↔
          (Account.Answered (Account.parts cotaId tokenIndex) c → Account.HasTotals c)) :=
  queryAccount_reports.weaken fun _ _ h => ⟨h, h.closed_iff⟩

/-! ## A run -/

/-- Servers that answer null for the tokens that are held, and an empty record for all else. -/
def heldlessNetwork : Network := fun _ r =>
  Rpc.answering (if r.method.same (.str "get_hold_cota_nft") then .null else .record [])

def sampleQuery : Run Value :=
  queryAccount sampleConfig (.str ("ckt1qzda0cr08m85hc8jlnfp3zer7xulejywt49kt2rr0vthywaa50xwsqt4z7"
    ++ "8ng4yutl5u6xsv27ht6q08mhujf8s2r0n40"))

theorem outcome_heldlessNetwork :
    (match (sampleQuery.exec heldlessNetwork {}).1 with
      | .error .noSuchMethod => true
      | _ => false) = true := by
  decide +kernel

/-- It fails outside of all stages. -/
theorem not_closed_heldless :
    ¬sampleQuery.Ends heldlessNetwork fun _ out => Account.Closed out := by
  intro hall
  have houtcome := outcome_heldlessNetwork
  split at houtcome
  · rename_i hout
    have hclosed := hall.exec
    rw [hout] at hclosed
    rcases hclosed with ⟨_, ⟨⟩⟩ | ⟨_, -, _, ⟨⟩⟩
  · cases houtcome

end Cota
end CellNft
