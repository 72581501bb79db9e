/-
CellNft.Proofs.MintRequest — the withdrawals that the aggregator is asked for.

A withdrawal without a token index gets the number of tokens issued so far plus its place, as a text
of eight digits. So there are numbers for all withdrawals, or a later one has none although the
earlier ones had.

`transaction_requestsNumbered`: in the first case the aggregator is asked for exactly these
withdrawals, in their order and in snake case, each with its number. In the second the run fails and
asks for nothing. It is said of every run in which the registry of collections answers with a number.

* `Mint.withIndexes_fits` and `Mint.withIndexes_overflow` are the two cases for the list.
* `Mint.Asks` says how the building of a mint can go, and `Mint.transaction_asks` that it goes so.
* `Mint.Numbers` is what the texts are good for: they can be read back, and their order as texts is
  that of the numbers.
-/
import CellNft.Proofs.Courses
import CellNft.Proofs.TokenIndexes

namespace CellNft

open Outcome

/-- A field that is written last is found in snake case, whatever else becomes of its name. -/
theorem Value.item_of_snakeKeys_append {d : Dict} {v w : Value} {key name : String}
    (h : (Value.dict (d ++ [(.str key, v)])).snakeKeys = .ok w)
    (hname : KeyCase.snake key = name) : ∃ u, v.snakeKeys = .ok u ∧ w.item name = .ok u := by
  obtain ⟨pairs, hpairs, h⟩ := bind_eq_ok.mp h
  obtain rfl := Except.ok.inj h
  rw [mapKeysEntries_eq_mapM, List.mapM_append] at hpairs
  obtain ⟨first, -, hpairs⟩ := bind_eq_ok.mp hpairs
  obtain ⟨last, hlast, hpairs⟩ := bind_eq_ok.mp hpairs
  obtain rfl := Except.ok.inj hpairs
  obtain ⟨e, he, rfl⟩ := mapM_singleton_eq_ok.mp hlast
  obtain ⟨k, hk, he⟩ := bind_eq_ok.mp he
  obtain ⟨u, hu, he⟩ := bind_eq_ok.mp he
  obtain rfl := Except.ok.inj he
  obtain rfl : Scalar.str (KeyCase.snake key) = k := Except.ok.inj hk
  refine ⟨u, hu, ?_⟩
  rw [Dict.ofPairs, List.foldl_append, hname]
  exact item_set_self _ name u

namespace Cota.Mint

/-! ## Numbering a list -/

/-- No key of a withdrawal becomes that of the token index. -/
def Indexless (d : Dict) : Prop := ∀ e ∈ d, KeyCase.snakeKey e.1 ≠ .ok (.str "token_index")

/-- A withdrawal with a number for its token index. -/
def withNumber (n : Nat) (d : Dict) : Value :=
  .dict (d ++ [(.str "tokenIndex", .str (numbered n))])

/-- Withdrawals with the numbers from `n` on. -/
def withNumbers (n : Nat) (ds : List Dict) : List Value :=
  (ds.zipIdx n).map fun e => withNumber e.2 e.1

/-- Withdrawals get the numbers from `n` on, if there are so many. -/
structure Assigned (n : Nat) (ds : List Dict) (out : Except Fault (List Value)) : Prop where
  fits : n + ds.length ≤ 2 ^ 32 → out = .ok (withNumbers n ds)
  overflow : 2 ^ 32 < n + ds.length → ∃ fault, out = .error fault ∧ fault.kind = .value

theorem Indexless.not_same {d : Dict} (h : Indexless d) :
    ∀ e ∈ d, e.1.same (.str "tokenIndex") = false := by
  intro e he
  have hsnake : KeyCase.snake "tokenIndex" = "token_index" := by decide
  rw [Scalar.same_str, decide_eq_false_iff_not]
  intro hkey
  exact h e he (by rw [hkey, KeyCase.snakeKey, hsnake])

theorem Indexless.field {d : Dict} (h : Indexless d) :
    (Value.dict d).field "tokenIndex" = .ok .null := by
  have hnone : d.find? (.str "tokenIndex") = none := by
    rw [Dict.find?, Option.map_eq_none_iff, List.find?_eq_none]
    intro e he
    rw [h.not_same e he]
    exact Bool.false_ne_true
  rw [Value.field, hnone]
  rfl

theorem Indexless.set_text {d : Dict} (h : Indexless d) (n : Nat) :
    .dict (d.set (.str "tokenIndex") (.str (String.ofList (Hex.u32Text n)))) = withNumber n d := by
  have htext : Text.ofString (String.ofList (Hex.u32Text n)) = numbered n := Text.ofString_ofList _
  rw [Dict.set_of_not_same h.not_same, htext, withNumber]

/-- A number that fits is written. -/
theorem writeU32_fits {n : Nat} (h : n < 2 ^ 32) :
    Hex.writeU32 (.int n) = .ok (String.ofList (Hex.u32Text n)) := by
  have hlow : ¬((n : Int) < 0) := by omega
  have hhigh : (n : Int) < 0x100000000 := by omega
  simp [Hex.writeU32, Scalar.number?, Number.lt, hlow, hhigh]

/-- One that does not is refused. -/
theorem writeU32_overflow {n : Nat} (h : 2 ^ 32 ≤ n) :
    ∃ fault, Hex.writeU32 (.int n) = .error fault ∧ fault.kind = .value := by
  have hhigh : ¬((n : Int) < 0x100000000) := by omega
  refine ⟨Hex.unfitting (.int n), by simp [Hex.writeU32, Scalar.number?, Number.lt, hhigh], ?_⟩
  rw [Hex.unfitting]
  split <;> rfl

/-- A withdrawal without a token index gets the sum, written. -/
theorem tokenIndex_of_null {withdrawal : Value} (h : withdrawal.field "tokenIndex" = .ok .null)
    (issued : Value) (place : Nat) : tokenIndex issued place withdrawal = do
      let sum ← (← issued.toScalar).add (.int place)
      return .str (← Hex.writeU32 (.scalar sum)) := by
  rw [tokenIndex, h, ok_bind]
  rfl

theorem sum_issued (issued place : Nat) :
    (do (← (Value.int issued).toScalar).add (.int place)) = .ok (.int (issued + place : Nat)) := rfl

/-- The first number is written before the others are, and does not depend on them. -/
theorem withIndexes_cons {d : Dict} (h : Indexless d) (issued place : Nat) (rest : List Value) :
    withIndexes (.int issued) place (.dict d :: rest) = do
      let t ← Hex.writeU32 (.int (issued + place : Nat))
      return .dict (d.set (.str "tokenIndex") (.str t))
        :: (← withIndexes (.int issued) (place + 1) rest) := by
  rw [withIndexes, tokenIndex_of_null h.field, ← bind_assoc, sum_issued, ok_bind]
  generalize Hex.writeU32 _ = written
  cases written <;> rfl

theorem withIndexes_fits {issued : Nat} : ∀ {place : Nat} {ds : List Dict},
    (∀ d ∈ ds, Indexless d) → issued + place + ds.length ≤ 2 ^ 32 →
      withIndexes (.int issued) place (ds.map .dict) = .ok (withNumbers (issued + place) ds)
  | _, [], _, _ => rfl
  | place, d :: ds, h, hfits => by
      obtain ⟨hd, hds⟩ := List.forall_mem_cons.mp h
      rw [List.length_cons] at hfits
      have ih := @withIndexes_fits issued (place + 1) ds hds (by omega)
      rw [List.map_cons, withIndexes_cons hd, writeU32_fits (by omega), ok_bind, ih, ok_bind,
        pure_eq_ok, hd.set_text]
      rfl

theorem withIndexes_overflow {issued : Nat} : ∀ {place : Nat} {ds : List Dict}, ds ≠ [] →
    (∀ d ∈ ds, Indexless d) → 2 ^ 32 < issued + place + ds.length →
      ∃ fault, withIndexes (.int issued) place (ds.map .dict) = .error fault ∧ fault.kind = .value
  | place, d :: ds, _, h, hover => by
      obtain ⟨hd, hds⟩ := List.forall_mem_cons.mp h
      rw [List.length_cons] at hover
      rw [List.map_cons, withIndexes_cons hd]
      rcases Nat.lt_or_ge (issued + place) (2 ^ 32) with hfirst | hfirst
      · -- The first has a number, so it is a later one that has none.
        have hne : ds ≠ [] := by
          rintro rfl
          rw [List.length_nil] at hover
          omega
        obtain ⟨fault, hfault, hkind⟩ :=
          @withIndexes_overflow issued (place + 1) ds hne hds (by omega)
        exact ⟨fault, by rw [writeU32_fits hfirst, ok_bind, hfault]; rfl, hkind⟩
      · obtain ⟨fault, hfault, hkind⟩ := writeU32_overflow hfirst
        exact ⟨fault, by rw [hfault]; rfl, hkind⟩

theorem assigned_withIndexes {n : Nat} {ds : List Dict} (hne : ds ≠ [])
    (h : ∀ d ∈ ds, Indexless d) : Assigned n ds (withIndexes (.int n) 0 (ds.map .dict)) where
  fits hfits := withIndexes_fits h hfits
  overflow hover := withIndexes_overflow hne h hover

/-! ## The numbers as texts -/

/-- The texts of so many numbers from `n` on. -/
structure Numbers (n count : Nat) : Prop where
  written : ∀ i < count, Hex.Written 8 (numbered (n + i))
  read : ∀ i < count, Hex.readInt (.str (numbered (n + i))) = .ok ((n + i : Nat) : Int)
  ordered : ∀ i j, i < j → j < count →
    Scalar.below (.str (numbered (n + i))) (.str (numbered (n + j))) = .ok true

theorem written_numbered {n : Nat} (h : n < 2 ^ 32) : Hex.Written 8 (numbered n) := by
  refine ⟨Text.hexPadded 8 n, rfl, Text.length_hexPadded (by omega), fun c hc => ?_⟩
  obtain ⟨d, hd, rfl⟩ := Text.exists_digit_of_mem_hexPadded hc
  interval_cases d <;> decide

/-- The marks in front are the same, and the digits are as many. -/
theorem below_numbered {m n : Nat} (hmn : m < n) (hn : n < 2 ^ 32) :
    Scalar.below (.str (numbered m)) (.str (numbered n)) = .ok true := by
  have hpoints : ∀ k, (numbered k).points.map CodePoint.toNat
      = [48, 120] ++ (Text.hexPadded 8 k).map Char.toNat := by
    intro k
    simp [numbered, Text.ofChars, Hex.u32Text, CodePoint.toNat, Function.comp_def]
  have hlt := @Text.hexPadded_lt 7 m n hmn (by omega)
  rw [Scalar.below, hpoints, hpoints, decide_eq_true (List.append_left_lt hlt)]

theorem numbers_of_le {n count : Nat} (h : n + count ≤ 2 ^ 32) : Numbers n count where
  written i hi := written_numbered (by omega)
  read i hi := Hex.readInt_u32Text (n + i)
  ordered i j hij hj := below_numbered (by omega) (by omega)

/-! ## The run -/

/-- What the withdrawals become by what is known of the collection. -/
def indexedBy (cotaId withdrawals define : Value) : Except Fault (List Value) := do
  match ← define.field "issued" with
  | .null => throw (.naming [cotaId] (.collectionUnknown cotaId))
  | issued => withIndexes issued 0 (← withdrawals.elements)

/-- What the registry tells about a collection. -/
def defined (e : Exchange) : Except Fault Value :=
  Rpc.resultOf (.str "get_define_info") e.reply >>= Value.camelKeys

variable {network : Network}

/-- The only act of asking is the exchange. -/
theorem ask_ends {c : Rpc.Client} {method : Text} {params : Value} :
    (Aggregator.ask c method params).Ends network fun x out =>
      (x = [] ∧ ∃ fault, out = .error fault) ∨
        ∃ e sent, x = [.exchange e] ∧ e.request.method = .str method ∧
          params.snakeKeys = .ok sent ∧ e.request.params = Rpc.sentParams sent ∧
          out = Rpc.resultOf (.str method) e.reply >>= Value.camelKeys := by
  refine Run.Ends.compute (fun sent hsent => ?_) fun fault _ => .inl ⟨rfl, fault, rfl⟩
  refine Run.call_ends.bind ?_ ?_
  · rintro x v (⟨-, -, _, -, ⟨⟩⟩ | ⟨e, rfl, -, hmethod, hparams, hv⟩)
    exact Run.Ends.lift (.inr ⟨e, sent, rfl, hmethod, hsent, hparams, by rw [← hv, ok_bind]⟩)
  · rintro x fault (⟨rfl, -⟩ | ⟨e, rfl, -, hmethod, hparams, hfault⟩)
    · exact .inl ⟨rfl, fault, rfl⟩
    · exact .inr ⟨e, sent, rfl, hmethod, hsent, hparams, by rw [← hfault]; rfl⟩

theorem assignIndexes_ends {s : Service} {cotaId withdrawals : Value} :
    (assignIndexes s cotaId withdrawals).Ends network fun c out =>
      (c = [] ∧ ∃ fault, out = .error fault) ∨ ∃ e, c = [.exchange e] ∧
        e.request.method = .str "get_define_info" ∧
        out = defined e >>= indexedBy cotaId withdrawals := by
  refine ask_ends.bind ?_ ?_
  · rintro c define (⟨-, _, ⟨⟩⟩ | ⟨e, sent, rfl, hmethod, -, -, hdefine⟩)
    -- Past the answer nothing is asked.
    have hend : (liftM (indexedBy cotaId withdrawals define) : Run (List Value)).Ends network
        fun c' out => ([.exchange e] ++ c' = [] ∧ ∃ fault, out = .error fault) ∨
          ∃ e', [.exchange e] ++ c' = [.exchange e'] ∧
            e'.request.method = .str "get_define_info" ∧
            out = defined e' >>= indexedBy cotaId withdrawals :=
      Run.Ends.lift (.inr ⟨e, rfl, hmethod, by rw [defined, ← hdefine, ok_bind]⟩)
    rw [indexedBy, Run.lift_bind] at hend
    convert hend using 3 with issued
    cases issued with
    | scalar x =>
      cases x with
      | null => rfl
      | _ => exact (Run.lift_bind _ _).symm
    | _ => exact (Run.lift_bind _ _).symm
  · rintro c fault (⟨rfl, -⟩ | ⟨e, sent, rfl, hmethod, -, -, hfault⟩)
    · exact .inl ⟨rfl, fault, rfl⟩
    · exact .inr ⟨e, rfl, hmethod, by rw [defined, ← hfault]; rfl⟩

/-- How the building of a mint of withdrawals can go. -/
inductive Asks (withdrawals : Value) : List Act → Except Fault Value → Prop
  | unasked {c : List Act} {fault : Fault} (only : CallsOnly ["get_cells"] c) :
      Asks withdrawals c (.error fault)
  | unindexed {c : List Act} {e : Exchange} {cotaId : Value} {fault : Fault}
      (only : CallsOnly ["get_cells"] c) (asks : e.request.method = .str "get_define_info")
      (indexes : defined e >>= indexedBy cotaId withdrawals = .error fault) :
      Asks withdrawals (c ++ [.exchange e]) (.error fault)
  | unrequested {c : List Act} {e : Exchange} {cotaId : Value} {indexed : List Value}
      {fault : Fault} (only : CallsOnly ["get_cells"] c)
      (asks : e.request.method = .str "get_define_info")
      (indexes : defined e >>= indexedBy cotaId withdrawals = .ok indexed) :
      Asks withdrawals (c ++ [.exchange e]) (.error fault)
  | requested {c : List Act} {e e' : Exchange} {cotaId : Value} {indexed sent : List Value}
      {out : Except Fault Value} (only : CallsOnly ["get_cells"] c)
      (asks : e.request.method = .str "get_define_info")
      (indexes : defined e >>= indexedBy cotaId withdrawals = .ok indexed)
      (requests : e'.request.method = .str "generate_mint_cota_smt")
      (snake : indexed.mapM Value.snakeKeys = .ok sent)
      (given : e'.request.params.item "withdrawals" = .ok (.list sent)) :
      Asks withdrawals (c ++ [.exchange e, .exchange e']) out

theorem transaction_asks {s : Service} {lock info fee withdrawals : Value}
    (hw : info.item "withdrawals" = .ok withdrawals) :
    (transaction s lock info fee).Ends network (Asks withdrawals) := by
  refine Run.Ends.bind cotaCell_follows (fun c cell hcell => ?_) fun c fault h =>
    .unasked h.callsOnly
  have honly : CallsOnly ["get_cells"] c := hcell.callsOnly
  have hunasked : ∀ fault, Asks withdrawals (c ++ []) (.error fault) :=
    fun fault => .unasked (by rwa [List.append_nil])
  refine Run.Ends.compute (fun cotaId _ => ?_) fun fault _ => hunasked fault
  refine Run.Ends.compute (fun given hgiven => ?_) fun fault _ => hunasked fault
  obtain rfl := Except.ok.inj (hw.symm.trans hgiven)
  refine assignIndexes_ends.bind ?_ ?_
  · rintro _ indexed (⟨-, _, ⟨⟩⟩ | ⟨e, rfl, hasks, hindexed⟩)
    have hunrequested : ∀ fault, Asks withdrawals (c ++ ([.exchange e] ++ [])) (.error fault) :=
      fun fault => .unrequested honly hasks hindexed.symm
    refine Run.Ends.compute (fun lockScript _ => ?_) fun fault _ => hunrequested fault
    refine Run.Ends.compute (fun outPoint _ => ?_) fun fault _ => hunrequested fault
    refine Run.Ends.compute (fun tail _ => ?_) fun fault _ => hunrequested fault
    have hrequested : ∀ {e' : Exchange} {sent : Value} {out : Except Fault Value},
        (Value.record [("lockScript", .str lockScript), ("cotaId", cotaId),
          ("outPoint", .str tail), ("withdrawals", .list indexed)]).snakeKeys = .ok sent →
        e'.request.method = .str "generate_mint_cota_smt" →
        e'.request.params = Rpc.sentParams sent →
          Asks withdrawals (c ++ ([.exchange e] ++ [.exchange e'])) out := by
      intro e' sent out hsent hrequests hparams
      obtain ⟨u, hu, hitem⟩ := item_of_sentParams "withdrawals" "withdrawals" (.list indexed) hsent
        hparams (by simp only [List.map_cons, List.map_nil]; decide) (by simp) (by decide)
      obtain ⟨list, hlist, rfl⟩ := Value.snakeKeys_list_eq_ok.mp hu
      exact .requested honly hasks hindexed.symm hrequests hlist hitem
    refine ask_ends.bind ?_ ?_
    · rintro _ smt (⟨-, _, ⟨⟩⟩ | ⟨e', sent, rfl, hrequests, hsent, hparams, -⟩)
      refine Run.Ends.weaken (P := CellNft.Follows []) ?_ fun c' out h => by
        obtain rfl := h.eq_nil
        exact hrequested hsent hrequests hparams
      refine Run.Follows.bind (Run.Follows.mapM (fun _ => .lift (by simp)) _) fun tokens => ?_
      refine Run.Follows.compute (by simp) fun block => ?_
      exact .logNaming (spending_follows (by simp) (by simp))
    · rintro _ fault (⟨rfl, -⟩ | ⟨e', sent, rfl, hrequests, hsent, hparams, -⟩)
      · exact hunrequested fault
      · exact hrequested hsent hrequests hparams
  · rintro _ fault (⟨rfl, -⟩ | ⟨e, rfl, hasks, hfault⟩)
    · exact hunasked fault
    · exact .unindexed honly hasks hfault.symm

/-! ## What is asked for -/

/-- The registry tells once about the collection, that so many tokens are issued. -/
def Issued (n : Nat) (x : List Exchange) : Prop :=
  ∃ result define, resultsOf "get_define_info" x = [.ok result] ∧ result.camelKeys = .ok define ∧
    define.field "issued" = .ok (.int n)

/-- A request shows withdrawals in snake case, in their order, with the numbers from `n` on. -/
def ShowsNumbered (n : Nat) (ds : List Dict) (params : Value) : Prop :=
  ∃ sent, params.item "withdrawals" = .ok (.list sent) ∧ sent.length = ds.length ∧
    ∀ i d, ds[i]? = some d → ∃ w, sent[i]? = some w ∧ (withNumber (n + i) d).snakeKeys = .ok w ∧
      w.item "token_index" = .ok (.str (numbered (n + i)))

/-- What the aggregator is asked for, by whether there are numbers for all withdrawals. -/
structure Requests (n : Nat) (ds : List Dict) (x : List Exchange) (out : Except Fault Value) :
    Prop where
  fits : n + ds.length ≤ 2 ^ 32 →
    (paramsOf "generate_mint_cota_smt" x = [] ∧ ∃ fault, out = .error fault) ∨
      ∃ params, paramsOf "generate_mint_cota_smt" x = [params] ∧ ShowsNumbered n ds params
  overflow : 2 ^ 32 < n + ds.length → paramsOf "generate_mint_cota_smt" x = [] ∧
    ∃ fault, out = .error fault ∧ fault.kind = .value

theorem Issued.indexed {n : Nat} {x : List Exchange} {e : Exchange} (h : Issued n x)
    (hx : x.filter (·.calls "get_define_info") = [e]) (cotaId : Value) (ws : List Value) :
    defined e >>= indexedBy cotaId (.list ws) = withIndexes (.int n) 0 ws := by
  obtain ⟨result, define, hresult, hdefine, hissued⟩ := h
  rw [resultsOf, hx, List.map_cons] at hresult
  obtain ⟨hresult, -⟩ := List.cons.inj hresult
  rw [defined, hresult, ok_bind, hdefine, ok_bind, indexedBy, hissued]
  rfl

theorem getElem?_withNumbers (n : Nat) (ds : List Dict) (i : Nat) :
    (withNumbers n ds)[i]? = ds[i]?.map (withNumber (n + i)) := by
  simp [withNumbers, List.getElem?_zipIdx, Function.comp_def]

theorem showsNumbered_of_given {n : Nat} {ds : List Dict} {sent : List Value} {params : Value}
    (hsnake : (withNumbers n ds).mapM Value.snakeKeys = .ok sent)
    (hgiven : params.item "withdrawals" = .ok (.list sent)) : ShowsNumbered n ds params := by
  obtain ⟨hlength, heach⟩ := List.forall₂_iff_get.mp (mapM_eq_ok_iff.mp hsnake)
  refine ⟨sent, hgiven, by simp [← hlength, withNumbers], fun i d hd => ?_⟩
  have hnumber : (withNumbers n ds)[i]? = some (withNumber (n + i) d) := by
    rw [getElem?_withNumbers, hd, Option.map_some]
  obtain ⟨hi, hget⟩ := List.getElem?_eq_some_iff.mp hnumber
  have hi' : i < sent.length := hlength ▸ hi
  have hw := heach i hi hi'
  rw [List.get_eq_getElem, hget] at hw
  have hname : KeyCase.snake "tokenIndex" = "token_index" := by decide
  obtain ⟨u, hu, hitem⟩ := Value.item_of_snakeKeys_append hw hname
  obtain rfl := Except.ok.inj hu
  exact ⟨sent[i], List.getElem?_eq_getElem hi', hw, hitem⟩

theorem Asks.requests {n : Nat} {ds : List Dict} {c : List Act} {out : Except Fault Value}
    (h : Asks (.list (ds.map .dict)) c out) (hne : ds ≠ []) (hds : ∀ d ∈ ds, Indexless d)
    (hissued : Issued n (exchangesOf c)) : Requests n ds (exchangesOf c) out := by
  have hassigned := assigned_withIndexes (n := n) hne hds
  cases h with
  | unasked only =>
    obtain ⟨_, _, hresults, -⟩ := hissued
    rw [resultsOf_eq_nil (only.filter_calls_eq_nil (by decide))] at hresults
    cases hresults
  | unindexed only asks indexes =>
    rw [hissued.indexed (by simp [only.filter_calls_eq_nil, filter_calls_cons asks])] at indexes
    rw [indexes] at hassigned
    refine ⟨fun hfits => ?_, fun hover => ⟨paramsOf_eq_nil ?_, ?_⟩⟩
    · cases hassigned.fits hfits
    · simp [only.filter_calls_eq_nil, filter_calls_cons asks]
    · obtain ⟨fault, hfault, hkind⟩ := hassigned.overflow hover
      exact ⟨_, rfl, Except.error.inj hfault ▸ hkind⟩
  | unrequested only asks indexes =>
    rw [hissued.indexed (by simp [only.filter_calls_eq_nil, filter_calls_cons asks])] at indexes
    rw [indexes] at hassigned
    refine ⟨fun _ => .inl ⟨paramsOf_eq_nil ?_, _, rfl⟩, fun hover => ?_⟩
    · simp [only.filter_calls_eq_nil, filter_calls_cons asks]
    · obtain ⟨_, ⟨⟩, -⟩ := hassigned.overflow hover
  | @requested c e e' _ _ _ _ only asks indexes requests snake given =>
    rw [hissued.indexed (by
      simp [only.filter_calls_eq_nil, filter_calls_cons asks, filter_calls_cons requests])]
      at indexes
    rw [indexes] at hassigned
    refine ⟨fun hfits => .inr ⟨e'.request.params, ?_, ?_⟩, fun hover => ?_⟩
    · simp [paramsOf, only.filter_calls_eq_nil, filter_calls_cons asks, filter_calls_cons requests]
    · obtain rfl := Except.ok.inj (hassigned.fits hfits)
      exact showsNumbered_of_given snake given
    · obtain ⟨_, ⟨⟩, -⟩ := hassigned.overflow hover

/-- **Withdrawals without a token index are asked for with the numbers behind those that are issued,
or nothing is asked for, if there are not so many numbers.** -/
theorem transaction_requestsNumbered (network : Network) (s : Service) {ds : List Dict}
    (hne : ds ≠ []) (hds : ∀ d ∈ ds, Indexless d) :
    (∀ cotaId, (assignIndexes s cotaId (.list (ds.map .dict))).Ends network fun c out =>
      ∀ n, Issued n (exchangesOf c) → Assigned n ds out) ∧
    (∀ lock info fee, info.item "withdrawals" = .ok (.list (ds.map .dict)) →
      (transaction s lock info fee).Ends network fun c out =>
        ∀ n, Issued n (exchangesOf c) → Requests n ds (exchangesOf c) out) ∧
    ∀ n, n + ds.length ≤ 2 ^ 32 → Numbers n ds.length := by
  refine ⟨fun cotaId => assignIndexes_ends.weaken ?_, fun lock info fee hw =>
    (transaction_asks hw).weaken fun c out h n => h.requests hne hds, fun n => numbers_of_le⟩
  rintro c out (⟨rfl, -⟩ | ⟨e, rfl, hasks, rfl⟩) n hissued
  · obtain ⟨_, _, ⟨⟩, -⟩ := hissued
  · rw [hissued.indexed (by simp [filter_calls_cons hasks])]
    exact assigned_withIndexes hne hds

/-- Two withdrawals without a token index. -/
def sampleWithdrawals : List Dict :=
  [[], [(.str "toLockScript", .str "0x"), (.str "state", .str "0x00")]]

/-- The mint of two tokens. -/
def sampleTransaction : Run Value :=
  transaction sampleService
    (.record [("codeHash", .str (Hex.encode (List.replicate 32 0x44))), ("hashType", .str "type"),
      ("args", .str "0x")])
    (.record [("cotaId", .str "0x01"), ("withdrawals", .list (sampleWithdrawals.map .dict))])

/-- The registry answers to anything that all numbers but the last are used. -/
def lastNumberNetwork : Network := fun _ _ =>
  Rpc.answering (.record [("issued", .int 0xffffffff)])

theorem indexless_sampleWithdrawals : ∀ d ∈ sampleWithdrawals, Indexless d := by
  have hkey : ∀ t : Text, KeyCase.snake t ≠ "token_index" →
      KeyCase.snakeKey (.str t) ≠ .ok (.str "token_index") :=
    fun t hne h => hne (Scalar.str.inj (Except.ok.inj h))
  simp only [sampleWithdrawals, Indexless, List.forall_mem_cons]
  exact ⟨List.forall_mem_nil _, ⟨hkey _ (by decide), hkey _ (by decide), List.forall_mem_nil _⟩,
    List.forall_mem_nil _⟩

theorem isOk_sampleTransaction :
    (sampleTransaction.exec (oneCellNetwork plainOutput) {}).1.isOk = true := by
  decide +kernel

theorem asked_lastNumberNetwork :
    ((assignIndexes sampleService (.str "0x01") (.list (sampleWithdrawals.map .dict))).exec
      lastNumberNetwork {}).2.requests.map (·.method.same (.str "get_define_info")) = [true] := by
  decide +kernel

theorem issued_lastNumberNetwork : Issued 0xffffffff (exchangesOf (acts lastNumberNetwork []
    ((assignIndexes sampleService (.str "0x01") (.list (sampleWithdrawals.map .dict))).exec
      lastNumberNetwork {}).2.trace)) := by
  obtain ⟨r, hrequests, hr⟩ := List.map_eq_singleton_iff.mp asked_lastNumberNetwork
  have hnumber : Integer.exceeds 0xffffffff = false :=
    Integer.exceeds_eq_false (k := 10) (by decide) (by decide)
  have hgives : Exchange.Gives ⟨r, lastNumberNetwork [] r⟩ "get_define_info"
      (.record [("issued", .int 0xffffffff)]) :=
    ⟨Value.eq_str_of_same hr,
      Rpc.resultOf_answering (by simp [Json.carried_record, hnumber]) _⟩
  rw [exchangesOf_acts, requestsOf_trace, hrequests, exchanges, exchanges]
  exact ⟨_, _, resultsOf_cons hgives, rfl, rfl⟩

/-- A mint of two tokens that is built, and one for which there is only one number. -/
theorem transaction_requestsNumbered_two :
    (∃ params, paramsOf "generate_mint_cota_smt" (exchanges (oneCellNetwork plainOutput) []
        (sampleTransaction.exec (oneCellNetwork plainOutput) {}).2.requests) = [params] ∧
      ShowsNumbered 0 sampleWithdrawals params) ∧
    (∃ fault, ((assignIndexes sampleService (.str "0x01")
        (.list (sampleWithdrawals.map .dict))).exec lastNumberNetwork {}).1 = .error fault ∧
      fault.kind = .value) ∧ Numbers 0 2 := by
  have hne : sampleWithdrawals ≠ [] := List.cons_ne_nil _ _
  obtain ⟨-, hrequests, hnumbers⟩ := transaction_requestsNumbered (oneCellNetwork plainOutput)
    sampleService hne indexless_sampleWithdrawals
  obtain ⟨hassigns, -⟩ := transaction_requestsNumbered lastNumberNetwork sampleService hne
    indexless_sampleWithdrawals
  refine ⟨?_, ?_, hnumbers 0 (by simp [sampleWithdrawals])⟩
  · have hbuilds : sampleTransaction.Ends (oneCellNetwork plainOutput) _ := hrequests _ _ _ rfl
    obtain ⟨hends, htalks⟩ := (hbuilds.and_talks mint_talks).exec
    rw [exchangesOf_acts, requestsOf_trace] at hends htalks
    obtain ⟨tx, htx⟩ := exists_of_isOk isOk_sampleTransaction
    obtain ⟨e₁, e₂, e₃, _, _, define, _, _, hx, hcells, hdefine, hsmt, -⟩ := htalks tx htx
    have hissued : define = .record [("issued", .int 0)] := by
      have hmem : e₂ ∈ [e₁, e₂, e₃] := by simp
      obtain ⟨-, before, hreply⟩ := exists_of_mem_exchanges (hx ▸ hmem)
      have hresult := hdefine.2
      rw [hreply, resultOf_oneCell carried_plainOutput, hdefine.1] at hresult
      exact (Except.ok.inj hresult).symm
    have hresults : resultsOf "get_define_info" (exchanges (oneCellNetwork plainOutput) []
        (sampleTransaction.exec (oneCellNetwork plainOutput) {}).2.requests) = [.ok define] := by
      simp [hx, resultsOf_cons hcells, resultsOf_cons hdefine, resultsOf_cons hsmt]
    rcases (hends 0 ⟨define, _, hresults, by rw [hissued]; rfl, rfl⟩).fits
      (by simp [sampleWithdrawals]) with
      ⟨-, fault, hfault⟩ | hrequested
    · rw [htx] at hfault
      cases hfault
    · exact hrequested
  · exact ((hassigns (.str "0x01")).exec 0xffffffff issued_lastNumberNetwork).overflow
      (by simp [sampleWithdrawals])

end Cota.Mint
end CellNft
