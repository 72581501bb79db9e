/-
CellNft.Proofs.OutPoints — the cell that the aggregator is asked about is the cell that is spent.

An out point is serialised in two ways. Inside a transaction it is an `OutPoint`, which has a hash of
32 bytes; what the aggregator gets is cut out of a serialisation that takes a hash of any length.

* `OutPoint.encodeValue_eq_ok`: the first succeeds where the second does with 36 bytes, and gives
  these bytes.
* `mintNft_transferNft_spendsAsked`: of all that a mint or a transfer signs, the first input is the
  cell whose out point was shown to the aggregator, by its last 24 bytes.

A flow ends before it signs, or it prints what it has signed, or JSON has no text for that and the
run ends there (`SpendsAsked`). The second statement is about all that is signed, also in runs that
fail later on. It needs no reply to be well formed: a cell with an out point that is not serialised
inside a transaction is never signed.
-/
import CellNft.Proofs.Progress

namespace CellNft

open Outcome

/-! ## The two serialisations -/

namespace OutPoint

/-- The hash of the transaction that a record names. -/
def hashOf (v : Value) : Except Fault Bytes := do Hex.decodeValue (← v.item "txHash")

/-- The place of the output that a record names. -/
def indexOf (v : Value) : Except Fault Int := do Hex.readInt (← v.item "index")

/-- The serialisation of a record inside a transaction. -/
def encodeValue (v : Value) : Except Fault Bytes := do (← ofValue v).encode

theorem indexBytes_eq_ok {index : Int} {b : Bytes} :
    indexBytes index = .ok b ↔ Molecule.fitting 4 index = .ok b := by
  rw [Molecule.fitting_eq_ok, indexBytes]
  split
  · simp only [reduceCtorEq, false_iff]
    omega
  · split
    · simp only [reduceCtorEq, false_iff]
      omega
    · rw [Except.ok.injEq, eq_comm]
      simp only [iff_and_self]
      omega

theorem serializeBytes_eq_ok {v : Value} {b : Bytes} :
    serializeBytes v = .ok b ↔ ∃ hash index i, hashOf v = .ok hash ∧ indexOf v = .ok index ∧
      Molecule.fitting 4 index = .ok i ∧ b = hash ++ i := by
  simp only [serializeBytes, hashOf, indexOf, bind_eq_ok, indexBytes_eq_ok, pure_eq_ok,
    Except.ok.injEq]
  constructor
  · rintro ⟨h, hh, hash, hhash, n, hn, index, hindex, i, hi, rfl⟩
    exact ⟨hash, index, i, ⟨h, hh, hhash⟩, ⟨n, hn, hindex⟩, hi, rfl⟩
  · rintro ⟨hash, index, i, ⟨h, hh, hhash⟩, ⟨n, hn, hindex⟩, hi, rfl⟩
    exact ⟨h, hh, hash, hhash, n, hn, index, hindex, i, hi, rfl⟩

theorem ofValue_eq_ok {v : Value} {o : OutPoint} :
    ofValue v = .ok o ↔ hashOf v = .ok o.txHash.val ∧ indexOf v = .ok o.index := by
  simp only [ofValue, hashOf, indexOf, bind_eq_ok, pure_eq_ok, Except.ok.injEq,
    Hash32.ofBytes_eq_ok]
  constructor
  · rintro ⟨h, hh, hash, hhash, n, hn, index, hindex, hash32, rfl, rfl⟩
    exact ⟨⟨h, hh, hhash⟩, n, hn, hindex⟩
  · rintro ⟨⟨h, hh, hhash⟩, n, hn, hindex⟩
    exact ⟨h, hh, _, hhash, n, hn, _, hindex, o.txHash, rfl, rfl⟩

/-- **A transaction serialises an out point like the aggregator's, if that has the right length.** -/
theorem encodeValue_eq_ok {v : Value} {b : Bytes} :
    encodeValue v = .ok b ↔ serializeBytes v = .ok b ∧ b.length = 36 := by
  constructor
  · intro h
    obtain ⟨o, ho, hb⟩ := bind_eq_ok.mp h
    obtain ⟨hhash, hindex⟩ := ofValue_eq_ok.mp ho
    obtain ⟨i, hi, rfl⟩ := encode_eq_ok.mp hb
    exact ⟨serializeBytes_eq_ok.mpr ⟨_, _, i, hhash, hindex, hi, rfl⟩, length_encode hb⟩
  · rintro ⟨h, hlength⟩
    obtain ⟨hash, index, i, hhash, hindex, hi, rfl⟩ := serializeBytes_eq_ok.mp h
    have hlen : hash.length = 32 := by
      rw [List.length_append, Molecule.length_fitting hi] at hlength
      omega
    have ho : ofValue v = .ok ⟨⟨hash, hlen⟩, index⟩ := ofValue_eq_ok.mpr ⟨hhash, hindex⟩
    exact bind_eq_ok.mpr ⟨_, ho, encode_eq_ok.mpr ⟨i, hi, rfl⟩⟩

theorem serialize_eq_ok {v : Value} {t : String} :
    serialize v = .ok t ↔ ∃ b, serializeBytes v = .ok b ∧ t = Hex.encode b := by
  simp only [serialize, bind_eq_ok, pure_eq_ok, Except.ok.injEq, eq_comm (a := t)]

theorem tail_eq_ok {v : Value} {t : String} :
    tail v = .ok t ↔ ∃ b, serializeBytes v = .ok b ∧ t = Hex.encode (b.drop 12) := by
  simp only [tail, bind_eq_ok, pure_eq_ok, Except.ok.injEq, eq_comm (a := t)]

theorem exists_encodeValue_iff {v : Value} :
    (∃ b, encodeValue v = .ok b) ↔
      (∃ t, serialize v = .ok t) ∧ ∃ hash, hashOf v = .ok hash ∧ hash.length = 32 := by
  constructor
  · rintro ⟨b, hb⟩
    obtain ⟨o, ho, -⟩ := bind_eq_ok.mp hb
    exact ⟨⟨_, serialize_eq_ok.mpr ⟨b, (encodeValue_eq_ok.mp hb).1, rfl⟩⟩, _,
      (ofValue_eq_ok.mp ho).1, o.txHash.property⟩
  · rintro ⟨⟨t, ht⟩, hash, hhash, hlength⟩
    obtain ⟨b, hb, -⟩ := serialize_eq_ok.mp ht
    refine ⟨b, encodeValue_eq_ok.mpr ⟨hb, ?_⟩⟩
    obtain ⟨hash', index, i, hhash', -, hi, rfl⟩ := serializeBytes_eq_ok.mp hb
    obtain rfl := Except.ok.inj (hhash.symm.trans hhash')
    rw [List.length_append, hlength, Molecule.length_fitting hi]

/-- What is known of an out point that a transaction can serialise. -/
structure Agrees (v : Value) (b : Bytes) : Prop where
  length : b.length = 36
  serialize : serialize v = .ok (Hex.encode b)
  tail : tail v = .ok (Hex.encode (b.drop 12))
  drop : ∃ hash index, hashOf v = .ok hash ∧ indexOf v = .ok index ∧ hash.length = 32 ∧
    0 ≤ index ∧ index < 2 ^ 32 ∧ b.drop 12 = hash.drop 12 ++ Bytes.ofNatLE 4 index.toNat

theorem agrees_of_encodeValue {v : Value} {b : Bytes} (h : encodeValue v = .ok b) :
    Agrees v b := by
  obtain ⟨hb, hlength⟩ := encodeValue_eq_ok.mp h
  refine ⟨hlength, serialize_eq_ok.mpr ⟨b, hb, rfl⟩, tail_eq_ok.mpr ⟨b, hb, rfl⟩, ?_⟩
  obtain ⟨hash, index, i, hhash, hindex, hi, rfl⟩ := serializeBytes_eq_ok.mp hb
  rw [List.length_append, Molecule.length_fitting hi] at hlength
  obtain ⟨⟨hpos, hlt⟩, rfl⟩ := Molecule.fitting_eq_ok.mp hi
  refine ⟨hash, index, hhash, hindex, by omega, hpos, by omega, ?_⟩
  rw [List.drop_append_of_le_length (by omega)]

end OutPoint

/-! ## The input of a transaction -/

/-- A transaction with one input serialises it as the only item of its vector of inputs. -/
theorem RawTransaction.item?_inputs {v input : Value} {raw : Bytes} (h : encodeValue v = .ok raw)
    (hinput : v.item "inputs" = .ok (.list [input])) :
    ∃ i b, CellInput.ofValue input = .ok i ∧ i.encode = .ok b ∧
      Molecule.item? raw 3 = some (Molecule.fixVec [b]) := by
  obtain ⟨t, ht, hraw⟩ := bind_eq_ok.mp h
  have hread : readAll CellInput.ofValue v "inputs" = .ok t.inputs := by
    simp only [ofValue, bind_eq_ok] at ht
    obtain ⟨_, -, inputs, hinputs, _, -, _, -, _, -, _, -, _, -, ht⟩ := ht
    rw [hinputs, ← Except.ok.inj ht]
  obtain ⟨w, parts, hw, hparts, hread⟩ := readAll_eq_ok.mp hread
  obtain rfl := Except.ok.inj (hinput.symm.trans hw)
  obtain rfl := Except.ok.inj hparts
  obtain ⟨i, hi, hinputs⟩ := mapM_singleton_eq_ok.mp hread
  obtain ⟨_, _, _, inputs, _, -, -, -, hencode, -, hsize, rfl⟩ := encode_eq_ok.mp hraw
  rw [hinputs] at hencode
  obtain ⟨b, hb, rfl⟩ := mapM_singleton_eq_ok.mp hencode
  exact ⟨i, b, hi, hb, Molecule.item?_table hsize 3⟩

namespace Cota

theorem item?_inputs_spendingOf {outPoint output : Value} {deps : List Value} {data : Text}
    {witnesses : Value} {raw : Bytes}
    (h : RawTransaction.encodeValue (spendingOf outPoint output deps data witnesses) = .ok raw) :
    ∃ since point, OutPoint.encodeValue outPoint = .ok point ∧ since.length = 8 ∧
      Molecule.item? raw 3 = some (Molecule.fixVec [since ++ point]) := by
  have hinput : (spendingOf outPoint output deps data witnesses).item "inputs"
      = .ok (.list [.record [("previousOutput", outPoint), ("since", .str "0x0")]]) :=
    Value.item_record.mpr (by simp)
  obtain ⟨i, b, hi, hb, hitem⟩ := RawTransaction.item?_inputs h hinput
  obtain ⟨since, hsince, point, hpoint, rfl⟩ := CellInput.encode_eq_ok.mp hb
  have hread : OutPoint.ofValue outPoint = .ok i.previousOutput := by
    have hpoint : (Value.record [("previousOutput", outPoint), ("since", .str "0x0")]).item
        "previousOutput" = .ok outPoint := Value.item_record.mpr (by simp)
    obtain ⟨shown, -, hi⟩ := bind_eq_ok.mp hi
    obtain ⟨n, -, hi⟩ := bind_eq_ok.mp hi
    rw [hpoint, ok_bind] at hi
    obtain ⟨o, ho, hi⟩ := bind_eq_ok.mp hi
    rw [ho, ← Except.ok.inj hi]
  exact ⟨since, point, bind_eq_ok.mpr ⟨_, hread, hpoint⟩, Molecule.length_fitting hsince, hitem⟩

/-! ## What is signed -/

/-- Of what is signed, the hash covers the same as before. -/
theorem exists_encodeValue_of_sign {tx key signed : Value}
    (h : Signing.sign tx key = .ok signed) : ∃ raw, RawTransaction.encodeValue tx = .ok raw ∧
      RawTransaction.encodeValue signed = .ok raw := by
  obtain ⟨fields, digest, _, bs, rfl, -, hdigest, -, -, rfl⟩ := Signing.sign_eq_ok.mp h
  obtain ⟨p, hp, -⟩ := map_eq_ok.mp hdigest
  obtain ⟨_, _, _, _, hraw, -⟩ := Signing.preimage_eq_ok.mp hp
  obtain ⟨raw, hraw, -⟩ := map_eq_ok.mp hraw
  exact ⟨raw, hraw, (RawTransaction.encodeValue_set_witnesses _ _).trans hraw⟩

section

variable {s : Service} {signed built tx key lock : Value} {c : List Act}
  {out : Except Fault Value} {fixed waiting : Bool}

theorem Sends.callsOnly (h : Sends s signed c out) : CallsOnly laterMethods c := by
  have hsent : ∀ e : Exchange, e.request.method = .str "send_transaction" →
      CallsOnly laterMethods [.exchange e] := by
    intro e hmethod e' he'
    obtain rfl := List.mem_singleton.mp he'
    exact ⟨_, by decide, hmethod⟩
  cases h with
  | unwritten | unasked => exact nofun
  | failed _ fails => exact hsent _ fails.1
  | answered _ gives => exact hsent _ gives.1

theorem Finishes.callsOnly (h : Finishes s tx key lock waiting c out) :
    CallsOnly laterMethods c := by
  have hpolls : ∀ {hash : Value} {c : List Act} {r : Except Fault Value},
      Rpc.Node.Polls s.collector.node hash Rpc.Node.polls c r → CallsOnly laterMethods c :=
    fun waits e he => ⟨_, by decide, waits.method_eq e he⟩
  cases h with
  | locked | unsigned | unprinted => exact nofun
  | unsent _ _ _ sends => exact sends.callsOnly
  | sent _ _ sends => exact sends.callsOnly
  | unsettled _ _ sends waits => exact sends.callsOnly.append (hpolls waits)
  | settled _ _ sends waits => exact sends.callsOnly.append (hpolls waits)

theorem Submits.callsOnly (h : Submits s built key lock fixed waiting c out) :
    CallsOnly laterMethods c := by
  have hplan : ∀ method ∈ depPlan fixed, method ∈ laterMethods := by cases fixed <;> decide
  cases h with
  | undep follows => exact follows.callsOnly.mono hplan
  | dep follows _ _ finishes => exact (follows.callsOnly.mono hplan).append finishes.callsOnly

/-- What is signed is the only line that is printed, or JSON has no text for it, and the run ends
there. -/
def ShowsSigned (signed : Value) (c : List Act) (out : Except Fault Value) : Prop :=
  (printsOf c = [] ∧ ∃ fault, Json.refusal? signed = some fault ∧ out = .error fault) ∨
    printsOf c = [shown signed]

/-- A run that ends in a stage before anything is printed. -/
def EndsEarly (c : List Act) (out : Except Fault Value) : Prop :=
  printsOf c = [] ∧ ∃ stage cause, out = .error (Stage.fault stage cause)

theorem ShowsSigned.behind {c' : List Act} (h : ShowsSigned signed c' out) (hc : printsOf c = []) :
    ShowsSigned signed (c ++ c') out := by
  rwa [ShowsSigned, printsOf_append, hc, List.nil_append]

theorem EndsEarly.behind {c' : List Act} (h : EndsEarly c' out) (hc : printsOf c = []) :
    EndsEarly (c ++ c') out := by
  rwa [EndsEarly, printsOf_append, hc, List.nil_append]

/-- What is signed is printed, and what ends before ends in a stage. -/
theorem Finishes.printsOf_cases (h : Finishes s tx key lock waiting c out) : EndsEarly c out ∨
    ∃ signed, Signing.sign tx key = .ok signed ∧ ShowsSigned signed c out := by
  cases h with
  | locked | unsigned => exact .inl ⟨rfl, _, _, rfl⟩
  | unprinted _ sign refused => exact .inr ⟨_, sign, .inl ⟨rfl, _, refused, rfl⟩⟩
  | unsent _ sign _ sends => exact .inr ⟨_, sign, .inr (congrArg _ sends.handsIn.2)⟩
  | sent sign _ sends => exact .inr ⟨_, sign, .inr (congrArg _ sends.handsIn.2)⟩
  | unsettled sign _ sends waits =>
    exact .inr ⟨_, sign, .inr (congrArg _ (sends.handsIn_waits waits).2)⟩
  | settled sign _ sends waits =>
    exact .inr ⟨_, sign, .inr (congrArg _ (sends.handsIn_waits waits).2)⟩

theorem Submits.printsOf_cases (h : Submits s built key lock fixed waiting c out) :
    EndsEarly c out ∨ ∃ dep tx signed, Submission.appendDep built dep = .ok tx ∧
      Signing.sign tx key = .ok signed ∧ ShowsSigned signed c out := by
  cases h with
  | undep follows => exact .inl ⟨follows.printsOf_eq_nil, _, _, rfl⟩
  | dep follows _ append finishes =>
    exact finishes.printsOf_cases.imp (·.behind follows.printsOf_eq_nil)
      fun ⟨signed, hsigned, hprints⟩ =>
        ⟨_, _, signed, append, hsigned, hprints.behind follows.printsOf_eq_nil⟩

end

/-! ## The flows -/

/-- One request of a method shows a cell, and the transaction spends that cell. -/
def SpendsShown (s : Service) (method : Text) (name : String) (x : List Exchange) (tx : Value) :
    Prop :=
  ∃ e cell fee deps action root entry, x.filter (·.calls method) = [e] ∧ Shows e name cell ∧
    IsSpent s cell fee deps action root entry tx

theorem SpendsShown.input {s : Service} {method : Text} {name : String} {x : List Exchange}
    {built dep tx key signed : Value} (h : SpendsShown s method name x built)
    (htx : Submission.appendDep built dep = .ok tx) (hsigned : Signing.sign tx key = .ok signed) :
    ∃ raw since point params, RawTransaction.encodeValue signed = .ok raw ∧
      Molecule.item? raw 3 = some (Molecule.fixVec [since ++ point]) ∧ since.length = 8 ∧
      point.length = 36 ∧ paramsOf method x = [params] ∧
      params.item name = .ok (.str (Hex.encode (point.drop 12))) := by
  obtain ⟨e, cell, fee, deps, action, root, entry, hasked, ⟨shown, tail, hshown, htail, hitem⟩,
    hbuilt⟩ := h
  obtain ⟨outPoint, output, _, _, _, _, _, hpoint, -, -, -, -, -, rfl⟩ := hbuilt
  obtain rfl := Except.ok.inj (hshown.symm.trans hpoint)
  rw [Submission.appendDep_spendingOf] at htx
  obtain rfl := Except.ok.inj htx
  obtain ⟨raw, hraw, hsignedRaw⟩ := exists_encodeValue_of_sign hsigned
  obtain ⟨since, point, hpoint, hsince, hinputs⟩ := item?_inputs_spendingOf hraw
  have hagrees := OutPoint.agrees_of_encodeValue hpoint
  obtain rfl := Except.ok.inj (htail.symm.trans hagrees.tail)
  exact ⟨raw, since, point, e.request.params, hsignedRaw, hinputs, hsince, hagrees.length,
    by rw [paramsOf, hasked]; rfl, hitem⟩

/-- A flow ends before anything is signed, in a stage or because the account has no key. Or it signs
one transaction with the key of the account and prints it. The first input of that spends the out
point whose end was shown under a name in the only request of a method. -/
def SpendsAsked (method : Text) (name : String) (account : Value) (c : List Act)
    (out : Except Fault Value) : Prop :=
  EndsEarly c out ∨
    (printsOf c = [] ∧ ∃ fault, account.item "private_key" = .error fault ∧ out = .error fault) ∨
    ∃ tx key signed raw since point params, account.item "private_key" = .ok key ∧
      Signing.sign tx key = .ok signed ∧ ShowsSigned signed c out ∧
      RawTransaction.encodeValue signed = .ok raw ∧
      Molecule.item? raw 3 = some (Molecule.fixVec [since ++ point]) ∧ since.length = 8 ∧
      point.length = 36 ∧ paramsOf method (exchangesOf c) = [params] ∧
      params.item name = .ok (.str (Hex.encode (point.drop 12)))

section

variable {network : Network} {s : Service} {lock account : Value} {method : Text} {name : String}

theorem mint_spendsShown {info : Value} : (Mint.transaction s lock info).Talks network
    (SpendsShown s "generate_mint_cota_smt" "out_point") := by
  refine mint_talks.weaken fun x tx hx => ?_
  obtain ⟨e₁, e₂, e₃, cells, cell, define, smt, converted, rfl, hcells, hdefine, hsmt, -, hshows, -,
    hbuilt⟩ := hx
  refine ⟨e₃, cell, _, _, _, _, _, ?_, hshows, hbuilt⟩
  simp [filter_calls_cons hcells.1, filter_calls_cons hdefine.1, filter_calls_cons hsmt.1]

theorem transfer_spendsShown {withdrawalLock transfers : Value} :
    (Transfer.transaction s lock withdrawalLock transfers).Talks network
      (SpendsShown s "generate_transfer_cota_smt" "transfer_out_point") := by
  refine transfer_talks.weaken fun x tx hx => ?_
  obtain ⟨e₁, e₂, e₃, cells, cell, others, other, point, smt, converted, rfl, hcells, hothers, hsmt,
    -, -, hshows, -, -, hbuilt⟩ := hx
  refine ⟨e₃, cell, _, _, _, _, _, ?_, hshows, hbuilt⟩
  simp [filter_calls_cons hcells.1, filter_calls_cons hothers.1, filter_calls_cons hsmt.1]

theorem building_spendsAsked {plan : List Text} {x : Run Value} {fixed waiting : Bool}
    {message : Value → Text} (hmethod : method ∉ laterMethods) (hx : x.Follows network plan)
    (hbuilt : x.Talks network (Built s)) (hshown : x.Talks network (SpendsShown s method name)) :
    (building s x account lock fixed waiting message).Ends network
      (SpendsAsked method name account) := by
  refine building_ends hx (hbuilt.and hshown) (fun _ _ h => h.1)
    (fun _ _ hfollows => .inl ⟨hfollows.printsOf_eq_nil, _, _, rfl⟩)
    (fun _ _ _ hfollows hkey => .inr (.inl ⟨hfollows.printsOf_eq_nil, _, hkey, rfl⟩))
    fun c c' built key out hfollows hbuilt hkey hsubmits => ?_
  refine hsubmits.printsOf_cases.imp (·.behind hfollows.printsOf_eq_nil)
    fun ⟨dep, tx, signed, htx, hsigned, hprints⟩ => .inr ?_
  obtain ⟨raw, since, point, params, hraw, hinputs, hsince, hpoint, hparams, hitem⟩ :=
    hbuilt.2.input htx hsigned
  refine ⟨tx, key, signed, raw, since, point, params, hkey, hsigned,
    hprints.behind hfollows.printsOf_eq_nil, hraw, hinputs, hsince, hpoint, ?_, hitem⟩
  rw [exchangesOf_append, paramsOf_append, hparams,
    paramsOf_eq_nil (hsubmits.callsOnly.filter_calls_eq_nil hmethod), List.append_nil]

end

/-- **Both serialisations of an out point agree, so the cell that the aggregator is asked about is
the cell that is spent.** -/
theorem mintNft_transferNft_spendsAsked :
    (∀ v, (∃ b, OutPoint.encodeValue v = .ok b) ↔
      (∃ t, OutPoint.serialize v = .ok t) ∧
        ∃ hash, OutPoint.hashOf v = .ok hash ∧ hash.length = 32) ∧
    (∀ v b, OutPoint.encodeValue v = .ok b → OutPoint.Agrees v b) ∧
    ∀ network config account fixed waiting,
      (∀ cotaId withdrawals,
        (mintNft config account cotaId withdrawals fixed waiting).Ends network
          (SpendsAsked "generate_mint_cota_smt" "out_point" account)) ∧
      ∀ withdrawalAddress transfers,
        (transferNft config account withdrawalAddress transfers fixed waiting).Ends network
          (SpendsAsked "generate_transfer_cota_smt" "transfer_out_point" account) :=
  ⟨fun _ => OutPoint.exists_encodeValue_iff, fun _ _ => OutPoint.agrees_of_encodeValue,
    fun _ _ _ _ _ =>
      ⟨fun _ _ => mintNft_ends (fun _ _ => .inl ⟨rfl, _, _, rfl⟩) (fun _ => .inl ⟨rfl, _, _, rfl⟩)
        fun _ _ _ _ hs => building_spendsAsked (by decide) mint_follows
          (mint_built (Service.ofConfig_hasDeps hs)) mint_spendsShown,
      fun _ _ => transferNft_ends (fun _ _ => .inl ⟨rfl, _, _, rfl⟩)
        (fun _ => .inl ⟨rfl, _, _, rfl⟩) fun _ _ _ _ _ hs =>
        building_spendsAsked (by decide) transfer_follows
          (transfer_built (Service.ofConfig_hasDeps hs)) transfer_spendsShown⟩⟩

/-- A mint, and an out point with a hash that is too short. -/
theorem mintNft_spendsAsked :
    (∃ signed point params, printsOf (acts (oneCellNetwork plainOutput) []
        (sampleMint.exec (oneCellNetwork plainOutput) {}).2.trace) = [shown signed] ∧
      params ∈ paramsOf "generate_mint_cota_smt" (exchanges (oneCellNetwork plainOutput) []
        (sampleMint.exec (oneCellNetwork plainOutput) {}).2.requests) ∧
      params.item "out_point" = .ok (.str (Hex.encode point)) ∧ point.length = 24) ∧
    let short := Value.record [("txHash", .str "0x01"), ("index", .str "0x5")]
    (OutPoint.serialize short).isOk ∧ ¬∃ b, OutPoint.encodeValue short = .ok b := by
  obtain ⟨hiff, hagrees, hflows⟩ := mintNft_transferNft_spendsAsked
  have hends : sampleMint.Ends (oneCellNetwork plainOutput) _ :=
    (hflows _ sampleConfig sampleAccount true false).1 (.str "0x01") (.list [])
  obtain ⟨hash, hhash⟩ := exists_of_isOk (handedIn_of_observed observed_plainOutput).1
  have hnot : ∀ fault, (sampleMint.exec (oneCellNetwork plainOutput) {}).1 ≠ .error fault := by
    simp [hhash]
  refine ⟨?_, rfl, ?_⟩
  · rcases hends.exec with ⟨-, _, _, hfault⟩ | ⟨-, _, -, hfault⟩ | ⟨_, _, signed, _, _, point,
      params, -, -, ⟨-, _, -, hfault⟩ | hprints, -, -, -, hpoint, hparams, hitem⟩
    · exact absurd hfault (hnot _)
    · exact absurd hfault (hnot _)
    · exact absurd hfault (hnot _)
    · rw [exchangesOf_acts, requestsOf_trace] at hparams
      exact ⟨signed, _, params, hprints, hparams ▸ List.mem_cons_self, hitem, by simp [hpoint]⟩
  · rw [hiff]
    rintro ⟨-, hash, hhash, hlength⟩
    obtain rfl : [1] = hash := Except.ok.inj hhash
    exact absurd hlength (by decide)

end Cota
end CellNft
