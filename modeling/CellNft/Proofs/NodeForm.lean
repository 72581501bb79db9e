/-
CellNft.Proofs.NodeForm — the form in which a node gets a transaction that spends a token cell.

`SpendsCell` says all of it: one input, the cell; one output, which takes the place of the cell's;
one text of data, the version and the new root; one witness, the action and its entry; and the deps.
Everything is stated of the cell as the indexer gave it, in snake case.

`IsSpent.spendsCell`: what is built by `spending`, signed and brought into its form for nodes is
this. The cell was read in camel case, so each part of it is converted back (`mapKeys_rename`). That
the transaction could be signed says that deps, data and witness can be read.
-/
import CellNft.Proofs.Capacity
import CellNft.Proofs.Spending

namespace CellNft

open Outcome

namespace Cota

/-! ## Cell deps -/

/-- A cell dep in the form of nodes. -/
def nodeDep (outPoint : Value) (t : DepType) : Value :=
  .record [("out_point", outPoint), ("dep_type", .str (KeyCase.snake t.name))]

/-- A cell dep is converted, and its type, too. -/
def sentDep (dep : Value) : Except Fault Value := do Wire.cellDep (← dep.snakeKeys)

theorem sentDep_record {outPoint sent : Value} {t : DepType} (h : outPoint.snakeKeys = .ok sent) :
    sentDep (.record [("outPoint", outPoint), ("depType", .str t.name)])
      = .ok (nodeDep sent t) := by
  have hkeys : (Value.record [("outPoint", outPoint), ("depType", .str t.name)]).snakeKeys
      = .ok (.record [("out_point", sent), ("dep_type", .str t.name)]) :=
    Value.snakeKeys_record
      (.cons ⟨(by decide : KeyCase.snake "outPoint" = "out_point"), h⟩
        (.cons ⟨(by decide : KeyCase.snake "depType" = "dep_type"), rfl⟩ .nil)) (by simp)
  have htype : (Value.record [("out_point", sent), ("dep_type", .str t.name)]).item "dep_type"
      = .ok (.str t.name) := Value.item_record.mpr (by simp)
  rw [sentDep, hkeys, ok_bind, Wire.cellDep, htype]
  simp [Value.record, Wire.snakeValue, Value.entries, Dict.ofFields, Dict.set, Scalar.same_str,
    nodeDep]

/-- A dep of the settings that can be read is sent with its hash and its index unchanged. -/
theorem sentDep_parts {txHash index depType sent : Value} {d : CellDep}
    (hread : CellDep.ofValue (.record [
      ("outPoint", .record [("txHash", txHash), ("index", index)]), ("depType", depType)]) = .ok d)
    (hsent : sentDep (.record [
      ("outPoint", .record [("txHash", txHash), ("index", index)]), ("depType", depType)])
      = .ok sent) :
    ∃ t : DepType, depType = .str t.name ∧
      sent = nodeDep (.record [("tx_hash", txHash), ("index", index)]) t := by
  obtain ⟨⟨o, ho⟩, t, rfl⟩ := CellDep.exists_of_ofValue hread
  obtain ⟨hash, index, rfl, rfl⟩ := OutPoint.exists_parts_of_ofValue ho
  have hpoint : (Value.record [("txHash", .str hash), ("index", .scalar index)]).snakeKeys
      = .ok (.record [("tx_hash", .str hash), ("index", .scalar index)]) :=
    Value.snakeKeys_record
      (.cons ⟨(by decide : KeyCase.snake "txHash" = "tx_hash"), rfl⟩
        (.cons ⟨(by decide : KeyCase.snake "index" = "index"), rfl⟩ .nil)) (by simp)
  rw [sentDep_record hpoint] at hsent
  exact ⟨t, rfl, (Except.ok.inj hsent).symm⟩

/-! ## The transaction -/

/-- A transaction with one input and one output in the form of nodes. -/
def nodeForm (outPoint output : Value) (deps : List Value) (data witness : Value) : Value :=
  .record [
    ("version", .str "0x0"),
    ("cell_deps", .list deps),
    ("header_deps", .list []),
    ("inputs", .list [.record [("previous_output", outPoint), ("since", .str "0x0")]]),
    ("outputs", .list [output]),
    ("outputs_data", .list [data]),
    ("witnesses", .list [witness])]

section

variable {outPoint sentPoint output wire : Value} {deps : List Value} {data witness : Text}

/-- The keys of a transaction are converted part by part. -/
theorem snakeKeys_spendingOf {sentOutput : Value} {lowered : List Value}
    (hpoint : outPoint.snakeKeys = .ok sentPoint) (houtput : output.snakeKeys = .ok sentOutput)
    (hdeps : deps.mapM Value.snakeKeys = .ok lowered) :
    (spendingOf outPoint output deps data (.list [.str witness])).snakeKeys
      = .ok (nodeForm sentPoint sentOutput lowered (.str data) (.str witness)) := by
  have hinput : (Value.record [("previousOutput", outPoint), ("since", .str "0x0")]).snakeKeys
      = .ok (.record [("previous_output", sentPoint), ("since", .str "0x0")]) :=
    Value.snakeKeys_record
      (.cons ⟨(by decide : KeyCase.snake "previousOutput" = "previous_output"), hpoint⟩
        (.cons ⟨(by decide : KeyCase.snake "since" = "since"), rfl⟩ .nil)) (by simp)
  refine Value.snakeKeys_record (.cons ⟨(by decide : KeyCase.snake "version" = "version"), rfl⟩
    (.cons ⟨(by decide : KeyCase.snake "cellDeps" = "cell_deps"), ?_⟩
    (.cons ⟨(by decide : KeyCase.snake "headerDeps" = "header_deps"), rfl⟩
    (.cons ⟨(by decide : KeyCase.snake "inputs" = "inputs"), ?_⟩
    (.cons ⟨(by decide : KeyCase.snake "outputs" = "outputs"), ?_⟩
    (.cons ⟨(by decide : KeyCase.snake "outputsData" = "outputs_data"), rfl⟩
    (.cons ⟨(by decide : KeyCase.snake "witnesses" = "witnesses"), rfl⟩ .nil))))))) (by simp)
  · exact Value.snakeKeys_list hdeps
  · exact Value.snakeKeys_list (by simp [hinput])
  · exact Value.snakeKeys_list (by simp [houtput])

/-- A transaction can be sent if its parts can be converted. -/
theorem exists_transaction_spendingOf {sentOutput : Value} {sentDeps : List Value}
    (hpoint : outPoint.snakeKeys = .ok sentPoint) (houtput : output.snakeKeys = .ok sentOutput)
    (hdeps : deps.mapM sentDep = .ok sentDeps) :
    ∃ wire, Wire.transaction (spendingOf outPoint output deps data (.list [.str witness]))
      = .ok wire := by
  have heach : ∀ dep ∈ deps, ∃ w sent, dep.snakeKeys = .ok w ∧ Wire.cellDep w = .ok sent := by
    intro dep hdep
    obtain ⟨sent, hsent⟩ := exists_of_mapM hdeps dep hdep
    obtain ⟨w, hw, hsent⟩ := bind_eq_ok.mp hsent
    exact ⟨w, sent, hw, hsent⟩
  obtain ⟨lowered, hlowered⟩ := exists_forall₂ fun dep hdep =>
    (heach dep hdep).imp fun w ⟨_, hw, _⟩ => hw
  have hconverted : ∀ w ∈ lowered, ∃ sent, Wire.cellDep w = .ok sent := by
    intro w hw
    obtain ⟨dep, hdep, hlower⟩ := exists_of_forall₂ hlowered w hw
    obtain ⟨w', sent, hw', hsent⟩ := heach dep hdep
    obtain rfl := Except.ok.inj (hlower.symm.trans hw')
    exact ⟨sent, hsent⟩
  obtain ⟨converted, hconverted⟩ := exists_forall₂ hconverted
  have hitem : (nodeForm sentPoint sentOutput lowered (.str data) (.str witness)).item "cell_deps"
      = .ok (.list lowered) := Value.item_record.mpr (by simp)
  rw [Wire.transaction, snakeKeys_spendingOf hpoint houtput (mapM_eq_ok_iff.mpr hlowered), ok_bind,
    hitem, ok_bind, Wire.cellDeps, Value.elements_list, ok_bind, mapM_eq_ok_iff.mpr hconverted]
  exact ⟨_, rfl⟩

/-- A transaction that is sent is converted part by part. -/
theorem transaction_spendingOf (hpoint : outPoint.snakeKeys = .ok sentPoint)
    (hwire : Wire.transaction (spendingOf outPoint output deps data (.list [.str witness]))
      = .ok wire) :
    ∃ sentOutput sentDeps, output.snakeKeys = .ok sentOutput ∧
      deps.mapM sentDep = .ok sentDeps ∧
      wire = nodeForm sentPoint sentOutput sentDeps (.str data) (.str witness) := by
  rw [Wire.transaction] at hwire
  obtain ⟨converted, hconverted, hwire⟩ := bind_eq_ok.mp hwire
  have hparts := Value.mapKeys_of_mem_dict hconverted
  obtain ⟨lowered, hlowered⟩ : ∃ lowered, deps.mapM Value.snakeKeys = .ok lowered := by
    obtain ⟨-, w, hw⟩ := hparts (.str "cellDeps", .list deps) (by simp [Dict.ofFields])
    obtain ⟨lowered, hlowered, -⟩ := bind_eq_ok.mp hw
    rw [Value.mapKeysItems_eq_mapM] at hlowered
    exact ⟨lowered, hlowered⟩
  obtain ⟨sentOutput, hsentOutput⟩ : ∃ sentOutput, output.snakeKeys = .ok sentOutput := by
    obtain ⟨-, w, hw⟩ := hparts (.str "outputs", .list [output]) (by simp [Dict.ofFields])
    exact Value.mapKeys_of_mem_list hw output List.mem_cons_self
  obtain rfl := Except.ok.inj
    (hconverted.symm.trans (snakeKeys_spendingOf hpoint hsentOutput hlowered))
  have hdeps : (nodeForm sentPoint sentOutput lowered (.str data) (.str witness)).item "cell_deps"
      = .ok (.list lowered) := Value.item_record.mpr (by simp)
  rw [hdeps, ok_bind] at hwire
  obtain ⟨deps', hdeps', hwire⟩ := bind_eq_ok.mp hwire
  rw [Wire.cellDeps, Value.elements_list, ok_bind] at hdeps'
  obtain ⟨sentDeps, hsentDeps, hdeps'⟩ := bind_eq_ok.mp hdeps'
  obtain rfl := Except.ok.inj hdeps'
  refine ⟨sentOutput, sentDeps, hsentOutput, mapM_mapM hlowered hsentDeps, ?_⟩
  rw [← Except.ok.inj hwire]
  simp [nodeForm, Value.record, Dict.ofFields, Dict.set, Scalar.same_str]

end

/-! ## What takes the place of the cell -/

/-- The output is that of the cell, less the fee: every key, every other value and the order are
the same. -/
def PaysFee (fee : Int) (cell sent : Value) : Prop :=
  ∃ output d shown capacity left, cell.item "output" = .ok output ∧ output.toDict = .ok d ∧
    d.find? (.str "capacity") = some shown ∧ Hex.readInt shown = .ok capacity ∧
    Hex.readInt left = .ok (capacity - fee) ∧ 0 < capacity - fee ∧
    sent = .dict (d.set (.str "capacity") left)

/-- The output is made of that of the cell: converted, taken for a dictionary, less the fee, and
converted back. -/
def IsRemade (fee : Int) (cell sent : Value) : Prop :=
  ∃ output converted d shown capacity left, cell.item "output" = .ok output ∧
    output.camelKeys = .ok converted ∧ converted.toDict = .ok d ∧
    d.find? (.str "capacity") = some shown ∧ Hex.readInt shown = .ok capacity ∧
    Hex.readInt left = .ok (capacity - fee) ∧ 0 < capacity - fee ∧
    (Value.dict (d.set (.str "capacity") left)).snakeKeys = .ok sent

theorem Service.output_eq_ok {s : Service} {cell output : Value}
    (h : s.output cell .null = .ok output) :
    ∃ v d shown capacity, cell.item "output" = .ok v ∧ v.toDict = .ok d ∧
      d.find? (.str "capacity") = some shown ∧ Hex.readInt shown = .ok capacity ∧
      s.fee < capacity ∧ output = .dict (d.set (.str "capacity")
        (.str (String.ofList (Integer.hexText (capacity - s.fee))))) := by
  obtain ⟨v, hv, hd⟩ := bind_eq_ok.mp h
  obtain ⟨d, hd, hshown⟩ := bind_eq_ok.mp hd
  obtain ⟨shown, hshown, hcapacity⟩ := bind_eq_ok.mp hshown
  obtain ⟨capacity, hcapacity, -⟩ := bind_eq_ok.mp hcapacity
  have hfind := Value.item_dict.mp hshown
  rw [output_eq ⟨⟨v, hv, hd⟩, hfind, hcapacity⟩ .usual] at h
  split at h
  · rename_i hpos
    exact ⟨v, d, shown, capacity, hv, hd, hfind, hcapacity, hpos, (Except.ok.inj h).symm⟩
  · cases h

section

variable {s : Service} {cell output sent : Value}

theorem isRemade_of_output (hcell : cell.JsonKeys KeyCase.Survives)
    (houtput : s.output (cell.rename KeyCase.camel) .null = .ok output)
    (hsent : output.snakeKeys = .ok sent) : IsRemade s.fee cell sent := by
  obtain ⟨v, d, shown, capacity, hv, hd, hshown, hcapacity, hpos, rfl⟩ :=
    Service.output_eq_ok houtput
  obtain ⟨raw, hraw, rfl⟩ := Value.item_of_camel hcell.textKeys
    (by decide : KeyCase.Survives "output") (by decide) hv
  exact ⟨raw, _, d, shown, capacity, _, hraw,
    Value.camelKeys_eq_rename (hcell.item hraw).textKeys, hd, hshown, hcapacity,
    Hex.readInt_hexText _, by omega, hsent⟩

/-- An output that is an object comes back as it was, less the fee. -/
theorem IsRemade.paysFee {fee : Int} {d : Dict} (h : IsRemade fee cell sent)
    (hcell : cell.JsonKeys KeyCase.Survives) (hd : cell.item "output" = .ok (.dict d)) :
    PaysFee fee cell sent := by
  obtain ⟨output, converted, d', shown, capacity, left, houtput, hconverted, hd', hshown, hcapacity,
    hleft, hpos, hsent⟩ := h
  obtain rfl := Except.ok.inj (hd.symm.trans houtput)
  have hkeys := (hcell.item hd).textKeys
  rw [Value.camelKeys_eq_rename hkeys, Value.rename_dict] at hconverted
  obtain rfl := Except.ok.inj hconverted
  obtain rfl := Except.ok.inj hd'
  have hname : KeyCase.camel "capacity" = "capacity" := by decide
  have hkey : KeyCase.Survives "capacity" := by decide
  obtain ⟨t, rfl⟩ := Hex.exists_scalar_of_readInt hcapacity
  obtain ⟨u, rfl⟩ := Hex.exists_scalar_of_readInt hleft
  cases hkeys with
  | dict distinct keys each =>
    have hfind := Value.find?_rename (fun _ _ => KeyCase.Survives.injective) keys hkey
    rw [hname, hshown] at hfind
    obtain ⟨w, hw, hrename⟩ := Option.map_eq_some_iff.mp hfind.symm
    obtain rfl := Value.eq_scalar_of_rename hrename
    refine ⟨_, d, _, capacity, _, hd, rfl, hw, hcapacity, hleft, hpos, ?_⟩
    have hset := Value.rename_set (.scalar u) (fun _ _ => KeyCase.Survives.injective) keys hkey
    rw [hname, Value.rename_scalar] at hset
    rw [← hset, ← Value.rename_dict] at hsent
    have hback := Value.snakeKeys_rename_camel
      (Value.TextKeys.set_entry (.dict distinct keys each) hkey (.scalar u))
    exact Except.ok.inj (hsent.symm.trans hback)

end

/-- The version of the layout of a cell's data is their first byte, and zero if there are none. -/
def versionOf (cell : Value) : Except Fault UInt8 := do
  let data ← cell.field "output_data"
  if data.holds then return (← Hex.decodeValue data).headD 0 else return 0

theorem Service.versionDigits_eq (data : Bytes) :
    versionDigits data = Hex.digits [data.headD 0] := by
  cases data with
  | nil => decide
  | cons version rest => rfl

/-- The data are the version and the bytes of the root, if they can be read. -/
theorem decode_versionAndRoot {cell root : Value} {versionText newRoot : Text} {b : Bytes}
    (hcell : cell.JsonKeys KeyCase.Survives)
    (h : Service.versionAndRoot (cell.rename KeyCase.camel) root = .ok (versionText, newRoot))
    (hread : Hex.decode ("0x" ++ versionText ++ newRoot) = .ok b) :
    ∃ version rest, versionOf cell = .ok version ∧ Hex.decodeValue root = .ok rest ∧
      b = version :: rest := by
  obtain ⟨field, hfield, h⟩ := bind_eq_ok.mp h
  obtain ⟨old, hold, h⟩ := bind_eq_ok.mp h
  obtain ⟨t, ht, h⟩ := bind_eq_ok.mp h
  obtain ⟨rfl, rfl⟩ := Prod.mk.inj (Except.ok.inj h)
  rw [Service.versionDigits_eq] at hread
  obtain ⟨rest, hrest, rfl⟩ := Hex.decode_behind hread
  refine ⟨old.headD 0, rest, ?_, ?_, rfl⟩
  · rw [Value.field_camel hcell.textKeys (by decide : KeyCase.Survives "output_data") (by decide)]
      at hfield
    obtain ⟨raw, hraw, rfl⟩ := map_eq_ok.mp hfield
    rw [versionOf, hraw, ok_bind]
    rw [Value.orElse, Value.holds_rename] at hold
    split
    · rename_i hholds
      rw [if_pos hholds] at hold
      obtain ⟨u, hu⟩ := Hex.exists_str_of_decodeValue hold
      rw [hu] at hold
      rw [Value.eq_scalar_of_rename hu, hold]
      rfl
    · rename_i hholds
      rw [if_neg hholds] at hold
      have hzero : Hex.decodeValue (.str "0x00") = .ok [0] := by
        have hwritten : Hex.encode [0] = "0x00" := by decide
        rw [← hwritten, Hex.decodeValue_encode]
      rw [Except.ok.inj (hold.symm.trans hzero)]
      rfl
  · rw [Hex.decodeValue, ht, ok_bind, hrest]

/-! ## The witness -/

/-- The text of an entry with a byte in front. -/
def behindByte (action : UInt8) (entry : Text) : Text :=
  "0x" ++ Text.ofChars (Hex.digits [action]) ++ Hex.dropMark entry

/-- The witness that holds a lock, and an entry behind its action. -/
def witnessOf (lock : Bytes) (action : UInt8) (entry : Bytes) : WitnessArgs :=
  ⟨some lock, some (action :: entry), none⟩

section

variable {outPoint output : Value} {deps : List Value} {data entry : Text} {action : UInt8}

theorem firstOfValue_unsigned {first : WitnessArgs} (h : Witnesses.firstOfValue
      (spendingOf outPoint output deps data (unsigned (behindByte action entry))) = .ok first) :
    ∃ bytes, Hex.decode entry = .ok bytes ∧ first = ⟨none, some (action :: bytes), none⟩ := by
  have habsent : WitnessArgs.fieldOfValue (.str "") = .ok none := by
    have hempty : (Hex.dropMark "").isEmpty = true := by decide
    rw [WitnessArgs.fieldOfValue, if_pos hempty]
  rw [Witnesses.firstOfValue, item_witnesses_spendingOf, ok_bind, unsigned, Value.first_cons,
    ok_bind, Value.record, WitnessArgs.ofValue, WitnessArgs.ofRecord] at h
  simp only [Value.field, Dict.find?_ofFields, ok_bind, List.find?_cons, decide_true,
    String.reduceEq, decide_false, Option.map_some, Option.getD_some, habsent] at h
  obtain ⟨bytes, hbytes, h⟩ := bind_eq_ok.mp h
  have hpresent : (Hex.dropMark (behindByte action entry)).isEmpty = false := rfl
  rw [WitnessArgs.fieldOfValue, hpresent, if_neg Bool.false_ne_true] at hbytes
  obtain ⟨b, hb, rfl⟩ := map_eq_ok.mp hbytes
  obtain ⟨rest, hrest, rfl⟩ := Hex.decode_behind hb
  exact ⟨rest, hrest, (Except.ok.inj h).symm⟩

theorem othersOfValue_unsigned {others : List Bytes} (h : Witnesses.othersOfValue
      (spendingOf outPoint output deps data (unsigned (behindByte action entry))) = .ok others) :
    others = [] := by
  rw [Witnesses.othersOfValue, item_witnesses_spendingOf] at h
  exact (Except.ok.inj h).symm

/-- **A signed transaction has one witness, with a lock and the entry behind its action.** -/
theorem sign_spendingOf {key signed : Value} (h : Signing.sign
      (spendingOf outPoint output deps data (unsigned (behindByte action entry))) key
        = .ok signed) :
    ∃ lock bytes, Hex.decode entry = .ok bytes ∧
      WitnessArgs.decode (witnessOf lock action bytes).encode
        = .ok (witnessOf lock action bytes) ∧
      signed = spendingOf outPoint output deps data
        (.list [.str (Hex.encode (witnessOf lock action bytes).encode)]) := by
  obtain ⟨fields, digest, signer, bs, hfields, -, -, -, hbs, rfl⟩ := Signing.sign_eq_ok.mp h
  obtain ⟨first, others, hfirst, hothers, hsize, rfl⟩ := Witnesses.withLock_eq_ok.mp hbs
  obtain ⟨bytes, hbytes, rfl⟩ := firstOfValue_unsigned hfirst
  obtain rfl := othersOfValue_unsigned hothers
  have hlen := signer.length_sign digest
  have hne : signer.sign digest ≠ [] := by
    intro hnil
    rw [hnil] at hlen
    exact absurd hlen (by decide)
  have hcanonical : (witnessOf (signer.sign digest) action bytes).canonical
      = witnessOf (signer.sign digest) action bytes := by
    rw [WitnessArgs.canonical, witnessOf, WitnessArgs.filled_of_ne_nil hne]
    rfl
  have hdecode := WitnessArgs.decode_encode (w := witnessOf (signer.sign digest) action bytes) hsize
  rw [hcanonical] at hdecode
  exact ⟨signer.sign digest, bytes, hbytes, hdecode, set_witnesses_spendingOf hfields _⟩

end

/-! ## All of it -/

/-- A transaction that spends a token cell, in the form of nodes. What its output has to be like is
left open. -/
def SpendsCell (IsOutput : Value → Value → Prop) (cell root entry : Value) (action : UInt8)
    (deps : List Value) (wire : Value) : Prop :=
  ∃ outPoint output data witness version rootBytes lock entryBytes witnessBytes,
    wire = nodeForm outPoint output deps data witness ∧
    cell.item "out_point" = .ok outPoint ∧ IsOutput cell output ∧
    versionOf cell = .ok version ∧ Hex.decodeValue root = .ok rootBytes ∧
    Hex.decodeValue data = .ok (version :: rootBytes) ∧
    Hex.decodeValue entry = .ok entryBytes ∧ Hex.decodeValue witness = .ok witnessBytes ∧
    WitnessArgs.decode witnessBytes = .ok (witnessOf lock action entryBytes)

theorem SpendsCell.mono {P Q : Value → Value → Prop} {cell root entry wire : Value} {action : UInt8}
    {deps : List Value} (h : SpendsCell P cell root entry action deps wire)
    (imp : ∀ output, P cell output → Q cell output) :
    SpendsCell Q cell root entry action deps wire := by
  obtain ⟨outPoint, output, data, witness, version, rootBytes, lock, entryBytes, witnessBytes,
    hform, hpoint, houtput, hspent⟩ := h
  exact ⟨outPoint, output, data, witness, version, rootBytes, lock, entryBytes, witnessBytes,
    hform, hpoint, imp output houtput, hspent⟩

/-- **What is built, signed and sent spends the cell.** -/
theorem IsSpent.spendsCell {s : Service} {cell dep tx tx' key signed wire : Value}
    {deps : List Value} {action : UInt8} {root entry : Except Fault Value}
    (htx : IsSpent s (cell.rename KeyCase.camel) .null deps
      ("0x" ++ Text.ofChars (Hex.digits [action])) root entry tx)
    (hcell : cell.JsonKeys KeyCase.Survives)
    (htx' : Submission.appendDep tx dep = .ok tx') (hsigned : Signing.sign tx' key = .ok signed)
    (hwire : Wire.transaction signed = .ok wire) :
    ∃ r e sentDeps, root = .ok r ∧ entry = .ok e ∧
      (∀ d ∈ deps ++ [dep], ∃ read, CellDep.ofValue d = .ok read) ∧
      (deps ++ [dep]).mapM sentDep = .ok sentDeps ∧
      SpendsCell (IsRemade s.fee) cell r e action sentDeps wire := by
  obtain ⟨outPoint, output, r, _, _, e, t, hpoint, houtput, hroot, hdata, hentry, ht, rfl⟩ := htx
  rw [Submission.appendDep_spendingOf] at htx'
  obtain rfl := Except.ok.inj htx'
  obtain ⟨_, digest, _, _, _, _, hdigest, -⟩ := Signing.sign_eq_ok.mp hsigned
  obtain ⟨lock, entryBytes, hentryBytes, hwitness, rfl⟩ := sign_spendingOf hsigned
  obtain ⟨rawPoint, hrawPoint, rfl⟩ := Value.item_of_camel hcell.textKeys
    (by decide : KeyCase.Survives "out_point") (by decide) hpoint
  have hback := Value.snakeKeys_rename_camel (hcell.item hrawPoint).textKeys
  obtain ⟨sentOutput, sentDeps, hsentOutput, hsentDeps, rfl⟩ := transaction_spendingOf hback hwire
  obtain ⟨dataBytes, hdataBytes⟩ := Signing.exists_data_of_message
    item_outputsData_spendingOf hdigest _ List.mem_cons_self
  obtain ⟨version, rootBytes, hversion, hrootBytes, rfl⟩ :=
    decode_versionAndRoot hcell hdata hdataBytes
  refine ⟨r, e, sentDeps, hroot, hentry,
    Signing.exists_cellDep_of_message item_cellDeps_spendingOf hdigest, hsentDeps, ?_⟩
  refine ⟨rawPoint, sentOutput, _, _, version, rootBytes, lock, entryBytes, _, rfl, hrawPoint,
    isRemade_of_output hcell houtput hsentOutput, hversion, hrootBytes, hdataBytes, ?_,
    Hex.decodeValue_encode _, hwitness⟩
  rw [Hex.decodeValue, ht, ok_bind, hentryBytes]

end Cota
end CellNft
