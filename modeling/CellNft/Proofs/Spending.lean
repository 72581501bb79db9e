/-
CellNft.Proofs.Spending — the transaction that spends a token cell reaches the node as signed.

The cell comes from a reply in snake case, is read in camel case, and its out point and output go
out in snake case again. `IsSpending.received_signed` says that a node that reads what is sent gets
the signed transaction, provided the keys of the cell return.

Settings and the genesis block may put anything into a cell dep. But a dep whose hash is no text, or
whose index is made of parts, cannot be read, so no transaction with it is signed
(`IsDep.jsonKeys`). In the same way an output with a key that is no text cannot be sent.
-/
import CellNft.Proofs.Plans
import CellNft.Proofs.Signing
import CellNft.Proofs.Wire

namespace CellNft

open Outcome

/-! ## What can be read -/

/-- An out point that can be read is a text and an index, which is a text or bytes. -/
theorem OutPoint.parts_of_ofValue {txHash index : Value} {o : OutPoint}
    (h : OutPoint.ofValue (.record [("txHash", txHash), ("index", index)]) = .ok o) :
    (∃ s, txHash = .str s) ∧ ((∃ t, index = .str t) ∨ ∃ b, index = .bytes b) := by
  have hhash : (Value.record [("txHash", txHash), ("index", index)]).item "txHash"
      = .ok txHash := by
    simp [Value.record, Value.item_dict, Dict.find?_ofFields]
  have hindex : (Value.record [("txHash", txHash), ("index", index)]).item "index"
      = .ok index := by
    simp [Value.record, Value.item_dict, Dict.find?_ofFields]
  rw [OutPoint.ofValue, hhash, ok_bind] at h
  obtain ⟨b, hb, h⟩ := bind_eq_ok.mp h
  rw [hindex, ok_bind] at h
  obtain ⟨n, hn, -⟩ := bind_eq_ok.mp h
  exact ⟨Hex.exists_str_of_decodeValue hb, Hex.str_or_bytes_of_readInt hn⟩

/-- Neither has parts. -/
theorem OutPoint.exists_parts_of_ofValue {txHash index : Value} {o : OutPoint}
    (h : OutPoint.ofValue (.record [("txHash", txHash), ("index", index)]) = .ok o) :
    ∃ s t, txHash = .str s ∧ index = .scalar t := by
  obtain ⟨⟨s, rfl⟩, ⟨t, rfl⟩ | ⟨b, rfl⟩⟩ := parts_of_ofValue h
  · exact ⟨s, _, rfl, rfl⟩
  · exact ⟨s, _, rfl, rfl⟩

/-- A dep that can be read is an out point that can be read, and a type. -/
theorem CellDep.exists_of_ofValue {outPoint depType : Value} {d : CellDep}
    (h : CellDep.ofValue (.record [("outPoint", outPoint), ("depType", depType)]) = .ok d) :
    (∃ o, OutPoint.ofValue outPoint = .ok o) ∧ ∃ t : DepType, depType = .str t.name := by
  have hpoint : (Value.record [("outPoint", outPoint), ("depType", depType)]).item "outPoint"
      = .ok outPoint := by
    simp [Value.record, Value.item_dict, Dict.find?_ofFields]
  have htype : (Value.record [("outPoint", outPoint), ("depType", depType)]).item "depType"
      = .ok depType := by
    simp [Value.record, Value.item_dict, Dict.find?_ofFields]
  rw [CellDep.ofValue, hpoint, ok_bind] at h
  obtain ⟨o, ho, h⟩ := bind_eq_ok.mp h
  rw [htype, ok_bind] at h
  obtain ⟨t, ht, -⟩ := bind_eq_ok.mp h
  exact ⟨⟨o, ho⟩, t, DepType.eq_str_of_ofValue ht⟩

/-- All deps of a transaction with a message can be read. -/
theorem Signing.exists_cellDep_of_message {tx : Value} {deps : List Value} {digest : Bytes}
    (hdeps : tx.item "cellDeps" = .ok (.list deps)) (h : Signing.message tx = .ok digest) :
    ∀ dep ∈ deps, ∃ d, CellDep.ofValue dep = .ok d := by
  obtain ⟨t, ht⟩ := Signing.exists_of_message h
  obtain ⟨ds, hds, -⟩ := bind_eq_ok.mp ht
  obtain ⟨w, parts, hw, hparts, hds⟩ := RawTransaction.readAll_eq_ok.mp hds
  obtain rfl := Except.ok.inj (hdeps.symm.trans hw)
  obtain rfl := Except.ok.inj hparts
  exact exists_of_mapM hds

/-- The data of all outputs of a transaction with a message can be read. -/
theorem Signing.exists_data_of_message {tx : Value} {data : List Value} {digest : Bytes}
    (hdata : tx.item "outputsData" = .ok (.list data)) (h : Signing.message tx = .ok digest) :
    ∀ d ∈ data, ∃ b, Hex.decodeValue d = .ok b := by
  obtain ⟨t, ht⟩ := Signing.exists_of_message h
  simp only [RawTransaction.ofValue, bind_eq_ok] at ht
  obtain ⟨_, -, _, -, _, -, _, -, _, -, _, -, read, hread, -⟩ := ht
  obtain ⟨w, parts, hw, hparts, hread⟩ := RawTransaction.readAll_eq_ok.mp hread
  obtain rfl := Except.ok.inj (hdata.symm.trans hw)
  obtain rfl := Except.ok.inj hparts
  exact exists_of_mapM hread

namespace Cota

/-! ## Cell deps -/

/-- A cell dep as the flows make them. Its out point is that of a cell, or a record of anything. -/
def IsDep (dep : Value) : Prop :=
  ∃ outPoint depType, dep = .record [("outPoint", outPoint), ("depType", depType)] ∧
    (outPoint.JsonKeys KeyCase.Returns ∨
      ∃ txHash index, outPoint = .record [("txHash", txHash), ("index", index)])

/-- A dep that can be read has keys that return, and a type. -/
theorem IsDep.jsonKeys {dep : Value} {d : CellDep} (h : IsDep dep)
    (hread : CellDep.ofValue dep = .ok d) : dep.JsonKeys KeyCase.Returns ∧
      ∃ t : DepType, dep.item "depType" = .ok (.str t.name) := by
  obtain ⟨outPoint, depType, rfl, hform⟩ := h
  obtain ⟨⟨o, ho⟩, t, rfl⟩ := CellDep.exists_of_ofValue hread
  have hkeys : outPoint.JsonKeys KeyCase.Returns := by
    rcases hform with hkeys | ⟨txHash, index, rfl⟩
    · exact hkeys
    · obtain ⟨hashText, index, rfl, rfl⟩ := OutPoint.exists_parts_of_ofValue ho
      refine .record (by simp) ?_
      simp only [List.forall_mem_cons]
      exact ⟨⟨by decide, .scalar _⟩, ⟨by decide, .scalar _⟩, List.forall_mem_nil _⟩
  refine ⟨.record (by simp) ?_, t, by simp [Value.record, Value.item_dict, Dict.find?_ofFields]⟩
  simp only [List.forall_mem_cons]
  exact ⟨⟨by decide, hkeys⟩, ⟨by decide, .scalar _⟩, List.forall_mem_nil _⟩

/-! ## The transaction -/

/-- A transaction that spends a cell. -/
def spendingOf (outPoint output : Value) (deps : List Value) (data : Text) (witnesses : Value) :
    Value := .record [
  ("version", .str "0x0"),
  ("cellDeps", .list deps),
  ("headerDeps", .list []),
  ("inputs", .list [.record [("previousOutput", outPoint), ("since", .str "0x0")]]),
  ("outputs", .list [output]),
  ("outputsData", .list [.str data]),
  ("witnesses", witnesses)]

/-- The witness before it is signed. -/
def unsigned (inputType : Text) : Value :=
  .list [.record [("lock", .str ""), ("inputType", .str inputType), ("outputType", .str "")]]

/-- What the transaction that spends a cell is made of. -/
def IsSpent (s : Service) (cell fee : Value) (deps : List Value) (action : Text)
    (root entry : Except Fault Value) (tx : Value) : Prop :=
  ∃ outPoint output r version newRoot e t, cell.item "outPoint" = .ok outPoint ∧
    s.output cell fee = .ok output ∧ root = .ok r ∧
    Service.versionAndRoot cell r = .ok (version, newRoot) ∧ entry = .ok e ∧ e.text = .ok t ∧
    tx = spendingOf outPoint output deps ("0x" ++ version ++ newRoot)
      (unsigned (action ++ Hex.dropMark t))

section

variable {network : Network} {s : Service} {cell fee : Value} {deps : List Value} {action : Text}
  {root entry : Except Fault Value}

/-- It is put together without a request. -/
theorem spending_keeps {R : RpcRequest → Prop} :
    (spending s cell fee deps action root entry).Keeps network R
      (IsSpent s cell fee deps action root entry) := by
  refine (Run.Keeps.lift fun _ h => h).bind fun outPoint hpoint => ?_
  refine (Run.Keeps.lift fun _ h => h).bind fun output houtput => ?_
  refine (Run.Keeps.lift fun _ h => h).bind fun r hroot => ?_
  have hdata : (Service.outputData cell r).Keeps network R fun data =>
      ∃ version newRoot, Service.versionAndRoot cell r = .ok (version, newRoot) ∧
        data = "0x" ++ version ++ newRoot := by
    refine (Run.Keeps.lift fun _ h => h).bind fun parts hparts => ?_
    refine (Run.Keeps.log _ _).seq fun _ => Run.Keeps.pure ⟨_, _, hparts, rfl⟩
  refine hdata.bind fun data ⟨version, newRoot, hdata, hform⟩ => ?_
  refine (Run.Keeps.lift fun _ h => h).bind fun e hentry => ?_
  refine (Run.Keeps.lift fun _ h => h).bind fun t ht => Run.Keeps.pure ?_
  exact ⟨outPoint, output, r, version, newRoot, e, t, hpoint, houtput, hroot, hdata, hentry, ht,
    hform ▸ rfl⟩

theorem spending_follows (hroot : Plain root) (hentry : Plain entry) :
    (spending s cell fee deps action root entry).Follows network [] := by
  refine .compute (cell.plain_item _) fun outPoint => ?_
  refine .compute (s.plain_output _ _) fun output => ?_
  refine .compute hroot fun r => ?_
  have hdata : (Service.outputData cell r).Follows network [] :=
    .compute (Service.plain_versionAndRoot _ _) fun _ => .log (.pure _)
  refine hdata.bind fun data => ?_
  exact .compute hentry fun e => .compute e.plain_text fun _ => .pure _

end

theorem Service.exists_of_output {s : Service} {cell fee output : Value}
    (h : s.output cell fee = .ok output) : ∃ v d left, cell.item "output" = .ok v ∧
      v.toDict = .ok d ∧ output = .dict (d.set (.str "capacity") (.str left)) := by
  obtain ⟨v, hv, h⟩ := bind_eq_ok.mp h
  obtain ⟨d, hd, h⟩ := bind_eq_ok.mp h
  obtain ⟨shown, -, h⟩ := bind_eq_ok.mp h
  obtain ⟨capacity, -, h⟩ := bind_eq_ok.mp h
  obtain ⟨fee, -, h⟩ := bind_eq_ok.mp h
  obtain ⟨left, -, h⟩ := bind_eq_ok.mp h
  exact ⟨v, d, .ofString left, hv, hd, (Except.ok.inj h).symm⟩

section

variable {outPoint output : Value} {deps : List Value} {data : Text} {witnesses : Value}

theorem item_cellDeps_spendingOf :
    (spendingOf outPoint output deps data witnesses).item "cellDeps" = .ok (.list deps) :=
  Value.item_record.mpr (by simp)

theorem item_outputsData_spendingOf :
    (spendingOf outPoint output deps data witnesses).item "outputsData"
      = .ok (.list [.str data]) :=
  Value.item_record.mpr (by simp)

theorem item_witnesses_spendingOf :
    (spendingOf outPoint output deps data witnesses).item "witnesses" = .ok witnesses :=
  Value.item_record.mpr (by simp)

theorem Submission.appendDep_spendingOf (dep : Value) :
    appendDep (spendingOf outPoint output deps data witnesses) dep
      = .ok (spendingOf outPoint output (deps ++ [dep]) data witnesses) := by
  rw [appendDep, item_cellDeps_spendingOf]
  simp [spendingOf, Value.record, Value.entries, Dict.ofFields, Dict.set, Scalar.same_str]

/-- Signing writes the witnesses into the record. -/
theorem set_witnesses_spendingOf {fields : Dict}
    (h : spendingOf outPoint output deps data witnesses = .dict fields) (signed : Value) :
    .dict (fields.set (.str "witnesses") signed)
      = spendingOf outPoint output deps data signed := by
  obtain rfl := Value.dict.inj h
  simp [spendingOf, Value.record, Dict.ofFields, Dict.set, Scalar.same_str]

theorem jsonKeys_spendingOf (hpoint : outPoint.JsonKeys KeyCase.Returns)
    (houtput : output.JsonKeys KeyCase.Returns) (hdeps : ∀ dep ∈ deps, dep.JsonKeys KeyCase.Returns)
    (hwitnesses : witnesses.JsonKeys KeyCase.Returns) :
    (spendingOf outPoint output deps data witnesses).JsonKeys KeyCase.Returns := by
  have hinput : (Value.record [("previousOutput", outPoint), ("since", .str "0x0")]).JsonKeys
      KeyCase.Returns := by
    refine .record (by simp) ?_
    simp only [List.forall_mem_cons]
    exact ⟨⟨by decide, hpoint⟩, ⟨by decide, .scalar _⟩, List.forall_mem_nil _⟩
  refine .record (by simp) ?_
  simp only [List.forall_mem_cons]
  exact ⟨⟨by decide, .scalar _⟩, ⟨by decide, .list hdeps⟩,
    ⟨by decide, .list (List.forall_mem_nil _)⟩,
    ⟨by decide, .list (by simpa using hinput)⟩, ⟨by decide, .list (by simpa using houtput)⟩,
    ⟨by decide, .list (by simpa using .scalar _)⟩, ⟨by decide, hwitnesses⟩, List.forall_mem_nil _⟩

end

/-! ## Sending -/

/-- A cell whose keys return, also when its output is given as pairs. -/
structure CellReturns (cell : Value) : Prop where
  keys : cell.JsonKeys KeyCase.Returns
  output : ∀ v d, cell.item "output" = .ok v → v.toDict = .ok d →
    ∀ t w, (.str t, w) ∈ d → KeyCase.Returns t

/-- An output that can be sent has keys that return. -/
theorem CellReturns.jsonKeys_output {s : Service} {cell fee output wire : Value}
    (h : CellReturns cell) (houtput : s.output cell fee = .ok output)
    (hwire : output.snakeKeys = .ok wire) : output.JsonKeys KeyCase.Returns := by
  obtain ⟨v, d, left, hv, hd, rfl⟩ := Service.exists_of_output houtput
  obtain ⟨hdistinct, hvalues⟩ := (h.keys.item hv).toDict hd
  have hcapacity : KeyCase.Returns "capacity" := by decide
  refine .dict (hdistinct.set _ _) (fun e he => ?_) (fun e he => ?_)
  · obtain ⟨⟨k, hk⟩, -⟩ := Value.mapKeys_of_mem_dict hwire e he
    obtain ⟨t, ht⟩ : ∃ t, e.1 = .str t := by
      cases hkey : e.1 <;> rw [hkey] at hk <;> first | exact ⟨_, rfl⟩ | cases hk
    refine ⟨t, ht, ?_⟩
    rcases Dict.mem_set he with hmem | ⟨-, hkey | ⟨-, e', hmem, hkey⟩⟩
    · exact h.output v d hv hd t e.2 (ht ▸ hmem)
    · rw [ht, Scalar.str.injEq] at hkey
      exact hkey ▸ hcapacity
    · exact h.output v d hv hd t e'.2 (ht ▸ hkey ▸ hmem)
  · rcases Dict.mem_set he with hmem | ⟨hvalue, -⟩
    · exact hvalues e hmem
    · rw [hvalue]
      exact .scalar _

/-- A transaction that spends a cell whose keys return, with cell deps only. -/
def IsSpending (s : Service) (tx : Value) : Prop :=
  ∃ cell fee outPoint output deps data witnesses, CellReturns cell ∧
    cell.item "outPoint" = .ok outPoint ∧ s.output cell fee = .ok output ∧
    (∀ dep ∈ deps, IsDep dep) ∧ tx = spendingOf outPoint output deps data witnesses

theorem IsSpent.isSpending {s : Service} {cell fee : Value} {deps : List Value} {action : Text}
    {root entry : Except Fault Value} {tx : Value}
    (h : IsSpent s cell fee deps action root entry tx) (hcell : CellReturns cell)
    (hdeps : ∀ dep ∈ deps, IsDep dep) : IsSpending s tx := by
  obtain ⟨outPoint, output, r, version, newRoot, e, t, hpoint, houtput, -, -, -, -, rfl⟩ := h
  exact ⟨cell, fee, outPoint, output, deps, _, _, hcell, hpoint, houtput, hdeps, rfl⟩

theorem IsSpending.appendDep {s : Service} {tx tx' dep : Value} (h : IsSpending s tx)
    (hdep : IsDep dep) (htx' : Submission.appendDep tx dep = .ok tx') : IsSpending s tx' := by
  obtain ⟨cell, fee, outPoint, output, deps, data, witnesses, hcell, hpoint, houtput, hdeps, rfl⟩ :=
    h
  rw [Submission.appendDep_spendingOf] at htx'
  refine ⟨cell, fee, outPoint, output, deps ++ [dep], data, witnesses, hcell, hpoint, houtput, ?_,
    (Except.ok.inj htx').symm⟩
  intro d hd
  rcases List.mem_append.mp hd with hd | hd
  · exact hdeps d hd
  · exact List.mem_singleton.mp hd ▸ hdep

/-- **What the node reads is what was signed.** -/
theorem IsSpending.received_signed {s : Service} {tx key signed wire : Value} (h : IsSpending s tx)
    (hsigned : Signing.sign tx key = .ok signed) (hwire : Wire.transaction signed = .ok wire) :
    Wire.received wire = .ok signed := by
  obtain ⟨cell, fee, outPoint, output, deps, data, witnesses, hcell, hpoint, houtput, hdeps, rfl⟩ :=
    h
  obtain ⟨fields, digest, signer, bs, hfields, -, hdigest, -, -, rfl⟩ :=
    Signing.sign_eq_ok.mp hsigned
  have hform : ∀ dep ∈ deps, dep.JsonKeys KeyCase.Returns ∧
      ∃ t : DepType, dep.item "depType" = .ok (.str t.name) := by
    intro dep hdep
    obtain ⟨d, hd⟩ := Signing.exists_cellDep_of_message item_cellDeps_spendingOf hdigest dep hdep
    exact (hdeps dep hdep).jsonKeys hd
  rw [set_witnesses_spendingOf hfields] at hwire ⊢
  have houtputKeys : output.JsonKeys KeyCase.Returns := by
    obtain ⟨converted, hconverted, -⟩ := bind_eq_ok.mp hwire
    obtain ⟨-, outputs, houtputs⟩ := Value.mapKeys_of_mem_dict hconverted
      (.str "outputs", .list [output]) (by simp [Dict.ofFields])
    obtain ⟨w, hw⟩ := Value.mapKeys_of_mem_list houtputs output List.mem_cons_self
    exact hcell.jsonKeys_output houtput hw
  have hwitnesses : (Value.list (Witnesses.texts bs)).JsonKeys KeyCase.Returns :=
    .list (List.forall_mem_map.mpr fun _ _ => .scalar _)
  have hkeys : (spendingOf outPoint output deps data (.list (Witnesses.texts bs))).JsonKeys
      KeyCase.Returns :=
    jsonKeys_spendingOf (hcell.keys.item hpoint) houtputKeys
      (fun dep hdep => (hform dep hdep).1) hwitnesses
  obtain ⟨wire', hwire', hreceived⟩ := Wire.received_transaction hkeys.textKeys
    item_cellDeps_spendingOf (fun dep hdep => (hform dep hdep).2)
  rw [hwire] at hwire'
  exact Except.ok.inj hwire' ▸ hreceived

end Cota
end CellNft
