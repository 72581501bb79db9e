/-
CellNft.Proofs.Sending — which signed transactions can be printed and sent.

A transaction is printed as JSON before it is sent. What comes out of replies has a JSON text, and so
has what had to be read for the signature, with one exception: an index may be read of bytes, which
JSON cannot carry. Only the settings can hold bytes.

* `Cota.Built.refusal?_signed`: what is signed has no JSON text exactly if the settings give the
  index of a dep as bytes.

When a transaction is sent, its keys are converted, and only texts can be. Everything in the
transaction of a flow that comes out of a JSON document, or that had to be read for the signature,
has texts for keys. What is left is the output: it is a dictionary that may be made of pairs, and the
first part of a pair may be anything.

* `Cota.exists_wire_iff`: what is signed can be sent exactly if no such key is in the output.
-/
import CellNft.Proofs.Delivery

namespace CellNft

open Outcome

/-! ## Converting keys -/

namespace Value

variable {P : Text → Prop}

theorem exists_key_of_same {k : Scalar} {t : Text} (h : k = .str t ∨ k.same (.str t)) :
    k = .str t := by
  rw [Scalar.same_str, decide_eq_true_eq, or_self] at h
  exact h

/-- Documents stay documents when their keys are converted. -/
theorem JsonKeys.of_camelKeys {v w : Value} (h : JsonKeys P v) (hw : v.camelKeys = .ok w) :
    JsonKeys (fun _ => True) w := by
  induction h generalizing w with
  | scalar s =>
    obtain rfl := Except.ok.inj hw
    exact .scalar s
  | @list items each ih =>
    obtain ⟨ws, hws, hw⟩ := bind_eq_ok.mp hw
    obtain rfl := Except.ok.inj hw
    rw [mapKeysItems_eq_mapM] at hws
    refine .list fun y hy => ?_
    obtain ⟨x, hx, hxy⟩ := exists_of_forall₂ (mapM_eq_ok_iff.mp hws) y hy
    exact ih x hx hxy
  | @dict d distinct keys each ih =>
    obtain ⟨pairs, hpairs, hw⟩ := bind_eq_ok.mp hw
    obtain rfl := Except.ok.inj hw
    rw [mapKeysEntries_eq_mapM] at hpairs
    have hpair : ∀ e ∈ pairs, (∃ u, e.1 = .str u) ∧ JsonKeys (fun _ => True) e.2 := by
      intro e he
      obtain ⟨e', he', hconverted⟩ := exists_of_forall₂ (mapM_eq_ok_iff.mp hpairs) e he
      obtain ⟨t, ht, -⟩ := keys e' he'
      rw [ht] at hconverted
      obtain ⟨k, hk, hconverted⟩ := bind_eq_ok.mp hconverted
      obtain ⟨u, hu, hconverted⟩ := bind_eq_ok.mp hconverted
      obtain rfl := Except.ok.inj hconverted
      exact ⟨⟨_, (Except.ok.inj hk).symm⟩, ih e' he' hu⟩
    refine .dict (Dict.distinct_ofPairs pairs) (fun e he => ?_) (fun e he => ?_)
    · obtain ⟨e', he', -, hkey⟩ := Dict.exists_mem_of_mem_ofPairs he
      obtain ⟨u, hu⟩ := (hpair e' he').1
      exact ⟨u, exists_key_of_same (hu ▸ hkey), trivial⟩
    · obtain ⟨e', he', hvalue, -⟩ := Dict.exists_mem_of_mem_ofPairs he
      exact hvalue ▸ (hpair e' he').2

/-- Keys that are texts can be converted back. -/
theorem exists_snakeKeys_dict {d : Dict} (keys : ∀ e ∈ d, ∃ t, e.1 = .str t)
    (each : ∀ e ∈ d, ∃ w, e.2.snakeKeys = .ok w) : ∃ w, (dict d).snakeKeys = .ok w := by
  have heach : ∀ e ∈ d, ∃ e', (do
      let k ← KeyCase.snakeKey e.1
      let v ← mapKeys KeyCase.snakeKey e.2
      return (k, v)) = Except.ok e' := by
    intro e he
    obtain ⟨t, ht⟩ := keys e he
    obtain ⟨w, hw⟩ := each e he
    rw [snakeKeys] at hw
    exact ⟨(.str (KeyCase.snake t), w), by rw [ht, hw]; rfl⟩
  obtain ⟨pairs, hpairs⟩ := exists_forall₂ heach
  refine ⟨_, bind_eq_ok.mpr ⟨pairs, ?_, rfl⟩⟩
  rw [mapKeysEntries_eq_mapM]
  exact mapM_eq_ok_iff.mpr hpairs

theorem JsonKeys.exists_snakeKeys {v : Value} (h : JsonKeys P v) :
    ∃ w, v.snakeKeys = .ok w := by
  induction h with
  | scalar s => exact ⟨_, rfl⟩
  | list _ ih =>
    obtain ⟨ws, hws⟩ := exists_forall₂ ih
    exact ⟨_, snakeKeys_list (mapM_eq_ok_iff.mpr hws)⟩
  | dict _ keys _ ih =>
    exact exists_snakeKeys_dict (fun e he => (keys e he).imp fun _ h => h.1) ih

end Value

/-- A key stays when another entry is written. -/
theorem Dict.exists_mem_set {d : Dict} (k : Scalar) (v : Value) {e : Scalar × Value} (h : e ∈ d) :
    ∃ w, (e.1, w) ∈ d.set k v := by
  induction d with
  | nil => cases h
  | cons f rest ih =>
    rw [Dict.set]
    rcases List.mem_cons.mp h with rfl | h
    · split
      · exact ⟨v, List.mem_cons_self⟩
      · exact ⟨e.2, List.mem_cons_self⟩
    · split
      · exact ⟨e.2, List.mem_cons_of_mem _ h⟩
      · obtain ⟨w, hw⟩ := ih h
        exact ⟨w, List.mem_cons_of_mem _ hw⟩

namespace Json.Carried

variable {v w : Value}

theorem cellDep (h : Carried v) (hw : Wire.cellDep v = .ok w) : Carried w := by
  obtain ⟨depType, -, hw⟩ := bind_eq_ok.mp hw
  obtain ⟨converted, hconverted, hw⟩ := bind_eq_ok.mp hw
  obtain ⟨d, hd, hw⟩ := bind_eq_ok.mp hw
  obtain rfl := Value.eq_dict_of_entries hd
  cases depType with
  | scalar s =>
    cases s with
    | str t =>
      obtain rfl := Except.ok.inj hconverted
      exact Except.ok.inj hw ▸ h.set (carried_str _) (carried_str _)
    | _ => cases hconverted
  | _ => cases hconverted

/-- What JSON carries, it carries in the form of nodes, too. -/
theorem wire (h : Carried v) (hw : Wire.transaction v = .ok w) : Carried w := by
  obtain ⟨converted, hconverted, hw⟩ := bind_eq_ok.mp hw
  obtain ⟨deps, hdeps, hw⟩ := bind_eq_ok.mp hw
  obtain ⟨sent, hsent, hw⟩ := bind_eq_ok.mp hw
  obtain ⟨d, hd, hw⟩ := bind_eq_ok.mp hw
  obtain rfl := Value.eq_dict_of_entries hd
  have hcarried := h.snakeKeys hconverted
  have hsentCarried : Carried sent := by
    obtain ⟨parts, hparts, hsent⟩ := bind_eq_ok.mp hsent
    obtain ⟨lowered, hlowered, hsent⟩ := bind_eq_ok.mp hsent
    cases deps with
    | list items =>
      refine Except.ok.inj hsent ▸ carried_list.mpr fun y hy => ?_
      obtain ⟨x, hx, hxy⟩ := exists_of_forall₂ (mapM_eq_ok_iff.mp hlowered) y hy
      exact ((hcarried.item hdeps).elements hparts x hx).cellDep hxy
    | _ => exact Except.ok.inj hsent ▸ hcarried.item hdeps
  exact Except.ok.inj hw ▸ hcarried.set (carried_str _) hsentCarried

end Json.Carried

namespace Cota

/-! ## Deps -/

/-- The index of the out point in a dep is given as bytes. -/
def BytesIndex (dep : Value) : Prop :=
  ∃ point b, dep.item "outPoint" = .ok point ∧ point.item "index" = .ok (.bytes b)

/-- JSON does not carry such a dep. -/
theorem BytesIndex.not_carried {dep : Value} (h : BytesIndex dep) : ¬Json.Carried dep := by
  obtain ⟨point, b, hpoint, hindex⟩ := h
  exact fun hdep => Json.not_carried_bytes b ((hdep.item hpoint).item hindex)

/-- A cell dep whose out point is a record of anything. -/
def IsRecordDep (dep : Value) : Prop :=
  ∃ txHash index depType, dep = .record [
    ("outPoint", .record [("txHash", txHash), ("index", index)]), ("depType", depType)]

/-- A dep that can be read has a JSON text, unless its index is given as bytes. -/
theorem IsRecordDep.refusal?_eq_some_iff {dep : Value} {d : CellDep} {fault : Fault}
    (h : IsRecordDep dep) (hread : CellDep.ofValue dep = .ok d) :
    Json.refusal? dep = some fault ↔ fault = .wrongType ∧ BytesIndex dep := by
  obtain ⟨txHash, index, depType, rfl⟩ := h
  obtain ⟨⟨o, ho⟩, t, rfl⟩ := CellDep.exists_of_ofValue hread
  obtain ⟨⟨s, rfl⟩, hindex⟩ := OutPoint.parts_of_ofValue ho
  have hbytes : BytesIndex (.record [("outPoint", .record [("txHash", .str s), ("index", index)]),
      ("depType", .str t.name)]) ↔ ∃ b, index = .bytes b := by
    simp [BytesIndex, Value.record, Value.item_dict, Dict.find?_ofFields]
  rw [hbytes]
  rcases hindex with ⟨u, rfl⟩ | ⟨b, rfl⟩
  · refine ⟨fun h => absurd h.symm (Option.some_ne_none fault), ?_⟩
    rintro ⟨-, b, ⟨⟩⟩
  · refine ⟨fun h => ⟨(Option.some.inj h).symm, b, rfl⟩, ?_⟩
    rintro ⟨rfl, -⟩
    rfl

/-- The dep that is made of settings has the index of the settings. -/
theorem Service.isRecordDep_cellDep {conf : Value} {d : Dict} (h : cellDep conf = .ok d) :
    IsRecordDep (.dict d) ∧ (BytesIndex (.dict d) ↔ BytesIndex conf) := by
  obtain ⟨point, hpoint, h⟩ := bind_eq_ok.mp h
  obtain ⟨txHash, -, h⟩ := bind_eq_ok.mp h
  rw [hpoint, ok_bind] at h
  obtain ⟨index, hindex, h⟩ := bind_eq_ok.mp h
  obtain ⟨v, -, h⟩ := bind_eq_ok.mp h
  obtain ⟨depType, -, h⟩ := bind_eq_ok.mp h
  obtain rfl := Except.ok.inj h
  refine ⟨⟨_, _, _, rfl⟩, ?_⟩
  simp [BytesIndex, Value.record, Value.item_dict, Dict.find?_ofFields, hpoint, hindex]

/-- The settings give the index of a dep that is signed as bytes. -/
def BytesIndexed (config : Value) (fixed : Bool) : Prop :=
  (∃ conf, config.item "cotaCellDep" = .ok conf ∧ BytesIndex conf) ∨
    fixed = true ∧ ∃ conf, config.item "secp256k1Dep" = .ok conf ∧ BytesIndex conf

/-- The dep of the default lock is a record, which has an index of bytes only if the settings have
one. -/
theorem LockDepFrom.isRecordDep {s : Service} {config dep : Value} {fixed : Bool}
    {x : List Exchange} (h : LockDepFrom s fixed x dep) (hs : s.Reads config) :
    IsRecordDep dep ∧ (BytesIndex dep ↔
      fixed = true ∧ ∃ conf, config.item "secp256k1Dep" = .ok conf ∧ BytesIndex conf) := by
  cases h with
  | settings configured =>
    obtain ⟨conf, hconf, hdep⟩ := hs.secp256k1Dep _ configured
    obtain ⟨hrecord, hbytes⟩ := Service.isRecordDep_cellDep hdep
    refine ⟨hrecord, hbytes.trans ⟨fun h => ⟨rfl, conf, hconf, h⟩, ?_⟩⟩
    rintro ⟨-, conf', hconf', h⟩
    exact Except.ok.inj (hconf.symm.trans hconf') ▸ h
  | genesis =>
    refine ⟨⟨_, _, _, rfl⟩, ?_⟩
    simp [BytesIndex, Value.record, Value.item_dict, Dict.find?_ofFields]

/-- A cell dep whose out point comes out of a document, or is a record of anything. -/
def Convertible (dep : Value) : Prop :=
  ∃ outPoint depType, dep = .record [("outPoint", outPoint), ("depType", depType)] ∧
    ((∃ P, outPoint.JsonKeys P) ∨
      ∃ txHash index, outPoint = .record [("txHash", txHash), ("index", index)])

theorem IsDep.convertible {dep : Value} (h : IsDep dep) : Convertible dep := by
  obtain ⟨outPoint, depType, hdep, hform⟩ := h
  exact ⟨outPoint, depType, hdep, hform.imp_left fun h => ⟨_, h⟩⟩

theorem LockDepFrom.convertible {s : Service} {fixed : Bool} {x : List Exchange} {dep : Value}
    (h : LockDepFrom s fixed x dep) (hs : s.HasDeps) : Convertible dep := by
  cases h with
  | settings configured => exact (hs.2 _ configured).convertible
  | genesis => exact ⟨_, _, rfl, .inr ⟨_, _, rfl⟩⟩

/-- A dep that can be read can be sent. -/
theorem Convertible.exists_sentDep {dep : Value} {d : CellDep} (h : Convertible dep)
    (hread : CellDep.ofValue dep = .ok d) : ∃ sent, sentDep dep = .ok sent := by
  obtain ⟨outPoint, depType, rfl, hform⟩ := h
  obtain ⟨⟨o, ho⟩, t, rfl⟩ := CellDep.exists_of_ofValue hread
  have hpoint : ∃ P, outPoint.JsonKeys P := by
    rcases hform with hkeys | ⟨txHash, index, rfl⟩
    · exact hkeys
    · obtain ⟨hash, index, rfl, rfl⟩ := OutPoint.exists_parts_of_ofValue ho
      refine ⟨fun _ => True, .record (by simp) ?_⟩
      simp only [List.forall_mem_cons]
      exact ⟨⟨trivial, .scalar _⟩, ⟨trivial, .scalar _⟩, List.forall_mem_nil _⟩
  obtain ⟨P, hkeys⟩ := hpoint
  obtain ⟨sent, hsent⟩ := hkeys.exists_snakeKeys
  exact ⟨_, sentDep_record hsent⟩

/-! ## The first cell -/

theorem ReadCell.unique {result cell cell' : Value} (h : ReadCell result cell)
    (h' : ReadCell result cell') : cell = cell' := by
  obtain ⟨converted, cells, hconverted, hcells, hcell⟩ := h
  obtain ⟨converted', cells', hconverted', hcells', hcell'⟩ := h'
  obtain rfl := Except.ok.inj (hconverted.symm.trans hconverted')
  obtain rfl := Except.ok.inj (hcells.symm.trans hcells')
  exact Except.ok.inj (hcell.symm.trans hcell')

theorem ReadCell.carried {result cell : Value} (h : ReadCell result cell)
    (hresult : Json.Carried result) : Json.Carried cell := by
  obtain ⟨converted, cells, hconverted, hcells, hcell⟩ := h
  exact ((hresult.camelKeys hconverted).field hcells).first hcell

theorem Service.carried_output {s : Service} {cell fee output : Value} (hcell : Json.Carried cell)
    (h : s.output cell fee = .ok output) : Json.Carried output := by
  obtain ⟨v, d, left, hv, hd, rfl⟩ := exists_of_output h
  exact ((hcell.item hv).toDict hd).set (Json.carried_str _) (Json.carried_str _)

theorem ReadCell.jsonKeys {P : Text → Prop} {result cell : Value} (h : ReadCell result cell)
    (hresult : result.JsonKeys P) : cell.JsonKeys fun _ => True := by
  obtain ⟨converted, cells, hconverted, hcells, hcell⟩ := h
  have hitem := Value.item_of_field hcells (by
    rintro rfl
    cases hcell)
  exact ((hresult.of_camelKeys hconverted).item hitem).first hcell

/-- The output of the first cell is no object but a list of pairs, and the first part of one of the
pairs is no text. -/
def Unsendable (x : List Exchange) : Prop :=
  ∃ e cells cell output d, x.head? = some e ∧ e.Gives "get_cells" cells ∧ ReadCell cells cell ∧
    cell.item "output" = .ok output ∧ (∀ fields, output ≠ .dict fields) ∧ output.toDict = .ok d ∧
    ∃ entry ∈ d, ∀ t, entry.1 ≠ .str t

/-- It is about the keys of the dictionary that the output is taken for. -/
theorem not_unsendable_iff {x : List Exchange} {e : Exchange} {P : Text → Prop}
    {cells cell output : Value} {d : Dict} (hhead : x.head? = some e)
    (hgives : e.Gives "get_cells" cells) (hcell : ReadCell cells cell) (hkeys : cell.JsonKeys P)
    (houtput : cell.item "output" = .ok output) (hd : output.toDict = .ok d) :
    ¬ Unsendable x ↔ ∀ entry ∈ d, ∃ t, entry.1 = .str t := by
  constructor
  · intro hnot entry hentry
    by_contra hkey
    refine hnot ⟨e, cells, cell, output, d, hhead, hgives, hcell, houtput, ?_, hd, entry, hentry,
      fun t ht => hkey ⟨t, ht⟩⟩
    rintro fields rfl
    obtain rfl := Except.ok.inj hd
    cases hkeys.item houtput with
    | dict _ keys _ =>
      obtain ⟨t, ht, -⟩ := keys entry hentry
      exact hkey ⟨t, ht⟩
  · rintro htexts ⟨e', cells', cell', output', d', hhead', hgives', hcell', houtput', -, hd',
      entry, hentry, hkey⟩
    obtain rfl := Option.some.inj (hhead.symm.trans hhead')
    obtain rfl := Except.ok.inj (hgives.2.symm.trans hgives'.2)
    obtain rfl := hcell.unique hcell'
    obtain rfl := Except.ok.inj (houtput.symm.trans houtput')
    obtain rfl := Except.ok.inj (hd.symm.trans hd')
    obtain ⟨t, ht⟩ := htexts entry hentry
    exact hkey t ht

theorem unsendable_append {x : List Exchange} (h : x ≠ []) (y : List Exchange) :
    Unsendable (x ++ y) ↔ Unsendable x := by
  rw [Unsendable, Unsendable, List.head?_append_of_ne_nil _ h]

theorem mem_resultsOf {x : List Exchange} {e : Exchange} {method : Text} {v : Value} (he : e ∈ x)
    (h : e.Gives method v) : .ok v ∈ resultsOf method x := by
  refine List.mem_map.mpr ⟨e, List.mem_filter.mpr ⟨he, ?_⟩, h.2⟩
  rw [Exchange.calls_of_method h.1, decide_eq_true_eq]

theorem CellKeys.of_append {P : Text → Prop} {x y : List Exchange} (h : CellKeys P (x ++ y)) :
    CellKeys P x := by
  intro result hresult
  refine h result ?_
  rw [resultsOf_append]
  exact List.mem_append_left _ hresult

/-! ## What is signed -/

/-- A transaction that spends the first cell of the first reply. The deps that it has before the one
of the default lock are that of the tokens and such that come out of replies. They are convertible,
if the replies with cells are documents. -/
def Built (s : Service) (x : List Exchange) (tx : Value) : Prop :=
  ∃ e cells cell deps root entry, ∃ action : UInt8, x.head? = some e ∧
    e.Gives "get_cells" cells ∧ ReadCell cells cell ∧ .dict s.cotaCellDep ∈ deps ∧
    (∀ dep ∈ deps, dep = .dict s.cotaCellDep ∨ Json.Carried dep) ∧
    (CellKeys (fun _ => True) x → ∀ dep ∈ deps, Convertible dep) ∧
    IsSpent s cell .null deps ("0x" ++ Text.ofChars (Hex.digits [action])) root entry tx

theorem Built.ne_nil {s : Service} {x : List Exchange} {tx : Value} (h : Built s x tx) : x ≠ [] := by
  obtain ⟨e, _, _, _, _, _, _, hhead, -⟩ := h
  rintro rfl
  cases hhead

/-- A dep can always be added to what was built. -/
theorem Built.exists_appendDep {s : Service} {x : List Exchange} {tx : Value} (h : Built s x tx)
    (dep : Value) : ∃ tx', Submission.appendDep tx dep = .ok tx' := by
  obtain ⟨e, cells, cell, deps, root, entry, action, -, -, -, -, -, -, htx⟩ := h
  obtain ⟨outPoint, output, r, _, _, e, t, -, -, -, -, -, -, rfl⟩ := htx
  exact ⟨_, Submission.appendDep_spendingOf dep⟩

/-- Only deps can stand against a JSON text of a transaction whose other parts have one. -/
theorem refusal?_spendingOf {outPoint output witnesses : Value} {deps : List Value} {data : Text}
    (hpoint : Json.Carried outPoint) (houtput : Json.Carried output)
    (hwitnesses : Json.Carried witnesses) :
    Json.refusal? (spendingOf outPoint output deps data witnesses)
      = Json.refusal? (.list deps) := by
  have hpoint : Json.refusal? outPoint = none := hpoint
  have houtput : Json.refusal? output = none := houtput
  have hwitnesses : Json.refusal? witnesses = none := hwitnesses
  simp [spendingOf, Value.record, Dict.ofFields, Json.refusal?, Json.entriesRefusal?,
    Json.itemsRefusal?, Json.scalarRefusal?, hpoint, houtput, hwitnesses]

/-- **What was built and signed can be printed, unless an index in the settings is given as
bytes.** -/
theorem Built.refusal?_signed {s : Service} {x y : List Exchange} {config tx dep tx' key signed :
    Value} {fixed : Bool} (hbuilt : Built s x tx) (hs : s.Reads config)
    (hdep : LockDepFrom s fixed y dep) (htx' : Submission.appendDep tx dep = .ok tx')
    (hsigned : Signing.sign tx' key = .ok signed) (fault : Fault) :
    Json.refusal? signed = some fault ↔ fault = .wrongType ∧ BytesIndexed config fixed := by
  obtain ⟨e, cells, cell, deps, root, entry, action, -, hgives, hcell, hcota, hdeps, -, htx⟩ :=
    hbuilt
  obtain ⟨outPoint, output, r, _, _, v, t, hpoint, houtput, -, -, -, -, rfl⟩ := htx
  rw [Submission.appendDep_spendingOf] at htx'
  obtain rfl := Except.ok.inj htx'
  obtain ⟨fields, digest, signer, bs, -, -, hdigest, -⟩ := Signing.sign_eq_ok.mp hsigned
  obtain ⟨lock, bytes, -, -, rfl⟩ := sign_spendingOf hsigned
  have hcarried := hcell.carried hgives.carried
  rw [refusal?_spendingOf (hcarried.item hpoint) (Service.carried_output hcarried houtput)
    (by simp)]
  -- Deps that were signed could be read.
  have hread := Signing.exists_cellDep_of_message item_cellDeps_spendingOf hdigest
  obtain ⟨conf, hconf, hcotaDep⟩ := hs.cotaCellDep
  obtain ⟨hcotaRecord, hcotaIndex⟩ := Service.isRecordDep_cellDep hcotaDep
  obtain ⟨hrecord, hindex⟩ := hdep.isRecordDep hs
  have heach : ∀ d ∈ deps ++ [dep], IsRecordDep d ∨ Json.Carried d := by
    intro d hd
    rcases List.mem_append.mp hd with hd | hd
    · rcases hdeps d hd with rfl | hcarried
      · exact .inl hcotaRecord
      · exact .inr hcarried
    · exact .inl (List.mem_singleton.mp hd ▸ hrecord)
  have hrefused : ∀ d ∈ deps ++ [dep], ∀ f,
      Json.refusal? d = some f ↔ f = .wrongType ∧ BytesIndex d := by
    intro d hd f
    obtain ⟨read, hd'⟩ := hread d hd
    rcases heach d hd with hrecord | hcarried
    · exact hrecord.refusal?_eq_some_iff hd'
    · have hnone : Json.refusal? d = none := hcarried
      have hnot : ¬BytesIndex d := fun h => h.not_carried hcarried
      simp [hnone, hnot]
  rw [Json.refusal?_list_iff hrefused]
  refine and_congr_right fun _ => ⟨?_, ?_⟩
  · rintro ⟨d, hd, hbytes⟩
    rcases List.mem_append.mp hd with hd | hd
    · rcases hdeps d hd with rfl | hd
      · exact .inl ⟨conf, hconf, hcotaIndex.mp hbytes⟩
      · exact absurd hd hbytes.not_carried
    · exact .inr (hindex.mp (List.mem_singleton.mp hd ▸ hbytes))
  · rintro (⟨conf', hconf', hbytes⟩ | hbytes)
    · obtain rfl := Except.ok.inj (hconf.symm.trans hconf')
      exact ⟨_, List.mem_append_left _ hcota, hcotaIndex.mpr hbytes⟩
    · exact ⟨dep, List.mem_append_right _ List.mem_cons_self, hindex.mpr hbytes⟩

/-- An output that was made of a cell's can be sent exactly if the keys of that were texts. -/
theorem exists_snakeKeys_output {P : Text → Prop} {s : Service} {cell v output : Value} {d : Dict}
    (hcell : cell.JsonKeys P) (hv : cell.item "output" = .ok v) (hd : v.toDict = .ok d)
    (houtput : s.output cell .null = .ok output) :
    (∃ w, output.snakeKeys = .ok w) ↔ ∀ e ∈ d, ∃ t, e.1 = .str t := by
  obtain ⟨v', d', left, hv', hd', rfl⟩ := Service.exists_of_output houtput
  obtain rfl := Except.ok.inj (hv.symm.trans hv')
  obtain rfl := Except.ok.inj (hd.symm.trans hd')
  constructor
  · rintro ⟨w, hw⟩ e he
    obtain ⟨u, hu⟩ := Dict.exists_mem_set (.str "capacity") (.str left) he
    obtain ⟨⟨k, hk⟩, -⟩ := Value.mapKeys_of_mem_dict hw _ hu
    cases hkey : e.1 with
    | str t => exact ⟨t, rfl⟩
    | _ =>
      rw [hkey] at hk
      cases hk
  · intro keys
    have hvalues := ((hcell.item hv).toDict hd).2
    refine Value.exists_snakeKeys_dict (fun e he => ?_) (fun e he => ?_)
    · rcases Dict.mem_set he with hmem | ⟨-, hkey | ⟨-, e', hmem, hkey⟩⟩
      · exact keys e hmem
      · exact ⟨_, hkey⟩
      · exact hkey ▸ keys e' hmem
    · rcases Dict.mem_set he with hmem | ⟨hvalue, -⟩
      · exact (hvalues e hmem).exists_snakeKeys
      · rw [hvalue]
        exact ⟨_, rfl⟩

/-- **What was built and signed can be sent, unless a key of its output is no text.** -/
theorem exists_wire_iff {s : Service} {x : List Exchange} {tx dep tx' key signed : Value}
    (hbuilt : Built s x tx) (hkeys : CellKeys (fun _ => True) x) (hdep : Convertible dep)
    (htx' : Submission.appendDep tx dep = .ok tx') (hsigned : Signing.sign tx' key = .ok signed) :
    (∃ wire, Wire.transaction signed = .ok wire) ↔ ¬ Unsendable x := by
  obtain ⟨e, cells, cell, deps, root, entry, action, hhead, hgives, hcell, -, -, hdeps, htx⟩ :=
    hbuilt
  obtain ⟨outPoint, output, r, _, _, v, t, hpoint, houtput, -, -, -, -, rfl⟩ := htx
  rw [Submission.appendDep_spendingOf] at htx'
  obtain rfl := Except.ok.inj htx'
  obtain ⟨fields, digest, signer, bs, -, -, hdigest, -⟩ := Signing.sign_eq_ok.mp hsigned
  obtain ⟨lock, bytes, -, -, rfl⟩ := sign_spendingOf hsigned
  have hcellKeys := hcell.jsonKeys (hkeys _ (mem_resultsOf (List.mem_of_mem_head? hhead) hgives))
  obtain ⟨output', d, left, houtput', hd, -⟩ := Service.exists_of_output houtput
  obtain ⟨sentPoint, hsentPoint⟩ := (hcellKeys.item hpoint).exists_snakeKeys
  rw [not_unsendable_iff hhead hgives hcell hcellKeys houtput' hd,
    ← exists_snakeKeys_output hcellKeys houtput' hd houtput]
  constructor
  · rintro ⟨wire, hwire⟩
    obtain ⟨sentOutput, -, hsentOutput, -⟩ := transaction_spendingOf hsentPoint hwire
    exact ⟨sentOutput, hsentOutput⟩
  · rintro ⟨sentOutput, hsentOutput⟩
    -- Deps that were signed could be read.
    have hsentDeps : ∀ d ∈ deps ++ [dep], ∃ sent, sentDep d = .ok sent := by
      intro d hd
      obtain ⟨read, hread⟩ :=
        Signing.exists_cellDep_of_message item_cellDeps_spendingOf hdigest d hd
      rcases List.mem_append.mp hd with hd | hd
      · exact (hdeps hkeys d hd).exists_sentDep hread
      · obtain rfl := List.mem_singleton.mp hd
        exact hdep.exists_sentDep hread
    obtain ⟨sent, hsent⟩ := exists_forall₂ hsentDeps
    exact exists_transaction_spendingOf hsentPoint hsentOutput (mapM_eq_ok_iff.mpr hsent)

/-! ## What is built -/

section

variable {network : Network} {s : Service} {lock : Value}

theorem mint_built (hs : s.HasDeps) {info : Value} :
    (Mint.transaction s lock info).Talks network (Built s) := by
  refine mint_talks.weaken fun x tx hx => ?_
  obtain ⟨e₁, e₂, e₃, cells, cell, define, smt, converted, rfl, hcells, -, -, hcell, -, -, hbuilt⟩ :=
    hx
  have haction : Mint.action = "0x" ++ Text.ofChars (Hex.digits [0x02]) := by decide
  rw [haction] at hbuilt
  refine ⟨e₁, cells, cell, _, _, _, _, rfl, hcells, hcell, List.mem_cons_self,
    fun dep hdep => .inl (List.mem_singleton.mp hdep), fun _ dep hdep => ?_, hbuilt⟩
  exact List.mem_singleton.mp hdep ▸ hs.1.convertible

theorem transfer_built (hs : s.HasDeps) {withdrawalLock transfers : Value} :
    (Transfer.transaction s lock withdrawalLock transfers).Talks network (Built s) := by
  refine transfer_talks.weaken fun x tx hx => ?_
  obtain ⟨e₁, e₂, e₃, cells, cell, others, other, point, smt, converted, rfl, hcells, hothers, -,
    hcell, hother, -, -, hpoint, hbuilt⟩ := hx
  have haction : Transfer.action = "0x" ++ Text.ofChars (Hex.digits [0x06]) := by decide
  rw [haction] at hbuilt
  have hcarried := (hother.carried hothers.carried).item hpoint
  refine ⟨e₁, cells, cell, _, _, _, _, rfl, hcells, hcell, by simp, fun dep hdep => ?_,
    fun hkeys dep hdep => ?_, hbuilt⟩
  · rcases List.mem_cons.mp hdep with rfl | hdep
    · exact .inr (Json.carried_record.mpr (by simp [hcarried]))
    · exact .inl (List.mem_singleton.mp hdep)
  rcases List.mem_cons.mp hdep with rfl | hdep
  · have hresult := hkeys _ (mem_resultsOf (by simp) hothers)
    exact ⟨point, _, rfl, .inl ⟨_, (hother.jsonKeys hresult).item hpoint⟩⟩
  · exact List.mem_singleton.mp hdep ▸ hs.1.convertible

end

end Cota
end CellNft
