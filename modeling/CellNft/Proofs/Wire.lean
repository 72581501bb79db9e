/-
CellNft.Proofs.Wire — a transaction on its way to a node can be read back.

`Wire.received` reads what a node gets: keys in camel case, and the type of each cell dep, too.
`received_transaction` says that nothing is lost on the way: a transaction whose keys return at
every depth and whose cell deps have types is read back as it was, order of keys included. So what a
node computes from it is the same (`transaction_lossless`).

The wire form is the renamed form of a transaction with lowered dep types (`cellDep_rename`), so one
renaming back is enough; then the types are raised again.
-/
import CellNft.Chain.Signing
import CellNft.Chain.Wire
import CellNft.Proofs.KeyCase

namespace CellNft

open Outcome

namespace Wire

/-- A cell dep with its type in camel case. -/
def raiseType (dep : Value) : Except Fault Value := do
  match ← dep.item "depType" with
  | .str t => return .dict (Dict.set (← dep.entries) (.str "depType") (.str (KeyCase.camel t)))
  | _ => throw .wrongType

/-- The transaction that a node gets. -/
def received (wire : Value) : Except Fault Value := do
  let tx ← wire.camelKeys
  let deps ← (← (← tx.item "cellDeps").elements).mapM raiseType
  return .dict (Dict.set (← tx.entries) (.str "cellDeps") (.list deps))

theorem returns_depType (t : DepType) : KeyCase.Returns (.ofString t.name) := by
  cases t <;> decide

/-- A cell dep on the wire is a renamed one, whose type is raised again. -/
theorem cellDep_rename {dep : Value} {t : DepType} (hkeys : dep.TextKeys KeyCase.Returns)
    (htype : dep.item "depType" = .ok (.str t.name)) :
    ∃ low, cellDep (dep.rename KeyCase.snake) = .ok (low.rename KeyCase.snake) ∧
      low.TextKeys KeyCase.Returns ∧ raiseType low = .ok dep := by
  obtain ⟨d, rfl, hfind⟩ := Value.exists_dict_of_item htype
  have hkey : KeyCase.Returns "depType" := by decide
  have hsnake : KeyCase.snake "depType" = "dep_type" := by decide
  have hwire := Value.find?_snake hkeys hkey hfind
  rw [hsnake, Value.rename_scalar] at hwire
  refine ⟨.dict (d.set (.str "depType") (.str (KeyCase.snake t.name))), ?_, ?_, ?_⟩
  · rw [Value.rename_dict, Value.rename_dict, Value.snake_set hkeys hkey, hsnake,
      Value.rename_scalar, cellDep, Value.item_dict.mpr hwire]
    rfl
  · exact hkeys.set_entry hkey (.scalar _)
  · rw [raiseType, Value.item_set_self, ok_bind]
    simp only [Value.entries, ok_bind, Dict.set_set]
    rw [returns_depType t, Dict.set_of_find? hfind]
    rfl

/-- **What is sent is read back as it was.** -/
theorem received_transaction {tx : Value} {deps : List Value}
    (hkeys : tx.TextKeys KeyCase.Returns) (hdeps : tx.item "cellDeps" = .ok (.list deps))
    (htypes : ∀ dep ∈ deps, ∃ t : DepType, dep.item "depType" = .ok (.str t.name)) :
    ∃ wire, transaction tx = .ok wire ∧ received wire = .ok tx := by
  obtain ⟨fields, rfl, hfind⟩ := Value.exists_dict_of_item hdeps
  have hkey : KeyCase.Returns "cellDeps" := by decide
  have hsnake : KeyCase.snake "cellDeps" = "cell_deps" := by decide
  have hwire := Value.find?_snake hkeys hkey hfind
  rw [hsnake, Value.rename_list] at hwire
  obtain ⟨lows, hlows⟩ := exists_forall₂ fun dep hdep => by
    obtain ⟨t, ht⟩ := htypes dep hdep
    exact cellDep_rename ((hkeys.item hdeps).mem_list dep hdep) ht
  have hlowered : (deps.map (Value.rename KeyCase.snake)).mapM cellDep
      = .ok (lows.map (Value.rename KeyCase.snake)) := by
    rw [mapM_eq_ok_iff, List.forall₂_map_left_iff, List.forall₂_map_right_iff]
    exact hlows.imp fun _ _ h => h.1
  have hraised : lows.mapM raiseType = .ok deps :=
    mapM_eq_ok_iff.mpr (hlows.imp fun _ _ h => h.2.2).flip
  have hlowKeys : (Value.list lows).TextKeys KeyCase.Returns := by
    refine .list fun low hlow => ?_
    obtain ⟨dep, -, -, hkeys, -⟩ := exists_of_forall₂ hlows low hlow
    exact hkeys
  let lowTx := fields.set (.str "cellDeps") (.list lows)
  have hlowTx : (Value.dict lowTx).TextKeys KeyCase.Returns := hkeys.set_entry hkey hlowKeys
  refine ⟨(Value.dict lowTx).rename KeyCase.snake, ?_, ?_⟩
  · rw [transaction, Value.snakeKeys_eq_rename hkeys, ok_bind, Value.rename_dict,
      Value.item_dict.mpr hwire, ok_bind, cellDeps, Value.elements_list, ok_bind, hlowered,
      Value.rename_dict, Value.snake_set hkeys hkey, hsnake, Value.rename_list]
    rfl
  · rw [received, Value.camelKeys_rename_snake hlowTx, ok_bind, Value.item_set_self, ok_bind,
      Value.elements_list, ok_bind, hraised]
    simp only [Value.entries, ok_bind, lowTx, Dict.set_set, Dict.set_of_find? hfind]
    rfl

/-- **A node that reads what is sent has the transaction, its serialisation and its message.** -/
theorem transaction_lossless {tx : Value} {deps : List Value}
    (hkeys : tx.TextKeys KeyCase.Returns) (hdeps : tx.item "cellDeps" = .ok (.list deps))
    (htypes : ∀ dep ∈ deps, ∃ t : DepType, dep.item "depType" = .ok (.str t.name)) :
    ∃ wire, transaction tx = .ok wire ∧ received wire = .ok tx ∧
      (received wire >>= RawTransaction.encodeValue) = RawTransaction.encodeValue tx ∧
      (received wire >>= Signing.message) = Signing.message tx := by
  obtain ⟨wire, hwire, hreceived⟩ := received_transaction hkeys hdeps htypes
  refine ⟨wire, hwire, hreceived, ?_, ?_⟩
  · rw [hreceived, ok_bind]
  · rw [hreceived, ok_bind]

/-- A transaction with deps of either type, and a note whose values look like keys. -/
def annotated : Value :=
  let outPoint := Value.record [
    ("txHash", .str (Hex.encode (List.replicate 32 7))), ("index", .str "0x0")]
  .record [
    ("version", .str "0x0"),
    ("cellDeps", .list [
      .record [("outPoint", outPoint), ("depType", .str "depGroup")],
      .record [("depType", .str "code"), ("outPoint", outPoint)]]),
    ("headerDeps", .list []), ("inputs", .list []), ("outputs", .list []),
    ("outputsData", .list []),
    ("witnesses", .list [.record [("inputType", .str "0x02")]]),
    ("extraNote", .record [
      ("someKey", .str "someKey"), ("anotherKey", .list [.str "another_key"])])]

/-- It is read back as it was, and with the message it had. -/
theorem transaction_lossless_annotated : ∃ wire digest, transaction annotated = .ok wire ∧
    received wire = .ok annotated ∧ Signing.message annotated = .ok digest ∧
    (received wire >>= Signing.message) = .ok digest := by
  have hkeys : annotated.JsonKeys KeyCase.Returns := .of_hasKeys (by decide)
  have hdeps : ∃ deps, annotated.item "cellDeps" = .ok (.list deps) ∧
      ∀ dep ∈ deps, ∃ t : DepType, dep.item "depType" = .ok (.str t.name) := by
    refine ⟨_, Value.item_dict.mpr (Dict.find?_ofFields _ _), ?_⟩
    simp only [List.forall_mem_cons]
    refine ⟨⟨.depGroup, ?_⟩, ⟨.code, ?_⟩, List.forall_mem_nil _⟩ <;>
      simp [Value.record, Value.item_dict, Dict.find?_ofFields, DepType.name]
  obtain ⟨deps, hdeps, htypes⟩ := hdeps
  obtain ⟨digest, hdigest⟩ :=
    exists_of_isOk (x := Signing.message annotated) (by decide +kernel)
  obtain ⟨wire, hwire, hreceived, -, hmessage⟩ := transaction_lossless hkeys.textKeys hdeps htypes
  exact ⟨wire, digest, hwire, hreceived, hdigest, hmessage.trans hdigest⟩

end Wire
end CellNft
